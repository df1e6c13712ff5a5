import SharedConstants.Diagnostic
import SharedConstants.Diagnostic.Misuse
import SharedConstants.Text.Lines
import SharedConstants.Text.Word

/-!
# Templates

A template is a text with parameters in it. A dollar sign starts a parameter, `$name` or
`$\x7bname\x7d`, or is doubled to stand for itself; any other dollar sign is a stray one. A text
with stray dollar signs or with parameters that its slot does not provide is no template of
the slot, so a template can always be filled.
-/
namespace SharedConstants

namespace Template

inductive Piece
  | plain (c : Char)
  | dollar
  | parameter (name : List Char) (braced : Bool)
  | stray
  deriving DecidableEq, Repr

def Piece.text : Piece → List Char
  | .plain c => [c]
  | .dollar => ['$', '$']
  | .parameter name false => '$' :: name
  | .parameter name true => '$' :: '{' :: name ++ ['}']
  | .stray => ['$']

/-- The parameter that the text behind a dollar sign starts with, if it does, and the rest. -/
def takeParameter? : List Char → Option (Piece × List Char)
  | '{' :: cs =>
    let name := cs.takeWhile Text.isWordChar
    match cs.dropWhile Text.isWordChar with
    | '}' :: rest => if Text.isName name then some (.parameter name true, rest) else none
    | _ => none
  | cs =>
    let name := cs.takeWhile Text.isWordChar
    if Text.isName name then some (.parameter name false, cs.dropWhile Text.isWordChar) else none

theorem length_dropWhile_le (p : Char → Bool) (cs : List Char) :
    (cs.dropWhile p).length ≤ cs.length := by
  induction cs with
  | nil => simp
  | cons c cs ih =>
    rw [List.dropWhile_cons]
    split
    · exact Nat.le_succ_of_le ih
    · exact Nat.le_refl _

theorem length_of_takeParameter? {cs rest : List Char} {p : Piece}
    (h : takeParameter? cs = some (p, rest)) : rest.length ≤ cs.length := by
  unfold takeParameter? at h
  split at h
  · rename_i cs
    split at h
    · rename_i rest' hd
      have := length_dropWhile_le Text.isWordChar cs
      rw [hd] at this
      dsimp only at h
      split at h
      · simp only [Option.some.injEq, Prod.mk.injEq] at h
        obtain ⟨-, rfl⟩ := h
        simp only [List.length_cons] at *
        omega
      · simp at h
    · simp at h
  · dsimp only at h
    split at h
    · simp only [Option.some.injEq, Prod.mk.injEq] at h
      obtain ⟨-, rfl⟩ := h
      exact length_dropWhile_le _ _
    · simp at h

def pieces : List Char → List Piece
  | [] => []
  | c :: cs =>
    if c = '$' then
      match cs with
      | '$' :: rest => .dollar :: pieces rest
      | cs =>
        match h : takeParameter? cs with
        | some (parameter, rest) =>
          have := length_of_takeParameter? h
          parameter :: pieces rest
        | none => .stray :: pieces cs
    else .plain c :: pieces cs
termination_by cs => cs.length

/-- The number of characters in front of the first stray dollar sign, if there is one. -/
def strayOffset? : List Piece → Option Nat
  | [] => none
  | .stray :: _ => some 0
  | p :: ps => (strayOffset? ps).map (p.text.length + ·)

/-- The names of the parameters, in order and as often as they stand. -/
def parameterNames (ps : List Piece) : List String :=
  ps.filterMap fun
    | .parameter name _ => some (String.ofList name)
    | _ => none

/-- The parameters of a text, each once, in the order of their first use. The first stray
dollar sign is a fault; its column is that of the character behind it. -/
def parametersOf (text : String) : Except TemplateFault (List String) :=
  match strayOffset? (pieces text.toList) with
  | some offset => .error (.invalidPlaceholder none (offset + 2))
  | none => .ok (parameterNames (pieces text.toList)).eraseDups

/-- The parameters of a text, by whoever asks for them. -/
def parameters (text : String) : Except Diagnostic (List String) :=
  match parametersOf text with
  | .ok names => .ok names
  | .error fault => .error { fault := .template text fault }

/-- What keeps a text from being a template of a slot. -/
def faultIn? (slot : Slot) (text : String) : Option TemplateFault :=
  match strayOffset? (pieces text.toList) with
  | some offset => some (.invalidPlaceholder (some slot) (offset + 2))
  | none =>
    let unknown := (parameterNames (pieces text.toList)).eraseDups.filter
      fun name => !slot.parameters.contains name
    if unknown.isEmpty then none else some (.unknownParameters slot unknown)

/-- What stops the filling of a text: a stray dollar sign or a parameter without a value. -/
inductive Gap
  | stray (offset : Nat)
  | missing (name : String)
  deriving DecidableEq, Repr

/-- Moves a gap behind a piece. -/
def Gap.behind (p : Piece) : Gap → Gap
  | .stray offset => .stray (p.text.length + offset)
  | .missing name => .missing name

/-- What a piece is replaced by. -/
def Piece.fill? (values : String → Option String) : Piece → Except Gap (List Char)
  | .plain c => .ok [c]
  | .dollar => .ok ['$']
  | .parameter name _ =>
    match values (String.ofList name) with
    | some value => .ok value.toList
    | none => .error (.missing (String.ofList name))
  | .stray => .error (.stray 0)

/-- Fills pieces from left to right. -/
def fillPieces? (values : String → Option String) : List Piece → Except Gap (List Char)
  | [] => .ok []
  | p :: ps =>
    match p.fill? values with
    | .error gap => .error gap
    | .ok front =>
      match fillPieces? values ps with
      | .error gap => .error (gap.behind p)
      | .ok rest => .ok (front ++ rest)

/-- Fills any text with values for its parameters. -/
def fillText? (text : String) (values : String → Option String) : Except Gap String :=
  (fillPieces? values (pieces text.toList)).map String.ofList

/-- The line and the column of a character, both counted from one. -/
def position (text : List Char) (offset : Nat) : Nat × Nat :=
  let before := Text.splitLines (text.take (offset + 1))
  (before.length, (before.getLast?.getD []).length)

/-- How the rendering of a text fails: a parameter without a value is reported, a stray dollar
sign is a misuse. -/
inductive RenderFailure
  | reported (d : Diagnostic)
  | misused (m : Misuse)

/-- The failure that a gap in a text leads to. -/
def Gap.failure (text : String) : Gap → RenderFailure
  | .missing name => .reported { fault := .template text (.missingParameter name) }
  | .stray offset =>
    let (line, column) := position text.toList offset
    .misused (.invalidPlaceholder line column)

def renderText (text : String) (values : String → Option String) :
    Except RenderFailure String :=
  (fillText? text values).mapError (Gap.failure text)

end Template

/-- A text that can stand in a slot. -/
structure Template (slot : Slot) where
  text : String
  sound : Template.faultIn? slot text = none

namespace Template

def ofText (slot : Slot) (text : String) : Except Diagnostic (Template slot) :=
  match h : faultIn? slot text with
  | none => .ok ⟨text, h⟩
  | some fault => .error { fault := .template text fault }

/-- What a piece of a template is replaced by. -/
def Piece.fill (values : String → String) : Piece → List Char
  | .plain c => [c]
  | .parameter name _ => (values (String.ofList name)).toList
  | .dollar | .stray => ['$']

def fill {slot : Slot} (t : Template slot) (values : String → String) : String :=
  String.ofList ((pieces t.text.toList).flatMap (Piece.fill values))

def uses {slot : Slot} (t : Template slot) (name : String) : Bool :=
  (parameterNames (pieces t.text.toList)).contains name

end Template

end SharedConstants
