import SharedConstants.Proofs.Expr.Lexing

/-!
# Reading follows the grammar

Reading the pieces of a derived text ends with its draft, whatever applications are open around
it. Conversely what has been read so far is always the beginning of a derivation, told by the
open applications, so a draft that is read is derived. In particular a text has one draft.
-/
namespace SharedConstants.Expr

open Text (isWordChar isNameStart isBlank)

/-- An operand may start, and it will belong to the innermost of the open applications. -/
inductive Awaits : Progress → List Frame → Prop
  | pending : Awaits .pending []
  | within {f : Frame} {outer : List Frame} : f.operator.isSome → f.separated = true →
    Awaits (.within f outer) (f :: outer)

/-- The frame of an application whose operator and first operands have been read. -/
def frameOf (i : Nat) (gap name : List Char) (ds : List Draft) (separated : Bool) : Frame where
  start := i
  operator := some (name, ⟨i + 1 + gap.length, i + 1 + gap.length + name.length⟩)
  operands := ds.reverse
  separated := separated

theorem finish_frameOf (i : Nat) (gap name : List Char) (ds : List Draft) (separated : Bool)
    (d : Draft) (outer : List Frame) :
    Progress.finish d (frameOf i gap name ds separated :: outer) =
      .within (frameOf i gap name (ds ++ [d]) false) outer := by
  simp [Progress.finish, frameOf]

section Steps

variable {state next : Progress} {frames outer : List Frame} {f : Frame} {i : Nat}
variable {text gap : List Char} {c : Char} {cs : List Char}

theorem readFrom_cons {piece : Lexeme} {pieces : List Lexeme}
    (h : state.step i piece = some next) :
    readFrom i state (piece :: pieces) = readFrom (i + piece.text.length) next pieces := by
  rw [readFrom, h]

theorem operand_of_atom? {piece : Lexeme} {a : Atom} (h : piece.atom? = some a) :
    Progress.operand i piece frames =
      some (Progress.finish (.atom a ⟨i, i + piece.text.length⟩) frames) := by
  cases piece with
  | opening => exact absurd h (by simp [Lexeme.atom?])
  | _ => simp only [Progress.operand, h, Option.map_some, Progress.spanOf]

theorem step_operand {piece : Lexeme} (h : f.operator.isSome)
    (hblanks : ∀ c cs, piece ≠ .blanks c cs) (hclosing : piece ≠ .closing) :
    Progress.step i piece (.within f outer) =
      if f.separated then Progress.operand i piece (f :: outer) else none := by
  obtain ⟨_, h⟩ := Option.isSome_iff_exists.mp h
  cases piece with
  | blanks c cs => exact absurd rfl (hblanks c cs)
  | closing => exact absurd rfl hclosing
  | _ => simp only [Progress.step, h]

theorem Awaits.step_eq (h : Awaits state frames) {piece : Lexeme}
    (hblanks : ∀ c cs, piece ≠ .blanks c cs) (hclosing : piece ≠ .closing) :
    state.step i piece = Progress.operand i piece frames := by
  cases h with
  | pending =>
    cases piece with
    | blanks c cs => exact absurd rfl (hblanks c cs)
    | _ => rfl
  | within hop hsep => rw [step_operand hop hblanks hclosing, if_pos hsep]

theorem Awaits.step_opening (h : Awaits state frames) :
    state.step i .opening = some (.within { start := i } frames) := by
  rw [h.step_eq (fun _ _ => Lexeme.noConfusion) Lexeme.noConfusion]
  rfl

theorem Awaits.step_atom (h : Awaits state frames) {piece : Lexeme} {a : Atom}
    (hatom : piece.atom? = some a) :
    state.step i piece =
      some (Progress.finish (.atom a ⟨i, i + piece.text.length⟩) frames) := by
  have hblanks : ∀ c cs, piece ≠ .blanks c cs := by
    rintro c cs rfl
    exact absurd hatom (by simp [Lexeme.atom?])
  have hclosing : piece ≠ .closing := by
    rintro rfl
    exact absurd hatom (by simp [Lexeme.atom?])
  rw [h.step_eq hblanks hclosing, operand_of_atom? hatom]

theorem step_operator {name : List Char} {piece : Lexeme} (h : f.operator = none)
    (hname : piece.operator? = some name) :
    Progress.step i piece (.within f outer) =
      some (.within { f with operator := some (name, ⟨i, i + piece.text.length⟩) } outer) := by
  cases piece with
  | word c cs => simp [Progress.step, h, hname, Progress.spanOf]
  | _ => exact absurd hname (by simp [Lexeme.operator?])

theorem step_closing {name : List Char} {span : Span} (h : f.operator = some (name, span)) :
    Progress.step i .closing (.within f outer) =
      some (Progress.finish (.apply name span f.operands.reverse ⟨f.start, i + 1⟩) outer) := by
  simp [Progress.step, h]

theorem step_blanks (h : f.operator.isSome) :
    Progress.step i (.blanks c cs) (.within f outer) =
      some (.within { f with separated := true } outer) := by
  obtain ⟨_, h⟩ := Option.isSome_iff_exists.mp h
  simp [Progress.step, h]

/-- Blanks where they change nothing. -/
theorem readFrom_gap (hgap : Blanks gap) (htext : EndsBlanks text)
    (hstep : ∀ i c cs, state.step i (.blanks c cs) = some state) :
    readFrom i state (lexemes (gap ++ text)) = readFrom (i + gap.length) state (lexemes text) := by
  cases gap with
  | nil => rfl
  | cons c cs =>
    rw [List.cons_append, lexemes_blanks hgap htext, readFrom_cons (hstep i c cs)]
    rfl

/-- A parenthesis, blanks and a name open an application. -/
theorem readFrom_open {name rest : List Char} (h : Awaits state frames) (hgap : Blanks gap)
    (hname : Text.isName name = true) (hrest : EndsWord rest) :
    readFrom i state (lexemes ('(' :: (gap ++ (name ++ rest)))) =
      readFrom (i + 1 + gap.length + name.length)
        (.within (frameOf i gap name [] false) frames) (lexemes rest) := by
  obtain ⟨c, cs, rfl, hstart, hword⟩ := isName_eq_true hname
  have hc := isBlank_of_isSpace (isSpace_of_isWordChar (hword c List.mem_cons_self))
  have hoperator : (Lexeme.word c cs).operator? = some (c :: cs) := if_pos hstart
  rw [lexemes_opening, readFrom_cons h.step_opening, List.cons_append]
  rw [readFrom_gap hgap (endsBlanks_cons.mpr hc) fun _ _ _ => rfl, lexemes_word hword hrest]
  exact readFrom_cons (step_operator rfl hoperator)

/-- Blanks and a closing parenthesis finish an application. -/
theorem readFrom_close {name : List Char} {span : Span} (hgap : Blanks gap)
    (h : f.operator = some (name, span)) :
    readFrom i (.within f outer) (lexemes (gap ++ ')' :: text)) =
      readFrom (i + gap.length + 1) (Progress.finish
        (.apply name span f.operands.reverse ⟨f.start, i + gap.length + 1⟩) outer)
        (lexemes text) := by
  cases gap with
  | nil => exact readFrom_cons (step_closing h)
  | cons c cs =>
    have hop : f.operator.isSome := Option.isSome_iff_exists.mpr ⟨_, h⟩
    have hclosing : EndsBlanks (')' :: text) := endsBlanks_cons.mpr (by decide)
    rw [List.cons_append, lexemes_blanks hgap hclosing, readFrom_cons (step_blanks hop)]
    exact readFrom_cons (step_closing h)

end Steps

/-- Reading a text from a position has the effect of the phrase it derives. -/
def Reads (i : Nat) (text : List Char) : Phrase → Prop
  | .operand d => ∀ state frames rest, Awaits state frames → EndsWord rest →
      readFrom i state (lexemes (text ++ rest)) =
        readFrom (i + text.length) (Progress.finish d frames) (lexemes rest)
  | .operands ds => ∀ (f : Frame) outer rest, f.operator.isSome → f.separated = false →
      EndsWord rest →
      readFrom i (.within f outer) (lexemes (text ++ rest)) =
        readFrom (i + text.length)
          (.within { f with operands := ds.reverse ++ f.operands } outer) (lexemes rest)

theorem reads_atom {i : Nat} {text : List Char} {a : Atom} (h : Spells text a) :
    Reads i text (.operand (.atom a ⟨i, i + text.length⟩)) := by
  intro state frames rest hawaits hrest
  obtain ⟨piece, rfl, hatom, hlexemes⟩ := h.lexemes
  rw [hlexemes rest hrest, readFrom_cons (hawaits.step_atom hatom)]

theorem reads_more {i : Nat} {args gap text : List Char} {ds : List Draft} {d : Draft}
    (hargs : Reads i args (.operands ds)) (hgap : Blanks gap) (hne : gap ≠ [])
    (htext : ∀ rest, EndsBlanks (text ++ rest))
    (hd : Reads (i + args.length + gap.length) text (.operand d)) :
    Reads i (args ++ (gap ++ text)) (.operands (ds ++ [d])) := by
  intro f outer rest hop hsep hrest
  obtain ⟨c, cs, rfl⟩ := List.exists_cons_of_ne_nil hne
  have hc := isWordChar_of_isBlank (hgap c List.mem_cons_self)
  have hlength : i + (args ++ c :: (cs ++ text)).length =
      i + args.length + (c :: cs).length + text.length := by
    simp only [List.length_append, List.length_cons]
    omega
  have hfinish : Progress.finish d ({ f with
      operands := ds.reverse ++ f.operands, separated := true } :: outer) =
      .within { f with operands := (ds ++ [d]).reverse ++ f.operands } outer := by
    simp [Progress.finish, ← hsep]
  simp only [List.append_assoc, List.cons_append]
  rw [hargs f outer _ hop hsep (endsWord_cons.mpr hc), lexemes_blanks hgap (htext rest)]
  rw [readFrom_cons (step_blanks (f := { f with operands := ds.reverse ++ f.operands }) hop)]
  rw [← hfinish, hlength]
  -- behind the gap the application awaits its next operand
  have hawaits : Awaits (.within { f with
      operands := ds.reverse ++ f.operands, separated := true } outer) _ := .within hop rfl
  exact hd _ _ rest hawaits hrest

theorem reads_apply {i : Nat} {gap name args close : List Char} {ds : List Draft}
    (hgap : Blanks gap) (hname : Text.isName name = true)
    (hends : ∀ rest, EndsWord rest → EndsWord (args ++ rest))
    (hargs : Reads (i + 1 + gap.length + name.length) args (.operands ds)) (hclose : Blanks close) :
    Reads i (applied gap name args close)
      (.operand (.apply name ⟨i + 1 + gap.length, i + 1 + gap.length + name.length⟩ ds
        ⟨i, i + (applied gap name args close).length⟩)) := by
  intro state frames rest hawaits hrest
  have hbehind : EndsWord (close ++ ')' :: rest) :=
    hclose.endsWord_append (endsWord_cons.mpr (by decide))
  have hlength : i + (applied gap name args close).length =
      i + 1 + gap.length + name.length + args.length + close.length + 1 := by
    rw [length_applied]
    omega
  have htext : applied gap name args close ++ rest =
      '(' :: (gap ++ (name ++ (args ++ (close ++ ')' :: rest)))) := by
    simp [applied]
  rw [hlength, htext, readFrom_open hawaits hgap hname (hends _ hbehind)]
  rw [hargs _ frames _ rfl rfl hbehind, readFrom_close hclose rfl]
  simp [frameOf]

/-- A text is read as the phrase that it derives. -/
theorem Derives.reads {i : Nat} {text : List Char} {p : Phrase} (h : Derives i text p) :
    Reads i text p := by
  induction h with
  | atom hspells => exact reads_atom hspells
  | apply hgap hname hargs hclose ih =>
    exact reads_apply hgap hname (fun _ => hargs.endsWord) ih hclose
  | none => exact fun _ _ _ _ _ _ => rfl
  | more _ hgap hne hd ihargs ihd => exact reads_more ihargs hgap hne hd.endsBlanks ihd

/-- A derived value text is read as its draft. -/
theorem readDraft_of_isValueText {text : List Char} {d : Draft} (h : IsValueText text d) :
    readDraft text = .ok d := by
  obtain ⟨before, core, after, rfl, hbefore, hafter, hcore⟩ := h
  have hend : EndsWord (after ++ []) := hafter.endsWord_append nofun
  rw [readDraft, readFrom_gap hbefore (hcore.endsBlanks after) fun _ _ _ => rfl]
  rw [← List.append_nil after, Nat.zero_add, hcore.reads _ [] _ .pending hend]
  have hstep : ∀ i c cs, (Progress.complete d).step i (.blanks c cs) = some (.complete d) :=
    fun _ _ _ => rfl
  exact readFrom_gap hafter nofun hstep

/-- What has been read of an application that is still open. -/
inductive Unfinished : Frame → List Char → Prop
  | operator {i : Nat} {gap : List Char} : Blanks gap → Unfinished { start := i } ('(' :: gap)
  | operands {i : Nat} {gap name args close : List Char} {ds : List Draft} : Blanks gap →
    Text.isName name = true → Derives (i + 1 + gap.length + name.length) args (.operands ds) →
    Blanks close →
    Unfinished (frameOf i gap name ds !close.isEmpty) ('(' :: (gap ++ (name ++ (args ++ close))))

/-- What has been read when an operand may start inside the open applications. -/
inductive Opened : List Frame → List Char → Prop
  | nil {text : List Char} : Blanks text → Opened [] text
  | cons {f : Frame} {outer : List Frame} {text inner : List Char} : Opened outer text →
    f.start = text.length → f.separated = true → Unfinished f inner →
    Opened (f :: outer) (text ++ inner)

/-- What has been read when the reading is this far. -/
def Consumed (text : List Char) : Progress → Prop
  | .pending => Blanks text
  | .within f outer => ∃ before inner, text = before ++ inner ∧ Opened outer before ∧
      f.start = before.length ∧ Unfinished f inner
  | .complete d => IsValueText text d

theorem Blanks.append {xs ys : List Char} (hxs : Blanks xs) (hys : Blanks ys) :
    Blanks (xs ++ ys) :=
  List.forall_mem_append.mpr ⟨hxs, hys⟩

theorem blanks_nil : Blanks [] := nofun

/-- A derived operand is a value text without blanks around it. -/
theorem Derives.isValueText {text : List Char} {d : Draft} (h : Derives 0 text (.operand d)) :
    IsValueText text d :=
  ⟨[], text, [], by simp, blanks_nil, blanks_nil, h⟩

/-- A derived operand is taken up by the innermost open application. -/
theorem consumed_finish {frames : List Frame} {before core : List Char} {d : Draft}
    (hopened : Opened frames before) (hd : Derives before.length core (.operand d)) :
    Consumed (before ++ core) (Progress.finish d frames) := by
  cases hopened with
  | nil hblanks => exact ⟨before, core, [], by simp, hblanks, blanks_nil, hd⟩
  | @cons f outer text inner houter hstart hsep hunfinished =>
    cases hunfinished with
    -- no operand starts before the operator
    | operator => exact Bool.noConfusion hsep
    | @operands i gap name args close ds hgap hname hargs hclose =>
      have hne : close ≠ [] := by simpa [frameOf] using hsep
      obtain rfl : i = text.length := hstart
      have hposition : (text ++ '(' :: (gap ++ (name ++ (args ++ close)))).length =
          text.length + 1 + gap.length + name.length + args.length + close.length := by
        simp only [List.length_append, List.length_cons]
        omega
      rw [hposition] at hd
      rw [finish_frameOf]
      refine ⟨text, _, ?_, houter, rfl,
        .operands hgap hname (.more hargs hclose hne hd) blanks_nil⟩
      simp

/-- An operand that starts where one may start. -/
theorem consumed_operand {frames : List Frame} {before : List Char} {piece : Lexeme}
    {next : Progress} (hopened : Opened frames before) (hproper : piece.Proper)
    (h : Progress.operand before.length piece frames = some next) :
    Consumed (before ++ piece.text) next := by
  cases hatom : piece.atom? with
  | some a =>
    rw [operand_of_atom? hatom] at h
    obtain rfl := Option.some.inj h
    exact consumed_finish hopened (.atom (spells_of_atom? hproper hatom))
  | none =>
    cases piece with
    | opening =>
      obtain rfl := Option.some.inj h
      exact ⟨before, ['('], rfl, hopened, rfl, .operator blanks_nil⟩
    | _ => exact absurd h (by simp [Progress.operand, hatom])

theorem isName_of_operator? {piece : Lexeme} {name : List Char} (hproper : piece.Proper)
    (h : piece.operator? = some name) : piece.text = name ∧ Text.isName name = true := by
  cases piece with
  | word c cs =>
    obtain ⟨hstart, rfl⟩ : isNameStart c = true ∧ c :: cs = name := by
      simpa [Lexeme.operator?] using h
    have hcs := (List.forall_mem_cons.mp hproper).2
    exact ⟨rfl, by simpa [Text.isName, hstart] using hcs⟩
  | _ => exact absurd h (by simp [Lexeme.operator?])

/-- Inside an application come blanks, its operator or one of its operands, or its end. -/
theorem Unfinished.step {f : Frame} {outer : List Frame} {before inner : List Char}
    {piece : Lexeme} {next : Progress} (hunfinished : Unfinished f inner)
    (houter : Opened outer before) (hstart : f.start = before.length) (hproper : piece.Proper)
    (h : Progress.step (before ++ inner).length piece (.within f outer) = some next) :
    Consumed (before ++ inner ++ piece.text) next := by
  have hopened : f.separated = true → Opened (f :: outer) (before ++ inner) :=
    fun hsep => .cons houter hstart hsep hunfinished
  cases hunfinished with
  | @operator i gap hgap =>
    obtain rfl : i = before.length := hstart
    cases hname : piece.operator? with
    | some name =>
      obtain ⟨htext, hname'⟩ := isName_of_operator? hproper hname
      rw [step_operator rfl hname] at h
      obtain rfl := Option.some.inj h
      refine ⟨before, '(' :: (gap ++ (name ++ ([] ++ []))), by simp [htext], houter, rfl, ?_⟩
      have hinner := Unfinished.operands (i := before.length) hgap hname' .none blanks_nil
      simpa [frameOf, htext, Nat.add_assoc, Nat.add_comm 1] using hinner
    | none =>
      cases piece with
      | blanks c cs =>
        obtain rfl := Option.some.inj h
        exact ⟨before, '(' :: (gap ++ c :: cs), by simp [Lexeme.text], houter, rfl,
          .operator (hgap.append hproper)⟩
      | _ => exact absurd h (by simp [Progress.step, hname])
  | @operands i gap name args close ds hgap hname hargs hclose =>
    obtain rfl : i = before.length := hstart
    cases piece with
    -- what blanks add is the gap before the next operand, or before the end
    | blanks c cs =>
      rw [step_blanks rfl] at h
      obtain rfl := Option.some.inj h
      refine ⟨before, '(' :: (gap ++ (name ++ (args ++ (close ++ c :: cs)))),
        by simp [Lexeme.text], houter, rfl, ?_⟩
      have hinner := Unfinished.operands hgap hname hargs (hclose.append hproper)
      have hne : (close ++ c :: cs).isEmpty = false := by simp
      rwa [hne] at hinner
    | closing =>
      rw [step_closing rfl] at h
      obtain rfl := Option.some.inj h
      have hcore := consumed_finish houter (.apply hgap hname hargs hclose)
      have htext : before ++ '(' :: (gap ++ (name ++ (args ++ close))) ++ Lexeme.closing.text =
          before ++ applied gap name args close := by
        simp [applied, Lexeme.text]
      have hlength : (before ++ '(' :: (gap ++ (name ++ (args ++ close)))).length + 1 =
          before.length + (applied gap name args close).length := by
        simp [applied]
        omega
      rw [htext, hlength]
      simpa [frameOf] using hcore
    | _ =>
      rw [step_operand rfl (fun _ _ => Lexeme.noConfusion) Lexeme.noConfusion] at h
      obtain ⟨hsep, h⟩ := Option.ite_none_right_eq_some.mp h
      exact consumed_operand (hopened hsep) hproper h

/-- What has been read is told by the progress after every step. -/
theorem Consumed.step {text : List Char} {state next : Progress} {piece : Lexeme}
    (hconsumed : Consumed text state) (hproper : piece.Proper)
    (h : state.step text.length piece = some next) : Consumed (text ++ piece.text) next := by
  cases state with
  | pending =>
    cases piece with
    | blanks c cs =>
      obtain rfl := Option.some.inj h
      exact Blanks.append hconsumed hproper
    | _ => exact consumed_operand (.nil hconsumed) hproper h
  | complete d =>
    cases piece with
    | blanks c cs =>
      obtain rfl := Option.some.inj h
      obtain ⟨before, core, after, rfl, hbefore, hafter, hd⟩ := hconsumed
      refine ⟨before, core, after ++ c :: cs, ?_, hbefore, hafter.append hproper, hd⟩
      simp [Lexeme.text]
    | _ => exact absurd h (by simp [Progress.step])
  | within f outer =>
    obtain ⟨before, inner, rfl, houter, hstart, hinner⟩ := hconsumed
    exact hinner.step houter hstart hproper h

/-- A draft that is read is the one that the text holds. -/
theorem isValueText_of_readFrom {text : List Char} {state : Progress} {pieces : List Lexeme}
    {d : Draft} (hconsumed : Consumed text state) (hproper : ∀ piece ∈ pieces, piece.Proper)
    (h : readFrom text.length state pieces = .ok d) :
    IsValueText (text ++ pieces.flatMap Lexeme.text) d := by
  induction pieces generalizing text state with
  | nil =>
    cases state with
    | complete d' =>
      obtain rfl := Except.ok.inj h
      simpa [Consumed] using hconsumed
    | _ => exact absurd h (by simp [readFrom])
  | cons piece pieces ih =>
    obtain ⟨hpiece, hpieces⟩ := List.forall_mem_cons.mp hproper
    rw [readFrom] at h
    cases hstep : state.step text.length piece with
    | none => simp [hstep] at h
    | some next =>
      rw [hstep, ← List.length_append] at h
      rw [List.flatMap_cons, ← List.append_assoc]
      exact ih (hconsumed.step hpiece hstep) hpieces h

/-- Reading gives the draft that a text holds, if it holds one. -/
theorem readDraft_eq_ok {text : List Char} {d : Draft} :
    readDraft text = .ok d ↔ IsValueText text d := by
  refine ⟨fun h => ?_, readDraft_of_isValueText⟩
  have hstart : Consumed [] .pending := blanks_nil
  have hread := isValueText_of_readFrom hstart (proper_lexemes text) h
  rwa [List.nil_append, flatMap_text_lexemes] at hread

theorem IsValueText.unique {text : List Char} {d d' : Draft} (h : IsValueText text d)
    (h' : IsValueText text d') : d = d' := by
  have heq := (readDraft_eq_ok.mpr h).symm.trans (readDraft_eq_ok.mpr h')
  exact Except.ok.inj heq

end SharedConstants.Expr
