import SharedConstants.Shell.Arithmetic
import SharedConstants.Shell.Field
import SharedConstants.Shell.Session

/-!
# Expansion

A word stands for texts: its parameters, commands and calculations are replaced by their values,
what was put in outside quotes is split into fields, and fields that are patterns become names
of files.
-/
namespace SharedConstants.Shell

/-- How the output of a command is found. -/
abbrev Outputs := Option Tree → Run Octets

/-- The value of a parameter. -/
inductive Content
  | unset
  | single (cs : Octets)
  | several (args : List Octets)

/-- Where a word is expanded. -/
structure Manner where
  /-- Whether fields are made of the word. -/
  isFull : Bool
  /-- Whether its text counts as put in, since it stands inside a parameter. -/
  isInner : Bool := false
  /-- Whether several paths may stand in it. -/
  hasPaths : Bool := false

namespace Expansion

/-- The letters of settings, in the order in which they are shown. -/
def settingLetters : List Char := "pubaCEVvxsnmiIfe".toList

def content (name : Octets) : Run Content := do
  let p ← Run.process
  match name with
  | ['@'] | ['*'] => return .several p.arguments
  | ['#'] => return .single (Octets.ofNat p.arguments.length)
  | ['?'] => return .single (Octets.ofNat p.status)
  | ['$'] => return .single (Octets.ofNat p.mark)
  | ['-'] => return .single (settingLetters.filter p.settings.contains)
  | ['!'] => return (p.lastJob.map fun n => Content.single (Octets.ofNat n)).getD .unset
  | name =>
    let value := match Octets.toNat? name with
      | some 0 => some p.name
      | some (n + 1) => p.arguments[n]?
      | none => (p.bindings.lookup name).bind (·.value)
    return (value.map Content.single).getD .unset

def separators : Run Octets := return (← Run.value? "IFS".toList).getD [' ', '\t', '\n']

/-- Arguments as one text, with a separator between them. -/
def together (args : List Octets) : Run Octets :=
  return ((← separators).take 1).intercalate args

def contentText : Content → Octets
  | .unset => []
  | .single cs => cs
  | .several args => [' '].intercalate args

/-- Whether a value counts as missing. -/
def isMissing (emptyToo : Bool) : Content → Bool
  | .unset => true
  | c => emptyToo && (contentText c).isEmpty


/-- Whether arguments make fields of their own. -/
def areApart (m : Manner) (name : Octets) (isQuoted : Bool) : Bool :=
  m.isFull && (!isQuoted || name = ['@'])

/-- The value that is left of one when its text is changed. Arguments that make fields of their
own have an octet of number zero between them in the text. -/
def changed (m : Manner) (name : Octets) (isQuoted : Bool) (f : Octets → Octets) :
    Content → Run Content
  | .unset => return .unset
  | .single cs => return .single (f cs)
  | .several args => do
    if args.isEmpty then return .several []
    if areApart m name isQuoted then
      return .several (Octets.splitBy '\x00' (f (['\x00'].intercalate args)))
    return .single (f (← together args))

/-- The spots of a value. -/
def contentSpots (m : Manner) (name : Octets) (isQuoted : Bool) : Content → Run (List Spot)
  | .unset => return if isQuoted then [.hold] else []
  | .single cs => return Spot.ofValue isQuoted cs
  | .several args =>
    if areApart m name isQuoted then
      return [Spot.gap].intercalate (args.map (Spot.ofValue isQuoted))
    else return Spot.ofValue isQuoted (← together args)

/-- Complains about a parameter that has no value, where that is not allowed. -/
def demandValue (name : Octets) (c : Content) : Run Unit := do
  match c with
  | .unset =>
    if ← Run.isOn 'u' then Run.fail (name ++ ": parameter not set".toList)
  | _ => return

/-- The home of a user, if a name behind a tilde tells one. -/
def home? (user : Octets) : Run (Option Octets) := do
  match String.ofList user with
  | "" => Run.value? "HOME".toList
  | "root" => return some "/root".toList
  | _ => return none

/-- The pieces of a text with homes in the place of tildes. The text is followed by other pieces
or not; what follows a colon is looked at where several paths may stand. -/
def tildePieces (hasPaths isFollowed : Bool) : Nat → Octets → Run (List Piece)
  | 0, cs => return [.text cs false]
  | fuel + 1, cs => do
    let isEnd (c : Char) : Bool := c = '/' || (hasPaths && c = ':')
    let (front, rest) ← match cs with
      | '~' :: more => do
        let user := more.takeWhile (!isEnd ·)
        let rest := more.drop user.length
        if rest.isEmpty && isFollowed then pure ([], cs)
        else
          match ← home? user with
          | some h => pure ([Piece.text h true], rest)
          | none => pure ([], cs)
      | cs => pure ([], cs)
    if !hasPaths then return front ++ [.text rest false]
    let path := rest.takeWhile (· ≠ ':')
    match rest.drop path.length with
    | [] => return front ++ [.text rest false]
    | colon :: more =>
      return front ++ .text (path ++ [colon]) false ::
        (← tildePieces hasPaths isFollowed fuel more)

/-- A word with homes in the place of tildes. -/
def withHomes (hasPaths : Bool) (w : Word) : Run Word := do
  match w with
  | .text cs false :: rest =>
    let pieces ← tildePieces hasPaths (!rest.isEmpty) (cs.length + 1) cs
    return pieces ++ rest
  | w => return w

def calculate (text : Octets) : Run Int := do
  let bindings := (← Run.process).bindings
  let value? (name : Octets) : Option Octets := (bindings.lookup name).bind (·.value)
  match Arithmetic.evaluate value? text with
  | .error complaint => Run.fail complaint
  | .ok (n, assigned) =>
    for (name, value) in assigned do Run.assign name (Octets.ofInt value)
    return n

/-- The spots of a value that is trimmed by a pattern. Where there is no value, the pattern is
not looked at. -/
def trimmed (m : Manner) (name : Octets) (isQuoted : Bool) (c : Content)
    (pattern : Run (List PatternChar)) (trim : List PatternItem → Octets → Octets) :
    Run (List Spot) :=
  match c with
  | .unset => do
    demandValue name c
    contentSpots m name isQuoted c
  | c => do
    let p ← pattern
    contentSpots m name isQuoted (← changed m name isQuoted (trim (Pattern.ofChars p)) c)

/-- The spots of a word, whose operations on parameters may hold words in turn. -/
def spots (o : Outputs) : Nat → Manner → Word → Run (List Spot)
  | 0, _, _ => throw .exhausted
  | _, _, [] => return []
  | fuel + 1, m, piece :: rest => do
    let own ← match piece with
      | .text cs true => pure (.hold :: cs.map (.char · true false))
      | .text cs false => pure (cs.map (.char · false m.isInner))
      | .output body q => do
        let text ← o body
        pure (Spot.ofValue q text)
      | .arithmetic word q => do
        let text := Spot.text (← spots o fuel { isFull := false } word)
        let n ← calculate text
        pure (Spot.ofValue q (Octets.ofInt n))
      | .parameter name operation word q => do
        let c ← content name
        let plain : Run (List Spot) := contentSpots m name q c
        let textOfWord : Run Octets := do
          let word ← withHomes false word
          return Spot.text (← spots o fuel { isFull := false } word)
        let patternOfWord : Run (List PatternChar) := do
          return Spot.pattern (← spots o fuel { isFull := false } word)
        let wordSpots : Run (List Spot) := do
          let word ← if q then pure word else withHomes m.hasPaths word
          let found ← spots o fuel { m with isInner := !q } word
          return if q && found.isEmpty then [.hold] else found
        match operation with
        | .plain => do
          demandValue name c
          plain
        | .length => do
          demandValue name c
          pure (Spot.ofValue q (Octets.ofNat (contentText c).length))
        | .useDefault emptyToo => if isMissing emptyToo c then wordSpots else plain
        | .useOther emptyToo =>
          if isMissing emptyToo c then pure (if q then [.hold] else []) else wordSpots
        | .setDefault emptyToo =>
          if isMissing emptyToo c then do
            let text ← textOfWord
            if !Octets.isName name then Run.fail (name ++ ": bad variable name".toList)
            Run.assign name text
            contentSpots m name q (.single text)
          else plain
        | .demand emptyToo =>
          if isMissing emptyToo c then do
            let text ← textOfWord
            let more := if emptyToo then " or null" else ""
            let stated := if word.isEmpty then ("parameter not set" ++ more).toList else text
            Run.fail (name ++ ": ".toList ++ stated)
          else plain
        | .trimFront isLongest =>
          trimmed m name q c patternOfWord (Pattern.trimFront isLongest)
        | .trimBack isLongest =>
          trimmed m name q c patternOfWord (Pattern.trimBack isLongest)
        | .bad => Run.fail "Bad substitution".toList
    return own ++ (← spots o fuel m rest)

/-- How deep words may lie in one another, and how long they may be. -/
def depth : Nat := 100000

def fields (o : Outputs) (w : Word) : Run (List Octets) := do
  let found ← spots o depth { isFull := true } (← withHomes false w)
  let parts := Splitting.fields (← separators) found
  if ← Run.isOn 'f' then return parts.map fun part => part.map (·.1)
  let files := (← get).files
  return parts.flatMap (Pattern.expand files)

/-- The single text that a word stands for. -/
def text (o : Outputs) (w : Word) (hasPaths : Bool := false) : Run Octets := do
  return Spot.text (← spots o depth { isFull := false, hasPaths } (← withHomes hasPaths w))

def pattern (o : Outputs) (w : Word) : Run (List PatternChar) := do
  return Spot.pattern (← spots o depth { isFull := false } (← withHomes false w))

def allFields (o : Outputs) : List Word → Run (List Octets)
  | [] => return []
  | w :: ws => do
    let first ← fields o w
    return first ++ (← allFields o ws)

end Expansion

end SharedConstants.Shell
