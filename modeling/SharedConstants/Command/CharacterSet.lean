import SharedConstants.Command.Quoting

/-!
# Sets of characters

An operand of `tr` names a sequence of octets: single ones, escapes, ranges, classes and
repetitions. A repetition without a number repeats as often as the other operand needs.
-/
namespace SharedConstants.Command

/-- The octets from one to another, both included. -/
def octetRange (first last : Nat) : Octets :=
  (List.range (last + 1 - first)).map fun i => Octets.ofNumber (first + i)

/-- All octets in ascending order. -/
def allOctets : Octets := octetRange 0 255

inductive CharacterClass
  | upper
  | lower
  | alpha
  | digit
  | alnum
  | xdigit
  | space
  | blank
  | punct
  | cntrl
  | print
  | graph
  deriving DecidableEq, Repr

namespace CharacterClass

def ofName? (name : String) : Option CharacterClass :=
  match name with
  | "upper" => some .upper
  | "lower" => some .lower
  | "alpha" => some .alpha
  | "digit" => some .digit
  | "alnum" => some .alnum
  | "xdigit" => some .xdigit
  | "space" => some .space
  | "blank" => some .blank
  | "punct" => some .punct
  | "cntrl" => some .cntrl
  | "print" => some .print
  | "graph" => some .graph
  | _ => none

def holds (k : CharacterClass) (c : Char) : Bool :=
  match k with
  | .upper => Octets.isUpper c
  | .lower => Octets.isLower c
  | .alpha => Octets.isLetter c
  | .digit => Octets.isDigit c
  | .alnum => Octets.isAlphanumeric c
  | .xdigit => (Octets.digitValue? c).any (· < 16)
  | .space => Octets.isSpace c
  | .blank => c = ' ' || c = '\t'
  | .punct => Octets.isPunctuation c
  | .cntrl => Octets.isControl c
  | .print => Octets.isPlain c
  | .graph => Octets.isPlain c && c ≠ ' '

/-- The members of a class in ascending order. -/
def members (k : CharacterClass) : Octets := allOctets.filter k.holds

end CharacterClass

/-- An element of a set. A repetition of no times repeats as often as needed. -/
inductive SetElement
  | single (c : Char)
  | range (first last : Char)
  | members (k : CharacterClass)
  | equivalent (c : Char)
  | repeated (c : Char) (times : Nat)

abbrev SetElements := List SetElement

/-- An octet as complaints about sets show it. -/
def shownSetOctet (c : Char) : String :=
  if c = '\\' then "\\\\"
  else
    match controlLetter? c with
    | some letter => String.ofList ['\\', letter]
    | none => if Octets.isPlain c then String.ofList [c] else octalEscape c

/-- The end of a range as complaints show it. -/
def shownEnd (c : Char) : String :=
  if Octets.isPlain c then String.ofList [c] else octalEscape c

def shownSetOctets (cs : Octets) : String := String.join (cs.map shownSetOctet)

/-- An octet of an operand, and whether it was written as an escape, which takes any special
meaning away. -/
abbrev SetOctet := Char × Bool

/-- The octets of an operand with escapes resolved, and warnings about doubtful ones. -/
def resolveEscapes : Nat → Octets → List SetOctet × List String
  | 0, _ => ([], [])
  | _, [] => ([], [])
  | _, ['\\'] =>
    ([('\\', false)], ["warning: an unescaped backslash at end of string is not portable"])
  | fuel + 1, '\\' :: c :: cs =>
    let digits := ((c :: cs).take 3).takeWhile Octets.isOctalDigit
    let value (ds : Octets) : Nat := Octets.numberOf 8 (ds.map fun d => d.toNat - 48)
    if digits.isEmpty then
      let letter := match c with
        | 'a' => '\x07'
        | 'b' => '\x08'
        | 'f' => '\x0c'
        | 'n' => '\n'
        | 'r' => '\r'
        | 't' => '\t'
        | 'v' => '\x0b'
        | c => c
      let (rest, warnings) := resolveEscapes fuel cs
      ((letter, true) :: rest, warnings)
    else
      let isTooLarge := 255 < value digits
      let used := if isTooLarge then digits.take 2 else digits
      let (rest, warnings) := resolveEscapes fuel ((c :: cs).drop used.length)
      let warning : String :=
        s!"warning: the ambiguous octal escape \\{String.ofList digits} is being\n" ++
          s!"\tinterpreted as the 2-byte sequence \\0{String.ofList (digits.take 2)}, " ++
          String.ofList (digits.drop 2)
      ((Octets.ofNumber (value used), true) :: rest,
        if isTooLarge then warning :: warnings else warnings)
  | fuel + 1, c :: cs =>
    let (rest, warnings) := resolveEscapes fuel cs
    ((c, false) :: rest, warnings)

/-- The operand of a class or an equivalence, up to the mark and the bracket that close it, and
what follows them. -/
def takeOperand (mark : Char) : List SetOctet → Option (Octets × List SetOctet)
  | (a, isEscaped) :: (b, isEscaped') :: rest =>
    if a = mark ∧ b = ']' ∧ !isEscaped ∧ !isEscaped' then some ([], rest)
    else
      (takeOperand mark ((b, isEscaped') :: rest)).map fun (operand, rest) => (a :: operand, rest)
  | _ => none

/-- Whether an asterisk, digits and a bracket come next. -/
def isRepeatEnd : List SetOctet → Bool
  | ('*', false) :: rest =>
    match rest.dropWhile fun (c, _) => Octets.isDigit c with
    | (']', false) :: _ => true
    | _ => false
  | _ => false

/-- How often digits say that something is repeated: octal digits if a zero leads. -/
def repeatCount? (digits : Octets) : Option Nat :=
  let base := if digits.head? = some '0' then 8 else 10
  match Octets.takeDigits base digits with
  | (ds, []) =>
    let n := Octets.numberOf base ds
    if n < 18446744073709551615 then some n else none
  | _ => none

/-- A repetition behind its opening bracket, and what follows it. -/
def takeRepetition : List SetOctet → Option (Except String (SetElement × List SetOctet))
  | (c, _) :: ('*', false) :: rest =>
    let digits := rest.takeWhile fun (d, isEscaped) => d ≠ ']' ∧ !isEscaped
    match rest.drop digits.length with
    | (']', false) :: rest =>
      let digits : Octets := digits.map Prod.fst
      if digits.isEmpty then some (.ok (.repeated c 0, rest))
      else
        match repeatCount? digits with
        | some n => some (.ok (.repeated c n, rest))
        | none =>
          let shown := quoted (Octets.ofText (shownSetOctets digits))
          some (.error s!"invalid repeat count {shown} in [c*n] construct")
    | _ => none
  | _ => none

/-- A bracketed element behind its bracket, and what follows it; nothing if the bracket stands
for itself. -/
def takeBracketed (cs : List SetOctet) : Option (Except String (SetElement × List SetOctet)) :=
  match cs with
  | (mark, false) :: rest =>
    if mark = ':' ∨ mark = '=' then
      match takeOperand mark rest with
      | none => takeRepetition cs
      | some ([], _) =>
        if mark = ':' then some (.error "missing character class name '[::]'")
        else some (.error "missing equivalence class character '[==]'")
      | some (operand, after) =>
        let element? : Option SetElement :=
          if mark = ':' then (CharacterClass.ofName? (Octets.toText operand)).map .members
          else
            match operand with
            | [c] => some (.equivalent c)
            | _ => none
        match element? with
        | some element => some (.ok (element, after))
        | none =>
          if isRepeatEnd rest then takeRepetition cs
          else
            let shown := shownSetOctets operand
            if mark = ':' then
              some (.error s!"invalid character class {quoted (Octets.ofText shown)}")
            else some (.error s!"{shown}: equivalence class operand must be a single character")
    else takeRepetition cs
  | _ => takeRepetition cs

def readElements : Nat → List SetOctet → Except String SetElements
  | 0, _ => .ok []
  | fuel + 1, (first, isEscaped) :: next :: last :: rest =>
    let bracketed := if first = '[' ∧ !isEscaped then takeBracketed (next :: last :: rest) else none
    match bracketed with
    | some (.error complaint) => .error complaint
    | some (.ok (element, rest)) => (readElements fuel rest).map (element :: ·)
    | none =>
      if next = ('-', false) then
        if last.1 < first then
          .error (s!"range-endpoints of '{shownEnd first}-{shownEnd last.1}' " ++
            "are in reverse collating sequence order")
        else (readElements fuel rest).map (.range first last.1 :: ·)
      else (readElements fuel (next :: last :: rest)).map (.single first :: ·)
  | _, short => .ok (short.map fun (c, _) => .single c)

/-- The set that an operand names, or a complaint, with warnings. -/
def readSet (operand : Octets) : Except String SetElements × List String :=
  let (octets, warnings) := resolveEscapes (operand.length + 1) operand
  (readElements (octets.length + 1) octets, warnings)

/-- A change of case that a class can take part in. -/
inductive LetterCase
  | upper
  | lower
  deriving DecidableEq, Repr

/-- An octet of a set; the first one of a class of letters of one case carries that case. -/
abbrev SetMember := Char × Option LetterCase

namespace SetElement

def octets : SetElement → Octets
  | .single c | .equivalent c => [c]
  | .range first last => octetRange first.toNat last.toNat
  | .members k => k.members
  | .repeated c times => List.replicate times c

def size : SetElement → Nat
  | .repeated _ times => times
  | .single _ | .equivalent _ => 1
  | .range first last => last.toNat + 1 - first.toNat
  | .members k => k.members.length

/-- The octets of an element, no more than a number of them. -/
def membersUpTo (limit : Nat) : SetElement → List SetMember
  | .repeated c times => List.replicate (min times limit) (c, none)
  | .members .upper =>
    (CharacterClass.upper.members.mapIdx fun i c => (c, if i = 0 then some .upper else none))
  | .members .lower =>
    (CharacterClass.lower.members.mapIdx fun i c => (c, if i = 0 then some .lower else none))
  | e => e.octets.map (·, none)

def isIndefinite : SetElement → Bool
  | .repeated _ 0 => true
  | _ => false

def isClass : SetElement → Bool
  | .members _ => true
  | _ => false

/-- Whether an element is a class that no octets are replaced by. -/
def isRestricted : SetElement → Bool
  | .members .upper | .members .lower => false
  | .members _ => true
  | _ => false

def isEquivalence : SetElement → Bool
  | .equivalent _ => true
  | _ => false

end SetElement

namespace SetElements

def size (s : SetElements) : Nat := s.foldl (fun n e => n + e.size) 0

/-- Whether a set holds an octet. A repetition that may be empty holds its octet only if it is
not. -/
def holds (s : SetElements) (c : Char) : Bool :=
  s.any fun
    | .repeated d times => d = c && times ≠ 0
    | e => e.octets.contains c

/-- The octets of a set; no repetition counts for more than a number of times. -/
def members (s : SetElements) (limit : Nat) : List SetMember := s.flatMap (·.membersUpTo limit)

/-- Gives an indefinite repetition the number of times that brings a set to a size. -/
def stretch (s : SetElements) (wanted : Nat) : SetElements :=
  s.map fun
    | .repeated c 0 => .repeated c (wanted - size s)
    | e => e

/-- The octet at the end of a set that may go on for any number of times; a class may not. -/
def lastOctet? (s : SetElements) : Option Char :=
  match s.getLast? with
  | some (.single c) | some (.repeated c _) | some (.range _ c) => some c
  | _ => none

end SetElements

end SharedConstants.Command
