import SharedConstants.Command.Octets

/-!
# Patterns

A pattern stands for texts: a star for any text, a question mark for any single octet, brackets
for one octet out of several. What is quoted stands for itself.
-/
namespace SharedConstants.Shell

/-- A character of a pattern, and whether it is quoted. -/
abbrev PatternChar := Char × Bool

/-- What may stand in brackets. -/
inductive Member
  | range (first last : Char)
  | kind (test : Char → Bool)

def Member.accepts (m : Member) (c : Char) : Bool :=
  match m with
  | .range first last => first ≤ c && c ≤ last
  | .kind test => test c

inductive PatternItem
  | char (c : Char)
  | any
  | run
  | set (isNegated : Bool) (members : List Member)

namespace Pattern

/-- A kind of character by its name. -/
def kind? (name : List Char) : Option (Char → Bool) :=
  match String.ofList name with
  | "alnum" => some Octets.isAlphanumeric
  | "alpha" => some Octets.isLetter
  | "blank" => some fun c => c = ' ' || c = '\t'
  | "cntrl" => some Octets.isControl
  | "digit" => some Octets.isDigit
  | "graph" => some fun c => Octets.isPlain c && c ≠ ' '
  | "lower" => some Octets.isLower
  | "print" => some Octets.isPlain
  | "punct" => some Octets.isPunctuation
  | "space" => some Octets.isSpace
  | "upper" => some Octets.isUpper
  | "xdigit" => some fun c => (Octets.digitValue? c).any (· < 16)
  | _ => none

/-- A kind of character that is named at the front, behind its bracket, and what follows it. -/
def takeKind? (cs : List PatternChar) : Option ((Char → Bool) × List PatternChar) :=
  match cs with
  | (':', false) :: rest =>
    let name := rest.takeWhile fun (c, _) => Octets.isLower c
    match rest.drop name.length with
    | (':', _) :: (']', _) :: more => (kind? (name.map (·.1))).map (·, more)
    | _ => none
  | _ => none

/-- The members of brackets up to the closing one, and what follows it. A bracket right at the
front closes nothing. -/
def takeMembers? : Nat → Bool → List PatternChar → Option (List Member × List PatternChar)
  | 0, _, _ => none
  | _, _, [] => none
  | fuel + 1, isFirst, c :: rest =>
    let more (m : Member) (rest : List PatternChar) : Option (List Member × List PatternChar) :=
      (takeMembers? fuel false rest).map fun (ms, rest) => (m :: ms, rest)
    if c = (']', false) ∧ !isFirst then some ([], rest)
    else
      match if c = ('[', false) then takeKind? rest else none with
      | some (test, rest) => more (.kind test) rest
      | none =>
        match rest with
        | ('-', false) :: last :: others =>
          if last = (']', false) then more (.range c.1 c.1) rest
          else more (.range c.1 last.1) others
        | rest => more (.range c.1 c.1) rest

def items : Nat → List PatternChar → List PatternItem
  | 0, _ => []
  | _, [] => []
  | fuel + 1, (c, isQuoted) :: rest =>
    if isQuoted then .char c :: items fuel rest
    else if c = '*' then .run :: items fuel rest
    else if c = '?' then .any :: items fuel rest
    else if c = '[' then
      let (isNegated, inside) := match rest with
        | ('!', false) :: inside => (true, inside)
        | inside => (false, inside)
      match takeMembers? (inside.length + 1) true inside with
      | some (members, rest) => .set isNegated members :: items fuel rest
      | none => .char '[' :: items fuel rest
    else .char c :: items fuel rest

def ofChars (cs : List PatternChar) : List PatternItem := items cs.length cs

/-- Whether a pattern stands for more than one text. -/
def isOpen (items : List PatternItem) : Bool :=
  items.any fun
    | .char _ => false
    | _ => true

/-- The texts that come behind a front that a pattern stands for. -/
def rests : List PatternItem → Octets → List Octets
  | [], cs => [cs]
  | .run :: .run :: more, cs => rests (.run :: more) cs
  | .run :: more, cs => (Octets.ends cs).flatMap (rests more)
  | _ :: _, [] => []
  | .char c :: more, d :: ds => if c = d then rests more ds else []
  | .any :: more, _ :: ds => rests more ds
  | .set isNegated members :: more, d :: ds =>
    if members.any (·.accepts d) ≠ isNegated then rests more ds else []

def accepts (items : List PatternItem) (cs : Octets) : Bool := (rests items cs).any (·.isEmpty)

/-- The text in front of the first octet of number zero, which stands between arguments. -/
def firstPart (cs : Octets) : Octets := cs.takeWhile (· ≠ '\x00')

/-- Where a text may be cut: anywhere, or only in its first part. -/
def cuts (inFirst : Bool) (cs : Octets) : List Nat :=
  List.range ((if inFirst then firstPart cs else cs).length + 1)

/-- A text without the shortest or the longest front that a pattern stands for. -/
def trimFront (isLongest : Bool) (items : List PatternItem) (cs : Octets) : Octets :=
  let found := (cuts (!isLongest) cs).filter fun n => accepts items (firstPart (cs.take n))
  match if isLongest then found.getLast? else found.head? with
  | some n => cs.drop n
  | none => cs

/-- A text without the shortest or the longest end that a pattern stands for. -/
def trimBack (isLongest : Bool) (items : List PatternItem) (cs : Octets) : Octets :=
  let found := (cuts isLongest cs).filter fun n => accepts items (firstPart (cs.drop n))
  match if isLongest then found.head? else found.getLast? with
  | some n => cs.take n
  | none => cs

end Pattern

end SharedConstants.Shell
