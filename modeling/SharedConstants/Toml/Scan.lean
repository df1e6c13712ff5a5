import SharedConstants.Decimal.Reader
import SharedConstants.Document.Datum

/-!
# Scanning documents

Readers take the characters that belong to them from the front of a text and leave the rest.
A reader that finds none fails, and with it the document: a malformed document has no
meaning. A number with too many digits is well formed, but it is not read, and neither is a value
that nests deeper than the stack has room for.
-/
namespace SharedConstants.Toml

/-- Why a document is not read. -/
inductive Rejection
  | malformed
  | oversized
  | tooDeep
  deriving DecidableEq, Repr

/-- Fails where there is no result. -/
def orMalformed {α : Type} : Option α → Except Rejection α
  | some x => .ok x
  | none => .error .malformed

/-- Whether a character is a blank inside a line. -/
def isBlank (c : Char) : Bool := c = ' ' || c = '\t'

/-- Whether a character is a blank or ends a line. -/
def isGap (c : Char) : Bool := isBlank c || c = '\n'

/-- Whether a character is a control character other than a tab, which no line may hold. -/
def isControl (c : Char) : Bool := (c.toNat < 32 && c ≠ '\t') || c.toNat = 127

/-- Whether a character may stand in a key without quotes. -/
def isBareKeyChar (c : Char) : Bool :=
  ('a' ≤ c && c ≤ 'z') || ('A' ≤ c && c ≤ 'Z') || ('0' ≤ c && c ≤ '9') || c = '-' || c = '_'

def skipBlanks (cs : List Char) : List Char := cs.dropWhile isBlank

/-- Skips the text of a comment up to the end of its line. -/
def skipCommentText : List Char → Option (List Char)
  | [] => some []
  | c :: cs => if c = '\n' then some (c :: cs) else if isControl c then none else skipCommentText cs

/-- Skips a comment, if one stands in front. -/
def skipComment : List Char → Option (List Char)
  | '#' :: cs => skipCommentText cs
  | cs => some cs

/-- Skips blanks, line ends and comments. The fuel bounds the number of comments. -/
def skipGaps : Nat → List Char → Option (List Char)
  | 0, cs => some cs
  | fuel + 1, cs =>
    match cs.dropWhile isGap with
    | '#' :: rest => (skipCommentText rest).bind (skipGaps fuel)
    | rest => some rest

/-- Digits behind a digit, with single underscores between them that are left out, and the
rest. -/
def moreDigits (isDigit : Char → Bool) : List Char → List Char × List Char
  | '_' :: c :: cs =>
    if isDigit c then
      let (ds, rest) := moreDigits isDigit cs
      (c :: ds, rest)
    else ([], '_' :: c :: cs)
  | c :: cs =>
    if isDigit c then
      let (ds, rest) := moreDigits isDigit cs
      (c :: ds, rest)
    else ([], c :: cs)
  | [] => ([], [])

/-- Digits in front of a text, without their underscores, and the rest. -/
def takeDigits (isDigit : Char → Bool) : List Char → Option (List Char × List Char)
  | c :: cs =>
    if isDigit c then
      let (ds, rest) := moreDigits isDigit cs
      some (c :: ds, rest)
    else none
  | [] => none

/-- Exactly `n` decimal digits, as a number. -/
def takeNumber (n : Nat) (cs : List Char) : Option (Nat × List Char) :=
  let ds := (cs.take n).takeWhile Decimal.isDigit
  if ds.length = n then some (Decimal.ofDigits 10 ds, cs.drop n) else none

end SharedConstants.Toml
