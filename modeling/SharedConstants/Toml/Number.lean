import SharedConstants.Toml.Scan

/-!
# Numbers of documents

An integer is written in decimal with an optional sign, or without a sign behind the mark of
another radix. A decimal number with a fraction or an exponent is a floating point number.
-/
namespace SharedConstants.Toml

/-- The radix that a mark stands for. -/
def markedRadix? (c : Char) : Option Nat :=
  match c with
  | 'x' => some 16
  | 'o' => some 8
  | 'b' => some 2
  | _ => none

def isDigitOf (radix : Nat) (c : Char) : Bool :=
  (Decimal.isDigit c || ('a' ≤ c && c ≤ 'f') || ('A' ≤ c && c ≤ 'F')) &&
    Decimal.digitValue c < radix

/-- An integer behind the mark of its radix. -/
def takeMarked : List Char → Option (Datum × List Char)
  | '0' :: mark :: cs => do
    let radix ← markedRadix? mark
    let (ds, rest) ← takeDigits (isDigitOf radix) cs
    return (.integer (Decimal.ofDigits radix ds), rest)
  | _ => none

/-- The digits before a point. Only zero itself starts with a zero. -/
def takeWhole : List Char → Option (List Char × List Char)
  | '0' :: cs => some (['0'], cs)
  | cs => takeDigits Decimal.isDigit cs

def takeFraction : List Char → List Char × List Char
  | '.' :: cs =>
    match takeDigits Decimal.isDigit cs with
    | some (ds, rest) => ('.' :: ds, rest)
    | none => ([], '.' :: cs)
  | cs => ([], cs)

def takeExponent : List Char → List Char × List Char
  | [] => ([], [])
  | c :: cs =>
    if c = 'e' ∨ c = 'E' then
      let sign := cs.takeWhile (fun d => d = '+' || d = '-') |>.take 1
      match takeDigits Decimal.isDigit (cs.drop sign.length) with
      | some (ds, rest) => ('e' :: sign ++ ds, rest)
      | none => ([], c :: cs)
    else ([], c :: cs)

def takeDecimal (cs : List Char) : Option (Except Rejection (Datum × List Char)) := do
  let sign := cs.takeWhile (fun d => d = '+' || d = '-') |>.take 1
  let (whole, rest) ← takeWhole (cs.drop sign.length)
  let (fraction, rest) := takeFraction rest
  let (exponent, rest) := takeExponent rest
  if fraction.isEmpty && exponent.isEmpty then
    if Datum.digitLimit < whole.length then some (.error .oversized)
    else
      let n : Int := Decimal.ofDigits 10 whole
      some (.ok (.integer (if sign = ['-'] then -n else n), rest))
  else
    let x ← Decimal.readFloat? (sign ++ whole ++ fraction ++ exponent)
    some (.ok (.float x, rest))

/-- The words for infinity and for the undefined number, with an optional sign. -/
def takeSpecial (cs : List Char) : Option (Datum × List Char) := do
  let sign := cs.takeWhile (fun d => d = '+' || d = '-') |>.take 1
  let word := (cs.drop sign.length).take 3
  if word = ['i', 'n', 'f'] ∨ word = ['n', 'a', 'n'] then
    let x ← Decimal.readFloat? (sign ++ word)
    some (.float x, cs.drop (sign.length + 3))
  else none

/-- A number, where one stands in front. -/
def takeNumeral (cs : List Char) : Option (Except Rejection (Datum × List Char)) :=
  match takeMarked cs with
  | some result => some (.ok result)
  | none =>
    match takeDecimal cs with
    | some result => some result
    | none => (takeSpecial cs).map .ok

end SharedConstants.Toml
