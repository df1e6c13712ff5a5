import SharedConstants.Decimal.Digits
import SharedConstants.Text.Blank

/-!
# Reading decimal numbers

A decimal number has digits, at most one point among or beside them and an optional
exponent; single underscores may stand between digits. The words for infinity and for the
undefined number are read in any case.
-/
namespace SharedConstants.Decimal

def isDigit (c : Char) : Bool := '0' ≤ c && c ≤ '9'

/-- Digits with single underscores between them, and what follows; `none` when an
underscore does not stand between two digits. The flag tells whether a digit comes before. -/
def takeDigitsAfter : Bool → List Char → Option (List Char × List Char)
  | _, [] => some ([], [])
  | before, c :: rest =>
    if isDigit c then (takeDigitsAfter true rest).map fun (ds, k) => (c :: ds, k)
    else if c = '_' then
      if before && rest.head?.any isDigit then takeDigitsAfter false rest else none
    else some ([], c :: rest)

def takeDigits (cs : List Char) : Option (List Char × List Char) := takeDigitsAfter false cs

/-- An optional sign in front. -/
def takeSign : List Char → Bool × List Char
  | '-' :: rest => (true, rest)
  | '+' :: rest => (false, rest)
  | rest => (false, rest)

/-- The floating point number nearest to `digits * 10 ^ exponent`. Far outside the range of
exponents the answer is known without computing it. -/
def nearestFloat (digits : List Char) (exponent : Int) : Float :=
  let significant := digits.dropWhile (· == '0')
  let size := exponent + significant.length
  if significant.isEmpty then 0.0
  else if 400 < size then 1.0 / 0.0
  else if size < -400 then 0.0
  else Float.ofScientific (ofDigits 10 significant) (exponent < 0) exponent.natAbs

/-- The part of a number before its exponent: its digits and the power of ten of the last. -/
def takeMantissa (cs : List Char) : Option (List Char × Int × List Char) := do
  let (whole, rest) ← takeDigits cs
  match rest with
  | '.' :: more =>
    let (fraction, rest) ← takeDigits more
    if whole.isEmpty && fraction.isEmpty then none
    else some (whole ++ fraction, -(fraction.length : Int), rest)
  | _ => if whole.isEmpty then none else some (whole, 0, rest)

/-- The exponent part, zero when there is none. -/
def takeExponent : List Char → Option Int
  | [] => some 0
  | c :: rest =>
    if c = 'e' ∨ c = 'E' then do
      let (negative, rest) := takeSign rest
      let (ds, rest) ← takeDigits rest
      if ds.isEmpty || !rest.isEmpty then none
      else
        let n : Int := ofDigits 10 ds
        some (if negative then -n else n)
    else none

/-- Reads a decimal number that fills the whole text. -/
def readFloat? (cs : List Char) : Option Float := do
  let (negative, body) := takeSign cs
  let word := String.ofList (body.map Text.lowerAscii)
  let x ←
    if word = "inf" ∨ word = "infinity" then some (1.0 / 0.0)
    else if word = "nan" then some (0.0 / 0.0)
    else do
      let (ds, exponent, rest) ← takeMantissa body
      let shift ← takeExponent rest
      some (nearestFloat ds (exponent + shift))
  some (if negative then -x else x)

end SharedConstants.Decimal
