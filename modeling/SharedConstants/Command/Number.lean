import SharedConstants.Command.Octets
import SharedConstants.Decimal.Reader

/-!
# Numbers of commands

Commands read floating point numbers in decimal or hexadecimal digits, with space in front.
-/
namespace SharedConstants.Command

/-- The exponent behind a letter, if there is one, and what follows it. -/
def takeExponent (letter : Char) (cs : Octets) : Int × Octets :=
  match cs with
  | e :: rest =>
    if Octets.toLower e ≠ letter then (0, cs)
    else
      let (isNegative, body) := Decimal.takeSign rest
      match Octets.takeDigits 10 body with
      | ([], _) => (0, cs)
      | (ds, after) =>
        let n : Int := Octets.numberOf 10 (ds.take 9)
        (if isNegative then -n else n, after)
  | [] => (0, [])

/-- A number of a base in digits with at most one point and an exponent, and what follows it. -/
def takeNumber? (base : Nat) (letter : Char) (cs : Octets) : Option (Float × Octets) :=
  let (whole, rest) := Octets.takeDigits base cs
  let (fraction, rest) : List Nat × Octets := match rest with
    | '.' :: more =>
      let (ds, after) := Octets.takeDigits base more
      if whole.isEmpty ∧ ds.isEmpty then ([], rest) else (ds, after)
    | rest => ([], rest)
  let digits := whole ++ fraction
  if digits.isEmpty then none
  else
    let (exponent, rest) := takeExponent letter rest
    let x :=
      if base = 10 then
        Decimal.nearestFloat (digits.map fun d => Char.ofNat (d + 48)) (exponent - fraction.length)
      else
        Float.scaleB (Octets.numberOf base digits).toFloat (exponent - 4 * fraction.length)
    some (x, rest)

/-- The number without a sign that octets start with, and what follows it. -/
def takeUnsigned? (cs : Octets) : Option (Float × Octets) :=
  let starts (word : String) : Bool := word.toList.isPrefixOf (cs.map Octets.toLower)
  if starts "infinity" then some (1.0 / 0.0, cs.drop 8)
  else if starts "inf" then some (1.0 / 0.0, cs.drop 3)
  else if starts "nan" then some (0.0 / 0.0, cs.drop 3)
  else
    let hexadecimal := match cs with
      | '0' :: x :: rest => if Octets.toLower x = 'x' then takeNumber? 16 'p' rest else none
      | _ => none
    hexadecimal <|> takeNumber? 10 'e' cs

/-- The number that octets start with, and what follows it. -/
def takeFloat? (cs : Octets) : Option (Float × Octets) :=
  let (isNegative, body) := Decimal.takeSign (cs.dropWhile Octets.isSpace)
  (takeUnsigned? body).map fun (x, rest) => (if isNegative then -x else x, rest)

/-- The number that octets start with. -/
def leadingFloat? (cs : Octets) : Option Float := (takeFloat? cs).map Prod.fst

end SharedConstants.Command
