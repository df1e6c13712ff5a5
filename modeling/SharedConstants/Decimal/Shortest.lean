import SharedConstants.Decimal.Digits

/-!
# Digits of a floating point number

A finite floating point number is `mantissa * 2 ^ exponent`. All reals that round to it form
an interval around it. `shortest` finds the fewest decimal digits that name a point of that
interval, and of two such points the nearer one; `rounded` gives a fixed count of digits of
the number itself.
-/
namespace SharedConstants.Decimal

/-- A positive floating point number, `mantissa * 2 ^ exponent`. The neighbour below a power
of two is only half as far away as the one above. -/
structure Binary where
  mantissa : Nat
  exponent : Int
  narrowBelow : Bool
  deriving DecidableEq, Repr

/-- What a floating point number is. -/
inductive Magnitude
  | zero
  | finite (value : Binary)
  | infinite
  | undefined
  deriving DecidableEq, Repr

/-- The sign and the magnitude that the bits of a floating point number stand for. -/
def ofBits (bits : UInt64) : Bool × Magnitude :=
  let n : Nat := bits.toNat
  let fraction : Nat := n % Nat.pow 2 52
  let biased : Nat := n / Nat.pow 2 52 % Nat.pow 2 11
  let negative := decide (Nat.pow 2 63 ≤ n)
  let magnitude : Magnitude :=
    if biased = 2047 then (if fraction = 0 then .infinite else .undefined)
    else if biased = 0 then
      (if fraction = 0 then .zero else .finite ⟨fraction, -1074, false⟩)
    else .finite ⟨fraction + Nat.pow 2 52, (biased : Int) - 1075, fraction = 0 && 1 < biased⟩
  (negative, magnitude)

/-- Decimal digits `digits` with the first of them at position `10 ^ leading`. -/
structure Scaled where
  digits : List Char
  leading : Int
  deriving DecidableEq, Repr

/-- Both sides of the comparison of `count * 10 ^ grid` with `quarters * 2 ^ (exponent - 2)`,
brought to whole numbers. -/
def sides (exponent grid : Int) (count quarters : Nat) : Nat × Nat :=
  let e := exponent - 2
  (count * Nat.pow 10 grid.toNat * Nat.pow 2 (-e).toNat,
   quarters * Nat.pow 2 e.toNat * Nat.pow 10 (-grid).toNat)

/-- The number of whole grid steps in a value given in quarter units. -/
def stepsIn (exponent grid : Int) (quarters : Nat) : Nat :=
  let (one, value) := sides exponent grid 1 quarters
  value / one

def leadingPosition (b : Binary) : Int :=
  let whole := stepsIn b.exponent 0 (4 * b.mantissa)
  if 0 < whole then (toDigits 10 whole).length - 1
  else
    match (List.range 330).find? fun (k : Nat) => 0 < stepsIn b.exponent (-k) (4 * b.mantissa) with
    | some k => -k
    | none => 0

/-- Whether a grid point lies among the reals that round to the number. The ends count when
the mantissa is even. -/
def inside (b : Binary) (grid : Int) (count : Nat) : Bool :=
  let low := if b.narrowBelow then 4 * b.mantissa - 1 else 4 * b.mantissa - 2
  let high := 4 * b.mantissa + 2
  let (pointLow, boundLow) := sides b.exponent grid count low
  let (pointHigh, boundHigh) := sides b.exponent grid count high
  if b.mantissa % 2 = 0 then boundLow ≤ pointLow && pointHigh ≤ boundHigh
  else boundLow < pointLow && pointHigh < boundHigh

/-- The nearer of the two grid points around the number; a tie goes to the even one. -/
def nearest (b : Binary) (grid : Int) : Nat :=
  let below := stepsIn b.exponent grid (4 * b.mantissa)
  let (twice, value) := sides b.exponent grid (2 * below + 1) (8 * b.mantissa)
  if value < twice then below
  else if twice < value then below + 1
  else if below % 2 = 0 then below else below + 1

/-- The number's neighbour on a grid that names it, if one does. -/
def named? (b : Binary) (grid : Int) : Option Nat :=
  let below := stepsIn b.exponent grid (4 * b.mantissa)
  match inside b grid below, inside b grid (below + 1) with
  | true, true => some (nearest b grid)
  | true, false => some below
  | false, true => some (below + 1)
  | false, false => none

/-- Digits of a count of grid steps, without zeros at the end. -/
def scaled (grid : Int) (count : Nat) : Scaled :=
  let ds := toDigits 10 count
  let kept := (ds.reverse.dropWhile (· == '0')).reverse
  ⟨if kept.isEmpty then ['0'] else kept, grid + ds.length - 1⟩

/-- The fewest digits that name the number, the nearest of these. -/
def shortest (b : Binary) : Scaled :=
  let leading := leadingPosition b
  let grids := (List.range 17).map fun (i : Nat) => leading - (i : Int)
  match grids.findSome? fun grid => (named? b grid).map (scaled grid) with
  | some s => s
  | none => scaled (leading - 16) (nearest b (leading - 16))

/-- The number rounded to `places` significant digits, without zeros at the end. -/
def rounded (places : Nat) (b : Binary) : Scaled :=
  let grid := leadingPosition b - (places : Int) + 1
  scaled grid (nearest b grid)

end SharedConstants.Decimal
