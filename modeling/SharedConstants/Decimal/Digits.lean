/-!
# Digits

Numbers as digit texts and back. `toDigits` writes a number in a radix without leading
zeros; `ofDigits` reads the digits of any of the radices in use, letters in either case.
-/
namespace SharedConstants.Decimal

/-- The digit of a value below sixteen, letters in lower case. -/
def digit (n : Nat) : Char :=
  if n < 10 then Char.ofNat (48 + n) else Char.ofNat (87 + n)

/-- The value of a digit; letters of either case count from ten. -/
def digitValue (c : Char) : Nat :=
  let n := c.toNat
  if n < 58 then n - 48 else if n < 97 then n - 55 else n - 87

/-- The digits of a number in a radix above one; zero has a single digit. -/
def toDigits (radix n : Nat) : List Char :=
  if _h : radix ≤ 1 ∨ n < radix then [digit n]
  else toDigits radix (n / radix) ++ [digit (n % radix)]
termination_by n
decreasing_by exact Nat.div_lt_self (by omega) (by omega)

def ofDigits (radix : Nat) (ds : List Char) : Nat :=
  ds.foldl (fun n c => n * radix + digitValue c) 0

def spell (n : Int) : List Char :=
  if n < 0 then '-' :: toDigits 10 n.natAbs else toDigits 10 n.natAbs

end SharedConstants.Decimal
