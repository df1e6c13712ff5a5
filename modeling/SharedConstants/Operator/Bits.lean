/-!
# Bitwise operations

Integers as two-sided infinite rows of bits in two's complement. A negative number `-(m + 1)`
has the complement of the bits of `m`, so each operation reduces to one on natural numbers.
-/
namespace SharedConstants.Bits

/-- The bits of `m` that `n` does not have. -/
def without (m n : Nat) : Nat := m ^^^ (m &&& n)

/-- The bits that both numbers have. -/
def and : Int → Int → Int
  | .ofNat m, .ofNat n => .ofNat (m &&& n)
  | .ofNat m, .negSucc n => .ofNat (without m n)
  | .negSucc m, .ofNat n => .ofNat (without n m)
  | .negSucc m, .negSucc n => .negSucc (m ||| n)

/-- The bits that at least one of the numbers has. -/
def or : Int → Int → Int
  | .ofNat m, .ofNat n => .ofNat (m ||| n)
  | .ofNat m, .negSucc n => .negSucc (without n m)
  | .negSucc m, .ofNat n => .negSucc (without m n)
  | .negSucc m, .negSucc n => .negSucc (m &&& n)

/-- The bits that exactly one of the numbers has. -/
def xor : Int → Int → Int
  | .ofNat m, .ofNat n => .ofNat (m ^^^ n)
  | .ofNat m, .negSucc n => .negSucc (m ^^^ n)
  | .negSucc m, .ofNat n => .negSucc (m ^^^ n)
  | .negSucc m, .negSucc n => .ofNat (m ^^^ n)

def bit (n : Int) (i : Nat) : Bool :=
  match n with
  | .ofNat m => m.testBit i
  | .negSucc m => !m.testBit i

theorem bit_and (a b : Int) (i : Nat) : bit (and a b) i = (bit a i && bit b i) := by
  cases a <;> cases b <;> simp [and, bit, without] <;> grind

theorem bit_or (a b : Int) (i : Nat) : bit (or a b) i = (bit a i || bit b i) := by
  cases a <;> cases b <;> simp [or, bit, without] <;> grind

theorem bit_xor (a b : Int) (i : Nat) : bit (xor a b) i = (bit a i ^^ bit b i) := by
  cases a <;> cases b <;> simp [xor, bit]

end SharedConstants.Bits
