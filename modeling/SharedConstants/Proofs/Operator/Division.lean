import Mathlib.Data.Rat.Floor
import SharedConstants.Proofs.Operator.Failure

/-!
# Division of integers

The quotient of two integers is the integer part of their rational quotient, and the remainder is
what it leaves of the dividend. Of all integers of 128 bits only the least one has a quotient that
is none itself, that by minus one; the remainder is zero then.
-/
namespace SharedConstants.Operator

variable {a b : Int}

/-- A rational number without its fraction, whatever its sign. -/
def integerPart (x : ℚ) : Int := if 0 ≤ x then ⌊x⌋ else ⌈x⌉

theorem integerPart_of_nonneg {x : ℚ} (h : 0 ≤ x) : integerPart x = ⌊x⌋ := if_pos h

theorem integerPart_neg {x : ℚ} (h : 0 ≤ x) : integerPart (-x) = -⌊x⌋ := by
  rcases h.eq_or_lt with rfl | hpos
  · simp [integerPart]
  · have hneg : ¬ 0 ≤ -x := by linarith
    rw [integerPart, if_neg hneg, Int.ceil_neg]

/-- The quotient and the remainder of a division that truncates toward zero. -/
structure Truncates (a b q r : Int) : Prop where
  sum : a = b * q + r
  size : |r| < |b|
  sign : r = 0 ∨ r.sign = a.sign
  truncated : q = integerPart (a / b)

theorem div_eq_abs_div (h : a < 0 ↔ b < 0) : (a / b : ℚ) = |(a : ℚ)| / |(b : ℚ)| := by
  by_cases hb : b < 0
  · have ha : a < 0 := h.mpr hb
    rw [abs_of_neg (by exact_mod_cast ha), abs_of_neg (by exact_mod_cast hb), neg_div_neg_eq]
  · have ha : ¬ a < 0 := fun ha => hb (h.mp ha)
    rw [abs_of_nonneg (by exact_mod_cast Int.not_lt.mp ha),
      abs_of_nonneg (by exact_mod_cast Int.not_lt.mp hb)]

theorem div_eq_neg_abs_div (h : ¬ (a < 0 ↔ b < 0)) : (a / b : ℚ) = -(|(a : ℚ)| / |(b : ℚ)|) := by
  by_cases hb : b < 0
  · have ha : 0 ≤ a := by omega
    rw [abs_of_nonneg (by exact_mod_cast ha), abs_of_neg (by exact_mod_cast hb), div_neg, neg_neg]
  · have ha : a < 0 := by omega
    rw [abs_of_neg (by exact_mod_cast ha), abs_of_nonneg (by exact_mod_cast Int.not_lt.mp hb),
      neg_div, neg_neg]

theorem floor_abs_div (a b : Int) : ⌊|(a : ℚ)| / |(b : ℚ)|⌋ = ↑(a.natAbs / b.natAbs) := by
  have hfloor := Rat.floor_intCast_div_natCast a.natAbs b.natAbs
  simpa using hfloor

theorem quotient_eq_integerPart (a b : Int) : quotient a b = integerPart (a / b) := by
  have hnonneg : 0 ≤ |(a : ℚ)| / |(b : ℚ)| := by positivity
  simp only [quotient]
  split
  · next h => rw [div_eq_abs_div h, integerPart_of_nonneg hnonneg, floor_abs_div]
  · next h => rw [div_eq_neg_abs_div h, integerPart_neg hnonneg, floor_abs_div]

theorem natAbs_quotient (a b : Int) : (quotient a b).natAbs = a.natAbs / b.natAbs := by
  simp only [quotient]
  split
  · exact Int.natAbs_natCast _
  · rw [Int.natAbs_neg, Int.natAbs_natCast]

theorem natAbs_residue (a b : Int) : (residue a b).natAbs = a.natAbs % b.natAbs := by
  rw [residue_eq_tmod, Int.natAbs_tmod]

theorem truncates_quotient (hb : b ≠ 0) : Truncates a b (quotient a b) (residue a b) where
  sum := by
    rw [residue]
    omega
  size := by
    have hless : a.natAbs % b.natAbs < b.natAbs := Nat.mod_lt _ (Int.natAbs_pos.mpr hb)
    rw [Int.abs_eq_natAbs, Int.abs_eq_natAbs, natAbs_residue]
    exact_mod_cast hless
  sign := by
    rw [residue_eq_tmod, Int.sign_tmod]
    split
    · next hdvd => exact .inl (Int.tmod_eq_zero_of_dvd hdvd)
    · exact .inr rfl
  truncated := quotient_eq_integerPart a b

/-- The one quotient that is too large. -/
theorem quotient_eq_two_pow_iff (ha : (Value.integer a).Bounded) :
    quotient a b = 2 ^ 127 ↔ a = -2 ^ 127 ∧ b = -1 := by
  obtain ⟨hleast, hmost⟩ := ha
  constructor
  · intro h
    have hsize := natAbs_quotient a b
    have hle := Nat.div_le_self a.natAbs b.natAbs
    -- no quotient is larger than its dividend, and only one by a unit is as large
    have hself : a.natAbs / b.natAbs = a.natAbs := by omega
    rcases Nat.div_eq_self.mp hself with hzero | hunit
    · omega
    obtain rfl : a = -2 ^ 127 := by omega
    obtain rfl | rfl : b = 1 ∨ b = -1 := by omega
    · exact absurd h (by decide)
    · exact ⟨rfl, rfl⟩
  · rintro ⟨rfl, rfl⟩
    decide

theorem bounded_quotient (ha : (Value.integer a).Bounded) (h : quotient a b ≠ 2 ^ 127) :
    (Value.integer (quotient a b)).Bounded := by
  obtain ⟨hleast, hmost⟩ := ha
  have hsize := natAbs_quotient a b
  have hle := Nat.div_le_self a.natAbs b.natAbs
  constructor <;> omega

/-- A remainder is no larger than the dividend, whose sign it has. -/
theorem bounded_residue (ha : (Value.integer a).Bounded) (hb : b ≠ 0) :
    (Value.integer (residue a b)).Bounded := by
  obtain ⟨hleast, hmost⟩ := ha
  have hsize := natAbs_residue a b
  have hle := Nat.mod_le a.natAbs b.natAbs
  rcases (truncates_quotient hb).sign with hzero | hsign
  · rw [hzero]
    constructor <;> decide
  · by_cases hpos : 0 < residue a b
    · rw [Int.sign_eq_one_of_pos hpos] at hsign
      have ha : 0 < a := Int.sign_eq_one_iff_pos.mp hsign.symm
      constructor <;> omega
    · constructor <;> omega

theorem divide_eq (ha : (Value.integer a).Bounded) (hb : b ≠ 0) :
    divide [.integer a, .integer b] =
      if quotient a b = 2 ^ 127 then .error (.overflow (.outside (resultOf "div") (2 ^ 127)))
      else .ok (.integer (quotient a b)) := by
  simp only [divide, binary, Value.number_integer, hb, if_false]
  split
  · next h =>
    have hout : ¬ (Value.integer (quotient a b)).Bounded := fun hbounded => by
      have hmost := hbounded.2
      omega
    rw [result_eq_error.mpr ⟨hout, rfl⟩, h]
  · next h => exact result_eq_ok.mpr ⟨rfl, bounded_quotient ha h⟩

theorem remainder_eq (ha : (Value.integer a).Bounded) (hb : b ≠ 0) :
    remainder [.integer a, .integer b] = .ok (.integer (residue a b)) := by
  simp only [remainder, binary, Value.number_integer, hb, if_false]
  exact result_eq_ok.mpr ⟨rfl, bounded_residue ha hb⟩

/-- Division by zero is a fault of both operators. Any other divisor gives a quotient and a
remainder; the quotient is reported as an overflow exactly if it is that of the least integer by
minus one. -/
theorem call?_division (ha : (Value.integer a).Bounded) :
    (b = 0 →
      OperatorRegistry.builtin.call? "div" [.integer a, .integer b] =
          some (.error (.divisionByZero "div")) ∧
        OperatorRegistry.builtin.call? "mod" [.integer a, .integer b] =
          some (.error (.divisionByZero "mod"))) ∧
    (b ≠ 0 → ∃ q r, Truncates a b q r ∧ (q = 2 ^ 127 ↔ a = -2 ^ 127 ∧ b = -1) ∧
      (q = 2 ^ 127 → r = 0) ∧
      OperatorRegistry.builtin.call? "div" [.integer a, .integer b] =
          some (if q = 2 ^ 127 then .error (.overflow (.outside (resultOf "div") (2 ^ 127)))
            else .ok (.integer q)) ∧
        OperatorRegistry.builtin.call? "mod" [.integer a, .integer b] =
          some (.ok (.integer r))) := by
  have hdiv : OperatorRegistry.builtin.call? "div" [.integer a, .integer b] =
      some (divide [.integer a, .integer b]) := OperatorRegistry.call?_integers [a, b] rfl rfl
  have hmod : OperatorRegistry.builtin.call? "mod" [.integer a, .integer b] =
      some (remainder [.integer a, .integer b]) := OperatorRegistry.call?_integers [a, b] rfl rfl
  rw [hdiv, hmod]
  constructor
  · rintro rfl
    exact ⟨rfl, rfl⟩
  · intro hb
    have hlarge := quotient_eq_two_pow_iff (b := b) ha
    refine ⟨_, _, truncates_quotient hb, hlarge, fun h => ?_, ?_, ?_⟩
    · obtain ⟨rfl, rfl⟩ := hlarge.mp h
      decide
    · rw [divide_eq ha hb]
    · rw [remainder_eq ha hb]

/-- The least integer divided by minus one. -/
theorem call?_division_least : (Value.integer (-2 ^ 127)).Bounded ∧
    OperatorRegistry.builtin.call? "div" [.integer (-2 ^ 127), .integer (-1)] =
        some (.error (.overflow (.outside "result of 'div'" (2 ^ 127)))) ∧
      OperatorRegistry.builtin.call? "mod" [.integer (-2 ^ 127), .integer (-1)] =
        some (.ok (.integer 0)) := by
  have hbounded : (Value.integer (-2 ^ 127)).Bounded := by constructor <;> decide
  obtain ⟨q, r, _, hlarge, hrest, hdiv, hmod⟩ :=
    (call?_division (a := -2 ^ 127) (b := -1) hbounded).2 (by decide)
  have hq : q = 2 ^ 127 := hlarge.mpr ⟨rfl, rfl⟩
  rw [hrest hq] at hmod
  rw [if_pos hq] at hdiv
  exact ⟨hbounded, hdiv, hmod⟩

end SharedConstants.Operator
