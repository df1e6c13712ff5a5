import Mathlib.Algebra.Group.Int.Defs
import SharedConstants.SemanticType.Registry

/-!
# Ranges of values

The checks of integers accept a range of them: the signed 128-bit range, or the range that the
width and the sign of a type leave.
-/
namespace SharedConstants

namespace Value

theorem inRange_iff_pow {n : Int} : inRange n = true ↔ -2 ^ 127 ≤ n ∧ n < 2 ^ 127 := by
  rw [inRange_iff, minInt128, maxInt128]
  omega

/-- An integer value lies in the signed 128-bit range. -/
def Bounded : Value → Prop
  | .integer n => -2 ^ 127 ≤ n ∧ n < 2 ^ 127
  | .boolean _ => True

theorem checkRange_eq_ok {what : String} {n m : Int} :
    checkRange what n = .ok m ↔ n = m ∧ (Value.integer n).Bounded := by
  rw [checkRange, Bounded, ← inRange_iff_pow]
  cases inRange n <;> simp

theorem checkRange_eq_error {what : String} {n : Int} {fault : Fault} :
    checkRange what n = .error fault ↔
      ¬ (Value.integer n).Bounded ∧ fault = .overflow (.outside what n) := by
  rw [checkRange, Bounded, ← inRange_iff_pow]
  cases inRange n <;> simp [eq_comm]

end Value

namespace SemanticType

variable {t : SemanticType}

/-- The values of a type: truth values, or the integers of its width and sign. -/
def Holds (t : SemanticType) : Value → Prop
  | .boolean _ => t.kind = .boolean
  | .integer n => t.kind = .integer ∧
    if t.isSigned then -2 ^ (t.bits.toNat - 1) ≤ n ∧ n ≤ 2 ^ (t.bits.toNat - 1) - 1
    else 0 ≤ n ∧ n ≤ 2 ^ t.bits.toNat - 1

theorem contains_iff {n : Int} (hkind : t.kind = .integer) :
    t.contains n = true ↔
      if t.isSigned then -2 ^ (t.bits.toNat - 1) ≤ n ∧ n ≤ 2 ^ (t.bits.toNat - 1) - 1
      else 0 ≤ n ∧ n ≤ 2 ^ t.bits.toNat - 1 := by
  have hwidth : (t.bits - 1).toNat = t.bits.toNat - 1 := by omega
  cases hsigned : t.isSigned <;>
    simp [contains, hkind, minValue, maxValue, hsigned, hwidth]

theorem misfit?_eq_none {v : Value} : t.misfit? v = none ↔ t.Holds v := by
  cases v with
  | boolean b => cases hkind : t.kind <;> simp [misfit?, Holds, hkind]
  | integer n =>
    cases hkind : t.kind with
    | boolean => simp [misfit?, Holds, hkind]
    | integer =>
      simp only [Holds, hkind, true_and, ← contains_iff hkind]
      cases hcontains : t.contains n <;> simp [misfit?, hkind, hcontains]

theorem check_eq_ok {v : Value} : t.check v = .ok () ↔ t.Holds v := by
  rw [← misfit?_eq_none, check]
  cases t.misfit? v <;> simp

end SemanticType

end SharedConstants
