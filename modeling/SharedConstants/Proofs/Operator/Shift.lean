import Mathlib.Data.Rat.Floor
import SharedConstants.Proofs.Operator.Failure

/-!
# Shifts of integers

A left shift multiplies by a power of two and a right shift divides by one, rounded down. Large
counts are treated apart only so that no power of two has to be computed for them: they come to what
shifts without a limit come to.
-/
namespace SharedConstants.Operator

variable {v n : Int}

/-- Left shifts without a limit on their counts. -/
def unlimitedLeft : Meaning :=
  binary "shl" fun a b =>
    if b.number < 0 then .error (.evaluation (.negativeShift "shl" b.number))
    else result "shl" (a.number <<< b.number.toNat)

/-- Right shifts without a limit on their counts. -/
def unlimitedRight : Meaning :=
  binary "shr" fun a b =>
    if b.number < 0 then .error (.evaluation (.negativeShift "shr" b.number))
    else .ok (.integer (a.number >>> b.number.toNat))

theorem unlimitedLeft_eq (hn : 0 ≤ n) :
    unlimitedLeft [.integer v, .integer n] = result "shl" (v * 2 ^ n.toNat) := by
  simp only [unlimitedLeft, binary, Value.number_integer, Int.not_lt.mpr hn, if_false,
    Int.shiftLeft_eq]

theorem unlimitedRight_eq (hn : 0 ≤ n) :
    unlimitedRight [.integer v, .integer n] = .ok (.integer (v / 2 ^ n.toNat)) := by
  simp only [unlimitedRight, binary, Value.number_integer, Int.not_lt.mpr hn, if_false,
    Int.shiftRight_eq_div_pow, Nat.cast_pow, Nat.cast_ofNat]

/-- Where a left shift gives up on a large count, the product is out of range. -/
theorem shiftLeft_eq_unlimited (v n : Int) :
    (shiftLeft [.integer v, .integer n]).mapError Fault.code =
      (unlimitedLeft [.integer v, .integer n]).mapError Fault.code := by
  by_cases hn : n < 0
  · simp only [shiftLeft, unlimitedLeft, binary, Value.number_integer, hn, if_true]
  · rw [unlimitedLeft_eq (Int.not_lt.mp hn)]
    simp only [shiftLeft, binary, Value.number_integer, hn, if_false]
    obtain ⟨k, rfl⟩ := Int.eq_ofNat_of_zero_le (Int.not_lt.mp hn)
    by_cases hv : v = 0
    · simp only [hv, if_true, Int.zero_mul]
    by_cases hk : maxShift ≤ k
    · have hwidth : 128 ≤ k := by simpa [maxShift] using hk
      simp only [hv, hk, if_true, if_false, Int.toNat_natCast,
        result_eq_error.mpr ⟨not_bounded_mul_two_pow hv hwidth, rfl⟩]
      rfl
    · simp only [hv, hk, if_false, Nat.pow_eq, Nat.cast_pow, Nat.cast_ofNat]

theorem shiftRight_eq_unlimited (hv : (Value.integer v).Bounded) (n : Int) :
    shiftRight [.integer v, .integer n] = unlimitedRight [.integer v, .integer n] := by
  by_cases hn : n < 0
  · simp only [shiftRight, unlimitedRight, binary, Value.number_integer, hn, if_true]
  · rw [unlimitedRight_eq (Int.not_lt.mp hn)]
    simp only [shiftRight, binary, Value.number_integer, hn, if_false]
    obtain ⟨k, rfl⟩ := Int.eq_ofNat_of_zero_le (Int.not_lt.mp hn)
    rw [shiftRight_min_maxShift k hv, Int.toNat_natCast]

theorem shiftRight_eq (hv : (Value.integer v).Bounded) (hn : 0 ≤ n) :
    shiftRight [.integer v, .integer n] = .ok (.integer (v / 2 ^ n.toNat)) := by
  rw [shiftRight_eq_unlimited hv, unlimitedRight_eq hn]

theorem shiftLeft_eq (hn : 0 ≤ n) (h : (Value.integer (v * 2 ^ n.toNat)).Bounded) :
    shiftLeft [.integer v, .integer n] = .ok (.integer (v * 2 ^ n.toNat)) := by
  have hsame := shiftLeft_eq_unlimited v n
  rw [unlimitedLeft_eq hn, result_eq_ok.mpr ⟨rfl, h⟩] at hsame
  exact eq_ok_of_mapError hsame

theorem code_eq_arithmeticOverflow {fault : Fault} :
    fault.code = .arithmeticOverflow ↔ ∃ cause, fault = .overflow cause := by
  cases fault <;> simp [Fault.code]

theorem shiftLeft_eq_overflow (hn : 0 ≤ n) (h : ¬ (Value.integer (v * 2 ^ n.toNat)).Bounded) :
    ∃ cause, shiftLeft [.integer v, .integer n] = .error (.overflow cause) := by
  have hsame := shiftLeft_eq_unlimited v n
  rw [unlimitedLeft_eq hn, result_eq_error.mpr ⟨h, rfl⟩] at hsame
  obtain ⟨fault, hfault, hcode⟩ := mapError_eq_error.mp hsame
  obtain ⟨cause, rfl⟩ := code_eq_arithmeticOverflow.mp hcode
  exact ⟨cause, hfault⟩

theorem floor_div_two_pow (v : Int) (k : Nat) : ⌊(v / 2 ^ k : ℚ)⌋ = v / 2 ^ k := by
  have hfloor := Rat.floor_intCast_div_natCast v (2 ^ k)
  simpa using hfloor

/-- Shifts by negative counts fail. Any other count multiplies by a power of two or divides by it,
rounded down, with no other fault than a product out of range. A right shift takes a left shift
back, and no count comes to anything else than it does without a limit. -/
theorem call?_shift (hv : (Value.integer v).Bounded) :
    (n < 0 →
      OperatorRegistry.builtin.call? "shl" [.integer v, .integer n] =
          some (.error (.evaluation (.negativeShift "shl" n))) ∧
        OperatorRegistry.builtin.call? "shr" [.integer v, .integer n] =
          some (.error (.evaluation (.negativeShift "shr" n)))) ∧
    (0 ≤ n →
      ((Value.integer (v * 2 ^ n.toNat)).Bounded →
        OperatorRegistry.builtin.call? "shl" [.integer v, .integer n] =
          some (.ok (.integer (v * 2 ^ n.toNat)))) ∧
      (¬ (Value.integer (v * 2 ^ n.toNat)).Bounded → ∃ cause,
        OperatorRegistry.builtin.call? "shl" [.integer v, .integer n] =
          some (.error (.overflow cause))) ∧
      OperatorRegistry.builtin.call? "shr" [.integer v, .integer n] =
          some (.ok (.integer ⌊(v / 2 ^ n.toNat : ℚ)⌋)) ∧
        (Value.integer ⌊(v / 2 ^ n.toNat : ℚ)⌋).Bounded) ∧
    (∀ w, OperatorRegistry.builtin.call? "shl" [.integer v, .integer n] = some (.ok w) →
      OperatorRegistry.builtin.call? "shr" [w, .integer n] = some (.ok (.integer v))) ∧
    (OperatorRegistry.builtin.call? "shl" [.integer v, .integer n]).map (·.mapError Fault.code) =
        some ((unlimitedLeft [.integer v, .integer n]).mapError Fault.code) ∧
      OperatorRegistry.builtin.call? "shr" [.integer v, .integer n] =
        some (unlimitedRight [.integer v, .integer n]) := by
  have hshl : OperatorRegistry.builtin.call? "shl" [.integer v, .integer n] =
      some (shiftLeft [.integer v, .integer n]) := OperatorRegistry.call?_integers [v, n] rfl rfl
  have hshr : ∀ m, OperatorRegistry.builtin.call? "shr" [.integer m, .integer n] =
      some (shiftRight [.integer m, .integer n]) := fun m =>
    OperatorRegistry.call?_integers [m, n] rfl rfl
  rw [hshl, hshr]
  refine ⟨fun hn => ?_, fun hn => ⟨fun h => ?_, fun h => ?_, ?_⟩, fun w hw => ?_, ?_, ?_⟩
  · simp only [shiftLeft, shiftRight, binary, Value.number_integer, hn, if_true, and_self]
  · rw [shiftLeft_eq hn h]
  · obtain ⟨cause, hcause⟩ := shiftLeft_eq_overflow hn h
    exact ⟨cause, congrArg some hcause⟩
  · rw [floor_div_two_pow, shiftRight_eq hv hn]
    exact ⟨rfl, bounded_ediv n.toNat hv⟩
  · obtain ⟨hn, rfl, hbounded⟩ := eq_of_shiftLeft_eq_ok (Option.some.inj hw)
    have hpow : (2 : Int) ^ n.toNat ≠ 0 := pow_ne_zero _ (by decide)
    rw [hshr, shiftRight_eq hbounded hn, Int.mul_ediv_cancel v hpow]
  · rw [Option.map_some, shiftLeft_eq_unlimited]
  · rw [shiftRight_eq_unlimited hv]

/-- The farthest that minus one can be shifted, and back. -/
theorem call?_shift_minusOne : (Value.integer (-1)).Bounded ∧
    OperatorRegistry.builtin.call? "shl" [.integer (-1), .integer 127] =
        some (.ok (.integer (-2 ^ 127))) ∧
      OperatorRegistry.builtin.call? "shr" [.integer (-2 ^ 127), .integer 127] =
        some (.ok (.integer (-1))) := by
  have hone : (Value.integer (-1)).Bounded := by constructor <;> decide
  have hleast : (Value.integer (-1 * 2 ^ (127 : Int).toNat)).Bounded := by constructor <;> decide
  obtain ⟨_, hcounts, hback, _⟩ := call?_shift (v := -1) (n := 127) hone
  have hshl := (hcounts (by decide)).1 hleast
  exact ⟨hone, hshl, hback _ hshl⟩

end SharedConstants.Operator
