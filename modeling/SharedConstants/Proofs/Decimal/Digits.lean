import Mathlib.Algebra.Group.Nat.Defs
import Mathlib.Data.List.Basic
import Mathlib.Data.List.Induction
import SharedConstants.Decimal.Digits

/-!
# Digits of numbers

The digits that are written for a number in a radix up to sixteen read back as that number, and
there are no more of them than the size of the number needs. They are the only digits of the number
without a zero in front.
-/
namespace SharedConstants.Decimal

variable {radix n : Nat}

theorem digitValue_digit (h : n < 16) : digitValue (digit n) = n := by
  have hall : ∀ m < 16, digitValue (digit m) = m := by decide
  exact hall n h

theorem toDigits_of_lt (h : n < radix) : toDigits radix n = [digit n] := by
  rw [toDigits, dif_pos (.inr h)]

theorem toDigits_of_le (hradix : 2 ≤ radix) (h : radix ≤ n) :
    toDigits radix n = toDigits radix (n / radix) ++ [digit (n % radix)] := by
  rw [toDigits, dif_neg (by omega)]

/-- Induction on a number along its digits, the last one first. -/
@[elab_as_elim] theorem inductOnDigits {motive : Nat → Prop} (hradix : 2 ≤ radix)
    (single : ∀ n < radix, motive n) (more : ∀ n, radix ≤ n → motive (n / radix) → motive n)
    (n : Nat) : motive n := by
  induction n using Nat.strongRecOn with
  | ind n ih =>
    by_cases h : n < radix
    · exact single n h
    · have hle : radix ≤ n := Nat.le_of_not_lt h
      exact more n hle (ih _ (Nat.div_lt_self (by omega) hradix))

theorem ofDigits_concat (ds : List Char) (c : Char) :
    ofDigits radix (ds ++ [c]) = ofDigits radix ds * radix + digitValue c := by
  simp [ofDigits]

/-- What is written reads back. -/
theorem ofDigits_toDigits (hradix : 2 ≤ radix) (hlarge : radix ≤ 16) (n : Nat) :
    ofDigits radix (toDigits radix n) = n := by
  induction n using inductOnDigits hradix with
  | single n h =>
    rw [toDigits_of_lt h]
    simpa [ofDigits] using digitValue_digit (by omega)
  | more n h ih =>
    have hlast : n % radix < radix := Nat.mod_lt n (by omega)
    rw [toDigits_of_le hradix h, ofDigits_concat, ih, digitValue_digit (by omega),
      Nat.mul_comm, Nat.div_add_mod]

theorem mem_toDigits (hradix : 2 ≤ radix) {c : Char} (h : c ∈ toDigits radix n) :
    ∃ m < radix, c = digit m := by
  induction n using inductOnDigits hradix with
  | single n hn =>
    rw [toDigits_of_lt hn] at h
    exact ⟨n, hn, List.mem_singleton.mp h⟩
  | more n hn ih =>
    rw [toDigits_of_le hradix hn] at h
    rcases List.mem_append.mp h with h | h
    · exact ih h
    · exact ⟨n % radix, Nat.mod_lt n (by omega), List.mem_singleton.mp h⟩

theorem toDigits_ne_nil (radix n : Nat) : toDigits radix n ≠ [] := by
  rw [toDigits]
  split <;> simp

/-- A number below a power of the radix has no more digits than the power has. -/
theorem length_toDigits_le (hradix : 2 ≤ radix) {size : Nat} (hsize : 1 ≤ size)
    (h : n < radix ^ size) : (toDigits radix n).length ≤ size := by
  induction n using inductOnDigits hradix generalizing size with
  | single n hn => simpa [toDigits_of_lt hn] using hsize
  | more n hn ih =>
    obtain ⟨size, rfl⟩ := Nat.exists_eq_add_of_le' hsize
    have hpos : 1 ≤ size := by
      rcases Nat.eq_zero_or_pos size with rfl | hpos
      · simp at h
        omega
      · exact hpos
    have hless : n / radix < radix ^ size :=
      (Nat.div_lt_iff_lt_mul (by omega)).mpr (by rwa [Nat.pow_succ] at h)
    rw [toDigits_of_le hradix hn, List.length_append]
    exact Nat.add_le_add_right (ih hpos hless) 1

/-- Digits that are a number in a radix, with no zero in front unless they are just that. -/
structure IsDigits (radix n : Nat) (ds : List Char) : Prop where
  digits : ∀ c ∈ ds, c ∈ "0123456789abcdef".toList.take radix
  value : ofDigits radix ds = n
  ne_nil : ds ≠ []
  leading : ds.head? = some '0' → ds = ['0']

theorem mem_take_digits (hlarge : radix ≤ 16) {c : Char} :
    c ∈ "0123456789abcdef".toList.take radix ↔ ∃ m < radix, c = digit m := by
  have hdigits : "0123456789abcdef".toList = (List.range 16).map digit := by decide
  rw [hdigits, ← List.map_take, List.take_range, Nat.min_eq_left hlarge]
  simp [eq_comm]

/-- A number that has further digits does not start with a zero. -/
theorem head?_toDigits (hradix : 2 ≤ radix) (hlarge : radix ≤ 16)
    (h : (toDigits radix n).head? = some '0') : toDigits radix n = ['0'] := by
  induction n using inductOnDigits hradix with
  | single n hn =>
    rw [toDigits_of_lt hn] at h ⊢
    rw [Option.some.inj h]
  | more n hn ih =>
    rw [toDigits_of_le hradix hn, List.head?_append_of_ne_nil _ (toDigits_ne_nil _ _)] at h
    have hzero := ofDigits_toDigits hradix hlarge (n / radix)
    have hpos : 0 < n / radix := Nat.div_pos hn (by omega)
    have hdigit : ofDigits radix ['0'] = 0 := by simp [ofDigits, digitValue]
    rw [ih h, hdigit] at hzero
    exact absurd hzero (Nat.ne_of_lt hpos)

theorem isDigits_toDigits (hradix : 2 ≤ radix) (hlarge : radix ≤ 16) (n : Nat) :
    IsDigits radix n (toDigits radix n) where
  digits _ h := (mem_take_digits hlarge).mpr (mem_toDigits hradix h)
  value := ofDigits_toDigits hradix hlarge n
  ne_nil := toDigits_ne_nil radix n
  leading := head?_toDigits hradix hlarge

theorem toDigits_mul_add (hradix : 2 ≤ radix) {last : Nat} (hn : 0 < n) (hlast : last < radix) :
    toDigits radix (n * radix + last) = toDigits radix n ++ [digit last] := by
  have hle : radix ≤ n * radix + last :=
    Nat.le_add_right_of_le (Nat.le_mul_of_pos_left radix hn)
  have hdiv : (n * radix + last) / radix = n := by
    rw [Nat.add_comm, Nat.add_mul_div_right _ _ (by omega), Nat.div_eq_of_lt hlast, Nat.zero_add]
  rw [toDigits_of_le hradix hle, hdiv, Nat.mul_add_mod_of_lt hlast]

theorem IsDigits.head?_ne {ds : List Char} {c : Char} (h : IsDigits radix n (ds ++ [c]))
    (hne : ds ≠ []) : ds.head? ≠ some '0' := by
  intro hzero
  have hwhole := h.leading ((List.head?_append_of_ne_nil _ hne).trans hzero)
  have hlength := congrArg List.length hwhole
  simp [hne] at hlength

/-- A number has no other digits than those that are written. -/
theorem IsDigits.eq_toDigits {ds : List Char} (hradix : 2 ≤ radix) (hlarge : radix ≤ 16)
    (h : IsDigits radix n ds) : ds = toDigits radix n := by
  induction ds using List.reverseRecOn generalizing n with
  | nil => exact absurd rfl h.ne_nil
  | append_singleton ds c ih =>
    obtain ⟨hds, hc⟩ := List.forall_mem_append.mp h.digits
    obtain ⟨last, hlast, rfl⟩ := (mem_take_digits hlarge).mp (hc c List.mem_cons_self)
    have hvalue := h.value
    rw [ofDigits_concat, digitValue_digit (by omega)] at hvalue
    by_cases hne : ds = []
    · subst hne
      have hn : n = last := by simpa [ofDigits] using hvalue.symm
      rw [hn, toDigits_of_lt hlast, List.nil_append]
    · have hlead := h.head?_ne hne
      have hfront := ih ⟨hds, rfl, hne, fun hzero => absurd hzero hlead⟩
      have hpos : 0 < ofDigits radix ds := by
        refine Nat.pos_of_ne_zero fun hzero => hlead ?_
        rw [hfront, hzero, toDigits_of_lt (by omega)]
        rfl
      rw [← hvalue, toDigits_mul_add hradix hpos hlast, ← hfront]

end SharedConstants.Decimal
