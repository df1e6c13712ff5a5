import SharedConstants.Format.Literal
import SharedConstants.Proofs.Decimal.Digits

/-!
# Groups of digits

Padded digits are put into groups, which are not empty and are the digits again when the separators
between them are left out. All groups but the first one have the width that is asked for, so there
is only one way to put digits into groups.
-/
namespace SharedConstants.FormatSettings

variable {width : Nat} {d : Char} {gs : List (List Char)} {digits : List Char}

theorem flatten_pushDigit : (pushDigit width d gs).flatten = d :: gs.flatten := by
  cases gs with
  | nil => rfl
  | cons g gs =>
    rw [pushDigit]
    split <;> simp

theorem ne_nil_of_mem_pushDigit (h : ∀ g ∈ gs, g ≠ []) : ∀ g ∈ pushDigit width d gs, g ≠ [] := by
  have hcons : ∀ ds : List Char, d :: ds ≠ [] := List.cons_ne_nil d
  cases gs with
  | nil => exact List.forall_mem_singleton.mpr (hcons [])
  | cons g gs =>
    rw [pushDigit]
    split
    · exact List.forall_mem_cons.mpr ⟨hcons g, (List.forall_mem_cons.mp h).2⟩
    · exact List.forall_mem_cons.mpr ⟨hcons [], h⟩

/-- No digit is lost, added or moved. -/
theorem flatten_groups (width : Int) (digits : List Char) :
    (groups width digits).flatten = digits := by
  unfold groups
  split
  · simp
  · induction digits with
    | nil => rfl
    | cons d digits ih => rw [List.foldr_cons, flatten_pushDigit, ih]

theorem ne_nil_of_mem_groups {width : Int} (h : digits ≠ []) :
    ∀ g ∈ groups width digits, g ≠ [] := by
  unfold groups
  split
  · exact List.forall_mem_singleton.mpr h
  · clear h
    induction digits with
    | nil => exact List.forall_mem_nil _
    | cons d digits ih => exact ne_nil_of_mem_pushDigit ih

theorem groups_ne_nil {width : Int} (h : digits ≠ []) : groups width digits ≠ [] := by
  intro hnil
  have hflatten := flatten_groups width digits
  rw [hnil] at hflatten
  exact h hflatten.symm

/-- Groups of a width, counted from the last digit: the first one may be shorter than the others.
Without a positive width there is one group. -/
inductive Grouped (width : Int) : List (List Char) → Prop
  | whole {g : List Char} : width ≤ 0 → Grouped width [g]
  | counted {g : List Char} {gs : List (List Char)} : 1 ≤ g.length → g.length ≤ width →
    (∀ g' ∈ gs, (g'.length : Int) = width) → Grouped width (g :: gs)

theorem grouped_pushDigit {width : Nat} (hwidth : 0 < width) (h : Grouped width gs) :
    Grouped width (pushDigit width d gs) := by
  cases h with
  | whole hwidth' => omega
  | @counted g gs hpos hle hrest =>
    rw [pushDigit]
    split
    · exact .counted (by simp) (by simp; omega) hrest
    · refine .counted (by simp) (by simp; omega) (List.forall_mem_cons.mpr ⟨?_, hrest⟩)
      omega

theorem grouped_foldr {width : Nat} (hwidth : 0 < width) (h : digits ≠ []) :
    Grouped width (digits.foldr (pushDigit width) []) := by
  induction digits with
  | nil => exact absurd rfl h
  | cons d digits ih =>
    rw [List.foldr_cons]
    cases digits with
    | nil => exact .counted (by simp) (by simp; omega) nofun
    | cons d' digits => exact grouped_pushDigit hwidth (ih (List.cons_ne_nil d' digits))

theorem grouped_groups {width : Int} (h : digits ≠ []) : Grouped width (groups width digits) := by
  rw [groups]
  split
  · next hwidth => exact .whole hwidth
  · next hwidth =>
    have hcast : (width.toNat : Int) = width := by omega
    have hgrouped : Grouped width.toNat (digits.foldr (pushDigit width.toNat) []) :=
      grouped_foldr (by omega) h
    rwa [hcast] at hgrouped

/-- Digits in front of a full group become a group of their own. -/
theorem foldr_pushDigit {g : List Char} (hne : g ≠ []) (hle : g.length ≤ width)
    (hfull : ∀ g' ∈ gs.head?, g'.length = width) : g.foldr (pushDigit width) gs = g :: gs := by
  induction g with
  | nil => exact absurd rfl hne
  | cons d g ih =>
    rw [List.foldr_cons]
    rw [List.length_cons] at hle
    cases g with
    | nil =>
      cases gs with
      | nil => rfl
      | cons g' gs =>
        have hg' : ¬ g'.length < width := by simp [hfull g' rfl]
        rw [List.foldr_nil, pushDigit, if_neg hg']
    | cons d' g =>
      rw [ih (List.cons_ne_nil d' g) (by omega), pushDigit, if_pos (Nat.lt_of_succ_le hle)]

theorem foldr_flatten (hwidth : 0 < width) (h : ∀ g ∈ gs, g.length = width) :
    gs.flatten.foldr (pushDigit width) [] = gs := by
  induction gs with
  | nil => rfl
  | cons g gs ih =>
    obtain ⟨hg, hgs⟩ := List.forall_mem_cons.mp h
    have hne : g ≠ [] := List.ne_nil_of_length_pos (by omega)
    rw [List.flatten_cons, List.foldr_append, ih hgs]
    exact foldr_pushDigit hne (Nat.le_of_eq hg) fun g' hg' => hgs g' (List.mem_of_mem_head? hg')

/-- Groups of a width are those that their digits are put into. -/
theorem Grouped.groups_flatten {width : Int} (h : Grouped width gs) :
    groups width gs.flatten = gs := by
  cases h with
  | whole hwidth => simp [groups, hwidth]
  | @counted g gs hpos hle hrest =>
    have hall : ∀ g' ∈ gs, g'.length = width.toNat := fun g' hg' => by
      rw [← hrest g' hg', Int.toNat_natCast]
    rw [groups, if_neg (by omega), List.flatten_cons, List.foldr_append,
      foldr_flatten (by omega) hall]
    exact foldr_pushDigit (List.ne_nil_of_length_pos hpos) (by omega)
      fun g' hg' => hall g' (List.mem_of_mem_head? hg')

/-- Zeros in front change no number. -/
theorem ofDigits_pad (radix : Nat) (width : Int) (digits : List Char) :
    Decimal.ofDigits radix (pad width digits) = Decimal.ofDigits radix digits := by
  unfold pad
  induction width.toNat - digits.length with
  | zero => rfl
  | succ zeros ih =>
    have hzero : Decimal.ofDigits radix ('0' :: (List.replicate zeros '0' ++ digits)) =
        Decimal.ofDigits radix (List.replicate zeros '0' ++ digits) := by
      simp [Decimal.ofDigits, Decimal.digitValue]
    rw [List.replicate_succ, List.cons_append, hzero, ih]

theorem length_pad (width : Int) (digits : List Char) :
    (pad width digits).length = max width.toNat digits.length := by
  rw [pad, List.length_append, List.length_replicate]
  omega

end SharedConstants.FormatSettings
