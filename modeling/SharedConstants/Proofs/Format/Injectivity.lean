import SharedConstants.Proofs.Format.Spelling

/-!
# Different integers are spelled differently

Under any settings a text is that of at most one integer. The separator may be any text, even one
of digits, so it cannot be told from the digits by looking at it. What tells it is its place: more
digits make a longer text, so the length of a text says how many digits and groups it has.
-/
namespace SharedConstants.FormatSettings

variable {width : Int} {sep : List Char} {gs hs : List (List Char)}

/-- Joined groups are as long as the digits and the separators between them. -/
theorem length_intercalate (sep : List Char) (gs : List (List Char)) :
    (sep.intercalate gs).length = gs.flatten.length + (gs.length - 1) * sep.length := by
  induction gs with
  | nil => simp
  | cons g gs ih =>
    cases gs with
    | nil => simp
    | cons g' gs =>
      rw [List.intercalate_cons_cons, List.length_append, List.length_append, ih,
        List.flatten_cons (l := g), List.length_append]
      simp only [List.length_cons, Nat.add_sub_cancel, Nat.add_mul, Nat.one_mul]
      omega

/-- Where groups of the same lengths are joined, they can be told apart again. -/
theorem eq_of_intercalate_eq (hlengths : gs.map List.length = hs.map List.length)
    (h : sep.intercalate gs = sep.intercalate hs) : gs = hs := by
  induction gs generalizing hs with
  | nil => simpa [eq_comm] using hlengths
  | cons g gs ih =>
    cases hs with
    | nil => simp at hlengths
    | cons k hs =>
      obtain ⟨hfirst, hrest⟩ := List.cons.inj hlengths
      cases gs with
      | nil =>
        obtain rfl : hs = [] := by simpa [eq_comm] using hrest
        simpa using h
      | cons g' gs =>
        cases hs with
        | nil => simp at hrest
        | cons k' hs =>
          rw [List.intercalate_cons_cons, List.intercalate_cons_cons, List.append_assoc,
            List.append_assoc] at h
          obtain ⟨rfl, htail⟩ := List.append_inj h hfirst
          rw [ih hrest (List.append_cancel_left htail)]

theorem length_flatten_of_forall (h : ∀ g ∈ gs, (g.length : Int) = width) :
    (gs.flatten.length : Int) = gs.length * width := by
  induction gs with
  | nil => simp
  | cons g gs ih =>
    obtain ⟨hg, hgs⟩ := List.forall_mem_cons.mp h
    rw [List.flatten_cons, List.length_append, List.length_cons]
    push_cast
    rw [ih hgs, hg, Int.add_mul, Int.one_mul, Int.add_comm]

theorem length_flatten_cons (g : List Char) (h : ∀ g' ∈ gs, (g'.length : Int) = width) :
    ((g :: gs).flatten.length : Int) = g.length + gs.length * width := by
  rw [List.flatten_cons, List.length_append, Int.natCast_add, length_flatten_of_forall h]

theorem map_length_of_forall (h : ∀ g ∈ gs, (g.length : Int) = width) :
    gs.map List.length = List.replicate gs.length width.toNat :=
  List.map_eq_replicate_iff.mpr fun g hg => by rw [← h g hg, Int.toNat_natCast]

/-- More digits take no fewer groups. -/
theorem Grouped.length_le (hgs : Grouped width gs) (hhs : Grouped width hs)
    (h : gs.flatten.length ≤ hs.flatten.length) : gs.length ≤ hs.length := by
  cases hgs with
  | whole hwidth =>
    cases hhs with
    | whole => exact Nat.le_refl 1
    | counted => exact Nat.le_add_left 1 _
  | @counted g gs hpos hle hrest =>
    cases hhs with
    | whole hwidth => omega
    | @counted k hs hpos' hle' hrest' =>
      have hdigits := length_flatten_cons g hrest
      have hdigits' := length_flatten_cons k hrest'
      rw [List.length_cons, List.length_cons]
      by_contra hmore
      -- one more full group has more digits than the first group can make up for
      have hgroups : ((hs.length : Int) + 1) * width ≤ gs.length * width :=
        Int.mul_le_mul_of_nonneg_right (by omega) (by omega)
      rw [Int.add_mul, Int.one_mul] at hgroups
      omega

/-- The number of digits says how long each group is. -/
theorem Grouped.map_length_eq (hgs : Grouped width gs) (hhs : Grouped width hs)
    (h : gs.flatten.length = hs.flatten.length) : gs.map List.length = hs.map List.length := by
  have hcount : gs.length = hs.length :=
    Nat.le_antisymm (hgs.length_le hhs (Nat.le_of_eq h)) (hhs.length_le hgs (Nat.le_of_eq h.symm))
  cases hgs with
  | whole hwidth =>
    cases hhs with
    | whole => simpa using h
    | counted => omega
  | @counted g gs hpos hle hrest =>
    cases hhs with
    | whole hwidth => omega
    | @counted k hs hpos' hle' hrest' =>
      have hcount : gs.length = hs.length := Nat.succ.inj hcount
      have hdigits := length_flatten_cons g hrest
      have hdigits' := length_flatten_cons k hrest'
      rw [hcount] at hdigits
      have hfirst : g.length = k.length := by omega
      rw [List.map_cons, List.map_cons, map_length_of_forall hrest, map_length_of_forall hrest',
        hfirst, hcount]

/-- A text with more digits is longer: it has no fewer separators. -/
theorem Grouped.length_flatten_le (hgs : Grouped width gs) (hhs : Grouped width hs)
    (h : (sep.intercalate hs).length ≤ (sep.intercalate gs).length) :
    hs.flatten.length ≤ gs.flatten.length := by
  by_contra hmore
  have hgroups := hgs.length_le hhs (by omega)
  have hseparators : (gs.length - 1) * sep.length ≤ (hs.length - 1) * sep.length :=
    Nat.mul_le_mul_right _ (Nat.sub_le_sub_right hgroups 1)
  rw [length_intercalate, length_intercalate] at h
  omega

/-- Groups of a width are determined by the text that any separator joins them to. -/
theorem Grouped.eq_of_intercalate_eq (hgs : Grouped width gs) (hhs : Grouped width hs)
    (h : sep.intercalate gs = sep.intercalate hs) : gs = hs := by
  have hlength := congrArg List.length h
  have hdigits : gs.flatten.length = hs.flatten.length :=
    Nat.le_antisymm (hhs.length_flatten_le hgs (Nat.le_of_eq hlength))
      (hgs.length_flatten_le hhs (Nat.le_of_eq hlength.symm))
  exact FormatSettings.eq_of_intercalate_eq (hgs.map_length_eq hhs hdigits) h

theorem groupedDigits_injective (s : FormatSettings) : Function.Injective s.groupedDigits := by
  intro m n h
  have hgroups : groups s.groupWidth (s.paddedDigits m) = groups s.groupWidth (s.paddedDigits n) :=
    (grouped_groups (s.paddedDigits_ne_nil m)).eq_of_intercalate_eq
      (grouped_groups (s.paddedDigits_ne_nil n)) h
  have hpadded : s.paddedDigits m = s.paddedDigits n := by
    rw [← flatten_groups s.groupWidth (s.paddedDigits m), hgroups, flatten_groups]
  rw [← s.ofDigits_paddedDigits m, hpadded, ofDigits_paddedDigits]

theorem head?_intercalate (h : ∀ g ∈ gs, g ≠ []) :
    (sep.intercalate gs).head? = gs.flatten.head? := by
  cases gs with
  | nil => rfl
  | cons g gs =>
    obtain ⟨hg, _⟩ := List.forall_mem_cons.mp h
    cases gs with
    | nil => simp
    | cons g' gs =>
      rw [List.intercalate_cons_cons, List.append_assoc, List.head?_append_of_ne_nil _ hg,
        List.flatten_cons, List.head?_append_of_ne_nil _ hg]

theorem head?_groupedDigits (s : FormatSettings) (n : Nat) :
    (s.groupedDigits n).head? = (s.paddedDigits n).head? := by
  have hgroups : ∀ g ∈ groups s.groupWidth (s.paddedDigits n), g ≠ [] :=
    ne_nil_of_mem_groups (s.paddedDigits_ne_nil n)
  rw [groupedDigits, ← paddedDigits, head?_intercalate hgroups, flatten_groups]

/-- An integer without its sign. -/
def unsigned (s : FormatSettings) (n : Nat) : List Char :=
  (if s.omitMark then [] else s.radix.mark) ++ s.groupedDigits n

theorem spellInteger_eq_unsigned (s : FormatSettings) (n : Int) : s.spellInteger n =
    if n < 0 then '-' :: s.unsigned n.natAbs else s.unsigned n.natAbs := rfl

theorem unsigned_injective (s : FormatSettings) : Function.Injective s.unsigned :=
  fun _ _ h => s.groupedDigits_injective (List.append_cancel_left h)

/-- What follows the sign starts with a digit, as the marks of radices do. -/
theorem head?_unsigned_ne (s : FormatSettings) (n : Nat) : (s.unsigned n).head? ≠ some '-' := by
  have hminus : ∀ radix : Radix, Expr.isDigitOf radix.base '-' = false := by
    intro radix
    cases radix <;> decide
  have hdigits : (s.groupedDigits n).head? ≠ some '-' := by
    rw [head?_groupedDigits]
    intro h
    have hdigit := s.isDigitOf_paddedDigits n '-' (List.mem_of_mem_head? h)
    rw [hminus] at hdigit
    cases hdigit
  rw [unsigned]
  cases s.omitMark with
  | true => exact hdigits
  | false =>
    cases s.radix with
    | decimal => exact hdigits
    | binary | octal | hexadecimal => simp [Radix.mark]

theorem spellInteger_injective (s : FormatSettings) : Function.Injective s.spellInteger := by
  have hsign : ∀ k l, '-' :: s.unsigned k ≠ s.unsigned l := fun k l h =>
    s.head?_unsigned_ne l (h ▸ rfl)
  intro m n h
  rw [spellInteger_eq_unsigned, spellInteger_eq_unsigned] at h
  split at h <;> split at h
  · have hsize := s.unsigned_injective (List.cons.inj h).2
    omega
  · exact absurd h (hsign _ _)
  · exact absurd h.symm (hsign _ _)
  · have hsize := s.unsigned_injective h
    omega

/-- However integers are grouped and joined, padded, marked and framed, no two of them have the same
literal under one rule. -/
theorem formatLiteral_injective (r : FormatRule) :
    Function.Injective fun n : Int =>
      (FormatRule.system.merged r).settle.formatLiteral (.integer n) := by
  intro m n h
  apply spellInteger_injective (FormatRule.system.merged r).settle
  simpa [formatLiteral, spell, ← String.toList_inj] using h

/-- A separator of digits is told from the digits by its place alone. -/
example :
    FormatSettings.formatInteger { groupWidth := 2, groupSeparator := "0" } 1000 = "10000" ∧
      FormatSettings.formatInteger { groupWidth := 2, groupSeparator := "0" } 100 = "1000" := by
  decide +kernel

end SharedConstants.FormatSettings
