import SharedConstants.Proofs.Format.ReadBack

/-!
# How integers are spelled

A spelled integer is a minus sign if it is negative, the mark of the radix unless it is left out,
and groups of digits with a separator between them. The groups together are the digits of the
number with zeros in front. This says what the text is: there is only one such text.
-/
namespace SharedConstants.FormatSettings

open Decimal (IsDigits)

variable {s : FormatSettings} {gs : List (List Char)}

/-- Groups that together are the digits of a number, with zeros in front if there are fewer digits
than are asked for. -/
structure IsGroups (s : FormatSettings) (n : Nat) (gs : List (List Char)) : Prop where
  grouped : Grouped s.groupWidth gs
  padded : ∃ zeros ds, IsDigits s.radix.base n ds ∧ gs.flatten = List.replicate zeros '0' ++ ds ∧
    (gs.flatten.length : Int) = max s.zeroPad ds.length

theorem isGroups_groups (s : FormatSettings) (n : Nat) :
    s.IsGroups n (groups s.groupWidth (s.paddedDigits n)) where
  grouped := grouped_groups (s.paddedDigits_ne_nil n)
  padded := by
    refine ⟨_, _, Decimal.isDigits_toDigits s.radix.two_le_base s.radix.base_le_sixteen n,
      flatten_groups _ _, ?_⟩
    rw [flatten_groups, paddedDigits, length_pad]
    omega

theorem IsGroups.eq_groups {n : Nat} (h : s.IsGroups n gs) :
    gs = groups s.groupWidth (s.paddedDigits n) := by
  obtain ⟨zeros, ds, hds, hflatten, hlength⟩ := h.padded
  have hzeros : zeros = s.zeroPad.toNat - ds.length := by
    rw [hflatten, List.length_append, List.length_replicate] at hlength
    omega
  have hpadded : gs.flatten = s.paddedDigits n := by
    rw [paddedDigits, pad, hflatten, hzeros,
      ← hds.eq_toDigits s.radix.two_le_base s.radix.base_le_sixteen]
  rw [← hpadded, h.grouped.groups_flatten]

theorem isGroups_iff {n : Nat} :
    s.IsGroups n gs ↔ gs = groups s.groupWidth (s.paddedDigits n) :=
  ⟨IsGroups.eq_groups, fun h => h ▸ s.isGroups_groups n⟩

theorem spellInteger_eq (s : FormatSettings) (n : Int) : s.spellInteger n =
    (if n < 0 then ['-'] else []) ++ (if s.omitMark then [] else s.radix.mark) ++
      s.groupSeparator.toList.intercalate (groups s.groupWidth (s.paddedDigits n.natAbs)) := by
  rw [spellInteger, groupedDigits, ← paddedDigits]
  split <;> simp

/-- The text of an integer is a minus sign exactly if the integer is negative, the mark unless it is
left out, and the groups of its digits with separators between them. -/
theorem formatInteger_eq_iff (s : FormatSettings) (n : Int) (text : String) :
    s.formatInteger n = text ↔ ∃ gs, s.IsGroups n.natAbs gs ∧ text.toList =
      (if n < 0 then ['-'] else []) ++ (if s.omitMark then [] else s.radix.mark) ++
        s.groupSeparator.toList.intercalate gs := by
  simp only [isGroups_iff, exists_eq_left, ← spellInteger_eq]
  rw [formatInteger, ← String.toList_inj, String.toList_ofList, eq_comm]

/-- Twice four digits, with zeros in front, are two groups. -/
example : FormatSettings.formatInteger { radix := .hexadecimal, groupWidth := 4, zeroPad := 8 }
    (-0x10) = "-0x0000_0010" := by decide +kernel

end SharedConstants.FormatSettings
