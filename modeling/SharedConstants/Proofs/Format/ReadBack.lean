import SharedConstants.Proofs.Expr.RoundTrip
import SharedConstants.Proofs.Format.Grouping

/-!
# Reading spelled integers

An integer that is spelled with its mark, and with underscores between groups of its digits, is a
value text. It reads back as the integer unless it is a decimal number that zeros in front have
made too long to be read.
-/
namespace SharedConstants

namespace Expr

variable {radix : Nat} {ds es : List Char} {gs : List (List Char)}

theorem Digits.append (hds : Digits radix ds) (hes : Digits radix es) :
    Digits radix (ds ++ '_' :: es) := by
  induction hds with
  | one hc => exact .spaced hc hes
  | more hc _ ih => exact .more hc ih
  | spaced hc _ ih => exact .spaced hc ih

/-- Groups of digits with underscores between them are digits. -/
theorem digits_intercalate (hne : gs ≠ []) (hgroups : ∀ g ∈ gs, g ≠ [])
    (hdigits : ∀ c ∈ gs.flatten, isDigitOf radix c = true) :
    Digits radix (['_'].intercalate gs) := by
  induction gs with
  | nil => exact absurd rfl hne
  | cons g gs ih =>
    obtain ⟨hg, hgroups⟩ := List.forall_mem_cons.mp hgroups
    rw [List.flatten_cons] at hdigits
    obtain ⟨hfirst, hrest⟩ := List.forall_mem_append.mp hdigits
    have hfirst : Digits radix g := digits_of_forall hg hfirst
    cases gs with
    | nil => simpa using hfirst
    | cons g' gs =>
      have hrest := hfirst.append (ih (List.cons_ne_nil g' gs) hgroups hrest)
      simpa [List.intercalate_cons_cons] using hrest

theorem bareDigits_append : bareDigits (ds ++ es) = bareDigits ds ++ bareDigits es :=
  List.filter_append ds es

theorem bareDigits_intercalate (h : ∀ c ∈ gs.flatten, isDigitOf radix c = true) :
    bareDigits (['_'].intercalate gs) = gs.flatten := by
  have hunderscore : bareDigits ['_'] = [] := rfl
  induction gs with
  | nil => rfl
  | cons g gs ih =>
    rw [List.flatten_cons] at h
    obtain ⟨hfirst, hrest⟩ := List.forall_mem_append.mp h
    cases gs with
    | nil => simpa using bareDigits_eq_self hfirst
    | cons g' gs =>
      rw [List.intercalate_cons_cons, bareDigits_append, bareDigits_append, hunderscore,
        ih hrest, bareDigits_eq_self hfirst, List.append_nil, ← List.flatten_cons]

end Expr

namespace Radix

theorem two_le_base (radix : Radix) : 2 ≤ radix.base := by
  cases radix <;> decide

theorem base_le_sixteen (radix : Radix) : radix.base ≤ 16 := by
  cases radix <;> decide

theorem base_eq_ten {radix : Radix} : radix.base = 10 ↔ radix = .decimal := by
  cases radix <;> decide

end Radix

namespace FormatSettings

open SharedConstants.Expr (Digits Numeral Spells Derives)
open Decimal (toDigits)

variable {s : FormatSettings} {ops : OperatorRegistry} {constant : Option String}

/-- The digits of a number with zeros in front. -/
def paddedDigits (s : FormatSettings) (n : Nat) : List Char :=
  pad s.zeroPad (toDigits s.radix.base n)

theorem isDigitOf_paddedDigits (s : FormatSettings) (n : Nat) :
    ∀ c ∈ s.paddedDigits n, Expr.isDigitOf s.radix.base c = true := by
  have hzero : ∀ radix : Radix, Expr.isDigitOf radix.base '0' = true := by
    intro radix
    cases radix <;> decide
  refine List.forall_mem_append.mpr ⟨fun c hc => ?_, ?_⟩
  · rw [List.eq_of_mem_replicate hc, hzero]
  · exact Expr.isDigitOf_toDigits (Radix.two_le_base _) (Radix.base_le_sixteen _) n

theorem paddedDigits_ne_nil (s : FormatSettings) (n : Nat) : s.paddedDigits n ≠ [] :=
  List.append_ne_nil_of_right_ne_nil _ (Decimal.toDigits_ne_nil _ _)

theorem ofDigits_paddedDigits (s : FormatSettings) (n : Nat) :
    Decimal.ofDigits s.radix.base (s.paddedDigits n) = n := by
  rw [paddedDigits, ofDigits_pad,
    Decimal.ofDigits_toDigits (Radix.two_le_base _) (Radix.base_le_sixteen _)]

section Underscores

variable (hseparator : s.groupSeparator = "_")
include hseparator

theorem groupedDigits_eq (n : Nat) : s.groupedDigits n =
    ['_'].intercalate (groups s.groupWidth (s.paddedDigits n)) := by
  rw [groupedDigits, hseparator]
  rfl

theorem digits_groupedDigits (n : Nat) : Digits s.radix.base (s.groupedDigits n) := by
  have hne := s.paddedDigits_ne_nil n
  rw [groupedDigits_eq hseparator]
  refine Expr.digits_intercalate (groups_ne_nil hne) (ne_nil_of_mem_groups hne) ?_
  rw [flatten_groups]
  exact s.isDigitOf_paddedDigits n

theorem bareDigits_groupedDigits (n : Nat) :
    Expr.bareDigits (s.groupedDigits n) = s.paddedDigits n := by
  have hdigits := s.isDigitOf_paddedDigits n
  rw [← flatten_groups s.groupWidth (s.paddedDigits n)] at hdigits
  rw [groupedDigits_eq hseparator, Expr.bareDigits_intercalate hdigits, flatten_groups]

theorem numberOf_groupedDigits (n : Int) :
    Expr.numberOf (decide (n < 0)) s.radix.base (s.groupedDigits n.natAbs) = n := by
  simp only [Expr.numberOf, bareDigits_groupedDigits hseparator, ofDigits_paddedDigits,
    decide_eq_true_eq]
  split <;> omega

/-- Marked digits are a number of the radix that they are marked with. -/
theorem numeral_groupedDigits (n : Nat) :
    Numeral (s.radix.mark ++ s.groupedDigits n) s.radix.base (s.groupedDigits n) := by
  have hdigits := digits_groupedDigits hseparator n
  cases hradix : s.radix with
  | decimal =>
    rw [hradix] at hdigits
    exact .decimal hdigits
  | binary | octal | hexadecimal =>
    rw [hradix] at hdigits
    exact .marked (by decide) hdigits

theorem spells_spellInteger (hmark : s.omitMark = false) (n : Int) :
    Spells (s.spellInteger n)
      (.number (decide (n < 0)) s.radix.base (s.groupedDigits n.natAbs)) := by
  have hnumeral := numeral_groupedDigits hseparator n.natAbs
  simp only [spellInteger, hmark, Bool.false_eq_true, if_false]
  split
  · next hneg =>
    rw [decide_eq_true hneg]
    exact .minus hnumeral
  · next hpos =>
    rw [decide_eq_false hpos]
    exact .unsigned hnumeral

end Underscores

/-- Only decimal numbers are too long, if zeros in front have made them so. -/
theorem readable_spellInteger (hseparator : s.groupSeparator = "_") {n : Int}
    (hleast : -2 ^ 127 ≤ n) (hmost : n < 2 ^ 127) {negative : Bool} {span : Span} :
    (Expr.Draft.atom (.number negative s.radix.base (s.groupedDigits n.natAbs)) span).Readable ↔
      (s.radix = .decimal → s.zeroPad ≤ 4300) := by
  have hshort := Expr.length_toDigits_of_inRange hleast hmost
  rw [Expr.readable_number, bareDigits_groupedDigits hseparator, Radix.base_eq_ten]
  refine imp_congr_right fun hdecimal => ?_
  rw [paddedDigits, length_pad, hdecimal, Datum.digitLimit]
  simp only [Radix.base]
  omega

/-- An integer of 128 bits that is spelled in any radix, grouped in any way by underscores and
padded, is read back as a literal of that integer. Only decimal numbers can be too long for that:
they are not to be padded to more than 4300 digits. -/
theorem parse_formatInteger (s : FormatSettings) (ops : OperatorRegistry)
    (constant : Option String) (n : Int) (hseparator : s.groupSeparator = "_")
    (hmark : s.omitMark = false) (hleast : -2 ^ 127 ≤ n) (hmost : n < 2 ^ 127) :
    Expr.parse ops (s.formatInteger n) constant =
        .ok (.literal (.integer n) ⟨0, (s.formatInteger n).length⟩) ↔
      (s.radix = .decimal → s.zeroPad ≤ 4300) := by
  have hspells := spells_spellInteger hseparator hmark n
  have hchars : (s.formatInteger n).toList = s.spellInteger n := String.toList_ofList
  have htext := Derives.isValueText (.atom hspells)
  rw [← hchars] at htext
  rw [Expr.parse_eq_ok, ← readable_spellInteger hseparator hleast hmost]
  constructor
  · rintro ⟨d, hd, -, -, -, hreadable⟩
    obtain rfl := hd.unique htext
    exact hreadable
  · intro hreadable
    refine ⟨_, htext, ?_, Nat.zero_le _, .integer _ hleast hmost, hreadable⟩
    rw [Expr.Draft.toExpr, numberOf_groupedDigits hseparator]
    simp [formatInteger]

/-- The least integer in groups of four hexadecimal digits, with zeros in front. -/
theorem parse_formatInteger_least :
    FormatSettings.formatInteger { radix := .hexadecimal, groupWidth := 4, zeroPad := 34 }
        (-2 ^ 127) = "-0x00_8000_0000_0000_0000_0000_0000_0000_0000" ∧
      Expr.parse .builtin "-0x00_8000_0000_0000_0000_0000_0000_0000_0000" none =
        .ok (.literal (.integer (-2 ^ 127)) ⟨0, 45⟩) := by
  have htext : FormatSettings.formatInteger
      { radix := .hexadecimal, groupWidth := 4, zeroPad := 34 } (-2 ^ 127) =
      "-0x00_8000_0000_0000_0000_0000_0000_0000_0000" := by decide +kernel
  have hparse := (parse_formatInteger { radix := .hexadecimal, groupWidth := 4, zeroPad := 34 }
    .builtin none (-2 ^ 127) rfl rfl (by decide) (by decide)).mpr nofun
  rw [htext] at hparse
  exact ⟨htext, hparse⟩

end FormatSettings

end SharedConstants
