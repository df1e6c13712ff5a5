import Mathlib.Data.List.Basic
import SharedConstants.Proofs.Document.Entry
import SharedConstants.Proofs.Template.Grammar
import SharedConstants.Proofs.Text.Keyword

/-!
# The schema of options documents

The schema tells which keys each table of an options document may have, and what stands under
them. It mentions neither the order of reading nor the faults of what does not follow it.
-/
namespace SharedConstants.Datum

def IsSwitch (d : Datum) : Prop := ∃ b, d = .boolean b

def IsTexts (d : Datum) : Prop := ∃ texts : List String, d = .array (texts.map .text)

/-- An integer from a least one on. -/
def IsAtLeast (least : Int) (d : Datum) : Prop := ∃ n, d = .integer n ∧ least ≤ n

/-- A text that spells one of some keywords. -/
def IsKeyword (names : List String) (d : Datum) : Prop :=
  ∃ t, d = .text t ∧ ∃ name ∈ names, Text.Spells name t

/-- A template of a slot. -/
def IsTemplate (slot : Slot) (d : Datum) : Prop :=
  ∃ t, d = .text t ∧ Template.Wellformed slot.parameters t.toList

/-- The texts of both booleans: in an array, or in a table with a key for each. -/
inductive IsBooleanTexts : Datum → Prop
  | array (t f : String) : IsBooleanTexts (.array [.text t, .text f])
  | table {t f : String} {entries : List (String × Datum)} :
    entries.Perm [("true", .text t), ("false", .text f)] → IsBooleanTexts (.table entries)

/-- The switches of a run. -/
structure IsSwitches (entries : List (String × Datum)) : Prop where
  enabled : Optional "enabled" IsTexts entries
  commentSections : Optional "comment_sections" IsSwitch entries
  strictTypes : Optional "strict_types" IsSwitch entries
  strictFormats : Optional "strict_formats" IsSwitch entries

/-- A type has at most 128 bits, unless it is declared as boolean. -/
def IsBounded (entries : List (String × Datum)) : Prop :=
  Required "kind" (IsKeyword ["boolean", "bool"]) entries ∨
    Optional "bits" (fun d => ∃ n, d = .integer n ∧ n ≤ 128) entries

/-- The declaration of a type. -/
structure IsDeclaration (entries : List (String × Datum)) : Prop where
  kind : Optional "kind" (IsKeyword ["integer", "int", "boolean", "bool"]) entries
  bits : Optional "bits" (IsAtLeast 1) entries
  signed : Optional "signed" IsSwitch entries
  bounded : IsBounded entries

/-- How integers are spelled. -/
structure IsIntegerFormat (entries : List (String × Datum)) : Prop where
  radix : Optional "radix" (IsKeyword
    ["bin", "binary", "oct", "octal", "dec", "decimal", "hex", "hexadecimal"]) entries
  groupWidth : Optional "underscores" (IsAtLeast 0) entries
  groupSeparator : Optional "separator" IsText entries
  zeroPad : Optional "zero_pad" (IsAtLeast 0) entries
  omitMark : Optional "omit_prefix" IsSwitch entries

/-- How values are spelled. -/
structure IsFormat (entries : List (String × Datum)) : Prop where
  boolean : Optional "boolean" IsBooleanTexts entries
  integer : Optional "integer" (IsTable
    (some ["radix", "underscores", "separator", "zero_pad", "omit_prefix"]) IsIntegerFormat) entries

/-- The rule of a profile for a type. -/
structure IsRule (entries : List (String × Datum)) : Prop where
  format : Optional "format" (IsTable (some ["boolean", "integer"]) IsFormat) entries
  typeName : Optional "name" IsText entries
  leading : Optional "value_prefix" IsText entries
  trailing : Optional "value_suffix" IsText entries
  imports : Optional "import" IsTexts entries

/-- A table whose entries are all tables of one form, with the same known keys. -/
def IsTables (known : List String) (form : List (String × Datum) → Prop) (d : Datum) : Prop :=
  IsTable none (fun entries => ∀ e ∈ entries, IsTable (some known) form e.2) d

/-- A profile. -/
structure IsProfile (entries : List (String × Datum)) : Prop where
  types : Optional "type"
    (IsTables ["name", "value_prefix", "value_suffix", "format", "import"] IsRule) entries
  formatter : Optional "formatter" (fun d => d.IsTexts ∧ d ≠ .array []) entries
  fileExt : Required "file_ext" IsText entries
  statement : Required "template" (IsTemplate .statement) entries
  importLine : Optional "import" (IsTemplate .importLine) entries
  comment : Optional "comment" (IsTemplate .comment) entries
  intro : Optional "intro" (IsTemplate .intro) entries
  outro : Optional "outro" (IsTemplate .outro) entries
  defaults : Optional "format" (IsTable (some ["boolean", "integer"]) IsFormat) entries

/-- The tables of an options document. -/
structure IsConfiguration (entries : List (String × Datum)) : Prop where
  switches : Optional "codegen" (IsTable
    (some ["enabled", "comment_sections", "strict_types", "strict_formats"]) IsSwitches) entries
  types : Optional "types" (IsTables ["kind", "bits", "signed"] IsDeclaration) entries
  profiles : Optional "lang" (IsTables
    ["file_ext", "template", "import", "comment", "intro", "outro", "formatter", "format", "type"]
    IsProfile) entries

/-- An options document. -/
def IsOptions (document : Datum) : Prop :=
  IsTable (some ["codegen", "types", "lang"]) IsConfiguration document

theorem switch?_eq_some {d : Datum} {b : Bool} : d.switch? = some b ↔ d = .boolean b := by
  cases d <;> simp [switch?]

theorem atLeast?_eq_some {d : Datum} {least n : Int} :
    d.atLeast? least = some n ↔ d = .integer n ∧ least ≤ n := by
  cases d with
  | integer m =>
    simp only [atLeast?, Option.ite_none_right_eq_some, Option.some.injEq, integer.injEq]
    constructor
    · rintro ⟨hle, rfl⟩
      exact ⟨rfl, hle⟩
    · rintro ⟨rfl, hle⟩
      exact ⟨hle, rfl⟩
  | _ => simp [atLeast?]

theorem textsOf?_eq_some {items : List Datum} {texts : List String} :
    Section.textsOf? items = some texts ↔ items = texts.map .text := by
  induction items generalizing texts with
  | nil => cases texts <;> simp [Section.textsOf?]
  | cons d items ih =>
    cases d with
    | text t =>
      cases texts with
      | nil => simp [Section.textsOf?]
      | cons t' texts => simp [Section.textsOf?, ← ih, and_left_comm]
    | _ => cases texts <;> simp [Section.textsOf?]

theorem texts?_eq_some {d : Datum} {texts : List String} :
    d.texts? = some texts ↔ d = .array (texts.map .text) := by
  cases d with
  | array items => simp [texts?, textsOf?_eq_some]
  | _ => simp [texts?]

theorem perm_pair {α : Type} {a b : α} {as : List α} :
    as.Perm [a, b] ↔ as = [a, b] ∨ as = [b, a] := by
  constructor
  · intro h
    obtain ⟨x, y, rfl⟩ := List.length_eq_two.mp h.length_eq
    have hx : x = a ∨ x = b := by simpa using h.subset List.mem_cons_self
    rcases hx with rfl | rfl
    · obtain rfl : y = b := by simpa using h
      exact .inl rfl
    · obtain rfl : y = a := by simpa using h.trans (List.Perm.swap _ _ [])
      exact .inr rfl
  · rintro (rfl | rfl)
    · exact .refl _
    · exact .swap ..

theorem isSome_booleanTexts? {d : Datum} :
    (Options.booleanTexts? d).isSome ↔ d.IsBooleanTexts := by
  constructor
  · intro h
    unfold Options.booleanTexts? at h
    split at h
    · exact .array _ _
    · exact .table (.refl _)
    · exact .table (.swap ..)
    · cases h
  · rintro (_ | hperm)
    · rfl
    · obtain rfl | rfl := perm_pair.mp hperm <;> rfl

end SharedConstants.Datum
