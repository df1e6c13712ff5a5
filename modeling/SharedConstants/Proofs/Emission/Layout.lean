import SharedConstants.Proofs.Emission.Outcome
import SharedConstants.Proofs.FirstOccurrence

/-!
# The layout of an artifact

Without comments an artifact is the intro, the import lines with an empty line behind them, one
statement for each constant in the order of declaration, and the outro, each on its own line. The
imports are those that constants need, each once, in the order of first use.
-/
namespace SharedConstants

namespace Emission

variable {p : Profile} {coverage comments : Bool} {constants : List ResolvedConstant}

/-- The parts of an artifact without comments. -/
def IsLayout (p : Profile) (constants : List ResolvedConstant) (parts : List String) : Prop :=
  ∃ paths lines,
    FirstOccurrences (constants.flatMap fun rc => (p.formatOf rc.typeName).settings.imports) paths ∧
    List.Forall₂ (fun path line => p.renderImport path = .ok line) paths lines ∧
    parts = p.renderIntro.toList ++ (if paths = [] then [] else lines ++ [""]) ++
      constants.map (fun rc => p.statementOf rc.name rc.typeName rc.value) ++ p.renderOutro.toList

theorem imports_formatted : imports (formatted p constants) =
    (constants.flatMap fun rc => (p.formatOf rc.typeName).settings.imports).eraseDups := by
  rw [imports, formatted, List.flatMap_map]

@[simp] theorem title_false (text : String) : title false p text = [] := rfl

@[simp] theorem titled_false (heading : String) (text : Option String) :
    titled false p heading text = text.toList := by
  cases text <;> simp [titled]

@[simp] theorem constantComment_false (rc : ResolvedConstant) :
    constantComment false p rc = [] := by
  rw [constantComment]
  split <;> simp

theorem statement_formatted (rc : ResolvedConstant) :
    statement p (rc, p.formatOf rc.typeName) = p.statementOf rc.name rc.typeName rc.value := rfl

theorem parts_false (lines : List String) : parts false p lines (formatted p constants) =
    p.renderIntro.toList ++ (if lines = [] then [] else lines ++ [""]) ++
      constants.map (fun rc => p.statementOf rc.name rc.typeName rc.value) ++
      p.renderOutro.toList := by
  simp only [parts, titled_false, title_false, constantComment_false, List.nil_append,
    List.append_nil, formatted, List.flatMap_map, statement_formatted, List.isEmpty_iff]
  rw [List.map_eq_flatMap]

theorem render_eq_ok {resolved : Resolved} {text : String} :
    render coverage comments p resolved = .ok text ↔
      Covered coverage p resolved.constants ∧
      (∀ rc ∈ resolved.constants, p.requiresType = true → rc.typeName ≠ none) ∧
      ∃ lines, importLines p (imports (formatted p resolved.constants)) = .ok lines ∧
        text = "\n".intercalate (parts comments p lines (formatted p resolved.constants)) ++
          "\n" := by
  simp only [render, bind_eq_ok, formats_eq_ok]
  constructor
  · rintro ⟨_, ⟨hcovered, rfl⟩, lines, hlines, _, htypes, ⟨⟩⟩
    exact ⟨hcovered, checkTypes_eq_ok.mp htypes, lines, hlines, rfl⟩
  · rintro ⟨hcovered, htypes, lines, hlines, rfl⟩
    exact ⟨_, ⟨hcovered, rfl⟩, lines, hlines, _, checkTypes_eq_ok.mpr htypes, rfl⟩

theorem isLayout_parts {lines : List String}
    (hlines : importLines p (imports (formatted p constants)) = .ok lines) :
    IsLayout p constants (parts false p lines (formatted p constants)) := by
  have hforall := importLines_eq_ok.mp hlines
  have hempty : lines = [] ↔ imports (formatted p constants) = [] := by
    rw [← List.length_eq_zero_iff, ← hforall.length_eq, List.length_eq_zero_iff]
  refine ⟨imports (formatted p constants), lines, ?_, hforall, ?_⟩
  · rw [imports_formatted]
    exact firstOccurrences_eraseDups _
  · simp only [parts_false, hempty]

/-- Formats and statements do not depend on the order in which values were found. -/
theorem render_reordered (resolved : Resolved) (order : List String) :
    render coverage comments p { resolved with order } = render coverage comments p resolved := rfl

end Emission

theorem ProfileRegistry.emit_eq_ok {r : ProfileRegistry} {comments : Bool} {resolved : Resolved}
    {name : String} {a : Artifact} : r.emit comments resolved name = .ok a ↔ ∃ p text,
      r.get name = .ok p ∧ Emission.render r.coverage comments p resolved = .ok text ∧
        a = ⟨name, p.fileExt, text⟩ := by
  cases hget : r.get name with
  | error d => simp [emit, hget, bind, Except.bind]
  | ok p =>
    rw [r.emit_eq hget, map_eq_ok]
    simp [eq_comm]

open Emission (IsLayout)

/-- The text of an artifact without comments is its layout: intro, import lines, one statement for
each constant, outro. In what order the constants were evaluated does not matter. -/
theorem emit_layout {r : ProfileRegistry} {resolved : Resolved} {name : String} {a : Artifact}
    (h : r.emit false resolved name = .ok a) :
    ∃ p parts, r.get name = .ok p ∧ IsLayout p resolved.constants parts ∧
      a = ⟨name, p.fileExt, "\n".intercalate parts ++ "\n"⟩ ∧
      ∀ order, r.emit false { resolved with order } name = .ok a := by
  obtain ⟨p, text, hprofile, hrender, rfl⟩ := r.emit_eq_ok.mp h
  obtain ⟨_, _, lines, hlines, rfl⟩ := Emission.render_eq_ok.mp hrender
  refine ⟨p, _, hprofile, Emission.isLayout_parts hlines, rfl, fun order => ?_⟩
  exact r.emit_eq_ok.mpr ⟨p, _, hprofile, Emission.render_reordered resolved order ▸ hrender, rfl⟩

/-- A notation with an intro, import lines and comments. -/
def rust : Profile where
  name := "rust"
  fileExt := ".rs"
  statement := ⟨"const $name: $type = $value;", by cbv⟩
  importLine := some ⟨"use $import;", by cbv⟩
  comment := some ⟨"// $comment", by cbv⟩
  intro := some ⟨"mod m \x7b", by cbv⟩
  outro := some ⟨"\x7d", by cbv⟩
  types := [("Addr", { imports := some ["Addr", "ops"] }), ("Size", { imports := some ["ops"] })]

/-- A constant with a comment of two lines, and the one that it was evaluated from. -/
def pageSize : Resolved where
  constants :=
    [⟨{ name := "B", typeName := some "Size", expr := default,
        comment := some "end\x0bconst C\r\n" }, .integer 16, none⟩,
     ⟨{ name := "A", typeName := some "Addr", expr := default }, .integer 4, none⟩]
  order := ["A", "B"]

/-- The import of the constant that stands first comes first, although it was evaluated last. -/
theorem emit_pageSize :
    ProfileRegistry.emit ⟨[rust], false⟩ false pageSize "rust" = .ok ⟨"rust", ".rs",
      "mod m \x7b\nuse ops;\nuse Addr;\n\nconst B: Size = 16;\nconst A: Addr = 4;\n\x7d\n"⟩ := by
  exact toOption_eq_some.mp (by decide +kernel)

theorem emit_layout_pageSize :
    ∃ parts, IsLayout rust pageSize.constants parts ∧ "\n".intercalate parts ++ "\n" =
      "mod m \x7b\nuse ops;\nuse Addr;\n\nconst B: Size = 16;\nconst A: Addr = 4;\n\x7d\n" := by
  obtain ⟨p, parts, hprofile, hlayout, htext, _⟩ := emit_layout emit_pageSize
  obtain rfl : rust = p := Except.ok.inj hprofile
  exact ⟨parts, hlayout, (congrArg Artifact.text htext).symm⟩

end SharedConstants
