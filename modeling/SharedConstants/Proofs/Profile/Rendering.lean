import Mathlib.Data.List.Forall2
import SharedConstants.Emission
import SharedConstants.Proofs.Template.Filling

/-!
# What profiles render

A profile has a format for every type, unless coverage is required and it has no rule for the
type. What it renders are templates filled with values for all their parameters, so rendering
meets no gap.
-/
namespace SharedConstants

/-- Values for parameters, by their names. -/
def Template.given (values : List (String × String)) (name : String) : Option String :=
  values.lookup name

namespace Profile

/-- The format of a type in a profile, or of values without a type. A type that the profile has
no rule for is spelled by the defaults. -/
def formatOf (p : Profile) (typeName : Option String) : EffectiveFormat :=
  p.settled typeName ((typeName.bind p.override?).getD {})

/-- A constant declares a type that a profile has no rule for. -/
def LacksRule (p : Profile) (rc : ResolvedConstant) (typeName : String) : Prop :=
  rc.typeName = some typeName ∧ p.override? typeName = none

/-- The statement of a constant by its name, its type and its value. -/
def statementOf (p : Profile) (name : String) (typeName : Option String) (v : Value) : String :=
  p.renderStatement name (p.formatOf typeName).typeToken
    ((p.formatOf typeName).settings.formatLiteral v)

/-- The lines that the comment of a text has; an empty text has one. -/
def commentLines (text : String) : List String :=
  if Text.lines text = [] then [""] else Text.lines text

variable {p : Profile} {coverage : Bool} {rc : ResolvedConstant}

theorem effectiveFormat_ok_iff {typeName : Option String} {f : EffectiveFormat} :
    p.effectiveFormat coverage typeName = .ok f ↔
      (coverage = true → ∀ t, typeName = some t → p.override? t ≠ none) ∧
        p.formatOf typeName = f := by
  simp only [effectiveFormat, formatOf]
  cases typeName with
  | none => simp
  | some t => cases hrule : p.override? t <;> cases coverage <;> simp [hrule]

theorem effectiveFormat_error_iff {typeName : Option String} {d : Diagnostic} :
    p.effectiveFormat coverage typeName = .error d ↔ coverage = true ∧
      ∃ t, typeName = some t ∧ p.override? t = none ∧
        d = { fault := .unknownTypeInProfile t, profile := some p.name } := by
  simp only [effectiveFormat]
  cases typeName with
  | none => simp
  | some t => cases hrule : p.override? t <;> cases coverage <;> simp [hrule, eq_comm]

theorem effectiveFormat_eq_ok {f : EffectiveFormat} :
    p.effectiveFormat coverage rc.typeName = .ok f ↔
      (coverage = true → ∀ t, ¬ p.LacksRule rc t) ∧ p.formatOf rc.typeName = f := by
  simp only [LacksRule, effectiveFormat_ok_iff, not_and, ne_eq]

theorem effectiveFormat_eq_error {d : Diagnostic} :
    p.effectiveFormat coverage rc.typeName = .error d ↔ coverage = true ∧
      ∃ t, p.LacksRule rc t ∧ d = { fault := .unknownTypeInProfile t, profile := some p.name } := by
  simp only [LacksRule, effectiveFormat_error_iff, and_assoc]

/-- What a profile renders are its templates, filled with values for all their parameters. -/
structure Renders (p : Profile) : Prop where
  statement : ∀ name type value, Template.fillText? p.statement.text
    (Template.given [("name", name), ("type", type), ("value", value)]) =
      .ok (p.renderStatement name type value)
  importLine : ∀ t, p.importLine = some t → ∀ path, ∃ line, p.renderImport path = .ok line ∧
    Template.fillText? t.text (Template.given [("import", path)]) = .ok line
  comment : ∀ t, p.comment = some t → ∀ text, List.Forall₂ (fun line part =>
    Template.fillText? t.text (Template.given [("comment", line)]) = .ok part)
      (commentLines text) (p.renderComment text)
  intro : ∀ t, p.intro = some t → ∃ text, p.renderIntro = some text ∧
    Template.fillText? t.text (Template.given []) = .ok text
  outro : ∀ t, p.outro = some t → ∃ text, p.renderOutro = some text ∧
    Template.fillText? t.text (Template.given []) = .ok text

theorem renderComment_eq {t : Template .comment} (h : p.comment = some t) (text : String) :
    p.renderComment text = (commentLines text).map fun line => t.fill fun _ => line := by
  simp only [renderComment, h, commentLines]
  cases Text.lines text <;> simp

/-- No text that a profile renders meets a stray dollar sign or a parameter without a value. -/
theorem renders (p : Profile) : p.Renders where
  statement name type value := by
    refine p.statement.fillText?_eq_fill ?_
    simp [Slot.parameters, Template.given, statementValues, List.lookup_cons]
  importLine t ht path := by
    refine ⟨_, by rw [renderImport, ht], t.fillText?_eq_fill ?_⟩
    simp [Slot.parameters, Template.given]
  comment t ht text := by
    rw [renderComment_eq ht, List.forall₂_map_right_iff, List.forall₂_same]
    intro line _
    refine t.fillText?_eq_fill ?_
    simp [Slot.parameters, Template.given]
  intro t ht := ⟨_, by rw [renderIntro, ht, Option.map_some],
    t.fillText?_eq_fill (List.forall_mem_nil _)⟩
  outro t ht := ⟨_, by rw [renderOutro, ht, Option.map_some],
    t.fillText?_eq_fill (List.forall_mem_nil _)⟩

end Profile

end SharedConstants
