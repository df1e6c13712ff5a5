import SharedConstants.Proofs.Constant.Reference
import SharedConstants.Proofs.Profile.Rendering
import SharedConstants.Proofs.Success

/-!
# How an emission ends

An emission looks up the formats of all constants, renders their imports and checks that
constants have types where statements spell them, in this order. Each of these steps may fail for
one reason. Rendering itself does not fail.
-/
namespace SharedConstants

namespace Emission

variable {p : Profile} {coverage comments : Bool} {constants : List ResolvedConstant}

/-- If coverage is required, the profile has a rule for every type that constants declare. -/
def Covered (coverage : Bool) (p : Profile) (constants : List ResolvedConstant) : Prop :=
  coverage = true → ∀ rc ∈ constants, ∀ t, ¬ p.LacksRule rc t

/-- The format of some constant has imports. -/
def NeedsImports (p : Profile) (constants : List ResolvedConstant) : Prop :=
  ∃ rc ∈ constants, (p.formatOf rc.typeName).settings.imports ≠ []

/-- What an emission through a profile fails by. Each reason comes after those before it. -/
inductive FailsBy (coverage : Bool) (p : Profile) (constants : List ResolvedConstant) :
    Diagnostic → Prop
  | uncovered {rc : ResolvedConstant} {t : String} : coverage = true →
    First (fun rc => ∃ t, p.LacksRule rc t) constants rc → p.LacksRule rc t →
    FailsBy coverage p constants
      { fault := .unknownTypeInProfile t, profile := some p.name, constant := some rc.name }
  | importsNotSupported : Covered coverage p constants →
    NeedsImports p constants → p.importLine = none →
    FailsBy coverage p constants { fault := .importsNotSupported, profile := some p.name }
  | typeRequired {rc : ResolvedConstant} : Covered coverage p constants →
    (NeedsImports p constants → p.importLine ≠ none) → p.requiresType = true →
    First (fun rc => rc.typeName = none) constants rc →
    FailsBy coverage p constants
      { fault := .typeRequired, profile := some p.name, constant := some rc.name }

/-- Constants with their formats. -/
def formatted (p : Profile) (constants : List ResolvedConstant) : List Formatted :=
  constants.map fun rc => (rc, p.formatOf rc.typeName)

section Formats

theorem covered_cons {rc : ResolvedConstant} : Covered coverage p (rc :: constants) ↔
    (coverage = true → ∀ t, ¬ p.LacksRule rc t) ∧ Covered coverage p constants := by
  simp only [Covered, List.forall_mem_cons]
  exact ⟨fun h => ⟨fun hc => (h hc).1, fun hc => (h hc).2⟩, fun h hc => ⟨h.1 hc, h.2 hc⟩⟩

theorem formats_eq_ok {fs : List Formatted} : formats coverage p constants = .ok fs ↔
    Covered coverage p constants ∧ formatted p constants = fs := by
  induction constants generalizing fs with
  | nil => simp [formats, Covered, formatted]
  | cons rc rest ih =>
    rw [covered_cons, formats]
    cases hrc : p.effectiveFormat coverage rc.typeName with
    | error d =>
      obtain ⟨hcoverage, t, hlacks, _⟩ := Profile.effectiveFormat_eq_error.mp hrc
      simp only [reduceCtorEq, false_iff]
      exact fun h => h.1.1 hcoverage t hlacks
    | ok f =>
      obtain ⟨hrule, rfl⟩ := Profile.effectiveFormat_eq_ok.mp hrc
      cases hrest : formats coverage p rest with
      | error d =>
        have hnot : ¬ Covered coverage p rest := fun hcovered => by
          cases hrest.symm.trans (ih.mpr ⟨hcovered, rfl⟩)
        simp [hnot]
      | ok fs' =>
        obtain ⟨hcovered, rfl⟩ := ih.mp hrest
        exact ⟨by rintro ⟨⟩; exact ⟨⟨hrule, hcovered⟩, rfl⟩, by rintro ⟨_, rfl⟩; rfl⟩

theorem formats_eq_error {d : Diagnostic} : formats coverage p constants = .error d ↔
    coverage = true ∧ ∃ rc t, First (fun rc => ∃ t, p.LacksRule rc t) constants rc ∧
      p.LacksRule rc t ∧ d =
        { fault := .unknownTypeInProfile t, profile := some p.name, constant := some rc.name } := by
  induction constants with
  | nil => simp [formats, First]
  | cons rc rest ih =>
    rw [formats]
    cases hrc : p.effectiveFormat coverage rc.typeName with
    | error d' =>
      obtain ⟨hcoverage, t, hlacks, rfl⟩ := Profile.effectiveFormat_eq_error.mp hrc
      constructor
      · rintro ⟨⟩
        exact ⟨hcoverage, rc, t, first_cons.mpr (.inl ⟨⟨t, hlacks⟩, rfl⟩), hlacks, rfl⟩
      · rintro ⟨_, rc', t', hfirst, hlacks', rfl⟩
        rcases first_cons.mp hfirst with ⟨_, rfl⟩ | ⟨hnot, _⟩
        · obtain rfl : t = t' := Option.some.inj (hlacks.1.symm.trans hlacks'.1)
          rfl
        · exact absurd ⟨t, hlacks⟩ hnot
    | ok f =>
      obtain ⟨hrule, rfl⟩ := Profile.effectiveFormat_eq_ok.mp hrc
      have hstep : formats coverage p rest = .error d ↔ coverage = true ∧ ∃ rc' t,
          First (fun rc => ∃ t, p.LacksRule rc t) (rc :: rest) rc' ∧ p.LacksRule rc' t ∧ d =
            { fault := .unknownTypeInProfile t, profile := some p.name,
              constant := some rc'.name } := by
        rw [ih]
        refine and_congr_right fun hcoverage =>
          exists₂_congr fun rc' t => and_congr_left fun _ => ?_
        -- the constant in front has a rule, so it is not the first without one
        have hfront : ¬ ∃ t, p.LacksRule rc t := not_exists.mpr (hrule hcoverage)
        rw [first_cons]
        exact ⟨fun h => .inr ⟨hfront, h⟩, fun h => (h.resolve_left fun h => hfront h.1).2⟩
      rw [← hstep]
      cases formats coverage p rest <;> simp

end Formats

section Checks

theorem mem_imports {path : String} : path ∈ imports (formatted p constants) ↔
    ∃ rc ∈ constants, path ∈ (p.formatOf rc.typeName).settings.imports := by
  simp [imports, formatted, List.mem_eraseDups]

theorem imports_ne_nil : imports (formatted p constants) ≠ [] ↔ NeedsImports p constants := by
  constructor
  · intro hne
    obtain ⟨path, hpath⟩ := List.exists_mem_of_ne_nil _ hne
    obtain ⟨rc, hrc, hmem⟩ := mem_imports.mp hpath
    exact ⟨rc, hrc, List.ne_nil_of_mem hmem⟩
  · rintro ⟨rc, hrc, hne⟩
    obtain ⟨path, hpath⟩ := List.exists_mem_of_ne_nil _ hne
    exact List.ne_nil_of_mem (mem_imports.mpr ⟨rc, hrc, hpath⟩)

theorem importLines_eq_ok {paths lines : List String} : importLines p paths = .ok lines ↔
    List.Forall₂ (fun path line => p.renderImport path = .ok line) paths lines := by
  induction paths generalizing lines with
  | nil => simp [importLines, pure, Except.pure, eq_comm]
  | cons path paths ih =>
    rw [importLines, List.mapM_cons, List.forall₂_cons_left_iff]
    simp only [bind_eq_ok, ← importLines.eq_1, ih, pure, Except.pure, Except.ok.injEq]
    exact ⟨fun ⟨line, hline, rest, hrest, heq⟩ => ⟨line, rest, hline, hrest, heq.symm⟩,
      fun ⟨line, rest, hline, hrest, heq⟩ => ⟨line, hline, rest, hrest, heq.symm⟩⟩

/-- Import lines can be written for any paths, unless there are some and the notation has none. -/
theorem importLines_eq_error {paths : List String} {d : Diagnostic} :
    importLines p paths = .error d ↔ paths ≠ [] ∧ p.importLine = none ∧
      d = { fault := .importsNotSupported, profile := some p.name } := by
  cases hline : p.importLine with
  | some t =>
    have hlines : importLines p paths = .ok (paths.map fun path => t.fill fun _ => path) := by
      rw [importLines_eq_ok, List.forall₂_map_right_iff, List.forall₂_same]
      intro path _
      rw [Profile.renderImport, hline]
    simp [hlines]
  | none =>
    cases paths with
    | nil => simp [importLines, pure, Except.pure]
    | cons path paths =>
      have herror : p.renderImport path =
          .error { fault := .importsNotSupported, profile := some p.name } := by
        rw [Profile.renderImport, hline]
      rw [importLines, List.mapM_cons, herror]
      simp [bind, Except.bind, eq_comm]

theorem exists_importLines {paths : List String} : (∃ lines, importLines p paths = .ok lines) ↔
    (paths ≠ [] → p.importLine ≠ none) := by
  cases hlines : importLines p paths with
  | ok lines =>
    refine iff_of_true ⟨lines, rfl⟩ fun hpaths hline => ?_
    cases hlines.symm.trans (importLines_eq_error.mpr ⟨hpaths, hline, rfl⟩)
  | error d =>
    obtain ⟨hpaths, hline, _⟩ := importLines_eq_error.mp hlines
    exact iff_of_false nofun fun h => h hpaths hline

theorem find?_untyped {rc : ResolvedConstant} :
    constants.find? (fun rc => p.requiresType && rc.typeName.isNone) = some rc ↔
      p.requiresType = true ∧ First (fun rc => rc.typeName = none) constants rc := by
  rw [find?_eq_some_iff_first]
  cases p.requiresType <;> simp [First]

theorem checkTypes_eq : checkTypes p (formatted p constants) =
    match constants.find? fun rc => p.requiresType && rc.typeName.isNone with
    | none => .ok ()
    | some rc =>
      .error { fault := .typeRequired, profile := some p.name, constant := some rc.name } := by
  rw [checkTypes, formatted, List.find?_map]
  simp only [Function.comp_def]
  cases constants.find? fun rc => p.requiresType && rc.typeName.isNone <;> rfl

theorem checkTypes_eq_ok : checkTypes p (formatted p constants) = .ok () ↔
    ∀ rc ∈ constants, p.requiresType = true → rc.typeName ≠ none := by
  rw [checkTypes_eq]
  cases hfind : constants.find? fun rc => p.requiresType && rc.typeName.isNone with
  | none => simpa using hfind
  | some rc =>
    obtain ⟨hrequired, hfirst⟩ := find?_untyped.mp hfind
    simp only [reduceCtorEq, false_iff]
    exact fun h => h rc hfirst.mem hrequired hfirst.holds

theorem checkTypes_eq_error {d : Diagnostic} :
    checkTypes p (formatted p constants) = .error d ↔ p.requiresType = true ∧ ∃ rc,
      First (fun rc => rc.typeName = none) constants rc ∧
        d = { fault := .typeRequired, profile := some p.name, constant := some rc.name } := by
  simp only [← exists_and_left, ← and_assoc, ← find?_untyped, checkTypes_eq]
  cases constants.find? fun rc => p.requiresType && rc.typeName.isNone <;> simp [eq_comm]

end Checks

theorem render_eq_error {resolved : Resolved} {d : Diagnostic} :
    render coverage comments p resolved = .error d ↔ FailsBy coverage p resolved.constants d := by
  simp only [render, bind_eq_error, formats_eq_error, formats_eq_ok, importLines_eq_error]
  constructor
  · rintro (⟨hcoverage, rc, t, hfirst, hlacks, rfl⟩ |
      ⟨_, ⟨hcovered, rfl⟩, ⟨himports, hline, rfl⟩ | ⟨lines, hlines, hcheck | ⟨_, _, ⟨⟩⟩⟩⟩)
    · exact .uncovered hcoverage hfirst hlacks
    · exact .importsNotSupported hcovered (imports_ne_nil.mp himports) hline
    · obtain ⟨hrequired, rc, hfirst, rfl⟩ := checkTypes_eq_error.mp hcheck
      refine .typeRequired hcovered (fun hneeds => ?_) hrequired hfirst
      exact exists_importLines.mp ⟨lines, hlines⟩ (imports_ne_nil.mpr hneeds)
  · intro h
    cases h with
    | uncovered hcoverage hfirst hlacks => exact .inl ⟨hcoverage, _, _, hfirst, hlacks, rfl⟩
    | importsNotSupported hcovered hneeds hline =>
      exact .inr ⟨_, ⟨hcovered, rfl⟩, .inl
        ⟨imports_ne_nil.mpr hneeds, hline, rfl⟩⟩
    | typeRequired hcovered himports hrequired hfirst =>
      obtain ⟨lines, hlines⟩ := exists_importLines.mpr fun hpaths =>
        himports (imports_ne_nil.mp hpaths)
      exact .inr ⟨_, ⟨hcovered, rfl⟩, .inr ⟨lines, hlines, .inl
        (checkTypes_eq_error.mpr ⟨hrequired, _, hfirst, rfl⟩)⟩⟩

end Emission

theorem ProfileRegistry.name_of_get {r : ProfileRegistry} {name : String} {p : Profile}
    (h : r.get name = .ok p) : p.name = name := by
  rw [get] at h
  split at h
  · next q hfind =>
    obtain rfl := Except.ok.inj h
    exact eq_of_beq (List.find?_some (p := fun q : Profile => q.name == name) hfind)
  · cases h

theorem ProfileRegistry.emit_eq {r : ProfileRegistry} {name : String} {p : Profile}
    (h : r.get name = .ok p) (comments : Bool) (resolved : Resolved) :
    r.emit comments resolved name =
      (Emission.render r.coverage comments p resolved).map (⟨name, p.fileExt, ·⟩) := by
  simp only [emit, h, bind, Except.bind, name_of_get h]
  cases Emission.render r.coverage comments p resolved <;> rfl

open Emission (FailsBy Covered NeedsImports)

/-- How an emission through a profile of a registry ends. It fails by what `FailsBy` lists and by
nothing else, and reports it with the name of the profile; without any of these reasons there is
an artifact. No text that the profile renders on the way meets a gap. -/
theorem emit_outcome {r : ProfileRegistry} {name : String} {p : Profile}
    (hprofile : r.get name = .ok p) (comments : Bool) (resolved : Resolved) :
    (∀ d, r.emit comments resolved name = .error d ↔ FailsBy r.coverage p resolved.constants d) ∧
    (∀ d, FailsBy r.coverage p resolved.constants d → d.profile = some name) ∧
    (Covered r.coverage p resolved.constants →
      (NeedsImports p resolved.constants → p.importLine ≠ none) →
      (p.requiresType = true → ∀ rc ∈ resolved.constants, rc.typeName ≠ none) →
      ∃ text, r.emit comments resolved name = .ok ⟨name, p.fileExt, text⟩) ∧
    p.Renders := by
  have herror : ∀ d, r.emit comments resolved name = .error d ↔
      FailsBy r.coverage p resolved.constants d := by
    intro d
    rw [← @Emission.render_eq_error p r.coverage comments, r.emit_eq hprofile]
    cases Emission.render r.coverage comments p resolved <;> simp [Except.map]
  refine ⟨herror, fun d hd => ?_, fun hcovered himports htypes => ?_, p.renders⟩
  · rw [← r.name_of_get hprofile]
    cases hd <;> rfl
  · cases hemit : r.emit comments resolved name with
    | ok a =>
      rw [r.emit_eq hprofile] at hemit
      obtain ⟨text, _, rfl⟩ := map_eq_ok.mp hemit
      exact ⟨text, rfl⟩
    | error d =>
      cases (herror d).mp hemit with
      | @uncovered rc t hcoverage hfirst hlacks =>
        exact absurd hlacks (hcovered hcoverage rc hfirst.mem t)
      | importsNotSupported _ hneeds hline => exact absurd hline (himports hneeds)
      | @typeRequired rc _ _ hrequired hfirst =>
        exact absurd hfirst.holds (htypes hrequired rc hfirst.mem)

/-- A notation without import lines that spells types and has a rule with an import. -/
def assembly : Profile where
  name := "nasm"
  fileExt := ".asm"
  statement := ⟨"$name equ $type $value", by cbv⟩
  types := [("Addr", { imports := some ["addr"] })]

/-- Constants of a type with imports, without a type, and of a type without a rule. -/
def unevenlyTyped : Resolved where
  constants :=
    [⟨{ name := "A", typeName := some "Addr", expr := default }, .integer 1, none⟩,
     ⟨{ name := "B", typeName := none, expr := default }, .integer 2, none⟩,
     ⟨{ name := "C", typeName := some "Pages", expr := default }, .integer 3, none⟩]
  order := ["A", "B", "C"]

/-- Of three reasons the one that comes first is reported, although its constant comes last. -/
theorem emit_outcome_unevenlyTyped :
    ProfileRegistry.get ⟨[assembly], true⟩ "nasm" = .ok assembly ∧
    ProfileRegistry.emit ⟨[assembly], true⟩ true unevenlyTyped "nasm" =
      .error { fault := .unknownTypeInProfile "Pages", profile := some "nasm",
               constant := some "C" } := by
  have hprofile : ProfileRegistry.get ⟨[assembly], true⟩ "nasm" = .ok assembly := rfl
  refine ⟨hprofile, ((emit_outcome hprofile true unevenlyTyped).1 _).mpr ?_⟩
  have hlacks : ∀ rc ∈ unevenlyTyped.constants.take 2, ¬ ∃ t, assembly.LacksRule rc t := by
    simp [unevenlyTyped, Profile.LacksRule, ResolvedConstant.typeName, Profile.override?, assembly]
  exact .uncovered rfl ⟨_, [], rfl, ⟨"Pages", rfl, rfl⟩, hlacks⟩ ⟨rfl, rfl⟩

end SharedConstants
