import SharedConstants.Generation
import SharedConstants.Proofs.Emission.Outcome

/-!
# What becomes of profiles

Profiles are rendered one after another and each has an outcome of its own. Formatters are taken
as functions from a command and a text to a new text or a fault: then no rendering is given up,
and the outcome of a profile is the one that it has when nothing else is rendered.
-/
namespace SharedConstants

/-- Formatters that always reply: with a new text, or with a fault. -/
abbrev Formatting := List String → String → Except FormatterFault String

/-- What comes of running a formatter that replies. -/
def FormatterReply.ofReply : Except FormatterFault String → FormatterReply
  | .ok text => .formatted text
  | .error fault => .failed fault

/-- How a run treats formatters that always reply. -/
def FormatterPolicy.replying (format : Formatting) (isEnabled isRequired : Bool) :
    FormatterPolicy Id :=
  { formatters := fun command text => .ofReply (format command text), isEnabled, isRequired }

theorem ProfileRegistry.profile_of_emit_eq_error {r : ProfileRegistry} {comments : Bool}
    {resolved : Resolved} {name : String} {d : Diagnostic}
    (h : r.emit comments resolved name = .error d) : d.profile = some name := by
  cases hprofile : r.get name with
  | error d' =>
    obtain rfl : d' = d := by simpa [emit, hprofile, bind, Except.bind] using h
    rw [get] at hprofile
    split at hprofile
    · cases hprofile
    · exact Except.error.inj hprofile ▸ rfl
  | ok p =>
    have hrender : Emission.render r.coverage comments p resolved = .error d := by
      rw [r.emit_eq hprofile] at h
      revert h
      cases Emission.render r.coverage comments p resolved <;> simp [Except.map]
    rw [← r.name_of_get hprofile]
    cases Emission.render_eq_error.mp hrender <;> rfl

/-- What is known of its place stays with a diagnostic of a profile. -/
theorem Diagnostic.attachProfile_eq {d : Diagnostic} {name : String}
    (h : d.profile = some name) : d.attachProfile name = d := by
  obtain ⟨fault, code, constant, profile, source, span, path, hint, notes⟩ := d
  obtain rfl : profile = some name := h
  simp [attachProfile, attach]

namespace Generation

/-- What an artifact of a profile becomes at the profile's formatter. -/
inductive FormattedAs (format : Formatting) (isEnabled isRequired : Bool) (p : Profile)
    (a : Artifact) : Rendering → Prop
  /-- Formatters are switched off, or the profile names none. -/
  | unformatted : (isEnabled = true → p.formatter.getD [] = []) →
    FormattedAs format isEnabled isRequired p a (.rendered a false none)
  | formatted {command : List String} {text : String} : isEnabled = true →
    p.formatter = some command → command ≠ [] → format command a.text = .ok text →
    FormattedAs format isEnabled isRequired p a (.rendered { a with text } true none)
  | required {command : List String} {fault : FormatterFault} : isEnabled = true →
    p.formatter = some command → command ≠ [] → format command a.text = .error fault →
    isRequired = true → FormattedAs format isEnabled isRequired p a
      (.failed { fault := .formatter command fault, profile := some p.name })
  /-- The emitted text is kept, with a warning. -/
  | dispensable {command : List String} {fault : FormatterFault} : isEnabled = true →
    p.formatter = some command → command ≠ [] → format command a.text = .error fault →
    isRequired = false → FormattedAs format isEnabled isRequired p a
      (.rendered a false (some (fault.message command)))

/-- What a profile is rendered as, by what its emission and its formatter make of it. -/
inductive RenderedAs (o : Options) (resolved : Resolved) (format : Formatting)
    (isEnabled isRequired : Bool) (name : String) : Rendering → Prop
  | unemitted {d : Diagnostic} : o.profiles.emit o.comments resolved name = .error d →
    RenderedAs o resolved format isEnabled isRequired name (.failed d)
  | emitted {p : Profile} {a : Artifact} {result : Rendering} : o.profiles.get name = .ok p →
    o.profiles.emit o.comments resolved name = .ok a →
    FormattedAs format isEnabled isRequired p a result →
    RenderedAs o resolved format isEnabled isRequired name result

variable {o : Options} {resolved : Resolved} {format : Formatting} {isEnabled isRequired : Bool}
  {p : Profile} {a : Artifact} {name : String}

theorem formattedAs_withReply {command : List String} (hcommand : p.formatter = some command)
    (hne : command ≠ []) : FormattedAs format true isRequired p a
      (withReply isRequired p command a (.ofReply (format command a.text))) := by
  cases hreply : format command a.text with
  | ok text => exact .formatted rfl hcommand hne hreply
  | error fault =>
    cases isRequired with
    | true => exact .required rfl hcommand hne hreply rfl
    | false => exact .dispensable rfl hcommand hne hreply rfl

theorem formattedAs_applyFormatter (format : Formatting) (isEnabled isRequired : Bool)
    (p : Profile) (a : Artifact) : FormattedAs format isEnabled isRequired p a
      (Id.run (applyFormatter (.replying format isEnabled isRequired) p a)) := by
  rw [applyFormatter]
  cases isEnabled with
  | false => exact .unformatted nofun
  | true =>
    cases hformatter : p.formatter with
    | none => exact .unformatted fun _ => by rw [hformatter]; rfl
    | some command =>
      cases command with
      | nil => exact .unformatted fun _ => by rw [hformatter]; rfl
      | cons program arguments => exact formattedAs_withReply hformatter (List.cons_ne_nil _ _)

/-- A profile is rendered in one way. -/
theorem renderedAs_renderProfile (o : Options) (resolved : Resolved) (format : Formatting)
    (isEnabled isRequired : Bool) (name : String) :
    ∃ result, Id.run (renderProfile o (.replying format isEnabled isRequired) resolved name) =
      ⟨name, result⟩ ∧ RenderedAs o resolved format isEnabled isRequired name result := by
  rw [renderProfile]
  cases hprofile : o.profiles.get name with
  | error d =>
    have hemit : o.profiles.emit o.comments resolved name = .error d := by
      simp [ProfileRegistry.emit, hprofile, bind, Except.bind]
    refine ⟨_, rfl, ?_⟩
    rw [Diagnostic.attachProfile_eq (o.profiles.profile_of_emit_eq_error hemit)]
    exact .unemitted hemit
  | ok p =>
    cases hemit : o.profiles.emit o.comments resolved name with
    | error d =>
      refine ⟨_, rfl, ?_⟩
      rw [Diagnostic.attachProfile_eq (o.profiles.profile_of_emit_eq_error hemit)]
      exact .unemitted hemit
    | ok a =>
      exact ⟨_, rfl, .emitted hprofile hemit (formattedAs_applyFormatter _ _ _ p a)⟩

theorem RenderedAs.ne_givenUp {result : Rendering}
    (h : RenderedAs o resolved format isEnabled isRequired name result) : result ≠ .givenUp := by
  rintro rfl
  cases h with
  | emitted _ _ hresult => cases hresult

/-- A failure names its profile. -/
theorem RenderedAs.profile {d : Diagnostic}
    (h : RenderedAs o resolved format isEnabled isRequired name (.failed d)) :
    d.profile = some name := by
  cases h with
  | unemitted hemit => exact o.profiles.profile_of_emit_eq_error hemit
  | emitted hprofile _ hresult =>
    cases hresult with
    | required => exact congrArg some (o.profiles.name_of_get hprofile)

theorem RenderedAs.isGivenUp {result : Rendering}
    (h : RenderedAs o resolved format isEnabled isRequired name result) :
    (Outcome.mk name result).isGivenUp = false := by
  have hne := h.ne_givenUp
  cases result with
  | rendered => rfl
  | failed => rfl
  | givenUp => exact absurd rfl hne

/-- As nothing is given up, every profile is rendered, each as if it were the only one. -/
theorem renderAll_eq_map (o : Options) (resolved : Resolved) (format : Formatting)
    (isEnabled isRequired : Bool) (names : List String) :
    Id.run (renderAll o (.replying format isEnabled isRequired) resolved names) =
      names.map fun name =>
        Id.run (renderProfile o (.replying format isEnabled isRequired) resolved name) := by
  induction names with
  | nil => rfl
  | cons name names ih =>
    obtain ⟨result, heq, hresult⟩ :=
      renderedAs_renderProfile o resolved format isEnabled isRequired name
    simp only [renderAll, Id.run_bind, heq, hresult.isGivenUp, Bool.false_eq_true, if_false,
      Id.run_pure, ih, List.map_cons]

/-- The outcome of a profile that is not passed through a formatter. -/
def plainOutcome (o : Options) (resolved : Resolved) (name : String) : Outcome where
  profile := name
  result :=
    match o.profiles.emit o.comments resolved name with
    | .ok a => .rendered a false none
    | .error d => .failed d

theorem RenderedAs.eq_plainOutcome {result : Rendering}
    (h : RenderedAs o resolved format isEnabled isRequired name result)
    (hplain : isEnabled = true → ∀ p ∈ o.profiles.profiles, p.formatter.getD [] = []) :
    ⟨name, result⟩ = plainOutcome o resolved name := by
  rw [plainOutcome]
  cases h with
  | unemitted hemit => rw [hemit]
  | @emitted p a _ hprofile hemit hresult =>
    have hmem : p ∈ o.profiles.profiles := by
      rw [ProfileRegistry.get, ProfileRegistry.find?] at hprofile
      split at hprofile
      · next hfind => exact Except.ok.inj hprofile ▸ List.mem_of_find?_eq_some hfind
      · cases hprofile
    have hnone : ∀ command, isEnabled = true → p.formatter = some command → command = [] := by
      intro command henabled hcommand
      simpa [hcommand] using hplain henabled p hmem
    rw [hemit]
    cases hresult with
    | unformatted => rfl
    | formatted henabled hcommand hne => exact absurd (hnone _ henabled hcommand) hne
    | required henabled hcommand hne => exact absurd (hnone _ henabled hcommand) hne
    | dispensable henabled hcommand hne => exact absurd (hnone _ henabled hcommand) hne

theorem emitAll_cons (r : ProfileRegistry) (comments : Bool) (resolved : Resolved)
    (name : String) (names : List String) : r.emitAll comments resolved (name :: names) = do
      let a ← r.emit comments resolved name
      let others ← r.emitAll comments resolved names
      return a :: others := by
  rw [ProfileRegistry.emitAll, List.mapM_cons]
  rfl

theorem emitAll_eq_ok {names : List String} {artifacts : List Artifact} :
    o.profiles.emitAll o.comments resolved names = .ok artifacts ↔
      (∀ outcome ∈ names.map (plainOutcome o resolved), outcome.diagnostic? = none) ∧
      (names.map (plainOutcome o resolved)).filterMap Outcome.artifact? = artifacts := by
  induction names generalizing artifacts with
  | nil => simp [ProfileRegistry.emitAll, pure, Except.pure]
  | cons name names ih =>
    rw [emitAll_cons, List.map_cons, List.forall_mem_cons, List.filterMap_cons]
    cases hemit : o.profiles.emit o.comments resolved name with
    | error d => simp [plainOutcome, hemit, Outcome.diagnostic?, bind, Except.bind]
    | ok a =>
      simp only [plainOutcome, hemit, Outcome.diagnostic?, Outcome.artifact?, true_and]
      constructor
      · intro h
        obtain ⟨_, ⟨⟩, others, hothers, ⟨⟩⟩ := by simpa only [bind_eq_ok] using h
        obtain ⟨hnone, rfl⟩ := ih.mp hothers
        exact ⟨hnone, rfl⟩
      · rintro ⟨hnone, rfl⟩
        rw [ih.mpr ⟨hnone, rfl⟩]
        rfl

theorem emitAll_eq_error {names : List String} {d : Diagnostic} :
    o.profiles.emitAll o.comments resolved names = .error d ↔
      ∃ outcome, First (·.diagnostic? ≠ none) (names.map (plainOutcome o resolved)) outcome ∧
        outcome.diagnostic? = some d := by
  induction names with
  | nil => simp [ProfileRegistry.emitAll, pure, Except.pure, First]
  | cons name names ih =>
    simp only [emitAll_cons, List.map_cons, first_cons]
    cases hemit : o.profiles.emit o.comments resolved name with
    | error d' =>
      have hdiagnostic : (plainOutcome o resolved name).diagnostic? = some d' := by
        simp [plainOutcome, hemit, Outcome.diagnostic?]
      constructor
      · rintro ⟨⟩
        exact ⟨_, .inl ⟨by simp [hdiagnostic], rfl⟩, hdiagnostic⟩
      · rintro ⟨_, ⟨_, rfl⟩ | ⟨hnone, _⟩, hd⟩
        · obtain rfl := Option.some.inj (hdiagnostic.symm.trans hd)
          rfl
        · exact absurd (by simp [hdiagnostic]) hnone
    | ok a =>
      have hdiagnostic : (plainOutcome o resolved name).diagnostic? = none := by
        simp [plainOutcome, hemit, Outcome.diagnostic?]
      simp only [hdiagnostic, ne_eq, not_true_eq_false, false_and, false_or, not_false_eq_true,
        true_and]
      rw [← ih]
      cases o.profiles.emitAll o.comments resolved names <;>
        simp [bind, Except.bind, pure, Except.pure]

end Generation

open Generation (RenderedAs render)

/-- Every profile that is asked for has one outcome, in order: the one that it has when nothing
else is rendered. An outcome has an artifact or a failure that names the profile. If nothing is
passed through a formatter, emitting the same profiles gives the artifacts of the outcomes if none
is a failure, and fails by the first failure otherwise. -/
theorem render_outcomes (o : Options) (resolved : Resolved) (format : Formatting)
    (isEnabled isRequired : Bool) {names : List String} (h : names ≠ []) :
    ∃ outcomes, Id.run (render o (.replying format isEnabled isRequired) resolved names) =
        outcomes ∧
      List.Forall₂ (fun name outcome => outcome.profile = name ∧
        Id.run (render o (.replying format isEnabled isRequired) resolved [name]) = [outcome] ∧
        RenderedAs o resolved format isEnabled isRequired name outcome.result) names outcomes ∧
      (∀ outcome ∈ outcomes,
        (∃ a, outcome.artifact? = some a ∧ outcome.diagnostic? = none) ∨
        ∃ d, outcome.artifact? = none ∧ outcome.diagnostic? = some d ∧
          d.profile = some outcome.profile) ∧
      ((isEnabled = true → ∀ p ∈ o.profiles.profiles, p.formatter.getD [] = []) →
        (∀ artifacts, o.profiles.emitAll o.comments resolved names = .ok artifacts ↔
          (∀ outcome ∈ outcomes, outcome.diagnostic? = none) ∧
          outcomes.filterMap Outcome.artifact? = artifacts) ∧
        ∀ d, o.profiles.emitAll o.comments resolved names = .error d ↔
          ∃ outcome, First (·.diagnostic? ≠ none) outcomes outcome ∧
            outcome.diagnostic? = some d) := by
  have hrender : ∀ names : List String, names ≠ [] →
      Id.run (render o (.replying format isEnabled isRequired) resolved names) =
        names.map fun name => Id.run
          (Generation.renderProfile o (.replying format isEnabled isRequired) resolved name) := by
    intro names hne
    rw [render, if_neg (by simpa using hne), Generation.renderAll_eq_map]
  refine ⟨_, rfl, ?_, ?_, fun hplain => ?_⟩
  · rw [hrender names h, List.forall₂_map_right_iff, List.forall₂_same]
    intro name _
    obtain ⟨result, heq, hresult⟩ :=
      Generation.renderedAs_renderProfile o resolved format isEnabled isRequired name
    rw [hrender [name] (List.cons_ne_nil _ _), List.map_singleton, heq]
    exact ⟨rfl, rfl, hresult⟩
  · rw [hrender names h, List.forall_mem_map]
    intro name _
    obtain ⟨result, heq, hresult⟩ :=
      Generation.renderedAs_renderProfile o resolved format isEnabled isRequired name
    rw [heq]
    cases result with
    | rendered a => exact .inl ⟨a, rfl, rfl⟩
    | failed d => exact .inr ⟨d, rfl, rfl, hresult.profile⟩
    | givenUp => exact absurd rfl hresult.ne_givenUp
  · have houtcomes : Id.run (render o (.replying format isEnabled isRequired) resolved names) =
        names.map (Generation.plainOutcome o resolved) := by
      rw [hrender names h]
      refine List.map_congr_left fun name _ => ?_
      obtain ⟨result, heq, hresult⟩ :=
        Generation.renderedAs_renderProfile o resolved format isEnabled isRequired name
      rw [heq, hresult.eq_plainOutcome hplain]
    rw [houtcomes]
    exact ⟨fun _ => Generation.emitAll_eq_ok, fun _ => Generation.emitAll_eq_error⟩

/-- One notation, with a formatter. -/
def indented : Options where
  profiles := ⟨[{ name := "c", fileExt := ".h", statement := ⟨"#define $name ($value)", by cbv⟩,
                  formatter := some ["indent"] }], false⟩

/-- A single constant. -/
def bufferSize : Resolved where
  constants := [⟨{ name := "A", typeName := none, expr := default }, .integer 4, none⟩]
  order := ["A"]

/-- A formatter that is missing. -/
def missing : Formatting := fun _ _ => .error .notFound

theorem emit_bufferSize : indented.profiles.emit indented.comments bufferSize "c" =
    .ok ⟨"c", ".h", "#define A (4)\n"⟩ := by
  exact toOption_eq_some.mp (by decide +kernel)

theorem get_indented : indented.profiles.get "d" = .error (.unknownProfile "d" ["c"]) := rfl

/-- Between two renderings that keep their text without the missing formatter, a name without a
profile fails. -/
theorem render_outcomes_missingFormatter :
    ["c", "d", "c"] ≠ [] ∧ ∃ kept failed warning d,
      Id.run (render indented (.replying missing true false) bufferSize ["c", "d", "c"]) =
        [kept, failed, kept] ∧
      kept.result = .rendered ⟨"c", ".h", "#define A (4)\n"⟩ false (some warning) ∧
      failed.result = .failed d ∧ d.profile = some "d" := by
  have hne : ["c", "d", "c"] ≠ [] := List.cons_ne_nil _ _
  obtain ⟨outcomes, hrender, heach, _⟩ :=
    render_outcomes indented bufferSize missing true false hne
  obtain ⟨kept, others, ⟨_, hkept, hresult⟩, hothers, rfl⟩ := List.forall₂_cons_left_iff.mp heach
  obtain ⟨failed, more, ⟨_, _, hfailed⟩, hmore, rfl⟩ := List.forall₂_cons_left_iff.mp hothers
  obtain ⟨again, rest, ⟨_, hagain, _⟩, hrest, rfl⟩ := List.forall₂_cons_left_iff.mp hmore
  obtain rfl := List.forall₂_nil_left_iff.mp hrest
  obtain rfl : kept = again := List.head_eq_of_cons_eq (hkept.symm.trans hagain)
  obtain ⟨warning, hwarning⟩ : ∃ warning,
      kept.result = .rendered ⟨"c", ".h", "#define A (4)\n"⟩ false (some warning) := by
    generalize kept.result = result at hresult
    cases hresult with
    | unemitted hemit => cases emit_bufferSize.symm.trans hemit
    | emitted hprofile hemit hformatted =>
      obtain rfl := Except.ok.inj (emit_bufferSize.symm.trans hemit)
      obtain rfl := Except.ok.inj hprofile
      cases hformatted with
      | unformatted hnone => cases hnone rfl
      | formatted _ _ _ hreply => cases hreply
      | required _ _ _ _ hrequired => cases hrequired
      | dispensable => exact ⟨_, rfl⟩
  obtain ⟨d, hd⟩ : ∃ d, failed.result = .failed d := by
    generalize failed.result = result at hfailed
    cases hfailed with
    | unemitted => exact ⟨_, rfl⟩
    | emitted hprofile => cases get_indented.symm.trans hprofile
  exact ⟨hne, kept, failed, warning, d, hrender, hwarning, hd, (hd ▸ hfailed).profile⟩

end SharedConstants
