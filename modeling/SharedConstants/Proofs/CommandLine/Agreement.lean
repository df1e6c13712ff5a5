import SharedConstants.Proofs.CommandLine.Generating

/-!
# Agreement of commands

Checking, generating and rendering load the same documents and render the same profiles. Without
formatters they end with the same status, and what is printed of a profile is what is written of
it.
-/
namespace SharedConstants

namespace Generation

variable {o : Options} {resolved : Resolved} {name : String}

theorem artifact?_plainOutcome {a : Artifact} : (plainOutcome o resolved name).artifact? = some a ↔
    o.profiles.emit o.comments resolved name = .ok a := by
  rw [plainOutcome, Outcome.artifact?]
  cases o.profiles.emit o.comments resolved name <;> simp

theorem diagnostic?_plainOutcome : (plainOutcome o resolved name).diagnostic? = none ↔
    ∃ a, o.profiles.emit o.comments resolved name = .ok a := by
  rw [plainOutcome, Outcome.diagnostic?]
  cases o.profiles.emit o.comments resolved name <;> simp

end Generation

namespace CommandLine

open Generation (plainOutcome)

variable {s : Surroundings} {fs : FileSystem} {i : Invocation} {flags : FormatterFlags}
  {directory stem : String} {profiles : List String} {o : Options} {resolved : Resolved}
  {outcomes : List Outcome} {format : ReportFormat} {command : Command}

/-- The status of a command that has outcomes: one if any of them is a failure. -/
def statusOf (outcomes : List Outcome) : Nat :=
  if (outcomes.filterMap Outcome.diagnostic?).isEmpty then 0 else 1

theorem statusOf_eq_zero :
    statusOf outcomes = 0 ↔ ∀ outcome ∈ outcomes, outcome.diagnostic? = none := by
  simp [statusOf]

section Endings

variable {count : Nat} {e : Ending} {next : FileSystem → List Outcome → Performance}

theorem ending_checkOutcomes (format : ReportFormat) (count : Nat) (fs : FileSystem)
    (outcomes : List Outcome) :
    ∃ e, (checkOutcomes format count fs outcomes).ending = .ok e ∧
      e.status = statusOf outcomes := by
  refine ⟨_, rfl, ?_⟩
  rw [reportFailures, statusOf]
  cases outcomes.filterMap Outcome.diagnostic? <;> rfl

theorem ending_printOutcomes (format : ReportFormat) (fs : FileSystem) (outcomes : List Outcome) :
    ∃ e, (printOutcomes format fs outcomes).ending = .ok e ∧ e.status = statusOf outcomes ∧
      (statusOf outcomes = 0 →
        e.output = String.join ((outcomes.filterMap Outcome.artifact?).map Artifact.text)) := by
  refine ⟨_, rfl, ?_⟩
  rw [reportFailures, statusOf]
  cases outcomes.filterMap Outcome.diagnostic? with
  | nil => exact ⟨rfl, fun _ => rfl⟩
  | cons d ds => exact ⟨rfl, nofun⟩

theorem ending_writeOutcomes {outages : FileSystem.Outages} (format : ReportFormat)
    (h : (Generation.write outages directory stem outcomes fs).failure = none) :
    ∃ e, (writeOutcomes outages format directory stem fs outcomes).ending = .ok e ∧
      e.status = statusOf outcomes := by
  simp only [writeOutcomes, h]
  refine ⟨_, rfl, ?_⟩
  dsimp only
  rw [reportFailures, statusOf]
  cases outcomes.filterMap Outcome.diagnostic? <;> rfl

/-- A command that comes to its end decides the status and the output of the run. -/
theorem runInvocation_of_ending (hload : load s.room fs i.inputs = .ok (o, resolved))
    (h : (perform s fs i.format o resolved command).ending = .ok e) :
    (runInvocation s fs { i with command }).status = e.status ∧
      (runInvocation s fs { i with command }).output = e.output := by
  simp only [runInvocation, hload, h, and_self]

theorem ending_withOutcomes (h : ∀ outcome ∈ outcomes, outcome.isGivenUp = false) :
    (withOutcomes count next (outcomes, fs)).ending = (next fs outcomes).ending := by
  have hnone : outcomes.any Outcome.isGivenUp = false := by simpa using h
  simp [withOutcomes, hnone]

end Endings

section Unformatted

/-- What comes of the profiles that a run renders when no formatter is run. -/
def plainOutcomes (o : Options) (resolved : Resolved) (profiles : List String) : List Outcome :=
  (o.selected profiles).map (plainOutcome o resolved)

theorem statusOf_plainOutcomes : statusOf (plainOutcomes o resolved profiles) = 0 ↔
    ∀ name ∈ o.selected profiles, ∃ a, o.profiles.emit o.comments resolved name = .ok a := by
  simp only [statusOf_eq_zero, plainOutcomes, List.forall_mem_map,
    Generation.diagnostic?_plainOutcome]

theorem isGivenUp_plainOutcomes (o : Options) (resolved : Resolved) (profiles : List String) :
    ∀ outcome ∈ plainOutcomes o resolved profiles, outcome.isGivenUp = false :=
  List.forall_mem_map.mpr fun name _ => Generation.isGivenUp_plainOutcome o resolved name

theorem render_of_isDisabled (s : Surroundings) (fs : FileSystem) (h : flags.isDisabled = true) :
    (Generation.render o (flags.policy s) resolved profiles).run fs =
      (plainOutcomes o resolved profiles, fs) := by
  have hpolicy : (flags.policy s).isEnabled = false := by simp [FormatterFlags.policy, h]
  rw [Generation.render_of_disabled hpolicy]
  rfl

variable (s) (hload : load s.room fs i.inputs = .ok (o, resolved))
include hload

theorem status_check : (runInvocation s fs { i with command := .check profiles }).status =
    statusOf (plainOutcomes o resolved profiles) := by
  obtain ⟨e, hending, hstatus⟩ := ending_checkOutcomes i.format resolved.constants.length fs
    (plainOutcomes o resolved profiles)
  rw [← hstatus]
  refine (runInvocation_of_ending hload ?_).1
  rw [perform, Generation.render_of_disabled rfl]
  exact (ending_withOutcomes (isGivenUp_plainOutcomes _ _ _)).trans hending

theorem status_generate (hdisabled : flags.isDisabled = true)
    (hwritten : (Generation.write s.outages directory stem (plainOutcomes o resolved profiles)
      fs).failure = none) :
    (runInvocation s fs { i with command := .generate flags directory stem profiles }).status =
      statusOf (plainOutcomes o resolved profiles) := by
  obtain ⟨e, hending, hstatus⟩ := ending_writeOutcomes i.format hwritten
  rw [← hstatus]
  refine (runInvocation_of_ending hload ?_).1
  rw [perform, render_of_isDisabled s fs hdisabled]
  exact (ending_withOutcomes (isGivenUp_plainOutcomes _ _ _)).trans hending

/-- Rendering a profile succeeds if its emission does, and prints the artifact. -/
theorem status_render (hdisabled : flags.isDisabled = true) (name : String) :
    ((runInvocation s fs { i with command := .render flags name }).status = 0 ↔
      ∃ a, o.profiles.emit o.comments resolved name = .ok a) ∧
    ∀ a, o.profiles.emit o.comments resolved name = .ok a →
      (runInvocation s fs { i with command := .render flags name }).output = a.text := by
  obtain ⟨e, hending, hstatus, houtput⟩ := ending_printOutcomes i.format fs
    (plainOutcomes o resolved [name])
  have hrun : (perform s fs i.format o resolved (.render flags name)).ending = .ok e := by
    rw [perform, render_of_isDisabled s fs hdisabled]
    exact (ending_withOutcomes (isGivenUp_plainOutcomes _ _ _)).trans hending
  obtain ⟨hrunStatus, hrunOutput⟩ := runInvocation_of_ending hload hrun
  have hsingle : statusOf (plainOutcomes o resolved [name]) = 0 ↔
      ∃ a, o.profiles.emit o.comments resolved name = .ok a := by
    rw [statusOf_plainOutcomes]
    exact List.forall_mem_singleton
  rw [hrunStatus, hrunOutput, hstatus]
  refine ⟨hsingle, fun a ha => ?_⟩
  rw [houtput (hsingle.mpr ⟨a, ha⟩)]
  simp [plainOutcomes, Options.selected, Generation.artifact?_plainOutcome.mpr ha]

end Unformatted

/-- Without formatters, checking and generating end with the same status unless a file cannot be
written. It is zero if the constants are resolved and all profiles that are asked for can be
emitted. Each of these profiles has an outcome in generating, which is handed on to be written.
Rendering the profile alone succeeds if this is an artifact, and prints its text. -/
theorem commands_agree (s : Surroundings) (fs : FileSystem) (i : Invocation)
    {flags flags' : FormatterFlags} (hflags : flags.isDisabled = true)
    (hflags' : flags'.isDisabled = true) (directory stem : String) (profiles : List String) :
    let run (command : Command) := runInvocation s fs { i with command }
    let generated := run (.generate flags directory stem profiles)
    let checked := run (.check profiles)
    (checked.status = 0 ↔ ∃ o resolved, load s.room fs i.inputs = .ok (o, resolved) ∧
      ∀ name ∈ o.selected profiles, ∃ a, o.profiles.emit o.comments resolved name = .ok a) ∧
    (∀ stop, load s.room fs i.inputs = .error stop → generated.status = checked.status ∧
      ∀ name, (run (.render flags' name)).status = checked.status) ∧
    ∀ o resolved, load s.room fs i.inputs = .ok (o, resolved) →
      ∃ outcomes, (Generation.render o (flags.policy s) resolved profiles).run fs = (outcomes, fs) ∧
        outcomes.map Outcome.profile = o.selected profiles ∧
        let written := Generation.write s.outages directory stem outcomes fs
        generated.files = written.files ∧
        (written.failure = none → generated.status = checked.status) ∧
        ∀ outcome ∈ outcomes,
          ((run (.render flags' outcome.profile)).status = 0 ↔
            ∃ a, outcome.artifact? = some a) ∧
          ∀ a, outcome.artifact? = some a →
            (run (.render flags' outcome.profile)).output = a.text := by
  intro run generated checked
  -- a run that does not load ends before its command matters
  have hstopped : ∀ stop, load s.room fs i.inputs = .error stop → ∀ command,
      (run command).status = (stopped i.format "" fs stop).status := by
    intro stop hstop command
    simp only [run, runInvocation, hstop]
  refine ⟨?_, fun stop hstop => ?_, fun o resolved hload => ?_⟩
  · cases hload : load s.room fs i.inputs with
    | error stop =>
      have hstatus : checked.status ≠ 0 := by
        rw [hstopped stop hload]
        cases stop <;> exact Nat.succ_ne_zero _
      simpa using hstatus
    | ok loaded =>
      obtain ⟨o, resolved⟩ := loaded
      have hchecked : checked.status = statusOf (plainOutcomes o resolved profiles) :=
        status_check s hload
      rw [hchecked, statusOf_plainOutcomes]
      constructor
      · exact fun hall => ⟨o, resolved, rfl, hall⟩
      · rintro ⟨_, _, ⟨⟩, hall⟩
        exact hall
  · have hstatus := hstopped stop hstop
    exact ⟨(hstatus _).trans (hstatus _).symm, fun name => (hstatus _).trans (hstatus _).symm⟩
  · refine ⟨_, render_of_isDisabled s fs hflags, ?_, ?_, fun hwritten => ?_, ?_⟩
    · exact (List.map_map ..).trans (List.map_id _)
    · have hnone : (plainOutcomes o resolved profiles).any Outcome.isGivenUp = false := by
        simpa using isGivenUp_plainOutcomes o resolved profiles
      have hfiles : generated.files = _ := files_generate s hload
      simpa only [render_of_isDisabled s fs hflags, hnone, Bool.false_eq_true, if_false]
        using hfiles
    · exact (status_generate s hload hflags hwritten).trans (status_check s hload).symm
    · refine List.forall_mem_map.mpr fun name _ => ?_
      simp only [Generation.artifact?_plainOutcome]
      exact status_render s hload hflags' name

/-- Two notations, of which one asks for the types of constants. -/
def typedAndUntyped : FileSystem := project
  ("[lang.c]\nfile_ext = \".h\"\ntemplate = \"#define $name $value\"\n" ++
    "[lang.rust]\nfile_ext = \".rs\"\ntemplate = \"const $name: $type = $value;\"\n")

/-- A constant without a type fails one of two notations. -/
theorem commands_agree_typedAndUntyped :
    let run (command : Command) := runInvocation {} typedAndUntyped { generating true with command }
    let generated := run (.generate { isDisabled := true } "out" "constants" [])
    let checked := run (.check [])
    checked.status ≠ 0 ∧ generated.status = checked.status ∧
      generated.files.content? ["out", "constants.h"] = some "#define A 4\n".toUTF8 ∧
      (run (.render { isDisabled := true } "c")).status = 0 ∧
      (run (.render { isDisabled := true } "c")).output = "#define A 4\n" ∧
      (run (.render { isDisabled := true } "rust")).status ≠ 0 := by
  intro run generated checked
  obtain ⟨hloads, hcomputed, hheader⟩ : (load 985 typedAndUntyped projectInputs).isOk = true ∧
      (match load 985 typedAndUntyped projectInputs with
        | .ok (o, resolved) =>
          let outcomes := ((Generation.render o (FormatterFlags.policy {} { isDisabled := true })
            resolved []).run typedAndUntyped).1
          some (outcomes.map fun outcome =>
              (outcome.profile, outcome.artifact?.map Artifact.text),
            (Generation.write FileSystem.Outages.none "out" "constants" outcomes
              typedAndUntyped).failure,
            (o.profiles.emit o.comments resolved "rust").isOk)
        | .error _ => none) =
          some ([("c", some "#define A 4\n"), ("rust", none)], none, false) ∧
      generated.files.content? ["out", "constants.h"] = some "#define A 4\n".toUTF8 := by
    decide +kernel
  obtain ⟨o, resolved, hload⟩ := exists_load hloads
  have hdisabled : ({ isDisabled := true } : FormatterFlags).isDisabled = true := rfl
  obtain ⟨hchecked, -, hagree⟩ := commands_agree {} typedAndUntyped (generating true)
    hdisabled hdisabled "out" "constants" []
  obtain ⟨outcomes, hrendered, hprofiles, -, hstatus, hrender⟩ := hagree o resolved hload
  simp only [hload, hrendered, Option.some.injEq, Prod.mk.injEq] at hcomputed
  obtain ⟨houtcomes, hwritten, hfails⟩ := hcomputed
  obtain ⟨c, tail, rfl, hc, htail⟩ := List.map_eq_cons_iff.mp houtcomes
  obtain ⟨rust, _, rfl, hrust, -⟩ := List.map_eq_cons_iff.mp htail
  obtain ⟨hcName, hcText⟩ := Prod.mk.inj hc
  obtain ⟨hrustName, hrustText⟩ := Prod.mk.inj hrust
  obtain ⟨a, ha, hatext⟩ := Option.map_eq_some_iff.mp hcText
  have hcRendered := hrender c List.mem_cons_self
  have hrustRendered := hrender rust (List.mem_cons_of_mem _ List.mem_cons_self)
  rw [hcName] at hcRendered
  rw [hrustName] at hrustRendered
  refine ⟨fun hzero => ?_, hstatus hwritten, hheader, hcRendered.1.mpr ⟨a, ha⟩,
    (hcRendered.2 a ha).trans hatext, fun hzero => ?_⟩
  · obtain ⟨_, _, hloaded, hall⟩ := hchecked.mp hzero
    cases hload.symm.trans hloaded
    have hselected : "rust" ∈ o.selected [] := by simp [← hprofiles, hrustName]
    obtain ⟨_, hemitted⟩ := hall "rust" hselected
    simp [hemitted, Except.isOk, Except.toBool] at hfails
  · obtain ⟨_, hartifact⟩ := hrustRendered.1.mp hzero
    simp [hartifact] at hrustText

end CommandLine

end SharedConstants
