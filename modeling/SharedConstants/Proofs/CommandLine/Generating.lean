import SharedConstants.CommandLine.Run
import SharedConstants.Proofs.Generation.Formatting
import SharedConstants.Proofs.Generation.Interruption

/-!
# What generating does to files

A run that generates changes no file before it has resolved its constants. After that, formatters
may do to files what they do; apart from them, a file is changed only where the path of an
artifact leads to, and only to the whole text of the artifact. This holds wherever an action on
files fails.
-/
namespace SharedConstants.CommandLine

open Generation (LeadsTo LeavesFiles wholeAt)

variable {s : Surroundings} {fs : FileSystem} {i : Invocation} {flags : FormatterFlags}
  {directory stem : String} {profiles : List String} {o : Options} {resolved : Resolved}

/-- Every file is as it was, or it lies where the path of an outcome's artifact leads to and holds
the whole text of the artifact. -/
def WritesWhole (directory stem : String) (outcomes : List Outcome) (before after : FileSystem) :
    Prop :=
  ∀ l, after.content? l = before.content? l ∨
    ∃ outcome ∈ outcomes, ∃ a, outcome.artifact? = some a ∧ LeadsTo directory stem after l a ∧
      after.content? l = some a.text.toUTF8

theorem WritesWhole.refl (directory stem : String) (outcomes : List Outcome) (fs : FileSystem) :
    WritesWhole directory stem outcomes fs fs := fun _ => .inl rfl

/-- Writing outcomes, up to the first failure if there is one. -/
theorem writesWhole_write (outages : FileSystem.Outages) (directory stem : String)
    (outcomes : List Outcome) (fs : FileSystem) : WritesWhole directory stem outcomes fs
      (Generation.write outages directory stem outcomes fs).files := by
  intro l
  by_cases hl : l ∈ wholeAt directory stem (outcomes.filterMap Outcome.artifact?)
      (Generation.write outages directory stem outcomes fs).files
  · obtain ⟨a, ha, hplace, hcontent⟩ := hl
    obtain ⟨outcome, houtcome, hartifact⟩ := List.mem_filterMap.mp ha
    exact .inr ⟨outcome, houtcome, a, hartifact, hplace, hcontent⟩
  · exact .inl ((Generation.frames_writeAll outages directory stem _ fs).content l hl)

/-- The files after a run are those that its command leaves. -/
theorem files_runInvocation (s : Surroundings) (hload : load s.room fs i.inputs = .ok (o, resolved))
    (command : Command) : (runInvocation s fs { i with command }).files =
      (perform s fs i.format o resolved command).files := by
  simp only [runInvocation, hload]
  cases (perform s fs i.format o resolved command).ending with
  | ok e => rfl
  | error stop => cases stop <;> rfl

/-- What follows rendering goes on from the files that it leaves, unless work was given up. -/
theorem files_withOutcomes (count : Nat) (next : FileSystem → List Outcome → Performance)
    (rendered : List Outcome × FileSystem) : (withOutcomes count next rendered).files =
      if rendered.1.any Outcome.isGivenUp then rendered.2
      else (next rendered.2 rendered.1).files := by
  obtain ⟨outcomes, left⟩ := rendered
  simp only [withOutcomes]
  split <;> rfl

theorem files_generate (s : Surroundings) (hload : load s.room fs i.inputs = .ok (o, resolved)) :
    let rendered := (Generation.render o (flags.policy s) resolved profiles).run fs
    (runInvocation s fs { i with command := .generate flags directory stem profiles }).files =
      if rendered.1.any Outcome.isGivenUp then rendered.2
      else (Generation.write s.outages directory stem rendered.1 rendered.2).files := by
  intro rendered
  rw [files_runInvocation s hload]
  exact files_withOutcomes _ _ rendered

/-- A run that generates changes no file if it does not come to resolved constants. Otherwise it
starts from the files that rendering leaves, which are those before the run if no formatter is run
or none of them touches files. Whatever actions on files fail, each file then stays as it is or
holds the whole text of an artifact whose path leads to it. -/
theorem generate_files (s : Surroundings) (fs : FileSystem) (i : Invocation)
    (flags : FormatterFlags) (directory stem : String) (profiles : List String) :
    let after :=
      (runInvocation s fs { i with command := .generate flags directory stem profiles }).files
    (∀ stop, load s.room fs i.inputs = .error stop → after = fs) ∧
    ∀ o resolved, load s.room fs i.inputs = .ok (o, resolved) →
      let rendered := (Generation.render o (flags.policy s) resolved profiles).run fs
      WritesWhole directory stem rendered.1 rendered.2 after ∧
      ((flags.isDisabled = true ∨
          ∀ command text, LeavesFiles (s.formatters flags.timeout command text)) →
        rendered.2 = fs) := by
  intro after
  refine ⟨fun stop hstop => ?_, fun o resolved hload => ⟨?_, fun hformatters => ?_⟩⟩
  · have hstopped : after = (stopped i.format "" fs stop).files := by
      simp only [after, runInvocation, hstop]
    rw [hstopped]
    cases stop <;> rfl
  · simp only [after, files_generate s hload]
    split
    · exact .refl _ _ _ _
    · exact writesWhole_write _ _ _ _ _
  · obtain hdisabled | hleaves := hformatters
    · have hpolicy : (flags.policy s).isEnabled = false := by
        simp [FormatterFlags.policy, hdisabled]
      rw [Generation.render_of_disabled hpolicy]
      rfl
    · exact Generation.leavesFiles_render hleaves profiles fs

/-- An options file, a file with one constant, and the output of an earlier run. -/
def project (options : String) : FileSystem where
  nodes := [(["o.toml"], .file options.toUTF8),
    (["c.toml"], .file "[[constant]]\nname = \"A\"\nvalue = 4\n".toUTF8),
    (["out"], .directory), (["out", "constants.hpp"], .file "// none\n".toUTF8)]

/-- Reads the files of a project. -/
def projectInputs : Inputs where
  options := some "o.toml"
  constants := ["c.toml"]

/-- Generates into the directory of the earlier run. -/
def generating (isDisabled : Bool) : Invocation where
  inputs := projectInputs
  command := .generate { isDisabled } "out" "constants" []

/-- Headers in two notations. -/
def twoHeaders : FileSystem := project
  ("[lang.c]\nfile_ext = \".h\"\ntemplate = \"#define $name $value\"\n" ++
    "[lang.cpp]\nfile_ext = \".hpp\"\ntemplate = \"constexpr auto $name = $value;\"\n")

/-- The disk is full when nine bytes of a text of twenty-two are written. -/
def nearlyFull : Surroundings where
  outages _ action :=
    match action with
    | .write _ content =>
      if content.size = 22 then some { error := .noSpace, written := 9 } else none
    | _ => none

theorem exists_load {room : Nat} {fs : FileSystem} {inputs : Inputs}
    (h : (load room fs inputs).isOk = true) :
    ∃ o resolved, load room fs inputs = .ok (o, resolved) := by
  cases hload : load room fs inputs with
  | ok loaded => exact ⟨loaded.1, loaded.2, rfl⟩
  | error stop => simp [hload, Except.isOk, Except.toBool] at h

/-- The first header is written whole, and the second keeps what it held. -/
theorem generate_files_nearlyFull :
    ∃ o resolved, load nearlyFull.room twoHeaders projectInputs = .ok (o, resolved) ∧
      let after := (runInvocation nearlyFull twoHeaders (generating true)).files
      let rendered := (Generation.render o (FormatterFlags.policy nearlyFull { isDisabled := true })
        resolved []).run twoHeaders
      WritesWhole "out" "constants" rendered.1 twoHeaders after ∧
      after.content? ["out", "constants.h"] = some "#define A 4\n".toUTF8 ∧
      after.content? ["out", "constants.hpp"] = some "// none\n".toUTF8 := by
  obtain ⟨hloads, hheaders⟩ : (load nearlyFull.room twoHeaders projectInputs).isOk = true ∧
      let after := (runInvocation nearlyFull twoHeaders (generating true)).files
      after.content? ["out", "constants.h"] = some "#define A 4\n".toUTF8 ∧
      after.content? ["out", "constants.hpp"] = some "// none\n".toUTF8 := by
    decide +kernel
  obtain ⟨o, resolved, hload⟩ := exists_load hloads
  obtain ⟨-, hfiles⟩ := generate_files nearlyFull twoHeaders (generating true)
    { isDisabled := true } "out" "constants" []
  obtain ⟨hwhole, hleft⟩ := hfiles o resolved hload
  rw [hleft (.inl rfl)] at hwhole
  exact ⟨o, resolved, hload, hwhole, hheaders⟩

/-- A notation whose formatter writes to a file of its own. -/
def sortedHeader : FileSystem := project
  ("[lang.c]\nfile_ext = \".h\"\ntemplate = \"#define $name $value\"\n" ++
    "formatter = [\"sort\", \"-o\", \"sorted.txt\"]\n")

/-- A formatter that puts the text that it is given into a file, and prints nothing. -/
def filing : Surroundings where
  formatters _ command text fs :=
    match command with
    | [_, "-o", name] => (.formatted "", fs.put [name] (.file text.toUTF8))
    | _ => (.failed .notFound, fs)

/-- What a formatter does to files stays, although no artifact lies there. -/
theorem generate_sortedHeader :
    ∃ o resolved, load filing.room sortedHeader projectInputs = .ok (o, resolved) ∧
      ¬ WritesWhole "out" "constants"
        ((Generation.render o (FormatterFlags.policy filing {}) resolved []).run sortedHeader).1
        sortedHeader (runInvocation filing sortedHeader (generating false)).files := by
  obtain ⟨hloads, hexts, hchanged, helsewhere⟩ :
      (load filing.room sortedHeader projectInputs).isOk = true ∧
      (match load filing.room sortedHeader projectInputs with
        | .ok (o, resolved) =>
          (((Generation.render o (FormatterFlags.policy filing {}) resolved []).run
            sortedHeader).1.filterMap Outcome.artifact?).map Artifact.fileExt
        | .error _ => []) = [".h"] ∧
      let after := (runInvocation filing sortedHeader (generating false)).files
      after.content? ["sorted.txt"] ≠ sortedHeader.content? ["sorted.txt"] ∧
      after.locate (Generation.artifactPath "out" "constants" ⟨"c", ".h", ""⟩) ≠
        .ok ["sorted.txt"] := by
    decide +kernel
  obtain ⟨o, resolved, hload⟩ := exists_load hloads
  rw [hload] at hexts
  refine ⟨o, resolved, hload, fun hwhole => ?_⟩
  obtain hsame | ⟨outcome, houtcome, a, ha, hplace, -⟩ := hwhole ["sorted.txt"]
  · exact hchanged hsame
  · have hext : a.fileExt = ".h" := by
      rw [← List.mem_singleton, ← hexts]
      exact List.mem_map_of_mem (List.mem_filterMap.mpr ⟨outcome, houtcome, ha⟩)
    rw [LeadsTo, Generation.artifactPath_congr (b := ⟨"c", ".h", ""⟩) hext] at hplace
    exact helsewhere hplace

end SharedConstants.CommandLine
