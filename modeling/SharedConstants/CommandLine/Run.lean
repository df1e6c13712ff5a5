import SharedConstants.CommandLine.Invocation
import SharedConstants.Document.Constants
import SharedConstants.Formatter.Process
import SharedConstants.Generation
import SharedConstants.Toml

/-!
# Runs

A run reads its documents, resolves the constants and does what its command asks for. It ends
with a status: zero for success, one if faults were reported, two if files could not be read
or written or if work was given up.
-/
namespace SharedConstants.CommandLine

/-- What a run did: its status, what it printed, and the files afterwards. -/
structure RunResult where
  status : Nat
  output : String := ""
  errors : String := ""
  files : FileSystem

inductive Stop
  | reported (d : Diagnostic)
  | files (message : String)
  | givenUp

def Stop.ofFailure : Failure → Stop
  | .reported d => .reported d
  | .oversized | .tooDeep => .givenUp

def Stop.ofFileFailure : FileFailure → Stop
  | .failed e path target => .files (e.report path target)
  | .nullInPath => .givenUp

structure LogLine where
  /-- Ordinary progress, which only runs that are asked to be verbose tell of. -/
  isProgress : Bool
  level : String
  source : String
  message : String

def LogLine.text (l : LogLine) : String :=
  s!"[{l.level}] constgen{l.source}: {l.message}\n"

def info (source message : String) : LogLine := ⟨true, "INFO ", source, message⟩

def warning (source message : String) : LogLine := ⟨false, "WARNI", source, message⟩

def failure (source message : String) : LogLine := ⟨false, "ERROR", source, message⟩

/-- What the log of a run shows. -/
def shownLog (verbosity : Nat) (lines : List LogLine) : String :=
  String.join ((lines.filter fun l => !l.isProgress || 0 < verbosity).map LogLine.text)

def readDocument (room : Nat) (fs : FileSystem) (name : String) : Except Stop Datum :=
  if FilePath.hasNull name then .error .givenUp
  else
    let path := FilePath.ofText name
    match fs.read path with
    | .error e => .error (.files (e.report (some path.toText) none))
    | .ok content =>
      match String.fromUTF8? content with
      | none => .error .givenUp
      | some text =>
        match Toml.ofChars room text.toList with
        | .ok d => .ok d
        | .error .oversized | .error .tooDeep => .error .givenUp
        | .error .malformed =>
          .error (.reported { fault := .config .malformed, path := some path.toText })

/-- Reads the options of a run. -/
def readOptionsDocument (room : Nat) (fs : FileSystem) : Option String → Except Stop Options
  | none | some "" => .ok {}
  | some name => do
    let d ← readDocument room fs name
    (Options.ofDocument room (some name) d).mapError Stop.ofFailure

/-- Reads constants documents one after another, behind constants that are already read. -/
def readConstants (room : Nat) (fs : FileSystem) (read : List Constant) :
    List String → Except Stop (List Constant)
  | [] => .ok read
  | name :: names => do
    let d ← readDocument room fs name
    let more ←
      (Constant.ofDocument .builtin room (some name) read.length d).mapError Stop.ofFailure
    readConstants room fs (read ++ more) names

/-- Reads the documents of a run and resolves the constants. -/
def load (room : Nat) (fs : FileSystem) (inputs : Inputs) :
    Except Stop (Options × Resolved) := do
  let options ← readOptionsDocument room fs inputs.options
  let constants ← readConstants room fs [] inputs.constants
  let resolved ← (resolve options.types .builtin constants).mapError Stop.reported
  return (options, resolved)

/-- What the log tells of an outcome. -/
def outcomeLog (count : Nat) (o : Outcome) : List LogLine :=
  let emitted := info ".emitter" s!"rendered profile {o.profile} ({count} constant(s))"
  match o.result with
  | .rendered _ _ none => [emitted]
  | .rendered _ _ (some message) =>
    [emitted,
      warning ".driver" s!"profile {o.profile}: {message}; writing unformatted output"]
  | .failed d =>
    let failed := failure ".driver" s!"profile {o.profile} failed: {d.message}"
    match d.fault with
    | .formatter .. => [emitted, failed]
    | _ => [failed]
  | .givenUp => [emitted]

/-- The line that a written artifact is announced with. -/
def announcement (directory stem : String) (o : Outcome) : Option String :=
  o.artifact?.map fun a =>
    let path := (Generation.artifactPath directory stem a).toText
    let note := if o.isFormatted then "" else " (unformatted)"
    s!"{o.profile}: {path}{note}\n"

/-- A text with spaces behind it. -/
def padded (width : Nat) (text : String) : String :=
  text ++ String.ofList (List.replicate (width - text.length) ' ')

def widest (texts : List String) : Nat := texts.foldl (fun n t => max n t.length) 0

def table (resolved : Resolved) : String :=
  let typeOf (rc : ResolvedConstant) : String := match rc.typeName with
    | none | some "" => "-"
    | some t => t
  let names := widest resolved.names
  let types := widest (resolved.constants.map typeOf)
  String.join (resolved.constants.map fun rc =>
    s!"{padded names rc.name}  {padded types (typeOf rc)}  {rc.value.toText}\n")

def valueJson : Value → JsonValue
  | .integer n => .integer n
  | .boolean b => .boolean b

/-- The resolved constants as a table for programs. -/
def tableJson (resolved : Resolved) : JsonValue :=
  .array (resolved.constants.map fun rc => .object
    [("name", .text rc.name), ("type", .ofText? rc.typeName), ("value", valueJson rc.value)])

/-- What a command prints at its end, and its status. -/
structure Ending where
  status : Nat := 0
  output : String := ""
  errors : String := ""

/-- What a command did after loading: its log, the files afterwards, and its ending or why it
stopped. -/
structure Performance where
  log : List LogLine := []
  files : FileSystem
  ending : Except Stop Ending

/-- The report of the failed outcomes, if there are any. -/
def reportFailures (format : ReportFormat) (outcomes : List Outcome) : Option String :=
  match outcomes.filterMap Outcome.diagnostic? with
  | [] => none
  | ds => some (Diagnostic.reportAll format ds)

/-- What surrounds a run: which actions on files fail from outside, the formatters, which have a
time limit in seconds and may change files, and how many more calls may nest once a run works on a
value of a document. The stack holds a thousand calls, of which some are under way by then. -/
structure Surroundings where
  outages : FileSystem.Outages := .none
  formatters : Float → Formatters (StateM FileSystem) := Formatter.run
  room : Nat := 985

/-- How a command treats formatters. -/
def FormatterFlags.policy (s : Surroundings) (flags : FormatterFlags) :
    FormatterPolicy (StateM FileSystem) where
  formatters := s.formatters flags.timeout
  isEnabled := !flags.isDisabled
  isRequired := flags.isRequired

def noFormatters : FormatterPolicy Id :=
  { formatters := fun _ _ => .givenUp, isEnabled := false }

/-- Goes on with outcomes and the files that they left, unless work was given up. -/
def withOutcomes (count : Nat) (next : FileSystem → List Outcome → Performance)
    (rendered : List Outcome × FileSystem) : Performance :=
  let (outcomes, fs) := rendered
  let log := outcomes.flatMap (outcomeLog count)
  if outcomes.any Outcome.isGivenUp then { log, files := fs, ending := .error .givenUp }
  else
    let p := next fs outcomes
    { p with log := log ++ p.log }

def writeOutcomes (outages : FileSystem.Outages) (format : ReportFormat)
    (directory stem : String) (fs : FileSystem) (outcomes : List Outcome) : Performance :=
  let written := Generation.write outages directory stem outcomes fs
  let ending : Except Stop Ending :=
    match written.failure with
    | some failure => .error (Stop.ofFileFailure failure)
    | none =>
      let report := reportFailures format outcomes
      .ok
        { status := if report.isSome then 1 else 0
          output := String.join (outcomes.filterMap (announcement directory stem))
          errors := report.getD "" }
  { log := written.paths.map fun p => info ".driver" s!"wrote {p.toText}"
    files := written.files
    ending }

/-- Tells how many constants and profiles there are, unless a profile failed. -/
def checkOutcomes (format : ReportFormat) (count : Nat) (fs : FileSystem)
    (outcomes : List Outcome) : Performance :=
  let ending : Ending :=
    match reportFailures format outcomes with
    | some errors => { status := 1, errors }
    | none => { output := s!"ok: {count} constant(s), {outcomes.length} profile(s)\n" }
  { files := fs, ending := .ok ending }

/-- Prints the artifacts of outcomes, unless a profile failed. -/
def printOutcomes (format : ReportFormat) (fs : FileSystem) (outcomes : List Outcome) :
    Performance :=
  let ending : Ending :=
    match reportFailures format outcomes with
    | some errors => { status := 1, errors }
    | none => { output := String.join ((outcomes.filterMap Outcome.artifact?).map Artifact.text) }
  { files := fs, ending := .ok ending }

def perform (s : Surroundings) (fs : FileSystem) (format : ReportFormat)
    (o : Options) (resolved : Resolved) (command : Command) : Performance :=
  let count := resolved.constants.length
  match command with
  | .generate flags directory stem profiles =>
    withOutcomes count (writeOutcomes s.outages format directory stem)
      ((Generation.render o (flags.policy s) resolved profiles).run fs)
  | .check profiles =>
    withOutcomes count (checkOutcomes format count)
      (Id.run (Generation.render o noFormatters resolved profiles), fs)
  | .render flags profile =>
    withOutcomes count (printOutcomes format)
      ((Generation.render o (flags.policy s) resolved [profile]).run fs)
  | .list asJson =>
    let output := if asJson then (tableJson resolved).write 0 ++ "\n" else table resolved
    { files := fs, ending := .ok { output } }

/-- The result of a run that stopped. -/
def stopped (format : ReportFormat) (log : String) (fs : FileSystem) : Stop → RunResult
  | .reported d =>
    { status := 1, errors := log ++ Diagnostic.reportAll format [d], files := fs }
  | .files message => { status := 2, errors := log ++ (failure "" message).text, files := fs }
  | .givenUp =>
    { status := 2, errors := log ++ (failure "" "Internal error: work is given up").text
      files := fs }

def runInvocation (s : Surroundings) (fs : FileSystem) (i : Invocation) : RunResult :=
  match load s.room fs i.inputs with
  | .error stop => stopped i.format "" fs stop
  | .ok (options, resolved) =>
    let resolvedLine :=
      info ".resolver" s!"resolved {resolved.constants.length} constant(s)"
    let p := perform s fs i.format options resolved i.command
    let log := shownLog i.verbosity (resolvedLine :: p.log)
    match p.ending with
    | .error stop => stopped i.format log p.files stop
    | .ok e =>
      { status := e.status, output := e.output, errors := log ++ e.errors, files := p.files }

/-- The name and the number of the program. -/
def versionText : String := "constgen 0.3.0\n"

/-- The short help. -/
def usageText : String := "usage: constgen [options] <command> ...\n"

def run (s : Surroundings) (fs : FileSystem) (args : List String) : RunResult :=
  match readInvocation args with
  | .ok invocation => runInvocation s fs invocation
  | .error (.aside .help) => { status := 0, output := usageText, files := fs }
  | .error (.aside .version) => { status := 0, output := versionText, files := fs }
  | .error .rejected => { status := 2, files := fs }

end SharedConstants.CommandLine
