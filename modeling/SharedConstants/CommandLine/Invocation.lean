import SharedConstants.CommandLine.Arguments
import SharedConstants.Decimal.Reader
import SharedConstants.Diagnostic.Report

/-!
# Invocations

The program has four commands. All read constants documents and, except when only values are
shown, an options document. Options of the program itself stand in front of the command.
-/
namespace SharedConstants.CommandLine

structure Inputs where
  options : Option String := none
  constants : List String := []
  deriving Repr

/-- How a run treats formatters. -/
structure FormatterFlags where
  isDisabled : Bool := false
  isRequired : Bool := false
  timeout : Float := 30.0

inductive Command
  | generate (formatters : FormatterFlags) (directory stem : String) (profiles : List String)
  | check (profiles : List String)
  | render (formatters : FormatterFlags) (profile : String)
  | list (asJson : Bool)

structure Invocation where
  verbosity : Nat := 0
  format : ReportFormat := .plain
  inputs : Inputs
  command : Command

/-- The settings of the program itself. -/
structure Globals where
  verbosity : Nat := 0
  format : ReportFormat := .plain

/-- The settings of a command, as far as they are given. -/
structure Settings where
  inputs : Inputs := {}
  formatters : FormatterFlags := {}
  directory : Option String := none
  stem : String := "constants"
  profiles : List String := []
  profile : Option String := none
  asJson : Bool := false

def helpOption {σ : Type} : OptionSpec σ := ⟨["-h", "--help"], .stop .help⟩

def globalOptions : List (OptionSpec Globals) := [
  helpOption,
  ⟨["--version"], .stop .version⟩,
  ⟨["-v", "--verbose"], .set fun g => { g with verbosity := g.verbosity + 1 }⟩,
  ⟨["--error-format"], .take fun text g =>
    if text = "gcc" then some { g with format := .plain }
    else if text = "json" then some { g with format := .json }
    else none⟩]

def inputOptions : List (OptionSpec Settings) := [
  helpOption,
  ⟨["-o", "--options"], .take fun text s =>
    some { s with inputs := { s.inputs with options := some text } }⟩,
  ⟨["-c", "--constants"], .take fun text s =>
    some { s with inputs := { s.inputs with constants := s.inputs.constants ++ [text] } }⟩]

/-- Reads a time in seconds, in the digits of any script and with blanks around it. -/
def readTimeout (text : String) : Option Float :=
  let behind := (text.toList.map Text.plainDigit).dropWhile Text.isBlank
  Decimal.readFloat? (behind.reverse.dropWhile Text.isBlank).reverse

def formatterOptions : List (OptionSpec Settings) := [
  ⟨["--no-format"], .set fun s =>
    { s with formatters := { s.formatters with isDisabled := true } }⟩,
  ⟨["--require-formatter"], .set fun s =>
    { s with formatters := { s.formatters with isRequired := true } }⟩,
  ⟨["--formatter-timeout"], .take fun text s =>
    (readTimeout text).map fun timeout =>
      { s with formatters := { s.formatters with timeout } }⟩]

def profileOption : OptionSpec Settings :=
  ⟨["-p", "--profile"], .take fun text s => some { s with profiles := s.profiles ++ [text] }⟩

def targetOptions : List (OptionSpec Settings) := [
  ⟨["-t", "--target-dir"], .take fun text s => some { s with directory := some text }⟩,
  ⟨["-s", "--stem"], .take fun text s => some { s with stem := text }⟩,
  profileOption]

def jsonOption : OptionSpec Settings := ⟨["--json"], .set fun s => { s with asJson := true }⟩

def noOperand (_ : String) (_ : Settings) : Option Settings := none

/-- Takes the profile to print, once. -/
def profileOperand (text : String) (s : Settings) : Option Settings :=
  match s.profile with
  | none => some { s with profile := some text }
  | some _ => none

/-- Rejects settings without constants documents. -/
def requireInputs (s : Settings) (needsOptions : Bool) : Except Halt Unit :=
  if s.inputs.constants.isEmpty ∨ (needsOptions ∧ s.inputs.options.isNone) then .error .rejected
  else .ok ()

/-- A value that must be given. -/
def require {α : Type} : Option α → Except Halt α
  | some x => .ok x
  | none => .error .rejected

def readCommand (name : String) (args : List String) : Except Halt (Inputs × Command) :=
  match name with
  | "generate" => do
    let s ← readArguments (inputOptions ++ formatterOptions ++ targetOptions) noOperand {} args
    requireInputs s true
    let directory ← require s.directory
    return (s.inputs, .generate s.formatters directory s.stem s.profiles)
  | "check" => do
    let s ← readArguments (inputOptions ++ [profileOption]) noOperand {} args
    requireInputs s true
    return (s.inputs, .check s.profiles)
  | "render" => do
    let s ← readArguments (inputOptions ++ formatterOptions) profileOperand {} args
    requireInputs s true
    let profile ← require s.profile
    return (s.inputs, .render s.formatters profile)
  | "show" => do
    let s ← readArguments (inputOptions ++ [jsonOption]) noOperand {} args
    requireInputs s false
    return (s.inputs, .list s.asJson)
  | _ => .error .rejected

def readInvocation (args : List String) : Except Halt Invocation := do
  let classified ← classifyAll globalOptions args
  let (intake, rest) ← readOptions globalOptions ⟨{}, false⟩ classified
  match rest with
  | .operand name :: rest =>
    let (inputs, command) ← readCommand name (args.drop (args.length - rest.length))
    if intake.hasExtras then .error .rejected
    else
      return { verbosity := intake.settings.verbosity, format := intake.settings.format
               inputs, command }
  | _ => .error .rejected

end SharedConstants.CommandLine
