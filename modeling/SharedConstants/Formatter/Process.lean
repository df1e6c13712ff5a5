import SharedConstants.Command.Completion
import SharedConstants.Formatter
import SharedConstants.Text.Lines

/-!
# Formatters as processes

A formatter runs as a process within a time limit. A command that is missing, cannot start, takes
too long or ends with a status other than zero has failed.
-/
namespace SharedConstants.Formatter

/-- A process has to wait less than this, in seconds. -/
def longestWait : Float := 2147483.647

/-- Whether a limit is a time that a process can be waited for. -/
def isWaitable (seconds : Float) : Bool := seconds ≤ longestWait

/-- The longest argument of a command, in bytes. -/
def argumentLimit : Nat := 131071

/-- Why a command that has no program is not started. -/
def startFault (fs : FileSystem) (name : String) : FormatterFault :=
  let notStarted (e : FileError) : FormatterFault := .notStarted (e.report (some name) none)
  if name.toList.contains '/' then
    match fs.locateText name with
    | .error .notFound => .notFound
    | .error e => notStarted e
    | .ok l => if (fs.node? l).isSome then notStarted .denied else .notFound
  else if name = "" ∨ name = "." ∨ name = ".." then notStarted .denied
  else if FileSystem.nameLimit < name.utf8ByteSize then notStarted .nameTooLong
  else .notFound

/-- The program of a command, or why there is none. -/
def program (fs : FileSystem) (command : List String) :
    Except FormatterFault Shell.Child.Program :=
  let name := command.headD ""
  let found : Option Shell.Child.Program :=
    if name.toList.contains '/' then
      match Shell.Child.programAt fs (Octets.ofText name) with
      | .ok (p, _) => some p
      | .error _ => none
    else Shell.Child.program? name
  match found with
  | none => .error (startFault fs name)
  | some p =>
    if command.any fun arg => argumentLimit < arg.utf8ByteSize then
      .error (.notStarted (FileError.report .tooManyArguments (some name) none))
    else .ok p

/-- The line that tells why a command failed: the last one of its complaints, or of its output
where it did not complain. -/
def failureDetail (errors output : List Char) : Option String :=
  let lastLine (cs : List Char) : Option String :=
    ((Text.splitLines (Text.trim cs)).getLast?).map String.ofList
  lastLine errors <|> lastLine output

def replyOf (c : Command.Completion) : FormatterReply :=
  match Octets.toText? c.output, Octets.toText? c.errors with
  | some output, some errors =>
    let output := Text.unifyNewlines output.toList
    let errors := Text.unifyNewlines errors.toList
    if c.status = 0 then .formatted (String.ofList output)
    else .failed (.exited c.status (failureDetail errors output))
  | _, _ => .givenUp

/-- Runs a formatter within a time limit. -/
def run (timeout : Float) : Formatters (StateM FileSystem) := fun command text fs =>
  if command.any FilePath.hasNull then (.givenUp, fs)
  else
    match program fs command with
    | .error fault => (.failed fault, fs)
    | .ok p =>
      let words := command.map Octets.ofText
      let c := Command.complete fs timeout p (words.headD []) (words.drop 1) (Octets.ofText text)
      let files := { c.files with cwd := fs.cwd }
      if !isWaitable timeout then (.givenUp, files)
      else if !c.isTimely then (.failed (.timedOut timeout), files)
      else (replyOf c, files)

end SharedConstants.Formatter
