import SharedConstants.Shell.Perform

/-!
# Completions

A command is run with an input, among files and with a deadline. What is left is what it wrote,
its status, and the files.
-/
namespace SharedConstants.Command

open Shell

structure Completion where
  status : Int := 0
  output : Octets := []
  errors : Octets := []
  /-- Whether it came to its end before the deadline. -/
  isTimely : Bool
  files : FileSystem

/-- The variables that commands are handed. -/
def environment (files : FileSystem) : List (Octets × Variable) :=
  let handed : List (String × String) :=
    [("HOME", "/root"), ("PATH", "/usr/local/sbin:/usr/local/bin:/usr/sbin:/usr/bin:/sbin:/bin"),
      ("PWD", "/" ++ "/".intercalate files.cwd)]
  handed.map fun (name, value) =>
    (Octets.ofText name, { value := some (Octets.ofText value), isExported := true })

/-- The number of the process of a command. -/
def firstProcess : Nat := 1000

/-- The session that a command starts in. -/
def startSession (files : FileSystem) (deadline : Float) (input : Octets) : Session where
  files
  streams := #[.pipe [input], .pipe [], .pipe []]
  deadline
  nextProcess := firstProcess + 1
  current :=
    { name := []
      bindings := environment files
      mark := firstProcess
      number := firstProcess
      parent := firstProcess - 1
      descriptors := [(0, 0), (1, 1), (2, 2)] }

/-- How deep performances may lie in one another. -/
def performanceDepth : Nat := 20000

def completion (s : Session) (status : Int) (isTimely : Bool) : Completion :=
  let textOf (stream : Nat) : Octets := match s.streams[stream]? with
    | some (.pipe texts) => texts.reverse.flatten
    | _ => []
  { status
    output := textOf 1
    errors := textOf 2
    isTimely := isTimely && s.clock < s.deadline && s.running.all fun (_, time) => time < s.deadline
    files := s.files }

def complete (files : FileSystem) (deadline : Float) (program : Child.Program) (name : Octets)
    (arguments : List Octets) (input : Octets) : Completion :=
  let run := Child.runProgram (Perform.task performanceDepth) program name arguments true
  match run.run (startSession files deadline input) with
  | .ok status s => completion s status true
  | .error _ s => completion s 0 false

end SharedConstants.Command
