import SharedConstants.Command.Standard
import SharedConstants.Shell.Builtin

/-!
# Processes of their own

Some commands run in processes of their own: copies of the process that runs the script, and
programs. What they do to files, streams and the clock stays; all else ends with them.
-/
namespace SharedConstants.Shell

/-- What is to be performed: a command or a script. Tested commands may fail, and behind the
last one nothing follows. -/
inductive Task
  | tree (isTested isLast : Bool) (t : Tree)
  | script (isTested : Bool) (text : Octets)

/-- How tasks are performed. -/
abbrev Performer := Task → Run Unit

namespace Child

/-- Does what is to be done at the end of a process, and tells the status that is left. -/
def atEnd (perform : Performer) : Run Int := do
  let p ← Run.process
  match p.traps.lookup 0 with
  | none => return p.status % 256
  | some action =>
    Run.modifyProcess fun p => { p with traps := p.traps.filter (·.1 ≠ 0) }
    tryCatch (do
      perform (.script false action)
      return p.status % 256) fun
      | .exhausted => throw .exhausted
      | .ended n => return -n
      | _ => return (← Run.status) % 256

/-- Lets the process live: does something and then what is to be done at its end. The result is
the status, or the number of the signal that ended the process, below zero. -/
def live (perform : Performer) (body : Run Unit) : Run Int := do
  let signal? ← tryCatch (do body; return none) fun
    | .exhausted => throw .exhausted
    | .ended n => return some n
    | _ => return none
  match signal? with
  | some n => return -n
  | none => atEnd perform

/-- Lets another process have its turn. -/
def as (other : Process) (body : Run Int) : Run Int := do
  let s ← get
  set { s with current := other }
  Run.closing body
    (modify fun t => { t with current := s.current, files := { t.files with cwd := s.files.cwd } })

/-- Does something in a copy of the process. -/
def copy (perform : Performer) (body : Run Unit) : Run Int := do
  let number ← Run.nextNumber
  let p ← Run.process
  as { p with number, parent := p.number, jobs := [], traps := p.traps.filter (·.2 = []) }
    (live perform body)

/-- Takes over the status of a process that has ended. A signal that ended it is told of. -/
def settle (status : Int) : Run Unit := do
  Run.setStatus (← Builtin.ending status)

/-- What the process does on a signal, if anything was set. -/
def action? (p : Process) (signal : Nat) : Option Octets :=
  if Signal.isStrict signal then none else p.traps.lookup signal

/-- Ends the process if a signal waits for which it has set nothing. -/
def meetSignals : Run Unit := do
  let s ← get
  let p := s.current
  for (number, signal) in s.pending do
    if number = p.number ∧ (action? p signal).isNone then
      if Signal.isHalting signal then throw .exhausted
      if !Signal.isHarmless signal then throw (.ended signal)

/-- The output of a command, without the line ends at its end. -/
def outputs (perform : Performer) : Outputs := fun body => do
  match body with
  | none => return []
  | some t =>
    let stream ← Run.openStream (.pipe [])
    let before ← Run.status
    let status ← copy perform do
      Run.connect 1 (some stream)
      perform (.tree false true t)
    settle status
    let code ← Run.status
    Run.modifyProcess fun p => { p with status := before, outputStatus := code }
    meetSignals
    match ← Run.unread stream with
    | .ok cs => return Octets.dropFinalNewlines (cs.filter (· ≠ '\x00'))
    | .error _ => return []

/-- A program: one of the standard commands, or the shell itself. -/
inductive Program
  | standard (run : Call → Execution)
  | shell

def program? (name : String) : Option Program :=
  match name with
  | "sh" | "dash" => some .shell
  | name => (Command.standard? name).map .standard

/-- What comes of looking for a program: the program and its path, or the status and the words
of a complaint. -/
abbrev Search := Except (Nat × String) (Program × Octets)

/-- The directories where programs are looked for. -/
def directories : Run (List Octets) := do
  return Octets.splitAt ':' ((← Run.value? "PATH".toList).getD [])

def programAt (fs : FileSystem) (path : Octets) : Search :=
  match fs.locateText (Octets.toText path) with
  | .error .notFound | .error .notDirectory => .error (127, "not found")
  | .error e => .error (if e = .nameTooLong then 127 else 126, e.wording)
  | .ok l =>
    let known := if Condition.isProgramPlace l then program? (l.getLast?.getD "") else none
    match known, fs.node? l with
    | some p, _ => .ok (p, path)
    | none, some _ => .error (126, "Permission denied")
    | none, none => .error (127, "not found")

def search (name : Octets) : Run Search := do
  let files := (← get).files
  if name.contains '/' then return programAt files name
  if name = [] then return .error (127, "Permission denied")
  let candidates := (← directories).map fun d => d ++ '/' :: name
  let found := candidates.findSome? fun path =>
    match programAt files path with
    | .ok x => some x
    | .error _ => none
  return match found with
    | some x => .ok x
    | none => .error (127, "not found")

def runStandard (run : Call → Execution) (name : Octets) (arguments : List Octets) :
    Run Int := do
  let input ← Run.unreadAt 0
  let files := (← get).files
  let outputPlace ← Run.placeOf? 1
  let inputPlace ← Run.placeOf? 0
  let e := run { name, arguments, input, files, outputPlace, inputPlace }
  if e.readsInput then
    match ← Run.streamOf? 0, input with
    | some stream, .ok cs => Run.consume stream cs.length
    | _, _ => pure ()
  match e.files with
  | some fs => modify fun s => { s with files := { fs with cwd := files.cwd } }
  | none => pure ()
  let mut isLost := false
  for (channel, text) in e.written do
    let isWritten ← Run.write (if channel = .output then 1 else 2) text
    if !isWritten && channel = .output && !text.isEmpty then isLost := true
  Run.pass e.seconds
  if isLost then
    let what := if name = "cat".toList then ": standard output" else ": write error"
    let _ ← Run.write 2 (name ++ what.toList ++ ": Bad file descriptor\n".toList)
    return 1
  return e.status

/-- The variables that a new shell starts with. -/
def startVariables (parent : Nat) (handed : List (Octets × Variable)) :
    List (Octets × Variable) :=
  let own : List (String × String) :=
    [("IFS", " \t\n"), ("OPTIND", "1"), ("PS1", "# "), ("PS2", "> "), ("PS4", "+ "),
      ("PPID", toString parent)]
  let fixed := own.map fun (name, value) =>
    (name.toList, ({ value := some value.toList } : Variable))
  fixed ++ handed.filter fun (name, _) => (own.lookup (String.ofList name)).isNone

/-- A process for a program, which takes over what is exported. -/
def processFor (p : Process) (name : Octets) (number parent : Nat) : Process where
  name
  bindings := startVariables parent
    ((p.bindings.filter (·.2.isExported)).map fun (name, v) =>
      (name, { v with isReadOnly := false }))
  mark := number
  number
  parent
  descriptors := p.descriptors
  traps := p.traps.filter (·.2 = [])
  line := 0

structure ShellCall where
  settings : List Char := []
  takesScript : Bool := false
  operands : List Octets := []

def readCall (c : ShellCall) : List Octets → Run ShellCall
  | [] => return c
  | arg :: args => do
    match arg with
    | ['-'] | ['-', '-'] => return { c with operands := args }
    | sign :: letters =>
      if sign ≠ '-' ∧ sign ≠ '+' then return { c with operands := arg :: args }
      let isOn : Bool := sign = '-'
      let own := letters.filter fun x => x ≠ 'c' && x ≠ 'o'
      Builtin.turnAll isOn own
      let c := { c with takesScript := c.takesScript || letters.contains 'c' }
      match letters.contains 'o', args with
      | true, word :: args =>
        Builtin.turnWord isOn word
        readCall c args
      | _, args => readCall c args
    | [] => return { c with operands := arg :: args }

def readScript (name : Octets) : Run Octets := do
  let files := (← get).files
  match files.readText (Octets.toText name) with
  | .ok bytes => return Octets.ofBytes bytes
  | .error .isDirectory => return []
  | .error e => Opening.refuse false name e

/-- Runs a shell in a process of its own. -/
def shell (perform : Performer) (arguments : List Octets) : Run Unit := do
  let c ← readCall {} arguments
  match c.takesScript, c.operands with
  | true, [] => Run.fail "-c requires an argument".toList
  | true, script :: operands =>
    Run.modifyProcess fun p =>
      { p with name := operands.headD p.name, arguments := operands.drop 1 }
    perform (.script false script)
  | false, operands =>
    if operands.isEmpty ∨ (← Run.isOn 's') then
      Builtin.turn true 's'
      let input := match ← Run.unreadAt 0 with
        | .ok cs => cs
        | .error _ => []
      match ← Run.streamOf? 0 with
      | some stream => Run.consume stream input.length
      | none => pure ()
      Run.modifyProcess fun p => { p with arguments := operands }
      perform (.script false input)
    else
      let name := operands.headD []
      let script ← readScript name
      Run.modifyProcess fun p => { p with name, arguments := operands.drop 1 }
      perform (.script false script)

/-- Runs a program, in the place of the process or in a process of its own. -/
def runProgram (perform : Performer) (program : Program) (name : Octets)
    (arguments : List Octets) (isInPlace : Bool) : Run Int := do
  match program with
  | .standard run => runStandard run name arguments
  | .shell =>
    let p ← Run.process
    let (number, parent) ←
      if isInPlace then pure (p.number, p.parent)
      else do
        let n ← Run.nextNumber
        pure (n, p.number)
    as (processFor p name number parent) (live perform (shell perform arguments))

end Child

end SharedConstants.Shell
