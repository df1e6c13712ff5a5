import SharedConstants.Shell.Condition
import SharedConstants.Shell.LineReading
import SharedConstants.Shell.Opening
import SharedConstants.Shell.Print
import SharedConstants.Shell.Signal

/-!
# Commands of the shell

Some commands are part of the shell, since they change the process that runs a script or are
needed often. Those that are called special end the process where they fail.
-/
namespace SharedConstants.Shell

/-- A command of the shell: from arguments to a status. -/
abbrev Builtin := List Octets → Run Nat

namespace Builtin

/-- Reads letters in front of operands, of which each stands for itself. -/
def letters (known : String) : List Octets → Run (List Char × List Octets)
  | ['-', '-'] :: args => return ([], args)
  | ('-' :: c :: cs) :: args => do
    match (c :: cs).find? fun x => !known.toList.contains x with
    | some x => Run.fail ("Illegal option -".toList ++ [x])
    | none =>
      let (more, args) ← letters known args
      return (c :: cs ++ more, args)
  | args => return ([], args)

def count (arg : Octets) : Run Nat :=
  match count? arg with
  | some n => pure n
  | none => Run.fail (illegalNumber arg)

def print (text : Octets) : Run Nat := do
  if text.isEmpty then return 0
  if ← Run.write 1 text then return 0
  let p ← Run.process
  Run.complain (p.command.getD [] ++ ": I/O error".toList)
  return 1

/-- Writes what was printed. Complaints come first, since output is held back until the end. -/
def finish (x : Printed) : Run Nat := do
  x.complaints.forM fun text => Run.complain text
  let status ← print x.output
  return max status x.status

/-- Parts of a text in quotes: single ones around most of it, double ones around single ones. -/
def quotedParts : Nat → Octets → Octets
  | 0, _ => []
  | fuel + 1, cs =>
    let plain := cs.takeWhile (· ≠ '\'')
    let marks := (cs.drop plain.length).takeWhile (· = '\'')
    let rest := cs.drop (plain.length + marks.length)
    let front := '\'' :: plain ++ ['\'']
    if marks.isEmpty then front
    else front ++ '"' :: marks ++ '"' :: (if rest.isEmpty then [] else quotedParts fuel rest)

def inQuotes (cs : Octets) : Octets := quotedParts (cs.length + 1) cs

/-- Asks about texts, numbers and files. -/
def condition (args : List Octets) : Run Nat := do
  match Condition.answer (← get).files args with
  | .ok true => return 0
  | .ok false => return 1
  | .error complaint => Run.fail complaint

/-- Asks the same, with a bracket behind the arguments. -/
def bracket (args : List Octets) : Run Nat := do
  if args.getLast? = some [']'] then condition args.dropLast
  else Run.fail "missing ]".toList

/-- The name and the value of an argument that may assign to a variable. -/
def assignment (arg : Octets) : Octets × Option Octets :=
  let name := arg.takeWhile (· ≠ '=')
  match arg.drop name.length with
  | [] => (name, none)
  | _ :: value => (name, some value)

/-- Complains about what is no name of a variable. -/
def checkName (name : Octets) : Run Unit := do
  if !Octets.isName name then Run.fail (name ++ ": bad variable name".toList)

/-- The variables that a test picks, as commands that would make them. -/
def listing (front : String) (test : Variable → Bool) : Run Octets := do
  let found := (← Run.process).bindings.filter (test ·.2)
  let lines := found.map fun (name, v) =>
    front.toList ++ name ++ ((v.value.map fun x => '=' :: inQuotes x).getD []) ++ ['\n']
  return (lines.mergeSort Octets.le).flatten

/-- Marks variables, and assigns to those that are given values. -/
def mark (front : String) (test : Variable → Bool) (change : Variable → Variable)
    (args : List Octets) : Run Nat := do
  let (found, args) ← letters "p" args
  if args.isEmpty ∨ found ≠ [] then print (← listing front test)
  else
    for arg in args do
      let (name, value) := assignment arg
      checkName name
      match value with
      | some value => Run.assign name value
      | none => pure ()
      Run.putVariable name (some (change ((← Run.found? name).getD {})))
    return 0

def exported : Builtin :=
  mark "export " (·.isExported) fun v => { v with isExported := true }

def readonly : Builtin :=
  mark "readonly " (·.isReadOnly) fun v => { v with isReadOnly := true }

/-- Forgets variables or functions. -/
def unset (args : List Octets) : Run Nat := do
  let (found, args) ← letters "vf" args
  for name in args do
    if found.getLast? = some 'f' then
      Run.modifyProcess fun p => { p with functions := p.functions.filter (·.1 ≠ name) }
    else
      checkName name
      if ((← Run.found? name).getD {}).isReadOnly then
        Run.fail (name ++ ": is read only".toList)
      Run.putVariable name none
  return 0

/-- Keeps what a variable is now, to be put back when the innermost function ends. -/
def keep (name : Octets) : Run Unit := do
  let v ← Run.found? name
  Run.modifyProcess fun p =>
    match p.saved with
    | frame :: frames =>
      if frame.any (·.1 = name) then p else { p with saved := ((name, v) :: frame) :: frames }
    | [] => p

/-- Puts back what the innermost function made its own. -/
def putBack : Run Unit := do
  let p ← Run.process
  (p.saved.headD []).forM fun (name, v) => Run.putVariable name v
  Run.modifyProcess fun p => { p with saved := p.saved.drop 1 }

/-- Makes variables a function's own. -/
def makeOwn (args : List Octets) : Run Nat := do
  if (← Run.process).depth = 0 then Run.fail "not in a function".toList
  for arg in args do
    let (name, value) := assignment arg
    checkName name
    keep name
    match value with
    | some value => Run.assign name value
    | none => pure ()
  return 0

/-- Drops arguments of the script. -/
def shift (args : List Octets) : Run Nat := do
  let n ← match args with
    | [] => pure 1
    | arg :: _ => count arg
  let p ← Run.process
  if p.arguments.length < n then Run.fail "can't shift that many".toList
  Run.modifyProcess fun p => { p with arguments := p.arguments.drop n }
  return 0

/-- The settings by letter and by word. -/
def settings : List (Char × String) :=
  [('e', "errexit"), ('f', "noglob"), ('I', "ignoreeof"), ('i', "interactive"), ('m', "monitor"),
    ('n', "noexec"), ('s', "stdin"), ('x', "xtrace"), ('v', "verbose"), ('V', "vi"), ('E', "emacs"),
    ('C', "noclobber"), ('a', "allexport"), ('b', "notify"), ('u', "nounset"),
    ('p', "privileged"), ('\x01', "nolog"),
    ('\x02', "debug")]

def turn (isOn : Bool) (letter : Char) : Run Unit :=
  Run.modifyProcess fun p =>
    let others := p.settings.filter (· ≠ letter)
    { p with settings := if isOn then letter :: others else others }

/-- Turns settings on or off by their letters. -/
def turnAll (isOn : Bool) : Octets → Run Unit
  | [] => return
  | c :: cs => do
    if (settings.lookup c).isNone then Run.fail ("Illegal option -".toList ++ [c])
    turn isOn c
    turnAll isOn cs

/-- Turns a setting on or off by its word. -/
def turnWord (isOn : Bool) (word : Octets) : Run Unit := do
  match settings.find? fun s => s.2.toList = word with
  | some (letter, _) => turn isOn letter
  | none => Run.fail ("Illegal option -o ".toList ++ word)

/-- The settings as a table, or as the commands that would make them. -/
def settingLines (asCommands : Bool) : Run Octets := do
  let p ← Run.process
  let lines := settings.map fun (letter, word) =>
    let isOn := p.settings.contains letter
    if asCommands then (if isOn then "set -o " else "set +o ") ++ word ++ "\n"
    else word ++ String.ofList (List.replicate (16 - word.length) ' ') ++
      (if isOn then "on\n" else "off\n")
  let front := if asCommands then "" else "Current option settings\n"
  return (front ++ String.join lines).toList

/-- Reads settings in front of operands. The flag tells whether the operands become the
arguments of the script even if there are none. -/
def readSettings : List Octets → Run (List Octets × Bool)
  | [] => return ([], false)
  | ['-'] :: args => do
    turn false 'x'
    turn false 'v'
    return (args, false)
  | ['-', '-'] :: args => return (args, true)
  | (sign :: cs) :: args => do
    if sign ≠ '-' ∧ sign ≠ '+' then return ((sign :: cs) :: args, false)
    let isOn : Bool := sign = '-'
    if cs.getLast? = some 'o' then
      turnAll isOn cs.dropLast
      match args with
      | [] => do
        let _ ← print (← settingLines (!isOn))
        return ([], false)
      | word :: args => do
        turnWord isOn word
        readSettings args
    else
      turnAll isOn cs
      readSettings args
  | args => return (args, false)

/-- Changes settings and the arguments of the script. -/
def configure (args : List Octets) : Run Nat := do
  if args.isEmpty then
    return ← print (← listing "" fun v => v.value.isSome)
  let (args, isForced) ← readSettings args
  if isForced ∨ !args.isEmpty then
    Run.modifyProcess fun p => { p with arguments := args }
  return 0

/-- Reads what stands in front of the names of variables: whether backslashes are left as they
are, and a text that only people are shown. -/
def readerOptions (isRaw : Bool) : List Octets → Run (Bool × List Octets)
  | ['-', '-'] :: args => return (isRaw, args)
  | ['-', 'p'] :: args =>
    match args with
    | [] => Run.fail "No arg for -p option".toList
    | _ :: args => readerOptions isRaw args
  | ('-' :: 'p' :: _) :: args => readerOptions isRaw args
  | ['-', 'r'] :: args => readerOptions true args
  | ('-' :: c :: _) :: _ => Run.fail ("Illegal option -".toList ++ [c])
  | args => return (isRaw, args)

def read (args : List Octets) : Run Nat := do
  let (isRaw, names) ← readerOptions false args
  if names.isEmpty then Run.fail "arg count".toList
  let input := match ← Run.unreadAt 0 with
    | .ok cs => cs
    | .error _ => []
  let (line, count, hasEnd) := takeLine isRaw false input
  match ← Run.streamOf? 0 with
  | some stream => Run.consume stream count
  | none => pure ()
  let separators ← Expansion.separators
  let values := LineFields.split separators names.length line
  for (name, i) in names.zipIdx do
    checkName name
    Run.assign name (values.getD i [])
  return if hasEnd then 0 else 1

def placeText (l : Location) : Octets := Octets.ofText ("/" ++ "/".intercalate l)

def cd (args : List Octets) : Run Nat := do
  let (_, args) ← letters "LP" (if args.head? = some ['-'] then ['-', '-'] :: args else args)
  let target ← match args with
    | [] => return ← change ((← Run.value? "HOME".toList).getD []) false
    | ['-'] :: _ => return ← change ((← Run.value? "OLDPWD".toList).getD ['.']) true
    | name :: _ => pure name
  change target false
where
  /-- Changes the directory, and tells where to if asked. -/
  change (name : Octets) (isShown : Bool) : Run Nat := do
    let files := (← get).files
    let name := if name = [] then ['.'] else name
    let place? : Option Location := match files.locateText (Octets.toText name) with
      | .ok l => if (files.node? l).any Node.isDirectory then some l else none
      | .error _ => none
    match place? with
    | none => Run.fail ("can't cd to ".toList ++ name)
    | some l =>
      Run.assign "OLDPWD".toList (placeText files.cwd)
      modify fun s => { s with files := { s.files with cwd := l } }
      Run.assign "PWD".toList (placeText l)
      if isShown then print (placeText l ++ ['\n']) else return 0

def pwd (_ : List Octets) : Run Nat := do print (placeText (← get).files.cwd ++ ['\n'])

/-- Leaves loops. -/
def leave (escape : Nat → Escape) (args : List Octets) : Run Nat := do
  let n ← match args with
    | [] => pure 1
    | arg :: _ => do
      let n ← count arg
      if n = 0 then Run.fail (illegalNumber arg)
      pure n
  match min n (← Run.process).loops with
  | 0 => return 0
  | n + 1 =>
    Run.setStatus 0
    throw (escape (n + 1))

/-- Leaves a function or a file of commands, or ends the process. -/
def depart (escape : Escape) (args : List Octets) : Run Nat := do
  match args with
  | [] => pure ()
  | arg :: _ => Run.setStatus (← count arg)
  throw escape

/-- Whether there is a process of a number, as far as the process knows. -/
def isKnown (p : Process) (number : Nat) : Bool :=
  [p.number, p.mark, p.parent].contains number || p.jobs.any (·.process = number)

def send (signal number : Nat) : Run Nat := do
  let p ← Run.process
  if !isKnown p number then
    Run.complain "No such process\n".toList
    return 1
  if signal = 0 then return 0
  match p.jobs.find? (·.process = number) with
  | none => Run.signal number signal
  | some job =>
    let now := (← get).clock
    if now < job.time && !Signal.isHarmless signal then
      let ended : Job := { job with status := -signal, time := now }
      Run.modifyProcess fun p =>
        { p with jobs := p.jobs.map fun j => if j.process = number then ended else j }
      modify fun s => { s with running := s.running.filter (·.1 ≠ number) }
  return 0

def sendAll (signal : Nat) : List Octets → Run Nat
  | [] => return 0
  | arg :: args => do
    let status ← send signal (← count arg)
    return max status (← sendAll signal args)

def killUsage : String :=
  "Usage: kill [-s sigspec | -signum | -sigspec] [pid | job]... or\nkill -l [exitstatus]"

def kill (args : List Octets) : Run Nat := do
  let named (text : Octets) : Run Nat :=
    match Signal.number? 0 text with
    | some n => pure n
    | none => Run.fail ("invalid signal number or name: ".toList ++ text)
  match args with
  | ['-', 'l'] :: [] =>
    let numbers := (List.range Signal.limit).drop 1
    print ("0\n".toList ++ numbers.flatMap fun n => Signal.name n ++ ['\n'])
  | ['-', 'l'] :: arg :: _ => do
    let n ← count arg
    if Signal.limit ≤ n % 128 then Run.fail ("invalid signal number or exit status: ".toList ++ arg)
    print (Signal.name (n % 128) ++ ['\n'])
  | ['-', 's'] :: text :: rest => start (← named text) rest
  | ('-' :: 's' :: text) :: rest =>
    match Signal.number? 1 ('s' :: text), text with
    | some n, _ => start n rest
    | none, [] => Run.fail "No arg for -s option".toList
    | none, text => do start (← named text) rest
  | ['-', '-'] :: rest => start 15 rest
  | ('-' :: c :: cs) :: rest =>
    match Signal.number? (if Octets.isDigit c then 0 else 1) (c :: cs) with
    | some n => start n rest
    | none => Run.fail ("Illegal option -".toList ++ [c])
  | rest => start 15 rest
where
  /-- Sends a signal, unless there is nothing to send it to. -/
  start (signal : Nat) (targets : List Octets) : Run Nat :=
    let targets := if targets.head? = some ['-', '-'] then targets.drop 1 else targets
    if targets.isEmpty then Run.fail killUsage.toList else sendAll signal targets

/-- Sets what is done on signals. -/
def setTraps (action : Option Octets) : List Octets → Run Nat
  | [] => return 0
  | name :: names => do
    match Signal.number? 0 name with
    | none =>
      let _ ← Run.write 2 ("trap: ".toList ++ name ++ ": bad trap\n".toList)
      return 1
    | some n =>
      Run.modifyProcess fun p =>
        { p with traps := (action.map (n, ·)).toList ++ p.traps.filter (·.1 ≠ n) }
      setTraps action names

/-- Sets or tells what is done on signals. -/
def trap (args : List Octets) : Run Nat := do
  let (_, args) ← letters "" (if args.head? = some ['-'] then ['-', '-'] :: args else args)
  match args with
  | [] =>
    let traps := (← Run.process).traps.mergeSort fun a b => a.1 ≤ b.1
    print (traps.flatMap fun (n, action) =>
      "trap -- ".toList ++ inQuotes action ++ ' ' :: Signal.name n ++ ['\n'])
  | [name] => setTraps none [name]
  | first :: rest =>
    if (Octets.toNat? first).isSome then setTraps none (first :: rest)
    else if first = ['-'] then setTraps none rest
    else setTraps (some first) rest

/-- The status that a process leaves, and a word of the signal if one ended it. -/
def ending (status : Int) : Run Nat := do
  match status with
  | .ofNat n => return n
  | .negSucc n =>
    let signal := n + 1
    if signal ≠ 2 ∧ signal ≠ 13 then
      let _ ← Run.write 2 ((Signal.wording signal).toList ++ ['\n'])
    return 128 + signal

/-- Waits for the commands that run beside others. -/
def wait (args : List Octets) : Run Nat := do
  let p ← Run.process
  let goTo (time : Float) : Run Unit := do
    let now := (← get).clock
    if now < time then Run.pass (time - now)
  match args with
  | [] =>
    for job in p.jobs do goTo job.time
    return 0
  | args =>
    let mut status := 0
    for arg in args do
      let n ← count arg
      match p.jobs.find? (·.process = n) with
      | some job =>
        goTo job.time
        status ← ending job.status
      | none => status := 127
    return status

/-- Tells which rights new files lack; they cannot be changed. -/
def umask (args : List Octets) : Run Nat := do
  match args with
  | [] => print "0022\n".toList
  | ['-', 'S'] :: _ => print "u=rwx,g=rx,o=rx\n".toList
  | _ => return 0

/-- The commands of the shell that run no commands in turn, and whether they are special. -/
def table : List (String × Bool × Builtin) :=
  [(":", true, fun _ => return 0), ("true", false, fun _ => return 0),
    ("false", false, fun _ => return 1), ("echo", false, fun args => finish (Printed.echo args)),
    ("printf", false, fun args => finish (Printed.formatted args)),
    ("test", false, condition), ("[", false, bracket), ("cd", false, cd), ("chdir", false, cd),
    ("pwd", false, pwd), ("export", true, exported), ("readonly", true, readonly),
    ("unset", true, unset), ("local", true, makeOwn), ("shift", true, shift),
    ("set", true, configure), ("read", false, read), ("break", true, leave .breakOut),
    ("continue", true, leave .goOn), ("return", true, depart .returned),
    ("exit", true, depart .exited), ("kill", false, kill), ("trap", true, trap),
    ("wait", false, wait), ("umask", false, umask), ("hash", false, fun _ => return 0),
    ("jobs", false, fun _ => return 0), ("times", true, fun _ => return 0),
    ("alias", false, fun _ => return 0), ("unalias", false, fun _ => return 0),
    ("ulimit", false, fun args => if args.isEmpty then print "unlimited\n".toList else return 0)]

end Builtin

end SharedConstants.Shell
