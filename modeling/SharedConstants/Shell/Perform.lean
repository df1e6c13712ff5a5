import SharedConstants.Shell.Child
import SharedConstants.Shell.Grammar

/-!
# Performing

Commands are performed one after another; each leaves a status. A performer for what lies inside
is given, so that all recursion is in one place, bounded by how deep performances may lie in one
another.
-/
namespace SharedConstants.Shell

namespace Perform

/-- How often a loop may go round. -/
def rounds : Nat := 20000

/-- Deals with the signals that wait for the process. -/
def handleSignals (perform : Performer) : Run Unit := do
  Child.meetSignals
  for n in ← Run.takePending do
    let p ← Run.process
    match Child.action? p n with
    | some action =>
      if action ≠ [] then
        perform (.script false action)
        Run.setStatus p.status
    | none => pure ()

/-- Ends the process if it is to end where commands fail. -/
def checkStatus (isTested : Bool) : Run Unit := do
  if !isTested ∧ (← Run.status) ≠ 0 then
    if ← Run.isOn 'e' then throw .exited

/-- Performs something with redirections. -/
def withOpenings (o : Outputs) (openings : List Opening) (body : Run Unit) : Run Unit := do
  let routes ← Opening.routes openings
  Run.closing (do
    if ← Opening.applyAll o openings then body else Run.setStatus 2) (Opening.restore routes)

/-- Goes round once. The result tells whether a loop goes on. -/
def round (body : Run Unit) : Run Bool :=
  tryCatch (do body; return true) fun
    | .breakOut (n + 2) => throw (.breakOut (n + 1))
    | .breakOut _ => return false
    | .goOn (n + 2) => throw (.goOn (n + 1))
    | .goOn _ => return true
    | e => throw e

def inLoop (body : Run Unit) : Run Unit := do
  Run.modifyProcess fun p => { p with loops := p.loops + 1 }
  Run.closing body (Run.modifyProcess fun p => { p with loops := p.loops - 1 })

/-- Goes round as long as a condition holds. The status is that of the last round. -/
def loop (condition : Run Bool) (body : Run Unit) : Nat → Nat → Run Unit
  | 0, _ => throw .exhausted
  | fuel + 1, last => do
    let mut holds := false
    let goesOn ← round do
      if ← condition then pure () else throw (.breakOut 1)
    if goesOn then holds := true
    if !holds then
      Run.setStatus last
      return
    let goesOn ← round body
    let status ← Run.status
    if goesOn then loop condition body fuel status

/-- Goes round for each of some texts. -/
def loopOver (name : Octets) (body : Run Unit) : List Octets → Run Unit
  | [] => return
  | text :: texts => do
    Run.assign name text
    if ← round body then loopOver name body texts

def callFunction (perform : Performer) (isTested : Bool) (body : Tree) (arguments : List Octets) :
    Run Unit := do
  let p ← Run.process
  Run.modifyProcess fun q =>
    { q with arguments, loops := 0, depth := q.depth + 1, saved := [] :: q.saved }
  Run.closing (do
    tryCatch (perform (.tree isTested false body)) fun
      | .returned => pure ()
      | e => throw e) do
    Builtin.putBack
    Run.modifyProcess fun q =>
      { q with arguments := p.arguments, loops := p.loops, depth := p.depth }

/-- Runs the commands of a text. -/
def evaluate (perform : Performer) (isTested : Bool) (args : List Octets) : Run Nat := do
  perform (.script isTested ([' '].intercalate args))
  Run.status

/-- The file of commands that a name leads to. -/
def commandFile (name : Octets) : Run (Octets × Octets) := do
  let files := (← get).files
  let read (path : Octets) : Except FileError Octets :=
    (files.readText (Octets.toText path)).map Octets.ofBytes
  if name.contains '/' then
    match read name with
    | .ok text => return (name, text)
    | .error .isDirectory => return (name, [])
    | .error e => Opening.refuse false name e
  else
    let candidates := (← Child.directories).map fun d => d ++ '/' :: name
    match candidates.findSome? fun path => (read path).toOption.map (path, ·) with
    | some found => return found
    | none => Run.fail (name ++ ": not found".toList)

/-- Runs the commands of a file in the process itself. -/
def source (perform : Performer) (isTested : Bool) (args : List Octets) : Run Nat := do
  match args with
  | [] => return 0
  | name :: _ =>
    let (path, text) ← commandFile name
    Run.modifyProcess fun p => { p with command := some path }
    tryCatch (perform (.script isTested text)) fun
      | .returned => pure ()
      | e => throw e
    Run.status

/-- Ends the process with the status of a program that took its place. -/
def leaveWith {α : Type} (status : Int) : Run α := do
  Run.modifyProcess fun p => { p with traps := [] }
  match status with
  | .ofNat n =>
    Run.setStatus n
    throw .exited
  | .negSucc n => throw (.ended (n + 1))

/-- Puts a program in the place of the process. -/
def replaceProcess (perform : Performer) (args : List Octets) : Run Nat := do
  match args with
  | [] => return 0
  | name :: rest =>
    match ← Child.search name with
    | .ok (program, _) => leaveWith (← Child.runProgram perform program name rest true)
    | .error (status, words) =>
      Run.complain (name ++ ": ".toList ++ words.toList)
      Run.setStatus status
      throw .exited

/-- Tells what a name means as a command. -/
def describe (isLong : Bool) (name : Octets) : Run Nat := do
  let p ← Run.process
  let tell (short long : Octets) : Run Nat :=
    Builtin.print ((if isLong then name ++ " is ".toList ++ long else short) ++ ['\n'])
  let text := String.ofList name
  let known := (Builtin.table.lookup text).map (·.1)
  let special? := if ["eval", ".", "exec"].contains text then some true
    else if ["command", "type"].contains text then some false
    else known
  if keywords.contains text then tell name "a shell keyword".toList
  else if (p.functions.lookup name).isSome then tell name "a shell function".toList
  else
    match special? with
    | some true => tell name "a special shell builtin".toList
    | some false => tell name "a shell builtin".toList
    | none =>
      match ← Child.search name with
      | .ok (_, path) => tell path path
      | .error _ =>
        if isLong then
          let _ ← Builtin.print (name ++ ": not found\n".toList)
        return 127

def describeAll (isLong : Bool) : List Octets → Run Nat
  | [] => return 0
  | name :: names => do
    let status ← describe isLong name
    return max status (← describeAll isLong names)

/-- A command of the shell, and whether it is special. -/
def builtin? (perform : Performer) (isTested : Bool) (name : Octets) : Option (Bool × Builtin) :=
  match String.ofList name with
  | "eval" => some (true, evaluate perform isTested)
  | "." => some (true, source perform isTested)
  | "exec" => some (true, replaceProcess perform)
  | "type" => some (false, describeAll true)
  | text => Builtin.table.lookup text

/-- What a name means as a command. -/
inductive Meaning
  | function (body : Tree)
  | builtin (isSpecial : Bool) (run : Run Nat)
  | program

/-- What is asked with `command`: what names mean, at length or not, or that a command is run. -/
inductive Inquiry
  | meaning (isLong : Bool) (names : List Octets)
  | run (words : List Octets)

def inquiry : List Octets → Inquiry
  | ['-', 'p'] :: rest | ['-', '-'] :: rest => .run rest
  | ['-', 'v'] :: rest => .meaning false rest
  | ['-', 'V'] :: rest => .meaning true rest
  | rest => .run rest

/-- What a command means, and the arguments that are left of it. -/
def meaning (perform : Performer) (isTested : Bool) (name : Octets) (arguments : List Octets) :
    Run (Meaning × Octets × List Octets) := do
  match (← Run.process).functions.lookup name with
  | some body => return (.function body, name, arguments)
  | none =>
    if name ≠ "command".toList then
      match builtin? perform isTested name with
      | some (isSpecial, run) => return (.builtin isSpecial (run arguments), name, arguments)
      | none => return (.program, name, arguments)
    else
      match inquiry arguments with
      | .meaning isLong names =>
        return (.builtin false (describeAll isLong (names.take 1)), name, arguments)
      | .run [] => return (.builtin false (return 0), name, arguments)
      | .run (other :: rest) =>
        match builtin? perform isTested other with
        | some (_, run) => return (.builtin false (run rest), other, rest)
        | none => return (.program, other, rest)

/-- Runs a command of the shell. Only special ones end the process where they fail. -/
def runBuiltin (isSpecial : Bool) (name : Octets) (body : Run Nat) : Run Unit := do
  let before := (← Run.process).command
  Run.modifyProcess fun p => { p with command := some name }
  Run.closing (tryCatch (do
    let status ← body
    Run.setStatus status) fun
    | .failed => if isSpecial then throw .failed else pure ()
    | e => throw e) (Run.modifyProcess fun p => { p with command := before })

def runCommand (perform : Performer) (isLast : Bool) (name : Octets) (arguments : List Octets) :
    Run Unit := do
  match ← Child.search name with
  | .error (status, words) =>
    Run.complain (name ++ ": ".toList ++ words.toList)
    Run.setStatus status
  | .ok (program, _) =>
    let isInPlace := isLast && (← Run.process).traps.isEmpty
    let status ← Child.runProgram perform program name arguments isInPlace
    match status, isInPlace with
    | .negSucc n, true => throw (.ended (n + 1))
    | status, _ => Child.settle status

/-- The commands whose arguments are not split where they assign. -/
def declares (name : Octets) : Bool :=
  ["export", "readonly", "local"].contains (String.ofList name)

/-- The name and the arguments of a command from its words. -/
def expandWords (o : Outputs) : List Octets → List Word → Run (List Octets)
  | args, [] => return args
  | args, w :: ws => do
    let first := if args.head? = some "command".toList then args.drop 1 else args
    let isDeclared := (first.head?.map declares).getD false
    match if isDeclared then Grammar.assignment? w else none with
    | some (name, value) => do
      let text ← Expansion.text o value true
      expandWords o (args ++ [name ++ '=' :: text]) ws
    | none => do
      let more ← Expansion.fields o w
      expandWords o (args ++ more) ws

/-- Makes assignments, and tells how they look. They are kept or last as long as a command. -/
def assign (o : Outputs) (isKept isExported : Bool) :
    List (Octets × Word) → Run (List Octets)
  | [] => return []
  | (name, word) :: rest => do
    let text ← Expansion.text o word true
    if !isKept then Builtin.keep name
    Run.assign name text isExported
    return (name ++ '=' :: text) :: (← assign o isKept isExported rest)

/-- Shows a command that is about to run, where that is asked for. -/
def trace (errors : Option Nat) (words : List Octets) : Run Unit := do
  if ← Run.isOn 'x' then
    match errors with
    | some stream =>
      let mark := (← Run.value? "PS4".toList).getD []
      Run.writeTo stream (mark ++ [' '].intercalate words ++ ['\n'])
    | none => return

def simple (perform : Performer) (isTested isLast : Bool) (line : Nat)
    (assignments : List (Octets × Word)) (words : List Word) (redirections : List Redirection) :
    Run Unit := do
  let o := Child.outputs perform
  Run.modifyProcess fun p => { p with line, outputStatus := 0 }
  let fields ← expandWords o [] words
  let errors ← Run.streamOf? 2
  match fields with
  | [] =>
    withOpenings o (← Opening.ofRedirections o redirections) do
      let shown ← assign o true false assignments
      if !shown.isEmpty then trace errors shown
      Run.setStatus (← Run.process).outputStatus
  | name :: arguments =>
    let (found, name, rest) ← meaning perform isTested name arguments
    let openings ← Opening.ofRedirections o redirections
    let isSpecial := match found with
      | .builtin isSpecial _ => isSpecial
      | _ => false
    let isReplaced : Bool := isSpecial && name = "exec".toList
    let routes ← Opening.routes openings
    Run.closing (do
      if !(← Opening.applyAll o openings) then
        Run.setStatus 2
        if isSpecial then throw .failed
      else
        if !isSpecial then Run.modifyProcess fun p => { p with saved := [] :: p.saved }
        Run.closing (do
          let shown ← assign o isSpecial (!isSpecial || isReplaced && !rest.isEmpty) assignments
          trace errors (shown ++ fields)
          match found with
          | .function body => callFunction perform isTested body rest
          | .builtin isSpecial run => runBuiltin isSpecial name run
          | .program => runCommand perform isLast name rest)
          (if isSpecial then pure () else Builtin.putBack))
      (if isReplaced && rest.isEmpty then pure () else Opening.restore routes)

/-- Performs the commands of a pipeline, each on the output of the one before it. All of them
begin at one time. The result is the status of the last one, and whether time ran out. -/
def piped (perform : Performer) (isTested : Bool) (start : Float) :
    Option Nat → List Tree → Run (Int × Bool)
  | _, [] => return (0, false)
  | input, t :: ts => do
    let output ← if ts.isEmpty then pure none else some <$> Run.openStream (.pipe [])
    let before := (← get).clock
    modify fun s => { s with clock := start }
    let (status, isOver) ← tryCatch (do
      let status ← Child.copy perform do
        if input.isSome then Run.connect 0 input
        if output.isSome then Run.connect 1 output
        perform (.tree isTested true t)
      return (status, false)) fun
      | .exhausted => return (0, true)
      | e => throw e
    modify fun s => { s with clock := if s.clock < before then before else s.clock }
    if ts.isEmpty then return (status, isOver)
    let _ ← Builtin.ending status
    let (last, isOverLater) ← piped perform isTested start output ts
    return (last, isOver || isOverLater)

def pipeline (perform : Performer) (isTested : Bool) (commands : List Tree) : Run Unit := do
  let (status, isOver) ← piped perform isTested (← get).clock none commands
  if isOver then throw .exhausted
  Child.settle status

/-- Whether the redirections of a command lead both outputs elsewhere. -/
def leavesOutputs : Tree → Bool
  | .simple _ _ _ rs | .subshell _ _ rs | .redirected _ _ rs =>
    let places := rs.map fun
      | .file d .. => d
      | .descriptor d _ => d
      | .document d _ => d
    places.contains 1 && places.contains 2
  | _ => false

/-- Performs a command beside those that follow. -/
def background (perform : Performer) (body : Tree) : Run Unit := do
  let start := (← get).clock
  let number := (← get).nextProcess
  let status ← tryCatch (Child.copy perform do
    let stream ← Run.openStream .nothing
    Run.connect 0 (some stream)
    perform (.tree false true body)) fun
    | .exhausted => do
      modify fun s => { s with clock := s.deadline }
      return 0
    | e => throw e
  let time := (← get).clock
  Run.modifyProcess fun p =>
    { p with
      status := 0
      lastJob := some number
      jobs := p.jobs ++ [⟨number, status, time⟩] }
  modify fun s =>
    { s with
      clock := start
      running := if leavesOutputs body then s.running else (number, time) :: s.running }

/-- Performs a command in a process of its own. -/
def subshell (perform : Performer) (isTested isLast : Bool) (line : Nat) (body : Tree)
    (redirections : List Redirection) : Run Unit := do
  Run.modifyProcess fun p => { p with line }
  let o := Child.outputs perform
  let openings ← Opening.ofRedirections o redirections
  let run : Run Unit := withOpenings o openings (perform (.tree isTested true body))
  if isLast && (← Run.process).traps.isEmpty then
    run
    throw .exited
  else
    let status ← Child.copy perform run
    Child.settle status

/-- The body of the first branch that a text fits. -/
def choose (o : Outputs) (text : Octets) : List Branch → Run (Option Tree)
  | [] => return none
  | .mk patterns body :: rest => do
    if ← fits patterns then return body else choose o text rest
where
  /-- Whether the text fits one of some patterns. -/
  fits : List Word → Run Bool
    | [] => return false
    | w :: ws => do
      let pattern ← Expansion.pattern o w
      if Pattern.accepts (Pattern.ofChars pattern) text then return true else fits ws

def tree (perform : Performer) (isTested isLast : Bool) (t : Tree) : Run Unit := do
  if ← Run.isOn 'n' then return
  let o := Child.outputs perform
  match t with
  | .simple line assignments words redirections =>
    simple perform isTested isLast line assignments words redirections
    handleSignals perform
    checkStatus isTested
  | .pipeline commands =>
    pipeline perform isTested commands
    handleSignals perform
    checkStatus isTested
  | .background body =>
    background perform body
    handleSignals perform
  | .subshell line body redirections =>
    subshell perform isTested isLast line body redirections
    handleSignals perform
    checkStatus isTested
  | .sequence first second =>
    perform (.tree isTested false first)
    perform (.tree isTested isLast second)
  | .both first second =>
    perform (.tree true false first)
    if (← Run.status) = 0 then perform (.tree isTested isLast second)
  | .either first second =>
    perform (.tree true false first)
    if (← Run.status) ≠ 0 then perform (.tree isTested isLast second)
  | .negation body =>
    perform (.tree true false body)
    Run.setStatus (if (← Run.status) = 0 then 1 else 0)
  | .redirected line body redirections =>
    Run.modifyProcess fun p => { p with line }
    let openings ← Opening.ofRedirections o redirections
    withOpenings o openings (perform (.tree isTested false body))
  | .choice condition body other =>
    perform (.tree true false condition)
    if (← Run.status) = 0 then perform (.tree isTested isLast body)
    else
      match other with
      | some t => perform (.tree isTested isLast t)
      | none => Run.setStatus 0
  | .loop isUntil condition body =>
    let holds : Run Bool := do
      perform (.tree true false condition)
      return ((← Run.status) = 0) ≠ isUntil
    inLoop (loop holds (perform (.tree isTested false body)) rounds 0)
  | .each line name words body =>
    Run.modifyProcess fun p => { p with line }
    let texts ← Expansion.allFields o words
    if texts.isEmpty then Run.setStatus 0
    inLoop (loopOver name (perform (.tree isTested false body)) texts)
  | .select line word branches =>
    Run.modifyProcess fun p => { p with line }
    let text ← Expansion.text o word
    let body ← choose o text branches
    match body with
    | some t => perform (.tree isTested isLast t)
    | none => Run.setStatus 0
  | .define _ name body =>
    Run.modifyProcess fun p =>
      { p with functions := (name, body) :: p.functions.filter (·.1 ≠ name), status := 0 }

/-- How deep commands may lie in one another. -/
def nesting : Nat := 1000

/-- Reads a script line by line and performs what was read. The flag tells whether anything was
performed. -/
def lines (perform : Performer) (isTested : Bool) : Nat → Bool → ScanState → Run Unit
  | 0, _, _ => return
  | fuel + 1, isBegun, s => do
    match (readCommands nesting .line).run s with
    | .error fault _ =>
      Run.modifyProcess fun p => { p with line := fault.line }
      Run.fail fault.text.toList
    | .ok found s =>
      let isOver := match s.ahead with
        | some .finish => true
        | _ => false
      Run.modifyProcess fun p => { p with documents := s.documents ++ p.documents }
      match found with
      | some t => perform (.tree isTested false t)
      | none => if isOver && !isBegun then Run.setStatus 0
      if !isOver then
        lines perform isTested fuel (isBegun || found.isSome)
          { s with ahead := none, documents := [] }

/-- Performs a script. -/
def script (perform : Performer) (isTested : Bool) (text : Octets) : Run Unit := do
  let numbers := (← Run.process).documents.map (·.1)
  let s : ScanState :=
    { rest := text, nextDocument := numbers.foldl (fun n m => max n (m + 1)) 0 }
  lines perform isTested (text.length + 2) false s

/-- Performs a task inside other tasks, as long as they do not lie too deep in one another. -/
def task : Nat → Task → Run Unit
  | 0, _ => throw .exhausted
  | depth + 1, .tree isTested isLast t => tree (task depth) isTested isLast t
  | depth + 1, .script isTested text => script (task depth) isTested text

end Perform

end SharedConstants.Shell
