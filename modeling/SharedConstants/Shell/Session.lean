import SharedConstants.Command.Execution
import SharedConstants.Shell.Tree

/-!
# Sessions

Processes share files, open streams and a clock. Each has variables, functions and settings of
its own, and descriptors that lead to streams. A session is all of this, with the process whose
turn it is.
-/
namespace SharedConstants.Shell

/-- What a descriptor may lead to. -/
inductive Stream
  /-- Texts that were written and not yet read, the last one first. -/
  | pipe (texts : List Octets)
  | file (place : Location) (offset : Nat) (isAppended : Bool)
  | directory
  /-- Takes everything in and has nothing to read. -/
  | nothing

/-- A variable; one without a value may still be marked. -/
structure Variable where
  value : Option Octets := none
  isExported : Bool := false
  isReadOnly : Bool := false

/-- A command that runs beside others. -/
structure Job where
  process : Nat
  /-- Its status, or the number of the signal that ends it, below zero. -/
  status : Int
  /-- When it ends. -/
  time : Float

/-- A process that runs scripts. -/
structure Process where
  name : Octets
  arguments : List Octets := []
  bindings : List (Octets × Variable) := []
  functions : List (Octets × Tree) := []
  /-- The letters of the settings that are on. -/
  settings : List Char := []
  status : Nat := 0
  /-- The status of the last command whose output was put into a word. -/
  outputStatus : Nat := 0
  /-- The number that scripts know the process by, which its copies keep. -/
  mark : Nat
  number : Nat
  parent : Nat
  jobs : List Job := []
  lastJob : Option Nat := none
  /-- Which descriptors lead to which streams. -/
  descriptors : List (Nat × Nat) := []
  /-- What is done on signals; zero stands for the end of the process. -/
  traps : List (Nat × Octets) := []
  documents : List (Nat × Word) := []
  /-- How many loops, functions and files of commands lie around a command. -/
  loops : Nat := 0
  depth : Nat := 0
  /-- What variables were before functions made them their own, innermost function first. -/
  saved : List (List (Octets × Option Variable)) := []
  line : Nat := 1
  /-- The command of the process's own that is going on. -/
  command : Option Octets := none
  /-- Where the next option stands among arguments that are read one by one. -/
  optionPlace : Nat := 0

/-- Processes with what they share. -/
structure Session where
  files : FileSystem
  streams : Array Stream := #[]
  /-- The seconds that have passed. -/
  clock : Float := 0
  /-- When everything is stopped. -/
  deadline : Float
  /-- The processes that run beside others and hold the outputs open, with their ends. -/
  running : List (Nat × Float) := []
  /-- Signals that wait for processes. -/
  pending : List (Nat × Nat) := []
  nextProcess : Nat := 1001
  current : Process

/-- Why commands are left early. -/
inductive Escape
  | breakOut (count : Nat)
  | goOn (count : Nat)
  | returned
  /-- The process ends with its status. -/
  | exited
  /-- Something went wrong, and was complained about. -/
  | failed
  /-- A signal ends the process. -/
  | ended (signal : Nat)
  /-- The time is over. -/
  | exhausted

/-- What happens in a session. -/
abbrev Run := EStateM Escape Session

namespace Run

def process : Run Process := return (← get).current

def modifyProcess (f : Process → Process) : Run Unit :=
  modify fun s => { s with current := f s.current }

def setStatus (n : Nat) : Run Unit := modifyProcess fun p => { p with status := n }

def status : Run Nat := return (← process).status

def isOn (letter : Char) : Run Bool := return (← process).settings.contains letter

def openStream (stream : Stream) : Run Nat := do
  let s ← get
  set { s with streams := s.streams.push stream }
  return s.streams.size

/-- The stream that a descriptor leads to. -/
def streamOf? (descriptor : Nat) : Run (Option Nat) :=
  return (← process).descriptors.lookup descriptor

/-- Lets a descriptor lead to a stream, or to none. -/
def connect (descriptor : Nat) (stream : Option Nat) : Run Unit :=
  modifyProcess fun p =>
    let others := p.descriptors.filter (·.1 ≠ descriptor)
    { p with descriptors := (stream.map (descriptor, ·)).toList ++ others }

/-- Bytes with others written over them from an offset on. -/
def overwritten (content : ByteArray) (offset : Nat) (bytes : ByteArray) : ByteArray :=
  let gap : ByteArray := ⟨Array.replicate (offset - content.size) 0⟩
  content.extract 0 offset ++ gap ++ bytes ++ content.extract (offset + bytes.size) content.size

def writeTo (stream : Nat) (cs : Octets) : Run Unit := do
  if cs.isEmpty then return
  let s ← get
  match s.streams[stream]? with
  | some (.pipe texts) =>
    set { s with streams := s.streams.setIfInBounds stream (.pipe (cs :: texts)) }
  | some (.file place offset isAppended) =>
    let content := (s.files.content? place).getD .empty
    let offset := if isAppended then content.size else offset
    let bytes := Octets.toBytes cs
    set { s with
      files := s.files.put place (.file (overwritten content offset bytes))
      streams := s.streams.setIfInBounds stream (.file place (offset + bytes.size) isAppended) }
  | _ => return

def unread (stream : Nat) : Run (Except FileError Octets) := do
  let s ← get
  match s.streams[stream]? with
  | some (.pipe texts) => return .ok texts.reverse.flatten
  | some (.file place offset _) =>
    let content := (s.files.content? place).getD .empty
    return .ok (Octets.ofBytes (content.extract offset content.size))
  | some .directory => return .error .isDirectory
  | some .nothing | none => return .ok []

/-- Uses up octets of a stream. -/
def consume (stream count : Nat) : Run Unit := do
  let s ← get
  let rest? : Option Stream := match s.streams[stream]? with
    | some (.pipe texts) => some (.pipe [texts.reverse.flatten.drop count])
    | some (.file place offset isAppended) => some (.file place (offset + count) isAppended)
    | _ => none
  match rest? with
  | some rest => set { s with streams := s.streams.setIfInBounds stream rest }
  | none => return

/-- Writes to a descriptor, if it leads anywhere. -/
def write (descriptor : Nat) (cs : Octets) : Run Bool := do
  match ← streamOf? descriptor with
  | some stream =>
    writeTo stream cs
    return true
  | none => return false

/-- What there is to read at a descriptor. -/
def unreadAt (descriptor : Nat) : Run (Except FileError Octets) := do
  match ← streamOf? descriptor with
  | some stream => unread stream
  | none => return .error .badDescriptor

/-- The place of the file that a descriptor leads to, if it leads to one. -/
def placeOf? (descriptor : Nat) : Run (Option Location) := do
  match ← streamOf? descriptor with
  | none => return none
  | some stream =>
    match (← get).streams[stream]? with
    | some (.file place ..) => return some place
    | _ => return none

/-- Complains, with the line and the command that are at work. -/
def complain (text : Octets) : Run Unit := do
  let p ← process
  let front := p.name ++ ": ".toList ++ Octets.ofNat p.line ++ ": ".toList
  let middle := match p.command with
    | some c => c ++ ": ".toList
    | none => []
  let _ ← write 2 (front ++ middle ++ text ++ ['\n'])

/-- Complains and leaves with a status. -/
def fail {α : Type} (text : Octets) (status : Nat := 2) : Run α := do
  complain text
  setStatus status
  throw .failed

/-- Lets time pass. -/
def pass (seconds : Float) : Run Unit := do
  let s ← get
  let time := s.clock + seconds
  set { s with clock := time }
  if s.deadline ≤ time then throw .exhausted

def found? (name : Octets) : Run (Option Variable) :=
  return (← process).bindings.lookup name

/-- Puts a variable in the place of that of its name. -/
def putVariable (name : Octets) (v : Option Variable) : Run Unit :=
  modifyProcess fun p =>
    let others := p.bindings.filter (·.1 ≠ name)
    { p with bindings := (v.map (name, ·)).toList ++ others }

def value? (name : Octets) : Run (Option Octets) := return (← found? name).bind (·.value)

def assign (name value : Octets) (isExported : Bool := false) : Run Unit := do
  let v := (← found? name).getD {}
  if v.isReadOnly then fail (name ++ ": is read only".toList)
  let isExported := isExported || v.isExported || (← isOn 'a')
  putVariable name (some { v with value := some value, isExported })

def nextNumber : Run Nat := do
  let s ← get
  set { s with nextProcess := s.nextProcess + 1 }
  return s.nextProcess

/-- Sends a signal. It waits until the process that it is for has its turn. -/
def signal (process number : Nat) : Run Unit :=
  modify fun s => { s with pending := s.pending ++ [(process, number)] }

/-- The signals that wait for the process whose turn it is. -/
def takePending : Run (List Nat) := do
  let s ← get
  set { s with pending := s.pending.filter (·.1 ≠ s.current.number) }
  return (s.pending.filter (·.1 = s.current.number)).map (·.2)

end Run

end SharedConstants.Shell
