import SharedConstants.Command.Quoting
import SharedConstants.FileSystem

/-!
# Executions

A command reads octets and writes octets, to its output and beside it to its error output, and
ends with a status after some time. It may see and change files.
-/
namespace SharedConstants

inductive Channel
  | output
  | errors
  deriving DecidableEq, Repr

structure Call where
  name : Octets
  arguments : List Octets
  /-- What there is to read, or why nothing can be read. -/
  input : Except FileError Octets
  /-- The files, with the directory that the command works in. -/
  files : FileSystem
  /-- The file that the output goes to, if it goes to one. -/
  outputPlace : Option Location := none
  /-- The file that the input comes from, if it comes from one. -/
  inputPlace : Option Location := none

structure Execution where
  /-- The status at its end; a negative one is the number of the signal that ended it. -/
  status : Int := 0
  /-- What was written, in order. -/
  written : List (Channel × Octets) := []
  /-- Whether the input was read, in full then. -/
  readsInput : Bool := false
  seconds : Float := 0
  /-- The files afterwards, if they were changed. -/
  files : Option FileSystem := none

namespace Call

/-- A line of complaint, with the name of the command in front. -/
def complaint (c : Call) (text : Octets) : Octets := c.name ++ ": ".toList ++ text ++ ['\n']

/-- An execution that only complains. -/
def fail (c : Call) (status : Int) (complaints : List String) : Execution where
  status := status
  written := complaints.map fun text => (.errors, c.complaint (Octets.ofText text))

/-- Where to learn how a command is called. -/
def hint (c : Call) : String := s!"Try '{c.name.toText} --help' for more information."

/-- Complaints about the way a command is called, and a hint behind further lines. -/
def misused (c : Call) (status : Int) (complaints : List String) (more : List String := []) :
    Execution :=
  let failed := c.fail status complaints
  { failed with
    written := failed.written ++ (more ++ [c.hint]).map fun line =>
      (.errors, Octets.ofText (line ++ "\n")) }

/-- A complaint about an option, and a hint. -/
def refuse (c : Call) (status : Int) (complaint : Octets) : Execution where
  status := status
  written := [(.errors, c.complaint complaint), (.errors, Octets.ofText (c.hint ++ "\n"))]

/-- A source that a command was asked to read: its octets, or why it cannot be read. -/
def read (c : Call) (name : Octets) : Except FileError Octets :=
  if name = ['-'] then c.input
  else (c.files.readText name.toText).map Octets.ofBytes

end Call

end SharedConstants
