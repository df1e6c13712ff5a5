import SharedConstants.Command.Concatenate
import SharedConstants.Command.Replace
import SharedConstants.Command.Sort
import SharedConstants.Command.Wait
import SharedConstants.Shell.Condition
import SharedConstants.Shell.Print

/-!
# Standard commands

The commands that stand beside the shell: text tools that formatters are made of, and what
scripts use besides.
-/
namespace SharedConstants.Command

/-- Options of `echo`: whether the line stays open and whether escapes are resolved. -/
def echoOptions : Bool × Bool → List Octets → (Bool × Bool) × List Octets
  | o, ('-' :: c :: cs) :: args =>
    if (c :: cs).all "neE".toList.contains then
      let o := (c :: cs).foldl (fun (isOpen, resolves) letter =>
        if letter = 'n' then (true, resolves) else (isOpen, letter = 'e')) o
      echoOptions o args
    else (o, ('-' :: c :: cs) :: args)
  | o, args => (o, args)

/-- Prints arguments on a line. -/
def echo (c : Call) : Execution :=
  let ((isOpen, resolves), args) := echoOptions (false, false) c.arguments
  let (text, isCut) :=
    if resolves then Shell.Printed.joined args else ([' '].intercalate args, false)
  { written := [(.output, if isOpen || isCut then text else text ++ ['\n'])] }

/-- Prints arguments under a format. -/
def printFormatted (c : Call) : Execution :=
  let x := Shell.Printed.formatted c.arguments
  { status := min x.status 1
    written := x.complaints.map (fun text => (.errors, c.complaint text)) ++ [(.output, x.output)] }

/-- Asks about texts, numbers and files. -/
def test (c : Call) (args : List Octets) : Execution :=
  match Shell.Condition.answer c.files args with
  | .ok true => {}
  | .ok false => { status := 1 }
  | .error complaint => { status := 2, written := [(.errors, c.complaint complaint)] }

/-- Asks the same, with a bracket behind the arguments. -/
def bracket (c : Call) : Execution :=
  if c.arguments.getLast? = some [']'] then test c c.arguments.dropLast
  else c.fail 2 ["missing ‘]’"]

def standard? (name : String) : Option (Call → Execution) :=
  match name with
  | "cat" => some concatenate
  | "tr" => some replace
  | "sort" => some sort
  | "sleep" => some wait
  | "echo" => some echo
  | "printf" => some printFormatted
  | "test" => some fun c => test c c.arguments
  | "[" => some bracket
  | "true" => some fun _ => {}
  | "false" => some fun _ => { status := 1 }
  | _ => none

end SharedConstants.Command
