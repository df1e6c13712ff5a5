import SharedConstants.Command.Execution
import SharedConstants.Command.Number
import SharedConstants.Command.Options

/-!
# Waiting

`sleep` waits as long as its operands say together. A number may have a unit behind it.
-/
namespace SharedConstants.Command

def seconds? (cs : Octets) : Option Float :=
  let interval : Option Float := match takeFloat? cs with
    | some (x, []) | some (x, ['s']) => some x
    | some (x, ['m']) => some (x * 60)
    | some (x, ['h']) => some (x * 3600)
    | some (x, ['d']) => some (x * 86400)
    | _ => none
  interval.filter fun x => 0 ≤ x

/-- Waits as long as its operands say together. -/
def wait (c : Call) : Execution :=
  let table : OptionTable := { letters := [], words := [("help", .nothing), ("version", .nothing)] }
  match readItems table c.arguments with
  | (_, some complaint) => c.refuse 1 complaint
  | (items, none) =>
    if c.arguments.isEmpty then c.misused 1 ["missing operand"]
    else
      let operands := operandsOf items
      match operands.filter fun x => (seconds? x).isNone with
      | [] => { seconds := (operands.filterMap seconds?).foldl (· + ·) 0 }
      | wrong => c.misused 1 (wrong.map fun x => s!"invalid time interval {quoted x}")

end SharedConstants.Command
