import SharedConstants.Expr
import SharedConstants.SemanticType.Registry
import SharedConstants.Diagnostic.Misuse

/-!
# Operators

An operator has a name, the operand counts and kinds it accepts, and a meaning. Readers and
evaluators look operators up in a registry, so a new operator is one more entry there.
-/
namespace SharedConstants

structure Operator where
  name : String
  arity : Arity
  accepts : Kind → Bool
  compute : List Value → Except Fault Value
  description : String := ""

namespace Operator

/-- The accepted kinds in alphabetical order. -/
def acceptedKinds (op : Operator) : List Kind :=
  [Kind.boolean, Kind.integer].filter op.accepts

/-- The first operand of a kind that is not accepted, counting from `position`. -/
def misfit? (op : Operator) (position : Nat) : List Value → Option OperandFault
  | [] => none
  | v :: vs =>
    if op.accepts v.kind then misfit? op (position + 1) vs
    else some (.kind position op.acceptedKinds v)

/-- What is wrong with the count or the kinds of operands, if anything. -/
def fault? (op : Operator) (operands : List Value) : Option OperandFault :=
  if op.arity.accepts operands.length then op.misfit? 1 operands
  else some (.count op.arity operands.length)

/-- Applies an operator: first the count of the operands is checked, then their kinds. -/
def call (op : Operator) (operands : List Value) : Except Fault Value :=
  match op.fault? operands with
  | some fault => .error (.operand op.name fault)
  | none => op.compute operands

end Operator

/-- The operators that expressions may use, in the order of their registration. -/
structure OperatorRegistry where
  operators : List Operator := []

namespace OperatorRegistry

def get? (r : OperatorRegistry) (name : String) : Option Operator :=
  r.operators.find? (·.name == name)

def names (r : OperatorRegistry) : List String := r.operators.map Operator.name

/-- Adds an operator under a name that is still free. -/
def register (r : OperatorRegistry) (op : Operator) : Except Misuse OperatorRegistry :=
  if r.names.contains op.name then .error (.operatorTaken op.name)
  else .ok ⟨r.operators ++ [op]⟩

end OperatorRegistry

end SharedConstants
