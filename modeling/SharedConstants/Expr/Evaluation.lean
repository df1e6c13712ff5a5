import SharedConstants.Operator

/-!
# Evaluation

The value of an expression under given values of the constants it refers to. `eval` follows
the expression; `run` works through an agenda with a stack of results, so that the depth of
an expression does not matter. Both look an operator up before its operands, evaluate these
from left to right and apply the operator last.
-/
namespace SharedConstants

abbrev Valuation := String → Option Value

namespace Expr

def unknownReference (name : String) (span : Span) : Diagnostic :=
  { fault := .unknownReference name, span := some span }

def unknownOperator (name : String) (span : Span) : Diagnostic :=
  { fault := .expression (.unknownOperator name), span := some span }

/-- Applies an operator; its faults are placed at the application. -/
def applyAt (op : Operator) (operands : List Value) (span : Span) : Except Diagnostic Value :=
  match op.call operands with
  | .ok v => .ok v
  | .error fault => .error { fault, span := some span }

mutual

def eval (ops : OperatorRegistry) (values : Valuation) : Expr → Except Diagnostic Value
  | .literal v _ => .ok v
  | .reference name span =>
    match values name with
    | some v => .ok v
    | none => .error (unknownReference name span)
  | .apply operator operands span =>
    match ops.get? operator with
    | none => .error (unknownOperator operator span)
    | some op =>
      match evalAll ops values operands with
      | .ok vs => applyAt op vs span
      | .error d => .error d

/-- The values of expressions, from left to right. -/
def evalAll (ops : OperatorRegistry) (values : Valuation) :
    List Expr → Except Diagnostic (List Value)
  | [] => .ok []
  | e :: es =>
    match eval ops values e with
    | .ok v =>
      match evalAll ops values es with
      | .ok vs => .ok (v :: vs)
      | .error d => .error d
    | .error d => .error d

end

/-- What is still to do: evaluate an expression, or apply an operator to the last results. -/
inductive Task
  | visit (e : Expr)
  | apply (op : Operator) (count : Nat) (span : Span)

def Task.weight : Task → Nat
  | .visit e => 2 * e.size
  | .apply .. => 1

def agendaWeight : List Task → Nat
  | [] => 0
  | task :: agenda => task.weight + agendaWeight agenda

/-- The tasks to evaluate expressions one after another. -/
def visits (es : List Expr) : List Task := es.map Task.visit

theorem agendaWeight_visits (es : List Expr) (agenda : List Task) :
    agendaWeight (visits es ++ agenda) = 2 * sizes es + agendaWeight agenda := by
  induction es with
  | nil => simp [visits, sizes]
  | cons e es ih =>
    simp only [visits, agendaWeight, List.map_cons, List.cons_append, Task.weight, sizes] at ih ⊢
    omega

/-- Works through an agenda. The results stand in a stack, the last one on top. -/
def run (ops : OperatorRegistry) (values : Valuation) :
    List Task → List Value → Except Diagnostic (List Value)
  | [], results => .ok results
  | .visit (.literal v _) :: agenda, results => run ops values agenda (v :: results)
  | .visit (.reference name span) :: agenda, results =>
    match values name with
    | some v => run ops values agenda (v :: results)
    | none => .error (unknownReference name span)
  | .visit (.apply operator operands span) :: agenda, results =>
    match ops.get? operator with
    | none => .error (unknownOperator operator span)
    | some op =>
      run ops values (visits operands ++ .apply op operands.length span :: agenda) results
  | .apply op count span :: agenda, results =>
    match applyAt op (results.take count).reverse span with
    | .ok v => run ops values agenda (v :: results.drop count)
    | .error d => .error d
termination_by agenda => agendaWeight agenda
decreasing_by
  · simp [agendaWeight, Task.weight, size]
  · simp [agendaWeight, Task.weight, size]
  · rw [agendaWeight_visits]
    simp only [agendaWeight, Task.weight, size]
    omega
  · simp [agendaWeight, Task.weight]

/-- The value of an expression, whatever its depth. -/
def evaluate (ops : OperatorRegistry) (values : Valuation) (e : Expr) :
    Except Diagnostic Value :=
  match run ops values [.visit e] [] with
  | .ok (v :: _) => .ok v
  | .ok [] => .error (unknownReference "" e.span)
  | .error d => .error d

end Expr

end SharedConstants
