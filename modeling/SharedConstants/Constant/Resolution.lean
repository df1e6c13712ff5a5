import SharedConstants.Constant.Graph
import SharedConstants.Expr.Evaluation

/-!
# Resolution

A set of constants is resolved in stages. Repeated names, unknown references, cycles and
unknown types are structural and found before anything is evaluated, in this order. Then
the constants are evaluated in dependency order and checked against their types. The result
lists them in the order of their ordinals.
-/
namespace SharedConstants

structure ResolvedConstant where
  constant : Constant
  value : Value
  type : Option SemanticType

namespace ResolvedConstant

def name (rc : ResolvedConstant) : String := rc.constant.name

def typeName (rc : ResolvedConstant) : Option String := rc.constant.typeName

end ResolvedConstant

/-- Constants with their values, and the order in which these were found. The values by name are
read off the constants. -/
structure Resolved where
  constants : List ResolvedConstant
  order : List String

namespace Resolved

def names (r : Resolved) : List String := r.constants.map ResolvedConstant.name

def value? (r : Resolved) (name : String) : Option Value :=
  (r.constants.find? (·.name == name)).map ResolvedConstant.value

end Resolved

namespace Constant

def lookupType (types : TypeRegistry) (c : Constant) : Except Diagnostic (Option SemanticType) :=
  match c.typeName with
  | none => .ok none
  | some name =>
    match types.lookup name with
    | .ok t => .ok (some t)
    | .error d => .error (d.attachConstant c.name)

/-- Places a failure at a constant. -/
def place (c : Constant) (d : Diagnostic) : Diagnostic :=
  d.attach (some c.name) none c.source? none

/-- The value of a constant under those of the constants it depends on, checked against its
type. -/
def evaluate (ops : OperatorRegistry) (values : Valuation) (c : Constant)
    (type : Option SemanticType) : Except Diagnostic Value :=
  match c.expr.evaluate ops values with
  | .error d => .error (c.place d)
  | .ok v =>
    match type with
    | none => .ok v
    | some t =>
      match t.check v with
      | .error d => .error (c.place d)
      | .ok () => .ok v

end Constant

abbrev Typed := Constant × Option SemanticType

def lookupTypes (types : TypeRegistry) : List Constant → Except Diagnostic (List Typed)
  | [] => .ok []
  | c :: rest =>
    match c.lookupType types with
    | .error d => .error d
    | .ok t =>
      match lookupTypes types rest with
      | .error d => .error d
      | .ok typed => .ok ((c, t) :: typed)

/-- Values found so far, the last one first. -/
abbrev Values := List (String × Value)

def Values.get (values : Values) : Valuation := fun name => values.lookup name

/-- Evaluates constants in a given order of their names. -/
def evaluateInOrder (ops : OperatorRegistry) (typed : List Typed) :
    List String → Values → Except Diagnostic Values
  | [], values => .ok values
  | name :: order, values =>
    match typed.find? (·.1.name == name) with
    | none => evaluateInOrder ops typed order values
    | some (c, t) =>
      match c.evaluate ops values.get t with
      | .error d => .error d
      | .ok v => evaluateInOrder ops typed order ((name, v) :: values)

/-- The resolved constants, in the order in which they stand. -/
def assemble (typed : List Typed) (values : Values) : List ResolvedConstant :=
  typed.filterMap fun (c, t) => (values.get c.name).map fun v => ⟨c, v, t⟩

/-- Resolves constants that stand in the order of their declaration. -/
def resolveDeclared (types : TypeRegistry) (ops : OperatorRegistry) (declared : List Constant) :
    Except Diagnostic Resolved := do
  let graph ← DependencyGraph.ofConstants declared
  graph.validate
  let links := graph.links
  if let some cycle := links.findCycle? then throw (.cyclicDependency cycle)
  let typed ← lookupTypes types declared
  let order ← links.evaluationOrder
  let values ← evaluateInOrder ops typed order []
  return ⟨assemble typed values, order⟩

def resolve (types : TypeRegistry) (ops : OperatorRegistry) (constants : List Constant) :
    Except Diagnostic Resolved :=
  resolveDeclared types ops (Constant.byOrdinal constants)

end SharedConstants
