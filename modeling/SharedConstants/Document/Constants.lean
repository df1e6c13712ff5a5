import SharedConstants.Constant
import SharedConstants.Document.Section

/-!
# Constants documents

A constants document is an array of tables, one for each constant. The value is a text that
holds an expression, or an integer or boolean of the document itself. Several documents are
read as one: ordinals go on where the document before ended.
-/
namespace SharedConstants.Constant

/-- The source text of a value that a document holds natively. -/
def nativeSource : Value → String
  | .integer n => toString n
  | .boolean b => if b then "true" else "false"

/-- A constant whose value a document holds natively. -/
def ofNative (name : String) (typeName : Option String) (value : Value)
    (comment : Option String) (ordinal : Int) : Except Failure Constant := do
  let expr ← Expr.ofNative value (some name)
  return { name, typeName, expr, comment, ordinal, source := nativeSource value }

/-- Reads one constant. -/
def ofSection (ops : OperatorRegistry) (ordinal : Int) (s : Section) :
    Except Failure Constant := do
  let name ← s.text "name"
  if !Expr.isIdentifier name.toList then throw (s.entryFailure "name" (.invalidIdentifier name))
  let typeName ← s.text? "type"
  let comment ← s.text? "comment"
  match s.find? "value" with
  | none => throw (s.entryFailure "value" .required)
  | some (.text value) => ofText ops name typeName value comment ordinal
  | some (.integer n) => ofNative name typeName (.integer n) comment ordinal
  | some (.boolean b) => ofNative name typeName (.boolean b) comment ordinal
  | some d => throw (s.entryFailure "value" (.expectedValue d))

/-- Reads the constants of an array. The index tells the place of the first, `start` the
ordinal of the array's first element. -/
def ofItems (ops : OperatorRegistry) (room : Nat) (start : Int) :
    Nat → List Datum → Except Failure (List Constant)
  | _, [] => .ok []
  | index, d :: rest => do
    let s ← Section.ofDatum room s!"constant[{index}]" (some ["name", "type", "value", "comment"]) d
    let first ← ofSection ops (start + index) s
    let others ← ofItems ops room start (index + 1) rest
    return first :: others

/-- Reads a document whose faults name its path. The room limits how deep a value may nest that a
message shows. -/
def ofDocument (ops : OperatorRegistry) (room : Nat) (path : Option String) (start : Int)
    (document : Datum) : Except Failure (List Constant) :=
  let result : Except Failure (List Constant) := do
    let root ← Section.ofDatum room "<constants>" (some ["constant"]) document
    match root.find? "constant" with
    | none => return []
    | some (.array items) => ofItems ops root.room start 0 items
    | some _ => throw (root.entryFailure "constant" .expectedTables)
  result.mapError (Failure.map (·.attachPath path))

/-- Reads documents one after another behind constants that are already read. -/
def ofDocuments (ops : OperatorRegistry) (room : Nat) (read : List Constant) :
    List (Option String × Datum) → Except Failure (List Constant)
  | [] => .ok read
  | (path, document) :: rest => do
    let more ← ofDocument ops room path read.length document
    ofDocuments ops room (read ++ more) rest

end SharedConstants.Constant
