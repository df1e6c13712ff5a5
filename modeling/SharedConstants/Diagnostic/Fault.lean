import SharedConstants.Diagnostic.Code
import SharedConstants.Document.Datum
import SharedConstants.Operator.Arity
import SharedConstants.SemanticType
import SharedConstants.Template.Slot

/-!
# Causes of failure

A fault says what went wrong, without saying where. Faults are grouped by the stage that
finds them; each group may also hold a fault whose wording its caller states. The messages
of all faults are worded here.
-/
namespace SharedConstants

open Text (quoted)

inductive ExpressionFault
  | empty
  | tooDeep (limit : Nat)
  | unmatchedClosing
  | unmatchedOpening
  | unexpectedEnd
  | emptyApplication
  | operatorExpected
  | operandsUnseparated
  | unexpected (token : String)
  | unknownOperator (name : String)
  | operandCount (operator : String) (arity : Arity) (given : Nat)
  | stated (text : String)

def ExpressionFault.message : ExpressionFault → String
  | .empty => "Empty expressions are not allowed"
  | .tooDeep limit => s!"Expression nests deeper than {limit} levels"
  | .unmatchedClosing => "Unmatched closing parenthesis"
  | .unmatchedOpening => "Unmatched opening parenthesis"
  | .unexpectedEnd => "Unexpected end of expression"
  | .emptyApplication => "Empty applications are not allowed"
  | .operatorExpected => "Only operators can be applied, expected an operator name"
  | .operandsUnseparated => "Operands must be separated by whitespace"
  | .unexpected token => s!"Unexpected {quoted token}"
  | .unknownOperator name => s!"Unknown operator {quoted name}"
  | .operandCount operator arity given =>
    s!"Operator {quoted operator} takes {arity.text} operand(s), got {given}"
  | .stated text => text

inductive OperandFault
  | count (arity : Arity) (given : Nat)
  | kind (position : Nat) (accepted : List Kind) (operand : Value)
  | mixedKinds (left right : Kind)
  | missing
  | noChoice (operator : String)
  | unpaired (given : Nat)
  | stated (text : String)

/-- The wording of a fault of operands. The counts that a meaning cannot work with are only met
under an operator that was registered with other counts than the meaning has. -/
def OperandFault.message : OperandFault → String
  | .count arity given => s!"takes {arity.text} operand(s), got {given}"
  | .kind position accepted operand =>
    let expected := " or ".intercalate (accepted.map Kind.label)
    s!"operand {position} must be {expected}, got {operand.kind.label} {operand.toText}"
  | .mixedKinds left right =>
    s!"operands must be of the same kind, got {left.label} and {right.label}"
  | .missing => "an operand is missing"
  | .noChoice operator => s!"{operator}() arg is an empty sequence"
  | .unpaired given =>
    if given < 2 then s!"not enough values to unpack (expected 2, got {given})"
    else "too many values to unpack (expected 2)"
  | .stated text => text

/-- Why an operator cannot use an operand of the right kind. -/
inductive EvaluationFault
  | negativeShift (operator : String) (count : Int)
  | stated (text : String)

def EvaluationFault.message : EvaluationFault → String
  | .negativeShift operator count =>
    s!"Operator {quoted operator}: shift count must be non-negative, got {count}"
  | .stated text => text

def Value.toDatum : Value → Datum
  | .integer n => .integer n
  | .boolean b => .boolean b

/-- Which integer left its range. -/
inductive OverflowFault
  | outside (what : String) (n : Int)
  | shift (value : Value) (count : Int)
  | outOfType (n : Int) (type : SemanticType)
  | stated (text : String)

def OverflowFault.message : OverflowFault → String
  | .outside what n => s!"{what} {n} does not fit in a signed 128-bit integer"
  | .shift value count =>
    let shown := value.toDatum.spell
    s!"result of 'shl' does not fit in a signed 128-bit integer ({shown} << {count})"
  | .outOfType n type =>
    s!"Value {n} is out of range for {type.describe} [{type.minValue}, {type.maxValue}]"
  | .stated text => text

inductive MismatchFault
  | expected (kind : Kind) (got : Datum)
  | ofType (typeName : String) (kind : Kind) (got : Value)
  | stated (text : String)

def MismatchFault.message : MismatchFault → String
  | .expected .boolean got => s!"Expected a boolean, got {got.spell}"
  | .expected .integer got => s!"Expected an integer, got {got.spell}"
  | .ofType typeName kind got =>
    s!"Type {quoted typeName} expects a {kind.label} value, got {got.kind.label} {got.toText}"
  | .stated text => text

/-- What is wrong with one entry of a table. -/
inductive EntryFault
  | required
  | expectedString (got : Datum)
  | expectedSwitch (got : Datum)
  | expectedInteger (got : Datum)
  | expectedStrings (got : Datum)
  | expectedValue (got : Datum)
  | expectedBooleanTexts
  | expectedTables
  | belowMinimum (minimum got : Int)
  | unknownRadix (text : String)
  | unknownKind (text : String)
  | bitsOutOfBounds (typeName : String) (bits : Int)
  | noCommand
  | invalidIdentifier (name : String)
  | oversized

/-- The radix names of documents, in alphabetical order. -/
def radixNames : List String :=
  ["bin", "binary", "dec", "decimal", "hex", "hexadecimal", "oct", "octal"]

def unknownRadixText (text : String) : String :=
  s!"unknown radix {quoted text} (expected one of: {Datum.commaSeparated radixNames})"

def unknownKindText (text : String) : String := s!"unknown primitive kind {quoted text}"

/-- What is said in place of a message that would show too long a number. -/
def oversizedText : String :=
  s!"Exceeds the limit ({Datum.digitLimit} digits) for integer string conversion; " ++
    "use sys.set_int_max_str_digits() to increase the limit"

/-- A width is named in the message unless it is too long to be shown. -/
def bitsText (typeName : String) (bits : Int) : String :=
  if Datum.isShowable bits then
    s!"type {quoted typeName}: bits must be between 1 and 128, got {bits}"
  else oversizedText

def EntryFault.message : EntryFault → String
  | .required => "is required"
  | .expectedString got => s!"expected a string, got {got.spell}"
  | .expectedSwitch got => s!"expected true or false, got {got.spell}"
  | .expectedInteger got => s!"expected an integer, got {got.spell}"
  | .expectedStrings got => s!"expected a list of strings, got {got.spell}"
  | .expectedValue got => s!"expected a string, integer or boolean, got {got.spell}"
  | .expectedBooleanTexts =>
    "expected [true-text, false-text] or \x7btrue = ..., false = ...\x7d"
  | .expectedTables => "expected an array of tables ([[constant]])"
  | .belowMinimum minimum got => s!"must be at least {minimum}, got {got}"
  | .unknownRadix text => unknownRadixText text
  | .unknownKind text => unknownKindText text
  | .bitsOutOfBounds typeName bits => bitsText typeName bits
  | .noCommand => "must name a command"
  | .invalidIdentifier name => s!"{quoted name} is not a valid identifier"
  | .oversized => oversizedText

/-- The value that a message shows in full. -/
def EntryFault.shown? : EntryFault → Option Datum
  | .expectedString got | .expectedSwitch got | .expectedInteger got | .expectedStrings got
  | .expectedValue got => some got
  | .belowMinimum _ got => some (.integer got)
  | _ => none

/-- What is wrong with a document. Places are dotted paths. -/
inductive ConfigFault
  | malformed
  | notTable (place : String) (got : Datum)
  | unknownKeys (place : String) (keys : List String)
  | entry (place key : String) (fault : EntryFault)
  | stated (text : String)

def ConfigFault.message : ConfigFault → String
  | .malformed => "invalid TOML: malformed document"
  | .notTable place got => s!"{place}: expected a table, got {got.typeName}"
  | .unknownKeys place keys =>
    s!"{place}: unknown key(s) {Datum.commaSeparated (keys.map quoted)}"
  | .entry place key fault => s!"{place}.{key}: {fault.message}"
  | .stated text => text

inductive TemplateFault
  | invalidPlaceholder (slot : Option Slot) (column : Nat)
  | unknownParameters (slot : Slot) (names : List String)
  | missingParameter (name : String)
  | stated (text : String)

/-- Parameters as templates write them. -/
def parameterList (names : List String) : String :=
  Datum.commaSeparated (names.map ("$" ++ ·))

def TemplateFault.message : TemplateFault → String
  | .invalidPlaceholder slot column =>
    let place := match slot with
      | none => ""
      | some s => s.label ++ " template: "
    s!"{place}Invalid placeholder at column {column}: use $$ for a literal '$'"
  | .unknownParameters slot names =>
    let accepted := if slot.parameters.isEmpty then "none" else parameterList slot.parameters
    s!"{slot.label} template uses unknown parameter(s) {parameterList names} " ++
      s!"(accepted: {accepted})"
  | .missingParameter name => s!"Missing template parameter ${name}"
  | .stated text => text

inductive FormatterFault
  | notFound
  | timedOut (seconds : Float)
  | notStarted (reason : String)
  | exited (status : Int) (detail : Option String)
  | stated (text : String)

def FormatterFault.message (command : List String) : FormatterFault → String
  | .notFound => s!"Formatter {quoted (command.headD default)} not found"
  | .timedOut seconds =>
    let limit := Decimal.Layout.duration.write seconds
    s!"Formatter {quoted (command.headD default)} timed out after {limit}s"
  | .notStarted reason =>
    s!"Formatter {quoted (command.headD default)} could not be started: {reason}"
  | .exited status detail =>
    let suffix := match detail with
      | none => ""
      | some line => ": " ++ line
    s!"Formatter {quoted (command.headD default)} exited with status {status}{suffix}"
  | .stated text => text

/-- What happens in place of a report. -/
inductive Breakdown
  | operandMissing
  | unshown (obstacle : Datum.Obstacle)
  | stated (text : String)
  deriving DecidableEq, Repr

inductive Fault
  | general (text : String)
  | config (fault : ConfigFault)
  | template (text : String) (fault : TemplateFault)
  | expression (fault : ExpressionFault)
  | resolution (text : String)
  | duplicateConstant (name : String)
  | unknownReference (name : String)
  | cyclicDependency (cycle : List String)
  | unknownType (name : String)
  | evaluation (fault : EvaluationFault)
  | operand (operator : String) (fault : OperandFault)
  | overflow (fault : OverflowFault)
  | divisionByZero (operator : String)
  | mismatch (fault : MismatchFault)
  | emission (text : String)
  | unknownProfile (name : String)
  | unknownTypeInProfile (typeName : String)
  | importsNotSupported
  | typeRequired
  | formatter (command : List String) (fault : FormatterFault)

namespace Fault

def code : Fault → Code
  | .general _ => .invalidConfig
  | .config _ => .invalidConfig
  | .template .. => .invalidTemplate
  | .expression _ => .malformedExpression
  | .resolution _ => .unknownReference
  | .duplicateConstant _ => .duplicateConstant
  | .unknownReference _ => .unknownReference
  | .cyclicDependency _ => .cyclicDependency
  | .unknownType _ => .unknownType
  | .evaluation _ => .invalidOperand
  | .operand .. => .operatorType
  | .overflow _ => .arithmeticOverflow
  | .divisionByZero _ => .divisionByZero
  | .mismatch _ => .typeMismatch
  | .emission _ => .unknownProfile
  | .unknownProfile _ => .unknownProfile
  | .unknownTypeInProfile _ => .unknownTypeInProfile
  | .importsNotSupported => .importsNotSupported
  | .typeRequired => .typeRequired
  | .formatter .. => .formatterFailed

def message : Fault → String
  | .general text | .resolution text | .emission text => text
  | .config fault => fault.message
  | .template _ fault => fault.message
  | .expression fault => fault.message
  | .duplicateConstant name => s!"Duplicate constant definition {quoted name}"
  | .unknownReference name => s!"Unknown reference {quoted name}"
  | .cyclicDependency cycle =>
    "Cyclic dependency: " ++ " -> ".intercalate (cycle ++ cycle.take 1)
  | .unknownType name => s!"Unknown type {quoted name}"
  | .evaluation fault => fault.message
  | .operand operator fault => s!"Operator {quoted operator}: {fault.message}"
  | .overflow fault => fault.message
  | .divisionByZero operator => s!"Division by zero in {quoted operator}"
  | .mismatch fault => fault.message
  | .unknownProfile name => s!"Unknown profile {quoted name}"
  | .unknownTypeInProfile typeName => s!"No formatting rule for type {quoted typeName}"
  | .importsNotSupported =>
    "Profile does not specify import syntax, but imports are required"
  | .typeRequired => "Profile requires types, but the constant does not declare one"
  | .formatter command fault => fault.message command

/-- The values that a message shows in full. -/
def shown : Fault → List Datum
  | .config (.entry _ _ fault) => fault.shown?.toList
  | .operand _ (.kind _ _ v) => [v.toDatum]
  | .evaluation (.negativeShift _ count) => [.integer count]
  | .overflow (.outside _ n) | .overflow (.outOfType n _) => [.integer n]
  | .overflow (.shift value count) => [value.toDatum, .integer count]
  | .mismatch (.expected _ got) => [got]
  | .mismatch (.ofType _ _ got) => [got.toDatum]
  | _ => []

/-- Why a fault is none that can be reported: a meaning was given operands in a number that it
has no use for, or the message would show a value that cannot be shown. Readers of documents and
of value texts give up there. Elsewhere the values of a run are too small for that: an integer of
more digits than can be shown only gets into an expression that is built by hand. -/
def breakdown? (room : Nat) : Fault → Option Breakdown
  | .operand _ .missing => some .operandMissing
  | .operand _ (.noChoice op) => some (.stated (OperandFault.noChoice op).message)
  | .operand _ (.unpaired given) => some (.stated (OperandFault.unpaired given).message)
  | fault => (fault.shown.findSome? (Datum.obstacle? room)).map Breakdown.unshown

end Fault

end SharedConstants
