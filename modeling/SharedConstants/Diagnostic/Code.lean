/-!
# Error codes

Every failure has a code. Its number names the stage of the work that failed, its kind is
the short stable name that reports show beside it.
-/
namespace SharedConstants

/-- The stage of the work at which a failure arises. -/
inductive Phase
  | config
  | parsing
  | resolution
  | evaluation
  | emission
  | driver
  deriving DecidableEq, Repr

def Phase.label : Phase → String
  | .config => "config"
  | .parsing => "syntax"
  | .resolution => "resolution"
  | .evaluation => "evaluation"
  | .emission => "emission"
  | .driver => "driver"

inductive Code
  | invalidConfig
  | invalidTemplate
  | malformedExpression
  | duplicateConstant
  | unknownReference
  | cyclicDependency
  | unknownType
  | invalidOperand
  | operatorType
  | arithmeticOverflow
  | divisionByZero
  | typeMismatch
  | unknownProfile
  | unknownTypeInProfile
  | importsNotSupported
  | typeRequired
  | formatterFailed
  deriving DecidableEq, Repr

namespace Code

def number : Code → Nat
  | .invalidConfig => 1
  | .invalidTemplate => 2
  | .malformedExpression => 1000
  | .duplicateConstant => 2000
  | .unknownReference => 2001
  | .cyclicDependency => 2002
  | .unknownType => 2003
  | .invalidOperand => 3000
  | .operatorType => 3001
  | .arithmeticOverflow => 3002
  | .divisionByZero => 3003
  | .typeMismatch => 3004
  | .unknownProfile => 4000
  | .unknownTypeInProfile => 4001
  | .importsNotSupported => 4002
  | .typeRequired => 4003
  | .formatterFailed => 5000

def kind : Code → String
  | .invalidConfig => "ConfigError"
  | .invalidTemplate => "TemplateError"
  | .malformedExpression => "SyntaxError"
  | .duplicateConstant => "DuplicateConstant"
  | .unknownReference => "UnknownReference"
  | .cyclicDependency => "CyclicDependency"
  | .unknownType => "UnknownType"
  | .invalidOperand => "InvalidOperand"
  | .operatorType => "OperatorTypeError"
  | .arithmeticOverflow => "ArithmeticOverflow"
  | .divisionByZero => "DivisionByZero"
  | .typeMismatch => "TypeMismatch"
  | .unknownProfile => "UnknownProfile"
  | .unknownTypeInProfile => "UnknownTypeInProfile"
  | .importsNotSupported => "ImportsNotSupported"
  | .typeRequired => "TypeRequired"
  | .formatterFailed => "FormatterError"

/-- The stage is the thousands of the number. -/
def phase (c : Code) : Phase :=
  match c.number / 1000 with
  | 0 => .config
  | 1 => .parsing
  | 2 => .resolution
  | 3 => .evaluation
  | 4 => .emission
  | _ => .driver

/-- The number as users see it, with four digits. -/
def text (c : Code) : String :=
  let digits := toString c.number
  "CGEN-" ++ String.ofList (List.replicate (4 - digits.length) '0') ++ digits

end Code

end SharedConstants
