import SharedConstants.Diagnostic.Fault

/-!
# Misuse

Faults of a caller that builds registries, types or texts by hand. They concern no document,
so they are no diagnostics.
-/
namespace SharedConstants

/-- A request that cannot be met, whatever the documents say. -/
inductive Misuse
  | operatorTaken (name : String)
  | profileTaken (name : String)
  | bitsOutOfBounds (typeName : String) (bits : Int)
  | unknownRadix (text : String)
  | unknownKind (text : String)
  | invalidPlaceholder (line column : Nat)
  deriving DecidableEq, Repr

def Misuse.message : Misuse → String
  | .operatorTaken name => s!"operator {Text.quoted name} is already registered"
  | .profileTaken name => s!"profile {Text.quoted name} registered twice"
  | .bitsOutOfBounds typeName bits => bitsText typeName bits
  | .unknownRadix text => unknownRadixText text
  | .unknownKind text => unknownKindText text
  | .invalidPlaceholder line column =>
    s!"Invalid placeholder in string: line {line}, col {column}"

end SharedConstants
