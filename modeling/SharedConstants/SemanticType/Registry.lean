import SharedConstants.Diagnostic

/-!
# Type registries

A registry knows the built-in types and those that documents declare. A declaration takes
the place of a type of the same name. A name without a type is an error under strict typing
and an unsigned type of 64 bits otherwise.
-/
namespace SharedConstants

structure TypeRegistry where
  types : List SemanticType := SemanticType.builtin
  strict : Bool := false

namespace SemanticType

/-- Why a value is none of the type's, if it is none. -/
def misfit? (t : SemanticType) (v : Value) : Option Fault :=
  if v.kind ≠ t.kind then some (.mismatch (.ofType t.name t.kind v))
  else
    match v with
    | .boolean _ => none
    | .integer n => if t.contains n then none else some (.overflow (.outOfType n t))

def check (t : SemanticType) (v : Value) : Except Diagnostic Unit :=
  match t.misfit? v with
  | none => .ok ()
  | some fault => .error { fault }

end SemanticType

namespace TypeRegistry

/-- Adds a type to a list of types with distinct names, in the place of its namesake if
there is one. -/
def declare (types : List SemanticType) (t : SemanticType) : List SemanticType :=
  if types.any (·.name == t.name) then types.map fun u => if u.name = t.name then t else u
  else types ++ [t]

/-- The built-in types with declarations added. -/
def ofDeclared (declared : List SemanticType) (strict : Bool) : TypeRegistry :=
  ⟨declared.foldl declare SemanticType.builtin, strict⟩

/-- The type that a name was declared with. -/
def find? (r : TypeRegistry) (name : String) : Option SemanticType :=
  r.types.find? (·.name == name)

/-- The type that a constant means by a name. -/
def lookup (r : TypeRegistry) (name : String) : Except Diagnostic SemanticType :=
  match r.find? name with
  | some t => .ok t
  | none =>
    if r.strict then .error { fault := .unknownType name }
    else .ok (SemanticType.undeclared name)

end TypeRegistry

/-- A value of a kind from a datum of a document. -/
def Value.ofDatum (kind : Kind) (d : Datum) : Except Diagnostic Value :=
  match kind, d with
  | .boolean, .boolean b => .ok (.boolean b)
  | .integer, .integer n => .ok (.integer n)
  | kind, d => .error { fault := .mismatch (.expected kind d) }

/-- Checks that an integer lies in the signed 128-bit range. -/
def Value.checkRange (what : String) (n : Int) : Except Fault Int :=
  if inRange n then .ok n else .error (.overflow (.outside what n))

end SharedConstants
