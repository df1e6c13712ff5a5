import SharedConstants.Value
import SharedConstants.Text.Quoted

/-!
# Semantic types

A semantic type names the meaning of a constant. It has a kind, and an integer type also a
width and a sign that determine its range.
-/
namespace SharedConstants

/-- A type that a constant may declare. Width and sign matter only for integers. A sign that
a document leaves blank counts as unsigned. -/
structure SemanticType where
  name : String
  kind : Kind
  bits : Int := 64
  signed : Option Bool := some false
  bits_bounds : kind = .integer → 1 ≤ bits ∧ bits ≤ 128 := by decide
  deriving DecidableEq

namespace SemanticType

/-- Builds a type, unless an integer type would have a width outside 1 to 128. -/
def make? (name : String) (kind : Kind) (bits : Int) (signed : Option Bool) :
    Option SemanticType :=
  if h : kind = .integer → 1 ≤ bits ∧ bits ≤ 128 then some ⟨name, kind, bits, signed, h⟩
  else none

def isSigned (t : SemanticType) : Bool := t.signed == some true

def minValue (t : SemanticType) : Int :=
  if t.isSigned then -Nat.pow 2 (t.bits - 1).toNat else 0

def maxValue (t : SemanticType) : Int :=
  if t.isSigned then Nat.pow 2 (t.bits - 1).toNat - 1 else Nat.pow 2 t.bits.toNat - 1

def contains (t : SemanticType) (n : Int) : Bool :=
  t.kind = .integer && t.minValue ≤ n && n ≤ t.maxValue

def describe (t : SemanticType) : String :=
  match t.kind with
  | .boolean => t.name ++ " (boolean)"
  | .integer =>
    let sign := if t.isSigned then "signed" else "unsigned"
    s!"{t.name} ({sign} {t.bits}-bit integer)"

def integer (name : String) (bits : Int) (signed : Bool)
    (h : 1 ≤ bits ∧ bits ≤ 128 := by decide) : SemanticType :=
  ⟨name, .integer, bits, some signed, fun _ => h⟩

/-- The types that need no declaration. -/
def builtin : List SemanticType :=
  [integer "u8" 8 false, integer "i8" 8 true, integer "u16" 16 false, integer "i16" 16 true,
    integer "u32" 32 false, integer "i32" 32 true, integer "u64" 64 false,
    integer "i64" 64 true, integer "u128" 128 false, integer "i128" 128 true,
    integer "usize" 64 false, integer "isize" 64 true, { name := "bool", kind := .boolean }]

/-- The type that an undeclared name stands for when typing is lenient. -/
def undeclared (name : String) : SemanticType := integer name 64 false

end SemanticType

end SharedConstants
