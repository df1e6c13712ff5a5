import SharedConstants.Decimal.Digits
import SharedConstants.Text.Blank

/-!
# Values

A constant is an integer or a boolean. Integers that the program computes or reads lie in
the signed 128-bit range.
-/
namespace SharedConstants

/-- The kind of a value. -/
inductive Kind
  | integer
  | boolean
  deriving DecidableEq, Repr

namespace Kind

def label : Kind → String
  | .integer => "integer"
  | .boolean => "boolean"

/-- The kind a document names, in full or shortened. -/
def ofText? (text : String) : Option Kind :=
  let key := Text.keyword text
  if key = "integer" ∨ key = "int" then some .integer
  else if key = "boolean" ∨ key = "bool" then some .boolean
  else none

end Kind

/-- The value of a constant or operand. -/
inductive Value
  | integer (n : Int)
  | boolean (b : Bool)
  deriving DecidableEq, Repr, Inhabited

namespace Value

def kind : Value → Kind
  | .integer _ => .integer
  | .boolean _ => .boolean

@[simp] theorem kind_integer (n : Int) : (Value.integer n).kind = .integer := rfl
@[simp] theorem kind_boolean (b : Bool) : (Value.boolean b).kind = .boolean := rfl

def isBoolean : Value → Bool
  | .boolean _ => true
  | .integer _ => false

/-- The number a value counts as; truth counts as one. -/
def number : Value → Int
  | .integer n => n
  | .boolean b => if b then 1 else 0

@[simp] theorem number_integer (n : Int) : (Value.integer n).number = n := rfl

/-- Whether a value counts as true; every number but zero does. -/
def truth : Value → Bool
  | .integer n => n != 0
  | .boolean b => b

@[simp] theorem truth_boolean (b : Bool) : (Value.boolean b).truth = b := rfl

/-- A value as value text spells it. -/
def spell : Value → List Char
  | .integer n => Decimal.spell n
  | .boolean true => ['t', 'r', 'u', 'e']
  | .boolean false => ['f', 'a', 'l', 's', 'e']

def toText (v : Value) : String := String.ofList v.spell

/-- The least integer of 128 bits. -/
def minInt128 : Int := -0x80000000000000000000000000000000

/-- The greatest integer of 128 bits. -/
def maxInt128 : Int := 0x7fffffffffffffffffffffffffffffff

/-- Whether an integer lies in the signed 128-bit range. -/
def inRange (n : Int) : Bool := minInt128 ≤ n && n ≤ maxInt128

theorem inRange_iff {n : Int} : inRange n = true ↔ minInt128 ≤ n ∧ n ≤ maxInt128 := by
  simp [inRange]

end Value

end SharedConstants
