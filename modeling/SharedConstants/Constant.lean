import SharedConstants.Expr.Parser

/-!
# Constants

A declared constant has a name, possibly a type and a comment, and an expression for its
value. Its ordinal is its place among the declarations.
-/
namespace SharedConstants

/-- A declared constant. The source is the text its expression was read from, or empty. -/
structure Constant where
  name : String
  typeName : Option String
  expr : Expr
  comment : Option String := none
  ordinal : Int := 0
  source : String := ""
  deriving Inhabited

namespace Constant

def source? (c : Constant) : Option String := if c.source = "" then none else some c.source

/-- A constant whose value is given as text. -/
def ofText (ops : OperatorRegistry) (name : String) (typeName : Option String)
    (value : String) (comment : Option String) (ordinal : Int) : Except Failure Constant :=
  (Expr.parse ops value (some name)).map fun expr =>
    { name, typeName, expr, comment, ordinal, source := value }

/-- Constants in the order of their ordinals; those with equal ordinals keep their order. -/
def byOrdinal (constants : List Constant) : List Constant :=
  constants.mergeSort fun a b => a.ordinal ≤ b.ordinal

end Constant

end SharedConstants
