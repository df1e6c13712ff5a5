/-!
# Slots of a profile

A profile has five places for a template. Each accepts a fixed set of parameters.
-/
namespace SharedConstants

/-- A place for a template in a profile. -/
inductive Slot
  | statement
  | importLine
  | comment
  | intro
  | outro
  deriving DecidableEq, Repr

namespace Slot

def label : Slot → String
  | .statement => "statement"
  | .importLine => "import"
  | .comment => "comment"
  | .intro => "intro"
  | .outro => "outro"

/-- The parameters that a slot provides, in alphabetical order. -/
def parameters : Slot → List String
  | .statement => ["name", "type", "value"]
  | .importLine => ["import"]
  | .comment => ["comment"]
  | .intro => []
  | .outro => []

end Slot

end SharedConstants
