/-!
# Paths

A path is a sequence of names, absolute or relative to the working directory. Empty names and
names of a single dot drop out when a path is read, so a path has one spelling.
-/
namespace SharedConstants

/-- A path to a file. The root is empty for relative paths; two slashes in front are a root
of their own, more than two count as one. -/
structure FilePath where
  root : String := ""
  parts : List String := []
  deriving DecidableEq, Repr, Inhabited

namespace FilePath

def splitSlashes : List Char → List (List Char)
  | [] => [[]]
  | c :: cs =>
    if c = '/' then [] :: splitSlashes cs
    else
      match splitSlashes cs with
      | [] => [[c]]
      | part :: parts => (c :: part) :: parts

/-- The root that a text names. -/
def rootOf : List Char → String
  | '/' :: '/' :: '/' :: _ => "/"
  | '/' :: '/' :: _ => "//"
  | '/' :: _ => "/"
  | _ => ""

def ofText (text : String) : FilePath where
  root := rootOf text.toList
  parts := ((splitSlashes text.toList).filter fun p => p ≠ [] ∧ p ≠ ['.']).map String.ofList

/-- The text of a path. The path to the working directory itself is a single dot. -/
def toText (p : FilePath) : String :=
  if p.root = "" ∧ p.parts = [] then "." else p.root ++ "/".intercalate p.parts

/-- The path that a text names as seen from a directory. -/
def child (p : FilePath) (text : String) : FilePath :=
  let q := ofText text
  if q.root = "" then ⟨p.root, p.parts ++ q.parts⟩ else q

/-- The last name of a path, or nothing for a root. -/
def fileName (p : FilePath) : String := p.parts.getLast?.getD ""

/-- Whether a text has the character that no path may have. -/
def hasNull (text : String) : Bool := text.toList.contains '\x00'

end FilePath

end SharedConstants
