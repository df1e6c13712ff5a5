import SharedConstants.FileSystem
import SharedConstants.Shell.Pattern

/-!
# Fields

A word with its parameters replaced is split into fields where separators stand in what was put
in. A field that is a pattern stands for the names of files that it accepts, if there are any.
-/
namespace SharedConstants.Shell

/-- A part of a word whose parameters are replaced. -/
inductive Spot
  /-- A character; those that were put in outside quotes may separate fields. -/
  | char (c : Char) (isQuoted isSplit : Bool)
  /-- An end of a field. -/
  | gap
  /-- Quotes, which make a field even where nothing stands between them. -/
  | hold

namespace Spot

/-- The spots of a text that is put in. -/
def ofValue (isQuoted : Bool) (cs : Octets) : List Spot :=
  if isQuoted then .hold :: cs.map (.char · true false)
  else cs.map (.char · false true)

def text (spots : List Spot) : Octets :=
  spots.filterMap fun
    | .char c .. => some c
    | _ => none

def pattern (spots : List Spot) : List PatternChar :=
  spots.filterMap fun
    | .char c isQuoted _ => some (c, isQuoted)
    | _ => none

end Spot

/-- Fields that are being made. -/
structure Splitting where
  /-- The fields that are complete, the last one first. -/
  complete : List (List PatternChar) := []
  /-- The field that is open, its last character first. -/
  current : List PatternChar := []
  isHeld : Bool := false
  /-- Whether the last field ended at a blank. -/
  isBehindBlank : Bool := false

namespace Splitting

def isOpen (s : Splitting) : Bool := s.isHeld || !s.current.isEmpty

/-- Ends the field that is open. -/
def close (s : Splitting) (isBehindBlank : Bool) : Splitting :=
  { complete := s.current.reverse :: s.complete, isBehindBlank }

def add (separators : Octets) (s : Splitting) : Spot → Splitting
  | .hold => { s with isHeld := true, isBehindBlank := false }
  | .gap => if s.isOpen then s.close false else { s with isBehindBlank := false }
  | .char c isQuoted isSplit =>
    if isSplit && !isQuoted && separators.contains c then
      if c = ' ' ∨ c = '\t' ∨ c = '\n' then if s.isOpen then s.close true else s
      else if !s.isOpen && s.isBehindBlank then { s with isBehindBlank := false }
      else s.close false
    else { s with current := (c, isQuoted) :: s.current, isBehindBlank := false }

def fields (separators : Octets) (spots : List Spot) : List (List PatternChar) :=
  let s := spots.foldl (add separators) {}
  (if s.isOpen then s.close false else s).complete.reverse

end Splitting

namespace Pattern

/-- The parts of a pattern between slashes. -/
def parts : List PatternChar → List (List PatternChar)
  | [] => [[]]
  | c :: cs =>
    if c.1 = '/' then [] :: parts cs
    else
      match parts cs with
      | [] => [[c]]
      | part :: rest => (c :: part) :: rest

/-- The names in a directory that a pattern accepts. Names that start with a dot are accepted
only where the pattern shows it. -/
def names (fs : FileSystem) (directory : Octets) (part : List PatternChar) : List Octets :=
  let shown := if directory = [] then ['.'] else directory
  match fs.locateText (Octets.toText shown) with
  | .error _ => []
  | .ok l =>
    if !(fs.node? l).any Node.isDirectory then []
    else
      let showsDot : Bool := (part.head?.map (·.1)) = some '.'
      let found := [".", ".."] ++ fs.entries l
      (found.map Octets.ofText).filter fun name =>
        (showsDot || name.head? ≠ some '.') && accepts (ofChars part) name

/-- The paths that parts of a pattern stand for, behind a directory. -/
def paths (fs : FileSystem) : Octets → List (List PatternChar) → List Octets
  | front, [] =>
    match fs.locateText (Octets.toText front) with
    | .ok l => if (fs.node? l).isSome then [front] else []
    | .error _ => []
  | front, part :: rest =>
    let ends : Octets := if rest.isEmpty then [] else ['/']
    if isOpen (ofChars part) then
      (names fs front part).flatMap fun name => paths fs (front ++ name ++ ends) rest
    else paths fs (front ++ part.map (·.1) ++ ends) rest

/-- The texts that a field stands for. -/
def expand (fs : FileSystem) (field : List PatternChar) : List Octets :=
  let plain := field.map (·.1)
  if isOpen (ofChars field) then
    match paths fs [] (parts field) with
    | [] => [plain]
    | found => found.mergeSort Octets.le
  else [plain]

end Pattern

end SharedConstants.Shell
