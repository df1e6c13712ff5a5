import SharedConstants.Diagnostic.Fault

/-!
# Diagnostics

A diagnostic is a fault with as much of its place as is known: the constant and the profile
that were at work, the value text and the part of it at fault, the document. The place is
filled in while the failure travels outwards; what is already known stays.
-/
namespace SharedConstants

/-- A part of a text, by the offsets of its first character and of the one behind it. -/
structure Span where
  start : Nat
  stop : Nat
  deriving DecidableEq, Repr, Inhabited

structure Diagnostic where
  fault : Fault
  code : Code := fault.code
  constant : Option String := none
  profile : Option String := none
  source : Option String := none
  span : Option Span := none
  path : Option String := none
  hint : String := ""
  notes : List String := []

namespace Diagnostic

def message (d : Diagnostic) : String := d.fault.message

/-- Fills in the parts of a place that are still unknown. -/
def attach (d : Diagnostic) (constant profile source : Option String) (span : Option Span) :
    Diagnostic :=
  { d with
    constant := d.constant <|> constant
    profile := d.profile <|> profile
    source := d.source <|> source
    span := d.span <|> span }

def attachConstant (d : Diagnostic) (name : String) : Diagnostic :=
  d.attach (some name) none none none

def attachProfile (d : Diagnostic) (name : String) : Diagnostic :=
  d.attach none (some name) none none

/-- Names the document of a fault, if the fault is one of documents. -/
def attachPath (d : Diagnostic) (path : Option String) : Diagnostic :=
  match d.fault with
  | .config _ | .template .. => { d with path := d.path <|> path }
  | _ => d

def addNote (d : Diagnostic) (note : String) : Diagnostic :=
  { d with notes := d.notes ++ [note] }

/-- A repeated name is its own place. -/
def duplicateConstant (name : String) : Diagnostic :=
  { fault := .duplicateConstant name, constant := some name }

/-- A cycle is reported at the constant it starts from. -/
def cyclicDependency (cycle : List String) : Diagnostic :=
  { fault := .cyclicDependency cycle, constant := cycle.head? }

/-- A missing profile comes with the names of those that exist. -/
def unknownProfile (name : String) (known : List String) : Diagnostic :=
  { fault := .unknownProfile name
    profile := some name
    hint :=
      if known.isEmpty then ""
      else "registered profiles: " ++ Datum.commaSeparated (known.mergeSort (· ≤ ·)) }

def location (d : Diagnostic) : String :=
  let parts := (d.profile.map fun p => "profile " ++ Text.quoted p).toList ++
    (d.constant.map fun c => "constant " ++ Text.quoted c).toList
  match d.path, parts with
  | none, [] | some "", [] => "<constgen>"
  | none, parts | some "", parts => Datum.commaSeparated parts
  | some path, [] => path
  | some path, parts => path ++ ": " ++ Datum.commaSeparated parts

def repeated (n : Nat) (c : Char) : String := String.ofList (List.replicate n c)

/-- The value text and a line of carets under the part at fault. -/
def excerpt (d : Diagnostic) : List String :=
  match d.source with
  | none | some "" => []
  | some source =>
    ("    " ++ source) ::
      match d.span with
      | none => []
      | some span =>
        ["    " ++ repeated span.start ' ' ++ repeated (max 1 (span.stop - span.start)) '^']

def reportLines (d : Diagnostic) : List String :=
  [s!"{d.location}: error: {d.message} [{d.code.text} {d.code.kind}]"] ++ d.excerpt ++
    d.notes.map ("note: " ++ ·) ++ (if d.hint = "" then [] else ["hint: " ++ d.hint])

def report (d : Diagnostic) : String := "\n".intercalate d.reportLines

end Diagnostic

/-- Why work on a document or a value text stops. Besides faults that are reported there are
numbers too long to be read or shown and values that nest too deep to be shown, on which the work
is given up. -/
inductive Failure
  | reported (diagnostic : Diagnostic)
  | oversized
  | tooDeep

/-- Changes what a failure reports, if it reports anything. -/
def Failure.map (f : Diagnostic → Diagnostic) : Failure → Failure
  | .reported d => .reported (f d)
  | .oversized => .oversized
  | .tooDeep => .tooDeep

def Failure.ofObstacle : Datum.Obstacle → Failure
  | .tooLong => .oversized
  | .tooDeep => .tooDeep

end SharedConstants
