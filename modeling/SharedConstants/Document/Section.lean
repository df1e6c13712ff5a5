import SharedConstants.Diagnostic

/-!
# Sections of a document

A section is a table together with its place in the document. Its entries are read by kind:
an entry of another kind is a fault, and so is a key that the section does not know. A null
counts as an absent entry, except where a table belongs.
-/
namespace SharedConstants

/-- A table at a place. The room tells how many calls may nest below one that shows a value of the
table. The calls that are under way when a message is worded differ in number by a few from place
to place; here all sections of a document have the same room. -/
structure Section where
  place : String
  entries : List (String × Datum)
  room : Nat

namespace Section

def failure (fault : ConfigFault) : Failure := .reported { fault := .config fault }

/-- Opens a table. Known keys are given where the section has a fixed set of them. -/
def ofDatum (room : Nat) (place : String) (known : Option (List String)) :
    Datum → Except Failure Section
  | .table entries =>
    match known with
    | none => .ok ⟨place, entries, room⟩
    | some keys =>
      let unknown := (entries.map Prod.fst).filter fun key => !keys.contains key
      if unknown.isEmpty then .ok ⟨place, entries, room⟩
      else .error (failure (.unknownKeys place (unknown.mergeSort (· ≤ ·))))
  | d => .error (failure (.notTable place d))

/-- The failure of an entry. Work is given up where its message cannot be worded. -/
def entryFailure (s : Section) (key : String) (fault : EntryFault) : Failure :=
  match fault.shown?.bind (Datum.obstacle? s.room) with
  | none => failure (.entry s.place key fault)
  | some obstacle => .ofObstacle obstacle

def find? (s : Section) (key : String) : Option Datum := s.entries.lookup key

/-- The section inside an entry, if there is such an entry. -/
def open? (s : Section) (key : String) (known : Option (List String)) :
    Except Failure (Option Section) :=
  match s.find? key with
  | none => .ok none
  | some d => (ofDatum s.room (s.place ++ "." ++ key) known d).map some

/-- An entry that holds a text. -/
def text? (s : Section) (key : String) : Except Failure (Option String) :=
  match s.find? key with
  | none | some .null => .ok none
  | some (.text t) => .ok (some t)
  | some d => .error (s.entryFailure key (.expectedString d))

/-- A text that must be there. -/
def text (s : Section) (key : String) : Except Failure String :=
  match s.text? key with
  | .error failure => .error failure
  | .ok (some t) => .ok t
  | .ok none => .error (s.entryFailure key .required)

/-- An entry that holds a boolean. -/
def switch? (s : Section) (key : String) : Except Failure (Option Bool) :=
  match s.find? key with
  | none | some .null => .ok none
  | some (.boolean b) => .ok (some b)
  | some d => .error (s.entryFailure key (.expectedSwitch d))

/-- A boolean that takes a default where there is no entry; a null stays unset. -/
def switchOr (s : Section) (key : String) (default : Bool) : Except Failure (Option Bool) :=
  match s.find? key with
  | none => .ok (some default)
  | some _ => s.switch? key

/-- An entry that holds an integer with a lower bound. -/
def integer? (s : Section) (key : String) (minimum : Int) : Except Failure (Option Int) :=
  match s.find? key with
  | none | some .null => .ok none
  | some (.integer n) =>
    if minimum ≤ n then .ok (some n) else .error (s.entryFailure key (.belowMinimum minimum n))
  | some d => .error (s.entryFailure key (.expectedInteger d))

/-- The texts of an array that holds nothing else. -/
def textsOf? : List Datum → Option (List String)
  | [] => some []
  | .text t :: rest => (textsOf? rest).map (t :: ·)
  | _ :: _ => none

/-- An entry that holds an array of texts. -/
def texts? (s : Section) (key : String) : Except Failure (Option (List String)) :=
  match s.find? key with
  | none | some .null => .ok none
  | some d =>
    match d with
    | .array items =>
      match textsOf? items with
      | some texts => .ok (some texts)
      | none => .error (s.entryFailure key (.expectedStrings d))
    | d => .error (s.entryFailure key (.expectedStrings d))

end Section

end SharedConstants
