import SharedConstants.Toml.Scan

/-!
# Trees under construction

The tables of a document grow while it is read: a header declares a table, an entry with a
dotted key makes the tables on its way. A table can be declared once, and not at all after
its namesakes were made by dotted keys under another header. Values never change.
-/
namespace SharedConstants.Toml

/-- How a table came to be: on the way to another table, by a declaration, or by dotted keys
under the header of a given number. -/
inductive Origin
  | implied
  | declared
  | dotted (header : Nat)
  deriving DecidableEq, Repr

/-- What a key leads to. An array of tables keeps its last table apart; only that one grows. -/
inductive Growth
  | value (d : Datum)
  | table (origin : Origin) (entries : List (String × Growth))
  | tables (earlier : List (List (String × Growth))) (last : List (String × Growth))
  deriving Inhabited

/-- The entries of a table, in the order of their first appearance. -/
abbrev Entries := List (String × Growth)

/-- A key by its parts. -/
abbrev Key := List String

/-- Changes what a key leads to, or puts something there. -/
def Entries.change (key : String) (f : Option Growth → Option Growth) :
    Entries → Option Entries
  | [] => (f none).map fun g => [(key, g)]
  | (k, g) :: rest =>
    if k = key then (f (some g)).map fun g => (k, g) :: rest
    else (Entries.change key f rest).map ((k, g) :: ·)

/-- Changes the table that a key leads to; tables that are missing on the way are made. -/
def descend (f : Entries → Option Entries) : Key → Entries → Option Entries
  | [], entries => f entries
  | part :: key, entries =>
    Entries.change part (fun
      | none => (descend f key []).map (.table .implied)
      | some (.table origin inner) => (descend f key inner).map (.table origin)
      | some (.tables earlier last) => (descend f key last).map (.tables earlier)
      | some (.value _) => none) entries

/-- Whether a table is closed to dotted keys under a header. -/
def Origin.isClosed (header : Nat) : Origin → Bool
  | .implied => false
  | .declared => true
  | .dotted h => h ≠ header

/-- Changes the table that a dotted key leads to, under the header of a given number. -/
def descendDotted (header : Nat) (f : Entries → Option Entries) :
    Key → Entries → Option Entries
  | [], entries => f entries
  | part :: key, entries =>
    Entries.change part (fun
      | none => (descendDotted header f key []).map (.table (.dotted header))
      | some (.table origin inner) =>
        if origin.isClosed header then none
        else (descendDotted header f key inner).map (.table (.dotted header))
      | some (.tables ..) | some (.value _) => none) entries

/-- Adds a value under a key that is still free. -/
def addValue (key : String) (d : Datum) : Entries → Option Entries :=
  Entries.change key fun
    | none => some (.value d)
    | some _ => none

/-- Adds the value of a dotted key to the table that a header leads to. -/
def addEntry (number : Nat) (header : Key) (key : Key) (d : Datum) (root : Entries) :
    Option Entries :=
  match key.getLast? with
  | none => none
  | some last => descend (descendDotted number (addValue last d) key.dropLast) header root

/-- Declares a table. -/
def declareTable (number : Nat) (key : Key) (root : Entries) : Option Entries :=
  match key.getLast? with
  | none => none
  | some last =>
    descend (Entries.change last fun
      | none => some (.table .declared [])
      | some (.table origin inner) =>
        if origin.isClosed number then none else some (.table .declared inner)
      | some (.tables ..) | some (.value _) => none) key.dropLast root

/-- Declares another table of an array of tables. -/
def declareItem (key : Key) (root : Entries) : Option Entries :=
  match key.getLast? with
  | none => none
  | some last =>
    descend (Entries.change last fun
      | none => some (.tables [] [])
      | some (.tables earlier inner) => some (.tables (earlier ++ [inner]) [])
      | some (.table ..) | some (.value _) => none) key.dropLast root

mutual

/-- The datum that has grown. -/
def Growth.toDatum : Growth → Datum
  | .value d => d
  | .table _ entries => .table (entriesData entries)
  | .tables earlier last => .array (tablesData earlier ++ [.table (entriesData last)])

def entriesData : List (String × Growth) → List (String × Datum)
  | [] => []
  | (key, g) :: rest => (key, g.toDatum) :: entriesData rest

def tablesData : List (List (String × Growth)) → List Datum
  | [] => []
  | entries :: rest => .table (entriesData entries) :: tablesData rest

end

end SharedConstants.Toml
