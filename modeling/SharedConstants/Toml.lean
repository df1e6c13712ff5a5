import SharedConstants.Toml.Value

/-!
# Documents

A document is a sequence of lines: headers of tables and of tables in arrays, and entries
that belong to the table of the header above them. Comments and blank lines may stand
anywhere between them.
-/
namespace SharedConstants.Toml

/-- A document as far as it is read: its tables, the table that entries go to, and the number
of headers so far. -/
structure Progress where
  root : Entries := []
  header : Key := []
  number : Nat := 0

/-- Reads a header behind its opening bracket. -/
def takeTableHeader (p : Progress) (fuel : Nat) (cs : List Char) :
    Except Rejection (Progress × List Char) := do
  let (key, rest) ← orMalformed (takeKey fuel (skipBlanks cs))
  let root ← orMalformed (declareTable (p.number + 1) key p.root)
  match rest with
  | ']' :: rest => return (⟨root, key, p.number + 1⟩, rest)
  | _ => .error .malformed

/-- Reads a header of an array of tables behind its opening brackets. -/
def takeItemHeader (p : Progress) (fuel : Nat) (cs : List Char) :
    Except Rejection (Progress × List Char) := do
  let (key, rest) ← orMalformed (takeKey fuel (skipBlanks cs))
  let root ← orMalformed (declareItem key p.root)
  match rest with
  | ']' :: ']' :: rest => return (⟨root, key, p.number + 1⟩, rest)
  | _ => .error .malformed

def takeEntry (room : Nat) (p : Progress) (fuel : Nat) (cs : List Char) :
    Except Rejection (Progress × List Char) := do
  let (key, rest) ← takeKeyEquals fuel cs
  let (d, rest) ← takeValue room fuel rest
  let root ← orMalformed (addEntry p.number p.header key d p.root)
  return ({ p with root }, rest)

/-- Reads what a line holds besides blanks and a comment. -/
def takeStatement (room : Nat) (p : Progress) (fuel : Nat) (cs : List Char) :
    Except Rejection (Progress × List Char) :=
  match cs with
  | [] | '\n' :: _ | '#' :: _ => .ok (p, cs)
  | '[' :: '[' :: rest => takeItemHeader p fuel rest
  | '[' :: rest => takeTableHeader p fuel rest
  | cs => takeEntry room p fuel cs

/-- Reads lines. The fuel bounds their number. -/
def takeLines (room : Nat) : Nat → Progress → List Char → Except Rejection Progress
  | 0, _, _ => .error .malformed
  | fuel + 1, p, cs => do
    let (p, rest) ← takeStatement room p (cs.length + 1) (skipBlanks cs)
    let rest ← orMalformed (skipComment (skipBlanks rest))
    match rest with
    | [] => return p
    | '\n' :: rest => takeLines room fuel p rest
    | _ => .error .malformed

/-- A carriage return in front of a line feed belongs to the line end. -/
def joinLineEnds : List Char → List Char
  | [] => []
  | '\x0d' :: '\n' :: cs => '\n' :: joinLineEnds cs
  | c :: cs => c :: joinLineEnds cs

/-- Reads the text of a document. The room counts the calls that may nest below that of a value. -/
def ofChars (room : Nat) (text : List Char) : Except Rejection Datum :=
  let cs := joinLineEnds text
  (takeLines room (cs.length + 1) {} cs).map fun p => .table (entriesData p.root)

end SharedConstants.Toml
