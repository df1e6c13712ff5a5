import SharedConstants.Toml.Moment
import SharedConstants.Toml.Number
import SharedConstants.Toml.Quotation
import SharedConstants.Toml.Tree

/-!
# Values of documents

A value is a text, a boolean, an array, an inline table, a date or time, or a number. Arrays
may span lines and hold comments, inline tables may not. The fuel of the readers bounds the
number of values; there are no more of them than characters. The room of the readers counts the
calls that may nest below that of a value: two for each array and three for each inline table.
-/
namespace SharedConstants.Toml

/-- One part of a key: a bare word or a text on one line. -/
def takeKeyPart (cs : List Char) : Option (String × List Char) :=
  let bare := cs.takeWhile isBareKeyChar
  if bare.isEmpty then (takeLineText cs).map fun (text, rest) => (String.ofList text, rest)
  else some (String.ofList bare, cs.drop bare.length)

/-- The parts of a key, with points between them. -/
def takeKey : Nat → List Char → Option (Key × List Char)
  | 0, _ => none
  | fuel + 1, cs => do
    let (part, rest) ← takeKeyPart cs
    match skipBlanks rest with
    | '.' :: rest =>
      let (parts, rest) ← takeKey fuel (skipBlanks rest)
      return (part :: parts, rest)
    | rest => return ([part], rest)

/-- A key with the equals sign behind it. -/
def takeKeyEquals (fuel : Nat) (cs : List Char) : Except Rejection (Key × List Char) :=
  match takeKey fuel cs with
  | some (key, '=' :: rest) => .ok (key, skipBlanks rest)
  | _ => .error .malformed

/-- A value that holds no other values, where one stands in front. -/
def takeScalar (cs : List Char) : Except Rejection (Datum × List Char) :=
  match cs with
  | '"' :: _ | '\'' :: _ =>
    orMalformed ((takeText cs).map fun (text, rest) => (.text (String.ofList text), rest))
  | 't' :: 'r' :: 'u' :: 'e' :: rest => .ok (.boolean true, rest)
  | 'f' :: 'a' :: 'l' :: 's' :: 'e' :: rest => .ok (.boolean false, rest)
  | _ =>
    match takeMoment cs with
    | some result => result
    | none => (takeNumeral cs).getD (.error .malformed)

/-- Skips blanks, line ends and comments inside an array. -/
def skipInArray (cs : List Char) : Except Rejection (List Char) :=
  orMalformed (skipGaps (cs.length + 1) cs)

mutual

/-- A value, where one stands in front. -/
def takeValue (room : Nat) : Nat → List Char → Except Rejection (Datum × List Char)
  | 0, _ => .error .malformed
  | fuel + 1, cs =>
    match cs with
    | '[' :: cs => do
      if room < 2 then throw .tooDeep
      let rest ← skipInArray cs
      match rest with
      | ']' :: rest => return (.array [], rest)
      | rest =>
        let (items, rest) ← takeItems (room - 2) fuel rest
        return (.array items, rest)
    | '{' :: cs => do
      if room < 3 then throw .tooDeep
      match skipBlanks cs with
      | '}' :: rest => return (.table [], rest)
      | rest =>
        let (entries, rest) ← takePairs (room - 3) fuel [] rest
        return (.table (entriesData entries), rest)
    | cs => takeScalar cs

/-- The items of an array up to its closing bracket. -/
def takeItems (room : Nat) : Nat → List Char → Except Rejection (List Datum × List Char)
  | 0, _ => .error .malformed
  | fuel + 1, cs => do
    let (item, rest) ← takeValue room fuel cs
    let rest ← skipInArray rest
    match rest with
    | ']' :: rest => return ([item], rest)
    | ',' :: rest =>
      let rest ← skipInArray rest
      match rest with
      | ']' :: rest => return ([item], rest)
      | rest =>
        let (items, rest) ← takeItems room fuel rest
        return (item :: items, rest)
    | _ => .error .malformed

/-- The entries of an inline table up to its closing brace, behind those already read. -/
def takePairs (room : Nat) : Nat → Entries → List Char → Except Rejection (Entries × List Char)
  | 0, _, _ => .error .malformed
  | fuel + 1, entries, cs => do
    let (key, rest) ← takeKeyEquals fuel cs
    let (d, rest) ← takeValue room fuel rest
    let entries ← orMalformed (addEntry 0 [] key d entries)
    match skipBlanks rest with
    | '}' :: rest => return (entries, rest)
    | ',' :: rest => takePairs room fuel entries (skipBlanks rest)
    | _ => .error .malformed

end

end SharedConstants.Toml
