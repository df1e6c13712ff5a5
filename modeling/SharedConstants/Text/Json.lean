import SharedConstants.Text.Quoted

/-!
# JSON texts

Reports for programs are JSON texts. Each element of an array and each member of an object
stands on a line of its own, indented by two spaces a level. All characters beyond ASCII are
escaped by their UTF-16 units.
-/
namespace SharedConstants

inductive JsonValue
  | null
  | boolean (value : Bool)
  | integer (value : Int)
  | text (value : String)
  | array (items : List JsonValue)
  | object (members : List (String × JsonValue))

namespace JsonValue

/-- An escaped UTF-16 unit. -/
def escapeUnit (n : Nat) : List Char := '\\' :: 'u' :: Text.hexDigits 4 n

/-- One character inside quotes. -/
def escape (c : Char) : List Char :=
  let n := c.toNat
  if c = '"' ∨ c = '\\' then ['\\', c]
  else if c = '\n' then ['\\', 'n']
  else if c = '\x0d' then ['\\', 'r']
  else if c = '\t' then ['\\', 't']
  else if c = '\x08' then ['\\', 'b']
  else if c = '\x0c' then ['\\', 'f']
  else if 32 ≤ n ∧ n < 127 then [c]
  else if n < 0x10000 then escapeUnit n
  else escapeUnit (0xD800 + (n - 0x10000) / 0x400) ++ escapeUnit (0xDC00 + (n - 0x10000) % 0x400)

def quoted (text : String) : String :=
  String.ofList ('"' :: text.toList.flatMap escape ++ ['"'])

/-- A line end with the indentation of the line behind it. -/
def lineEnd (depth : Nat) : String := "\n" ++ String.ofList (List.replicate (2 * depth) ' ')

/-- Elements between brackets, each on its own line. -/
def bracketed (opening closing : String) (depth : Nat) : List String → String
  | [] => opening ++ closing
  | elements =>
    opening ++ lineEnd (depth + 1) ++ ("," ++ lineEnd (depth + 1)).intercalate elements ++
      lineEnd depth ++ closing

mutual

/-- A value, as it is written at a depth. -/
def write (depth : Nat) : JsonValue → String
  | .null => "null"
  | .boolean b => if b then "true" else "false"
  | .integer n => toString n
  | .text s => quoted s
  | .array items => bracketed "[" "]" depth (writeItems (depth + 1) items)
  | .object members => bracketed "\x7b" "\x7d" depth (writeMembers (depth + 1) members)

def writeItems (depth : Nat) : List JsonValue → List String
  | [] => []
  | v :: rest => write depth v :: writeItems depth rest

def writeMembers (depth : Nat) : List (String × JsonValue) → List String
  | [] => []
  | (key, v) :: rest => (quoted key ++ ": " ++ write depth v) :: writeMembers depth rest

end

/-- A text that may be missing. -/
def ofText? : Option String → JsonValue
  | none => .null
  | some s => .text s

end JsonValue

end SharedConstants
