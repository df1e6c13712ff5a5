import SharedConstants.Command.Octets

/-!
# Lines that are read into variables

A line is split at separators into as many fields as there are variables; the last variable takes
the rest of the line. A backslash protects the character behind it, and hides the end of a line.
-/
namespace SharedConstants.Shell

inductive LinePart
  | char (c : Char)
  /-- A character behind a backslash, which separates nothing. -/
  | shielded (c : Char)
  /-- A place where the end of a line was hidden. -/
  | seam

/-- The line that a text starts with, how many octets it takes, and whether it has an end. The
flag tells whether a backslash stands in front of the text. -/
def takeLine (isRaw : Bool) : Bool → Octets → List LinePart × Nat × Bool
  | _, [] => ([], 0, false)
  | isBehindBackslash, c :: cs =>
    let add (part : Option LinePart) (isBehind : Bool) : List LinePart × Nat × Bool :=
      let (more, n, hasEnd) := takeLine isRaw isBehind cs
      (part.toList ++ more, n + 1, hasEnd)
    if c = '\x00' then add none isBehindBackslash
    else if isBehindBackslash then add (some (if c = '\n' then .seam else .shielded c)) false
    else if c = '\\' ∧ !isRaw then add none true
    else if c = '\n' then ([], 1, true)
    else add (some (.char c)) false

/-- The fields of a line as far as it was looked at. -/
structure LineFields where
  /-- The fields that are complete, the last one first. -/
  complete : List Octets := []
  /-- The field that is open, its last character first. -/
  current : Octets := []
  /-- What the last field is cut down to if nothing more belongs to it. -/
  cut : Option Octets := none
  /-- How many ends of fields are still looked for. -/
  endsLeft : Nat
  /-- Whether the last end of a field was at a blank. -/
  isBehindBlank : Bool := false

namespace LineFields

/-- Adds a character that may be a separator. -/
def addChar (separators : Octets) (s : LineFields) (c : Char) : LineFields :=
  let isSeparator : Bool := separators.contains c
  let isBlank : Bool := isSeparator && (c = ' ' || c = '\t' || c = '\n')
  match s.endsLeft with
  | 0 =>
    if isBlank then { s with current := c :: s.current, cut := s.cut.or (some s.current) }
    else
      { s with
        current := c :: s.current
        cut := if isSeparator && s.isBehindBlank then s.cut else none
        isBehindBlank := false }
  | n + 1 =>
    if s.isBehindBlank && isBlank then s
    else if s.isBehindBlank && isSeparator then { s with isBehindBlank := false }
    else if isSeparator then
      if isBlank && s.current.isEmpty then s
      else if n = 0 then
        { s with
          current := c :: s.current, cut := some s.current, endsLeft := 0
          isBehindBlank := isBlank }
      else
        { s with
          complete := s.current.reverse :: s.complete, current := [], endsLeft := n
          isBehindBlank := isBlank }
    else { s with current := c :: s.current, isBehindBlank := false }

def add (separators : Octets) (s : LineFields) : LinePart → LineFields
  | .char c => s.addChar separators c
  | .shielded c => { s with current := c :: s.current, isBehindBlank := false }
  | .seam => { s with isBehindBlank := false }

/-- The fields of a line, at most a number of them. -/
def split (separators : Octets) (count : Nat) (parts : List LinePart) : List Octets :=
  let s := parts.foldl (add separators) { endsLeft := count }
  ((s.cut.getD s.current).reverse :: s.complete).reverse

end LineFields

end SharedConstants.Shell
