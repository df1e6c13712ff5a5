import SharedConstants.Command.VersionOrder
import SharedConstants.Command.Number

/-!
# Sort keys

A key is a part of a line, found by fields and characters, together with the way in which such
parts are compared.
-/
namespace SharedConstants.Command

structure Comparison where
  /-- Leave out what is neither blank nor a letter nor a digit. -/
  isDictionary : Bool := false
  /-- Leave out what cannot be printed. -/
  isPrinting : Bool := false
  foldsCase : Bool := false
  skipsStartBlanks : Bool := false
  skipsEndBlanks : Bool := false
  isNumeric : Bool := false
  isGeneral : Bool := false
  isHuman : Bool := false
  isMonth : Bool := false
  isVersion : Bool := false
  isRandom : Bool := false
  isReverse : Bool := false
  deriving Inhabited

namespace Comparison

/-- Whether parts are compared as they are, if perhaps backwards. -/
def isDefault (k : Comparison) : Bool :=
  !(k.isDictionary || k.isPrinting || k.foldsCase || k.skipsStartBlanks || k.skipsEndBlanks ||
    k.isNumeric || k.isGeneral || k.isHuman || k.isMonth || k.isVersion || k.isRandom)

/-- Adds what a letter stands for; blanks are skipped at the start or at the end. -/
def add? (k : Comparison) (atStart atEnd : Bool) (letter : Char) : Option Comparison :=
  match letter with
  | 'b' =>
    some { k with
      skipsStartBlanks := k.skipsStartBlanks || atStart
      skipsEndBlanks := k.skipsEndBlanks || atEnd }
  | 'd' => some { k with isDictionary := true }
  | 'f' => some { k with foldsCase := true }
  | 'g' => some { k with isGeneral := true }
  | 'h' => some { k with isHuman := true }
  | 'i' => some { k with isPrinting := true }
  | 'M' => some { k with isMonth := true }
  | 'n' => some { k with isNumeric := true }
  | 'r' => some { k with isReverse := true }
  | 'R' => some { k with isRandom := true }
  | 'V' => some { k with isVersion := true }
  | _ => none

/-- Adds the leading letters of a text and returns what follows them. -/
def addAll (k : Comparison) (atStart atEnd : Bool) : Octets → Comparison × Octets
  | [] => (k, [])
  | c :: cs =>
    match k.add? atStart atEnd c with
    | some k => addAll k atStart atEnd cs
    | none => (k, c :: cs)

/-- The letters of ways to compare that exclude one another, if more than one is chosen. -/
def conflict? (k : Comparison) : Option String :=
  let count (b : Bool) : Nat := if b then 1 else 0
  let chosen := count k.isNumeric + count k.isGeneral + count k.isHuman + count k.isMonth +
    count (k.isVersion || k.isRandom || k.isDictionary || k.isPrinting)
  let letter (b : Bool) (c : Char) : List Char := if b then [c] else []
  if chosen ≤ 1 then none
  else
    some (String.ofList
      (letter k.isDictionary 'd' ++ letter k.foldsCase 'f' ++ letter k.isGeneral 'g' ++
        letter k.isHuman 'h' ++ letter (k.isPrinting && !k.isDictionary) 'i' ++
        letter k.isMonth 'M' ++ letter k.isNumeric 'n' ++ letter k.isRandom 'R' ++
        letter k.isVersion 'V'))

end Comparison

/-- A part of lines and the way to compare it. Fields and characters count from zero. -/
structure SortKey where
  /-- Where the part starts, if not with the line. -/
  start : Option (Nat × Nat) := none
  /-- The last field, and how many of its characters belong to the part; none stands for all. -/
  stop : Option (Nat × Nat) := none
  comparison : Comparison := {}

def isBlankOctet (c : Char) : Bool := c = ' ' || c = '\t' || c = '\n'

/-- What follows a field in front. Without a separator, the blanks in front of a field belong
to it. -/
def dropField (separator : Option Char) (cs : Octets) : Octets :=
  match separator with
  | some tab => (cs.dropWhile (· ≠ tab)).drop 1
  | none => (cs.dropWhile isBlankOctet).dropWhile fun c => !isBlankOctet c

def dropFields (separator : Option Char) : Nat → Octets → Octets
  | 0, cs => cs
  | _, [] => []
  | n + 1, cs => dropFields separator n (dropField separator cs)

/-- The number of octets in front of the end of a field. -/
def fieldEnd (separator : Option Char) (n : Nat) (cs : Octets) : Nat :=
  match separator with
  | some tab =>
    let rest := dropFields separator n cs
    cs.length - (rest.dropWhile (· ≠ tab)).length
  | none => cs.length - (dropFields separator (n + 1) cs).length

namespace SortKey

def startIn (k : SortKey) (separator : Option Char) (line : Octets) : Nat :=
  let (field, offset) := k.start.getD (0, 0)
  let rest := dropFields separator field line
  let rest := if k.comparison.skipsStartBlanks then rest.dropWhile isBlankOctet else rest
  line.length - (rest.drop offset).length

def endIn (k : SortKey) (separator : Option Char) (line : Octets) : Nat :=
  match k.stop with
  | none => line.length
  | some (field, 0) => fieldEnd separator field line
  | some (field, count) =>
    let rest := dropFields separator field line
    let rest := if k.comparison.skipsEndBlanks then rest.dropWhile isBlankOctet else rest
    line.length - (rest.drop count).length

def part (k : SortKey) (separator : Option Char) (line : Octets) : Octets :=
  let start := k.startIn separator line
  (line.drop start).take (k.endIn separator line - start)

end SortKey

/-- A decimal number: its sign, its digits as a number and how many of them are behind the
point. -/
structure DecimalNumber where
  isNegative : Bool
  digits : Nat
  places : Nat

/-- The number that octets start with; other octets count as zero. -/
def leadingDecimal (cs : Octets) : DecimalNumber :=
  let cs := cs.dropWhile isBlankOctet
  let (isNegative, cs) : Bool × Octets := match cs with
    | '-' :: rest => (true, rest)
    | cs => (false, cs)
  let (whole, rest) := Octets.takeDigits 10 cs
  let fraction : List Nat := match rest with
    | '.' :: more => (Octets.takeDigits 10 more).1
    | _ => []
  ⟨isNegative, Octets.numberOf 10 (whole ++ fraction), fraction.length⟩

/-- Compares numbers exactly. -/
def compareDecimals (a b : DecimalNumber) : Ordering :=
  let scaled (x : DecimalNumber) (places : Nat) : Int :=
    let n : Int := x.digits * Nat.pow 10 places
    if x.isNegative then -n else n
  compare (scaled a b.places) (scaled b a.places)

/-- The power of a thousand that a letter behind a number stands for, with the number's sign. -/
def unitPower (cs : Octets) : Int :=
  let cs := cs.dropWhile isBlankOctet
  let (isNegative, cs) : Bool × Octets := match cs with
    | '-' :: rest => (true, rest)
    | cs => (false, cs)
  let (whole, rest) := Octets.takeDigits 10 cs
  let (fraction, rest) : List Nat × Octets := match rest with
    | '.' :: more => Octets.takeDigits 10 more
    | rest => ([], rest)
  let power : Int := match rest.head? with
    | some 'K' | some 'k' => 1
    | some 'M' => 2
    | some 'G' => 3
    | some 'T' => 4
    | some 'P' => 5
    | some 'E' => 6
    | some 'Z' => 7
    | some 'Y' => 8
    | _ => 0
  if (whole ++ fraction).all (· = 0) then 0 else if isNegative then -power else power

/-- The number of the month that octets start with; others come before January. -/
def monthNumber (cs : Octets) : Nat :=
  let name := String.ofList (((cs.dropWhile isBlankOctet).take 3).map Octets.toUpper)
  let months :=
    ["JAN", "FEB", "MAR", "APR", "MAY", "JUN", "JUL", "AUG", "SEP", "OCT", "NOV", "DEC"]
  match months.findIdx? (· = name) with
  | some i => i + 1
  | none => 0

/-- Compares floating point numbers; those that are undefined come before all others, and what
is no number comes before them. -/
def compareGeneral (a b : Octets) : Ordering :=
  match leadingFloat? a, leadingFloat? b with
  | none, none => .eq
  | none, some _ => .lt
  | some _, none => .gt
  | some x, some y =>
    if x < y then .lt
    else if x > y then .gt
    else if x == y then .eq
    else if y == y then .lt
    else if x == x then .gt
    else .eq

def compareOctets (a b : Octets) : Ordering :=
  if a = b then .eq else if Octets.le a b then .lt else .gt

namespace Comparison

/-- What counts of a part. -/
def view (k : Comparison) (cs : Octets) : Octets :=
  let kept :=
    if k.isDictionary then cs.filter fun c => Octets.isAlphanumeric c || isBlankOctet c
    else if k.isPrinting then cs.filter Octets.isPlain
    else cs
  if k.foldsCase then kept.map Octets.toUpper else kept

def compareParts (k : Comparison) (a b : Octets) : Ordering :=
  let a := k.view a
  let b := k.view b
  let order :=
    if k.isNumeric then compareDecimals (leadingDecimal a) (leadingDecimal b)
    else if k.isGeneral then compareGeneral a b
    else if k.isHuman then
      match compare (unitPower a) (unitPower b) with
      | .eq => compareDecimals (leadingDecimal a) (leadingDecimal b)
      | o => o
    else if k.isMonth then compare (monthNumber a) (monthNumber b)
    else if k.isVersion then compareVersions a b
    else compareOctets a b
  if k.isReverse then order.swap else order

end Comparison

end SharedConstants.Command
