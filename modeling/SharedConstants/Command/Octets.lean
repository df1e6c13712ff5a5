import SharedConstants.Text.Printable

/-!
# Octets

Commands read and write octets. A text of octets is written as a list of characters, each of
the number of its octet, so that texts of ASCII characters look as usual.
-/
namespace SharedConstants

/-- A text of octets, each as the character of its number. -/
abbrev Octets := List Char

namespace Octets

def ofBytes (bytes : ByteArray) : Octets := bytes.data.toList.map fun b => Char.ofNat b.toNat

def toBytes (cs : Octets) : ByteArray := ⟨(cs.map fun c => UInt8.ofNat c.toNat).toArray⟩

def ofText (text : String) : Octets := ofBytes text.toUTF8

/-- The text of octets, if they encode one. -/
def toText? (cs : Octets) : Option String := String.fromUTF8? (toBytes cs)

/-- The text of octets; octets that encode none stand for themselves. -/
def toText (cs : Octets) : String := (toText? cs).getD (String.ofList cs)

/-- The octets of a number of one octet. -/
def ofNumber (n : Nat) : Char := Char.ofNat (n % 256)

def isDigit (c : Char) : Bool := '0' ≤ c && c ≤ '9'

def isOctalDigit (c : Char) : Bool := '0' ≤ c && c ≤ '7'

def isUpper (c : Char) : Bool := 'A' ≤ c && c ≤ 'Z'

def isLower (c : Char) : Bool := 'a' ≤ c && c ≤ 'z'

def isLetter (c : Char) : Bool := isUpper c || isLower c

def isAlphanumeric (c : Char) : Bool := isLetter c || isDigit c

def isNameStart (c : Char) : Bool := isLetter c || c = '_'

def isNameChar (c : Char) : Bool := isAlphanumeric c || c = '_'

/-- Whether octets are a name of a variable. -/
def isName : Octets → Bool
  | [] => false
  | c :: cs => isNameStart c && cs.all isNameChar

def isSpace (c : Char) : Bool := c = ' ' || ('\t' ≤ c && c ≤ '\r')

def isControl (c : Char) : Bool := c < ' ' || c = '\x7f'

/-- Whether an octet is an ASCII character that can be seen, or the space. -/
def isPlain (c : Char) : Bool := ' ' ≤ c && c ≤ '~'

def isPunctuation (c : Char) : Bool := isPlain c && c ≠ ' ' && !isAlphanumeric c

def toUpper (c : Char) : Char := if isLower c then Char.ofNat (c.toNat - 32) else c

def toLower (c : Char) : Char := if isUpper c then Char.ofNat (c.toNat + 32) else c

/-- The value of a digit in any base up to 36. -/
def digitValue? (c : Char) : Option Nat :=
  if isDigit c then some (c.toNat - 48)
  else if isLower c then some (c.toNat - 87)
  else if isUpper c then some (c.toNat - 55)
  else none

/-- The leading digits of a base, and what follows them. -/
def takeDigits (base : Nat) : Octets → List Nat × Octets
  | [] => ([], [])
  | c :: cs =>
    match digitValue? c with
    | some d =>
      if d < base then
        let (ds, rest) := takeDigits base cs
        (d :: ds, rest)
      else ([], c :: cs)
    | none => ([], c :: cs)

def numberOf (base : Nat) (digits : List Nat) : Nat := digits.foldl (fun n d => n * base + d) 0

/-- The number that digits from `0` to `9` make, if octets are nothing else. -/
def toNat? (cs : Octets) : Option Nat :=
  match takeDigits 10 cs with
  | ([], _) | (_, _ :: _) => none
  | (ds, []) => some (numberOf 10 ds)

def ofNat (n : Nat) : Octets := (toString n).toList

def ofInt (n : Int) : Octets := (toString n).toList

/-- The lines of octets without their ends. An end that closes the octets opens no line. -/
def splitAt (stop : Char) : Octets → List Octets
  | [] => []
  | c :: cs =>
    if c = stop then [] :: splitAt stop cs
    else
      match splitAt stop cs with
      | [] => [[c]]
      | line :: lines => (c :: line) :: lines

/-- The parts of octets between those that separate them. -/
def splitBy (stop : Char) : Octets → List Octets
  | [] => [[]]
  | c :: cs =>
    if c = stop then [] :: splitBy stop cs
    else
      match splitBy stop cs with
      | [] => [[c]]
      | part :: parts => (c :: part) :: parts

def lines (cs : Octets) : List Octets := splitAt '\n' cs

/-- A text and what is left of it without one octet after another at its front. -/
def ends : Octets → List Octets
  | [] => [[]]
  | c :: cs => (c :: cs) :: ends cs

def dropFinalNewlines (cs : Octets) : Octets := (cs.reverse.dropWhile (· = '\n')).reverse

/-- Whether octets come before other octets or are equal to them. -/
def le : Octets → Octets → Bool
  | [], _ => true
  | _ :: _, [] => false
  | a :: as, b :: bs => a < b || (a = b && le as bs)

end Octets

end SharedConstants
