import SharedConstants.Format.Rule
import SharedConstants.Value

/-!
# Literals

How a value is spelled under given settings. The digits of an integer are padded with zeros,
then grouped from the least significant one, then marked with their radix; a minus sign
stands in front of the mark. Text around the literal comes last.
-/
namespace SharedConstants

namespace FormatSettings

/-- Puts a digit in front of groups of at most `width` digits. -/
def pushDigit (width : Nat) (d : Char) : List (List Char) → List (List Char)
  | [] => [[d]]
  | g :: gs => if g.length < width then (d :: g) :: gs else [d] :: g :: gs

/-- Digits in groups of `width`, counted from the least significant one. Without a positive
width they are one group. -/
def groups (width : Int) (digits : List Char) : List (List Char) :=
  if width ≤ 0 then [digits] else digits.foldr (pushDigit width.toNat) []

/-- Digits with zeros in front, at least `width` of them. Any width will do here. A machine stops
at a width of `2 ^ 63` or more, whose text it cannot hold. -/
def pad (width : Int) (digits : List Char) : List Char :=
  List.replicate (width.toNat - digits.length) '0' ++ digits

/-- The digits of a number, padded and grouped. -/
def groupedDigits (s : FormatSettings) (n : Nat) : List Char :=
  s.groupSeparator.toList.intercalate
    (groups s.groupWidth (pad s.zeroPad (Decimal.toDigits s.radix.base n)))

/-- An integer without the text around it. -/
def spellInteger (s : FormatSettings) (n : Int) : List Char :=
  let marked := (if s.omitMark then [] else s.radix.mark) ++ s.groupedDigits n.natAbs
  if n < 0 then '-' :: marked else marked

/-- A value without the text around it. -/
def spell (s : FormatSettings) : Value → List Char
  | .integer n => s.spellInteger n
  | .boolean b => (if b then s.boolean.1 else s.boolean.2).toList

def formatInteger (s : FormatSettings) (n : Int) : String := String.ofList (s.spellInteger n)

def formatLiteral (s : FormatSettings) (v : Value) : String :=
  s.leading ++ String.ofList (s.spell v) ++ s.trailing

end FormatSettings

end SharedConstants
