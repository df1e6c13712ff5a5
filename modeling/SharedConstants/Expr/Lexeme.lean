import SharedConstants.Text.Blank
import SharedConstants.Text.Word
import SharedConstants.Decimal.Digits

/-!
# Lexemes

A value text falls into parentheses, runs of blanks, words and other single characters. A
word is a longest run of word characters, with a sign in front if one stands there. Words
are operators, literals or references; which words these are is told by `Lexeme.atom?`.
-/
namespace SharedConstants.Expr

open Text (isWordChar isNameStart)

inductive Lexeme
  | opening
  | closing
  | blanks (first : Char) (rest : List Char)
  | word (first : Char) (rest : List Char)
  /-- A sign and the word characters behind it, if any. -/
  | signed (negative : Bool) (run : List Char)
  | stray (c : Char)
  deriving DecidableEq, Repr

namespace Lexeme

def text : Lexeme → List Char
  | .opening => ['(']
  | .closing => [')']
  | .blanks c cs => c :: cs
  | .word c cs => c :: cs
  | .signed true run => '-' :: run
  | .signed false run => '+' :: run
  | .stray c => [c]

/-- Puts a sign in front of pieces; it takes the word behind it with it. -/
def pushSign (negative : Bool) : List Lexeme → List Lexeme
  | .word c cs :: rest => .signed negative (c :: cs) :: rest
  | rest => .signed negative [] :: rest

/-- Puts a character in front of pieces. -/
def push (c : Char) (pieces : List Lexeme) : List Lexeme :=
  if c = '(' then .opening :: pieces
  else if c = ')' then .closing :: pieces
  else if c = '-' then pushSign true pieces
  else if c = '+' then pushSign false pieces
  else if isWordChar c then
    match pieces with
    | .word d ds :: rest => .word c (d :: ds) :: rest
    | rest => .word c [] :: rest
  else if Text.isBlank c then
    match pieces with
    | .blanks d ds :: rest => .blanks c (d :: ds) :: rest
    | rest => .blanks c [] :: rest
  else .stray c :: pieces

end Lexeme

def lexemes (text : List Char) : List Lexeme := text.foldr Lexeme.push []

/-- No character is lost. -/
theorem flatMap_text_push (c : Char) (pieces : List Lexeme) :
    (Lexeme.push c pieces).flatMap Lexeme.text = c :: pieces.flatMap Lexeme.text := by
  unfold Lexeme.push
  split
  · simp_all [Lexeme.text]
  · split
    · simp_all [Lexeme.text]
    · split
      · unfold Lexeme.pushSign
        split <;> simp_all [Lexeme.text]
      · split
        · unfold Lexeme.pushSign
          split <;> simp_all [Lexeme.text]
        · split
          · split <;> simp [Lexeme.text]
          · split
            · split <;> simp [Lexeme.text]
            · simp [Lexeme.text]

theorem flatMap_text_lexemes (text : List Char) :
    (lexemes text).flatMap Lexeme.text = text := by
  induction text with
  | nil => rfl
  | cons c text ih =>
    change (Lexeme.push c (lexemes text)).flatMap Lexeme.text = c :: text
    rw [flatMap_text_push, ih]

/-- Whether a word spells digits with single underscores between them: it starts with a
digit, and behind an underscore comes a digit. -/
def spellsDigits (isDigit : Char → Bool) : List Char → Bool
  | [] => false
  | [c] => isDigit c
  | c :: '_' :: rest => isDigit c && spellsDigits isDigit rest
  | c :: rest => isDigit c && spellsDigits isDigit rest

/-- Whether a character is a digit of a radix up to sixteen. -/
def isDigitOf (radix : Nat) (c : Char) : Bool :=
  (('0' ≤ c && c ≤ '9') || ('a' ≤ c && c ≤ 'f') || ('A' ≤ c && c ≤ 'F')) &&
    Decimal.digitValue c < radix

/-- The radix that a letter behind a zero announces; every other character announces ten. -/
def radixOf (mark : Char) : Nat :=
  if mark = 'b' ∨ mark = 'B' then 2
  else if mark = 'o' ∨ mark = 'O' then 8
  else if mark = 'x' ∨ mark = 'X' then 16
  else 10

/-- The radix of a number and its digits with their underscores. -/
def numeral? (run : List Char) : Option (Nat × List Char) :=
  match run with
  | '0' :: mark :: digits =>
    if radixOf mark = 10 then
      if spellsDigits (isDigitOf 10) run then some (10, run) else none
    else if spellsDigits (isDigitOf (radixOf mark)) digits then some (radixOf mark, digits)
    else none
  | _ => if spellsDigits (isDigitOf 10) run then some (10, run) else none

/-- What a word stands for as an operand. -/
inductive Atom
  | boolean (b : Bool)
  | number (negative : Bool) (radix : Nat) (digits : List Char)
  | name (text : List Char)
  deriving DecidableEq, Repr

/-- The operand that a piece spells, if it spells one. A signed word is a number; `true` and
`false` are booleans; a word that starts like a name is one otherwise. -/
def Lexeme.atom? : Lexeme → Option Atom
  | .word c cs =>
    if c :: cs = ['t', 'r', 'u', 'e'] then some (.boolean true)
    else if c :: cs = ['f', 'a', 'l', 's', 'e'] then some (.boolean false)
    else if isNameStart c then some (.name (c :: cs))
    else (numeral? (c :: cs)).map fun (radix, digits) => .number false radix digits
  | .signed negative run => (numeral? run).map fun (radix, digits) => .number negative radix digits
  | _ => none

/-- The operator that a piece names, if it names one. -/
def Lexeme.operator? : Lexeme → Option (List Char)
  | .word c cs => if isNameStart c then some (c :: cs) else none
  | _ => none

/-- Whether a text is a name that a constant may have. -/
def isIdentifier (text : List Char) : Bool :=
  Text.isName text && text != ['t', 'r', 'u', 'e'] && text != ['f', 'a', 'l', 's', 'e']

end SharedConstants.Expr
