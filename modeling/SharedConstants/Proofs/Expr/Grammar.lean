import Mathlib.Algebra.Group.Int.Defs
import SharedConstants.Expr.Parser

/-!
# The grammar of value texts

A value text is an expression with blanks around it. An expression is a boolean, a number, a
name, or an application in parentheses: an operator and operands with blanks before each. What
a text derives is a draft, which records where each part of it stands.
-/
namespace SharedConstants.Expr

def Blanks (text : List Char) : Prop := ∀ c ∈ text, Text.isBlank c = true

/-- Digits of a radix; an underscore stands between two of them. -/
inductive Digits (radix : Nat) : List Char → Prop
  | one {c : Char} : isDigitOf radix c = true → Digits radix [c]
  | more {c : Char} {ds : List Char} : isDigitOf radix c = true → Digits radix ds →
    Digits radix (c :: ds)
  | spaced {c : Char} {ds : List Char} : isDigitOf radix c = true → Digits radix ds →
    Digits radix (c :: '_' :: ds)

/-- The letters that announce a radix behind a zero. -/
def radixMarks : List (Char × Nat) :=
  [('b', 2), ('B', 2), ('o', 8), ('O', 8), ('x', 16), ('X', 16)]

/-- A number without its sign, its radix and its digits. -/
inductive Numeral : List Char → Nat → List Char → Prop
  | decimal {ds : List Char} : Digits 10 ds → Numeral ds 10 ds
  | marked {mark : Char} {radix : Nat} {ds : List Char} : (mark, radix) ∈ radixMarks →
    Digits radix ds → Numeral ('0' :: mark :: ds) radix ds

/-- A text spells an operand that is no application. -/
inductive Spells : List Char → Atom → Prop
  | truth : Spells ['t', 'r', 'u', 'e'] (.boolean true)
  | falsity : Spells ['f', 'a', 'l', 's', 'e'] (.boolean false)
  | name {text : List Char} : isIdentifier text = true → Spells text (.name text)
  | unsigned {text ds : List Char} {radix : Nat} : Numeral text radix ds →
    Spells text (.number false radix ds)
  | plus {text ds : List Char} {radix : Nat} : Numeral text radix ds →
    Spells ('+' :: text) (.number false radix ds)
  | minus {text ds : List Char} {radix : Nat} : Numeral text radix ds →
    Spells ('-' :: text) (.number true radix ds)

/-- The text of an application, from its opening to its closing parenthesis. -/
def applied (gap name operands close : List Char) : List Char :=
  '(' :: (gap ++ (name ++ (operands ++ (close ++ [')']))))

@[simp] theorem length_applied (gap name operands close : List Char) :
    (applied gap name operands close).length =
      gap.length + name.length + operands.length + close.length + 2 := by
  simp [applied]
  omega

/-- What a text may derive: an operand, or the operands of an application. -/
inductive Phrase
  | operand (d : Draft)
  | operands (ds : List Draft)

/-- A text that starts at a position derives a phrase. -/
inductive Derives : Nat → List Char → Phrase → Prop
  | atom {i : Nat} {text : List Char} {a : Atom} : Spells text a →
    Derives i text (.operand (.atom a ⟨i, i + text.length⟩))
  | apply {i : Nat} {gap name args close : List Char} {ds : List Draft} : Blanks gap →
    Text.isName name = true → Derives (i + 1 + gap.length + name.length) args (.operands ds) →
    Blanks close →
    Derives i (applied gap name args close)
      (.operand (.apply name ⟨i + 1 + gap.length, i + 1 + gap.length + name.length⟩ ds
        ⟨i, i + (applied gap name args close).length⟩))
  | none {i : Nat} : Derives i [] (.operands [])
  | more {i : Nat} {args gap text : List Char} {ds : List Draft} {d : Draft} :
    Derives i args (.operands ds) → Blanks gap → gap ≠ [] →
    Derives (i + args.length + gap.length) text (.operand d) →
    Derives i (args ++ (gap ++ text)) (.operands (ds ++ [d]))

/-- A text holds the expression of a draft, with blanks around it. -/
def IsValueText (text : List Char) (d : Draft) : Prop :=
  ∃ before core after, text = before ++ (core ++ after) ∧ Blanks before ∧ Blanks after ∧
    Derives before.length core (.operand d)

mutual

/-- The expression that a draft stands for. -/
def Draft.toExpr : Draft → Expr
  | .atom (.boolean b) span => .literal (.boolean b) span
  | .atom (.number negative radix digits) span =>
    .literal (.integer (numberOf negative radix digits)) span
  | .atom (.name text) span => .reference (String.ofList text) span
  | .apply operator _ operands span => .apply (String.ofList operator) (toExprs operands) span

/-- The expressions that drafts stand for. -/
def toExprs : List Draft → List Expr
  | [] => []
  | d :: ds => d.toExpr :: toExprs ds

end

mutual

/-- The numbers in a draft, each with its radix. -/
def Draft.numerals : Draft → List (Nat × List Char)
  | .atom (.number _ radix digits) _ => [(radix, digits)]
  | .atom .. => []
  | .apply _ _ operands _ => numeralsOf operands

/-- The numbers in several drafts. -/
def numeralsOf : List Draft → List (Nat × List Char)
  | [] => []
  | d :: ds => d.numerals ++ numeralsOf ds

end

/-- Integers have 128 bits; operators are registered and take as many operands as they are
given. -/
inductive Admitted (ops : OperatorRegistry) : Expr → Prop
  | boolean (b : Bool) (span : Span) : Admitted ops (.literal (.boolean b) span)
  | integer {n : Int} (span : Span) : -2 ^ 127 ≤ n → n < 2 ^ 127 →
    Admitted ops (.literal (.integer n) span)
  | reference (name : String) (span : Span) : Admitted ops (.reference name span)
  | apply {name : String} {operands : List Expr} {op : Operator} (span : Span) :
    ops.get? name = some op → op.arity.least ≤ operands.length →
    (∀ most ∈ op.arity.most, operands.length ≤ most) → (∀ e ∈ operands, Admitted ops e) →
    Admitted ops (.apply name operands span)

end SharedConstants.Expr
