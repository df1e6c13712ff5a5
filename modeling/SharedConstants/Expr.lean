import SharedConstants.Diagnostic

/-!
# Expressions

The value of a constant is a literal, a reference to another constant or an operator applied
to operands. Every node keeps the part of the value text it was read from.
-/
namespace SharedConstants

inductive Expr
  | literal (value : Value) (span : Span)
  | reference (name : String) (span : Span)
  | apply (operator : String) (operands : List Expr) (span : Span)
  deriving Repr, Inhabited

namespace Expr

def span : Expr → Span
  | .literal _ s | .reference _ s | .apply _ _ s => s

def children : Expr → List Expr
  | .apply _ operands _ => operands
  | _ => []

mutual

def size : Expr → Nat
  | .literal .. | .reference .. => 1
  | .apply _ operands _ => sizes operands + 1

def sizes : List Expr → Nat
  | [] => 0
  | e :: es => size e + sizes es

end

theorem sizes_append (xs ys : List Expr) : sizes (xs ++ ys) = sizes xs + sizes ys := by
  induction xs with
  | nil => simp [sizes]
  | cons x xs ih => simp [sizes, ih, Nat.add_assoc]

theorem sizes_children_lt (e : Expr) : sizes e.children < size e := by
  cases e <;> simp [children, size, sizes]

mutual

/-- The depth to which applications nest. -/
def depth : Expr → Nat
  | .literal .. | .reference .. => 0
  | .apply _ operands _ => depths operands + 1

def depths : List Expr → Nat
  | [] => 0
  | e :: es => max (depth e) (depths es)

end

mutual

/-- Whether two expressions mean the same, wherever they were read. -/
def sameAs : Expr → Expr → Bool
  | .literal v _, .literal w _ => v = w
  | .reference n _, .reference m _ => n = m
  | .apply f xs _, .apply g ys _ => f = g && sameAll xs ys
  | _, _ => false

def sameAll : List Expr → List Expr → Bool
  | [], [] => true
  | x :: xs, y :: ys => sameAs x y && sameAll xs ys
  | _, _ => false

end

/-- The nodes of the expressions on an agenda, each before its operands and these from left
to right. -/
def walk : List Expr → List Expr
  | [] => []
  | e :: agenda => e :: walk (e.children ++ agenda)
termination_by agenda => sizes agenda
decreasing_by
  have := sizes_children_lt e
  simp only [sizes, sizes_append]
  omega

/-- All nodes, each before its operands and these from left to right. -/
def nodes (e : Expr) : List Expr := walk [e]

def reference? : Expr → Option (String × Span)
  | .reference name span => some (name, span)
  | _ => none

/-- The references, from left to right, with their places. -/
def referenceNodes (e : Expr) : List (String × Span) := e.nodes.filterMap reference?

/-- The names referred to, each once, in the order in which they first appear. -/
def references (e : Expr) : List String :=
  (e.referenceNodes.map Prod.fst).eraseDups

mutual

/-- An expression as value text, operands separated by single spaces. -/
def spell : Expr → List Char
  | .literal v _ => v.spell
  | .reference name _ => name.toList
  | .apply operator operands _ => '(' :: operator.toList ++ spellAll operands ++ [')']

/-- Operands as value text, with a space before each. -/
def spellAll : List Expr → List Char
  | [] => []
  | e :: es => ' ' :: spell e ++ spellAll es

end

def toSource (e : Expr) : String := String.ofList e.spell

end Expr

end SharedConstants
