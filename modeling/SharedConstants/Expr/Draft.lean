import SharedConstants.Diagnostic
import SharedConstants.Expr.Lexeme

/-!
# Drafts

A draft is an expression as it is written, before its operators are looked up and its
numbers are read. Drafts are read piece by piece with a stack of the applications that are
still open. A piece that fits nowhere stops the reading at its place.
-/
namespace SharedConstants.Expr

/-- An expression as written. -/
inductive Draft
  | atom (a : Atom) (span : Span)
  | apply (operator : List Char) (operatorSpan : Span) (operands : List Draft) (span : Span)
  deriving Repr

/-- An application that is still open: where it starts, its operator once that is read, its
operands, the last one first, and whether blanks came after the last of these. -/
structure Frame where
  start : Nat
  operator : Option (List Char × Span) := none
  operands : List Draft := []
  separated : Bool := false
  deriving Repr

/-- How far the reading of an expression is. -/
inductive Progress
  | pending
  | within (frame : Frame) (outer : List Frame)
  | complete (draft : Draft)
  deriving Repr

namespace Progress

/-- A finished expression becomes an operand of the innermost open application. -/
def finish (d : Draft) : List Frame → Progress
  | [] => .complete d
  | f :: outer => .within { f with operands := d :: f.operands, separated := false } outer

/-- The part of the text that a piece at a position covers. -/
def spanOf (position : Nat) (piece : Lexeme) : Span :=
  ⟨position, position + piece.text.length⟩

/-- Reads a piece where an operand may start. -/
def operand (position : Nat) (piece : Lexeme) (outer : List Frame) : Option Progress :=
  match piece with
  | .opening => some (.within { start := position } outer)
  | _ => piece.atom?.map fun a => finish (.atom a (spanOf position piece)) outer

/-- Reads a piece, if it fits. Inside an application the operator comes first; operands are
separated by blanks, which may also stand after the opening parenthesis and before the
closing one. -/
def step (position : Nat) (piece : Lexeme) : Progress → Option Progress
  | .pending =>
    match piece with
    | .blanks .. => some .pending
    | _ => operand position piece []
  | .complete d =>
    match piece with
    | .blanks .. => some (.complete d)
    | _ => none
  | .within f outer =>
    match f.operator, piece with
    | none, .blanks .. => some (.within f outer)
    | none, _ =>
      piece.operator?.map fun name =>
        .within { f with operator := some (name, spanOf position piece) } outer
    | some _, .blanks .. => some (.within { f with separated := true } outer)
    | some (name, span), .closing =>
      some (finish (.apply name span f.operands.reverse ⟨f.start, position + 1⟩) outer)
    | some _, _ => if f.separated then operand position piece (f :: outer) else none

end Progress

/-- Reads pieces from a position on. The error is the place of the first piece that does not
fit, or the end when the expression is not complete there. -/
def readFrom (position : Nat) (state : Progress) : List Lexeme → Except Nat Draft
  | [] =>
    match state with
    | .complete d => .ok d
    | _ => .error position
  | piece :: rest =>
    match state.step position piece with
    | some next => readFrom (position + piece.text.length) next rest
    | none => .error position

/-- Reads the draft of an expression that fills a text, blanks around it aside. -/
def readDraft (text : List Char) : Except Nat Draft :=
  readFrom 0 .pending (lexemes text)

end SharedConstants.Expr
