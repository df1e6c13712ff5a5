import SharedConstants.Diagnostic

/-!
# Nesting of parentheses

Before a value text is read its parentheses are matched. At most `maxNesting` may be open
at once. The first closing one without a partner or opening one too deep is at fault; if
there is neither, the last opening one that stays open.
-/
namespace SharedConstants.Expr

/-- How deep applications may nest. -/
def maxNesting : Nat := 64

/-- A fault in a text and the part of it at fault. -/
structure Mark where
  fault : ExpressionFault
  span : Span

def markAt (fault : ExpressionFault) (position : Nat) : Mark :=
  ⟨fault, ⟨position, position + 1⟩⟩

/-- Matches parentheses from a position on; `opened` are the places of those still open, the
last one first. -/
def matchFrom (position : Nat) (opened : List Nat) : List Char → Option Mark
  | [] => opened.head?.map (markAt .unmatchedOpening)
  | c :: rest =>
    if c = '(' then
      if opened.length < maxNesting then matchFrom (position + 1) (position :: opened) rest
      else some (markAt (.tooDeep maxNesting) position)
    else if c = ')' then
      match opened with
      | [] => some (markAt .unmatchedClosing position)
      | _ :: outer => matchFrom (position + 1) outer rest
    else matchFrom (position + 1) opened rest

/-- What is wrong with the nesting of a text, if anything. A text of spaces is empty. -/
def nestingFault? (text : List Char) : Option Mark :=
  if text.all Text.isSpace then some ⟨.empty, ⟨0, max 1 text.length⟩⟩
  else matchFrom 0 [] text

end SharedConstants.Expr
