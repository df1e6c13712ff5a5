import SharedConstants.Proofs.Expr.Lexing

/-!
# Pieces of texts that are cut

The pieces at the end of a text are those of the text they cover, and the pieces in front of them
depend on no more than the first of them. A text that is cut behind a token falls into the same
pieces up to there, whatever comes instead of the rest.
-/
namespace SharedConstants.Expr

open Text (isWordChar isBlank)

section Pushing

variable {c : Char} {pieces rest : List Lexeme}

/-- A character in front of pieces is a piece of its own or becomes part of the first one. -/
theorem push_eq_cons {piece : Lexeme} (h : Lexeme.push c pieces = piece :: rest) :
    rest = pieces ∨ ∃ first, pieces = first :: rest := by
  unfold Lexeme.push Lexeme.pushSign at h
  grind

theorem push_ne_nil : Lexeme.push c pieces ≠ [] := by
  intro h
  have htext := flatMap_text_push c pieces
  simp [h] at htext

/-- Only the first of the pieces behind it matters to a character. -/
theorem push_append (h : pieces ≠ []) :
    Lexeme.push c (pieces ++ rest) = Lexeme.push c pieces ++ rest := by
  obtain ⟨piece, pieces, rfl⟩ := List.exists_cons_of_ne_nil h
  unfold Lexeme.push Lexeme.pushSign
  cases piece <;> grind

theorem foldr_push_append (text : List Char) (h : pieces ≠ []) :
    text.foldr Lexeme.push (pieces ++ rest) = text.foldr Lexeme.push pieces ++ rest := by
  induction text with
  | nil => rfl
  | cons c text ih =>
    have hne : text.foldr Lexeme.push pieces ≠ [] := by
      cases text with
      | nil => exact h
      | cons d text => exact push_ne_nil
    rw [List.foldr_cons, List.foldr_cons, ih, push_append hne]

end Pushing

section Cuts

variable {text front back : List Char} {before after rest : List Lexeme} {piece : Lexeme}

theorem lexemes_tail (h : lexemes text = piece :: rest) :
    lexemes (rest.flatMap Lexeme.text) = rest := by
  induction text generalizing piece with
  | nil => cases h
  | cons c text ih =>
    obtain hrest | ⟨first, hfirst⟩ := push_eq_cons h
    · rw [hrest]
      exact congrArg lexemes (flatMap_text_lexemes text)
    · exact ih hfirst

/-- The last pieces of a text are those of the text they cover. -/
theorem lexemes_suffix (h : lexemes text = before ++ after) :
    lexemes (after.flatMap Lexeme.text) = after := by
  induction before generalizing text with
  | nil =>
    obtain rfl : lexemes text = after := h
    rw [flatMap_text_lexemes]
  | cons piece before ih => exact ih (lexemes_tail h)

/-- The pieces in front of a piece stay if what follows still starts with that piece. -/
theorem lexemes_replace_rest {back' : List Char} {after' : List Lexeme}
    (h : lexemes (front ++ back) = before ++ piece :: after)
    (hback : lexemes back = piece :: after) (hback' : lexemes back' = piece :: after') :
    lexemes (front ++ back') = before ++ piece :: after' := by
  have hsplit : ∀ {text pieces}, lexemes text = piece :: pieces →
      lexemes (front ++ text) = front.foldr Lexeme.push [piece] ++ pieces := by
    intro text pieces htext
    have happend : lexemes (front ++ text) = front.foldr Lexeme.push (lexemes text) :=
      List.foldr_append
    rw [happend, htext, ← foldr_push_append front (List.cons_ne_nil piece []),
      List.singleton_append]
  have hfront : front.foldr Lexeme.push [piece] = before ++ [piece] := by
    rw [hsplit hback] at h
    exact List.append_cancel_right (h.trans (by simp))
  rw [hsplit hback', hfront, List.append_assoc, List.singleton_append]

end Cuts

section Tokens

variable {c : Char} {token rest : List Char}

/-- The text does not go on with a token. -/
def EndsToken (text : List Char) : Prop := ∀ c ∈ text.head?, endsToken c = true

theorem endsToken_of_isBlank (h : isBlank c = true) : endsToken c = true := by
  simp [endsToken, Text.isSpace_of_isBlank h]

theorem isWordChar_of_endsToken (h : endsToken c = true) : isWordChar c = false := by
  cases hword : isWordChar c with
  | false => rfl
  | true =>
    have hspace := isSpace_of_isWordChar hword
    obtain rfl | rfl : c = '(' ∨ c = ')' := by simpa [endsToken, hspace] using h
    · exact absurd hword (by decide)
    · exact absurd hword (by decide)

/-- A character inside a token never joins what follows the token. -/
theorem push_of_endsToken (hc : endsToken c = false) (hrest : EndsToken rest) :
    Lexeme.push c (lexemes rest) = Lexeme.push c [] ++ lexemes rest := by
  have hblank : isBlank c = false := by
    cases hblank : isBlank c with
    | false => rfl
    | true => simp [endsToken_of_isBlank hblank] at hc
  -- only a word is joined from the left by a sign or by another word
  have hword : ∀ d ds pieces, lexemes rest ≠ .word d ds :: pieces := by
    intro d ds pieces h
    have hd := hrest d (by rw [head_text_of_lexemes h]; rfl)
    have hproper := proper_lexemes rest (.word d ds) (by rw [h]; exact List.mem_cons_self)
    have hwordChar := hproper d List.mem_cons_self
    simp [isWordChar_of_endsToken hd] at hwordChar
  unfold endsToken at hc
  unfold Lexeme.push Lexeme.pushSign
  grind

theorem lexemes_token_append (htoken : ∀ c ∈ token, endsToken c = false)
    (hrest : EndsToken rest) : lexemes (token ++ rest) = lexemes token ++ lexemes rest := by
  induction token with
  | nil => rfl
  | cons c token ih =>
    obtain ⟨hc, htoken⟩ := List.forall_mem_cons.mp htoken
    rw [List.cons_append, lexemes_cons, lexemes_cons, ih htoken]
    cases token with
    | nil => exact push_of_endsToken hc hrest
    | cons d token => exact push_append push_ne_nil

end Tokens

end SharedConstants.Expr
