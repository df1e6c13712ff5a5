import SharedConstants.Proofs.Expr.Furthest
import SharedConstants.Proofs.Expr.Nesting

/-!
# Where the reading of a malformed text stops

Reading stops at a piece that does not fit. What comes before it can be completed to a value text.
With the token at the piece it cannot, however the text goes on behind that token. If the
parentheses of the text match, reading stops before the end.
-/
namespace SharedConstants.Expr

section Completion

/-- The text can be completed to a value text. -/
def Viable (text : List Char) : Prop := ∃ rest d, IsValueText (text ++ rest) d

variable {text : List Char} {state : Progress}

theorem Viable.of_append {rest : List Char} (h : Viable (text ++ rest)) : Viable text := by
  obtain ⟨more, d, hd⟩ := h
  exact ⟨rest ++ more, d, by rwa [← List.append_assoc]⟩

/-- An application that is open can be finished. -/
theorem Unfinished.exists_derives {f : Frame} {inner : List Char} {i : Nat}
    (h : Unfinished f inner) (hstart : f.start = i) :
    ∃ rest d, Derives i (inner ++ rest) (.operand d) := by
  subst hstart
  cases h with
  | @operator i gap hgap =>
    have hcore : Derives i (applied gap ['a'] [] []) _ := .apply hgap rfl .none blanks_nil
    exact ⟨['a', ')'], _, by simpa [applied] using hcore⟩
  | @operands i gap name args close ds hgap hname hargs hclose =>
    have hcore := Derives.apply (i := i) hgap hname hargs hclose
    exact ⟨[')'], _, by simpa [applied, frameOf] using hcore⟩

/-- Finishing the open applications one after another completes a text. -/
theorem viable_of_within {f : Frame} {outer : List Frame} (h : Consumed text (.within f outer)) :
    Viable text := by
  induction outer generalizing f text with
  | nil =>
    obtain ⟨before, inner, rfl, houter, hstart, hinner⟩ := h
    obtain ⟨rest, d, hd⟩ := hinner.exists_derives hstart
    have hcomplete : IsValueText (before ++ (inner ++ rest)) d := consumed_finish houter hd
    exact ⟨rest, d, by rwa [List.append_assoc]⟩
  | cons g outer ih =>
    obtain ⟨before, inner, rfl, houter, hstart, hinner⟩ := h
    obtain ⟨rest, d, hd⟩ := hinner.exists_derives hstart
    have hwithin := ih (consumed_finish houter hd)
    rw [← List.append_assoc] at hwithin
    exact hwithin.of_append

theorem Consumed.viable (h : Consumed text state) : Viable text := by
  cases state with
  | pending =>
    have hzero : Derives text.length ['0'] (.operand (.atom (.number false 10 ['0']) _)) :=
      .atom (.unsigned (.decimal (.one (by decide))))
    exact ⟨['0'], _, text, ['0'], [], rfl, h, blanks_nil, hzero⟩
  | within f outer => exact viable_of_within h
  | complete d => exact ⟨[], d, by rwa [List.append_nil]⟩

end Completion

section Ends

variable {text : List Char} {state : Progress} {opened : Nat}

theorem Unfinished.balanced {f : Frame} {inner : List Char} (h : Unfinished f inner)
    (rest : List Char) : Balanced opened (inner ++ rest) ↔ Balanced (opened + 1) rest := by
  cases h with
  | operator hgap => exact (hgap.nests (opened + 1) rest).1
  | operands hgap hname hargs hclose =>
    have hinner := hgap.nests.append
      ((nests_of_isName hname).append (hargs.nests.append hclose.nests))
    exact (hinner (opened + 1) rest).1

theorem Opened.balanced {frames : List Frame} (h : Opened frames text) (rest : List Char) :
    Balanced opened (text ++ rest) ↔ Balanced (opened + frames.length) rest := by
  induction h generalizing rest with
  | nil hblanks => exact (hblanks.nests opened rest).1
  | cons _ _ _ hunfinished ih =>
    rw [List.append_assoc, ih, hunfinished.balanced, List.length_cons, Nat.add_assoc]

/-- A text whose parentheses match is not read to its end in vain. -/
theorem Consumed.complete_of_nestingFault? (h : Consumed text state)
    (hnesting : nestingFault? text = none) : ∃ d, state = .complete d := by
  obtain ⟨⟨c, hc, hspace⟩, hbalanced, _⟩ := nestingFault?_eq_none.mp hnesting
  cases state with
  | pending => simp [Text.isSpace_of_isBlank (h c hc)] at hspace
  | within f outer =>
    obtain ⟨before, inner, rfl, houter, _, hinner⟩ := h
    rw [← List.append_nil (before ++ inner), List.append_assoc, houter.balanced,
      hinner.balanced] at hbalanced
    simp [Balanced] at hbalanced
  | complete d => exact ⟨d, rfl⟩

end Ends

section Stops

/-- Reading that stops has read some pieces, whatever came behind them, and then either meets a
piece that does not fit or the end. -/
theorem exists_consumed_of_readFrom {text : List Char} {state : Progress} {pieces : List Lexeme}
    {s : Nat} (hconsumed : Consumed text state) (hproper : ∀ piece ∈ pieces, piece.Proper)
    (h : readFrom text.length state pieces = .error s) :
    ∃ before after last, pieces = before ++ after ∧
      s = (text ++ before.flatMap Lexeme.text).length ∧
      Consumed (text ++ before.flatMap Lexeme.text) last ∧
      (∀ rest, readFrom text.length state (before ++ rest) = readFrom s last rest) ∧
      (after = [] ∧ (∀ d, last ≠ .complete d) ∨
        ∃ piece rest, after = piece :: rest ∧ last.step s piece = none) := by
  induction pieces generalizing text state with
  | nil =>
    refine ⟨[], [], state, rfl, ?_, by simpa using hconsumed, ?_, .inl ⟨rfl, ?_⟩⟩
    all_goals cases state <;> simp_all [readFrom]
  | cons piece pieces ih =>
    obtain ⟨hpiece, hpieces⟩ := List.forall_mem_cons.mp hproper
    cases hstep : state.step text.length piece with
    | none =>
      obtain rfl : text.length = s := by simpa [readFrom, hstep] using h
      exact ⟨[], piece :: pieces, state, rfl, by simp, by simpa using hconsumed, fun _ => rfl,
        .inr ⟨piece, pieces, rfl, hstep⟩⟩
    | some next =>
      rw [readFrom_cons hstep, ← List.length_append] at h
      obtain ⟨before, after, last, rfl, hs, hlast, hread, hstop⟩ :=
        ih (hconsumed.step hpiece hstep) hpieces h
      have htext : text ++ (piece :: before).flatMap Lexeme.text =
          text ++ piece.text ++ before.flatMap Lexeme.text := by simp
      refine ⟨piece :: before, after, last, rfl, htext ▸ hs, htext ▸ hlast, fun rest => ?_, hstop⟩
      rw [List.cons_append, readFrom_cons hstep, ← List.length_append, hread]

/-- Blanks fit everywhere. -/
theorem step_blanks_isSome (state : Progress) (i : Nat) (c : Char) (cs : List Char) :
    (state.step i (.blanks c cs)).isSome := by
  cases state with
  | pending | complete => rfl
  | within f outer =>
    obtain ⟨start, operator, operands, separated⟩ := f
    cases operator <;> rfl

/-- Where reading stops in a text whose parentheses match, a piece stands that does not fit. It
would not fit in any text that starts with the same pieces. -/
theorem exists_misfit_of_readDraft {text : List Char} {s : Nat}
    (hnesting : nestingFault? text = none) (h : readDraft text = .error s) :
    ∃ before piece after, lexemes text = before ++ piece :: after ∧
      s = (before.flatMap Lexeme.text).length ∧ Viable (before.flatMap Lexeme.text) ∧
      (∀ c cs, piece ≠ .blanks c cs) ∧
      ∀ text' rest, lexemes text' = before ++ piece :: rest → readDraft text' = .error s := by
  have hstart : Consumed [] .pending := blanks_nil
  obtain ⟨before, after, last, hpieces, hs, hlast, hread, hstop⟩ :=
    exists_consumed_of_readFrom hstart (proper_lexemes text) h
  rw [List.nil_append] at hs hlast
  rcases hstop with ⟨rfl, hincomplete⟩ | ⟨piece, rest, rfl, hmisfit⟩
  · have htext : before.flatMap Lexeme.text = text := by
      rw [← flatMap_text_lexemes text, hpieces, List.append_nil]
    obtain ⟨d, rfl⟩ := (htext ▸ hlast).complete_of_nestingFault? hnesting
    exact absurd rfl (hincomplete d)
  · refine ⟨before, piece, rest, hpieces, hs, hlast.viable, ?_, fun text' rest' htext' => ?_⟩
    · rintro c cs rfl
      simpa [hmisfit] using step_blanks_isSome last s c cs
    · rw [readDraft, htext']
      exact (hread _).trans (by rw [readFrom, hmisfit])

end Stops

section Tokens

variable {c : Char} {cs : List Char}

/-- The token at a place is the part of the text that its span covers. Its first piece is the one
that stands there, whatever follows the token. -/
theorem exists_token (front : List Char) (hc : Text.isSpace c = false) :
    ∃ token piece, tokenSpan (front ++ c :: cs) front.length =
        ⟨front.length, front.length + token.length⟩ ∧
      token ≠ [] ∧ token <+: c :: cs ∧ (∃ pieces, lexemes (c :: cs) = piece :: pieces) ∧
      ∀ rest, EndsToken rest → ∃ pieces, lexemes (token ++ rest) = piece :: pieces := by
  have hspan : tokenSpan (front ++ c :: cs) front.length =
      if c = '(' ∨ c = ')' then ⟨front.length, front.length + 1⟩
      else ⟨front.length, front.length + ((c :: cs).takeWhile fun d => !endsToken d).length⟩ := by
    rw [tokenSpan, List.drop_left]
  by_cases hopening : c = '('
  · subst hopening
    exact ⟨['('], .opening, hspan, by simp, by simp, ⟨_, rfl⟩, fun rest _ => ⟨_, rfl⟩⟩
  by_cases hclosing : c = ')'
  · subst hclosing
    exact ⟨[')'], .closing, hspan, by simp, by simp, ⟨_, rfl⟩, fun rest _ => ⟨_, rfl⟩⟩
  have hinside : endsToken c = false := by simp [endsToken, hopening, hclosing, hc]
  -- the token is a run of characters that end no token
  obtain ⟨token, hrun⟩ : ∃ token, (c :: cs).takeWhile (fun d => !endsToken d) = c :: token :=
    ⟨_, List.takeWhile_cons_of_pos (by simp [hinside])⟩
  have htoken : ∀ d ∈ c :: token, endsToken d = false := by
    rw [← hrun]
    intro d hd
    simpa using List.all_eq_true.mp List.all_takeWhile d hd
  have hback : EndsToken ((c :: cs).dropWhile fun d => !endsToken d) := by
    intro d hd
    have hnot := List.head?_dropWhile_not (fun d => !endsToken d) (c :: cs)
    rw [Option.mem_def] at hd
    simpa [hd] using hnot
  obtain ⟨piece, pieces, hpieces⟩ : ∃ piece pieces, lexemes (c :: token) = piece :: pieces :=
    List.exists_cons_of_ne_nil push_ne_nil
  have hfirst : ∀ rest, EndsToken rest → ∃ pieces, lexemes (c :: token ++ rest) = piece :: pieces :=
    fun rest hrest =>
      ⟨pieces ++ lexemes rest, by rw [lexemes_token_append htoken hrest, hpieces]; rfl⟩
  refine ⟨c :: token, piece, ?_, List.cons_ne_nil c token, hrun ▸ List.takeWhile_prefix _, ?_,
    hfirst⟩
  · rw [hspan, if_neg (by simp [hopening, hclosing]), hrun]
  · have hown := hfirst _ hback
    rwa [← hrun, List.takeWhile_append_dropWhile] at hown

end Tokens

/-- A piece that is no run of blanks starts with a character that is none. -/
theorem isBlank_of_lexemes {c : Char} {cs : List Char} {piece : Lexeme} {pieces : List Lexeme}
    (h : lexemes (c :: cs) = piece :: pieces) (hblanks : ∀ c cs, piece ≠ .blanks c cs) :
    Text.isBlank c = false := by
  cases hc : Text.isBlank c with
  | false => rfl
  | true =>
    rw [lexemes_cons, push_of_isBlank hc] at h
    split at h
    · exact absurd (List.cons.inj h).1.symm (hblanks _ _)
    · exact absurd (List.cons.inj h).1.symm (hblanks _ _)

/-- A piece that is no run of blanks stands at a character that is none. -/
theorem exists_text_of_lexemes {text : List Char} {before after : List Lexeme} {piece : Lexeme}
    (hpieces : lexemes text = before ++ piece :: after) (hblanks : ∀ c cs, piece ≠ .blanks c cs) :
    ∃ c cs, text = before.flatMap Lexeme.text ++ c :: cs ∧ lexemes (c :: cs) = piece :: after ∧
      Text.isBlank c = false := by
  have hafter := lexemes_suffix hpieces
  obtain ⟨c, cs, hback⟩ : ∃ c cs, (piece :: after).flatMap Lexeme.text = c :: cs := by
    refine List.exists_cons_of_ne_nil fun hnil => ?_
    rw [hnil] at hafter
    cases hafter
  rw [hback] at hafter
  refine ⟨c, cs, ?_, hafter, isBlank_of_lexemes hafter hblanks⟩
  rw [← hback, ← List.flatMap_append, ← hpieces, flatMap_text_lexemes]

theorem lt_length_of_readDraft {text : List Char} {s : Nat} (hnesting : nestingFault? text = none)
    (h : readDraft text = .error s) : s < text.length := by
  obtain ⟨before, piece, after, hpieces, rfl, _, hblanks, _⟩ :=
    exists_misfit_of_readDraft hnesting h
  obtain ⟨c, cs, htext, _⟩ := exists_text_of_lexemes hpieces hblanks
  have hlength := congrArg List.length htext
  rw [List.length_append, List.length_cons] at hlength
  omega

/-- Where reading stops in a text whose parentheses match, a token stands. What comes before it can
be completed to a value text. With the token, reading stops there whatever follows. -/
theorem exists_token_of_readDraft {text : List Char} {s : Nat}
    (hnesting : nestingFault? text = none)
    (hseparators : ∀ c ∈ text, ¬ (0x1C ≤ c.toNat ∧ c.toNat ≤ 0x1F))
    (h : readDraft text = .error s) :
    ∃ front token back, text = front ++ (token ++ back) ∧ front.length = s ∧ token ≠ [] ∧
      tokenSpan text s = ⟨s, s + token.length⟩ ∧ Viable front ∧
      ∀ rest, EndsToken rest → readDraft (front ++ (token ++ rest)) = .error s := by
  obtain ⟨before, piece, after, hpieces, rfl, hviable, hblanks, hmisfit⟩ :=
    exists_misfit_of_readDraft hnesting h
  obtain ⟨c, cs, htext, hafter, hblank⟩ := exists_text_of_lexemes hpieces hblanks
  generalize before.flatMap Lexeme.text = front at *
  subst htext
  have hspace : Text.isSpace c = false := by
    simpa [Text.isSpace, hblank] using hseparators c (by simp)
  obtain ⟨token, first, hspan, hne, ⟨back, hcs⟩, ⟨_, hfirst⟩, hrest⟩ :=
    exists_token front hspace
  obtain rfl : first = piece := (List.cons.inj (hfirst.symm.trans hafter)).1
  refine ⟨front, token, back, by rw [hcs], rfl, hne, hspan, hviable, fun rest hends => ?_⟩
  obtain ⟨_, htoken⟩ := hrest rest hends
  exact hmisfit _ _ (lexemes_replace_rest hpieces hafter htoken)

/-- Ordered choices match the value texts, if parentheses match. -/
theorem isValueText_iff_tries {text : List Char} (hnesting : nestingFault? text = none) :
    (∃ d, IsValueText text d) ↔ ∃ r, Tries text (.rule .value) 0 none (some text.length) r := by
  refine ⟨fun ⟨d, hd⟩ => hd.tries, fun ⟨r, hr⟩ => ?_⟩
  cases hread : readDraft text with
  | ok d => exact ⟨d, readDraft_eq_ok.mp hread⟩
  | error s =>
    cases (failsAt_iff_of_readDraft hread (lt_length_of_readDraft hnesting hread) s).mpr rfl with
    | mismatch hs => exact nomatch (hs.unique hr).1
    | incomplete hs hlt =>
      obtain rfl := Option.some.inj (hs.unique hr).1
      exact absurd hlt (Nat.lt_irrefl _)

/-- A malformed value text whose parentheses match is reported at the one place where ordered
choices fail, and this is the first token that does not belong there. What comes before the token
can be completed to a value text. Followed by a space, a parenthesis or the end, the token cannot.
-/
theorem parse_malformed (ops : OperatorRegistry) (text : String) (constant : Option String)
    (hnesting : nestingFault? text.toList = none)
    (hseparators : ∀ c ∈ text.toList, ¬ (0x1C ≤ c.toNat ∧ c.toNat ≤ 0x1F))
    (hmalformed : ∀ d, ¬ IsValueText text.toList d) :
    ∃ s e, Expr.parse ops text constant = .error (.reported
        { fault := .expression (describe text.toList s), constant, source := some text,
          span := some ⟨s, e⟩ }) ∧
      (∀ k, FailsAt text.toList k ↔ k = s) ∧
      s < e ∧ e ≤ text.toList.length ∧ Viable (text.toList.take s) ∧
      ∀ rest, EndsToken rest → ∀ d, ¬ IsValueText (text.toList.take e ++ rest) d := by
  cases hread : readDraft text.toList with
  | ok d => exact absurd (readDraft_eq_ok.mp hread) (hmalformed d)
  | error s =>
    have hfails := failsAt_iff_of_readDraft hread (lt_length_of_readDraft hnesting hread)
    obtain ⟨front, token, back, htext, rfl, hne, hspan, hviable, hstops⟩ :=
      exists_token_of_readDraft hnesting hseparators hread
    have htoken : 0 < token.length := List.length_pos_iff.mpr hne
    have hparse : Expr.parse ops text constant = .error (.reported
        { fault := .expression (describe text.toList front.length), constant, source := some text,
          span := some (tokenSpan text.toList front.length) }) := by
      rw [Expr.parse, parseText, hnesting, hread]
      rfl
    refine ⟨front.length, front.length + token.length, hspan ▸ hparse, hfails, by omega, ?_, ?_, ?_⟩
    · rw [htext, List.length_append, List.length_append]
      omega
    · rw [htext]
      simpa using hviable
    · intro rest hrest d hd
      have htake : text.toList.take (front.length + token.length) = front ++ token := by
        rw [htext, ← List.append_assoc, ← List.length_append, List.take_left]
      rw [htake, List.append_assoc] at hd
      exact nomatch (hstops rest hrest).symm.trans (readDraft_eq_ok.mpr hd)

theorem parse_malformed_operandInside :
    Expr.parse .builtin "(add 1 (max 2 3x) 4)" none = .error (.reported
      { fault := .expression (.unexpected "3x"), source := some "(add 1 (max 2 3x) 4)",
        span := some ⟨14, 16⟩ }) ∧
    (∀ k, FailsAt "(add 1 (max 2 3x) 4)".toList k ↔ k = 14) ∧ Viable "(add 1 (max 2 ".toList ∧
    ∀ d, ¬ IsValueText "(add 1 (max 2 3x) 5 6)".toList d := by
  have hread : readDraft "(add 1 (max 2 3x) 4)".toList = .error 14 := rfl
  have hparse : Expr.parse .builtin "(add 1 (max 2 3x) 4)" none = .error (.reported
      { fault := .expression (.unexpected "3x"), source := some "(add 1 (max 2 3x) 4)",
        span := some ⟨14, 16⟩ }) := rfl
  obtain ⟨s, e, hmalformed, hfails, _, _, hviable, hnot⟩ :=
    parse_malformed .builtin "(add 1 (max 2 3x) 4)" none rfl (by simp) fun d hd =>
      nomatch (readDraft_eq_ok.mpr hd).symm.trans hread
  have hsame := hparse.symm.trans hmalformed
  simp only [Except.error.injEq, Failure.reported.injEq, Diagnostic.mk.injEq, Option.some.injEq,
    Span.mk.injEq] at hsame
  obtain ⟨_, _, _, _, _, ⟨rfl, rfl⟩, _⟩ := hsame
  exact ⟨hparse, hfails, hviable, hnot ") 5 6)".toList (by simp [EndsToken, endsToken])⟩

end SharedConstants.Expr
