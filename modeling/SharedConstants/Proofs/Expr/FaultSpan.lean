import SharedConstants.Proofs.Expr.Position
import SharedConstants.Proofs.Success

/-!
# Places of faults in value texts

What is reported about a value text is placed at a part of it. This part is empty only if reading
stops at an information separator, which the grammar does not count as a blank and the search for
the end of a token counts as a space.
-/
namespace SharedConstants.Expr

variable {ops : OperatorRegistry} {i n : Nat} {d : Diagnostic}

/-- A diagnostic marks a part of the `n` characters from a position on. The part is not empty, and
the diagnostic quotes no token. -/
structure Marks (i n : Nat) (d : Diagnostic) : Prop where
  span : ∃ s e, d.span = some ⟨s, e⟩ ∧ i ≤ s ∧ s < e ∧ e ≤ i + n
  source : d.source = none
  unquoted : ∀ token, d.fault ≠ .expression (.unexpected token)

theorem Marks.mono {j m : Nat} (h : Marks j m d) (hij : i ≤ j) (hle : j + m ≤ i + n) :
    Marks i n d := by
  obtain ⟨⟨s, e, hspan, hstart, hless, hstop⟩, hsource, hunquoted⟩ := h
  exact ⟨⟨s, e, hspan, by omega, hless, by omega⟩, hsource, hunquoted⟩

theorem marks_of_span {s e : Nat} (hspan : d.span = some ⟨s, e⟩) (hsource : d.source = none)
    (hunquoted : ∀ token, d.fault ≠ .expression (.unexpected token)) (hless : s < e) :
    Marks s (e - s) d :=
  ⟨⟨s, e, hspan, Nat.le_refl s, hless, by omega⟩, hsource, hunquoted⟩

/-- The diagnostic of a fault in the nesting. -/
def Mark.diagnostic (mark : Mark) : Diagnostic :=
  { fault := .expression mark.fault, span := some mark.span }

theorem marks_markAt {fault : ExpressionFault} (i : Nat)
    (hunquoted : ∀ token, fault ≠ .unexpected token) : Marks i 1 (markAt fault i).diagnostic := by
  have hfault : ∀ token, (markAt fault i).diagnostic.fault ≠ .expression (.unexpected token) :=
    fun token h => hunquoted token (Fault.expression.inj h)
  simpa using marks_of_span rfl rfl hfault (Nat.lt_succ_self i)

/-- What matching the parentheses finds stands at a parenthesis. -/
theorem marks_of_matchFrom {i : Nat} {opened : List Nat} {text : List Char} {mark : Mark}
    (hopened : ∀ p ∈ opened, p < i) (h : matchFrom i opened text = some mark) :
    Marks 0 (i + text.length) mark.diagnostic := by
  have hhere : ∀ {i m : Nat} {fault : ExpressionFault}, i < m →
      (∀ token, fault ≠ .unexpected token) → Marks 0 m (markAt fault i).diagnostic :=
    fun him hunquoted => (marks_markAt _ hunquoted).mono (Nat.zero_le _) (by omega)
  induction text generalizing i opened with
  | nil =>
    obtain ⟨p, hp, rfl⟩ := Option.map_eq_some_iff.mp h
    exact hhere (Nat.lt_of_lt_of_le (hopened p (List.mem_of_mem_head? hp)) (by simp)) (by simp)
  | cons c rest ih =>
    have hi : i < i + (c :: rest).length := by simp
    have hlater : ∀ p ∈ opened, p < i + 1 := fun p hp => Nat.lt_succ_of_lt (hopened p hp)
    have hrest : ∀ {opened}, (∀ p ∈ opened, p < i + 1) → matchFrom (i + 1) opened rest = some mark →
        Marks 0 (i + (c :: rest).length) mark.diagnostic := fun hopened h => by
      simpa [Nat.add_comm, Nat.add_left_comm] using ih hopened h
    unfold matchFrom at h
    split at h
    · split at h
      · exact hrest (List.forall_mem_cons.mpr ⟨Nat.lt_succ_self i, hlater⟩) h
      · obtain rfl := Option.some.inj h
        exact hhere hi (by simp)
    · split at h
      · cases opened with
        | nil =>
          obtain rfl := Option.some.inj h
          exact hhere hi (by simp)
        | cons p outer => exact hrest (List.forall_mem_cons.mp hlater).2 h
      · exact hrest hlater h

/-- An empty text counts as one character, so that its fault can be shown. -/
theorem marks_of_nestingFault? {text : List Char} {mark : Mark}
    (h : nestingFault? text = some mark) : Marks 0 (max 1 text.length) mark.diagnostic := by
  rw [nestingFault?] at h
  split at h
  · obtain rfl := Option.some.inj h
    exact ⟨⟨0, _, rfl, Nat.le_refl _, by omega, by omega⟩, rfl, by simp [Mark.diagnostic]⟩
  · exact (marks_of_matchFrom (List.forall_mem_nil _) h).mono (Nat.le_refl _) (by omega)

section Drafts

theorem readNumber_error {negative : Bool} {radix : Nat} {digits : List Char} {s e : Nat}
    (hless : s < e) (h : readNumber negative radix digits ⟨s, e⟩ = .error (.reported d)) :
    Marks s (e - s) d := by
  unfold readNumber at h
  split at h
  · simp at h
  · simp only [Value.checkRange] at h
    split at h
    · cases h
    · next fault hfault =>
      split at hfault
      · cases hfault
      · cases hfault
        split at h
        · cases h
          exact marks_of_span rfl rfl (by simp) hless
        · simp at h

theorem checkApplication_error {name : String} {nameSpan span : Span} {given : Nat}
    (h : checkApplication ops name nameSpan given span = .error (.reported d)) :
    (d.span = some nameSpan ∨ d.span = some span) ∧ d.source = none ∧
      ∀ token, d.fault ≠ .expression (.unexpected token) := by
  unfold checkApplication at h
  split at h
  · cases h
    exact ⟨.inl rfl, rfl, by simp⟩
  · split at h
    · cases h
    · cases h
      exact ⟨.inr rfl, rfl, by simp⟩

theorem ofDrafts_error {ds : List Draft} {failure : Failure}
    (h : ofDrafts ops ds = .error failure) : ∃ a ∈ ds, ofDraft ops a = .error failure := by
  induction ds with
  | nil => cases h
  | cons a ds ih =>
    rw [ofDrafts] at h
    cases ha : ofDraft ops a with
    | error failure' =>
      obtain rfl : failure' = failure := by simpa [ha] using h
      exact ⟨a, List.mem_cons_self, ha⟩
    | ok e =>
      cases hds : ofDrafts ops ds with
      | ok es => simp [ha, hds] at h
      | error failure' =>
        obtain rfl : failure' = failure := by simpa [ha, hds] using h
        obtain ⟨b, hb, hfails⟩ := ih hds
        exact ⟨b, List.mem_cons_of_mem a hb, hfails⟩

/-- A draft in a phrase becomes no expression, and this is reported. -/
def Phrase.Reports (ops : OperatorRegistry) (d : Diagnostic) : Phrase → Prop
  | .operand a => ofDraft ops a = .error (.reported d)
  | .operands ds => ∃ a ∈ ds, ofDraft ops a = .error (.reported d)

/-- What is reported of a derived text is placed in it. -/
theorem Derives.marks {text : List Char} {p : Phrase} (h : Derives i text p)
    (hreports : p.Reports ops d) : Marks i text.length d := by
  induction h with
  | @atom i text a hspells =>
    obtain ⟨c, cs, rfl, _⟩ := hspells.head
    cases a with
    | boolean b => cases hreports
    | name name => cases hreports
    | number negative radix digits =>
      simp only [Phrase.Reports, ofDraft] at hreports
      split at hreports
      · cases hreports
      · next failure hfails =>
        obtain rfl := Except.error.inj hreports
        have hmarks := readNumber_error (by simp) hfails
        exact hmarks.mono (Nat.le_refl _) (by omega)
  | @apply i gap name args close ds hgap hname hargs hclose ih =>
    obtain ⟨c, cs, rfl, _⟩ := isName_eq_true hname
    simp only [Phrase.Reports, ofDraft] at hreports
    split at hreports
    · next failure hfails =>
      obtain rfl := Except.error.inj hreports
      refine (ih (ofDrafts_error hfails)).mono (by omega) ?_
      simp only [length_applied]
      omega
    · split at hreports
      · cases hreports
      · next failure hfails =>
        obtain rfl := Except.error.inj hreports
        obtain ⟨hspan | hspan, hsource, hunquoted⟩ := checkApplication_error hfails
        · refine (marks_of_span hspan hsource hunquoted (by simp)).mono (by omega) ?_
          simp only [length_applied]
          omega
        · refine (marks_of_span hspan hsource hunquoted (by simp)).mono (Nat.le_refl i) ?_
          omega
  | none =>
    obtain ⟨_, hmem, _⟩ := hreports
    cases hmem
  | @more i args gap text ds a hargs hgap hne ha ihargs iha =>
    obtain ⟨b, hb, hfails⟩ := hreports
    rcases List.mem_append.mp hb with hb | hb
    · exact (ihargs ⟨b, hb, hfails⟩).mono (Nat.le_refl _) (by simp)
    · obtain rfl := List.mem_singleton.mp hb
      exact (iha hfails).mono (by omega) (by simp; omega)

end Drafts

/-- The token at a character is empty if the character is a space, and only then. -/
theorem exists_tokenSpan (front : List Char) (c : Char) (cs : List Char) :
    ∃ n, tokenSpan (front ++ c :: cs) front.length = ⟨front.length, front.length + n⟩ ∧
      n ≤ (c :: cs).length ∧ (n = 0 ↔ Text.isSpace c = true) := by
  cases hc : Text.isSpace c with
  | false =>
    obtain ⟨token, _, hspan, hne, hprefix, _⟩ := @exists_token c cs front hc
    exact ⟨token.length, hspan, hprefix.length_le, by simpa using hne⟩
  | true =>
    -- a space ends the token where it starts
    have hopening : c ≠ '(' := by rintro rfl; exact absurd hc (by decide)
    have hclosing : c ≠ ')' := by rintro rfl; exact absurd hc (by decide)
    refine ⟨0, ?_, Nat.zero_le _, by simp⟩
    rw [tokenSpan, List.drop_left]
    simp [hopening, hclosing, endsToken, hc]

/-- The characters that are spaces, but no blanks of the grammar. -/
def IsSeparator (c : Char) : Prop := 0x1C ≤ c.toNat ∧ c.toNat ≤ 0x1F

theorem isSpace_of_not_isBlank {c : Char} (h : Text.isBlank c = false) :
    Text.isSpace c = true ↔ IsSeparator c := by
  simp [Text.isSpace, IsSeparator, h]

/-- Where reading stops, the part that is reported is empty if a separator stands there, and only
then. -/
theorem exists_tokenSpan_of_readDraft {text : List Char} {s : Nat}
    (hnesting : nestingFault? text = none) (h : readDraft text = .error s) :
    ∃ e, tokenSpan text s = ⟨s, e⟩ ∧ s < text.length ∧ s ≤ e ∧ e ≤ text.length ∧
      (s = e ↔ ∃ c ∈ text[s]?, IsSeparator c) := by
  obtain ⟨before, piece, after, hpieces, rfl, _, hblanks, _⟩ :=
    exists_misfit_of_readDraft hnesting h
  obtain ⟨c, cs, htext, _, hblank⟩ := exists_text_of_lexemes hpieces hblanks
  generalize before.flatMap Lexeme.text = front at *
  subst htext
  obtain ⟨n, hspan, hn, hzero⟩ := exists_tokenSpan front c cs
  rw [isSpace_of_not_isBlank hblank] at hzero
  rw [List.length_append]
  refine ⟨front.length + n, hspan, by simp, by omega, by omega, ?_⟩
  simp [← hzero]

theorem describe_eq_unexpected {text : List Char} {s : Nat} {token : String}
    (h : describe text s = .unexpected token) :
    token = String.ofList (slice text (tokenSpan text s)) := by
  simp only [describe] at h
  split at h
  · cases h
  · split at h
    · split at h <;> cases h
    · split at h
      · cases h
      · exact (ExpressionFault.unexpected.inj h).symm

theorem slice_eq_nil {text : List Char} {s e : Nat} (hless : s ≤ e) (hstop : e ≤ text.length) :
    slice text ⟨s, e⟩ = [] ↔ s = e := by
  simp only [slice, List.drop_eq_nil_iff, List.length_take]
  omega

/-- A text is reported where reading stops, or for a fault that is marked in it. -/
theorem parseText_error {text : List Char} (h : parseText ops text = .error (.reported d)) :
    (∃ s, nestingFault? text = none ∧ readDraft text = .error s ∧ d = stoppedAt text s) ∨
      Marks 0 (max 1 text.length) d ∧
        ∀ s, ¬ (nestingFault? text = none ∧ readDraft text = .error s) := by
  unfold parseText at h
  split at h
  · next mark hmark =>
    cases h
    exact .inr ⟨marks_of_nestingFault? hmark, by simp [hmark]⟩
  · next hnesting =>
    split at h
    · next s hstopped =>
      cases h
      exact .inl ⟨s, hnesting, hstopped, rfl⟩
    · next draft hread =>
      obtain ⟨before, core, after, rfl, _, _, hderives⟩ := readDraft_eq_ok.mp hread
      refine .inr ⟨(hderives.marks h).mono (Nat.zero_le _) ?_, by simp [hread]⟩
      simp only [List.length_append]
      omega

/-- What is reported of a value text carries the text and a part of it; of an empty text the part
is one character long. The part is empty in one case: the parentheses match, and reading stops at
an information separator. A token that is quoted is the part that is reported, so that an empty one
is quoted in this case only. -/
theorem parse_fault_span (ops : OperatorRegistry) (text : String) (constant : Option String)
    (d : Diagnostic) (h : Expr.parse ops text constant = .error (.reported d)) :
    d.source = some text ∧ ∃ s e, d.span = some ⟨s, e⟩ ∧ s < max 1 text.length ∧ s ≤ e ∧
      e ≤ max 1 text.length ∧
      (s = e ↔ nestingFault? text.toList = none ∧ readDraft text.toList = .error s ∧
        ∃ c ∈ text.toList[s]?, IsSeparator c) ∧
      ∀ token, d.fault = .expression (.unexpected token) →
        token = String.ofList (slice text.toList ⟨s, e⟩) ∧ (token = "" ↔ s = e) := by
  obtain ⟨reported, hread, rfl⟩ : ∃ reported, parseText ops text.toList =
      .error (.reported reported) ∧ reported.attach constant none (some text) none = d := by
    obtain ⟨failure, hread, hfailure⟩ := mapError_eq_error.mp h
    cases failure with
    | oversized | tooDeep => cases hfailure
    | reported reported => exact ⟨reported, hread, Failure.reported.inj hfailure⟩
  rw [← String.length_toList]
  rcases parseText_error hread with ⟨s, hnesting, hstopped, rfl⟩ | ⟨hmarks, hread⟩
  · obtain ⟨e, hspan, hstart, hless, hstop, hempty⟩ :=
      exists_tokenSpan_of_readDraft hnesting hstopped
    refine ⟨rfl, s, e, congrArg some hspan, by omega, hless, by omega, ?_, fun token htoken => ?_⟩
    · rw [hempty]
      simp only [hnesting, hstopped, true_and]
    · have htoken := describe_eq_unexpected (Fault.expression.inj htoken)
      rw [hspan] at htoken
      refine ⟨htoken, ?_⟩
      rw [htoken, ← slice_eq_nil hless hstop, String.ofList_eq_empty_iff]
  · obtain ⟨⟨s, e, hspan, _, hless, hstop⟩, hsource, hunquoted⟩ := hmarks
    refine ⟨by simp [Diagnostic.attach, hsource], s, e, by simp [Diagnostic.attach, hspan],
      by omega, by omega, by omega, iff_of_false (Nat.ne_of_lt hless) ?_, fun token htoken => ?_⟩
    · rintro ⟨hnesting, hstopped, _⟩
      exact hread s ⟨hnesting, hstopped⟩
    · exact absurd htoken (hunquoted token)

theorem parse_fault_span_stray :
    Expr.parse .builtin "(max 1 @2)" none = .error (.reported
      { fault := .expression (.unexpected "@2"), source := some "(max 1 @2)",
        span := some ⟨7, 9⟩ }) ∧
    "@2" = String.ofList (slice "(max 1 @2)".toList ⟨7, 9⟩) ∧
    ¬ ∃ c ∈ "(max 1 @2)".toList[7]?, IsSeparator c := by
  have hparse : Expr.parse .builtin "(max 1 @2)" none = .error (.reported
      { fault := .expression (.unexpected "@2"), source := some "(max 1 @2)",
        span := some ⟨7, 9⟩ }) := rfl
  obtain ⟨_, s, e, hspan, _, _, _, hempty, hquoted⟩ := parse_fault_span .builtin _ _ _ hparse
  obtain ⟨rfl, rfl⟩ := Span.mk.inj (Option.some.inj hspan)
  refine ⟨hparse, (hquoted "@2" rfl).1, fun hseparator => ?_⟩
  exact absurd (hempty.mpr ⟨rfl, rfl, hseparator⟩) (by decide)

/-- A separator behind a number is no blank, and the token that starts at it is empty. -/
theorem parse_trailingSeparator :
    ∃ d, Expr.parse .builtin "1\x1c" none = .error (.reported d) ∧ d.message = "Unexpected ''" ∧
      ∀ s e, d.span = some ⟨s, e⟩ → ¬ s < e := by
  refine ⟨{ fault := .expression (.unexpected ""), source := some "1\x1c", span := some ⟨1, 1⟩ },
    rfl, by decide +kernel, fun s e hspan => ?_⟩
  obtain ⟨rfl, rfl⟩ := Span.mk.inj (Option.some.inj hspan)
  exact Nat.lt_irrefl 1

end SharedConstants.Expr
