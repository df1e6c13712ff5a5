import SharedConstants.Proofs.Expr.Attempt
import SharedConstants.Proofs.Expr.Cutting
import SharedConstants.Proofs.Expr.Reading

/-!
# Reading stops where ordered choices fail

The parser with ordered choices matches an operand or an application where reading finishes it.
Where reading stops before the end of the text, the last failure of the parser is recorded or its
match ends.
-/
namespace SharedConstants.Expr

open Text (isWordChar isNameStart isBlank)

section Pieces

variable {text : List Char} {piece : Lexeme} {pieces : List Lexeme}

/-- No word stands directly behind a word or a sign. -/
theorem atom?_of_lexemes_word {c : Char} {cs : List Char}
    (h : lexemes text = piece :: .word c cs :: pieces) : piece.atom? = none := by
  have hpiece : (∀ d ds, piece ≠ .word d ds) ∧ ∀ negative run, piece ≠ .signed negative run := by
    induction text generalizing piece with
    | nil => cases h
    | cons d text ih =>
      rw [lexemes_cons] at h
      generalize lexemes text = pieces at *
      unfold Lexeme.push Lexeme.pushSign at h
      grind
  cases piece with
  | word d ds => exact absurd rfl (hpiece.1 d ds)
  | signed negative run => exact absurd rfl (hpiece.2 negative run)
  | _ => rfl

/-- Where no operand is spelled, the piece that stands there is none. -/
theorem atom?_of_not_spelled (h : lexemes text = piece :: pieces) (hno : ∀ a, ¬ Spelled text a) :
    piece.atom? = none := by
  cases hatom : piece.atom? with
  | none => rfl
  | some a =>
    have hproper := proper_lexemes text piece (by rw [h]; exact List.mem_cons_self)
    have htext : text = piece.text ++ pieces.flatMap Lexeme.text := by
      rw [← List.flatMap_cons, ← h, flatMap_text_lexemes]
    refine absurd ⟨piece.text, _, htext, spells_of_atom? hproper hatom, fun c hc => ?_⟩ (hno a)
    cases hword : isWordChar c with
    | false => rfl
    | true =>
      obtain ⟨cs, hcs⟩ := List.head?_eq_some_iff.mp hc
      have hpieces := lexemes_tail h
      rw [hcs, lexemes_cons, push_of_isWordChar hword] at hpieces
      split at hpieces
      · rw [atom?_of_lexemes_word (hpieces ▸ h)] at hatom
        cases hatom
      · rw [atom?_of_lexemes_word (hpieces ▸ h)] at hatom
        cases hatom

theorem not_spelled (h : lexemes text = piece :: pieces) (hatom : piece.atom? = none) (a : Atom) :
    ¬ Spelled text a := by
  rintro ⟨front, back, rfl, hspells, hback⟩
  obtain ⟨first, rfl, hfirst, hlexemes⟩ := hspells.lexemes
  rw [(List.cons.inj ((hlexemes back hback).symm.trans h)).1, hatom] at hfirst
  cases hfirst

/-- The first piece of a text is of a kind that its first character may start. -/
theorem exists_piece (c : Char) (cs : List Char) :
    ∃ piece pieces, lexemes (c :: cs) = piece :: pieces ∧ (c ≠ '(' → piece ≠ .opening) ∧
      (c ≠ ')' → piece ≠ .closing) ∧ (isBlank c = false → ∀ d ds, piece ≠ .blanks d ds) ∧
      (isNameStart c = false → piece.operator? = none) := by
  obtain ⟨piece, pieces, h⟩ : ∃ piece pieces, lexemes (c :: cs) = piece :: pieces :=
    List.exists_cons_of_ne_nil push_ne_nil
  have hhead := head_text_of_lexemes h
  have hproper := proper_lexemes (c :: cs) piece (by rw [h]; exact List.mem_cons_self)
  refine ⟨piece, pieces, h, ?_, ?_, ?_, ?_⟩
  · rintro hc rfl
    exact hc (Option.some.inj hhead)
  · rintro hc rfl
    exact hc (Option.some.inj hhead)
  · rintro hc d ds rfl
    cases hhead
    exact absurd (hproper c List.mem_cons_self) (by simp [hc])
  · intro hc
    cases piece with
    | word d ds =>
      cases hhead
      simp [Lexeme.operator?, hc]
    | _ => rfl

end Pieces

section Operands

variable {text gap back rest : List Char} {i j k s : Nat} {ps : List Pattern}

/-- An operand with the blanks in front of it. -/
def spacedOperand : Pattern := .sequence [.rule .gap, .rule .expression]

/-- What stands behind the operator of an application. -/
def restOfApplication : Pattern := .sequence [.rule .operands, .rule .space, .char ')']

/-- Behind an operand come the operands that come there alone. -/
theorem Takes.operands (hfirst : Takes text spacedOperand i j) (hij : i < j)
    (hne : text.drop i ≠ []) (hrest : Takes text (.sequence (.rule .operands :: ps)) j k) :
    Takes text (.sequence (.rule .operands :: ps)) i k := by
  intro r hr
  obtain ⟨r', hpart, hr'⟩ := hfirst r hr
  obtain ⟨r'', htries, hr''⟩ := hrest r' hr'
  cases htries with
  | part hoperands hps =>
    cases hoperands with
    | rule hmany => exact ⟨r'', .part (.rule (.again hne hpart hij hmany)) hps, hr''⟩

theorem Takes.stopsOperands (hfirst : Takes text spacedOperand i j) (hij : i < j)
    (hne : text.drop i ≠ []) (hrest : Stops text (.sequence (.rule .operands :: ps)) j s) :
    Stops text (.sequence (.rule .operands :: ps)) i s := by
  intro r hr
  obtain ⟨r', hpart, hr'⟩ := hfirst r hr
  cases hrest r' hr' with
  | part hoperands hps =>
    cases hoperands with
    | rule hmany => exact .part (.rule (.again hne hpart hij hmany)) hps
  | noPart hoperands =>
    cases hoperands with
    | noRule hmany => exact nomatch hmany.isSome_of_many

/-- After the last operand the application is closed. What an operand failed for is forgotten. -/
theorem takes_closing (hlast : Stops text spacedOperand i s)
    (h : text.drop i = gap ++ ')' :: rest) (hgap : Blanks gap) (hs : s ≤ i + gap.length) :
    Takes text restOfApplication i (i + gap.length + 1) := by
  have hne : text.drop i ≠ [] := by simp [h]
  have hclosing : EndsBlanks (')' :: rest) := endsBlanks_cons.mpr (by decide)
  intro r hr
  exact ⟨some s, .part (.rule (.noMore hne (hlast r hr))) (.part (tries_space h hgap hclosing _)
    (.part (.char (drop_add_length h)) .done)), within_some.mpr (Nat.le_succ_of_le hs)⟩

/-- If the application is not closed then, what the operand failed for stays recorded. -/
theorem stops_closing (hlast : Stops text spacedOperand i s) (h : text.drop i = gap ++ back)
    (hne : text.drop i ≠ []) (hgap : Blanks gap) (hback : EndsBlanks back)
    (hclosing : ∀ rest, back ≠ ')' :: rest) : Stops text restOfApplication i s := by
  intro r hr
  have hnoClosing : ∀ rest, text.drop (i + gap.length) ≠ ')' :: rest :=
    fun rest hrest => hclosing rest ((drop_add_length h).symm.trans hrest)
  exact .part (.rule (.noMore hne (hlast r hr)))
    (.part (tries_space h hgap hback _) (.noPart (.noChar hnoClosing)))

end Operands

section Agreement

variable {text : List Char} {p : Pattern} {i : Nat} {state : Progress} {frames : List Frame}

/-- Trying a pattern comes to what reading comes to, unless reading meets the end: it matches where
reading finishes an operand of the open applications, or it fails where reading stops. -/
inductive Agrees (text : List Char) (p : Pattern) (i : Nat) (state : Progress)
    (frames : List Frame) : Prop
  | atEnd : readFrom i state (lexemes (text.drop i)) = .error text.length →
    Agrees text p i state frames
  | takes {j : Nat} {d : Draft} : i < j → j ≤ text.length → Takes text p i j →
    readFrom i state (lexemes (text.drop i)) =
      readFrom j (Progress.finish d frames) (lexemes (text.drop j)) →
    Agrees text p i state frames
  | stops {s : Nat} : i ≤ s → Stops text p i s →
    readFrom i state (lexemes (text.drop i)) = .error s → Agrees text p i state frames

/-- An expression agrees wherever an operand may start. -/
def AgreesOnExpression (text : List Char) (i : Nat) : Prop :=
  ∀ state frames, Awaits state frames → EndsBlanks (text.drop i) →
    (∀ rest, text.drop i ≠ ')' :: rest) → Agrees text (.rule .expression) i state frames

theorem length_of_drop_eq_nil (hi : i ≤ text.length) (h : text.drop i = []) :
    i = text.length :=
  Nat.le_antisymm hi (List.drop_eq_nil_iff.mp h)

theorem le_length_of_drop {front back : List Char} (hi : i ≤ text.length)
    (h : text.drop i = front ++ back) : i + front.length ≤ text.length := by
  have hlength := congrArg List.length h
  rw [List.length_drop, List.length_append] at hlength
  omega

theorem readFrom_none {piece : Lexeme} {pieces : List Lexeme} (h : state.step i piece = none) :
    readFrom i state (piece :: pieces) = .error i := by
  rw [readFrom, h]

theorem Awaits.readFrom_nil (h : Awaits state frames) : readFrom i state [] = .error i := by
  cases h <;> rfl

/-- Where no parenthesis stands, an operand is one word. -/
theorem agrees_word {c : Char} {cs : List Char} (hi : i ≤ text.length)
    (h : text.drop i = c :: cs) (hopening : c ≠ '(') (hclosing : c ≠ ')')
    (hblank : isBlank c = false) (hawaits : Awaits state frames) :
    Agrees text (.rule .expression) i state frames := by
  by_cases hspelled : ∃ a, Spelled (text.drop i) a
  · obtain ⟨a, front, back, htext, hspells, hback⟩ := hspelled
    have hexpression := takes_spelled htext hspells hback
    obtain ⟨piece, rfl, hatom, hlexemes⟩ := hspells.lexemes
    have hpos : 0 < piece.text.length := by
      obtain ⟨c', cs', hcons, _⟩ := hspells.head
      simp [hcons]
    have hread : readFrom i state (lexemes (text.drop i)) =
        readFrom (i + piece.text.length)
          (Progress.finish (.atom a ⟨i, i + piece.text.length⟩) frames)
          (lexemes (text.drop (i + piece.text.length))) := by
      rw [drop_add_length htext, htext, hlexemes back hback,
        readFrom_cons (hawaits.step_atom hatom)]
    exact .takes (by omega) (le_length_of_drop hi htext) hexpression hread
  · have hno : ∀ a, ¬ Spelled (text.drop i) a := fun a ha => hspelled ⟨a, ha⟩
    have hparen : ∀ rest, text.drop i ≠ '(' :: rest := by
      intro rest hrest
      exact hopening (List.cons.inj (h.symm.trans hrest)).1
    refine .stops (Nat.le_refl i) (fails_expression hparen hno).stops ?_
    obtain ⟨piece, pieces, hpieces, hnotOpening, hnotClosing, hnotBlanks, _⟩ := exists_piece c cs
    rw [h] at hno
    have hatom := atom?_of_not_spelled hpieces hno
    have hstep : state.step i piece = none := by
      rw [hawaits.step_eq (hnotBlanks hblank) (hnotClosing hclosing)]
      cases piece with
      | opening => exact absurd rfl (hnotOpening hopening)
      | _ => simp [Progress.operand, hatom]
    rw [h, hpieces, readFrom_none hstep]

section Rest

variable {m : Nat} {f : Frame} {outer : List Frame} {gap back : List Char}

theorem readFrom_blanks (hgap : Blanks gap) (hne : gap ≠ []) (hback : EndsBlanks back)
    (hop : f.operator.isSome) :
    readFrom m (.within f outer) (lexemes (gap ++ back)) =
      readFrom (m + gap.length) (.within { f with separated := true } outer) (lexemes back) := by
  obtain ⟨b, bs, rfl⟩ := List.exists_cons_of_ne_nil hne
  rw [List.cons_append, lexemes_blanks hgap hback, readFrom_cons (step_blanks hop)]
  rfl

/-- No operand comes before the closing parenthesis. -/
theorem stops_spacedOperand {rest : List Char} (hgap : Blanks gap)
    (h : text.drop m = gap ++ ')' :: rest) : Stops text spacedOperand m (m + gap.length) := by
  have hback : EndsBlanks (')' :: rest) := endsBlanks_cons.mpr (by decide)
  by_cases hne : gap = []
  · subst hne
    exact (fails_gap (h ▸ hback)).stops.sequence
  · have hdrop := drop_add_length h
    have hno : ∀ a, ¬ Spelled (')' :: rest) a := not_spelled rfl rfl
    have hexpression : Fails text (.rule .expression) (m + gap.length) :=
      fails_expression (by simp [hdrop]) (hdrop ▸ hno)
    exact (takes_gap h hgap hne hback).noPart hexpression.stops.sequence

theorem agrees_closing {rest : List Char} (hm : m ≤ text.length) (hop : f.operator.isSome)
    (hgap : Blanks gap) (h : text.drop m = gap ++ ')' :: rest) :
    Agrees text restOfApplication m (.within f outer) outer := by
  obtain ⟨⟨name, span⟩, hname⟩ := Option.isSome_iff_exists.mp hop
  have hlength := le_length_of_drop hm (h.trans (List.append_cons ..))
  rw [List.length_append, List.length_singleton, ← Nat.add_assoc] at hlength
  have hbehind : text.drop (m + gap.length + 1) = rest := by
    rw [← List.drop_drop, drop_add_length h]
    rfl
  have hread : readFrom m (.within f outer) (lexemes (text.drop m)) =
      readFrom (m + gap.length + 1) (Progress.finish
        (.apply name span f.operands.reverse ⟨f.start, m + gap.length + 1⟩) outer)
        (lexemes (text.drop (m + gap.length + 1))) := by
    rw [h, hbehind, readFrom_close hgap hname]
  exact .takes (by omega) hlength
    (takes_closing (stops_spacedOperand hgap h) h hgap (Nat.le_refl _)) hread

/-- Operands that no blanks separate end the application. -/
theorem agrees_unseparated {c : Char} {cs : List Char} (hop : f.operator.isSome)
    (hsep : f.separated = false) (h : text.drop m = c :: cs) (hblank : isBlank c = false)
    (hc : c ≠ ')') : Agrees text restOfApplication m (.within f outer) outer := by
  have hback : EndsBlanks (c :: cs) := endsBlanks_cons.mpr hblank
  have hlast : Stops text spacedOperand m m := (fails_gap (h ▸ hback)).stops.sequence
  have hstops : Stops text restOfApplication m m :=
    stops_closing hlast h (by simp [h]) blanks_nil hback fun _ hrest => hc (List.cons.inj hrest).1
  obtain ⟨piece, pieces, hpieces, _, hnotClosing, hnotBlanks, _⟩ := exists_piece c cs
  have hstep : Progress.step m piece (.within f outer) = none := by
    rw [step_operand hop (hnotBlanks hblank) (hnotClosing hc), hsep]
    rfl
  exact .stops (Nat.le_refl m) hstops (by rw [h, hpieces, readFrom_none hstep])

/-- The rest of an application agrees if the expressions in it do. -/
theorem agrees_restOfApplication (hm : m ≤ text.length)
    (hexpressions : ∀ q, m < q → q ≤ text.length → AgreesOnExpression text q)
    (hop : f.operator.isSome) (hsep : f.separated = false) :
    Agrees text restOfApplication m (.within f outer) outer := by
  -- the induction is on what is left of the text
  induction hleft : text.length - m using Nat.strongRecOn generalizing m f with
  | ind n ih =>
  obtain ⟨gap, back, hdrop, hgap, hback⟩ := exists_gap (text.drop m)
  by_cases hclosing : ∃ rest, back = ')' :: rest
  · obtain ⟨rest, rfl⟩ := hclosing
    exact agrees_closing hm hop hgap hdrop
  by_cases hne : gap = []
  · subst hne
    cases back with
    | nil =>
      have hend := length_of_drop_eq_nil hm hdrop
      exact .atEnd (by rw [hdrop, ← hend]; rfl)
    | cons c cs =>
      exact agrees_unseparated hop hsep hdrop (hback c rfl) fun hc => hclosing ⟨cs, hc ▸ rfl⟩
  have hpos : 0 < gap.length := List.length_pos_iff.mpr hne
  have hq := le_length_of_drop hm hdrop
  have hbehind := drop_add_length hdrop
  have hsome : text.drop m ≠ [] := by simp [hdrop, hne]
  have hnoClosing : ∀ rest, back ≠ ')' :: rest := fun rest hrest => hclosing ⟨rest, hrest⟩
  have hread : readFrom m (.within f outer) (lexemes (text.drop m)) =
      readFrom (m + gap.length) (.within { f with separated := true } outer)
        (lexemes (text.drop (m + gap.length))) := by
    rw [hdrop, hbehind, readFrom_blanks hgap hne hback hop]
  have hawaits : Awaits (.within { f with separated := true } outer)
      ({ f with separated := true } :: outer) := .within hop rfl
  have hgapTakes := takes_gap hdrop hgap hne hback
  cases hexpressions (m + gap.length) (by omega) hq _ _ hawaits (hbehind ▸ hback)
      (hbehind ▸ hnoClosing) with
  | atEnd hend => exact .atEnd (hread.trans hend)
  | stops hle hstops hstop =>
    have hlast : Stops text spacedOperand m _ := hgapTakes.noPart hstops.sequence
    exact .stops (by omega) (stops_closing hlast hdrop hsome hgap hback hnoClosing)
      (hread.trans hstop)
  | @takes j d hlt hle htakes hfinish =>
    have hfirst : Takes text spacedOperand m j := hgapTakes.part (htakes.part takes_done)
    have hmore : ∀ q, j < q → q ≤ text.length → AgreesOnExpression text q :=
      fun q hjq => hexpressions q (by omega)
    -- the operand is taken up by the application, which goes on behind it
    cases ih (text.length - j) (by omega) hle hmore
        (f := { f with separated := false, operands := d :: f.operands }) hop rfl rfl with
    | atEnd hend => exact .atEnd (hread.trans (hfinish.trans hend))
    | stops hjs hstops hstop =>
      exact .stops (by omega) (hfirst.stopsOperands (by omega) hsome hstops)
        (hread.trans (hfinish.trans hstop))
    | takes hjk hk hrest hdone =>
      exact .takes (by omega) hk (hfirst.operands (by omega) hsome hrest)
        (hread.trans (hfinish.trans hdone))

end Rest

section Application

variable {gap back rest : List Char}

/-- Where no operator follows the opening parenthesis, the application ends. -/
theorem agrees_unapplied (hi : i ≤ text.length) (hgap : Blanks gap) (hback : EndsBlanks back)
    (h : text.drop i = '(' :: (gap ++ back)) (hname : ∀ c ∈ back.head?, isNameStart c = false)
    (hawaits : Awaits state frames) : Agrees text (.rule .application) i state frames := by
  have hinside : text.drop (i + 1) = gap ++ back :=
    drop_add_length (show text.drop i = ['('] ++ (gap ++ back) from h)
  have hread : readFrom i state (lexemes (text.drop i)) =
      readFrom (i + 1 + gap.length) (.within { start := i } frames) (lexemes back) := by
    rw [h, lexemes_opening, readFrom_cons hawaits.step_opening]
    exact readFrom_gap hgap hback fun _ _ _ => rfl
  cases back with
  | nil =>
    have hlength := congrArg List.length h
    rw [List.length_drop, List.length_cons, List.append_nil] at hlength
    have hend : text.length = i + 1 + gap.length := by omega
    exact .atEnd (hend ▸ hread)
  | cons c cs =>
    have hoperator : Fails text (.rule .operator) (i + 1 + gap.length) := by
      refine fails_token rfl ?_
      rw [drop_add_length hinside]
      rintro token ⟨rest, htoken, htokenName, _⟩
      obtain ⟨d, ds, rfl, hstart, _⟩ := isName_eq_true htokenName
      obtain rfl := (List.cons.inj htoken).1
      rw [hname c rfl] at hstart
      cases hstart
    have hstops : Stops text (.rule .application) i (i + 1 + gap.length) :=
      Stops.rule ((takes_char h).noPart ((takes_space hinside hgap hback).noPart
        hoperator.stops.sequence)) (by omega)
    obtain ⟨piece, pieces, hpieces, _, _, hnotBlanks, hnotOperator⟩ := exists_piece c cs
    have hstep :
        Progress.step (i + 1 + gap.length) piece (.within { start := i } frames) = none := by
      cases piece with
      | blanks d ds => exact absurd rfl (hnotBlanks (hback c rfl) d ds)
      | _ => simp [Progress.step, hnotOperator (hname c rfl)]
    exact .stops (by omega) hstops (hread.trans (by rw [hpieces, readFrom_none hstep]))

/-- A word that starts like a name is one. -/
theorem exists_name (h : ∃ c ∈ back.head?, isNameStart c = true) :
    ∃ name behind, back = name ++ behind ∧ Text.isName name = true ∧ EndsWord behind := by
  obtain ⟨c, hc, hstart⟩ := h
  obtain ⟨name, behind, rfl, hword, hbehind⟩ := exists_word back
  refine ⟨name, behind, rfl, ?_, hbehind⟩
  cases name with
  | nil =>
    have hnone := hbehind c hc
    rw [Text.isWordChar_of_isNameStart hstart] at hnone
    cases hnone
  | cons d name =>
    obtain rfl : d = c := Option.some.inj hc
    simpa [Text.isName, hstart] using (List.forall_mem_cons.mp hword).2

/-- An application agrees if the expressions in it do. -/
theorem agrees_application (hi : i ≤ text.length) (h : text.drop i = '(' :: rest)
    (hexpressions : ∀ q, i < q → q ≤ text.length → AgreesOnExpression text q)
    (hawaits : Awaits state frames) : Agrees text (.rule .application) i state frames := by
  obtain ⟨gap, back, rfl, hgap, hback⟩ := exists_gap rest
  by_cases hstarts : ∃ c ∈ back.head?, isNameStart c = true
  · obtain ⟨name, behind, rfl, hname, hbehind⟩ := exists_name hstarts
    have hinside : text.drop (i + 1) = gap ++ (name ++ behind) :=
      drop_add_length (show text.drop i = ['('] ++ (gap ++ (name ++ behind)) from h)
    have hoperator := drop_add_length hinside
    have hdrop := drop_add_length hoperator
    have hlength := le_length_of_drop hi
      (show text.drop i = ('(' :: (gap ++ name)) ++ behind by simp [h])
    rw [List.length_cons, List.length_append] at hlength
    have hm : i + 1 + gap.length + name.length ≤ text.length := by omega
    have hread : readFrom i state (lexemes (text.drop i)) =
        readFrom (i + 1 + gap.length + name.length) (.within (frameOf i gap name [] false) frames)
          (lexemes (text.drop (i + 1 + gap.length + name.length))) := by
      rw [h, hdrop, readFrom_open hawaits hgap hname hbehind]
    have hfront : ∀ {tail j}, Takes text (.sequence tail) (i + 1 + gap.length + name.length) j →
        Takes text (.sequence (.char '(' :: .rule .space :: .rule .operator :: tail)) i j :=
      fun htail => (takes_char h).part ((takes_space hinside hgap hback).part
        ((takes_name rfl hoperator hname hbehind).part htail))
    cases agrees_restOfApplication (f := frameOf i gap name [] false) hm
        (fun q hq => hexpressions q (by omega)) rfl rfl with
    | atEnd hend => exact .atEnd (hread.trans hend)
    | takes hlt hle htakes hfinish =>
      exact .takes (by omega) hle (Takes.rule (hfront htakes)) (hread.trans hfinish)
    | stops hle hstops hstop =>
      have happlication : Stops text (.rule .application) i _ :=
        Stops.rule ((takes_char h).noPart ((takes_space hinside hgap hback).noPart
          ((takes_name rfl hoperator hname hbehind).noPart hstops))) (by omega)
      exact .stops (by omega) happlication (hread.trans hstop)
  · refine agrees_unapplied hi hgap hback h (fun c hc => ?_) hawaits
    exact Bool.eq_false_iff.mpr fun hstart => hstarts ⟨c, hc, hstart⟩

end Application

/-- Expressions agree wherever operands may start. -/
theorem agrees_expression (hi : i ≤ text.length) : AgreesOnExpression text i := by
  -- the induction is on what is left of the text
  induction hleft : text.length - i using Nat.strongRecOn generalizing i with
  | ind n ih =>
  intro state frames hawaits hblank hclosing
  have hexpressions : ∀ q, i < q → q ≤ text.length → AgreesOnExpression text q :=
    fun q hiq hq => ih (text.length - q) (by omega) hq rfl
  cases hdrop : text.drop i with
  | nil =>
    have hend := length_of_drop_eq_nil hi hdrop
    exact .atEnd (by rw [hdrop, ← hend]; exact hawaits.readFrom_nil)
  | cons c cs =>
    rw [hdrop] at hblank
    by_cases hc : c = '('
    · subst hc
      have hno : ∀ a, ¬ Spelled (text.drop i) a := hdrop ▸ not_spelled rfl rfl
      have hothers : ∀ q ∈ [.rule .boolean, .rule .integer, .rule .reference], Fails text q i := by
        simp only [List.forall_mem_cons]
        exact ⟨fails_boolean fun b => hno _, fails_integer fun _ _ _ => hno _,
          fails_reference hno, List.forall_mem_nil _⟩
      cases agrees_application hi hdrop hexpressions hawaits with
      | atEnd hend => exact .atEnd hend
      | takes hlt hle htakes hfinish =>
        exact .takes hlt hle (Takes.rule (takes_choice [] (List.forall_mem_nil _) htakes)) hfinish
      | stops hle hstops hstop =>
        exact .stops hle (Stops.rule (hstops.choice hle hothers) hle) hstop
    · exact agrees_word hi hdrop hc (fun hc => hclosing cs (hc ▸ hdrop)) (hblank c rfl) hawaits

end Agreement

section Texts

variable {text : List Char} {s : Nat}

/-- Behind a complete expression come blanks, and then nothing more. -/
theorem readFrom_complete {j : Nat} {d : Draft} {gap behind : List Char} (hgap : Blanks gap)
    (hbehind : EndsBlanks behind) :
    readFrom j (.complete d) (lexemes (gap ++ behind)) =
      if behind = [] then .ok d else .error (j + gap.length) := by
  have hcomplete : ∀ i c cs, (Progress.complete d).step i (.blanks c cs) = some (.complete d) :=
    fun _ _ _ => rfl
  rw [readFrom_gap hgap hbehind hcomplete]
  cases behind with
  | nil => rfl
  | cons c cs =>
    obtain ⟨piece, pieces, hpieces, _, _, hnotBlanks, _⟩ := exists_piece c cs
    have hstep : (Progress.complete d).step (j + gap.length) piece = none := by
      cases piece with
      | blanks b bs => exact absurd rfl (hnotBlanks (hbehind c rfl) b bs)
      | _ => rfl
    rw [hpieces, readFrom_none hstep, if_neg (List.cons_ne_nil c cs)]

/-- Unless reading meets the end of the text, ordered choices fail where it stops, match up to
there, or match the text that it reads. -/
theorem value_outcome (text : List Char) :
    readDraft text = .error text.length ∨
      (∃ s, Stops text (.rule .value) 0 s ∧ readDraft text = .error s) ∨
      ∃ j, Takes text (.rule .value) 0 j ∧
        (j = text.length ∧ (∃ d, readDraft text = .ok d) ∨ readDraft text = .error j) := by
  obtain ⟨gap, back, htext, hgap, hback⟩ := exists_gap text
  have hdrop : text.drop gap.length = back := by rw [htext, List.drop_left]
  have hp : gap.length ≤ text.length := by
    rw [htext, List.length_append]
    omega
  have hread : readDraft text = readFrom gap.length .pending (lexemes (text.drop gap.length)) := by
    rw [readDraft, hdrop, htext, readFrom_gap hgap hback fun _ _ _ => rfl, Nat.zero_add]
  have hspace : Takes text (.rule .space) 0 gap.length := by
    simpa using takes_space (i := 0) htext hgap hback
  have hvalue : ∀ s, Stops text (.rule .expression) gap.length s → Stops text (.rule .value) 0 s :=
    fun s hstops => Stops.rule (hspace.noPart hstops.sequence) (Nat.zero_le s)
  by_cases hclosing : ∃ rest, back = ')' :: rest
  · obtain ⟨rest, rfl⟩ := hclosing
    have hexpression : Fails text (.rule .expression) gap.length :=
      fails_expression (by simp [hdrop]) (hdrop ▸ not_spelled rfl rfl)
    exact .inr (.inl ⟨_, hvalue _ hexpression.stops, by rw [hread, hdrop]; rfl⟩)
  · cases agrees_expression hp .pending [] .pending (hdrop ▸ hback)
        fun rest hrest => hclosing ⟨rest, hdrop ▸ hrest⟩ with
    | atEnd hend => exact .inl (hread.trans hend)
    | stops _ hstops hstop => exact .inr (.inl ⟨_, hvalue _ hstops, hread.trans hstop⟩)
    | @takes j d _ hj htakes hfinish =>
      obtain ⟨gap', behind, hbehind, hgap', hends⟩ := exists_gap (text.drop j)
      have hmatch : Takes text (.rule .value) 0 (j + gap'.length) :=
        Takes.rule (hspace.part (htakes.part ((takes_space hbehind hgap' hends).part takes_done)))
      have hfinished : readDraft text =
          if behind = [] then .ok d else .error (j + gap'.length) := by
        rw [hread, hfinish, hbehind]
        exact readFrom_complete hgap' hends
      refine .inr (.inr ⟨_, hmatch, ?_⟩)
      by_cases hnil : behind = []
      · subst hnil
        exact .inl ⟨length_of_drop_eq_nil (le_length_of_drop hj hbehind) (drop_add_length hbehind),
          d, hfinished⟩
      · exact .inr (by rw [hfinished, if_neg hnil])

/-- Where reading stops before the end of a text, ordered choices fail, and nowhere else. -/
theorem failsAt_iff_of_readDraft (h : readDraft text = .error s) (hs : s < text.length) (k : Nat) :
    FailsAt text k ↔ k = s := by
  have hfails : FailsAt text s := by
    rcases value_outcome text with hend | ⟨j, hstops, hj⟩ | ⟨j, htakes, ⟨_, d, hd⟩ | hj⟩
    · obtain rfl := Except.error.inj (h.symm.trans hend)
      exact absurd hs (Nat.lt_irrefl _)
    · obtain rfl := Except.error.inj (h.symm.trans hj)
      exact .mismatch (hstops none within_none)
    · exact nomatch h.symm.trans hd
    · obtain rfl := Except.error.inj (h.symm.trans hj)
      obtain ⟨r, hmatch, _⟩ := htakes none within_none
      exact .incomplete hmatch hs
  refine ⟨fun hk => hk.unique hfails, ?_⟩
  rintro rfl
  exact hfails

/-- Ordered choices match the whole of a value text. -/
theorem IsValueText.tries {d : Draft} (h : IsValueText text d) :
    ∃ r, Tries text (.rule .value) 0 none (some text.length) r := by
  have hread := readDraft_of_isValueText h
  rcases value_outcome text with hend | ⟨j, _, hj⟩ | ⟨j, htakes, ⟨rfl, _⟩ | hj⟩
  · exact nomatch hread.symm.trans hend
  · exact nomatch hread.symm.trans hj
  · obtain ⟨r, hmatch, _⟩ := htakes none within_none
    exact ⟨r, hmatch⟩
  · exact nomatch hread.symm.trans hj

end Texts

end SharedConstants.Expr
