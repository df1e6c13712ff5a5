import SharedConstants.Proofs.Expr.Lexing

/-!
# Parentheses and depth

Matching the parentheses of a text finds no fault exactly if they are balanced and never more
than `maxNesting` are open at once. In a derived text they are balanced, and as many are open at
once as the applications of the expression nest.
-/
namespace SharedConstants.Expr

open Text (isWordChar isBlank)

/-- Every parenthesis is matched, those that are open before the text included. -/
def Balanced (opened : Nat) : List Char → Prop
  | [] => opened = 0
  | c :: rest =>
    if c = '(' then Balanced (opened + 1) rest
    else if c = ')' then 0 < opened ∧ Balanced (opened - 1) rest
    else Balanced opened rest

/-- How many parentheses are open at once at most, those open before the text included. -/
def peakFrom (opened : Nat) : List Char → Nat
  | [] => opened
  | c :: rest =>
    if c = '(' then peakFrom (opened + 1) rest
    else if c = ')' then max opened (peakFrom (opened - 1) rest)
    else peakFrom opened rest

/-- How many parentheses of a text are open at once at most. -/
def peak (text : List Char) : Nat := peakFrom 0 text

theorem le_peakFrom (opened : Nat) (text : List Char) : opened ≤ peakFrom opened text := by
  induction text generalizing opened with
  | nil => exact Nat.le_refl _
  | cons c rest ih =>
    unfold peakFrom
    split
    · exact Nat.le_of_succ_le (ih (opened + 1))
    · split
      · exact Nat.le_max_left ..
      · exact ih opened

theorem matchFrom_eq_none {i : Nat} {opened : List Nat} {text : List Char}
    (h : opened.length ≤ maxNesting) :
    matchFrom i opened text = none ↔
      Balanced opened.length text ∧ peakFrom opened.length text ≤ maxNesting := by
  induction text generalizing i opened with
  | nil => cases opened <;> simp_all [matchFrom, Balanced, peakFrom]
  | cons c rest ih =>
    unfold matchFrom Balanced peakFrom
    split
    · split
      · next hless => exact ih hless
      · next hfull =>
        -- one more than allowed is open here, and the peak is no lower
        have hpeak := le_peakFrom (opened.length + 1) rest
        refine iff_of_false nofun fun hnested => hfull ?_
        omega
    · split
      · cases opened with
        | nil => exact iff_of_false nofun nofun
        | cons o outer =>
          have houter : outer.length ≤ maxNesting := Nat.le_of_succ_le h
          rw [List.length_cons] at h ⊢
          rw [ih houter, Nat.max_le]
          simp [h]
      · exact ih h

/-- A text of spaces has a fault of its own. -/
theorem nestingFault?_eq_none {text : List Char} :
    nestingFault? text = none ↔
      (∃ c ∈ text, Text.isSpace c = false) ∧ Balanced 0 text ∧ peak text ≤ maxNesting := by
  unfold nestingFault?
  split
  · next hspaces =>
    refine iff_of_false nofun fun ⟨⟨c, hc, hspace⟩, _⟩ => ?_
    simp [List.all_eq_true.mp hspaces c hc] at hspace
  · next hspaces =>
    have hmark : ∃ c ∈ text, Text.isSpace c = false := by simpa using hspaces
    rw [matchFrom_eq_none (Nat.zero_le _)]
    exact (and_iff_right hmark).symm

/-- A text matches its parentheses itself and has at most `depth` of them open at once. -/
def Nests (depth : Nat) (text : List Char) : Prop :=
  ∀ opened rest, (Balanced opened (text ++ rest) ↔ Balanced opened rest) ∧
    peakFrom opened (text ++ rest) = max (opened + depth) (peakFrom opened rest)

theorem nests_nil : Nests 0 [] :=
  fun opened rest => ⟨.rfl, (Nat.max_eq_right (le_peakFrom opened rest)).symm⟩

theorem Nests.append {m n : Nat} {xs ys : List Char} (hxs : Nests m xs) (hys : Nests n ys) :
    Nests (max m n) (xs ++ ys) := by
  intro opened rest
  obtain ⟨hbalanced, hpeak⟩ := hxs opened (ys ++ rest)
  obtain ⟨hbalanced', hpeak'⟩ := hys opened rest
  rw [List.append_assoc]
  refine ⟨hbalanced.trans hbalanced', ?_⟩
  rw [hpeak, hpeak']
  omega

theorem Nests.enclosed {n : Nat} {text : List Char} (h : Nests n text) :
    Nests (n + 1) ('(' :: (text ++ [')'])) := by
  intro opened rest
  obtain ⟨hbalanced, hpeak⟩ := h (opened + 1) (')' :: rest)
  have hclosing : Balanced (opened + 1) (')' :: rest) ↔ Balanced opened rest := by
    simp [Balanced]
  have hpeak' : peakFrom (opened + 1) (')' :: rest) =
      max (opened + 1) (peakFrom opened rest) := by
    simp [peakFrom]
  have htext : '(' :: (text ++ [')']) ++ rest = '(' :: (text ++ ')' :: rest) := by simp
  rw [htext]
  refine ⟨?_, ?_⟩
  · exact hbalanced.trans hclosing
  · change peakFrom (opened + 1) (text ++ ')' :: rest) = _
    rw [hpeak, hpeak']
    omega

theorem nests_of_plain {text : List Char} (h : ∀ c ∈ text, c ≠ '(' ∧ c ≠ ')') :
    Nests 0 text := by
  induction text with
  | nil => exact nests_nil
  | cons c text ih =>
    obtain ⟨⟨hopening, hclosing⟩, htext⟩ := List.forall_mem_cons.mp h
    intro opened rest
    rw [List.cons_append, Balanced, peakFrom, if_neg hopening, if_neg hclosing, if_neg hopening,
      if_neg hclosing]
    exact ih htext opened rest

theorem Blanks.nests {gap : List Char} (h : Blanks gap) : Nests 0 gap := by
  refine nests_of_plain fun c hc => ⟨?_, ?_⟩
  · rintro rfl
    exact absurd (h _ hc) (by decide)
  · rintro rfl
    exact absurd (h _ hc) (by decide)

theorem nests_of_isWordChar {text : List Char} (h : ∀ c ∈ text, isWordChar c = true) :
    Nests 0 text := by
  refine nests_of_plain fun c hc => ⟨?_, ?_⟩
  · rintro rfl
    exact absurd (h _ hc) (by decide)
  · rintro rfl
    exact absurd (h _ hc) (by decide)

theorem nests_of_isName {name : List Char} (h : Text.isName name = true) : Nests 0 name := by
  obtain ⟨c, cs, rfl, _, hword⟩ := isName_eq_true h
  exact nests_of_isWordChar hword

theorem Spells.nests {text : List Char} {a : Atom} (h : Spells text a) : Nests 0 text := by
  have hplus : Nests 0 ['+'] := nests_of_plain (by simp)
  have hminus : Nests 0 ['-'] := nests_of_plain (by simp)
  cases h with
  | truth | falsity => exact nests_of_isWordChar (List.all_eq_true.mp rfl)
  | name hid =>
    simp only [isIdentifier, Bool.and_eq_true] at hid
    exact nests_of_isName hid.1.1
  | unsigned hnumeral => exact nests_of_isWordChar hnumeral.isWordChar
  | plus hnumeral => exact hplus.append (nests_of_isWordChar hnumeral.isWordChar)
  | minus hnumeral => exact hminus.append (nests_of_isWordChar hnumeral.isWordChar)

theorem toExprs_append (ds ds' : List Draft) : toExprs (ds ++ ds') = toExprs ds ++ toExprs ds' := by
  induction ds with
  | nil => rfl
  | cons d ds ih => simp [toExprs, ih]

theorem depths_append (es es' : List Expr) : depths (es ++ es') = max (depths es) (depths es') := by
  induction es with
  | nil => simp [depths]
  | cons e es ih => simp [depths, ih, Nat.max_assoc]

/-- The depth of the expressions that a phrase stands for. -/
def Phrase.depth : Phrase → Nat
  | .operand d => d.toExpr.depth
  | .operands ds => depths (toExprs ds)

/-- The parentheses of a derived text nest like its applications. -/
theorem Derives.nests {i : Nat} {text : List Char} {p : Phrase} (h : Derives i text p) :
    Nests p.depth text := by
  induction h with
  | @atom i text a hspells =>
    have hdepth : (Phrase.operand (.atom a ⟨i, i + text.length⟩)).depth = 0 := by
      cases a <;> rfl
    exact hdepth ▸ hspells.nests
  | @apply i gap name args close ds hgap hname hargs hclose ih =>
    have hinner := hgap.nests.append ((nests_of_isName hname).append (ih.append hclose.nests))
    have hdepth : max 0 (max 0 (max (Phrase.operands ds).depth 0)) = depths (toExprs ds) := by
      simp [Phrase.depth]
    rw [hdepth] at hinner
    have htext : applied gap name args close =
        '(' :: ((gap ++ (name ++ (args ++ close))) ++ [')']) := by
      simp [applied]
    rw [htext]
    exact hinner.enclosed
  | none => exact nests_nil
  | @more i args gap text ds d hargs hgap hne hd ihargs ihd =>
    have hboth := ihargs.append (hgap.nests.append ihd)
    have hdepth : max (Phrase.operands ds).depth (max 0 (Phrase.operand d).depth) =
        (Phrase.operands (ds ++ [d])).depth := by
      simp [Phrase.depth, toExprs_append, depths_append, toExprs, depths]
    exact hdepth ▸ hboth

/-- The greatest number of open parentheses of a value text is the depth of its expression. -/
theorem IsValueText.nests {text : List Char} {d : Draft} (h : IsValueText text d) :
    Nests d.toExpr.depth text := by
  obtain ⟨before, core, after, rfl, hbefore, hafter, hcore⟩ := h
  have hall := hbefore.nests.append (hcore.nests.append hafter.nests)
  simpa [Phrase.depth] using hall

theorem IsValueText.peak_eq {text : List Char} {d : Draft} (h : IsValueText text d) :
    peak text = d.toExpr.depth := by
  have hpeak := (h.nests 0 []).2
  simpa [peak, peakFrom] using hpeak

/-- Matching the parentheses of a value text rejects exactly what nests too deep. -/
theorem IsValueText.nestingFault?_eq_none {text : List Char} {d : Draft}
    (h : IsValueText text d) : nestingFault? text = none ↔ d.toExpr.depth ≤ maxNesting := by
  have hbalanced : Balanced 0 text := by simpa using ((h.nests 0 []).1).mpr rfl
  rw [Expr.nestingFault?_eq_none, h.peak_eq]
  obtain ⟨before, core, after, rfl, hbefore, hafter, hcore⟩ := h
  obtain ⟨c, cs, rfl, hc⟩ := hcore.head
  have hmark : ∃ c' ∈ before ++ (c :: cs ++ after), Text.isSpace c' = false := ⟨c, by simp, hc⟩
  simp only [hmark, hbalanced, true_and]

end SharedConstants.Expr
