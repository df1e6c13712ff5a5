import Mathlib.Data.List.Basic
import SharedConstants.Proofs.Expr.Nesting

/-!
# Matching parentheses

Two parentheses belong together if what stands between them is balanced. A text is free of faults
if it is balanced and nests no deeper than allowed. Otherwise the first parenthesis that opens one
level too many or has nothing to close is at fault; if there is none, the last one that is never
closed.
-/
namespace SharedConstants.Expr

variable {text front inside rest : List Char} {opened : List Nat} {i j : Nat}

/-- No beginning of a text closes more than it opens, and the text closes what it opens. -/
structure Matched (text : List Char) : Prop where
  closesOpened : ∀ k, (text.take k).count ')' ≤ (text.take k).count '('
  closesAll : text.count '(' = text.count ')'

/-- An opening and a closing parenthesis with a balanced text between them. -/
def Partners (text : List Char) (i j : Nat) : Prop :=
  ∃ before inside after, text = before ++ '(' :: (inside ++ ')' :: after) ∧ Matched inside ∧
    before.length = i ∧ j = i + inside.length + 1

/-- How many more parentheses open than close in front of a place. -/
def levelAt (text : List Char) (i : Nat) : Nat := (text.take i).count '(' - (text.take i).count ')'

/-- A parenthesis that is at fault however the text goes on. -/
inductive AtFault (text : List Char) (i : Nat) : ExpressionFault → Prop
  | tooDeep : text[i]? = some '(' → levelAt text (i + 1) = 65 → AtFault text i (.tooDeep 64)
  | unmatchedClosing : text[i]? = some ')' → (∀ j, ¬ Partners text j i) →
    AtFault text i .unmatchedClosing

/-- The first place with a parenthesis at fault. -/
def FirstAtFault (text : List Char) (i : Nat) (fault : ExpressionFault) : Prop :=
  AtFault text i fault ∧ ∀ j < i, ∀ fault', ¬ AtFault text j fault'

/-- The last opening parenthesis that nothing closes. -/
structure LastUnclosed (text : List Char) (i : Nat) : Prop where
  opening : text[i]? = some '('
  unclosed : ∀ j, ¬ Partners text i j
  closedBehind : ∀ k > i, text[k]? = some '(' → ∃ j, Partners text k j

/-- The faults of the nesting: a parenthesis at fault, or else one that is never closed. -/
def Misnested (text : List Char) (i : Nat) (fault : ExpressionFault) : Prop :=
  FirstAtFault text i fault ∨
    (∀ j fault', ¬ AtFault text j fault') ∧ LastUnclosed text i ∧ fault = .unmatchedOpening

section Matched

theorem matched_nil : Matched [] := ⟨fun _ => by simp, rfl⟩

theorem Matched.append (h : Matched front) (h' : Matched rest) : Matched (front ++ rest) where
  closesOpened k := by
    rw [List.take_append, List.count_append, List.count_append]
    exact Nat.add_le_add (h.closesOpened k) (h'.closesOpened _)
  closesAll := by rw [List.count_append, List.count_append, h.closesAll, h'.closesAll]

theorem Matched.enclosed (h : Matched inside) : Matched ('(' :: (inside ++ [')'])) where
  closesOpened k := by
    cases k with
    | zero => simp
    | succ k =>
      have hinside := h.closesOpened k
      have hclosing : ([')'].take (k - inside.length)).count ')' ≤ 1 :=
        (List.take_sublist _ _).count_le _
      simp only [List.take_succ_cons, List.count_cons, List.take_append, List.count_append]
      simp
      omega
  closesAll := by simp [h.closesAll]

theorem matched_singleton {c : Char} (hopening : c ≠ '(') (hclosing : c ≠ ')') : Matched [c] where
  closesOpened k := by
    cases k <;> simp [hopening, hclosing]
  closesAll := by simp [hopening, hclosing]

/-- Where more parentheses close than open, one closes that nothing in the text has opened. -/
theorem exists_unopened : ∀ {text : List Char}, text.count '(' < text.count ')' →
    ∃ inside after, text = inside ++ ')' :: after ∧ Matched inside
  | [], h => by simp at h
  | c :: cs, h => by
    by_cases hclosing : c = ')'
    · exact ⟨[], cs, by rw [hclosing]; rfl, matched_nil⟩
    by_cases hopening : c = '('
    · -- what `c` opens is closed first, and one more closes behind that
      subst hopening
      have hcs : cs.count '(' + 1 < cs.count ')' := by simpa using h
      obtain ⟨inside, after, rfl, hinside⟩ := exists_unopened (Nat.lt_of_succ_lt hcs)
      have hafter : after.count '(' < after.count ')' := by
        have hclosed := hinside.closesAll
        simp at hcs
        omega
      obtain ⟨inside', after', rfl, hinside'⟩ := exists_unopened hafter
      exact ⟨_, after', by simp, hinside.enclosed.append hinside'⟩
    · have hcs : cs.count '(' < cs.count ')' := by simpa [hopening, hclosing] using h
      obtain ⟨inside, after, rfl, hinside⟩ := exists_unopened hcs
      exact ⟨c :: inside, after, rfl, (matched_singleton hopening hclosing).append hinside⟩
termination_by text => text.length

/-- What opens in a balanced text is closed in it. -/
theorem Matched.exists_closing {before after : List Char} (h : Matched (before ++ '(' :: after)) :
    ∃ inside rest, after = inside ++ ')' :: rest ∧ Matched inside := by
  have hbefore := h.closesOpened before.length
  have hall := h.closesAll
  simp at hbefore hall
  exact exists_unopened (by omega)

end Matched

/-- The beginning of a text that ends with one of its characters. -/
theorem take_through (front rest : List Char) (c : Char) :
    (front ++ c :: rest).take (front.length + 1) = front ++ [c] := by
  have htext : front ++ c :: rest = (front ++ [c]) ++ rest := by simp
  rw [htext, List.take_left' (by simp)]

section LeavesOpen

/-- A text leaves parentheses open at some places, the last one first. Between them it is
balanced. -/
inductive LeavesOpen : List Char → List Nat → Prop
  | none {text : List Char} : Matched text → LeavesOpen text []
  | more {text inside : List Char} {opened : List Nat} : LeavesOpen text opened → Matched inside →
    LeavesOpen (text ++ '(' :: inside) (text.length :: opened)

theorem LeavesOpen.append (h : LeavesOpen text opened) (hrest : Matched rest) :
    LeavesOpen (text ++ rest) opened := by
  cases h with
  | none htext => exact .none (htext.append hrest)
  | more htext hinside => simpa using htext.more (hinside.append hrest)

theorem LeavesOpen.open (h : LeavesOpen text opened) :
    LeavesOpen (text ++ ['(']) (text.length :: opened) := h.more matched_nil

theorem LeavesOpen.close (h : LeavesOpen text (i :: opened)) :
    LeavesOpen (text ++ [')']) opened := by
  cases h with
  | more htext hinside => simpa using htext.append hinside.enclosed

theorem LeavesOpen.count (h : LeavesOpen text opened) :
    text.count '(' = text.count ')' + opened.length := by
  induction h with
  | none htext => simpa using htext.closesAll
  | more _ hinside ih =>
    have := hinside.closesAll
    simp
    omega

theorem LeavesOpen.levelAt (h : LeavesOpen front opened) :
    levelAt (front ++ '(' :: rest) (front.length + 1) = opened.length + 1 := by
  have hcount := h.count
  simp [Expr.levelAt, take_through]
  omega

/-- A closing parenthesis closes what was opened last. -/
theorem LeavesOpen.partners (h : LeavesOpen front (i :: opened)) :
    Partners (front ++ ')' :: rest) i front.length := by
  cases h with
  | more htext hinside =>
    exact ⟨_, _, rest, by simp, hinside, rfl, by simp [Nat.add_assoc]⟩

/-- Behind a balanced text there is nothing to close. -/
theorem Matched.not_partners (h : Matched front) :
    ¬ Partners (front ++ ')' :: rest) j front.length := by
  rintro ⟨before, inside, after, htext, hinside, rfl, hlength⟩
  have hparts : front ++ ')' :: rest = (before ++ '(' :: inside) ++ ')' :: after := by
    simpa using htext
  obtain ⟨rfl, -⟩ := List.append_inj hparts (by simpa [Nat.add_assoc] using hlength)
  have hbefore := h.closesOpened before.length
  have hall := h.closesAll
  have hclosed := hinside.closesAll
  simp at hbefore hall
  omega

theorem exists_of_getElem? {c : Char} (h : text[i]? = some c) :
    ∃ before after, text = before ++ c :: after ∧ before.length = i := by
  obtain ⟨hi, rfl⟩ := List.getElem?_eq_some_iff.mp h
  exact ⟨text.take i, text.drop (i + 1), by simp, List.length_take_of_le (Nat.le_of_lt hi)⟩

/-- Of the parentheses that a text leaves open, the last one is the last that nothing closes. -/
theorem LeavesOpen.lastUnclosed (h : LeavesOpen text (i :: opened)) : LastUnclosed text i := by
  cases h with
  | @more front inside _ _ hinside =>
    refine ⟨by simp, ?_, ?_⟩
    · rintro j ⟨before, inside', after, htext, hinside', hlength, -⟩
      obtain ⟨-, hrest⟩ := List.append_inj htext hlength.symm
      obtain rfl := (List.cons.inj hrest).2
      have hfirst := hinside.closesOpened (inside'.length + 1)
      have hclosed := hinside'.closesAll
      simp [take_through] at hfirst
      omega
    · intro k hk hopening
      obtain ⟨m, rfl⟩ := Nat.exists_eq_add_of_lt hk
      have hplace : inside[m]? = some '(' := by
        simpa [List.getElem?_append_right, Nat.add_assoc, Nat.add_sub_cancel_left] using hopening
      obtain ⟨before, after, rfl, rfl⟩ := exists_of_getElem? hplace
      obtain ⟨inside', rest, rfl, hinside'⟩ := hinside.exists_closing
      exact ⟨_, front ++ '(' :: before, inside', rest, by simp, hinside', by simp; omega, rfl⟩

end LeavesOpen

section Scan

variable {fault : ExpressionFault}

theorem AtFault.char (h : AtFault text i fault) : text[i]? = some '(' ∨ text[i]? = some ')' := by
  cases h with
  | tooDeep hopening _ => exact .inl hopening
  | unmatchedClosing hclosing _ => exact .inr hclosing

theorem AtFault.lt_length (h : AtFault text i fault) : i < text.length := by
  rcases h.char with hc | hc <;> exact (List.getElem?_eq_some_iff.mp hc).1

theorem LeavesOpen.atFault_opening (h : LeavesOpen front opened) (hfull : opened.length = 64) :
    AtFault (front ++ '(' :: rest) front.length (.tooDeep 64) :=
  .tooDeep (by simp) (by rw [h.levelAt, hfull])

theorem LeavesOpen.not_atFault_opening (h : LeavesOpen front opened) (hless : opened.length < 64) :
    ¬ AtFault (front ++ '(' :: rest) front.length fault := by
  intro hfault
  cases hfault with
  | tooDeep _ hdeep =>
    rw [h.levelAt] at hdeep
    omega
  | unmatchedClosing hclosing _ => simp at hclosing

theorem Matched.atFault_closing (h : Matched front) :
    AtFault (front ++ ')' :: rest) front.length .unmatchedClosing :=
  .unmatchedClosing (by simp) fun _ => h.not_partners

theorem LeavesOpen.not_atFault_closing (h : LeavesOpen front (i :: opened)) :
    ¬ AtFault (front ++ ')' :: rest) front.length fault := by
  intro hfault
  cases hfault with
  | tooDeep hopening _ => simp at hopening
  | unmatchedClosing _ hnone => exact hnone i h.partners

theorem not_atFault_other {c : Char} (hopening : c ≠ '(') (hclosing : c ≠ ')') :
    ¬ AtFault (front ++ c :: rest) front.length fault := by
  intro hfault
  have hchar := hfault.char
  simp [hopening, hclosing] at hchar

theorem not_atFault_snoc {c : Char}
    (hearlier : ∀ j < front.length, ∀ fault, ¬ AtFault (front ++ c :: rest) j fault)
    (hhere : ∀ fault, ¬ AtFault (front ++ c :: rest) front.length fault) :
    ∀ j < (front ++ [c]).length, ∀ fault, ¬ AtFault (front ++ [c] ++ rest) j fault := by
  intro j hj fault
  rw [List.append_assoc, List.singleton_append]
  rw [List.length_append, List.length_singleton] at hj
  rcases Nat.lt_succ_iff_lt_or_eq.mp hj with hj | rfl
  · exact hearlier j hj fault
  · exact hhere fault

/-- The scan reports the first parenthesis at fault, or the last one that nothing closes. -/
theorem misnested_of_matchFrom {mark : Mark} (hleaves : LeavesOpen front opened)
    (hfew : opened.length ≤ maxNesting)
    (hearlier : ∀ j < front.length, ∀ fault, ¬ AtFault (front ++ rest) j fault)
    (h : matchFrom front.length opened rest = some mark) :
    ∃ i, mark.span = ⟨i, i + 1⟩ ∧ Misnested (front ++ rest) i mark.fault := by
  induction rest generalizing front opened with
  | nil =>
    obtain ⟨i, hi, rfl⟩ := Option.map_eq_some_iff.mp h
    obtain ⟨opened, rfl⟩ := List.head?_eq_some_iff.mp hi
    rw [List.append_nil] at hearlier ⊢
    have hnone : ∀ j fault, ¬ AtFault front j fault := fun j fault hfault =>
      hearlier j hfault.lt_length fault hfault
    exact ⟨i, rfl, .inr ⟨hnone, hleaves.lastUnclosed, rfl⟩⟩
  | cons c rest ih =>
    have hstep : ∀ {opened}, LeavesOpen (front ++ [c]) opened → opened.length ≤ maxNesting →
        (∀ fault, ¬ AtFault (front ++ c :: rest) front.length fault) →
        matchFrom (front.length + 1) opened rest = some mark →
        ∃ i, mark.span = ⟨i, i + 1⟩ ∧ Misnested (front ++ c :: rest) i mark.fault := by
      intro opened hleaves hfew hhere h
      have hlength : (front ++ [c]).length = front.length + 1 := by simp
      have hfound := ih hleaves hfew (not_atFault_snoc hearlier hhere) (hlength ▸ h)
      rwa [List.append_assoc, List.singleton_append] at hfound
    unfold matchFrom at h
    split at h
    · next hopening =>
      subst hopening
      split at h
      · next hless =>
        exact hstep hleaves.open hless (fun _ => hleaves.not_atFault_opening hless) h
      · next hfull =>
        obtain rfl := Option.some.inj h
        have hfull : opened.length = 64 := Nat.le_antisymm hfew (Nat.le_of_not_lt hfull)
        exact ⟨_, rfl, .inl ⟨hleaves.atFault_opening hfull, hearlier⟩⟩
    · next hopening =>
      split at h
      · next hclosing =>
        subst hclosing
        cases hopened : opened with
        | nil =>
          subst hopened
          obtain rfl := Option.some.inj h
          cases hleaves with
          | none hmatched => exact ⟨_, rfl, .inl ⟨hmatched.atFault_closing, hearlier⟩⟩
        | cons i outer =>
          subst hopened
          exact hstep hleaves.close (Nat.le_of_succ_le hfew)
            (fun _ => hleaves.not_atFault_closing) h
      · next hclosing =>
        exact hstep (hleaves.append (matched_singleton hopening hclosing)) hfew
          (fun _ => not_atFault_other hopening hclosing) h

/-- With `n` parentheses open in front of a text, each of its beginnings leaves between none and
`m` of them open. -/
def StaysWithin (m n : Nat) (text : List Char) : Prop :=
  ∀ k, (text.take k).count ')' ≤ (text.take k).count '(' + n ∧
    (text.take k).count '(' + n ≤ (text.take k).count ')' + m

variable {m n : Nat}

theorem StaysWithin.le (h : StaysWithin m n text) : n ≤ m := by simpa using (h 0).2

theorem staysWithin_opening : StaysWithin m n ('(' :: rest) ↔ StaysWithin m (n + 1) rest := by
  constructor
  · intro h k
    simpa [Nat.add_assoc, Nat.add_comm 1] using h (k + 1)
  · rintro h (_ | k)
    · have := h.le
      simp
      omega
    · simpa [Nat.add_assoc, Nat.add_comm 1] using h k

theorem staysWithin_closing :
    StaysWithin m (n + 1) (')' :: rest) ↔ n + 1 ≤ m ∧ StaysWithin m n rest := by
  constructor
  · refine fun h => ⟨h.le, fun k => ?_⟩
    have := h (k + 1)
    simp at this
    omega
  · rintro ⟨hle, h⟩ (_ | k)
    · simpa using hle
    · have := h k
      simp
      omega

theorem not_staysWithin_closing : ¬ StaysWithin m 0 (')' :: rest) := fun h => by
  simpa using (h 1).1

theorem staysWithin_other {c : Char} (hopening : c ≠ '(') (hclosing : c ≠ ')') :
    StaysWithin m n (c :: rest) ↔ StaysWithin m n rest := by
  constructor
  · intro h k
    simpa [hopening, hclosing] using h (k + 1)
  · rintro h (_ | k)
    · simpa using h.le
    · simpa [hopening, hclosing] using h k

/-- Counting parentheses in the beginnings of a text tells whether they are matched, and how many
are open at once. -/
theorem balanced_and_peakFrom_le : Balanced n text ∧ peakFrom n text ≤ m ↔
    StaysWithin m n text ∧ text.count '(' + n = text.count ')' := by
  induction text generalizing n with
  | nil =>
    simp [Balanced, peakFrom, StaysWithin]
    omega
  | cons c rest ih =>
    unfold Balanced peakFrom
    split
    · next hopening =>
      subst hopening
      rw [ih, staysWithin_opening]
      simp [Nat.add_assoc, Nat.add_comm 1]
    · next hopening =>
      split
      · next hclosing =>
        subst hclosing
        cases n with
        | zero => simp [not_staysWithin_closing]
        | succ n =>
          have hcounts : (')' :: rest).count '(' + (n + 1) = (')' :: rest).count ')' ↔
              rest.count '(' + n = rest.count ')' := by
            simp
            omega
          rw [staysWithin_closing, Nat.max_le, hcounts, and_assoc (a := n + 1 ≤ m), ← ih]
          simp [and_left_comm]
      · next hclosing =>
        rw [ih, staysWithin_other hopening hclosing]
        simp [hopening, hclosing]

end Scan

theorem nestingFault?_eq_matchFrom (h : ∃ c ∈ text, Text.isSpace c = false) :
    nestingFault? text = matchFrom 0 [] text := by
  rw [nestingFault?, if_neg (by simpa using h)]

/-- The nesting of a text that is not blank has no fault if no beginning closes more than it opens,
as many parentheses close as open, and never more than 64 are open at once. Otherwise the first one
is reported that opens level 65 or that has nothing to close, or, if there is none, the last one
that nothing closes. -/
theorem nestingFault?_outcome (h : ∃ c ∈ text, Text.isSpace c = false) :
    (nestingFault? text = none ↔
      Matched text ∧ ∀ k, (text.take k).count '(' ≤ (text.take k).count ')' + 64) ∧
    ∀ mark, nestingFault? text = some mark →
      ∃ i, mark.span = ⟨i, i + 1⟩ ∧ Misnested text i mark.fault := by
  rw [nestingFault?_eq_matchFrom h]
  constructor
  · rw [matchFrom_eq_none (Nat.zero_le _), List.length_nil, balanced_and_peakFrom_le]
    constructor
    · rintro ⟨hwithin, htotal⟩
      exact ⟨⟨fun k => (hwithin k).1, htotal⟩, fun k => (hwithin k).2⟩
    · rintro ⟨hmatched, hfew⟩
      exact ⟨fun k => ⟨hmatched.closesOpened k, hfew k⟩, hmatched.closesAll⟩
  · intro mark hmark
    have hempty : LeavesOpen [] [] := .none matched_nil
    exact misnested_of_matchFrom hempty (Nat.zero_le _) nofun hmark

/-- Of two parentheses that stay open the last one is reported. One behind it is closed. -/
theorem nestingFault?_outcome_closedBehind :
    nestingFault? "(add (sub 1 (mul 2 3)".toList = some ⟨.unmatchedOpening, ⟨5, 6⟩⟩ ∧
      LastUnclosed "(add (sub 1 (mul 2 3)".toList 5 := by
  have hmark : nestingFault? "(add (sub 1 (mul 2 3)".toList =
      some ⟨.unmatchedOpening, ⟨5, 6⟩⟩ := by cbv
  obtain ⟨i, hspan, hfault⟩ := (nestingFault?_outcome ⟨'a', by decide, by decide⟩).2 _ hmark
  obtain rfl : 5 = i := (Span.mk.inj hspan).1
  rcases hfault with ⟨hfault, -⟩ | ⟨-, hlast, -⟩
  · cases hfault
  · exact ⟨hmark, hlast⟩

end SharedConstants.Expr
