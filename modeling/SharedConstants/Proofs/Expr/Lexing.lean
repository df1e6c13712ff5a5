import SharedConstants.Proofs.Expr.Grammar

/-!
# Pieces and the grammar

A run of blanks, a word or a signed word is one piece if what follows does not go on with it.
The pieces that spell an operand are those whose text does so by the grammar.
-/
namespace SharedConstants.Expr

open Text (isWordChar isNameStart isBlank)

section Characters

variable {c : Char}

theorem le_iff_toNat_le {c d : Char} : c ≤ d ↔ c.toNat ≤ d.toNat := by
  rw [Char.le_def, UInt32.le_iff_toNat_le]
  rfl

theorem eq_iff_toNat_eq {c d : Char} : c = d ↔ c.toNat = d.toNat := Char.toNat_inj.symm

theorem isDigitOf_ten : isDigitOf 10 c = true ↔ '0' ≤ c ∧ c ≤ '9' := by
  simp only [isDigitOf, le_iff_toNat_le, Bool.or_eq_true, Bool.and_eq_true, decide_eq_true_eq,
    Char.reduceToNat]
  unfold Decimal.digitValue
  grind

theorem isWordChar_of_isDigitOf {radix : Nat} (h : isDigitOf radix c = true) :
    isWordChar c = true := by
  simp only [isDigitOf, isWordChar, le_iff_toNat_le, Bool.or_eq_true, Bool.and_eq_true,
    decide_eq_true_eq, Char.reduceToNat] at h ⊢
  omega

theorem isNameStart_of_isDigitOf (h : isDigitOf 10 c = true) : isNameStart c = false := by
  simp only [isDigitOf_ten, isNameStart, le_iff_toNat_le, eq_iff_toNat_eq,
    Bool.or_eq_false_iff, Bool.and_eq_false_iff, decide_eq_false_iff_not,
    Char.reduceToNat] at h ⊢
  omega

theorem isSpace_of_isWordChar (h : isWordChar c = true) : Text.isSpace c = false := by
  simp only [Text.isSpace, isBlank, isWordChar, le_iff_toNat_le, eq_iff_toNat_eq,
    Bool.or_eq_true, Bool.and_eq_true, decide_eq_true_eq, beq_eq_false_iff_ne,
    Bool.or_eq_false_iff, Bool.and_eq_false_iff, decide_eq_false_iff_not, Char.reduceToNat] at h ⊢
  omega

theorem isBlank_of_isSpace (h : Text.isSpace c = false) : isBlank c = false :=
  (Bool.or_eq_false_iff.mp h).1

theorem isWordChar_of_isBlank (h : isBlank c = true) : isWordChar c = false := by
  cases hword : isWordChar c with
  | false => rfl
  | true => simp [isBlank_of_isSpace (isSpace_of_isWordChar hword)] at h

end Characters

/-- What a piece holds is of its kind. -/
def Lexeme.Proper : Lexeme → Prop
  | .blanks c cs => Blanks (c :: cs)
  | .word c cs => ∀ d ∈ c :: cs, isWordChar d = true
  | _ => True

theorem proper_pushSign {negative : Bool} {pieces : List Lexeme}
    (h : ∀ piece ∈ pieces, piece.Proper) :
    ∀ piece ∈ Lexeme.pushSign negative pieces, piece.Proper := by
  unfold Lexeme.pushSign
  split
  · rw [List.forall_mem_cons] at h ⊢
    exact ⟨trivial, h.2⟩
  · exact List.forall_mem_cons.mpr ⟨trivial, h⟩

theorem proper_push {c : Char} {pieces : List Lexeme} (h : ∀ piece ∈ pieces, piece.Proper) :
    ∀ piece ∈ Lexeme.push c pieces, piece.Proper := by
  fun_cases Lexeme.push c pieces with
  | case1 | case2 | case9 => exact List.forall_mem_cons.mpr ⟨trivial, h⟩
  | case3 | case4 => exact proper_pushSign h
  | case5 _ _ _ _ hc d ds rest =>
    rw [List.forall_mem_cons] at h ⊢
    exact ⟨List.forall_mem_cons.mpr ⟨hc, h.1⟩, h.2⟩
  | case6 _ _ _ _ hc _ =>
    have hword : (Lexeme.word c []).Proper := List.forall_mem_singleton.mpr hc
    exact List.forall_mem_cons.mpr ⟨hword, h⟩
  | case7 _ _ _ _ _ hc d ds rest =>
    rw [List.forall_mem_cons] at h ⊢
    exact ⟨List.forall_mem_cons.mpr ⟨hc, h.1⟩, h.2⟩
  | case8 _ _ _ _ _ hc _ =>
    have hblank : (Lexeme.blanks c []).Proper := List.forall_mem_singleton.mpr hc
    exact List.forall_mem_cons.mpr ⟨hblank, h⟩

theorem proper_lexemes (text : List Char) : ∀ piece ∈ lexemes text, piece.Proper := by
  induction text with
  | nil => exact List.forall_mem_nil _
  | cons c text ih => exact proper_push ih

/-- The first character of the first piece is the first one of the text. -/
theorem head_text_of_lexemes {text : List Char} {piece : Lexeme} {rest : List Lexeme}
    (h : lexemes text = piece :: rest) : text.head? = piece.text.head? := by
  have htext := flatMap_text_lexemes text
  rw [h, List.flatMap_cons] at htext
  rw [← htext]
  cases piece with
  | signed negative run => cases negative <;> rfl
  | _ => rfl

theorem lexemes_cons (c : Char) (text : List Char) :
    lexemes (c :: text) = Lexeme.push c (lexemes text) := rfl

theorem lexemes_opening (text : List Char) : lexemes ('(' :: text) = .opening :: lexemes text := rfl

theorem push_of_isWordChar {c : Char} (h : isWordChar c = true) (pieces : List Lexeme) :
    Lexeme.push c pieces = match pieces with
      | .word d ds :: rest => .word c (d :: ds) :: rest
      | rest => .word c [] :: rest := by
  have h₁ : c ≠ '(' := by rintro rfl; exact absurd h (by decide)
  have h₂ : c ≠ ')' := by rintro rfl; exact absurd h (by decide)
  have h₃ : c ≠ '-' := by rintro rfl; exact absurd h (by decide)
  have h₄ : c ≠ '+' := by rintro rfl; exact absurd h (by decide)
  unfold Lexeme.push
  exact (if_neg h₁).trans ((if_neg h₂).trans ((if_neg h₃).trans ((if_neg h₄).trans (if_pos h))))

theorem push_of_isBlank {c : Char} (h : isBlank c = true) (pieces : List Lexeme) :
    Lexeme.push c pieces = match pieces with
      | .blanks d ds :: rest => .blanks c (d :: ds) :: rest
      | rest => .blanks c [] :: rest := by
  have h₁ : c ≠ '(' := by rintro rfl; exact absurd h (by decide)
  have h₂ : c ≠ ')' := by rintro rfl; exact absurd h (by decide)
  have h₃ : c ≠ '-' := by rintro rfl; exact absurd h (by decide)
  have h₄ : c ≠ '+' := by rintro rfl; exact absurd h (by decide)
  have h₅ : ¬ isWordChar c = true := by simp [isWordChar_of_isBlank h]
  unfold Lexeme.push
  exact (if_neg h₁).trans ((if_neg h₂).trans ((if_neg h₃).trans ((if_neg h₄).trans
    ((if_neg h₅).trans (if_pos h)))))

/-- The text does not go on with a word. -/
def EndsWord (text : List Char) : Prop := ∀ c ∈ text.head?, isWordChar c = false

/-- The text does not go on with blanks. -/
def EndsBlanks (text : List Char) : Prop := ∀ c ∈ text.head?, isBlank c = false

theorem endsWord_cons {c : Char} {text : List Char} :
    EndsWord (c :: text) ↔ isWordChar c = false := by
  simp [EndsWord]

theorem endsBlanks_cons {c : Char} {text : List Char} :
    EndsBlanks (c :: text) ↔ isBlank c = false := by
  simp [EndsBlanks]

theorem Blanks.endsWord_append {gap text : List Char} (hgap : Blanks gap) (h : EndsWord text) :
    EndsWord (gap ++ text) := by
  cases gap with
  | nil => exact h
  | cons c cs => exact endsWord_cons.mpr (isWordChar_of_isBlank (hgap c List.mem_cons_self))

/-- A run of word characters is one piece. -/
theorem lexemes_word {c : Char} {cs text : List Char} (hcs : ∀ d ∈ c :: cs, isWordChar d = true)
    (htext : EndsWord text) : lexemes (c :: (cs ++ text)) = .word c cs :: lexemes text := by
  induction cs generalizing c with
  | nil =>
    rw [List.nil_append, lexemes_cons, push_of_isWordChar (hcs c List.mem_cons_self)]
    split
    · next d ds rest heq =>
      have hd := htext d (by rw [head_text_of_lexemes heq]; rfl)
      have hproper := proper_lexemes text (.word d ds) (by rw [heq]; exact List.mem_cons_self)
      exact absurd (hproper d List.mem_cons_self) (by simp [hd])
    · rfl
  | cons d cs ih =>
    obtain ⟨hc, hcs⟩ := List.forall_mem_cons.mp hcs
    rw [lexemes_cons, List.cons_append, ih hcs, push_of_isWordChar hc]

/-- A run of blanks is one piece. -/
theorem lexemes_blanks {c : Char} {cs text : List Char} (hcs : Blanks (c :: cs))
    (htext : EndsBlanks text) : lexemes (c :: (cs ++ text)) = .blanks c cs :: lexemes text := by
  induction cs generalizing c with
  | nil =>
    rw [List.nil_append, lexemes_cons, push_of_isBlank (hcs c List.mem_cons_self)]
    split
    · next d ds rest heq =>
      have hd := htext d (by rw [head_text_of_lexemes heq]; rfl)
      have hproper := proper_lexemes text (.blanks d ds) (by rw [heq]; exact List.mem_cons_self)
      exact absurd (hproper d List.mem_cons_self) (by simp [hd])
    · rfl
  | cons d cs ih =>
    obtain ⟨hc, hcs⟩ := List.forall_mem_cons.mp hcs
    rw [lexemes_cons, List.cons_append, ih hcs, push_of_isBlank hc]

/-- A sign takes the word behind it with it. -/
theorem lexemes_plus {c : Char} {cs text : List Char} (hcs : ∀ d ∈ c :: cs, isWordChar d = true)
    (htext : EndsWord text) :
    lexemes ('+' :: c :: (cs ++ text)) = .signed false (c :: cs) :: lexemes text := by
  rw [lexemes_cons, lexemes_word hcs htext]
  rfl

theorem lexemes_minus {c : Char} {cs text : List Char} (hcs : ∀ d ∈ c :: cs, isWordChar d = true)
    (htext : EndsWord text) :
    lexemes ('-' :: c :: (cs ++ text)) = .signed true (c :: cs) :: lexemes text := by
  rw [lexemes_cons, lexemes_word hcs htext]
  rfl

theorem Digits.head {radix : Nat} {ds : List Char} (h : Digits radix ds) :
    ∃ c cs, ds = c :: cs ∧ isDigitOf radix c = true := by
  cases h with
  | one hc | more hc _ | spaced hc _ => exact ⟨_, _, rfl, hc⟩

theorem Digits.isWordChar {radix : Nat} {ds : List Char} (h : Digits radix ds) :
    ∀ d ∈ ds, isWordChar d = true := by
  induction h with
  | one hc => exact List.forall_mem_singleton.mpr (isWordChar_of_isDigitOf hc)
  | more hc _ ih => exact List.forall_mem_cons.mpr ⟨isWordChar_of_isDigitOf hc, ih⟩
  | spaced hc _ ih =>
    exact List.forall_mem_cons.mpr
      ⟨isWordChar_of_isDigitOf hc, List.forall_mem_cons.mpr ⟨by decide, ih⟩⟩

theorem spellsDigits_iff {radix : Nat} {ds : List Char} :
    spellsDigits (isDigitOf radix) ds = true ↔ Digits radix ds := by
  have hunderscore : ¬ isDigitOf radix '_' = true := by simp [isDigitOf]
  fun_induction spellsDigits (isDigitOf radix) ds with
  | case1 => exact ⟨nofun, nofun⟩
  | case2 c =>
    refine ⟨.one, fun h => ?_⟩
    cases h with
    | one hc | more hc _ => exact hc
  | case3 c rest ih =>
    rw [Bool.and_eq_true]
    refine ⟨fun h => .spaced h.1 (ih.mp h.2), fun h => ?_⟩
    cases h with
    | more hc hrest =>
      obtain ⟨_, _, heq, hd⟩ := hrest.head
      cases heq
      exact absurd hd hunderscore
    | spaced hc hrest => exact ⟨hc, ih.mpr hrest⟩
  | case4 c rest hne hnot ih =>
    rw [Bool.and_eq_true]
    refine ⟨fun h => .more h.1 (ih.mp h.2), fun h => ?_⟩
    cases h with
    | one => exact absurd rfl hne
    | more hc hrest => exact ⟨hc, ih.mpr hrest⟩
    | spaced => exact absurd rfl (hnot _)

theorem mem_radixMarks {mark : Char} {radix : Nat} :
    (mark, radix) ∈ radixMarks ↔ radix = radixOf mark ∧ radix ≠ 10 := by
  simp only [radixMarks, List.mem_cons, Prod.mk.injEq, List.not_mem_nil, or_false, radixOf]
  grind

/-- No decimal digit announces a radix. -/
theorem Digits.radixOf {mark : Char} {ds : List Char} (h : Digits 10 ('0' :: mark :: ds)) :
    radixOf mark = 10 := by
  have hmark : '0' ≤ mark ∧ mark ≤ '9' ∨ mark = '_' := by
    cases h with
    | more _ hrest =>
      obtain ⟨_, _, heq, hd⟩ := hrest.head
      cases heq
      exact .inl (isDigitOf_ten.mp hd)
    | spaced => exact .inr rfl
  simp only [Expr.radixOf, le_iff_toNat_le, eq_iff_toNat_eq, Char.reduceToNat] at hmark ⊢
  rw [if_neg (by omega), if_neg (by omega), if_neg (by omega)]

theorem numeral?_eq_some {run ds : List Char} {radix : Nat} :
    numeral? run = some (radix, ds) ↔ Numeral run radix ds := by
  constructor
  · intro h
    unfold numeral? at h
    split at h
    · split at h
      · obtain ⟨hds, rfl, rfl⟩ : _ ∧ _ := by simpa using h
        exact .decimal (spellsDigits_iff.mp hds)
      · next mark digits hradix =>
        obtain ⟨hds, rfl, rfl⟩ : _ ∧ _ := by simpa using h
        exact .marked (mem_radixMarks.mpr ⟨rfl, hradix⟩) (spellsDigits_iff.mp hds)
    · obtain ⟨hds, rfl, rfl⟩ : _ ∧ _ := by simpa using h
      exact .decimal (spellsDigits_iff.mp hds)
  · intro h
    cases h with
    | decimal hds =>
      have hspells := spellsDigits_iff.mpr hds
      unfold numeral?
      split
      · rw [if_pos hds.radixOf, if_pos hspells]
      · rw [if_pos hspells]
    | marked hmark hds =>
      obtain ⟨rfl, hradix⟩ := mem_radixMarks.mp hmark
      have hspells := spellsDigits_iff.mpr hds
      simp only [numeral?, if_neg hradix, if_pos hspells]

theorem Numeral.head {run ds : List Char} {radix : Nat} (h : Numeral run radix ds) :
    ∃ c cs, run = c :: cs ∧ isDigitOf 10 c = true := by
  cases h with
  | decimal hds => exact hds.head
  | marked => exact ⟨_, _, rfl, by decide⟩

theorem Numeral.isWordChar {run ds : List Char} {radix : Nat} (h : Numeral run radix ds) :
    ∀ d ∈ run, isWordChar d = true := by
  cases h with
  | decimal hds => exact hds.isWordChar
  | marked hmark hds =>
    have hletter : ∀ mark ∈ radixMarks, Text.isWordChar mark.1 = true := by decide
    refine List.forall_mem_cons.mpr ⟨by decide, List.forall_mem_cons.mpr ⟨?_, hds.isWordChar⟩⟩
    exact hletter _ hmark

theorem isName_eq_true {text : List Char} (h : Text.isName text = true) :
    ∃ c cs, text = c :: cs ∧ isNameStart c = true ∧ ∀ d ∈ c :: cs, isWordChar d = true := by
  cases text with
  | nil => exact absurd h (by simp [Text.isName])
  | cons c cs =>
    simp only [Text.isName, Bool.and_eq_true, List.all_eq_true] at h
    have hc := Text.isWordChar_of_isNameStart h.1
    exact ⟨c, cs, rfl, h.1, List.forall_mem_cons.mpr ⟨hc, h.2⟩⟩

theorem isIdentifier_cons {c : Char} {cs : List Char} :
    isIdentifier (c :: cs) = true ↔ (isNameStart c = true ∧ ∀ d ∈ cs, isWordChar d = true) ∧
      c :: cs ≠ ['t', 'r', 'u', 'e'] ∧ c :: cs ≠ ['f', 'a', 'l', 's', 'e'] := by
  simp only [isIdentifier, Text.isName, Bool.and_eq_true, List.all_eq_true, bne_iff_ne, and_assoc]

/-- A piece that spells an operand does so by the grammar. -/
theorem spells_of_atom? {piece : Lexeme} {a : Atom} (hproper : piece.Proper)
    (h : piece.atom? = some a) : Spells piece.text a := by
  cases piece with
  | word c cs =>
    simp only [Lexeme.atom?] at h
    split at h
    · next htrue =>
      obtain rfl := Option.some.inj h
      obtain ⟨rfl, rfl⟩ := List.cons.inj htrue
      exact .truth
    · next htrue =>
      split at h
      · next hfalse =>
        obtain rfl := Option.some.inj h
        obtain ⟨rfl, rfl⟩ := List.cons.inj hfalse
        exact .falsity
      · next hfalse =>
        split at h
        · next hstart =>
          obtain rfl := Option.some.inj h
          have hcs := (List.forall_mem_cons.mp hproper).2
          exact .name (isIdentifier_cons.mpr ⟨⟨hstart, hcs⟩, htrue, hfalse⟩)
        · obtain ⟨⟨radix, ds⟩, hnumeral, rfl⟩ := Option.map_eq_some_iff.mp h
          exact .unsigned (numeral?_eq_some.mp hnumeral)
  | signed negative run =>
    obtain ⟨⟨radix, ds⟩, hnumeral, rfl⟩ := Option.map_eq_some_iff.mp h
    cases negative with
    | false => exact .plus (numeral?_eq_some.mp hnumeral)
    | true => exact .minus (numeral?_eq_some.mp hnumeral)
  | _ => exact absurd h (by simp [Lexeme.atom?])

theorem atom?_of_isIdentifier {c : Char} {cs : List Char} (h : isIdentifier (c :: cs) = true) :
    (Lexeme.word c cs).atom? = some (.name (c :: cs)) := by
  obtain ⟨⟨hstart, _⟩, htrue, hfalse⟩ := isIdentifier_cons.mp h
  simp only [Lexeme.atom?, if_neg htrue, if_neg hfalse, if_pos hstart]

theorem atom?_of_numeral {c : Char} {cs ds : List Char} {radix : Nat}
    (h : Numeral (c :: cs) radix ds) :
    (Lexeme.word c cs).atom? = some (.number false radix ds) := by
  obtain ⟨_, _, heq, hdigit⟩ := h.head
  cases heq
  have hstart : ¬ isNameStart c = true := by simp [isNameStart_of_isDigitOf hdigit]
  have htrue : c :: cs ≠ ['t', 'r', 'u', 'e'] := by
    rintro ⟨⟩
    exact hstart (by decide)
  have hfalse : c :: cs ≠ ['f', 'a', 'l', 's', 'e'] := by
    rintro ⟨⟩
    exact hstart (by decide)
  simp only [Lexeme.atom?, if_neg htrue, if_neg hfalse, if_neg hstart, numeral?_eq_some.mpr h,
    Option.map_some]

/-- A text that spells an operand is one piece that spells it. -/
theorem Spells.lexemes {text : List Char} {a : Atom} (h : Spells text a) :
    ∃ piece : Lexeme, piece.text = text ∧ piece.atom? = some a ∧
      ∀ rest, EndsWord rest → lexemes (text ++ rest) = piece :: lexemes rest := by
  cases h with
  | truth =>
    have hword := List.all_eq_true.mp (rfl : ['t', 'r', 'u', 'e'].all isWordChar = true)
    exact ⟨.word 't' ['r', 'u', 'e'], rfl, rfl, fun rest => lexemes_word hword⟩
  | falsity =>
    have hword := List.all_eq_true.mp (rfl : ['f', 'a', 'l', 's', 'e'].all isWordChar = true)
    exact ⟨.word 'f' ['a', 'l', 's', 'e'], rfl, rfl, fun rest => lexemes_word hword⟩
  | name hid =>
    cases text with
    | nil => exact absurd hid (by decide)
    | cons c cs =>
      obtain ⟨⟨hstart, hcs⟩, _⟩ := isIdentifier_cons.mp hid
      have hword : ∀ d ∈ c :: cs, isWordChar d = true :=
        List.forall_mem_cons.mpr ⟨Text.isWordChar_of_isNameStart hstart, hcs⟩
      exact ⟨.word c cs, rfl, atom?_of_isIdentifier hid, fun rest => lexemes_word hword⟩
  | unsigned hnumeral =>
    obtain ⟨c, cs, rfl, _⟩ := hnumeral.head
    exact ⟨.word c cs, rfl, atom?_of_numeral hnumeral, fun rest => lexemes_word hnumeral.isWordChar⟩
  | plus hnumeral =>
    obtain ⟨c, cs, rfl, _⟩ := hnumeral.head
    refine ⟨.signed false (c :: cs), rfl, ?_, fun rest => lexemes_plus hnumeral.isWordChar⟩
    simp only [Lexeme.atom?, numeral?_eq_some.mpr hnumeral, Option.map_some]
  | minus hnumeral =>
    obtain ⟨c, cs, rfl, _⟩ := hnumeral.head
    refine ⟨.signed true (c :: cs), rfl, ?_, fun rest => lexemes_minus hnumeral.isWordChar⟩
    simp only [Lexeme.atom?, numeral?_eq_some.mpr hnumeral, Option.map_some]

theorem Spells.head {text : List Char} {a : Atom} (h : Spells text a) :
    ∃ c cs, text = c :: cs ∧ Text.isSpace c = false := by
  cases h with
  | truth | falsity | plus | minus => exact ⟨_, _, rfl, by decide⟩
  | name hid =>
    cases text with
    | nil => exact absurd hid (by decide)
    | cons c cs =>
      have hword := Text.isWordChar_of_isNameStart (isIdentifier_cons.mp hid).1.1
      exact ⟨c, cs, rfl, isSpace_of_isWordChar hword⟩
  | unsigned hnumeral =>
    obtain ⟨c, cs, rfl, hdigit⟩ := hnumeral.head
    exact ⟨c, cs, rfl, isSpace_of_isWordChar (isWordChar_of_isDigitOf hdigit)⟩

/-- A derived operand does not start with a space. -/
theorem Derives.head {i : Nat} {text : List Char} {d : Draft}
    (h : Derives i text (.operand d)) : ∃ c cs, text = c :: cs ∧ Text.isSpace c = false := by
  cases h with
  | atom hspells => exact hspells.head
  | apply => exact ⟨_, _, rfl, by decide⟩

theorem Derives.endsBlanks {i : Nat} {text : List Char} {d : Draft}
    (h : Derives i text (.operand d)) (rest : List Char) : EndsBlanks (text ++ rest) := by
  obtain ⟨c, cs, rfl, hc⟩ := h.head
  exact endsBlanks_cons.mpr (isBlank_of_isSpace hc)

/-- Operands start with a blank, if there are any. -/
theorem Derives.endsWord {i : Nat} {text rest : List Char} {ds : List Draft}
    (h : Derives i text (.operands ds)) (hrest : EndsWord rest) : EndsWord (text ++ rest) := by
  -- the induction is on all phrases; only those of operands matter
  generalize hp : Phrase.operands ds = p at h
  induction h generalizing ds rest with
  | atom | apply => exact Phrase.noConfusion hp
  | none => exact hrest
  | @more i args gap text ds d _ hgap hne _ ih _ =>
    obtain ⟨c, cs, rfl⟩ := List.exists_cons_of_ne_nil hne
    have hc := isWordChar_of_isBlank (hgap c List.mem_cons_self)
    rw [List.append_assoc]
    exact ih (endsWord_cons.mpr hc) rfl

end SharedConstants.Expr
