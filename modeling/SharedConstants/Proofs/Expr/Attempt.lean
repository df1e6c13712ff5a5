import SharedConstants.Proofs.Expr.Packrat

/-!
# Attempts of the ordered choices

A pattern is tried where nothing is recorded further on. It fails at once, matches up to a place
behind which nothing is recorded, or fails further on. Blanks, names and the words of operands are
matched as far as they reach.
-/
namespace SharedConstants.Expr

open Text (isWordChar isNameStart isBlank)

section Records

variable {r : Option Nat} {i s : Nat}

/-- No failure is recorded behind a place. -/
def Within (r : Option Nat) (i : Nat) : Prop := ∀ k ∈ r, k ≤ i

theorem within_none : Within none i := nofun

theorem within_some : Within (some s) i ↔ s ≤ i := by
  simp [Within]

theorem Within.mono {j : Nat} (h : Within r i) (hij : i ≤ j) : Within r j :=
  fun k hk => Nat.le_trans (h k hk) hij

theorem blamed_of_within (h : Within r i) : blamed r i = some i := by
  cases r with
  | none => simp [blamed]
  | some k => simp [blamed, within_some.mp h]

theorem blamed_some (h : i ≤ s) : blamed (some s) i = some s := by
  simp [blamed, h]

@[simp] theorem blamed_blamed : blamed (blamed r i) i = blamed r i := by
  simp [blamed]

@[simp] theorem blamed_or : blamed (r.or (some i)) i = blamed r i := by
  cases r <;> simp [blamed]

end Records

section Attempts

variable {text : List Char} {p q : Pattern} {ps : List Pattern} {name : Rule} {i j k s : Nat}

/-- A pattern fails at once. -/
def Fails (text : List Char) (p : Pattern) (i : Nat) : Prop :=
  ∀ r, Tries text p i r none (blamed r i)

/-- A pattern matches up to a place, where no failure is recorded behind the match. -/
def Takes (text : List Char) (p : Pattern) (i j : Nat) : Prop :=
  ∀ r, Within r i → ∃ r', Tries text p i r (some j) r' ∧ Within r' j

/-- A pattern fails, and its last failure is recorded at a place. -/
def Stops (text : List Char) (p : Pattern) (i s : Nat) : Prop :=
  ∀ r, Within r i → Tries text p i r none (some s)

theorem Fails.stops (h : Fails text p i) : Stops text p i i :=
  fun r hr => blamed_of_within hr ▸ h r

theorem Takes.rule (h : Takes text name.body i j) : Takes text (.rule name) i j := by
  intro r hr
  obtain ⟨r', hbody, hr'⟩ := h r hr
  exact ⟨r', .rule hbody, hr'⟩

theorem Stops.rule (h : Stops text name.body i s) (his : i ≤ s) : Stops text (.rule name) i s :=
  fun r hr => blamed_some his ▸ .noRule (h r hr)

theorem fails_token {kind ahead : List Char → Prop} (hbody : name.body = .token kind ahead)
    (h : ∀ token, ¬ Starts kind ahead (text.drop i) token) : Fails text (.rule name) i :=
  fun _ => .noRule (hbody ▸ .noToken h)

theorem takes_token {kind ahead : List Char → Prop} {token : List Char}
    (hbody : name.body = .token kind ahead) (h : Starts kind ahead (text.drop i) token)
    (hlongest : ∀ other, Starts kind ahead (text.drop i) other → other.length ≤ token.length) :
    Takes text (.rule name) i (i + token.length) :=
  fun r hr => ⟨r, .rule (hbody ▸ .token h hlongest), hr.mono (Nat.le_add_right ..)⟩

theorem takes_char {c : Char} {rest : List Char} (h : text.drop i = c :: rest) :
    Takes text (.char c) i (i + 1) :=
  fun r hr => ⟨r, .char h, hr.mono (Nat.le_succ i)⟩

/-- If all options fail at once, so does a rule for their choice. -/
theorem fails_choice (hbody : name.body = .choice ps) (h : ∀ p ∈ ps, Fails text p i) :
    Fails text (.rule name) i := by
  have hoptions : ∀ r, ∃ r', Tries text (.choice ps) i r none r' ∧ blamed r' i = blamed r i := by
    clear hbody
    induction ps with
    | nil => exact fun r => ⟨r, .noOption, rfl⟩
    | cons p ps ih =>
      intro r
      obtain ⟨hp, hps⟩ := List.forall_mem_cons.mp h
      obtain ⟨r', hrest, hr'⟩ := ih hps (blamed r i)
      exact ⟨r', .otherOption (hp r) hrest, by rw [hr', blamed_blamed]⟩
  intro r
  obtain ⟨r', hchoice, hr'⟩ := hoptions r
  exact hr' ▸ .noRule (hbody ▸ hchoice)

/-- An option matches if those before it fail at once. -/
theorem takes_choice (before : List Pattern) {after : List Pattern}
    (hbefore : ∀ q ∈ before, Fails text q i) (hp : Takes text p i j) :
    Takes text (.choice (before ++ p :: after)) i j := by
  induction before with
  | nil =>
    intro r hr
    obtain ⟨r', htries, hr'⟩ := hp r hr
    exact ⟨r', .option htries, hr'⟩
  | cons q before ih =>
    intro r hr
    obtain ⟨hq, hbefore⟩ := List.forall_mem_cons.mp hbefore
    obtain ⟨r', htries, hr'⟩ := ih hbefore (some i) (within_some.mpr (Nat.le_refl i))
    exact ⟨r', .otherOption (hq.stops r hr) htries, hr'⟩

/-- The other options record nothing if the first one fails further on. -/
theorem Stops.choice (hp : Stops text p i s) (his : i ≤ s) (hps : ∀ q ∈ ps, Fails text q i) :
    Stops text (.choice (p :: ps)) i s := by
  have hothers : Tries text (.choice ps) i (some s) none (some s) := by
    induction ps with
    | nil => exact .noOption
    | cons q ps ih =>
      obtain ⟨hq, hps⟩ := List.forall_mem_cons.mp hps
      have hfirst := hq (some s)
      rw [blamed_some his] at hfirst
      exact .otherOption hfirst (ih hps)
  exact fun r hr => .otherOption (hp r hr) hothers

theorem takes_done : Takes text (.sequence []) i i :=
  fun r hr => ⟨r, .done, hr⟩

theorem Takes.part (hp : Takes text p i j) (hps : Takes text (.sequence ps) j k) :
    Takes text (.sequence (p :: ps)) i k := by
  intro r hr
  obtain ⟨r', hpart, hr'⟩ := hp r hr
  obtain ⟨r'', hrest, hr''⟩ := hps r' hr'
  exact ⟨r'', .part hpart hrest, hr''⟩

theorem Takes.noPart (hp : Takes text p i j) (hps : Stops text (.sequence ps) j s) :
    Stops text (.sequence (p :: ps)) i s := by
  intro r hr
  obtain ⟨r', hpart, hr'⟩ := hp r hr
  exact .part hpart (hps r' hr')

theorem Stops.sequence (hp : Stops text p i s) : Stops text (.sequence (p :: ps)) i s :=
  fun r hr => .noPart (hp r hr)

/-- A repetition never fails. -/
theorem Tries.isSome_of_many {r r' stop : Option Nat} (h : Tries text (.many p) i r stop r') :
    stop.isSome := by
  generalize hq : Pattern.many p = q at h
  induction h with
  | again _ _ _ _ _ ih => exact ih hq
  | idle | noMore | atEnd => rfl
  | _ => cases hq

end Attempts

section Tokens

variable {text front back other rest : List Char} {i : Nat}

theorem drop_add_length (h : text.drop i = front ++ back) :
    text.drop (i + front.length) = back := by
  rw [← List.drop_drop, h, List.drop_left]

/-- No beginning of a text is longer than one behind which a character stands that it does not
have there. -/
theorem length_le_of_append (h : front ++ back = other ++ rest)
    (hback : ∀ c ∈ back.head?, c ∉ other.drop front.length) : other.length ≤ front.length := by
  rcases List.append_eq_append_iff.mp h with ⟨more, rfl, hmore⟩ | ⟨more, rfl, _⟩
  · cases more with
    | nil => simp
    | cons c more => exact absurd (by simp) (hback c (by simp [hmore]))
  · simp

theorem exists_gap (text : List Char) :
    ∃ gap back, text = gap ++ back ∧ Blanks gap ∧ EndsBlanks back := by
  refine ⟨_, _, (List.takeWhile_append_dropWhile (p := isBlank)).symm, ?_, ?_⟩
  · exact List.all_eq_true.mp List.all_takeWhile
  · intro c hc
    have hnot := List.head?_dropWhile_not isBlank text
    rw [Option.mem_def.mp hc] at hnot
    simpa using hnot

theorem exists_word (text : List Char) :
    ∃ run back, text = run ++ back ∧ (∀ c ∈ run, isWordChar c = true) ∧ EndsWord back := by
  refine ⟨_, _, (List.takeWhile_append_dropWhile (p := isWordChar)).symm, ?_, ?_⟩
  · exact List.all_eq_true.mp List.all_takeWhile
  · intro c hc
    have hnot := List.head?_dropWhile_not isWordChar text
    rw [Option.mem_def.mp hc] at hnot
    simpa using hnot

theorem length_le_of_blanks (h : front ++ back = other ++ rest) (hback : EndsBlanks back)
    (hother : Blanks other) : other.length ≤ front.length := by
  refine length_le_of_append h fun c hc hmem => ?_
  have hblank := hother c (List.mem_of_mem_drop hmem)
  simp [hback c hc] at hblank

/-- Blanks where they may stand, and as many as there are. -/
theorem tries_space (h : text.drop i = front ++ back) (hfront : Blanks front)
    (hback : EndsBlanks back) (r : Option Nat) :
    Tries text (.rule .space) i r (some (i + front.length)) r := by
  refine .rule (.token ⟨back, h, hfront, trivial⟩ ?_)
  rintro other ⟨rest, hother, hblanks, _⟩
  exact length_le_of_blanks (h.symm.trans hother) hback hblanks

theorem takes_space (h : text.drop i = front ++ back) (hfront : Blanks front)
    (hback : EndsBlanks back) : Takes text (.rule .space) i (i + front.length) :=
  fun r hr => ⟨r, tries_space h hfront hback r, hr.mono (Nat.le_add_right ..)⟩

theorem takes_gap (h : text.drop i = front ++ back) (hfront : Blanks front) (hne : front ≠ [])
    (hback : EndsBlanks back) : Takes text (.rule .gap) i (i + front.length) := by
  refine takes_token rfl ⟨back, h, ⟨hfront, hne⟩, trivial⟩ ?_
  rintro other ⟨rest, hother, ⟨hblanks, _⟩, _⟩
  exact length_le_of_blanks (h.symm.trans hother) hback hblanks

theorem fails_gap (h : EndsBlanks (text.drop i)) : Fails text (.rule .gap) i := by
  refine fails_token rfl ?_
  rintro token ⟨rest, htoken, ⟨hblanks, hne⟩, _⟩
  obtain ⟨c, cs, rfl⟩ := List.exists_cons_of_ne_nil hne
  have hc := hblanks c List.mem_cons_self
  rw [h c (by rw [htoken]; rfl)] at hc
  cases hc

/-- A name reaches to the end of a word. -/
theorem takes_name {name : Rule} (hbody : name.body = nameToken) (h : text.drop i = front ++ back)
    (hfront : Text.isName front = true) (hback : EndsWord back) :
    Takes text (.rule name) i (i + front.length) := by
  refine takes_token hbody ⟨back, h, hfront, trivial⟩ ?_
  rintro other ⟨rest, hother, hname, _⟩
  refine length_le_of_append (h.symm.trans hother) fun c hc hmem => ?_
  obtain ⟨d, ds, rfl, _, hword⟩ := isName_eq_true hname
  have hc' := hword c (List.mem_of_mem_drop hmem)
  rw [hback c hc] at hc'
  cases hc'

end Tokens

section Atoms

variable {text front back : List Char} {a : Atom} {i : Nat}

/-- A text starts with the word of an operand. -/
def Spelled (text : List Char) (a : Atom) : Prop :=
  ∃ front back, text = front ++ back ∧ Spells front a ∧ EndsWord back

/-- A text starts with the word of at most one operand. -/
theorem Spells.unique {other rest : List Char} {a' : Atom} (h : Spells front a)
    (h' : Spells other a') (htext : front ++ back = other ++ rest) (hback : EndsWord back)
    (hrest : EndsWord rest) : front = other ∧ a = a' := by
  obtain ⟨piece, rfl, ha, hlexemes⟩ := h.lexemes
  obtain ⟨piece', rfl, ha', hlexemes'⟩ := h'.lexemes
  have hpieces := (hlexemes back hback).symm.trans ((congrArg Expr.lexemes htext).trans
    (hlexemes' rest hrest))
  obtain rfl := (List.cons.inj hpieces).1
  exact ⟨rfl, Option.some.inj (ha.symm.trans ha')⟩

theorem exists_spells_of_isName {name : List Char} (h : Text.isName name = true) :
    ∃ a, Spells name a := by
  by_cases htrue : name = ['t', 'r', 'u', 'e']
  · subst htrue
    exact ⟨_, .truth⟩
  by_cases hfalse : name = ['f', 'a', 'l', 's', 'e']
  · subst hfalse
    exact ⟨_, .falsity⟩
  exact ⟨_, .name (by simp [isIdentifier, h, htrue, hfalse])⟩

/-- A text that starts with a name starts with the word of an operand. -/
theorem exists_spelled_of_isName (h : Text.isName front = true) (back : List Char) :
    ∃ a, Spelled (front ++ back) a := by
  obtain ⟨run, rest, rfl, hrun, hrest⟩ := exists_word back
  have hname : Text.isName (front ++ run) = true := by
    obtain ⟨c, cs, rfl, hstart, hword⟩ := isName_eq_true h
    obtain ⟨_, hcs⟩ := List.forall_mem_cons.mp hword
    simp only [List.cons_append, Text.isName, hstart, Bool.true_and, List.all_eq_true]
    exact List.forall_mem_append.mpr ⟨hcs, hrun⟩
  obtain ⟨a, ha⟩ := exists_spells_of_isName hname
  exact ⟨a, front ++ run, rest, (List.append_assoc ..).symm, ha, hrest⟩

/-- A rule for words of operands fails at once unless one of them stands there. -/
theorem fails_atom {name : Rule} {kind : List Char → Prop} (wanted : Atom → Prop)
    (hbody : name.body = .token kind EndsWord)
    (hkind : ∀ token, kind token → ∃ a, wanted a ∧ Spells token a)
    (h : ∀ a, Spelled (text.drop i) a → ¬ wanted a) : Fails text (.rule name) i := by
  refine fails_token hbody ?_
  rintro token ⟨rest, htoken, hof, hrest⟩
  obtain ⟨a, ha, hspells⟩ := hkind token hof
  exact h a ⟨token, rest, htoken, hspells, hrest⟩ ha

theorem takes_atom {name : Rule} {kind : List Char → Prop}
    (hbody : name.body = .token kind EndsWord) (hkind : ∀ token, kind token → ∃ a, Spells token a)
    (h : text.drop i = front ++ back) (hfront : kind front) (hback : EndsWord back) :
    Takes text (.rule name) i (i + front.length) := by
  refine takes_token hbody ⟨back, h, hfront, hback⟩ ?_
  rintro other ⟨rest, hother, hof, hrest⟩
  obtain ⟨a, ha⟩ := hkind front hfront
  obtain ⟨a', ha'⟩ := hkind other hof
  obtain ⟨rfl, _⟩ := ha.unique ha' (h.symm.trans hother) hback hrest
  exact Nat.le_refl _

theorem fails_boolean (h : ∀ b, ¬ Spelled (text.drop i) (.boolean b)) :
    Fails text (.rule .boolean) i :=
  fails_atom (fun a => ∃ b, a = .boolean b) rfl
    (fun _ ⟨b, hb⟩ => ⟨_, ⟨b, rfl⟩, hb⟩) fun _ ha ⟨b, hb⟩ => h b (hb ▸ ha)

theorem fails_number {name : Rule} {radix : Nat} (hbody : name.body = numberToken radix)
    (h : ∀ negative digits, ¬ Spelled (text.drop i) (.number negative radix digits)) :
    Fails text (.rule name) i :=
  fails_atom (fun a => ∃ negative digits, a = .number negative radix digits) hbody
    (fun _ ⟨negative, digits, hspells⟩ => ⟨_, ⟨negative, digits, rfl⟩, hspells⟩)
    fun _ ha ⟨negative, digits, hnumber⟩ => h negative digits (hnumber ▸ ha)

theorem fails_integer
    (h : ∀ negative radix digits, ¬ Spelled (text.drop i) (.number negative radix digits)) :
    Fails text (.rule .integer) i := by
  have hnumber : ∀ {name radix}, Rule.body name = numberToken radix → Fails text (.rule name) i :=
    fun hbody => fails_number hbody fun negative digits => h negative _ digits
  refine fails_choice rfl ?_
  simp only [List.forall_mem_cons]
  exact ⟨hnumber rfl, hnumber rfl, hnumber rfl, hnumber rfl, List.forall_mem_nil _⟩

theorem fails_reference (h : ∀ a, ¬ Spelled (text.drop i) a) : Fails text (.rule .reference) i := by
  refine fails_token rfl ?_
  rintro token ⟨rest, htoken, hname, _⟩
  obtain ⟨a, ha⟩ := exists_spelled_of_isName hname rest
  exact h a (htoken ▸ ha)

theorem fails_application (h : ∀ rest, text.drop i ≠ '(' :: rest) :
    Fails text (.rule .application) i :=
  fun _ => blamed_or ▸ .noRule (.noPart (.noChar h))

/-- An expression fails at once where neither a parenthesis opens nor an operand is spelled. -/
theorem fails_expression (hopening : ∀ rest, text.drop i ≠ '(' :: rest)
    (h : ∀ a, ¬ Spelled (text.drop i) a) : Fails text (.rule .expression) i := by
  refine fails_choice rfl ?_
  simp only [List.forall_mem_cons]
  exact ⟨fails_application hopening, fails_boolean fun b => h _,
    fails_integer fun _ _ _ => h _, fails_reference h, List.forall_mem_nil _⟩

/-- The radix of a number is one that the grammar has. -/
theorem Spells.radix_mem {text digits : List Char} {negative : Bool} {radix : Nat}
    (h : Spells text (.number negative radix digits)) : radix ∈ [2, 8, 16, 10] := by
  have hnumeral : ∀ {run}, Numeral run radix digits → radix ∈ [2, 8, 16, 10] := by
    intro run hrun
    cases hrun with
    | decimal => simp
    | marked hmark =>
      have hradices : ∀ m ∈ radixMarks, m.2 ∈ [2, 8, 16, 10] := by decide
      exact hradices _ hmark
  cases h with
  | unsigned hrun | plus hrun | minus hrun => exact hnumeral hrun

/-- Numbers are matched by the rule for their radix. -/
theorem takes_integer {negative : Bool} {radix : Nat} {digits : List Char}
    (h : text.drop i = front ++ back) (hfront : Spells front (.number negative radix digits))
    (hback : EndsWord back) : Takes text (.rule .integer) i (i + front.length) := by
  have htakes : ∀ {name}, Rule.body name = numberToken radix →
      Takes text (.rule name) i (i + front.length) := fun hbody =>
    takes_atom hbody (fun _ ⟨_, _, hspells⟩ => ⟨_, hspells⟩) h ⟨_, _, hfront⟩ hback
  have hfails : ∀ {name other}, Rule.body name = numberToken other → other ≠ radix →
      Fails text (.rule name) i := by
    refine fun hbody hne => fails_number hbody ?_
    rintro _ _ ⟨front', back', htext, hspells, hback'⟩
    cases (hfront.unique hspells (h.symm.trans htext) hback hback').2
    exact hne rfl
  have hradix := hfront.radix_mem
  simp only [List.mem_cons, List.not_mem_nil, or_false] at hradix
  refine Takes.rule ?_
  rcases hradix with rfl | rfl | rfl | rfl
  · exact takes_choice [] (List.forall_mem_nil _) (htakes rfl)
  · exact takes_choice [.rule .binary]
      (by simpa using hfails rfl (by decide)) (htakes rfl)
  · exact takes_choice [.rule .binary, .rule .octal]
      (by simpa using ⟨hfails rfl (by decide), hfails rfl (by decide)⟩) (htakes rfl)
  · exact takes_choice [.rule .binary, .rule .octal, .rule .hexadecimal]
      (by simpa using ⟨hfails rfl (by decide), hfails rfl (by decide), hfails rfl (by decide)⟩)
      (htakes rfl)

/-- The word of an operand is matched as an expression. -/
theorem takes_spelled (h : text.drop i = front ++ back) (hfront : Spells front a)
    (hback : EndsWord back) : Takes text (.rule .expression) i (i + front.length) := by
  have hother : ∀ a', Spelled (text.drop i) a' → a = a' := by
    rintro a' ⟨front', back', htext, hspells, hback'⟩
    exact (hfront.unique hspells (h.symm.trans htext) hback hback').2
  have happlication : Fails text (.rule .application) i := by
    refine fails_application fun rest hrest => ?_
    obtain ⟨piece, rfl, hatom, hlexemes⟩ := hfront.lexemes
    have hopening := (hlexemes back hback).symm.trans (congrArg lexemes (h.symm.trans hrest))
    rw [(List.cons.inj hopening).1] at hatom
    cases hatom
  refine Takes.rule ?_
  cases a with
  | boolean b =>
    exact takes_choice [.rule .application] (by simpa using happlication)
      (takes_atom rfl (fun _ ⟨_, hspells⟩ => ⟨_, hspells⟩) h ⟨b, hfront⟩ hback)
  | number negative radix digits =>
    have hboolean : Fails text (.rule .boolean) i :=
      fails_boolean fun b hb => nomatch hother _ hb
    exact takes_choice [.rule .application, .rule .boolean]
      (by simpa using ⟨happlication, hboolean⟩) (takes_integer h hfront hback)
  | name word =>
    have hboolean : Fails text (.rule .boolean) i :=
      fails_boolean fun b hb => nomatch hother _ hb
    have hinteger : Fails text (.rule .integer) i :=
      fails_integer fun _ _ _ hnumber => nomatch hother _ hnumber
    have hname : Text.isName front = true := by
      cases hfront with
      | name hid =>
        simp only [isIdentifier, Bool.and_eq_true] at hid
        exact hid.1.1
    exact takes_choice [.rule .application, .rule .boolean, .rule .integer]
      (by simpa using ⟨happlication, hboolean, hinteger⟩) (takes_name rfl h hname hback)

end Atoms

end SharedConstants.Expr
