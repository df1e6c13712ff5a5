import Mathlib.Data.List.Induction
import SharedConstants.Proofs.Decimal.Digits
import SharedConstants.Proofs.Expr.Language
import SharedConstants.Proofs.Expr.Places

/-!
# Value texts of expressions

The value text of an expression derives a draft of it, provided that its names are names of value
texts. So an expression that may be read at all is read back from its value text, and of the texts
of an expression this one is canonical.
-/
namespace SharedConstants.Expr

open Decimal (toDigits)

/-- References are to identifiers, and operators have the names of operators. -/
inductive Named : Expr → Prop
  | literal (v : Value) (span : Span) : Named (.literal v span)
  | reference {name : String} (span : Span) : isIdentifier name.toList = true →
    Named (.reference name span)
  | apply {operator : String} {operands : List Expr} (span : Span) :
    Text.isName operator.toList = true → (∀ e ∈ operands, Named e) →
    Named (.apply operator operands span)

section Numbers

variable {radix n : Nat}

theorem isDigitOf_digit (hlarge : radix ≤ 16) (h : n < radix) :
    isDigitOf radix (Decimal.digit n) = true := by
  have hsixteen : ∀ m < 16, isDigitOf 16 (Decimal.digit m) = true := by decide
  have hdigit := hsixteen n (by omega)
  simp only [isDigitOf, Bool.and_eq_true] at hdigit ⊢
  exact ⟨hdigit.1, by simpa [Decimal.digitValue_digit (Nat.lt_of_lt_of_le h hlarge)] using h⟩

theorem isDigitOf_toDigits (hradix : 2 ≤ radix) (hlarge : radix ≤ 16) (n : Nat) :
    ∀ c ∈ toDigits radix n, isDigitOf radix c = true := by
  intro c hc
  obtain ⟨m, hm, rfl⟩ := Decimal.mem_toDigits hradix hc
  exact isDigitOf_digit hlarge hm

theorem digits_of_forall {ds : List Char} (hne : ds ≠ [])
    (h : ∀ c ∈ ds, isDigitOf radix c = true) : Digits radix ds := by
  induction ds with
  | nil => exact absurd rfl hne
  | cons c ds ih =>
    obtain ⟨hc, hds⟩ := List.forall_mem_cons.mp h
    cases ds with
    | nil => exact .one hc
    | cons d ds => exact .more hc (ih (List.cons_ne_nil d ds) hds)

theorem bareDigits_eq_self {ds : List Char} (h : ∀ c ∈ ds, isDigitOf radix c = true) :
    bareDigits ds = ds := by
  refine List.filter_eq_self.mpr fun c hc => decide_eq_true ?_
  rintro rfl
  have hunderscore := h _ hc
  simp [isDigitOf] at hunderscore

theorem bareDigits_toDigits (hradix : 2 ≤ radix) (hlarge : radix ≤ 16) (n : Nat) :
    bareDigits (toDigits radix n) = toDigits radix n :=
  bareDigits_eq_self (isDigitOf_toDigits hradix hlarge n)

/-- The decimal spelling of an integer is a number whose digits say the integer. -/
theorem spells_integer (n : Int) :
    Spells (Decimal.spell n) (.number (decide (n < 0)) 10 (toDigits 10 n.natAbs)) := by
  have hnumeral : Numeral (toDigits 10 n.natAbs) 10 (toDigits 10 n.natAbs) :=
    .decimal (digits_of_forall (Decimal.toDigits_ne_nil 10 _)
      (isDigitOf_toDigits (by omega) (by omega) _))
  unfold Decimal.spell
  split
  · next hneg =>
    rw [decide_eq_true hneg]
    exact .minus hnumeral
  · next hneg =>
    rw [decide_eq_false hneg]
    exact .unsigned hnumeral

theorem numberOf_toDigits (n : Int) :
    numberOf (decide (n < 0)) 10 (toDigits 10 n.natAbs) = n := by
  simp only [numberOf, bareDigits_toDigits (by omega : 2 ≤ 10) (by omega) n.natAbs,
    Decimal.ofDigits_toDigits (by omega : 2 ≤ 10) (by omega) n.natAbs, decide_eq_true_eq]
  split <;> omega

/-- An integer of 128 bits has few digits. -/
theorem length_toDigits_of_inRange {n : Int} (hleast : -2 ^ 127 ≤ n) (hmost : n < 2 ^ 127) :
    (toDigits 10 n.natAbs).length ≤ 39 := by
  refine Decimal.length_toDigits_le (by omega) (by omega) ?_
  have hsmall : n.natAbs ≤ 2 ^ 127 := by omega
  exact Nat.lt_of_le_of_lt hsmall (by decide)

end Numbers

/-- A draft at a position that the value text of an expression derives, and that stands for the
expression and can be read. -/
structure IsDraftOf (i : Nat) (e : Expr) (d : Draft) : Prop where
  derives : Derives i e.spell (.operand d)
  unplaced : d.toExpr.unplaced = e.unplaced
  readable : d.Readable

variable {ops : OperatorRegistry}

theorem exists_isDraftOf_literal {v : Value} {span : Span} (i : Nat)
    (h : Admitted ops (.literal v span)) : ∃ d, IsDraftOf i (.literal v span) d := by
  cases h with
  | boolean b =>
    have hspells : Spells (Value.boolean b).spell (.boolean b) := by
      cases b with
      | false => exact .falsity
      | true => exact .truth
    exact ⟨_, .atom hspells, rfl, nofun⟩
  | @integer n _ hleast hmost =>
    refine ⟨_, .atom (spells_integer n), ?_, ?_⟩
    · rw [Draft.toExpr, numberOf_toDigits]
      rfl
    · intro digits hdigits
      obtain ⟨_, rfl⟩ := Prod.mk.inj (List.mem_singleton.mp hdigits)
      rw [bareDigits_toDigits (by omega) (by omega), Datum.digitLimit]
      exact Nat.le_trans (length_toDigits_of_inRange hleast hmost) (by decide)

theorem spellAll_concat (es : List Expr) (e : Expr) :
    spellAll (es ++ [e]) = spellAll es ++ ' ' :: e.spell := by
  induction es with
  | nil => simp [spellAll]
  | cons e' es ih => simp [spellAll, ih]

/-- The value texts of operands derive drafts of them, a space before each. -/
theorem exists_drafts {es : List Expr} (i : Nat) (h : ∀ e ∈ es, ∀ j, ∃ d, IsDraftOf j e d) :
    ∃ ds, Derives i (spellAll es) (.operands ds) ∧
      unplacedAll (toExprs ds) = unplacedAll es ∧ ∀ d ∈ ds, d.Readable := by
  -- operands are derived with the last one on top
  induction es using List.reverseRecOn with
  | nil => exact ⟨[], .none, rfl, List.forall_mem_nil _⟩
  | append_singleton es e ih =>
    obtain ⟨hes, he⟩ := List.forall_mem_append.mp h
    obtain ⟨ds, hds, hunplaced, hreadable⟩ := ih hes
    obtain ⟨d, hd⟩ := he e List.mem_cons_self (i + (spellAll es).length + [' '].length)
    have hblank : Blanks [' '] := List.forall_mem_singleton.mpr rfl
    refine ⟨ds ++ [d], ?_, ?_, ?_⟩
    · rw [spellAll_concat]
      exact .more hds hblank (List.cons_ne_nil _ _) hd.derives
    · rw [unplacedAll_eq_map, unplacedAll_eq_map] at hunplaced ⊢
      simp [toExprs_append, toExprs, hunplaced, hd.unplaced]
    · exact List.forall_mem_append.mpr ⟨hreadable, List.forall_mem_singleton.mpr hd.readable⟩

/-- The value text of an expression derives a draft of it wherever it starts. -/
theorem exists_isDraftOf {e : Expr} (hadmitted : Admitted ops e) (hnamed : Named e) :
    ∀ i, ∃ d, IsDraftOf i e d := by
  induction e using inductOnOperands with
  | literal v span => exact fun i => exists_isDraftOf_literal i hadmitted
  | reference name span =>
    intro i
    cases hnamed with
    | reference _ hname =>
      exact ⟨_, .atom (.name hname), by simp [Draft.toExpr, unplaced, spell], nofun⟩
  | apply operator operands span ih =>
    intro i
    cases hnamed with
    | apply _ hoperator hnames =>
      cases hadmitted with
      | apply _ _ _ _ hall =>
        obtain ⟨ds, hds, hunplaced, hreadable⟩ :=
          exists_drafts (i + 1 + [].length + operator.toList.length)
            fun e he => ih e he (hall e he) (hnames e he)
        have htext : (Expr.apply operator operands span).spell =
            applied [] operator.toList (spellAll operands) [] := by
          simp [spell, applied]
        have hderives := Derives.apply blanks_nil hoperator hds blanks_nil
        rw [← htext] at hderives
        refine ⟨_, hderives, ?_, readable_apply.mpr hreadable⟩
        simp [Draft.toExpr, unplaced, hunplaced]

/-- A derived text is read as its draft, if that stands for an expression that may be read, places
aside. -/
theorem parse_of_derives {text : List Char} {d : Draft} {e : Expr} (constant : Option String)
    (hderives : Derives 0 text (.operand d)) (hreadable : d.Readable)
    (hunplaced : d.toExpr.unplaced = e.unplaced) (hdepth : e.depth ≤ maxNesting)
    (hadmitted : Admitted ops e) :
    Expr.parse ops (String.ofList text) constant = .ok d.toExpr := by
  rw [← depth_unplaced, ← hunplaced, depth_unplaced] at hdepth
  rw [← admitted_unplaced, ← hunplaced, admitted_unplaced] at hadmitted
  have htext : IsValueText (String.ofList text).toList d := by
    simpa using hderives.isValueText
  exact parse_eq_ok.mpr ⟨d, htext, rfl, hdepth, hadmitted, hreadable⟩

/-- An expression that may be read is read back from its value text. -/
theorem exists_parse_toSource {e : Expr} (constant : Option String) (hdepth : e.depth ≤ 64)
    (hadmitted : Admitted ops e) (hnamed : Named e) :
    ∃ e', Expr.parse ops e.toSource constant = .ok e' ∧ e'.unplaced = e.unplaced := by
  obtain ⟨d, hderives, hunplaced, hreadable⟩ := exists_isDraftOf hadmitted hnamed 0
  exact ⟨d.toExpr, parse_of_derives constant hderives hreadable hunplaced hdepth hadmitted,
    hunplaced⟩

/-- The names in what a phrase stands for are names of value texts. -/
def Phrase.Named : Phrase → Prop
  | .operand d => d.toExpr.Named
  | .operands ds => ∀ e ∈ toExprs ds, e.Named

theorem Derives.named {i : Nat} {text : List Char} {p : Phrase} (h : Derives i text p) :
    p.Named := by
  induction h with
  | atom hspells =>
    cases hspells with
    | truth | falsity | unsigned | plus | minus => exact .literal _ _
    | name hname => exact .reference _ (by simpa using hname)
  | apply _ hname _ _ ih => exact .apply _ (by simpa using hname) ih
  | none => exact List.forall_mem_nil _
  | @more _ _ _ _ ds d _ _ _ _ ihds ihd =>
    have hexprs : toExprs (ds ++ [d]) = toExprs ds ++ [d.toExpr] := by
      simp [toExprs_append, toExprs]
    simp only [Phrase.Named, hexprs]
    exact List.forall_mem_append.mpr ⟨ihds, List.forall_mem_singleton.mpr ihd⟩

/-- What is read nests no deeper than allowed, is admitted and has proper names. -/
theorem readable_of_parse {text : String} {constant : Option String} {e : Expr}
    (h : Expr.parse ops text constant = .ok e) : e.depth ≤ 64 ∧ Admitted ops e ∧ Named e := by
  obtain ⟨d, ⟨_, _, _, _, _, _, hderives⟩, rfl, hdepth, hadmitted, _⟩ := parse_eq_ok.mp h
  exact ⟨hdepth, hadmitted, hderives.named⟩

theorem toSource_eq_of_unplaced {e e' : Expr} (h : e.unplaced = e'.unplaced) :
    e.toSource = e'.toSource := by
  rw [toSource, toSource, ← spell_unplaced e, h, spell_unplaced]

/-- An expression of admitted depth, operators, integers and names is read back from its value
text, places aside. For every text that is accepted the value text of its expression is a
canonical one: it is read as the same expression, and it is the value text of exactly those
accepted expressions that are the same. -/
theorem parse_toSource (ops : OperatorRegistry) (constant : Option String) :
    (∀ e : Expr, e.depth ≤ 64 → Admitted ops e → Named e →
      ∃ e', Expr.parse ops e.toSource constant = .ok e' ∧ e'.sameAs e = true) ∧
    ∀ text e, Expr.parse ops text constant = .ok e →
      (∃ e', Expr.parse ops e.toSource constant = .ok e' ∧ e'.sameAs e = true ∧
        e'.toSource = e.toSource) ∧
      ∀ text' e', Expr.parse ops text' constant = .ok e' →
        (e'.toSource = e.toSource ↔ e'.sameAs e = true) := by
  simp only [sameAs_iff]
  refine ⟨fun e => exists_parse_toSource constant, fun text e h => ?_⟩
  have hback : ∀ text e, Expr.parse ops text constant = .ok e →
      ∃ e', Expr.parse ops e.toSource constant = .ok e' ∧ e'.unplaced = e.unplaced := by
    intro text e h
    obtain ⟨hdepth, hadmitted, hnamed⟩ := readable_of_parse h
    exact exists_parse_toSource constant hdepth hadmitted hnamed
  obtain ⟨e₁, hparse, hunplaced⟩ := hback text e h
  refine ⟨⟨e₁, hparse, hunplaced, toSource_eq_of_unplaced hunplaced⟩, fun text' e' h' => ?_⟩
  refine ⟨fun hsource => ?_, toSource_eq_of_unplaced⟩
  obtain ⟨e₂, hparse', hunplaced'⟩ := hback text' e' h'
  rw [hsource, hparse] at hparse'
  rw [← hunplaced', ← hunplaced, Except.ok.inj hparse']

/-- An application in an application, with the least integer and with a name that begins as a
truth value does. -/
def nestedApplication : Expr :=
  .apply "max" [.apply "add" [.literal (.integer Value.minInt128) ⟨0, 0⟩,
    .reference "true_" ⟨0, 0⟩] ⟨0, 0⟩, .literal (.integer 7) ⟨0, 0⟩] ⟨0, 0⟩

theorem parse_toSource_nestedApplication :
    nestedApplication.depth ≤ 64 ∧ Admitted .builtin nestedApplication ∧
      Named nestedApplication ∧
      ∃ e, Expr.parse .builtin nestedApplication.toSource none = .ok e ∧
        e.sameAs nestedApplication = true ∧
        ∃ e', Expr.parse .builtin e.toSource none = .ok e' ∧ e'.sameAs e = true ∧
          e'.toSource = e.toSource := by
  have hdepth : nestedApplication.depth ≤ 64 := by decide
  have hadmitted : Admitted .builtin nestedApplication := by
    refine .apply _ rfl (by decide) nofun (List.forall_mem_cons.mpr
      ⟨.apply _ rfl (by decide) nofun (List.forall_mem_cons.mpr
        ⟨.integer _ (by decide) (by decide), List.forall_mem_singleton.mpr (.reference _ _)⟩), ?_⟩)
    exact List.forall_mem_singleton.mpr (.integer _ (by decide) (by decide))
  have hnamed : Named nestedApplication := by
    refine .apply _ (by decide) (List.forall_mem_cons.mpr
      ⟨.apply _ (by decide) (List.forall_mem_cons.mpr
        ⟨.literal _ _, List.forall_mem_singleton.mpr (.reference _ (by decide))⟩), ?_⟩)
    exact List.forall_mem_singleton.mpr (.literal _ _)
  obtain ⟨e, hparse, hsame⟩ := (parse_toSource .builtin none).1 _ hdepth hadmitted hnamed
  exact ⟨hdepth, hadmitted, hnamed, e, hparse, hsame,
    ((parse_toSource .builtin none).2 _ e hparse).1⟩

end SharedConstants.Expr
