import SharedConstants.Proofs.Expr.Position
import SharedConstants.Proofs.Value

/-!
# The language of value texts

A value text is accepted if it is derived by the grammar, nests no deeper than allowed and
stands for an admitted expression. What comes back is the expression of its draft.
-/
namespace SharedConstants.Expr

/-- Induction on drafts, with the hypothesis for every operand of an application. -/
@[elab_as_elim] theorem Draft.inductOnOperands {motive : Draft → Prop}
    (atom : ∀ a span, motive (.atom a span))
    (apply : ∀ operator operatorSpan ds span, (∀ d ∈ ds, motive d) →
      motive (.apply operator operatorSpan ds span)) : ∀ d, motive d
  | .atom a span => atom a span
  | .apply operator operatorSpan ds span =>
    apply operator operatorSpan ds span fun d _ => inductOnOperands atom apply d

/-- No decimal number has too many digits to be read. -/
def Draft.Readable (d : Draft) : Prop :=
  ∀ digits, (10, digits) ∈ d.numerals → (bareDigits digits).length ≤ Datum.digitLimit

theorem readNumber_eq_ok {negative : Bool} {radix : Nat} {digits : List Char} {span : Span}
    {v : Value} :
    readNumber negative radix digits span = .ok v ↔
      v = .integer (numberOf negative radix digits) ∧
      (-2 ^ 127 ≤ numberOf negative radix digits ∧ numberOf negative radix digits < 2 ^ 127) ∧
      (radix = 10 → (bareDigits digits).length ≤ Datum.digitLimit) := by
  rw [← Value.inRange_iff_pow]
  unfold readNumber
  split
  · next hlong => exact iff_of_false (by simp) fun h => absurd (h.2.2 hlong.1) (by omega)
  · next hshort =>
    have hdigits : radix = 10 → (bareDigits digits).length ≤ Datum.digitLimit := by omega
    cases hrange : Value.inRange (numberOf negative radix digits) with
    | true =>
      simp only [Value.checkRange, hrange, if_true, true_and]
      exact ⟨fun h => ⟨(Except.ok.inj h).symm, hdigits⟩, fun h => h.1 ▸ rfl⟩
    | false =>
      refine iff_of_false (fun h => ?_) (by simp)
      simp only [Value.checkRange, hrange, Bool.false_eq_true, if_false] at h
      split at h <;> simp only [reduceCtorEq] at h

theorem mem_numeralsOf {ds : List Draft} {n : Nat × List Char} :
    n ∈ numeralsOf ds ↔ ∃ d ∈ ds, n ∈ d.numerals := by
  induction ds with
  | nil => simp [numeralsOf]
  | cons d ds ih => simp [numeralsOf, ih]

theorem readable_apply {operator : List Char} {operatorSpan span : Span} {ds : List Draft} :
    (Draft.apply operator operatorSpan ds span).Readable ↔ ∀ d ∈ ds, d.Readable := by
  simp only [Draft.Readable, Draft.numerals, mem_numeralsOf]
  exact ⟨fun h d hd digits hn => h digits ⟨d, hd, hn⟩,
    fun h digits ⟨d, hd, hn⟩ => h d hd digits hn⟩

theorem readable_number {negative : Bool} {radix : Nat} {digits : List Char} {span : Span} :
    Draft.Readable (.atom (.number negative radix digits) span) ↔
      (radix = 10 → (bareDigits digits).length ≤ Datum.digitLimit) := by
  simp only [Draft.Readable, Draft.numerals, List.mem_singleton, Prod.mk.injEq]
  exact ⟨fun h hradix => h digits ⟨hradix.symm, rfl⟩,
    fun h _ ⟨hradix, hdigits⟩ => hdigits ▸ h hradix.symm⟩

/-- An accepted draft becomes its expression, which is admitted. -/
def Accepts (ops : OperatorRegistry) (d : Draft) : Prop :=
  ∀ e, ofDraft ops d = .ok e ↔ d.toExpr = e ∧ Admitted ops e ∧ d.Readable

theorem ofDrafts_cons {ops : OperatorRegistry} {d : Draft} {ds : List Draft} {es : List Expr} :
    ofDrafts ops (d :: ds) = .ok es ↔
      ∃ e rest, ofDraft ops d = .ok e ∧ ofDrafts ops ds = .ok rest ∧ e :: rest = es := by
  rw [ofDrafts]
  cases ofDraft ops d with
  | error failure => simp
  | ok e => cases ofDrafts ops ds <;> simp

theorem ofDrafts_eq_ok {ops : OperatorRegistry} {ds : List Draft} {es : List Expr}
    (h : ∀ d ∈ ds, Accepts ops d) :
    ofDrafts ops ds = .ok es ↔
      toExprs ds = es ∧ (∀ e ∈ es, Admitted ops e) ∧ ∀ d ∈ ds, d.Readable := by
  induction ds generalizing es with
  | nil =>
    simp only [ofDrafts, toExprs, Except.ok.injEq]
    refine ⟨?_, And.left⟩
    rintro rfl
    exact ⟨rfl, List.forall_mem_nil _, List.forall_mem_nil _⟩
  | cons d ds ih =>
    obtain ⟨hd, hds⟩ := List.forall_mem_cons.mp h
    rw [ofDrafts_cons]
    constructor
    · rintro ⟨e, rest, hfirst, hrest, rfl⟩
      obtain ⟨rfl, he, hreadable⟩ := (hd e).mp hfirst
      obtain ⟨rfl, hes, hreadables⟩ := (ih hds).mp hrest
      exact ⟨rfl, List.forall_mem_cons.mpr ⟨he, hes⟩,
        List.forall_mem_cons.mpr ⟨hreadable, hreadables⟩⟩
    · rintro ⟨rfl, hadmitted, hreadable⟩
      obtain ⟨he, hes⟩ := List.forall_mem_cons.mp hadmitted
      obtain ⟨hfirst, hrest⟩ := List.forall_mem_cons.mp hreadable
      exact ⟨_, _, (hd _).mpr ⟨rfl, he, hfirst⟩, (ih hds).mpr ⟨rfl, hes, hrest⟩, rfl⟩

theorem checkApplication_eq_ok {ops : OperatorRegistry} {name : String} {nameSpan span : Span}
    {given : Nat} :
    checkApplication ops name nameSpan given span = .ok () ↔
      ∃ op, ops.get? name = some op ∧ op.arity.accepts given = true := by
  unfold checkApplication
  cases ops.get? name with
  | none => simp
  | some op =>
    cases haccepts : op.arity.accepts given <;> simp [haccepts]

theorem accepts_atom (ops : OperatorRegistry) (a : Atom) (span : Span) :
    Accepts ops (.atom a span) := by
  intro e
  cases a with
  | boolean b =>
    simp only [ofDraft, Draft.toExpr, Except.ok.injEq]
    refine ⟨?_, And.left⟩
    rintro rfl
    exact ⟨rfl, .boolean b span, nofun⟩
  | name text =>
    simp only [ofDraft, Draft.toExpr, Except.ok.injEq]
    refine ⟨?_, And.left⟩
    rintro rfl
    exact ⟨rfl, .reference _ span, nofun⟩
  | number negative radix digits =>
    rw [readable_number, Draft.toExpr, ofDraft]
    cases hnumber : readNumber negative radix digits span with
    | ok v =>
      obtain ⟨rfl, ⟨hleast, hmost⟩, hdigits⟩ := readNumber_eq_ok.mp hnumber
      refine ⟨fun h => ?_, fun h => congrArg _ h.1⟩
      obtain rfl := Except.ok.inj h
      exact ⟨rfl, .integer span hleast hmost, hdigits⟩
    | error failure =>
      refine iff_of_false nofun ?_
      rintro ⟨rfl, hadmitted, hdigits⟩
      cases hadmitted with
      | integer _ hleast hmost =>
        have hread : readNumber negative radix digits span = .ok _ :=
          readNumber_eq_ok.mpr ⟨rfl, ⟨hleast, hmost⟩, hdigits⟩
        simp [hread] at hnumber

theorem ofDraft_apply {ops : OperatorRegistry} {operator : List Char} {operatorSpan span : Span}
    {ds : List Draft} {e : Expr} :
    ofDraft ops (.apply operator operatorSpan ds span) = .ok e ↔
      ∃ es, ofDrafts ops ds = .ok es ∧
        checkApplication ops (String.ofList operator) operatorSpan es.length span = .ok () ∧
        .apply (String.ofList operator) es span = e := by
  rw [ofDraft]
  cases ofDrafts ops ds with
  | error failure => simp
  | ok es =>
    cases hcheck : checkApplication ops (String.ofList operator) operatorSpan es.length span <;>
      simp [hcheck]

theorem accepts_draft (ops : OperatorRegistry) (d : Draft) : Accepts ops d := by
  induction d using Draft.inductOnOperands with
  | atom a span => exact accepts_atom ops a span
  | apply operator operatorSpan ds span ih =>
    intro e
    rw [ofDraft_apply, readable_apply, Draft.toExpr]
    constructor
    · rintro ⟨es, hread, hcheck, rfl⟩
      obtain ⟨rfl, hes, hreadable⟩ := (ofDrafts_eq_ok ih).mp hread
      obtain ⟨op, hop, harity⟩ := checkApplication_eq_ok.mp hcheck
      obtain ⟨hleast, hmost⟩ := Arity.accepts_iff.mp harity
      exact ⟨rfl, .apply span hop hleast hmost hes, hreadable⟩
    · rintro ⟨rfl, hadmitted, hreadable⟩
      cases hadmitted with
      | apply _ hop hleast hmost hes =>
        have harity := Arity.accepts_iff.mpr ⟨hleast, hmost⟩
        exact ⟨_, (ofDrafts_eq_ok ih).mpr ⟨rfl, hes, hreadable⟩,
          checkApplication_eq_ok.mpr ⟨_, hop, harity⟩, rfl⟩

/-- What value texts are accepted, and as what, with numbers of any length. -/
theorem parse_eq_ok {ops : OperatorRegistry} {text : String} {constant : Option String}
    {e : Expr} :
    Expr.parse ops text constant = .ok e ↔
      ∃ d, IsValueText text.toList d ∧ d.toExpr = e ∧ e.depth ≤ maxNesting ∧ Admitted ops e ∧
        d.Readable := by
  have hmap : Expr.parse ops text constant = .ok e ↔ parseText ops text.toList = .ok e := by
    unfold Expr.parse
    cases parseText ops text.toList with
    | error failure => exact iff_of_false nofun nofun
    | ok e => exact Iff.rfl
  rw [hmap, parseText]
  constructor
  · intro h
    split at h
    · simp at h
    · next hnesting =>
      split at h
      · simp at h
      · next d hread =>
        have hd := readDraft_eq_ok.mp hread
        obtain ⟨rfl, hadmitted, hreadable⟩ := (accepts_draft ops d e).mp h
        exact ⟨d, hd, rfl, hd.nestingFault?_eq_none.mp hnesting, hadmitted, hreadable⟩
  · rintro ⟨d, hd, rfl, hdepth, hadmitted, hreadable⟩
    simp only [hd.nestingFault?_eq_none.mpr hdepth, readDraft_eq_ok.mpr hd]
    exact (accepts_draft ops d _).mpr ⟨rfl, hadmitted, hreadable⟩

/-- If no number has too many digits, a value text is accepted exactly if it is derived, nests
at most 64 deep and its expression is admitted, and it is read as that expression. A text has at
most one derivation, whose depth is what the matching of parentheses counts. Where that matching
finds no fault, ordered choices match the whole text exactly if it has a derivation. -/
theorem parse_language (ops : OperatorRegistry) (text : String) (constant : Option String)
    (h : ∀ d, IsValueText text.toList d →
      ∀ radix digits, (radix, digits) ∈ d.numerals → (bareDigits digits).length ≤ 4300) :
    (∀ e, Expr.parse ops text constant = .ok e ↔
      ∃ d, IsValueText text.toList d ∧ d.toExpr = e ∧ e.depth ≤ 64 ∧ Admitted ops e) ∧
    (∀ d d', IsValueText text.toList d → IsValueText text.toList d' → d = d') ∧
    (∀ d, IsValueText text.toList d → peak text.toList = d.toExpr.depth ∧
      (nestingFault? text.toList = none ↔ d.toExpr.depth ≤ 64)) ∧
    (nestingFault? text.toList = none → ((∃ d, IsValueText text.toList d) ↔
      ∃ r, Tries text.toList (.rule .value) 0 none (some text.toList.length) r)) := by
  refine ⟨fun e => ?_, fun d d' => IsValueText.unique,
    fun d hd => ⟨hd.peak_eq, hd.nestingFault?_eq_none⟩, isValueText_iff_tries⟩
  rw [parse_eq_ok]
  constructor
  · rintro ⟨d, hd, he, hdepth, hadmitted, _⟩
    exact ⟨d, hd, he, hdepth, hadmitted⟩
  · rintro ⟨d, hd, he, hdepth, hadmitted⟩
    exact ⟨d, hd, he, hdepth, hadmitted, fun digits => h d hd 10 digits⟩

/-- A sum with a hexadecimal number and a nested maximum. -/
theorem readDraft_sum : readDraft " (add 0x1F (max N -4_2))".toList = .ok
    (.apply ['a', 'd', 'd'] ⟨2, 5⟩ [.atom (.number false 16 ['1', 'F']) ⟨6, 10⟩,
      .apply ['m', 'a', 'x'] ⟨12, 15⟩
        [.atom (.name ['N']) ⟨16, 17⟩, .atom (.number true 10 ['4', '_', '2']) ⟨18, 22⟩]
        ⟨11, 23⟩] ⟨1, 24⟩) := rfl

theorem parse_language_sum :
    Expr.parse .builtin " (add 0x1F (max N -4_2))" none = .ok
      (.apply "add" [.literal (.integer 31) ⟨6, 10⟩,
        .apply "max" [.reference "N" ⟨16, 17⟩, .literal (.integer (-42)) ⟨18, 22⟩] ⟨11, 23⟩]
        ⟨1, 24⟩) ∧ peak " (add 0x1F (max N -4_2))".toList = 2 := by
  have hd := readDraft_eq_ok.mp readDraft_sum
  have hshort : ∀ d, IsValueText " (add 0x1F (max N -4_2))".toList d →
      ∀ radix digits, (radix, digits) ∈ d.numerals → (bareDigits digits).length ≤ 4300 := by
    intro d hd' radix digits hmem
    obtain rfl := hd.unique hd'
    have hlengths : ∀ n ∈ [(16, ['1', 'F']), (10, ['4', '_', '2'])],
        (bareDigits (Prod.snd n)).length ≤ 4300 := by decide
    exact hlengths (radix, digits) hmem
  have hmax : Admitted .builtin (.apply "max"
      [.reference "N" ⟨16, 17⟩, .literal (.integer (-42)) ⟨18, 22⟩] ⟨11, 23⟩) :=
    .apply _ rfl (by decide) nofun (List.forall_mem_cons.mpr
      ⟨.reference _ _, List.forall_mem_singleton.mpr (.integer _ (by decide) (by decide))⟩)
  have hadd : Admitted .builtin (.apply "add" [.literal (.integer 31) ⟨6, 10⟩, .apply "max"
      [.reference "N" ⟨16, 17⟩, .literal (.integer (-42)) ⟨18, 22⟩] ⟨11, 23⟩] ⟨1, 24⟩) :=
    .apply _ rfl (by decide) nofun (List.forall_mem_cons.mpr
      ⟨.integer _ (by decide) (by decide), List.forall_mem_singleton.mpr hmax⟩)
  obtain ⟨hparse, _, hpeak, _⟩ := parse_language .builtin " (add 0x1F (max N -4_2))" none hshort
  refine ⟨(hparse _).mpr ⟨_, hd, rfl, by decide, hadd⟩, (hpeak _ hd).1⟩

end SharedConstants.Expr
