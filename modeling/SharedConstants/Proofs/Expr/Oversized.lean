import SharedConstants.Proofs.Document.Ending
import SharedConstants.Proofs.Expr.RoundTrip

/-!
# Numbers too long to be read

A value text is accepted, is rejected with a fault that can be reported, or is given up. It is
given up at the first operand that is not accepted if this is a number too long to be read or to
be shown.
-/
namespace SharedConstants.Expr

open Diagnostic (IsReportable)

/-- The expression of a draft is accepted. -/
def Draft.IsAccepted (ops : OperatorRegistry) (d : Draft) : Prop :=
  Admitted ops d.toExpr ∧ d.Readable

/-- The first operand that is not accepted is a number too long to be read, or one out of range
that is too long to be shown. -/
inductive Draft.IsStuck (ops : OperatorRegistry) : Draft → Prop
  | unreadable {negative : Bool} {digits : List Char} {span : Span} :
    Datum.digitLimit < (bareDigits digits).length →
    IsStuck ops (.atom (.number negative 10 digits) span)
  | unshowable {negative : Bool} {radix : Nat} {digits : List Char} {span : Span} :
    10 ^ Datum.digitLimit ≤ (numberOf negative radix digits).natAbs →
    IsStuck ops (.atom (.number negative radix digits) span)
  | operand {operator : List Char} {operatorSpan span : Span} {before after : List Draft}
    {d : Draft} : (∀ b ∈ before, b.IsAccepted ops) → IsStuck ops d →
    IsStuck ops (.apply operator operatorSpan (before ++ d :: after) span)

/-- A value text that stands for a draft of some kind and does not nest too deep. -/
def StandsFor (kind : Draft → Prop) (text : String) : Prop :=
  ∃ d, IsValueText text.toList d ∧ d.toExpr.depth ≤ maxNesting ∧ kind d

variable {ops : OperatorRegistry} {room : Nat}

/-- An integer of 128 bits is far from too long to be shown. -/
theorem natAbs_lt_of_inRange {n : Int} (h : Value.inRange n = true) :
    n.natAbs < 10 ^ Datum.digitLimit := by
  obtain ⟨hleast, hmost⟩ := Value.inRange_iff_pow.mp h
  calc n.natAbs ≤ 2 ^ 127 := by omega
    _ < 10 ^ 39 := by decide
    _ ≤ 10 ^ Datum.digitLimit := Nat.pow_le_pow_right (by decide) (by decide)

theorem isReportable_outside {what : String} {n : Int} {d : Diagnostic}
    (hfault : d.fault = .overflow (.outside what n)) (h : n.natAbs < 10 ^ Datum.digitLimit) :
    IsReportable room d := by
  have hshow : Datum.isShowable n = true := Datum.isShowable_iff.mpr h
  simp [IsReportable, hfault, Fault.breakdown?, Fault.shown, Datum.obstacle?, hshow]

/-- An integer out of range is reported unless it is too long to be shown. -/
theorem ends_checkRange {α : Type} (what : String) (n : Int) (a : α)
    {place : Fault → Diagnostic} (hplace : ∀ fault, (place fault).fault = fault) :
    Ends (match Value.checkRange what n with
      | .ok _ => .ok a
      | .error fault =>
        if Datum.isShowable n then .error (.reported (place fault)) else .error .oversized)
      (IsReportable room) (-2 ^ 127 ≤ n ∧ n < 2 ^ 127) (10 ^ Datum.digitLimit ≤ n.natAbs) := by
  rw [← Value.inRange_iff_pow, Value.checkRange]
  cases hrange : Value.inRange n with
  | true =>
    have hless := natAbs_lt_of_inRange hrange
    exact (Ends.ok a).congr (by simp) (by simp [hless])
  | false =>
    simp only [Bool.false_eq_true, if_false]
    split
    · next hshow =>
      have hless := Datum.isShowable_iff.mp hshow
      exact (Ends.reported (isReportable_outside (hplace _) hless)).congr Iff.rfl (by simp [hless])
    · next hshow =>
      have hleast := Nat.le_of_not_lt (mt Datum.isShowable_iff.mpr hshow)
      exact Ends.oversized.congr Iff.rfl (by simp [hleast])

theorem isReportable_expression {fault : ExpressionFault} {d : Diagnostic}
    (hfault : d.fault = .expression fault) : IsReportable room d := by
  rw [IsReportable, hfault]
  rfl

theorem ends_readNumber (negative : Bool) (radix : Nat) (digits : List Char) (span : Span) :
    Ends (readNumber negative radix digits span) (IsReportable room)
      (∃ v, readNumber negative radix digits span = .ok v)
      ((radix = 10 ∧ Datum.digitLimit < (bareDigits digits).length) ∨
        10 ^ Datum.digitLimit ≤ (numberOf negative radix digits).natAbs) := by
  by_cases hlong : radix = 10 ∧ Datum.digitLimit < (bareDigits digits).length
  · rw [readNumber, if_pos hlong]
    exact Ends.oversized.congr (by simp) (by simp [hlong])
  · have hread : readNumber negative radix digits span =
        match Value.checkRange "integer literal" (numberOf negative radix digits) with
        | .ok _ => .ok (.integer (numberOf negative radix digits))
        | .error fault =>
          if Datum.isShowable (numberOf negative radix digits) then
            .error (.reported { fault, span := some span })
          else .error .oversized := by
      rw [readNumber, if_neg hlong]
      simp only [Value.checkRange]
      cases Value.inRange (numberOf negative radix digits) <;>
        simp only [Bool.false_eq_true, if_false, if_true]
    have hplace : ∀ fault, ({ fault, span := some span } : Diagnostic).fault = fault := fun _ => rfl
    have hends : Ends _ (IsReportable room) _ _ := ends_checkRange "integer literal"
      (numberOf negative radix digits) (Value.integer (numberOf negative radix digits)) hplace
    rw [hread]
    exact hends.congr hends.ok_iff.symm (or_iff_right hlong).symm

theorem ends_checkApplication (ops : OperatorRegistry) (name : String) (nameSpan : Span)
    (given : Nat) (span : Span) :
    Ends (checkApplication ops name nameSpan given span) (IsReportable room)
      (∃ op, ops.get? name = some op ∧ op.arity.accepts given = true) False := by
  unfold checkApplication
  split
  · next hnone =>
    refine (Ends.reported ?_).congr (by simp [hnone]) Iff.rfl
    exact isReportable_expression rfl
  · next op hop =>
    split
    · next haccepts => exact (Ends.ok ()).congr (by simp [hop, haccepts]) Iff.rfl
    · next hrejects =>
      refine (Ends.reported ?_).congr (by simp [hop, hrejects]) Iff.rfl
      exact isReportable_expression rfl

/-- How a draft becomes an expression, if it does. -/
def Draft.Ending (ops : OperatorRegistry) (room : Nat) (d : Draft) : Prop :=
  Ends (ofDraft ops d) (IsReportable room) (d.IsAccepted ops) (d.IsStuck ops)

theorem ofDraft_eq_ok_iff {d : Draft} : (∃ e, ofDraft ops d = .ok e) ↔ d.IsAccepted ops := by
  constructor
  · rintro ⟨e, he⟩
    obtain ⟨rfl, haccepted⟩ := (accepts_draft ops d e).mp he
    exact haccepted
  · exact fun h => ⟨_, (accepts_draft ops d _).mpr ⟨rfl, h⟩⟩

theorem ending_atom (ops : OperatorRegistry) (a : Atom) (span : Span) :
    (Draft.atom a span).Ending ops room := by
  cases a with
  | boolean b =>
    refine (Ends.ok _).congr (by simp [← ofDraft_eq_ok_iff, ofDraft])
      (iff_of_false not_false fun hstuck => ?_)
    cases hstuck
  | name text =>
    refine (Ends.ok _).congr (by simp [← ofDraft_eq_ok_iff, ofDraft])
      (iff_of_false not_false fun hstuck => ?_)
    cases hstuck
  | number negative radix digits =>
    have hnumber : ofDraft ops (.atom (.number negative radix digits) span) =
        (readNumber negative radix digits span).map (.literal · span) := by
      rw [ofDraft]
      cases readNumber negative radix digits span <;> rfl
    have hread : Ends ((readNumber negative radix digits span).map (Expr.literal · span))
        (IsReportable room) _ _ :=
      (ends_readNumber negative radix digits span).map
    refine ⟨ofDraft_eq_ok_iff, ?_, fun d hd => hread.reason_of_reported d (hnumber ▸ hd)⟩
    rw [hnumber, hread.givenUp_iff]
    constructor
    · rintro (⟨rfl, hlong⟩ | hleast)
      · exact .unreadable hlong
      · exact .unshowable hleast
    · intro hstuck
      cases hstuck with
      | unreadable hlong => exact .inl ⟨rfl, hlong⟩
      | unshowable hleast => exact .inr hleast

/-- Operands are read from left to right, up to the first that is not accepted. -/
theorem ends_ofDrafts {ds : List Draft} (h : ∀ d ∈ ds, d.Ending ops room) :
    Ends (ofDrafts ops ds) (IsReportable room) (∀ d ∈ ds, d.IsAccepted ops)
      (FirstStuck (·.IsAccepted ops) (·.IsStuck ops) ds) := by
  induction ds with
  | nil => exact Ends.nil []
  | cons d ds ih =>
    obtain ⟨hd, hds⟩ := List.forall_mem_cons.mp h
    have hcons : ofDrafts ops (d :: ds) = ofDraft ops d >>= fun e =>
        ofDrafts ops ds >>= fun es => .ok (e :: es) := by
      rw [ofDrafts]
      cases ofDraft ops d with
      | error failure => rfl
      | ok e => cases ofDrafts ops ds <;> rfl
    rw [hcons]
    exact Ends.cons hd (ih hds)

theorem ending_draft (ops : OperatorRegistry) (d : Draft) : d.Ending ops room := by
  induction d using Draft.inductOnOperands with
  | atom a span => exact ending_atom ops a span
  | apply operator operatorSpan ds span ih =>
    have happly : ofDraft ops (.apply operator operatorSpan ds span) =
        ofDrafts ops ds >>= fun es =>
          checkApplication ops (String.ofList operator) operatorSpan es.length span >>= fun _ =>
            .ok (.apply (String.ofList operator) es span) := by
      rw [ofDraft]
      cases ofDrafts ops ds with
      | error failure => rfl
      | ok es =>
        dsimp only
        cases hcheck : checkApplication ops (String.ofList operator) operatorSpan es.length span <;>
          simp [bind, Except.bind, hcheck]
    have hread := (ends_ofDrafts ih).bindWith fun es _ =>
      (ends_checkApplication ops (String.ofList operator) operatorSpan es.length span).bind
        fun _ _ => Ends.ok (Expr.apply (String.ofList operator) es span)
    refine ⟨ofDraft_eq_ok_iff, ?_, fun e he => hread.reason_of_reported e (happly ▸ he)⟩
    rw [happly, hread.givenUp_iff]
    constructor
    · rintro (⟨before, d, after, rfl, hbefore, hstuck⟩ | ⟨es, -, hfalse⟩)
      · exact .operand hbefore hstuck
      · simp at hfalse
    · rintro (_ | _ | ⟨hbefore, hstuck⟩)
      exact .inl ⟨_, _, _, rfl, hbefore, hstuck⟩

theorem standsFor_iff {kind : Draft → Prop} {text : String} {d : Draft}
    (hd : IsValueText text.toList d) (hnesting : nestingFault? text.toList = none) :
    StandsFor kind text ↔ kind d := by
  constructor
  · rintro ⟨d', hd', -, hkind⟩
    obtain rfl : d = d' := hd.unique hd'
    exact hkind
  · exact fun hkind => ⟨d, hd, hd.nestingFault?_eq_none.mp hnesting, hkind⟩

theorem ends_parseText (ops : OperatorRegistry) (text : String) :
    Ends (parseText ops text.toList) (IsReportable room) (StandsFor (·.IsAccepted ops) text)
      (StandsFor (·.IsStuck ops) text) := by
  unfold parseText
  split
  · next mark hmark =>
    have hno : ∀ kind, ¬ StandsFor kind text := by
      rintro kind ⟨d, hd, hdepth, -⟩
      simp [hd.nestingFault?_eq_none.mpr hdepth] at hmark
    refine Ends.congr (Ends.reported ?_) (iff_of_false not_false (hno _))
      (iff_of_false not_false (hno _))
    exact isReportable_expression rfl
  · next hnesting =>
    split
    · next position hstopped =>
      have hno : ∀ kind, ¬ StandsFor kind text := by
        rintro kind ⟨d, hd, -, -⟩
        simp [readDraft_eq_ok.mpr hd] at hstopped
      refine Ends.congr (Ends.reported ?_) (iff_of_false not_false (hno _))
        (iff_of_false not_false (hno _))
      exact isReportable_expression rfl
    · next d hread =>
      have hd := readDraft_eq_ok.mp hread
      exact (ending_draft ops d).congr (standsFor_iff hd hnesting).symm
        (standsFor_iff hd hnesting).symm

/-- A value text is accepted, given up, or rejected with a fault that can be reported. -/
theorem ends_parse (ops : OperatorRegistry) (text : String) (constant : Option String) :
    Ends (Expr.parse ops text constant) (IsReportable room) (StandsFor (·.IsAccepted ops) text)
      (StandsFor (·.IsStuck ops) text) :=
  (ends_parseText ops text).mapError fun _ h => h

/-- A text of nothing but digits stands for a number, which may have too many of them. -/
theorem standsFor_isStuck_of_digits {digits : List Char}
    (hdigits : ∀ c ∈ digits, isDigitOf 10 c = true) (hlong : Datum.digitLimit < digits.length) :
    StandsFor (·.IsStuck ops) (String.ofList digits) := by
  have hne : digits ≠ [] := List.ne_nil_of_length_pos (Nat.zero_lt_of_lt hlong)
  have hnumeral : Numeral digits 10 digits := .decimal (digits_of_forall hne hdigits)
  have hbare : Datum.digitLimit < (bareDigits digits).length := by
    rwa [bareDigits_eq_self hdigits]
  rw [StandsFor, String.toList_ofList]
  exact ⟨_, ⟨[], digits, [], by simp, List.forall_mem_nil _, List.forall_mem_nil _,
    .atom (.unsigned hnumeral)⟩, Nat.zero_le _, .unreadable hbare⟩

end SharedConstants.Expr
