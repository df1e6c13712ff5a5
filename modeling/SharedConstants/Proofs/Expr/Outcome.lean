import Mathlib.Data.List.Forall2
import SharedConstants.Proofs.Expr.Evaluation
import SharedConstants.Proofs.Operator.Application

/-!
# What expressions come to

The rules by which an expression has a value or a failure under given values of the names. Every
expression comes to exactly one outcome, which recursion and the agenda both compute. An agenda
of a single visit leaves a single result.
-/
namespace SharedConstants.Expr

variable {ops : OperatorRegistry} {values : Valuation}

/-- An expression comes to an outcome. An operator that is not registered fails whatever its
operands are. Operands are evaluated from the left, and the first failure among them is that of
the application. A fault of the operator itself is placed at the application. -/
inductive Yields (ops : OperatorRegistry) (values : Valuation) :
    Expr → Except Diagnostic Value → Prop
  | literal (v : Value) (span : Span) : Yields ops values (.literal v span) (.ok v)
  | reference {name : String} {v : Value} (span : Span) : values name = some v →
    Yields ops values (.reference name span) (.ok v)
  | unknownReference {name : String} (span : Span) : values name = none →
    Yields ops values (.reference name span) (.error (unknownReference name span))
  | unknownOperator {operator : String} (operands : List Expr) (span : Span) :
    ops.get? operator = none →
    Yields ops values (.apply operator operands span) (.error (unknownOperator operator span))
  | operand {operator : String} {op : Operator} {before after : List Expr} {e : Expr}
    {vs : List Value} {d : Diagnostic} (span : Span) : ops.get? operator = some op →
    List.Forall₂ (fun e v => Yields ops values e (.ok v)) before vs →
    Yields ops values e (.error d) →
    Yields ops values (.apply operator (before ++ e :: after) span) (.error d)
  | result {operator : String} {op : Operator} {operands : List Expr} {vs : List Value}
    {v : Value} (span : Span) : ops.get? operator = some op →
    List.Forall₂ (fun e v => Yields ops values e (.ok v)) operands vs → op.Applies vs (.ok v) →
    Yields ops values (.apply operator operands span) (.ok v)
  | fault {operator : String} {op : Operator} {operands : List Expr} {vs : List Value}
    {fault : Fault} (span : Span) : ops.get? operator = some op →
    List.Forall₂ (fun e v => Yields ops values e (.ok v)) operands vs →
    op.Applies vs (.error fault) →
    Yields ops values (.apply operator operands span) (.error { fault, span := some span })

theorem evalAll_eq_ok {es : List Expr} {vs : List Value} :
    evalAll ops values es = .ok vs ↔
      List.Forall₂ (fun e v => eval ops values e = .ok v) es vs := by
  induction es generalizing vs with
  | nil => simp [evalAll, eq_comm]
  | cons e es ih =>
    rw [evalAll, List.forall₂_cons_left_iff]
    cases he : eval ops values e with
    | error d => simp
    | ok v =>
      cases hes : evalAll ops values es with
      | error d => simp [← ih, hes]
      | ok ws =>
        simp only [Except.ok.injEq, ← ih, hes]
        constructor
        · exact fun h => ⟨v, ws, rfl, rfl, h.symm⟩
        · rintro ⟨w, us, rfl, rfl, rfl⟩
          rfl

theorem evalAll_eq_error {es : List Expr} {d : Diagnostic} :
    evalAll ops values es = .error d ↔ ∃ before e after vs, es = before ++ e :: after ∧
      List.Forall₂ (fun e v => eval ops values e = .ok v) before vs ∧
      eval ops values e = .error d := by
  constructor
  · intro h
    induction es with
    | nil => cases h
    | cons e es ih =>
      rw [evalAll] at h
      cases he : eval ops values e with
      | error d' =>
        obtain rfl : d' = d := by simpa [he] using h
        exact ⟨[], e, es, [], rfl, .nil, he⟩
      | ok v =>
        cases hes : evalAll ops values es with
        | ok ws => simp [he, hes] at h
        | error d' =>
          obtain rfl : d' = d := by simpa [he, hes] using h
          obtain ⟨before, e', after, vs, rfl, hbefore, he'⟩ := ih hes
          exact ⟨e :: before, e', after, v :: vs, rfl, .cons he hbefore, he'⟩
  · rintro ⟨before, e, after, vs, rfl, hbefore, he⟩
    induction hbefore with
    | nil => simp [evalAll, he]
    | cons hfirst _ ih => simp [evalAll, hfirst, ih]

theorem applyAt_eq_ok {op : Operator} {vs : List Value} {span : Span} {v : Value} :
    applyAt op vs span = .ok v ↔ op.Applies vs (.ok v) := by
  rw [Operator.applies_iff, applyAt]
  cases op.call vs <;> simp

theorem applyAt_eq_error {op : Operator} {vs : List Value} {span : Span} {d : Diagnostic} :
    applyAt op vs span = .error d ↔
      ∃ fault, op.Applies vs (.error fault) ∧ d = { fault, span := some span } := by
  simp only [Operator.applies_iff, applyAt]
  cases op.call vs <;> simp [eq_comm]

theorem forall₂_yields {es : List Expr} {vs : List Value}
    (h : ∀ e ∈ es, ∀ r, Yields ops values e r ↔ eval ops values e = r) :
    List.Forall₂ (fun e v => Yields ops values e (.ok v)) es vs ↔
      evalAll ops values es = .ok vs := by
  rw [evalAll_eq_ok, List.forall₂_iff_get, List.forall₂_iff_get]
  refine and_congr_right fun _ => forall₃_congr fun i hi _ => ?_
  exact h _ (List.get_mem es ⟨i, hi⟩) _

/-- Recursion computes the one outcome that the rules allow. -/
theorem yields_iff {e : Expr} {r : Except Diagnostic Value} :
    Yields ops values e r ↔ eval ops values e = r := by
  induction e using inductOnOperands generalizing r with
  | literal v span =>
    rw [eval]
    constructor
    · rintro ⟨⟩
      rfl
    · rintro rfl
      exact .literal v span
  | reference name span =>
    rw [eval]
    constructor
    · intro h
      cases h with
      | reference _ hvalue | unknownReference _ hvalue => rw [hvalue]
    · rintro rfl
      cases hvalue : values name with
      | none => exact .unknownReference span hvalue
      | some v => exact .reference span hvalue
  | apply operator operands span ih =>
    have hoperands : ∀ e ∈ operands, ∀ r, Yields ops values e r ↔ eval ops values e = r :=
      fun e he r => ih e he
    rw [eval]
    constructor
    · intro h
      cases h with
      | unknownOperator _ _ hop => rw [hop]
      | @operand _ op before after e vs d _ hop hbefore he =>
        -- what stands behind the operand that fails is not looked at
        rw [forall₂_yields fun a ha => hoperands a (by simp [ha]), evalAll_eq_ok] at hbefore
        have hall : evalAll ops values (before ++ e :: after) = .error d :=
          evalAll_eq_error.mpr ⟨before, e, after, vs, rfl, hbefore, (hoperands e (by simp) _).mp he⟩
        rw [hop]
        simp only [hall]
      | result _ hop hall happlies =>
        rw [hop]
        simp only [(forall₂_yields hoperands).mp hall]
        exact applyAt_eq_ok.mpr happlies
      | fault _ hop hall happlies =>
        rw [hop]
        simp only [(forall₂_yields hoperands).mp hall]
        exact applyAt_eq_error.mpr ⟨_, happlies, rfl⟩
    · rintro rfl
      cases hop : ops.get? operator with
      | none => exact .unknownOperator operands span hop
      | some op =>
        cases hall : evalAll ops values operands with
        | error d =>
          obtain ⟨before, e, after, vs, rfl, hbefore, he⟩ := evalAll_eq_error.mp hall
          rw [← evalAll_eq_ok, ← forall₂_yields fun a ha => hoperands a (by simp [ha])] at hbefore
          exact .operand span hop hbefore ((hoperands e (by simp) _).mpr he)
        | ok vs =>
          have hyields := (forall₂_yields hoperands).mpr hall
          simp only
          cases happly : applyAt op vs span with
          | ok v => exact .result span hop hyields (applyAt_eq_ok.mp happly)
          | error d =>
            obtain ⟨fault, happlies, rfl⟩ := applyAt_eq_error.mp happly
            exact .fault span hop hyields happlies

/-- Working through the agenda of an expression does what its recursion does and what the rules
say, whatever its depth. The run ends with exactly one result, the value of the expression, or
with the failure of the expression. -/
theorem evaluate_outcome (ops : OperatorRegistry) (values : Valuation) (e : Expr) :
    evaluate ops values e = eval ops values e ∧
      (∀ r, Yields ops values e r ↔ evaluate ops values e = r) ∧
      run ops values [.visit e] [] = (evaluate ops values e).map fun v => [v] := by
  refine ⟨evaluate_eq_eval e, fun r => ?_, ?_⟩
  · rw [evaluate_eq_eval, yields_iff]
  · rw [evaluate_eq_eval, run_visit]
    cases eval ops values e <;> simp [run, Except.map]

end SharedConstants.Expr
