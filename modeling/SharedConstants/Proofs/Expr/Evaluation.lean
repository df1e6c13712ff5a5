import SharedConstants.Expr.Evaluation
import SharedConstants.Proofs.Expr.Occurrences
import SharedConstants.Proofs.Operator.Application

/-!
# Evaluation along the expression

Working through the agenda gives the value that the expression has by recursion. This value
depends on nothing but the values of the names that the expression mentions.
-/
namespace SharedConstants.Expr

variable {ops : OperatorRegistry} {values values' : Valuation}

theorem evalAll_length {es : List Expr} {vs : List Value} (h : evalAll ops values es = .ok vs) :
    vs.length = es.length := by
  induction es generalizing vs with
  | nil =>
    cases h
    rfl
  | cons e es ih =>
    simp only [evalAll] at h
    split at h
    · split at h
      · next ws hws =>
        cases h
        simp [ih hws]
      · cases h
    · cases h

/-- Visits of expressions put their values on the results one after another, if a visit of
each does so. -/
theorem run_visits {es : List Expr}
    (hes : ∀ e ∈ es, ∀ agenda results, run ops values (.visit e :: agenda) results =
      match eval ops values e with
      | .ok v => run ops values agenda (v :: results)
      | .error d => .error d) (agenda : List Task) (results : List Value) :
    run ops values (visits es ++ agenda) results =
      match evalAll ops values es with
      | .ok vs => run ops values agenda (vs.reverse ++ results)
      | .error d => .error d := by
  induction es generalizing results with
  | nil => simp [visits, evalAll]
  | cons e es ih =>
    have hrest := ih fun e he => hes e (List.mem_cons_of_mem _ he)
    change run ops values (.visit e :: (visits es ++ agenda)) results = _
    rw [hes e List.mem_cons_self, evalAll]
    cases eval ops values e with
    | error d => rfl
    | ok v =>
      simp only [hrest]
      cases evalAll ops values es <;> simp

/-- A visit puts the value of its expression on the results, or ends the run with its fault. -/
theorem run_visit (e : Expr) : ∀ agenda results,
    run ops values (.visit e :: agenda) results =
      match eval ops values e with
      | .ok v => run ops values agenda (v :: results)
      | .error d => .error d := by
  induction e using inductOnOperands with
  | literal v span =>
    intro agenda results
    rw [run, eval]
  | reference name span =>
    intro agenda results
    rw [run, eval]
    cases values name <;> rfl
  | apply operator operands span ih =>
    intro agenda results
    rw [run, eval]
    cases ops.get? operator with
    | none => rfl
    | some op =>
      simp only [run_visits ih]
      cases hvs : evalAll ops values operands with
      | error d => rfl
      | ok vs =>
        have hlength : vs.reverse.length = operands.length := by
          rw [List.length_reverse, evalAll_length hvs]
        cases happly : applyAt op vs span <;>
          simp only [run, ← hlength, List.take_left, List.drop_left, List.reverse_reverse, happly]

/-- The agenda evaluates an expression as recursion does. -/
theorem evaluate_eq_eval (e : Expr) : evaluate ops values e = eval ops values e := by
  rw [evaluate, run_visit]
  cases eval ops values e <;> simp [run]

/-- Only the names mentioned matter for a value. -/
theorem eval_congr {e : Expr} (h : ∀ name, e.Mentions name → values name = values' name) :
    eval ops values e = eval ops values' e := by
  induction e using inductOnOperands with
  | literal v span => rfl
  | reference name span =>
    simp only [eval]
    rw [h name ⟨span, by simp [occurrences]⟩]
  | apply operator operands span ih =>
    have hoperands : ∀ e ∈ operands, eval ops values e = eval ops values' e :=
      fun e he => ih e he fun name hname => h name (mentions_apply.mpr ⟨e, he, hname⟩)
    have hall : evalAll ops values operands = evalAll ops values' operands := by
      clear ih h
      induction operands with
      | nil => rfl
      | cons e es ih =>
        simp only [evalAll, hoperands e List.mem_cons_self,
          ih fun e he => hoperands e (List.mem_cons_of_mem _ he)]
    simp only [eval, hall]

theorem evalAll_ok {es : List Expr} {vs : List Value} (h : evalAll ops values es = .ok vs) :
    ∀ e ∈ es, ∃ v, eval ops values e = .ok v := by
  induction es generalizing vs with
  | nil => simp
  | cons e es ih =>
    simp only [evalAll] at h
    cases he : eval ops values e with
    | error d => simp [he] at h
    | ok v =>
      cases hes : evalAll ops values es with
      | error d => simp [he, hes] at h
      | ok ws =>
        intro a ha
        rcases List.mem_cons.mp ha with rfl | ha
        · exact ⟨v, he⟩
        · exact ih hes a ha

theorem evalAll_error {es : List Expr} {d : Diagnostic} (h : evalAll ops values es = .error d) :
    ∃ e ∈ es, eval ops values e = .error d := by
  induction es with
  | nil => simp [evalAll] at h
  | cons e es ih =>
    simp only [evalAll] at h
    cases he : eval ops values e with
    | error d' =>
      simp only [he, Except.error.injEq] at h
      exact ⟨e, List.mem_cons_self, by rw [he, h]⟩
    | ok v =>
      cases hes : evalAll ops values es with
      | ok ws => simp [he, hes] at h
      | error d' =>
        simp only [he, hes, Except.error.injEq] at h
        obtain ⟨a, ha, hd⟩ := ih (by rw [hes, h])
        exact ⟨a, List.mem_cons_of_mem _ ha, hd⟩

/-- An expression has a value only if all names that it mentions have one. -/
theorem isSome_of_eval_ok {e : Expr} {v : Value} (h : eval ops values e = .ok v) :
    ∀ name, e.Mentions name → (values name).isSome := by
  induction e using inductOnOperands generalizing v with
  | literal w span => simp [Mentions, occurrences]
  | reference other span =>
    rintro name ⟨s, hmem⟩
    obtain ⟨rfl, rfl⟩ : name = other ∧ s = span := by simpa [occurrences] using hmem
    cases hvalue : values name with
    | none => simp [eval, hvalue] at h
    | some w => rfl
  | apply operator operands span ih =>
    intro name hname
    obtain ⟨e, he, hmentions⟩ := mentions_apply.mp hname
    simp only [eval] at h
    cases hop : ops.get? operator with
    | none => simp [hop] at h
    | some op =>
      cases hall : evalAll ops values operands with
      | error d => simp [hop, hall] at h
      | ok vs =>
        obtain ⟨w, hw⟩ := evalAll_ok hall e he
        exact ih e he hw name hmentions

/-- A value stays when more names get values. -/
theorem eval_mono {e : Expr} {v : Value} (h : eval ops values e = .ok v)
    (hmore : ∀ name w, values name = some w → values' name = some w) :
    eval ops values' e = .ok v := by
  rw [← h]
  refine (eval_congr fun name hname => ?_).symm
  obtain ⟨w, hw⟩ := Option.isSome_iff_exists.mp (isSome_of_eval_ok h name hname)
  rw [hw, hmore name w hw]

/-- Why an expression has no value: a name without one, an operator that is not registered, or
an operator that fails. -/
theorem eval_error {e : Expr} {d : Diagnostic} (h : eval ops values e = .error d) :
    (∃ name span, (name, span) ∈ e.occurrences ∧ values name = none ∧
      d = unknownReference name span) ∨
    (∃ name span, d = unknownOperator name span) ∨
    ∃ op ∈ ops.operators, ∃ vs fault span, op.call vs = .error fault ∧
      d = { fault, span := some span } := by
  induction e using inductOnOperands generalizing d with
  | literal v span => simp [eval] at h
  | reference name span =>
    cases hvalue : values name with
    | some v => simp [eval, hvalue] at h
    | none =>
      simp only [eval, hvalue, Except.error.injEq] at h
      exact .inl ⟨name, span, by simp [occurrences], hvalue, h.symm⟩
  | apply operator operands span ih =>
    simp only [eval] at h
    cases hop : ops.get? operator with
    | none =>
      simp only [hop, Except.error.injEq] at h
      exact .inr (.inl ⟨operator, span, h.symm⟩)
    | some op =>
      cases hall : evalAll ops values operands with
      | error d' =>
        obtain ⟨e, he, hd⟩ := evalAll_error hall
        obtain rfl : d' = d := by simpa [hop, hall] using h
        rcases ih e he hd with ⟨name, s, hmem, hcase⟩ | hcase
        · exact .inl ⟨name, s, mem_occurrencesAll.mpr ⟨e, he, hmem⟩, hcase⟩
        · exact .inr hcase
      | ok vs =>
        simp only [hop, hall, applyAt] at h
        cases hcall : op.call vs with
        | ok v => simp [hcall] at h
        | error fault =>
          simp only [hcall, Except.error.injEq] at h
          exact .inr (.inr ⟨op, List.mem_of_find?_eq_some hop, vs, fault, span, hcall, h.symm⟩)

/-- If all names mentioned have values, an expression fails without a constant, and it is the
meaning of an operator that reports an unknown reference. -/
theorem eval_error_of_defined {e : Expr} {d : Diagnostic}
    (hdefined : ∀ name, e.Mentions name → (values name).isSome)
    (h : eval ops values e = .error d) :
    d.constant = none ∧ ∀ name, d.fault = .unknownReference name →
      ∃ op ∈ ops.operators, ∃ vs, op.Admits vs ∧
        op.compute vs = .error (.unknownReference name) := by
  rcases eval_error h with ⟨name, span, hmem, hnone, _⟩ | ⟨name, span, rfl⟩ |
    ⟨op, hop, vs, fault, span, hcall, rfl⟩
  · have hsome := hdefined name ⟨span, hmem⟩
    simp [hnone] at hsome
  · exact ⟨rfl, by simp [unknownOperator]⟩
  · refine ⟨rfl, ?_⟩
    rintro name rfl
    rcases Operator.call_error hcall with ⟨misfit, hmisfit⟩ | hcompute
    · cases hmisfit
    · exact ⟨op, hop, vs, hcompute⟩

end SharedConstants.Expr
