import SharedConstants.Proofs.Expr.Language
import SharedConstants.Proofs.Expr.Outcome
import SharedConstants.Proofs.Operator.Builtin
import SharedConstants.Proofs.Operator.Failure

/-!
# Failures of expressions that were read

The evaluation of an expression fails for a name without a value, for an operator that is not
registered, or for the count, the kinds or the values of operands. The first three are seen on the
expression alone. Reading a value text finds them too, so that an expression that was read fails
only on the values of its operands.
-/
namespace SharedConstants

namespace Expr

variable {ops : OperatorRegistry} {values : Valuation} {e : Expr} {d : Diagnostic}

/-- An operator meets the values of the operands of an application in an expression, which all have
one. -/
inductive Meets (ops : OperatorRegistry) (values : Valuation) (e : Expr) :
    Operator → List Value → Span → Prop
  | apply {operator : String} {operands : List Expr} {span : Span} {op : Operator}
    {vs : List Value} : .apply operator operands span ∈ e.nodes → ops.get? operator = some op →
    List.Forall₂ (fun a v => evaluate ops values a = .ok v) operands vs →
    Meets ops values e op vs span

/-- What the evaluation of an expression may fail for. -/
inductive Cause
  | reference
  | operator
  | count
  | kind
  | meaning

/-- A node of an expression gives cause for a failure. -/
inductive FailsBy (ops : OperatorRegistry) (values : Valuation) (e : Expr) :
    Cause → Diagnostic → Prop
  | reference {name : String} {span : Span} : .reference name span ∈ e.nodes →
    values name = none → FailsBy ops values e .reference (unknownReference name span)
  | operator {operator : String} {operands : List Expr} {span : Span} :
    .apply operator operands span ∈ e.nodes → ops.get? operator = none →
    FailsBy ops values e .operator (unknownOperator operator span)
  | count {operator : String} {operands : List Expr} {span : Span} {op : Operator} :
    .apply operator operands span ∈ e.nodes → ops.get? operator = some op →
    op.arity.accepts operands.length = false →
    FailsBy ops values e .count
      { fault := .operand op.name (.count op.arity operands.length), span := some span }
  | kind {op : Operator} {before : List Value} {v : Value} {after : List Value} {span : Span} :
    Meets ops values e op (before ++ v :: after) span →
    op.arity.accepts (before ++ v :: after).length = true →
    (∀ w ∈ before, op.accepts w.kind = true) → op.accepts v.kind = false →
    FailsBy ops values e .kind
      { fault := .operand op.name (.kind (before.length + 1) op.acceptedKinds v),
        span := some span }
  | meaning {op : Operator} {vs : List Value} {fault : Fault} {span : Span} :
    Meets ops values e op vs span → op.Admits vs → op.compute vs = .error fault →
    FailsBy ops values e .meaning { fault, span := some span }

section Causes

variable {a : Expr} {cause : Cause}

theorem Meets.node {op : Operator} {vs : List Value} {span : Span}
    (h : Meets ops values a op vs span) (ha : a ∈ e.nodes) : Meets ops values e op vs span := by
  obtain ⟨hmem, hop, hoperands⟩ := h
  exact .apply (nodes_subset ha hmem) hop hoperands

theorem Meets.mem {op : Operator} {vs : List Value} {span : Span}
    (h : Meets ops values e op vs span) : op ∈ ops.operators := by
  obtain ⟨_, hop, _⟩ := h
  exact List.mem_of_find?_eq_some hop

/-- What a node gives cause for, the expression gives cause for. -/
theorem FailsBy.node (h : FailsBy ops values a cause d) (ha : a ∈ e.nodes) :
    FailsBy ops values e cause d := by
  cases h with
  | reference hmem hvalue => exact .reference (nodes_subset ha hmem) hvalue
  | operator hmem hop => exact .operator (nodes_subset ha hmem) hop
  | count hmem hop hcount => exact .count (nodes_subset ha hmem) hop hcount
  | kind hmeets hcount hbefore hv => exact .kind (hmeets.node ha) hcount hbefore hv
  | meaning hmeets hadmits hfault => exact .meaning (hmeets.node ha) hadmits hfault

/-- Every failure has a cause in the expression. -/
theorem exists_failsBy (h : evaluate ops values e = .error d) :
    ∃ cause, FailsBy ops values e cause d := by
  rw [evaluate_eq_eval] at h
  induction e using inductOnOperands generalizing d with
  | literal v span => cases h
  | reference name span =>
    cases yields_iff.mpr h with
    | unknownReference _ hvalue => exact ⟨_, .reference (by simp) hvalue⟩
  | apply operator operands span ih =>
    have hself : .apply operator operands span ∈ (Expr.apply operator operands span).nodes :=
      self_mem_nodes _
    cases hop : ops.get? operator with
    | none =>
      obtain rfl : unknownOperator operator span = d := by simpa [eval, hop] using h
      exact ⟨_, .operator hself hop⟩
    | some op =>
      simp only [eval, hop] at h
      cases hall : evalAll ops values operands with
      | error first =>
        obtain rfl : first = d := by simpa [hall] using h
        obtain ⟨a, ha, hfirst⟩ := evalAll_error hall
        obtain ⟨cause, hcause⟩ := ih a ha hfirst
        exact ⟨cause, hcause.node (mem_nodes.mpr (.inr ⟨a, ha, self_mem_nodes a⟩))⟩
      | ok vs =>
        rw [hall] at h
        obtain ⟨fault, happlies, rfl⟩ := applyAt_eq_error.mp h
        have hmeets : Meets ops values (.apply operator operands span) op vs span :=
          .apply hself hop (by simpa only [evaluate_eq_eval] using evalAll_eq_ok.mp hall)
        generalize hr : Except.error fault = r at happlies
        cases happlies with
        | miscounted hcount =>
          obtain rfl := Except.error.inj hr
          rw [evalAll_length hall] at hcount ⊢
          exact ⟨_, .count hself hop hcount⟩
        | misfit hcount hbefore hv =>
          obtain rfl := Except.error.inj hr
          exact ⟨_, .kind hmeets hcount hbefore hv⟩
        | computed hadmits => exact ⟨_, .meaning hmeets hadmits hr.symm⟩

end Causes

section Reading

variable {text : String} {constant : Option String} {a : Expr}

/-- The nodes of an admitted expression are admitted. -/
theorem Admitted.node (h : Admitted ops e) (ha : a ∈ e.nodes) : Admitted ops a := by
  induction h with
  | boolean | integer | reference =>
    simp only [nodes_literal, nodes_reference, List.mem_singleton] at ha
    subst ha
    constructor <;> assumption
  | apply span hop hleast hmost hoperands ih =>
    rcases mem_nodes.mp ha with rfl | ⟨c, hc, hmem⟩
    · exact .apply span hop hleast hmost hoperands
    · exact ih c hc hmem

theorem admitted_of_parse (h : Expr.parse ops text constant = .ok e) : Admitted ops e := by
  obtain ⟨_, _, _, _, hadmitted, _⟩ := parse_eq_ok.mp h
  exact hadmitted

/-- The applications in an admitted expression are those of registered operators to as many
operands as these take. -/
theorem Admitted.apply_node {operator : String} {operands : List Expr} {span : Span}
    (h : Admitted ops e) (hmem : .apply operator operands span ∈ e.nodes) :
    ∃ op, ops.get? operator = some op ∧ op.arity.accepts operands.length = true := by
  cases h.node hmem with
  | apply _ hop hleast hmost _ => exact ⟨_, hop, Arity.accepts_iff.mpr ⟨hleast, hmost⟩⟩

theorem Admitted.not_failsBy_operator (h : Admitted ops e) :
    ¬ FailsBy ops values e .operator d := by
  rintro ⟨⟩
  next hmem hop =>
    obtain ⟨op, hsome, _⟩ := h.apply_node hmem
    simp [hop] at hsome

theorem Admitted.not_failsBy_count (h : Admitted ops e) : ¬ FailsBy ops values e .count d := by
  rintro ⟨⟩
  next hmem hop hcount =>
    obtain ⟨op, hsome, haccepts⟩ := h.apply_node hmem
    obtain rfl := Option.some.inj (hop.symm.trans hsome)
    simp [hcount] at haccepts

theorem not_failsBy_reference (h : ∀ name ∈ e.references, (values name).isSome) :
    ¬ FailsBy ops values e .reference d := by
  rintro ⟨⟩
  next hmem hvalue =>
    have hname := h _ (by
      simp only [references, List.mem_eraseDups, referenceNodes]
      exact List.mem_map.mpr ⟨_, List.mem_filterMap.mpr ⟨_, hmem, rfl⟩, rfl⟩)
    simp [hvalue] at hname

/-- An expression that was read, with a value for every name in it, fails only where an operator
meets operands in a number that it takes. Either these are of the wrong kind or the meaning of the
operator fails on them, which has the known reasons if the operator is a built-in one. Conversely
no text is read as an expression with an operator that is not registered or that is given too few
or too many operands. -/
theorem evaluate_of_parse (hparse : Expr.parse ops text constant = .ok e)
    (hvalues : ∀ name ∈ e.references, (values name).isSome) :
    (∀ d, evaluate ops values e = .error d →
      FailsBy ops values e .kind d ∨ FailsBy ops values e .meaning d) ∧
    (ops.Lawful → ∀ d, evaluate ops values e = .error d → ¬ d.fault.IsStatic) ∧
    ((∀ op ∈ ops.operators, op ∈ Operator.builtin) →
      ∀ d, evaluate ops values e = .error d → FailsBy ops values e .kind d ∨
        ∃ op vs span fault, Meets ops values e op vs span ∧ op.Admits vs ∧
          Operator.Raises op.name vs fault ∧ d = { fault, span := some span }) ∧
    ∀ e' values', (∀ d, evaluate ops values' e' = .error d →
        ∃ cause, FailsBy ops values' e' cause d) ∧
      ∀ d, FailsBy ops values' e' .operator d ∨ FailsBy ops values' e' .count d →
        ∀ text' constant', Expr.parse ops text' constant' ≠ .ok e' := by
  have hadmitted := admitted_of_parse hparse
  have hcauses : ∀ d, evaluate ops values e = .error d →
      FailsBy ops values e .kind d ∨ FailsBy ops values e .meaning d := by
    intro d h
    obtain ⟨cause, hcause⟩ := exists_failsBy h
    cases cause with
    | reference => exact absurd hcause (not_failsBy_reference hvalues)
    | operator => exact absurd hcause hadmitted.not_failsBy_operator
    | count => exact absurd hcause hadmitted.not_failsBy_count
    | kind => exact .inl hcause
    | meaning => exact .inr hcause
  refine ⟨hcauses, fun hlawful d h => ?_, fun hbuiltin d h => ?_, fun e' values' =>
    ⟨fun d h => exists_failsBy h, fun d hcause text' constant' hread => ?_⟩⟩
  · rcases hcauses d h with hcause | hcause
    · cases hcause
      exact id
    · cases hcause with
      | meaning hmeets hadmits hfault => exact hlawful _ hmeets.mem _ _ hadmits hfault
  · refine (hcauses d h).imp_right fun hcause => ?_
    cases hcause with
    | meaning hmeets hadmits hfault =>
      exact ⟨_, _, _, _, hmeets, hadmits,
        Operator.onlyRaises_builtin _ (hbuiltin _ hmeets.mem) _ _ hadmits hfault, rfl⟩
  · rcases hcause with hcause | hcause
    · exact (admitted_of_parse hread).not_failsBy_operator hcause
    · exact (admitted_of_parse hread).not_failsBy_count hcause

end Reading

/-- A quotient whose divisor comes to zero, as it is read from a text. -/
def zeroDivisor : Expr :=
  .apply "div" [.apply "add" [.reference "A" ⟨10, 11⟩, .literal (.integer 1) ⟨12, 13⟩] ⟨5, 14⟩,
    .apply "sub" [.reference "B" ⟨20, 21⟩, .reference "B" ⟨22, 23⟩] ⟨15, 24⟩] ⟨0, 25⟩

theorem parse_zeroDivisor :
    Expr.parse .builtin "(div (add A 1) (sub B B))" none = .ok zeroDivisor := by
  have hread : readDraft "(div (add A 1) (sub B B))".toList = .ok
      (.apply ['d', 'i', 'v'] ⟨1, 4⟩
        [.apply ['a', 'd', 'd'] ⟨6, 9⟩
          [.atom (.name ['A']) ⟨10, 11⟩, .atom (.number false 10 ['1']) ⟨12, 13⟩] ⟨5, 14⟩,
        .apply ['s', 'u', 'b'] ⟨16, 19⟩
          [.atom (.name ['B']) ⟨20, 21⟩, .atom (.name ['B']) ⟨22, 23⟩] ⟨15, 24⟩] ⟨0, 25⟩) := rfl
  have hreadable : ∀ digits, (10, digits) ∈ [(10, ['1'])] →
      (bareDigits digits).length ≤ Datum.digitLimit := by simp [bareDigits, Datum.digitLimit]
  have hadd : Admitted .builtin (.apply "add" [.reference "A" ⟨10, 11⟩,
      .literal (.integer 1) ⟨12, 13⟩] ⟨5, 14⟩) :=
    .apply _ rfl (by decide) nofun (List.forall_mem_cons.mpr ⟨.reference _ _,
      List.forall_mem_singleton.mpr (.integer _ (by decide) (by decide))⟩)
  have hsub : Admitted .builtin (.apply "sub" [.reference "B" ⟨20, 21⟩,
      .reference "B" ⟨22, 23⟩] ⟨15, 24⟩) :=
    .apply _ rfl (by decide) nofun (List.forall_mem_cons.mpr ⟨.reference _ _,
      List.forall_mem_singleton.mpr (.reference _ _)⟩)
  have hdiv : Admitted .builtin zeroDivisor :=
    .apply _ rfl (by decide) (by decide) (List.forall_mem_cons.mpr ⟨hadd,
      List.forall_mem_singleton.mpr hsub⟩)
  exact parse_eq_ok.mpr ⟨_, readDraft_eq_ok.mp hread, rfl, by decide, hdiv, hreadable⟩

/-- Both names have a value. -/
def twoValues : Valuation := fun name => if name ∈ ["A", "B"] then some (.integer 7) else none

theorem evaluate_of_parse_zeroDivisor :
    evaluate .builtin twoValues zeroDivisor =
      .error { fault := .divisionByZero "div", span := some ⟨0, 25⟩ } ∧
    FailsBy .builtin twoValues zeroDivisor .meaning
      { fault := .divisionByZero "div", span := some ⟨0, 25⟩ } ∧
    ¬ (Fault.divisionByZero "div").IsStatic ∧
    ∀ text constant, Expr.parse .builtin text constant ≠
      .ok (.apply "div" [.reference "A" ⟨5, 6⟩] ⟨0, 7⟩) := by
  have hfails : evaluate .builtin twoValues zeroDivisor =
      .error { fault := .divisionByZero "div", span := some ⟨0, 25⟩ } := by
    rw [evaluate_eq_eval]
    rfl
  have hvalues : ∀ name ∈ zeroDivisor.references, (twoValues name).isSome := by
    intro name hname
    obtain ⟨span, hmem⟩ := mem_references.mp hname
    have hnames : ∀ o ∈ zeroDivisor.occurrences, (twoValues o.1).isSome := by decide
    exact hnames _ hmem
  have hlawful : OperatorRegistry.builtin.Lawful :=
    OperatorRegistry.lawful_of_builtin fun op hop => ⟨op, hop, rfl⟩
  obtain ⟨hcauses, hstatic, _, hunread⟩ := evaluate_of_parse parse_zeroDivisor hvalues
  refine ⟨hfails, (hcauses _ hfails).resolve_left nofun, hstatic hlawful _ hfails, ?_⟩
  exact (hunread _ twoValues).2 _ (.inr (.count (self_mem_nodes _) rfl rfl))

end Expr

end SharedConstants
