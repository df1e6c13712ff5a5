import SharedConstants.Proofs.Expr.Language
import SharedConstants.Proofs.Expr.Outcome
import SharedConstants.Proofs.Operator.Exact

/-!
# Ranges of expressions

The literals that are read lie in the signed 128-bit range. Over such literals and such values of
the names, every application of a built-in operator in an expression is exact or fails, and what
an expression comes to lies in the range.
-/
namespace SharedConstants

/-- All values are in range. -/
def Valuation.Bounded (values : Valuation) : Prop :=
  ∀ name v, values name = some v → v.Bounded

namespace Expr

/-- All integer literals are in range. -/
def Bounded (e : Expr) : Prop := ∀ v span, .literal v span ∈ e.nodes → v.Bounded

theorem Bounded.node {e a : Expr} (h : e.Bounded) (ha : a ∈ e.nodes) : a.Bounded :=
  fun v span hv => h v span (nodes_subset ha hv)

theorem bounded_literal {v : Value} {span : Span} : (literal v span).Bounded ↔ v.Bounded := by
  simp [Bounded]

theorem bounded_reference {name : String} {span : Span} : (reference name span).Bounded := by
  simp [Bounded]

theorem bounded_apply {operator : String} {operands : List Expr} {span : Span} :
    (apply operator operands span).Bounded ↔ ∀ e ∈ operands, e.Bounded := by
  constructor
  · exact fun h e he => h.node (mem_nodes.mpr (.inr ⟨e, he, self_mem_nodes e⟩))
  · intro h v s hv
    rcases mem_nodes.mp hv with hself | ⟨e, he, hmem⟩
    · cases hself
    · exact h e he v s hmem

section Reading

variable {ops : OperatorRegistry} {constant : Option String} {e : Expr}

theorem Admitted.bounded (h : Admitted ops e) : e.Bounded := by
  induction h with
  | boolean b span => exact bounded_literal.mpr trivial
  | integer span hleast hmost => exact bounded_literal.mpr ⟨hleast, hmost⟩
  | reference name span => exact bounded_reference
  | apply span _ _ _ _ ih => exact bounded_apply.mpr ih

theorem bounded_of_parse {text : String} (h : Expr.parse ops text constant = .ok e) :
    e.Bounded := by
  obtain ⟨_, _, _, _, hadmitted, _⟩ := parse_eq_ok.mp h
  exact hadmitted.bounded

theorem bounded_of_ofNative {v : Value} (h : ofNative v constant = .ok e) : e.Bounded := by
  cases v with
  | boolean b =>
    obtain rfl := Except.ok.inj h
    exact bounded_literal.mpr trivial
  | integer n =>
    simp only [ofNative] at h
    cases hcheck : Value.checkRange "integer literal" n with
    | ok m =>
      simp only [hcheck] at h
      obtain rfl := Except.ok.inj h
      exact bounded_literal.mpr (Value.checkRange_eq_ok.mp hcheck).2
    | error fault =>
      simp only [hcheck] at h
      split at h <;> cases h

end Reading

section Evaluation

variable {ops : OperatorRegistry} {values : Valuation}

theorem eval_apply_eq_ok {operator : String} {operands : List Expr} {span : Span} {v : Value} :
    eval ops values (.apply operator operands span) = .ok v ↔
      ∃ op vs, ops.get? operator = some op ∧
        List.Forall₂ (fun e w => eval ops values e = .ok w) operands vs ∧
        op.Admits vs ∧ op.compute vs = .ok v := by
  rw [eval]
  cases hop : ops.get? operator with
  | none => simp
  | some op =>
    simp only [Option.some.injEq, ← evalAll_eq_ok, ← Operator.call_eq_ok, ← Operator.applies_iff]
    cases evalAll ops values operands with
    | error d => simp
    | ok vs => simp [applyAt_eq_ok]

/-- An expression with a value has no node without one. -/
theorem eval_node_ok {e a : Expr} {v : Value} (h : eval ops values e = .ok v)
    (ha : a ∈ e.nodes) : ∃ w, eval ops values a = .ok w := by
  induction e using inductOnOperands generalizing v with
  | literal | reference =>
    simp only [nodes_literal, nodes_reference, List.mem_singleton] at ha
    exact ⟨v, ha ▸ h⟩
  | apply operator operands span ih =>
    rcases mem_nodes.mp ha with rfl | ⟨c, hc, hmem⟩
    · exact ⟨v, h⟩
    · obtain ⟨op, vs, _, hoperands, _⟩ := eval_apply_eq_ok.mp h
      obtain ⟨w, hw⟩ := evalAll_ok (evalAll_eq_ok.mpr hoperands) c hc
      exact ih c hc hw hmem

theorem forall_of_forall₂ {α β : Type} {r : α → β → Prop} {p : β → Prop} {as : List α}
    {bs : List β} (h : List.Forall₂ r as bs) (hp : ∀ a ∈ as, ∀ b, r a b → p b) :
    ∀ b ∈ bs, p b := by
  induction h with
  | nil => exact List.forall_mem_nil _
  | cons hab _ ih =>
    obtain ⟨hfirst, hrest⟩ := List.forall_mem_cons.mp hp
    exact List.forall_mem_cons.mpr ⟨hfirst _ hab, ih hrest⟩

/-- An application of a built-in operator to operands whose values are in range computes. -/
theorem computes_of_eval_apply {operator : String} {operands : List Expr} {span : Span}
    {v : Value} (hbounded : ∀ e ∈ operands, ∀ w, eval .builtin values e = .ok w → w.Bounded)
    (h : eval .builtin values (.apply operator operands span) = .ok v) :
    ∃ op vs, OperatorRegistry.builtin.get? operator = some op ∧
      List.Forall₂ (fun e w => eval .builtin values e = .ok w) operands vs ∧
      op.Computes vs v := by
  obtain ⟨op, vs, hop, hoperands, hadmits, hcompute⟩ := eval_apply_eq_ok.mp h
  have hmem : op ∈ Operator.builtin := List.mem_of_find?_eq_some hop
  have hvs : ∀ w ∈ vs, w.Bounded := forall_of_forall₂ hoperands hbounded
  exact ⟨op, vs, hop, hoperands,
    Operator.isExact_builtin op hmem vs v hvs hadmits hcompute⟩

variable (hvalues : values.Bounded)
include hvalues

/-- The values of expressions over values and literals in range are in range. -/
theorem eval_bounded {e : Expr} {v : Value} (he : e.Bounded)
    (h : eval .builtin values e = .ok v) : v.Bounded := by
  induction e using inductOnOperands generalizing v with
  | literal w span =>
    obtain rfl := Except.ok.inj h
    exact bounded_literal.mp he
  | reference name span =>
    cases hvalue : values name with
    | none => simp [eval, hvalue] at h
    | some w =>
      obtain rfl : w = v := by simpa [eval, hvalue] using h
      exact hvalues name w hvalue
  | apply operator operands span ih =>
    obtain ⟨op, vs, _, _, hcomputes⟩ := computes_of_eval_apply
      (fun e hmem w hw => ih e hmem (bounded_apply.mp he e hmem) hw) h
    exact hcomputes.bounded

/-- Every application in an expression over values and literals in range computes or fails. -/
theorem computes_of_mem_nodes {e : Expr} {operator : String} {operands : List Expr} {span : Span}
    {v : Value} (he : e.Bounded) (hmem : .apply operator operands span ∈ e.nodes)
    (h : eval .builtin values (.apply operator operands span) = .ok v) :
    ∃ op vs, OperatorRegistry.builtin.get? operator = some op ∧
      List.Forall₂ (fun e w => eval .builtin values e = .ok w) operands vs ∧
      op.Computes vs v :=
  computes_of_eval_apply
    (fun a ha _ hw => eval_bounded hvalues (bounded_apply.mp (he.node hmem) a ha) hw) h

end Evaluation

end Expr

end SharedConstants
