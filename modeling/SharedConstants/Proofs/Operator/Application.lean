import SharedConstants.Operator.Builtin

/-!
# Application of operators

An operator looks at the count of its operands first, then at their kinds from the left. Its
meaning computes only on operands that pass both. Operators are called by their names.
-/
namespace SharedConstants.Operator

variable {op : Operator} {vs : List Value}

/-- Operands that an operator computes on. -/
structure Admits (op : Operator) (vs : List Value) : Prop where
  count : op.arity.accepts vs.length = true
  kinds : ∀ v ∈ vs, op.accepts v.kind = true

/-- What an operator applied to operands comes to. -/
inductive Applies (op : Operator) : List Value → Except Fault Value → Prop
  | miscounted {vs : List Value} : op.arity.accepts vs.length = false →
    Applies op vs (.error (.operand op.name (.count op.arity vs.length)))
  | misfit {before : List Value} {v : Value} {after : List Value} :
    op.arity.accepts (before ++ v :: after).length = true →
    (∀ w ∈ before, op.accepts w.kind = true) → op.accepts v.kind = false →
    Applies op (before ++ v :: after)
      (.error (.operand op.name (.kind (before.length + 1) op.acceptedKinds v)))
  | computed {vs : List Value} : op.Admits vs → Applies op vs (op.compute vs)

theorem misfit?_eq_none {position : Nat} :
    op.misfit? position vs = none ↔ ∀ v ∈ vs, op.accepts v.kind = true := by
  induction vs generalizing position with
  | nil => simp [misfit?]
  | cons v vs ih => cases hv : op.accepts v.kind <;> simp [misfit?, hv, ih]

theorem misfit?_append {position : Nat} {before after : List Value} {v : Value}
    (hbefore : ∀ w ∈ before, op.accepts w.kind = true) (hv : op.accepts v.kind = false) :
    op.misfit? position (before ++ v :: after) =
      some (.kind (position + before.length) op.acceptedKinds v) := by
  induction before generalizing position with
  | nil => simp [misfit?, hv]
  | cons w before ih =>
    obtain ⟨hw, hbefore⟩ := List.forall_mem_cons.mp hbefore
    rw [List.cons_append, misfit?, if_pos hw, ih hbefore, List.length_cons]
    congr 2
    omega

/-- Of operands that are not all accepted one is the first that is not. -/
theorem exists_first_misfit (h : ¬ ∀ v ∈ vs, op.accepts v.kind = true) :
    ∃ before v after, vs = before ++ v :: after ∧ (∀ w ∈ before, op.accepts w.kind = true) ∧
      op.accepts v.kind = false := by
  induction vs with
  | nil => exact absurd (List.forall_mem_nil _) h
  | cons v vs ih =>
    cases hv : op.accepts v.kind with
    | false => exact ⟨[], v, vs, rfl, List.forall_mem_nil _, hv⟩
    | true =>
      obtain ⟨before, w, after, rfl, hbefore, hw⟩ :=
        ih fun hvs => h (List.forall_mem_cons.mpr ⟨hv, hvs⟩)
      exact ⟨v :: before, w, after, rfl, List.forall_mem_cons.mpr ⟨hv, hbefore⟩, hw⟩

theorem call_of_admits (h : op.Admits vs) : op.call vs = op.compute vs := by
  rw [call, fault?, if_pos h.count, misfit?_eq_none.mpr h.kinds]

theorem applies_iff {r : Except Fault Value} : op.Applies vs r ↔ op.call vs = r := by
  constructor
  · intro h
    cases h with
    | miscounted hcount => simp [call, fault?, hcount]
    | misfit hcount hbefore hv =>
      rw [call, fault?, if_pos hcount, misfit?_append hbefore hv, Nat.add_comm]
    | computed hadmits => exact call_of_admits hadmits
  · rintro rfl
    cases hcount : op.arity.accepts vs.length with
    | false =>
      rw [call, fault?, hcount]
      exact .miscounted hcount
    | true =>
      by_cases hkinds : ∀ v ∈ vs, op.accepts v.kind = true
      · rw [call_of_admits ⟨hcount, hkinds⟩]
        exact .computed ⟨hcount, hkinds⟩
      · obtain ⟨before, v, after, rfl, hbefore, hv⟩ := exists_first_misfit hkinds
        rw [call, fault?, if_pos hcount, misfit?_append hbefore hv, Nat.add_comm]
        exact .misfit hcount hbefore hv

/-- A result was computed on operands that the operator admits. -/
theorem call_eq_ok {v : Value} :
    op.call vs = .ok v ↔ op.Admits vs ∧ op.compute vs = .ok v := by
  constructor
  · intro h
    have hadmits : op.Admits vs := by
      generalize hr : Except.ok v = r at h
      cases applies_iff.mpr h with
      | miscounted | misfit => cases hr
      | computed hadmits => exact hadmits
    exact ⟨hadmits, (call_of_admits hadmits).symm.trans h⟩
  · rintro ⟨hadmits, hv⟩
    rw [call_of_admits hadmits, hv]

/-- An operator fails because its operands do not fit or because its meaning fails on them. -/
theorem call_error {fault : Fault} (h : op.call vs = .error fault) :
    (∃ misfit, fault = .operand op.name misfit) ∨
      op.Admits vs ∧ op.compute vs = .error fault := by
  generalize hr : Except.error fault = r at h
  cases applies_iff.mpr h with
  | miscounted | misfit => exact .inl ⟨_, Except.error.inj hr⟩
  | computed hadmits => exact .inr ⟨hadmits, rfl⟩

end SharedConstants.Operator

namespace SharedConstants.OperatorRegistry

variable {ops : OperatorRegistry}

/-- What the operator of a name comes to, if there is one. -/
def call? (ops : OperatorRegistry) (name : String) (operands : List Value) :
    Option (Except Fault Value) :=
  (ops.get? name).map (·.call operands)

/-- An operator that is found under a name computes on integers in the counts that it takes. -/
theorem call?_integers {name description : String} {arity : Arity} {compute : Operator.Meaning}
    (ns : List Int)
    (h : ops.get? name = some ⟨name, arity, Operator.integersOnly, compute, description⟩)
    (hcount : arity.accepts ns.length = true) :
    ops.call? name (ns.map .integer) = some (compute (ns.map .integer)) := by
  have hkinds : ∀ v ∈ ns.map Value.integer, Operator.integersOnly v.kind = true := by
    intro v hv
    obtain ⟨n, _, rfl⟩ := List.mem_map.mp hv
    rfl
  rw [call?, h, Option.map_some, Operator.call_of_admits ⟨by rwa [List.length_map], hkinds⟩]

end SharedConstants.OperatorRegistry
