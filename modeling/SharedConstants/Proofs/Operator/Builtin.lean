import SharedConstants.Proofs.Operator.Application

/-!
# The contract of operators

Operators are registered under a contract: a meaning raises evaluation errors only. It finds
something wrong with the values of operands that it admits, and never with names, operators or
counts, which are found without these values. All built-in meanings keep the contract.
-/
namespace SharedConstants

/-- Whether a fault can be found without the values of operands. -/
def Fault.IsStatic : Fault → Prop
  | .expression _ | .unknownReference _ | .operand _ (.count ..) => True
  | _ => False

/-- The contract of operators: on operands that it admits, each fails for their values only. -/
def OperatorRegistry.Lawful (ops : OperatorRegistry) : Prop :=
  ∀ op ∈ ops.operators, ∀ vs fault, op.Admits vs → op.compute vs = .error fault → ¬ fault.IsStatic

/-- If a computation fails, it does so for the values of operands. -/
def Operational {α : Type} (x : Except Fault α) : Prop :=
  ∀ fault, x = .error fault → ¬ fault.IsStatic

section

variable {α β : Type}

theorem operational_ok (a : α) : Operational (.ok a : Except Fault α) := nofun

theorem operational_error {fault : Fault} (h : ¬ fault.IsStatic) :
    Operational (.error fault : Except Fault α) := by
  intro fault' heq
  cases heq
  exact h

theorem Operational.bind {x : Except Fault α} {f : α → Except Fault β} (hx : Operational x)
    (hf : ∀ a, Operational (f a)) : Operational (x >>= f) := by
  cases x with
  | ok a => exact hf a
  | error fault => exact operational_error (hx fault rfl)

theorem Operational.map {x : Except Fault α} (hx : Operational x) (f : α → β) :
    Operational (x.map f) := by
  cases x with
  | ok a => exact operational_ok (f a)
  | error fault => exact operational_error (hx fault rfl)

theorem operational_foldlM {f : β → α → Except Fault β} (hf : ∀ b a, Operational (f b a))
    (xs : List α) (b : β) : Operational (xs.foldlM f b) := by
  induction xs generalizing b with
  | nil => exact operational_ok b
  | cons x xs ih =>
    rw [List.foldlM_cons]
    exact (hf b x).bind ih

end

theorem operational_checkRange (what : String) (n : Int) :
    Operational (Value.checkRange what n) := by
  unfold Value.checkRange
  split
  · exact operational_ok n
  · exact operational_error id

namespace Operator

theorem operational_result (name : String) (n : Int) : Operational (result name n) :=
  (operational_checkRange _ n).map _

theorem operational_fold (name : String) (step : Int → Int → Int) (keepsTruth : List Value → Bool)
    (vs : List Value) : Operational (fold name step keepsTruth vs) := by
  cases vs with
  | nil => exact operational_error id
  | cons v vs =>
    refine (operational_foldlM (fun _ _ => operational_checkRange _ _) vs _).bind fun n => ?_
    split
    · exact operational_error id
    · exact operational_ok _

theorem operational_best (name : String) (beats : Int → Int → Bool) (vs : List Value) :
    Operational (best name beats vs) := by
  cases vs with
  | nil => exact operational_error id
  | cons v vs =>
    simp only [best]
    split
    · exact operational_ok _
    · exact operational_error id

theorem operational_binary (name : String) {f : Value → Value → Except Fault Value}
    (hf : ∀ a b, Operational (f a b)) (vs : List Value) : Operational (binary name f vs) := by
  unfold binary
  split
  · exact hf _ _
  · exact operational_error id

theorem operational_divide (vs : List Value) : Operational (divide vs) := by
  refine operational_binary "div" (fun a b => ?_) vs
  split
  · exact operational_error id
  · exact operational_result _ _

theorem operational_remainder (vs : List Value) : Operational (remainder vs) := by
  refine operational_binary "mod" (fun a b => ?_) vs
  split
  · exact operational_error id
  · exact operational_result _ _

theorem operational_shiftLeft (vs : List Value) : Operational (shiftLeft vs) := by
  refine operational_binary "shl" (fun a b => ?_) vs
  split
  · exact operational_error id
  · split
    · exact operational_result _ _
    · split
      · exact operational_error id
      · exact operational_result _ _

theorem operational_shiftRight (vs : List Value) : Operational (shiftRight vs) := by
  refine operational_binary "shr" (fun a b => ?_) vs
  split
  · exact operational_error id
  · exact operational_ok _

theorem operational_equal (vs : List Value) : Operational (equal vs) := by
  unfold equal
  split
  · split
    · exact operational_error id
    · exact operational_ok _
  · exact operational_error id

theorem operational_negate (vs : List Value) : Operational (negate vs) := by
  cases vs with
  | nil => exact operational_error id
  | cons v vs => exact operational_ok _

/-- Whatever its operands are, a built-in operator fails for their values only. -/
theorem operational_builtin : ∀ op ∈ builtin, ∀ vs, Operational (op.compute vs) := by
  have htotal : ∀ (f : List Value → Value) vs, Operational (.ok (f vs)) :=
    fun f vs => operational_ok (f vs)
  have hless : ∀ (f : Value → Value → Value) name vs,
      Operational (binary name (fun a b => .ok (f a b)) vs) :=
    fun f name => operational_binary name fun a b => operational_ok (f a b)
  simp only [builtin, List.forall_mem_cons]
  exact ⟨operational_negate, htotal _, htotal _, htotal _,
    operational_fold _ _ _, operational_fold _ _ _, operational_fold _ _ _,
    operational_divide, operational_remainder, operational_shiftLeft, operational_shiftRight,
    operational_fold _ _ _, operational_fold _ _ _, operational_fold _ _ _,
    operational_best _ _, operational_best _ _,
    operational_equal, hless _ _, hless _ _, List.forall_mem_nil _⟩

end Operator

/-- Built-in meanings keep the contract, whatever counts and kinds they are registered with. -/
theorem OperatorRegistry.lawful_of_builtin {ops : OperatorRegistry}
    (h : ∀ op ∈ ops.operators, ∃ b ∈ Operator.builtin, op.compute = b.compute) : ops.Lawful := by
  intro op hop vs fault _ hfault
  obtain ⟨b, hb, hmeaning⟩ := h op hop
  exact Operator.operational_builtin b hb vs fault (hmeaning ▸ hfault)

end SharedConstants
