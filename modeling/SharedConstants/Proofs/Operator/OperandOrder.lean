import SharedConstants.Proofs.Operator.Bitwise
import SharedConstants.Proofs.Operator.Failure

/-!
# The order of operands

Logical and bitwise operators and the choices of a least or greatest operand do not depend on the
order of their operands. Sums and products do not either as far as there are any: partial results
are checked, so it depends on the order whether one of them is out of range.
-/
namespace SharedConstants.Operator

variable {op : Operator} {vs ws : List Value}

theorem Admits.perm (h : op.Admits vs) (hperm : vs.Perm ws) : op.Admits ws where
  count := hperm.length_eq ▸ h.count
  kinds v hv := h.kinds v (hperm.mem_iff.mpr hv)

/-- A fault of the count of operands or of the kind of one. -/
inductive Refuses (name : String) : Fault → Prop
  | count (arity : Arity) (given : Nat) : Refuses name (.operand name (.count arity given))
  | kind (position : Nat) (accepted : List Kind) (operand : Value) :
    Refuses name (.operand name (.kind position accepted operand))

/-- What an operator does not admit it refuses. -/
theorem exists_refuses (h : ¬ op.Admits vs) :
    ∃ fault, op.call vs = .error fault ∧ Refuses op.name fault := by
  generalize hcall : op.call vs = r
  cases applies_iff.mpr hcall with
  | miscounted _ => exact ⟨_, rfl, .count _ _⟩
  | misfit _ _ _ => exact ⟨_, rfl, .kind _ _ _⟩
  | computed hadmits => exact absurd hadmits h

/-- Operands in range that are admitted have a result, which is that of every order of them. -/
def IsSymmetric (op : Operator) : Prop :=
  ∀ vs ws, (∀ v ∈ vs, v.Bounded) → op.Admits vs → vs.Perm ws →
    ∃ v, op.compute vs = .ok v ∧ op.compute ws = .ok v

theorem IsSymmetric.call (h : op.IsSymmetric) (hbounded : ∀ v ∈ vs, v.Bounded)
    (hperm : vs.Perm ws) :
    (∃ v, op.call vs = .ok v ∧ op.call ws = .ok v) ∨
      ∃ fault fault', op.call vs = .error fault ∧ op.call ws = .error fault' ∧
        Refuses op.name fault ∧ Refuses op.name fault' := by
  by_cases hadmits : op.Admits vs
  · rw [call_of_admits hadmits, call_of_admits (hadmits.perm hperm)]
    exact .inl (h vs ws hbounded hadmits hperm)
  · obtain ⟨fault, hfault, hrefuses⟩ := exists_refuses hadmits
    obtain ⟨fault', hfault', hrefuses'⟩ :=
      exists_refuses fun hadmits' => hadmits (hadmits'.perm hperm.symm)
    exact .inr ⟨fault, fault', hfault, hfault', hrefuses, hrefuses'⟩

section Families

variable {name description : String} {arity : Arity}

theorem exists_booleans_perm (h : ∀ v ∈ vs, booleansOnly v.kind = true) (hperm : vs.Perm ws) :
    ∃ as bs : List Bool, vs = as.map .boolean ∧ ws = bs.map .boolean ∧ as.Perm bs := by
  obtain ⟨as, rfl⟩ := exists_booleans h
  obtain ⟨bs, rfl⟩ := exists_booleans fun w hw => h w (hperm.mem_iff.mpr hw)
  exact ⟨as, bs, rfl, rfl, (List.map_perm_map_iff fun _ _ => Value.boolean.inj).mp hperm⟩

theorem exists_integers_perm (h : ∀ v ∈ vs, integersOnly v.kind = true) (hperm : vs.Perm ws) :
    ∃ ms ns : List Int, vs = ms.map .integer ∧ ws = ns.map .integer ∧ ms.Perm ns := by
  obtain ⟨ms, rfl⟩ := exists_integers h
  obtain ⟨ns, rfl⟩ := exists_integers fun w hw => h w (hperm.mem_iff.mpr hw)
  exact ⟨ms, ns, rfl, rfl, (List.map_perm_map_iff fun _ _ => Value.integer.inj).mp hperm⟩

/-- Operators on integers that take at least one have a first operand in each order. -/
theorem Admits.exists_cons_perm {compute : Meaning} (harity : 0 < arity.least)
    (hadmits : Admits ⟨name, arity, integersOnly, compute, description⟩ vs) (hperm : vs.Perm ws) :
    ∃ m ms n ns, vs = List.map .integer (m :: ms) ∧ ws = List.map .integer (n :: ns) ∧
      (m :: ms).Perm (n :: ns) := by
  obtain ⟨ms, ns, rfl, rfl, hnumbers⟩ := exists_integers_perm hadmits.kinds hperm
  have hcount := (Arity.accepts_iff.mp hadmits.count).1
  cases ms with
  | nil => exact absurd hcount (Nat.not_le.mpr harity)
  | cons m ms =>
    cases ns with
    | nil => exact absurd hnumbers.length_eq (Nat.succ_ne_zero _)
    | cons n ns => exact ⟨m, ms, n, ns, rfl, rfl, hnumbers⟩

theorem isSymmetric_logic {f : List Value → Bool}
    (hf : ∀ as bs : List Bool, as.Perm bs → f (as.map .boolean) = f (bs.map .boolean)) :
    IsSymmetric ⟨name, arity, booleansOnly, fun vs => .ok (.boolean (f vs)), description⟩ := by
  intro vs ws _ hadmits hperm
  obtain ⟨as, bs, rfl, rfl, htruths⟩ := exists_booleans_perm hadmits.kinds hperm
  refine ⟨_, rfl, ?_⟩
  rw [hf as bs htruths]

theorem isSymmetric_bitwise {step : Int → Int → Int} (harity : 0 < arity.least)
    (hstep : KeepsRange step)
    (hfold : ∀ m ms n ns, (m :: ms).Perm (n :: ns) → ms.foldl step m = ns.foldl step n) :
    IsSymmetric ⟨name, arity, integersOnly, bitwise name step, description⟩ := by
  intro vs ws hbounded hadmits hperm
  obtain ⟨m, ms, n, ns, rfl, rfl, hnumbers⟩ := hadmits.exists_cons_perm harity hperm
  have hms : ∀ k ∈ m :: ms, (Value.integer k).Bounded := fun k hk =>
    hbounded _ (List.mem_map_of_mem hk)
  have hns : ∀ k ∈ n :: ns, (Value.integer k).Bounded := fun k hk =>
    hms k (hnumbers.mem_iff.mpr hk)
  refine ⟨_, hstep.bitwise_eq hms, ?_⟩
  rw [hfold m ms n ns hnumbers]
  exact hstep.bitwise_eq hns

theorem isSymmetric_best {beats : Int → Int → Bool} (harity : 0 < arity.least)
    (hirrefl : ∀ m, beats m m = false)
    (htrans : ∀ a b c, beats a b = true → beats b c = true → beats a c = true)
    (hantisymm : ∀ a b, beats a b = false → beats b a = false → a = b) :
    IsSymmetric ⟨name, arity, integersOnly, best name beats, description⟩ := by
  intro vs ws _ hadmits hperm
  obtain ⟨m, ms, n, ns, rfl, rfl, hnumbers⟩ := hadmits.exists_cons_perm harity hperm
  -- neither choice beats the other one, which is among its operands too
  have hsame := hantisymm _ _
    (unbeaten_foldl_best hirrefl htrans n ns _
      (hnumbers.mem_iff.mp (foldl_best hirrefl htrans m ms).1))
    (unbeaten_foldl_best hirrefl htrans m ms _
      (hnumbers.mem_iff.mpr (foldl_best hirrefl htrans n ns).1))
  change ∃ v, best name beats (List.map .integer (m :: ms)) = .ok v ∧
    best name beats (List.map .integer (n :: ns)) = .ok v
  rw [best_integers, best_integers, hsame]
  exact ⟨_, rfl, rfl⟩

end Families

section Bits

/-- Integers with the same bits are the same. -/
theorem eq_of_testBit_eq {a b : Int} (h : ∀ i, a.testBit i = b.testBit i) : a = b := by
  -- far enough up the bits of a number are those of its sign
  have hfar : ∀ m n : Nat, m.testBit (max m n) = false ∧ n.testBit (max m n) = false := fun m n =>
    ⟨Nat.testBit_eq_false_of_lt (Nat.lt_of_le_of_lt (Nat.le_max_left m n) Nat.lt_two_pow_self),
      Nat.testBit_eq_false_of_lt (Nat.lt_of_le_of_lt (Nat.le_max_right m n) Nat.lt_two_pow_self)⟩
  cases a with
  | ofNat m =>
    cases b with
    | ofNat n => exact congrArg Int.ofNat (Nat.eq_of_testBit_eq h)
    | negSucc n =>
      have hsign := h (max m n)
      simp only [Int.testBit, hfar m n] at hsign
      cases hsign
  | negSucc m =>
    cases b with
    | ofNat n =>
      have hsign := h (max m n)
      simp only [Int.testBit, hfar m n] at hsign
      cases hsign
    | negSucc n =>
      exact congrArg Int.negSucc (Nat.eq_of_testBit_eq fun i => Bool.not_inj (h i))

/-- A fold is that of every order of its numbers if their order does not matter for its bits. -/
theorem foldl_perm_of_testBit {step : Int → Int → Int} {P : List Int → Nat → Prop}
    (hbits : ∀ n ns i, (ns.foldl step n).testBit i = true ↔ P (n :: ns) i)
    (hP : ∀ ms ns i, ms.Perm ns → (P ms i ↔ P ns i)) (m : Int) (ms : List Int) (n : Int)
    (ns : List Int) (hperm : (m :: ms).Perm (n :: ns)) : ms.foldl step m = ns.foldl step n := by
  refine eq_of_testBit_eq fun i => Bool.eq_iff_iff.mpr ?_
  rw [hbits, hbits, hP _ _ i hperm]

end Bits

/-- The operators whose results do not depend on the order of their operands. -/
def symmetricNames : List String :=
  ["and", "or", "xor", "bitand", "bitor", "bitxor", "min", "max"]

theorem exists_isSymmetric : ∀ name ∈ symmetricNames,
    ∃ op, OperatorRegistry.builtin.get? name = some op ∧ op.name = name ∧ op.IsSymmetric := by
  have hless : ∀ a b : Int, ¬ a < b → ¬ b < a → a = b := by omega
  simp only [symmetricNames, List.forall_mem_cons]
  refine ⟨⟨_, rfl, rfl, isSymmetric_logic fun as bs hperm => ?_⟩,
    ⟨_, rfl, rfl, isSymmetric_logic fun as bs hperm => ?_⟩,
    ⟨_, rfl, rfl, isSymmetric_logic fun as bs hperm => ?_⟩,
    ⟨_, rfl, rfl, isSymmetric_bitwise Nat.two_pos keepsRange_and ?_⟩,
    ⟨_, rfl, rfl, isSymmetric_bitwise Nat.two_pos keepsRange_or ?_⟩,
    ⟨_, rfl, rfl, isSymmetric_bitwise Nat.two_pos keepsRange_xor ?_⟩,
    ⟨_, rfl, rfl, isSymmetric_best Nat.one_pos ?_ ?_ ?_⟩,
    ⟨_, rfl, rfl, isSymmetric_best Nat.one_pos ?_ ?_ ?_⟩, List.forall_mem_nil _⟩
  · exact (hperm.map _).all_eq
  · exact (hperm.map _).any_eq
  · exact Bool.eq_iff_iff.mpr (by rw [parity_iff, parity_iff, hperm.count_eq])
  · exact foldl_perm_of_testBit (P := fun ns i => ∀ n ∈ ns, n.testBit i = true)
      (fun n ns _ => testBit_foldl_and n ns) fun ms ns i hperm => by simp only [hperm.mem_iff]
  · exact foldl_perm_of_testBit (P := fun ns i => ∃ n ∈ ns, n.testBit i = true)
      (fun n ns _ => testBit_foldl_or n ns) fun ms ns i hperm => by simp only [hperm.mem_iff]
  · exact foldl_perm_of_testBit (P := fun ns i => Odd (ns.countP (·.testBit i)))
      (fun n ns _ => testBit_foldl_xor n ns) fun ms ns i hperm => by rw [hperm.countP_eq]
  · simp
  · simpa using fun a b c => Int.lt_trans
  · simpa using hless
  · simp
  · simpa using fun a b c hab hbc => Int.lt_trans hbc hab
  · simpa using fun a b hab hba => hless a b hba hab

section Totals

variable {name description : String} {step : Int → Int → Int} {total : List Int → Int}
  {ns : List Int}

/-- The operators that add or multiply their operands up. -/
inductive Totals : String → (List Int → Int) → Prop
  | add : Totals "add" List.sum
  | mul : Totals "mul" List.prod

/-- The total of some first operands, at least two, is out of range. -/
def Overflows (total : List Int → Int) (ns : List Int) : Prop :=
  ∃ head, head <+: ns ∧ 2 ≤ head.length ∧ ¬ (Value.integer (total head)).Bounded

/-- What is checked of a fold are the totals of two and more first operands. -/
theorem overflows_cons (hfold : ∀ n ns, ns.foldl step n = total (n :: ns)) {n : Int} :
    Overflows total (n :: ns) ↔
      ∃ head, head <+: ns ∧ head ≠ [] ∧ ¬ (Value.integer (head.foldl step n)).Bounded := by
  constructor
  · rintro ⟨head, hpre, hcount, hout⟩
    obtain rfl | ⟨rest, rfl, hrest⟩ := List.prefix_cons_iff.mp hpre
    · cases hcount
    · refine ⟨rest, hrest, ?_, hfold n rest ▸ hout⟩
      rintro rfl
      exact Nat.not_succ_le_self 1 hcount
  · rintro ⟨head, hpre, hne, hout⟩
    have hlength : 0 < head.length := List.length_pos_iff.mpr hne
    exact ⟨n :: head, List.cons_prefix_cons.mpr ⟨rfl, hpre⟩, Nat.succ_le_succ hlength,
      hfold n head ▸ hout⟩

theorem arithmetic_of_not_overflows (hfold : ∀ n ns, ns.foldl step n = total (n :: ns))
    (hcount : 2 ≤ ns.length) (h : ¬ Overflows total ns) :
    arithmetic name step (ns.map .integer) = .ok (.integer (total ns)) := by
  cases ns with
  | nil => cases hcount
  | cons n ns =>
    rw [overflows_cons hfold] at h
    rw [← hfold]
    refine (fold_eq_ok (by rw [all_isBoolean_integers, Bool.and_false])).mpr ⟨rfl, ?_⟩
    intro head hpre hne
    by_contra hout
    exact h ⟨head, hpre, hne, hout⟩

theorem arithmetic_of_overflows (hfold : ∀ n ns, ns.foldl step n = total (n :: ns))
    (h : Overflows total ns) :
    ∃ cause, arithmetic name step (ns.map .integer) = .error (.overflow cause) := by
  cases ns with
  | nil =>
    obtain ⟨head, hpre, hcount, _⟩ := h
    rw [List.prefix_nil.mp hpre] at hcount
    cases hcount
  | cons n ns =>
    obtain ⟨head, hpre, hne, hout⟩ := (overflows_cons hfold).mp h
    have hkeeps : (((n :: ns).map Value.integer).length == 1 &&
        ((n :: ns).map Value.integer).all Value.isBoolean) = false := by
      rw [all_isBoolean_integers, Bool.and_false]
    cases hresult : arithmetic name step ((n :: ns).map .integer) with
    | ok v => exact absurd (((fold_eq_ok hkeeps).mp hresult).2 head hpre hne) hout
    | error fault =>
      obtain ⟨_, _, _, rfl⟩ := fold_eq_error hkeeps hresult
      exact ⟨_, rfl⟩

theorem Overflows.two_le_length (h : Overflows total ns) : 2 ≤ ns.length := by
  obtain ⟨head, hpre, hcount, _⟩ := h
  exact Nat.le_trans hcount hpre.length_le

theorem admits_integers_iff {compute : Meaning} :
    Admits ⟨name, .atLeast 2, integersOnly, compute, description⟩ vs ↔
      ∃ ns, vs = List.map .integer ns ∧ 2 ≤ ns.length := by
  constructor
  · intro h
    obtain ⟨ns, rfl⟩ := exists_integers h.kinds
    exact ⟨ns, rfl, by simpa using Arity.accepts_atLeast.mp h.count⟩
  · rintro ⟨ns, rfl, hcount⟩
    refine ⟨Arity.accepts_atLeast.mpr (by simpa using hcount), fun v hv => ?_⟩
    obtain ⟨n, _, rfl⟩ := List.mem_map.mp hv
    rfl

/-- An operator comes to the total of two or more integers, unless a partial total is out of
range. -/
structure IsTotal (op : Operator) (total : List Int → Int) : Prop where
  admits : ∀ vs, op.Admits vs ↔ ∃ ns, vs = List.map .integer ns ∧ 2 ≤ ns.length
  overflow : ∀ ns, Overflows total ns →
    ∃ cause, op.call (ns.map .integer) = .error (.overflow cause)
  result : ∀ ns, 2 ≤ ns.length → ¬ Overflows total ns →
    op.call (ns.map .integer) = .ok (.integer (total ns))

theorem isTotal_arithmetic (hfold : ∀ n ns, ns.foldl step n = total (n :: ns)) :
    IsTotal ⟨name, .atLeast 2, integersOnly, arithmetic name step, description⟩ total where
  admits _ := admits_integers_iff
  overflow ns h := by
    rw [call_of_admits (admits_integers_iff.mpr ⟨ns, rfl, h.two_le_length⟩)]
    exact arithmetic_of_overflows hfold h
  result ns hcount h := by
    rw [call_of_admits (admits_integers_iff.mpr ⟨ns, rfl, hcount⟩)]
    exact arithmetic_of_not_overflows hfold hcount h

theorem Totals.exists_isTotal (h : Totals name total) :
    ∃ op, OperatorRegistry.builtin.get? name = some op ∧ op.IsTotal total ∧
      ∀ ms ns : List Int, ms.Perm ns → total ms = total ns := by
  cases h with
  | add => exact ⟨_, rfl, isTotal_arithmetic foldl_add, fun ms ns hperm => hperm.sum_eq⟩
  | mul => exact ⟨_, rfl, isTotal_arithmetic foldl_mul, fun ms ns hperm => hperm.prod_eq⟩

namespace IsTotal

variable (h : op.IsTotal total)
include h

theorem call_eq_overflow_iff : (∃ cause, op.call vs = .error (.overflow cause)) ↔
    ∃ ns, vs = List.map .integer ns ∧ Overflows total ns := by
  constructor
  · rintro ⟨cause, hcall⟩
    by_cases hadmits : op.Admits vs
    · obtain ⟨ns, rfl, hcount⟩ := (h.admits vs).mp hadmits
      refine ⟨ns, rfl, by_contra fun hfits => ?_⟩
      rw [h.result ns hcount hfits] at hcall
      cases hcall
    · obtain ⟨fault, hfault, hrefuses⟩ := exists_refuses hadmits
      obtain rfl := Except.error.inj (hfault.symm.trans hcall)
      cases hrefuses
  · rintro ⟨ns, rfl, hover⟩
    exact h.overflow ns hover

theorem eq_total_of_call_eq_ok {v : Value} (hcall : op.call vs = .ok v) :
    ∃ ns, vs = List.map .integer ns ∧ v = .integer (total ns) := by
  obtain ⟨ns, rfl, hcount⟩ := (h.admits vs).mp (call_eq_ok.mp hcall).1
  refine ⟨ns, rfl, ?_⟩
  by_cases hover : Overflows total ns
  · obtain ⟨cause, hcause⟩ := h.overflow ns hover
    cases hcause.symm.trans hcall
  · exact Except.ok.inj (hcall.symm.trans (h.result ns hcount hover))

/-- If another order of the operands has a result, they can only fail for an overflow. -/
theorem eq_overflow_of_perm {fault : Fault} {w : Value} (hperm : vs.Perm ws)
    (hcall : op.call vs = .error fault) (hother : op.call ws = .ok w) :
    ∃ cause, fault = .overflow cause := by
  obtain ⟨ns, rfl, hcount⟩ := (h.admits vs).mp ((call_eq_ok.mp hother).1.perm hperm.symm)
  by_cases hover : Overflows total ns
  · obtain ⟨cause, hcause⟩ := h.overflow ns hover
    exact ⟨cause, Except.error.inj (hcall.symm.trans hcause)⟩
  · cases hcall.symm.trans (h.result ns hcount hover)

end IsTotal

end Totals

/-- Operands in range in two orders. Logical and bitwise operators and choices of a least or
greatest operand have the same result for both or refuse both for the count or the kinds of the
operands. Sums and products agree where there are both. If there is just one, the other order
overflows, which happens exactly if the sum or product of some first operands, at least two, is out
of range. -/
theorem call?_reordered (hbounded : ∀ v ∈ vs, v.Bounded) (hperm : vs.Perm ws) :
    (∀ name ∈ symmetricNames,
      (∃ v, OperatorRegistry.builtin.call? name vs = some (.ok v) ∧
        OperatorRegistry.builtin.call? name ws = some (.ok v)) ∨
      ∃ fault fault', OperatorRegistry.builtin.call? name vs = some (.error fault) ∧
        OperatorRegistry.builtin.call? name ws = some (.error fault') ∧
        Refuses name fault ∧ Refuses name fault') ∧
    ∀ name total, Totals name total →
      (∀ v w, OperatorRegistry.builtin.call? name vs = some (.ok v) →
        OperatorRegistry.builtin.call? name ws = some (.ok w) → v = w) ∧
      (∀ fault w, OperatorRegistry.builtin.call? name vs = some (.error fault) →
        OperatorRegistry.builtin.call? name ws = some (.ok w) → ∃ cause, fault = .overflow cause) ∧
      ((∃ cause, OperatorRegistry.builtin.call? name vs = some (.error (.overflow cause))) ↔
        ∃ ns, vs = List.map .integer ns ∧ Overflows total ns) := by
  refine ⟨fun name hname => ?_, fun name total htotal => ?_⟩
  · obtain ⟨op, hget, rfl, hsymmetric⟩ := exists_isSymmetric name hname
    simpa only [OperatorRegistry.call?, hget, Option.map_some, Option.some.injEq] using
      hsymmetric.call hbounded hperm
  · obtain ⟨op, hget, htotals, htotal⟩ := htotal.exists_isTotal
    simp only [OperatorRegistry.call?, hget, Option.map_some, Option.some.injEq]
    refine ⟨fun v w hv hw => ?_, fun fault w => htotals.eq_overflow_of_perm hperm,
      htotals.call_eq_overflow_iff⟩
    obtain ⟨ms, rfl, rfl⟩ := htotals.eq_total_of_call_eq_ok hv
    obtain ⟨ns, rfl, rfl⟩ := htotals.eq_total_of_call_eq_ok hw
    rw [htotal ms ns ((List.map_perm_map_iff fun _ _ => Value.integer.inj).mp hperm)]

/-- A zero among the factors saves a product only if it comes early enough. -/
theorem call?_reordered_zeroFactor :
    (∀ v ∈ [Value.integer (2 ^ 126), .integer 4, .integer 0], v.Bounded) ∧
    [Value.integer (2 ^ 126), .integer 4, .integer 0].Perm
      [.integer (2 ^ 126), .integer 0, .integer 4] ∧
    (∃ cause, OperatorRegistry.builtin.call? "mul" [.integer (2 ^ 126), .integer 4, .integer 0] =
      some (.error (.overflow cause))) ∧
    OperatorRegistry.builtin.call? "mul" [.integer (2 ^ 126), .integer 0, .integer 4] =
      some (.ok (.integer 0)) ∧
    ∃ fault, OperatorRegistry.builtin.call? "xor" [.integer (2 ^ 126), .integer 4, .integer 0] =
      some (.error fault) ∧ Refuses "xor" fault := by
  have hbounded : ∀ v ∈ [Value.integer (2 ^ 126), .integer 4, .integer 0], v.Bounded := by
    simp [Value.Bounded]
  have hperm : [Value.integer (2 ^ 126), .integer 4, .integer 0].Perm
      [.integer (2 ^ 126), .integer 0, .integer 4] := (List.Perm.swap _ _ _).cons _
  obtain ⟨hsymmetric, htotals⟩ := call?_reordered hbounded hperm
  obtain ⟨_, _, hoverflow⟩ := htotals "mul" List.prod .mul
  refine ⟨hbounded, hperm,
    hoverflow.mpr ⟨[2 ^ 126, 4, 0], rfl, [2 ^ 126, 4], ?_, Nat.le_refl 2, ?_⟩, rfl, ?_⟩
  · exact ⟨[0], rfl⟩
  · simp [Value.Bounded]
  · rcases hsymmetric "xor" (by decide) with ⟨v, hv, _⟩ | ⟨fault, _, hfault, _, hrefuses, _⟩
    · cases hv
    · exact ⟨fault, hfault, hrefuses⟩

end SharedConstants.Operator
