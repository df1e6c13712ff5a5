import SharedConstants.Proofs.Operator.Exact

/-!
# Failures of the built-in operators

Once the count and the kinds of its operands are accepted, a built-in operator fails only for
operands of mixed kinds, for an exact result out of range, for a division by zero or for a negative
shift. It then says which.
-/
namespace SharedConstants.Operator

/-- The faults of a built-in operator on operands that it admits. Of an overflow the number is
named that is out of range: the exact result of the operator on all operands or on the first of
them. A shift by 128 or more names what is shifted instead. -/
inductive Raises : String → List Value → Fault → Prop
  | mixedKinds {a b : Value} : a.kind ≠ b.kind →
    Raises "eq" [a, b] (.operand "eq" (.mixedKinds a.kind b.kind))
  | outside {name : String} {vs head : List Value} {n : Int} : head <+: vs →
    Exact name head (.integer n) → ¬ (Value.integer n).Bounded →
    Raises name vs (.overflow (.outside (resultOf name) n))
  | shift {m n : Int} {k : Nat} : Exact "shl" [.integer m, .integer k] (.integer n) →
    ¬ (Value.integer n).Bounded → 128 ≤ k →
    Raises "shl" [.integer m, .integer k] (.overflow (.shift (.integer m) k))
  | divisionByZero {name : String} (m : Int) : name ∈ ["div", "mod"] →
    Raises name [.integer m, .integer 0] (.divisionByZero name)
  | negativeShift {name : String} (m : Int) {k : Int} : name ∈ ["shl", "shr"] → k < 0 →
    Raises name [.integer m, .integer k] (.evaluation (.negativeShift name k))

/-- On operands that it admits, an operator has no other faults. -/
def OnlyRaises (op : Operator) : Prop :=
  ∀ vs fault, op.Admits vs → op.compute vs = .error fault → Raises op.name vs fault

theorem result_eq_error {name : String} {n : Int} {fault : Fault} :
    result name n = .error fault ↔
      ¬ (Value.integer n).Bounded ∧ fault = .overflow (.outside (resultOf name) n) := by
  rw [← Value.checkRange_eq_error, result]
  cases Value.checkRange (resultOf name) n <;> simp [Except.map]

section Folds

variable {name description : String} {arity : Arity} {step : Int → Int → Int}
  {keepsTruth : List Value → Bool}

/-- A checked fold fails at a partial result that is out of range. -/
theorem foldlM_checkRange_eq_error {what : String} {n : Int} {ns : List Int} {fault : Fault}
    (h : (ns.map Value.integer).foldlM
      (fun acc w => Value.checkRange what (step acc w.number)) n = .error fault) :
    ∃ head, head <+: ns ∧ ¬ (Value.integer (head.foldl step n)).Bounded ∧
      fault = .overflow (.outside what (head.foldl step n)) := by
  induction ns generalizing n with
  | nil => cases h
  | cons m ns ih =>
    simp only [List.map_cons, List.foldlM_cons, Value.number_integer] at h
    cases hcheck : Value.checkRange what (step n m) with
    | error first =>
      obtain rfl : first = fault := by simpa [hcheck, bind, Except.bind] using h
      exact ⟨[m], by simp, Value.checkRange_eq_error.mp hcheck⟩
    | ok a =>
      obtain ⟨rfl, _⟩ := Value.checkRange_eq_ok.mp hcheck
      rw [hcheck] at h
      obtain ⟨head, hpre, hfault⟩ := ih h
      exact ⟨m :: head, List.cons_prefix_cons.mpr ⟨rfl, hpre⟩, hfault⟩

theorem fold_eq_error {n : Int} {ns : List Int} {fault : Fault}
    (hkeeps : keepsTruth ((n :: ns).map .integer) = false)
    (h : fold name step keepsTruth ((n :: ns).map .integer) = .error fault) :
    ∃ head, head <+: ns ∧ ¬ (Value.integer (head.foldl step n)).Bounded ∧
      fault = .overflow (.outside (resultOf name) (head.foldl step n)) := by
  rw [List.map_cons] at hkeeps
  simp only [List.map_cons, fold, Value.number_integer, hkeeps] at h
  cases hfold : (ns.map Value.integer).foldlM
      (fun acc w => Value.checkRange (resultOf name) (step acc w.number)) n with
  | ok r => simp [hfold, bind, Except.bind] at h
  | error first =>
    obtain rfl : first = fault := by simpa [hfold, bind, Except.bind] using h
    exact foldlM_checkRange_eq_error hfold

theorem onlyRaises_fold (harity : 0 < arity.least)
    (hkeeps : ∀ n ns, keepsTruth (List.map .integer (n :: ns)) = false)
    (hexact : ∀ n ns, Exact name (List.map .integer (n :: ns)) (.integer (ns.foldl step n))) :
    OnlyRaises ⟨name, arity, integersOnly, fold name step keepsTruth, description⟩ := by
  intro vs fault hadmits h
  obtain ⟨ns, rfl⟩ := exists_integers hadmits.kinds
  cases ns with
  | nil => exact absurd (Arity.accepts_iff.mp hadmits.count).1 (Nat.not_le.mpr harity)
  | cons n ns =>
    obtain ⟨head, hpre, hout, rfl⟩ := fold_eq_error (hkeeps n ns) h
    exact .outside ((List.cons_prefix_cons.mpr ⟨rfl, hpre⟩).map _) (hexact n head) hout

theorem onlyRaises_arithmetic (harity : 0 < arity.least)
    (hexact : ∀ n ns, Exact name (List.map .integer (n :: ns)) (.integer (ns.foldl step n))) :
    OnlyRaises ⟨name, arity, integersOnly, arithmetic name step, description⟩ :=
  onlyRaises_fold harity (fun n ns => by rw [all_isBoolean_integers, Bool.and_false]) hexact

theorem onlyRaises_bitwise (harity : 0 < arity.least)
    (hexact : ∀ n ns, Exact name (List.map .integer (n :: ns)) (.integer (ns.foldl step n))) :
    OnlyRaises ⟨name, arity, integersOnly, bitwise name step, description⟩ :=
  onlyRaises_fold harity all_isBoolean_integers hexact

end Folds

section Pairs

variable {name description : String}

theorem onlyRaises_binary {f : Value → Value → Except Fault Value}
    (h : ∀ m n fault, f (.integer m) (.integer n) = .error fault →
      Raises name [.integer m, .integer n] fault) :
    OnlyRaises ⟨name, .exactly 2, integersOnly, binary name f, description⟩ := by
  intro vs fault hadmits hfault
  obtain ⟨ns, rfl⟩ := exists_integers hadmits.kinds
  have hcount : 2 = ns.length := by simpa using Arity.accepts_exactly.mp hadmits.count
  obtain ⟨m, n, rfl⟩ := List.length_eq_two.mp hcount.symm
  exact h m n fault hfault

theorem onlyRaises_division {f : Int → Int → Int} (hname : name ∈ ["div", "mod"])
    (hexact : ∀ m n, n ≠ 0 → Exact name [.integer m, .integer n] (.integer (f m n))) :
    OnlyRaises ⟨name, .exactly 2, integersOnly, binary name fun a b =>
      if b.number = 0 then .error (.divisionByZero name)
      else result name (f a.number b.number), description⟩ := by
  refine onlyRaises_binary fun m n fault h => ?_
  by_cases hn : n = 0
  · obtain rfl : .divisionByZero name = fault := by simpa [hn] using h
    exact hn ▸ .divisionByZero m hname
  · simp only [Value.number_integer, hn, if_false] at h
    obtain ⟨hout, rfl⟩ := result_eq_error.mp h
    exact .outside List.prefix_rfl (hexact m n hn) hout

theorem onlyRaises_divide : OnlyRaises ⟨"div", .exactly 2, integersOnly, divide, description⟩ :=
  onlyRaises_division (by decide) fun m n hn => quotient_eq_tdiv m n ▸ .div m hn

theorem onlyRaises_remainder :
    OnlyRaises ⟨"mod", .exactly 2, integersOnly, remainder, description⟩ :=
  onlyRaises_division (by decide) fun m n hn => residue_eq_tmod m n ▸ .mod m hn

/-- No integer but zero has room to be shifted by the width of all of them. -/
theorem not_bounded_mul_two_pow {m : Int} {k : Nat} (hm : m ≠ 0) (hk : 128 ≤ k) :
    ¬ (Value.integer (m * 2 ^ k)).Bounded := by
  rintro ⟨hleast, hmost⟩
  have hpow : (2 : Int) ^ 128 ≤ 2 ^ k := pow_le_pow_right₀ (by decide) hk
  rcases lt_or_gt_of_ne hm with hneg | hpos
  · have := mul_le_mul_of_nonneg_right (show m ≤ -1 by omega) (show (0 : Int) ≤ 2 ^ k by omega)
    omega
  · have := mul_le_mul_of_nonneg_right (show 1 ≤ m by omega) (show (0 : Int) ≤ 2 ^ k by omega)
    omega

theorem onlyRaises_shiftLeft :
    OnlyRaises ⟨"shl", .exactly 2, integersOnly, shiftLeft, description⟩ := by
  refine onlyRaises_binary fun m n fault h => ?_
  by_cases hn : n < 0
  · obtain rfl : .evaluation (.negativeShift "shl" n) = fault := by simpa [hn] using h
    exact .negativeShift m (by decide) hn
  simp only [Value.number_integer, hn, if_false] at h
  obtain ⟨k, rfl⟩ := Int.eq_ofNat_of_zero_le (Int.not_lt.mp hn)
  by_cases hm : m = 0
  · simp only [hm, if_true] at h
    exact absurd (by simp [Value.Bounded]) (result_eq_error.mp h).1
  by_cases hk : maxShift ≤ k
  · obtain rfl : .overflow (.shift (.integer m) k) = fault := by simpa [hm, hk] using h
    have hwidth : 128 ≤ k := by simpa [maxShift] using hk
    exact .shift (.shl m k) (not_bounded_mul_two_pow hm hwidth) hwidth
  · simp only [hm, hk, if_false] at h
    obtain ⟨hout, rfl⟩ := result_eq_error.mp h
    exact .outside List.prefix_rfl (by simpa using Exact.shl m k) hout

theorem onlyRaises_shiftRight :
    OnlyRaises ⟨"shr", .exactly 2, integersOnly, shiftRight, description⟩ := by
  refine onlyRaises_binary fun m n fault h => ?_
  by_cases hn : n < 0
  · obtain rfl : .evaluation (.negativeShift "shr" n) = fault := by simpa [hn] using h
    exact .negativeShift m (by decide) hn
  · simp [hn] at h

end Pairs

theorem onlyRaises_equal {description : String} :
    OnlyRaises ⟨"eq", .exactly 2, anyKind, equal, description⟩ := by
  intro vs fault hadmits h
  obtain ⟨a, b, rfl⟩ := List.length_eq_two.mp (Arity.accepts_exactly.mp hadmits.count).symm
  simp only [equal] at h
  split at h
  · next hkinds =>
    obtain rfl := Except.error.inj h
    exact .mixedKinds hkinds
  · cases h

theorem onlyRaises_negate {description : String} :
    OnlyRaises ⟨"not", .exactly 1, booleansOnly, negate, description⟩ := by
  intro vs fault hadmits h
  obtain ⟨v, rfl⟩ := List.length_eq_one_iff.mp (Arity.accepts_exactly.mp hadmits.count).symm
  cases h

/-- A choice among integers never fails. -/
theorem onlyRaises_best {name description : String} {arity : Arity} {beats : Int → Int → Bool}
    (harity : 0 < arity.least) :
    OnlyRaises ⟨name, arity, integersOnly, best name beats, description⟩ := by
  intro vs fault hadmits h
  obtain ⟨ns, rfl⟩ := exists_integers hadmits.kinds
  cases ns with
  | nil => exact absurd (Arity.accepts_iff.mp hadmits.count).1 (Nat.not_le.mpr harity)
  | cons n ns =>
    have hbest : best name beats (List.map .integer (n :: ns)) = .ok _ := best_integers n ns
    cases hbest.symm.trans h

/-- Once its operands are admitted, a built-in operator fails as the rules say and never
otherwise. -/
theorem onlyRaises_builtin : ∀ op ∈ builtin, op.OnlyRaises := by
  have htotal : ∀ {name arity accepts description} (f : List Value → Value),
      OnlyRaises ⟨name, arity, accepts, fun vs => .ok (f vs), description⟩ :=
    fun f vs fault _ h => nomatch h
  have hcompare : ∀ {name description} (f : Value → Value → Value),
      OnlyRaises ⟨name, .exactly 2, integersOnly, binary name fun a b => .ok (f a b),
        description⟩ :=
    fun f => onlyRaises_binary fun m n fault h => nomatch h
  simp only [builtin, List.forall_mem_cons]
  exact ⟨onlyRaises_negate, htotal _, htotal _, htotal _,
    onlyRaises_arithmetic (by decide) fun n ns => foldl_add n ns ▸ .add (n :: ns),
    onlyRaises_arithmetic (by decide) fun n ns => foldl_sub n ns ▸ .sub n ns,
    onlyRaises_arithmetic (by decide) fun n ns => foldl_mul n ns ▸ .mul (n :: ns),
    onlyRaises_divide, onlyRaises_remainder, onlyRaises_shiftLeft, onlyRaises_shiftRight,
    onlyRaises_bitwise (by decide) fun n ns => .bitand fun _ => testBit_foldl_and n ns,
    onlyRaises_bitwise (by decide) fun n ns => .bitor fun _ => testBit_foldl_or n ns,
    onlyRaises_bitwise (by decide) fun n ns => .bitxor fun _ => testBit_foldl_xor n ns,
    onlyRaises_best (by decide), onlyRaises_best (by decide), onlyRaises_equal,
    hcompare _, hcompare _, List.forall_mem_nil _⟩

end SharedConstants.Operator
