import SharedConstants.Proofs.Operator.Exact

/-!
# Bitwise operators

An integer is one of 128 bits if its bits from the last one on are all the same. What is computed
bit by bit from such integers has the same property, so bitwise operators never leave the range.
-/
namespace SharedConstants.Operator

variable {step : Int → Int → Int} {n : Int} {ns : List Int}

theorem lt_two_pow_iff_testBit {m k : Nat} :
    m < 2 ^ k ↔ ∀ i, k ≤ i → m.testBit i = m.testBit k := by
  constructor
  · intro h i hi
    have hpow : 2 ^ k ≤ 2 ^ i := Nat.pow_le_pow_right Nat.two_pos hi
    rw [Nat.testBit_eq_false_of_lt h, Nat.testBit_eq_false_of_lt (Nat.lt_of_lt_of_le h hpow)]
  · intro h
    -- far enough up no bit is set
    have hfar : m.testBit (max k m) = false :=
      Nat.testBit_eq_false_of_lt (Nat.lt_of_lt_of_le Nat.lt_two_pow_self
        (Nat.pow_le_pow_right Nat.two_pos (Nat.le_max_right k m)))
    refine Nat.lt_pow_two_of_testBit m fun i hi => ?_
    rw [h i hi, ← h _ (Nat.le_max_left k m), hfar]

/-- The bits of an integer in range repeat from the last one on. -/
theorem bounded_iff_testBit :
    (Value.integer n).Bounded ↔ ∀ i, 127 ≤ i → n.testBit i = n.testBit 127 := by
  cases n with
  | ofNat m =>
    have hsize : (Value.integer (Int.ofNat m)).Bounded ↔ m < 2 ^ 127 := by
      simp only [Value.Bounded, Int.ofNat_eq_natCast]
      omega
    rw [hsize, lt_two_pow_iff_testBit]
    rfl
  | negSucc m =>
    have hsize : (Value.integer (Int.negSucc m)).Bounded ↔ m < 2 ^ 127 := by
      simp only [Value.Bounded]
      omega
    rw [hsize, lt_two_pow_iff_testBit]
    simp only [Int.testBit, Bool.not_inj_iff]

/-- A step that leads from integers in range to one in range. -/
def KeepsRange (step : Int → Int → Int) : Prop :=
  ∀ m n, (Value.integer m).Bounded → (Value.integer n).Bounded →
    (Value.integer (step m n)).Bounded

/-- A step that works bit by bit keeps the range. -/
theorem keepsRange_of_testBit {f : Bool → Bool → Bool}
    (hbit : ∀ m n i, (step m n).testBit i = f (m.testBit i) (n.testBit i)) : KeepsRange step := by
  intro m n hm hn
  refine bounded_iff_testBit.mpr fun i hi => ?_
  rw [hbit, hbit, bounded_iff_testBit.mp hm i hi, bounded_iff_testBit.mp hn i hi]

theorem keepsRange_and : KeepsRange Bits.and :=
  keepsRange_of_testBit (f := and) fun m n i => by simp only [← bit_eq_testBit, Bits.bit_and]

theorem keepsRange_or : KeepsRange Bits.or :=
  keepsRange_of_testBit (f := or) fun m n i => by simp only [← bit_eq_testBit, Bits.bit_or]

theorem keepsRange_xor : KeepsRange Bits.xor :=
  keepsRange_of_testBit (f := Bool.xor) fun m n i => by simp only [← bit_eq_testBit, Bits.bit_xor]

theorem KeepsRange.foldl (hstep : KeepsRange step) (hn : (Value.integer n).Bounded)
    (hns : ∀ m ∈ ns, (Value.integer m).Bounded) : (Value.integer (ns.foldl step n)).Bounded := by
  induction ns generalizing n with
  | nil => exact hn
  | cons m ns ih =>
    obtain ⟨hm, hns⟩ := List.forall_mem_cons.mp hns
    exact ih (hstep n m hn hm) hns

/-- No check of a partial result stops a fold whose step keeps the range. -/
theorem KeepsRange.bitwise_eq {name : String} (hstep : KeepsRange step)
    (h : ∀ m ∈ n :: ns, (Value.integer m).Bounded) :
    bitwise name step ((n :: ns).map .integer) = .ok (.integer (ns.foldl step n)) := by
  obtain ⟨hn, hns⟩ := List.forall_mem_cons.mp h
  refine (fold_eq_ok (all_isBoolean_integers n ns)).mpr ⟨rfl, fun head hpre _ => ?_⟩
  exact hstep.foldl hn fun m hm => hns m (hpre.subset hm)

/-- What the operator of a name comes to whose step keeps the range. -/
theorem KeepsRange.exists_call? {description : String} {P : List Int → Nat → Prop} (name : String)
    (hstep : KeepsRange step)
    (hget : OperatorRegistry.builtin.get? name =
      some ⟨name, .atLeast 2, integersOnly, bitwise name step, description⟩)
    (hbits : ∀ n ns i, (ns.foldl step n).testBit i = true ↔ P (n :: ns) i)
    (hcount : 2 ≤ ns.length) (hns : ∀ n ∈ ns, (Value.integer n).Bounded) :
    ∃ r, OperatorRegistry.builtin.call? name (ns.map .integer) = some (.ok (.integer r)) ∧
      (Value.integer r).Bounded ∧ ∀ i, r.testBit i = true ↔ P ns i := by
  have hcall := OperatorRegistry.call?_integers ns hget (Arity.accepts_atLeast.mpr hcount)
  cases ns with
  | nil => cases hcount
  | cons n ns =>
    obtain ⟨hn, hrest⟩ := List.forall_mem_cons.mp hns
    rw [hstep.bitwise_eq hns] at hcall
    exact ⟨_, hcall, hstep.foldl hn hrest, hbits n ns⟩

/-- On two or more integers in range the bitwise operators never fail. Each bit of the result, which
is in range too, is the conjunction, the disjunction or the parity of the bits in its place. -/
theorem call?_bitwise (hcount : 2 ≤ ns.length) (hns : ∀ n ∈ ns, (Value.integer n).Bounded) :
    (∃ r, OperatorRegistry.builtin.call? "bitand" (ns.map .integer) = some (.ok (.integer r)) ∧
      (Value.integer r).Bounded ∧ ∀ i, r.testBit i = true ↔ ∀ n ∈ ns, n.testBit i = true) ∧
    (∃ r, OperatorRegistry.builtin.call? "bitor" (ns.map .integer) = some (.ok (.integer r)) ∧
      (Value.integer r).Bounded ∧ ∀ i, r.testBit i = true ↔ ∃ n ∈ ns, n.testBit i = true) ∧
    ∃ r, OperatorRegistry.builtin.call? "bitxor" (ns.map .integer) = some (.ok (.integer r)) ∧
      (Value.integer r).Bounded ∧ ∀ i, r.testBit i = true ↔ Odd (ns.countP (·.testBit i)) := by
  refine ⟨?_, ?_, ?_⟩
  · exact keepsRange_and.exists_call? "bitand" (P := fun ns i => ∀ n ∈ ns, n.testBit i = true)
      rfl (fun n ns _ => testBit_foldl_and n ns) hcount hns
  · exact keepsRange_or.exists_call? "bitor" (P := fun ns i => ∃ n ∈ ns, n.testBit i = true)
      rfl (fun n ns _ => testBit_foldl_or n ns) hcount hns
  · exact keepsRange_xor.exists_call? "bitxor" (P := fun ns i => Odd (ns.countP (·.testBit i)))
      rfl (fun n ns _ => testBit_foldl_xor n ns) hcount hns

/-- The least integer with others of both signs. -/
theorem call?_bitwise_least : 2 ≤ [-2 ^ 127, 5, -1].length ∧
    (∀ n ∈ [-2 ^ 127, 5, -1], (Value.integer n).Bounded) ∧
    ∃ r, OperatorRegistry.builtin.call? "bitxor"
        [.integer (-2 ^ 127), .integer 5, .integer (-1)] = some (.ok (.integer r)) ∧
      (Value.integer r).Bounded ∧ r.testBit 1 = true ∧ r.testBit 127 = false := by
  have hbounded : ∀ n ∈ [-2 ^ 127, 5, -1], (Value.integer n).Bounded := by
    simp [Value.Bounded]
  obtain ⟨-, -, r, hr, hrange, hbits⟩ := call?_bitwise (by decide) hbounded
  refine ⟨by decide, hbounded, r, hr, hrange, (hbits 1).mpr (by decide), ?_⟩
  exact Bool.eq_false_iff.mpr fun h => absurd ((hbits 127).mp h) (by decide)

end SharedConstants.Operator
