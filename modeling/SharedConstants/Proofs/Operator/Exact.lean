import Mathlib.Algebra.BigOperators.Group.List.Basic
import Mathlib.Algebra.Group.Nat.Even
import Mathlib.Algebra.Order.Ring.Int
import Mathlib.Data.Int.Bitwise
import Mathlib.Tactic.Linarith
import SharedConstants.Operator.Builtin
import SharedConstants.Proofs.Operator.Application
import SharedConstants.Proofs.Success
import SharedConstants.Proofs.Value

/-!
# Exactness of the built-in operators

A result of a built-in operator is the exact result of the computation it stands for. On integers
of 128 bits it is one itself, and so are the partial results of a fold. Minima, maxima and right
shifts are not checked against the range; they cannot leave it.
-/
namespace SharedConstants.Operator

/-- The exact result of a built-in operator on operands, as a relation of plain numbers and truth
values. Bits are those of two's complement with as many digits as it takes. -/
inductive Exact : String → List Value → Value → Prop
  | not (b : Bool) : Exact "not" [.boolean b] (.boolean !b)
  | and {bs : List Bool} {r : Bool} : (r = true ↔ ∀ b ∈ bs, b = true) →
    Exact "and" (bs.map .boolean) (.boolean r)
  | or {bs : List Bool} {r : Bool} : (r = true ↔ ∃ b ∈ bs, b = true) →
    Exact "or" (bs.map .boolean) (.boolean r)
  | xor {bs : List Bool} {r : Bool} : (r = true ↔ Odd (bs.count true)) →
    Exact "xor" (bs.map .boolean) (.boolean r)
  | add (ns : List Int) : Exact "add" (ns.map .integer) (.integer ns.sum)
  | sub (n : Int) (ns : List Int) :
    Exact "sub" ((n :: ns).map .integer) (.integer (n - ns.sum))
  | mul (ns : List Int) : Exact "mul" (ns.map .integer) (.integer ns.prod)
  | div (m : Int) {n : Int} : n ≠ 0 →
    Exact "div" [.integer m, .integer n] (.integer (m.tdiv n))
  | mod (m : Int) {n : Int} : n ≠ 0 →
    Exact "mod" [.integer m, .integer n] (.integer (m.tmod n))
  | shl (m : Int) (k : Nat) : Exact "shl" [.integer m, .integer k] (.integer (m * 2 ^ k))
  | shr (m : Int) (k : Nat) : Exact "shr" [.integer m, .integer k] (.integer (m / 2 ^ k))
  | bitand {ns : List Int} {r : Int} :
    (∀ i, r.testBit i = true ↔ ∀ n ∈ ns, n.testBit i = true) →
    Exact "bitand" (ns.map .integer) (.integer r)
  | bitor {ns : List Int} {r : Int} :
    (∀ i, r.testBit i = true ↔ ∃ n ∈ ns, n.testBit i = true) →
    Exact "bitor" (ns.map .integer) (.integer r)
  | bitxor {ns : List Int} {r : Int} :
    (∀ i, r.testBit i = true ↔ Odd (ns.countP (·.testBit i))) →
    Exact "bitxor" (ns.map .integer) (.integer r)
  | min {ns : List Int} {r : Int} : r ∈ ns → (∀ n ∈ ns, r ≤ n) →
    Exact "min" (ns.map .integer) (.integer r)
  | max {ns : List Int} {r : Int} : r ∈ ns → (∀ n ∈ ns, n ≤ r) →
    Exact "max" (ns.map .integer) (.integer r)
  | eqInteger (m n : Int) : Exact "eq" [.integer m, .integer n] (.boolean (m = n))
  | eqBoolean (a b : Bool) : Exact "eq" [.boolean a, .boolean b] (.boolean (a = b))
  | lt (m n : Int) : Exact "lt" [.integer m, .integer n] (.boolean (m < n))
  | le (m n : Int) : Exact "le" [.integer m, .integer n] (.boolean (m ≤ n))

/-- A result is exact and in range. Where an operator takes any number of operands, so is what
the first operands alone come to, however many these are. -/
structure Computes (op : Operator) (vs : List Value) (v : Value) : Prop where
  exact : Exact op.name vs v
  bounded : v.Bounded
  heads : op.arity.most = none → ∀ head, head <+: vs → head ≠ [] →
    ∃ w, op.compute head = .ok w ∧ Exact op.name head w ∧ w.Bounded

/-- On operands in range that it admits, an operator computes no result but the exact one. -/
def IsExact (op : Operator) : Prop :=
  ∀ vs v, (∀ w ∈ vs, w.Bounded) → op.Admits vs → op.compute vs = .ok v → op.Computes vs v

section Operands

variable {vs : List Value}

theorem exists_integers (h : ∀ v ∈ vs, integersOnly v.kind = true) :
    ∃ ns : List Int, vs = ns.map .integer := by
  induction vs with
  | nil => exact ⟨[], rfl⟩
  | cons v vs ih =>
    obtain ⟨hv, hvs⟩ := List.forall_mem_cons.mp h
    obtain ⟨ns, rfl⟩ := ih hvs
    cases v with
    | integer n => exact ⟨n :: ns, rfl⟩
    | boolean b => cases hv

theorem exists_booleans (h : ∀ v ∈ vs, booleansOnly v.kind = true) :
    ∃ bs : List Bool, vs = bs.map .boolean := by
  induction vs with
  | nil => exact ⟨[], rfl⟩
  | cons v vs ih =>
    obtain ⟨hv, hvs⟩ := List.forall_mem_cons.mp h
    obtain ⟨bs, rfl⟩ := ih hvs
    cases v with
    | boolean b => exact ⟨b :: bs, rfl⟩
    | integer n => cases hv

end Operands

theorem result_eq_ok {name : String} {n : Int} {v : Value} :
    result name n = .ok v ↔ v = .integer n ∧ v.Bounded := by
  simp only [result, map_eq_ok, Value.checkRange_eq_ok]
  constructor
  · rintro ⟨m, ⟨rfl, hbounded⟩, rfl⟩
    exact ⟨rfl, hbounded⟩
  · rintro ⟨rfl, hbounded⟩
    exact ⟨n, ⟨rfl, hbounded⟩, rfl⟩

section Folds

variable {name : String} {step : Int → Int → Int} {keepsTruth : List Value → Bool}

/-- A checked fold succeeds if all partial results are in range, and gives the last of them. -/
theorem foldlM_checkRange_eq_ok {what : String} {n r : Int} {ns : List Int} :
    (ns.map Value.integer).foldlM
        (fun acc w => Value.checkRange what (step acc w.number)) n = .ok r ↔
      r = ns.foldl step n ∧
        ∀ head, head <+: ns → head ≠ [] → (Value.integer (head.foldl step n)).Bounded := by
  induction ns generalizing n with
  | nil => simp [pure, Except.pure, eq_comm]
  | cons m ns ih =>
    simp only [List.map_cons, List.foldlM_cons, List.foldl_cons, Value.number_integer, bind_eq_ok,
      Value.checkRange_eq_ok, ih]
    -- the heads of `m :: ns` are `[m]` and `m` before a head of `ns`
    constructor
    · rintro ⟨a, ⟨rfl, hfirst⟩, hr, hheads⟩
      refine ⟨hr, fun head hpre hne => ?_⟩
      obtain rfl | ⟨rest, rfl, hrest⟩ := List.prefix_cons_iff.mp hpre
      · exact absurd rfl hne
      · by_cases hempty : rest = []
        · rwa [hempty]
        · exact hheads rest hrest hempty
    · rintro ⟨hr, hheads⟩
      have hfirst := hheads [m] (List.cons_prefix_cons.mpr ⟨rfl, List.nil_prefix⟩) (by simp)
      exact ⟨step n m, ⟨rfl, hfirst⟩, hr, fun head hpre _ =>
        hheads (m :: head) (List.cons_prefix_cons.mpr ⟨rfl, hpre⟩) (by simp)⟩

theorem fold_eq_ok {n : Int} {ns : List Int} {v : Value}
    (hkeeps : keepsTruth ((n :: ns).map .integer) = false) :
    fold name step keepsTruth ((n :: ns).map .integer) = .ok v ↔
      v = .integer (ns.foldl step n) ∧
        ∀ head, head <+: ns → head ≠ [] → (Value.integer (head.foldl step n)).Bounded := by
  rw [List.map_cons] at hkeeps
  simp only [List.map_cons, fold, hkeeps, Value.number_integer, bind_eq_ok,
    foldlM_checkRange_eq_ok, Bool.false_eq_true, if_false, Except.ok.injEq]
  constructor
  · rintro ⟨r, ⟨rfl, hheads⟩, rfl⟩
    exact ⟨rfl, hheads⟩
  · rintro ⟨rfl, hheads⟩
    exact ⟨_, ⟨rfl, hheads⟩, rfl⟩

theorem isExact_fold {arity : Arity} {description : String}
    (hkeeps : ∀ n ns, keepsTruth (List.map .integer (n :: ns)) = false)
    (hexact : ∀ n ns, Exact name (List.map .integer (n :: ns)) (.integer (ns.foldl step n))) :
    IsExact ⟨name, arity, integersOnly, fold name step keepsTruth, description⟩ := by
  intro vs v hbounded hadmits h
  obtain ⟨ns, rfl⟩ := exists_integers hadmits.kinds
  cases ns with
  | nil => cases h
  | cons n ns =>
    obtain ⟨rfl, hheads⟩ := (fold_eq_ok (hkeeps n ns)).mp h
    have hall : ∀ head, head <+: ns → (Value.integer (head.foldl step n)).Bounded := by
      intro head hpre
      by_cases hempty : head = []
      · subst hempty
        exact hbounded _ List.mem_cons_self
      · exact hheads head hpre hempty
    refine ⟨hexact n ns, hall ns List.prefix_rfl, fun _ head hpre hne => ?_⟩
    rw [List.map_cons] at hpre
    obtain rfl | ⟨rest, rfl, hrest⟩ := List.prefix_cons_iff.mp hpre
    · exact absurd rfl hne
    · obtain ⟨ms, hms, rfl⟩ := List.prefix_map_iff.mp hrest
      refine ⟨_, (fold_eq_ok (hkeeps n ms)).mpr ⟨rfl, ?_⟩, hexact n ms, hall ms hms⟩
      exact fun head hhead => hheads head (hhead.trans hms)

/-- A fold of integers never leaves a truth value. -/
theorem all_isBoolean_integers (n : Int) (ns : List Int) :
    (List.map Value.integer (n :: ns)).all Value.isBoolean = false := rfl

theorem isExact_arithmetic {arity : Arity} {description : String}
    (hexact : ∀ n ns, Exact name (List.map .integer (n :: ns)) (.integer (ns.foldl step n))) :
    IsExact ⟨name, arity, integersOnly, arithmetic name step, description⟩ :=
  isExact_fold (fun n ns => by rw [all_isBoolean_integers, Bool.and_false]) hexact

theorem isExact_bitwise {arity : Arity} {description : String}
    (hexact : ∀ n ns, Exact name (List.map .integer (n :: ns)) (.integer (ns.foldl step n))) :
    IsExact ⟨name, arity, integersOnly, bitwise name step, description⟩ :=
  isExact_fold all_isBoolean_integers hexact

end Folds

section Sums

variable (n : Int) (ns : List Int)

theorem foldl_add : ns.foldl (· + ·) n = (n :: ns).sum := by
  induction ns generalizing n with
  | nil => simp
  | cons m ns ih => simp [ih, Int.add_assoc]

theorem foldl_sub : ns.foldl (· - ·) n = n - ns.sum := by
  induction ns generalizing n with
  | nil => simp
  | cons m ns ih => simp [ih, Int.sub_sub]

theorem foldl_mul : ns.foldl (· * ·) n = (n :: ns).prod := by
  induction ns generalizing n with
  | nil => simp
  | cons m ns ih => simp [ih, Int.mul_assoc]

end Sums

section Bits

variable {i : Nat} (n : Int) (ns : List Int)

theorem bit_eq_testBit : Bits.bit n i = n.testBit i := by
  cases n <;> rfl

theorem testBit_foldl_and :
    (ns.foldl Bits.and n).testBit i = true ↔ ∀ m ∈ n :: ns, m.testBit i = true := by
  induction ns generalizing n with
  | nil => simp
  | cons m ns ih =>
    rw [List.foldl_cons, ih]
    simp [← bit_eq_testBit, Bits.bit_and, and_assoc]

theorem testBit_foldl_or :
    (ns.foldl Bits.or n).testBit i = true ↔ ∃ m ∈ n :: ns, m.testBit i = true := by
  induction ns generalizing n with
  | nil => simp
  | cons m ns ih =>
    rw [List.foldl_cons, ih]
    simp [← bit_eq_testBit, Bits.bit_or, or_assoc]

theorem testBit_foldl_xor :
    (ns.foldl Bits.xor n).testBit i = true ↔ Odd ((n :: ns).countP (·.testBit i)) := by
  induction ns generalizing n with
  | nil => cases hn : n.testBit i <;> simp [hn]
  | cons m ns ih =>
    rw [List.foldl_cons, ih]
    simp only [List.countP_cons, ← bit_eq_testBit, Bits.bit_xor]
    cases Bits.bit n i <;> cases Bits.bit m i <;> simp [Nat.odd_add_one]

end Bits

section Choices

variable {name : String} {beats : Int → Int → Bool}

/-- The number that is chosen is one of those given. None of the later ones beats it, and nothing
that does not beat the first one. -/
theorem foldl_best (hirrefl : ∀ m, beats m m = false)
    (htrans : ∀ a b c, beats a b = true → beats b c = true → beats a c = true)
    (n : Int) (ns : List Int) :
    ns.foldl (fun b m => if beats m b then m else b) n ∈ n :: ns ∧
      ∀ m, beats m n = false ∨ m ∈ ns →
        beats m (ns.foldl (fun b m => if beats m b then m else b) n) = false := by
  induction ns generalizing n with
  | nil => simp
  | cons a ns ih =>
    rw [List.foldl_cons]
    cases ha : beats a n with
    | false =>
      obtain ⟨hmem, hnone⟩ := ih n
      refine ⟨?_, fun m hm => hnone m ?_⟩
      · rcases List.mem_cons.mp hmem with h | h <;> simp [h]
      · rcases hm with hm | hm
        · exact .inl hm
        · rcases List.mem_cons.mp hm with rfl | hm
          · exact .inl ha
          · exact .inr hm
    | true =>
      obtain ⟨hmem, hnone⟩ := ih a
      refine ⟨List.mem_cons_of_mem _ hmem, fun m hm => hnone m ?_⟩
      -- what beats the new choice beats the old one too
      rcases hm with hm | hm
      · refine .inl (Bool.eq_false_iff.mpr fun hma => ?_)
        rw [htrans m a n hma ha] at hm
        cases hm
      · rcases List.mem_cons.mp hm with rfl | hm
        · exact .inl (hirrefl m)
        · exact .inr hm

theorem unbeaten_foldl_best (hirrefl : ∀ m, beats m m = false)
    (htrans : ∀ a b c, beats a b = true → beats b c = true → beats a c = true)
    (n : Int) (ns : List Int) :
    ∀ m ∈ n :: ns, beats m (ns.foldl (fun b m => if beats m b then m else b) n) = false := by
  have hnone := (foldl_best hirrefl htrans n ns).2
  refine List.forall_mem_cons.mpr ⟨hnone n (.inl (hirrefl n)), fun m hm => hnone m (.inr hm)⟩

theorem best_integers (n : Int) (ns : List Int) :
    best name beats (List.map .integer (n :: ns)) =
      .ok (.integer (ns.foldl (fun b m => if beats m b then m else b) n)) := by
  have hchoice : (ns.map Value.integer).foldl
      (fun b w => if beats w.number b.number then w else b) (.integer n) =
        .integer (ns.foldl (fun b m => if beats m b then m else b) n) := by
    rw [List.foldl_map]
    exact List.foldl_hom Value.integer fun b m => (apply_ite Value.integer _ _ _).symm
  simp only [List.map_cons, best, hchoice]

theorem isExact_best {arity : Arity} {description : String}
    (hirrefl : ∀ m, beats m m = false)
    (htrans : ∀ a b c, beats a b = true → beats b c = true → beats a c = true)
    (hexact : ∀ (ns : List Int) r, r ∈ ns → (∀ m ∈ ns, beats m r = false) →
      Exact name (ns.map .integer) (.integer r)) :
    IsExact ⟨name, arity, integersOnly, best name beats, description⟩ := by
  have hone : ∀ n ns, (∀ w ∈ List.map Value.integer (n :: ns), w.Bounded) →
      ∃ w, best name beats (List.map .integer (n :: ns)) = .ok w ∧
        Exact name (List.map .integer (n :: ns)) w ∧ w.Bounded := by
    intro n ns hbounded
    have hmem := (foldl_best hirrefl htrans n ns).1
    exact ⟨_, best_integers n ns, hexact _ _ hmem (unbeaten_foldl_best hirrefl htrans n ns),
      hbounded _ (List.mem_map_of_mem hmem)⟩
  intro vs v hbounded hadmits h
  have hheads : ∀ head, head <+: vs → head ≠ [] →
      ∃ w, best name beats head = .ok w ∧ Exact name head w ∧ w.Bounded := by
    intro head hpre hne
    obtain ⟨ns, rfl⟩ := exists_integers fun w hw => hadmits.kinds w (hpre.subset hw)
    cases ns with
    | nil => exact absurd rfl hne
    | cons n ns => exact hone n ns fun w hw => hbounded w (hpre.subset hw)
  have hne : vs ≠ [] := by
    rintro rfl
    cases h
  obtain ⟨w, hw, hwexact, hwbounded⟩ := hheads vs List.prefix_rfl hne
  obtain rfl : w = v := Except.ok.inj (hw.symm.trans h)
  exact ⟨hwexact, hwbounded, fun _ => hheads⟩

theorem isExact_min {arity : Arity} {description : String} :
    IsExact ⟨"min", arity, integersOnly, best "min" (· < ·), description⟩ := by
  refine isExact_best (by simp) ?_ fun ns r hr h => .min hr (by simpa using h)
  simpa using fun a b c => Int.lt_trans

theorem isExact_max {arity : Arity} {description : String} :
    IsExact ⟨"max", arity, integersOnly, best "max" (· > ·), description⟩ := by
  refine isExact_best (by simp) ?_ fun ns r hr h => .max hr (by simpa using h)
  simpa using fun a b c hab hbc => Int.lt_trans hbc hab

end Choices

section Logic

theorem isExact_logic {name description : String} {arity : Arity} {f : List Value → Bool}
    (hexact : ∀ bs : List Bool, Exact name (bs.map .boolean) (.boolean (f (bs.map .boolean)))) :
    IsExact ⟨name, arity, booleansOnly, fun vs => .ok (.boolean (f vs)), description⟩ := by
  intro vs v _ hadmits h
  obtain rfl : .boolean (f vs) = v := by simpa using h
  have hheads : ∀ head, head <+: vs → Exact name head (.boolean (f head)) := by
    intro head hpre
    obtain ⟨bs, rfl⟩ := exists_booleans fun w hw => hadmits.kinds w (hpre.subset hw)
    exact hexact bs
  exact ⟨hheads vs List.prefix_rfl, trivial,
    fun _ head hpre _ => ⟨_, rfl, hheads head hpre, trivial⟩⟩

theorem parity_iff (bs : List Bool) : parity (bs.map .boolean) = true ↔ Odd (bs.count true) := by
  have hfold : ∀ acc, (bs.map Value.boolean).foldl
      (fun acc v => (Value.boolean acc).number != v.number) acc = true ↔
        Odd ((acc :: bs).count true) := by
    induction bs with
    | nil => intro acc; cases acc <;> simp
    | cons b bs ih =>
      intro acc
      rw [List.map_cons, List.foldl_cons, ih]
      cases acc <;> cases b <;> simp [Value.number, Nat.odd_add_one]
  simpa [parity] using hfold false

end Logic

section Pairs

variable {name description : String}

theorem isExact_binary {f : Value → Value → Except Fault Value}
    (h : ∀ m n v, (Value.integer m).Bounded → f (.integer m) (.integer n) = .ok v →
      Exact name [.integer m, .integer n] v ∧ v.Bounded) :
    IsExact ⟨name, .exactly 2, integersOnly, binary name f, description⟩ := by
  intro vs v hbounded hadmits hv
  obtain ⟨ns, rfl⟩ := exists_integers hadmits.kinds
  have hcount : 2 = ns.length := by simpa using Arity.accepts_exactly.mp hadmits.count
  obtain ⟨m, n, rfl⟩ := List.length_eq_two.mp hcount.symm
  obtain ⟨hexact, hresult⟩ := h m n v (hbounded _ List.mem_cons_self) hv
  exact ⟨hexact, hresult, nofun⟩

/-- From 127 bits on nothing but the sign of an integer of 128 bits is left. -/
theorem ediv_two_pow {m : Int} {k : Nat} (hm : (Value.integer m).Bounded) (hk : 127 ≤ k) :
    m / 2 ^ k = if m < 0 then -1 else 0 := by
  obtain ⟨hleast, hmost⟩ := hm
  have hpow : (2 : Int) ^ 127 ≤ 2 ^ k := pow_le_pow_right₀ (by decide) hk
  split
  · rw [Int.ediv_eq_iff_of_pos (by omega)]
    omega
  · rw [Int.ediv_eq_iff_of_pos (by omega)]
    omega

theorem bounded_ediv {m : Int} (k : Nat) (hm : (Value.integer m).Bounded) :
    (Value.integer (m / 2 ^ k)).Bounded := by
  obtain ⟨hleast, hmost⟩ := hm
  have hpow : (1 : Int) ≤ 2 ^ k := one_le_pow₀ (by decide)
  constructor
  · exact Int.le_ediv_of_mul_le (by omega) (by nlinarith)
  · exact Int.ediv_lt_of_lt_mul (by omega) (by nlinarith)

theorem isExact_division {f : Int → Int → Int}
    (hexact : ∀ m n, n ≠ 0 → Exact name [.integer m, .integer n] (.integer (f m n))) :
    IsExact ⟨name, .exactly 2, integersOnly, binary name fun a b =>
      if b.number = 0 then .error (.divisionByZero name)
      else result name (f a.number b.number), description⟩ := by
  refine isExact_binary fun m n v _ hv => ?_
  by_cases hn : n = 0
  · simp [hn] at hv
  · simp only [Value.number_integer, hn, if_false] at hv
    obtain ⟨rfl, hresult⟩ := result_eq_ok.mp hv
    exact ⟨hexact m n hn, hresult⟩

theorem isExact_divide : IsExact ⟨"div", .exactly 2, integersOnly, divide, description⟩ :=
  isExact_division fun m n hn => quotient_eq_tdiv m n ▸ .div m hn

theorem isExact_remainder : IsExact ⟨"mod", .exactly 2, integersOnly, remainder, description⟩ :=
  isExact_division fun m n hn => residue_eq_tmod m n ▸ .mod m hn

theorem eq_of_shiftLeft_eq_ok {m n : Int} {v : Value}
    (h : shiftLeft [.integer m, .integer n] = .ok v) :
    0 ≤ n ∧ v = .integer (m * 2 ^ n.toNat) ∧ v.Bounded := by
  simp only [shiftLeft, binary, Value.number_integer] at h
  by_cases hn : n < 0
  · simp [hn] at h
  refine ⟨Int.not_lt.mp hn, ?_⟩
  simp only [hn, if_false] at h
  by_cases hm : m = 0
  · simp only [hm, if_true] at h
    rw [hm, Int.zero_mul]
    exact result_eq_ok.mp h
  by_cases hk : maxShift ≤ n
  · simp [hm, hk] at h
  simp only [hm, hk, if_false] at h
  simpa using result_eq_ok.mp h

theorem isExact_shiftLeft : IsExact ⟨"shl", .exactly 2, integersOnly, shiftLeft, description⟩ := by
  refine isExact_binary fun m n v _ hv => ?_
  obtain ⟨hn, rfl, hresult⟩ := eq_of_shiftLeft_eq_ok hv
  obtain ⟨k, rfl⟩ := Int.eq_ofNat_of_zero_le hn
  exact ⟨.shl m k, hresult⟩

/-- Right shifts beyond the width do what a shift by the width does. -/
theorem shiftRight_min_maxShift {m : Int} (k : Nat) (hm : (Value.integer m).Bounded) :
    m >>> (min (k : Int) maxShift).toNat = m / 2 ^ k := by
  rw [Int.shiftRight_eq_div_pow, maxShift]
  by_cases hk : k ≤ 128
  · have hmin : (min (k : Int) 128).toNat = k := by omega
    rw [hmin]
    simp
  · have hmin : (min (k : Int) 128).toNat = 128 := by omega
    rw [hmin, ediv_two_pow hm (by omega)]
    exact ediv_two_pow (k := 128) hm (by decide)

theorem isExact_shiftRight :
    IsExact ⟨"shr", .exactly 2, integersOnly, shiftRight, description⟩ := by
  refine isExact_binary fun m n v hm hv => ?_
  by_cases hn : n < 0
  · simp [hn] at hv
  simp only [Value.number_integer, hn, if_false] at hv
  obtain ⟨k, rfl⟩ := Int.eq_ofNat_of_zero_le (Int.not_lt.mp hn)
  obtain rfl := Except.ok.inj hv
  rw [shiftRight_min_maxShift k hm]
  exact ⟨.shr m k, bounded_ediv k hm⟩

theorem isExact_compare {test : Int → Int → Bool}
    (hexact : ∀ m n, Exact name [.integer m, .integer n] (.boolean (test m n))) :
    IsExact ⟨name, .exactly 2, integersOnly,
      binary name fun a b => .ok (.boolean (test a.number b.number)), description⟩ := by
  refine isExact_binary fun m n v _ hv => ?_
  obtain rfl := Except.ok.inj hv
  exact ⟨hexact m n, trivial⟩

end Pairs

theorem isExact_negate {description : String} :
    IsExact ⟨"not", .exactly 1, booleansOnly, negate, description⟩ := by
  intro vs v _ hadmits hv
  obtain ⟨bs, rfl⟩ := exists_booleans hadmits.kinds
  have hcount : 1 = bs.length := by simpa using Arity.accepts_exactly.mp hadmits.count
  obtain ⟨b, rfl⟩ := List.length_eq_one_iff.mp hcount.symm
  obtain rfl := Except.ok.inj hv
  exact ⟨.not b, trivial, nofun⟩

theorem isExact_equal {description : String} :
    IsExact ⟨"eq", .exactly 2, anyKind, equal, description⟩ := by
  intro vs v _ hadmits hv
  obtain ⟨a, b, rfl⟩ := List.length_eq_two.mp (Arity.accepts_exactly.mp hadmits.count).symm
  simp only [equal] at hv
  split at hv
  · cases hv
  · next hkind =>
    obtain rfl := Except.ok.inj hv
    refine ⟨?_, trivial, nofun⟩
    cases a with
    | integer m =>
      cases b with
      | integer n => simpa using Exact.eqInteger m n
      | boolean b => simp at hkind
    | boolean a =>
      cases b with
      | integer n => simp at hkind
      | boolean b => simpa using Exact.eqBoolean a b

/-- Every built-in operator is exact: whatever integers of 128 bits and truth values it is applied
to, it fails or comes to the exact result, which is in range. -/
theorem isExact_builtin : ∀ op ∈ builtin, op.IsExact := by
  simp only [builtin, List.forall_mem_cons]
  exact ⟨isExact_negate, isExact_logic fun bs => .and (by simp),
    isExact_logic fun bs => .or (by simp), isExact_logic fun bs => .xor (parity_iff bs),
    isExact_arithmetic fun n ns => foldl_add n ns ▸ .add (n :: ns),
    isExact_arithmetic fun n ns => foldl_sub n ns ▸ .sub n ns,
    isExact_arithmetic fun n ns => foldl_mul n ns ▸ .mul (n :: ns),
    isExact_divide, isExact_remainder, isExact_shiftLeft, isExact_shiftRight,
    isExact_bitwise fun n ns => .bitand fun _ => testBit_foldl_and n ns,
    isExact_bitwise fun n ns => .bitor fun _ => testBit_foldl_or n ns,
    isExact_bitwise fun n ns => .bitxor fun _ => testBit_foldl_xor n ns,
    isExact_min, isExact_max, isExact_equal, isExact_compare fun m n => .lt m n,
    isExact_compare fun m n => .le m n, List.forall_mem_nil _⟩

end SharedConstants.Operator
