import SharedConstants.Proofs.Expr.Evaluation
import SharedConstants.Proofs.FirstOccurrence
import SharedConstants.Proofs.Operator.Builtin

/-!
# The walk over the nodes

The walk with an agenda lists the nodes as recursion does. A node is known by its address, the
numbers of the operands on the way to it. The walk takes the addresses in their lexicographic
order, so it meets every node once and passes none over. The names that it finds are all that
evaluation asks for.
-/
namespace SharedConstants.Expr

mutual

/-- An expression and behind it the nodes of its operands, by recursion. -/
def preorder : Expr → List Expr
  | .literal v span => [.literal v span]
  | .reference name span => [.reference name span]
  | .apply operator operands span => .apply operator operands span :: preorderAll operands

/-- The nodes of several expressions, one after another. -/
def preorderAll : List Expr → List Expr
  | [] => []
  | e :: es => preorder e ++ preorderAll es

end

theorem preorder_eq (e : Expr) : e.preorder = e :: preorderAll e.children := by
  cases e <;> simp [preorder, preorderAll, children]

theorem preorderAll_append (xs ys : List Expr) :
    preorderAll (xs ++ ys) = preorderAll xs ++ preorderAll ys := by
  induction xs with
  | nil => rfl
  | cons x xs ih => simp [preorderAll, ih]

theorem walk_eq_preorderAll (agenda : List Expr) : walk agenda = preorderAll agenda := by
  induction agenda using walk.induct with
  | case1 => simp [walk, preorderAll]
  | case2 e agenda ih =>
    rw [walk, ih, preorderAll_append, preorderAll, preorder_eq, List.cons_append]

/-- The agenda lists the nodes as recursion does. -/
theorem nodes_eq_preorder (e : Expr) : e.nodes = e.preorder := by
  simp [nodes, walk_eq_preorderAll, preorderAll]

/-- The node at an address, whose numbers say which operand to descend into. -/
def nodeAt? : Expr → List Nat → Option Expr
  | e, [] => some e
  | e, i :: address => e.children[i]?.bind (nodeAt? · address)

mutual

/-- The nodes with their addresses, in the order in which recursion lists the nodes. -/
def addressed (e : Expr) : List (List Nat × Expr) :=
  match e with
  | .literal .. | .reference .. => [([], e)]
  | .apply _ operands _ => ([], e) :: addressedFrom 0 operands

/-- The nodes of operands with their addresses, where the first operand has a number. -/
def addressedFrom (i : Nat) : List Expr → List (List Nat × Expr)
  | [] => []
  | e :: es => (addressed e).map (Prod.map (i :: ·) id) ++ addressedFrom (i + 1) es

end

theorem addressed_eq (e : Expr) : e.addressed = ([], e) :: addressedFrom 0 e.children := by
  cases e <;> simp [addressed, addressedFrom, children]

theorem map_snd_addressedFrom {es : List Expr}
    (hes : ∀ e ∈ es, e.addressed.map Prod.snd = e.preorder) (i : Nat) :
    (addressedFrom i es).map Prod.snd = preorderAll es := by
  induction es generalizing i with
  | nil => rfl
  | cons e es ih =>
    obtain ⟨hfirst, hrest⟩ := List.forall_mem_cons.mp hes
    simp only [addressedFrom, preorderAll, List.map_append, List.map_map, ih hrest, ← hfirst]
    rfl

/-- Without their addresses, these are the nodes that recursion lists. -/
theorem map_snd_addressed (e : Expr) : e.addressed.map Prod.snd = e.preorder := by
  induction e using inductOnOperands with
  | literal | reference => rfl
  | apply operator operands span ih =>
    rw [addressed_eq, preorder_eq, List.map_cons, children, map_snd_addressedFrom ih]

theorem mem_addressedFrom {es : List Expr} {i : Nat} {address : List Nat} {a : Expr} :
    (address, a) ∈ addressedFrom i es ↔
      ∃ j rest c, address = (i + j) :: rest ∧ es[j]? = some c ∧ (rest, a) ∈ c.addressed := by
  induction es generalizing i with
  | nil => simp [addressedFrom]
  | cons e es ih =>
    rw [addressedFrom, List.mem_append, ih]
    constructor
    · rintro (hfirst | ⟨j, rest, c, rfl, hc, hmem⟩)
      · obtain ⟨⟨rest, b⟩, hmem, heq⟩ := List.mem_map.mp hfirst
        obtain ⟨rfl, rfl⟩ := Prod.mk.inj heq
        exact ⟨0, rest, e, rfl, rfl, hmem⟩
      · exact ⟨j + 1, rest, c, by rw [Nat.add_right_comm, Nat.add_assoc], hc, hmem⟩
    · rintro ⟨j | j, rest, c, rfl, hc, hmem⟩
      · obtain rfl : e = c := by simpa using hc
        exact .inl (List.mem_map.mpr ⟨(rest, a), hmem, rfl⟩)
      · exact .inr ⟨j, rest, c, by rw [Nat.add_right_comm, Nat.add_assoc], hc, hmem⟩

/-- The addresses are those at which there is a node, each with that node. -/
theorem mem_addressed {e a : Expr} {address : List Nat} :
    (address, a) ∈ e.addressed ↔ e.nodeAt? address = some a := by
  induction address generalizing e with
  | nil =>
    rw [addressed_eq, List.mem_cons, mem_addressedFrom]
    simp [nodeAt?, eq_comm]
  | cons i address ih =>
    rw [addressed_eq, List.mem_cons, mem_addressedFrom]
    simp [nodeAt?, Option.bind_eq_some_iff, ih]

theorem head_of_mem_addressedFrom {es : List Expr} {i : Nat} {address : List Nat}
    (h : address ∈ (addressedFrom i es).map Prod.fst) : ∃ j rest, address = (i + j) :: rest := by
  obtain ⟨⟨_, a⟩, hmem, rfl⟩ := List.mem_map.mp h
  obtain ⟨j, rest, _, rfl, _⟩ := mem_addressedFrom.mp hmem
  exact ⟨j, rest, rfl⟩

theorem pairwise_addressedFrom {es : List Expr}
    (hes : ∀ e ∈ es, (e.addressed.map Prod.fst).Pairwise (· < ·)) (i : Nat) :
    ((addressedFrom i es).map Prod.fst).Pairwise (· < ·) := by
  induction es generalizing i with
  | nil => exact .nil
  | cons e es ih =>
    obtain ⟨hfirst, hrest⟩ := List.forall_mem_cons.mp hes
    have hbelow : ((e.addressed.map Prod.fst).map (i :: ·)).Pairwise (· < ·) :=
      hfirst.map _ fun _ _ hlt => List.cons_lt_cons_iff.mpr (.inr ⟨rfl, hlt⟩)
    have hsplit : (addressedFrom i (e :: es)).map Prod.fst =
        (e.addressed.map Prod.fst).map (i :: ·) ++ (addressedFrom (i + 1) es).map Prod.fst := by
      simp [addressedFrom]
    rw [hsplit]
    -- addresses below one operand share its number, those below later operands start with more
    refine List.pairwise_append.mpr
      ⟨hbelow, ih hrest (i + 1), fun address haddress later hlater => ?_⟩
    obtain ⟨rest, _, rfl⟩ := List.mem_map.mp haddress
    obtain ⟨j, rest', rfl⟩ := head_of_mem_addressedFrom hlater
    exact List.cons_lt_cons_iff.mpr (.inl (by omega))

/-- The addresses come in their lexicographic order, that of an application before those of its
operands. -/
theorem pairwise_addressed (e : Expr) : (e.addressed.map Prod.fst).Pairwise (· < ·) := by
  induction e using inductOnOperands with
  | literal | reference => exact List.pairwise_singleton _ _
  | apply operator operands span ih =>
    rw [addressed_eq, List.map_cons]
    refine List.pairwise_cons.mpr ⟨fun address haddress => ?_, pairwise_addressedFrom ih 0⟩
    obtain ⟨j, rest, rfl⟩ := head_of_mem_addressedFrom haddress
    exact List.nil_lt_cons _ _

theorem firstOccurrences_references (e : Expr) :
    FirstOccurrences (e.occurrences.map Prod.fst) e.references := by
  rw [references, referenceNodes_eq]
  exact firstOccurrences_eraseDups _

theorem evaluate_congr {ops : OperatorRegistry} {values values' : Valuation} {e : Expr}
    (h : ∀ name ∈ e.references, values name = values' name) :
    evaluate ops values e = evaluate ops values' e := by
  rw [evaluate_eq_eval, evaluate_eq_eval]
  exact eval_congr fun name hname => h name (mem_references.mpr hname)

/-- The nodes that the walk lists are all nodes, each once, as recursion lists them: an application
before its operands and these from left to right. The names found are those of the references
among them, each once, in the order of their first occurrences; and evaluation depends on the
values of nothing else. If all these names have values, none is reported as unknown, unless the
meaning of an operator does so against the contract of operators. -/
theorem walk_covers_evaluation (e : Expr) :
    e.nodes = e.preorder ∧
    (∃ visits : List (List Nat × Expr), visits.map Prod.snd = e.nodes ∧
      (visits.map Prod.fst).Pairwise (· < ·) ∧
      ∀ address a, (address, a) ∈ visits ↔ e.nodeAt? address = some a) ∧
    FirstOccurrences (e.occurrences.map Prod.fst) e.references ∧
    (∀ (ops : OperatorRegistry) (values values' : Valuation),
      (∀ name ∈ e.references, values name = values' name) →
        evaluate ops values e = evaluate ops values' e) ∧
    ∀ (ops : OperatorRegistry) (values : Valuation) (d : Diagnostic),
      (∀ name ∈ e.references, (values name).isSome) → evaluate ops values e = .error d →
        (∀ name, d.fault = .unknownReference name →
          ∃ op ∈ ops.operators, ∃ vs, op.Admits vs ∧
            op.compute vs = .error (.unknownReference name)) ∧
        (ops.Lawful → ∀ name, d.fault ≠ .unknownReference name) := by
  refine ⟨nodes_eq_preorder e, ⟨e.addressed, ?_, pairwise_addressed e, fun _ _ => mem_addressed⟩,
    firstOccurrences_references e, fun _ _ _ => evaluate_congr, fun ops values d hvalues h => ?_⟩
  · rw [map_snd_addressed, nodes_eq_preorder]
  rw [evaluate_eq_eval] at h
  obtain ⟨_, hreported⟩ :=
    eval_error_of_defined (fun name hname => hvalues name (mem_references.mpr hname)) h
  refine ⟨hreported, fun hlawful name hfault => ?_⟩
  obtain ⟨op, hop, vs, hadmits, hcompute⟩ := hreported name hfault
  exact hlawful op hop vs _ hadmits hcompute trivial

end SharedConstants.Expr
