import Mathlib.Data.List.Perm.Subperm
import SharedConstants.Proofs.Constant.CycleSearch
import SharedConstants.Proofs.Constant.ReadyQueue

/-!
# The order of evaluation

Names are taken one after another, each when its dependencies are done. If no name leads to a
cycle there is always one to take, so all names are taken. If all names are taken, each is
grounded, because everything it depends on was taken before it.
-/
namespace SharedConstants.Links

variable {links : Links} {done : List String}

/-- Each name is new and declared, and everything it depends on is done before it. -/
def InOrder (links : Links) : List String → List String → Prop
  | _, [] => True
  | done, name :: rest => name ∈ links.names ∧ name ∉ done ∧
      (∀ a, links.DependsOn name a → a ∈ done) ∧ InOrder links (name :: done) rest

theorem InOrder.nodup {order : List String} (h : links.InOrder done order) :
    order.Nodup ∧ ∀ name ∈ order, name ∉ done := by
  induction order generalizing done with
  | nil => simp
  | cons name rest ih =>
    obtain ⟨_, hnew, _, hrest⟩ := h
    obtain ⟨hnodup, hdisjoint⟩ := ih hrest
    refine ⟨List.nodup_cons.mpr ⟨fun hmem => hdisjoint name hmem List.mem_cons_self, hnodup⟩, ?_⟩
    intro a ha
    rcases List.mem_cons.mp ha with rfl | ha
    · exact hnew
    · exact fun hdone => hdisjoint a ha (List.mem_cons_of_mem _ hdone)

theorem InOrder.subset {order : List String} (h : links.InOrder done order) :
    order ⊆ links.names := by
  induction order generalizing done with
  | nil => exact List.nil_subset _
  | cons name rest ih => exact List.cons_subset.mpr ⟨h.1, ih h.2.2.2⟩

theorem InOrder.allGrounded {order : List String} (h : links.InOrder done order)
    (hdone : links.AllGrounded done) : links.AllGrounded order := by
  induction order generalizing done with
  | nil => simp [AllGrounded]
  | cons name rest ih =>
    obtain ⟨_, _, hdeps, hrest⟩ := h
    have hname : Grounded links.DependsOn name := ⟨_, fun a ha => hdone a (hdeps a ha)⟩
    have hmore : links.AllGrounded (name :: done) := List.forall_mem_cons.mpr ⟨hname, hdone⟩
    exact List.forall_mem_cons.mpr ⟨hname, ih hrest hmore⟩

/-- What a part of an order finds done. -/
theorem InOrder.dependsOn {before after : List String} {name a : String}
    (h : links.InOrder done (before ++ name :: after)) (ha : links.DependsOn name a) :
    a ∈ done ∨ a ∈ before := by
  induction before generalizing done with
  | nil => exact .inl (h.2.2.1 a ha)
  | cons first before ih =>
    rcases ih h.2.2.2 with hmem | hmem
    · rcases List.mem_cons.mp hmem with rfl | hmem
      · exact .inr List.mem_cons_self
      · exact .inl hmem
    · exact .inr (List.mem_cons_of_mem _ hmem)

theorem drain_inOrder (hnodup : links.names.Nodup) (steps : Nat) (done : List String) :
    links.InOrder done (drain steps (links.residual done)) := by
  induction steps generalizing done with
  | zero => trivial
  | succ steps ih =>
    rw [drain]
    split
    · trivial
    · next name deps hfind =>
      obtain rfl : deps = [] := by simpa using List.find?_some hfind
      obtain ⟨hname, hnew, hdeps⟩ := (ready_iff hnodup).mp (List.mem_of_find?_eq_some hfind)
      rw [discharge_residual]
      exact ⟨hname, hnew, hdeps, ih _⟩

/-- Below a grounded name that is not done there is one without dependencies left. -/
theorem exists_ready (hnodup : links.names.Nodup) (hclosed : links.Closed) {name : String}
    (hname : name ∈ links.names) (hnew : name ∉ done) (h : Grounded links.DependsOn name) :
    ∃ ready, (ready, []) ∈ links.residual done := by
  induction h with
  | intro name _ ih =>
    obtain ⟨deps, hmem⟩ := mem_names.mp hname
    by_cases hall : ∀ a ∈ deps, a ∈ done
    · refine ⟨name, mem_residual.mpr ⟨deps, hmem, hnew, ?_⟩⟩
      exact (List.filter_eq_nil_iff.mpr (by simpa using hall)).symm
    · push Not at hall
      obtain ⟨a, ha, hanew⟩ := hall
      have hdepends : links.DependsOn name a := by
        rwa [DependsOn, dependencies_of_mem hnodup hmem]
      exact ih a hdepends (hclosed _ a hdepends) hanew

theorem mem_drain (hnodup : links.names.Nodup) (hclosed : links.Closed)
    (hgrounded : links.AllGrounded links.names) {steps : Nat}
    (hsteps : (links.residual done).length ≤ steps) :
    ∀ name ∈ links.names, name ∈ done ∨ name ∈ drain steps (links.residual done) := by
  induction steps generalizing done with
  | zero =>
    intro name hname
    by_contra hcon
    push Not at hcon
    have := length_residual_cons_lt hname hcon.1
    omega
  | succ steps ih =>
    intro name hname
    rw [drain]
    split
    · next hnone =>
      left
      by_contra hnew
      obtain ⟨ready, hready⟩ :=
        exists_ready hnodup hclosed hname hnew (hgrounded name hname)
      simpa using List.find?_eq_none.mp hnone _ hready
    · next first deps hfind =>
      obtain rfl : deps = [] := by simpa using List.find?_some hfind
      obtain ⟨hfirst, hnew, _⟩ := (ready_iff hnodup).mp (List.mem_of_find?_eq_some hfind)
      have hlt := length_residual_cons_lt hfirst hnew
      rw [discharge_residual]
      have hrest : (links.residual (first :: done)).length ≤ steps := by omega
      rcases ih hrest name hname with hmem | hmem
      · rcases List.mem_cons.mp hmem with rfl | hmem
        · exact .inr List.mem_cons_self
        · exact .inl hmem
      · exact .inr (List.mem_cons_of_mem _ hmem)

theorem length_names (links : Links) : links.names.length = links.length := by
  simp [names]

/-- An order that is returned lists all names, each behind its dependencies. -/
theorem evaluationOrder_ok (hnodup : links.names.Nodup) {order : List String}
    (h : links.evaluationOrder = .ok order) :
    order.Perm links.names ∧ links.InOrder [] order := by
  have hinOrder := drain_inOrder hnodup links.length []
  rw [residual_nil] at hinOrder
  simp only [evaluationOrder, Agenda.run_start hnodup] at h
  split at h
  · next hlength =>
    cases h
    have hsubperm := hinOrder.nodup.1.subperm hinOrder.subset
    exact ⟨hsubperm.perm_of_length_le (by rw [length_names, hlength]), hinOrder⟩
  · cases h

theorem grounded_of_evaluationOrder (hnodup : links.names.Nodup) {order : List String}
    (h : links.evaluationOrder = .ok order) : ∀ name, Grounded links.DependsOn name := by
  obtain ⟨hperm, hinOrder⟩ := evaluationOrder_ok hnodup h
  have hall := hinOrder.allGrounded (by simp [AllGrounded])
  exact grounded_of_names fun name hname => hall name (hperm.mem_iff.mpr hname)

theorem evaluationOrder_of_grounded (hnodup : links.names.Nodup) (hclosed : links.Closed)
    (hgrounded : links.AllGrounded links.names) :
    ∃ order, links.evaluationOrder = .ok order := by
  have hinOrder := drain_inOrder hnodup links.length []
  have hsteps : (links.residual []).length ≤ links.length := by simp
  have hmem := mem_drain hnodup hclosed hgrounded hsteps
  rw [residual_nil] at hinOrder hmem
  have hperm : (drain links.length links).Perm links.names :=
    (List.perm_ext_iff_of_nodup hinOrder.nodup.1 hnodup).mpr fun name =>
      ⟨fun h => hinOrder.subset h, fun h => by simpa using hmem name h⟩
  refine ⟨drain links.length links, ?_⟩
  rw [evaluationOrder, Agenda.run_start hnodup, if_pos (by rw [hperm.length_eq, length_names])]

/-- There is an order exactly if the search finds no cycle. -/
theorem evaluationOrder_isOk_iff (hnodup : links.names.Nodup) (hclosed : links.Closed) :
    (∃ order, links.evaluationOrder = .ok order) ↔ Acyclic links.DependsOn := by
  constructor
  · rintro ⟨order, h⟩
    exact acyclic_of_grounded (grounded_of_evaluationOrder hnodup h)
  · intro h
    have hgrounded :=
      grounded_of_findCycle?_eq_none hclosed ((findCycle?_eq_none_iff hclosed).mpr h)
    exact evaluationOrder_of_grounded hnodup hclosed fun name _ => hgrounded name

/-- Without an order the cycle that the search finds is reported. -/
theorem evaluationOrder_error (hnodup : links.names.Nodup) (hclosed : links.Closed)
    {d : Diagnostic} (h : links.evaluationOrder = .error d) :
    ∃ cycle, links.findCycle? = some cycle ∧ d = .cyclicDependency cycle := by
  cases hcycle : links.findCycle? with
  | none =>
    have hacyclic := (findCycle?_eq_none_iff hclosed).mp hcycle
    obtain ⟨order, horder⟩ := (evaluationOrder_isOk_iff hnodup hclosed).mpr hacyclic
    simp [h] at horder
  | some cycle =>
    simp only [evaluationOrder, hcycle] at h
    split at h
    · cases h
    · exact ⟨cycle, rfl, by simpa using h.symm⟩

theorem evaluationOrder_of_cycle (hnodup : links.names.Nodup) (hclosed : links.Closed)
    {cycle : List String} (h : links.findCycle? = some cycle) :
    links.evaluationOrder = .error (.cyclicDependency cycle) := by
  cases horder : links.evaluationOrder with
  | ok order =>
    have hacyclic := (evaluationOrder_isOk_iff hnodup hclosed).mp ⟨order, horder⟩
    exact absurd hacyclic (isCycle_of_findCycle? hclosed h).not_acyclic
  | error d =>
    obtain ⟨found, hfound, rfl⟩ := evaluationOrder_error hnodup hclosed horder
    rw [h] at hfound
    cases hfound
    rfl

end SharedConstants.Links
