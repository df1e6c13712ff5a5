import SharedConstants.Proofs.Constant.Reference

/-!
# Cyclic references

Three things agree on constants with distinct names that refer to each other only: the search
finds no cycle, the references have none, and there is an order of evaluation.
-/
namespace SharedConstants

open Constant (Distinct Refers Complete)

variable {constants : List Constant}

/-- A constant from which some cycle of references is reached. -/
def LeadsToCycle (constants : List Constant) (c : Constant) : Prop :=
  ∃ name, Relation.ReflTransGen (Refers constants) c.name name ∧
    Relation.TransGen (Refers constants) name name

/-- The search finds a cycle reached from the first constant that leads to any. -/
theorem DependencyGraph.findCycle?_eq_some {g : DependencyGraph}
    (hcomplete : Complete g.constants) {cycle : List String}
    (h : g.links.findCycle? = some cycle) : IsCycle (Refers g.constants) cycle ∧
      ∃ root, First (LeadsToCycle g.constants) g.constants root ∧
        ∀ name ∈ cycle, Relation.ReflTransGen (Refers g.constants) root.name name := by
  have hspec := Links.findCycle?_eq_some (links_closed hcomplete) h
  simp only [Links.AllGrounded, Links.LeadsTo, links_dependsOn, names_links] at hspec
  obtain ⟨earlier, _, later, hnames, hgrounded, hcycle, hreach⟩ := hspec
  refine ⟨hcycle, ?_⟩
  obtain ⟨before, rest, hconstants, rfl, hrest⟩ := List.map_eq_append_iff.mp hnames
  obtain ⟨root, after, rfl, rfl, rfl⟩ := List.map_eq_cons_iff.mp hrest
  refine ⟨root, ⟨before, after, hconstants, ?_, ?_⟩, hreach⟩
  · cases cycle with
    | nil => exact absurd hcycle.length_pos (by simp)
    | cons name rest => exact ⟨name, hreach name List.mem_cons_self, hcycle.transGen⟩
  · rintro c hc ⟨name, hreaches, hloop⟩
    exact ((hgrounded c.name (List.mem_map_of_mem hc)).of_reaches hreaches).not_transGen hloop

/-- For constants with distinct names and declared references the search for a cycle, the
references and the order of evaluation agree on whether there is a cycle. A cycle that is found
is one, is reached from the first constant that leads to any, and is what the order reports. -/
theorem findCycle?_acyclic_evaluationOrder (hdistinct : Distinct constants)
    (hcomplete : Complete constants) :
    ∃ g, DependencyGraph.ofConstants constants = .ok g ∧ g.validate = .ok () ∧
      (g.links.findCycle? = none ↔ Acyclic (Refers constants)) ∧
      ((∃ order, g.links.evaluationOrder = .ok order) ↔ Acyclic (Refers constants)) ∧
      (∀ cycle, g.links.findCycle? = some cycle → IsCycle (Refers constants) cycle ∧
        (∃ root, First (LeadsToCycle constants) constants root ∧
          ∀ name ∈ cycle, Relation.ReflTransGen (Refers constants) root.name name) ∧
        g.links.evaluationOrder = .error (.cyclicDependency cycle)) ∧
      ∀ d, g.links.evaluationOrder = .error d →
        ∃ cycle, g.links.findCycle? = some cycle ∧ d = .cyclicDependency cycle := by
  let g : DependencyGraph := ⟨constants, hdistinct⟩
  have hclosed : g.links.Closed := DependencyGraph.links_closed hcomplete
  have hnodup : g.links.names.Nodup := DependencyGraph.names_links g ▸ hdistinct
  have hrefers : g.links.DependsOn = Refers constants := DependencyGraph.links_dependsOn g
  refine ⟨g, DependencyGraph.ofConstants_eq_ok hdistinct, DependencyGraph.validate_eq_ok hcomplete,
    ?_, ?_, ?_, ?_⟩
  · rw [← hrefers]
    exact Links.findCycle?_eq_none_iff hclosed
  · rw [← hrefers]
    exact Links.evaluationOrder_isOk_iff hnodup hclosed
  · intro cycle h
    obtain ⟨hcycle, hroot⟩ := DependencyGraph.findCycle?_eq_some hcomplete h
    exact ⟨hcycle, hroot, Links.evaluationOrder_of_cycle hnodup hclosed h⟩
  · exact fun d h => Links.evaluationOrder_error hnodup hclosed h

/-- A constant that leads to a cycle of two others, next to one without references. -/
def cyclicReferences : List Constant :=
  [{ name := "X", typeName := none, expr := .literal (.integer 1) default },
   { name := "C", typeName := none, expr := .reference "A" default },
   { name := "A", typeName := none,
     expr := .apply "add" [.reference "B" default, .reference "X" default] default },
   { name := "B", typeName := none, expr := .reference "A" default }]

theorem findCycle?_cyclicReferences : Distinct cyclicReferences ∧ Complete cyclicReferences ∧
    ∃ g, DependencyGraph.ofConstants cyclicReferences = .ok g ∧
      ¬ Acyclic (Refers cyclicReferences) ∧
      g.links.evaluationOrder = .error (.cyclicDependency ["A", "B"]) := by
  have hdistinct : Distinct cyclicReferences := by decide
  have hcomplete : Complete cyclicReferences := by decide
  obtain ⟨g, hg, _, hnone, _, hsome, _⟩ :=
    findCycle?_acyclic_evaluationOrder hdistinct hcomplete
  have hfound : g.links.findCycle? = some ["A", "B"] := by
    rw [DependencyGraph.ofConstants_eq_ok hdistinct] at hg
    cases hg
    have hlinks : DependencyGraph.links ⟨cyclicReferences, hdistinct⟩ =
      [("X", []), ("C", ["A"]), ("A", ["B", "X"]), ("B", ["A"])] := by cbv
    rw [hlinks]
    rfl
  exact ⟨hdistinct, hcomplete, g, hg, by simp [← hnone, hfound], (hsome _ hfound).2.2⟩

end SharedConstants
