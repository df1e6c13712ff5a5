import SharedConstants.Proofs.Constant.Cyclicity
import SharedConstants.Proofs.Constant.Range
import SharedConstants.Proofs.Constant.Reordering

/-!
# Where a resolution ends

A resolution passes five stages or ends at one of them. Each stage has a condition on the
constants that does not depend on their order or their ordinals: the first stage whose condition
fails is the one where the resolution ends. So the order in which constants are declared matters
neither for success nor for the values, nor for the stage of a failure.
-/
namespace SharedConstants

open Constant (Distinct Refers Complete byOrdinal)

/-- The stages of a resolution. -/
inductive Stage
  | names
  | references
  | cycles
  | types
  | values
  deriving DecidableEq, Repr

namespace Stage

/-- The stages that are passed before a stage is come to. -/
def earlier : Stage → List Stage
  | .names => []
  | .references => [.names]
  | .cycles => [.names, .references]
  | .types => [.names, .references, .cycles]
  | .values => [.names, .references, .cycles, .types]

/-- The code of what ends a resolution at a structural stage. -/
def code? : Stage → Option Code
  | .names => some .duplicateConstant
  | .references => some .unknownReference
  | .cycles => some .cyclicDependency
  | .types => some .unknownType
  | .values => none

theorem earlier_total (a b : Stage) : a = b ∨ a ∈ b.earlier ∨ b ∈ a.earlier := by
  cases a <;> cases b <;> decide

end Stage

/-- The condition under which constants pass a stage. -/
def Passes (types : TypeRegistry) (ops : OperatorRegistry) (constants : List Constant) :
    Stage → Prop
  | .names => Distinct constants
  | .references => Complete constants
  | .cycles => Acyclic (Refers constants)
  | .types => ∀ c ∈ constants, ∀ name, ¬ c.LacksType types name
  | .values => ∃ values, Evaluated types ops constants values

/-- A resolution ends at a stage: those before it have passed, and it reports a diagnostic. -/
inductive EndsAt (types : TypeRegistry) (ops : OperatorRegistry) (constants : List Constant) :
    Stage → Diagnostic → Prop
  | names {d : Diagnostic} : DependencyGraph.ofConstants (byOrdinal constants) = .error d →
    EndsAt types ops constants .names d
  | references {g : DependencyGraph} {d : Diagnostic} :
    DependencyGraph.ofConstants (byOrdinal constants) = .ok g → g.validate = .error d →
    EndsAt types ops constants .references d
  | cycles {g : DependencyGraph} {cycle : List String} :
    DependencyGraph.ofConstants (byOrdinal constants) = .ok g → g.validate = .ok () →
    g.links.findCycle? = some cycle →
    EndsAt types ops constants .cycles (.cyclicDependency cycle)
  | types {g : DependencyGraph} {d : Diagnostic} :
    DependencyGraph.ofConstants (byOrdinal constants) = .ok g → g.validate = .ok () →
    g.links.findCycle? = none → lookupTypes types (byOrdinal constants) = .error d →
    EndsAt types ops constants .types d
  | values {typed : List Typed} {order : List String} {d : Diagnostic} :
    Prepares types constants typed order → evaluateInOrder ops typed order [] = .error d →
    EndsAt types ops constants .values d

variable {types : TypeRegistry} {ops : OperatorRegistry} {constants constants' : List Constant}

/-- The condition of a stage does not depend on the order of the constants or their ordinals. -/
theorem Reordered.passes (h : Reordered constants constants') {stage : Stage}
    (hpasses : Passes types ops constants stage) : Passes types ops constants' stage := by
  cases stage with
  | names => exact h.names.nodup_iff.mp hpasses
  | references =>
    intro c' hc' name hname
    obtain ⟨c, hc, _, hexpr, _⟩ := h.symm.exists_mem hc'
    exact h.names.mem_iff.mp (hpasses c hc name (hexpr ▸ hname))
  | cycles =>
    intro name hloop
    exact hpasses name (Relation.TransGen.mono (fun _ _ => h.symm.refers_of_refers) _ _ hloop)
  | types =>
    rintro c' hc' name ⟨hstrict, hname, hnone⟩
    obtain ⟨c, hc, _, _, htype⟩ := h.symm.exists_mem hc'
    exact hpasses c hc name ⟨hstrict, htype.trans hname, hnone⟩
  | values =>
    obtain ⟨values, hvalues⟩ := hpasses
    exact ⟨values, h.evaluated hvalues⟩

theorem Reordered.passes_iff (h : Reordered constants constants') {stage : Stage} :
    Passes types ops constants stage ↔ Passes types ops constants' stage :=
  ⟨h.passes, h.symm.passes⟩

section Ends

variable {g : DependencyGraph} {typed : List Typed} {order : List String}

theorem validate_eq_ok_iff : g.validate = .ok () ↔ Complete g.constants := by
  refine ⟨fun h => ?_, DependencyGraph.validate_eq_ok⟩
  by_contra hincomplete
  obtain ⟨c, name, span, _, _, herror⟩ := DependencyGraph.validate_error hincomplete
  rw [h] at herror
  cases herror

theorem findCycle?_eq_none_iff_acyclic (hcomplete : Complete g.constants) :
    g.links.findCycle? = none ↔ Acyclic (Refers g.constants) := by
  rw [← DependencyGraph.links_dependsOn]
  exact Links.findCycle?_eq_none_iff (DependencyGraph.links_closed hcomplete)

theorem lookupTypes_isOk_iff : (∃ typed, lookupTypes types constants = .ok typed) ↔
    ∀ c ∈ constants, ∀ name, ¬ c.LacksType types name := by
  constructor
  · rintro ⟨typed, h⟩ c hc name
    obtain ⟨hmap, htypes⟩ := lookupTypes_ok h
    obtain ⟨⟨c, t⟩, hentry, rfl⟩ := List.mem_map.mp (hmap ▸ hc)
    exact Constant.not_lacksType_of_lookupType_ok (htypes _ hentry) name
  · intro h
    cases htyped : lookupTypes types constants with
    | ok typed => exact ⟨typed, rfl⟩
    | error d =>
      obtain ⟨c, name, ⟨before, after, hsplit, _⟩, hlacks, _⟩ := lookupTypes_error htyped
      exact absurd hlacks (h c (by simp [hsplit]) name)

theorem Prepares.complete (h : Prepares types constants typed order) :
    Complete (byOrdinal constants) := by
  obtain ⟨graph, hgraph, hvalid, _⟩ := h
  exact (DependencyGraph.distinct_of_ofConstants hgraph).1 ▸ validate_eq_ok_iff.mp hvalid

theorem Prepares.grounded (h : Prepares types constants typed order) :
    ∀ name, Grounded (Refers (byOrdinal constants)) name := by
  obtain ⟨graph, hgraph, _, _, _, horder⟩ := h
  have hnodup : graph.links.names.Nodup :=
    DependencyGraph.names_links graph ▸ graph.names_nodup
  rw [← (DependencyGraph.distinct_of_ofConstants hgraph).1, ← DependencyGraph.links_dependsOn]
  exact Links.grounded_of_evaluationOrder hnodup horder

/-- What is prepared passes the structural stages. -/
theorem Prepares.passes (h : Prepares types constants typed order) {stage : Stage}
    (hstage : stage ∈ Stage.values.earlier) : Passes types ops (byOrdinal constants) stage := by
  have hcomplete := h.complete
  have hgrounded := h.grounded
  obtain ⟨graph, hgraph, _, _, htyped, _⟩ := h
  cases stage with
  | names => exact (DependencyGraph.distinct_of_ofConstants hgraph).2
  | references => exact hcomplete
  | cycles => exact acyclic_of_grounded hgrounded
  | types => exact lookupTypes_isOk_iff.mp ⟨_, htyped⟩
  | values => exact absurd hstage (by decide)

/-- Constants that are prepared are evaluated by values of their types, or they fail. -/
theorem Prepares.evaluated (ops : OperatorRegistry) (h : Prepares types constants typed order) :
    match evaluateInOrder ops typed order [] with
    | .ok values => Evaluated types ops (byOrdinal constants) values.get
    | .error _ => ∀ values, ¬ Evaluated types ops (byOrdinal constants) values := by
  have hgrounded := h.grounded
  obtain ⟨graph, hgraph, _, _, htyped, horder⟩ := h
  obtain ⟨hconstants, hdistinct⟩ := DependencyGraph.distinct_of_ofConstants hgraph
  obtain ⟨schedule, hschedule, rfl⟩ := exists_schedule horder
  rw [hconstants] at hschedule
  have hrun := evaluateInOrder_head ops schedule [] hdistinct htyped (by simpa using hschedule)
  cases hvalues : evaluateInOrder ops typed (schedule.map Constant.name) [] with
  | ok values =>
    simp only [hvalues] at hrun ⊢
    exact (reordered_of_perm hschedule.perm).evaluated hrun
  | error d =>
    simp only [hvalues] at hrun ⊢
    obtain ⟨c, d, ⟨before, after, found, hsplit, hfound, hfails⟩, _⟩ := hrun
    intro values hall
    -- the schedule is evaluated as well, so no constant of it fails
    have hevaluated := (reordered_of_perm hschedule.perm.symm).evaluated hall
    exact hevaluated.not_fails hschedule hgrounded (List.append_nil schedule).symm hsplit
      hfound.equations hfails

/-- A resolution passes the stages before the one at which it ends, and not that one. -/
theorem EndsAt.first {stage : Stage} {d : Diagnostic} (h : EndsAt types ops constants stage d) :
    ¬ Passes types ops (byOrdinal constants) stage ∧
      ∀ a ∈ stage.earlier, Passes types ops (byOrdinal constants) a := by
  cases h with
  | names herror =>
    refine ⟨fun hdistinct => ?_, List.forall_mem_nil _⟩
    rw [DependencyGraph.ofConstants_eq_ok hdistinct] at herror
    cases herror
  | @references g _ hgraph herror =>
    obtain ⟨hconstants, hdistinct⟩ := DependencyGraph.distinct_of_ofConstants hgraph
    refine ⟨fun hcomplete => ?_, List.forall_mem_singleton.mpr hdistinct⟩
    rw [validate_eq_ok_iff.mpr (hconstants ▸ hcomplete)] at herror
    cases herror
  | @cycles g _ hgraph hvalid hcycle =>
    obtain ⟨hconstants, hdistinct⟩ := DependencyGraph.distinct_of_ofConstants hgraph
    have hcomplete := validate_eq_ok_iff.mp hvalid
    refine ⟨fun hacyclic => ?_, ?_⟩
    · rw [(findCycle?_eq_none_iff_acyclic hcomplete).mpr (hconstants ▸ hacyclic)] at hcycle
      cases hcycle
    · exact List.forall_mem_cons.mpr
        ⟨hdistinct, List.forall_mem_singleton.mpr (hconstants ▸ hcomplete)⟩
  | @types g _ hgraph hvalid hcycle herror =>
    obtain ⟨hconstants, hdistinct⟩ := DependencyGraph.distinct_of_ofConstants hgraph
    have hcomplete := validate_eq_ok_iff.mp hvalid
    have hacyclic := (findCycle?_eq_none_iff_acyclic hcomplete).mp hcycle
    rw [hconstants] at hcomplete hacyclic
    refine ⟨fun htypes => ?_, ?_⟩
    · obtain ⟨typed, htyped⟩ := lookupTypes_isOk_iff.mpr htypes
      rw [htyped] at herror
      cases herror
    · exact List.forall_mem_cons.mpr ⟨hdistinct, List.forall_mem_cons.mpr
        ⟨hcomplete, List.forall_mem_singleton.mpr hacyclic⟩⟩
  | @values typed order _ hprepares herror =>
    have hnone := hprepares.evaluated ops
    simp only [herror] at hnone
    exact ⟨fun hpasses => hpasses.elim hnone, fun a ha => hprepares.passes ha⟩

/-- Reordered constants end at the same stage. -/
theorem EndsAt.stage_eq (hreordered : Reordered constants constants') {a b : Stage}
    {d d' : Diagnostic} (h : EndsAt types ops constants a d)
    (h' : EndsAt types ops constants' b d') : a = b := by
  have hpasses : ∀ stage, Passes types ops (byOrdinal constants) stage ↔
      Passes types ops (byOrdinal constants') stage := fun stage =>
    (reordered_byOrdinal constants).passes_iff.trans
      (hreordered.passes_iff.trans (reordered_byOrdinal constants').passes_iff.symm)
  rcases Stage.earlier_total a b with heq | hearlier | hearlier
  · exact heq
  · exact absurd ((hpasses a).mpr (h'.first.2 a hearlier)) h.first.1
  · exact absurd ((hpasses b).mp (h.first.2 b hearlier)) h'.first.1

/-- What a resolution reports at the stage where it ends is its failure. -/
theorem EndsAt.resolve_eq {stage : Stage} {d : Diagnostic}
    (h : EndsAt types ops constants stage d) : resolve types ops constants = .error d := by
  have hcycles : ∀ {g : DependencyGraph},
      DependencyGraph.ofConstants (byOrdinal constants) = .ok g → g.validate = .ok () →
      resolve types ops constants = resolveDeclared types ops g.constants ∧
        Complete g.constants := fun hgraph hvalid =>
    ⟨by rw [resolve, (DependencyGraph.distinct_of_ofConstants hgraph).1],
      validate_eq_ok_iff.mp hvalid⟩
  cases h with
  | names herror =>
    rw [resolve, resolveDeclared, herror]
    rfl
  | references hgraph herror =>
    rw [resolve, resolveDeclared, hgraph]
    simp only [bind, Except.bind, herror]
  | cycles hgraph hvalid hcycle =>
    obtain ⟨heq, hcomplete⟩ := hcycles hgraph hvalid
    rw [heq, resolveDeclared_eq hcomplete, hcycle]
  | types hgraph hvalid hcycle herror =>
    obtain ⟨heq, hcomplete⟩ := hcycles hgraph hvalid
    rw [← (DependencyGraph.distinct_of_ofConstants hgraph).1] at herror
    rw [heq, resolveDeclared_eq hcomplete, hcycle, herror]
    rfl
  | values hprepares herror =>
    rw [hprepares.resolve_eq, herror]
    rfl

/-- Constants that pass the structural stages are prepared for evaluation. -/
theorem exists_prepares_of_structural {g : DependencyGraph}
    (hgraph : DependencyGraph.ofConstants (byOrdinal constants) = .ok g)
    (hvalid : g.validate = .ok ()) (hcycle : g.links.findCycle? = none)
    (htyped : lookupTypes types (byOrdinal constants) = .ok typed) :
    ∃ order, Prepares types constants typed order := by
  have hclosed := DependencyGraph.links_closed (validate_eq_ok_iff.mp hvalid)
  have hnodup : g.links.names.Nodup := DependencyGraph.names_links g ▸ g.names_nodup
  have hacyclic := (Links.findCycle?_eq_none_iff hclosed).mp hcycle
  obtain ⟨order, horder⟩ := (Links.evaluationOrder_isOk_iff hnodup hclosed).mpr hacyclic
  exact ⟨order, g, hgraph, hvalid, hcycle, htyped, horder⟩

/-- A resolution that fails ends at a stage. -/
theorem exists_endsAt {d : Diagnostic} (h : resolve types ops constants = .error d) :
    ∃ stage, EndsAt types ops constants stage d := by
  have hends : ∀ {stage d'}, EndsAt types ops constants stage d' →
      ∃ stage, EndsAt types ops constants stage d := fun {stage d'} hstage => by
    obtain rfl : d' = d := Except.error.inj (hstage.resolve_eq.symm.trans h)
    exact ⟨stage, hstage⟩
  cases hgraph : DependencyGraph.ofConstants (byOrdinal constants) with
  | error d' => exact hends (.names hgraph)
  | ok g =>
  cases hvalid : g.validate with
  | error d' => exact hends (.references hgraph hvalid)
  | ok _ =>
  cases hcycle : g.links.findCycle? with
  | some cycle => exact hends (.cycles hgraph hvalid hcycle)
  | none =>
  cases htyped : lookupTypes types (byOrdinal constants) with
  | error d' => exact hends (.types hgraph hvalid hcycle htyped)
  | ok typed =>
  obtain ⟨order, hprepares⟩ := exists_prepares_of_structural hgraph hvalid hcycle htyped
  cases hrun : evaluateInOrder ops typed order [] with
  | error d' => exact hends (.values hprepares hrun)
  | ok values =>
    rw [hprepares.resolve_eq, hrun] at h
    cases h

/-- The values of a resolution that succeeds evaluate its constants. -/
theorem evaluated_of_resolve {r : Resolved} (h : resolve types ops constants = .ok r) :
    Evaluated types ops constants r.value? := by
  obtain ⟨typed, order, hprepares⟩ := exists_prepares h
  have hevaluated := hprepares.evaluated ops
  rw [hprepares.resolve_eq] at h
  obtain ⟨values, hrun, rfl⟩ := map_eq_ok.mp h
  simp only [hrun] at hevaluated
  obtain ⟨_, _, _, _, htyped, _⟩ := hprepares
  rw [value?_assemble (isSome_get_iff htyped hevaluated.toSolves)]
  exact (reordered_byOrdinal constants).evaluated hevaluated

/-- A resolution that succeeds lists the constants in the order of their ordinals. -/
theorem constants_of_resolve {r : Resolved} (h : resolve types ops constants = .ok r) :
    r.constants.map ResolvedConstant.constant = byOrdinal constants := by
  obtain ⟨typed, order, hprepares⟩ := exists_prepares h
  have hevaluated := hprepares.evaluated ops
  rw [hprepares.resolve_eq] at h
  obtain ⟨values, hrun, rfl⟩ := map_eq_ok.mp h
  simp only [hrun] at hevaluated
  obtain ⟨_, _, _, _, htyped, _⟩ := hprepares
  obtain ⟨hmap, _⟩ := lookupTypes_ok htyped
  rw [map_constant_assemble, hmap]
  intro entry hentry
  have hmem : entry.1 ∈ byOrdinal constants := hmap ▸ List.mem_map_of_mem hentry
  exact (hevaluated.defined _).mpr (List.mem_map_of_mem hmem)

/-- No name leads to a cycle in a resolution that succeeds. -/
theorem grounded_of_resolve {r : Resolved} (h : resolve types ops constants = .ok r) :
    ∀ name, Grounded (Refers constants) name := by
  obtain ⟨typed, order, hprepares⟩ := exists_prepares h
  exact grounded_of_subset (Constant.byOrdinal_isStableSort constants).perm.symm.subset
    hprepares.grounded

/-- A resolution that succeeds gives the only values that solve the equations. -/
theorem value?_unique {r : Resolved} {values : Valuation} (h : resolve types ops constants = .ok r)
    (hvalues : Solves ops constants values) : values = r.value? := by
  obtain ⟨typed, order, hprepares⟩ := exists_prepares h
  have hperm := (Constant.byOrdinal_isStableSort constants).perm.symm
  exact (hvalues.perm hperm).unique ((evaluated_of_resolve h).toSolves.perm hperm)
    hprepares.complete hprepares.grounded

/-- A resolution succeeds if the constants pass all stages. -/
theorem resolve_isOk_iff : (∃ r, resolve types ops constants = .ok r) ↔
    ∀ stage, Passes types ops constants stage := by
  constructor
  · rintro ⟨r, h⟩ stage
    obtain ⟨typed, order, hprepares⟩ := exists_prepares h
    cases stage with
    | values => exact ⟨_, evaluated_of_resolve h⟩
    | _ => exact (reordered_byOrdinal constants).passes (hprepares.passes (by decide))
  · intro hpasses
    cases h : resolve types ops constants with
    | ok r => exact ⟨r, rfl⟩
    | error d =>
      obtain ⟨stage, hends⟩ := exists_endsAt h
      exact absurd ((reordered_byOrdinal constants).symm.passes (hpasses stage)) hends.first.1

theorem EndsAt.code {stage : Stage} {d : Diagnostic} (h : EndsAt types ops constants stage d) :
    ∀ code ∈ stage.code?, d.code = code := by
  cases h with
  | names herror =>
    by_cases hdistinct : Distinct (byOrdinal constants)
    · rw [DependencyGraph.ofConstants_eq_ok hdistinct] at herror
      cases herror
    · obtain ⟨c, _, hduplicate⟩ := DependencyGraph.ofConstants_error hdistinct
      rw [herror] at hduplicate
      cases hduplicate
      simp [Stage.code?, Diagnostic.attach, Diagnostic.duplicateConstant, Fault.code]
  | @references g _ hgraph herror =>
    by_cases hcomplete : Complete g.constants
    · rw [validate_eq_ok_iff.mpr hcomplete] at herror
      cases herror
    · obtain ⟨c, name, span, _, _, hunknown⟩ := DependencyGraph.validate_error hcomplete
      rw [herror] at hunknown
      cases hunknown
      simp [Stage.code?, DependencyGraph.unknownReference, Fault.code]
  | cycles => simp [Stage.code?, Diagnostic.cyclicDependency, Fault.code]
  | types _ _ _ herror =>
    obtain ⟨c, name, _, _, rfl⟩ := lookupTypes_error herror
    simp [Stage.code?, Diagnostic.attachConstant, Diagnostic.attach, Fault.code]
  | values => simp [Stage.code?]

end Ends

/-- Where constants are declared, and under what ordinals, decides neither whether a resolution
succeeds nor what values it gives. A resolution that fails ends at exactly one stage, which is the
same one for all orders. -/
theorem resolve_reordered (types : TypeRegistry) (ops : OperatorRegistry)
    {constants constants' : List Constant} (h : Reordered constants constants') :
    ((∃ r, resolve types ops constants = .ok r) ↔ ∃ r, resolve types ops constants' = .ok r) ∧
    (∀ r r', resolve types ops constants = .ok r → resolve types ops constants' = .ok r' →
      r.value? = r'.value?) ∧
    ∀ d d', resolve types ops constants = .error d → resolve types ops constants' = .error d' →
      ∃ stage, (∀ a, EndsAt types ops constants a d ↔ a = stage) ∧
        (∀ a, EndsAt types ops constants' a d' ↔ a = stage) ∧
        ∀ code ∈ stage.code?, d.code = code ∧ d'.code = code := by
  refine ⟨?_, fun r r' hr hr' => ?_, fun d d' hd hd' => ?_⟩
  · rw [resolve_isOk_iff, resolve_isOk_iff]
    exact forall_congr' fun stage => h.passes_iff
  · exact value?_unique hr' (h.evaluated (evaluated_of_resolve hr)).toSolves
  · obtain ⟨stage, hends⟩ := exists_endsAt hd
    obtain ⟨stage', hends'⟩ := exists_endsAt hd'
    obtain rfl : stage = stage' := hends.stage_eq h hends'
    refine ⟨stage, fun a => ⟨fun ha => ?_, ?_⟩, fun a => ⟨fun ha => ?_, ?_⟩, ?_⟩
    · exact ha.stage_eq h hends'
    · rintro rfl
      exact hends
    · exact (hends.stage_eq h ha).symm
    · rintro rfl
      exact hends'
    · exact fun code hcode => ⟨hends.code code hcode, hends'.code code hcode⟩

/-- The constants of `forwardReference` the other way round, under other ordinals. -/
def backwardReference : List Constant :=
  [{ forwardReference[1] with ordinal := -2 }, { forwardReference[0] with ordinal := 5 }]

/-- A cycle is entered at the constant that is declared first. -/
theorem endsAt_cyclicReferences :
    EndsAt {} .builtin cyclicReferences .cycles (.cyclicDependency ["A", "B"]) ∧
    EndsAt {} .builtin cyclicReferences.reverse .cycles (.cyclicDependency ["B", "A"]) := by
  have hends : ∀ {constants : List Constant} (links : Links) {cycle : List String}
      (hdistinct : Distinct constants), Complete constants → byOrdinal constants = constants →
      DependencyGraph.links ⟨constants, hdistinct⟩ = links → links.findCycle? = some cycle →
      EndsAt {} .builtin constants .cycles (.cyclicDependency cycle) := by
    intro constants links cycle hdistinct hcomplete hsort hlinks hcycle
    have hgraph : DependencyGraph.ofConstants (byOrdinal constants) = .ok ⟨constants, hdistinct⟩ :=
      hsort.symm ▸ DependencyGraph.ofConstants_eq_ok hdistinct
    exact .cycles hgraph (DependencyGraph.validate_eq_ok hcomplete) (hlinks ▸ hcycle)
  constructor
  · exact hends [("X", []), ("C", ["A"]), ("A", ["B", "X"]), ("B", ["A"])]
      (by decide) (by decide) (List.mergeSort_of_pairwise (by decide)) (by cbv) rfl
  · exact hends [("B", ["A"]), ("A", ["B", "X"]), ("C", ["A"]), ("X", [])]
      (by decide) (by decide) (List.mergeSort_of_pairwise (by decide)) (by cbv) rfl

theorem resolve_reordered_backwardReference :
    Reordered forwardReference backwardReference ∧
    (∃ r r', resolve {} .builtin forwardReference = .ok r ∧
      resolve {} .builtin backwardReference = .ok r' ∧ r.value? = r'.value? ∧
      r'.value? "B" = some (.integer 4112)) ∧
    Reordered cyclicReferences cyclicReferences.reverse ∧
    ∃ d d', resolve {} .builtin cyclicReferences = .error d ∧
      resolve {} .builtin cyclicReferences.reverse = .error d' ∧ d.fault ≠ d'.fault ∧
      d.code = .cyclicDependency ∧ d'.code = .cyclicDependency := by
  have hreference : Reordered forwardReference backwardReference := .swap _ _ _
  obtain ⟨hok, hvalue, _⟩ := resolve_reordered {} .builtin hreference
  obtain ⟨r', hr'⟩ := hok.mp ⟨_, resolve_forwardReference⟩
  have heq := hvalue _ _ resolve_forwardReference hr'
  have hcyclic : Reordered cyclicReferences cyclicReferences.reverse :=
    reordered_of_perm (List.reverse_perm _).symm
  obtain ⟨hleft, hright⟩ := endsAt_cyclicReferences
  obtain ⟨_, _, hfails⟩ := resolve_reordered {} .builtin hcyclic
  obtain ⟨stage, hstage, _, hcode⟩ := hfails _ _ hleft.resolve_eq hright.resolve_eq
  obtain rfl := (hstage _).mp hleft
  exact ⟨hreference, ⟨_, r', resolve_forwardReference, hr', heq, heq ▸ rfl⟩, hcyclic, _, _,
    hleft.resolve_eq, hright.resolve_eq, by simp [Diagnostic.cyclicDependency], hcode _ rfl⟩

end SharedConstants
