import SharedConstants.Proofs.Constant.Solution
import SharedConstants.Proofs.Operator.Builtin

/-!
# How a resolution ends

Repeated names, unknown references, cycles and unknown types end a resolution before anything
is evaluated, in this order. Without them the first constant of the evaluation order that fails
decides, and without a failure the resolution succeeds.
-/
namespace SharedConstants

open Constant (Distinct Refers IsComplete Complete FirstRepeated)

variable {types : TypeRegistry} {ops : OperatorRegistry} {values : Valuation}

theorem SemanticType.check_error {t : SemanticType} {v : Value} {d : Diagnostic}
    (h : t.check v = .error d) :
    d.constant = none ∧ ∀ name, d.fault ≠ .unknownReference name := by
  simp only [check, misfit?] at h
  split at h
  · cases h
  · next fault hfault =>
    cases h
    refine ⟨rfl, fun name hname => ?_⟩
    simp only at hname
    subst hname
    split at hfault
    · simp at hfault
    · split at hfault
      · cases hfault
      · split at hfault <;> simp at hfault

/-- The failure of a constant whose references all have values is not placed yet, and it is an
unknown reference only if the meaning of an operator says so. -/
theorem Constant.Fails.fault {c : Constant} {d : Diagnostic} (h : c.Fails types ops values d)
    (hdefined : ∀ name, c.expr.Mentions name → (values name).isSome) :
    d.constant = none ∧ ∀ name, d.fault = .unknownReference name →
      ∃ op ∈ ops.operators, ∃ vs, op.Admits vs ∧
        op.compute vs = .error (.unknownReference name) := by
  rcases h with heval | ⟨v, t, _, _, hcheck⟩
  · exact Expr.eval_error_of_defined hdefined heval
  · obtain ⟨hconstant, hfault⟩ := SemanticType.check_error hcheck
    exact ⟨hconstant, fun name hname => absurd hname (hfault name)⟩

/-- The first failure of a schedule carries the name of its constant. -/
theorem FirstFailure.placed {constants schedule : List Constant} {c : Constant} {d : Diagnostic}
    (h : FirstFailure types ops schedule c d) (hschedule : IsSchedule constants schedule) :
    (c.place d).constant = some c.name ∧ ∀ name, (c.place d).fault = .unknownReference name →
      ∃ op ∈ ops.operators, ∃ vs, op.Admits vs ∧
        op.compute vs = .error (.unknownReference name) := by
  obtain ⟨before, after, values, hsplit, hevaluated, hfails⟩ := h
  obtain ⟨hplace, hfault⟩ := hfails.fault fun name hname =>
    (hevaluated.defined name).mpr (hschedule.behind before c after hsplit name hname)
  exact ⟨by simp [Constant.place, Diagnostic.attach, hplace], hfault⟩

variable (ops) in
/-- The evaluation of a whole schedule ends with its first failure, or succeeds without one. -/
theorem evaluateInOrder_outcome {constants schedule : List Constant} {typed : List Typed}
    (hdistinct : Distinct constants) (htyped : lookupTypes types constants = .ok typed)
    (hschedule : IsSchedule constants schedule)
    (hgrounded : ∀ name, Grounded (Constant.Refers constants) name) :
    (∀ c d, FirstFailure types ops schedule c d →
      evaluateInOrder ops typed (schedule.map Constant.name) [] = .error (c.place d)) ∧
    ((∀ c d, ¬ FirstFailure types ops schedule c d) →
      ∃ values, evaluateInOrder ops typed (schedule.map Constant.name) [] = .ok values) := by
  have hrun := evaluateInOrder_head ops schedule [] hdistinct htyped (by simpa using hschedule)
  cases hvalues : evaluateInOrder ops typed (schedule.map Constant.name) [] with
  | ok values =>
    simp only [hvalues] at hrun
    refine ⟨fun c d hfirst => ?_, fun _ => ⟨values, rfl⟩⟩
    -- what fails first would have been evaluated
    obtain ⟨before, after, found, hsplit, hfound, hfails⟩ := hfirst
    exact absurd hfails (hrun.not_fails hschedule hgrounded
      (List.append_nil schedule).symm hsplit hfound.equations)
  | error e =>
    simp only [hvalues] at hrun
    obtain ⟨c', d', hfirst', rfl⟩ := hrun
    refine ⟨fun c d hfirst => ?_, fun hnone => absurd hfirst' (hnone c' d')⟩
    obtain ⟨rfl, rfl⟩ := hfirst.unique hschedule hgrounded hfirst'
    rfl

/-- How a resolution ends. Constants are taken in the order of their ordinals; failures of
evaluation in the order of evaluation. Evaluation meets an unknown reference only if the meaning
of an operator reports one against the contract of operators. -/
theorem resolve_outcome (types : TypeRegistry) (ops : OperatorRegistry)
    (constants : List Constant) :
    let declared := Constant.byOrdinal constants
    let result := resolve types ops constants
    (¬ Distinct declared → ∃ c, FirstRepeated declared c ∧
      result = .error ((Diagnostic.duplicateConstant c.name).attach none none c.source? none)) ∧
    (Distinct declared → ¬ Complete declared → ∃ c name span,
      First (fun c => ¬ IsComplete declared c) declared c ∧
      First (fun o => o.1 ∉ declared.map Constant.name) c.expr.occurrences (name, span) ∧
      result = .error (DependencyGraph.unknownReference c name span)) ∧
    (Distinct declared → Complete declared → ¬ Acyclic (Refers declared) → ∃ cycle,
      IsCycle (Refers declared) cycle ∧ result = .error (.cyclicDependency cycle)) ∧
    (Distinct declared → Complete declared → Acyclic (Refers declared) →
      (∃ c ∈ declared, ∃ name, c.LacksType types name) → ∃ c name,
        First (fun c => ∃ name, c.LacksType types name) declared c ∧ c.LacksType types name ∧
        result = .error (Diagnostic.attachConstant { fault := .unknownType name } c.name)) ∧
    (Distinct declared → Complete declared → Acyclic (Refers declared) →
      (∀ c ∈ declared, ∀ name, ¬ c.LacksType types name) → ∃ g schedule,
        DependencyGraph.ofConstants declared = .ok g ∧ IsSchedule declared schedule ∧
        g.links.evaluationOrder = .ok (schedule.map Constant.name) ∧
        (∀ c d, FirstFailure types ops schedule c d → result = .error (c.place d) ∧
          (c.place d).constant = some c.name ∧
          (∀ name, (c.place d).fault = .unknownReference name →
            ∃ op ∈ ops.operators, ∃ vs, op.Admits vs ∧
              op.compute vs = .error (.unknownReference name)) ∧
          (ops.Lawful → ∀ name, (c.place d).fault ≠ .unknownReference name)) ∧
        ((∀ c d, ¬ FirstFailure types ops schedule c d) → ∃ r, result = .ok r)) := by
  intro declared result
  refine ⟨resolveDeclared_of_repeated types ops,
    fun hdistinct => resolveDeclared_of_incomplete types ops (g := ⟨declared, hdistinct⟩),
    fun hdistinct => resolveDeclared_of_cyclic types ops (g := ⟨declared, hdistinct⟩),
    fun hdistinct => resolveDeclared_of_lacksType types ops (g := ⟨declared, hdistinct⟩), ?_⟩
  intro hdistinct hcomplete hacyclic htypes
  let g : DependencyGraph := ⟨declared, hdistinct⟩
  obtain ⟨typed, schedule, htyped, hschedule, horder, hgrounded, hresult⟩ :=
    resolveDeclared_of_structural types ops (g := g) hcomplete hacyclic htypes
  obtain ⟨hfails, hsucceeds⟩ := evaluateInOrder_outcome ops hdistinct htyped hschedule hgrounded
  refine ⟨g, schedule, DependencyGraph.ofConstants_eq_ok hdistinct, hschedule, horder, ?_, ?_⟩
  · intro c d hfirst
    obtain ⟨hplace, hreference⟩ := hfirst.placed hschedule
    have hnever : ops.Lawful → ∀ name, (c.place d).fault ≠ .unknownReference name := by
      intro hlawful name hname
      obtain ⟨op, hop, vs, hadmits, hcompute⟩ := hreference name hname
      exact hlawful op hop vs _ hadmits hcompute trivial
    refine ⟨?_, hplace, hreference, hnever⟩
    exact hresult.trans (by rw [hfails c d hfirst]; rfl)
  · intro hnone
    obtain ⟨values, hvalues⟩ := hsucceeds hnone
    exact ⟨_, hresult.trans (by rw [hvalues]; rfl)⟩

end SharedConstants
