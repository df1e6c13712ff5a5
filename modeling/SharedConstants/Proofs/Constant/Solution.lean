import SharedConstants.Operator.Builtin
import SharedConstants.Proofs.Constant.Resolution

/-!
# What a resolution gives

A resolution that succeeds gives the one solution of the equations that the constants declare.
It reads the value of a name only after it has found it.
-/
namespace SharedConstants

open Constant (Distinct Refers Complete)

variable {types : TypeRegistry} {ops : OperatorRegistry} {constants : List Constant}
  {r : Resolved}

theorem map_constant_assemble {typed : List Typed} {values : Values}
    (h : ∀ entry ∈ typed, (values.get entry.1.name).isSome) :
    (assemble typed values).map ResolvedConstant.constant = typed.map Prod.fst := by
  induction typed with
  | nil => rfl
  | cons entry rest ih =>
    obtain ⟨hentry, hrest⟩ := List.forall_mem_cons.mp h
    obtain ⟨v, hv⟩ := Option.isSome_iff_exists.mp hentry
    simpa [assemble, hv] using ih hrest

theorem mem_assemble {typed : List Typed} {values : Values} {rc : ResolvedConstant}
    (h : rc ∈ assemble typed values) :
    (rc.constant, rc.type) ∈ typed ∧ values.get rc.name = some rc.value := by
  simp only [assemble, List.mem_filterMap, Option.map_eq_some_iff] at h
  obtain ⟨⟨c, t⟩, hmem, v, hv, rfl⟩ := h
  exact ⟨hmem, hv⟩

theorem isSome_get_iff {typed : List Typed} {values : Values}
    (htyped : lookupTypes types constants = .ok typed) (h : Solves ops constants values.get)
    (name : String) : (values.get name).isSome ↔ name ∈ typed.map fun entry => entry.1.name := by
  rw [h.defined, ← (lookupTypes_ok htyped).1, List.map_map]
  rfl

/-- A run adds the values of the names that it is given, the last one first. -/
theorem names_evaluateInOrder {typed : List Typed} {order : List String} {values found : Values}
    (hfind : ∀ name ∈ order, (typed.find? (·.1.name == name)).isSome)
    (h : evaluateInOrder ops typed order values = .ok found) :
    found.map Prod.fst = order.reverse ++ values.map Prod.fst := by
  induction order generalizing values with
  | nil =>
    cases h
    rfl
  | cons name order ih =>
    obtain ⟨hname, hfind⟩ := List.forall_mem_cons.mp hfind
    obtain ⟨⟨c, t⟩, hentry⟩ := Option.isSome_iff_exists.mp hname
    simp only [evaluateInOrder, hentry] at h
    cases hc : c.evaluate ops values.get t with
    | error d => simp [hc] at h
    | ok v =>
      simp only [hc] at h
      simp [ih hfind h]

/-- The values of a result are those that were found for its constants. -/
theorem value?_assemble {typed : List Typed} {values : Values} {order : List String}
    (h : ∀ name, (values.get name).isSome ↔ name ∈ typed.map fun entry => entry.1.name) :
    Resolved.value? ⟨assemble typed values, order⟩ = values.get := by
  funext name
  simp only [Resolved.value?]
  cases hfind : (assemble typed values).find? (·.name == name) with
  | some rc =>
    obtain rfl : rc.name = name := by simpa using List.find?_some hfind
    rw [Option.map_some, (mem_assemble (List.mem_of_find?_eq_some hfind)).2]
  | none =>
    have hall : ∀ entry ∈ typed, (values.get entry.1.name).isSome :=
      fun entry hentry => (h _).mpr (List.mem_map.mpr ⟨entry, hentry, rfl⟩)
    rw [Option.map_none, eq_comm, ← Option.not_isSome_iff_eq_none, h]
    intro hname
    obtain ⟨entry, hentry, rfl⟩ := List.mem_map.mp hname
    have hmem : entry.1 ∈ (assemble typed values).map ResolvedConstant.constant :=
      map_constant_assemble hall ▸ List.mem_map.mpr ⟨entry, hentry, rfl⟩
    obtain ⟨rc, hrc, hconstant⟩ := List.mem_map.mp hmem
    have hne := List.find?_eq_none.mp hfind rc hrc
    simp [ResolvedConstant.name, hconstant] at hne

/-- A resolution succeeds by evaluating a schedule of constants without structural faults. -/
theorem resolveDeclared_ok (h : resolveDeclared types ops constants = .ok r) :
    ∃ typed schedule values, Distinct constants ∧
      Complete constants ∧
      (∀ name, Grounded (Refers constants) name) ∧
      lookupTypes types constants = .ok typed ∧ IsSchedule constants schedule ∧
      evaluateInOrder ops typed (schedule.map Constant.name) [] = .ok values ∧
      r = ⟨assemble typed values, schedule.map Constant.name⟩ := by
  by_cases hdistinct : Distinct constants
  swap
  · obtain ⟨c, _, herror⟩ := resolveDeclared_of_repeated types ops hdistinct
    simp [h] at herror
  let g : DependencyGraph := ⟨constants, hdistinct⟩
  by_cases hcomplete : Complete g.constants
  swap
  · obtain ⟨c, name, span, _, _, herror⟩ :=
      resolveDeclared_of_incomplete types ops hcomplete
    simp [g, h] at herror
  by_cases hacyclic : Acyclic (Refers g.constants)
  swap
  · obtain ⟨cycle, _, herror⟩ :=
      resolveDeclared_of_cyclic types ops hcomplete hacyclic
    simp [g, h] at herror
  by_cases htypes : ∃ c ∈ g.constants, ∃ name, c.LacksType types name
  · obtain ⟨c, name, _, _, herror⟩ :=
      resolveDeclared_of_lacksType types ops hcomplete hacyclic htypes
    simp [g, h] at herror
  push Not at htypes
  obtain ⟨typed, schedule, htyped, hschedule, _, hgrounded, heq⟩ :=
    resolveDeclared_of_structural types ops hcomplete hacyclic htypes
  rw [show resolveDeclared types ops g.constants = .ok r from h] at heq
  cases hrun : evaluateInOrder ops typed (schedule.map Constant.name) [] with
  | error e => simp [hrun, Except.map] at heq
  | ok values =>
    refine ⟨typed, schedule, values, hdistinct, hcomplete, hgrounded, htyped, hschedule, hrun, ?_⟩
    simpa [hrun, Except.map] using heq

/-- What was found when a constant of a schedule is reached: the values of all names that it
mentions, the same as at the end. -/
theorem values_at_head {typed : List Typed} {before after : List Constant} {c : Constant}
    {values : Values} (hdistinct : Distinct constants)
    (hgrounded : ∀ name, Grounded (Refers constants) name)
    (htyped : lookupTypes types constants = .ok typed)
    (hschedule : IsSchedule constants (before ++ c :: after))
    (hrun : evaluateInOrder ops typed ((before ++ c :: after).map Constant.name) [] = .ok values)
    (hvalues : Satisfies ops (before ++ c :: after) values.get) :
    ∃ found, evaluateInOrder ops typed (before.map Constant.name) [] = .ok found ∧
      ∀ name, c.expr.Mentions name →
        ∃ v, found.get name = some v ∧ values.get name = some v := by
  have hspec := evaluateInOrder_head ops before (c :: after) hdistinct htyped hschedule
  rw [List.map_append, evaluateInOrder_append] at hrun
  cases hfound : evaluateInOrder ops typed (before.map Constant.name) [] with
  | error e => simp [hfound, Except.bind] at hrun
  | ok found =>
    simp only [hfound] at hspec
    refine ⟨found, rfl, fun name hname => ?_⟩
    have hmem := hschedule.behind before c after rfl name hname
    obtain ⟨v, hv⟩ := Option.isSome_iff_exists.mp ((hspec.defined name).mpr hmem)
    refine ⟨v, hv, ?_⟩
    rw [← hv]
    exact (hschedule.agree hgrounded rfl hspec.equations
      (fun b hb => hvalues b (List.mem_append_left _ hb)) hmem).symm

/-- The values that a resolution has found, one for each name in the order of evaluation, and the
list of its constants agree. -/
theorem resolve_values (h : resolve types ops constants = .ok r) :
    ∃ typed values, lookupTypes types (Constant.byOrdinal constants) = .ok typed ∧
      evaluateInOrder ops typed r.order [] = .ok values ∧
      values.map Prod.fst = r.order.reverse ∧ values.get = r.value? := by
  obtain ⟨typed, schedule, values, hdistinct, _, _, htyped, hschedule, hrun, rfl⟩ :=
    resolveDeclared_ok h
  have hevaluated := evaluateInOrder_head ops schedule [] hdistinct htyped
    (by simpa using hschedule)
  simp only [hrun] at hevaluated
  have hsolves : Solves ops (Constant.byOrdinal constants) values.get :=
    hevaluated.toSolves.perm hschedule.perm
  refine ⟨typed, values, htyped, hrun, ?_, (value?_assemble (isSome_get_iff htyped hsolves)).symm⟩
  have hfind : ∀ name ∈ schedule.map Constant.name,
      (typed.find? (·.1.name == name)).isSome := by
    intro name hname
    obtain ⟨c, hc, rfl⟩ := List.mem_map.mp hname
    obtain ⟨t, ht, _⟩ := typesOf_of_lookupTypes hdistinct htyped hschedule.perm.subset c hc
    rw [ht]
    rfl
  rw [names_evaluateInOrder hfind hrun, List.map_nil, List.append_nil]

/-- A resolution that succeeds gives the only solution of the equations: its constants are the
given ones sorted stably by their ordinals, each with its own value and type. Every name is
evaluated once, after all names that its expression mentions. -/
theorem resolve_solution (h : resolve types ops constants = .ok r) :
    Solves ops constants r.value? ∧
    (∀ values, Solves ops constants values → values = r.value?) ∧
    IsStableSort constants (r.constants.map ResolvedConstant.constant) ∧
    (∀ rc ∈ r.constants, r.value? rc.name = some rc.value ∧ rc.constant.HasType types rc.type) ∧
    r.order.Perm (constants.map Constant.name) ∧
    ∃ typed, lookupTypes types (Constant.byOrdinal constants) = .ok typed ∧
      ∀ before name after, r.order = before ++ name :: after →
        ∃ found, evaluateInOrder ops typed before [] = .ok found ∧
          ∀ c ∈ constants, c.name = name → ∀ a, c.expr.Mentions a →
            ∃ v, found.get a = some v ∧ r.value? a = some v := by
  have hsort := Constant.byOrdinal_isStableSort constants
  obtain ⟨typed, schedule, values, hdistinct, hcomplete, hgrounded, htyped, hschedule, hrun, hr⟩ :=
    resolveDeclared_ok h
  obtain ⟨hmap, htypes⟩ := lookupTypes_ok htyped
  have hevaluated := evaluateInOrder_head ops schedule [] hdistinct htyped
    (by simpa using hschedule)
  simp only [hrun] at hevaluated
  have hsolves : Solves ops (Constant.byOrdinal constants) values.get :=
    hevaluated.toSolves.perm hschedule.perm
  have hdefined := isSome_get_iff htyped hsolves
  have hvalue : r.value? = values.get := by
    rw [hr]
    exact value?_assemble hdefined
  have hconstants : r.constants.map ResolvedConstant.constant = Constant.byOrdinal constants := by
    rw [hr, map_constant_assemble fun entry hentry => (hdefined _).mpr (List.mem_map_of_mem hentry),
      hmap]
  rw [hconstants, hvalue]
  refine ⟨hsolves.perm hsort.perm, ?_, hsort, ?_, ?_, typed, htyped, ?_⟩
  · intro values' h'
    exact (h'.perm hsort.perm.symm).unique hsolves hcomplete hgrounded
  · intro rc hrc
    rw [hr] at hrc
    obtain ⟨hmem, hv⟩ := mem_assemble hrc
    exact ⟨hv, Constant.lookupType_ok (htypes _ hmem)⟩
  · rw [hr]
    exact (hschedule.perm.trans hsort.perm).map Constant.name
  · intro before name after horder
    rw [hr] at horder
    obtain ⟨head, tail, rfl, rfl, htail⟩ := List.map_eq_append_iff.mp horder
    obtain ⟨c, rest, rfl, rfl, rfl⟩ := List.map_eq_cons_iff.mp htail
    obtain ⟨found, hfound, hread⟩ :=
      values_at_head hdistinct hgrounded htyped hschedule hrun hevaluated.equations
    refine ⟨found, hfound, fun b hb hname => ?_⟩
    have hbc : b = c := Constant.eq_of_name_eq hdistinct (hsort.perm.mem_iff.mpr hb)
      (hschedule.perm.subset (by simp)) hname
    rwa [hbc]

/-- A constant that refers to one declared later. -/
def forwardReference : List Constant :=
  [{ name := "B", typeName := some "u32",
     expr := .apply "add" [.reference "A" ⟨5, 6⟩, .literal (.integer 16) ⟨7, 9⟩] ⟨0, 10⟩ },
   { name := "A", typeName := some "u32", expr := .literal (.integer 4096) ⟨0, 4⟩, ordinal := 1 }]

theorem resolve_forwardReference : resolve {} .builtin forwardReference = .ok
    ⟨[⟨forwardReference[0], .integer 4112, some (.integer "u32" 32 false)⟩,
      ⟨forwardReference[1], .integer 4096, some (.integer "u32" 32 false)⟩], ["A", "B"]⟩ := by
  have hsort : Constant.byOrdinal forwardReference = forwardReference :=
    List.mergeSort_of_pairwise (by decide)
  have hdistinct : Distinct forwardReference := by decide
  have hcomplete : Complete forwardReference := by decide
  have hvalid : DependencyGraph.validate ⟨forwardReference, hdistinct⟩ = .ok () :=
    DependencyGraph.validate_eq_ok hcomplete
  have hlinks : DependencyGraph.links ⟨forwardReference, hdistinct⟩ =
      [("B", ["A"]), ("A", [])] := by cbv
  have hcycle : Links.findCycle? [("B", ["A"]), ("A", [])] = none := rfl
  have horder : Links.evaluationOrder [("B", ["A"]), ("A", [])] = .ok ["A", "B"] := rfl
  rw [resolve, hsort, resolveDeclared, DependencyGraph.ofConstants_eq_ok hdistinct]
  simp only [bind, Except.bind, hvalid, hlinks, hcycle, horder]
  simp only [forwardReference, lookupTypes, Constant.lookupType, evaluateInOrder,
    Constant.evaluate, Expr.evaluate_eq_eval]
  rfl

theorem resolve_solution_forwardReference : ∃ r,
    resolve {} .builtin forwardReference = .ok r ∧ r.order = ["A", "B"] ∧
      r.value? "B" = some (.integer 4112) ∧ Solves .builtin forwardReference r.value? ∧
      ∀ values, Solves .builtin forwardReference values → values = r.value? :=
  ⟨_, resolve_forwardReference, rfl, rfl, (resolve_solution resolve_forwardReference).1,
    (resolve_solution resolve_forwardReference).2.1⟩

end SharedConstants
