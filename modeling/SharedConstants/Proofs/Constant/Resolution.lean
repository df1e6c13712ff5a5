import SharedConstants.Proofs.Constant.Equations

/-!
# The stages of resolution

Each structural stage of a resolution either passes or ends it with the fault of the first
constant that does not pass. When all have passed, there is a schedule of the constants, and the
resolution does what the evaluation of this schedule does.
-/
namespace SharedConstants

open Constant (Distinct Refers IsComplete Complete FirstRepeated)

/-- A list in the order of the ordinals, with constants of one ordinal as they stood. -/
structure IsStableSort (constants sorted : List Constant) : Prop where
  perm : sorted.Perm constants
  ascending : sorted.Pairwise fun a b => a.ordinal ≤ b.ordinal
  stable : ∀ n, sorted.filter (·.ordinal = n) = constants.filter (·.ordinal = n)

namespace Constant

theorem byOrdinal_isStableSort (constants : List Constant) :
    IsStableSort constants (byOrdinal constants) := by
  have htrans : ∀ a b c : Constant, decide (a.ordinal ≤ b.ordinal) = true →
      decide (b.ordinal ≤ c.ordinal) = true → decide (a.ordinal ≤ c.ordinal) = true := by
    simp only [decide_eq_true_eq]
    exact fun a b c => Int.le_trans
  have htotal : ∀ a b : Constant,
      (decide (a.ordinal ≤ b.ordinal) || decide (b.ordinal ≤ a.ordinal)) = true := by
    simpa using fun a b : Constant => Int.le_total a.ordinal b.ordinal
  have hperm : (byOrdinal constants).Perm constants := List.mergeSort_perm _ _
  refine ⟨hperm, ?_, fun n => ?_⟩
  · simpa [byOrdinal] using List.pairwise_mergeSort htrans htotal constants
  · have hequal : (constants.filter (·.ordinal = n)).Pairwise
        fun a b => decide (a.ordinal ≤ b.ordinal) = true := by
      refine List.pairwise_of_forall_mem_list fun a ha b hb => ?_
      simp only [List.mem_filter, decide_eq_true_eq] at ha hb
      simp [ha.2, hb.2]
    have hsub := (List.sublist_mergeSort htrans htotal hequal List.filter_sublist).filter
      (·.ordinal = n)
    rw [List.filter_filter] at hsub
    simp only [Bool.and_self] at hsub
    exact (hsub.eq_of_length (hperm.filter _).length_eq.symm).symm

/-- A type registry has no type for the name that a constant declares, and takes no default. -/
def LacksType (types : TypeRegistry) (c : Constant) (name : String) : Prop :=
  types.strict = true ∧ c.typeName = some name ∧ ∀ t ∈ types.types, t.name ≠ name

variable {types : TypeRegistry} {c : Constant}

theorem lookupType_error {d : Diagnostic} (h : c.lookupType types = .error d) :
    ∃ name, c.LacksType types name ∧
      d = Diagnostic.attachConstant { fault := .unknownType name } c.name := by
  simp only [lookupType] at h
  cases hname : c.typeName with
  | none => simp [hname] at h
  | some name =>
    simp only [hname, TypeRegistry.lookup] at h
    cases hfind : types.find? name with
    | some t => simp [hfind] at h
    | none =>
      cases hstrict : types.strict with
      | false => simp [hfind, hstrict] at h
      | true =>
        simp only [hfind, hstrict, if_true, Except.error.injEq] at h
        have hnone : ∀ t ∈ types.types, t.name ≠ name := by
          simpa [TypeRegistry.find?] using hfind
        exact ⟨name, ⟨hstrict, hname, hnone⟩, h.symm⟩

/-- The type of a constant is the one that its type name looks up to, if it has a type name. -/
def HasType (types : TypeRegistry) (c : Constant) (type : Option SemanticType) : Prop :=
  (c.typeName = none ∧ type = none) ∨
    ∃ name t, c.typeName = some name ∧ types.lookup name = .ok t ∧ type = some t

theorem lookupType_ok {type : Option SemanticType} (h : c.lookupType types = .ok type) :
    c.HasType types type := by
  simp only [lookupType] at h
  cases hname : c.typeName with
  | none => exact .inl ⟨hname, by simpa [hname] using h.symm⟩
  | some name =>
    cases hlookup : types.lookup name with
    | error d => simp [hname, hlookup] at h
    | ok t => exact .inr ⟨name, t, hname, hlookup, by simpa [hname, hlookup] using h.symm⟩

theorem not_lacksType_of_lookupType_ok {type : Option SemanticType}
    (h : c.lookupType types = .ok type) (name : String) : ¬ c.LacksType types name := by
  rintro ⟨hstrict, hname, hnone⟩
  have hfind : types.find? name = none := by simpa [TypeRegistry.find?] using hnone
  simp [lookupType, hname, TypeRegistry.lookup, hfind, hstrict] at h

end Constant

variable {types : TypeRegistry} {ops : OperatorRegistry} {constants : List Constant}

theorem lookupTypes_ok {typed : List Typed} (h : lookupTypes types constants = .ok typed) :
    typed.map Prod.fst = constants ∧ ∀ entry ∈ typed, entry.1.lookupType types = .ok entry.2 := by
  induction constants generalizing typed with
  | nil =>
    cases h
    simp
  | cons c rest ih =>
    simp only [lookupTypes] at h
    cases hc : c.lookupType types with
    | error d => simp [hc] at h
    | ok t =>
      cases hrest : lookupTypes types rest with
      | error d => simp [hc, hrest] at h
      | ok typedRest =>
        obtain rfl : (c, t) :: typedRest = typed := by simpa [hc, hrest] using h
        obtain ⟨hmap, hall⟩ := ih hrest
        exact ⟨by simp [hmap], List.forall_mem_cons.mpr ⟨hc, hall⟩⟩

/-- An unknown type is reported at the first constant that declares one. -/
theorem lookupTypes_error {d : Diagnostic} (h : lookupTypes types constants = .error d) :
    ∃ c name, First (fun c => ∃ name, c.LacksType types name) constants c ∧
      c.LacksType types name ∧
      d = Diagnostic.attachConstant { fault := .unknownType name } c.name := by
  induction constants with
  | nil => cases h
  | cons c rest ih =>
    simp only [lookupTypes] at h
    cases hc : c.lookupType types with
    | error d' =>
      obtain rfl : d' = d := by simpa [hc] using h
      obtain ⟨name, hlacks, hd⟩ := Constant.lookupType_error hc
      exact ⟨c, name, ⟨[], rest, rfl, ⟨name, hlacks⟩, by simp⟩, hlacks, hd⟩
    | ok t =>
      cases hrest : lookupTypes types rest with
      | ok typed => simp [hc, hrest] at h
      | error d' =>
        obtain rfl : d' = d := by simpa [hc, hrest] using h
        obtain ⟨b, name, ⟨before, after, rfl, hb, hbefore⟩, hlacks, hd⟩ := ih hrest
        refine ⟨b, name, ⟨c :: before, after, rfl, hb, ?_⟩, hlacks, hd⟩
        refine List.forall_mem_cons.mpr ⟨?_, hbefore⟩
        rintro ⟨other, hother⟩
        exact Constant.not_lacksType_of_lookupType_ok hc other hother

/-- A typed list finds each constant of a schedule with the type looked up for it. -/
theorem typesOf_of_lookupTypes {typed : List Typed} {schedule : List Constant}
    (hdistinct : Distinct constants) (h : lookupTypes types constants = .ok typed)
    (hsub : schedule ⊆ constants) : TypesOf types typed schedule := by
  obtain ⟨hmap, htypes⟩ := lookupTypes_ok h
  intro c hc
  have hmem : c ∈ typed.map Prod.fst := hmap ▸ hsub hc
  obtain ⟨⟨c, t⟩, hentry, rfl⟩ := List.mem_map.mp hmem
  refine ⟨t, ?_, htypes _ hentry⟩
  have hnodup : (typed.map fun entry => entry.1.name).Nodup := by
    rw [Distinct, ← hmap, List.map_map] at hdistinct
    exact hdistinct
  cases hfind : typed.find? (·.1.name == c.name) with
  | none => simpa using List.find?_eq_none.mp hfind _ hentry
  | some entry =>
    have hname : entry.1.name = c.name := by simpa using List.find?_some hfind
    rw [List.inj_on_of_nodup_map hnodup (List.mem_of_find?_eq_some hfind) hentry hname]

/-- The names of constants in any order are the names of a schedule if each stands behind all
that it depends on. -/
theorem exists_schedule {g : DependencyGraph} {order : List String}
    (h : g.links.evaluationOrder = .ok order) :
    ∃ schedule, IsSchedule g.constants schedule ∧ order = schedule.map Constant.name := by
  have hnodup : g.links.names.Nodup := DependencyGraph.names_links g ▸ g.names_nodup
  obtain ⟨hperm, hinOrder⟩ := Links.evaluationOrder_ok hnodup h
  rw [DependencyGraph.names_links] at hperm
  have hrelated : List.Forall₂ (fun name c => name = Constant.name c) g.names g.constants := by
    simp [DependencyGraph.names, List.forall₂_map_left_iff, List.forall₂_same]
  obtain ⟨schedule, hschedule, hconstants⟩ := List.perm_comp_forall₂ hperm hrelated
  have horder : order = schedule.map Constant.name := by
    rwa [← List.forall₂_eq_eq_eq, List.forall₂_map_right_iff]
  refine ⟨schedule, ⟨hconstants, ?_⟩, horder⟩
  rintro before c after rfl name hname
  rw [horder, List.map_append, List.map_cons] at hinOrder
  have hrefers : g.links.DependsOn c.name name := by
    rw [DependencyGraph.links_dependsOn]
    exact ⟨c, hconstants.subset (by simp), rfl, hname⟩
  simpa using hinOrder.dependsOn hrefers

variable (ops) in
/-- A run over the head of a schedule evaluates all of it or stops at the first failure. -/
theorem evaluateInOrder_head {typed : List Typed} (before after : List Constant)
    (hdistinct : Distinct constants) (htyped : lookupTypes types constants = .ok typed)
    (hschedule : IsSchedule constants (before ++ after)) :
    match evaluateInOrder ops typed (before.map Constant.name) [] with
    | .ok values => Evaluated types ops before values.get
    | .error e => ∃ c d, FirstFailure types ops before c d ∧ e = c.place d := by
  have hhead : Distinct before := by
    have hall : Distinct (before ++ after) :=
      (hschedule.perm.map Constant.name).nodup_iff.mpr hdistinct
    rw [Distinct, List.map_append] at hall
    exact hall.sublist (List.sublist_append_left _ _)
  have hsub : before ⊆ constants :=
    List.Subset.trans (List.subset_append_left _ _) hschedule.perm.subset
  have hwhole : Distinct ([] ++ before) := by simpa using hhead
  have htypes := typesOf_of_lookupTypes hdistinct htyped hsub
  exact evaluateInOrder_spec hwhole htypes evaluated_nil

section Stages

variable (types ops) in
/-- A repeated name ends a resolution. -/
theorem resolveDeclared_of_repeated (h : ¬ Distinct constants) :
    ∃ c, FirstRepeated constants c ∧ resolveDeclared types ops constants =
      .error ((Diagnostic.duplicateConstant c.name).attach none none c.source? none) := by
  obtain ⟨c, hc, herror⟩ := DependencyGraph.ofConstants_error h
  refine ⟨c, hc, ?_⟩
  rw [resolveDeclared, herror]
  rfl

variable {g : DependencyGraph}

variable (types ops) in
/-- An unknown reference ends a resolution of distinct names. -/
theorem resolveDeclared_of_incomplete (h : ¬ Complete g.constants) :
    ∃ c name span, First (fun c => ¬ IsComplete g.constants c) g.constants c ∧
      First (fun o => o.1 ∉ g.constants.map Constant.name) c.expr.occurrences (name, span) ∧
      resolveDeclared types ops g.constants =
        .error (DependencyGraph.unknownReference c name span) := by
  obtain ⟨c, name, span, hc, hfirst, herror⟩ := DependencyGraph.validate_error h
  refine ⟨c, name, span, hc, hfirst, ?_⟩
  rw [resolveDeclared, DependencyGraph.ofConstants_eq_ok g.names_nodup]
  change g.validate >>= _ = _
  rw [herror]
  rfl

variable (hcomplete : Complete g.constants)
include hcomplete

/-- What is left to do once names and references are known to be right. -/
theorem resolveDeclared_eq : resolveDeclared types ops g.constants =
    match g.links.findCycle? with
    | some cycle => .error (.cyclicDependency cycle)
    | none =>
      (lookupTypes types g.constants).bind fun typed =>
        g.links.evaluationOrder.bind fun order =>
          (evaluateInOrder ops typed order []).map fun values =>
            ⟨assemble typed values, order⟩ := by
  rw [resolveDeclared, DependencyGraph.ofConstants_eq_ok g.names_nodup]
  change g.validate >>= _ = _
  rw [DependencyGraph.validate_eq_ok hcomplete]
  cases hcycle : g.links.findCycle? with
  | none =>
    simp only [bind, Except.bind, hcycle]
    rfl
  | some cycle =>
    simp only [bind, Except.bind, hcycle]
    rfl

variable (types ops) in
/-- A cycle ends a resolution of distinct names with known references. -/
theorem resolveDeclared_of_cyclic (h : ¬ Acyclic (Refers g.constants)) :
    ∃ cycle, IsCycle (Refers g.constants) cycle ∧
      resolveDeclared types ops g.constants = .error (.cyclicDependency cycle) := by
  have hclosed := DependencyGraph.links_closed hcomplete
  rw [← DependencyGraph.links_dependsOn, ← Links.findCycle?_eq_none_iff hclosed] at h
  obtain ⟨cycle, hcycle⟩ := Option.ne_none_iff_exists'.mp h
  refine ⟨cycle, ?_, by rw [resolveDeclared_eq hcomplete, hcycle]⟩
  rw [← DependencyGraph.links_dependsOn]
  exact Links.isCycle_of_findCycle? hclosed hcycle

variable (hacyclic : Acyclic (Refers g.constants))
include hacyclic

variable (types ops) in
/-- An unknown type ends a resolution without other structural faults. -/
theorem resolveDeclared_of_lacksType
    (h : ∃ c ∈ g.constants, ∃ name, c.LacksType types name) :
    ∃ c name, First (fun c => ∃ name, c.LacksType types name) g.constants c ∧
      c.LacksType types name ∧ resolveDeclared types ops g.constants =
        .error (Diagnostic.attachConstant { fault := .unknownType name } c.name) := by
  have hclosed := DependencyGraph.links_closed hcomplete
  rw [← DependencyGraph.links_dependsOn, ← Links.findCycle?_eq_none_iff hclosed] at hacyclic
  cases htyped : lookupTypes types g.constants with
  | ok typed =>
    obtain ⟨c, hc, name, hlacks⟩ := h
    obtain ⟨_, _, htype⟩ :=
      typesOf_of_lookupTypes g.names_nodup htyped (List.Subset.refl _) c hc
    exact absurd hlacks (Constant.not_lacksType_of_lookupType_ok htype name)
  | error d =>
    obtain ⟨c, name, hfirst, hlacks, rfl⟩ := lookupTypes_error htyped
    exact ⟨c, name, hfirst, hlacks,
      by rw [resolveDeclared_eq hcomplete, hacyclic, htyped]; rfl⟩

variable (types ops) in
/-- Without structural faults a resolution evaluates a schedule of all constants. -/
theorem resolveDeclared_of_structural
    (htypes : ∀ c ∈ g.constants, ∀ name, ¬ c.LacksType types name) :
    ∃ typed schedule, lookupTypes types g.constants = .ok typed ∧
      IsSchedule g.constants schedule ∧
      g.links.evaluationOrder = .ok (schedule.map Constant.name) ∧
      (∀ name, Grounded (Refers g.constants) name) ∧
      resolveDeclared types ops g.constants =
        (evaluateInOrder ops typed (schedule.map Constant.name) []).map fun values =>
          ⟨assemble typed values, schedule.map Constant.name⟩ := by
  have hclosed := DependencyGraph.links_closed hcomplete
  have hnodup : g.links.names.Nodup := DependencyGraph.names_links g ▸ g.names_nodup
  rw [← DependencyGraph.links_dependsOn] at hacyclic ⊢
  have hcycle := (Links.findCycle?_eq_none_iff hclosed).mpr hacyclic
  obtain ⟨order, horder⟩ := (Links.evaluationOrder_isOk_iff hnodup hclosed).mpr hacyclic
  obtain ⟨schedule, hschedule, rfl⟩ := exists_schedule horder
  cases htyped : lookupTypes types g.constants with
  | error d =>
    obtain ⟨c, name, ⟨before, after, hsplit, _⟩, hlacks, _⟩ := lookupTypes_error htyped
    exact absurd hlacks (htypes c (by simp [hsplit]) name)
  | ok typed =>
    refine ⟨typed, schedule, rfl, hschedule, horder,
      Links.grounded_of_findCycle?_eq_none hclosed hcycle, ?_⟩
    rw [resolveDeclared_eq hcomplete, hcycle, htyped, horder]
    rfl

end Stages

end SharedConstants
