import SharedConstants.Proofs.Constant.Dependency

/-!
# Dependencies that are left

When some names are done, the others are left with those of their dependencies that are not. To
drain the links is to take the first name that has no dependencies left, again and again.
-/
namespace SharedConstants

/-- One name stands before another in a list of names. -/
def Precedes (names : List String) (a b : String) : Prop := names.idxOf a < names.idxOf b

instance (names : List String) : DecidableRel (Precedes names) :=
  fun _ _ => inferInstanceAs (Decidable (_ < _))

theorem precedes_of_sublist {names : List String} {a b : String} (hnodup : names.Nodup)
    (h : [a, b].Sublist names) : Precedes names a b := by
  obtain ⟨left, right, rfl, ha, hright⟩ := List.cons_sublist_iff.mp h
  have hb : b ∈ right := List.singleton_sublist.mp hright
  have hnew : b ∉ left := fun hleft => List.disjoint_of_nodup_append hnodup hleft hb
  have hlt : left.idxOf a < left.length := List.idxOf_lt_length_iff.mpr ha
  rw [Precedes, List.idxOf_append_of_mem ha, List.idxOf_append_of_notMem hnew]
  omega

namespace Links

variable {links : Links} {done : List String}

theorem mem_names {name : String} : name ∈ links.names ↔ ∃ deps, (name, deps) ∈ links := by
  simp [names]

/-- What is left when a name is done. -/
def discharge (name : String) (pending : Links) : Links :=
  (pending.filter (·.1 ≠ name)).map fun (other, deps) => (other, deps.filter (· ≠ name))

/-- Takes names whose dependencies are done, the earliest first, as long as there are any. -/
def drain : Nat → Links → List String
  | 0, _ => []
  | steps + 1, pending =>
    match pending.find? (·.2.isEmpty) with
    | none => []
    | some (name, _) => name :: drain steps (discharge name pending)

/-- What is left of the links when some names are done. -/
def residual (links : Links) (done : List String) : Links :=
  (links.filter (·.1 ∉ done)).map fun (name, deps) => (name, deps.filter (· ∉ done))

@[simp] theorem residual_nil : links.residual [] = links := by
  simp [residual]

theorem discharge_residual (name : String) :
    discharge name (links.residual done) = links.residual (name :: done) := by
  simp [discharge, residual, List.filter_map, List.filter_filter, Function.comp_def]

theorem mem_residual {name : String} {deps : List String} :
    (name, deps) ∈ links.residual done ↔
      ∃ all, (name, all) ∈ links ∧ name ∉ done ∧ deps = all.filter (· ∉ done) := by
  simp only [residual, List.mem_map, List.mem_filter, Prod.exists, Prod.mk.injEq]
  aesop

theorem length_residual_cons_lt {name : String} (hname : name ∈ links.names)
    (hnew : name ∉ done) :
    (links.residual (name :: done)).length < (links.residual done).length := by
  obtain ⟨deps, hmem⟩ := mem_names.mp hname
  rw [← discharge_residual, discharge, List.length_map]
  have hmem' : (name, deps.filter (· ∉ done)) ∈ links.residual done :=
    mem_residual.mpr ⟨deps, hmem, hnew, rfl⟩
  exact List.length_filter_lt_length_iff_exists.mpr ⟨_, hmem', by simp⟩

theorem dependencies_of_mem (hnodup : links.names.Nodup) {name : String} {deps : List String}
    (h : (name, deps) ∈ links) : links.dependencies name = deps := by
  obtain ⟨before, after, rfl⟩ := List.append_of_mem h
  have hnew : ∀ entry ∈ before, name ≠ entry.1 := by
    intro entry hentry heq
    simp only [names, List.map_append, List.map_cons] at hnodup
    exact List.disjoint_of_nodup_append hnodup
      (List.mem_map.mpr ⟨entry, hentry, rfl⟩) (heq ▸ List.mem_cons_self)
  have hlookup : List.lookup name (before ++ (name, deps) :: after) = some deps :=
    List.lookup_eq_some_iff.mpr ⟨before, after, rfl, by simpa using hnew⟩
  rw [dependencies, hlookup, Option.getD_some]

/-- The names without dependencies left are those that depend on done names only. -/
theorem ready_iff (hnodup : links.names.Nodup) {name : String} :
    (name, []) ∈ links.residual done ↔
      name ∈ links.names ∧ name ∉ done ∧ ∀ a, links.DependsOn name a → a ∈ done := by
  rw [mem_residual]
  constructor
  · rintro ⟨deps, hmem, hnew, hnil⟩
    refine ⟨mem_names.mpr ⟨deps, hmem⟩, hnew, fun a ha => ?_⟩
    rw [DependsOn, dependencies_of_mem hnodup hmem] at ha
    simpa using List.filter_eq_nil_iff.mp hnil.symm a ha
  · rintro ⟨hname, hnew, hdeps⟩
    refine ⟨_, mem_of_mem_names hname, hnew, (List.filter_eq_nil_iff.mpr fun a ha => ?_).symm⟩
    simpa using hdeps a ha

theorem names_residual_sublist (links : Links) (done : List String) :
    (links.residual done).names.Sublist links.names := by
  have hnames : (links.residual done).names = (links.filter (·.1 ∉ done)).map Prod.fst := by
    simp [names, residual, Function.comp_def]
  rw [hnames]
  exact List.filter_sublist.map Prod.fst

/-- The name taken next is declared before every other one that could be taken. -/
theorem find?_ready_precedes (hnodup : links.names.Nodup) {entry : String × List String}
    {name : String} (hready : (name, []) ∈ links.residual done)
    (hfind : (links.residual done).find? (·.2.isEmpty) = some entry) :
    entry.1 = name ∨ Precedes links.names entry.1 name := by
  obtain ⟨_, before, after, hsplit, hbefore⟩ := List.find?_eq_some_iff_append.mp hfind
  rw [hsplit] at hready
  rcases List.mem_append.mp hready with hmem | hmem
  · exact absurd (hbefore _ hmem) (by simp)
  rcases List.mem_cons.mp hmem with rfl | hmem
  · exact .inl rfl
  right
  have hpair : [entry.1, name].Sublist (links.residual done).names := by
    rw [hsplit, names, List.map_append, List.map_cons]
    refine (List.Sublist.cons_cons _ ?_).trans (List.sublist_append_right _ _)
    exact List.singleton_sublist.mpr (List.mem_map.mpr ⟨_, hmem, rfl⟩)
  exact precedes_of_sublist hnodup (hpair.trans (links.names_residual_sublist done))

end Links

end SharedConstants
