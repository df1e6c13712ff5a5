import SharedConstants.Proofs.Constant.Cyclicity

/-!
# The earliest order

Many orders may list all declared names, each behind those that it refers to. The order of
evaluation is the first one of them by the places of the declarations: where another one departs
from it, that one takes a name that is declared later.
-/
namespace SharedConstants

open Constant (Distinct Refers Complete)

namespace Links

variable {links : Links} {done order other : List String}

/-- What is taken comes first among all ways to go on with the names that are left. -/
theorem drain_earliest (hnodup : links.names.Nodup) {steps : Nat}
    (hsteps : (links.residual done).length ≤ steps) (hother : links.InOrder done other)
    (hall : ∀ name ∈ links.names, name ∈ done ∨ name ∈ other) :
    drain steps (links.residual done) = other ∨
      List.Lex (Precedes links.names) (drain steps (links.residual done)) other := by
  induction other generalizing done steps with
  | nil =>
    -- no name is left, so none can be taken
    left
    have hnone : drain steps (links.residual done) = [] := by
      refine List.eq_nil_iff_forall_not_mem.mpr fun name hmem => ?_
      have horder := drain_inOrder hnodup steps done
      rcases hall name (horder.subset hmem) with hdone | hrest
      · exact horder.nodup.2 name hmem hdone
      · exact absurd hrest List.not_mem_nil
    exact hnone
  | cons name rest ih =>
    obtain ⟨hname, hnew, hdeps, hrest⟩ := hother
    have hready := (ready_iff hnodup).mpr ⟨hname, hnew, hdeps⟩
    cases steps with
    | zero => exact absurd (List.length_pos_of_mem hready) (by omega)
    | succ steps =>
      rw [drain]
      split
      · next hfind => exact absurd (List.find?_eq_none.mp hfind _ hready) (by simp)
      · next first deps hfind =>
        rcases find?_ready_precedes hnodup hready hfind with hfirst | hprecedes
        · obtain rfl : first = name := hfirst
          have hlt := length_residual_cons_lt hname hnew
          have hless : (links.residual (first :: done)).length ≤ steps := by omega
          have hmore : ∀ a ∈ links.names, a ∈ first :: done ∨ a ∈ rest := by
            intro a ha
            rcases hall a ha with hdone | hmem
            · exact .inl (List.mem_cons_of_mem _ hdone)
            · exact (List.mem_cons.mp hmem).imp (fun h => by simp [h]) id
          rw [discharge_residual]
          rcases ih hless hrest hmore with heq | hlex
          · exact .inl (congrArg _ heq)
          · exact .inr (.cons hlex)
        · exact .inr (.rel hprecedes)

/-- Distinct names, each behind its dependencies, are in order. -/
theorem inOrder_of_behind (hnodup : order.Nodup) (hnew : ∀ name ∈ order, name ∉ done)
    (hsub : order ⊆ links.names) (hbehind : ∀ before name after,
      order = before ++ name :: after → ∀ a, links.DependsOn name a → a ∈ done ∨ a ∈ before) :
    links.InOrder done order := by
  induction order generalizing done with
  | nil => trivial
  | cons name rest ih =>
    obtain ⟨hfresh, hrest⟩ := List.nodup_cons.mp hnodup
    obtain ⟨hname, hsub⟩ := List.cons_subset.mp hsub
    refine ⟨hname, hnew name List.mem_cons_self, ?_, ih hrest ?_ hsub ?_⟩
    · intro a ha
      simpa using hbehind [] name rest rfl a ha
    · intro b hb hmem
      rcases List.mem_cons.mp hmem with rfl | hdone
      · exact hfresh hb
      · exact hnew b (List.mem_cons_of_mem _ hb) hdone
    · intro before b after hsplit a ha
      rcases hbehind (name :: before) b after (by rw [hsplit]; rfl) a ha with hdone | hmem
      · exact .inl (List.mem_cons_of_mem _ hdone)
      · exact (List.mem_cons.mp hmem).imp (fun h => by simp [h]) id

end Links

variable {constants : List Constant}

/-- All declared names, each behind those that its constant refers to. -/
structure IsOrder (constants : List Constant) (order : List String) : Prop where
  perm : order.Perm (constants.map Constant.name)
  behind : ∀ before name after, order = before ++ name :: after →
    ∀ a, Refers constants name a → a ∈ before

theorem isOrder_iff {g : DependencyGraph} {order : List String} :
    IsOrder g.constants order ↔ order.Perm g.links.names ∧ g.links.InOrder [] order := by
  have hnames : g.links.names = g.constants.map Constant.name := DependencyGraph.names_links g
  constructor
  · rintro ⟨hperm, hbehind⟩
    rw [hnames]
    refine ⟨hperm, Links.inOrder_of_behind (hperm.nodup_iff.mpr g.names_nodup) (by simp) ?_ ?_⟩
    · rw [hnames]
      exact hperm.subset
    · intro before name after hsplit a ha
      rw [DependencyGraph.links_dependsOn] at ha
      exact .inr (hbehind before name after hsplit a ha)
  · rintro ⟨hperm, horder⟩
    refine ⟨hnames ▸ hperm, ?_⟩
    rintro before name after rfl a ha
    rw [← DependencyGraph.links_dependsOn] at ha
    simpa using horder.dependsOn ha

/-- For constants with distinct names whose references are declared and have no cycle there is an
order of evaluation. It lists all names, each behind those that it refers to, and of all lists
that do so it is the least by the places of the declarations. -/
theorem evaluationOrder_earliest (hdistinct : Distinct constants) (hcomplete : Complete constants)
    (hacyclic : Acyclic (Refers constants)) :
    ∃ g order, DependencyGraph.ofConstants constants = .ok g ∧
      g.links.evaluationOrder = .ok order ∧ IsOrder constants order ∧
      ∀ other, IsOrder constants other → order = other ∨
        List.Lex (Precedes (constants.map Constant.name)) order other := by
  let g : DependencyGraph := ⟨constants, hdistinct⟩
  have hclosed : g.links.Closed := DependencyGraph.links_closed hcomplete
  have hnames : g.links.names = constants.map Constant.name := DependencyGraph.names_links g
  have hnodup : g.links.names.Nodup := hnames ▸ hdistinct
  rw [← show g.links.DependsOn = Refers constants from DependencyGraph.links_dependsOn g,
    ← Links.evaluationOrder_isOk_iff hnodup hclosed] at hacyclic
  obtain ⟨order, horder⟩ := hacyclic
  have hdrain : order = Links.drain g.links.length g.links := by
    simp only [Links.evaluationOrder, Links.Agenda.run_start hnodup] at horder
    split at horder
    · exact (Except.ok.inj horder).symm
    · cases horder
  refine ⟨g, order, DependencyGraph.ofConstants_eq_ok hdistinct, horder,
    isOrder_iff.mpr (Links.evaluationOrder_ok hnodup horder), fun other hother => ?_⟩
  obtain ⟨hperm, hinOrder⟩ := isOrder_iff (g := g).mp hother
  have hsteps : (g.links.residual []).length ≤ g.links.length := by simp
  have hearliest := Links.drain_earliest hnodup hsteps hinOrder
    fun name hname => .inr (hperm.mem_iff.mpr hname)
  rwa [Links.residual_nil, ← hdrain, hnames] at hearliest

/-- A sum of constants that are declared behind it, next to one without references. -/
def laterOperands : List Constant :=
  [{ name := "SUM", typeName := none,
     expr := .apply "add" [.reference "Y" default, .reference "X" default] default },
   { name := "Y", typeName := none, expr := .reference "X" default },
   { name := "X", typeName := none, expr := .literal (.integer 1) default },
   { name := "Z", typeName := none, expr := .literal (.integer 2) default }]

theorem evaluationOrder_earliest_laterOperands :
    Distinct laterOperands ∧ Complete laterOperands ∧ Acyclic (Refers laterOperands) ∧
    ∃ g, DependencyGraph.ofConstants laterOperands = .ok g ∧
      g.links.evaluationOrder = .ok ["X", "Y", "SUM", "Z"] ∧
      IsOrder laterOperands ["X", "Y", "SUM", "Z"] ∧ IsOrder laterOperands ["X", "Z", "Y", "SUM"] ∧
      List.Lex (Precedes ["SUM", "Y", "X", "Z"])
        ["X", "Y", "SUM", "Z"] ["X", "Z", "Y", "SUM"] := by
  have hdistinct : Distinct laterOperands := by decide
  have hcomplete : Complete laterOperands := by decide
  let g : DependencyGraph := ⟨laterOperands, hdistinct⟩
  have hlinks : g.links = [("SUM", ["Y", "X"]), ("Y", ["X"]), ("X", []), ("Z", [])] := by cbv
  have horder : g.links.evaluationOrder = .ok ["X", "Y", "SUM", "Z"] := by
    rw [hlinks]
    rfl
  have hother : IsOrder laterOperands ["X", "Z", "Y", "SUM"] := by
    refine isOrder_iff (g := g).mpr ?_
    rw [hlinks]
    exact ⟨by decide, by simp [Links.InOrder, Links.DependsOn, Links.dependencies, Links.names,
      List.lookup_cons]⟩
  have hacyclic : Acyclic (Refers laterOperands) := by
    have hnodup : g.links.names.Nodup := DependencyGraph.names_links g ▸ hdistinct
    rw [← show g.links.DependsOn = _ from DependencyGraph.links_dependsOn g]
    exact (Links.evaluationOrder_isOk_iff hnodup (DependencyGraph.links_closed hcomplete)).mp
      ⟨_, horder⟩
  obtain ⟨g', order, hg, hfound, hisOrder, hleast⟩ :=
    evaluationOrder_earliest hdistinct hcomplete hacyclic
  obtain rfl : g = g' :=
    Except.ok.inj ((DependencyGraph.ofConstants_eq_ok hdistinct).symm.trans hg)
  obtain rfl : ["X", "Y", "SUM", "Z"] = order := Except.ok.inj (horder.symm.trans hfound)
  exact ⟨hdistinct, hcomplete, hacyclic, g, hg, horder, hisOrder, hother,
    (hleast _ hother).resolve_left (by decide)⟩

end SharedConstants
