import SharedConstants.Proofs.Constant.EvaluationOrder
import SharedConstants.Proofs.Expr.Occurrences
import SharedConstants.Proofs.FirstOccurrence

/-!
# References between constants

One constant refers to another if its expression mentions the other's name. For constants with
distinct names the edges of the dependency graph are these references.
-/
namespace SharedConstants

namespace Constant

variable {constants : List Constant}

/-- No name is declared twice. -/
def Distinct (constants : List Constant) : Prop := (constants.map Constant.name).Nodup

instance (constants : List Constant) : Decidable (Distinct constants) :=
  inferInstanceAs (Decidable (List.Nodup _))

/-- The constant of a name refers to another name. -/
def Refers (constants : List Constant) (a b : String) : Prop :=
  ∃ c ∈ constants, c.name = a ∧ c.expr.Mentions b

/-- Every name that the expression of a constant mentions is declared. -/
def IsComplete (constants : List Constant) (c : Constant) : Prop :=
  ∀ name, c.expr.Mentions name → name ∈ constants.map Constant.name

/-- Every name that some expression mentions is declared. -/
def Complete (constants : List Constant) : Prop := ∀ c ∈ constants, IsComplete constants c

theorem isComplete_iff {c : Constant} : IsComplete constants c ↔
    ∀ o ∈ c.expr.occurrences, o.1 ∈ constants.map Constant.name :=
  ⟨fun h o ho => h o.1 ⟨o.2, ho⟩, fun h _ ⟨_, hmem⟩ => h _ hmem⟩

instance (constants : List Constant) (c : Constant) : Decidable (IsComplete constants c) :=
  decidable_of_iff _ isComplete_iff.symm

instance (constants : List Constant) : Decidable (Complete constants) :=
  inferInstanceAs (Decidable (∀ c ∈ constants, IsComplete constants c))

theorem eq_of_name_eq (h : Distinct constants) {c d : Constant} (hc : c ∈ constants)
    (hd : d ∈ constants) (hname : c.name = d.name) : c = d :=
  List.inj_on_of_nodup_map h hc hd hname

/-- The first constant whose name already occurred. -/
def FirstRepeated (constants : List Constant) (c : Constant) : Prop :=
  ∃ before after, constants = before ++ c :: after ∧ Distinct before ∧
    c.name ∈ before.map Constant.name

theorem FirstRepeated.not_distinct {c : Constant} (h : FirstRepeated constants c) :
    ¬ Distinct constants := by
  obtain ⟨before, after, rfl, _, hmem⟩ := h
  intro hdistinct
  rw [Distinct, List.map_append] at hdistinct
  exact List.disjoint_of_nodup_append hdistinct hmem List.mem_cons_self

end Constant

namespace DependencyGraph

open Constant (Distinct Refers IsComplete Complete FirstRepeated)

variable {constants : List Constant}

theorem firstRepeated?_eq_some {seen : List String} {c : Constant}
    (h : firstRepeated? seen constants = some c) : ∃ before after,
    constants = before ++ c :: after ∧ Distinct before ∧ (∀ b ∈ before, b.name ∉ seen) ∧
      (c.name ∈ seen ∨ c.name ∈ before.map Constant.name) := by
  induction constants generalizing seen with
  | nil => cases h
  | cons first rest ih =>
    simp only [firstRepeated?] at h
    split at h
    · next hmem =>
      cases h
      exact ⟨[], rest, rfl, List.nodup_nil, by simp, .inl hmem⟩
    · next hnew =>
      obtain ⟨before, after, rfl, hdistinct, hunseen, hc⟩ := ih h
      refine ⟨first :: before, after, rfl, ?_, ?_, ?_⟩
      · refine List.nodup_cons.mpr ⟨?_, hdistinct⟩
        intro hmem
        obtain ⟨b, hb, hname⟩ := List.mem_map.mp hmem
        exact hunseen b hb (hname ▸ List.mem_cons_self)
      · intro b hb
        rcases List.mem_cons.mp hb with rfl | hb
        · exact hnew
        · exact fun hmem => hunseen b hb (List.mem_cons_of_mem _ hmem)
      · rcases hc with hc | hc
        · rcases List.mem_cons.mp hc with hc | hc
          · exact .inr (by simp [hc])
          · exact .inl hc
        · exact .inr (List.mem_cons_of_mem _ hc)

/-- A repeated name is reported at the first constant that repeats one. -/
theorem ofConstants_error (h : ¬ Distinct constants) : ∃ c, FirstRepeated constants c ∧
    ofConstants constants =
      .error ((Diagnostic.duplicateConstant c.name).attach none none c.source? none) := by
  cases hfirst : firstRepeated? [] constants with
  | none => exact absurd (nodup_of_firstRepeated?_eq_none hfirst).1 h
  | some c =>
    obtain ⟨before, after, hsplit, hdistinct, _, hc⟩ := firstRepeated?_eq_some hfirst
    refine ⟨c, ⟨before, after, hsplit, hdistinct, by simpa using hc⟩, ?_⟩
    unfold ofConstants
    split
    · next found hfound =>
      obtain rfl : c = found := by simpa [hfirst] using hfound
      rfl
    · next hnone => simp [hfirst] at hnone

theorem ofConstants_eq_ok (h : Distinct constants) :
    ofConstants constants = .ok ⟨constants, h⟩ := by
  unfold ofConstants
  split
  · next c hfirst =>
    obtain ⟨before, after, hsplit, hdistinct, _, hc⟩ := firstRepeated?_eq_some hfirst
    have hrepeated : FirstRepeated constants c :=
      ⟨before, after, hsplit, hdistinct, by simpa using hc⟩
    exact absurd h hrepeated.not_distinct
  · rfl

variable {g : DependencyGraph}

theorem names_links (g : DependencyGraph) : g.links.names = g.names := by
  simp [links, Links.names, names, Function.comp_def]

theorem links_dependsOn (g : DependencyGraph) : g.links.DependsOn = Refers g.constants := by
  funext a b
  have hnodup : g.links.names.Nodup := by
    rw [names_links]
    exact g.names_nodup
  apply propext
  constructor
  · intro h
    obtain ⟨deps, hmem⟩ := Links.mem_names.mp (Links.mem_names_of_dependsOn h)
    rw [Links.DependsOn, Links.dependencies_of_mem hnodup hmem] at h
    obtain ⟨c, hc, heq⟩ := List.mem_map.mp hmem
    cases heq
    exact ⟨c, hc, rfl, Expr.mem_references.mp h⟩
  · rintro ⟨c, hc, rfl, hmentions⟩
    have hmem : (c.name, c.expr.references) ∈ g.links := List.mem_map.mpr ⟨c, hc, rfl⟩
    rw [Links.DependsOn, Links.dependencies_of_mem hnodup hmem]
    exact Expr.mem_references.mpr hmentions

theorem links_closed (h : Complete g.constants) : g.links.Closed := by
  intro a b hab
  rw [links_dependsOn] at hab
  obtain ⟨c, hc, _, hmentions⟩ := hab
  rw [names_links]
  exact h c hc b hmentions

/-- The first reference of a constant to an undeclared name is reported. -/
theorem undeclared?_eq_some {declared : List String} {c : Constant} {d : Diagnostic}
    (h : undeclared? declared c = some d) : ∃ name span,
      First (fun o => o.1 ∉ declared) c.expr.occurrences (name, span) ∧
      d = unknownReference c name span := by
  simp only [undeclared?, Option.map_eq_some_iff, Prod.exists] at h
  obtain ⟨name, span, hfind, rfl⟩ := h
  obtain ⟨hnew, before, after, hsplit, hbefore⟩ := List.find?_eq_some_iff_append.mp hfind
  rw [Expr.referenceNodes_eq] at hsplit
  exact ⟨name, span, ⟨before, after, hsplit, by simpa using hnew, by simpa using hbefore⟩, rfl⟩

theorem undeclared?_eq_none_iff {c : Constant} :
    undeclared? (constants.map Constant.name) c = none ↔ IsComplete constants c := by
  simp [undeclared?, Expr.referenceNodes_eq, Constant.isComplete_iff]

theorem validate_eq_ok (h : Complete g.constants) :
    g.validate = .ok () := by
  have hnone : g.constants.findSome? (undeclared? g.names) = none :=
    List.findSome?_eq_none_iff.mpr fun c hc => undeclared?_eq_none_iff.mpr (h c hc)
  rw [validate, hnone]

/-- An unknown reference is reported at the first constant that has one, and there at its
first one. -/
theorem validate_error (h : ¬ Complete g.constants) :
    ∃ c name span, First (fun c => ¬ IsComplete g.constants c) g.constants c ∧
      First (fun o => o.1 ∉ g.names) c.expr.occurrences (name, span) ∧
      g.validate = .error (unknownReference c name span) := by
  cases hfind : g.constants.findSome? (undeclared? g.names) with
  | none =>
    refine absurd (fun c hc => ?_) h
    exact undeclared?_eq_none_iff.mp (List.findSome?_eq_none_iff.mp hfind c hc)
  | some d =>
    obtain ⟨before, c, after, hsplit, hc, hbefore⟩ := List.findSome?_eq_some_iff.mp hfind
    obtain ⟨name, span, hfirst, rfl⟩ := undeclared?_eq_some hc
    refine ⟨c, name, span, ⟨before, after, hsplit, ?_, ?_⟩, hfirst, by rw [validate, hfind]⟩
    · intro hcomplete
      simp [names, undeclared?_eq_none_iff.mpr hcomplete] at hc
    · intro b hb
      exact not_not.mpr (undeclared?_eq_none_iff.mp (hbefore b hb))

end DependencyGraph

end SharedConstants
