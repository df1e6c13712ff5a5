import Mathlib.Data.List.Chain
import Mathlib.Data.List.Nodup
import Mathlib.Logic.Relation
import SharedConstants.Constant.Graph

/-!
# Dependencies

A name is grounded if no endless chain of dependencies starts from it. If all names are grounded,
none leads back to itself. A path lists distinct declared names, each a dependency of the one
behind it.
-/
namespace SharedConstants

section Relation

variable {r : String → String → Prop}

/-- No name leads back to itself. -/
def Acyclic (r : String → String → Prop) : Prop := ∀ name, ¬ Relation.TransGen r name name

/-- Distinct names, each leading to the next one and the last one to the first. -/
structure IsCycle (r : String → String → Prop) (cycle : List String) : Prop where
  length_pos : 1 ≤ cycle.length
  nodup : cycle.Nodup
  chain : cycle.IsChain r
  closing : ∀ first ∈ cycle.head?, ∀ last ∈ cycle.getLast?, r last first

/-- No endless chain starts from a name. -/
def Grounded (r : String → String → Prop) (name : String) : Prop :=
  Acc (fun later earlier => r earlier later) name

theorem Grounded.of_reaches {a b : String} (ha : Grounded r a)
    (h : Relation.ReflTransGen r a b) : Grounded r b := by
  induction h with
  | refl => exact ha
  | tail _ hbc ih => exact ih.inv hbc

theorem Grounded.not_transGen {a : String} (ha : Grounded r a) : ¬ Relation.TransGen r a a := by
  induction ha with
  | intro a _ ih =>
    intro h
    obtain ⟨b, hab, hba⟩ := Relation.TransGen.head'_iff.mp h
    exact ih b hab (Relation.TransGen.tail' hba hab)

theorem acyclic_of_grounded (h : ∀ name, Grounded r name) : Acyclic r :=
  fun name => (h name).not_transGen

/-- The members of a chain are reached from its first one. -/
theorem reaches_of_isChain {a : String} {rest : List String} (h : (a :: rest).IsChain r) :
    ∀ b ∈ a :: rest, Relation.ReflTransGen r a b := by
  induction rest generalizing a with
  | nil => simp [Relation.ReflTransGen.refl]
  | cons c rest ih =>
    obtain ⟨hac, htail⟩ := List.isChain_cons_cons.mp h
    intro b hb
    rcases List.mem_cons.mp hb with rfl | hb
    · exact .refl
    · exact .head hac (ih htail b hb)

theorem IsCycle.transGen {a : String} {rest : List String} (h : IsCycle r (a :: rest)) :
    Relation.TransGen r a a := by
  have hlast := List.getLast?_eq_some_getLast (List.cons_ne_nil a rest)
  have hreach := reaches_of_isChain h.chain _ (List.getLast_mem (List.cons_ne_nil a rest))
  exact .tail' hreach (h.closing a rfl _ hlast)

theorem IsCycle.not_acyclic {cycle : List String} (h : IsCycle r cycle) : ¬ Acyclic r := by
  cases cycle with
  | nil => exact absurd h.length_pos (by simp)
  | cons a rest => exact fun hr => hr a h.transGen

end Relation

namespace Links

variable {links : Links}

def DependsOn (links : Links) (a b : String) : Prop := b ∈ links.dependencies a

/-- Every dependency is declared. -/
def Closed (links : Links) : Prop := ∀ a b, links.DependsOn a b → b ∈ links.names

theorem mem_names_of_dependsOn {a b : String} (h : links.DependsOn a b) : a ∈ links.names := by
  simp only [DependsOn, dependencies] at h
  cases hl : links.lookup a with
  | none => simp [hl] at h
  | some deps =>
    obtain ⟨before, after, hsplit, _⟩ := List.lookup_eq_some_iff.mp hl
    simp [names, hsplit]

theorem mem_of_mem_names {name : String} (h : name ∈ links.names) :
    (name, links.dependencies name) ∈ links := by
  cases hl : links.lookup name with
  | none =>
    obtain ⟨entry, hentry, rfl⟩ := List.mem_map.mp h
    simpa using List.lookup_eq_none_iff.mp hl entry hentry
  | some deps =>
    obtain ⟨before, after, hsplit, _⟩ := List.lookup_eq_some_iff.mp hl
    rw [dependencies, hl, hsplit]
    simp

def AllGrounded (links : Links) (names : List String) : Prop :=
  ∀ name ∈ names, Grounded links.DependsOn name

/-- Only declared names depend on anything. -/
theorem grounded_of_names (h : links.AllGrounded links.names) :
    ∀ name, Grounded links.DependsOn name := by
  intro name
  by_cases hname : name ∈ links.names
  · exact h name hname
  · exact ⟨_, fun later hlater => absurd (mem_names_of_dependsOn hlater) hname⟩

/-- A path of the search from a root, innermost name first: distinct declared names, each a
dependency of the one behind it. -/
structure IsPath (links : Links) (root : String) (path : List String) : Prop where
  chain : path.IsChain fun a b => links.DependsOn b a
  nodup : path.Nodup
  declared : path ⊆ links.names
  reached : ∀ name ∈ path, Relation.ReflTransGen links.DependsOn root name

variable {root name child : String} {path : List String}

theorem isPath_singleton (h : root ∈ links.names) : links.IsPath root [root] where
  chain := .singleton _
  nodup := List.nodup_singleton _
  declared := by simpa using h
  reached := by simp [Relation.ReflTransGen.refl]

theorem isPath_nil : links.IsPath root [] where
  chain := .nil
  nodup := List.nodup_nil
  declared := List.nil_subset _
  reached := by simp

theorem IsPath.tail (h : links.IsPath root (name :: path)) : links.IsPath root path where
  chain := h.chain.tail
  nodup := h.nodup.of_cons
  declared := (List.cons_subset.mp h.declared).2
  reached := fun a ha => h.reached a (List.mem_cons_of_mem _ ha)

theorem IsPath.cons (h : links.IsPath root (name :: path))
    (hchild : links.DependsOn name child) (hclosed : links.Closed)
    (hnew : child ∉ name :: path) : links.IsPath root (child :: name :: path) where
  chain := List.isChain_cons_cons.mpr ⟨hchild, h.chain⟩
  nodup := List.nodup_cons.mpr ⟨hnew, h.nodup⟩
  declared := List.cons_subset.mpr ⟨hclosed _ _ hchild, h.declared⟩
  reached := by
    intro a ha
    rcases List.mem_cons.mp ha with rfl | ha
    · exact (h.reached name List.mem_cons_self).tail hchild
    · exact h.reached a ha

end Links

end SharedConstants
