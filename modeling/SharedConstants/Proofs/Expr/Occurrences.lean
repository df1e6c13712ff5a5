import Mathlib.Logic.Basic
import SharedConstants.Expr

/-!
# Occurrences of references

The walk over an expression meets the expression itself and the nodes of its operands. The
references among them are those that stand in the expression, from left to right.
-/
namespace SharedConstants.Expr

/-- Induction on expressions, with the hypothesis for every operand of an application. -/
@[elab_as_elim] theorem inductOnOperands {motive : Expr → Prop}
    (literal : ∀ v span, motive (.literal v span))
    (reference : ∀ name span, motive (.reference name span))
    (apply : ∀ operator operands span, (∀ e ∈ operands, motive e) →
      motive (.apply operator operands span)) : ∀ e, motive e
  | .literal v span => literal v span
  | .reference name span => reference name span
  | .apply operator operands span =>
    apply operator operands span fun e _ => inductOnOperands literal reference apply e

mutual

/-- The references in an expression with their places, from left to right. -/
def occurrences : Expr → List (String × Span)
  | .literal .. => []
  | .reference name span => [(name, span)]
  | .apply _ operands _ => occurrencesAll operands

/-- The references in several expressions, from left to right. -/
def occurrencesAll : List Expr → List (String × Span)
  | [] => []
  | e :: es => occurrences e ++ occurrencesAll es

end

/-- Whether a name is referred to somewhere in an expression. -/
def Mentions (e : Expr) (name : String) : Prop := ∃ span, (name, span) ∈ e.occurrences

theorem occurrencesAll_append (xs ys : List Expr) :
    occurrencesAll (xs ++ ys) = occurrencesAll xs ++ occurrencesAll ys := by
  induction xs with
  | nil => rfl
  | cons x xs ih => simp [occurrencesAll, ih]

theorem mem_occurrencesAll {es : List Expr} {o : String × Span} :
    o ∈ occurrencesAll es ↔ ∃ e ∈ es, o ∈ e.occurrences := by
  induction es with
  | nil => simp [occurrencesAll]
  | cons e es ih => simp [occurrencesAll, ih]

theorem walk_append (xs ys : List Expr) : walk (xs ++ ys) = walk xs ++ walk ys := by
  induction xs using walk.induct with
  | case1 => simp [walk]
  | case2 e agenda ih =>
    rw [List.cons_append, walk, walk, List.cons_append, ← ih, List.append_assoc]

theorem mem_walk {es : List Expr} {a : Expr} : a ∈ walk es ↔ ∃ e ∈ es, a ∈ e.nodes := by
  induction es with
  | nil => simp [walk]
  | cons e es ih =>
    rw [← List.singleton_append, walk_append, List.mem_append, ih]
    simp [nodes]

theorem mem_nodes {e a : Expr} : a ∈ e.nodes ↔ a = e ∨ ∃ c ∈ e.children, a ∈ c.nodes := by
  rw [nodes, walk, List.mem_cons, List.append_nil, mem_walk]

theorem self_mem_nodes (e : Expr) : e ∈ e.nodes := mem_nodes.mpr (.inl rfl)

@[simp] theorem nodes_literal (v : Value) (span : Span) :
    (literal v span).nodes = [literal v span] := by
  simp [nodes, walk, children]

@[simp] theorem nodes_reference (name : String) (span : Span) :
    (reference name span).nodes = [reference name span] := by
  simp [nodes, walk, children]

/-- The nodes of a node are nodes of the whole expression. -/
theorem nodes_subset {e a : Expr} (h : a ∈ e.nodes) : a.nodes ⊆ e.nodes := by
  induction e using inductOnOperands with
  | literal | reference =>
    simp only [nodes_literal, nodes_reference, List.mem_singleton] at h
    exact h ▸ List.Subset.refl _
  | apply operator operands span ih =>
    rcases mem_nodes.mp h with rfl | ⟨c, hc, ha⟩
    · exact List.Subset.refl _
    · exact fun b hb => mem_nodes.mpr (.inr ⟨c, hc, ih c hc ha hb⟩)

/-- What a node refers to itself comes before what its operands refer to. -/
theorem occurrences_eq (e : Expr) :
    e.occurrences = e.reference?.toList ++ occurrencesAll e.children := by
  cases e <;> simp [occurrences, reference?, children, occurrencesAll]

theorem filterMap_walk (agenda : List Expr) :
    (walk agenda).filterMap reference? = occurrencesAll agenda := by
  induction agenda using walk.induct with
  | case1 => simp [walk, occurrencesAll]
  | case2 e agenda ih =>
    rw [walk, List.filterMap_cons, occurrencesAll, occurrences_eq]
    rw [occurrencesAll_append] at ih
    cases h : e.reference? <;> simp [ih]

/-- The walk over the nodes meets the references from left to right. -/
theorem referenceNodes_eq (e : Expr) : e.referenceNodes = e.occurrences := by
  rw [referenceNodes, nodes, filterMap_walk]
  simp [occurrencesAll]

theorem mem_references {e : Expr} {name : String} :
    name ∈ e.references ↔ e.Mentions name := by
  simp [references, Mentions, referenceNodes_eq]

theorem mentions_apply {operator : String} {operands : List Expr} {span : Span}
    {name : String} :
    (Expr.apply operator operands span).Mentions name ↔ ∃ e ∈ operands, e.Mentions name := by
  simp only [Mentions, occurrences, mem_occurrencesAll]
  constructor
  · rintro ⟨s, e, he, hs⟩
    exact ⟨e, he, s, hs⟩
  · rintro ⟨e, he, s, hs⟩
    exact ⟨s, e, he, hs⟩

end SharedConstants.Expr
