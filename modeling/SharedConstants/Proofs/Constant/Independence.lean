import SharedConstants.Proofs.Constant.Stage
import SharedConstants.Proofs.Expr.Places

/-!
# What a value depends on

The value of a constant depends on nothing but its expression and the expressions of the constants
that it refers to, directly or through others. Two resolutions in which these mean the same give
it the same value.
-/
namespace SharedConstants

namespace Expr

variable {ops : OperatorRegistry} {values values' : Valuation}

theorem forall₂_unplaced {r : Expr → Value → Prop} {es : List Expr} {vs : List Value}
    (h : ∀ e ∈ es, ∀ v, r e.unplaced v ↔ r e v) :
    List.Forall₂ r (es.map unplaced) vs ↔ List.Forall₂ r es vs := by
  induction es generalizing vs with
  | nil => simp
  | cons e es ih =>
    obtain ⟨he, hes⟩ := List.forall_mem_cons.mp h
    simp only [List.map_cons, List.forall₂_cons_left_iff, he, ih hes]

/-- Where the nodes of an expression were read does not matter for its value. -/
theorem eval_unplaced {e : Expr} {v : Value} :
    eval ops values e.unplaced = .ok v ↔ eval ops values e = .ok v := by
  induction e using inductOnOperands generalizing v with
  | literal w span => rfl
  | reference name span =>
    simp only [unplaced, eval]
    cases values name <;> simp
  | apply operator operands span ih =>
    rw [unplaced, unplacedAll_eq_map, eval_apply_eq_ok, eval_apply_eq_ok]
    refine exists₂_congr fun op vs => and_congr_right fun _ => and_congr_left fun _ => ?_
    exact forall₂_unplaced fun e he _ => ih e he

/-- An expression that means the same has the same value under values that agree on the names
mentioned. -/
theorem eval_of_sameAs {e e' : Expr} {v : Value} (hsame : e.sameAs e' = true)
    (hagree : ∀ name, e.Mentions name → values name = values' name)
    (h : eval ops values e = .ok v) : eval ops values' e' = .ok v := by
  rw [eval_congr hagree, ← eval_unplaced, sameAs_iff.mp hsame] at h
  exact eval_unplaced.mp h

end Expr

open Constant (Refers)

variable {ops : OperatorRegistry} {constants constants' : List Constant}
  {values values' : Valuation}

/-- A name is declared in both sets, by expressions that mean the same. -/
def DeclaredAlike (constants constants' : List Constant) (name : String) : Prop :=
  ∃ c ∈ constants, ∃ c' ∈ constants', c.name = name ∧ c'.name = name ∧
    c.expr.sameAs c'.expr = true

/-- Solutions of two sets agree on a name if all that it leads to is declared alike. -/
theorem Satisfies.agree_of_declaredAlike (h : Satisfies ops constants values)
    (h' : Satisfies ops constants' values') {name : String}
    (hgrounded : Grounded (Refers constants) name)
    (hshared : ∀ a, Relation.ReflTransGen (Refers constants) name a →
      DeclaredAlike constants constants' a) :
    ∃ v, values name = some v ∧ values' name = some v := by
  induction hgrounded with
  | intro name _ ih =>
    obtain ⟨c, hc, c', hc', hname, hname', hsame⟩ := hshared name .refl
    obtain ⟨v, hv, heval⟩ := h c hc
    obtain ⟨v', hv', heval'⟩ := h' c' hc'
    have hagree : ∀ a, c.expr.Mentions a → values a = values' a := by
      intro a ha
      have hrefers : Refers constants name a := ⟨c, hc, hname, ha⟩
      obtain ⟨w, hw, hw'⟩ := ih a hrefers fun b hb => hshared b (.head hrefers hb)
      rw [hw, hw']
    rw [Expr.eval_of_sameAs hsame hagree heval] at heval'
    obtain rfl := Except.ok.inj heval'
    exact ⟨v, hname ▸ hv, hname' ▸ hv'⟩

/-- Two resolutions give a name the same value if it and all names that it leads to by references
are declared in both sets by expressions that mean the same. Neither the other constants matter,
nor types, comments, ordinals and the places where expressions were read. -/
theorem resolve_agree {types types' : TypeRegistry} {ops : OperatorRegistry}
    {constants constants' : List Constant} {r r' : Resolved} {name : String}
    (h : resolve types ops constants = .ok r) (h' : resolve types' ops constants' = .ok r')
    (hshared : ∀ a, Relation.ReflTransGen (Refers constants) name a →
      DeclaredAlike constants constants' a) :
    ∃ v, r.value? name = some v ∧ r'.value? name = some v :=
  (evaluated_of_resolve h).equations.agree_of_declaredAlike (evaluated_of_resolve h').equations
    (grounded_of_resolve h name) hshared

/-- The constants of `forwardReference` with other types, comments and places, among others. -/
def widenedReference : List Constant :=
  [{ name := "A", typeName := none, expr := .literal (.integer 4096) ⟨3, 9⟩,
     comment := some "start" },
   { name := "C", typeName := some "bool",
     expr := .apply "lt" [.reference "B" ⟨4, 5⟩, .reference "A" ⟨6, 7⟩] ⟨0, 8⟩, ordinal := 1 },
   { name := "B", typeName := some "i128",
     expr := .apply "add" [.reference "A" ⟨9, 10⟩, .literal (.integer 16) ⟨12, 16⟩] ⟨2, 17⟩,
     ordinal := 2 }]

theorem exists_resolve_widenedReference :
    ∃ r, resolve {} .builtin widenedReference = .ok r := by
  have hsort : Constant.byOrdinal widenedReference = widenedReference :=
    List.mergeSort_of_pairwise (by decide)
  have hdistinct : Constant.Distinct widenedReference := by decide
  have hcomplete : Constant.Complete widenedReference := by decide
  have hvalid : DependencyGraph.validate ⟨widenedReference, hdistinct⟩ = .ok () :=
    DependencyGraph.validate_eq_ok hcomplete
  have hlinks : DependencyGraph.links ⟨widenedReference, hdistinct⟩ =
      [("A", []), ("C", ["B", "A"]), ("B", ["A"])] := by cbv
  have hcycle : Links.findCycle? [("A", []), ("C", ["B", "A"]), ("B", ["A"])] = none := rfl
  have horder : Links.evaluationOrder [("A", []), ("C", ["B", "A"]), ("B", ["A"])] =
      .ok ["A", "B", "C"] := rfl
  rw [resolve, hsort, resolveDeclared, DependencyGraph.ofConstants_eq_ok hdistinct]
  simp only [bind, Except.bind, hvalid, hlinks, hcycle, horder]
  simp only [widenedReference, lookupTypes, Constant.lookupType, evaluateInOrder,
    Constant.evaluate, Expr.evaluate_eq_eval]
  exact ⟨_, rfl⟩

theorem resolve_agree_widenedReference : ∃ r r', resolve {} .builtin forwardReference = .ok r ∧
    resolve {} .builtin widenedReference = .ok r' ∧
    (∀ a, Relation.ReflTransGen (Refers forwardReference) "B" a →
      DeclaredAlike forwardReference widenedReference a) ∧
    r.value? "B" = some (.integer 4112) ∧ r'.value? "B" = some (.integer 4112) := by
  obtain ⟨r', hr'⟩ := exists_resolve_widenedReference
  have hdeclared : ∀ a ∈ forwardReference.map Constant.name,
      DeclaredAlike forwardReference widenedReference a := by
    refine List.forall_mem_cons.mpr ⟨?_, List.forall_mem_singleton.mpr ?_⟩
    · exact ⟨forwardReference[0], by simp [forwardReference], widenedReference[2],
        by simp [widenedReference], rfl, rfl, rfl⟩
    · exact ⟨forwardReference[1], by simp [forwardReference], widenedReference[0],
        by simp [widenedReference], rfl, rfl, rfl⟩
  have hcomplete : Constant.Complete forwardReference := by decide
  have hshared : ∀ a, Relation.ReflTransGen (Refers forwardReference) "B" a →
      DeclaredAlike forwardReference widenedReference a := by
    intro a ha
    refine hdeclared a ?_
    -- references lead to declared names only
    induction ha with
    | refl => decide
    | tail _ hrefers _ =>
      obtain ⟨c, hc, _, hmentions⟩ := hrefers
      exact hcomplete c hc _ hmentions
  obtain ⟨v, hv, hv'⟩ := resolve_agree resolve_forwardReference hr' hshared
  obtain rfl : .integer 4112 = v := Option.some.inj hv
  exact ⟨_, r', resolve_forwardReference, hr', hshared, rfl, hv'⟩

end SharedConstants
