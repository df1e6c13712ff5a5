import SharedConstants.Proofs.Constant.Stage

/-!
# Inlined references

A reference may be replaced by the expression of the constant that it names, or by a literal of
its value. The constants then still have an order of evaluation and the same solution, and so they
are resolved to the same values.
-/
namespace SharedConstants

section Related

variable {α β γ : Type} {r : α → β → Prop} {xs : List α} {ys : List β}

theorem exists_of_forall₂ (h : List.Forall₂ r xs ys) : ∀ y ∈ ys, ∃ x ∈ xs, r x y :=
  Expr.forall_of_forall₂ h fun x hx _ hxy => ⟨x, hx, hxy⟩

/-- Lists that are related to the same one are related to each other. -/
theorem forall₂_of_common {s : α → γ → Prop} {t : β → γ → Prop} {zs : List γ}
    (h : ∀ x ∈ xs, ∀ y z, r x y → s x z → t y z) (hr : List.Forall₂ r xs ys)
    (hs : List.Forall₂ s xs zs) : List.Forall₂ t ys zs := by
  induction hr generalizing zs with
  | nil =>
    cases hs
    exact .nil
  | cons hxy _ ih =>
    obtain ⟨hx, hxs⟩ := List.forall_mem_cons.mp h
    cases hs with
    | cons hxz hs => exact .cons (hx _ _ hxy hxz) (ih hxs hs)

end Related

namespace Expr

/-- Some references to a constant are replaced, each by its expression or by a literal. -/
inductive Inlined (d : Constant) (v : Value) : Expr → Expr → Prop
  | unchanged (e : Expr) : Inlined d v e e
  | expression (span : Span) : Inlined d v (.reference d.name span) d.expr
  | literal (span span' : Span) : Inlined d v (.reference d.name span) (.literal v span')
  | apply {operands operands' : List Expr} (operator : String) (span : Span) :
    List.Forall₂ (Inlined d v) operands operands' →
    Inlined d v (.apply operator operands span) (.apply operator operands' span)

variable {ops : OperatorRegistry} {values : Valuation} {d : Constant} {v : Value} {e e' : Expr}

theorem not_mentions_literal (w : Value) (span : Span) (name : String) :
    ¬ (Expr.literal w span).Mentions name := by
  simp [Mentions, occurrences]

/-- A name is mentioned as before, or by the expression that a reference was replaced by. -/
theorem Inlined.mentions (h : Inlined d v e e') {name : String} (hname : e'.Mentions name) :
    e.Mentions name ∨ e.Mentions d.name ∧ d.expr.Mentions name := by
  induction e using inductOnOperands generalizing e' with
  | literal w span =>
    cases h
    exact .inl hname
  | reference other span =>
    cases h with
    | unchanged => exact .inl hname
    | expression => exact .inr ⟨⟨span, by simp [occurrences]⟩, hname⟩
    | literal _ span' => exact absurd hname (not_mentions_literal v span' name)
  | apply operator operands span ih =>
    cases h with
    | unchanged => exact .inl hname
    | apply _ _ hoperands =>
      simp only [mentions_apply] at hname ⊢
      obtain ⟨a', ha', hmentions⟩ := hname
      obtain ⟨a, ha, hinlined⟩ := exists_of_forall₂ hoperands a' ha'
      obtain hmentions | ⟨hreference, hmentions⟩ := ih a ha hinlined hmentions
      · exact .inl ⟨a, ha, hmentions⟩
      · exact .inr ⟨⟨a, ha, hreference⟩, hmentions⟩

/-- The value of an expression stays if that of the inlined constant is the value of its own
expression. -/
theorem Inlined.eval (h : Inlined d v e e') (hd : values d.name = some v)
    (hexpr : Expr.eval ops values d.expr = .ok v) {w : Value}
    (heval : Expr.eval ops values e = .ok w) : Expr.eval ops values e' = .ok w := by
  induction e using inductOnOperands generalizing e' w with
  | literal u span =>
    cases h
    exact heval
  | reference other span =>
    cases h with
    | unchanged => exact heval
    | expression =>
      simp only [Expr.eval, hd] at heval
      exact heval ▸ hexpr
    | literal => simpa only [Expr.eval, hd] using heval
  | apply operator operands span ih =>
    cases h with
    | unchanged => exact heval
    | apply _ _ hoperands =>
      rw [eval_apply_eq_ok] at heval ⊢
      obtain ⟨op, vs, hop, hvs, hadmits⟩ := heval
      exact ⟨op, vs, hop, forall₂_of_common (fun a ha a' u hinlined hu => ih a ha hinlined hu)
        hoperands hvs, hadmits⟩

end Expr

open Constant (Distinct Refers Complete)

variable {types : TypeRegistry} {ops : OperatorRegistry} {constants constants' : List Constant}
  {d : Constant} {v : Value} {r : Resolved}

/-- Constants of the same names and types in which some references to one constant are replaced. -/
def Inlines (d : Constant) (v : Value) (constants constants' : List Constant) : Prop :=
  List.Forall₂ (fun c c' => c'.name = c.name ∧ c'.typeName = c.typeName ∧
    Expr.Inlined d v c.expr c'.expr) constants constants'

namespace Inlines

variable (h : Inlines d v constants constants')
include h

theorem names : constants'.map Constant.name = constants.map Constant.name := by
  induction h with
  | nil => rfl
  | cons hc _ ih => rw [List.map_cons, List.map_cons, hc.1, ih]

variable (hd : d ∈ constants)
include hd

/-- A reference of an inlined expression stands for one or two references of before. -/
theorem refers {a b : String} (hab : Refers constants' a b) :
    Relation.TransGen (Refers constants) a b := by
  obtain ⟨c', hc', rfl, hmentions⟩ := hab
  obtain ⟨c, hc, hname, -, hinlined⟩ := exists_of_forall₂ h c' hc'
  rw [hname]
  obtain hmentions | ⟨hreference, hmentions⟩ := hinlined.mentions hmentions
  · exact .single ⟨c, hc, rfl, hmentions⟩
  · exact .tail (.single ⟨c, hc, rfl, hreference⟩) ⟨d, hd, rfl, hmentions⟩

theorem evaluated {values : Valuation} (hvalue : values d.name = some v)
    (hvalues : Evaluated types ops constants values) : Evaluated types ops constants' values where
  defined name := by rw [h.names, hvalues.defined]
  equations c' hc' := by
    obtain ⟨c, hc, hname, -, hinlined⟩ := exists_of_forall₂ h c' hc'
    obtain ⟨w, hw, heval⟩ := hvalues.equations c hc
    obtain ⟨u, hu, hexpr⟩ := hvalues.equations d hd
    obtain rfl : u = v := Option.some.inj (hu.symm.trans hvalue)
    exact ⟨w, hname ▸ hw, hinlined.eval hvalue hexpr heval⟩
  fits c' hc' w hw := by
    obtain ⟨c, hc, hname, htype, -⟩ := exists_of_forall₂ h c' hc'
    exact Constant.fits_congr hname.symm htype.symm (hvalues.fits c hc w (hname ▸ hw))

theorem passes (hr : resolve types ops constants = .ok r) (hvalue : r.value? d.name = some v)
    (stage : Stage) : Passes types ops constants' stage := by
  have hpasses := resolve_isOk_iff.mp ⟨r, hr⟩
  cases stage with
  | names =>
    have hdistinct : Distinct constants := hpasses .names
    rwa [Passes, Distinct, h.names]
  | references =>
    have hcomplete : Complete constants := hpasses .references
    intro c' hc' name hname
    obtain ⟨c, hc, -, -, hinlined⟩ := exists_of_forall₂ h c' hc'
    rw [h.names]
    obtain hname | ⟨-, hname⟩ := hinlined.mentions hname
    · exact hcomplete c hc name hname
    · exact hcomplete d hd name hname
  | cycles =>
    have hacyclic : Acyclic (Refers constants) := hpasses .cycles
    -- each step of a loop is one way or another a path of references that were there before
    exact fun name hloop => hacyclic name
      (Relation.TransGen.closed (fun a b hab => h.refers hd hab) _ _ hloop)
  | types =>
    rintro c' hc' name ⟨hstrict, hname, hnone⟩
    obtain ⟨c, hc, -, htype, -⟩ := exists_of_forall₂ h c' hc'
    exact hpasses .types c hc name ⟨hstrict, htype ▸ hname, hnone⟩
  | values => exact ⟨_, h.evaluated hd hvalue (evaluated_of_resolve hr)⟩

theorem exists_resolve (hr : resolve types ops constants = .ok r)
    (hvalue : r.value? d.name = some v) :
    ∃ r', resolve types ops constants' = .ok r' ∧ r'.value? = r.value? := by
  obtain ⟨r', hr'⟩ := resolve_isOk_iff.mpr (h.passes hd hr hvalue)
  have hevaluated := h.evaluated hd hvalue (evaluated_of_resolve hr)
  exact ⟨r', hr', (value?_unique hr' hevaluated.toSolves).symm⟩

end Inlines

/-- In constants that resolve, any references of one of them to another may be replaced, each by the
expression of the other or by a literal of its value. The constants then resolve to the same
values. -/
theorem resolve_inlined {before after : List Constant} {c : Constant} {e' : Expr} (source : String)
    (hr : resolve types ops (before ++ c :: after) = .ok r) (hd : d ∈ before ++ c :: after)
    (hvalue : r.value? d.name = some v) (h : c.expr.Inlined d v e') :
    ∃ r', resolve types ops (before ++ { c with expr := e', source } :: after) = .ok r' ∧
      r'.value? = r.value? := by
  have hunchanged : ∀ constants : List Constant, Inlines d v constants constants := fun constants =>
    List.forall₂_same.mpr fun b _ => ⟨rfl, rfl, .unchanged b.expr⟩
  have hinlines : Inlines d v (before ++ c :: after)
      (before ++ { c with expr := e', source } :: after) :=
    List.rel_append (hunchanged before) (.cons ⟨rfl, rfl, h⟩ (hunchanged after))
  exact hinlines.exists_resolve hd hr hvalue

/-- A constant that refers twice to another one, which has a reference itself. -/
def referredTwice : List Constant :=
  [{ name := "A", typeName := none, expr := .literal (.integer 4096) default },
   { name := "B", typeName := some "u32", ordinal := 1,
     expr := .apply "add" [.reference "A" default, .literal (.integer 16) default] default },
   { name := "C", typeName := some "u32", ordinal := 2,
     expr := .apply "add" [.reference "B" ⟨5, 6⟩, .reference "B" ⟨7, 8⟩] ⟨0, 9⟩ }]

/-- One of the references is replaced by the expression and the other one by the value. -/
def inlinedTwice : Constant :=
  { referredTwice[2] with
    expr := .apply "add" [referredTwice[1].expr, .literal (.integer 4112) default] ⟨0, 9⟩ }

theorem resolve_inlined_referredTwice :
    ∃ r r', resolve {} .builtin referredTwice = .ok r ∧
      resolve {} .builtin [referredTwice[0], referredTwice[1], inlinedTwice] = .ok r' ∧
      r'.value? = r.value? ∧ r'.value? "C" = some (.integer 8224) := by
  have hsort : Constant.byOrdinal referredTwice = referredTwice :=
    List.mergeSort_of_pairwise (by decide)
  have hcomputed : (resolveDeclared {} .builtin referredTwice).toOption.map
      (fun r => (r.value? "B", r.value? "C")) =
        some (some (.integer 4112), some (.integer 8224)) := by
    decide +kernel
  cases hr : resolve {} .builtin referredTwice with
  | error d =>
    rw [resolve, hsort] at hr
    simp [hr, Except.toOption] at hcomputed
  | ok r =>
    have hdeclared := hr
    rw [resolve, hsort] at hdeclared
    simp only [hdeclared, Except.toOption, Option.map_some, Option.some.injEq,
      Prod.mk.injEq] at hcomputed
    obtain ⟨hB, hC⟩ := hcomputed
    have hinlined : referredTwice[2].expr.Inlined referredTwice[1] (.integer 4112)
        inlinedTwice.expr :=
      .apply _ _ (.cons (.expression _) (.cons (.literal _ _) .nil))
    have hsplit : resolve {} .builtin
        ([referredTwice[0], referredTwice[1]] ++ referredTwice[2] :: []) = .ok r := hr
    have hmem : referredTwice[1] ∈ referredTwice := List.getElem_mem _
    obtain ⟨r', hr', hvalue⟩ := resolve_inlined "" hsplit hmem hB hinlined
    exact ⟨r, r', rfl, hr', hvalue, hvalue ▸ hC⟩

end SharedConstants
