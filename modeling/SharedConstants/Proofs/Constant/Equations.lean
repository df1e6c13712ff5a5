import SharedConstants.Constant.Resolution
import SharedConstants.Proofs.Constant.Reference
import SharedConstants.Proofs.Expr.Evaluation

/-!
# The equations of constants

A set of constants declares an equation for each name: its value is that of its expression.
Without cycles the equations have at most one solution. Evaluating constants one after another
extends a solution of some of them by one more, or stops at the first one that fails.
-/
namespace SharedConstants

/-- The value of every constant is that of its expression. -/
def Satisfies (ops : OperatorRegistry) (constants : List Constant) (values : Valuation) : Prop :=
  ∀ c ∈ constants, ∃ v, values c.name = some v ∧ c.expr.eval ops values = .ok v

/-- Values for exactly the names of some constants that satisfy their equations. -/
structure Solves (ops : OperatorRegistry) (constants : List Constant) (values : Valuation) :
    Prop where
  defined : ∀ name, (values name).isSome ↔ name ∈ constants.map Constant.name
  equations : Satisfies ops constants values

namespace Constant

/-- A value passes the check against the type that a constant declares, if it declares one. -/
def Fits (types : TypeRegistry) (c : Constant) (v : Value) : Prop :=
  ∀ t, c.lookupType types = .ok (some t) → t.check v = .ok ()

/-- The expression of a constant has no value, or its value is none of the declared type. -/
def Fails (types : TypeRegistry) (ops : OperatorRegistry) (values : Valuation) (c : Constant)
    (d : Diagnostic) : Prop :=
  c.expr.eval ops values = .error d ∨
    ∃ v t, c.expr.eval ops values = .ok v ∧ c.lookupType types = .ok (some t) ∧
      t.check v = .error d

end Constant

/-- Some constants are evaluated: their equations are solved by values of their types. -/
structure Evaluated (types : TypeRegistry) (ops : OperatorRegistry) (constants : List Constant)
    (values : Valuation) : Prop extends Solves ops constants values where
  fits : ∀ c ∈ constants, ∀ v, values c.name = some v → c.Fits types v

/-- The first constant of a schedule that fails once those before it are evaluated. -/
def FirstFailure (types : TypeRegistry) (ops : OperatorRegistry) (schedule : List Constant)
    (c : Constant) (d : Diagnostic) : Prop :=
  ∃ before after values, schedule = before ++ c :: after ∧
    Evaluated types ops before values ∧ c.Fails types ops values d

open Constant (Distinct Refers IsComplete Complete)

variable {types : TypeRegistry} {ops : OperatorRegistry} {constants : List Constant}
  {values values' : Valuation}

/-- Without cycles any two ways to satisfy the equations agree. -/
theorem Satisfies.agree (h : Satisfies ops constants values)
    (h' : Satisfies ops constants values') (hcomplete : Complete constants)
    (hgrounded : ∀ name, Grounded (Refers constants) name) {name : String}
    (hname : name ∈ constants.map Constant.name) : values name = values' name := by
  induction hgrounded name with
  | intro name _ ih =>
    obtain ⟨c, hc, rfl⟩ := List.mem_map.mp hname
    have hagree : ∀ a, c.expr.Mentions a → values a = values' a :=
      fun a ha => ih a ⟨c, hc, rfl, ha⟩ (hcomplete c hc a ha)
    obtain ⟨v, hv, heval⟩ := h c hc
    obtain ⟨v', hv', heval'⟩ := h' c hc
    rw [Expr.eval_congr hagree, heval'] at heval
    cases heval
    rw [hv, hv']

theorem Solves.unique (h : Solves ops constants values) (h' : Solves ops constants values')
    (hcomplete : Complete constants)
    (hgrounded : ∀ name, Grounded (Refers constants) name) : values = values' := by
  funext name
  by_cases hname : name ∈ constants.map Constant.name
  · exact h.equations.agree h'.equations hcomplete hgrounded hname
  · have hnone := (h.defined name).not.mpr hname
    have hnone' := (h'.defined name).not.mpr hname
    rw [Option.not_isSome_iff_eq_none] at hnone hnone'
    rw [hnone, hnone']

theorem Solves.perm {constants' : List Constant} (h : Solves ops constants values)
    (hperm : constants.Perm constants') : Solves ops constants' values where
  defined name := (h.defined name).trans (hperm.map Constant.name).mem_iff
  equations := fun c hc => h.equations c (hperm.mem_iff.mpr hc)

theorem evaluated_nil : Evaluated types ops [] (Values.get []) where
  defined := by simp [Values.get]
  equations := by simp [Satisfies]
  fits := by simp

theorem Values.get_cons (name : String) (v : Value) (values : Values) (a : String) :
    Values.get ((name, v) :: values) a = if a = name then some v else values.get a := by
  by_cases h : a = name
  · simp [Values.get, h]
  · simp [Values.get, h, List.lookup_cons, beq_eq_false_iff_ne.mpr h]

/-- Evaluating one more constant of a new name extends what is evaluated. -/
theorem Evaluated.snoc {before : List Constant} {values : Values} {c : Constant} {v : Value}
    (h : Evaluated types ops before values.get) (hnew : c.name ∉ before.map Constant.name)
    (hvalue : c.expr.eval ops values.get = .ok v) (hfits : c.Fits types v) :
    Evaluated types ops (before ++ [c]) (Values.get ((c.name, v) :: values)) := by
  have hmore : ∀ name w, values.get name = some w →
      Values.get ((c.name, v) :: values) name = some w := by
    intro name w hw
    have hne : name ≠ c.name := by
      rintro rfl
      exact hnew ((h.defined _).mp (by simp [hw]))
    rw [Values.get_cons, if_neg hne, hw]
  refine ⟨⟨?_, ?_⟩, ?_⟩
  · intro name
    rw [Values.get_cons]
    by_cases hname : name = c.name
    · simp [hname]
    · simpa [hname] using h.defined name
  · intro b hb
    rcases List.mem_append.mp hb with hb | hb
    · obtain ⟨w, hw, heval⟩ := h.equations b hb
      exact ⟨w, hmore _ _ hw, Expr.eval_mono heval hmore⟩
    · obtain rfl := List.mem_singleton.mp hb
      exact ⟨v, by simp [Values.get_cons], Expr.eval_mono hvalue hmore⟩
  · intro b hb w hw
    rcases List.mem_append.mp hb with hb | hb
    · obtain ⟨w', hw', _⟩ := h.equations b hb
      rw [hmore _ _ hw'] at hw
      cases hw
      exact h.fits b hb _ hw'
    · obtain rfl := List.mem_singleton.mp hb
      rw [Values.get_cons, if_pos rfl] at hw
      cases hw
      exact hfits

theorem Constant.evaluate_ok {c : Constant} {type : Option SemanticType} {v : Value}
    (htype : c.lookupType types = .ok type) (h : c.evaluate ops values type = .ok v) :
    c.expr.eval ops values = .ok v ∧ c.Fits types v := by
  simp only [evaluate, Expr.evaluate_eq_eval] at h
  cases heval : c.expr.eval ops values with
  | error d => simp [heval] at h
  | ok w =>
    cases type with
    | none =>
      obtain rfl : w = v := by simpa [heval] using h
      exact ⟨rfl, fun t ht => by simp [htype] at ht⟩
    | some t =>
      cases hcheck : t.check w with
      | error d => simp [heval, hcheck] at h
      | ok _ =>
        obtain rfl : w = v := by simpa [heval, hcheck] using h
        refine ⟨rfl, fun t' ht => ?_⟩
        obtain rfl : t = t' := by simpa [htype] using ht
        exact hcheck

theorem Constant.evaluate_error {c : Constant} {type : Option SemanticType} {e : Diagnostic}
    (htype : c.lookupType types = .ok type) (h : c.evaluate ops values type = .error e) :
    ∃ d, c.Fails types ops values d ∧ e = c.place d := by
  simp only [evaluate, Expr.evaluate_eq_eval] at h
  cases heval : c.expr.eval ops values with
  | error d => exact ⟨d, .inl heval, by simpa [heval] using h.symm⟩
  | ok w =>
    cases type with
    | none => simp [heval] at h
    | some t =>
      cases hcheck : t.check w with
      | ok _ => simp [heval, hcheck] at h
      | error d =>
        exact ⟨d, .inr ⟨w, t, heval, htype, hcheck⟩, by simpa [heval, hcheck] using h.symm⟩

/-- The types that were looked up for a schedule stand in a list of constants with types. -/
def TypesOf (types : TypeRegistry) (typed : List Typed) (schedule : List Constant) : Prop :=
  ∀ c ∈ schedule, ∃ t, typed.find? (·.1.name == c.name) = some (c, t) ∧
    c.lookupType types = .ok t

/-- A run over a schedule evaluates all of it or stops at the first failure. -/
theorem evaluateInOrder_spec {typed : List Typed} {before rest : List Constant} {values : Values}
    (hdistinct : Distinct (before ++ rest)) (htyped : TypesOf types typed rest)
    (h : Evaluated types ops before values.get) :
    match evaluateInOrder ops typed (rest.map Constant.name) values with
    | .ok values' => Evaluated types ops (before ++ rest) values'.get
    | .error e => ∃ c d, FirstFailure types ops (before ++ rest) c d ∧ e = c.place d := by
  induction rest generalizing before values with
  | nil => simpa [evaluateInOrder] using h
  | cons c rest ih =>
    obtain ⟨t, hfind, htype⟩ := htyped c List.mem_cons_self
    simp only [List.map_cons, evaluateInOrder, hfind]
    cases hc : c.evaluate ops values.get t with
    | error e =>
      obtain ⟨d, hfails, rfl⟩ := c.evaluate_error htype hc
      exact ⟨c, d, ⟨before, rest, values.get, rfl, h, hfails⟩, rfl⟩
    | ok v =>
      obtain ⟨hvalue, hfits⟩ := c.evaluate_ok htype hc
      have hnew : c.name ∉ before.map Constant.name := by
        intro hmem
        rw [Distinct, List.map_append] at hdistinct
        exact List.disjoint_of_nodup_append hdistinct hmem List.mem_cons_self
      have hnext := h.snoc hnew hvalue hfits
      have hspec := ih (by simpa using hdistinct)
        (fun b hb => htyped b (List.mem_cons_of_mem _ hb)) hnext
      simpa using hspec

theorem evaluateInOrder_append {typed : List Typed} {before after : List String}
    {values : Values} :
    evaluateInOrder ops typed (before ++ after) values =
      (evaluateInOrder ops typed before values).bind (evaluateInOrder ops typed after) := by
  induction before generalizing values with
  | nil => rfl
  | cons name before ih =>
    simp only [List.cons_append, evaluateInOrder]
    cases typed.find? (·.1.name == name) with
    | none => exact ih
    | some entry =>
      obtain ⟨c, t⟩ := entry
      cases hc : c.evaluate ops values.get t with
      | error e => simp [hc, Except.bind]
      | ok v => simpa [hc] using ih

/-- A schedule lists all constants, each behind those that it refers to. -/
structure IsSchedule (constants schedule : List Constant) : Prop where
  perm : schedule.Perm constants
  behind : ∀ before c after, schedule = before ++ c :: after → IsComplete before c

theorem IsSchedule.head {before after : List Constant}
    (h : IsSchedule constants (before ++ after)) : IsSchedule before before where
  perm := .refl _
  behind left c right hsplit := h.behind left c (right ++ after) (by simp [hsplit])

theorem IsSchedule.complete {schedule : List Constant} (h : IsSchedule constants schedule) :
    Complete constants := by
  intro c hc name hname
  obtain ⟨before, after, hsplit⟩ := List.append_of_mem (h.perm.mem_iff.mpr hc)
  have hmem := h.behind before c after hsplit name hname
  rw [← (h.perm.map Constant.name).mem_iff, hsplit, List.map_append]
  exact List.mem_append_left _ hmem

theorem Constant.Refers.mono {some all : List Constant} (h : some ⊆ all) {a b : String}
    (hab : Refers some a b) : Refers all a b := by
  obtain ⟨c, hc, hrest⟩ := hab
  exact ⟨c, h hc, hrest⟩

theorem grounded_of_subset {some all : List Constant} (h : some ⊆ all)
    (hgrounded : ∀ name, Grounded (Refers all) name) : ∀ name, Grounded (Refers some) name :=
  fun name => Subrelation.accessible (fun hab => hab.mono h) (hgrounded name)

/-- Of two elements of a list one stands before the other, or they are the same. -/
theorem split_cases {α : Type} {left left' right right' : List α} {a b : α}
    (h : left ++ a :: right = left' ++ b :: right') : (left = left' ∧ a = b) ∨
      (∃ rest, left' = left ++ a :: rest) ∨ ∃ rest, left = left' ++ b :: rest := by
  rcases List.append_eq_append_iff.mp h with ⟨middle, hleft, hmiddle⟩ | ⟨middle, hleft, hmiddle⟩
  · cases middle <;> simp_all
  · cases middle <;> simp_all

theorem Constant.Fails.unique {c : Constant} {d d' : Diagnostic}
    (h : c.Fails types ops values d) (h' : c.Fails types ops values' d')
    (hagree : ∀ name, c.expr.Mentions name → values name = values' name) : d = d' := by
  simp only [Fails, Expr.eval_congr hagree] at h h'
  rcases h with heval | ⟨v, t, heval, ht, hcheck⟩ <;>
    rcases h' with heval' | ⟨v', t', heval', ht', hcheck'⟩ <;> simp_all

section Schedule

variable {schedule before after : List Constant}
  (hschedule : IsSchedule constants schedule)
  (hgrounded : ∀ name, Grounded (Refers constants) name)
include hschedule hgrounded

/-- The names at the head of a schedule have the same values whenever these satisfy the
equations of the head. -/
theorem IsSchedule.agree (hsplit : schedule = before ++ after)
    (h : Satisfies ops before values) (h' : Satisfies ops before values') {name : String}
    (hname : name ∈ before.map Constant.name) : values name = values' name := by
  subst hsplit
  have hsub : before ⊆ constants :=
    List.Subset.trans (List.subset_append_left _ _) hschedule.perm.subset
  exact h.agree h' hschedule.head.complete (grounded_of_subset hsub hgrounded) hname

/-- What is evaluated does not fail. -/
theorem Evaluated.not_fails {c : Constant} {d : Diagnostic} {found : Valuation}
    (h : Evaluated types ops before values) (hsplit : schedule = before ++ after)
    {left right : List Constant} (hc : before = left ++ c :: right)
    (hfound : Satisfies ops left found) : ¬ c.Fails types ops found d := by
  have hagree : ∀ name, c.expr.Mentions name → found name = values name := by
    intro name hname
    have hleft : schedule = left ++ (c :: right ++ after) := by simp [hsplit, hc]
    refine hschedule.agree hgrounded hleft hfound ?_
      (hschedule.behind left c (right ++ after) (by simp [hleft]) name hname)
    exact fun b hb => h.equations b (by simp [hc, hb])
  obtain ⟨v, hv, heval⟩ := h.equations c (by simp [hc])
  rw [← Expr.eval_congr hagree] at heval
  rintro (herror | ⟨w, t, hw, ht, hcheck⟩)
  · rw [heval] at herror
    cases herror
  · rw [heval] at hw
    cases hw
    have hfits := h.fits c (by simp [hc]) v hv t ht
    rw [hcheck] at hfits
    cases hfits

/-- At most one constant is the first to fail, in one way. -/
theorem FirstFailure.unique {c c' : Constant} {d d' : Diagnostic}
    (h : FirstFailure types ops schedule c d) (h' : FirstFailure types ops schedule c' d') :
    c = c' ∧ d = d' := by
  obtain ⟨before, after, found, hsplit, hfound, hfails⟩ := h
  obtain ⟨before', after', found', hsplit', hfound', hfails'⟩ := h'
  have hsame := hsplit.symm.trans hsplit'
  rcases split_cases hsame with ⟨rfl, rfl⟩ | ⟨right, hlonger⟩ | ⟨right, hlonger⟩
  · refine ⟨rfl, hfails.unique hfails' fun name hname => ?_⟩
    exact hschedule.agree hgrounded hsplit hfound.equations hfound'.equations
      (hschedule.behind before c after hsplit name hname)
  · exact absurd hfails
      (hfound'.not_fails hschedule hgrounded hsplit' hlonger hfound.equations)
  · exact absurd hfails'
      (hfound.not_fails hschedule hgrounded hsplit hlonger hfound'.equations)

end Schedule

end SharedConstants
