import SharedConstants.Proofs.Constant.Solution
import SharedConstants.Proofs.Expr.Range
import SharedConstants.Proofs.Success

/-!
# Ranges of constants

Values found in the course of a resolution stay in the signed 128-bit range. So every application
that a resolution comes to is exact, or it fails and the resolution with it. What a resolution
gives for a constant with a type is a value of the type.
-/
namespace SharedConstants

open Constant (Distinct)

variable {types : TypeRegistry} {ops : OperatorRegistry} {constants : List Constant}

/-- The structural stages of a resolution pass. They leave the constants with their types and
an order of evaluation. -/
def Prepares (types : TypeRegistry) (constants : List Constant) (typed : List Typed)
    (order : List String) : Prop :=
  ∃ graph, DependencyGraph.ofConstants (Constant.byOrdinal constants) = .ok graph ∧
    graph.validate = .ok () ∧ graph.links.findCycle? = none ∧
    lookupTypes types (Constant.byOrdinal constants) = .ok typed ∧
    graph.links.evaluationOrder = .ok order

/-- A resolution comes to a constant when it has found the values of those before it. -/
def Reaches (types : TypeRegistry) (ops : OperatorRegistry) (constants : List Constant)
    (c : Constant) (found : Values) : Prop :=
  c ∈ constants ∧ ∃ typed before after, Prepares types constants typed (before ++ c.name :: after) ∧
    evaluateInOrder ops typed before [] = .ok found

section Stages

variable {typed : List Typed} {order : List String}

theorem DependencyGraph.distinct_of_ofConstants {g : DependencyGraph}
    (h : DependencyGraph.ofConstants constants = .ok g) :
    g.constants = constants ∧ Distinct constants := by
  by_cases hdistinct : Distinct constants
  · rw [DependencyGraph.ofConstants_eq_ok hdistinct] at h
    obtain rfl := Except.ok.inj h
    exact ⟨rfl, hdistinct⟩
  · obtain ⟨c, _, herror⟩ := DependencyGraph.ofConstants_error hdistinct
    rw [h] at herror
    cases herror

theorem Prepares.resolve_eq (h : Prepares types constants typed order) :
    resolve types ops constants =
      (evaluateInOrder ops typed order []).map fun values => ⟨assemble typed values, order⟩ := by
  obtain ⟨graph, hgraph, hvalid, hcycle, htyped, horder⟩ := h
  rw [resolve, resolveDeclared, hgraph]
  simp only [bind, Except.bind, hvalid, hcycle, htyped, horder]
  rfl

/-- A resolution that succeeds has passed the structural stages. -/
theorem exists_prepares {r : Resolved} (h : resolve types ops constants = .ok r) :
    ∃ typed order, Prepares types constants typed order := by
  rw [resolve, resolveDeclared] at h
  obtain ⟨graph, hgraph, h⟩ := bind_eq_ok.mp h
  obtain ⟨⟨⟩, hvalid, h⟩ := bind_eq_ok.mp h
  cases hcycle : graph.links.findCycle? with
  | some cycle => simp [hcycle, bind, Except.bind] at h
  | none =>
    simp only [hcycle] at h
    obtain ⟨typed, htyped, h⟩ := bind_eq_ok.mp h
    obtain ⟨order, horder, h⟩ := bind_eq_ok.mp h
    exact ⟨typed, order, graph, hgraph, hvalid, hcycle, htyped, horder⟩

theorem Prepares.find?_typed (h : Prepares types constants typed order) {c : Constant}
    (hc : c ∈ constants) : ∃ t, typed.find? (·.1.name == c.name) = some (c, t) ∧
      c.lookupType types = .ok t := by
  obtain ⟨graph, hgraph, _, _, htyped, _⟩ := h
  have hdistinct := (DependencyGraph.distinct_of_ofConstants hgraph).2
  exact typesOf_of_lookupTypes hdistinct htyped (List.Subset.refl _) c
    ((Constant.byOrdinal_isStableSort constants).perm.mem_iff.mpr hc)

theorem Prepares.mem_order (h : Prepares types constants typed order) {c : Constant}
    (hc : c ∈ constants) : c.name ∈ order := by
  obtain ⟨graph, hgraph, _, _, _, horder⟩ := h
  have hnodup : graph.links.names.Nodup :=
    DependencyGraph.names_links graph ▸ graph.names_nodup
  have hperm := (Links.evaluationOrder_ok hnodup horder).1
  rw [hperm.mem_iff, DependencyGraph.names_links, DependencyGraph.names,
    (DependencyGraph.distinct_of_ofConstants hgraph).1]
  exact List.mem_map_of_mem ((Constant.byOrdinal_isStableSort constants).perm.mem_iff.mpr hc)

theorem Prepares.mem_typed (h : Prepares types constants typed order) {entry : Typed}
    (hentry : entry ∈ typed) : entry.1 ∈ constants := by
  obtain ⟨_, _, _, _, htyped, _⟩ := h
  have hmem := List.mem_map_of_mem (f := Prod.fst) hentry
  rw [(lookupTypes_ok htyped).1] at hmem
  exact (Constant.byOrdinal_isStableSort constants).perm.mem_iff.mp hmem

/-- A resolution fails at a constant that it comes to and whose expression fails. -/
theorem Reaches.resolve_error {c : Constant} {found : Values} {d : Diagnostic}
    (h : Reaches types ops constants c found) (hd : c.expr.eval ops found.get = .error d) :
    resolve types ops constants = .error (c.place d) := by
  obtain ⟨hc, typed, before, after, hprepares, hfound⟩ := h
  obtain ⟨t, hfind, _⟩ := hprepares.find?_typed hc
  rw [hprepares.resolve_eq, evaluateInOrder_append, hfound]
  simp [Except.bind, Except.map, evaluateInOrder, hfind, Constant.evaluate,
    Expr.evaluate_eq_eval, hd]

/-- A resolution that succeeds comes to all constants. -/
theorem exists_reaches {r : Resolved} {c : Constant} (h : resolve types ops constants = .ok r)
    (hc : c ∈ constants) : ∃ found, Reaches types ops constants c found := by
  obtain ⟨typed, order, hprepares⟩ := exists_prepares h
  obtain ⟨before, after, rfl⟩ := List.append_of_mem (hprepares.mem_order hc)
  rw [hprepares.resolve_eq] at h
  obtain ⟨values, hrun, _⟩ := map_eq_ok.mp h
  rw [evaluateInOrder_append] at hrun
  obtain ⟨found, hfound, _⟩ := bind_eq_ok.mp hrun
  exact ⟨found, hc, typed, before, after, hprepares, hfound⟩

end Stages

section Values

variable {typed : List Typed} {order : List String} {found values : Values}

/-- One more value in range leaves all values in range. -/
theorem Values.bounded_cons {name : String} {v : Value} (hfound : found.get.Bounded)
    (hv : v.Bounded) : (Values.get ((name, v) :: found)).Bounded := by
  intro a w hw
  rw [Values.get_cons] at hw
  split at hw
  · obtain rfl := Option.some.inj hw
    exact hv
  · exact hfound a w hw

theorem Constant.eval_of_evaluate_ok {c : Constant} {type : Option SemanticType} {v : Value}
    (h : c.evaluate ops found.get type = .ok v) : c.expr.eval ops found.get = .ok v := by
  simp only [evaluate, Expr.evaluate_eq_eval] at h
  cases heval : c.expr.eval ops found.get with
  | error d => simp [heval] at h
  | ok w =>
    cases type with
    | none => simpa [heval] using h
    | some t =>
      cases hcheck : t.check w with
      | error d => simp [heval, hcheck] at h
      | ok _ => simpa [heval, hcheck] using h

/-- A run over constants with literals in range keeps all values in range. -/
theorem evaluateInOrder_bounded (htyped : ∀ entry ∈ typed, entry.1.expr.Bounded)
    (hfound : found.get.Bounded)
    (h : evaluateInOrder .builtin typed order found = .ok values) : values.get.Bounded := by
  induction order generalizing found with
  | nil =>
    obtain rfl := Except.ok.inj h
    exact hfound
  | cons name order ih =>
    simp only [evaluateInOrder] at h
    cases hfind : typed.find? (·.1.name == name) with
    | none => exact ih hfound (by simpa [hfind] using h)
    | some entry =>
      obtain ⟨c, t⟩ := entry
      cases hc : c.evaluate .builtin found.get t with
      | error d => simp [hfind, hc] at h
      | ok v =>
        have hbounded : v.Bounded := Expr.eval_bounded hfound
          (htyped _ (List.mem_of_find?_eq_some hfind)) (Constant.eval_of_evaluate_ok hc)
        exact ih (Values.bounded_cons hfound hbounded) (by simpa [hfind, hc] using h)

end Values

section Results

variable {r : Resolved} {rc : ResolvedConstant}

/-- A resolved constant with a type has a value of this type. -/
theorem holds_of_resolve (h : resolve types ops constants = .ok r) (hrc : rc ∈ r.constants) :
    rc.constant.HasType types rc.type ∧ ∀ t, rc.type = some t → t.Holds rc.value := by
  obtain ⟨typed, schedule, values, hdistinct, _, _, htyped, hschedule, hrun, rfl⟩ :=
    resolveDeclared_ok h
  obtain ⟨hmem, hvalue⟩ := mem_assemble hrc
  obtain ⟨hmap, htypes⟩ := lookupTypes_ok htyped
  have hevaluated := evaluateInOrder_head ops schedule [] hdistinct htyped
    (by simpa using hschedule)
  simp only [hrun] at hevaluated
  have hscheduled : rc.constant ∈ schedule := by
    rw [hschedule.perm.mem_iff, ← hmap]
    exact List.mem_map_of_mem (f := Prod.fst) hmem
  refine ⟨Constant.lookupType_ok (htypes _ hmem), fun t ht => ?_⟩
  have hlookup : rc.constant.lookupType types = .ok (some t) := ht ▸ htypes _ hmem
  exact SemanticType.check_eq_ok.mp (hevaluated.fits _ hscheduled _ hvalue t hlookup)

variable (hliterals : ∀ c ∈ constants, c.expr.Bounded)
include hliterals

theorem Prepares.bounded {typed : List Typed} {order : List String}
    (h : Prepares types constants typed order) {names : List String} {found : Values}
    (hfound : evaluateInOrder .builtin typed names [] = .ok found) : found.get.Bounded :=
  evaluateInOrder_bounded (fun _ hentry => hliterals _ (h.mem_typed hentry))
    (fun _ _ hv => by cases hv) hfound

theorem Reaches.bounded {c : Constant} {found : Values}
    (h : Reaches types .builtin constants c found) : found.get.Bounded := by
  obtain ⟨_, typed, _, _, hprepares, hfound⟩ := h
  exact hprepares.bounded hliterals hfound

theorem bounded_of_resolve (h : resolve types .builtin constants = .ok r)
    (hrc : rc ∈ r.constants) : rc.value.Bounded := by
  obtain ⟨typed, order, hprepares⟩ := exists_prepares h
  rw [hprepares.resolve_eq] at h
  obtain ⟨values, hrun, rfl⟩ := map_eq_ok.mp h
  exact hprepares.bounded hliterals hrun _ _ (mem_assemble hrc).2

end Results

/-- Nothing wraps or leaves its range under the built-in operators. Literals that are read from a
text or taken from a document are in range. Over such literals every application in a constant
that a resolution comes to has an exact value in range, or it fails and the resolution fails. A
resolution that succeeds comes to all constants, and gives each a value in range that is one of
its type if it has a type. -/
theorem resolve_exact (types : TypeRegistry) (constants : List Constant) :
    (∀ ops text constant e, Expr.parse ops text constant = .ok e → e.Bounded) ∧
    (∀ v constant e, Expr.ofNative v constant = .ok e → e.Bounded) ∧
    ((∀ c ∈ constants, c.expr.Bounded) →
      (∀ c found, Reaches types .builtin constants c found →
        ∀ operator operands span, .apply operator operands span ∈ c.expr.nodes →
          (∃ d, Expr.eval .builtin found.get (.apply operator operands span) = .error d ∧
            ∃ d', resolve types .builtin constants = .error d') ∨
          ∃ op vs v, OperatorRegistry.builtin.get? operator = some op ∧
            List.Forall₂ (fun e w => Expr.eval .builtin found.get e = .ok w) operands vs ∧
            Expr.eval .builtin found.get (.apply operator operands span) = .ok v ∧
            op.Computes vs v) ∧
      ∀ r, resolve types .builtin constants = .ok r →
        (∀ c ∈ constants, ∃ found, Reaches types .builtin constants c found) ∧
        ∀ rc ∈ r.constants, rc.value.Bounded ∧ rc.constant.HasType types rc.type ∧
          ∀ t, rc.type = some t → t.Holds rc.value) := by
  refine ⟨fun _ _ _ _ => Expr.bounded_of_parse, fun _ _ _ => Expr.bounded_of_ofNative,
    fun hliterals => ⟨?_, fun r h => ⟨fun c hc => exists_reaches h hc, fun rc hrc =>
      ⟨bounded_of_resolve hliterals h hrc, holds_of_resolve h hrc⟩⟩⟩⟩
  intro c found hreaches operator operands span hmem
  have hc : c.expr.Bounded := hliterals c hreaches.1
  have hvalues := hreaches.bounded hliterals
  cases heval : Expr.eval .builtin found.get (.apply operator operands span) with
  | error d =>
    -- an expression with a node that fails fails itself
    cases hexpr : c.expr.eval .builtin found.get with
    | error d' => exact .inl ⟨d, rfl, _, hreaches.resolve_error hexpr⟩
    | ok v =>
      obtain ⟨w, hw⟩ := Expr.eval_node_ok hexpr hmem
      rw [heval] at hw
      cases hw
  | ok v =>
    obtain ⟨op, vs, hop, hoperands, hcomputes⟩ :=
      Expr.computes_of_mem_nodes hvalues hc hmem heval
    exact .inr ⟨op, vs, v, hop, hoperands, rfl, hcomputes⟩

/-- A constant whose value comes from operators that do not check their results. -/
def shiftedOut : List Constant :=
  [{ name := "SIGN", typeName := some "i8",
     expr := .apply "max" [.apply "shr" [.literal (.integer Value.minInt128) ⟨10, 50⟩,
       .literal (.integer 300) ⟨51, 54⟩] ⟨5, 55⟩, .literal (.integer (-5)) ⟨56, 58⟩] ⟨0, 59⟩ }]

theorem resolve_shiftedOut : resolve {} .builtin shiftedOut = .ok
    ⟨[⟨shiftedOut[0], .integer (-1), some (.integer "i8" 8 true)⟩], ["SIGN"]⟩ := by
  have hsort : Constant.byOrdinal shiftedOut = shiftedOut :=
    List.mergeSort_of_pairwise (by decide)
  have hdistinct : Distinct shiftedOut := by decide
  have hcomplete : Constant.Complete shiftedOut := by decide
  have hvalid : DependencyGraph.validate ⟨shiftedOut, hdistinct⟩ = .ok () :=
    DependencyGraph.validate_eq_ok hcomplete
  have hlinks : DependencyGraph.links ⟨shiftedOut, hdistinct⟩ = [("SIGN", [])] := by cbv
  have hcycle : Links.findCycle? [("SIGN", [])] = none := rfl
  have horder : Links.evaluationOrder [("SIGN", [])] = .ok ["SIGN"] := rfl
  rw [resolve, hsort, resolveDeclared, DependencyGraph.ofConstants_eq_ok hdistinct]
  simp only [bind, Except.bind, hvalid, hlinks, hcycle, horder]
  simp only [shiftedOut, lookupTypes, Constant.lookupType, evaluateInOrder,
    Constant.evaluate, Expr.evaluate_eq_eval]
  rfl

theorem resolve_exact_shiftedOut :
    (∃ e, Expr.parse .builtin "7" none = .ok e ∧ e.Bounded) ∧
    (∃ e, Expr.ofNative (.integer 7) none = .ok e ∧ e.Bounded) ∧
    (∀ c ∈ shiftedOut, c.expr.Bounded) ∧
    ∃ r, resolve {} .builtin shiftedOut = .ok r ∧
      (∃ found, Reaches {} .builtin shiftedOut shiftedOut[0] found ∧
        ∃ op vs v, OperatorRegistry.builtin.get? "max" = some op ∧ op.Computes vs v) ∧
      ∀ rc ∈ r.constants, rc.value.Bounded ∧ ∀ t, rc.type = some t → t.Holds rc.value := by
  obtain ⟨hparse, hnative, hresolve⟩ := resolve_exact {} shiftedOut
  have hliterals : ∀ c ∈ shiftedOut, c.expr.Bounded := by
    simp only [shiftedOut, List.forall_mem_singleton, Expr.bounded_apply, List.forall_mem_cons,
      Expr.bounded_literal]
    exact ⟨⟨⟨by decide, by decide⟩, by decide, by decide⟩, by decide, by decide⟩
  obtain ⟨hexact, hok⟩ := hresolve hliterals
  obtain ⟨hreached, hvalues⟩ := hok _ resolve_shiftedOut
  obtain ⟨found, hfound⟩ := hreached shiftedOut[0] List.mem_cons_self
  have hmem : shiftedOut[0].expr ∈ shiftedOut[0].expr.nodes := Expr.self_mem_nodes _
  refine ⟨⟨_, rfl, hparse .builtin "7" none _ rfl⟩, ⟨_, rfl, hnative (.integer 7) none _ rfl⟩,
    hliterals, _, resolve_shiftedOut, ⟨found, hfound, ?_⟩,
    fun rc hrc => ⟨(hvalues rc hrc).1, (hvalues rc hrc).2.2⟩⟩
  rcases hexact _ found hfound _ _ _ hmem with ⟨_, _, _, hfails⟩ | ⟨op, vs, v, hop, _, _, hcomputes⟩
  · rw [resolve_shiftedOut] at hfails
    cases hfails
  · exact ⟨op, vs, v, hop, hcomputes⟩

end SharedConstants
