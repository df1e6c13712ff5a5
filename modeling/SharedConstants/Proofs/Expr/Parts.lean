import SharedConstants.Constant.Resolution
import SharedConstants.Proofs.Expr.Failure
import SharedConstants.Proofs.Expr.RoundTrip

/-!
# Parts of value texts

Every node of an expression that was read stands for the part of the text that its place marks: the
part reads as that node. The places of operands lie inside that of their application, one behind
the other. So the place of a failure shows the node that fails.
-/
namespace SharedConstants

namespace Expr

/-- Whether no number in what a phrase stands for is too long to be read. -/
def Phrase.Readable : Phrase → Prop
  | .operand d => d.Readable
  | .operands ds => ∀ d ∈ ds, d.Readable

/-- The nodes of the expressions that a phrase stands for. -/
def Phrase.nodes : Phrase → List Expr
  | .operand d => d.toExpr.nodes
  | .operands ds => walk (toExprs ds)

/-- Some part of a text that starts at a position derives a readable draft of an expression. -/
def HasPart (i : Nat) (text : List Char) (a : Expr) : Prop :=
  ∃ before part after d, text = before ++ (part ++ after) ∧
    Derives (i + before.length) part (.operand d) ∧ d.Readable ∧ d.toExpr = a

theorem HasPart.widen {i j : Nat} {text : List Char} {a : Expr} (h : HasPart j text a)
    (before after : List Char) (hj : j = i + before.length) :
    HasPart i (before ++ (text ++ after)) a := by
  subst hj
  obtain ⟨before', part, after', d, rfl, hderives, hreadable, rfl⟩ := h
  rw [Nat.add_assoc, ← List.length_append] at hderives
  exact ⟨before ++ before', part, after' ++ after, d, by simp, hderives, hreadable, rfl⟩

/-- All nodes that a derived text stands for have parts of it. -/
theorem Derives.hasPart {i : Nat} {text : List Char} {p : Phrase} (h : Derives i text p)
    (hreadable : p.Readable) : ∀ a ∈ p.nodes, HasPart i text a := by
  have hself : ∀ {i text d}, Derives i text (.operand d) → d.Readable → HasPart i text d.toExpr :=
    fun {i text d} hderives hd => ⟨[], text, [], d, by simp, hderives, hd, rfl⟩
  induction h with
  | @atom i text a hspells =>
    intro b hb
    obtain rfl : b = Draft.toExpr (.atom a ⟨i, i + text.length⟩) := by
      cases a <;> simpa [Phrase.nodes, Draft.toExpr] using hb
    exact hself (.atom hspells) hreadable
  | @apply i gap name args close ds hgap hname hargs hclose ih =>
    intro b hb
    rcases mem_nodes.mp hb with rfl | ⟨c, hc, hmem⟩
    · exact hself (.apply hgap hname hargs hclose) hreadable
    · have hpart := ih (readable_apply.mp hreadable) b (mem_walk.mpr ⟨c, hc, hmem⟩)
      have hstart : i + 1 + gap.length + name.length = i + ('(' :: (gap ++ name)).length := by
        simp only [List.length_cons, List.length_append]
        omega
      simpa [applied] using hpart.widen ('(' :: (gap ++ name)) (close ++ [')']) hstart
  | none => simp [Phrase.nodes, toExprs, walk]
  | @more i args gap text ds d hargs hgap hne hd ihargs ihd =>
    obtain ⟨hds, hlast⟩ := List.forall_mem_append.mp hreadable
    have hlast : d.Readable := List.forall_mem_singleton.mp hlast
    intro b hb
    have hb : b ∈ walk (toExprs ds) ∨ b ∈ d.toExpr.nodes := by
      simpa [Phrase.nodes, toExprs_append, toExprs, walk_append, nodes] using hb
    rcases hb with hb | hb
    · exact (ihargs hds b hb).widen [] (gap ++ text) rfl
    · have hstart : i + args.length + gap.length = i + (args ++ gap).length := by
        rw [List.length_append, Nat.add_assoc]
      simpa using (ihd hlast b hb).widen (args ++ gap) [] hstart

theorem span_toExpr_of_derives {i : Nat} {text : List Char} {d : Draft}
    (h : Derives i text (.operand d)) : d.toExpr.span = ⟨i, i + text.length⟩ := by
  cases h with
  | @atom _ _ a _ => cases a <;> rfl
  | apply => rfl

/-- A node with a part of a text cuts that part out. -/
theorem HasPart.slice {text : List Char} {a : Expr} (h : HasPart 0 text a) :
    a.span.start < a.span.stop ∧ a.span.stop ≤ text.length ∧
      ∃ d, Derives a.span.start (slice text a.span) (.operand d) ∧ d.Readable ∧ d.toExpr = a := by
  obtain ⟨before, part, after, d, rfl, hderives, hreadable, rfl⟩ := h
  rw [Nat.zero_add] at hderives
  have hslice : Expr.slice (before ++ (part ++ after))
      ⟨before.length, before.length + part.length⟩ = part := by
    rw [Expr.slice, ← List.append_assoc, ← List.length_append, List.take_left, List.drop_left]
  obtain ⟨c, cs, rfl, _⟩ := hderives.head
  rw [span_toExpr_of_derives hderives, hslice]
  refine ⟨by simp, ?_, d, hderives, hreadable, rfl⟩
  simp only [List.length_append]
  omega

/-- Two phrases stand for the same, with the same numbers in them, wherever they are. -/
inductive Phrase.Alike : Phrase → Phrase → Prop
  | operand {d d' : Draft} : d'.toExpr.unplaced = d.toExpr.unplaced → d'.numerals = d.numerals →
    Phrase.Alike (.operand d) (.operand d')
  | operands {ds ds' : List Draft} :
    unplacedAll (toExprs ds') = unplacedAll (toExprs ds) → numeralsOf ds' = numeralsOf ds →
    Phrase.Alike (.operands ds) (.operands ds')

theorem numeralsOf_append (ds ds' : List Draft) :
    numeralsOf (ds ++ ds') = numeralsOf ds ++ numeralsOf ds' := by
  induction ds with
  | nil => rfl
  | cons d ds ih => simp [numeralsOf, ih]

/-- What a text derives does not depend on where it starts, places aside. -/
theorem Derives.exists_alike {i : Nat} {text : List Char} {p : Phrase} (h : Derives i text p) :
    ∀ j, ∃ p', Derives j text p' ∧ p.Alike p' := by
  induction h with
  | @atom i text a hspells =>
    intro j
    refine ⟨_, .atom hspells, .operand ?_ ?_⟩
    · cases a <;> rfl
    · cases a <;> rfl
  | @apply i gap name args close ds hgap hname hargs hclose ih =>
    intro j
    obtain ⟨_, hargs', ⟨⟩ | ⟨hunplaced, hnumerals⟩⟩ := ih (j + 1 + gap.length + name.length)
    refine ⟨_, .apply hgap hname hargs' hclose, .operand ?_ hnumerals⟩
    simp only [Draft.toExpr, unplaced, hunplaced]
  | none => exact fun j => ⟨_, .none, .operands rfl rfl⟩
  | @more i args gap text ds d hargs hgap hne hd ihargs ihd =>
    intro j
    obtain ⟨_, hargs', ⟨⟩ | ⟨hunplaced, hnumerals⟩⟩ := ihargs j
    obtain ⟨_, hd', ⟨hunplaced', hnumerals'⟩ | ⟨⟩⟩ := ihd (j + args.length + gap.length)
    refine ⟨_, .more hargs' hgap hne hd', .operands ?_ ?_⟩
    · rw [unplacedAll_eq_map, unplacedAll_eq_map] at hunplaced ⊢
      simp [toExprs_append, toExprs, hunplaced, hunplaced']
    · simp [numeralsOf_append, numeralsOf, hnumerals, hnumerals']

/-- The operands of a derived text lie in it behind a blank, one behind the other. -/
theorem Derives.spans_operands {i : Nat} {text : List Char} {ds : List Draft}
    (h : Derives i text (.operands ds)) :
    (∀ a ∈ toExprs ds, i < a.span.start ∧ a.span.stop ≤ i + text.length) ∧
      (toExprs ds).Pairwise fun a b => a.span.stop < b.span.start := by
  -- the induction is on all phrases; only those of operands matter
  generalize hp : Phrase.operands ds = p at h
  induction h generalizing ds with
  | atom | apply => exact Phrase.noConfusion hp
  | none =>
    obtain rfl := Phrase.operands.inj hp
    exact ⟨List.forall_mem_nil _, .nil⟩
  | @more i args gap text ds' d _ _ hne hd ih _ =>
    obtain rfl := Phrase.operands.inj hp
    obtain ⟨hinside, hordered⟩ := ih rfl
    have hgap : 0 < gap.length := List.length_pos_iff.mpr hne
    have hlast := span_toExpr_of_derives hd
    simp only [toExprs_append, toExprs, List.forall_mem_append, List.forall_mem_singleton,
      List.pairwise_append, List.length_append, hlast]
    refine ⟨⟨fun a ha => ⟨(hinside a ha).1, ?_⟩, by omega, by omega⟩, hordered,
      List.pairwise_singleton _ _, fun a ha => ?_⟩
    all_goals
      have hstop := (hinside a ha).2
      omega

/-- Operands lie strictly inside their application, one behind the other. -/
theorem Derives.inside {i : Nat} {text : List Char} {d : Draft} {operator : String}
    {operands : List Expr} {span : Span} (h : Derives i text (.operand d))
    (hd : d.toExpr = .apply operator operands span) :
    (∀ a ∈ operands, span.start < a.span.start ∧ a.span.stop < span.stop) ∧
      operands.Pairwise fun a b => a.span.stop < b.span.start := by
  cases h with
  | @atom _ _ a _ => cases a <;> cases hd
  | apply _ _ hargs _ =>
    cases hd
    obtain ⟨hinside, hordered⟩ := hargs.spans_operands
    refine ⟨fun a ha => ?_, hordered⟩
    obtain ⟨hstart, hstop⟩ := hinside a ha
    simp only [length_applied]
    omega

theorem depth_le_depths {es : List Expr} {e : Expr} (h : e ∈ es) : e.depth ≤ depths es := by
  induction es with
  | nil => cases h
  | cons e' es ih =>
    rw [depths]
    rcases List.mem_cons.mp h with rfl | h
    · exact Nat.le_max_left _ _
    · exact Nat.le_trans (ih h) (Nat.le_max_right _ _)

theorem depth_le_of_mem_nodes {e a : Expr} (h : a ∈ e.nodes) : a.depth ≤ e.depth := by
  induction e using inductOnOperands with
  | literal | reference =>
    simp only [nodes_literal, nodes_reference, List.mem_singleton] at h
    rw [h]
  | apply operator operands span ih =>
    rcases mem_nodes.mp h with rfl | ⟨c, hc, hmem⟩
    · exact Nat.le_refl _
    · have hless := Nat.le_trans (ih c hc hmem) (depth_le_depths hc)
      exact Nat.le_succ_of_le hless

section Failing

variable {ops : OperatorRegistry} {values : Valuation} {a e : Expr} {d : Diagnostic}

/-- An expression fails where it stands itself. Its operands have values, or they are not looked
at because the operator is not registered. -/
structure FailsItself (ops : OperatorRegistry) (values : Valuation) (a : Expr) (d : Diagnostic) :
    Prop where
  fails : evaluate ops values a = .error d
  span : d.span = some a.span
  operands : (∀ b ∈ a.children, ∃ v, evaluate ops values b = .ok v) ∨
    ∃ operator operands span, a = .apply operator operands span ∧ ops.get? operator = none

/-- Every failure is that of a node that fails itself. -/
theorem exists_failsItself (h : evaluate ops values e = .error d) :
    ∃ a ∈ e.nodes, FailsItself ops values a d := by
  induction e using inductOnOperands with
  | literal v span =>
    rw [evaluate_eq_eval] at h
    cases h
  | reference name span =>
    cases yields_iff.mpr (evaluate_eq_eval _ ▸ h) with
    | unknownReference _ _ => exact ⟨_, self_mem_nodes _, h, rfl, .inl (List.forall_mem_nil _)⟩
  | apply operator operands span ih =>
    cases yields_iff.mpr (evaluate_eq_eval _ ▸ h) with
    | unknownOperator _ _ hop => exact ⟨_, self_mem_nodes _, h, rfl, .inr ⟨_, _, _, rfl, hop⟩⟩
    | @operand _ _ before after b _ _ _ _ _ hb =>
      have hmem : b ∈ before ++ b :: after := by simp
      obtain ⟨a, ha, hitself⟩ := ih b hmem ((evaluate_eq_eval b).trans (yields_iff.mp hb))
      exact ⟨a, mem_nodes.mpr (.inr ⟨b, hmem, ha⟩), hitself⟩
    | fault _ _ hoperands _ =>
      refine ⟨_, self_mem_nodes _, h, rfl, .inl fun b hb => ?_⟩
      simp only [yields_iff, evaluate_eq_eval] at hoperands ⊢
      exact evalAll_ok (evalAll_eq_ok.mpr hoperands) b hb

/-- Evaluation does not know the text that it works on. -/
theorem source_of_evaluate_error (h : evaluate ops values e = .error d) : d.source = none := by
  obtain ⟨_, hcause⟩ := exists_failsBy h
  cases hcause <;> rfl

end Failing

variable {ops : OperatorRegistry} {text : String} {constant : Option String} {e : Expr}

theorem hasPart_of_parse (h : Expr.parse ops text constant = .ok e) :
    ∀ a ∈ e.nodes, HasPart 0 text.toList a := by
  obtain ⟨d, ⟨before, core, after, htext, _, _, hderives⟩, rfl, _, _, hreadable⟩ :=
    parse_eq_ok.mp h
  intro a ha
  rw [htext]
  exact (hderives.hasPart hreadable a ha).widen before after (Nat.zero_add _).symm

/-- The part of the text that a node cuts out reads as the node. -/
theorem exists_parse_slice (h : Expr.parse ops text constant = .ok e) {a : Expr}
    (ha : a ∈ e.nodes) : ∃ a', Expr.parse ops (String.ofList (slice text.toList a.span)) constant =
      .ok a' ∧ a'.sameAs a = true := by
  obtain ⟨_, _, d, hderives, hreadable, rfl⟩ := (hasPart_of_parse h a ha).slice
  obtain ⟨_, hderives', ⟨hunplaced, hnumerals⟩ | ⟨⟩⟩ := hderives.exists_alike 0
  next d' =>
    obtain ⟨hdepth, hadmitted, _⟩ := readable_of_parse h
    have hreadable' : d'.Readable := by rwa [Draft.Readable, hnumerals]
    refine ⟨d'.toExpr, ?_, sameAs_iff.mpr hunplaced⟩
    exact parse_of_derives constant hderives' hreadable' hunplaced
      (Nat.le_trans (depth_le_of_mem_nodes ha) hdepth) (hadmitted.node ha)

end Expr

theorem SemanticType.unplaced_of_check_error {t : SemanticType} {v : Value} {d : Diagnostic}
    (h : t.check v = .error d) : d.source = none ∧ d.span = none := by
  rw [check] at h
  split at h
  · cases h
  · cases h
    exact ⟨rfl, rfl⟩

/-- A constant fails at a node of its expression, or it has a value that is not of its type. -/
theorem Constant.exists_failsItself {ops : OperatorRegistry} {values : Valuation} {c : Constant}
    {type : Option SemanticType} {d : Diagnostic} (h : c.evaluate ops values type = .error d) :
    d.source = c.source? ∧
      ((∃ a ∈ c.expr.nodes, d.span = some a.span ∧
          ∃ failure, a.FailsItself ops values failure ∧ c.place failure = d) ∨
        ∃ v, c.expr.evaluate ops values = .ok v ∧ d.span = none) := by
  rw [evaluate] at h
  cases hvalue : c.expr.evaluate ops values with
  | error failure =>
    obtain rfl : c.place failure = d := by simpa [hvalue] using h
    obtain ⟨a, ha, hitself⟩ := Expr.exists_failsItself hvalue
    refine ⟨?_, .inl ⟨a, ha, ?_, failure, hitself, rfl⟩⟩
    · simp [place, Diagnostic.attach, Expr.source_of_evaluate_error hvalue]
    · simp [place, Diagnostic.attach, hitself.span]
  | ok v =>
    cases type with
    | none => simp [hvalue] at h
    | some t =>
      cases hcheck : t.check v with
      | ok _ => simp [hvalue, hcheck] at h
      | error failure =>
        obtain rfl : c.place failure = d := by simpa [hvalue, hcheck] using h
        obtain ⟨hsource, hspan⟩ := SemanticType.unplaced_of_check_error hcheck
        exact ⟨by simp [place, Diagnostic.attach, hsource], .inr ⟨v, rfl, by
          simp [place, Diagnostic.attach, hspan]⟩⟩

namespace Expr

variable {ops : OperatorRegistry} {text : String} {constant : Option String} {e : Expr}

/-- Every node of a text that was read cuts out a part of it that is not empty and that reads as the
same node. The operands of an application lie inside it, one behind the other. When a constant
with the text fails for its expression, the part of the text that is reported is the node that
fails: it fails itself, not for its operands. What fails the check of the type has no part of the
text. -/
theorem parse_nodes (h : Expr.parse ops text constant = .ok e) :
    (∀ a ∈ e.nodes, a.span.start < a.span.stop ∧ a.span.stop ≤ text.length ∧
      ∃ a', Expr.parse ops (String.ofList (slice text.toList a.span)) constant = .ok a' ∧
        a'.sameAs a = true) ∧
    (∀ operator operands span, .apply operator operands span ∈ e.nodes →
      (∀ a ∈ operands, span.start < a.span.start ∧ a.span.stop < span.stop) ∧
      operands.Pairwise fun a b => a.span.stop < b.span.start) ∧
    ∀ (c : Constant) (registry : OperatorRegistry) (values : Valuation)
      (type : Option SemanticType) (d : Diagnostic), c.expr = e → c.source = text →
      c.evaluate registry values type = .error d → d.source = some text ∧
        ((∃ a ∈ e.nodes, d.span = some a.span ∧
            ∃ failure, a.FailsItself registry values failure ∧ c.place failure = d) ∨
          ∃ v, evaluate registry values e = .ok v ∧ d.span = none) := by
  have hcuts := fun a ha => (hasPart_of_parse h a ha).slice
  refine ⟨fun a ha => ?_, fun operator operands span hmem => ?_, ?_⟩
  · obtain ⟨hstart, hstop, _⟩ := hcuts a ha
    exact ⟨hstart, hstop, exists_parse_slice h ha⟩
  · obtain ⟨_, _, d, hderives, _, hd⟩ := hcuts _ hmem
    exact hderives.inside hd
  · rintro c registry values type d rfl rfl hfails
    have hsource : c.source? = some c.source := by
      obtain ⟨hstart, hstop, _⟩ := hcuts c.expr (self_mem_nodes _)
      refine if_neg fun hnil => ?_
      rw [hnil] at hstop
      exact absurd (Nat.lt_of_lt_of_le hstart hstop) (Nat.not_lt_zero _)
    exact hsource ▸ Constant.exists_failsItself hfails

/-- A sum with a quotient of zero in it, as it is read from a text. -/
def zeroQuotient : Expr :=
  .apply "add" [.literal (.integer 1) ⟨6, 7⟩, .apply "div"
    [.reference "A" ⟨14, 15⟩, .literal (.integer 0) ⟨16, 17⟩] ⟨8, 19⟩] ⟨1, 20⟩

theorem parse_zeroQuotient :
    Expr.parse .builtin " (add 1 ( div A 0 ))" none = .ok zeroQuotient := by
  have hread : readDraft " (add 1 ( div A 0 ))".toList = .ok
      (.apply ['a', 'd', 'd'] ⟨2, 5⟩ [.atom (.number false 10 ['1']) ⟨6, 7⟩,
        .apply ['d', 'i', 'v'] ⟨10, 13⟩
          [.atom (.name ['A']) ⟨14, 15⟩, .atom (.number false 10 ['0']) ⟨16, 17⟩] ⟨8, 19⟩]
        ⟨1, 20⟩) := rfl
  have hreadable : ∀ digits, (10, digits) ∈ [(10, ['1']), (10, ['0'])] →
      (bareDigits digits).length ≤ Datum.digitLimit := by simp [bareDigits, Datum.digitLimit]
  have hdiv : Admitted .builtin (.apply "div"
      [.reference "A" ⟨14, 15⟩, .literal (.integer 0) ⟨16, 17⟩] ⟨8, 19⟩) :=
    .apply _ rfl (by decide) (by decide) (List.forall_mem_cons.mpr ⟨.reference _ _,
      List.forall_mem_singleton.mpr (.integer _ (by decide) (by decide))⟩)
  have hadd : Admitted .builtin zeroQuotient :=
    .apply _ rfl (by decide) (by decide) (List.forall_mem_cons.mpr
      ⟨.integer _ (by decide) (by decide), List.forall_mem_singleton.mpr hdiv⟩)
  exact parse_eq_ok.mpr ⟨_, readDraft_eq_ok.mp hread, rfl, by decide, hadd, hreadable⟩

theorem parse_nodes_zeroQuotient :
    Expr.parse .builtin " (add 1 ( div A 0 ))" none = .ok zeroQuotient ∧
    (∃ a, Expr.parse .builtin "( div A 0 )" none = .ok a ∧
      a.sameAs (.apply "div" [.reference "A" default, .literal (.integer 0) default] default)) ∧
    ∀ c : Constant, c.expr = zeroQuotient → c.source = " (add 1 ( div A 0 ))" →
      ∃ d, c.evaluate .builtin (fun _ => some (.integer 4)) none = .error d ∧
        d.source = some " (add 1 ( div A 0 ))" ∧ d.span = some ⟨8, 19⟩ := by
  obtain ⟨hparts, _, hfailures⟩ := parse_nodes parse_zeroQuotient
  have hmem : .apply "div" [.reference "A" ⟨14, 15⟩, .literal (.integer 0) ⟨16, 17⟩] ⟨8, 19⟩ ∈
      zeroQuotient.nodes := by
    simp [zeroQuotient, nodes, walk, children]
  obtain ⟨_, _, a, hparse, hsame⟩ := hparts _ hmem
  refine ⟨parse_zeroQuotient, ⟨a, hparse, ?_⟩, fun c hexpr hsource => ?_⟩
  · rw [sameAs_iff] at hsame ⊢
    exact hsame
  · have hfails : c.evaluate .builtin (fun _ => some (.integer 4)) none = .error
        (c.place { fault := .divisionByZero "div", span := some ⟨8, 19⟩ }) := by
      rw [Constant.evaluate, hexpr, evaluate_eq_eval]
      rfl
    exact ⟨_, hfails, (hfailures c _ _ _ _ hexpr hsource hfails).1, rfl⟩

end Expr

end SharedConstants
