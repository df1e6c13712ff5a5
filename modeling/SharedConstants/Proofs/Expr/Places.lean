import SharedConstants.Proofs.Expr.Grammar
import SharedConstants.Proofs.Expr.Occurrences

/-!
# Expressions without their places

Where the nodes of an expression were read matters neither for its value text nor for its depth,
nor for whether it is admitted. Two expressions mean the same if they are equal without places.
-/
namespace SharedConstants.Expr

mutual

/-- An expression with the places of its nodes forgotten. -/
def unplaced : Expr → Expr
  | .literal v _ => .literal v default
  | .reference name _ => .reference name default
  | .apply operator operands _ => .apply operator (unplacedAll operands) default

/-- Expressions with the places of their nodes forgotten. -/
def unplacedAll : List Expr → List Expr
  | [] => []
  | e :: es => unplaced e :: unplacedAll es

end

theorem unplacedAll_eq_map (es : List Expr) : unplacedAll es = es.map unplaced := by
  induction es with
  | nil => rfl
  | cons e es ih => rw [unplacedAll, List.map_cons, ih]

theorem sameAs_iff {e e' : Expr} : e.sameAs e' = true ↔ e.unplaced = e'.unplaced := by
  induction e using inductOnOperands generalizing e' with
  | literal v span => cases e' <;> simp [sameAs, unplaced]
  | reference name span => cases e' <;> simp [sameAs, unplaced]
  | apply operator operands span ih =>
    have hall : ∀ others, sameAll operands others = true ↔
        unplacedAll operands = unplacedAll others := by
      clear span operator
      induction operands with
      | nil => intro others; cases others <;> simp [sameAll, unplacedAll]
      | cons e es ihes =>
        obtain ⟨he, hes⟩ := List.forall_mem_cons.mp ih
        intro others
        cases others with
        | nil => simp [sameAll, unplacedAll]
        | cons other others => simp [sameAll, unplacedAll, he, ihes hes]
    cases e' <;> simp [sameAs, unplaced, hall]

@[simp] theorem spell_unplaced (e : Expr) : e.unplaced.spell = e.spell := by
  induction e using inductOnOperands with
  | literal v span => rfl
  | reference name span => rfl
  | apply operator operands span ih =>
    have hall : spellAll (unplacedAll operands) = spellAll operands := by
      induction operands with
      | nil => rfl
      | cons e es ihes =>
        obtain ⟨he, hes⟩ := List.forall_mem_cons.mp ih
        rw [unplacedAll, spellAll, spellAll, he, ihes hes]
    rw [unplaced, spell, spell, hall]

@[simp] theorem depth_unplaced (e : Expr) : e.unplaced.depth = e.depth := by
  induction e using inductOnOperands with
  | literal v span => rfl
  | reference name span => rfl
  | apply operator operands span ih =>
    have hall : depths (unplacedAll operands) = depths operands := by
      induction operands with
      | nil => rfl
      | cons e es ihes =>
        obtain ⟨he, hes⟩ := List.forall_mem_cons.mp ih
        rw [unplacedAll, depths, depths, he, ihes hes]
    rw [unplaced, depth, depth, hall]

theorem admitted_unplaced {ops : OperatorRegistry} {e : Expr} :
    Admitted ops e.unplaced ↔ Admitted ops e := by
  induction e using inductOnOperands with
  | literal v span =>
    constructor
    · rintro (⟨b, _⟩ | ⟨_, hleast, hmost⟩)
      · exact .boolean b span
      · exact .integer span hleast hmost
    · rintro (⟨b, _⟩ | ⟨_, hleast, hmost⟩)
      · exact .boolean b default
      · exact .integer default hleast hmost
  | reference name span => exact ⟨fun _ => .reference name span, fun _ => .reference name default⟩
  | apply operator operands span ih =>
    rw [unplaced, unplacedAll_eq_map]
    constructor
    · intro h
      cases h with
      | apply _ hop hleast hmost hoperands =>
        rw [List.length_map] at hleast hmost
        exact .apply span hop hleast hmost fun e he =>
          (ih e he).mp (hoperands _ (List.mem_map_of_mem he))
    · intro h
      cases h with
      | apply _ hop hleast hmost hoperands =>
        rw [← List.length_map (f := unplaced)] at hleast hmost
        refine .apply default hop hleast hmost fun e he => ?_
        obtain ⟨a, ha, rfl⟩ := List.mem_map.mp he
        exact (ih a ha).mpr (hoperands a ha)

end SharedConstants.Expr
