import Mathlib.Data.List.Induction
import Mathlib.Data.List.Nodup

/-!
# First occurrences

The first element of a list with some property, and the elements of a list in the order in which
they occur first.
-/
namespace SharedConstants

/-- The first element of a list with some property. -/
def First {α : Type} (p : α → Prop) (xs : List α) (x : α) : Prop :=
  ∃ before after, xs = before ++ x :: after ∧ p x ∧ ∀ y ∈ before, ¬ p y

section First

variable {α : Type} {p : α → Prop} {xs : List α} {x y : α}

theorem First.mem (h : First p xs x) : x ∈ xs := by
  obtain ⟨before, after, rfl, _⟩ := h
  exact List.mem_append_right _ List.mem_cons_self

theorem First.holds (h : First p xs x) : p x := h.choose_spec.choose_spec.2.1

theorem first_cons : First p (y :: xs) x ↔ (p y ∧ x = y) ∨ (¬ p y ∧ First p xs x) := by
  constructor
  · rintro ⟨_ | ⟨z, before⟩, after, heq, hx, hbefore⟩
    · obtain ⟨rfl, rfl⟩ := List.cons.inj heq
      exact .inl ⟨hx, rfl⟩
    · obtain ⟨rfl, rfl⟩ := List.cons.inj heq
      obtain ⟨hy, hbefore⟩ := List.forall_mem_cons.mp hbefore
      exact .inr ⟨hy, before, after, rfl, hx, hbefore⟩
  · rintro (⟨hy, rfl⟩ | ⟨hy, before, after, rfl, hx, hbefore⟩)
    · exact ⟨[], xs, rfl, hy, List.forall_mem_nil _⟩
    · exact ⟨y :: before, after, rfl, hx, List.forall_mem_cons.mpr ⟨hy, hbefore⟩⟩

theorem find?_eq_some_iff_first {test : α → Bool} :
    xs.find? test = some x ↔ First (test · = true) xs x := by
  rw [List.find?_eq_some_iff_append, First]
  simp only [Bool.not_eq_true, Bool.not_eq_eq_eq_not, Bool.not_true]
  exact ⟨fun ⟨hx, before, after, heq, hbefore⟩ => ⟨before, after, heq, hx, hbefore⟩,
    fun ⟨before, after, heq, hx, hbefore⟩ => ⟨hx, before, after, heq, hbefore⟩⟩

theorem exists_first (hx : x ∈ xs) (hp : p x) : ∃ y, First p xs y := by
  induction xs with
  | nil => cases hx
  | cons z xs ih =>
    by_cases hz : p z
    · exact ⟨z, first_cons.mpr (.inl ⟨hz, rfl⟩)⟩
    · have hrest : x ∈ xs := (List.mem_cons.mp hx).resolve_left fun heq => hz (heq ▸ hp)
      obtain ⟨y, hy⟩ := ih hrest
      exact ⟨y, first_cons.mpr (.inr ⟨hz, hy⟩)⟩

theorem first_append {ys : List α} :
    First p (xs ++ ys) x ↔ First p xs x ∨ (∀ y ∈ xs, ¬ p y) ∧ First p ys x := by
  induction xs with
  | nil => simp [First]
  | cons y xs ih =>
    rw [List.cons_append, first_cons, ih, first_cons, List.forall_mem_cons]
    grind

end First

/-- The elements of a list, each once, in the order of their first occurrences. -/
structure FirstOccurrences {α : Type} [BEq α] (all distinct : List α) : Prop where
  nodup : distinct.Nodup
  mem_iff : ∀ x, x ∈ distinct ↔ x ∈ all
  inOrder : distinct.Pairwise fun x y => all.idxOf x < all.idxOf y

section FirstOccurrences

variable {α : Type} [BEq α] [LawfulBEq α] {all distinct : List α}

/-- One more element behind a list is new, or it changes nothing. -/
theorem FirstOccurrences.snoc (h : FirstOccurrences all distinct) (x : α) :
    FirstOccurrences (all ++ [x]) (distinct ++ [x].removeAll all) := by
  have hbefore : ∀ y ∈ distinct, (all ++ [x]).idxOf y = all.idxOf y := fun y hy =>
    List.idxOf_append_of_mem ((h.mem_iff y).mp hy)
  have hkept : distinct.Pairwise fun y z => (all ++ [x]).idxOf y < (all ++ [x]).idxOf z :=
    h.inOrder.imp_of_mem fun hy hz hlt => by rwa [hbefore _ hy, hbefore _ hz]
  by_cases hx : x ∈ all
  · have hnone : [x].removeAll all = [] := by simp [List.removeAll, hx]
    rw [hnone, List.append_nil]
    refine ⟨h.nodup, fun y => ?_, hkept⟩
    rw [h.mem_iff, List.mem_append, List.mem_singleton]
    exact ⟨.inl, fun hy => hy.elim id fun heq => heq ▸ hx⟩
  · have hnew : [x].removeAll all = [x] := by simp [List.removeAll, hx]
    have hfresh : x ∉ distinct := fun hmem => hx ((h.mem_iff x).mp hmem)
    rw [hnew]
    refine ⟨List.nodup_append.mpr ⟨h.nodup, List.nodup_singleton x, ?_⟩, fun y => ?_, ?_⟩
    · rintro y hy z hz rfl
      exact hfresh (List.mem_singleton.mp hz ▸ hy)
    · simp [h.mem_iff]
    · refine List.pairwise_append.mpr ⟨hkept, List.pairwise_singleton _ _, fun y hy z hz => ?_⟩
      obtain rfl := List.mem_singleton.mp hz
      have hlast : (all ++ [z]).idxOf z = all.length := by
        simp [List.idxOf_append_of_notMem hx]
      rw [hbefore y hy, hlast]
      exact List.idxOf_lt_length_of_mem ((h.mem_iff y).mp hy)

theorem eraseDups_snoc_of_mem {x : α} (hx : x ∈ all) : (all ++ [x]).eraseDups = all.eraseDups := by
  simp [List.eraseDups_append, List.removeAll, hx]

theorem eraseDups_snoc_of_notMem {x : α} (hx : x ∉ all) :
    (all ++ [x]).eraseDups = all.eraseDups ++ [x] := by
  simp [List.eraseDups_append, List.removeAll, hx, List.eraseDups_cons]

theorem firstOccurrences_eraseDups (all : List α) : FirstOccurrences all all.eraseDups := by
  induction all using List.reverseRecOn with
  | nil => exact ⟨List.nodup_nil, fun _ => Iff.rfl, List.Pairwise.nil⟩
  | append_singleton all x ih =>
    by_cases hx : x ∈ all
    · rw [eraseDups_snoc_of_mem hx]
      simpa [List.removeAll, hx] using ih.snoc x
    · rw [eraseDups_snoc_of_notMem hx]
      simpa [List.removeAll, hx] using ih.snoc x

/-- A first element with a property is the first of the distinct ones. -/
theorem first_eraseDups {p : α → Prop} {x : α} : First p all.eraseDups x ↔ First p all x := by
  induction all using List.reverseRecOn with
  | nil => rfl
  | append_singleton all y ih =>
    have hnone : (∀ z ∈ all.eraseDups, ¬ p z) ↔ ∀ z ∈ all, ¬ p z := by
      simp only [(firstOccurrences_eraseDups all).mem_iff]
    by_cases hy : y ∈ all
    · rw [eraseDups_snoc_of_mem hy, ih, first_append]
      refine (or_iff_left ?_).symm
      rintro ⟨hall, hlast⟩
      exact hall y hy (List.mem_singleton.mp hlast.mem ▸ hlast.holds)
    · rw [eraseDups_snoc_of_notMem hy, first_append, first_append, ih, hnone]

end FirstOccurrences

end SharedConstants
