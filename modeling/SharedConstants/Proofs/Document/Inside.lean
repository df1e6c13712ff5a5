import Mathlib.Algebra.Group.Nat.Defs
import SharedConstants.Document.Datum

/-!
# Inside a document

A document holds itself, the items of its arrays and the entries of its tables, at any depth. A
value can be shown if all integers inside it can and there is room for the calls that its depth
takes.
-/
namespace SharedConstants.Datum

/-- A value stands in a document, at any depth. -/
inductive Inside (d : Datum) : Datum → Prop
  | self : Inside d d
  | item {e : Datum} {items : List Datum} : e ∈ items → Inside d e → Inside d (.array items)
  | entry {key : String} {e : Datum} {entries : List (String × Datum)} :
    (key, e) ∈ entries → Inside d e → Inside d (.table entries)

/-- No null stands in a document. -/
def NullFree (document : Datum) : Prop := ¬ Inside .null document

/-- Every integer in a document has at most as many digits as can be shown. -/
def Short (document : Datum) : Prop :=
  ∀ n, Inside (.integer n) document → n.natAbs < 10 ^ digitLimit

/-- Induction on documents, with the hypothesis for every item and every entry. -/
@[elab_as_elim] theorem inductOnParts {motive : Datum → Prop}
    (leaf : ∀ d, (∀ items, d ≠ .array items) → (∀ entries, d ≠ .table entries) → motive d)
    (array : ∀ items, (∀ d ∈ items, motive d) → motive (.array items))
    (table : ∀ entries, (∀ e ∈ entries, motive e.2) → motive (.table entries)) : ∀ d, motive d
  | .array items => array items fun d _ => inductOnParts leaf array table d
  | .table entries => table entries fun (_, d) hd =>
    have := List.sizeOf_lt_of_mem hd
    inductOnParts leaf array table d
  | .null => leaf _ nofun nofun
  | .boolean _ => leaf _ nofun nofun
  | .integer _ => leaf _ nofun nofun
  | .float _ => leaf _ nofun nofun
  | .text _ => leaf _ nofun nofun
  | .date _ => leaf _ nofun nofun
  | .time _ => leaf _ nofun nofun
  | .moment .. => leaf _ nofun nofun
decreasing_by
  all_goals simp_wf
  · have := List.sizeOf_lt_of_mem ‹_ ∈ items›
    omega
  · simp only [Prod.mk.sizeOf_spec] at this
    omega

theorem isShowable_iff {n : Int} : isShowable n = true ↔ n.natAbs < 10 ^ digitLimit := by
  rw [isShowable, decide_eq_true_iff, Nat.pow_eq]

mutual

/-- How many calls nest below the one that shows a value. -/
def depth : Datum → Nat
  | .array items => depthOfItems items
  | .table entries => depthOfEntries entries
  | .moment _ _ offset => offsetDepth offset
  | _ => 0

def depthOfItems : List Datum → Nat
  | [] => 0
  | d :: ds => max (depth d + 1) (depthOfItems ds)

def depthOfEntries : List (String × Datum) → Nat
  | [] => 0
  | (_, d) :: rest => max (depth d + 1) (depthOfEntries rest)

end

variable {room below : Nat} {items : List Datum} {entries : List (String × Datum)}

/-- The values of a table nest as the items of an array do. -/
theorem depthOfEntries_eq : depthOfEntries entries = depthOfItems (entries.map Prod.snd) := by
  induction entries with
  | nil => rfl
  | cons e es ih => rw [depthOfEntries, ih, List.map_cons, depthOfItems]

theorem obstacleOfEntries?_eq :
    obstacleOfEntries? room entries = obstacleOfItems? room (entries.map Prod.snd) := by
  induction entries with
  | nil => rfl
  | cons e es ih =>
    cases room with
    | zero => rfl
    | succ below => rw [obstacleOfEntries?, ih, List.map_cons, obstacleOfItems?]

theorem depthOfItems_le_iff : depthOfItems items ≤ room ↔ ∀ d ∈ items, d.depth < room := by
  induction items with
  | nil => simp [depthOfItems]
  | cons d ds ih =>
    rw [depthOfItems, Nat.max_le, ih, List.forall_mem_cons, Nat.succ_le_iff]

theorem obstacleOfItems?_succ :
    obstacleOfItems? (below + 1) items = items.findSome? (obstacle? below) := by
  induction items with
  | nil => rfl
  | cons d ds ih =>
    rw [obstacleOfItems?, ih, List.findSome?_cons]
    cases obstacle? below d <;> rfl

/-- There is room for a value, and its integers are not too long. -/
structure Showable (room : Nat) (d : Datum) : Prop where
  short : d.Short
  shallow : d.depth ≤ room

theorem short_leaf {d : Datum} (hinteger : ∀ n, d ≠ .integer n)
    (harray : ∀ items, d ≠ .array items) (htable : ∀ entries, d ≠ .table entries) : d.Short := by
  intro n hn
  cases hn with
  | self => exact absurd rfl (hinteger n)
  | item => exact absurd rfl (harray _)
  | entry => exact absurd rfl (htable _)

theorem short_text (t : String) : Short (.text t) := short_leaf nofun nofun nofun

theorem short_boolean (b : Bool) : Short (.boolean b) := short_leaf nofun nofun nofun

theorem showable_text (t : String) : Showable room (.text t) := ⟨short_text t, Nat.zero_le _⟩

theorem short_integer_iff {n : Int} : Short (.integer n) ↔ n.natAbs < 10 ^ digitLimit := by
  constructor
  · exact fun h => h n .self
  · rintro h _ ⟨⟩
    exact h

theorem showable_integer_iff {n : Int} :
    Showable room (.integer n) ↔ n.natAbs < 10 ^ digitLimit :=
  ⟨fun h => short_integer_iff.mp h.short, fun h => ⟨short_integer_iff.mpr h, Nat.zero_le _⟩⟩

theorem short_array_iff : Short (.array items) ↔ ∀ d ∈ items, d.Short := by
  constructor
  · exact fun h d hd n hn => h n (.item hd hn)
  · rintro h n (_ | ⟨hd, hn⟩)
    exact h _ hd n hn

theorem short_table_iff : Short (.table entries) ↔ ∀ e ∈ entries, e.2.Short := by
  constructor
  · exact fun h e he n hn => h n (.entry he hn)
  · rintro h n (_ | _ | ⟨he, hn⟩)
    exact h _ he n hn

theorem showable_array_iff :
    Showable room (.array items) ↔ ∀ d ∈ items, d.Short ∧ d.depth < room := by
  constructor
  · exact fun h d hd => ⟨short_array_iff.mp h.short d hd, depthOfItems_le_iff.mp h.shallow d hd⟩
  · exact fun h => ⟨short_array_iff.mpr fun d hd => (h d hd).1,
      depthOfItems_le_iff.mpr fun d hd => (h d hd).2⟩

theorem showable_table_iff :
    Showable room (.table entries) ↔ Showable room (.array (entries.map Prod.snd)) := by
  have hshort : Short (.table entries) ↔ Short (.array (entries.map Prod.snd)) := by
    rw [short_table_iff, short_array_iff, List.forall_mem_map]
  have hdepth : depth (.table entries) = depth (.array (entries.map Prod.snd)) :=
    depthOfEntries_eq
  exact ⟨fun h => ⟨hshort.mp h.short, hdepth ▸ h.shallow⟩,
    fun h => ⟨hshort.mpr h.short, hdepth ▸ h.shallow⟩⟩

theorem obstacle?_array_eq_none_iff
    (h : ∀ d ∈ items, ∀ room, d.obstacle? room = none ↔ d.Showable room) :
    obstacle? room (.array items) = none ↔ Showable room (.array items) := by
  rw [showable_array_iff, obstacle?]
  cases room with
  | zero =>
    cases items with
    | nil => simp [obstacleOfItems?]
    | cons d ds =>
      exact iff_of_false nofun fun hitems => Nat.not_lt_zero _ (hitems d List.mem_cons_self).2
  | succ below =>
    rw [obstacleOfItems?_succ, List.findSome?_eq_none_iff]
    refine forall₂_congr fun d hd => (h d hd below).trans ?_
    exact ⟨fun h => ⟨h.short, Nat.lt_succ_of_le h.shallow⟩,
      fun h => ⟨h.1, Nat.le_of_lt_succ h.2⟩⟩

/-- Nothing keeps a value from being shown exactly if it is showable. -/
theorem obstacle?_eq_none_iff {d : Datum} : d.obstacle? room = none ↔ d.Showable room := by
  induction d using inductOnParts generalizing room with
  | leaf d harray htable =>
    cases d with
    | array items => exact absurd rfl (harray _)
    | table entries => exact absurd rfl (htable _)
    | integer n =>
      rw [showable_integer_iff, ← isShowable_iff, obstacle?]
      cases isShowable n <;> simp
    | moment date time offset =>
      have hshallow : Showable room (.moment date time offset) ↔ offsetDepth offset ≤ room :=
        ⟨fun h => h.shallow, fun h => ⟨short_leaf nofun nofun nofun, h⟩⟩
      rw [hshallow, obstacle?, ← Nat.not_lt]
      simp
    | _ => exact iff_of_true rfl ⟨short_leaf nofun nofun nofun, Nat.zero_le _⟩
  | array items ih => exact obstacle?_array_eq_none_iff fun d hd _ => ih d hd
  | table entries ih =>
    rw [showable_table_iff, obstacle?, obstacleOfEntries?_eq]
    exact obstacle?_array_eq_none_iff (List.forall_mem_map.mpr fun e he _ => ih e he)

theorem obstacle?_array_ne_tooLong (h : ∀ d ∈ items, ∀ room, d.obstacle? room ≠ some .tooLong) :
    obstacle? room (.array items) ≠ some .tooLong := by
  rw [obstacle?]
  cases room with
  | zero => cases items <;> simp [obstacleOfItems?]
  | succ below =>
    rw [obstacleOfItems?_succ]
    intro hlong
    obtain ⟨d, hd, hobstacle⟩ := List.exists_of_findSome?_eq_some hlong
    exact h d hd below hobstacle

theorem Short.obstacle?_ne_tooLong {d : Datum} (h : d.Short) :
    d.obstacle? room ≠ some .tooLong := by
  induction d using inductOnParts generalizing room with
  | leaf d harray htable =>
    cases d with
    | array items => exact absurd rfl (harray _)
    | table entries => exact absurd rfl (htable _)
    | integer n => simp [obstacle?, isShowable_iff.mpr (short_integer_iff.mp h)]
    | moment date time offset => simp [obstacle?]
    | _ => nofun
  | array items ih =>
    exact obstacle?_array_ne_tooLong fun d hd _ => ih d hd (short_array_iff.mp h d hd)
  | table entries ih =>
    rw [obstacle?, obstacleOfEntries?_eq]
    exact obstacle?_array_ne_tooLong
      (List.forall_mem_map.mpr fun e he _ => ih e he (short_table_iff.mp h e he))

/-- A value of short integers can be shown unless it is too deep. -/
theorem Short.obstacle?_eq {d : Datum} (h : d.Short) :
    d.obstacle? room = if d.depth ≤ room then none else some .tooDeep := by
  split
  · next hle => exact obstacle?_eq_none_iff.mpr ⟨h, hle⟩
  · next hlt =>
    cases hobstacle : d.obstacle? room with
    | none => exact absurd (obstacle?_eq_none_iff.mp hobstacle).shallow hlt
    | some obstacle =>
      cases obstacle with
      | tooLong => exact absurd hobstacle h.obstacle?_ne_tooLong
      | tooDeep => rfl

/-- There is room for the entries of a table for which there is room. -/
theorem Showable.entry {e : String × Datum} (h : Showable room (.table entries))
    (he : e ∈ entries) : e.2.Showable room := by
  obtain ⟨hshort, hdepth⟩ :=
    showable_array_iff.mp (showable_table_iff.mp h) e.2 (List.mem_map_of_mem he)
  exact ⟨hshort, Nat.le_of_lt hdepth⟩

theorem NullFree.ne_null {d : Datum} (h : d.NullFree) : d ≠ .null := by
  rintro rfl
  exact h .self

theorem nullFree_text (t : String) : NullFree (.text t) := nofun

theorem nullFree_integer (n : Int) : NullFree (.integer n) := nofun

theorem nullFree_boolean (b : Bool) : NullFree (.boolean b) := nofun

theorem NullFree.item {d : Datum} {items : List Datum} (h : NullFree (.array items))
    (hd : d ∈ items) : d.NullFree := fun hnull => h (.item hd hnull)

theorem NullFree.entry {e : String × Datum} {entries : List (String × Datum)}
    (h : NullFree (.table entries)) (he : e ∈ entries) : e.2.NullFree :=
  fun hnull => h (.entry he hnull)

theorem nullFree_table_iff {entries : List (String × Datum)} :
    NullFree (.table entries) ↔ ∀ e ∈ entries, e.2.NullFree := by
  constructor
  · exact fun h e he => h.entry he
  · rintro h (_ | _ | ⟨he, hnull⟩)
    exact h _ he hnull

theorem nullFree_array_iff {items : List Datum} :
    NullFree (.array items) ↔ ∀ d ∈ items, d.NullFree := by
  constructor
  · exact fun h d hd => h.item hd
  · rintro h (_ | ⟨hd, hnull⟩)
    exact h _ hd hnull

end SharedConstants.Datum
