import SharedConstants.Proofs.Constant.Residual

/-!
# The queue of names that can be taken

The agenda counts for each name the dependencies that are not done, and its queue holds the names
that wait for none, by place. Each name that is taken lowers the counts of those that depend on
it. Hence the first name in the queue is the first one without dependencies left, and what the
agenda yields is what draining the links yields.
-/
namespace SharedConstants.Links

variable {links : Links} {done : List String} {name : String}

namespace Queue

variable {entry : Nat × String} {queue : Queue}

theorem mem_push {other : Nat × String} :
    other ∈ push entry queue ↔ other = entry ∨ other ∈ queue := by
  induction queue with
  | nil => simp [push]
  | cons first rest ih =>
    rw [push]
    split
    · simp
    · simp only [List.mem_cons, ih]
      tauto

theorem push_sorted (h : queue.Pairwise (·.1 < ·.1)) (hnew : ∀ other ∈ queue, other.1 ≠ entry.1) :
    (push entry queue).Pairwise (·.1 < ·.1) := by
  induction queue with
  | nil => simp [push]
  | cons first rest ih =>
    obtain ⟨hfirst, hrest⟩ := List.pairwise_cons.mp h
    obtain ⟨hne, hnew⟩ := List.forall_mem_cons.mp hnew
    rw [push]
    split
    · next hle =>
      have hlt : entry.1 < first.1 := by omega
      refine List.pairwise_cons.mpr ⟨List.forall_mem_cons.mpr ⟨hlt, fun other hother => ?_⟩, h⟩
      exact hlt.trans (hfirst other hother)
    · next hlt =>
      refine List.pairwise_cons.mpr ⟨fun other hother => ?_, ih hrest hnew⟩
      rcases mem_push.mp hother with rfl | hmem
      · omega
      · exact hfirst other hmem

theorem foldr_push {entries : List (Nat × String)} (h : (entries.map Prod.fst).Nodup) :
    (entries.foldr push []).Pairwise (·.1 < ·.1) ∧
      ∀ entry, entry ∈ entries.foldr push [] ↔ entry ∈ entries := by
  induction entries with
  | nil => simp
  | cons first entries ih =>
    obtain ⟨hnew, hnodup⟩ := List.nodup_cons.mp h
    obtain ⟨hsorted, hmem⟩ := ih hnodup
    refine ⟨push_sorted hsorted fun entry hentry heq => hnew ?_, fun entry => ?_⟩
    · exact List.mem_map.mpr ⟨entry, (hmem entry).mp hentry, heq⟩
    · rw [List.foldr_cons, mem_push, hmem, List.mem_cons]

/-- Some of the names, each with its place. -/
theorem foldr_push_placed {names : List String} (hnodup : names.Nodup) (free : String → Bool) :
    (((names.filter free).map fun name => (names.idxOf name, name)).foldr push []).Pairwise
      (·.1 < ·.1) ∧
    ∀ place name, (place, name) ∈
        ((names.filter free).map fun name => (names.idxOf name, name)).foldr push [] ↔
      place = names.idxOf name ∧ name ∈ names ∧ free name := by
  have hplaces :
      (((names.filter free).map fun name => (names.idxOf name, name)).map Prod.fst).Nodup := by
    rw [List.map_map]
    refine (hnodup.filter _).map_on fun b hb c _ heq => ?_
    exact (List.idxOf_inj (List.mem_filter.mp hb).1).mp heq
  obtain ⟨hsorted, hmem⟩ := foldr_push hplaces
  refine ⟨hsorted, fun place name => ?_⟩
  rw [hmem]
  simp only [List.mem_map, List.mem_filter, Prod.mk.injEq]
  constructor
  · rintro ⟨_, hname, rfl, rfl⟩
    exact ⟨rfl, hname⟩
  · rintro ⟨rfl, hname⟩
    exact ⟨name, hname, rfl, rfl⟩

end Queue

/-- How many dependencies of a name are not done. -/
def waiting (links : Links) (done : List String) (name : String) : Nat :=
  ((links.dependencies name).filter (· ∉ done)).length

theorem waiting_eq_zero_iff :
    links.waiting done name = 0 ↔ ∀ a, links.DependsOn name a → a ∈ done := by
  rw [waiting, List.length_eq_zero_iff, List.filter_eq_nil_iff]
  simp [DependsOn]

theorem length_eq_count_add (names : List String) (name : String) :
    names.length = names.count name + (names.filter (· ≠ name)).length := by
  have h := List.length_eq_countP_add_countP (· == name) (l := names)
  simpa [List.count, List.countP_eq_length_filter] using h

theorem waiting_cons (hnew : name ∉ done) (other : String) :
    links.waiting done other =
      links.waiting (name :: done) other + (links.dependencies other).count name := by
  have hcount : ((links.dependencies other).filter (· ∉ done)).count name =
      (links.dependencies other).count name := List.count_filter (by simpa using hnew)
  have hfilter : (links.dependencies other).filter (· ∉ name :: done) =
      ((links.dependencies other).filter (· ∉ done)).filter (· ≠ name) := by
    simp [List.filter_filter]
  rw [waiting, waiting, hfilter, ← hcount, Nat.add_comm, ← length_eq_count_add]

theorem dependents_cons (entry : String × List String) (links : Links) (name : String) :
    dependents (entry :: links) name =
      List.replicate (entry.2.count name) entry.1 ++ links.dependents name := by
  obtain ⟨other, deps⟩ := entry
  rw [dependents, List.flatMap_cons, List.count, List.countP_eq_length_filter, ← List.map_const']
  rfl

theorem dependencies_cons (entry : String × List String) (links : Links) (name : String) :
    dependencies (entry :: links) name =
      if name = entry.1 then entry.2 else links.dependencies name := by
  rw [dependencies, List.lookup_cons]
  by_cases h : name = entry.1
  · simp [h]
  · rw [beq_eq_false_iff_ne.mpr h, if_neg h]
    rfl

theorem count_dependents (hnodup : links.names.Nodup) (name other : String) :
    (links.dependents name).count other = (links.dependencies other).count name := by
  induction links with
  | nil => rfl
  | cons entry links ih =>
    obtain ⟨hnew, hnodup⟩ := List.nodup_cons.mp hnodup
    rw [dependents_cons, List.count_append, List.count_replicate, ih hnodup, dependencies_cons]
    by_cases hother : other = entry.1
    · have hnone : dependencies links entry.1 = [] :=
        List.eq_nil_iff_forall_not_mem.mpr fun _ hmem => hnew (mem_names_of_dependsOn hmem)
      simp [hother, hnone]
    · simp [hother, Ne.symm hother]

theorem dependsOn_of_mem_dependents (hnodup : links.names.Nodup) {other : String}
    (h : other ∈ links.dependents name) : links.DependsOn other name := by
  rw [← List.count_pos_iff, count_dependents hnodup] at h
  exact List.count_pos_iff.mp h

namespace Agenda

variable {a : Agenda} {count : String → Int}

/-- The degrees are given by a count, and the queue holds the names left that have degree zero. -/
structure Consistent (links : Links) (done : List String) (count : String → Int) (a : Agenda) :
    Prop where
  degrees : a.degrees = links.names.map fun name => (name, count name)
  sorted : a.ready.Pairwise (·.1 < ·.1)
  mem_ready : ∀ place name, (place, name) ∈ a.ready ↔
    place = links.names.idxOf name ∧ name ∈ links.names ∧ name ∉ done ∧ count name = 0

theorem lookup_map_pair (names : List String) (count : String → Int) (h : name ∈ names) :
    (names.map fun name => (name, count name)).lookup name = some (count name) := by
  induction names with
  | nil => cases h
  | cons first names ih =>
    rw [List.map_cons, List.lookup_cons]
    split
    · next heq => rw [eq_of_beq heq]
    · next hne =>
      exact ih ((List.mem_cons.mp h).resolve_left (by simpa using hne))

theorem Consistent.release (h : a.Consistent links done count) (hname : name ∈ links.names)
    (hnew : name ∉ done) (hpos : 0 < count name) :
    (a.release links name).Consistent links done
      fun other => count other - if other = name then 1 else 0 := by
  have hdegrees : (a.degrees.map fun entry =>
      (entry.1, if entry.1 == name then entry.2 - 1 else entry.2)) =
      links.names.map fun other => (other, count other - if other = name then 1 else 0) := by
    rw [h.degrees, List.map_map]
    refine List.map_congr_left fun other _ => ?_
    by_cases hother : other = name <;> simp [hother]
  have hlookup := lookup_map_pair links.names
    (fun other => count other - if other = name then 1 else 0) hname
  rw [if_pos rfl] at hlookup
  have hother : ∀ place other, (place, other) ∈ a.ready → other ≠ name := by
    rintro place _ hmem rfl
    have hzero := ((h.mem_ready _ _).mp hmem).2.2.2
    omega
  simp only [Agenda.release, hdegrees, hlookup]
  split
  · next hlast =>
    have hlast : count name - 1 = 0 := Option.some.inj hlast
    refine ⟨rfl, Queue.push_sorted h.sorted fun entry hentry hplace => ?_, fun place other => ?_⟩
    · obtain ⟨hidx, hmem, _⟩ := (h.mem_ready entry.1 entry.2).mp hentry
      exact hother entry.1 entry.2 hentry (List.idxOf_inj hmem |>.mp (hidx.symm.trans hplace))
    · rw [Queue.mem_push, h.mem_ready, Prod.mk.injEq]
      by_cases hsame : other = name
      · subst hsame
        have hone : count other = 1 := by omega
        simp [hname, hnew, hone]
      · simp [hsame]
  · next hmore =>
    have hmore : ¬ count name - 1 = 0 := fun hzero => hmore (by rw [hzero])
    refine ⟨rfl, h.sorted, fun place other => ?_⟩
    rw [h.mem_ready]
    by_cases hsame : other = name
    · subst hsame
      simp [hmore]
      omega
    · simp [hsame]

/-- The name that is taken leaves the queue, as it is done. -/
theorem Consistent.tail (h : a.Consistent links done count) {place : Nat} {ready : Queue}
    (hready : a.ready = (place, name) :: ready) :
    Consistent links (name :: done) count { a with ready } := by
  obtain ⟨hdegrees, hsorted, hmem⟩ := h
  rw [hready] at hsorted hmem
  obtain ⟨hfirst, hsorted⟩ := List.pairwise_cons.mp hsorted
  obtain ⟨hplace, _⟩ := (hmem place name).mp List.mem_cons_self
  refine ⟨hdegrees, hsorted, fun p other => ?_⟩
  have hall := hmem p other
  by_cases hsame : other = name
  · subst hsame
    have hlater : (p, other) ∉ ready := by
      intro hready
      have hlt := hfirst _ hready
      obtain ⟨rfl, _⟩ := hall.mp (List.mem_cons_of_mem _ hready)
      omega
    simp [hlater]
  · simpa [hsame] using hall

/-- Every dependent that is released lowers its degree by one. -/
theorem Consistent.foldl_release {names : List String} (h : a.Consistent links done count)
    (hnames : ∀ name ∈ names, name ∈ links.names ∧ name ∉ done)
    (hcount : ∀ name, (names.count name : Int) ≤ count name) :
    (names.foldl (Agenda.release links) a).Consistent links done
      fun name => count name - names.count name := by
  induction names generalizing a count with
  | nil => simpa using h
  | cons first names ih =>
    obtain ⟨⟨hfirst, hnew⟩, hnames⟩ := List.forall_mem_cons.mp hnames
    have hcons : ∀ name, ((first :: names).count name : Int) =
        names.count name + if name = first then 1 else 0 := by
      intro name
      rw [List.count_cons]
      by_cases hname : name = first
      · simp [hname]
      · simp [hname, Ne.symm hname]
    have hpos : 0 < count first := by
      have hle := hcount first
      rw [hcons, if_pos rfl] at hle
      omega
    have hless : ∀ name, (names.count name : Int) ≤ count name - if name = first then 1 else 0 := by
      intro name
      have hle := hcount name
      rw [hcons] at hle
      omega
    have hall := ih (h.release hfirst hnew hpos) hnames hless
    have heq : (fun name => count name - ((first :: names).count name : Int)) =
        fun name => (count name - if name = first then 1 else 0) - (names.count name : Int) := by
      funext name
      rw [hcons]
      omega
    rw [heq]
    exact hall

/-- What holds of the agenda when some names are done. -/
structure Matches (links : Links) (done : List String) (a : Agenda) : Prop where
  consistent : a.Consistent links done fun name => links.waiting done name
  settled : ∀ name ∈ done, ∀ dep, links.DependsOn name dep → dep ∈ done

theorem Matches.mem_ready (hnodup : links.names.Nodup) (h : a.Matches links done) {place : Nat} :
    (place, name) ∈ a.ready ↔
      place = links.names.idxOf name ∧ (name, []) ∈ links.residual done := by
  rw [h.consistent.mem_ready, ready_iff hnodup, ← waiting_eq_zero_iff, Int.natCast_eq_zero]

theorem matches_start (hnodup : links.names.Nodup) : (start links).Matches links [] := by
  have hdegrees : (links.map fun entry => (entry.1, (entry.2.length : Int))) =
      links.names.map fun name => (name, (links.waiting [] name : Int)) := by
    rw [names, List.map_map]
    refine List.map_congr_left fun entry hentry => ?_
    simp [waiting, dependencies_of_mem hnodup hentry]
  have hfree : ((links.names.map fun name => (name, (links.waiting [] name : Int))).filter
      (·.2 == 0)).map (fun entry => (links.names.idxOf entry.1, entry.1)) =
      (links.names.filter fun name => (links.waiting [] name : Int) == 0).map
        fun name => (links.names.idxOf name, name) := by
    rw [List.filter_map, List.map_map]
    rfl
  obtain ⟨hsorted, hmem⟩ :=
    Queue.foldr_push_placed hnodup fun name => (links.waiting [] name : Int) == 0
  simp only [start, hdegrees, hfree]
  refine ⟨⟨rfl, hsorted, fun place name => ?_⟩, by simp⟩
  simpa using hmem place name

/-- One turn: a name that is taken is done, and those that depend on it are released. -/
theorem Matches.take (hnodup : links.names.Nodup) (h : a.Matches links done) {place : Nat}
    {ready : Queue} (hready : a.ready = (place, name) :: ready) :
    ((links.dependents name).foldl (Agenda.release links) { a with ready }).Matches links
      (name :: done) := by
  obtain ⟨_, _, hnew, hzero⟩ := (h.consistent.mem_ready place name).mp (by simp [hready])
  have hdeps := waiting_eq_zero_iff.mp (Int.ofNat_inj.mp hzero)
  have hcount : ∀ other, (links.waiting (name :: done) other : Int) =
      links.waiting done other - (links.dependents name).count other := by
    intro other
    rw [waiting_cons hnew, count_dependents hnodup]
    omega
  refine ⟨?_, ?_⟩
  · simp only [hcount]
    refine (h.consistent.tail hready).foldl_release (fun other hother => ?_) fun other => ?_
    · have hother := dependsOn_of_mem_dependents hnodup hother
      refine ⟨mem_names_of_dependsOn hother, fun hdone => hnew ?_⟩
      rcases List.mem_cons.mp hdone with rfl | hdone
      · exact hdeps _ hother
      · exact h.settled _ hdone _ hother
    · have hall := hcount other
      omega
  · intro other hother dep hdep
    refine List.mem_cons_of_mem _ ?_
    rcases List.mem_cons.mp hother with rfl | hdone
    · exact hdeps dep hdep
    · exact h.settled other hdone dep hdep

/-- The first name in the queue is the first one without dependencies left. -/
theorem Matches.find? (hnodup : links.names.Nodup) (h : a.Matches links done) {place : Nat}
    {ready : Queue} (hready : a.ready = (place, name) :: ready) :
    (links.residual done).find? (·.2.isEmpty) = some (name, []) := by
  have hmem : ∀ p other, (p, other) ∈ (place, name) :: ready ↔
      p = links.names.idxOf other ∧ (other, []) ∈ links.residual done :=
    fun p other => hready ▸ h.mem_ready hnodup
  have hsorted := h.consistent.sorted
  rw [hready] at hsorted
  obtain ⟨hplace, hfirst⟩ := (hmem place name).mp List.mem_cons_self
  cases hfind : (links.residual done).find? (·.2.isEmpty) with
  | none => exact absurd (List.find?_eq_none.mp hfind _ hfirst) (by simp)
  | some entry =>
    obtain ⟨other, deps⟩ := entry
    obtain rfl : deps = [] := by simpa using List.find?_some hfind
    rcases find?_ready_precedes hnodup hfirst hfind with hsame | hprecedes
    · rw [show other = name from hsame]
    · have hother := (hmem (links.names.idxOf other) other).mpr
        ⟨rfl, List.mem_of_find?_eq_some hfind⟩
      rw [Precedes, ← hplace] at hprecedes
      rcases List.mem_cons.mp hother with heq | hlater
      · rw [(Prod.mk.inj heq).2]
      · have hlt := (List.pairwise_cons.mp hsorted).1 _ hlater
        dsimp only at hlt hprecedes
        omega

/-- What the agenda yields is what draining the links yields. -/
theorem run_eq_drain (hnodup : links.names.Nodup) (h : a.Matches links done) (steps : Nat) :
    a.run links steps = drain steps (links.residual done) := by
  induction steps generalizing a done with
  | zero => rfl
  | succ steps ih =>
    rw [run, drain]
    cases hready : a.ready with
    | nil =>
      have hnone : (links.residual done).find? (·.2.isEmpty) = none := by
        refine List.find?_eq_none.mpr ?_
        rintro ⟨name, deps⟩ hmem hempty
        obtain rfl : deps = [] := by simpa using hempty
        have hin := (h.mem_ready hnodup).mpr ⟨rfl, hmem⟩
        rw [hready] at hin
        cases hin
      rw [hnone]
    | cons entry ready =>
      obtain ⟨place, name⟩ := entry
      simp only [h.find? hnodup hready, discharge_residual, ih (h.take hnodup hready)]

/-- The order that the agenda yields from the beginning. -/
theorem run_start (hnodup : links.names.Nodup) (steps : Nat) :
    (start links).run links steps = drain steps links := by
  rw [run_eq_drain hnodup (matches_start hnodup), residual_nil]

end Agenda

theorem drain_succ (hnodup : links.names.Nodup) {steps : Nat}
    (hsteps : (links.residual done).length ≤ steps) :
    drain (steps + 1) (links.residual done) = drain steps (links.residual done) := by
  induction steps generalizing done with
  | zero =>
    have hnil : links.residual done = [] := List.length_eq_zero_iff.mp (by omega)
    rw [hnil]
    rfl
  | succ steps ih =>
    rw [drain, drain]
    cases hfind : (links.residual done).find? (·.2.isEmpty) with
    | none => rfl
    | some entry =>
      obtain ⟨name, deps⟩ := entry
      obtain rfl : deps = [] := by simpa using List.find?_some hfind
      obtain ⟨hname, hnew, _⟩ := (ready_iff hnodup).mp (List.mem_of_find?_eq_some hfind)
      have hless := length_residual_cons_lt hname hnew
      simp only [discharge_residual]
      rw [ih (by omega)]

/-- The queue is empty after as many turns as there are names: more of them take nothing. -/
theorem Agenda.run_start_of_le (hnodup : links.names.Nodup) {steps : Nat}
    (hsteps : links.length ≤ steps) :
    (start links).run links steps = (start links).run links links.length := by
  rw [run_start hnodup, run_start hnodup]
  induction steps, hsteps using Nat.le_induction with
  | base => rfl
  | succ steps hle ih =>
    have hall : (links.residual []).length ≤ steps := by rwa [residual_nil]
    have hstep := drain_succ hnodup hall
    rwa [residual_nil, ih] at hstep

end SharedConstants.Links
