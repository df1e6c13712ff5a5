import SharedConstants.Proofs.Constant.Dependency

/-!
# The search for a cycle

Each step of the search keeps the path one of dependencies, and it marks only grounded names as
done, because the edges of a name that is left lead to names that are done. What the search
reports is a cycle. It ends, because each step follows an edge or leaves a name. Hence it finds a
cycle exactly if there is one, and the first root that leads to any cycle leads to the one found.
-/
namespace SharedConstants.Links

variable {links : Links} {root name child : String}

/-- A root leads to a cycle. -/
def LeadsTo (links : Links) (root : String) (cycle : List String) : Prop :=
  IsCycle links.DependsOn cycle ∧ ∀ a ∈ cycle, Relation.ReflTransGen links.DependsOn root a

namespace Walk

variable {w : Walk} {rest : List String} {outer : List (String × List String)}

theorem cycleAt_eq {inner outer : List String} (h : w.names = inner ++ name :: outer)
    (hnew : name ∉ outer) : w.cycleAt name = name :: inner.reverse := by
  have hreverse : w.names.reverse = outer.reverse ++ name :: inner.reverse := by simp [h]
  have hidx : (outer.reverse ++ name :: inner.reverse).idxOf name = outer.reverse.length := by
    rw [List.idxOf_append_of_notMem (by simpa using hnew), List.idxOf_cons_self, Nat.add_zero]
  rw [cycleAt, hreverse, hidx, List.drop_left]

/-- The part of a path that a step back closes is a cycle. -/
theorem isCycle_cycleAt (h : links.IsPath root w.names) (hname : w.names.head? = some name)
    (hchild : links.DependsOn name child) (hmem : child ∈ w.names) :
    IsCycle links.DependsOn (w.cycleAt child) ∧ w.cycleAt child ⊆ w.names := by
  obtain ⟨inner, outer, hsplit⟩ := List.append_of_mem hmem
  have hnodup := h.nodup
  have hchain := h.chain
  rw [hsplit] at hnodup hchain
  have hnew : child ∉ outer := (List.nodup_cons.mp hnodup.of_append_right).1
  have hcycle : w.cycleAt child = (inner ++ [child]).reverse := by
    rw [cycleAt_eq hsplit hnew]
    simp
  have hpart : (inner ++ [child]) <+: inner ++ child :: outer := ⟨outer, by simp⟩
  have hhead : (inner ++ [child]).head? = some name := by
    rw [← hname, hsplit]
    cases inner <;> rfl
  have hinner := List.IsChain.prefix hchain hpart
  rw [hcycle]
  refine ⟨⟨by simp, ?_, ?_, ?_⟩, ?_⟩
  · exact List.nodup_reverse.mpr (hnodup.sublist hpart.sublist)
  · exact List.isChain_reverse.mpr hinner
  · intro first hfirst last hlast
    obtain rfl : child = first := by simpa using hfirst
    rw [List.getLast?_reverse, hhead] at hlast
    obtain rfl : name = last := by simpa using hlast
    exact hchild
  · rw [hsplit]
    exact fun a ha => hpart.subset (List.mem_reverse.mp ha)

/-- Each edge of a name on the path is still to be followed, or it leads to the next name on the
path, or to a name that is done. -/
def Followed (links : Links) (marks : List (String × Mark)) :
    Option String → List (String × List String) → Prop
  | _, [] => True
  | next, (name, rest) :: outer =>
    (∀ child ∈ rest, links.DependsOn name child) ∧
    (∀ child, links.DependsOn name child →
      child ∈ rest ∨ next = some child ∨ marks.lookup child = some .done) ∧
    Followed links marks (some name) outer

theorem lookup_cons_of_done {marks : List (String × Mark)} (name : String) {a : String}
    (h : marks.lookup a = some .done) : ((name, Mark.done) :: marks).lookup a = some .done := by
  rw [List.lookup_cons]
  split
  · rfl
  · exact h

theorem lookup_cons_of_new {marks : List (String × Mark)} {a : String} {mark : Mark}
    (hnew : marks.lookup name = none) (h : marks.lookup a = some .done) :
    ((name, mark) :: marks).lookup a = some .done := by
  have hne : a ≠ name := by
    rintro rfl
    rw [hnew] at h
    cases h
  rw [List.lookup_cons, beq_eq_false_iff_ne.mpr hne]
  exact h

namespace Followed

variable {marks more : List (String × Mark)} {next : Option String}
  {path : List (String × List String)}

theorem mono (h : Followed links marks next path)
    (hmore : ∀ a, marks.lookup a = some .done → more.lookup a = some .done) :
    Followed links more next path := by
  induction path generalizing next with
  | nil => trivial
  | cons entry outer ih =>
    obtain ⟨hrest, hedges, houter⟩ := h
    exact ⟨hrest, fun child hchild => (hedges child hchild).imp_right (.imp_right (hmore child)),
      ih houter⟩

/-- The next name on the path is done. -/
theorem close (h : Followed links marks (some name) path) :
    Followed links ((name, .done) :: marks) none path := by
  cases path with
  | nil => trivial
  | cons entry outer =>
    obtain ⟨hrest, hedges, houter⟩ := h.mono fun _ => lookup_cons_of_done name
    refine ⟨hrest, fun child hchild => ?_, houter⟩
    rcases hedges child hchild with hmem | heq | hdone
    · exact .inl hmem
    · obtain rfl : name = child := Option.some.inj heq
      exact .inr (.inr (by simp))
    · exact .inr (.inr hdone)

/-- An edge has been followed. -/
theorem follow (h : Followed links marks none ((name, child :: rest) :: outer))
    (hchild : next = some child ∨ marks.lookup child = some .done) :
    Followed links marks next ((name, rest) :: outer) := by
  obtain ⟨hrest, hedges, houter⟩ := h
  refine ⟨fun a ha => hrest a (List.mem_cons_of_mem _ ha), fun a ha => ?_, houter⟩
  rcases hedges a ha with hmem | hnone | hdone
  · rcases List.mem_cons.mp hmem with rfl | hmem
    · exact .inr hchild
    · exact .inl hmem
  · cases hnone
  · exact .inr (.inr hdone)

end Followed

/-- What holds of a search at any time: the path is one from the root, the marks say which names
are on it, and everything that is done leads to no cycle. -/
structure Valid (links : Links) (root : String) (w : Walk) : Prop where
  isPath : links.IsPath root w.names
  onPath : ∀ name, w.mark? name = some .onPath ↔ name ∈ w.names
  grounded : ∀ name, w.mark? name = some .done → Grounded links.DependsOn name
  followed : Followed links w.marks none w.path

theorem mark?_cons (w : Walk) (name : String) (mark : Mark) (path : List (String × List String))
    (a : String) : mark? ⟨(name, mark) :: w.marks, path⟩ a =
      if a = name then some mark else w.mark? a := by
  rw [mark?, mark?, List.lookup_cons]
  by_cases h : a = name
  · simp [h]
  · rw [beq_eq_false_iff_ne.mpr h, if_neg h]

theorem valid_start (links : Links) (root : String) : Valid links root ⟨[], []⟩ where
  isPath := isPath_nil
  onPath := by simp [mark?, names]
  grounded := by simp [mark?]
  followed := trivial

/-- Without a path any root will do. -/
theorem Valid.of_rest (h : w.Valid links root) (hpath : w.path = []) (other : String) :
    w.Valid links other where
  isPath := by
    rw [names, hpath]
    exact isPath_nil
  onPath := h.onPath
  grounded := h.grounded
  followed := h.followed

/-- A new name may be put on a path if it makes a longer one. -/
theorem valid_enter (hisPath : links.IsPath root (name :: w.names))
    (honPath : ∀ a, w.mark? a = some .onPath ↔ a ∈ w.names)
    (hgrounded : ∀ a, w.mark? a = some .done → Grounded links.DependsOn a)
    (hfollowed : Followed links w.marks (some name) w.path) (hnew : w.mark? name = none) :
    Valid links root (w.enter links name) := by
  refine ⟨hisPath, fun a => ?_, fun a => ?_, fun _ h => h, fun _ h => .inl h, ?_⟩
  · rw [enter, mark?_cons]
    by_cases ha : a = name
    · simp [ha, names]
    · rw [if_neg ha]
      simpa [names, ha] using honPath a
  · rw [enter, mark?_cons]
    split
    · exact nofun
    · exact hgrounded a
  · exact hfollowed.mono fun _ => lookup_cons_of_new hnew

/-- A name that has no edges left leads to no cycle. -/
theorem Valid.leave (h : w.Valid links root) (hpath : w.path = (name, []) :: outer) :
    Valid links root ⟨(name, .done) :: w.marks, outer⟩ := by
  obtain ⟨hisPath, honPath, hgrounded, hfollowed⟩ := h
  rw [names, hpath] at hisPath
  rw [hpath] at hfollowed
  obtain ⟨_, hedges, houter⟩ := hfollowed
  have hnew : name ∉ outer.map Prod.fst := (List.nodup_cons.mp hisPath.nodup).1
  have hname : Grounded links.DependsOn name := by
    refine ⟨_, fun child hchild => hgrounded child ?_⟩
    simpa [mark?] using hedges child hchild
  refine ⟨hisPath.tail, fun a => ?_, fun a => ?_, houter.close⟩
  · rw [mark?_cons]
    by_cases ha : a = name
    · simpa [ha, names] using hnew
    · rw [if_neg ha]
      simpa [names, hpath, ha] using honPath a
  · rw [mark?_cons]
    split
    · next ha => exact fun _ => ha ▸ hname
    · exact hgrounded a

/-- What the search from a root may come to. -/
def Finds (links : Links) (root : String) : Except (List String) Walk → Prop
  | .ok w => w.Valid links root
  | .error cycle => links.LeadsTo root cycle

theorem advance_finds (hclosed : links.Closed) (h : w.Valid links root) :
    Finds links root (w.advance links) := by
  unfold advance
  split
  · exact h
  · next hpath => exact h.leave hpath
  · next name child rest outer hpath =>
    have hfollowed := h.followed
    rw [hpath] at hfollowed
    have hchild : links.DependsOn name child := hfollowed.1 child List.mem_cons_self
    have hnames : names { w with path := (name, rest) :: outer } = w.names := by
      simp [names, hpath]
    have hisPath := hnames ▸ h.isPath
    have honPath := hnames.symm ▸ h.onPath
    dsimp only
    split
    · next hmark =>
      obtain ⟨hcycle, hsub⟩ := isCycle_cycleAt hisPath rfl hchild ((honPath child).mp hmark)
      exact ⟨hcycle, fun a ha => hisPath.reached a (hsub ha)⟩
    · next hmark => exact ⟨hisPath, honPath, h.grounded, hfollowed.follow (.inr hmark)⟩
    · next hmark =>
      have hnew : child ∉ names { w with path := (name, rest) :: outer } := fun hmem => by
        have hmarked := (honPath child).mpr hmem
        rw [show w.mark? child = none from hmark] at hmarked
        cases hmarked
      exact valid_enter (hisPath.cons hchild hclosed hnew) honPath h.grounded
        (hfollowed.follow (.inl rfl)) hmark

theorem run_finds (hclosed : links.Closed) (steps : Nat) (h : w.Valid links root) :
    Finds links root (w.run links steps) := by
  induction steps generalizing w with
  | zero => exact h
  | succ steps ih =>
    have hstep := advance_finds hclosed h
    rw [run]
    split
    · next hadvance => exact ih (by rwa [hadvance] at hstep)
    · next hadvance => rwa [hadvance] at hstep

/-- A name that has been met stays so. -/
theorem advance_marked {w' : Walk} (h : w.advance links = .ok w') {a : String}
    (ha : (w.mark? a).isSome) : (w'.mark? a).isSome := by
  unfold advance at h
  split at h
  · exact Except.ok.inj h ▸ ha
  · rw [← Except.ok.inj h, mark?_cons]
    split
    · rfl
    · exact ha
  · dsimp only at h
    split at h
    · cases h
    · exact Except.ok.inj h ▸ ha
    · rw [← Except.ok.inj h, enter, mark?_cons]
      split
      · rfl
      · exact ha

theorem run_marked {w' : Walk} {steps : Nat} (h : w.run links steps = .ok w') {a : String}
    (ha : (w.mark? a).isSome) : (w'.mark? a).isSome := by
  induction steps generalizing w with
  | zero => exact Except.ok.inj h ▸ ha
  | succ steps ih =>
    rw [run] at h
    split at h
    · next hadvance => exact ih h (advance_marked hadvance ha)
    · cases h

theorem size_cons (entry : String × List String) (links : Links) :
    size (entry :: links) = entry.2.length + 1 + links.size := rfl

theorem size_filter_le (links : Links) (p : String × List String → Bool) :
    size (links.filter p) ≤ links.size := by
  induction links with
  | nil => exact Nat.le_refl _
  | cons entry links ih =>
    rw [List.filter_cons, size_cons]
    split
    · rw [size_cons]
      omega
    · omega

theorem size_filter_ne {deps : List String} (hmem : (name, deps) ∈ links) :
    size (links.filter (·.1 ≠ name)) + deps.length + 1 ≤ links.size := by
  induction links with
  | nil => cases hmem
  | cons entry links ih =>
    rw [size_cons]
    rcases List.mem_cons.mp hmem with rfl | hmem
    · rw [List.filter_cons_of_neg (by simp)]
      have hle := size_filter_le links (·.1 ≠ name)
      dsimp only at hle ⊢
      omega
    · have hrest := ih hmem
      rw [List.filter_cons]
      split
      · rw [size_cons]
        omega
      · omega

/-- The edges still to be followed and the names still to be left. -/
def remaining (links : Links) (w : Walk) : Nat :=
  size (links.filter fun entry => (w.mark? entry.1).isNone) + size w.path

theorem remaining_le_size (links : Links) (hpath : w.path = []) :
    w.remaining links ≤ links.size := by
  rw [remaining, hpath]
  exact size_filter_le links _

theorem unmarked_cons (links : Links) (w : Walk) (name : String) (mark : Mark)
    (path : List (String × List String)) :
    (links.filter fun entry => (mark? ⟨(name, mark) :: w.marks, path⟩ entry.1).isNone) =
      (links.filter fun entry => (w.mark? entry.1).isNone).filter (·.1 ≠ name) := by
  rw [List.filter_filter]
  refine List.filter_congr fun entry _ => ?_
  rw [mark?_cons]
  by_cases h : entry.1 = name <;> simp [h]

theorem remaining_enter (hname : name ∈ links.names) (hnew : w.mark? name = none) :
    (w.enter links name).remaining links ≤ w.remaining links := by
  have hmem : (name, links.dependencies name) ∈
      links.filter fun entry => (w.mark? entry.1).isNone :=
    List.mem_filter.mpr ⟨mem_of_mem_names hname, by simp [hnew]⟩
  have hless := size_filter_ne hmem
  simp only [remaining, enter, unmarked_cons, size_cons]
  omega

/-- Each step follows an edge or leaves a name. -/
theorem remaining_advance {w' : Walk} (hclosed : links.Closed) (h : w.Valid links root)
    (hpath : w.path ≠ []) (hadvance : w.advance links = .ok w') :
    w'.remaining links < w.remaining links := by
  unfold advance at hadvance
  split at hadvance
  · next hnil => exact absurd hnil hpath
  · next name outer hleave =>
    rw [← Except.ok.inj hadvance]
    have hle := size_filter_le (links.filter fun entry => (w.mark? entry.1).isNone) (·.1 ≠ name)
    simp only [remaining, unmarked_cons, hleave, size_cons]
    omega
  · next name child rest outer hfollow =>
    have hfollowed := h.followed
    rw [hfollow] at hfollowed
    have hchild : links.DependsOn name child := hfollowed.1 child List.mem_cons_self
    have hless : remaining links { w with path := (name, rest) :: outer } <
        w.remaining links := by
      simp only [remaining, hfollow, size_cons, List.length_cons]
      exact Nat.add_lt_add_left (by omega) _
    dsimp only at hadvance
    split at hadvance
    · cases hadvance
    · exact Except.ok.inj hadvance ▸ hless
    · next hmark =>
      rw [← Except.ok.inj hadvance]
      exact Nat.lt_of_le_of_lt (remaining_enter (hclosed _ _ hchild) hmark) hless

theorem run_of_path_eq_nil (hpath : w.path = []) (steps : Nat) : w.run links steps = .ok w := by
  have hadvance : w.advance links = .ok w := by rw [advance, hpath]
  induction steps with
  | zero => rfl
  | succ steps ih => simp only [run, hadvance, ih]

/-- With as many steps as there are edges and names left the search from a root ends. -/
theorem run_path {w' : Walk} {steps : Nat} (hclosed : links.Closed) (h : w.Valid links root)
    (hsteps : w.remaining links ≤ steps) (hrun : w.run links steps = .ok w') : w'.path = [] := by
  induction steps generalizing w with
  | zero =>
    rw [← Except.ok.inj hrun]
    cases hpath : w.path with
    | nil => rfl
    | cons entry outer =>
      rw [remaining, hpath, size_cons] at hsteps
      omega
  | succ steps ih =>
    by_cases hpath : w.path = []
    · rw [run_of_path_eq_nil hpath] at hrun
      exact Except.ok.inj hrun ▸ hpath
    · rw [run] at hrun
      split at hrun
      · next hadvance =>
        have hless := remaining_advance hclosed h hpath hadvance
        have hvalid := advance_finds hclosed h
        rw [hadvance] at hvalid
        exact ih hvalid (by omega) hrun
      · cases hrun

end Walk

/-- What the search from one root may end with: the root leads to no cycle, or it leads to the
one that is found. -/
def Ends (links : Links) (root : String) : Except (List String) Walk → Prop
  | .ok w => w.Valid links root ∧ w.path = [] ∧ Grounded links.DependsOn root
  | .error cycle => links.LeadsTo root cycle

/-- What has been met is done when the path is left. -/
theorem Walk.Valid.grounded_of_isSome {w : Walk} (h : w.Valid links root) (hpath : w.path = [])
    (hmarked : (w.mark? name).isSome) : Grounded links.DependsOn name := by
  obtain ⟨mark, hmark⟩ := Option.isSome_iff_exists.mp hmarked
  cases mark with
  | done => exact h.grounded name hmark
  | onPath =>
    have hmem := (h.onPath name).mp hmark
    simp [Walk.names, hpath] at hmem

theorem searchFrom_ends {w : Walk} (hclosed : links.Closed) (hroot : root ∈ links.names)
    (h : w.Valid links root) (hpath : w.path = []) :
    Ends links root (links.searchFrom w root) := by
  rw [searchFrom]
  split
  · next hmark => exact ⟨h, hpath, h.grounded_of_isSome hpath (by simp [hmark])⟩
  · next hmark =>
    have hnames : w.names = [] := by simp [Walk.names, hpath]
    have hvalid : (w.enter links root).Valid links root :=
      Walk.valid_enter (hnames ▸ isPath_singleton hroot) h.onPath h.grounded
        (hpath ▸ trivial) hmark
    have hfinds := Walk.run_finds hclosed links.size hvalid
    cases hrun : (w.enter links root).run links links.size with
    | error cycle => rwa [hrun] at hfinds
    | ok w' =>
      rw [hrun] at hfinds
      have hsize := (Walk.remaining_enter hroot hmark).trans (Walk.remaining_le_size links hpath)
      have hrest := Walk.run_path hclosed hvalid hsize hrun
      have hmarked := Walk.run_marked hrun (a := root) (by simp [Walk.enter, Walk.mark?])
      exact ⟨hfinds, hrest, hfinds.grounded_of_isSome hrest hmarked⟩

/-- What the search from several roots may end with: every root is grounded, or the first root that
is not leads to the cycle found. -/
def EndsAll (links : Links) (roots : List String) : Except (List String) Walk → Prop
  | .ok _ => links.AllGrounded roots
  | .error cycle => ∃ before root after, roots = before ++ root :: after ∧
      links.AllGrounded before ∧ links.LeadsTo root cycle

/-- A grounded root in front changes nothing. -/
theorem EndsAll.cons {roots : List String} {result : Except (List String) Walk}
    (h : links.EndsAll roots result) (hgrounded : Grounded links.DependsOn root) :
    links.EndsAll (root :: roots) result := by
  cases result with
  | ok _ => exact List.forall_mem_cons.mpr ⟨hgrounded, h⟩
  | error cycle =>
    obtain ⟨before, bad, after, rfl, hbefore, hleads⟩ := h
    exact ⟨root :: before, bad, after, rfl, List.forall_mem_cons.mpr ⟨hgrounded, hbefore⟩, hleads⟩

theorem foldlM_searchFrom {w : Walk} (hclosed : links.Closed) {roots : List String}
    (hroots : roots ⊆ links.names) (h : w.Valid links root) (hpath : w.path = []) :
    links.EndsAll roots (roots.foldlM links.searchFrom w) := by
  induction roots generalizing w root with
  | nil => exact fun _ hmem => absurd hmem List.not_mem_nil
  | cons first roots ih =>
    obtain ⟨hfirst, hroots⟩ := List.cons_subset.mp hroots
    have hends := searchFrom_ends hclosed hfirst (h.of_rest hpath first) hpath
    rw [List.foldlM_cons]
    cases hfound : links.searchFrom w first with
    | error cycle =>
      rw [hfound] at hends
      exact ⟨[], first, roots, rfl, by simp [AllGrounded], hends⟩
    | ok next =>
      rw [hfound] at hends
      obtain ⟨hvalid, hrest, hgrounded⟩ := hends
      exact (ih hroots hvalid hrest).cons hgrounded

theorem search_endsAll (hclosed : links.Closed) :
    links.EndsAll links.names (links.search links.names) :=
  foldlM_searchFrom hclosed (List.Subset.refl _) (Walk.valid_start links "") rfl

/-- The names before the root that the cycle was found from lead to no cycle. -/
theorem findCycle?_eq_some (hclosed : links.Closed) {cycle : List String}
    (h : links.findCycle? = some cycle) :
    ∃ before root after, links.names = before ++ root :: after ∧ links.AllGrounded before ∧
      links.LeadsTo root cycle := by
  have hends := search_endsAll hclosed
  rw [findCycle?] at h
  cases hsearch : links.search links.names with
  | ok done => simp [hsearch] at h
  | error found =>
    obtain rfl : found = cycle := by simpa [hsearch] using h
    rwa [hsearch] at hends

/-- What the search reports is a cycle. -/
theorem isCycle_of_findCycle? (hclosed : links.Closed) {cycle : List String}
    (h : links.findCycle? = some cycle) : IsCycle links.DependsOn cycle := by
  obtain ⟨_, _, _, _, _, hleads⟩ := findCycle?_eq_some hclosed h
  exact hleads.1

theorem grounded_of_findCycle?_eq_none (hclosed : links.Closed) (h : links.findCycle? = none) :
    ∀ name, Grounded links.DependsOn name := by
  have hends := search_endsAll hclosed
  rw [findCycle?] at h
  cases hsearch : links.search links.names with
  | ok done =>
    rw [hsearch] at hends
    exact grounded_of_names hends
  | error found => simp [hsearch] at h

theorem findCycle?_eq_none_iff (hclosed : links.Closed) :
    links.findCycle? = none ↔ Acyclic links.DependsOn := by
  constructor
  · exact fun h => acyclic_of_grounded (grounded_of_findCycle?_eq_none hclosed h)
  · intro h
    cases hcycle : links.findCycle? with
    | none => rfl
    | some cycle => exact absurd h (isCycle_of_findCycle? hclosed hcycle).not_acyclic

end SharedConstants.Links
