import Mathlib.Data.Set.Insert
import SharedConstants.FileSystem
import SharedConstants.Proofs.Success

/-!
# What changes of a file system leave as it was

Directories that are there stay, and files elsewhere keep their content. So a path that leads
somewhere keeps leading there, whatever is written in the meantime.
-/
namespace SharedConstants.FileSystem

variable {fs fs' : FileSystem} {l place : Location} {node : Node} {content : ByteArray}

section Nodes

@[simp] theorem node?_nil : fs.node? [] = some .directory := if_pos rfl

theorem ne_nil_of_node? (h : fs.node? l ≠ some .directory) : l ≠ [] := by
  rintro rfl
  exact h node?_nil

theorem lookup_entry (place l : Location) (node : Node) (nodes : List (Location × Node)) :
    ((l, node) :: nodes).lookup place = if place = l then some node else nodes.lookup place := by
  rw [List.lookup_cons]
  by_cases h : place = l
  · simp [h]
  · simp [beq_false_of_ne h, h]

theorem lookup_removed (nodes : List (Location × Node)) (l place : Location) :
    (nodes.filter (·.1 ≠ l)).lookup place = if place = l then none else nodes.lookup place := by
  induction nodes with
  | nil => simp
  | cons entry nodes ih =>
    obtain ⟨other, node⟩ := entry
    by_cases hother : other = l
    · rw [List.filter_cons_of_neg (by simpa using hother), ih, lookup_entry, hother]
      split <;> rfl
    · rw [List.filter_cons_of_pos (by simpa using hother), lookup_entry, ih, lookup_entry]
      by_cases hplace : place = other
      · simp [hplace, hother]
      · simp [hplace]

theorem node?_put (hl : l ≠ []) (place : Location) :
    (fs.put l node).node? place = if place = l then some node else fs.node? place := by
  rw [node?, put, List.lookup_append, lookup_removed, lookup_entry, node?]
  by_cases hplace : place = l
  · simp [hplace, hl]
  · simp [hplace]

theorem node?_erase (hl : l ≠ []) (place : Location) :
    (fs.erase l).node? place = if place = l then none else fs.node? place := by
  rw [node?, erase, lookup_removed, node?]
  by_cases hplace : place = l
  · simp [hplace, hl]
  · simp [hplace]

theorem content?_eq_some : fs.content? l = some content ↔ fs.node? l = some (.file content) := by
  rw [content?]
  split <;> simp_all

theorem read_eq_ok {path : FilePath} : fs.read path = .ok content ↔
    ∃ l, fs.locate path = .ok l ∧ fs.content? l = some content := by
  rw [read]
  cases fs.locate path with
  | error e => simp
  | ok l =>
    simp only [Except.ok.injEq, exists_eq_left', content?]
    cases fs.node? l with
    | none => simp
    | some node => cases node <;> simp

theorem walk_append (names rest : List String) :
    fs.walk l (names ++ rest) = fs.walk l names >>= fun above => fs.walk above rest := by
  fun_induction fs.walk l names with
  | case1 => rfl
  | case2 l name names hnode => simp [walk, hnode, bind, Except.bind]
  | case3 l name names content hnode => simp [walk, hnode, bind, Except.bind]
  | case4 l name names hnode hlong => simp [walk, hnode, hlong, bind, Except.bind]
  | case5 l names hnode hlong ih => simpa [walk, hnode, hlong] using ih
  | case6 l name names hnode hlong hup ih => simpa [walk, hnode, hlong, hup] using ih

/-- A path that ends in a name leads to a place of this name. -/
theorem walk_concat {names : List String} {name : String} (hname : name ≠ "..")
    (h : fs.walk l (names ++ [name]) = .ok place) :
    ∃ above, fs.walk l names = .ok above ∧ place = above ++ [name] := by
  rw [walk_append] at h
  obtain ⟨above, habove, hlast⟩ := bind_eq_ok.mp h
  refine ⟨above, habove, ?_⟩
  rw [walk] at hlast
  split at hlast
  · cases hlast
  · cases hlast
  · split at hlast
    · cases hlast
    · rw [walk] at hlast
      exact (Except.ok.inj hlast).symm

end Nodes

/-- The directories of a file system stand in the other too, and all files lie where they lay and
hold what they held, but for what lies at some places. -/
structure Frames (places : Set Location) (fs fs' : FileSystem) : Prop where
  cwd : fs'.cwd = fs.cwd
  directory : ∀ l, fs.node? l = some .directory → fs'.node? l = some .directory
  content : ∀ l, l ∉ places → fs'.content? l = fs.content? l

namespace Frames

variable {places places' : Set Location}

protected theorem refl (places : Set Location) (fs : FileSystem) : Frames places fs fs :=
  ⟨rfl, fun _ h => h, fun _ _ => rfl⟩

theorem trans {fs'' : FileSystem} (h : Frames places fs fs') (h' : Frames places' fs' fs'') :
    Frames (places ∪ places') fs fs'' where
  cwd := h'.cwd.trans h.cwd
  directory l hl := h'.directory l (h.directory l hl)
  content l hl := by
    rw [Set.mem_union, not_or] at hl
    exact (h'.content l hl.2).trans (h.content l hl.1)

theorem mono (h : Frames places fs fs')
    (hsub : ∀ l ∈ places, l ∈ places' ∨ fs'.content? l = fs.content? l) :
    Frames places' fs fs' where
  cwd := h.cwd
  directory := h.directory
  content l hl := by
    by_cases hmem : l ∈ places
    · exact (hsub l hmem).resolve_left hl
    · exact h.content l hmem

theorem walk (h : Frames places fs fs') {names : List String}
    (hwalk : fs.walk l names = .ok place) : fs'.walk l names = .ok place := by
  fun_induction fs.walk l names with
  | case1 => exact hwalk
  | case2 => cases hwalk
  | case3 => cases hwalk
  | case4 => cases hwalk
  | case5 l names hnode hlong ih =>
    rw [FileSystem.walk, h.directory l hnode]
    simpa [hlong] using ih hwalk
  | case6 l name names hnode hlong hup ih =>
    rw [FileSystem.walk, h.directory l hnode]
    simpa [hlong, hup] using ih hwalk

theorem locate (h : Frames places fs fs') {path : FilePath} (hlocate : fs.locate path = .ok place) :
    fs'.locate path = .ok place := by
  rw [FileSystem.locate] at hlocate ⊢
  rw [h.cwd]
  exact h.walk hlocate

theorem of_node? (hcwd : fs'.cwd = fs.cwd) (h : fs.node? l ≠ some .directory)
    (hothers : ∀ place, place ≠ l → fs'.node? place = fs.node? place) : Frames {l} fs fs' := by
  refine ⟨hcwd, fun place hplace => ?_, fun place hplace => ?_⟩
  · have hne : place ≠ l := by
      rintro rfl
      exact h hplace
    rw [hothers place hne, hplace]
  · rw [content?, content?, hothers place hplace]

theorem put (h : fs.node? l ≠ some .directory) (node : Node) : Frames {l} fs (fs.put l node) :=
  .of_node? rfl h fun place hplace => by rw [node?_put (ne_nil_of_node? h), if_neg hplace]

theorem erase (h : fs.node? l ≠ some .directory) : Frames {l} fs (fs.erase l) :=
  .of_node? rfl h fun place hplace => by rw [node?_erase (ne_nil_of_node? h), if_neg hplace]

theorem put_directory (h : fs.node? l = none) : Frames ∅ fs (fs.put l .directory) := by
  have hfree : fs.node? l ≠ some .directory := by simp [h]
  refine (Frames.put hfree _).mono fun place hplace => .inr ?_
  obtain rfl := Set.mem_singleton_iff.mp hplace
  rw [content?, content?, node?_put (ne_nil_of_node? hfree), if_pos rfl, h]

end Frames

section Actions

variable {outages : Outages} {action : FileAction}

theorem perform_eq_ok : fs.perform outages action = (.ok (), fs') ↔
    outages fs action = none ∧ fs.act action = .ok fs' := by
  rw [perform]
  cases outages fs action with
  | some outage => simp
  | none => cases fs.act action <;> simp

/-- An action that fails changes nothing, unless it was to write. -/
theorem perform_eq_error {e : FileError} (hwrite : ∀ l content, action ≠ .write l content)
    (h : fs.perform outages action = (.error e, fs')) : fs' = fs := by
  rw [perform] at h
  cases hstruck : outages fs action with
  | some outage =>
    rw [hstruck] at h
    cases action with
    | write l content => exact absurd rfl (hwrite l content)
    | _ => exact (congrArg Prod.snd h).symm
  | none =>
    rw [hstruck] at h
    cases hact : fs.act action with
    | ok _ => simp [hact] at h
    | error _ =>
      rw [hact] at h
      exact (congrArg Prod.snd h).symm

/-- A write that fails leaves a file with a part of what was to be written. -/
theorem write_eq_error {e : FileError}
    (h : fs.perform outages (.write l content) = (.error e, fs')) :
    ∃ part, fs' = fs.put l (.file part) := by
  rw [perform] at h
  cases hstruck : outages fs (.write l content) with
  | some outage =>
    rw [hstruck] at h
    exact ⟨_, (congrArg Prod.snd h).symm⟩
  | none => simp [hstruck, act] at h

theorem create_eq_ok (h : fs.act (.create l) = .ok fs') : fs' = fs.put l (.file .empty) := by
  rw [act] at h
  split at h
  · cases h
  · exact (Except.ok.inj h).symm

theorem move_eq_ok {source : Location} {target : FilePath} (h : fs.move source target = .ok fs') :
    ∃ l node, fs.locate target = .ok l ∧ fs.node? l ≠ some .directory ∧
      fs.node? source = some node ∧ fs' = (fs.erase source).put l node := by
  rw [move] at h
  split at h
  · cases h
  next l hlocate =>
    split at h
    · cases h
    · split at h
      · cases h
      · cases h
      next node hsource hl =>
        exact ⟨l, node, hlocate, hl, hsource, (Except.ok.inj h).symm⟩

/-- A file that was moved lies where the path leads to, and its old place is empty. -/
theorem move_file {source : Location} {target : FilePath}
    (hsource : fs.node? source = some (.file content)) (h : fs.move source target = .ok fs') :
    ∃ place, fs'.locate target = .ok place ∧ fs'.content? place = some content ∧
      (source ≠ place → fs'.node? source = none) ∧ Frames ({source} ∪ {place}) fs fs' := by
  obtain ⟨place, node, hlocate, hplace, hnode, rfl⟩ := move_eq_ok h
  obtain rfl : Node.file content = node := Option.some.inj (hsource.symm.trans hnode)
  have hfile : fs.node? source ≠ some .directory := by simp [hsource]
  have herased : ∀ l, (fs.erase source).node? l = if l = source then none else fs.node? l :=
    node?_erase (ne_nil_of_node? hfile)
  have hfree : (fs.erase source).node? place ≠ some .directory := by
    rw [herased]
    split
    · simp
    · exact hplace
  have hput : ∀ l, ((fs.erase source).put place (.file content)).node? l =
      if l = place then some (.file content) else (fs.erase source).node? l :=
    node?_put (ne_nil_of_node? hfree)
  have hframes := (Frames.erase hfile).trans (Frames.put hfree (.file content))
  refine ⟨place, hframes.locate hlocate, ?_, fun hne => ?_, hframes⟩
  · rw [content?_eq_some, hput, if_pos rfl]
  · rw [hput, if_neg hne, herased, if_pos rfl]

theorem frames_makeDirectory (path : FilePath) :
    Frames ∅ fs (fs.perform outages (.makeDirectory path)).2 := by
  rw [perform]
  split
  · exact .refl _ _
  · rw [act]
    cases fs.locate path with
    | error e => exact .refl _ _
    | ok l =>
      cases hnode : fs.node? l with
      | some node => simpa [hnode] using .refl _ _
      | none => simpa [hnode] using Frames.put_directory hnode

/-- Whether a directory that could not be made is there already changes no files. -/
theorem snd_settled (path : FilePath) (tried : Except FileError Unit × FileSystem) :
    ((match tried with
      | (.ok (), fs) => (.ok (), fs)
      | (.error e, fs) =>
        if fs.isDirectory path then (.ok (), fs)
        else (.error (.failed e path.toText none), fs)) : Except FileFailure Unit × FileSystem).2 =
      tried.2 := by
  split
  · rfl
  · split <;> rfl

/-- Directories are made at empty places only, whether or not they are made in the end. -/
theorem frames_makeDirectories (root : String) (names : List String) :
    Frames ∅ fs (makeDirectories outages root names fs).2 := by
  have hmake : ∀ fs path, Frames ∅ fs (fs.perform outages (.makeDirectory path)).2 := fun _ _ =>
    frames_makeDirectory _
  fun_induction makeDirectories outages root names fs with
  | case1 fs fs₁ name above fs₂ habove path settle hfirst ih =>
    have hsettle : ∀ tried, (settle tried).2 = tried.2 := snd_settled path
    have hfirst : Frames ∅ fs fs₁ := by simpa [hfirst] using hmake fs path
    have habove : Frames ∅ fs₁ fs₂ := by simpa [habove] using ih
    rw [hsettle]
    simpa using (hfirst.trans habove).trans (hmake fs₂ path)
  | case2 fs fs₁ name above failure fs₂ habove path hfirst ih =>
    have hfirst : Frames ∅ fs fs₁ := by simpa [hfirst] using hmake fs path
    have habove : Frames ∅ fs₁ fs₂ := by simpa [habove] using ih
    simpa using hfirst.trans habove
  | case3 names fs path settle _ =>
    have hsettle : ∀ tried, (settle tried).2 = tried.2 := snd_settled path
    rw [hsettle]
    exact hmake fs path

end Actions

end SharedConstants.FileSystem
