import Mathlib.Data.List.Nodup
import Mathlib.Data.List.Perm.Subperm
import SharedConstants.Generation
import SharedConstants.Proofs.FileSystem.Frame

/-!
# What is written

An artifact's file is written next to its place under a name that nothing has, and then takes the
place. So writing artifacts changes files only at the places that their paths lead to, and what
lies there in the end is the text of the last artifact whose path leads there.
-/
namespace SharedConstants.Generation

open FileSystem (Frames Outages)

variable {outages : Outages} {fs fs' : FileSystem} {directory : Location} {fileName : String}

section TemporaryNames

theorem ofDigitChars_padded (zeros n : Nat) :
    Nat.ofDigitChars 10 (List.replicate zeros '0' ++ (toString n).toList) 0 = n := by
  induction zeros with
  | zero => simp
  | succ zeros ih => simpa [List.replicate_succ, Nat.ofDigitChars_cons] using ih

/-- Numbers make different names, however many zeros stand in front of them. -/
theorem temporaryName_injective (fileName : String) : Function.Injective fun n : Nat =>
    temporaryName fileName
      (String.ofList (List.replicate (8 - (toString n).length) '0') ++ toString n) := by
  intro m n h
  have hdigits : ∀ k : Nat, Nat.ofDigitChars 10 (String.ofList
      (List.replicate (8 - (toString k).length) '0') ++ toString k).toList 0 = k := fun k => by
    rw [String.toList_append, String.toList_ofList, ofDigitChars_padded]
  have hsuffix : String.ofList (List.replicate (8 - (toString m).length) '0') ++ toString m =
      String.ofList (List.replicate (8 - (toString n).length) '0') ++ toString n := by
    simpa only [temporaryName, String.append_right_inj, toString] using h
  rw [← hdigits m, ← hdigits n, hsuffix]

theorem lookup_eq_none {nodes : List (Location × Node)} {l : Location}
    (h : l ∉ nodes.map Prod.fst) : nodes.lookup l = none := by
  rw [List.lookup_eq_none_iff]
  intro entry hentry
  rw [bne_iff_ne]
  rintro rfl
  exact h (List.mem_map_of_mem hentry)

/-- Nothing has the name that is chosen: there are more names to choose from than places that
anything stands at. -/
theorem node?_freshName (fs : FileSystem) (directory : Location) (fileName : String) :
    fs.node? (directory ++ [freshName fs directory fileName]) = none := by
  rw [freshName]
  generalize hcandidates : List.map _ (List.range (fs.nodes.length + 1)) = candidates
  cases hfind : candidates.find? fun name => (fs.node? (directory ++ [name])).isNone with
  | some name => simpa using List.find?_some hfind
  | none =>
    exfalso
    rw [List.find?_eq_none] at hfind
    have hdistinct : (candidates.map fun name => directory ++ [name]).Nodup := by
      rw [← hcandidates, List.map_map]
      refine List.Nodup.map (fun m n h => temporaryName_injective fileName ?_) List.nodup_range
      simpa using h
    have htaken : candidates.map (fun name => directory ++ [name]) ⊆ fs.nodes.map Prod.fst := by
      intro l hl
      obtain ⟨name, hname, rfl⟩ := List.mem_map.mp hl
      by_contra hfree
      refine hfind name hname ?_
      simp [FileSystem.node?, lookup_eq_none hfree]
    have hcount : candidates.length = fs.nodes.length + 1 := by
      rw [← hcandidates, List.length_map, List.length_range]
    have hlength := (List.subperm_of_subset hdistinct htaken).length_le
    rw [List.length_map, List.length_map] at hlength
    omega

end TemporaryNames

theorem replaced_of_act {temporary : Location} {path : FilePath} {content : ByteArray}
    {fs₁ fs₂ : FileSystem} (hfresh : fs.node? temporary = none)
    (hcreate : fs.act (.create temporary) = .ok fs₁)
    (hwrite : fs₁.act (.write temporary content) = .ok fs₂)
    (hmove : fs₂.act (.move temporary path) = .ok fs') :
    ∃ place, fs'.locate path = .ok place ∧ fs'.content? place = some content ∧
      Frames {place} fs fs' := by
  have hfree : fs.node? temporary ≠ some .directory := by simp [hfresh]
  have hput : ∀ (fs : FileSystem) node, (fs.put temporary node).node? temporary = some node :=
    fun fs node => by rw [FileSystem.node?_put (FileSystem.ne_nil_of_node? hfree), if_pos rfl]
  obtain rfl := FileSystem.create_eq_ok hcreate
  obtain rfl := Except.ok.inj hwrite
  obtain ⟨place, hlocate, hcontent, hleft, hmoved⟩ := FileSystem.move_file (hput _ _) hmove
  have hcreated : Frames {temporary} fs (fs.put temporary (.file .empty)) := .put hfree _
  have hwritten : Frames {temporary} (fs.put temporary (.file .empty)) _ :=
    .put (by simp [hput]) (.file content)
  refine ⟨place, hlocate, hcontent, ((hcreated.trans hwritten).trans hmoved).mono fun l hl => ?_⟩
  by_cases hne : l = place
  · exact .inl hne
  · -- nothing stood at the temporary place before, and nothing stands there now
    obtain rfl : l = temporary := by simpa [hne] using hl
    right
    rw [FileSystem.content?, FileSystem.content?, hleft hne, hfresh]

/-- A file that was replaced holds its new content, and nothing else was changed. -/
theorem replaceFile_eq_ok {path : FilePath} {content : ByteArray}
    (h : replaceFile outages fs directory path content = (.ok (), fs')) :
    ∃ place, fs'.locate path = .ok place ∧ fs'.content? place = some content ∧
      Frames {place} fs fs' := by
  have hfresh := node?_freshName fs directory path.fileName
  unfold replaceFile at h
  dsimp only at h
  generalize directory ++ [freshName fs directory path.fileName] = temporary at h hfresh
  split at h
  · cases h
  next fs₁ hcreate =>
    split at h
    · cases h
    next fs₂ hwrite =>
      split at h
      · cases h
      next fs₃ hmove =>
        obtain rfl : fs₃ = fs' := congrArg Prod.snd h
        exact replaced_of_act hfresh (FileSystem.perform_eq_ok.mp hcreate).2
          (FileSystem.perform_eq_ok.mp hwrite).2 (FileSystem.perform_eq_ok.mp hmove).2

/-- The path of an artifact's file leads to a place. -/
def LeadsTo (directory stem : String) (files : FileSystem) (l : Location) (a : Artifact) : Prop :=
  files.locate (artifactPath directory stem a) = .ok l

variable {target stem : String} {a b : Artifact} {artifacts : List Artifact} {l : Location}

theorem writeArtifact_eq_ok (h : writeArtifact outages target stem a fs = (.ok (), fs')) :
    ∃ l, LeadsTo target stem fs' l a ∧ fs'.content? l = some a.text.toUTF8 ∧
      Frames {l} fs fs' := by
  unfold writeArtifact at h
  dsimp only at h
  split at h
  · cases h
  · split at h
    · cases h
    next fs₁ hmade =>
      split at h
      · cases h
      · split at h
        · cases h
        next place _ =>
          have hframes : Frames ∅ fs fs₁ := by
            simpa [hmade] using @FileSystem.frames_makeDirectories fs outages
              (FilePath.ofText target).root (FilePath.ofText target).parts.reverse
          obtain ⟨l, hlocate, hcontent, hreplaced⟩ := replaceFile_eq_ok h
          exact ⟨l, hlocate, hcontent, by simpa using hframes.trans hreplaced⟩

/-- The last element of a list with some property. -/
def Last {α : Type} (p : α → Prop) (xs : List α) (x : α) : Prop :=
  ∃ before after, xs = before ++ x :: after ∧ p x ∧ ∀ y ∈ after, ¬ p y

section Last

variable {α : Type} {p : α → Prop} {xs : List α} {x y : α}

theorem Last.mem (h : Last p xs x) : x ∈ xs := by
  obtain ⟨before, after, rfl, _⟩ := h
  exact List.mem_append_right _ List.mem_cons_self

theorem Last.holds (h : Last p xs x) : p x := h.choose_spec.choose_spec.2.1

theorem last_cons : Last p (y :: xs) x ↔ Last p xs x ∨ (x = y ∧ p y ∧ ∀ z ∈ xs, ¬ p z) := by
  constructor
  · rintro ⟨_ | ⟨z, before⟩, after, heq, hx, hafter⟩
    · obtain ⟨rfl, rfl⟩ := List.cons.inj heq
      exact .inr ⟨rfl, hx, hafter⟩
    · obtain ⟨rfl, rfl⟩ := List.cons.inj heq
      exact .inl ⟨before, after, rfl, hx, hafter⟩
  · rintro (⟨before, after, rfl, hx, hafter⟩ | ⟨rfl, hx, hafter⟩)
    · exact ⟨y :: before, after, rfl, hx, hafter⟩
    · exact ⟨[], xs, rfl, hx, hafter⟩

theorem exists_last (hx : x ∈ xs) (hp : p x) : ∃ y, Last p xs y := by
  induction xs generalizing x with
  | nil => cases hx
  | cons z xs ih =>
    by_cases hlater : ∃ y ∈ xs, p y
    · obtain ⟨y, hy, hpy⟩ := hlater
      obtain ⟨last, hlast⟩ := ih hy hpy
      exact ⟨last, last_cons.mpr (.inl hlast)⟩
    · have hnone : ∀ y ∈ xs, ¬ p y := fun y hy hpy => hlater ⟨y, hy, hpy⟩
      obtain rfl | hmem := List.mem_cons.mp hx
      · exact ⟨x, last_cons.mpr (.inr ⟨rfl, hp, hnone⟩)⟩
      · exact absurd hp (hnone x hmem)

end Last

/-- What is there when all artifacts are written: the text of each lies at the place that its path
leads to, unless a later one lies there, and other files are as they were. -/
structure AllWritten (target stem : String) (artifacts : List Artifact) (fs : FileSystem)
    (w : Written) : Prop where
  paths : w.paths = artifacts.map (artifactPath target stem)
  placed : ∀ a ∈ artifacts, ∃ l, LeadsTo target stem w.files l a
  content : ∀ l a, Last (LeadsTo target stem w.files l) artifacts a →
    w.files.content? l = some a.text.toUTF8
  others : Frames (fun l => ∃ a ∈ artifacts, LeadsTo target stem w.files l a) fs w.files

/-- One more artifact in front keeps its place unless a later one takes it. -/
theorem AllWritten.cons {w : Written} (hfirst : LeadsTo target stem fs' l a)
    (hcontent : fs'.content? l = some a.text.toUTF8) (hframes : Frames {l} fs fs')
    (hrest : AllWritten target stem artifacts fs' w) :
    AllWritten target stem (a :: artifacts) fs
      { w with paths := artifactPath target stem a :: w.paths } := by
  have hplace : LeadsTo target stem w.files l a := hrest.others.locate hfirst
  refine ⟨?_, ?_, fun l' b hlast => ?_, ?_⟩
  · simp only [List.map_cons, hrest.paths]
  · exact List.forall_mem_cons.mpr ⟨⟨l, hplace⟩, hrest.placed⟩
  · obtain hlast | ⟨rfl, hl', hlater⟩ := last_cons.mp hlast
    · exact hrest.content l' b hlast
    · -- no later path leads to the place, so the rest of the run leaves it alone
      obtain rfl : l = l' := Except.ok.inj (hplace.symm.trans hl')
      have hnone : ¬ ∃ b ∈ artifacts, LeadsTo target stem w.files l b := fun ⟨b, hb, hlb⟩ =>
        hlater b hb hlb
      rw [hrest.others.content l hnone, hcontent]
  · refine (hframes.trans hrest.others).mono fun l' hl' => .inl ?_
    obtain rfl | ⟨b, hb, hlb⟩ := hl'
    · exact ⟨a, List.mem_cons_self, hplace⟩
    · exact ⟨b, List.mem_cons_of_mem _ hb, hlb⟩

theorem writeAll_allWritten (h : (writeAll outages target stem artifacts fs).failure = none) :
    AllWritten target stem artifacts fs (writeAll outages target stem artifacts fs) := by
  induction artifacts generalizing fs with
  | nil =>
    exact ⟨rfl, List.forall_mem_nil _, fun _ _ h => absurd h.mem List.not_mem_nil, .refl _ fs⟩
  | cons a rest ih =>
    rw [writeAll] at h ⊢
    cases hfirst : writeArtifact outages target stem a fs with
    | mk result fs₁ =>
      cases result with
      | error failure => simp [hfirst] at h
      | ok _ =>
        simp only [hfirst] at h ⊢
        obtain ⟨l, hplace, hcontent, hframes⟩ := writeArtifact_eq_ok hfirst
        exact (ih h).cons hplace hcontent hframes

/-- A text that names an entry of a directory. -/
def IsEntryName (name : String) : Prop :=
  FilePath.ofText name = ⟨"", [name]⟩ ∧ name ≠ ".."

instance (name : String) : Decidable (IsEntryName name) :=
  inferInstanceAs (Decidable (_ ∧ _))

/-- Files that are entries of the directory lie at one place only if they have one name. -/
theorem LeadsTo.fileExt_eq {files : FileSystem} (ha : LeadsTo target stem files l a)
    (hb : LeadsTo target stem files l b) (haName : IsEntryName (a.fileName stem))
    (hbName : IsEntryName (b.fileName stem)) : a.fileExt = b.fileExt := by
  have hpath : ∀ c : Artifact, IsEntryName (c.fileName stem) → artifactPath target stem c =
      ⟨(FilePath.ofText target).root, (FilePath.ofText target).parts ++ [c.fileName stem]⟩ :=
    fun c hc => by simp [artifactPath, FilePath.child, hc.1]
  rw [LeadsTo, hpath a haName, FileSystem.locate] at ha
  rw [LeadsTo, hpath b hbName, FileSystem.locate] at hb
  obtain ⟨_, _, hl⟩ := FileSystem.walk_concat haName.2 ha
  obtain ⟨_, _, hl'⟩ := FileSystem.walk_concat hbName.2 hb
  have hnames : a.fileName stem = b.fileName stem := by
    have hlast := congrArg List.getLast? (hl.symm.trans hl')
    simpa using hlast
  simpa [Artifact.fileName] using hnames

theorem artifactPath_congr (h : a.fileExt = b.fileExt) :
    artifactPath target stem a = artifactPath target stem b := by
  simp only [artifactPath, Artifact.fileName, h]

/-- A run that writes all artifacts leaves at the path of each the text of the last one whose path
leads to the same place. So in one directory every artifact keeps its own text exactly if those
with the same extension have the same text. -/
theorem write_last {outcomes : List Outcome}
    (h : (write outages target stem outcomes fs).failure = none) :
    let artifacts := outcomes.filterMap Outcome.artifact?
    let w := write outages target stem outcomes fs
    w.paths = artifacts.map (artifactPath target stem) ∧
    (∀ a ∈ artifacts, ∃ l b, LeadsTo target stem w.files l a ∧
      Last (LeadsTo target stem w.files l) artifacts b ∧
      w.files.read (artifactPath target stem a) = .ok b.text.toUTF8) ∧
    ((∀ a ∈ artifacts, IsEntryName (a.fileName stem)) →
      ((∀ a ∈ artifacts, w.files.read (artifactPath target stem a) = .ok a.text.toUTF8) ↔
        ∀ a ∈ artifacts, ∀ b ∈ artifacts, a.fileExt = b.fileExt → a.text = b.text)) := by
  intro artifacts w
  have hw : AllWritten target stem artifacts fs w := writeAll_allWritten h
  have hlast : ∀ a ∈ artifacts, ∃ l b, LeadsTo target stem w.files l a ∧
      Last (LeadsTo target stem w.files l) artifacts b ∧
      w.files.read (artifactPath target stem a) = .ok b.text.toUTF8 := by
    intro a ha
    obtain ⟨l, hl⟩ := hw.placed a ha
    obtain ⟨b, hb⟩ := exists_last ha hl
    exact ⟨l, b, hl, hb, FileSystem.read_eq_ok.mpr ⟨l, hl, hw.content l b hb⟩⟩
  refine ⟨hw.paths, hlast, fun hnames => ⟨fun hown a ha b hb hext => ?_, fun hsame a ha => ?_⟩⟩
  · have hread := hown a ha
    rw [artifactPath_congr hext, hown b hb] at hread
    exact (String.toByteArray_inj.mp (Except.ok.inj hread)).symm
  · obtain ⟨l, b, hl, hb, hread⟩ := hlast a ha
    have hext := hl.fileExt_eq hb.holds (hnames a ha) (hnames b hb.mem)
    rw [hread, hsame a ha b hb.mem hext]

/-- Notations for C and for C++, the latter with an extension that is to be chosen. -/
def headers (fileExt : String) : Options where
  profiles :=
    { profiles :=
        [{ name := "c", fileExt := ".h", statement := ⟨"#define $name $value", by cbv⟩ },
         { name := "cpp", fileExt, statement := ⟨"constexpr auto $name = $value;", by cbv⟩ }] }

/-- No formatter is run. -/
def unformatted : FormatterPolicy Id where
  formatters _ text := .formatted text
  isEnabled := false

/-- A single constant. -/
def limit : Resolved where
  constants := [⟨{ name := "A", typeName := none, expr := default }, .integer 4, none⟩]
  order := ["A"]

/-- What comes of rendering the constant in both notations. -/
def headerOutcomes (fileExt : String) : List Outcome :=
  render (headers fileExt) unformatted limit []

theorem artifacts_headerOutcomes : ∀ fileExt ∈ [".h", ".hpp"],
    (headerOutcomes fileExt).filterMap Outcome.artifact? =
      [⟨"c", ".h", "#define A 4\n"⟩, ⟨"cpp", fileExt, "constexpr auto A = 4;\n"⟩] := by
  decide +kernel

/-- With an extension of its own every notation has its own file. -/
theorem write_last_distinctExtensions :
    (write .none "out" "constants" (headerOutcomes ".hpp") {}).failure = none ∧
    ∀ a ∈ (headerOutcomes ".hpp").filterMap Outcome.artifact?,
      (write .none "out" "constants" (headerOutcomes ".hpp") {}).files.read
        (artifactPath "out" "constants" a) = .ok a.text.toUTF8 := by
  have hartifacts := artifacts_headerOutcomes ".hpp" (by decide)
  have hnone : (write .none "out" "constants" (headerOutcomes ".hpp") {}).failure = none := by
    rw [write, hartifacts]
    decide +kernel
  refine ⟨hnone, ((write_last hnone).2.2 ?_).mpr ?_⟩ <;> rw [hartifacts] <;> decide

/-- Two notations with one extension have one file, although their names differ. -/
theorem write_sharedExtension :
    (headers ".h").profiles.names.Nodup ∧
    (write .none "out" "constants" (headerOutcomes ".h") {}).failure = none ∧
    ∃ o ∈ headerOutcomes ".h", ∃ a, o.artifact? = some a ∧
      (write .none "out" "constants" (headerOutcomes ".h") {}).files.read
        (artifactPath "out" "constants" a) ≠ .ok a.text.toUTF8 := by
  have hartifacts := artifacts_headerOutcomes ".h" (by decide)
  have hmem : ⟨"c", ".h", "#define A 4\n"⟩ ∈
      (headerOutcomes ".h").filterMap Outcome.artifact? := by
    rw [hartifacts]
    exact List.mem_cons_self
  obtain ⟨o, ho, ha⟩ := List.mem_filterMap.mp hmem
  refine ⟨by decide, ?_, o, ho, _, ha, ?_⟩ <;> rw [write, hartifacts] <;> decide +kernel

end SharedConstants.Generation
