import SharedConstants.Proofs.Generation.Writing

/-!
# What interrupted writing leaves

Writing may fail at any of its actions. An artifact that cannot be written changes no file: its
temporary file is removed, with whatever part of the text that holds. So wherever a run of writes
is interrupted, every file is as it was or holds the whole text of an artifact.
-/
namespace SharedConstants.Generation

open FileSystem (Frames Outages)

variable {outages : Outages} {fs fs' : FileSystem} {directory l : Location}
  {target stem : String} {a : Artifact} {artifacts : List Artifact}

section Failure

variable {temporary : Location} {failure : FileFailure}

/-- A file at a place that was empty is gone when it is removed. -/
theorem frames_removed (hfree : fs.node? temporary = none) (h : Frames {temporary} fs fs')
    (hfile : fs'.node? temporary ≠ some .directory) : Frames ∅ fs (fs'.erase temporary) := by
  refine (h.trans (Frames.erase hfile)).mono fun place hplace => .inr ?_
  obtain rfl : place = temporary := by simpa using hplace
  rw [FileSystem.content?, FileSystem.content?, hfree,
    FileSystem.node?_erase (FileSystem.ne_nil_of_node? hfile), if_pos rfl]

/-- Whatever a temporary file holds, no other file is changed. -/
theorem frames_removed_put (hfree : fs.node? temporary = none) (content : ByteArray)
    (h : Frames {temporary} fs fs') (hfile : fs'.node? temporary ≠ some .directory) :
    Frames ∅ fs ((fs'.put temporary (.file content)).erase temporary) := by
  have hput : (fs'.put temporary (.file content)).node? temporary = some (.file content) := by
    rw [FileSystem.node?_put (FileSystem.ne_nil_of_node? hfile), if_pos rfl]
  refine frames_removed hfree ?_ (by simp [hput])
  simpa using h.trans (Frames.put hfile (.file content))

theorem frames_replaceFile_of_error {path : FilePath} {content : ByteArray}
    (h : replaceFile outages fs directory path content = (.error failure, fs')) :
    Frames ∅ fs fs' := by
  have hfresh := node?_freshName fs directory path.fileName
  unfold replaceFile at h
  dsimp only at h
  generalize directory ++ [freshName fs directory path.fileName] = temporary at h hfresh
  have hfree : fs.node? temporary ≠ some .directory := by simp [hfresh]
  split at h
  next e fs₁ hcreate =>
    obtain rfl := FileSystem.perform_eq_error (by simp) hcreate
    obtain rfl : fs₁ = fs' := congrArg Prod.snd h
    exact .refl _ _
  next fs₁ hcreate =>
    obtain rfl := FileSystem.create_eq_ok (FileSystem.perform_eq_ok.mp hcreate).2
    have hcreated : Frames {temporary} fs (fs.put temporary (.file .empty)) := .put hfree _
    have hfile : (fs.put temporary (.file .empty)).node? temporary ≠ some .directory := by
      simp [FileSystem.node?_put (FileSystem.ne_nil_of_node? hfree)]
    split at h
    next e fs₂ hwrite =>
      obtain ⟨part, rfl⟩ := FileSystem.write_eq_error hwrite
      obtain rfl : _ = fs' := congrArg Prod.snd h
      exact frames_removed_put hfresh part hcreated hfile
    next fs₂ hwrite =>
      obtain rfl := Except.ok.inj (FileSystem.perform_eq_ok.mp hwrite).2
      split at h
      next e fs₃ hmove =>
        obtain rfl := FileSystem.perform_eq_error (by simp) hmove
        obtain rfl : _ = fs' := congrArg Prod.snd h
        exact frames_removed_put hfresh content hcreated hfile
      next fs₃ hmove => cases h

/-- An artifact that is not written changes no file, wherever its writing fails. -/
theorem frames_writeArtifact_of_error
    (h : writeArtifact outages target stem a fs = (.error failure, fs')) : Frames ∅ fs fs' := by
  have hmade : Frames ∅ fs (FileSystem.makeDirectories outages (FilePath.ofText target).root
      (FilePath.ofText target).parts.reverse fs).2 := FileSystem.frames_makeDirectories _ _
  unfold writeArtifact at h
  dsimp only at h
  split at h
  · obtain rfl : fs = fs' := congrArg Prod.snd h
    exact .refl _ _
  · split at h
    next failure' fs₁ hmake =>
      obtain rfl : fs₁ = fs' := congrArg Prod.snd h
      simpa [hmake] using hmade
    next fs₁ hmake =>
      have hframes : Frames ∅ fs fs₁ := by simpa [hmake] using hmade
      split at h
      · obtain rfl : fs₁ = fs' := congrArg Prod.snd h
        exact hframes
      · split at h
        · obtain rfl : fs₁ = fs' := congrArg Prod.snd h
          exact hframes
        · simpa using hframes.trans (frames_replaceFile_of_error h)

end Failure

/-- The places where artifacts lie as a whole. -/
def wholeAt (target stem : String) (artifacts : List Artifact) (files : FileSystem) :
    Set Location :=
  fun l => ∃ a ∈ artifacts, LeadsTo target stem files l a ∧
    files.content? l = some a.text.toUTF8

/-- Wherever a run of writes stops, files are changed at most where artifacts lie as a whole. -/
theorem frames_writeAll (outages : Outages) (target stem : String) (artifacts : List Artifact)
    (fs : FileSystem) :
    Frames (wholeAt target stem artifacts (writeAll outages target stem artifacts fs).files) fs
      (writeAll outages target stem artifacts fs).files := by
  induction artifacts generalizing fs with
  | nil => exact .refl _ fs
  | cons a rest ih =>
    rw [writeAll]
    cases hfirst : writeArtifact outages target stem a fs with
    | mk result fs₁ =>
      cases result with
      | error failure =>
        exact (frames_writeArtifact_of_error hfirst).mono fun _ h => absurd h (Set.notMem_empty _)
      | ok _ =>
        obtain ⟨l, hplace, hcontent, hframes⟩ := writeArtifact_eq_ok hfirst
        have hrest := ih fs₁
        refine (hframes.trans hrest).mono fun l' hl' => .inl ?_
        dsimp only
        generalize (writeAll outages target stem rest fs₁).files = files at hrest hl' ⊢
        by_cases hlater : l' ∈ wholeAt target stem rest files
        · obtain ⟨b, hb, hwhole⟩ := hlater
          exact ⟨b, List.mem_cons_of_mem _ hb, hwhole⟩
        · -- nothing has taken the place of the first artifact since it was written
          obtain rfl : l' = l := by simpa [hlater] using hl'
          exact ⟨a, List.mem_cons_self, hrest.locate hplace,
            (hrest.content _ hlater).trans hcontent⟩

end SharedConstants.Generation
