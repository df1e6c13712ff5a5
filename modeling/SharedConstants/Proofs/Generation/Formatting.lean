import SharedConstants.Proofs.Generation.Outcomes

/-!
# Renderings without formatters

Where formatters are switched off, every profile has the outcome that its emission gives it,
whatever surrounds the run. Where they leave files alone, rendering does too.
-/
namespace SharedConstants

/-- The profiles that a run renders: those that are named, or the enabled ones if none are. -/
def Options.selected (o : Options) (names : List String) : List String :=
  if names.isEmpty then o.enabledProfiles else names

namespace Generation

variable {o : Options} {resolved : Resolved}

section Disabled

variable {m : Type → Type} [Monad m] [LawfulMonad m] {policy : FormatterPolicy m}

theorem isGivenUp_plainOutcome (o : Options) (resolved : Resolved) (name : String) :
    (plainOutcome o resolved name).isGivenUp = false := by
  rw [plainOutcome]
  cases o.profiles.emit o.comments resolved name <;> rfl

theorem renderProfile_of_disabled (h : policy.isEnabled = false) (name : String) :
    renderProfile o policy resolved name = pure (plainOutcome o resolved name) := by
  rw [renderProfile, plainOutcome]
  cases hprofile : o.profiles.get name with
  | error d =>
    have hemit : o.profiles.emit o.comments resolved name = .error d := by
      simp [ProfileRegistry.emit, hprofile, bind, Except.bind]
    simp only [hemit, Diagnostic.attachProfile_eq (o.profiles.profile_of_emit_eq_error hemit)]
  | ok p =>
    cases hemit : o.profiles.emit o.comments resolved name with
    | error d =>
      simp only [Diagnostic.attachProfile_eq (o.profiles.profile_of_emit_eq_error hemit)]
    | ok a => simp [applyFormatter, h]

theorem renderAll_of_disabled (h : policy.isEnabled = false) (names : List String) :
    renderAll o policy resolved names = pure (names.map (plainOutcome o resolved)) := by
  induction names with
  | nil => rfl
  | cons name names ih =>
    rw [renderAll, renderProfile_of_disabled h, pure_bind, isGivenUp_plainOutcome, ih, pure_bind]
    rfl

/-- Without formatters nothing but emission decides what becomes of a profile. -/
theorem render_of_disabled (h : policy.isEnabled = false) (names : List String) :
    render o policy resolved names = pure ((o.selected names).map (plainOutcome o resolved)) :=
  renderAll_of_disabled h _

end Disabled

/-- A computation leaves all files as they are. -/
def LeavesFiles {α : Type} (x : StateM FileSystem α) : Prop := ∀ fs, (x fs).2 = fs

section Files

variable {α β : Type} {policy : FormatterPolicy (StateM FileSystem)}

theorem leavesFiles_pure (a : α) : LeavesFiles (pure a) := fun _ => rfl

theorem LeavesFiles.bind {x : StateM FileSystem α} {f : α → StateM FileSystem β}
    (hx : LeavesFiles x) (hf : ∀ a, LeavesFiles (f a)) : LeavesFiles (x >>= f) := by
  intro fs
  calc (f (x fs).1 (x fs).2).2 = (x fs).2 := hf _ _
    _ = fs := hx fs

theorem LeavesFiles.map {x : StateM FileSystem α} (f : α → β) (hx : LeavesFiles x) :
    LeavesFiles (f <$> x) := hx

theorem leavesFiles_renderProfile
    (h : ∀ command text, LeavesFiles (policy.formatters command text)) (name : String) :
    LeavesFiles (renderProfile o policy resolved name) := by
  rw [renderProfile]
  cases o.profiles.get name with
  | error d => exact leavesFiles_pure _
  | ok p =>
    cases o.profiles.emit o.comments resolved name with
    | error d => exact leavesFiles_pure _
    | ok a =>
      refine LeavesFiles.map _ ?_
      rw [applyFormatter]
      split
      · exact leavesFiles_pure _
      · exact leavesFiles_pure _
      · exact leavesFiles_pure _
      · exact (h _ _).map _

theorem leavesFiles_renderAll (h : ∀ command text, LeavesFiles (policy.formatters command text))
    (names : List String) : LeavesFiles (renderAll o policy resolved names) := by
  induction names with
  | nil => exact leavesFiles_pure _
  | cons name names ih =>
    rw [renderAll]
    refine (leavesFiles_renderProfile h name).bind fun outcome => ?_
    split
    · exact leavesFiles_pure _
    · exact ih.bind fun _ => leavesFiles_pure _

/-- Formatters that leave files alone make a rendering that does. -/
theorem leavesFiles_render (h : ∀ command text, LeavesFiles (policy.formatters command text))
    (names : List String) : LeavesFiles (render o policy resolved names) :=
  leavesFiles_renderAll h _

end Files

end Generation

end SharedConstants
