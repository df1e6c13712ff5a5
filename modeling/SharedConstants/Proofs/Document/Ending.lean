import SharedConstants.Document.Section
import SharedConstants.Proofs.Document.Inside
import SharedConstants.Proofs.Success

/-!
# How readings of documents end

A reading succeeds, reports a fault or is given up. It is described by the form of what it
succeeds on, by what it is stuck at, and by what it reports. Readings in steps end as their
steps do.
-/
namespace SharedConstants

/-- A reading is given up at a number too long or at a value too deep. -/
def GivenUp {α : Type} (x : Except Failure α) : Prop :=
  x = .error .oversized ∨ x = .error .tooDeep

theorem givenUp_iff_of_error {α : Type} {f : Failure} :
    GivenUp (.error f : Except Failure α) ↔ ∀ d, f ≠ .reported d := by
  cases f <;> simp [GivenUp]

/-- How a reading ends: it succeeds on what has a form, it is given up on what is stuck, and
what it reports has a reason. -/
structure Ends {α : Type} (x : Except Failure α) (reason : Diagnostic → Prop)
    (form stuck : Prop) : Prop where
  ok_iff : (∃ a, x = .ok a) ↔ form
  givenUp_iff : GivenUp x ↔ stuck
  reason_of_reported : ∀ d, x = .error (.reported d) → reason d

/-- A diagnostic has a report, for whose values there is room. -/
def Diagnostic.IsReportable (room : Nat) (d : Diagnostic) : Prop := d.fault.breakdown? room = none

/-- A diagnostic is of a document, whose path is yet to be named. -/
structure Diagnostic.OfDocument (room : Nat) (d : Diagnostic) : Prop where
  fault : (∃ fault, d.fault = .config fault) ∨ ∃ text fault, d.fault = .template text fault
  code : d.code = d.fault.code
  path : d.path = none
  isReportable : d.IsReportable room

/-- The first element that is not of a form is stuck. -/
def FirstStuck {α : Type} (form stuck : α → Prop) (xs : List α) : Prop :=
  ∃ before x after, xs = before ++ x :: after ∧ (∀ b ∈ before, form b) ∧ stuck x

@[simp] theorem not_firstStuck_nil {α : Type} {form stuck : α → Prop} :
    ¬ FirstStuck form stuck [] := by
  simp [FirstStuck]

theorem firstStuck_cons {α : Type} {form stuck : α → Prop} {x : α} {xs : List α} :
    FirstStuck form stuck (x :: xs) ↔ stuck x ∨ form x ∧ FirstStuck form stuck xs := by
  constructor
  · rintro ⟨_ | ⟨b, before⟩, y, after, heq, hbefore, hy⟩
    · obtain ⟨rfl, rfl⟩ := List.cons.inj heq
      exact .inl hy
    · obtain ⟨rfl, rfl⟩ := List.cons.inj heq
      obtain ⟨hb, hbefore⟩ := List.forall_mem_cons.mp hbefore
      exact .inr ⟨hb, before, y, after, rfl, hbefore, hy⟩
  · rintro (hx | ⟨hx, before, y, after, rfl, hbefore, hy⟩)
    · exact ⟨[], x, xs, rfl, List.forall_mem_nil _, hx⟩
    · exact ⟨x :: before, y, after, rfl, List.forall_mem_cons.mpr ⟨hx, hbefore⟩, hy⟩

theorem givenUp_bind_iff {α β : Type} {x : Except Failure α} {f : α → Except Failure β} :
    GivenUp (x >>= f) ↔ GivenUp x ∨ ∃ a, x = .ok a ∧ GivenUp (f a) := by
  cases x <;> simp [bind, Except.bind, GivenUp]

namespace Ends

variable {α β : Type} {x : Except Failure α} {reason : Diagnostic → Prop} {P Q S T : Prop}

theorem ok (a : α) : Ends (.ok a) reason True False := ⟨by simp, by simp [GivenUp], by simp⟩

theorem reported {d : Diagnostic} (h : reason d) :
    Ends (.error (.reported d) : Except Failure α) reason False False :=
  ⟨by simp, by simp [GivenUp], by simpa using h⟩

theorem givenUp {f : Failure} (h : ∀ d, f ≠ .reported d) :
    Ends (.error f : Except Failure α) reason False True :=
  ⟨by simp, by simpa [givenUp_iff_of_error] using h, fun d hd => absurd (Except.error.inj hd) (h d)⟩

theorem oversized : Ends (.error .oversized : Except Failure α) reason False True :=
  givenUp fun _ h => nomatch h

theorem congr (h : Ends x reason P S) (hform : P ↔ Q) (hstuck : S ↔ T) : Ends x reason Q T where
  ok_iff := h.ok_iff.trans hform
  givenUp_iff := h.givenUp_iff.trans hstuck
  reason_of_reported := h.reason_of_reported

theorem mono {reason' : Diagnostic → Prop} (h : Ends x reason P S)
    (hreason : ∀ d, reason d → reason' d) : Ends x reason' P S where
  ok_iff := h.ok_iff
  givenUp_iff := h.givenUp_iff
  reason_of_reported d hd := hreason d (h.reason_of_reported d hd)

/-- What follows a step may depend on what the step has read. -/
theorem bindWith {f : α → Except Failure β} {form stuck : α → Prop} (h : Ends x reason P S)
    (hf : ∀ a, x = .ok a → Ends (f a) reason (form a) (stuck a)) :
    Ends (x >>= f) reason (∃ a, x = .ok a ∧ form a) (S ∨ ∃ a, x = .ok a ∧ stuck a) where
  ok_iff := by
    simp only [bind_eq_ok]
    constructor
    · rintro ⟨b, a, ha, hb⟩
      exact ⟨a, ha, (hf a ha).ok_iff.mp ⟨b, hb⟩⟩
    · rintro ⟨a, ha, hform⟩
      obtain ⟨b, hb⟩ := (hf a ha).ok_iff.mpr hform
      exact ⟨b, a, ha, hb⟩
  givenUp_iff := by
    rw [givenUp_bind_iff, h.givenUp_iff]
    exact or_congr_right <| exists_congr fun a => and_congr_right fun ha => (hf a ha).givenUp_iff
  reason_of_reported d hd := by
    rcases bind_eq_error.mp hd with hx | ⟨a, ha, hfa⟩
    · exact h.reason_of_reported d hx
    · exact (hf a ha).reason_of_reported d hfa

theorem bind {f : α → Except Failure β} (h : Ends x reason P S)
    (hf : ∀ a, x = .ok a → Ends (f a) reason Q T) :
    Ends (x >>= f) reason (P ∧ Q) (S ∨ P ∧ T) := by
  refine (h.bindWith hf).congr ?_ (or_congr_right ?_)
  all_goals rw [← h.ok_iff, exists_and_right]

theorem map {f : α → β} (h : Ends x reason P S) : Ends (x.map f) reason P S := by
  refine ⟨?_, ?_, fun d hd => h.reason_of_reported d ?_⟩
  · rw [← h.ok_iff]
    cases x <;> simp [Except.map]
  · rw [← h.givenUp_iff]
    cases x <;> simp [Except.map, GivenUp]
  · cases x with
    | ok a => cases hd
    | error failure => exact congrArg _ (Except.error.inj hd)

theorem mapError {reason' : Diagnostic → Prop} {g : Diagnostic → Diagnostic}
    (h : Ends x reason P S) (hreason : ∀ d, reason d → reason' (g d)) :
    Ends (x.mapError (Failure.map g)) reason' P S := by
  refine ⟨?_, ?_, fun d hd => ?_⟩
  · rw [← h.ok_iff]
    cases x <;> simp
  · rw [← h.givenUp_iff]
    rcases x with (_ | _ | _) | a <;> simp [Failure.map, GivenUp]
  · rcases x with (d' | _ | _) | a
    · obtain rfl : g d' = d := by simpa [Failure.map] using hd
      exact hreason d' (h.reason_of_reported d' rfl)
    all_goals simp [Failure.map] at hd

/-- A list is read element by element, up to the first that is not of the form. -/
theorem cons {γ δ : Type} {y : Except Failure β} {f : α → β → γ} {form stuck : δ → Prop} {d : δ}
    {ds : List δ} (h : Ends x reason (form d) (stuck d))
    (hrest : Ends y reason (∀ e ∈ ds, form e) (FirstStuck form stuck ds)) :
    Ends (x >>= fun a => y >>= fun b => .ok (f a b)) reason (∀ e ∈ d :: ds, form e)
      (FirstStuck form stuck (d :: ds)) := by
  refine (h.bind fun a _ => hrest.bind fun b _ => Ends.ok (f a b)).congr (by simp) ?_
  simp [firstStuck_cons]

theorem nil (a : α) {δ : Type} {form stuck : δ → Prop} :
    Ends (.ok a) reason (∀ e ∈ ([] : List δ), form e) (FirstStuck form stuck []) :=
  (Ends.ok a).congr (by simp) (by simp)

/-- Steps that are never given up, one after another. -/
theorem andThen {f : α → Except Failure β} (h : Ends x reason P False)
    (hf : ∀ a, x = .ok a → Ends (f a) reason Q False) : Ends (x >>= f) reason (P ∧ Q) False :=
  (h.bind hf).congr Iff.rfl (by simp)

/-- A step that succeeds where what follows it does. -/
theorem step {f : α → Except Failure β} (h : Ends x reason P False) (himp : Q → P)
    (hf : ∀ a, x = .ok a → Ends (f a) reason Q False) : Ends (x >>= f) reason Q False :=
  (h.andThen hf).congr (and_iff_right_of_imp himp) Iff.rfl

end Ends

namespace Section

variable {α : Type} {s : Section} {key place : String} {known : Option (List String)}

theorem ofDocument_failure {room : Nat} {fault : ConfigFault}
    (h : (Fault.config fault).breakdown? room = none) :
    Diagnostic.OfDocument room { fault := .config fault } := ⟨.inl ⟨fault, rfl⟩, rfl, rfl, h⟩

theorem breakdown?_of_shown_eq_nil {room : Nat} {fault : ConfigFault}
    (h : (Fault.config fault).shown = []) : (Fault.config fault).breakdown? room = none := by
  rw [Fault.breakdown?, h]
  · rfl
  all_goals exact nofun

theorem breakdown?_entry {room : Nat} {fault : EntryFault} :
    (Fault.config (.entry place key fault)).breakdown? room =
      (fault.shown?.bind (Datum.obstacle? room)).map .unshown := by
  rw [Fault.breakdown?, Fault.shown]
  · cases fault.shown? <;> simp
  all_goals exact nofun

/-- An entry at fault is reported unless its message would show what cannot be shown. -/
theorem ends_entryFailure (s : Section) (key : String) (fault : EntryFault) :
    Ends (.error (s.entryFailure key fault) : Except Failure α) (Diagnostic.OfDocument s.room)
      False (∃ d ∈ fault.shown?, ¬ d.Showable s.room) := by
  have hstuck : (∃ d ∈ fault.shown?, ¬ d.Showable s.room) ↔
      fault.shown?.bind (Datum.obstacle? s.room) ≠ none := by
    cases fault.shown? <;> simp [Datum.obstacle?_eq_none_iff]
  rw [hstuck, entryFailure]
  cases hobstacle : fault.shown?.bind (Datum.obstacle? s.room) with
  | none =>
    have hreport : (Fault.config (.entry s.place key fault)).breakdown? s.room = none := by
      rw [breakdown?_entry, hobstacle, Option.map_none]
    exact (Ends.reported (ofDocument_failure hreport)).congr Iff.rfl (by simp)
  | some obstacle =>
    have hgivenUp : ∀ d, Failure.ofObstacle obstacle ≠ .reported d := by
      cases obstacle <;> simp [Failure.ofObstacle]
    exact (Ends.givenUp hgivenUp).congr Iff.rfl (by simp)

end Section

end SharedConstants
