import SharedConstants.Document.Options
import SharedConstants.Proofs.Document.Ending

/-!
# Entries of sections

All kinds of entries are read in one way, told by what a value counts as and by the fault of a
value that does not count. What a section is read to is then a matter of its entries: of the
forms that those under its keys have.
-/
namespace SharedConstants

namespace Datum

/-- The text that a value is. -/
def text? : Datum → Option String
  | .text t => some t
  | _ => none

/-- The boolean that a value is. -/
def switch? : Datum → Option Bool
  | .boolean b => some b
  | _ => none

/-- The integer that a value is, if it is one from a least one on. -/
def atLeast? (least : Int) : Datum → Option Int
  | .integer n => if least ≤ n then some n else none
  | _ => none

/-- The texts that a value lists. -/
def texts? : Datum → Option (List String)
  | .array items => Section.textsOf? items
  | _ => none

def IsText (d : Datum) : Prop := ∃ t, d = .text t

theorem text?_eq_some {d : Datum} {t : String} : d.text? = some t ↔ d = .text t := by
  cases d <;> simp [text?]

/-- The entry under a key, if there is one, has a form. -/
def Optional (key : String) (form : Datum → Prop) (entries : List (String × Datum)) : Prop :=
  ∀ d, entries.lookup key = some d → form d

/-- There is an entry under a key, and it has a form. -/
def Required (key : String) (form : Datum → Prop) (entries : List (String × Datum)) : Prop :=
  ∃ d, entries.lookup key = some d ∧ form d

/-- A table whose entries have a form. Its keys are among the known ones where these are given. -/
def IsTable (known : Option (List String)) (form : List (String × Datum) → Prop)
    (d : Datum) : Prop :=
  ∃ entries, d = .table entries ∧ (∀ keys ∈ known, ∀ e ∈ entries, e.1 ∈ keys) ∧ form entries

theorem mem_of_lookup {key : String} {d : Datum} {entries : List (String × Datum)}
    (h : entries.lookup key = some d) : (key, d) ∈ entries := by
  induction entries with
  | nil => cases h
  | cons e entries ih =>
    rw [List.lookup_cons] at h
    cases heq : key == e.1 with
    | true =>
      obtain rfl : key = e.1 := beq_iff_eq.mp heq
      simp only [beq_self_eq_true, Option.some.injEq] at h
      simp [← h]
    | false => exact List.mem_cons_of_mem _ (ih (by simpa [heq] using h))

end Datum

namespace Section

open Datum (Optional Required IsTable)

variable {α : Type} {s : Section} {room : Nat} {key place : String}
  {known : Option (List String)} {as : Datum → Option α} {fault : Datum → EntryFault}

/-- Reads an entry by what values count as. A null is no entry. -/
def readAs? (s : Section) (key : String) (as : Datum → Option α) (fault : Datum → EntryFault) :
    Except Failure (Option α) :=
  match s.find? key with
  | none | some .null => .ok none
  | some d =>
    match as d with
    | some a => .ok (some a)
    | none => .error (s.entryFailure key (fault d))

/-- The fault of a value that is no integer from a least one on. -/
def integerFault (least : Int) : Datum → EntryFault
  | .integer n => .belowMinimum least n
  | d => .expectedInteger d

theorem text?_eq (s : Section) (key : String) :
    s.text? key = s.readAs? key Datum.text? .expectedString := by
  unfold text? readAs?
  cases s.find? key with
  | none => rfl
  | some d => cases d <;> rfl

theorem switch?_eq (s : Section) (key : String) :
    s.switch? key = s.readAs? key Datum.switch? .expectedSwitch := by
  unfold switch? readAs?
  cases s.find? key with
  | none => rfl
  | some d => cases d <;> rfl

theorem integer?_eq (s : Section) (key : String) (least : Int) :
    s.integer? key least = s.readAs? key (Datum.atLeast? least) (integerFault least) := by
  unfold integer? readAs?
  cases s.find? key with
  | none => rfl
  | some d =>
    cases d with
    | integer n => by_cases h : least ≤ n <;> simp [Datum.atLeast?, integerFault, h]
    | _ => rfl

theorem texts?_eq (s : Section) (key : String) :
    s.texts? key = s.readAs? key Datum.texts? .expectedStrings := by
  unfold texts? readAs?
  cases s.find? key with
  | none => rfl
  | some d =>
    cases d with
    | array items => cases h : textsOf? items <;> simp [Datum.texts?, h]
    | _ => rfl

theorem readBoolean_eq (s : Section) : Options.readBoolean s =
    s.readAs? "boolean" Options.booleanTexts? fun _ => .expectedBooleanTexts := by
  unfold Options.readBoolean readAs?
  cases s.find? "boolean" with
  | none => rfl
  | some d =>
    cases d with
    | array items => cases h : Options.booleanTexts? (.array items) <;> simp [h]
    | table entries => cases h : Options.booleanTexts? (.table entries) <;> simp [h]
    | _ => rfl

/-- Reads the section inside an entry. Something else is taken where there is none. -/
def within (s : Section) (key : String) (known : Option (List String)) (absent : α)
    (read : Section → Except Failure α) : Except Failure α :=
  match s.find? key with
  | none => .ok absent
  | some d => ofDatum s.room (s.place ++ "." ++ key) known d >>= read

theorem within_eq (s : Section) (key : String) (known : Option (List String)) (absent : α)
    (read : Section → Except Failure α) : s.within key known absent read =
      s.open? key known >>= fun inner? => match inner? with
        | none => .ok absent
        | some inner => read inner := by
  unfold open? within
  cases s.find? key with
  | none => rfl
  | some d =>
    dsimp only
    cases ofDatum s.room (s.place ++ "." ++ key) known d <;> rfl

/-- What an entry is read as. -/
theorem readAs?_eq_ok {v : Option α} (hnull : as .null = none)
    (h : s.readAs? key as fault = .ok v) : (s.entries.lookup key).bind as = v := by
  unfold readAs? find? at h
  split at h
  · next hfind => simpa [hfind] using h
  · next hfind => simpa [hfind, hnull] using h
  · next d hne hfind =>
    cases has : as d with
    | some a => simpa [hfind, has] using h
    | none => simp [has] at h

/-- An entry that is read counts, unless there is none. -/
theorem lookup_of_readAs? {v : Option α} (hnull : s.find? key ≠ some .null)
    (h : s.readAs? key as fault = .ok v) : s.entries.lookup key = none ∧ v = none ∨
      ∃ d a, s.entries.lookup key = some d ∧ as d = some a ∧ v = some a := by
  unfold readAs? find? at h
  rw [find?] at hnull
  split at h
  · next hfind => exact .inl ⟨hfind, (Except.ok.inj h).symm⟩
  · next hfind => exact absurd hfind hnull
  · next d hne hfind =>
    cases has : as d with
    | some a =>
      simp only [has, Except.ok.injEq] at h
      exact .inr ⟨d, a, hfind, has, h.symm⟩
    | none => simp [has] at h

/-- An entry is read if it counts. Work is given up on one that does not where its fault cannot be
shown. -/
theorem ends_readAs? {form : Datum → Prop} (hnull : s.find? key ≠ some .null)
    (hform : ∀ d, (∃ a, as d = some a) ↔ form d) :
    Ends (s.readAs? key as fault) (Diagnostic.OfDocument s.room) (Optional key form s.entries)
      (Required key (fun d => ¬ form d ∧ ∃ shown ∈ (fault d).shown?, ¬ shown.Showable s.room)
        s.entries) := by
  unfold readAs? Optional Required
  rw [find?] at hnull ⊢
  split
  · next hfind => exact (Ends.ok _).congr (by simp [hfind]) (by simp [hfind])
  · next hfind => exact absurd hfind hnull
  · next d hne hfind =>
    cases has : as d with
    | some a =>
      have hd : form d := (hform d).mp ⟨a, has⟩
      exact (Ends.ok _).congr (by simp [hfind, hd]) (by simp [hfind, hd])
    | none =>
      have hd : ¬ form d := fun hd => by simpa [has] using (hform d).mpr hd
      exact (s.ends_entryFailure key _).congr (by simp [hfind, hd]) (by simp [hfind, hd])

theorem ends_text? (hnull : s.find? key ≠ some .null) :
    Ends (s.text? key) (Diagnostic.OfDocument s.room) (Optional key Datum.IsText s.entries)
      (Required key (fun d => ¬ d.Showable s.room) s.entries) := by
  have hread :
      Ends (s.readAs? key Datum.text? .expectedString) (Diagnostic.OfDocument s.room) _ _ :=
    ends_readAs? hnull fun d => exists_congr fun t => Datum.text?_eq_some
  rw [text?_eq]
  refine hread.congr Iff.rfl (exists_congr fun d => and_congr_right fun _ => ?_)
  simp only [EntryFault.shown?, Option.mem_some, exists_eq_left']
  exact and_iff_right_of_imp fun hshow ⟨t, ht⟩ => hshow (ht ▸ Datum.showable_text t)

theorem text_eq_ok {t : String} :
    s.text key = .ok t ↔ s.entries.lookup key = some (.text t) := by
  unfold text text? find?
  cases s.entries.lookup key with
  | none => simp
  | some d => cases d <;> simp

/-- A text that must be there. -/
theorem ends_text (hnull : s.find? key ≠ some .null) :
    Ends (s.text key) (Diagnostic.OfDocument s.room) (Required key Datum.IsText s.entries)
      (Required key (fun d => ¬ d.Showable s.room) s.entries) := by
  have hread := ends_text? hnull
  unfold text
  cases hfind : s.find? key with
  | none =>
    have htext : s.text? key = .ok none := by simp [text?, hfind]
    rw [find?] at hfind
    simp only [htext]
    refine (s.ends_entryFailure key .required).congr ?_ ?_ <;>
      simp [Required, hfind, EntryFault.shown?]
  | some d =>
    have htext : s.text key = (s.text? key).map (·.getD "") := by
      unfold text text?
      cases d with
      | null => exact absurd hfind hnull
      | _ => simp [hfind, Except.map]
    rw [find?] at hfind
    rw [← text, htext]
    exact hread.map.congr (by simp [Optional, Required, hfind]) Iff.rfl

theorem ofDatum_eq_ok {d : Datum} {s : Section} : ofDatum room place known d = .ok s ↔
    d = .table s.entries ∧ s.place = place ∧ s.room = room ∧
      ∀ keys ∈ known, ∀ e ∈ s.entries, e.1 ∈ keys := by
  obtain ⟨place', entries, room'⟩ := s
  cases d with
  | table entries' =>
    simp only [Datum.table.injEq]
    cases known with
    | none =>
      simp only [ofDatum, Except.ok.injEq, Section.mk.injEq, Option.not_mem_none]
      grind
    | some keys =>
      simp only [ofDatum]
      split
      · next hempty =>
        have hknown : ∀ e ∈ entries', e.1 ∈ keys := by
          simpa [List.filter_eq_nil_iff] using hempty
        constructor
        · rintro ⟨⟩
          simpa using hknown
        · rintro ⟨rfl, rfl, rfl, -⟩
          rfl
      · next hne =>
        refine iff_of_false nofun ?_
        rintro ⟨rfl, -, -, hknown⟩
        exact hne (by simpa [List.filter_eq_nil_iff] using hknown keys rfl)
  | _ => simp [ofDatum]

/-- What is said of something else than a table shows no value. -/
theorem eq_failure_of_ofDatum {d : Datum} {f : Failure}
    (h : ofDatum room place known d = .error f) :
    ∃ fault, f = failure fault ∧ (Fault.config fault).shown = [] := by
  unfold ofDatum at h
  split at h
  · split at h
    · cases h
    · dsimp only at h
      split at h
      · cases h
      · exact ⟨_, (Except.error.inj h).symm, rfl⟩
  · exact ⟨_, (Except.error.inj h).symm, rfl⟩

/-- A table is read by its entries. -/
theorem ends_ofDatum {reason : Diagnostic → Prop} (hreason : ∀ d, d.OfDocument room → reason d)
    {d : Datum} {read : Section → Except Failure α} {form stuck : List (String × Datum) → Prop}
    (h : ∀ entries, d = .table entries →
      Ends (read ⟨place, entries, room⟩) reason (form entries) (stuck entries)) :
    Ends (ofDatum room place known d >>= read) reason (IsTable known form d)
      (IsTable known stuck d) := by
  cases hread : ofDatum room place known d with
  | ok inner =>
    obtain ⟨rfl, rfl, rfl, hknown⟩ := ofDatum_eq_ok.mp hread
    have hiff : ∀ form : List (String × Datum) → Prop,
        form inner.entries ↔ IsTable known form (.table inner.entries) := fun form =>
      ⟨fun hform => ⟨_, rfl, hknown, hform⟩, fun ⟨_, heq, _, hform⟩ =>
        Datum.table.inj heq ▸ hform⟩
    exact (h inner.entries rfl).congr (hiff form) (hiff stuck)
  | error f =>
    obtain ⟨fault, rfl, hshown⟩ := eq_failure_of_ofDatum hread
    have hno : ∀ form : List (String × Datum) → Prop, False ↔ IsTable known form d :=
      fun form => iff_of_false not_false fun ⟨entries, hd, hknown, _⟩ => by
        have hok : ofDatum room place known d = .ok ⟨place, entries, room⟩ :=
          ofDatum_eq_ok.mpr ⟨hd, rfl, rfl, hknown⟩
        simp [hread] at hok
    have hreport := hreason _ (ofDocument_failure (breakdown?_of_shown_eq_nil hshown))
    exact (Ends.reported hreport).congr (hno form) (hno stuck)

end Section

namespace Options

theorem inWords_eq_ok {α : Type} {s : Section} {x : Except Failure α} {key : String} {a : α} :
    inWords s key x = .ok a ↔ x = .ok a := by
  cases x with
  | ok b => rfl
  | error failure => cases failure <;> simp [inWords]

/-- Makes a declared type, unless its width is out of bounds. -/
def declare (name : String) (s : Section) (kind : Kind) (bits : Int)
    (signed : Option Bool) : Except Failure SemanticType :=
  match SemanticType.make? name kind bits signed with
  | some t => return t
  | none => throw (s.entryFailure "bits" (.bitsOutOfBounds name bits))

theorem readType_eq (name : String) (s : Section) : readType name s =
    readKind s >>= fun kind => inWords s "bits" (s.integer? "bits" 1) >>= fun bits =>
      inWords s "bits" (s.switchOr "signed" false) >>= fun signed =>
        declare name s kind (bits.getD 64) signed := rfl

theorem readFormat?_eq (s : Section) : readFormat? s =
    s.within "format" (some ["boolean", "integer"]) {} readFormat := by
  rw [Section.within_eq]
  rfl

theorem readFormat_eq (s : Section) : readFormat s = do
    let boolean ← readBoolean s
    let integer ← s.within "integer" (some integerFormatKeys) {} readIntegerFormat
    return { integer with boolean } := by
  rw [Section.within_eq, readFormat]
  congr
  funext boolean
  cases s.open? "integer" (some integerFormatKeys) with
  | error failure => rfl
  | ok inner? => cases inner? <;> rfl

theorem readRules_eq (s : Section) : readRules s = s.within "type" none [] fun types =>
    readEach types.room (types.place ++ "." ++ ·) ruleKeys (fun t r => (readRule r).map (t, ·))
      types.entries := by
  rw [Section.within_eq]
  rfl

theorem readTables_eq {α : Type} (root : Section) (key : String) (known : List String)
    (read : String → Section → Except Failure α) : readTables root key known read =
      root.within key none [] fun s => readEach s.room (key ++ "." ++ ·) known read s.entries := by
  rw [Section.within_eq]
  rfl

/-- Reads the sections of a document. -/
def readSections (root : Section) : Except Failure Options := do
  let switches ← root.within "codegen" (some switchKeys) {} readSwitches
  let declared ← readTables root "types" ["kind", "bits", "signed"] readType
  let profiles ← readTables root "lang" profileKeys readProfile
  return {
    switches
    types := TypeRegistry.ofDeclared declared (switches.strictTypes == some true)
    profiles := ⟨profiles, switches.strictFormats == some true⟩ }

theorem read_eq (room : Nat) (document : Datum) : read room document =
    Section.ofDatum room "<options>" (some ["codegen", "types", "lang"]) document >>=
      readSections := by
  rw [read]
  congr
  funext root
  rw [readSections, Section.within_eq]
  cases root.open? "codegen" (some switchKeys) with
  | error failure => rfl
  | ok inner? => cases inner? <;> rfl

end Options

end SharedConstants
