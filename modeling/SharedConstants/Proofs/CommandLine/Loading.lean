import SharedConstants.CommandLine.Run
import SharedConstants.Proofs.Document.Constants

/-!
# How runs read constants documents

The constants documents of a run are read one after another, up to the first at fault. If that one
is at fault for a number too long to be read or to be shown, or for a value that nests too deep to
be shown, the run is given up. Otherwise the fault is reported, and documents without faults are
read to the end.
-/
namespace SharedConstants

open Diagnostic (IsReportable)

/-- Documents without nulls are read as each of them is, up to the first at fault. -/
theorem Constant.ends_ofDocuments (ops : OperatorRegistry) (room : Nat) (read : List Constant)
    {files : List (String × Datum)} (hnull : ∀ e ∈ files, e.2.NullFree) :
    Ends (ofDocuments ops room read (files.map fun e => (some e.1, e.2))) (IsReportable room)
      (∀ e ∈ files, e.2.IsConstants ops)
      (FirstStuck (fun e => e.2.IsConstants ops) (fun e => e.2.IsStuckConstants ops room)
        files) := by
  induction files generalizing read with
  | nil => exact Ends.nil read
  | cons e files ih =>
    obtain ⟨he, hfiles⟩ := List.forall_mem_cons.mp hnull
    refine Ends.congr ((ends_ofDocument ops room (some e.1) read.length he).bind fun more _ =>
      ih (read ++ more) hfiles) ?_ ?_
    · rw [List.forall_mem_cons]
    · rw [firstStuck_cons]

namespace CommandLine

variable {room : Nat} {fs : FileSystem} {i : Invocation} {files : List (String × Datum)}

/-- The options of a run are read, and its constants files hold documents. -/
structure Invocation.Finds (i : Invocation) (room : Nat) (fs : FileSystem)
    (files : List (String × Datum)) : Prop where
  options : ∃ options, readOptionsDocument room fs i.inputs.options = .ok options
  names : i.inputs.constants = files.map Prod.fst
  documents : ∀ e ∈ files, readDocument room fs e.1 = .ok e.2

/-- A file is read as the document that its text holds. -/
theorem readDocument_eq_ok {name text : String} {d : Datum} (hname : FilePath.hasNull name = false)
    (hfile : fs.read (FilePath.ofText name) = .ok text.toUTF8)
    (htext : Toml.ofChars room text.toList = .ok d) : readDocument room fs name = .ok d := by
  have hdecoded : String.fromUTF8? text.toUTF8 = some text := dif_pos text.isValidUTF8
  simp only [readDocument, hname, Bool.false_eq_true, if_false, hfile, hdecoded, htext]

/-- The first of some files that is at fault is stuck. -/
def IsStuckAt (room : Nat) (files : List (String × Datum)) : Prop :=
  FirstStuck (fun e => e.2.IsConstants .builtin) (fun e => e.2.IsStuckConstants .builtin room) files

/-- What a run reads from files is what the documents in them give. -/
theorem readConstants_eq (read : List Constant)
    (hfiles : ∀ e ∈ files, readDocument room fs e.1 = .ok e.2) :
    readConstants room fs read (files.map Prod.fst) =
      (Constant.ofDocuments .builtin room read (files.map fun e => (some e.1, e.2))).mapError
        Stop.ofFailure := by
  induction files generalizing read with
  | nil => rfl
  | cons e files ih =>
    obtain ⟨he, hfiles⟩ := List.forall_mem_cons.mp hfiles
    have hstep : readConstants room fs read (e.1 :: files.map Prod.fst) =
        (Constant.ofDocument .builtin room (some e.1) read.length e.2).mapError Stop.ofFailure >>=
          fun more => readConstants room fs (read ++ more) (files.map Prod.fst) := by
      rw [readConstants, he]
      rfl
    rw [List.map_cons, hstep, List.map_cons, Constant.ofDocuments]
    cases Constant.ofDocument .builtin room (some e.1) read.length e.2 with
    | error failure => rfl
    | ok more => exact ih (read ++ more) hfiles

/-- How a run loads: work is given up where a document is stuck, and otherwise nothing but a fault
that is reported keeps it from going on with the constants of its documents. -/
theorem load_of_finds (hnull : ∀ e ∈ files, e.2.NullFree) (h : i.Finds room fs files) :
    (IsStuckAt room files → load room fs i.inputs = .error .givenUp) ∧
    (¬ IsStuckAt room files → (∃ d, load room fs i.inputs = .error (.reported d)) ∨
      (∀ e ∈ files, e.2.IsConstants .builtin) ∧
        ∃ loaded, load room fs i.inputs = .ok loaded) := by
  obtain ⟨options, hoptions⟩ := h.options
  have hends := Constant.ends_ofDocuments .builtin room [] hnull
  have hread := readConstants_eq [] h.documents
  have hload : load room fs i.inputs =
      (Constant.ofDocuments .builtin room [] (files.map fun e => (some e.1, e.2))).mapError
        Stop.ofFailure >>= fun constants =>
          (resolve options.types .builtin constants).mapError Stop.reported >>= fun resolved =>
            .ok (options, resolved) := by
    rw [load, hoptions, h.names, ← hread]
    rfl
  rw [IsStuckAt, ← hends.givenUp_iff, hload]
  cases hdocuments : Constant.ofDocuments .builtin room []
    (files.map fun e => (some e.1, e.2)) with
  | error failure =>
    cases failure with
    | reported d => exact ⟨by simp [GivenUp], fun _ => .inl ⟨d, rfl⟩⟩
    | oversized | tooDeep => exact ⟨fun _ => rfl, fun hno => absurd (by simp [GivenUp]) hno⟩
  | ok constants =>
    refine ⟨by simp [GivenUp], fun _ => ?_⟩
    cases hresolve : resolve options.types .builtin constants with
    | ok resolved =>
      exact .inr ⟨hends.ok_iff.mp ⟨_, hdocuments⟩, (options, resolved), by
        simp [hresolve, bind, Except.bind]⟩
    | error d => exact .inl ⟨d, by simp [hresolve, bind, Except.bind]⟩

theorem status_of_load_eq_error (s : Surroundings) {stop : Stop}
    (h : load s.room fs i.inputs = .error stop) :
    (runInvocation s fs i).status = (stopped i.format "" fs stop).status := by
  rw [runInvocation, h]

/-- A constants document without nulls is read if it follows its schema. Otherwise a fault of it
that has a report is reported, unless the first entry at fault holds too long a number or nests too
deep to be shown: then work is given up. A run whose documents are read in turn is given up where
one of them is, and otherwise ends as a reported fault does or goes on with the constants of all its
documents. -/
theorem constants_outcomes {files : List (String × Datum)} (hnull : ∀ e ∈ files, e.2.NullFree) :
    (∀ e ∈ files, ∀ ops room path start,
      Ends (Constant.ofDocument ops room path start e.2) (IsReportable room) (e.2.IsConstants ops)
        (e.2.IsStuckConstants ops room)) ∧
    ∀ (s : Surroundings) (fs : FileSystem) (i : Invocation), i.Finds s.room fs files →
      (IsStuckAt s.room files → (runInvocation s fs i).status = 2) ∧
      (¬ IsStuckAt s.room files → (runInvocation s fs i).status = 1 ∨
        (∀ e ∈ files, e.2.IsConstants .builtin) ∧
          ∃ loaded, load s.room fs i.inputs = .ok loaded) := by
  refine ⟨fun e he ops room path start =>
    Constant.ends_ofDocument ops room path start (hnull e he), fun s fs i h => ?_⟩
  obtain ⟨hgivenUp, hother⟩ := load_of_finds hnull h
  refine ⟨fun hstuck => status_of_load_eq_error s (hgivenUp hstuck), fun hno => ?_⟩
  refine (hother hno).imp_left ?_
  rintro ⟨d, hd⟩
  exact status_of_load_eq_error s hd

/-- The least integer that is out of range. -/
def tooLarge : Datum := .integer 170141183460469231731687303715884105728

def largeText : String :=
  "[[constant]]\nname = \"A\"\nvalue = 170141183460469231731687303715884105728\n"

/-- A file whose constant is out of range. -/
def largeFiles : FileSystem where
  nodes := [(["c.toml"], .file largeText.toUTF8)]

/-- Shows the constants of the file. -/
def listing : Invocation where
  inputs := { constants := ["c.toml"] }
  command := .list false

theorem ofChars_largeText (room : Nat) : Toml.ofChars room largeText.toList =
    .ok (.table [("constant", .array [.table [("name", .text "A"),
      ("value", .integer 170141183460469231731687303715884105728)]])]) := by
  cbv

theorem finds_largeFiles (room : Nat) :
    listing.Finds room largeFiles [("c.toml", .singleConstant tooLarge)] where
  options := ⟨{}, rfl⟩
  names := rfl
  documents := by
    rw [List.forall_mem_singleton]
    exact readDocument_eq_ok (by decide) rfl (ofChars_largeText room)

theorem nullFree_largeFiles :
    ∀ e ∈ [("c.toml", Datum.singleConstant tooLarge)], e.2.NullFree := by
  rw [List.forall_mem_singleton]
  exact Datum.nullFree_singleConstant (Datum.nullFree_integer _)

theorem not_isValue_tooLarge : ¬ tooLarge.IsValue .builtin := by
  rintro (_ | ⟨-, hmost⟩)
  omega

/-- It is far from too long to be shown. -/
theorem not_isStuckValue_tooLarge : ¬ tooLarge.IsStuckValue .builtin room := by
  have hshow : tooLarge.Showable room := Datum.showable_integer_iff.mpr <|
    calc (170141183460469231731687303715884105728 : Int).natAbs < 10 ^ 39 := by decide
      _ ≤ 10 ^ Datum.digitLimit := Nat.pow_le_pow_right (by decide) (by decide)
  rintro (hlong | ⟨_, ⟨⟩, -⟩)
  exact hlong hshow

/-- The integer is reported, and the run ends as a reported fault does. -/
theorem constants_outcomes_tooLarge :
    (∃ d, Constant.ofDocument .builtin 0 none 0 (.singleConstant tooLarge) =
      .error (.reported d)) ∧
    (runInvocation {} largeFiles listing).status = 1 := by
  obtain ⟨hends, hrun⟩ := constants_outcomes nullFree_largeFiles
  have hform : ¬ (Datum.singleConstant tooLarge).IsConstants .builtin :=
    mt Datum.isConstants_singleConstant.mp not_isValue_tooLarge
  have hstuck : ∀ room, ¬ (Datum.singleConstant tooLarge).IsStuckConstants .builtin room :=
    fun room => mt Datum.isStuckConstants_singleConstant.mp not_isStuckValue_tooLarge
  constructor
  · have hread := hends _ (List.mem_singleton_self _) .builtin 0 none 0
    have hno := mt hread.givenUp_iff.mp (hstuck 0)
    cases hdocument : Constant.ofDocument .builtin 0 none 0 (.singleConstant tooLarge) with
    | ok constants => exact absurd (hread.ok_iff.mp ⟨_, hdocument⟩) hform
    | error failure =>
      cases failure with
      | reported d => exact ⟨d, rfl⟩
      | oversized => exact absurd (.inl hdocument) hno
      | tooDeep => exact absurd (.inr hdocument) hno
  · have hfiles : ∀ room, ¬ IsStuckAt room [("c.toml", .singleConstant tooLarge)] := fun room => by
      simpa [IsStuckAt, firstStuck_cons] using hstuck room
    obtain hstatus | ⟨hall, -⟩ := (hrun {} _ _ (finds_largeFiles _)).2 (hfiles _)
    · exact hstatus
    · exact absurd (hall _ (List.mem_singleton_self _)) hform

/-- A text of digits, one of them more than can be read. -/
def tooManyDigits : String := String.ofList (List.replicate 4301 '9')

theorem standsFor_tooManyDigits : Expr.StandsFor (·.IsStuck .builtin) tooManyDigits := by
  refine Expr.standsFor_isStuck_of_digits (fun c hc => ?_) ?_
  · rw [List.eq_of_mem_replicate hc]
    decide
  · rw [List.length_replicate]
    decide

/-- A number of too many digits is neither read nor reported. -/
theorem ofDocument_tooManyDigits :
    (Datum.singleConstant (.text tooManyDigits)).NullFree ∧
    (∀ room constants, Constant.ofDocument .builtin room none 0
      (.singleConstant (.text tooManyDigits)) ≠ .ok constants) ∧
    ∀ room d, Constant.ofDocument .builtin room none 0
      (.singleConstant (.text tooManyDigits)) ≠ .error (.reported d) := by
  have hnull : (Datum.singleConstant (.text tooManyDigits)).NullFree :=
    Datum.nullFree_singleConstant (Datum.nullFree_text _)
  have hread : ∀ room, GivenUp (Constant.ofDocument .builtin room none 0
      (.singleConstant (.text tooManyDigits))) := fun room =>
    (Constant.ends_ofDocument .builtin room none 0 hnull).givenUp_iff.mpr
      (Datum.isStuckConstants_singleConstant.mpr (.inr ⟨_, rfl, standsFor_tooManyDigits⟩))
  refine ⟨hnull, fun room constants hok => ?_, fun room d hreported => ?_⟩
  · simpa [GivenUp, hok] using hread room
  · simpa [GivenUp, hreported] using hread room

end CommandLine

end SharedConstants
