import SharedConstants.Proofs.Document.Conformance

/-!
# Room for the values in messages

A message shows the value at fault in full, by calls that nest as deep as the value. Where the
stack has no room for them, work is given up in place of the report. Room matters to nothing else:
a reading finds the same in less room, up to the fault that it cannot report.
-/
namespace SharedConstants

open Datum (Optional Required IsTable IsTables)

/-- What becomes of a failure in some room. Work is given up on a fault whose message cannot be
worded. -/
def Failure.limit (room : Nat) : Failure → Failure
  | .reported d =>
    match d.fault.breakdown? room with
    | none => .reported d
    | some _ => .tooDeep
  | failure => failure

/-- A fault that can be reported is. -/
theorem Failure.limit_reported {room : Nat} {d : Diagnostic} (h : d.IsReportable room) :
    limit room (.reported d) = .reported d := by
  rw [Diagnostic.IsReportable] at h
  simp only [limit, h]

theorem Failure.limit_unreportable {room : Nat} {d : Diagnostic} (h : ¬ d.IsReportable room) :
    limit room (.reported d) = .tooDeep := by
  rw [Diagnostic.IsReportable] at h
  obtain ⟨breakdown, hbreakdown⟩ := Option.ne_none_iff_exists'.mp h
  simp only [limit, hbreakdown]

section Decides

variable {α : Type} {x : Except Failure α} {room : Nat} {P : Prop}

theorem Ends.mapError_limit (h : Decides room x P) : x.mapError (Failure.limit room) = x := by
  cases hx : x with
  | ok a => rfl
  | error failure =>
    refine congrArg Except.error ?_
    cases failure with
    | reported d => exact Failure.limit_reported (h.reason_of_reported d hx).isReportable
    | _ => rfl

end Decides

namespace Section

variable {α β : Type} {s : Section} {key place : String} {room : Nat} {as : Datum → Option α}
  {fault : Datum → EntryFault}

theorem find?_room (s : Section) (room : Nat) (key : String) :
    { s with room }.find? key = s.find? key := rfl

theorem entryFailure_limit {f : EntryFault} (h : ∀ d ∈ f.shown?, d.Showable s.room) :
    { s with room }.entryFailure key f = (s.entryFailure key f).limit room := by
  cases hshown : f.shown? with
  | none => simp [entryFailure, hshown, failure, Failure.limit, breakdown?_entry]
  | some d =>
    have hd : d.Showable s.room := h d hshown
    have hsame : d.obstacle? s.room = none := Datum.obstacle?_eq_none_iff.mpr hd
    simp only [entryFailure, hshown, Option.bind_some, hsame, hd.short.obstacle?_eq, failure,
      Failure.limit, breakdown?_entry]
    by_cases hdepth : d.depth ≤ room
    · simp only [hdepth, if_true, Option.map_none]
    · simp only [hdepth, if_false, Option.map_some, Failure.ofObstacle]

/-- A reading finds the same in any room as where its values can be shown, up to the fault that it
cannot report. -/
def Limited (read : Section → Except Failure α) : Prop :=
  ∀ s : Section, s.Plain → ∀ room, read { s with room } = (read s).mapError (Failure.limit room)

theorem Limited.pure (a : α) : Limited fun _ => .ok a := fun _ _ _ => rfl

theorem Limited.bind {read : Section → Except Failure α} {next : α → Section → Except Failure β}
    (h : Limited read) (hnext : ∀ a, Limited (next a)) :
    Limited fun s => read s >>= fun a => next a s := by
  intro s hs room
  dsimp only
  rw [h s hs room, Options.mapError_bind]
  congr
  funext a
  exact hnext a s hs room

theorem Limited.map {read : Section → Except Failure α} {f : α → β} (h : Limited read) :
    Limited fun s => (read s).map f := by
  intro s hs room
  dsimp only
  rw [h s hs room]
  cases read s <;> rfl

/-- A reading that only decides in which room it reports. -/
theorem Limited.of_decides {read : Section → Except Failure α} {form : Prop}
    (hsame : ∀ s room, read { s with room } = read s)
    (h : ∀ s : Section, Decides s.room (read s) form) : Limited read := by
  intro s hs room
  have hread := (h { s with room }).mapError_limit
  rw [hsame] at hread ⊢
  exact hread.symm

theorem Limited.throw {f : EntryFault} (h : f.shown? = none) :
    Limited fun s => (.error (s.entryFailure key f) : Except Failure α) := by
  intro s hs room
  exact congrArg Except.error (entryFailure_limit (by simp [h]))

theorem limited_readAs? (hshown : ∀ d, ∀ shown ∈ (fault d).shown?, shown = d) :
    Limited fun s => s.readAs? key as fault := by
  intro s hs room
  simp only [readAs?, find?_room]
  split
  · rfl
  · rfl
  · next d hne hd =>
    cases as d with
    | some a => rfl
    | none =>
      refine congrArg Except.error (entryFailure_limit fun shown hmem => ?_)
      exact hshown d shown hmem ▸ (hs.of_find? hd).showable

theorem limited_text? (key : String) : Limited fun s => s.text? key := by
  simp only [text?_eq]
  exact limited_readAs? (by simp [EntryFault.shown?])

theorem limited_switch? (key : String) : Limited fun s => s.switch? key := by
  simp only [switch?_eq]
  exact limited_readAs? (by simp [EntryFault.shown?])

theorem limited_integer? (key : String) (least : Int) :
    Limited fun s => s.integer? key least := by
  simp only [integer?_eq]
  refine limited_readAs? fun d => ?_
  cases d <;> simp [integerFault, EntryFault.shown?]

theorem limited_texts? (key : String) : Limited fun s => s.texts? key := by
  simp only [texts?_eq]
  exact limited_readAs? (by simp [EntryFault.shown?])

theorem limited_switchOr (key : String) (default : Bool) :
    Limited fun s => s.switchOr key default := by
  intro s hs room
  simp only [switchOr, find?_room]
  split
  · rfl
  · exact limited_switch? key s hs room

theorem limited_text (key : String) : Limited fun s => s.text key := by
  intro s hs room
  have htext : { s with room }.text? key = _ := limited_text? key s hs room
  simp only [text, htext]
  rcases s.text? key with failure | _ | t
  · rfl
  · exact Limited.throw rfl s hs room
  · rfl

theorem limited_inWords {read : Section → Except Failure α} (h : Limited read) :
    Limited fun s => Options.inWords s key (read s) := by
  intro s hs room
  dsimp only
  rw [h s hs room]
  cases read s with
  | ok a => rfl
  | error failure =>
    cases failure with
    | reported d =>
      simp only [mapError_error, Failure.limit, Options.inWords]
      cases d.fault.breakdown? room <;> rfl
    | oversized => rfl
    | tooDeep => rfl

theorem ofDatum_limit {ample : Nat} {known : Option (List String)} {d : Datum}
    {read : Section → Except Failure α} (h : Limited read) (hd : d.Plain ample) :
    ofDatum room place known d >>= read =
      (ofDatum ample place known d >>= read).mapError (Failure.limit room) := by
  have hsame : ofDatum room place known d =
      (ofDatum ample place known d).map fun inner => { inner with room } := by
    unfold ofDatum
    split
    · split
      · rfl
      · dsimp only
        split <;> rfl
    · rfl
  rw [hsame]
  cases hread : ofDatum ample place known d with
  | ok inner =>
    obtain ⟨rfl, rfl, rfl, -⟩ := ofDatum_eq_ok.mp hread
    exact h inner (plain_of_table hd) room
  | error f =>
    obtain ⟨fault, rfl, hshown⟩ := eq_failure_of_ofDatum hread
    have hreport : Diagnostic.IsReportable room { fault := .config fault } :=
      breakdown?_of_shown_eq_nil hshown
    exact congrArg Except.error (Failure.limit_reported hreport).symm

theorem limited_within {known : Option (List String)} {absent : α}
    {read : Section → Except Failure α} (h : Limited read) :
    Limited fun s => s.within key known absent read := by
  intro s hs room
  simp only [within, find?_room]
  split
  · rfl
  · next d hd => exact ofDatum_limit h (hs.of_find? hd)

end Section

namespace Options

open Section

theorem limited_readSwitches : Limited readSwitches :=
  (limited_texts? "enabled").bind fun _ =>
  (limited_switchOr "comment_sections" false).bind fun _ =>
  (limited_switchOr "strict_types" false).bind fun _ =>
  (limited_switchOr "strict_formats" false).bind fun _ => Limited.pure _

theorem limited_readKind : Limited readKind := by
  refine (limited_inWords (limited_text? "kind")).bind fun name => ?_
  cases Kind.ofText? (name.getD "integer") with
  | some kind => exact Limited.pure kind
  | none => exact Limited.throw rfl

theorem limited_declare (name : String) (kind : Kind) (bits : Int) (signed : Option Bool) :
    Limited fun s => declare name s kind bits signed := by
  unfold declare
  cases SemanticType.make? name kind bits signed with
  | some t => exact Limited.pure t
  | none => exact Limited.throw rfl

theorem limited_readType (name : String) : Limited (readType name) :=
  limited_readKind.bind fun kind =>
  (limited_inWords (limited_integer? "bits" 1)).bind fun bits =>
  (limited_inWords (limited_switchOr "signed" false)).bind fun signed =>
  limited_declare name kind (bits.getD 64) signed

theorem limited_readBoolean : Limited readBoolean := by
  simp only [funext readBoolean_eq]
  exact limited_readAs? (by simp [EntryFault.shown?])

theorem limited_readRadix : Limited readRadix := by
  intro s hs room
  have hname : inWords { s with room } "radix" (Section.text { s with room } "radix") =
      (inWords s "radix" (s.text "radix")).mapError (Failure.limit room) :=
    limited_inWords (limited_text "radix") s hs room
  simp only [readRadix, find?_room, hname]
  cases s.find? "radix" with
  | none => rfl
  | some _ =>
    cases inWords s "radix" (s.text "radix") with
    | error _ => rfl
    | ok name =>
      dsimp only [mapError_ok, bind, Except.bind]
      cases Radix.ofText? name <;> rfl

theorem limited_readIntegerFormat : Limited readIntegerFormat :=
  limited_readRadix.bind fun _ =>
  (limited_integer? "underscores" 0).bind fun _ =>
  (limited_text? "separator").bind fun _ =>
  (limited_integer? "zero_pad" 0).bind fun _ =>
  (limited_switch? "omit_prefix").bind fun _ => Limited.pure _

theorem limited_readFormat : Limited readFormat := by
  rw [funext readFormat_eq]
  exact limited_readBoolean.bind fun _ =>
    (limited_within limited_readIntegerFormat).bind fun _ => Limited.pure _

theorem limited_readFormat? : Limited readFormat? := by
  rw [funext readFormat?_eq]
  exact limited_within limited_readFormat

theorem limited_readRule : Limited readRule :=
  limited_readFormat?.bind fun _ =>
  (limited_text? "name").bind fun _ =>
  (limited_text? "value_prefix").bind fun _ =>
  (limited_text? "value_suffix").bind fun _ =>
  (limited_texts? "import").bind fun _ => Limited.pure _

theorem limited_readEach {α : Type} {place : String → String} {known : List String}
    {read : String → Section → Except Failure α} (h : ∀ name, Limited (read name)) :
    Limited fun s => readEach s.room place known read s.entries := by
  rintro ⟨at', entries, ample⟩ hs room
  dsimp only
  induction entries with
  | nil => rfl
  | cons e entries ih =>
    obtain ⟨he, hrest⟩ := List.forall_mem_cons.mp hs
    rw [readEach_cons, readEach_cons, ih hrest, ofDatum_limit (h e.1) he]
    cases ofDatum ample (place e.1) (some known) e.2 >>= read e.1 with
    | error failure => rfl
    | ok first => cases readEach ample place known read entries <;> rfl

theorem limited_readFormatter : Limited readFormatter := by
  refine (limited_texts? "formatter").bind fun command => ?_
  rcases command with _ | _ | _
  · exact Limited.pure _
  · exact Limited.throw rfl
  · exact Limited.pure _

theorem limited_readRules : Limited readRules := by
  rw [funext readRules_eq]
  refine limited_within fun s hs room => ?_
  exact limited_readEach (fun t => limited_readRule.map) s hs room

theorem limited_check (draft : ProfileDraft) :
    Limited fun _ => draft.check.mapError Failure.reported :=
  Limited.of_decides (fun _ _ => rfl) fun _ => decides_check draft

theorem limited_readProfile (name : String) : Limited (readProfile name) :=
  limited_readRules.bind fun _ =>
  limited_readFormatter.bind fun _ =>
  (limited_text "file_ext").bind fun _ =>
  (limited_text "template").bind fun _ =>
  (limited_text? "import").bind fun _ =>
  (limited_text? "comment").bind fun _ =>
  (limited_text? "intro").bind fun _ =>
  (limited_text? "outro").bind fun _ =>
  limited_readFormat?.bind fun _ => limited_check _

theorem limited_readTables {α : Type} {key : String} {known : List String}
    {read : String → Section → Except Failure α} (h : ∀ name, Limited (read name)) :
    Limited fun s => readTables s key known read := by
  simp only [readTables_eq]
  exact limited_within (limited_readEach h)

theorem limited_readSections : Limited readSections :=
  (limited_within limited_readSwitches).bind fun _ =>
  (limited_readTables limited_readType).bind fun _ =>
  (limited_readTables limited_readProfile).bind fun _ => Limited.pure _

/-- A document is read in any room as where its values can be shown, up to the fault that cannot be
reported. -/
theorem ofDocument_limit {ample : Nat} {document : Datum} (h : document.Plain ample) (room : Nat)
    (path : Option String) : ofDocument room path document =
      (ofDocument ample path document).mapError (Failure.limit room) := by
  have hread : read room document = (read ample document).mapError (Failure.limit room) := by
    rw [read_eq, read_eq]
    exact ofDatum_limit limited_readSections h
  have hfault : ∀ d : Diagnostic, (d.attachPath path).fault = d.fault := fun d => by
    unfold Diagnostic.attachPath
    split <;> rfl
  rw [ofDocument, ofDocument, hread]
  rcases read ample document with (d | _ | _) | o
  · simp only [mapError_error, Failure.map, Failure.limit, hfault]
    cases d.fault.breakdown? room <;> rfl
  all_goals rfl

end Options

namespace Diagnostic

variable {d : Diagnostic} {room : Nat}

/-- Faults of documents are placed in the document that is read. -/
theorem OfDocument.path_attachPath (h : d.OfDocument room) (path : Option String) :
    d.attachPath path = { d with path } := by
  have hpath : (d.path <|> path) = path := by rw [h.path]; rfl
  obtain ⟨fault, hfault⟩ | ⟨text, fault, hfault⟩ := h.fault <;>
    simp only [attachPath, hfault, hpath]

/-- A fault of a document that is reported somewhere is so in the room that the values in its
message need. -/
theorem OfDocument.isReportable_iff (h : d.OfDocument room) (room' : Nat) :
    d.IsReportable room' ↔ ∀ shown ∈ d.fault.shown, shown.depth ≤ room' := by
  have hbreakdown : ∀ room, d.fault.breakdown? room =
      (d.fault.shown.findSome? (Datum.obstacle? room)).map .unshown := by
    obtain ⟨fault, hfault⟩ | ⟨text, fault, hfault⟩ := h.fault <;> rw [hfault] <;> exact fun _ => rfl
  have hshown : ∀ room, d.IsReportable room ↔ ∀ shown ∈ d.fault.shown, shown.Showable room := by
    intro room
    rw [IsReportable, hbreakdown, Option.map_eq_none_iff, List.findSome?_eq_none_iff]
    simp only [Datum.obstacle?_eq_none_iff]
  rw [hshown]
  have hshort := (hshown room).mp h.isReportable
  exact forall₂_congr fun shown hmem =>
    ⟨fun hshow => hshow.shallow, fun hdepth => ⟨(hshort shown hmem).short, hdepth⟩⟩

end Diagnostic

namespace Options

variable {room : Nat} {path : Option String} {document : Datum}

/-- A document of short integers is plain in the room that its depth takes. -/
theorem plain_depth (hnull : document.NullFree) (hshort : document.Short) :
    document.Plain document.depth := ⟨hnull, hshort, Nat.le_refl _⟩

/-- A document of short integers is read exactly if it follows the schema, in any room. -/
theorem exists_ofDocument_iff (room : Nat) (path : Option String) (hnull : document.NullFree)
    (hshort : document.Short) :
    (∃ o, ofDocument room path document = .ok o) ↔ document.IsOptions := by
  have hplain := plain_depth hnull hshort
  rw [ofDocument_limit hplain, ofDocument, ← (decides_read hplain).ok_iff]
  cases read document.depth document <;> simp

/-- What becomes of a document that does not follow the schema. -/
theorem ofDocument_eq_error (h : document.Plain room) {failure : Failure}
    (hfailure : ofDocument room path document = .error failure) :
    ∃ d : Diagnostic, d.OfDocument room ∧ failure = .reported { d with path } := by
  have hread := decides_read h
  rw [ofDocument] at hfailure
  cases hresult : read room document with
  | ok o => simp [hresult] at hfailure
  | error failure' =>
    rw [hresult] at hfailure
    obtain rfl := Except.error.inj hfailure
    cases failure' with
    | oversized => exact (hread.givenUp_iff.mp (.inl hresult)).elim
    | tooDeep => exact (hread.givenUp_iff.mp (.inr hresult)).elim
    | reported d =>
      have hd := hread.reason_of_reported d hresult
      exact ⟨d, hd, by rw [← hd.path_attachPath, Failure.map]⟩

end Options

/-- A document without nulls whose integers all have at most 4300 digits is read exactly if it
follows the schema. Otherwise a fault of the document is reported, with the path that was given,
or work is given up on a fault whose message shows a value too deep for the room on the stack. This
is the fault that is reported where there is as much room as the document is deep. -/
theorem ofDocument_schema (room : Nat) (path : Option String) {document : Datum}
    (hnull : document.NullFree) (hshort : document.Short) :
    ((∃ o, Options.ofDocument room path document = .ok o) ↔ document.IsOptions) ∧
    (∀ failure, Options.ofDocument room path document = .error failure →
      (∃ d, failure = .reported d ∧
        ((∃ fault, d.fault = .config fault) ∨ ∃ text fault, d.fault = .template text fault) ∧
        d.code = d.fault.code ∧ d.fault.breakdown? room = none ∧ d.path = path) ∨
      failure = .tooDeep ∧ room < document.depth) ∧
    (Options.ofDocument room path document = .error .tooDeep ↔
      ∃ d, Options.ofDocument document.depth path document = .error (.reported d) ∧
        ∃ shown ∈ d.fault.shown, room < shown.depth) := by
  have hplain := Options.plain_depth hnull hshort
  have hlimit := Options.ofDocument_limit hplain room path
  refine ⟨Options.exists_ofDocument_iff room path hnull hshort, ?_, ?_⟩
  · intro failure hfailure
    obtain ⟨ample, hample, rfl⟩ := mapError_eq_error.mp (hlimit ▸ hfailure)
    obtain ⟨d, hd, rfl⟩ := Options.ofDocument_eq_error hplain hample
    by_cases hreport : d.IsReportable room
    · exact .inl ⟨{ d with path }, Failure.limit_reported hreport, hd.fault, hd.code, hreport, rfl⟩
    · refine .inr ⟨Failure.limit_unreportable hreport, Nat.lt_of_not_le fun hle => hreport ?_⟩
      exact (hd.isReportable_iff room).mpr fun shown hshown =>
        Nat.le_trans ((hd.isReportable_iff _).mp hd.isReportable shown hshown) hle
  · rw [hlimit, mapError_eq_error]
    constructor
    · rintro ⟨ample, hample, htooDeep⟩
      obtain ⟨d, hd, rfl⟩ := Options.ofDocument_eq_error hplain hample
      have hreport : ¬ d.IsReportable room := fun hreport => by
        cases (Failure.limit_reported (d := { d with path }) hreport).symm.trans htooDeep
      rw [hd.isReportable_iff] at hreport
      push Not at hreport
      exact ⟨{ d with path }, hample, hreport⟩
    · rintro ⟨d, hample, shown, hshown, hdeep⟩
      refine ⟨_, hample, Failure.limit_unreportable fun hreport => ?_⟩
      obtain ⟨d', hd, hsame⟩ := Options.ofDocument_eq_error hplain hample
      obtain rfl := Failure.reported.inj hsame
      exact Nat.not_le_of_lt hdeep ((hd.isReportable_iff room).mp hreport shown hshown)

/-- A keyword may be written in upper case and with space around it. -/
theorem ofDocument_portOptions :
    ∃ o, Options.ofDocument 985 (some "options.toml") Datum.portOptions = .ok o :=
  (ofDocument_schema 985 _ Datum.nullFree_portOptions Datum.short_portOptions).1.mpr
    Datum.isOptions_portOptions

namespace Datum

/-- A table with a table under its only key, and so on. -/
def nested : Nat → Datum
  | 0 => .integer 1
  | n + 1 => .table [("a", nested n)]

theorem nullFree_nested (n : Nat) : (nested n).NullFree := by
  induction n with
  | zero => exact nullFree_integer 1
  | succ n ih => simpa [nested, nullFree_table_iff] using ih

theorem short_nested (n : Nat) : (nested n).Short := by
  induction n with
  | zero => exact short_integer_iff.mpr (Nat.one_lt_two_pow (by decide) |>.trans_le
      (Nat.pow_le_pow_left (by decide) digitLimit))
  | succ n ih => simpa [nested, short_table_iff] using ih

theorem depth_nested (n : Nat) : (nested n).depth = n := by
  induction n with
  | zero => rfl
  | succ n ih => simp [nested, depth, depthOfEntries, ih]

/-- A document with a table where the names of profiles belong. -/
def nestedSwitch (n : Nat) : Datum := .table [("codegen", .table [("enabled", nested n)])]

end Datum

/-- Work is given up where the room on the stack is less than the table is deep. -/
theorem Options.read_nestedSwitch {room n : Nat} (h : room < n + 1) :
    read room (Datum.nestedSwitch (n + 1)) = .error .tooDeep := by
  have hobstacle : (Datum.nested (n + 1)).obstacle? room = some .tooDeep := by
    rw [(Datum.short_nested _).obstacle?_eq, Datum.depth_nested, if_neg (Nat.not_le_of_lt h)]
  have henabled : Section.texts? ⟨"<options>.codegen", [("enabled", Datum.nested (n + 1))], room⟩
      "enabled" = .error .tooDeep := by
    refine congrArg Except.error ?_
    simp only [Section.entryFailure, EntryFault.shown?, Option.bind_some, hobstacle,
      Failure.ofObstacle]
  rw [read_eq]
  simp [Datum.nestedSwitch, Section.ofDatum, readSections, Section.within, Section.find?,
    switchKeys, readSwitches, henabled, bind, Except.bind]

/-- A table of twelve hundred levels in place of a list of names is neither accepted nor
reported. -/
theorem ofDocument_nestedSwitch :
    (Datum.nestedSwitch 1200).NullFree ∧ (Datum.nestedSwitch 1200).Short ∧
    (∀ o, Options.ofDocument 985 (some "o.toml") (Datum.nestedSwitch 1200) ≠ .ok o) ∧
    ∀ d, Options.ofDocument 985 (some "o.toml") (Datum.nestedSwitch 1200) ≠
      .error (.reported d) := by
  have hnull : (Datum.nestedSwitch 1200).NullFree := by
    simpa [Datum.nestedSwitch, Datum.nullFree_table_iff] using Datum.nullFree_nested 1200
  have hshort : (Datum.nestedSwitch 1200).Short := by
    simpa [Datum.nestedSwitch, Datum.short_table_iff] using Datum.short_nested 1200
  have hread : Options.ofDocument 985 (some "o.toml") (Datum.nestedSwitch 1200) =
      .error .tooDeep := by
    rw [Options.ofDocument, Options.read_nestedSwitch (by decide)]
    rfl
  exact ⟨hnull, hshort, by simp [hread], by simp [hread]⟩

end SharedConstants
