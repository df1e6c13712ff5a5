import SharedConstants.Proofs.Document.Schema

/-!
# Options documents follow their schema

A document without nulls whose values can all be shown is read exactly if it follows the schema.
Otherwise a fault of the document is reported, and work is never given up.
-/
namespace SharedConstants

open Datum (Optional Required IsTable IsTables)

/-- Nothing in a value is null, and there is room to show the value. -/
structure Datum.Plain (room : Nat) (d : Datum) : Prop where
  nullFree : d.NullFree
  showable : d.Showable room

/-- A reading that succeeds on data of a form, and reports a fault of the document otherwise. -/
abbrev Decides {α : Type} (room : Nat) (x : Except Failure α) (form : Prop) : Prop :=
  Ends x (Diagnostic.OfDocument room) form False

namespace Section

/-- All entries of a section are plain. -/
def Plain (s : Section) : Prop := ∀ e ∈ s.entries, e.2.Plain s.room

variable {α : Type} {s : Section} {room : Nat} {key : String} {as : Datum → Option α}
  {fault : Datum → EntryFault}

theorem plain_of_table {place : String} {entries : List (String × Datum)}
    (h : (Datum.table entries).Plain room) : Plain ⟨place, entries, room⟩ :=
  fun _ he => ⟨h.nullFree.entry he, h.showable.entry he⟩

theorem Plain.of_find? (hs : s.Plain) {d : Datum} (hd : s.find? key = some d) :
    d.Plain s.room :=
  hs _ (Datum.mem_of_lookup hd)

theorem Plain.find?_ne_null (hs : s.Plain) : s.find? key ≠ some .null := fun h =>
  (hs.of_find? h).nullFree.ne_null rfl

/-- An entry of a section is read if it counts. -/
theorem Plain.decides_readAs? {form : Datum → Prop} (hs : s.Plain)
    (hshown : ∀ d, ∀ shown ∈ (fault d).shown?, shown = d)
    (hform : ∀ d, (∃ a, as d = some a) ↔ form d) :
    Decides s.room (s.readAs? key as fault) (Optional key form s.entries) := by
  refine (ends_readAs? hs.find?_ne_null hform).congr Iff.rfl (iff_false_intro ?_)
  rintro ⟨d, hd, -, shown, hmem, hshow⟩
  exact hshow (hshown d shown hmem ▸ (hs.of_find? hd).showable)

theorem Plain.decides_text? (hs : s.Plain) (key : String) :
    Decides s.room (s.text? key) (Optional key Datum.IsText s.entries) := by
  rw [text?_eq]
  exact hs.decides_readAs? (by simp [EntryFault.shown?]) fun d =>
    exists_congr fun t => Datum.text?_eq_some

theorem Plain.decides_switch? (hs : s.Plain) (key : String) :
    Decides s.room (s.switch? key) (Optional key Datum.IsSwitch s.entries) := by
  rw [switch?_eq]
  exact hs.decides_readAs? (by simp [EntryFault.shown?]) fun d =>
    exists_congr fun b => Datum.switch?_eq_some

theorem Plain.decides_integer? (hs : s.Plain) (key : String) (least : Int) :
    Decides s.room (s.integer? key least) (Optional key (Datum.IsAtLeast least) s.entries) := by
  rw [integer?_eq]
  refine hs.decides_readAs? (fun d => ?_) fun d => exists_congr fun n => Datum.atLeast?_eq_some
  cases d <;> simp [integerFault, EntryFault.shown?]

theorem Plain.decides_texts? (hs : s.Plain) (key : String) :
    Decides s.room (s.texts? key) (Optional key Datum.IsTexts s.entries) := by
  rw [texts?_eq]
  exact hs.decides_readAs? (by simp [EntryFault.shown?]) fun d =>
    exists_congr fun ts => Datum.texts?_eq_some

theorem Plain.decides_switchOr (hs : s.Plain) (key : String) (default : Bool) :
    Decides s.room (s.switchOr key default) (Optional key Datum.IsSwitch s.entries) := by
  unfold switchOr
  split
  · next hfind =>
    refine (Ends.ok _).congr (iff_of_true trivial fun d hd => ?_) Iff.rfl
    simp [find?, hd] at hfind
  · exact hs.decides_switch? key

/-- A text that must be there. -/
theorem Plain.decides_text (hs : s.Plain) (key : String) :
    Decides s.room (s.text key) (Required key Datum.IsText s.entries) := by
  refine (ends_text hs.find?_ne_null).congr Iff.rfl (iff_false_intro ?_)
  exact fun ⟨d, hd, hshow⟩ => hshow (hs.of_find? hd).showable

/-- A table is read by its entries. -/
theorem decides_ofDatum (place : String) (known : Option (List String)) {d : Datum}
    (hd : d.Plain room) {read : Section → Except Failure α} {form : List (String × Datum) → Prop}
    (h : ∀ inner : Section, inner.Plain → Decides inner.room (read inner) (form inner.entries)) :
    Decides room (ofDatum room place known d >>= read) (IsTable known form d) := by
  have hread : Ends (ofDatum room place known d >>= read) (Diagnostic.OfDocument room)
      (IsTable known form d) (IsTable known (fun _ => False) d) :=
    ends_ofDatum (fun _ h => h) fun entries heq =>
      h ⟨place, entries, room⟩ (plain_of_table (heq ▸ hd))
  refine hread.congr Iff.rfl (iff_false_intro ?_)
  rintro ⟨_, _, _, hfalse⟩
  exact hfalse

/-- A section inside is read by its entries, if there is one. -/
theorem Plain.decides_within (hs : s.Plain) (key : String) (known : Option (List String))
    (absent : α) {read : Section → Except Failure α} {form : List (String × Datum) → Prop}
    (h : ∀ inner : Section, inner.Plain → Decides inner.room (read inner) (form inner.entries)) :
    Decides s.room (s.within key known absent read)
      (Optional key (IsTable known form) s.entries) := by
  unfold within
  split
  · next hfind =>
    rw [find?] at hfind
    exact (Ends.ok _).congr (by simp [Optional, hfind]) Iff.rfl
  · next d hfind =>
    have hread := decides_ofDatum (s.place ++ "." ++ key) known (hs.of_find? hfind) h
    rw [find?] at hfind
    exact hread.congr (by simp [Optional, hfind]) Iff.rfl

end Section

namespace Options

open Section

variable {s : Section} {room : Nat}

theorem decides_inWords {α : Type} {x : Except Failure α} {P : Prop}
    (h : Decides s.room x P) (key : String) : Decides s.room (inWords s key x) P := by
  have hsame : inWords s key x = x := by
    cases hx : x with
    | ok a => rfl
    | error failure =>
      cases failure with
      | oversized => exact (h.givenUp_iff.mp (.inl hx)).elim
      | _ => rfl
  rwa [hsame]

theorem decides_readSwitches (hs : s.Plain) :
    Decides s.room (readSwitches s) (Datum.IsSwitches s.entries) := by
  have hread : Decides s.room (readSwitches s) _ :=
    (hs.decides_texts? "enabled").andThen fun enabled _ =>
    (hs.decides_switchOr "comment_sections" false).andThen fun commentSections _ =>
    (hs.decides_switchOr "strict_types" false).andThen fun strictTypes _ =>
    (hs.decides_switchOr "strict_formats" false).andThen fun strictFormats _ => Ends.ok _
  refine hread.congr ⟨?_, ?_⟩ Iff.rfl
  · rintro ⟨h₁, h₂, h₃, h₄, -⟩
    exact ⟨h₁, h₂, h₃, h₄⟩
  · rintro ⟨h₁, h₂, h₃, h₄⟩
    exact ⟨h₁, h₂, h₃, h₄, trivial⟩

theorem Plain.lookup_of_text? (hs : s.Plain) {key : String} {v : Option String}
    (h : s.text? key = .ok v) : s.entries.lookup key = none ∧ v = none ∨
      ∃ t, s.entries.lookup key = some (.text t) ∧ v = some t := by
  rw [text?_eq] at h
  refine (lookup_of_readAs? hs.find?_ne_null h).imp_right ?_
  rintro ⟨d, t, hd, ht, rfl⟩
  exact ⟨t, hd.trans (congrArg some (Datum.text?_eq_some.mp ht)), rfl⟩

theorem ends_throw {α : Type} (s : Section) (key : String) {fault : EntryFault}
    (hshown : fault.shown? = none) {P : Prop} (h : ¬ P) :
    Decides s.room (throw (s.entryFailure key fault) : Except Failure α) P :=
  (s.ends_entryFailure key fault).congr (iff_of_false not_false h) (by simp [hshown])

theorem ends_pure {α : Type} (a : α) {P : Prop} (h : P) : Decides room (pure a) P :=
  (Ends.ok a).congr (iff_of_true trivial h) Iff.rfl

theorem optional_kind_iff (hs : s.Plain) {name : Option String}
    (h : inWords s "kind" (s.text? "kind") = .ok name) :
    Optional "kind" (Datum.IsKeyword ["integer", "int", "boolean", "bool"]) s.entries ↔
      (Kind.ofText? (name.getD "integer")).isSome := by
  rcases Plain.lookup_of_text? hs (inWords_eq_ok.mp h) with ⟨hnone, rfl⟩ | ⟨t, ht, rfl⟩
  · have hdefault : (Kind.ofText? "integer").isSome := by decide
    simp [Optional, hnone, hdefault]
  · simp [Optional, ht, Datum.IsKeyword, Kind.isSome_ofText?]

theorem decides_readKind (hs : s.Plain) : Decides s.room (readKind s)
    (Optional "kind" (Datum.IsKeyword ["integer", "int", "boolean", "bool"]) s.entries) := by
  unfold readKind
  refine (decides_inWords (hs.decides_text? "kind") "kind").step ?_ fun name hname => ?_
  · exact fun hkind d hd => (hkind d hd).imp fun t ht => ht.1
  rw [optional_kind_iff hs hname]
  split
  · next kind hkind => exact ends_pure kind (by simp [hkind])
  · next hkind => exact ends_throw s _ rfl (by simp [hkind])

/-- The kind of a declaration is a boolean's only where the declaration says so. -/
theorem readKind_eq_boolean (hs : s.Plain) {kind : Kind} (h : readKind s = .ok kind) :
    kind = .boolean ↔ Required "kind" (Datum.IsKeyword ["boolean", "bool"]) s.entries := by
  obtain ⟨name, hname, hkind⟩ := bind_eq_ok.mp h
  have hfound : Kind.ofText? (name.getD "integer") = some kind := by
    split at hkind
    · next kind' hkind' => exact hkind'.trans (congrArg some (Except.ok.inj hkind))
    · cases hkind
  rcases Plain.lookup_of_text? hs (inWords_eq_ok.mp hname) with ⟨hnone, rfl⟩ | ⟨t, ht, rfl⟩
  · have hdefault : Kind.ofText? "integer" = some .integer := by decide
    obtain rfl : Kind.integer = kind := by simpa [hdefault] using hfound
    simp [Required, hnone]
  · have hboolean : kind = .boolean ↔ Kind.ofText? t = some .boolean := by
      rw [show Kind.ofText? t = some kind from hfound, Option.some.injEq]
    rw [hboolean, Kind.ofText?_eq_boolean]
    simp [Required, ht, Datum.IsKeyword]

theorem Plain.lookup_of_integer? (hs : s.Plain) {key : String} {least : Int} {v : Option Int}
    (h : s.integer? key least = .ok v) : s.entries.lookup key = none ∧ v = none ∨
      ∃ n, s.entries.lookup key = some (.integer n) ∧ least ≤ n ∧ v = some n := by
  rw [integer?_eq] at h
  refine (lookup_of_readAs? hs.find?_ne_null h).imp_right ?_
  rintro ⟨d, n, hd, hn, rfl⟩
  obtain ⟨rfl, hle⟩ := Datum.atLeast?_eq_some.mp hn
  exact ⟨n, hd, hle, rfl⟩

/-- A declaration's width matters unless its kind is a boolean's. -/
theorem isBounded_iff (hs : s.Plain) {kind : Kind} {bits : Option Int}
    (hkind : readKind s = .ok kind)
    (hbits : inWords s "bits" (s.integer? "bits" 1) = .ok bits) :
    Datum.IsBounded s.entries ↔ (kind = .integer → 1 ≤ bits.getD 64 ∧ bits.getD 64 ≤ 128) := by
  rw [Datum.IsBounded, ← readKind_eq_boolean hs hkind]
  rcases Plain.lookup_of_integer? hs (inWords_eq_ok.mp hbits) with
    ⟨hnone, rfl⟩ | ⟨n, hn, hleast, rfl⟩
  · simp [Optional, hnone]
  · cases kind <;> simp [Optional, hn, hleast]

theorem decides_declare (name : String) (s : Section) (kind : Kind) (bits : Int)
    (signed : Option Bool) :
    Decides s.room (declare name s kind bits signed) (kind = .integer → 1 ≤ bits ∧ bits ≤ 128) := by
  unfold declare
  by_cases hbounds : kind = .integer → 1 ≤ bits ∧ bits ≤ 128
  · rw [SemanticType.make?, dif_pos hbounds]
    exact ends_pure _ hbounds
  · rw [SemanticType.make?, dif_neg hbounds]
    exact ends_throw s _ rfl hbounds

theorem decides_readType (hs : s.Plain) (name : String) :
    Decides s.room (readType name s) (Datum.IsDeclaration s.entries) := by
  rw [readType_eq]
  refine Ends.congr ((decides_readKind hs).andThen fun kind hkind =>
    (decides_inWords (hs.decides_integer? "bits" 1) "bits").andThen fun bits hbits =>
    (decides_inWords (hs.decides_switchOr "signed" false) "bits").andThen fun signed _ =>
    (decides_declare name s kind (bits.getD 64) signed).congr
      (isBounded_iff hs hkind hbits).symm Iff.rfl) ⟨?_, ?_⟩ Iff.rfl
  · rintro ⟨hkind, hbits, hsigned, hbounded⟩
    exact ⟨hkind, hbits, hsigned, hbounded⟩
  · rintro ⟨hkind, hbits, hsigned, hbounded⟩
    exact ⟨hkind, hbits, hsigned, hbounded⟩

theorem decides_readRadix (hs : s.Plain) : Decides s.room (readRadix s)
    (Optional "radix" (Datum.IsKeyword
      ["bin", "binary", "oct", "octal", "dec", "decimal", "hex", "hexadecimal"]) s.entries) := by
  unfold readRadix
  split
  · next hfind =>
    rw [find?] at hfind
    exact ends_pure none (by simp [Optional, hfind])
  · next d hfind =>
    rw [find?] at hfind
    have hiff : ∀ form, Optional "radix" form s.entries ↔ Required "radix" form s.entries := by
      simp [Optional, Required, hfind]
    rw [hiff]
    refine (decides_inWords (hs.decides_text "radix") "radix").step ?_ fun name hname => ?_
    · rintro ⟨d, hd, t, ht, -⟩
      exact ⟨d, hd, t, ht⟩
    have htext : Required "radix" (Datum.IsKeyword
        ["bin", "binary", "oct", "octal", "dec", "decimal", "hex", "hexadecimal"]) s.entries ↔
        (Radix.ofText? name).isSome := by
      have hlookup := text_eq_ok.mp (inWords_eq_ok.mp hname)
      simp [Required, hlookup, Datum.IsKeyword, Radix.isSome_ofText?]
    rw [htext]
    split
    · next radix hradix => exact ends_pure _ (by simp [hradix])
    · next hradix => exact ends_throw s _ rfl (by simp [hradix])

theorem decides_readIntegerFormat (hs : s.Plain) :
    Decides s.room (readIntegerFormat s) (Datum.IsIntegerFormat s.entries) := by
  have hread : Decides s.room (readIntegerFormat s) _ :=
    (decides_readRadix hs).andThen fun radix _ =>
    (hs.decides_integer? "underscores" 0).andThen fun groupWidth _ =>
    (hs.decides_text? "separator").andThen fun groupSeparator _ =>
    (hs.decides_integer? "zero_pad" 0).andThen fun zeroPad _ =>
    (hs.decides_switch? "omit_prefix").andThen fun omitMark _ => Ends.ok _
  refine hread.congr ⟨?_, ?_⟩ Iff.rfl
  · rintro ⟨hradix, hwidth, hseparator, hpad, hmark, -⟩
    exact ⟨hradix, hwidth, hseparator, hpad, hmark⟩
  · rintro ⟨hradix, hwidth, hseparator, hpad, hmark⟩
    exact ⟨hradix, hwidth, hseparator, hpad, hmark, trivial⟩

theorem decides_readFormat (hs : s.Plain) :
    Decides s.room (readFormat s) (Datum.IsFormat s.entries) := by
  have hboolean : Decides s.room (readBoolean s)
      (Optional "boolean" Datum.IsBooleanTexts s.entries) := by
    rw [readBoolean_eq]
    exact hs.decides_readAs? (by simp [EntryFault.shown?]) fun d =>
      Option.isSome_iff_exists.symm.trans Datum.isSome_booleanTexts?
  have hinteger := hs.decides_within "integer" (some integerFormatKeys) ({} : FormatRule)
    fun inner hinner => decides_readIntegerFormat hinner
  rw [readFormat_eq]
  refine (hboolean.andThen fun boolean _ => hinteger.andThen fun integer _ =>
    Ends.ok _).congr ⟨?_, ?_⟩ Iff.rfl
  · rintro ⟨hboolean, hinteger, -⟩
    exact ⟨hboolean, hinteger⟩
  · rintro ⟨hboolean, hinteger⟩
    exact ⟨hboolean, hinteger, trivial⟩

theorem decides_readFormat? (hs : s.Plain) : Decides s.room (readFormat? s)
    (Optional "format" (IsTable (some ["boolean", "integer"]) Datum.IsFormat) s.entries) := by
  rw [readFormat?_eq]
  exact hs.decides_within _ _ _ fun inner hinner => decides_readFormat hinner

theorem decides_readRule (hs : s.Plain) : Decides s.room (readRule s) (Datum.IsRule s.entries) := by
  have hread : Decides s.room (readRule s) _ :=
    (decides_readFormat? hs).andThen fun format _ =>
    (hs.decides_text? "name").andThen fun typeName _ =>
    (hs.decides_text? "value_prefix").andThen fun leading _ =>
    (hs.decides_text? "value_suffix").andThen fun trailing _ =>
    (hs.decides_texts? "import").andThen fun imports _ => Ends.ok _
  refine hread.congr ⟨?_, ?_⟩ Iff.rfl
  · rintro ⟨hformat, hname, hleading, htrailing, himports, -⟩
    exact ⟨hformat, hname, hleading, htrailing, himports⟩
  · rintro ⟨hformat, hname, hleading, htrailing, himports⟩
    exact ⟨hformat, hname, hleading, htrailing, himports, trivial⟩

theorem readEach_cons {α : Type} {place : String → String} {known : List String}
    {read : String → Section → Except Failure α} {e : String × Datum}
    {entries : List (String × Datum)} :
    readEach room place known read (e :: entries) =
      (Section.ofDatum room (place e.1) (some known) e.2 >>= read e.1) >>= fun first =>
        readEach room place known read entries >>= fun others => .ok (first :: others) := by
  rw [bind_assoc]
  rfl

/-- Every entry is read as a section. -/
theorem decides_readEach {α : Type} {place : String → String} {known : List String}
    {read : String → Section → Except Failure α} {form : List (String × Datum) → Prop}
    {entries : List (String × Datum)} (hentries : ∀ e ∈ entries, e.2.Plain room)
    (h : ∀ name, ∀ s : Section, s.Plain → Decides s.room (read name s) (form s.entries)) :
    Decides room (readEach room place known read entries)
      (∀ e ∈ entries, IsTable (some known) form e.2) := by
  induction entries with
  | nil => exact (Ends.ok []).congr (by simp) Iff.rfl
  | cons e entries ih =>
    obtain ⟨he, hrest⟩ := List.forall_mem_cons.mp hentries
    rw [readEach_cons]
    have hread := (decides_ofDatum (place e.1) (some known) he (h e.1)).andThen fun first _ =>
      (ih hrest).andThen fun others _ => Ends.ok (first :: others)
    exact hread.congr (by simp) Iff.rfl

theorem decides_readRules (hs : s.Plain) : Decides s.room (readRules s)
    (Optional "type" (IsTables ruleKeys Datum.IsRule) s.entries) := by
  rw [readRules_eq]
  exact hs.decides_within _ _ _ fun types htypes =>
    decides_readEach htypes fun t rule hrule => (decides_readRule hrule).map

theorem decides_readTables {α : Type} {read : String → Section → Except Failure α}
    {form : List (String × Datum) → Prop} (hs : s.Plain) (key : String) (known : List String)
    (h : ∀ name, ∀ s : Section, s.Plain → Decides s.room (read name s) (form s.entries)) :
    Decides s.room (readTables s key known read)
      (Optional key (IsTables known form) s.entries) := by
  rw [readTables_eq]
  exact hs.decides_within _ _ _ fun tables htables => decides_readEach htables h

theorem Plain.lookup_of_texts? (hs : s.Plain) {key : String} {v : Option (List String)}
    (h : s.texts? key = .ok v) : s.entries.lookup key = none ∧ v = none ∨
      ∃ texts, s.entries.lookup key = some (.array (texts.map .text)) ∧ v = some texts := by
  rw [texts?_eq] at h
  refine (lookup_of_readAs? hs.find?_ne_null h).imp_right ?_
  rintro ⟨d, texts, hd, htexts, rfl⟩
  exact ⟨texts, hd.trans (congrArg some (Datum.texts?_eq_some.mp htexts)), rfl⟩

theorem decides_readFormatter (hs : s.Plain) : Decides s.room (readFormatter s)
    (Optional "formatter" (fun d => d.IsTexts ∧ d ≠ .array []) s.entries) := by
  refine (hs.decides_texts? "formatter").step ?_ fun command hcommand => ?_
  · exact fun hformatter d hd => (hformatter d hd).1
  rcases Plain.lookup_of_texts? hs hcommand with ⟨hnone, rfl⟩ | ⟨texts, htexts, rfl⟩
  · exact ends_pure none (by simp [Optional, hnone])
  · cases texts with
    | nil => exact ends_throw s _ rfl (by simp [Optional, htexts])
    | cons t texts =>
      exact ends_pure _ (by simpa [Optional, htexts] using ⟨t :: texts, rfl⟩)

theorem mapError_bind {ε ε' α β : Type} (x : Except ε α) (f : α → Except ε β) (g : ε → ε') :
    (x >>= f).mapError g = x.mapError g >>= fun a => (f a).mapError g := by
  cases x <;> rfl

theorem decides_ofText (slot : Slot) (text : String) :
    Decides room ((Template.ofText slot text).mapError Failure.reported)
      (Template.Wellformed slot.parameters text.toList) := by
  rw [← Template.faultIn?_eq_none_iff]
  unfold Template.ofText
  split
  · next hnone => exact ends_pure _ hnone
  · next fault hfault =>
    exact (Ends.reported ⟨.inr ⟨text, fault, rfl⟩, rfl, rfl, rfl⟩).congr (by simp [hfault]) Iff.rfl

theorem decides_ofText? (slot : Slot) (text : Option String) :
    Decides room ((Template.ofText? slot text).mapError Failure.reported)
      (∀ t ∈ text, Template.Wellformed slot.parameters t.toList) := by
  cases text with
  | none => exact ends_pure none nofun
  | some t =>
    have hread : Decides room (((Template.ofText slot t).mapError Failure.reported).map some) _ :=
      (decides_ofText slot t).map
    rw [Template.ofText?]
    cases hslot : Template.ofText slot t <;> rw [hslot] at hread <;>
      exact hread.congr (by simp) Iff.rfl

theorem decides_check (draft : ProfileDraft) : Decides room (draft.check.mapError Failure.reported)
    (Template.Wellformed Slot.statement.parameters draft.statement.toList ∧
      (∀ t ∈ draft.importLine, Template.Wellformed Slot.importLine.parameters t.toList) ∧
      (∀ t ∈ draft.comment, Template.Wellformed Slot.comment.parameters t.toList) ∧
      (∀ t ∈ draft.intro, Template.Wellformed Slot.intro.parameters t.toList) ∧
      ∀ t ∈ draft.outro, Template.Wellformed Slot.outro.parameters t.toList) := by
  have hplace : ∀ x : Except Diagnostic Profile,
      (x.mapError (·.attachProfile draft.name)).mapError Failure.reported =
        (x.mapError Failure.reported).mapError (Failure.map (·.attachProfile draft.name)) := by
    intro x
    cases x <;> rfl
  rw [ProfileDraft.check, hplace]
  have hreason : ∀ d : Diagnostic, d.OfDocument room →
      (d.attachProfile draft.name).OfDocument room :=
    fun d hd => ⟨hd.fault, hd.code, hd.path, hd.isReportable⟩
  refine Ends.mapError ?_ hreason
  simp only [mapError_bind]
  refine Ends.congr (
    (decides_ofText .statement draft.statement).andThen fun statement _ =>
    (decides_ofText? .importLine draft.importLine).andThen fun importLine _ =>
    (decides_ofText? .comment draft.comment).andThen fun comment _ =>
    (decides_ofText? .intro draft.intro).andThen fun intro _ =>
    (decides_ofText? .outro draft.outro).andThen fun outro _ => Ends.ok _) ?_ Iff.rfl
  simp only [and_true]

theorem required_template_iff {slot : Slot} {key text : String} (h : s.text key = .ok text) :
    Template.Wellformed slot.parameters text.toList ↔
      Required key (Datum.IsTemplate slot) s.entries := by
  simp [Required, text_eq_ok.mp h, Datum.IsTemplate]

theorem optional_template_iff (hs : s.Plain) {slot : Slot} {key : String} {text : Option String}
    (h : s.text? key = .ok text) :
    (∀ t ∈ text, Template.Wellformed slot.parameters t.toList) ↔
      Optional key (Datum.IsTemplate slot) s.entries := by
  rcases Plain.lookup_of_text? hs h with ⟨hnone, rfl⟩ | ⟨t, ht, rfl⟩
  · simp [Optional, hnone]
  · simp [Optional, ht, Datum.IsTemplate]

theorem isText_of_isTemplate {slot : Slot} {d : Datum} (h : d.IsTemplate slot) : d.IsText :=
  h.imp fun _ ht => ht.1

/-- The templates of a profile are read as texts first and checked at the end. -/
theorem decides_readProfile (hs : s.Plain) (name : String) :
    Decides s.room (readProfile name s) (Datum.IsProfile s.entries) := by
  refine Ends.congr (
    (decides_readRules hs).andThen fun types _ =>
    (decides_readFormatter hs).andThen fun formatter _ =>
    (hs.decides_text "file_ext").andThen fun fileExt _ =>
    (hs.decides_text "template").andThen fun statement hstatement =>
    (hs.decides_text? "import").andThen fun importLine himport =>
    (hs.decides_text? "comment").andThen fun comment hcomment =>
    (hs.decides_text? "intro").andThen fun intro hintro =>
    (hs.decides_text? "outro").andThen fun outro houtro =>
    (decides_readFormat? hs).andThen fun defaults _ => (decides_check _).congr
      (and_congr (required_template_iff hstatement)
        (and_congr (optional_template_iff hs himport)
          (and_congr (optional_template_iff hs hcomment)
            (and_congr (optional_template_iff hs hintro) (optional_template_iff hs houtro)))))
      Iff.rfl) ⟨?_, ?_⟩ Iff.rfl
  · rintro ⟨htypes, hformatter, hfileExt, -, -, -, -, -, hformat, hstatement, himport, hcomment,
      hintro, houtro⟩
    exact ⟨htypes, hformatter, hfileExt, hstatement, himport, hcomment, hintro, houtro, hformat⟩
  · rintro ⟨htypes, hformatter, hfileExt, hstatement, himport, hcomment, hintro, houtro, hformat⟩
    have htext : ∀ {slot : Slot} {key : String}, Optional key (Datum.IsTemplate slot) s.entries →
        Optional key Datum.IsText s.entries := fun h d hd => isText_of_isTemplate (h d hd)
    have hfirst : Required "template" Datum.IsText s.entries :=
      hstatement.imp fun d hd => ⟨hd.1, isText_of_isTemplate hd.2⟩
    exact ⟨htypes, hformatter, hfileExt, hfirst, htext himport, htext hcomment, htext hintro,
      htext houtro, hformat, hstatement, himport, hcomment, hintro, houtro⟩

theorem decides_readSections (hs : s.Plain) :
    Decides s.room (readSections s) (Datum.IsConfiguration s.entries) := by
  have hswitches := hs.decides_within "codegen" (some switchKeys) ({} : Switches)
    fun inner hinner => decides_readSwitches hinner
  have htypes := decides_readTables hs "types" ["kind", "bits", "signed"] fun name inner hinner =>
    decides_readType hinner name
  have hprofiles := decides_readTables hs "lang" profileKeys fun name inner hinner =>
    decides_readProfile hinner name
  refine Ends.congr (hswitches.andThen fun switches _ => htypes.andThen fun declared _ =>
    hprofiles.andThen fun profiles _ => Ends.ok _) ⟨?_, ?_⟩ Iff.rfl
  · rintro ⟨hswitches, htypes, hprofiles, -⟩
    exact ⟨hswitches, htypes, hprofiles⟩
  · rintro ⟨hswitches, htypes, hprofiles⟩
    exact ⟨hswitches, htypes, hprofiles, trivial⟩

theorem decides_read {document : Datum} (h : document.Plain room) :
    Decides room (read room document) document.IsOptions := by
  rw [read_eq]
  exact decides_ofDatum _ _ h fun root hroot => decides_readSections hroot

end Options

namespace Datum

/-- A profile with a format and a rule for a type. -/
def portProfile : List (String × Datum) :=
  [("file_ext", .text "h"), ("template", .text "$value"),
    ("format", .table [("integer", .table [("radix", .text " Hex ")])]),
    ("type", .table [("Port", .table [("format", .table
      [("integer", .table [("zero_pad", .integer 4)])])])])]

/-- A document with a profile. -/
def portOptions : Datum :=
  .table [("codegen", .table [("strict_formats", .boolean true)]),
    ("lang", .table [("c", .table portProfile)])]

theorem nullFree_portOptions : portOptions.NullFree := by
  simp [portOptions, portProfile, nullFree_table_iff, nullFree_text, nullFree_integer,
    nullFree_boolean]

theorem short_portOptions : portOptions.Short := by
  have hshow : (4 : Int).natAbs < 10 ^ digitLimit :=
    calc (4 : Int).natAbs < 10 ^ 1 := by decide
      _ ≤ 10 ^ digitLimit := Nat.pow_le_pow_right (by decide) (by decide)
  simpa [portOptions, portProfile, short_table_iff, short_text, short_boolean,
    short_integer_iff] using hshow

theorem isProfile_portProfile : IsProfile portProfile := by
  have hhex : IsIntegerFormat [("radix", .text " Hex ")] :=
    { radix := by
        simp only [Optional, List.lookup_cons_self, Option.some.injEq, forall_eq']
        have hspace : ∀ c ∈ [' '], Text.isSpace c = true := List.forall_mem_singleton.mpr rfl
        exact ⟨_, rfl, "hex", by simp, [' '], ['H', 'e', 'x'], [' '], rfl, hspace, hspace,
          by decide⟩
      groupWidth := by simp [Optional, List.lookup_cons]
      groupSeparator := by simp [Optional, List.lookup_cons]
      zeroPad := by simp [Optional, List.lookup_cons]
      omitMark := by simp [Optional, List.lookup_cons] }
  have hpad : IsIntegerFormat [("zero_pad", .integer 4)] :=
    { radix := by simp [Optional, List.lookup_cons]
      groupWidth := by simp [Optional, List.lookup_cons]
      groupSeparator := by simp [Optional, List.lookup_cons]
      zeroPad := by simp [Optional, IsAtLeast]
      omitMark := by simp [Optional, List.lookup_cons] }
  have hformat : ∀ {key d}, key ∈ Options.integerFormatKeys → IsIntegerFormat [(key, d)] →
      IsTable (some ["boolean", "integer"]) IsFormat
        (.table [("integer", .table [(key, d)])]) := by
    intro key d hkey hinteger
    refine ⟨_, rfl, by simp, by simp [Optional, List.lookup_cons], ?_⟩
    simp only [Optional, List.lookup_cons_self, Option.some.injEq, forall_eq']
    exact ⟨_, rfl, by simpa [Options.integerFormatKeys] using hkey, hinteger⟩
  have hrule : IsRule [("format", .table [("integer", .table [("zero_pad", .integer 4)])])] :=
    { format := by
        simp only [Optional, List.lookup_cons_self, Option.some.injEq, forall_eq']
        exact hformat (by decide) hpad
      typeName := by simp [Optional, List.lookup_cons]
      leading := by simp [Optional, List.lookup_cons]
      trailing := by simp [Optional, List.lookup_cons]
      imports := by simp [Optional, List.lookup_cons] }
  have hvalue : Template.Wellformed Slot.statement.parameters ('$' :: ("value".toList ++ [])) :=
    .bare rfl (by decide) (by simp) .nil
  exact
    { types := by
        simp only [Optional, portProfile, List.lookup_cons]
        rintro _ ⟨⟩
        exact ⟨_, rfl, by simp, by simpa using ⟨_, rfl, by simp, hrule⟩⟩
      formatter := by simp [Optional, portProfile, List.lookup_cons]
      fileExt := ⟨_, rfl, _, rfl⟩
      statement := ⟨_, rfl, _, rfl, hvalue⟩
      importLine := by simp [Optional, portProfile, List.lookup_cons]
      comment := by simp [Optional, portProfile, List.lookup_cons]
      intro := by simp [Optional, portProfile, List.lookup_cons]
      outro := by simp [Optional, portProfile, List.lookup_cons]
      defaults := by
        simp only [Optional, portProfile, List.lookup_cons]
        rintro _ ⟨⟩
        exact hformat (by decide) hhex }

theorem isOptions_portOptions : portOptions.IsOptions := by
  refine ⟨_, rfl, by simp, ?_, by simp [Optional, List.lookup_cons], ?_⟩
  · rintro _ ⟨⟩
    refine ⟨_, rfl, by simp, ?_, ?_, ?_, ?_⟩ <;> simp [Optional, List.lookup_cons, IsSwitch]
  · rintro _ ⟨⟩
    exact ⟨_, rfl, by simp, by simpa using ⟨_, rfl, by simp [portProfile], isProfile_portProfile⟩⟩

end Datum

end SharedConstants
