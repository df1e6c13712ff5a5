import Mathlib.Data.List.Forall2
import SharedConstants.Proofs.Document.Room
import SharedConstants.Proofs.Profile.Rendering

/-!
# Layers of settings

What a profile spells values with is found in the document field by field: under the entry for
the type if this sets the field, under the profile's own format otherwise, and among the system's
settings if neither does. What the entry for the type sets besides does not matter.
-/
namespace SharedConstants

namespace Datum

/-- What stands at a path in a document. -/
def at? : List String → Datum → Option Datum
  | [], d => some d
  | key :: path, .table entries => (entries.lookup key).bind (at? path)
  | _ :: _, _ => none

/-- The setting at a path, if something stands there that counts as one. -/
def setting? {α : Type} (as : Datum → Option α) (path : List String) (document : Datum) :
    Option α :=
  (document.at? path).bind as

/-- The radix that a value names. -/
def radix? (d : Datum) : Option Radix := d.text?.bind Radix.ofText?

/-- The settings for integers at a path. -/
def integerRule (path : List String) (document : Datum) : FormatRule where
  radix := document.setting? radix? (path ++ ["radix"])
  groupWidth := document.setting? (atLeast? 0) (path ++ ["underscores"])
  groupSeparator := document.setting? text? (path ++ ["separator"])
  zeroPad := document.setting? (atLeast? 0) (path ++ ["zero_pad"])
  omitMark := document.setting? switch? (path ++ ["omit_prefix"])

/-- The settings for values at a path. -/
def formatRule (path : List String) (document : Datum) : FormatRule :=
  { document.integerRule (path ++ ["integer"]) with
    boolean := document.setting? Options.booleanTexts? (path ++ ["boolean"]) }

/-- The settings for values of a type at a path. -/
def typeRule (path : List String) (document : Datum) : FormatRule :=
  { document.formatRule (path ++ ["format"]) with
    typeName := document.setting? text? (path ++ ["name"])
    leading := document.setting? text? (path ++ ["value_prefix"])
    trailing := document.setting? text? (path ++ ["value_suffix"])
    imports := document.setting? texts? (path ++ ["import"]) }

variable {α : Type} {as : Datum → Option α} {d : Datum}

theorem at?_cons (key : String) (path : List String) (entries : List (String × Datum)) :
    at? (key :: path) (.table entries) = (entries.lookup key).bind (at? path) := rfl

theorem at?_append (front back : List String) (document : Datum) :
    document.at? (front ++ back) = (document.at? front).bind (at? back) := by
  induction front generalizing document with
  | nil => rfl
  | cons key front ih =>
    cases document with
    | table entries =>
      simp only [List.cons_append, at?_cons, Option.bind_assoc]
      exact congrArg _ (funext ih)
    | _ => rfl

theorem setting?_append (front back : List String) (document : Datum) :
    document.setting? as (front ++ back) = (document.at? front).bind (setting? as back) := by
  simp only [setting?, at?_append, Option.bind_assoc]
  rfl

theorem integerRule_append (front back : List String) (document : Datum) :
    document.integerRule (front ++ back) =
      ((document.at? front).map (integerRule back)).getD {} := by
  cases h : document.at? front <;>
    simp [integerRule, List.append_assoc, setting?_append, h]

theorem formatRule_append (front back : List String) (document : Datum) :
    document.formatRule (front ++ back) = ((document.at? front).map (formatRule back)).getD {} := by
  cases h : document.at? front <;>
    simp [formatRule, List.append_assoc, integerRule_append, setting?_append, h]

theorem setting?_singleton (key : String) (entries : List (String × Datum)) :
    setting? as [key] (.table entries) = (entries.lookup key).bind as := by
  simp only [setting?, at?_cons, Option.bind_assoc]
  rfl

end Datum

namespace Section

variable {α : Type} {s : Section} {key : String} {known : Option (List String)} {absent a : α}
  {read : Section → Except Failure α}

/-- The table of a section. -/
def table (s : Section) : Datum := .table s.entries

theorem within_eq_ok (h : s.within key known absent read = .ok a) :
    s.table.at? [key] = none ∧ absent = a ∨
      ∃ inner : Section, s.table.at? [key] = some inner.table ∧ read inner = .ok a := by
  have hat : s.table.at? [key] = s.find? key :=
    (Datum.at?_cons ..).trans (by rw [find?]; cases s.entries.lookup key <;> rfl)
  rw [hat]
  unfold within at h
  split at h
  · next hfind => exact .inl ⟨hfind, Except.ok.inj h⟩
  · next d hfind =>
    obtain ⟨inner, hinner, hread⟩ := bind_eq_ok.mp h
    obtain ⟨rfl, -, -⟩ := ofDatum_eq_ok.mp hinner
    exact .inr ⟨inner, hfind, hread⟩

/-- The rule inside a section is that of the section inside. -/
theorem rule_of_within {rule : List String → Datum → FormatRule}
    (happend : ∀ front back document,
      rule (front ++ back) document = ((document.at? front).map (rule back)).getD {})
    {read : Section → Except Failure FormatRule} {r : FormatRule}
    (hread : ∀ {inner r}, read inner = .ok r → rule [] inner.table = r)
    (h : s.within key known {} read = .ok r) : rule [key] s.table = r := by
  rw [← List.append_nil [key], happend]
  rcases within_eq_ok h with ⟨hnone, rfl⟩ | ⟨inner, hinner, hr⟩
  · rw [hnone, Option.map_none, Option.getD_none]
  · rw [hinner, Option.map_some, Option.getD_some, hread hr]

theorem setting?_of_readAs? {as : Datum → Option α} {fault : Datum → EntryFault} {v : Option α}
    (hnull : as .null = none) (h : s.readAs? key as fault = .ok v) :
    s.table.setting? as [key] = v :=
  (Datum.setting?_singleton ..).trans (readAs?_eq_ok hnull h)

theorem setting?_of_text? {v : Option String} (h : s.text? key = .ok v) :
    s.table.setting? Datum.text? [key] = v :=
  setting?_of_readAs? rfl (text?_eq s key ▸ h)

theorem setting?_of_switch? {v : Option Bool} (h : s.switch? key = .ok v) :
    s.table.setting? Datum.switch? [key] = v :=
  setting?_of_readAs? rfl (switch?_eq s key ▸ h)

/-- A switch is on if the document sets it so. -/
theorem setting?_of_switchOr {v : Option Bool} (h : s.switchOr key false = .ok v) :
    v = some true ↔ s.table.setting? Datum.switch? [key] = some true := by
  unfold switchOr at h
  split at h
  · next hfind =>
    rw [find?] at hfind
    obtain rfl := Except.ok.inj h
    simp [table, Datum.setting?_singleton, hfind]
  · rw [setting?_of_switch? h]

theorem setting?_of_integer? {least : Int} {v : Option Int} (h : s.integer? key least = .ok v) :
    s.table.setting? (Datum.atLeast? least) [key] = v :=
  setting?_of_readAs? rfl (integer?_eq s key least ▸ h)

theorem setting?_of_texts? {v : Option (List String)} (h : s.texts? key = .ok v) :
    s.table.setting? Datum.texts? [key] = v :=
  setting?_of_readAs? rfl (texts?_eq s key ▸ h)

end Section

namespace Options

variable {s : Section}

theorem setting?_of_readRadix {v : Option Radix} (h : readRadix s = .ok v) :
    s.table.setting? Datum.radix? ["radix"] = v := by
  refine (Datum.setting?_singleton ..).trans ?_
  unfold readRadix at h
  split at h
  · next hfind =>
    rw [Section.find?] at hfind
    simpa [hfind] using h
  · next d hfind =>
    obtain ⟨name, hname, hradix⟩ := bind_eq_ok.mp h
    rw [Section.text_eq_ok.mp (inWords_eq_ok.mp hname), Option.bind_some, Datum.radix?,
      Datum.text?, Option.bind_some]
    split at hradix
    · next radix hfound => exact hfound.trans (Except.ok.inj hradix)
    · cases hradix

theorem setting?_of_readBoolean {v : Option (String × String)} (h : readBoolean s = .ok v) :
    s.table.setting? booleanTexts? ["boolean"] = v :=
  Section.setting?_of_readAs? rfl (Section.readBoolean_eq s ▸ h)

theorem integerRule_of_read {r : FormatRule} (h : readIntegerFormat s = .ok r) :
    s.table.integerRule [] = r := by
  simp only [readIntegerFormat, bind_eq_ok] at h
  obtain ⟨radix, hradix, width, hwidth, separator, hseparator, pad, hpad, mark, hmark, ⟨⟩⟩ := h
  simp [Datum.integerRule, setting?_of_readRadix hradix, Section.setting?_of_integer? hwidth,
    Section.setting?_of_text? hseparator, Section.setting?_of_integer? hpad,
    Section.setting?_of_switch? hmark]

theorem formatRule_of_read {r : FormatRule} (h : readFormat s = .ok r) :
    s.table.formatRule [] = r := by
  rw [readFormat_eq] at h
  simp only [bind_eq_ok] at h
  obtain ⟨boolean, hboolean, integer, hinteger, ⟨⟩⟩ := h
  have hrule : s.table.integerRule ["integer"] = integer :=
    Section.rule_of_within Datum.integerRule_append integerRule_of_read hinteger
  simp [Datum.formatRule, hrule, setting?_of_readBoolean hboolean]

theorem formatRule_of_read? {r : FormatRule} (h : readFormat? s = .ok r) :
    s.table.formatRule ["format"] = r := by
  rw [readFormat?_eq] at h
  exact Section.rule_of_within Datum.formatRule_append formatRule_of_read h

theorem typeRule_of_read {r : FormatRule} (h : readRule s = .ok r) : s.table.typeRule [] = r := by
  simp only [readRule, bind_eq_ok] at h
  obtain ⟨format, hformat, typeName, htypeName, leading, hleading, trailing, htrailing, imports,
    himports, ⟨⟩⟩ := h
  simp [Datum.typeRule, formatRule_of_read? hformat, Section.setting?_of_text? htypeName,
    Section.setting?_of_text? hleading, Section.setting?_of_text? htrailing,
    Section.setting?_of_texts? himports]

/-- What is found under a name was read from the entry of this name. -/
theorem find?_of_readEach {α : Type} {room : Nat} {place : String → String} {known : List String}
    {read : String → Section → Except Failure α} (name : α → String)
    (hname : ∀ {key s a}, read key s = .ok a → name a = key) {entries : List (String × Datum)}
    {results : List α} (h : readEach room place known read entries = .ok results)
    (key : String) :
    entries.lookup key = none ∧ results.find? (name · == key) = none ∨
      ∃ (s : Section) (a : α), entries.lookup key = some s.table ∧
        results.find? (name · == key) = some a ∧ read key s = .ok a := by
  induction entries generalizing results with
  | nil =>
    obtain rfl := Except.ok.inj h
    exact .inl ⟨rfl, rfl⟩
  | cons e entries ih =>
    obtain ⟨k, d⟩ := e
    simp only [readEach, bind_eq_ok] at h
    obtain ⟨s, hs, first, hfirst, others, hothers, ⟨⟩⟩ := h
    obtain ⟨rfl, -, -⟩ := Section.ofDatum_eq_ok.mp hs
    obtain rfl := hname hfirst
    by_cases hkey : name first = key
    · subst hkey
      exact .inr ⟨s, first, List.lookup_cons_self, List.find?_cons_of_pos (beq_self_eq_true _),
        hfirst⟩
    · rw [List.find?_cons_of_neg (by simpa using hkey), List.lookup_cons,
        beq_eq_false_iff_ne.mpr (Ne.symm hkey)]
      exact ih hothers

/-- What is found under a name was read from the table at a path. -/
theorem find?_of_within {α : Type} {place : Section → String → String} {key : String}
    {known : List String} {read : String → Section → Except Failure α} (name : α → String)
    (hname : ∀ {key s a}, read key s = .ok a → name a = key) {results : List α}
    (h : s.within key none []
      (fun inner => readEach inner.room (place inner) known read inner.entries) = .ok results)
    (k : String) :
    s.table.at? [key, k] = none ∧ results.find? (name · == k) = none ∨
      ∃ (inner : Section) (a : α), s.table.at? [key, k] = some inner.table ∧
        results.find? (name · == k) = some a ∧ read k inner = .ok a := by
  have hat : s.table.at? [key, k] = (s.table.at? [key]).bind (Datum.at? [k]) :=
    Datum.at?_append [key] [k] s.table
  rw [hat]
  rcases Section.within_eq_ok h with ⟨hnone, rfl⟩ | ⟨inner, hinner, hread⟩
  · rw [hnone]
    exact .inl ⟨rfl, rfl⟩
  · have hlookup : inner.table.at? [k] = inner.entries.lookup k :=
      (Datum.at?_cons ..).trans (by cases inner.entries.lookup k <;> rfl)
    rw [hinner, Option.bind_some, hlookup]
    exact find?_of_readEach name hname hread k

theorem lookup_eq_find? {α : Type} (key : String) (entries : List (String × α)) :
    entries.lookup key = (entries.find? (·.1 == key)).map (·.2) := by
  induction entries with
  | nil => rfl
  | cons e entries ih =>
    obtain ⟨k, a⟩ := e
    by_cases hkey : k = key
    · subst hkey
      simp
    · rw [List.find?_cons_of_neg (by simpa using hkey), ← ih]
      simp [List.lookup_cons, beq_eq_false_iff_ne.mpr (Ne.symm hkey)]

/-- The rules of a profile for types are those of the entries for them. -/
theorem lookup_of_readRules {types : List (String × FormatRule)} (h : readRules s = .ok types)
    (typeName : String) :
    types.lookup typeName = (s.table.at? ["type", typeName]).map (Datum.typeRule []) := by
  rw [readRules_eq] at h
  have hname : ∀ {key s} {rule : String × FormatRule},
      (readRule s).map (key, ·) = .ok rule → rule.1 = key := by
    intro key s rule hrule
    obtain ⟨r, -, rfl⟩ := map_eq_ok.mp hrule
    rfl
  rw [lookup_eq_find?]
  rcases find?_of_within Prod.fst hname h typeName with
    ⟨hnone, hfind⟩ | ⟨inner, rule, hinner, hfind, hrule⟩
  · rw [hnone, hfind]
    rfl
  · obtain ⟨r, hr, rfl⟩ := map_eq_ok.mp hrule
    rw [hinner, hfind, Option.map_some, Option.map_some, typeRule_of_read hr]

theorem fields_of_check {draft : ProfileDraft} {p : Profile} (h : draft.check = .ok p) :
    p.name = draft.name ∧ p.defaults = draft.defaults ∧ p.types = draft.types := by
  rw [ProfileDraft.check] at h
  have hchecked := eq_ok_of_mapError h
  simp only [bind_eq_ok] at hchecked
  obtain ⟨statement, -, importLine, -, comment, -, intro, -, outro, -, ⟨⟩⟩ := hchecked
  exact ⟨rfl, rfl, rfl⟩

/-- The rules of a profile are those that its table spells. -/
structure RulesOf (d : Datum) (p : Profile) : Prop where
  defaults : p.defaults = d.formatRule ["format"]
  override? : ∀ t, p.override? t = (d.at? ["type", t]).map (Datum.typeRule [])

theorem rulesOf_of_readProfile {name : String} {p : Profile} (h : readProfile name s = .ok p) :
    p.name = name ∧ RulesOf s.table p := by
  simp only [readProfile, bind_eq_ok] at h
  obtain ⟨types, htypes, formatter, -, fileExt, -, statement, -, importLine, -, comment, -, intro,
    -, outro, -, defaults, hdefaults, hcheck⟩ := h
  obtain ⟨hname, hrule, htypesEq⟩ := fields_of_check (eq_ok_of_mapError hcheck)
  refine ⟨hname, ?_, fun t => ?_⟩
  · rw [hrule, formatRule_of_read? hdefaults]
  · rw [Profile.override?, htypesEq, lookup_of_readRules htypes]

/-- The profiles and the coverage that a document asks for. -/
theorem profiles_of_ofDocument {room : Nat} {path : Option String} {document : Datum}
    {o : Options} (h : Options.ofDocument room path document = .ok o) :
    (∀ name, document.at? ["lang", name] = none ∧ o.profiles.find? name = none ∨
      ∃ d p, document.at? ["lang", name] = some d ∧ o.profiles.find? name = some p ∧
        p.name = name ∧ RulesOf d p) ∧
    (o.profiles.coverage = true ↔
      document.setting? Datum.switch? ["codegen", "strict_formats"] = some true) := by
  have hread : read room document = .ok o := eq_ok_of_mapError h
  obtain ⟨root, hroot, hsections⟩ := bind_eq_ok.mp (read_eq room document ▸ hread)
  obtain ⟨rfl, -, -⟩ := Section.ofDatum_eq_ok.mp hroot
  simp only [readSections, bind_eq_ok] at hsections
  obtain ⟨switches, hswitches, declared, -, profiles, hprofiles, ⟨⟩⟩ := hsections
  rw [readTables_eq] at hprofiles
  refine ⟨fun name => ?_, ?_⟩
  · refine (find?_of_within Profile.name (fun h => (rulesOf_of_readProfile h).1) hprofiles
      name).imp_right ?_
    rintro ⟨inner, p, hinner, hfind, hp⟩
    exact ⟨_, p, hinner, hfind, rulesOf_of_readProfile hp⟩
  · have hsetting : root.table.setting? Datum.switch? ["codegen", "strict_formats"] =
        (root.table.at? ["codegen"]).bind (Datum.setting? Datum.switch? ["strict_formats"]) :=
      Datum.setting?_append ["codegen"] ["strict_formats"] root.table
    rw [beq_iff_eq, show Datum.table root.entries = root.table from rfl, hsetting]
    rcases Section.within_eq_ok hswitches with ⟨hnone, rfl⟩ | ⟨inner, hinner, hread⟩
    · simp [hnone]
    · simp only [readSwitches, bind_eq_ok] at hread
      obtain ⟨enabled, -, comments, -, types, -, formats, hformats, ⟨⟩⟩ := hread
      rw [hinner, Option.bind_some, Section.setting?_of_switchOr hformats]

/-- What the entry for a type sets under a profile, if there is a type. -/
def typeSetting {α : Type} (document : Datum) (profile : String) (typeName : Option String)
    (as : Datum → Option α) (path : List String) : Option α :=
  typeName.bind fun t => document.setting? as (["lang", profile, "type", t] ++ path)

/-- What the entry for a type sets, or what the profile's format sets if it does not. -/
def layeredSetting {α : Type} (document : Datum) (profile : String) (typeName : Option String)
    (as : Datum → Option α) (path : List String) : Option α :=
  typeSetting document profile typeName as (["format"] ++ path) <|>
    document.setting? as (["lang", profile, "format"] ++ path)

end Options

open Options (typeSetting layeredSetting)

/-- Every setting is that of the entry for the type, of the profile or of the system, the first
of these that sets it. The type is spelled by its name under the profile, or as it is. -/
structure IsLayered (document : Datum) (profile : String) (typeName : Option String)
    (f : EffectiveFormat) : Prop where
  typeToken : f.typeToken = (typeSetting document profile typeName Datum.text? ["name"] <|>
    typeName).getD ""
  radix : f.settings.radix = (layeredSetting document profile typeName Datum.radix?
    ["integer", "radix"]).getD .decimal
  groupWidth : f.settings.groupWidth = (layeredSetting document profile typeName
    (Datum.atLeast? 0) ["integer", "underscores"]).getD 0
  groupSeparator : f.settings.groupSeparator = (layeredSetting document profile typeName
    Datum.text? ["integer", "separator"]).getD "_"
  zeroPad : f.settings.zeroPad = (layeredSetting document profile typeName
    (Datum.atLeast? 0) ["integer", "zero_pad"]).getD 0
  omitMark : f.settings.omitMark = (layeredSetting document profile typeName Datum.switch?
    ["integer", "omit_prefix"]).getD false
  boolean : f.settings.boolean = (layeredSetting document profile typeName Options.booleanTexts?
    ["boolean"]).getD ("true", "false")
  leading : f.settings.leading =
    (typeSetting document profile typeName Datum.text? ["value_prefix"]).getD ""
  trailing : f.settings.trailing =
    (typeSetting document profile typeName Datum.text? ["value_suffix"]).getD ""
  imports : f.settings.imports =
    (typeSetting document profile typeName Datum.texts? ["import"]).getD []

/-- Nothing is left unset. -/
def FormatRule.IsTotal (r : FormatRule) : Prop :=
  r.typeName.isSome ∧ r.radix.isSome ∧ r.groupWidth.isSome ∧ r.groupSeparator.isSome ∧
    r.zeroPad.isSome ∧ r.omitMark.isSome ∧ r.boolean.isSome ∧ r.leading.isSome ∧
    r.trailing.isSome ∧ r.imports.isSome

theorem FormatRule.IsTotal.merged {r : FormatRule} (h : r.IsTotal) (lower : FormatRule) :
    lower.merged r = r := by
  obtain ⟨h₁, h₂, h₃, h₄, h₅, h₆, h₇, h₈, h₉, h₁₀⟩ := h
  cases r
  simp_all [FormatRule.merged, Option.or_of_isSome]

theorem isLayered_formatOf {document d : Datum} {p : Profile}
    (hd : document.at? ["lang", p.name] = some d) (h : Options.RulesOf d p)
    (typeName : Option String) : IsLayered document p.name typeName (p.formatOf typeName) := by
  have hprofile : ∀ {α : Type} (as : Datum → Option α) (path : List String),
      document.setting? as (["lang", p.name] ++ path) = d.setting? as path := by
    intro α as path
    rw [Datum.setting?_append, hd, Option.bind_some]
  have htype : ∀ {α : Type} (as : Datum → Option α) (path : List String),
      typeSetting document p.name typeName as path =
        (typeName.bind fun t => d.at? ["type", t]).bind (Datum.setting? as path) := by
    intro α as path
    cases typeName with
    | none => rfl
    | some t => exact (hprofile as (["type", t] ++ path)).trans (Datum.setting?_append ..)
  have hover : (typeName.bind p.override?) =
      (typeName.bind fun t => d.at? ["type", t]).map (Datum.typeRule []) := by
    cases typeName with
    | none => rfl
    | some t => exact h.override? t
  have hlayers : ∀ {α : Type} (as : Datum → Option α) (path : List String),
      layeredSetting document p.name typeName as path =
        ((typeName.bind fun t => d.at? ["type", t]).bind
            (Datum.setting? as (["format"] ++ path)) <|>
          d.setting? as (["format"] ++ path)) := by
    intro α as path
    rw [layeredSetting, htype]
    exact congrArg _ (funext fun _ => hprofile as (["format"] ++ path))
  cases hentry : typeName.bind fun t => d.at? ["type", t] with
  | none =>
    constructor <;>
      simp [htype, hlayers, hover, hentry, h.defaults, Profile.formatOf, Profile.settled,
        Profile.layered, FormatRule.settle, FormatRule.merged, FormatRule.system,
        FormatRule.ofSettings, Datum.formatRule, Datum.integerRule]
  | some e =>
    constructor <;>
      simp [htype, hlayers, hover, hentry, h.defaults, Profile.formatOf, Profile.settled,
        Profile.layered, FormatRule.settle, FormatRule.merged, FormatRule.system,
        FormatRule.ofSettings, Datum.typeRule, Datum.formatRule, Datum.integerRule]

/-- A settled format is that of its layers, which leave nothing unset but the type's name. -/
theorem toRule_formatOf (p : Profile) (typeName : Option String) :
    (p.formatOf typeName).toRule.IsTotal ∧ (p.formatOf typeName).toRule =
      { p.layered ((typeName.bind p.override?).getD {}) with
        typeName := some (p.formatOf typeName).typeToken } := by
  have hsome : ∀ {α : Type} (upper lower : Option α) (system : α),
      some ((upper <|> (lower <|> some system)).getD system) =
        (upper <|> (lower <|> some system)) := by
    intro α upper lower system
    cases upper <;> cases lower <;> rfl
  constructor
  · simp [FormatRule.IsTotal, EffectiveFormat.toRule, FormatRule.ofSettings]
  · simp only [EffectiveFormat.toRule, Profile.formatOf, Profile.settled, Profile.layered,
      FormatRule.ofSettings, FormatRule.settle, FormatRule.merged, FormatRule.system, hsome]

/-- A profile of an accepted document spells the values of a type by the settings of three layers,
field by field, and leaves nothing unset. It has no format only for a type without an entry of its
own, where the document asks for one. -/
theorem effectiveFormat_layers {room : Nat} {path : Option String} {document : Datum}
    {o : Options} (h : Options.ofDocument room path document = .ok o) {profile : String}
    (hprofile : (document.at? ["lang", profile]).isSome) (typeName : Option String) :
    ∃ p, o.profiles.get profile = .ok p ∧
      (∀ f, p.effectiveFormat o.profiles.coverage typeName = .ok f →
        IsLayered document profile typeName f ∧ f.toRule.IsTotal ∧
        f.toRule = { p.layered ((typeName.bind p.override?).getD {}) with
          typeName := some f.typeToken } ∧
        FormatRule.system.merged f.toRule = f.toRule) ∧
      ∀ d, p.effectiveFormat o.profiles.coverage typeName = .error d ↔
        document.setting? Datum.switch? ["codegen", "strict_formats"] = some true ∧
        ∃ t, typeName = some t ∧ document.at? ["lang", profile, "type", t] = none ∧
          d = { fault := .unknownTypeInProfile t, profile := some profile } := by
  obtain ⟨hprofiles, hcoverage⟩ := Options.profiles_of_ofDocument h
  rcases hprofiles profile with ⟨hnone, -⟩ | ⟨d, p, hd, hfind, rfl, hrules⟩
  · simp [hnone] at hprofile
  · refine ⟨p, by rw [ProfileRegistry.get, hfind], fun f hf => ?_, fun e => ?_⟩
    · obtain ⟨-, rfl⟩ := Profile.effectiveFormat_ok_iff.mp hf
      obtain ⟨htotal, heq⟩ := toRule_formatOf p typeName
      exact ⟨isLayered_formatOf hd hrules typeName, htotal, heq, htotal.merged _⟩
    · have hoverride : ∀ t, p.override? t = none ↔
          document.at? ["lang", p.name, "type", t] = none := by
        intro t
        have hat : document.at? (["lang", p.name] ++ ["type", t]) = d.at? ["type", t] := by
          rw [Datum.at?_append, hd, Option.bind_some]
        rw [hrules.override?, Option.map_eq_none_iff]
        exact (congrArg (· = none) hat).symm.to_iff
      rw [Profile.effectiveFormat_error_iff, hcoverage]
      simp only [hoverride]

/-- A profile's radix is kept where the entry for the type sets only the padding. -/
theorem effectiveFormat_portOptions : ∃ o p f,
    Options.ofDocument 985 none Datum.portOptions = .ok o ∧ o.profiles.get "c" = .ok p ∧
      p.effectiveFormat o.profiles.coverage (some "Port") = .ok f ∧
      f.settings.radix = .hexadecimal ∧ f.settings.zeroPad = 4 ∧ f.typeToken = "Port" := by
  obtain ⟨o, ho⟩ := (Options.exists_ofDocument_iff 985 none Datum.nullFree_portOptions
    Datum.short_portOptions).mpr Datum.isOptions_portOptions
  have hentry : (Datum.portOptions.at? ["lang", "c"]).isSome := rfl
  obtain ⟨p, hp, hok, herror⟩ := effectiveFormat_layers ho hentry (some "Port")
  cases hf : p.effectiveFormat o.profiles.coverage (some "Port") with
  | error d =>
    obtain ⟨-, t, ⟨⟩, hnone, -⟩ := (herror d).mp hf
    cases hnone
  | ok f =>
    have hlayers := (hok f hf).1
    exact ⟨o, p, f, ho, hp, hf, hlayers.radix.trans (by decide), hlayers.zeroPad.trans (by decide),
      hlayers.typeToken.trans (by decide)⟩

end SharedConstants
