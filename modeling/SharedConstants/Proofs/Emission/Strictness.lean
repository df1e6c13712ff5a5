import SharedConstants.Proofs.Constant.Stage
import SharedConstants.Proofs.Emission.Layout

/-!
# Strict modes

Strict typing rejects constants of types that are not known, and required coverage those of types
that the profile has no rule for. Besides that the modes change nothing: what is resolved and
emitted in a stricter mode is resolved and emitted alike in a more lenient one.
-/
namespace SharedConstants

open Constant (byOrdinal)

namespace TypeRegistry

variable {types : List SemanticType} {strict : Bool} {ops : OperatorRegistry}
  {constants : List Constant}

/-- A type of a name is among the types. -/
def Knows (types : List SemanticType) (name : String) : Prop := ∃ t ∈ types, t.name = name

theorem knows_append {types' : List SemanticType} {name : String} :
    Knows (types ++ types') name ↔ Knows types name ∨ Knows types' name := by
  simp [Knows, or_and_right, exists_or]

/-- A declaration makes its own name known and keeps the others so. -/
theorem knows_declare {t : SemanticType} {name : String} :
    Knows (declare types t) name ↔ Knows types name ∨ t.name = name := by
  unfold declare
  split
  · next htaken =>
    obtain ⟨u, hu, hname⟩ : ∃ u ∈ types, u.name = t.name := by simpa using htaken
    constructor
    · rintro ⟨w, hw, rfl⟩
      obtain ⟨v, hv, rfl⟩ := List.mem_map.mp hw
      split
      · exact .inr rfl
      · exact .inl ⟨v, hv, rfl⟩
    · rintro (⟨v, hv, rfl⟩ | rfl)
      · refine ⟨_, List.mem_map_of_mem hv, ?_⟩
        split
        · next heq => exact heq.symm
        · rfl
      · exact ⟨t, List.mem_map.mpr ⟨u, hu, if_pos hname⟩, rfl⟩
  · rw [knows_append]
    simp [Knows]

theorem knows_foldl_declare {declared : List SemanticType} {name : String} :
    Knows (declared.foldl declare types) name ↔ Knows (types ++ declared) name := by
  induction declared generalizing types with
  | nil => simp
  | cons t declared ih =>
    rw [List.foldl_cons, ih, knows_append, knows_declare, ← List.singleton_append,
      ← List.append_assoc, knows_append, knows_append]
    simp [Knows]

theorem lookup_eq_ok {name : String} {t : SemanticType} :
    (TypeRegistry.mk types strict).lookup name = .ok t ↔
      (TypeRegistry.mk types false).lookup name = .ok t ∧ (strict = true → Knows types name) := by
  simp only [lookup, find?]
  cases hfind : types.find? (·.name == name) with
  | some u =>
    have hknown : Knows types name :=
      ⟨u, List.mem_of_find?_eq_some hfind, by simpa using List.find?_some hfind⟩
    simp [hknown]
  | none =>
    have hunknown : ¬ Knows types name := by simpa [Knows] using hfind
    cases strict <;> simp [hunknown]

theorem lookupType_eq_ok {c : Constant} {type : Option SemanticType} :
    c.lookupType ⟨types, strict⟩ = .ok type ↔ c.lookupType ⟨types, false⟩ = .ok type ∧
      (strict = true → ∀ name ∈ c.typeName, Knows types name) := by
  cases htype : c.typeName with
  | none => simp [Constant.lookupType, htype]
  | some name =>
    simp only [Constant.lookupType, htype]
    cases hlookup : (TypeRegistry.mk types strict).lookup name with
    | ok t =>
      obtain ⟨hlenient, hknown⟩ := lookup_eq_ok.mp hlookup
      simpa [hlenient] using fun _ => hknown
    | error d =>
      cases hlenient : (TypeRegistry.mk types false).lookup name with
      | error d' => simp
      | ok t =>
        have hnot : ¬ (strict = true → Knows types name) := fun hknown => by
          simp [lookup_eq_ok.mpr ⟨hlenient, hknown⟩] at hlookup
        simp only [Option.mem_def, Option.some.injEq, forall_eq', hnot, and_false, reduceCtorEq]

theorem lookupTypes_eq_ok {registry : TypeRegistry} {typed : List Typed} :
    lookupTypes registry constants = .ok typed ↔ typed.map Prod.fst = constants ∧
      ∀ entry ∈ typed, entry.1.lookupType registry = .ok entry.2 := by
  refine ⟨lookupTypes_ok, ?_⟩
  rintro ⟨rfl, htypes⟩
  induction typed with
  | nil => rfl
  | cons entry typed ih =>
    obtain ⟨hentry, htyped⟩ := List.forall_mem_cons.mp htypes
    rw [List.map_cons, lookupTypes]
    simp only [hentry, ih htyped]

/-- Strict typing finds the same types, if it finds any. -/
theorem lookupTypes_strict {typed : List Typed} :
    lookupTypes ⟨types, strict⟩ constants = .ok typed ↔
      lookupTypes ⟨types, false⟩ constants = .ok typed ∧
        (strict = true → ∀ c ∈ constants, ∀ name ∈ c.typeName, Knows types name) := by
  simp only [lookupTypes_eq_ok, @lookupType_eq_ok _ strict, forall_and, and_assoc]
  refine and_congr_right ?_
  rintro rfl
  refine and_congr_right fun _ => ?_
  simp only [List.forall_mem_map]
  exact ⟨fun h hstrict entry hentry => h entry hentry hstrict,
    fun h entry hentry hstrict => h hstrict entry hentry⟩

theorem resolve_eq_ok {registry : TypeRegistry} {r : Resolved} :
    resolve registry ops constants = .ok r ↔ ∃ typed order,
      Prepares registry constants typed order ∧ ∃ values,
        evaluateInOrder ops typed order [] = .ok values ∧ ⟨assemble typed values, order⟩ = r := by
  constructor
  · intro h
    obtain ⟨typed, order, hprepares⟩ := exists_prepares h
    exact ⟨typed, order, hprepares, map_eq_ok.mp (hprepares.resolve_eq ▸ h)⟩
  · rintro ⟨typed, order, hprepares, hvalues⟩
    rw [hprepares.resolve_eq]
    exact map_eq_ok.mpr hvalues

/-- Strict typing resolves constants as lenient typing does, if it knows the types of all. -/
theorem resolve_strict {r : Resolved} :
    resolve ⟨types, strict⟩ ops constants = .ok r ↔
      resolve ⟨types, false⟩ ops constants = .ok r ∧
        (strict = true → ∀ c ∈ constants, ∀ name ∈ c.typeName, Knows types name) := by
  have hsorted : (∀ c ∈ byOrdinal constants, ∀ name ∈ c.typeName, Knows types name) ↔
      ∀ c ∈ constants, ∀ name ∈ c.typeName, Knows types name := by
    simp only [(Constant.byOrdinal_isStableSort constants).perm.mem_iff]
  simp only [resolve_eq_ok, Prepares, @lookupTypes_strict _ strict, hsorted]
  constructor
  · rintro ⟨typed, order, ⟨graph, hgraph, hvalid, hcycle, ⟨htyped, hknown⟩, horder⟩, hvalues⟩
    exact ⟨⟨typed, order, ⟨graph, hgraph, hvalid, hcycle, htyped, horder⟩, hvalues⟩, hknown⟩
  · rintro ⟨⟨typed, order, ⟨graph, hgraph, hvalid, hcycle, htyped, horder⟩, hvalues⟩, hknown⟩
    exact ⟨typed, order, ⟨graph, hgraph, hvalid, hcycle, ⟨htyped, hknown⟩, horder⟩, hvalues⟩

end TypeRegistry

theorem Profile.override?_eq_none {p : Profile} {name : String} :
    p.override? name = none ↔ name ∉ p.types.map Prod.fst := by
  rw [override?, List.lookup_eq_none_iff]
  constructor
  · intro h hname
    obtain ⟨entry, hentry, rfl⟩ := List.mem_map.mp hname
    simpa using h entry hentry
  · intro h entry hentry
    simpa using fun heq : name = entry.1 => h (heq ▸ List.mem_map_of_mem hentry)

namespace ProfileRegistry

variable {profiles : List Profile} {coverage : Bool} {name : String} {p : Profile}

theorem duplicate?_eq_none {seen : List String} : ofProfiles.duplicate? seen profiles = none ↔
    (profiles.map Profile.name).Nodup ∧ ∀ p ∈ profiles, p.name ∉ seen := by
  induction profiles generalizing seen with
  | nil => simp [ofProfiles.duplicate?]
  | cons p rest ih =>
    simp only [ofProfiles.duplicate?]
    split
    · next hseen => simp [List.contains_iff_mem.mp hseen]
    · next hfresh =>
      have hfresh : p.name ∉ seen := fun hmem => hfresh (List.contains_iff_mem.mpr hmem)
      rw [ih, List.map_cons, List.nodup_cons, List.forall_mem_cons]
      simp only [List.mem_cons, not_or, List.mem_map, not_exists, not_and]
      constructor
      · rintro ⟨hnodup, hrest⟩
        exact ⟨⟨fun q hq => (hrest q hq).1, hnodup⟩, hfresh, fun q hq => (hrest q hq).2⟩
      · rintro ⟨⟨hne, hnodup⟩, -, hrest⟩
        exact ⟨hnodup, fun q hq => ⟨hne q hq, hrest q hq⟩⟩

theorem ofProfiles_eq_ok {r : ProfileRegistry} : ofProfiles profiles coverage = .ok r ↔
    (profiles.map Profile.name).Nodup ∧ r = ⟨profiles, coverage⟩ := by
  have hnone := @duplicate?_eq_none profiles []
  simp only [List.not_mem_nil, not_false_eq_true, implies_true, and_true] at hnone
  rw [← hnone, ofProfiles]
  cases ofProfiles.duplicate? [] profiles <;> simp [eq_comm]

/-- Among profiles of distinct names each is found by its name. -/
theorem get_eq_ok (hnodup : (profiles.map Profile.name).Nodup) :
    (ProfileRegistry.mk profiles coverage).get name = .ok p ↔ p ∈ profiles ∧ p.name = name := by
  simp only [get, find?]
  cases hfind : profiles.find? (·.name == name) with
  | none =>
    have hnone : ∀ q ∈ profiles, q.name ≠ name := by simpa using hfind
    simpa using fun hp => hnone p hp
  | some q =>
    have hq := List.mem_of_find?_eq_some hfind
    have hname : q.name = name := by simpa using List.find?_some hfind
    simp only [Except.ok.injEq]
    constructor
    · rintro rfl
      exact ⟨hq, hname⟩
    · rintro ⟨hp, rfl⟩
      exact List.inj_on_of_nodup_map hnodup hq hp hname

/-- With coverage required a profile emits what it emits without, if it has rules for the types
of all constants. -/
theorem emit_coverage {comments : Bool} {resolved : Resolved} {a : Artifact} :
    (ProfileRegistry.mk profiles coverage).emit comments resolved name = .ok a ↔
      (ProfileRegistry.mk profiles false).emit comments resolved name = .ok a ∧
        ∀ p, (ProfileRegistry.mk profiles false).get name = .ok p →
          Emission.Covered coverage p resolved.constants := by
  have hget : (ProfileRegistry.mk profiles coverage).get name =
      (ProfileRegistry.mk profiles false).get name := rfl
  have hlenient : ∀ p, Emission.Covered false p resolved.constants := fun p => nofun
  simp only [emit_eq_ok, Emission.render_eq_ok, hget, hlenient, true_and]
  constructor
  · rintro ⟨p, text, hp, ⟨hcovered, hrest⟩, rfl⟩
    refine ⟨⟨p, text, hp, hrest, rfl⟩, fun q hq => ?_⟩
    obtain rfl := Except.ok.inj (hp.symm.trans hq)
    exact hcovered
  · rintro ⟨⟨p, text, hp, hrest, rfl⟩, hcovered⟩
    exact ⟨p, text, hp, ⟨hcovered p hp, hrest⟩, rfl⟩

end ProfileRegistry

/-- What is to be emitted, whatever the modes are. -/
structure Request where
  declared : List SemanticType
  operators : OperatorRegistry := .builtin
  constants : List Constant
  profiles : List Profile
  profile : String
  comments : Bool := false

namespace Request

variable {q : Request}

/-- The constants resolve, and the profile emits them, in modes that may be strict. -/
def Yields (q : Request) (strictTypes strictFormats : Bool) (resolved : Resolved)
    (a : Artifact) : Prop :=
  resolve (.ofDeclared q.declared strictTypes) q.operators q.constants = .ok resolved ∧
    ∃ r, ProfileRegistry.ofProfiles q.profiles strictFormats = .ok r ∧
      r.emit q.comments resolved q.profile = .ok a

/-- A constant is of a type. -/
def Uses (q : Request) (typeName : String) : Prop := ∃ c ∈ q.constants, c.typeName = some typeName

/-- A type is built in or declared. -/
def Knows (q : Request) (typeName : String) : Prop :=
  TypeRegistry.Knows (SemanticType.builtin ++ q.declared) typeName

/-- The profile has an entry for a type. -/
def HasEntry (q : Request) (typeName : String) : Prop :=
  ∃ p ∈ q.profiles, p.name = q.profile ∧ typeName ∈ p.types.map Prod.fst

/-- With coverage required, the types of all constants that resolve need entries. -/
theorem covered_iff {coverage : Bool} {resolved : Resolved} {types : TypeRegistry} {p : Profile}
    (h : resolve types q.operators q.constants = .ok resolved) :
    Emission.Covered coverage p resolved.constants ↔
      (coverage = true → ∀ t, q.Uses t → t ∈ p.types.map Prod.fst) := by
  have huses : ∀ t, q.Uses t ↔ ∃ rc ∈ resolved.constants, rc.typeName = some t := by
    intro t
    have hperm := (Constant.byOrdinal_isStableSort q.constants).perm
    simp only [Uses, ← hperm.mem_iff, ← constants_of_resolve h, List.mem_map]
    constructor
    · rintro ⟨_, ⟨rc, hrc, rfl⟩, ht⟩
      exact ⟨rc, hrc, ht⟩
    · rintro ⟨rc, hrc, ht⟩
      exact ⟨_, ⟨rc, hrc, rfl⟩, ht⟩
  refine imp_congr_right fun _ => ?_
  simp only [Profile.LacksRule, huses, p.override?_eq_none]
  constructor
  · rintro h t ⟨rc, hrc, ht⟩
    exact Classical.byContradiction fun hnot => h rc hrc t ⟨ht, hnot⟩
  · rintro h rc hrc t ⟨ht, hnot⟩
    exact hnot (h t ⟨rc, hrc, ht⟩)

/-- The profile emits constants in a strict mode if it does so in the lenient one and has entries
for their types. -/
theorem emits_iff {coverage : Bool} {resolved : Resolved} {types : TypeRegistry} {a : Artifact}
    (h : resolve types q.operators q.constants = .ok resolved) :
    (∃ r, ProfileRegistry.ofProfiles q.profiles coverage = .ok r ∧
        r.emit q.comments resolved q.profile = .ok a) ↔
      (∃ r, ProfileRegistry.ofProfiles q.profiles false = .ok r ∧
        r.emit q.comments resolved q.profile = .ok a) ∧
      (coverage = true → ∀ t, q.Uses t → q.HasEntry t) := by
  simp only [ProfileRegistry.ofProfiles_eq_ok, and_assoc, exists_and_left, exists_eq_left]
  refine and_congr_right fun hnodup => ?_
  rw [ProfileRegistry.emit_coverage]
  refine and_congr_right fun hemit => ?_
  obtain ⟨p, _, hget, _, _⟩ := ProfileRegistry.emit_eq_ok.mp hemit
  obtain ⟨hp, hname⟩ := (ProfileRegistry.get_eq_ok hnodup).mp hget
  simp only [hget, Except.ok.injEq, forall_eq', covered_iff h]
  refine imp_congr_right fun _ => forall₂_congr fun t _ => ?_
  constructor
  · exact fun ht => ⟨p, hp, hname, ht⟩
  · rintro ⟨p', hp', hname', ht⟩
    obtain rfl := List.inj_on_of_nodup_map hnodup hp' hp (hname'.trans hname.symm)
    exact ht

/-- What a mode asks of a request beyond what the lenient modes ask. -/
theorem yields_iff {strictTypes strictFormats : Bool} {resolved : Resolved} {a : Artifact} :
    q.Yields strictTypes strictFormats resolved a ↔ q.Yields false false resolved a ∧
      (strictTypes = true → ∀ t, q.Uses t → q.Knows t) ∧
      (strictFormats = true → ∀ t, q.Uses t → q.HasEntry t) := by
  have hknows : (∀ c ∈ q.constants, ∀ t ∈ c.typeName,
        TypeRegistry.Knows (q.declared.foldl TypeRegistry.declare SemanticType.builtin) t) ↔
      ∀ t, q.Uses t → q.Knows t := by
    simp only [TypeRegistry.knows_foldl_declare, Uses, Knows, Option.mem_def]
    exact ⟨fun h t ⟨c, hc, ht⟩ => h c hc t ht, fun h c hc t ht => h t ⟨c, hc, ht⟩⟩
  simp only [Yields, TypeRegistry.ofDeclared]
  rw [TypeRegistry.resolve_strict, hknows]
  constructor
  · rintro ⟨⟨hresolve, htypes⟩, hemits⟩
    obtain ⟨hlenient, hentries⟩ := (emits_iff hresolve).mp hemits
    exact ⟨⟨hresolve, hlenient⟩, htypes, hentries⟩
  · rintro ⟨⟨hresolve, hlenient⟩, htypes, hentries⟩
    exact ⟨⟨hresolve, htypes⟩, (emits_iff hresolve).mpr ⟨hlenient, hentries⟩⟩

/-- Stricter modes only reject: what they resolve and emit, more lenient modes resolve and emit
alike. What the lenient modes do, the strict ones do too if every type of a constant is known and
has an entry in the profile, and only then. -/
theorem yields_stricter (q : Request) (resolved : Resolved) (a : Artifact) :
    (∀ strictTypes strictFormats strictTypes' strictFormats', strictTypes' ≤ strictTypes →
      strictFormats' ≤ strictFormats → q.Yields strictTypes strictFormats resolved a →
      q.Yields strictTypes' strictFormats' resolved a) ∧
    (q.Yields true true resolved a ↔
      q.Yields false false resolved a ∧ ∀ t, q.Uses t → q.Knows t ∧ q.HasEntry t) := by
  constructor
  · intro strictTypes strictFormats strictTypes' strictFormats' htypes hformats h
    obtain ⟨hlenient, hknows, hentries⟩ := yields_iff.mp h
    exact yields_iff.mpr ⟨hlenient, fun hstrict => hknows (htypes hstrict),
      fun hstrict => hentries (hformats hstrict)⟩
  · rw [yields_iff]
    simp only [true_imp_iff, ← forall_and]

/-- Addresses of 112 bits, and a byte whose width is declared anew. -/
def wideAddresses : Request where
  declared := [.integer "Addr" 112 false, .integer "u8" 24 false]
  constants :=
    [{ name := "END", typeName := some "Addr",
       expr := .apply "shl" [.literal (.integer 1) ⟨5, 6⟩, .reference "BITS" ⟨7, 11⟩] ⟨0, 12⟩ },
     { name := "BITS", typeName := some "u8", expr := .literal (.integer 100) ⟨0, 3⟩,
       ordinal := 1 },
     { name := "PAGE", typeName := some "u8", expr := .literal (.integer 4096) ⟨0, 4⟩,
       ordinal := 2 }]
  profiles :=
    [{ name := "rust", fileExt := ".rs", statement := ⟨"pub const $name: $type = $value;", by cbv⟩,
       types := [("Addr", { typeName := some "u128", radix := some .hexadecimal }),
         ("u8", { typeName := some "u16" })] }]
  profile := "rust"

theorem resolve_wideAddresses :
    resolve (.ofDeclared wideAddresses.declared false) .builtin wideAddresses.constants = .ok
      ⟨[⟨wideAddresses.constants[0], .integer (2 ^ 100), some (.integer "Addr" 112 false)⟩,
        ⟨wideAddresses.constants[1], .integer 100, some (.integer "u8" 24 false)⟩,
        ⟨wideAddresses.constants[2], .integer 4096, some (.integer "u8" 24 false)⟩],
        ["BITS", "END", "PAGE"]⟩ := by
  have hsort : byOrdinal wideAddresses.constants = wideAddresses.constants :=
    List.mergeSort_of_pairwise (by decide)
  have hdistinct : Constant.Distinct wideAddresses.constants := by decide
  have hcomplete : Constant.Complete wideAddresses.constants := by decide
  have hvalid : DependencyGraph.validate ⟨wideAddresses.constants, hdistinct⟩ = .ok () :=
    DependencyGraph.validate_eq_ok hcomplete
  have hlinks : DependencyGraph.links ⟨wideAddresses.constants, hdistinct⟩ =
      [("END", ["BITS"]), ("BITS", []), ("PAGE", [])] := by cbv
  have hcycle : Links.findCycle? [("END", ["BITS"]), ("BITS", []), ("PAGE", [])] = none := rfl
  have horder : Links.evaluationOrder [("END", ["BITS"]), ("BITS", []), ("PAGE", [])] =
      .ok ["BITS", "END", "PAGE"] := rfl
  rw [resolve, hsort, resolveDeclared, DependencyGraph.ofConstants_eq_ok hdistinct]
  simp only [bind, Except.bind, hvalid, hlinks, hcycle, horder]
  simp only [wideAddresses, lookupTypes, Constant.lookupType, evaluateInOrder,
    Constant.evaluate, Expr.evaluate_eq_eval]
  rfl

theorem yields_stricter_wideAddresses : ∃ resolved a,
    wideAddresses.Yields true true resolved a ∧ wideAddresses.Yields true false resolved a ∧
      a.text = "pub const END: u128 = 0x10000000000000000000000000;\n" ++
        "pub const BITS: u16 = 100;\npub const PAGE: u16 = 4096;\n" := by
  have hprofiles : ProfileRegistry.ofProfiles wideAddresses.profiles false =
      .ok ⟨wideAddresses.profiles, false⟩ := rfl
  have hlenient : wideAddresses.Yields false false _ ⟨"rust", ".rs",
      "pub const END: u128 = 0x10000000000000000000000000;\n" ++
        "pub const BITS: u16 = 100;\npub const PAGE: u16 = 4096;\n"⟩ :=
    ⟨resolve_wideAddresses, _, hprofiles, toOption_eq_some.mp (by decide +kernel)⟩
  have hall : ∀ t, wideAddresses.Uses t → wideAddresses.Knows t ∧ wideAddresses.HasEntry t := by
    have hknown : ∀ c ∈ wideAddresses.constants, ∀ t ∈ c.typeName,
        (∃ u ∈ SemanticType.builtin ++ wideAddresses.declared, u.name = t) ∧
          ∃ p ∈ wideAddresses.profiles, p.name = "rust" ∧ t ∈ p.types.map Prod.fst := by
      decide
    rintro t ⟨c, hc, ht⟩
    exact hknown c hc t ht
  obtain ⟨hmono, hstrict⟩ := yields_stricter wideAddresses _ _
  have hboth := hstrict.mpr ⟨hlenient, hall⟩
  exact ⟨_, _, hboth, hmono _ _ _ _ (Bool.le_refl _) (Bool.false_le _) hboth, rfl⟩

end Request

end SharedConstants
