import SharedConstants.Document.Constants
import SharedConstants.Proofs.Document.Entry
import SharedConstants.Proofs.Expr.Oversized

/-!
# How constants documents are read

A constants document without nulls is read if it follows its schema, and a fault that can be
reported is found in it otherwise, unless the first entry at fault holds a number that is too long
to be read or to be shown, or nests too deep to be shown: then work is given up.
-/
namespace SharedConstants

open Datum (Optional Required IsTable)
open Diagnostic (IsReportable)

namespace Datum

/-- A name that a constant may have. -/
def IsIdentifier (d : Datum) : Prop := ∃ t, d = .text t ∧ Expr.isIdentifier t.toList = true

/-- A value that a constant may have. -/
inductive IsValue (ops : OperatorRegistry) : Datum → Prop
  | boolean (b : Bool) : IsValue ops (.boolean b)
  | integer {n : Int} : -2 ^ 127 ≤ n → n < 2 ^ 127 → IsValue ops (.integer n)
  | text {t : String} : Expr.StandsFor (·.IsAccepted ops) t → IsValue ops (.text t)

/-- A value that cannot be shown, or holds too long a number in the text of an expression. -/
def IsStuckValue (ops : OperatorRegistry) (room : Nat) (d : Datum) : Prop :=
  ¬ d.Showable room ∨ ∃ t, d = .text t ∧ Expr.StandsFor (·.IsStuck ops) t

/-- A constant. -/
structure IsConstant (ops : OperatorRegistry) (entries : List (String × Datum)) : Prop where
  name : Required "name" IsIdentifier entries
  typeName : Optional "type" IsText entries
  comment : Optional "comment" IsText entries
  value : Required "value" (IsValue ops) entries

/-- The first entry of a constant that is at fault cannot be shown. -/
inductive IsStuckConstant (ops : OperatorRegistry) (room : Nat)
    (entries : List (String × Datum)) : Prop
  | name : Required "name" (fun d => ¬ d.Showable room) entries → IsStuckConstant ops room entries
  | typeName : Required "name" IsIdentifier entries →
    Required "type" (fun d => ¬ d.Showable room) entries → IsStuckConstant ops room entries
  | comment : Required "name" IsIdentifier entries → Optional "type" IsText entries →
    Required "comment" (fun d => ¬ d.Showable room) entries → IsStuckConstant ops room entries
  | value : Required "name" IsIdentifier entries → Optional "type" IsText entries →
    Optional "comment" IsText entries → Required "value" (IsStuckValue ops room) entries →
    IsStuckConstant ops room entries

def constantKeys : List String := ["name", "type", "value", "comment"]

/-- A document of constants. -/
def IsConstants (ops : OperatorRegistry) (document : Datum) : Prop :=
  IsTable (some ["constant"]) (Optional "constant" fun d => ∃ items, d = .array items ∧
    ∀ item ∈ items, IsTable (some constantKeys) (IsConstant ops) item) document

/-- The first constant of a document that is at fault is stuck. -/
def IsStuckConstants (ops : OperatorRegistry) (room : Nat) (document : Datum) : Prop :=
  IsTable (some ["constant"]) (Required "constant" fun d => ∃ items, d = .array items ∧
    FirstStuck (IsTable (some constantKeys) (IsConstant ops))
      (IsTable (some constantKeys) (IsStuckConstant ops room)) items) document

/-- A document with a single constant. -/
def singleConstant (value : Datum) : Datum :=
  .table [("constant", .array [.table [("name", .text "A"), ("value", value)]])]

section SingleConstant

variable {ops : OperatorRegistry} {room : Nat} {value : Datum}

theorem nullFree_singleConstant (h : value.NullFree) : (singleConstant value).NullFree := by
  simp [singleConstant, nullFree_table_iff, nullFree_array_iff, nullFree_text, h]

theorem isTable_singleConstant {form : List (String × Datum) → Prop} :
    IsTable (some constantKeys) form (.table [("name", .text "A"), ("value", value)]) ↔
      form [("name", .text "A"), ("value", value)] := by
  have hkeys : ∀ e ∈ [("name", Datum.text "A"), ("value", value)], e.1 ∈ constantKeys :=
    List.forall_mem_cons.mpr
      ⟨by simp [constantKeys], List.forall_mem_singleton.mpr (by simp [constantKeys])⟩
  constructor
  · rintro ⟨_, ⟨⟩, -, hform⟩
    exact hform
  · exact fun hform => ⟨_, rfl, fun keys hknown => Option.mem_some.mp hknown ▸ hkeys, hform⟩

theorem isConstants_singleConstant :
    (singleConstant value).IsConstants ops ↔ value.IsValue ops := by
  have hname : IsIdentifier (.text "A") := ⟨"A", rfl, by decide⟩
  have hconstant : IsConstant ops [("name", .text "A"), ("value", value)] ↔ value.IsValue ops := by
    constructor
    · rintro ⟨-, -, -, hvalue⟩
      simpa [Required, List.lookup_cons] using hvalue
    · intro hvalue
      exact ⟨by simpa [Required] using hname, by simp [Optional, List.lookup_cons],
        by simp [Optional, List.lookup_cons], by simpa [Required, List.lookup_cons] using hvalue⟩
  refine Iff.trans ?_ (isTable_singleConstant.trans hconstant)
  simp [singleConstant, IsConstants, IsTable, Optional]

theorem isStuckConstants_singleConstant :
    (singleConstant value).IsStuckConstants ops room ↔ value.IsStuckValue ops room := by
  have hname : IsIdentifier (.text "A") := ⟨"A", rfl, by decide⟩
  have hconstant : IsStuckConstant ops room [("name", .text "A"), ("value", value)] ↔
      value.IsStuckValue ops room := by
    constructor
    · rintro (hname | ⟨-, htype⟩ | ⟨-, -, hcomment⟩ | ⟨-, -, -, hvalue⟩)
      · exact absurd (showable_text _) (by simpa [Required] using hname)
      · simp [Required, List.lookup_cons] at htype
      · simp [Required, List.lookup_cons] at hcomment
      · simpa [Required, List.lookup_cons] using hvalue
    · intro hvalue
      exact .value (by simpa [Required] using hname) (by simp [Optional, List.lookup_cons])
        (by simp [Optional, List.lookup_cons]) (by simpa [Required, List.lookup_cons] using hvalue)
  refine Iff.trans ?_ (isTable_singleConstant.trans hconstant)
  simp [singleConstant, IsStuckConstants, IsTable, Required, firstStuck_cons]

end SingleConstant

end Datum

namespace Constant

variable {ops : OperatorRegistry} {room : Nat} {s : Section}

/-- Reads the name of a constant. -/
def readName (s : Section) : Except Failure String :=
  s.text "name" >>= fun name =>
    if Expr.isIdentifier name.toList then .ok name
    else .error (s.entryFailure "name" (.invalidIdentifier name))

/-- Reads the value of a constant whose other entries are read. -/
def readValue (ops : OperatorRegistry) (ordinal : Int) (s : Section) (name : String)
    (typeName comment : Option String) : Except Failure Constant :=
  match s.find? "value" with
  | none => .error (s.entryFailure "value" .required)
  | some (.text value) => ofText ops name typeName value comment ordinal
  | some (.integer n) => ofNative name typeName (.integer n) comment ordinal
  | some (.boolean b) => ofNative name typeName (.boolean b) comment ordinal
  | some d => .error (s.entryFailure "value" (.expectedValue d))

theorem ofSection_eq (ops : OperatorRegistry) (ordinal : Int) (s : Section) :
    ofSection ops ordinal s = readName s >>= fun name => s.text? "type" >>= fun typeName =>
      s.text? "comment" >>= fun comment => readValue ops ordinal s name typeName comment := by
  rw [ofSection, readName, bind_assoc]
  congr
  funext name
  cases Expr.isIdentifier name.toList <;> rfl

theorem ends_identifier (s : Section) (name : String) :
    Ends (if Expr.isIdentifier name.toList then .ok name
      else .error (s.entryFailure "name" (.invalidIdentifier name))) (IsReportable s.room)
      (Expr.isIdentifier name.toList = true) False := by
  split
  · next hname => exact (Ends.ok name).congr (by simp [hname]) Iff.rfl
  · next hname =>
    exact ((s.ends_entryFailure "name" _).mono fun d hd => hd.isReportable).congr (by simp [hname])
      (by simp [EntryFault.shown?])

theorem ends_readName (hnull : s.find? "name" ≠ some .null) :
    Ends (readName s) (IsReportable s.room) (Required "name" Datum.IsIdentifier s.entries)
      (Required "name" (fun d => ¬ d.Showable s.room) s.entries) := by
  have htext := (Section.ends_text hnull).mono fun d hd => hd.isReportable
  have hread := htext.bindWith fun name _ => ends_identifier s name
  refine hread.congr ?_ (by simp)
  simp only [Section.text_eq_ok, Required, Datum.IsIdentifier]
  constructor
  · rintro ⟨t, ht, hname⟩
    exact ⟨_, ht, t, rfl, hname⟩
  · rintro ⟨_, ht, t, rfl, hname⟩
    exact ⟨t, ht, hname⟩

theorem ends_ofNative_integer (n : Int) (constant : Option String) :
    Ends (Expr.ofNative (.integer n) constant) (IsReportable room) (-2 ^ 127 ≤ n ∧ n < 2 ^ 127)
      (¬ Datum.Showable room (.integer n)) := by
  have hshow : ¬ Datum.Showable room (.integer n) ↔ 10 ^ Datum.digitLimit ≤ n.natAbs := by
    rw [Datum.showable_integer_iff, Nat.not_lt]
  rw [hshow]
  exact Expr.ends_checkRange _ _ _ fun _ => rfl

/-- A value of no kind that constants have. -/
theorem ends_expectedValue (ops : OperatorRegistry) (s : Section) {d : Datum}
    (htext : ∀ t, d ≠ .text t) (hinteger : ∀ n, d ≠ .integer n) (hboolean : ∀ b, d ≠ .boolean b) :
    Ends (.error (s.entryFailure "value" (.expectedValue d)) : Except Failure Constant)
      (IsReportable s.room) (d.IsValue ops) (d.IsStuckValue ops s.room) := by
  refine ((s.ends_entryFailure "value" _).mono fun _ h => h.isReportable).congr
    (iff_of_false not_false ?_) ?_
  · rintro (b | _ | _)
    · exact hboolean b rfl
    · exact hinteger _ rfl
    · exact htext _ rfl
  · have hno : ¬ ∃ t, d = .text t ∧ Expr.StandsFor (·.IsStuck ops) t := fun ⟨t, ht, _⟩ => htext t ht
    rw [Datum.IsStuckValue, or_iff_left hno]
    simp [EntryFault.shown?]

theorem ends_readValue_some (ops : OperatorRegistry) (ordinal : Int) (name : String)
    (typeName comment : Option String) {d : Datum} (hfind : s.find? "value" = some d)
    (hnull : d ≠ .null) :
    Ends (readValue ops ordinal s name typeName comment) (IsReportable s.room) (d.IsValue ops)
      (d.IsStuckValue ops s.room) := by
  rw [readValue, hfind]
  cases d with
  | null => exact absurd rfl hnull
  | text t =>
    refine (Expr.ends_parse ops t (some name)).map.congr ⟨.text, ?_⟩ ?_
    · rintro (_ | _ | ht)
      exact ht
    · simp [Datum.IsStuckValue, Datum.showable_text]
  | integer n =>
    refine Ends.congr ((ends_ofNative_integer n (some name)).bind fun _ _ => Ends.ok _) ⟨?_, ?_⟩ ?_
    · rintro ⟨⟨hleast, hmost⟩, -⟩
      exact .integer hleast hmost
    · rintro (_ | ⟨hleast, hmost⟩)
      exact ⟨⟨hleast, hmost⟩, trivial⟩
    · simp [Datum.IsStuckValue]
  | boolean b =>
    have hshow : Datum.Showable s.room (.boolean b) :=
      Datum.obstacle?_eq_none_iff.mp rfl
    exact (Ends.ok _).congr (iff_of_true trivial (.boolean b))
      (by simp [Datum.IsStuckValue, hshow])
  | _ => exact ends_expectedValue ops s nofun nofun nofun

theorem ends_readValue (ops : OperatorRegistry) (ordinal : Int) (name : String)
    (typeName comment : Option String) (hnull : s.find? "value" ≠ some .null) :
    Ends (readValue ops ordinal s name typeName comment) (IsReportable s.room)
      (Required "value" (Datum.IsValue ops) s.entries)
      (Required "value" (Datum.IsStuckValue ops s.room) s.entries) := by
  cases hfind : s.find? "value" with
  | none =>
    rw [readValue, hfind]
    rw [Section.find?] at hfind
    exact ((s.ends_entryFailure "value" .required).mono fun _ h => h.isReportable).congr
      (by simp [Required, hfind]) (by simp [Required, hfind, EntryFault.shown?])
  | some d =>
    have hiff : ∀ form, form d ↔ Required "value" form s.entries := fun form => by
      simp [Required, show s.entries.lookup "value" = some d from hfind]
    rw [hfind] at hnull
    exact (ends_readValue_some ops ordinal name typeName comment hfind
      fun h => hnull (congrArg some h)).congr (hiff _) (hiff _)

theorem ends_ofSection (ops : OperatorRegistry) (ordinal : Int)
    (hs : ∀ key, s.find? key ≠ some .null) :
    Ends (ofSection ops ordinal s) (IsReportable s.room) (Datum.IsConstant ops s.entries)
      (Datum.IsStuckConstant ops s.room s.entries) := by
  have htext : ∀ key, Ends (s.text? key) (IsReportable s.room) _ _ := fun key =>
    (Section.ends_text? (hs key)).mono fun d hd => hd.isReportable
  rw [ofSection_eq]
  refine Ends.congr ((ends_readName (hs _)).bind fun name _ =>
    (htext _).bind fun typeName _ => (htext _).bind fun comment _ =>
    ends_readValue ops ordinal name typeName comment (hs _)) ⟨?_, ?_⟩ ⟨?_, ?_⟩
  · rintro ⟨hname, htype, hcomment, hvalue⟩
    exact ⟨hname, htype, hcomment, hvalue⟩
  · rintro ⟨hname, htype, hcomment, hvalue⟩
    exact ⟨hname, htype, hcomment, hvalue⟩
  · rintro (hname | ⟨hname, htype | ⟨htype, hcomment | ⟨hcomment, hvalue⟩⟩⟩)
    · exact .name hname
    · exact .typeName hname htype
    · exact .comment hname htype hcomment
    · exact .value hname htype hcomment hvalue
  · rintro (hname | ⟨hname, htype⟩ | ⟨hname, htype, hcomment⟩ | ⟨hname, htype, hcomment, hvalue⟩)
    · exact .inl hname
    · exact .inr ⟨hname, .inl htype⟩
    · exact .inr ⟨hname, .inr ⟨htype, .inl hcomment⟩⟩
    · exact .inr ⟨hname, .inr ⟨htype, .inr ⟨hcomment, hvalue⟩⟩⟩

theorem ends_ofItems (ops : OperatorRegistry) (room : Nat) (start : Int) (index : Nat)
    {items : List Datum} (hnull : ∀ item ∈ items, item.NullFree) :
    Ends (ofItems ops room start index items) (IsReportable room)
      (∀ item ∈ items, IsTable (some Datum.constantKeys) (Datum.IsConstant ops) item)
      (FirstStuck (IsTable (some Datum.constantKeys) (Datum.IsConstant ops))
        (IsTable (some Datum.constantKeys) (Datum.IsStuckConstant ops room)) items) := by
  induction items generalizing index with
  | nil => exact Ends.nil []
  | cons item items ih =>
    obtain ⟨hitem, hitems⟩ := List.forall_mem_cons.mp hnull
    have hcons : ofItems ops room start index (item :: items) =
        (Section.ofDatum room s!"constant[{index}]" (some Datum.constantKeys) item >>=
          ofSection ops (start + index)) >>= fun first =>
        ofItems ops room start (index + 1) items >>= fun others => .ok (first :: others) := by
      rw [bind_assoc]
      rfl
    have hfirst : ∀ entries, item = .table entries → Ends (ofSection ops (start + index)
        ⟨s!"constant[{index}]", entries, room⟩) (IsReportable room)
        (Datum.IsConstant ops entries) (Datum.IsStuckConstant ops room entries) := by
      rintro entries rfl
      refine ends_ofSection ops _ fun key hkey => ?_
      exact (hitem.entry (Datum.mem_of_lookup hkey)).ne_null rfl
    rw [hcons]
    exact Ends.cons (Section.ends_ofDatum (fun _ h => h.isReportable) hfirst) (ih _ hitems)

/-- Reads the sections of a document. -/
def readRoot (ops : OperatorRegistry) (start : Int) (root : Section) :
    Except Failure (List Constant) :=
  match root.find? "constant" with
  | none => .ok []
  | some (.array items) => ofItems ops root.room start 0 items
  | some _ => .error (root.entryFailure "constant" .expectedTables)

theorem ends_readRoot (ops : OperatorRegistry) (start : Int) {root : Section}
    (hnull : ∀ e ∈ root.entries, e.2.NullFree) :
    Ends (readRoot ops start root) (IsReportable root.room)
      (Optional "constant" (fun d => ∃ items, d = .array items ∧
        ∀ item ∈ items, IsTable (some Datum.constantKeys) (Datum.IsConstant ops) item) root.entries)
      (Required "constant" (fun d => ∃ items, d = .array items ∧
        FirstStuck (IsTable (some Datum.constantKeys) (Datum.IsConstant ops))
          (IsTable (some Datum.constantKeys) (Datum.IsStuckConstant ops root.room)) items)
        root.entries) := by
  unfold readRoot
  split
  · next hfind =>
    rw [Section.find?] at hfind
    exact (Ends.ok _).congr (by simp [Optional, hfind]) (by simp [Required, hfind])
  · next items hfind =>
    rw [Section.find?] at hfind
    have hitems : ∀ item ∈ items, item.NullFree := fun item hitem =>
      (hnull _ (Datum.mem_of_lookup hfind)).item hitem
    exact (ends_ofItems ops root.room start 0 hitems).congr (by simp [Optional, hfind])
      (by simp [Required, hfind])
  · next d hne hfind =>
    rw [Section.find?] at hfind
    have hno : ∀ form : List Datum → Prop, ¬ ∃ items, d = .array items ∧ form items := by
      rintro form ⟨items, hd, -⟩
      exact hne items hd
    exact ((root.ends_entryFailure "constant" _).mono fun _ h => h.isReportable).congr
      (by simp only [Optional, hfind, Option.some.injEq, forall_eq', hno])
      (by simp [Required, hfind, hno, EntryFault.shown?])

theorem isReportable_attachPath {d : Diagnostic} {path : Option String}
    (h : d.IsReportable room) : (d.attachPath path).IsReportable room := by
  unfold Diagnostic.attachPath
  split <;> exact h

/-- A constants document without nulls is read exactly if it follows its schema. It is given up
exactly if the first entry at fault cannot be shown or holds too long a number; all other faults
are reported. -/
theorem ends_ofDocument (ops : OperatorRegistry) (room : Nat) (path : Option String) (start : Int)
    {document : Datum} (hnull : document.NullFree) :
    Ends (ofDocument ops room path start document) (IsReportable room)
      (document.IsConstants ops) (document.IsStuckConstants ops room) := by
  have hroot : Ends (Section.ofDatum room "<constants>" (some ["constant"]) document >>=
      readRoot ops start) (IsReportable room) (document.IsConstants ops)
      (document.IsStuckConstants ops room) := by
    refine Section.ends_ofDatum (fun _ h => h.isReportable) ?_
    rintro entries rfl
    exact ends_readRoot ops start fun e he => hnull.entry he
  exact hroot.mapError fun d hd => isReportable_attachPath hd

end Constant

end SharedConstants
