import SharedConstants.Proofs.Document.Splitting
import SharedConstants.Proofs.Expr.RoundTrip

/-!
# Names

Documents declare names and value texts refer to them. Both take the same ones: the identifiers,
which are the texts that read as a reference from end to end.
-/
namespace SharedConstants

namespace Expr

variable {ops : OperatorRegistry} {constant : Option String} {e : Expr} {name : String}

theorem mem_occurrences_iff {o : String × Span} :
    o ∈ e.occurrences ↔ .reference o.1 o.2 ∈ e.nodes := by
  rw [← referenceNodes_eq, referenceNodes, List.mem_filterMap]
  constructor
  · rintro ⟨a, ha, heq⟩
    cases a with
    | literal | apply => cases heq
    | reference name span =>
      obtain rfl := Option.some.inj heq
      exact ha
  · exact fun h => ⟨_, h, rfl⟩

/-- The nodes of an expression have proper names if the expression has. -/
theorem Named.node (h : Named e) : ∀ a ∈ e.nodes, Named a := by
  induction h with
  | literal v span => simpa using Named.literal v span
  | reference span hname => simpa using Named.reference span hname
  | apply span hoperator hoperands ih =>
    intro a ha
    rcases mem_nodes.mp ha with rfl | ⟨c, hc, hmem⟩
    · exact .apply span hoperator hoperands
    · exact ih c hc a hmem

theorem Named.isIdentifier_of_mem_nodes {span : Span} (h : Named e)
    (hmem : .reference name span ∈ e.nodes) : isIdentifier name.toList = true := by
  cases h.node _ hmem with
  | reference _ hname => exact hname

/-- An identifier reads as a reference that fills the text. -/
theorem parse_of_isIdentifier (h : isIdentifier name.toList = true) :
    Expr.parse ops name constant = .ok (.reference name ⟨0, name.length⟩) := by
  have hderives : Derives 0 name.toList (.operand (.atom (.name name.toList)
      ⟨0, 0 + name.toList.length⟩)) := .atom (.name h)
  have hreadable : Draft.Readable (.atom (.name name.toList) ⟨0, 0 + name.toList.length⟩) := nofun
  have hparse : Expr.parse ops (String.ofList name.toList) constant = _ :=
    parse_of_derives constant hderives hreadable rfl (Nat.zero_le _) (.reference _ _)
  rw [← String.length_toList]
  simpa [Draft.toExpr] using hparse

/-- A name that some value text refers to. -/
def IsReferable (ops : OperatorRegistry) (name : String) : Prop :=
  ∃ text constant e, Expr.parse ops text constant = .ok e ∧ e.Mentions name

theorem isReferable_iff : IsReferable ops name ↔ isIdentifier name.toList = true := by
  constructor
  · rintro ⟨text, constant, e, hparse, span, hmem⟩
    obtain ⟨_, _, hnamed⟩ := readable_of_parse hparse
    exact hnamed.isIdentifier_of_mem_nodes (mem_occurrences_iff.mp hmem)
  · intro h
    exact ⟨name, none, _, parse_of_isIdentifier h, _, List.mem_singleton_self _⟩

end Expr

namespace Constant

variable {ops : OperatorRegistry} {room : Nat} {s : Section} {name : String}

theorem isIdentifier_of_readName (h : readName s = .ok name) :
    Expr.isIdentifier name.toList = true := by
  obtain ⟨t, _, ht⟩ := bind_eq_ok.mp h
  split at ht
  · next hidentifier =>
    obtain rfl := Except.ok.inj ht
    exact hidentifier
  · cases ht

theorem name_of_readValue {n : Int} {typeName comment : Option String} {c : Constant}
    (h : readValue ops n s name typeName comment = .ok c) : c.name = name := by
  unfold readValue at h
  split at h
  · cases h
  · obtain ⟨_, _, rfl⟩ := map_eq_ok.mp h
    rfl
  · obtain ⟨_, _, hc⟩ := bind_eq_ok.mp h
    obtain rfl := Except.ok.inj hc
    rfl
  · obtain ⟨_, _, hc⟩ := bind_eq_ok.mp h
    obtain rfl := Except.ok.inj hc
    rfl
  · cases h

theorem isIdentifier_of_ofSection {n : Int} {c : Constant} (h : ofSection ops n s = .ok c) :
    Expr.isIdentifier c.name.toList = true := by
  rw [ofSection_eq] at h
  obtain ⟨name, hname, h⟩ := bind_eq_ok.mp h
  obtain ⟨_, _, h⟩ := bind_eq_ok.mp h
  obtain ⟨_, _, hvalue⟩ := bind_eq_ok.mp h
  rw [name_of_readValue hvalue]
  exact isIdentifier_of_readName hname

theorem isIdentifier_of_ofItems {start : Int} {index : Nat} {items : List Datum}
    {constants : List Constant} (h : ofItems ops room start index items = .ok constants) :
    ∀ c ∈ constants, Expr.isIdentifier c.name.toList = true := by
  induction items generalizing index constants with
  | nil =>
    obtain rfl := Except.ok.inj h
    exact List.forall_mem_nil _
  | cons d rest ih =>
    rw [ofItems_cons] at h
    obtain ⟨first, hfirst, h⟩ := bind_eq_ok.mp h
    obtain ⟨others, hothers, h⟩ := bind_eq_ok.mp h
    obtain rfl := Except.ok.inj h
    obtain ⟨_, _, hsection⟩ := bind_eq_ok.mp hfirst
    exact List.forall_mem_cons.mpr ⟨isIdentifier_of_ofSection hsection, ih hothers⟩

theorem isIdentifier_of_ofDocument {path : Option String} {start : Int} {document : Datum}
    {constants : List Constant} (h : ofDocument ops room path start document = .ok constants) :
    ∀ c ∈ constants, Expr.isIdentifier c.name.toList = true := by
  rw [ofDocument_eq] at h
  obtain ⟨root, _, hroot⟩ := bind_eq_ok.mp (eq_ok_of_mapError h)
  unfold readRoot at hroot
  split at hroot
  · obtain rfl := Except.ok.inj hroot
    exact List.forall_mem_nil _
  · exact isIdentifier_of_ofItems hroot
  · cases hroot

/-- A name that some document declares. -/
def IsDeclarable (ops : OperatorRegistry) (name : String) : Prop :=
  ∃ room path start document constants, ofDocument ops room path start document = .ok constants ∧
    name ∈ constants.map Constant.name

/-- The entries of a constant that is true. -/
def truthEntries (name : String) : List (String × Datum) :=
  [("name", .text name), ("value", .boolean true)]

/-- A document that declares a name. -/
def declaration (name : String) : Datum :=
  .table [("constant", .array [.table (truthEntries name)])]

/-- What is declared by it. -/
def truth (name : String) : Constant :=
  { name, typeName := none, expr := .literal (.boolean true) default, source := "true" }

theorem ofDocument_declaration (ops : OperatorRegistry)
    (h : Expr.isIdentifier name.toList = true) :
    ofDocument ops 0 none 0 (declaration name) = .ok [truth name] := by
  have hname : readName ⟨"constant[0]", truthEntries name, 0⟩ = .ok name :=
    bind_eq_ok.mpr ⟨name, rfl, if_pos h⟩
  have hsection : ofSection ops 0 ⟨"constant[0]", truthEntries name, 0⟩ = .ok (truth name) := by
    rw [ofSection_eq, hname]
    rfl
  have hitems : ofItems ops 0 0 0 [.table (truthEntries name)] = .ok [truth name] := by
    rw [ofItems_cons]
    exact bind_eq_ok.mpr ⟨_, bind_eq_ok.mpr ⟨_, rfl, hsection⟩, rfl⟩
  have hroot : Section.ofDatum 0 "<constants>" (some ["constant"]) (declaration name) >>=
      readRoot ops 0 = .ok [truth name] := bind_eq_ok.mpr ⟨_, rfl, hitems⟩
  rw [ofDocument_eq, hroot]
  rfl

theorem isDeclarable_iff : IsDeclarable ops name ↔ Expr.isIdentifier name.toList = true := by
  constructor
  · rintro ⟨room, path, start, document, constants, hread, hmem⟩
    obtain ⟨c, hc, rfl⟩ := List.mem_map.mp hmem
    exact isIdentifier_of_ofDocument hread c hc
  · intro h
    exact ⟨0, none, 0, _, _, ofDocument_declaration ops h, List.mem_singleton_self name⟩

end Constant

/-- A text is an identifier exactly if it reads as a reference to itself from its start to its end.
All references in a text that is read are to identifiers. So documents can declare just the names
that value texts can refer to. -/
theorem isIdentifier_iff_parse (ops : OperatorRegistry) (constant : Option String) :
    (∀ s : String, Expr.isIdentifier s.toList = true ↔
      Expr.parse ops s constant = .ok (.reference s ⟨0, s.length⟩)) ∧
    (∀ text e, Expr.parse ops text constant = .ok e →
      ∀ name span, .reference name span ∈ e.nodes → Expr.isIdentifier name.toList = true) ∧
    ∀ name, Constant.IsDeclarable ops name ↔ Expr.IsReferable ops name := by
  have hnames : ∀ text e, Expr.parse ops text constant = .ok e → ∀ name span,
      .reference name span ∈ e.nodes → Expr.isIdentifier name.toList = true := by
    intro text e hparse name span hmem
    obtain ⟨_, _, hnamed⟩ := Expr.readable_of_parse hparse
    exact hnamed.isIdentifier_of_mem_nodes hmem
  refine ⟨fun s => ⟨Expr.parse_of_isIdentifier, fun h => ?_⟩, hnames, fun name => ?_⟩
  · exact hnames s _ h s _ (Expr.self_mem_nodes _)
  · rw [Constant.isDeclarable_iff, Expr.isReferable_iff]

end SharedConstants
