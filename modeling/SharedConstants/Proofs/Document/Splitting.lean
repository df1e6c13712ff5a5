import SharedConstants.Proofs.Constant.Stage
import SharedConstants.Proofs.Document.Constants

/-!
# Constants in several documents

Constants are numbered on from one document to the next. Where an item stands matters to nothing
but this number and the place that a fault names. Documents that are read thus give what one
document with all their items gives.
-/
namespace SharedConstants

namespace Section

variable {s s' : Section} (h : s.entries = s'.entries) (key : String)
include h

theorem toOption_text : (s.text key).toOption = (s'.text key).toOption := by
  ext t
  rw [toOption_eq_some, toOption_eq_some, text_eq_ok, text_eq_ok, h]

theorem toOption_text? : (s.text? key).toOption = (s'.text? key).toOption := by
  simp only [text?, find?, h]
  split <;> rfl

end Section

namespace Constant

variable {ops : OperatorRegistry} {room : Nat} {s s' : Section} {constants : List Constant}
  {items : List Datum}

/-- The items that the entries of a document give, if they are of the right kind. -/
def itemsUnder? (entries : List (String × Datum)) : Option (List Datum) :=
  match entries.lookup "constant" with
  | none => some []
  | some (.array items) => some items
  | some _ => none

/-- The items of a document of constants, if its outer form is right. -/
def items? : Datum → Option (List Datum)
  | .table entries =>
    if ∀ e ∈ entries, e.1 = "constant" then itemsUnder? entries else none
  | _ => none

/-- The document of constants that has some items. -/
def document (items : List Datum) : Datum := .table [("constant", .array items)]

theorem items?_document (items : List Datum) : items? (document items) = some items := by
  simp [items?, itemsUnder?, document]

/-- Constants whose ordinals follow one another. -/
def numbered (start : Int) : List Constant → List Constant
  | [] => []
  | c :: rest => { c with ordinal := start } :: numbered (start + 1) rest

theorem length_numbered (start : Int) (constants : List Constant) :
    (numbered start constants).length = constants.length := by
  induction constants generalizing start with
  | nil => rfl
  | cons c rest ih => rw [numbered, List.length_cons, ih, List.length_cons]

theorem numbered_append (start : Int) (constants others : List Constant) :
    numbered start (constants ++ others) =
      numbered start constants ++ numbered (start + constants.length) others := by
  induction constants generalizing start with
  | nil => simp [numbered]
  | cons c rest ih =>
    have hstart : start + 1 + rest.length = start + (c :: rest).length := by
      rw [List.length_cons]
      omega
    rw [List.cons_append, numbered, ih, hstart, numbered, List.cons_append]

theorem map_ordinal_numbered (start : Nat) (constants : List Constant) :
    (numbered start constants).map ordinal =
      (List.range' start constants.length).map Int.ofNat := by
  induction constants generalizing start with
  | nil => rfl
  | cons c rest ih =>
    rw [numbered, List.map_cons, List.length_cons, List.range'_succ, List.map_cons]
    exact congrArg _ (ih (start + 1))

section Items

/-- Reads the item of a constant. -/
def readItem (ops : OperatorRegistry) (room : Nat) (place : String) (ordinal : Int) (d : Datum) :
    Except Failure Constant :=
  Section.ofDatum room place (some Datum.constantKeys) d >>= ofSection ops ordinal

theorem ofItems_cons (start : Int) (index : Nat) (d : Datum) (rest : List Datum) :
    ofItems ops room start index (d :: rest) =
      readItem ops room s!"constant[{index}]" (start + index) d >>= fun first =>
        ofItems ops room start (index + 1) rest >>= fun others => .ok (first :: others) := by
  rw [readItem, bind_assoc]
  rfl

theorem readValue_ordinal (n m : Int) (s : Section) (name : String)
    (typeName comment : Option String) : readValue ops n s name typeName comment =
      (fun c => { c with ordinal := n }) <$> readValue ops m s name typeName comment := by
  simp only [readValue, ofText, ofNative]
  split
  · rfl
  · next value _ => cases Expr.parse ops value (some name) <;> rfl
  · next value _ => cases Expr.ofNative (.integer value) (some name) <;> rfl
  · next value _ => cases Expr.ofNative (.boolean value) (some name) <;> rfl
  · rfl

/-- An ordinal is no more than noted. -/
theorem readItem_ordinal (n m : Int) (place : String) (d : Datum) :
    readItem ops room place n d =
      (fun c => { c with ordinal := n }) <$> readItem ops room place m d := by
  have hsection : ∀ s, ofSection ops n s =
      (fun c => { c with ordinal := n }) <$> ofSection ops m s := by
    intro s
    simp only [ofSection_eq, map_bind, ← readValue_ordinal n m]
  simp only [readItem, map_bind, ← hsection]

theorem ofItems_start (start start' : Int) (index : Nat) (items : List Datum) :
    ofItems ops room start index items =
      numbered (start + index) <$> ofItems ops room start' index items := by
  induction items generalizing index with
  | nil => rfl
  | cons d rest ih =>
    have hnext : start + index + 1 = start + (index + 1 : Nat) := by omega
    rw [ofItems_cons, ofItems_cons, ih, readItem_ordinal _ (start' + index)]
    cases readItem ops room s!"constant[{index}]" (start' + index) d with
    | error e => rfl
    | ok first =>
      cases ofItems ops room start' (index + 1) rest with
      | error e => rfl
      | ok others =>
        refine congrArg Except.ok ?_
        rw [← hnext]
        rfl

theorem toOption_readName (h : s.entries = s'.entries) :
    (readName s).toOption = (readName s').toOption := by
  simp only [readName, toOption_bind, Section.toOption_text h]
  congr
  funext name
  split <;> rfl

theorem toOption_readValue (n : Int) (name : String) (typeName comment : Option String)
    (h : s.entries = s'.entries) : (readValue ops n s name typeName comment).toOption =
      (readValue ops n s' name typeName comment).toOption := by
  simp only [readValue, Section.find?, h]
  split <;> rfl

theorem toOption_ofSection (n : Int) (h : s.entries = s'.entries) :
    (ofSection ops n s).toOption = (ofSection ops n s').toOption := by
  simp only [ofSection_eq, toOption_bind, toOption_readName h, Section.toOption_text? h,
    toOption_readValue n _ _ _ h]

/-- Place and room of an item matter to faults only. -/
theorem toOption_readItem (room room' : Nat) (place place' : String) (n : Int) (d : Datum) :
    (readItem ops room place n d).toOption = (readItem ops room' place' n d).toOption := by
  cases d with
  | table entries =>
    simp only [readItem, Section.ofDatum, toOption_bind]
    split
    · exact toOption_ofSection n rfl
    · rfl
  | _ => rfl

/-- What an item is read to where it is the only one. -/
def read? (ops : OperatorRegistry) (d : Datum) : Option Constant :=
  (readItem ops 0 "constant[0]" 0 d).toOption

theorem toOption_readItem_eq (place : String) (n : Int) (d : Datum) :
    (readItem ops room place n d).toOption =
      (read? ops d).map fun c => { c with ordinal := n } := by
  rw [read?, readItem_ordinal n 0, toOption_map, toOption_readItem room 0]

/-- Items are read one by one. -/
theorem toOption_ofItems (start : Int) (index : Nat) (items : List Datum) :
    (ofItems ops room start index items).toOption =
      (items.mapM (read? ops)).map (numbered (start + index)) := by
  induction items generalizing index with
  | nil => rfl
  | cons d rest ih =>
    have hnext : start + index + 1 = start + (index + 1 : Nat) := by omega
    rw [ofItems_cons, toOption_bind, toOption_readItem_eq, List.mapM_cons]
    cases read? ops d with
    | none => rfl
    | some first =>
      simp only [toOption_bind, ih, Option.map_some, Option.bind_some]
      cases rest.mapM (read? ops) with
      | none => rfl
      | some others =>
        refine congrArg some ?_
        rw [← hnext]
        rfl

end Items

section Documents

variable {path : Option String} {d : Datum} {docs docs' : List (Option String × Datum)}

theorem ofDocument_eq (path : Option String) (start : Int) (d : Datum) :
    ofDocument ops room path start d = (Section.ofDatum room "<constants>" (some ["constant"]) d >>=
      readRoot ops start).mapError (Failure.map (·.attachPath path)) := rfl

theorem readRoot_start (start start' : Int) (root : Section) :
    readRoot ops start root = numbered start <$> readRoot ops start' root := by
  unfold readRoot
  split
  · rfl
  · next items _ =>
    calc ofItems ops root.room start 0 items
        = numbered (start + (0 : Nat)) <$> ofItems ops root.room start' 0 items :=
          ofItems_start start start' 0 items
      _ = numbered start <$> ofItems ops root.room start' 0 items := by
          rw [Int.natCast_zero, Int.add_zero]
  · rfl

/-- The start of a document is no more than noted. -/
theorem ofDocument_start (path : Option String) (start start' : Int) (d : Datum) :
    ofDocument ops room path start d = numbered start <$> ofDocument ops room path start' d := by
  rw [ofDocument_eq, ofDocument_eq]
  cases Section.ofDatum room "<constants>" (some ["constant"]) d with
  | error e => rfl
  | ok root =>
    simp only [bind, Except.bind, readRoot_start start start']
    cases readRoot ops start' root <;> rfl

theorem toOption_readRoot (start : Int) (root : Section) : (readRoot ops start root).toOption =
    (itemsUnder? root.entries).bind fun items =>
      (items.mapM (read? ops)).map (numbered start) := by
  unfold readRoot itemsUnder? Section.find?
  cases root.entries.lookup "constant" with
  | none => rfl
  | some d =>
    cases d with
    | array items =>
      calc (ofItems ops root.room start 0 items).toOption
          = (items.mapM (read? ops)).map (numbered (start + (0 : Nat))) :=
            toOption_ofItems start 0 items
        _ = (items.mapM (read? ops)).map (numbered start) := by
            rw [Int.natCast_zero, Int.add_zero]
    | _ => rfl

theorem toOption_ofDocument (path : Option String) (start : Int) (d : Datum) :
    (ofDocument ops room path start d).toOption =
      (items? d).bind fun items => (items.mapM (read? ops)).map (numbered start) := by
  rw [ofDocument_eq, toOption_mapError, toOption_bind]
  cases d with
  | table entries =>
    rw [items?]
    split
    · next hkeys =>
      have hroot : Section.ofDatum room "<constants>" (some ["constant"]) (.table entries) =
          .ok ⟨"<constants>", entries, room⟩ :=
        Section.ofDatum_eq_ok.mpr ⟨rfl, rfl, rfl, by simpa using hkeys⟩
      rw [hroot]
      exact toOption_readRoot start _
    · next hkeys =>
      have hroot :
          (Section.ofDatum room "<constants>" (some ["constant"]) (.table entries)).toOption =
            none := by
        refine Option.eq_none_iff_forall_not_mem.mpr fun root hroot => hkeys ?_
        obtain ⟨hentries, -, -, hknown⟩ := Section.ofDatum_eq_ok.mp (toOption_eq_some.mp hroot)
        cases hentries
        simpa using hknown
      rw [hroot]
      rfl
  | _ => rfl

/-- Documents that are read give the constants of all their items. -/
theorem toOption_ofDocuments (read : List Constant) (docs : List (Option String × Datum)) :
    (ofDocuments ops room read docs).toOption =
      (docs.mapM fun e => items? e.2).bind fun arrays =>
        (arrays.flatten.mapM (read? ops)).map fun more => read ++ numbered read.length more := by
  induction docs generalizing read with
  | nil => simp [ofDocuments, Except.toOption, numbered]
  | cons e rest ih =>
    rw [ofDocuments, toOption_bind, toOption_ofDocument, List.mapM_cons]
    cases items? e.2 with
    | none => rfl
    | some items =>
      simp only [ih, Option.bind_some]
      -- a later document of a wrong form leaves nothing, whether or not this one is read
      cases rest.mapM fun e => items? e.2 with
      | none => cases items.mapM (read? ops) <;> rfl
      | some arrays =>
        simp only [Option.bind_eq_bind, Option.pure_def, Option.bind_some, List.flatten_cons,
          List.mapM_append]
        cases items.mapM (read? ops) with
        | none => rfl
        | some first =>
          cases arrays.flatten.mapM (read? ops) with
          | none => rfl
          | some others =>
            simp only [Option.map_some, Option.bind_some, List.append_assoc, List.length_append,
              length_numbered, numbered_append, Int.natCast_add]

theorem ofDocuments_eq_ok (start : Int) (read : List Constant)
    (docs : List (Option String × Datum)) :
    (∃ constants, ofDocuments ops room read docs = .ok constants) ↔
      ∀ e ∈ docs, ∃ constants, ofDocument ops room e.1 start e.2 = .ok constants := by
  induction docs generalizing read with
  | nil => simp [ofDocuments]
  | cons e rest ih =>
    rw [ofDocuments, ofDocument_start _ _ start, List.forall_mem_cons]
    cases ofDocument ops room e.1 start e.2 with
    | error failure => simp [bind, Except.bind]
    | ok more => exact (ih _).trans (by simp)

theorem ofDocuments_eq_error {failure : Failure} (start : Int) (read : List Constant)
    (docs : List (Option String × Datum)) : ofDocuments ops room read docs = .error failure ↔
      FirstStuck (fun e => ∃ constants, ofDocument ops room e.1 start e.2 = .ok constants)
        (fun e => ofDocument ops room e.1 start e.2 = .error failure) docs := by
  induction docs generalizing read with
  | nil => simp [ofDocuments]
  | cons e rest ih =>
    rw [ofDocuments, ofDocument_start _ _ start, firstStuck_cons]
    cases ofDocument ops room e.1 start e.2 with
    | error other => simp [bind, Except.bind]
    | ok more => exact (ih _).trans (by simp)

end Documents

/-- Constants that are numbered from zero on stand in the order of their ordinals. -/
theorem byOrdinal_of_ordinals
    (h : constants.map ordinal = (List.range constants.length).map Int.ofNat) :
    byOrdinal constants = constants := by
  have hincreasing : constants.Pairwise fun a b => a.ordinal < b.ordinal := by
    rw [← List.pairwise_map, h, List.pairwise_map]
    exact List.pairwise_lt_range.imp Int.ofNat_lt.mpr
  exact List.mergeSort_of_pairwise (hincreasing.imp fun hlt => decide_eq_true (Int.le_of_lt hlt))

/-- Documents are read exactly if each of them is read, wherever its ordinals start. Otherwise the
first that is not read tells its own failure. Constants that are read are numbered from zero on.
They are those of one document with all the items, as they are for any other documents that have
these items, and a resolution lists them as they stand. -/
theorem ofDocuments_split (ops : OperatorRegistry) (room : Nat)
    (docs : List (Option String × Datum)) (start : Int) :
    ((∃ constants, ofDocuments ops room [] docs = .ok constants) ↔
      ∀ e ∈ docs, ∃ constants, ofDocument ops room e.1 start e.2 = .ok constants) ∧
    (∀ failure, ofDocuments ops room [] docs = .error failure ↔
      FirstStuck (fun e => ∃ constants, ofDocument ops room e.1 start e.2 = .ok constants)
        (fun e => ofDocument ops room e.1 start e.2 = .error failure) docs) ∧
    ∀ constants, ofDocuments ops room [] docs = .ok constants →
      constants.map ordinal = (List.range constants.length).map Int.ofNat ∧
      ∃ arrays, docs.mapM (fun e => items? e.2) = some arrays ∧
        (∀ path, ofDocument ops room path 0 (document arrays.flatten) = .ok constants) ∧
        (∀ docs' arrays', docs'.mapM (fun e => items? e.2) = some arrays' →
          arrays'.flatten = arrays.flatten → ofDocuments ops room [] docs' = .ok constants) ∧
        ∀ types ops' r, resolve types ops' constants = .ok r →
          r.constants.map ResolvedConstant.constant = constants := by
  refine ⟨ofDocuments_eq_ok start [] docs, fun _ => ofDocuments_eq_error start [] docs,
    fun constants hread => ?_⟩
  rw [← toOption_eq_some, toOption_ofDocuments, Option.bind_eq_some_iff] at hread
  obtain ⟨arrays, harrays, hconstants⟩ := hread
  have hordinals : constants.map ordinal = (List.range constants.length).map Int.ofNat := by
    obtain ⟨more, -, rfl⟩ := Option.map_eq_some_iff.mp hconstants
    rw [List.nil_append, length_numbered, List.range_eq_range']
    exact map_ordinal_numbered 0 more
  refine ⟨hordinals, arrays, harrays, fun path => ?_, fun docs' arrays' harrays' hsame => ?_,
    fun types ops' r hr => ?_⟩
  · rw [← toOption_eq_some, toOption_ofDocument, items?_document]
    exact hconstants
  · rw [← toOption_eq_some, toOption_ofDocuments, harrays', Option.bind_some, hsame]
    exact hconstants
  · rw [constants_of_resolve hr, byOrdinal_of_ordinals hordinals]

/-- An item with a name and a value. -/
def item (name : String) (value : Datum) : Datum := .table [("name", .text name), ("value", value)]

/-- Two constants in two documents, with one in between that has none. -/
def threeDocuments : List (Option String × Datum) :=
  [(some "a.toml", document [item "B" (.integer 16)]), (some "b.toml", .table []),
    (some "c.toml", document [item "A" (.integer 4096)])]

/-- The constants are numbered on across the document without any. -/
theorem ofDocuments_split_threeDocuments :
    ∃ constants, ofDocuments .builtin 985 [] threeDocuments = .ok constants ∧
      constants.map ordinal = [0, 1] ∧
      ofDocument .builtin 985 none 0
        (document [item "B" (.integer 16), item "A" (.integer 4096)]) = .ok constants ∧
      ∃ r, resolve {} .builtin constants = .ok r ∧
        r.constants.map ResolvedConstant.constant = constants := by
  have hcomputed : (match ofDocuments .builtin 985 [] threeDocuments with
      | .ok constants => some (constants.length, (resolveDeclared {} .builtin constants).isOk)
      | .error _ => none) = some (2, true) := by
    decide +kernel
  have hitems : threeDocuments.mapM (fun e => items? e.2) =
      some [[item "B" (.integer 16)], [], [item "A" (.integer 4096)]] := by
    simp [threeDocuments, document, items?, itemsUnder?]
  obtain ⟨-, -, hsplit⟩ := ofDocuments_split .builtin 985 threeDocuments 0
  cases hread : ofDocuments .builtin 985 [] threeDocuments with
  | error failure => simp [hread] at hcomputed
  | ok constants =>
    simp only [hread, Option.some.injEq, Prod.mk.injEq] at hcomputed
    obtain ⟨hlength, hresolves⟩ := hcomputed
    obtain ⟨hordinals, arrays, harrays, hone, -, hlisted⟩ := hsplit constants hread
    obtain rfl := Option.some.inj (hitems.symm.trans harrays)
    have hsort := byOrdinal_of_ordinals hordinals
    cases hr : resolve {} .builtin constants with
    | error d =>
      rw [resolve, hsort] at hr
      simp [hr, Except.isOk, Except.toBool] at hresolves
    | ok r =>
      exact ⟨constants, rfl, by rw [hordinals, hlength]; rfl, hone none, r, hr, hlisted _ _ r hr⟩

end Constant

end SharedConstants
