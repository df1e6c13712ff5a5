import SharedConstants.Proofs.Template.Parameters

/-!
# Writing templates

A template is written from texts and parameters: dollar signs of a text are doubled, and a parameter
stands in braces unless the word that it is ends there. Such a template has the parameters that it
was written with, and filling it gives the texts and the values as they are.
-/
namespace SharedConstants.Template

open Text (isWordChar isName)

/-- A text that is to stand as it is, or a parameter. -/
inductive Segment
  | literal (text : String)
  | parameter (name : String) (braced : Bool)

/-- Doubles the dollar signs. -/
def escape (text : List Char) : List Char :=
  text.flatMap fun c => if c = '$' then ['$', '$'] else [c]

/-- How a segment is written. -/
def Segment.write : Segment → List Char
  | .literal text => escape text.toList
  | .parameter name false => '$' :: name.toList
  | .parameter name true => '$' :: '{' :: (name.toList ++ ['}'])

/-- The text of a template that consists of some segments. -/
def write (segments : List Segment) : String := String.ofList (segments.flatMap Segment.write)

/-- Parameters have names, and behind a name without braces no word goes on. -/
def Delimited : List Segment → Prop
  | [] => True
  | .literal _ :: rest => Delimited rest
  | .parameter name braced :: rest => isName name.toList = true ∧
    (braced = false → ∀ c ∈ (rest.flatMap Segment.write).head?, isWordChar c = false) ∧
    Delimited rest

/-- The parameter that a segment uses. -/
def Segment.name? : Segment → Option String
  | .literal _ => none
  | .parameter name _ => some name

/-- What a segment stands for. -/
def Segment.render (values : String → String) : Segment → String
  | .literal text => text
  | .parameter name _ => values name

/-- The piece that a character of a text is read as. -/
def literalPiece (c : Char) : Piece := if c = '$' then .dollar else .plain c

/-- The pieces of a written segment. -/
def Segment.pieces : Segment → List Piece
  | .literal text => text.toList.map literalPiece
  | .parameter name braced => [.parameter name.toList braced]

variable {segments : List Segment} {values : String → String}

theorem pieces_escape (text rest : List Char) :
    pieces (escape text ++ rest) = text.map literalPiece ++ pieces rest := by
  induction text with
  | nil => rfl
  | cons c text ih =>
    rw [escape, List.flatMap_cons, ← escape]
    by_cases hc : c = '$'
    · simp [hc, literalPiece, pieces_doubled, ih]
    · simp [hc, literalPiece, pieces_plain, ih]

theorem fill_literalPiece (c : Char) : (literalPiece c).fill values = [c] := by
  by_cases hc : c = '$' <;> simp [hc, literalPiece, Piece.fill]

theorem filledBy_literalPiece (names : List String) (c : Char) :
    (literalPiece c).FilledBy names := by
  by_cases hc : c = '$' <;> simp [hc, literalPiece, Piece.FilledBy]

theorem parameterNames_literalPiece (c : Char) (ps : List Piece) :
    parameterNames (literalPiece c :: ps) = parameterNames ps := by
  by_cases hc : c = '$' <;> simp [hc, literalPiece]

/-- The scanner finds the segments that were written. -/
theorem pieces_write (h : Delimited segments) :
    pieces (segments.flatMap Segment.write) = segments.flatMap Segment.pieces := by
  induction segments with
  | nil => simp [pieces]
  | cons segment rest ih =>
    rw [List.flatMap_cons, List.flatMap_cons]
    cases segment with
    | literal text =>
      rw [Segment.write, pieces_escape, ih h]
      rfl
    | parameter name braced =>
      obtain ⟨hname, hends, hrest⟩ := h
      cases braced with
      | false =>
        rw [Segment.write, List.cons_append, pieces_bare hname (hends rfl), ih hrest]
        rfl
      | true =>
        have htext : Segment.write (.parameter name true) ++ rest.flatMap Segment.write =
            '$' :: '{' :: (name.toList ++ '}' :: rest.flatMap Segment.write) := by
          simp [Segment.write]
        rw [htext, pieces_braced hname, ih hrest]
        rfl

/-- The pieces of segments are no stray dollar signs, and their parameters are those that the
segments use. -/
theorem filledBy_of_mem_flatMap {p : Piece} (h : p ∈ segments.flatMap Segment.pieces) :
    p.FilledBy (segments.filterMap Segment.name?) := by
  obtain ⟨segment, hsegment, hp⟩ := List.mem_flatMap.mp h
  cases segment with
  | literal text =>
    obtain ⟨c, -, rfl⟩ := List.mem_map.mp hp
    exact filledBy_literalPiece _ c
  | parameter name braced =>
    obtain rfl := List.mem_singleton.mp hp
    have hname : name ∈ segments.filterMap Segment.name? :=
      List.mem_filterMap.mpr ⟨_, hsegment, rfl⟩
    simpa [Piece.FilledBy] using hname

theorem parameterNames_literal (text : List Char) (ps : List Piece) :
    parameterNames (text.map literalPiece ++ ps) = parameterNames ps := by
  induction text with
  | nil => rfl
  | cons c text ih => rw [List.map_cons, List.cons_append, parameterNames_literalPiece, ih]

theorem parameterNames_flatMap (segments : List Segment) :
    parameterNames (segments.flatMap Segment.pieces) = segments.filterMap Segment.name? := by
  induction segments with
  | nil => rfl
  | cons segment rest ih =>
    rw [List.flatMap_cons]
    cases segment with
    | literal text =>
      rw [Segment.pieces, parameterNames_literal, ih]
      rfl
    | parameter name braced => simp [Segment.pieces, Segment.name?, ih]

theorem fill_pieces (segment : Segment) :
    segment.pieces.flatMap (Piece.fill values) = (segment.render values).toList := by
  cases segment with
  | literal text =>
    simp [Segment.pieces, Segment.render, List.flatMap_map, fill_literalPiece]
  | parameter name braced => simp [Segment.pieces, Segment.render, Piece.fill]

theorem fill_flatMap (segments : List Segment) :
    (segments.flatMap Segment.pieces).flatMap (Piece.fill values) =
      (String.join (segments.map (Segment.render values))).toList := by
  rw [List.flatMap_assoc, String.toList_join, List.flatMap_map]
  exact congrArg (segments.flatMap ·) (funext fill_pieces)

/-- A template that was written from segments has their parameters, and it is filled with the texts
and the values as they are, whatever dollar signs and braces are in them. -/
theorem renderText_write (h : Delimited segments) {given : String → Option String}
    (hgiven : ∀ name ∈ segments.filterMap Segment.name?, given name = some (values name)) :
    (∃ names, parametersOf (write segments) = .ok names ∧
      FirstOccurrences (segments.filterMap Segment.name?) names) ∧
    renderText (write segments) given =
      .ok (String.join (segments.map (Segment.render values))) := by
  have hpieces : pieces (write segments).toList = segments.flatMap Segment.pieces := by
    rw [write, String.toList_ofList, pieces_write h]
  have hstray : .stray ∉ pieces (write segments).toList := fun hmem => by
    rw [hpieces] at hmem
    exact filledBy_of_mem_flatMap hmem
  constructor
  · refine ⟨_, parametersOf_eq_ok.mpr ⟨hstray, rfl⟩, ?_⟩
    rw [found, usedNames_eq hstray, hpieces, parameterNames_flatMap]
    exact firstOccurrences_eraseDups _
  · have hfill := fillPieces?_eq (fun p hp => filledBy_of_mem_flatMap hp) hgiven
    rw [renderText, fillText?, hpieces, hfill, fill_flatMap]
    simp only [Except.map, Except.mapError, String.ofList_toList]

/-- A dollar sign in front of a name, parameters in a row, and a text that continues a word. -/
def trickySegments : List Segment :=
  [.literal "$", .parameter "b" false, .parameter "a" true, .literal "x$\x7ba\x7d",
    .parameter "b" true, .literal "\x7d"]

/-- The values look like stray dollar signs and parameters. -/
def trickyValues (name : String) : String := if name = "a" then "$" else "$$\x7ba\x7d"

theorem renderText_write_tricky :
    write trickySegments = "$$$b$\x7ba\x7dx$$\x7ba\x7d$\x7bb\x7d\x7d" ∧
      parametersOf (write trickySegments) = .ok ["b", "a"] ∧
      renderText (write trickySegments) (fun name => some (trickyValues name)) =
        .ok "$$$\x7ba\x7d$x$\x7ba\x7d$$\x7ba\x7d\x7d" := by
  have hends : ∀ c ∈ some '$', isWordChar c = false := by simp [isWordChar]
  have hdelimited : Delimited trickySegments :=
    ⟨by decide, fun _ => hends, by decide, nofun, by decide, nofun, trivial⟩
  have hrender : renderText (write trickySegments) (fun name => some (trickyValues name)) =
      .ok (String.join (trickySegments.map (Segment.render trickyValues))) :=
    (renderText_write hdelimited fun _ _ => rfl).2
  refine ⟨by decide, by cbv, ?_⟩
  rw [hrender]
  exact congrArg Except.ok (by decide)

end SharedConstants.Template
