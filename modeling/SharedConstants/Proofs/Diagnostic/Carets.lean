import SharedConstants.Expr.Parser
import SharedConstants.Text.Lines

/-!
# Where carets stand

A report shows a value text indented by four columns, and below it carets that are indented by four
columns and as many more as characters stand in front of the marked part. This is right for a value
text in one line. In a value text of several lines the offset of a part says neither in which line
nor in which column it is, so no caret stands where it should.
-/
namespace SharedConstants

/-- A notion of lines: which characters end one. A line feed does, the blanks and the carets of an
excerpt do not. -/
structure LineEnds where
  ends : Char → Bool
  feed : ends '\n' = true
  space : ends ' ' = false
  caret : ends '^' = false

namespace LineEnds

/-- Lines that end at any line boundary of Unicode. -/
def boundaries : LineEnds := ⟨Text.isLineBreak, rfl, rfl, rfl⟩

variable (lines : LineEnds)

/-- The line and the column behind a character that starts at a line and a column. -/
def advance (place : Nat × Nat) (c : Char) : Nat × Nat :=
  if lines.ends c then (place.1 + 1, 0) else (place.1, place.2 + 1)

/-- The line and the column behind a text that starts at a line and a column. -/
def behind (place : Nat × Nat) (text : List Char) : Nat × Nat := text.foldl lines.advance place

/-- The line and the column of a position in a text, both counted from zero. -/
def place (text : List Char) (position : Nat) : Nat × Nat :=
  lines.behind (0, 0) (text.take position)

/-- Whether a position is in the line that follows that of another one, in the same column. -/
def IsBelow (text : List Char) (lower upper : Nat) : Prop :=
  lines.place text lower = ((lines.place text upper).1 + 1, (lines.place text upper).2)

/-- A text within one line. -/
def Unbroken (text : List Char) : Prop := ∀ c ∈ text, lines.ends c = false

instance (text : List Char) : Decidable (lines.Unbroken text) :=
  decidable_of_iff (text.all fun c => !lines.ends c) (by simp [Unbroken])

instance (text : List Char) (lower upper : Nat) : Decidable (lines.IsBelow text lower upper) :=
  inferInstanceAs (Decidable (_ = _))

variable {lines} {text : List Char} {start : Nat × Nat}

theorem behind_append (text rest : List Char) :
    lines.behind start (text ++ rest) = lines.behind (lines.behind start text) rest :=
  List.foldl_append

theorem behind_unbroken (h : lines.Unbroken text) :
    lines.behind start text = (start.1, start.2 + text.length) := by
  induction text generalizing start with
  | nil => rfl
  | cons c cs ih =>
    obtain ⟨hc, hcs⟩ := List.forall_mem_cons.mp h
    rw [behind, List.foldl_cons, ← behind, ih hcs]
    simp [advance, hc, Nat.add_assoc, Nat.add_comm 1]

theorem line_behind (text : List Char) :
    (lines.behind start text).1 = start.1 + text.countP lines.ends := by
  induction text generalizing start with
  | nil => rfl
  | cons c cs ih =>
    rw [behind, List.foldl_cons, ← behind, ih, List.countP_cons, advance]
    split <;> simp [*, Nat.add_comm, Nat.add_left_comm]

theorem column_behind_le (text : List Char) :
    (lines.behind start text).2 ≤ start.2 + text.length := by
  induction text generalizing start with
  | nil => exact Nat.le_refl _
  | cons c cs ih =>
    refine Nat.le_trans ih ?_
    simp only [advance, List.length_cons]
    split <;> simp only <;> omega

/-- Behind a line end the column tells less than the length of the text. -/
theorem column_behind_lt {c : Char} (hc : c ∈ text) (hends : lines.ends c = true) :
    (lines.behind start text).2 < text.length := by
  obtain ⟨before, after, rfl⟩ := List.append_of_mem hc
  have hline : lines.behind start (before ++ c :: after) =
      lines.behind ((lines.behind start before).1 + 1, 0) after := by
    rw [behind_append]
    simp only [behind, List.foldl_cons, advance, hends, if_true]
  have hcolumn : (lines.behind ((lines.behind start before).1 + 1, 0) after).2 ≤
      0 + after.length := column_behind_le after
  rw [hline, List.length_append, List.length_cons]
  omega

theorem place_append (front back : List Char) (i : Nat) :
    lines.place (front ++ back) (front.length + i) =
      lines.behind (lines.behind (0, 0) front) (back.take i) := by
  rw [place, List.take_length_add_append, behind_append]

theorem behind_feed (rest : List Char) :
    lines.behind start ('\n' :: rest) = lines.behind (start.1 + 1, 0) rest := by
  simp [behind, advance, lines.feed]

theorem unbroken_blanks (n : Nat) : lines.Unbroken (List.replicate n ' ') := fun _ hc =>
  List.eq_of_mem_replicate hc ▸ lines.space

theorem unbroken_carets (n : Nat) : lines.Unbroken (List.replicate n '^') := fun _ hc =>
  List.eq_of_mem_replicate hc ▸ lines.caret

/-- In an indented text, a position is in the last line and in the column that its offset says
exactly if the text has one line only. -/
theorem behind_take_eq_iff {row indent i : Nat} (hindent : 0 < indent) (hi : i ≤ text.length) :
    lines.behind (row, indent) (text.take i) =
      ((lines.behind (row, indent) text).1, indent + i) ↔ lines.Unbroken text := by
  constructor
  · intro heq c hc
    refine Bool.eq_false_iff.mpr fun hends => ?_
    rw [← List.take_append_drop i text, List.mem_append] at hc
    -- a line end in front of the position shortens its column, one behind it adds a line
    rcases hc with hbefore | hbehind
    · have hcolumn : (lines.behind (row, indent) (text.take i)).2 < (text.take i).length :=
        column_behind_lt hbefore hends
      rw [heq, List.length_take_of_le hi] at hcolumn
      omega
    · have hline : (lines.behind (row, indent) (text.take i)).1 =
          (lines.behind (row, indent) text).1 := by rw [heq]
      have hsplit : text.countP lines.ends =
          (text.take i).countP lines.ends + (text.drop i).countP lines.ends := by
        rw [← List.countP_append, List.take_append_drop]
      have hcounted : 0 < (text.drop i).countP lines.ends :=
        List.countP_pos_iff.mpr ⟨c, hbehind, hends⟩
      rw [line_behind, line_behind] at hline
      omega
  · intro hunbroken
    have htake : lines.Unbroken (text.take i) := fun c hc => hunbroken c (List.mem_of_mem_take hc)
    rw [behind_unbroken hunbroken, behind_unbroken htake, List.length_take_of_le hi]

end LineEnds

namespace Diagnostic

/-- The first line of a report. -/
def headline (d : Diagnostic) : String :=
  s!"{d.location}: error: {d.message} [{d.code.text} {d.code.kind}]"

/-- The lines of a report behind its excerpt. -/
def remarks (d : Diagnostic) : List String :=
  d.notes.map ("note: " ++ ·) ++ if d.hint = "" then [] else ["hint: " ++ d.hint]

/-- Lines, each behind a line feed. -/
def followed (lines : List String) : List Char := lines.flatMap fun line => '\n' :: line.toList

theorem reportLines_eq (d : Diagnostic) :
    d.reportLines = d.headline :: (d.excerpt ++ d.remarks) := by
  simp [reportLines, headline, remarks]

theorem excerpt_eq {d : Diagnostic} {source : String} {span : Span}
    (hsource : d.source = some source) (hspan : d.span = some span) (hne : source ≠ "") :
    d.excerpt = ["    " ++ source, "    " ++ repeated span.start ' ' ++
      repeated (max 1 (span.stop - span.start)) '^'] := by
  unfold excerpt
  rw [hsource]
  split
  · next h => cases h
  · next h => exact absurd (Option.some.inj h) hne
  · next h => rw [← Option.some.inj h, hspan]

theorem toList_intercalate_feed (line : String) (rest : List String) :
    ("\n".intercalate (line :: rest)).toList = line.toList ++ followed rest := by
  induction rest generalizing line with
  | nil => simp [followed]
  | cons next rest ih =>
    rw [String.intercalate_cons_of_ne_nil (List.cons_ne_nil _ _), String.toList_append, ih,
      String.toList_append]
    simp [followed]

/-- What a report shows in front of a value text. -/
def lead (d : Diagnostic) : List Char := d.headline.toList ++ "\n    ".toList

/-- The line end and the blanks in front of carets. -/
def margin (start : Nat) : List Char := '\n' :: List.replicate (4 + start) ' '

/-- A report with a value text and a part of it, put together. -/
theorem toList_report {d : Diagnostic} {source : String} {span : Span}
    (hsource : d.source = some source) (hspan : d.span = some span)
    (hpart : span.start < span.stop) (hinside : span.stop ≤ source.length) :
    d.report.toList = d.lead ++ (source.toList ++ (margin span.start ++
      (List.replicate (span.stop - span.start) '^' ++ followed d.remarks))) := by
  have hne : source ≠ "" := by
    rintro rfl
    exact absurd (Nat.lt_of_lt_of_le hpart hinside) (Nat.not_lt_zero _)
  have hmax : max 1 (span.stop - span.start) = span.stop - span.start :=
    Nat.max_eq_right (Nat.sub_pos_of_lt hpart)
  have hmargin : margin span.start = "\n    ".toList ++ List.replicate span.start ' ' := by
    rw [margin, ← List.replicate_append_replicate]
    rfl
  rw [report, reportLines_eq, excerpt_eq hsource hspan hne, hmax, toList_intercalate_feed, hmargin]
  simp [lead, followed, repeated]

variable (lines : LineEnds)

/-- Behind what stands in front of it, a value text starts in the column of its indentation. -/
theorem exists_behind_lead (d : Diagnostic) : ∃ row, lines.behind (0, 0) d.lead = (row, 4) := by
  have hindent : lines.Unbroken (List.replicate 4 ' ') := LineEnds.unbroken_blanks 4
  refine ⟨(lines.behind (0, 0) d.headline.toList).1 + 1, ?_⟩
  rw [lead, LineEnds.behind_append]
  change lines.behind _ ('\n' :: List.replicate 4 ' ') = _
  rw [LineEnds.behind_feed, LineEnds.behind_unbroken hindent]
  simp

theorem behind_margin (place : Nat × Nat) (start : Nat) :
    lines.behind place (margin start) = (place.1 + 1, 4 + start) := by
  rw [margin, LineEnds.behind_feed, LineEnds.behind_unbroken (LineEnds.unbroken_blanks _)]
  simp

section Report

variable {lines} {d : Diagnostic} {source : String} {span : Span} {row k : Nat}

/-- The place at which a report shows a character of the value text. -/
theorem place_shown (hsource : d.source = some source) (hspan : d.span = some span)
    (hpart : span.start < span.stop) (hinside : span.stop ≤ source.length)
    (hrow : lines.behind (0, 0) d.lead = (row, 4)) {i : Nat} (hi : i ≤ source.length) :
    lines.place d.report.toList (d.lead.length + i) =
      lines.behind (row, 4) (source.toList.take i) := by
  rw [← String.length_toList] at hi
  rw [toList_report hsource hspan hpart hinside, LineEnds.place_append, hrow,
    List.take_append_of_le_length hi]

/-- The place at which a report draws a caret. -/
theorem place_drawn (hsource : d.source = some source) (hspan : d.span = some span)
    (hpart : span.start < span.stop) (hinside : span.stop ≤ source.length)
    (hrow : lines.behind (0, 0) d.lead = (row, 4)) (hk : k < span.stop - span.start) :
    lines.place d.report.toList
        (d.lead.length + source.length + (margin span.start).length + k) =
      ((lines.behind (row, 4) source.toList).1 + 1, 4 + (span.start + k)) := by
  have hfront : d.lead.length + source.length + (margin span.start).length =
      (d.lead ++ source.toList ++ margin span.start).length := by
    rw [List.length_append, List.length_append, String.length_toList]
  have hle : k ≤ (List.replicate (span.stop - span.start) '^').length := by
    rw [List.length_replicate]
    exact Nat.le_of_lt hk
  have hcarets : (List.replicate (span.stop - span.start) '^' ++ followed d.remarks).take k =
      List.replicate k '^' := by
    rw [List.take_append_of_le_length hle, List.take_replicate, Nat.min_eq_left (Nat.le_of_lt hk)]
  rw [toList_report hsource hspan hpart hinside, ← List.append_assoc, ← List.append_assoc, hfront,
    LineEnds.place_append, hcarets, LineEnds.behind_append, LineEnds.behind_append, hrow,
    behind_margin, LineEnds.behind_unbroken (LineEnds.unbroken_carets k), List.length_replicate,
    Nat.add_assoc]

end Report

/-- A report shows the value text and below it one caret for each character of the marked part. The
carets stand in the line that follows the whole value text, as many columns behind its indentation
as characters of it stand in front of the part. So a caret stands below the character that it marks
exactly if the value text has one line only. -/
theorem report_carets {d : Diagnostic} {source : String} {span : Span}
    (hsource : d.source = some source) (hspan : d.span = some span)
    (hpart : span.start < span.stop) (hinside : span.stop ≤ source.length) :
    let drawn := d.lead.length + source.length + (margin span.start).length
    d.report.toList = d.lead ++ (source.toList ++ (margin span.start ++
      (List.replicate (span.stop - span.start) '^' ++ followed d.remarks))) ∧
    ∀ k < span.stop - span.start,
      lines.place d.report.toList (drawn + k) =
        ((lines.place d.report.toList (d.lead.length + source.length)).1 + 1,
          4 + (span.start + k)) ∧
      (lines.IsBelow d.report.toList (drawn + k) (d.lead.length + (span.start + k)) ↔
        lines.Unbroken source.toList) := by
  intro drawn
  refine ⟨toList_report hsource hspan hpart hinside, fun k hk => ?_⟩
  obtain ⟨row, hrow⟩ := exists_behind_lead lines d
  have hcaret : lines.place d.report.toList (drawn + k) = _ :=
    place_drawn hsource hspan hpart hinside hrow hk
  have hmark : lines.place d.report.toList (d.lead.length + (span.start + k)) = _ :=
    place_shown hsource hspan hpart hinside hrow (by omega)
  have hend : lines.place d.report.toList (d.lead.length + source.length) =
      lines.behind (row, 4) source.toList := by
    rw [place_shown hsource hspan hpart hinside hrow (Nat.le_refl _), ← String.length_toList,
      List.take_length]
  have hle : span.start + k ≤ source.toList.length := by
    rw [String.length_toList]
    omega
  have hone : lines.behind (row, 4) (source.toList.take (span.start + k)) =
      ((lines.behind (row, 4) source.toList).1, 4 + (span.start + k)) ↔
        lines.Unbroken source.toList := LineEnds.behind_take_eq_iff (by decide) hle
  refine ⟨by rw [hcaret, hend], ?_⟩
  rw [LineEnds.IsBelow, hcaret, hmark, ← hone, Prod.ext_iff, Prod.ext_iff]
  simp only [Nat.succ_inj]
  exact and_congr eq_comm eq_comm

/-- A closing parenthesis without its partner, at the end of a value text in one line. -/
def strayClosing : Diagnostic :=
  { fault := .expression .unmatchedClosing, source := some "(add 1 2))", span := some ⟨9, 10⟩ }

theorem report_carets_strayClosing :
    (strayClosing.source = some "(add 1 2))" ∧ strayClosing.span = some ⟨9, 10⟩) ∧
    LineEnds.boundaries.IsBelow strayClosing.report.toList
      (strayClosing.lead.length + "(add 1 2))".length + (margin 9).length + 0)
      (strayClosing.lead.length + (9 + 0)) := by
  have hsource : strayClosing.source = some "(add 1 2))" := rfl
  have hspan : strayClosing.span = some ⟨9, 10⟩ := rfl
  have hunbroken : LineEnds.boundaries.Unbroken "(add 1 2))".toList := by decide
  obtain ⟨_, hcarets⟩ :=
    report_carets .boundaries hsource hspan (by decide : 9 < 10) (by decide)
  exact ⟨⟨hsource, hspan⟩, (hcarets 0 (by decide)).2.mpr hunbroken⟩

/-- A closing parenthesis without its partner, in the second line of a value text. -/
def secondLine : Diagnostic :=
  { fault := .expression .unmatchedClosing, source := some "1\n)", span := some ⟨2, 3⟩ }

theorem report_secondLine : secondLine.report =
    "<constgen>: error: Unmatched closing parenthesis [CGEN-1000 SyntaxError]\n" ++
      "    1\n)\n      ^" := by decide +kernel

/-- In a value text of two lines the caret stands in another column than the parenthesis that it
marks. -/
theorem caret_secondLine :
    Expr.parse .builtin "1\n)" none = .error (.reported secondLine) ∧
    Expr.slice "1\n)".toList ⟨2, 3⟩ = [')'] ∧
    secondLine.report.toList[79]? = some ')' ∧ secondLine.report.toList[87]? = some '^' ∧
    LineEnds.boundaries.place secondLine.report.toList 79 = (2, 0) ∧
    LineEnds.boundaries.place secondLine.report.toList 87 = (3, 6) ∧
    ¬ LineEnds.boundaries.IsBelow secondLine.report.toList 87 79 := by
  rw [report_secondLine]
  exact ⟨rfl, rfl, by decide +kernel⟩

end Diagnostic

end SharedConstants
