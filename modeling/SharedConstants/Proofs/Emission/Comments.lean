import SharedConstants.Proofs.Emission.Layout
import SharedConstants.Proofs.Text.Lines

/-!
# Comments in an artifact

With comments an artifact has the parts that it has without, in the same order, and comments
between them. Each of these is the comment template filled with one line. If the template itself
has no line ends, a comment stays on its own line, whatever characters its text has.
-/
namespace SharedConstants

/-- A list with further elements put in at any places. -/
inductive Widens {α : Type} (extra : α → Prop) : List α → List α → Prop
  | nil : Widens extra [] []
  | keep {x : α} {xs ys : List α} : Widens extra xs ys → Widens extra (x :: xs) (x :: ys)
  | insert {y : α} {xs ys : List α} : extra y → Widens extra xs ys → Widens extra xs (y :: ys)

namespace Widens

variable {α β : Type} {extra : α → Prop} {xs ys xs' ys' : List α}

protected theorem refl : ∀ xs : List α, Widens extra xs xs
  | [] => .nil
  | _ :: xs => (Widens.refl xs).keep

theorem of_forall (h : ∀ y ∈ ys, extra y) : Widens extra [] ys := by
  induction ys with
  | nil => exact .nil
  | cons y ys ih =>
    obtain ⟨hy, hys⟩ := List.forall_mem_cons.mp h
    exact (ih hys).insert hy

theorem append (h : Widens extra xs ys) (h' : Widens extra xs' ys') :
    Widens extra (xs ++ xs') (ys ++ ys') := by
  induction h with
  | nil => exact h'
  | keep _ ih => exact ih.keep
  | insert hy _ ih => exact ih.insert hy

theorem flatMap {items : List β} {f g : β → List α} (h : ∀ b ∈ items, Widens extra (f b) (g b)) :
    Widens extra (items.flatMap f) (items.flatMap g) := by
  induction items with
  | nil => exact .nil
  | cons b items ih =>
    obtain ⟨hb, hitems⟩ := List.forall_mem_cons.mp h
    exact hb.append (ih hitems)

/-- Extra elements that a function keeps as they are are the extra elements of the result. -/
theorem expand {f : α → List α} (h : Widens extra xs ys) (hf : ∀ y, extra y → f y = [y]) :
    Widens extra (xs.flatMap f) (ys.flatMap f) := by
  induction h with
  | nil => exact .nil
  | @keep x xs ys _ ih => exact (Widens.refl (f x)).append ih
  | @insert y xs ys hy _ ih =>
    rw [List.flatMap_cons, hf y hy]
    exact ih.insert hy

theorem eq_of_forall_not (h : Widens extra xs ys) (hnone : ∀ y, ¬ extra y) : xs = ys := by
  induction h with
  | nil => rfl
  | keep _ ih => rw [ih]
  | insert hy _ _ => exact absurd hy (hnone _)

end Widens

namespace Emission

open Text (Unbroken)

variable {p : Profile} {coverage : Bool} {constants : List ResolvedConstant}

/-- What a comment says: the title of a section or one line of the comment of a constant. -/
inductive IsCommentLine (constants : List ResolvedConstant) : String → Prop
  | title {line : String} : line ∈ [introTitle, importsTitle, constantsTitle, outroTitle] →
    IsCommentLine constants line
  | ofConstant {rc : ResolvedConstant} {text line : String} : rc ∈ constants →
    rc.constant.comment = some text → line ∈ Text.lines text → IsCommentLine constants line

/-- A part that the comment template of a profile renders. -/
def IsComment (p : Profile) (constants : List ResolvedConstant) (part : String) : Prop :=
  ∃ t line, p.comment = some t ∧ IsCommentLine constants line ∧ t.fill (fun _ => line) = part

theorem isComment_of_mem {text part : String} (hne : Text.lines text ≠ [])
    (hlines : ∀ line ∈ Text.lines text, IsCommentLine constants line)
    (h : part ∈ p.renderComment text) : IsComment p constants part := by
  cases ht : p.comment with
  | none => simp [Profile.renderComment, ht] at h
  | some t =>
    rw [Profile.renderComment_eq ht, Profile.commentLines, if_neg hne] at h
    obtain ⟨line, hline, rfl⟩ := List.mem_map.mp h
    exact ⟨t, line, ht, hlines line hline, rfl⟩

theorem lines_of_mem_titles {heading : String}
    (h : heading ∈ [introTitle, importsTitle, constantsTitle, outroTitle]) :
    Text.lines heading = [heading] := by
  simp only [List.mem_cons, List.not_mem_nil, or_false] at h
  rcases h with rfl | rfl | rfl | rfl <;> cbv

theorem lines_ne_nil {text : String} (h : text ≠ "") : Text.lines text ≠ [] := by
  simpa [Text.lines, Text.splitLines_eq_nil] using h

theorem isComment_of_mem_title {heading part : String}
    (hheading : heading ∈ [introTitle, importsTitle, constantsTitle, outroTitle])
    (h : part ∈ title true p heading) : IsComment p constants part := by
  have hlines := lines_of_mem_titles hheading
  refine isComment_of_mem (by simp [hlines]) (fun line hline => ?_) h
  obtain rfl := List.mem_singleton.mp (hlines ▸ hline)
  exact .title hheading

theorem isComment_of_mem_constantComment {rc : ResolvedConstant} {part : String}
    (hrc : rc ∈ constants) (h : part ∈ constantComment true p rc) :
    IsComment p constants part := by
  rw [constantComment] at h
  split at h
  · cases h
  · cases h
  · next text hne hcomment =>
    exact isComment_of_mem (lines_ne_nil (by rintro rfl; exact hne rfl))
      (fun line hline => .ofConstant hrc hcomment hline) h

theorem widens_title {heading : String}
    (h : heading ∈ [introTitle, importsTitle, constantsTitle, outroTitle]) :
    Widens (IsComment p constants) (title false p heading) (title true p heading) :=
  .of_forall fun _ hpart => isComment_of_mem_title h hpart

theorem widens_titled {heading : String} (text : Option String)
    (h : heading ∈ [introTitle, importsTitle, constantsTitle, outroTitle]) :
    Widens (IsComment p constants) (titled false p heading text) (titled true p heading text) := by
  cases text with
  | none => exact .nil
  | some text => exact (widens_title h).append (.refl [text])

theorem widens_parts (lines : List String) :
    Widens (IsComment p constants) (parts false p lines (formatted p constants))
      (parts true p lines (formatted p constants)) := by
  -- comments may stand at five places; each keeps the parts around it
  have himports : Widens (IsComment p constants)
      (if lines.isEmpty then [] else title false p importsTitle ++ lines ++ [""])
      (if lines.isEmpty then [] else title true p importsTitle ++ lines ++ [""]) := by
    cases lines with
    | nil => exact .nil
    | cons line lines =>
      exact ((widens_title (by simp)).append (.refl (line :: lines))).append (.refl [""])
  have hconstants : Widens (IsComment p constants)
      ((formatted p constants).flatMap fun c => constantComment false p c.1 ++ [statement p c])
      ((formatted p constants).flatMap fun c => constantComment true p c.1 ++ [statement p c]) := by
    refine Widens.flatMap fun c hc => ?_
    obtain ⟨rc, hrc, rfl⟩ := List.mem_map.mp hc
    rw [constantComment_false]
    exact (Widens.of_forall fun _ => isComment_of_mem_constantComment hrc).append (.refl _)
  exact ((((widens_titled _ (by simp)).append himports).append (widens_title (by simp))).append
    hconstants).append (widens_titled _ (by simp))

theorem unbroken_of_isCommentLine {line : String} (h : IsCommentLine constants line) :
    Unbroken line := by
  cases h with
  | title h =>
    exact Text.unbroken_of_mem_lines (lines_of_mem_titles h ▸ List.mem_singleton_self line)
  | ofConstant _ _ hline => exact Text.unbroken_of_mem_lines hline

theorem IsComment.unbroken {part : String} (h : IsComment p constants part)
    (ht : ∀ t, p.comment = some t → Unbroken t.text) : Unbroken part := by
  obtain ⟨t, line, hcomment, hline, rfl⟩ := h
  intro c hc
  obtain htext | ⟨_, hvalue⟩ := Template.mem_toList_fill hc
  · exact ht t hcomment c htext
  · exact unbroken_of_isCommentLine hline c hvalue

/-- The text of parts, each on its own line. -/
def joined (parts : List String) : String := "\n".intercalate parts ++ "\n"

/-- The lines of a text with unbroken comments are those of the text without them and the
comments. A text without any part has an empty line, which no comment follows. -/
theorem widens_lines {plain commented : List String}
    (h : Widens (IsComment p constants) plain commented)
    (hunbroken : ∀ part, IsComment p constants part → Unbroken part) (hne : commented ≠ []) :
    Widens (IsComment p constants) (if plain = [] then [] else Text.lines (joined plain))
      (Text.lines (joined commented)) := by
  have hlines := h.expand (f := fun part => Text.lines (part ++ "\n")) fun part hpart =>
    (hunbroken part hpart).lines_feed
  have hplain : (if plain = [] then [] else Text.lines (joined plain)) =
      plain.flatMap fun part => Text.lines (part ++ "\n") := by
    split
    · next h => rw [h, List.flatMap_nil]
    · next h => exact Text.lines_intercalate h
  rw [hplain, joined, Text.lines_intercalate hne]
  exact hlines

theorem parts_true_ne_nil {t : Template .comment} (ht : p.comment = some t) (lines : List String)
    (formatted : List Formatted) : parts true p lines formatted ≠ [] := by
  have htitle : title true p constantsTitle ≠ [] := by
    rw [title, if_pos rfl, Profile.renderComment_eq ht, Profile.commentLines]
    split <;> simp_all
  simp [parts, htitle]

/-- A comment that is not empty stands right in front of the statement of its constant. -/
theorem comment_infix_parts {rc : ResolvedConstant} {text : String} (hrc : rc ∈ constants)
    (hcomment : rc.constant.comment = some text) (hne : text ≠ "") (lines : List String) :
    p.renderComment text ++ [p.statementOf rc.name rc.typeName rc.value] <:+:
      parts true p lines (formatted p constants) := by
  have htext : constantComment true p rc = p.renderComment text := by
    rw [constantComment, hcomment]
    split
    · contradiction
    · next heq => exact absurd (Option.some.inj heq) hne
    · next heq => rw [title, if_pos rfl, Option.some.inj heq]
  have hbody : p.renderComment text ++ [p.statementOf rc.name rc.typeName rc.value] <:+:
      (formatted p constants).flatMap fun c => constantComment true p c.1 ++ [statement p c] := by
    have hmem : (rc, p.formatOf rc.typeName) ∈ formatted p constants := List.mem_map_of_mem hrc
    rw [← htext, ← statement_formatted, List.flatMap_def]
    exact List.infix_of_mem_flatten (List.mem_map.mpr ⟨_, hmem, rfl⟩)
  exact hbody.trans (List.infix_append _ _ _)

end Emission

open Emission (IsLayout IsComment joined)
open Text (Unbroken)

/-- Comments change nothing about whether an emission succeeds, nor about its parts: they are put
between them, those of a constant in front of its statement. In a notation whose comment template
has no line ends every line of the commented text is a line of the plain text, in its place, or a
rendered comment. -/
theorem emit_comments (r : ProfileRegistry) (resolved : Resolved) (name : String) :
    (∃ d, r.emit false resolved name = .error d ∧ r.emit true resolved name = .error d) ∨
    ∃ p plain commented, r.get name = .ok p ∧ IsLayout p resolved.constants plain ∧
      r.emit false resolved name = .ok ⟨name, p.fileExt, joined plain⟩ ∧
      r.emit true resolved name = .ok ⟨name, p.fileExt, joined commented⟩ ∧
      Widens (IsComment p resolved.constants) plain commented ∧
      (∀ rc ∈ resolved.constants, ∀ text, rc.constant.comment = some text → text ≠ "" →
        p.renderComment text ++ [p.statementOf rc.name rc.typeName rc.value] <:+: commented) ∧
      (p.comment = none → commented = plain) ∧
      ∀ t, p.comment = some t → Unbroken t.text →
        (∀ part, IsComment p resolved.constants part → Unbroken part) ∧
        Widens (IsComment p resolved.constants)
          (if plain = [] then [] else Text.lines (joined plain))
          (Text.lines (joined commented)) := by
  cases hprofile : r.get name with
  | error d => exact .inl ⟨d, by simp [ProfileRegistry.emit, hprofile, bind, Except.bind]⟩
  | ok p =>
    cases hplain : Emission.render r.coverage false p resolved with
    | error d =>
      have hcommented : Emission.render r.coverage true p resolved = .error d :=
        Emission.render_eq_error.mpr (Emission.render_eq_error.mp hplain)
      refine .inl ⟨d, ?_⟩
      rw [r.emit_eq hprofile, r.emit_eq hprofile, hplain, hcommented]
      exact ⟨rfl, rfl⟩
    | ok text =>
      obtain ⟨hcovered, htypes, lines, hlines, rfl⟩ := Emission.render_eq_ok.mp hplain
      have hcommented : Emission.render r.coverage true p resolved = .ok (joined _) :=
        Emission.render_eq_ok.mpr ⟨hcovered, htypes, lines, hlines, rfl⟩
      have hwidens : Widens (IsComment p resolved.constants) _ _ := Emission.widens_parts lines
      have hnone : p.comment = none → ∀ part, ¬ IsComment p resolved.constants part := by
        rintro hcomment part ⟨t, _, ht, _⟩
        cases hcomment.symm.trans ht
      refine .inr ⟨p, _, _, rfl, Emission.isLayout_parts hlines, ?_, ?_, hwidens,
        fun rc hrc text hcomment hne => Emission.comment_infix_parts hrc hcomment hne lines,
        fun h => (hwidens.eq_of_forall_not (hnone h)).symm, fun t ht hunbroken => ?_⟩
      · rw [r.emit_eq hprofile, hplain]
        rfl
      · rw [r.emit_eq hprofile, hcommented]
        rfl
      · have hpart : ∀ part, IsComment p resolved.constants part → Unbroken part :=
          fun part h => h.unbroken fun t' ht' => Option.some.inj (ht.symm.trans ht') ▸ hunbroken
        exact ⟨hpart, Emission.widens_lines hwidens hpart (Emission.parts_true_ne_nil ht _ _)⟩

/-- A comment with a vertical tab in front of a statement is rendered as two comments. -/
theorem emit_comments_pageSize :
    ∃ commented, ProfileRegistry.emit ⟨[rust], false⟩ true pageSize "rust" =
      .ok ⟨"rust", ".rs", commented⟩ ∧ Widens (IsComment rust pageSize.constants)
        ["mod m \x7b", "use ops;", "use Addr;", "", "const B: Size = 16;", "const A: Addr = 4;",
          "\x7d"] (Text.lines commented) := by
  obtain ⟨d, herror, _⟩ |
      ⟨p, plain, commented, hprofile, _, hplain, hcommented, _, _, _, hlines⟩ :=
    emit_comments ⟨[rust], false⟩ pageSize "rust"
  · cases emit_pageSize.symm.trans herror
  · obtain rfl : rust = p := Except.ok.inj hprofile
    have htext : joined plain = _ :=
      congrArg Artifact.text (Except.ok.inj (hplain.symm.trans emit_pageSize))
    have hne : plain ≠ [] := by
      rintro rfl
      exact absurd htext (by cbv)
    obtain ⟨_, hwidens⟩ := hlines ⟨"// $comment", by cbv⟩ rfl (by decide)
    have hsplit : Text.lines (joined plain) =
        ["mod m \x7b", "use ops;", "use Addr;", "", "const B: Size = 16;", "const A: Addr = 4;",
          "\x7d"] := by
      rw [htext]
      cbv
    rw [if_neg hne, hsplit] at hwidens
    exact ⟨joined commented, hcommented, hwidens⟩

end SharedConstants
