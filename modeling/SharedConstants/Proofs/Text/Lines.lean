import Mathlib.Data.List.Basic
import SharedConstants.Text.Lines

/-!
# Texts put together from lines

A line holds no line end. Behind a line feed a new line starts, whatever stands in front of it, so
the lines of texts that are joined by line feeds are the lines of one text after the other.
-/
namespace SharedConstants.Text

/-- A text without line ends, of any spelling. -/
def Unbroken (text : String) : Prop :=
  ∀ c ∈ text.toList, isLineBreak c = false

instance (text : String) : Decidable (Unbroken text) :=
  decidable_of_iff (text.toList.all fun c => !isLineBreak c) (by simp [Unbroken])

theorem splitLines_pair (cs : List Char) :
    splitLines ('\r' :: '\n' :: cs) = [] :: splitLines cs := by rw [splitLines]

theorem splitLines_break {c : Char} {cs : List Char} (hc : isLineBreak c = true)
    (hpair : ∀ rest, c = '\r' → cs = '\n' :: rest → False) :
    splitLines (c :: cs) = [] :: splitLines cs := by
  rw [splitLines, if_pos hc]
  exact hpair

theorem splitLines_cons {c : Char} (hc : isLineBreak c = false) (cs : List Char) :
    splitLines (c :: cs) = match splitLines cs with
      | [] => [[c]]
      | line :: lines => (c :: line) :: lines := by
  have hreturn : c ≠ '\r' := by rintro rfl; revert hc; decide
  rw [splitLines]
  · exact if_neg (by simp [hc])
  · rintro _ rfl; exact absurd rfl hreturn

theorem splitLines_eq_nil {cs : List Char} : splitLines cs = [] ↔ cs = [] := by
  fun_cases splitLines cs <;> simp_all

theorem isLineBreak_of_mem_splitLines {cs line : List Char} (h : line ∈ splitLines cs) :
    ∀ c ∈ line, isLineBreak c = false := by
  fun_induction splitLines cs generalizing line with
  | case1 => cases h
  | case2 rest ih =>
    obtain rfl | h := List.mem_cons.mp h
    · exact List.forall_mem_nil _
    · exact ih h
  | case3 c rest _ _ ih =>
    obtain rfl | h := List.mem_cons.mp h
    · exact List.forall_mem_nil _
    · exact ih h
  | case4 c rest _ hc _ _ =>
    obtain rfl := List.mem_singleton.mp h
    simpa using hc
  | case5 c rest _ hc first others heq ih =>
    have hfirst : ∀ d ∈ first, isLineBreak d = false := ih (heq ▸ List.mem_cons_self)
    obtain rfl | h := List.mem_cons.mp h
    · simpa using ⟨by simpa using hc, hfirst⟩
    · exact ih (heq ▸ List.mem_cons_of_mem _ h)

theorem splitLines_feed (cs : List Char) : splitLines ('\n' :: cs) = [] :: splitLines cs :=
  splitLines_break (by decide) fun _ h => absurd h (by decide)

theorem splitLines_cons_append {c : Char} (hc : isLineBreak c = false) {front back : List Char}
    (h : splitLines (front ++ '\n' :: back) = splitLines (front ++ ['\n']) ++ splitLines back) :
    splitLines (c :: (front ++ '\n' :: back)) =
      splitLines (c :: (front ++ ['\n'])) ++ splitLines back := by
  rw [splitLines_cons hc, splitLines_cons hc, h]
  cases hlines : splitLines (front ++ ['\n']) with
  | nil => simp [splitLines_eq_nil] at hlines
  | cons line lines => rfl

/-- Behind a line feed a new line starts. A carriage return may stand in front of the line feed;
then they are one end on both sides. -/
theorem splitLines_append (front back : List Char) : splitLines (front ++ '\n' :: back) =
    splitLines (front ++ ['\n']) ++ splitLines back := by
  fun_induction splitLines front with
  | case1 => simp [splitLines_feed, splitLines]
  | case2 rest ih => simp [splitLines_pair, ih]
  | case3 c rest hpair hc ih =>
    cases rest with
    | nil =>
      by_cases hreturn : c = '\r'
      · simp [hreturn, splitLines_pair, splitLines]
      · have hend : ∀ cs, splitLines (c :: cs) = [] :: splitLines cs := fun cs =>
          splitLines_break hc fun _ h => absurd h hreturn
        simp only [List.cons_append, hend, ih]
    | cons d rest =>
      have hend : ∀ cs,
          splitLines (c :: d :: (rest ++ cs)) = [] :: splitLines (d :: (rest ++ cs)) := fun cs =>
        splitLines_break hc fun _ h hcons => hpair rest h (by simp_all)
      simp only [List.cons_append, hend] at ih ⊢
      rw [ih]
  | case4 c rest _ hc _ ih => exact splitLines_cons_append (by simpa using hc) ih
  | case5 c rest _ hc _ _ _ ih => exact splitLines_cons_append (by simpa using hc) ih

theorem lines_intercalate {parts : List String} (h : parts ≠ []) :
    lines ("\n".intercalate parts ++ "\n") = parts.flatMap fun part => lines (part ++ "\n") := by
  have happend : ∀ front back : String,
      lines (front ++ "\n" ++ back) = lines (front ++ "\n") ++ lines back := fun front back => by
    simp only [lines, String.toList_append, ← List.map_append]
    exact congrArg _ (by simpa using splitLines_append front.toList back.toList)
  induction parts with
  | nil => exact absurd rfl h
  | cons part parts ih =>
    by_cases hparts : parts = []
    · simp [hparts]
    · rw [String.intercalate_cons_of_ne_nil hparts, String.append_assoc, happend, ih hparts,
        List.flatMap_cons]

theorem splitLines_unbroken {cs : List Char} (h : ∀ c ∈ cs, isLineBreak c = false) :
    splitLines (cs ++ ['\n']) = [cs] := by
  induction cs with
  | nil => rfl
  | cons c cs ih =>
    obtain ⟨hc, hcs⟩ := List.forall_mem_cons.mp h
    rw [List.cons_append, splitLines_cons hc, ih hcs]

/-- A text without line ends is one line. -/
theorem Unbroken.lines_feed {text : String} (h : Unbroken text) :
    lines (text ++ "\n") = [text] := by
  have hfeed : splitLines (text.toList ++ ['\n']) = [text.toList] := splitLines_unbroken h
  simp [lines, hfeed]

theorem unbroken_of_mem_lines {text line : String} (h : line ∈ lines text) : Unbroken line := by
  obtain ⟨cs, hcs, rfl⟩ := List.mem_map.mp h
  intro c hc
  exact isLineBreak_of_mem_splitLines hcs c (by simpa using hc)

end SharedConstants.Text
