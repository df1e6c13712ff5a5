import Mathlib.Data.List.TakeWhile
import SharedConstants.Format.Radix
import SharedConstants.Value

/-!
# Keywords

A keyword is spelled by every text that consists of its characters, letters in either case, with
space around them.
-/
namespace SharedConstants

namespace Text

/-- A text spells a keyword, up to the case of ASCII letters and to space around it. -/
def Spells (name text : String) : Prop :=
  ∃ before core after, text.toList = before ++ (core ++ after) ∧
    (∀ c ∈ before, isSpace c = true) ∧ (∀ c ∈ after, isSpace c = true) ∧
    core.map lowerAscii = name.toList

variable {before core after : List Char}

theorem trimLeft_append (hbefore : ∀ c ∈ before, isSpace c = true)
    (hcore : ∀ c ∈ core, isSpace c = false) (hafter : ∀ c ∈ after, isSpace c = true) :
    trimLeft (before ++ (core ++ after)) = core ++ if core = [] then [] else after := by
  rw [trimLeft, List.dropWhile_append_of_pos hbefore]
  cases core with
  | nil => simpa using List.dropWhile_eq_nil_iff.mpr hafter
  | cons c cs => simp [hcore c List.mem_cons_self]

theorem trimRight_append (hcore : ∀ c ∈ core, isSpace c = false)
    (hafter : ∀ c ∈ after, isSpace c = true) : trimRight (core ++ after) = core := by
  have hrest : core.reverse.dropWhile isSpace = core.reverse := by
    cases hreverse : core.reverse with
    | nil => rfl
    | cons c cs =>
      have hc : c ∈ core := List.mem_reverse.mp (hreverse ▸ List.mem_cons_self)
      simp [hcore c hc]
  rw [trimRight, List.reverse_append, List.dropWhile_append_of_pos (by simpa using hafter), hrest,
    List.reverse_reverse]

/-- Trimming takes the space away from both sides of a text that holds none itself. -/
theorem trim_append (hbefore : ∀ c ∈ before, isSpace c = true)
    (hcore : ∀ c ∈ core, isSpace c = false) (hafter : ∀ c ∈ after, isSpace c = true) :
    trim (before ++ (core ++ after)) = core := by
  rw [trim, trimLeft_append hbefore hcore hafter]
  refine trimRight_append hcore ?_
  split
  · exact List.forall_mem_nil _
  · exact hafter

/-- What trimming takes away is space. -/
theorem exists_eq_append_trim (cs : List Char) : ∃ before after,
    cs = before ++ (trim cs ++ after) ∧ (∀ c ∈ before, isSpace c = true) ∧
      ∀ c ∈ after, isSpace c = true := by
  refine ⟨cs.takeWhile isSpace, ((trimLeft cs).reverse.takeWhile isSpace).reverse, ?_,
    List.all_eq_true.mp List.all_takeWhile, ?_⟩
  · have hright : trim cs ++ ((trimLeft cs).reverse.takeWhile isSpace).reverse = trimLeft cs := by
      rw [trim, trimRight, ← List.reverse_append, List.takeWhile_append_dropWhile,
        List.reverse_reverse]
    rw [hright, trimLeft, List.takeWhile_append_dropWhile]
  · intro c hc
    exact List.all_eq_true.mp List.all_takeWhile c (List.mem_reverse.mp hc)

theorem isSpace_of_lowerAscii {c : Char} (h : isSpace (lowerAscii c) = false) :
    isSpace c = false := by
  rw [lowerAscii] at h
  split at h
  · next hletter =>
    have hleast : 65 ≤ c.toNat := hletter.1
    have hmost : c.toNat ≤ 90 := hletter.2
    simp only [isSpace, isBlank]
    grind
  · exact h

/-- A keyword without space in it is recognized in the texts that spell it. -/
theorem keyword_eq_iff {name text : String} (h : name.toList.any isSpace = false) :
    keyword text = name ↔ Spells name text := by
  have hlist : keyword text = name ↔ (trim text.toList).map lowerAscii = name.toList := by
    rw [keyword, ← String.toList_inj, String.toList_ofList]
  rw [hlist]
  constructor
  · intro heq
    obtain ⟨before, after, htext, hbefore, hafter⟩ := exists_eq_append_trim text.toList
    exact ⟨before, _, after, htext, hbefore, hafter, heq⟩
  · rintro ⟨before, core, after, htext, hbefore, hafter, hcore⟩
    have hnone : ∀ c ∈ core, isSpace c = false := fun c hc =>
      isSpace_of_lowerAscii <| Bool.eq_false_iff.mpr <|
        List.any_eq_false.mp h _ (hcore ▸ List.mem_map_of_mem hc)
    rw [htext, trim_append hbefore hnone hafter, hcore]

/-- One of some keywords is spelled by the texts that are recognized as one of them. -/
theorem exists_spells {names : List String} {text : String}
    (h : ∀ name ∈ names, name.toList.any isSpace = false) :
    (∃ name ∈ names, Spells name text) ↔ keyword text ∈ names := by
  constructor
  · rintro ⟨name, hname, hspells⟩
    exact (keyword_eq_iff (h name hname)).mpr hspells ▸ hname
  · exact fun hmem => ⟨_, hmem, (keyword_eq_iff (h _ hmem)).mp rfl⟩

end Text

theorem Kind.isSome_ofText? {text : String} : (Kind.ofText? text).isSome ↔
    ∃ name ∈ ["integer", "int", "boolean", "bool"], Text.Spells name text := by
  rw [Text.exists_spells (by decide), Kind.ofText?]
  grind

theorem Kind.ofText?_eq_boolean {text : String} : Kind.ofText? text = some .boolean ↔
    ∃ name ∈ ["boolean", "bool"], Text.Spells name text := by
  rw [Text.exists_spells (by decide), Kind.ofText?]
  grind

theorem Radix.isSome_ofText? {text : String} : (Radix.ofText? text).isSome ↔ ∃ name ∈
    ["bin", "binary", "oct", "octal", "dec", "decimal", "hex", "hexadecimal"],
      Text.Spells name text := by
  rw [Text.exists_spells (by decide), Radix.ofText?]
  simp only [List.mem_cons, List.not_mem_nil, or_false]
  grind

end SharedConstants
