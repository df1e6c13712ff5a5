import SharedConstants.Profile

/-!
# Filling templates

The pieces of a text are the text again when put together. A template holds no stray dollar sign
and no parameter that its slot does not provide, so filling it with values for the parameters of
its slot never meets a gap. What a filled template consists of comes from its text or from the
values.
-/
namespace SharedConstants

namespace Template

open Text (isWordChar isName)

theorem text_of_takeParameter? {cs rest : List Char} {p : Piece}
    (h : takeParameter? cs = some (p, rest)) : p.text ++ rest = '$' :: cs := by
  unfold takeParameter? at h
  split at h
  · rename_i cs
    split at h
    · rename_i after hafter
      dsimp only at h
      split at h
      · obtain ⟨rfl, rfl⟩ := Prod.mk.inj (Option.some.inj h)
        simp [Piece.text, ← hafter]
      · cases h
    · cases h
  · dsimp only at h
    split at h
    · obtain ⟨rfl, rfl⟩ := Prod.mk.inj (Option.some.inj h)
      simp [Piece.text]
    · cases h

/-- No character of a text is lost in its pieces, and none is added. -/
theorem flatMap_text_pieces (cs : List Char) : (pieces cs).flatMap Piece.text = cs := by
  fun_induction pieces cs with
  | case1 => rfl
  | case2 rest ih => simp [Piece.text, ih]
  | case3 cs _ p rest htake _ ih =>
    rw [List.flatMap_cons, ih]
    exact text_of_takeParameter? htake
  | case4 cs _ _ ih => simp [Piece.text, ih]
  | case5 c cs _ ih => simp [Piece.text, ih]

theorem strayOffset?_eq_none {ps : List Piece} : strayOffset? ps = none ↔ .stray ∉ ps := by
  induction ps with
  | nil => simp [strayOffset?]
  | cons p ps ih => cases p <;> simp [strayOffset?, ih]

theorem mem_parameterNames {ps : List Piece} {name : String} : name ∈ parameterNames ps ↔
    ∃ cs braced, .parameter cs braced ∈ ps ∧ String.ofList cs = name := by
  rw [parameterNames, List.mem_filterMap]
  constructor
  · rintro ⟨p, hp, hname⟩
    cases p with
    | parameter cs braced => exact ⟨cs, braced, hp, Option.some.inj hname⟩
    | plain c => cases hname
    | dollar => cases hname
    | stray => cases hname
  · rintro ⟨cs, braced, hp, rfl⟩
    exact ⟨_, hp, rfl⟩

/-- A text can stand in a slot if all its dollar signs have a use and the slot provides all its
parameters. -/
theorem faultIn?_eq_none {slot : Slot} {text : String} : faultIn? slot text = none ↔
    .stray ∉ pieces text.toList ∧
      ∀ name ∈ parameterNames (pieces text.toList), name ∈ slot.parameters := by
  rw [← strayOffset?_eq_none, faultIn?]
  cases strayOffset? (pieces text.toList) with
  | some offset => simp
  | none => simp [List.filter_eq_nil_iff]

/-- A piece that values for some parameters fill. -/
def Piece.FilledBy (parameters : List String) : Piece → Prop
  | .plain _ | .dollar => True
  | .parameter name _ => String.ofList name ∈ parameters
  | .stray => False

variable {slot : Slot} {given : String → Option String} {values : String → String}

theorem filledBy_of_mem (t : Template slot) {p : Piece} (hp : p ∈ pieces t.text.toList) :
    p.FilledBy slot.parameters := by
  obtain ⟨hstray, hnames⟩ := faultIn?_eq_none.mp t.sound
  cases p with
  | plain c => trivial
  | dollar => trivial
  | parameter name braced => exact hnames _ (mem_parameterNames.mpr ⟨name, braced, hp, rfl⟩)
  | stray => exact hstray hp

theorem Piece.FilledBy.fill?_eq {parameters : List String} {p : Piece} (h : p.FilledBy parameters)
    (hgiven : ∀ name ∈ parameters, given name = some (values name)) :
    p.fill? given = .ok (p.fill values) := by
  cases p with
  | plain c => rfl
  | dollar => rfl
  | parameter name braced => simp [Piece.fill?, Piece.fill, hgiven _ h]
  | stray => exact h.elim

theorem fillPieces?_eq {parameters : List String} {ps : List Piece}
    (h : ∀ p ∈ ps, p.FilledBy parameters)
    (hgiven : ∀ name ∈ parameters, given name = some (values name)) :
    fillPieces? given ps = .ok (ps.flatMap (Piece.fill values)) := by
  induction ps with
  | nil => rfl
  | cons p ps ih =>
    obtain ⟨hp, hps⟩ := List.forall_mem_cons.mp h
    simp only [fillPieces?, hp.fill?_eq hgiven, ih hps, List.flatMap_cons]

/-- A template is filled without a gap by values for the parameters of its slot. -/
theorem fillText?_eq_fill (t : Template slot)
    (hgiven : ∀ name ∈ slot.parameters, given name = some (values name)) :
    fillText? t.text given = .ok (t.fill values) := by
  rw [fillText?, fillPieces?_eq (fun p hp => t.filledBy_of_mem hp) hgiven]
  rfl

theorem mem_fill_piece {p : Piece} {c : Char} (h : c ∈ p.fill values) :
    c ∈ p.text ∨ ∃ name, c ∈ (values name).toList := by
  cases p with
  | plain d => exact .inl h
  | dollar => exact .inl (List.mem_cons_of_mem _ h)
  | parameter name braced => exact .inr ⟨_, h⟩
  | stray => exact .inl h

/-- The characters of a filled template are those of its text and of the values. -/
theorem mem_toList_fill {t : Template slot} {c : Char} (h : c ∈ (t.fill values).toList) :
    c ∈ t.text.toList ∨ ∃ name, c ∈ (values name).toList := by
  rw [fill, String.toList_ofList] at h
  obtain ⟨p, hp, hc⟩ := List.mem_flatMap.mp h
  refine (mem_fill_piece hc).imp_left fun htext => ?_
  rw [← flatMap_text_pieces t.text.toList]
  exact List.mem_flatMap.mpr ⟨p, hp, htext⟩

end Template

end SharedConstants
