import SharedConstants.Proofs.Template.Filling

/-!
# The grammar of templates

A template consists of characters other than the dollar sign, of doubled dollar signs, and of
parameters behind a dollar sign. A parameter without braces is the longest word that stands
there. A text can stand in a slot if the grammar derives it with the parameters of the slot.
-/
namespace SharedConstants.Template

open Text (isWordChar isName)

/-- A text is made of characters, doubled dollar signs and some parameters. -/
inductive Wellformed (parameters : List String) : List Char → Prop
  | nil : Wellformed parameters []
  | plain {c : Char} {cs : List Char} : c ≠ '$' → Wellformed parameters cs →
    Wellformed parameters (c :: cs)
  | dollar {cs : List Char} : Wellformed parameters cs → Wellformed parameters ('$' :: '$' :: cs)
  | bare {name rest : List Char} : isName name = true → String.ofList name ∈ parameters →
    (∀ c ∈ rest.head?, isWordChar c = false) → Wellformed parameters rest →
    Wellformed parameters ('$' :: (name ++ rest))
  | braced {name rest : List Char} : isName name = true → String.ofList name ∈ parameters →
    Wellformed parameters rest → Wellformed parameters ('$' :: '{' :: (name ++ '}' :: rest))

theorem isWordChar_of_isName {name : List Char} (h : isName name = true) :
    ∀ c ∈ name, isWordChar c = true := by
  cases name with
  | nil => exact List.forall_mem_nil _
  | cons c cs =>
    obtain ⟨hc, hcs⟩ := (Bool.and_eq_true _ _).mp h
    exact List.forall_mem_cons.mpr
      ⟨Text.isWordChar_of_isNameStart hc, List.all_eq_true.mp hcs⟩

theorem takeWhile_word {name rest : List Char} (hname : isName name = true)
    (hrest : ∀ c ∈ rest.head?, isWordChar c = false) :
    (name ++ rest).takeWhile isWordChar = name ∧ (name ++ rest).dropWhile isWordChar = rest := by
  have hword := isWordChar_of_isName hname
  rw [List.takeWhile_append_of_pos hword, List.dropWhile_append_of_pos hword]
  cases rest with
  | nil => simp
  | cons c cs => simp [hrest c rfl]

/-- A name starts with a character that does not open braces. -/
theorem ne_brace_of_isName {c : Char} {cs : List Char} (h : isName (c :: cs) = true) :
    c ≠ '{' ∧ c ≠ '$' := by
  constructor <;> rintro rfl <;> simp [isName, Text.isNameStart] at h

/-- A parameter is a name, with braces or as long a word as stands there. -/
theorem takeParameter?_eq_some {cs rest : List Char} {p : Piece} :
    takeParameter? cs = some (p, rest) ↔ ∃ name, isName name = true ∧
      (p = .parameter name false ∧ cs = name ++ rest ∧ (∀ c ∈ rest.head?, isWordChar c = false) ∨
        p = .parameter name true ∧ cs = '{' :: (name ++ '}' :: rest)) := by
  constructor
  · intro h
    unfold takeParameter? at h
    split at h
    · next cs =>
      split at h
      · next after hafter =>
        dsimp only at h
        split at h
        · next hname =>
          obtain ⟨rfl, rfl⟩ := Prod.mk.inj (Option.some.inj h)
          exact ⟨_, hname, .inr ⟨rfl, by rw [← hafter, List.takeWhile_append_dropWhile]⟩⟩
        · cases h
      · cases h
    · dsimp only at h
      split at h
      · next hname =>
        obtain ⟨rfl, rfl⟩ := Prod.mk.inj (Option.some.inj h)
        refine ⟨_, hname, .inl ⟨rfl, List.takeWhile_append_dropWhile.symm, fun c hc => ?_⟩⟩
        have hstop := List.head?_dropWhile_not isWordChar cs
        rw [Option.mem_def.mp hc] at hstop
        simpa using hstop
      · cases h
  · rintro ⟨name, hname, ⟨rfl, rfl, hrest⟩ | ⟨rfl, rfl⟩⟩
    · obtain ⟨htake, hdrop⟩ := takeWhile_word hname hrest
      cases name with
      | nil => cases hname
      | cons c cs =>
        have hc := (ne_brace_of_isName hname).1
        rw [List.cons_append] at htake hdrop ⊢
        unfold takeParameter?
        split
        · next heq => exact absurd (List.cons.inj heq).1 hc
        · simp [htake, hdrop, hname]
    · have hstop : ∀ c ∈ ('}' :: rest).head?, isWordChar c = false := by simp [isWordChar]
      obtain ⟨htake, hdrop⟩ := takeWhile_word hname hstop
      simp [takeParameter?, htake, hdrop, hname]

/-- The pieces behind a dollar sign that is not doubled. -/
theorem pieces_dollar {cs : List Char} (h : cs.head? ≠ some '$') :
    pieces ('$' :: cs) = match takeParameter? cs with
      | some (p, rest) => p :: pieces rest
      | none => .stray :: pieces cs := by
  rw [pieces, if_pos rfl]
  · split <;> split <;> simp_all
  · rintro rest rfl
    exact h rfl

theorem pieces_plain {c : Char} (hc : c ≠ '$') (cs : List Char) :
    pieces (c :: cs) = .plain c :: pieces cs := by
  rw [pieces.eq_def]
  exact if_neg hc

theorem pieces_doubled (cs : List Char) : pieces ('$' :: '$' :: cs) = .dollar :: pieces cs := by
  rw [pieces, if_pos rfl]

theorem pieces_bare {name rest : List Char} (hname : isName name = true)
    (hrest : ∀ c ∈ rest.head?, isWordChar c = false) :
    pieces ('$' :: (name ++ rest)) = .parameter name false :: pieces rest := by
  have htake : takeParameter? (name ++ rest) = some (.parameter name false, rest) :=
    takeParameter?_eq_some.mpr ⟨name, hname, .inl ⟨rfl, rfl, hrest⟩⟩
  have hhead : (name ++ rest).head? ≠ some '$' := by
    cases name with
    | nil => cases hname
    | cons c cs => simpa using (ne_brace_of_isName hname).2
  rw [pieces_dollar hhead, htake]

theorem pieces_braced {name rest : List Char} (hname : isName name = true) :
    pieces ('$' :: '{' :: (name ++ '}' :: rest)) = .parameter name true :: pieces rest := by
  have htake : takeParameter? ('{' :: (name ++ '}' :: rest)) = some (.parameter name true, rest) :=
    takeParameter?_eq_some.mpr ⟨name, hname, .inr ⟨rfl, rfl⟩⟩
  rw [pieces_dollar (by simp), htake]

theorem Wellformed.uses {parameters : List String} {cs : List Char}
    (h : Wellformed parameters cs) : ∀ p ∈ pieces cs, p.FilledBy parameters := by
  induction h with
  | nil => simp [pieces]
  | plain hc _ ih =>
    rw [pieces_plain hc]
    exact List.forall_mem_cons.mpr ⟨trivial, ih⟩
  | dollar _ ih =>
    rw [pieces_doubled]
    exact List.forall_mem_cons.mpr ⟨trivial, ih⟩
  | bare hname hmem hrest _ ih =>
    rw [pieces_bare hname hrest]
    exact List.forall_mem_cons.mpr ⟨hmem, ih⟩
  | braced hname hmem _ ih =>
    rw [pieces_braced hname]
    exact List.forall_mem_cons.mpr ⟨hmem, ih⟩

theorem wellformed_of_pieces {parameters : List String} {cs : List Char}
    (h : ∀ p ∈ pieces cs, p.FilledBy parameters) : Wellformed parameters cs := by
  fun_induction pieces cs with
  | case1 => exact .nil
  | case2 rest ih => exact .dollar (ih (List.forall_mem_cons.mp h).2)
  | case3 cs _ p rest htake _ ih =>
    obtain ⟨hp, hrest⟩ := List.forall_mem_cons.mp h
    obtain ⟨name, hname, ⟨rfl, rfl, hstop⟩ | ⟨rfl, rfl⟩⟩ := takeParameter?_eq_some.mp htake
    · exact .bare hname hp hstop (ih hrest)
    · exact .braced hname hp (ih hrest)
  | case4 cs _ _ ih => exact (List.forall_mem_cons.mp h).1.elim
  | case5 c cs hc ih => exact .plain hc (ih (List.forall_mem_cons.mp h).2)

/-- A text can stand in a slot if it is made of characters, doubled dollar signs and parameters
of the slot. -/
theorem faultIn?_eq_none_iff {slot : Slot} {text : String} :
    faultIn? slot text = none ↔ Wellformed slot.parameters text.toList := by
  constructor
  · intro h
    exact wellformed_of_pieces fun p hp => filledBy_of_mem ⟨text, h⟩ hp
  · intro h
    refine faultIn?_eq_none.mpr ⟨fun hstray => h.uses _ hstray, fun name hname => ?_⟩
    obtain ⟨cs, braced, hp, rfl⟩ := mem_parameterNames.mp hname
    exact h.uses _ hp

end SharedConstants.Template
