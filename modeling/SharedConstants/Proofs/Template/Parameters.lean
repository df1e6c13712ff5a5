import Mathlib.Data.List.TakeWhile
import SharedConstants.Proofs.FirstOccurrence
import SharedConstants.Proofs.Success
import SharedConstants.Proofs.Template.Grammar

/-!
# The parameters of a text

Rendering a text looks up the parameters that are found in it, from left to right, and stops at the
first one without a value or at a stray dollar sign. So a text without stray dollar signs is
rendered if all its parameters have values, whatever values other names have.
-/
namespace SharedConstants.Template

variable {values : String → Option String} {ps : List Piece} {text : String}

section Lookups

variable {m : Type → Type} [Monad m]

/-- What a piece is replaced by, with a value that is looked up if the piece needs one. -/
def Piece.fillM (look : String → m (Option String)) : Piece → m (Except Gap (List Char))
  | .plain c => return .ok [c]
  | .dollar => return .ok ['$']
  | .parameter name _ => do
    match ← look (String.ofList name) with
    | some value => return .ok value.toList
    | none => return .error (.missing (String.ofList name))
  | .stray => return .error (.stray 0)

/-- Fills pieces from left to right with values that are looked up on the way. -/
def fillPiecesM (look : String → m (Option String)) : List Piece → m (Except Gap (List Char))
  | [] => return .ok []
  | p :: ps => do
    match ← p.fillM look with
    | .error gap => return .error gap
    | .ok front =>
      match ← fillPiecesM look ps with
      | .error gap => return .error (gap.behind p)
      | .ok rest => return .ok (front ++ rest)

/-- Renders a text with values that are looked up on the way. -/
def renderTextM (look : String → m (Option String)) (text : String) :
    m (Except RenderFailure String) := do
  let filled ← fillPiecesM look (pieces text.toList)
  return (filled.map String.ofList).mapError (Gap.failure text)

end Lookups

/-- Looks up a value and records the name that was asked for. -/
def recorded (values : String → Option String) (name : String) :
    StateM (List String) (Option String) := do
  modify (· ++ [name])
  return values name

/-- The names up to the first one without a value. -/
def upToMissing (values : String → Option String) : List String → List String
  | [] => []
  | name :: names => name :: match values name with
    | some _ => upToMissing values names
    | none => []

/-- The names of the parameters in front of the first stray dollar sign. -/
def usedNames (ps : List Piece) : List String := parameterNames (ps.takeWhile (· ≠ .stray))

/-- The parameters in front of the first stray dollar sign, each once, in the order of first use. -/
def found (text : String) : List String := (usedNames (pieces text.toList)).eraseDups

section Names

variable {gap : Gap} {front : List Char} {p : Piece}

@[simp] theorem parameterNames_nil : parameterNames [] = [] := rfl

@[simp] theorem parameterNames_plain (c : Char) :
    parameterNames (.plain c :: ps) = parameterNames ps := rfl

@[simp] theorem parameterNames_dollar : parameterNames (.dollar :: ps) = parameterNames ps := rfl

@[simp] theorem parameterNames_stray : parameterNames (.stray :: ps) = parameterNames ps := rfl

@[simp] theorem parameterNames_parameter (name : List Char) (braced : Bool) :
    parameterNames (.parameter name braced :: ps) = String.ofList name :: parameterNames ps := rfl

theorem upToMissing_of_fill?_ok (h : p.fill? values = .ok front) :
    upToMissing values (usedNames (p :: ps)) =
      parameterNames [p] ++ upToMissing values (usedNames ps) := by
  cases p with
  | plain c => simp [usedNames]
  | dollar => simp [usedNames]
  | stray => cases h
  | parameter name braced =>
    cases hvalue : values (String.ofList name) with
    | none => simp [Piece.fill?, hvalue] at h
    | some value => simp [usedNames, upToMissing, hvalue]

theorem upToMissing_of_fill?_error (h : p.fill? values = .error gap) :
    upToMissing values (usedNames (p :: ps)) = parameterNames [p] := by
  cases p with
  | plain c => cases h
  | dollar => cases h
  | stray => simp [usedNames, upToMissing]
  | parameter name braced =>
    cases hvalue : values (String.ofList name) with
    | none => simp [usedNames, upToMissing, hvalue]
    | some value => simp [Piece.fill?, hvalue] at h

end Names

section Log

theorem run_bind_of_run {σ α β : Type} {x : StateM σ α} {before after : σ} {a : α}
    (h : x.run before = (a, after)) (f : α → StateM σ β) :
    (x >>= f).run before = (f a).run after := by
  rw [StateT.run_bind, h]
  rfl

theorem run_recorded (name : String) (log : List String) :
    (recorded values name).run log = (values name, log ++ [name]) := rfl

/-- A parameter is looked up whether or not there is a value for it. -/
theorem run_fillM (p : Piece) (log : List String) : (p.fillM (recorded values)).run log =
    (p.fill? values, log ++ parameterNames [p]) := by
  cases p with
  | plain c => simp [Piece.fillM, Piece.fill?]; rfl
  | dollar => simp [Piece.fillM, Piece.fill?]; rfl
  | stray => simp [Piece.fillM, Piece.fill?]; rfl
  | parameter name braced =>
    rw [Piece.fillM, run_bind_of_run (run_recorded _ log), Piece.fill?]
    cases values (String.ofList name) <;> rfl

/-- What is looked up are the parameters in front of what stops the filling. -/
theorem run_fillPiecesM (log : List String) : (fillPiecesM (recorded values) ps).run log =
    (fillPieces? values ps, log ++ upToMissing values (usedNames ps)) := by
  induction ps generalizing log with
  | nil => simp [fillPiecesM, fillPieces?, usedNames, upToMissing]; rfl
  | cons p ps ih =>
    rw [fillPiecesM, fillPieces?, run_bind_of_run (run_fillM p log)]
    cases hfill : p.fill? values with
    | error gap =>
      rw [upToMissing_of_fill?_error hfill]
      rfl
    | ok front =>
      rw [upToMissing_of_fill?_ok hfill, run_bind_of_run (ih _), List.append_assoc]
      cases fillPieces? values ps <;> rfl

theorem run_renderTextM (log : List String) : (renderTextM (recorded values) text).run log =
    (renderText text values, log ++ upToMissing values (usedNames (pieces text.toList))) := by
  rw [renderTextM, run_bind_of_run (run_fillPiecesM log)]
  rfl

end Log

section UpToMissing

variable {name : String} {names : List String}

theorem upToMissing_append (h : ∀ name ∈ names, values name ≠ none) (more : List String) :
    upToMissing values (names ++ more) = names ++ upToMissing values more := by
  induction names with
  | nil => rfl
  | cons name names ih =>
    obtain ⟨hname, hnames⟩ := List.forall_mem_cons.mp h
    obtain ⟨value, hvalue⟩ := Option.ne_none_iff_exists'.mp hname
    simp [upToMissing, hvalue, ih hnames]

theorem upToMissing_append_of_mem (hmem : name ∈ names) (h : values name = none)
    (more : List String) : upToMissing values (names ++ more) = upToMissing values names := by
  induction names with
  | nil => cases hmem
  | cons first names ih =>
    cases hfirst : values first with
    | none => simp [upToMissing, hfirst]
    | some value =>
      have hrest : name ∈ names := (List.mem_cons.mp hmem).resolve_left fun heq => by
        rw [heq, hfirst] at h
        cases h
      simp [upToMissing, hfirst, ih hrest]

theorem upToMissing_eq_self (h : ∀ name ∈ names, values name ≠ none) :
    upToMissing values names = names := by
  simpa [upToMissing] using upToMissing_append h []

/-- A repeated name does not change where the first missing one stands. -/
theorem eraseDups_upToMissing (names : List String) :
    (upToMissing values names).eraseDups = upToMissing values names.eraseDups := by
  induction names using List.reverseRecOn with
  | nil => rfl
  | append_singleton names last ih =>
    have hmem := (firstOccurrences_eraseDups names).mem_iff
    by_cases hall : ∀ name ∈ names, values name ≠ none
    · have hdistinct : ∀ name ∈ names.eraseDups, values name ≠ none := fun name hname =>
        hall name ((hmem name).mp hname)
      have hself : upToMissing values [last] = [last] := by
        cases h : values last <;> simp [upToMissing, h]
      rw [upToMissing_append hall, hself]
      by_cases hlast : last ∈ names
      · rw [eraseDups_snoc_of_mem hlast, upToMissing_eq_self hdistinct]
      · rw [eraseDups_snoc_of_notMem hlast, upToMissing_append hdistinct, hself]
    · simp only [not_forall, not_not] at hall
      obtain ⟨name, hname, hnone⟩ := hall
      rw [upToMissing_append_of_mem hname hnone, ih, List.eraseDups_append,
        upToMissing_append_of_mem ((hmem name).mpr hname) hnone]

end UpToMissing

section Filling

variable {gap : Gap} {names : List String} {failure : RenderFailure}

/-- Values of other names do not matter. -/
theorem fillPieces?_congr {given : String → Option String}
    (h : ∀ name ∈ parameterNames ps, given name = values name) :
    fillPieces? given ps = fillPieces? values ps := by
  induction ps with
  | nil => rfl
  | cons p ps ih =>
    cases p with
    | plain c => simp only [fillPieces?, Piece.fill?, ih h]
    | dollar => simp only [fillPieces?, Piece.fill?, ih h]
    | stray => simp only [fillPieces?, Piece.fill?]
    | parameter name braced =>
      obtain ⟨hname, hnames⟩ := List.forall_mem_cons.mp h
      simp only [fillPieces?, Piece.fill?, hname, ih hnames]

/-- Without stray dollar signs nothing but a missing value stops the filling. -/
theorem fillPieces?_eq_error (h : .stray ∉ ps) : fillPieces? values ps = .error gap ↔
    ∃ name, First (values · = none) (parameterNames ps) name ∧ gap = .missing name := by
  induction ps generalizing gap with
  | nil => simp [fillPieces?, First]
  | cons p ps ih =>
    have hrest : .stray ∉ ps := fun hmem => h (List.mem_cons_of_mem p hmem)
    have hbehind : ∀ {front}, p.fill? values = .ok front →
        (fillPieces? values (p :: ps) = .error gap ↔ fillPieces? values ps = .error gap) := by
      intro front hp
      rw [fillPieces?, hp]
      cases hfill : fillPieces? values ps with
      | ok rest => simp
      | error gap' =>
        obtain ⟨name, -, rfl⟩ := (ih hrest).mp hfill
        rfl
    cases p with
    | stray => exact absurd List.mem_cons_self h
    | plain c => rw [hbehind rfl, ih hrest, parameterNames_plain]
    | dollar => rw [hbehind rfl, ih hrest, parameterNames_dollar]
    | parameter name braced =>
      simp only [parameterNames_parameter, first_cons]
      cases hvalue : values (String.ofList name) with
      | some value =>
        have hfill : (Piece.parameter name braced).fill? values = .ok value.toList := by
          rw [Piece.fill?, hvalue]
        rw [hbehind hfill, ih hrest]
        simp
      | none => simp [fillPieces?, Piece.fill?, hvalue, eq_comm]

theorem usedNames_eq (h : .stray ∉ ps) : usedNames ps = parameterNames ps := by
  have hall : ∀ p ∈ ps, decide (p ≠ .stray) = true := fun p hp =>
    decide_eq_true fun heq => h (heq ▸ hp)
  rw [usedNames, List.takeWhile_eq_self_iff.mpr hall]

theorem parametersOf_eq_ok : parametersOf text = .ok names ↔
    .stray ∉ pieces text.toList ∧ names = found text := by
  rw [parametersOf, ← strayOffset?_eq_none]
  cases hstray : strayOffset? (pieces text.toList) with
  | some offset => simp
  | none => simp [found, usedNames_eq (strayOffset?_eq_none.mp hstray), eq_comm]

theorem stray_notMem_iff {cs : List Char} :
    .stray ∉ pieces cs ↔ ∃ parameters, Wellformed parameters cs := by
  constructor
  · intro h
    refine ⟨parameterNames (pieces cs), wellformed_of_pieces fun p hp => ?_⟩
    cases p with
    | plain c => trivial
    | dollar => trivial
    | stray => exact h hp
    | parameter name braced => exact mem_parameterNames.mpr ⟨name, braced, hp, rfl⟩
  · rintro ⟨parameters, hwell⟩ hstray
    exact hwell.uses _ hstray

theorem renderText_eq_error : renderText text values = .error failure ↔
    ∃ gap, fillPieces? values (pieces text.toList) = .error gap ∧ gap.failure text = failure := by
  rw [renderText, mapError_eq_error, fillText?]
  cases fillPieces? values (pieces text.toList) <;> simp [Except.map]

/-- A text without stray dollar signs fails to be rendered for the first parameter that has no
value. -/
theorem renderText_error_iff (h : .stray ∉ pieces text.toList) :
    renderText text values = .error failure ↔ ∃ name, First (values · = none) (found text) name ∧
      failure = .reported { fault := .template text (.missingParameter name) } := by
  rw [renderText_eq_error]
  simp only [fillPieces?_eq_error h, found, first_eraseDups, usedNames_eq h]
  constructor
  · rintro ⟨_, ⟨name, hfirst, rfl⟩, rfl⟩
    exact ⟨name, hfirst, rfl⟩
  · rintro ⟨name, hfirst, rfl⟩
    exact ⟨_, ⟨name, hfirst, rfl⟩, rfl⟩

theorem text_of_ofText {slot : Slot} {t : Template slot} (h : ofText slot text = .ok t) :
    t.text = text := by
  unfold ofText at h
  split at h
  · obtain rfl := Except.ok.inj h
    rfl
  · cases h

end Filling

/-- Rendering looks up the parameters that are found in a text, from left to right up to the first
one without a value. A text that can stand in a slot is rendered by values for the parameters of
the slot. A text without stray dollar signs is rendered unless a parameter found in it has no
value; the first one is reported. Values of other names do not matter. -/
theorem renderText_parameters (text : String) (values : String → Option String) :
    (∃ log, (renderTextM (recorded values) text).run [] = (renderText text values, log) ∧
      FirstOccurrences log (upToMissing values (found text))) ∧
    (∀ names, parametersOf text = .ok names ↔
      (∃ parameters, Wellformed parameters text.toList) ∧ names = found text) ∧
    (∀ slot t, ofText slot text = .ok t → (∀ name ∈ slot.parameters, values name ≠ none) →
      ∃ rendered, renderText text values = .ok rendered) ∧
    ∀ names, parametersOf text = .ok names →
      ((∃ failure, renderText text values = .error failure) ↔
        ∃ name ∈ names, values name = none) ∧
      (∀ failure, renderText text values = .error failure → ∃ name,
        First (values · = none) names name ∧
          failure = .reported { fault := .template text (.missingParameter name) }) ∧
      ∀ given, (∀ name ∈ names, given name = values name) →
        renderText text given = renderText text values := by
  refine ⟨⟨_, run_renderTextM [], ?_⟩, fun names => ?_, ?_, ?_⟩
  · rw [List.nil_append, found, ← eraseDups_upToMissing]
    exact firstOccurrences_eraseDups _
  · rw [parametersOf_eq_ok, stray_notMem_iff]
  · intro slot t ht hvalues
    have hgiven : ∀ name ∈ slot.parameters, values name = some ((values name).getD "") :=
      fun name hname => by
        obtain ⟨value, hvalue⟩ := Option.ne_none_iff_exists'.mp (hvalues name hname)
        rw [hvalue, Option.getD_some]
    have hfill := t.fillText?_eq_fill hgiven
    rw [text_of_ofText ht] at hfill
    exact ⟨_, by rw [renderText, hfill]; rfl⟩
  · intro names hnames
    obtain ⟨hstray, rfl⟩ := parametersOf_eq_ok.mp hnames
    refine ⟨⟨?_, ?_⟩, fun failure => (renderText_error_iff hstray).mp, fun given hgiven => ?_⟩
    · rintro ⟨failure, hfailure⟩
      obtain ⟨name, hfirst, -⟩ := (renderText_error_iff hstray).mp hfailure
      exact ⟨name, hfirst.mem, hfirst.holds⟩
    · rintro ⟨name, hname, hnone⟩
      obtain ⟨first, hfirst⟩ := exists_first (p := (values · = none)) hname hnone
      exact ⟨_, (renderText_error_iff hstray).mpr ⟨first, hfirst, rfl⟩⟩
    · have hsame : ∀ name ∈ parameterNames (pieces text.toList), given name = values name := by
        intro name hname
        refine hgiven name ((firstOccurrences_eraseDups _).mem_iff name |>.mpr ?_)
        rwa [usedNames_eq hstray]
      rw [renderText, fillText?, fillPieces?_congr hsame]
      rfl

/-- Three parameters of which one is used again, with a dollar sign in front of a brace. -/
def sizedName : String := "$name$$\x7b$\x7btype\x7d: $name = $value"

/-- Rendering stops at the second parameter, although the third one has no value either. -/
theorem renderText_parameters_missingType :
    let values := fun name => if name = "name" then some "$value" else none
    parametersOf sizedName = .ok ["name", "type", "value"] ∧
      renderText sizedName values =
        .error (.reported { fault := .template sizedName (.missingParameter "type") }) := by
  intro values
  have hnames : parametersOf sizedName = .ok ["name", "type", "value"] := by cbv
  obtain ⟨hraises, hfirst, -⟩ := (renderText_parameters sizedName values).2.2.2 _ hnames
  obtain ⟨failure, hfailure⟩ := hraises.mpr ⟨"value", by decide, by decide⟩
  obtain ⟨name, hname, rfl⟩ := hfirst failure hfailure
  rcases first_cons.mp hname with ⟨hnone, -⟩ | ⟨-, hname⟩
  · exact absurd hnone (by decide)
  · rcases first_cons.mp hname with ⟨-, rfl⟩ | ⟨hsome, -⟩
    · exact ⟨hnames, hfailure⟩
    · exact absurd rfl hsome

end SharedConstants.Template
