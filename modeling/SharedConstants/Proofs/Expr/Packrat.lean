import SharedConstants.Proofs.Expr.Lexing

/-!
# The grammar with ordered choices

The grammar as a parser with ordered choices works through it. What a pattern has matched is never
taken back. The furthest place at which a rule fails is recorded, and the failure of a single
character if it is the first one of all. Other patterns need no record of their own, since a part of
them has failed before. Nor does it matter whether results are kept and looked up again. Matching
a text fails at the place that is recorded in the end, or where the match ends before the text does.
-/
namespace SharedConstants.Expr

/-- The rules of the grammar. -/
inductive Rule
  | value
  | expression
  | application
  | operands
  | operator
  | boolean
  | integer
  | binary
  | octal
  | hexadecimal
  | decimal
  | reference
  | space
  | gap

/-- What a parser tries to match. A token is the longest text of a kind with a continuation of a
kind behind it. -/
inductive Pattern
  | char (c : Char)
  | token (kind ahead : List Char → Prop)
  | rule (rule : Rule)
  | sequence (parts : List Pattern)
  | choice (options : List Pattern)
  | many (part : Pattern)

/-- A number of a radix that no word character follows. -/
def numberToken (radix : Nat) : Pattern :=
  .token (fun text => ∃ negative digits, Spells text (.number negative radix digits)) EndsWord

/-- A name, whatever follows. -/
def nameToken : Pattern := .token (fun text => Text.isName text = true) fun _ => True

/-- What the rules stand for. -/
def Rule.body : Rule → Pattern
  | .value => .sequence [.rule .space, .rule .expression, .rule .space]
  | .expression =>
    .choice [.rule .application, .rule .boolean, .rule .integer, .rule .reference]
  | .application => .sequence [.char '(', .rule .space, .rule .operator, .rule .operands,
      .rule .space, .char ')']
  | .operands => .many (.sequence [.rule .gap, .rule .expression])
  | .operator => nameToken
  | .boolean => .token (fun text => ∃ b, Spells text (.boolean b)) EndsWord
  | .integer => .choice [.rule .binary, .rule .octal, .rule .hexadecimal, .rule .decimal]
  | .binary => numberToken 2
  | .octal => numberToken 8
  | .hexadecimal => numberToken 16
  | .decimal => numberToken 10
  | .reference => nameToken
  | .space => .token Blanks fun _ => True
  | .gap => .token (fun text => Blanks text ∧ text ≠ []) fun _ => True

/-- A text starts with a token. -/
def Starts (kind ahead : List Char → Prop) (text token : List Char) : Prop :=
  ∃ rest, text = token ++ rest ∧ kind token ∧ ahead rest

/-- The failure of a rule replaces what is recorded, unless this is further on. -/
def blamed (record : Option Nat) (i : Nat) : Option Nat := some (max (record.getD 0) i)

/-- Trying a pattern at a place of a text, with a failure recorded before or none, comes to the end
of the match or fails, with a failure recorded then. A choice takes the first option that matches,
and a repetition goes on while its part does; at the end of the text it does not try. -/
inductive Tries (text : List Char) :
    Pattern → Nat → Option Nat → Option Nat → Option Nat → Prop
  | char {c : Char} {rest : List Char} {i : Nat} {r : Option Nat} : text.drop i = c :: rest →
    Tries text (.char c) i r (some (i + 1)) r
  | noChar {c : Char} {i : Nat} {r : Option Nat} : (∀ rest, text.drop i ≠ c :: rest) →
    Tries text (.char c) i r none (r.or (some i))
  | token {kind ahead : List Char → Prop} {token : List Char} {i : Nat} {r : Option Nat} :
    Starts kind ahead (text.drop i) token →
    (∀ other, Starts kind ahead (text.drop i) other → other.length ≤ token.length) →
    Tries text (.token kind ahead) i r (some (i + token.length)) r
  | noToken {kind ahead : List Char → Prop} {i : Nat} {r : Option Nat} :
    (∀ token, ¬ Starts kind ahead (text.drop i) token) →
    Tries text (.token kind ahead) i r none r
  | rule {rule : Rule} {i j : Nat} {r r' : Option Nat} : Tries text rule.body i r (some j) r' →
    Tries text (.rule rule) i r (some j) r'
  | noRule {rule : Rule} {i : Nat} {r r' : Option Nat} : Tries text rule.body i r none r' →
    Tries text (.rule rule) i r none (blamed r' i)
  | done {i : Nat} {r : Option Nat} : Tries text (.sequence []) i r (some i) r
  | part {p : Pattern} {ps : List Pattern} {i j : Nat} {stop r r' r'' : Option Nat} :
    Tries text p i r (some j) r' → Tries text (.sequence ps) j r' stop r'' →
    Tries text (.sequence (p :: ps)) i r stop r''
  | noPart {p : Pattern} {ps : List Pattern} {i : Nat} {r r' : Option Nat} :
    Tries text p i r none r' → Tries text (.sequence (p :: ps)) i r none r'
  | option {p : Pattern} {ps : List Pattern} {i j : Nat} {r r' : Option Nat} :
    Tries text p i r (some j) r' → Tries text (.choice (p :: ps)) i r (some j) r'
  | otherOption {p : Pattern} {ps : List Pattern} {i : Nat} {stop r r' r'' : Option Nat} :
    Tries text p i r none r' → Tries text (.choice ps) i r' stop r'' →
    Tries text (.choice (p :: ps)) i r stop r''
  | noOption {i : Nat} {r : Option Nat} : Tries text (.choice []) i r none r
  | again {p : Pattern} {i j : Nat} {stop r r' r'' : Option Nat} : text.drop i ≠ [] →
    Tries text p i r (some j) r' → i < j → Tries text (.many p) j r' stop r'' →
    Tries text (.many p) i r stop r''
  | idle {p : Pattern} {i j : Nat} {r r' : Option Nat} : text.drop i ≠ [] →
    Tries text p i r (some j) r' → j ≤ i → Tries text (.many p) i r (some j) r'
  | noMore {p : Pattern} {i : Nat} {r r' : Option Nat} : text.drop i ≠ [] →
    Tries text p i r none r' → Tries text (.many p) i r (some i) r'
  | atEnd {p : Pattern} {i : Nat} {r : Option Nat} : text.drop i = [] →
    Tries text (.many p) i r (some i) r

/-- Matching a text fails at a place: where the last failure is recorded, or where the match ends
before the text does. -/
inductive FailsAt (text : List Char) : Nat → Prop
  | mismatch {s : Nat} : Tries text (.rule .value) 0 none none (some s) → FailsAt text s
  | incomplete {s : Nat} {r : Option Nat} : Tries text (.rule .value) 0 none (some s) r →
    s < text.length → FailsAt text s

/-- A pattern comes to one end and leaves one record. -/
theorem Tries.unique {text : List Char} {p : Pattern} {i : Nat} {r stop stop' r' r'' : Option Nat}
    (h : Tries text p i r stop r') (h' : Tries text p i r stop' r'') : stop = stop' ∧ r' = r'' := by
  induction h generalizing stop' r'' with
  | char hc =>
    cases h' with
    | char => exact ⟨rfl, rfl⟩
    | noChar hno => exact absurd hc (hno _)
  | noChar hno =>
    cases h' with
    | char hc => exact absurd hc (hno _)
    | noChar => exact ⟨rfl, rfl⟩
  | token hstarts hlongest =>
    cases h' with
    | token hstarts' hlongest' =>
      have hlength := Nat.le_antisymm (hlongest' _ hstarts) (hlongest _ hstarts')
      exact ⟨by rw [hlength], rfl⟩
    | noToken hno => exact absurd hstarts (hno _)
  | noToken hno =>
    cases h' with
    | token hstarts _ => exact absurd hstarts (hno _)
    | noToken => exact ⟨rfl, rfl⟩
  | rule _ ih =>
    cases h' with
    | rule hbody => exact ih hbody
    | noRule hbody => exact nomatch (ih hbody).1
  | noRule _ ih =>
    cases h' with
    | rule hbody => exact nomatch (ih hbody).1
    | noRule hbody => exact ⟨rfl, by rw [(ih hbody).2]⟩
  | done =>
    cases h'
    exact ⟨rfl, rfl⟩
  | part _ _ ihpart ihrest =>
    cases h' with
    | part hpart hrest =>
      obtain ⟨hj, rfl⟩ := ihpart hpart
      cases hj
      exact ihrest hrest
    | noPart hpart => exact nomatch (ihpart hpart).1
  | noPart _ ih =>
    cases h' with
    | part hpart _ => exact nomatch (ih hpart).1
    | noPart hpart => exact ⟨rfl, (ih hpart).2⟩
  | option _ ih =>
    cases h' with
    | option hp => exact ih hp
    | otherOption hp _ => exact nomatch (ih hp).1
  | otherOption _ _ ih ihrest =>
    cases h' with
    | option hp => exact nomatch (ih hp).1
    | otherOption hp hrest =>
      obtain ⟨_, rfl⟩ := ih hp
      exact ihrest hrest
  | noOption =>
    cases h'
    exact ⟨rfl, rfl⟩
  | again hne _ hlt _ ih ihrest =>
    cases h' with
    | again _ hp _ hrest =>
      obtain ⟨hj, rfl⟩ := ih hp
      cases hj
      exact ihrest hrest
    | idle _ hp hle =>
      cases (ih hp).1
      omega
    | noMore _ hp => exact nomatch (ih hp).1
    | atEnd hend => exact absurd hend hne
  | idle hne _ hle ih =>
    cases h' with
    | again _ hp hlt _ =>
      cases (ih hp).1
      omega
    | idle _ hp _ => exact ih hp
    | noMore _ hp => exact nomatch (ih hp).1
    | atEnd hend => exact absurd hend hne
  | noMore hne _ ih =>
    cases h' with
    | again _ hp _ _ | idle _ hp _ => exact nomatch (ih hp).1
    | noMore _ hp => exact ⟨rfl, (ih hp).2⟩
    | atEnd hend => exact absurd hend hne
  | atEnd hend =>
    cases h' with
    | again hne _ _ _ | idle hne _ _ | noMore hne _ => exact absurd hend hne
    | atEnd => exact ⟨rfl, rfl⟩

theorem FailsAt.unique {text : List Char} {s s' : Nat} (h : FailsAt text s) (h' : FailsAt text s') :
    s = s' := by
  cases h with
  | mismatch h =>
    cases h' with
    | mismatch h' => exact Option.some.inj (h.unique h').2
    | incomplete h' _ => exact nomatch (h.unique h').1
  | incomplete h _ =>
    cases h' with
    | mismatch h' => exact nomatch (h.unique h').1
    | incomplete h' _ => exact Option.some.inj (h.unique h').1

end SharedConstants.Expr
