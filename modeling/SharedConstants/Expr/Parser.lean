import SharedConstants.Expr.Draft
import SharedConstants.Expr.Nesting
import SharedConstants.Operator.Builtin

/-!
# Reading expressions

A value text is an expression in prefix notation. Reading it matches the parentheses, reads
a draft, and then looks up operators and reads numbers, operands before the application they
belong to. Every failure carries the part of the text at fault.
-/
namespace SharedConstants.Expr

/-- Whether a character ends the token in a message. -/
def endsToken (c : Char) : Bool := c = '(' || c = ')' || Text.isSpace c

/-- The token at a position: a parenthesis, or the characters up to a space or parenthesis. -/
def tokenSpan (text : List Char) (position : Nat) : Span :=
  match text.drop position with
  | [] => ⟨text.length, text.length + 1⟩
  | c :: rest =>
    if c = '(' ∨ c = ')' then ⟨position, position + 1⟩
    else ⟨position, position + ((c :: rest).takeWhile fun d => !endsToken d).length⟩

def slice (text : List Char) (span : Span) : List Char :=
  (text.take span.stop).drop span.start

/-- Whether more parentheses open than close. -/
def isInside (text : List Char) : Bool := text.count ')' < text.count '('

/-- What is wrong at the place where reading stopped. -/
def describe (text : List Char) (position : Nat) : ExpressionFault :=
  let before := text.take position
  match text[position]? with
  | none => .unexpectedEnd
  | some c =>
    if (Text.trimRight before).getLast? = some '(' then
      if c = ')' then .emptyApplication else .operatorExpected
    else if isInside before && before.getLast?.any (!Text.isSpace ·) && c != ')' then
      .operandsUnseparated
    else .unexpected (String.ofList (slice text (tokenSpan text position)))

/-- The failure of a reading that stopped at a position. -/
def stoppedAt (text : List Char) (position : Nat) : Diagnostic :=
  { fault := .expression (describe text position), span := some (tokenSpan text position) }

/-- The digits of a numeral without the underscores between them. -/
def bareDigits (digits : List Char) : List Char := digits.filter (· ≠ '_')

/-- The integer that a sign and the digits of a radix spell. -/
def numberOf (negative : Bool) (radix : Nat) (digits : List Char) : Int :=
  let magnitude : Int := Decimal.ofDigits radix (bareDigits digits)
  if negative then -magnitude else magnitude

/-- Reads the digits of a number. Decimal numbers of too many digits are given up, and so
are numbers out of range that are too long to be shown. -/
def readNumber (negative : Bool) (radix : Nat) (digits : List Char) (span : Span) :
    Except Failure Value :=
  if radix = 10 ∧ Datum.digitLimit < (bareDigits digits).length then .error .oversized
  else
    let n := numberOf negative radix digits
    match Value.checkRange "integer literal" n with
    | .ok n => .ok (.integer n)
    | .error fault =>
      if Datum.isShowable n then .error (.reported { fault, span := some span })
      else .error .oversized

/-- The names of a registry, for users who mistyped one. -/
def operatorHint (ops : OperatorRegistry) : String :=
  "known operators: " ++ Datum.commaSeparated (ops.names.mergeSort (· ≤ ·))

/-- Looks up the operator of an application and checks how many operands it has. -/
def checkApplication (ops : OperatorRegistry) (name : String) (nameSpan : Span) (given : Nat)
    (span : Span) : Except Failure Unit :=
  match ops.get? name with
  | none =>
    .error (.reported
      { fault := .expression (.unknownOperator name)
        span := some nameSpan
        hint := operatorHint ops })
  | some op =>
    if op.arity.accepts given then .ok ()
    else
      .error (.reported
        { fault := .expression (.operandCount op.name op.arity given), span := some span })

mutual

def ofDraft (ops : OperatorRegistry) : Draft → Except Failure Expr
  | .atom (.boolean b) span => .ok (.literal (.boolean b) span)
  | .atom (.number negative radix digits) span =>
    match readNumber negative radix digits span with
    | .ok v => .ok (.literal v span)
    | .error failure => .error failure
  | .atom (.name text) span => .ok (.reference (String.ofList text) span)
  | .apply operator operatorSpan operands span =>
    match ofDrafts ops operands with
    | .error failure => .error failure
    | .ok es =>
      let name := String.ofList operator
      match checkApplication ops name operatorSpan es.length span with
      | .ok () => .ok (.apply name es span)
      | .error failure => .error failure

/-- The expressions that drafts stand for, from left to right. -/
def ofDrafts (ops : OperatorRegistry) : List Draft → Except Failure (List Expr)
  | [] => .ok []
  | d :: ds =>
    match ofDraft ops d with
    | .error failure => .error failure
    | .ok e =>
      match ofDrafts ops ds with
      | .error failure => .error failure
      | .ok es => .ok (e :: es)

end

/-- Reads an expression that fills a text. -/
def parseText (ops : OperatorRegistry) (text : List Char) : Except Failure Expr :=
  match nestingFault? text with
  | some mark =>
    .error (.reported { fault := .expression mark.fault, span := some mark.span })
  | none =>
    match readDraft text with
    | .error position => .error (.reported (stoppedAt text position))
    | .ok draft => ofDraft ops draft

/-- Reads a value text; failures carry the text and the constant it belongs to. -/
def parse (ops : OperatorRegistry) (text : String) (constant : Option String) :
    Except Failure Expr :=
  (parseText ops text.toList).mapError
    (Failure.map fun d => d.attach constant none (some text) none)

/-- The literal of a value that a document holds natively. -/
def ofNative (v : Value) (constant : Option String) : Except Failure Expr :=
  match v with
  | .boolean _ => .ok (.literal v default)
  | .integer n =>
    match Value.checkRange "integer literal" n with
    | .ok _ => .ok (.literal v default)
    | .error fault =>
      if Datum.isShowable n then
        .error (.reported { fault, constant, source := some (toString n) })
      else .error .oversized

end SharedConstants.Expr
