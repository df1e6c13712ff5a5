import SharedConstants.Operator
import SharedConstants.Operator.Bits

/-!
# Built-in operators

The operators that every value text may use. Integer results are checked against the signed
128-bit range after each step of a fold, so nothing ever wraps. The meanings are total: a
truth value counts as a number and a number as a truth value where an operator registered by
hand lets it in, but a truth value is no integer result.
-/
namespace SharedConstants.Operator

/-- A computation on operands. -/
abbrev Meaning := List Value → Except Fault Value

def missing (name : String) : Except Fault Value :=
  .error (.operand name .missing)

/-- What a result of an operator is called in messages. -/
def resultOf (name : String) : String := "result of " ++ Text.quoted name

/-- A number in the signed 128-bit range, as the result of an operator. -/
def result (name : String) (n : Int) : Except Fault Value :=
  (Value.checkRange (resultOf name) n).map Value.integer

/-- The result of an operator whose operands leave a truth value. -/
def leftTruth (b : Bool) : Except Fault Value :=
  .error (.mismatch (.expected .integer (.boolean b)))

/-- Folds a step over the operands from the left, checking each partial result. When
`keepsTruth` holds of the operands, the fold leaves a truth value. -/
def fold (name : String) (step : Int → Int → Int) (keepsTruth : List Value → Bool) : Meaning
  | [] => missing name
  | v :: vs => do
    let n ← vs.foldlM (fun acc w => Value.checkRange (resultOf name) (step acc w.number)) v.number
    if keepsTruth (v :: vs) then leftTruth (n != 0) else .ok (.integer n)

/-- An arithmetic fold leaves a truth value only when there is nothing to add to it. -/
def arithmetic (name : String) (step : Int → Int → Int) : Meaning :=
  fold name step fun operands => operands.length == 1 && operands.all Value.isBoolean

/-- A bitwise fold of truth values leaves a truth value. -/
def bitwise (name : String) (step : Int → Int → Int) : Meaning :=
  fold name step fun operands => operands.all Value.isBoolean

/-- The first operand that no other beats. -/
def best (name : String) (beats : Int → Int → Bool) : Meaning
  | [] => .error (.operand name (.noChoice name))
  | v :: vs =>
    match vs.foldl (fun b w => if beats w.number b.number then w else b) v with
    | .integer n => .ok (.integer n)
    | .boolean b => leftTruth b

/-- A computation on the first two operands. -/
def binary (name : String) (f : Value → Value → Except Fault Value) : Meaning
  | a :: b :: _ => f a b
  | _ => missing name

/-- The quotient, truncated toward zero: that of the magnitudes, negated if just one of the numbers
is negative. -/
def quotient (a b : Int) : Int :=
  let size : Int := ↑(a.natAbs / b.natAbs)
  if a < 0 ↔ b < 0 then size else -size

/-- What the quotient leaves of the dividend; it has the sign of the dividend. -/
def residue (a b : Int) : Int := a - b * quotient a b

theorem quotient_eq_tdiv (a b : Int) : quotient a b = a.tdiv b := by
  have hpos : ∀ m : Nat, ¬ Int.ofNat m < 0 := fun m => Int.not_lt.mpr (Int.natCast_nonneg m)
  have hneg : ∀ m : Nat, Int.negSucc m < 0 := Int.negSucc_lt_zero
  unfold quotient
  cases a with
  | ofNat m =>
    cases b with
    | ofNat n => exact if_pos (iff_of_false (hpos m) (hpos n))
    | negSucc n => exact if_neg fun h => hpos m (h.mpr (hneg n))
  | negSucc m =>
    cases b with
    | ofNat n => exact if_neg fun h => hpos n (h.mp (hneg m))
    | negSucc n => exact if_pos (iff_of_true (hneg m) (hneg n))

theorem residue_eq_tmod (a b : Int) : residue a b = a.tmod b := by
  rw [residue, quotient_eq_tdiv, Int.tmod_def]

/-- Division, truncated toward zero. -/
def divide : Meaning :=
  binary "div" fun a b =>
    if b.number = 0 then .error (.divisionByZero "div")
    else result "div" (quotient a.number b.number)

/-- The remainder of truncated division. -/
def remainder : Meaning :=
  binary "mod" fun a b =>
    if b.number = 0 then .error (.divisionByZero "mod")
    else result "mod" (residue a.number b.number)

/-- Shifts by this much or more move every bit of a 128-bit integer out. -/
def maxShift : Int := 128

/-- The first operand times a power of two. -/
def shiftLeft : Meaning :=
  binary "shl" fun a b =>
    if b.number < 0 then .error (.evaluation (.negativeShift "shl" b.number))
    else if a.number = 0 then result "shl" 0
    else if maxShift ≤ b.number then .error (.overflow (.shift a b.number))
    else result "shl" (a.number * Nat.pow 2 b.number.toNat)

/-- The first operand divided by a power of two, rounded down. -/
def shiftRight : Meaning :=
  binary "shr" fun a b =>
    if b.number < 0 then .error (.evaluation (.negativeShift "shr" b.number))
    else .ok (.integer (a.number >>> (min b.number maxShift).toNat))

/-- Whether two operands of the same kind are equal. There must be no others. -/
def equal : Meaning
  | [a, b] =>
    if a.kind ≠ b.kind then .error (.operand "eq" (.mixedKinds a.kind b.kind))
    else .ok (.boolean (a = b))
  | operands => .error (.operand "eq" (.unpaired operands.length))

def negate : Meaning
  | [] => missing "not"
  | v :: _ => .ok (.boolean !v.truth)

/-- Whether an odd number of truth values hold. -/
def parity (operands : List Value) : Bool :=
  operands.foldl (fun acc v => (Value.boolean acc).number != v.number) false

def integersOnly : Kind → Bool
  | .integer => true
  | .boolean => false

def booleansOnly : Kind → Bool
  | .boolean => true
  | .integer => false

def anyKind : Kind → Bool := fun _ => true

def builtin : List Operator := [
  ⟨"not", .exactly 1, booleansOnly, negate, "logical negation"⟩,
  ⟨"and", .atLeast 1, booleansOnly, fun vs => .ok (.boolean (vs.all Value.truth)), "logical and"⟩,
  ⟨"or", .atLeast 1, booleansOnly, fun vs => .ok (.boolean (vs.any Value.truth)), "logical or"⟩,
  ⟨"xor", .atLeast 1, booleansOnly, fun vs => .ok (.boolean (parity vs)), "logical exclusive or"⟩,
  ⟨"add", .atLeast 2, integersOnly, arithmetic "add" (· + ·), "sum"⟩,
  ⟨"sub", .atLeast 2, integersOnly, arithmetic "sub" (· - ·), "left fold of subtraction"⟩,
  ⟨"mul", .atLeast 2, integersOnly, arithmetic "mul" (· * ·), "product"⟩,
  ⟨"div", .exactly 2, integersOnly, divide, "quotient truncated toward zero"⟩,
  ⟨"mod", .exactly 2, integersOnly, remainder, "remainder with the sign of the dividend"⟩,
  ⟨"shl", .exactly 2, integersOnly, shiftLeft, "left shift"⟩,
  ⟨"shr", .exactly 2, integersOnly, shiftRight, "arithmetic right shift"⟩,
  ⟨"bitand", .atLeast 2, integersOnly, bitwise "bitand" Bits.and, "bitwise and"⟩,
  ⟨"bitor", .atLeast 2, integersOnly, bitwise "bitor" Bits.or, "bitwise or"⟩,
  ⟨"bitxor", .atLeast 2, integersOnly, bitwise "bitxor" Bits.xor, "bitwise exclusive or"⟩,
  ⟨"min", .atLeast 1, integersOnly, best "min" (· < ·), "smallest operand"⟩,
  ⟨"max", .atLeast 1, integersOnly, best "max" (· > ·), "largest operand"⟩,
  ⟨"eq", .exactly 2, anyKind, equal, "equality"⟩,
  ⟨"lt", .exactly 2, integersOnly,
    binary "lt" fun a b => .ok (.boolean (a.number < b.number)), "less than"⟩,
  ⟨"le", .exactly 2, integersOnly,
    binary "le" fun a b => .ok (.boolean (a.number ≤ b.number)), "less than or equal"⟩]

end SharedConstants.Operator

namespace SharedConstants

def OperatorRegistry.builtin : OperatorRegistry := ⟨Operator.builtin⟩

end SharedConstants
