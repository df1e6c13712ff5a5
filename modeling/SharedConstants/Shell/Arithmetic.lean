import SharedConstants.Command.Octets

/-!
# Arithmetic

Expressions over integers of 64 bits with the usual operators. Names stand for the numbers that
variables hold, and assignments change variables. What cannot count is read but not computed.
-/
namespace SharedConstants.Shell

/-- The integer that is left of one when it is kept in 64 bits. -/
def wrapped (n : Int) : Int := Int.bmod n 18446744073709551616

/-- Whether an integer fits into 64 bits. -/
def isWord (n : Int) : Bool := wrapped n = n

/-- The nearest integer of 64 bits. -/
def clamped (n : Int) : Int :=
  if isWord n then n else if n < 0 then -9223372036854775808 else 9223372036854775807

/-- Digits at the front, in a base that their own front tells if none is given. -/
def takeMagnitude? (base : Option Nat) (cs : Octets) : Option (Nat × Octets) :=
  let digits (b : Nat) (cs : Octets) : Option (Nat × Octets) :=
    match Octets.takeDigits b cs with
    | ([], _) => none
    | (ds, rest) => some (Octets.numberOf b ds, rest)
  match base, cs with
  | some b, cs => digits b cs
  | none, '0' :: x :: more =>
    match if x = 'x' ∨ x = 'X' then digits 16 more else none with
    | some found => some found
    | none => digits 8 cs
  | none, '0' :: more => some (0, more)
  | none, cs => digits 10 cs

/-- An integer at the front, behind spaces and with a sign. -/
def takeInteger? (base : Option Nat) (cs : Octets) : Option (Int × Octets) :=
  match cs.dropWhile Octets.isSpace with
  | '-' :: rest => (takeMagnitude? base rest).map fun (n, rest) => (-(n : Int), rest)
  | '+' :: rest => (takeMagnitude? base rest).map fun (n, rest) => ((n : Int), rest)
  | rest => (takeMagnitude? base rest).map fun (n, rest) => ((n : Int), rest)

/-- The integer that a text holds. Blank texts hold zero where no base is given. -/
def integer? (base : Option Nat) (cs : Octets) : Option Int :=
  match takeInteger? base cs with
  | some (n, rest) => if isWord n ∧ rest.all Octets.isSpace then some n else none
  | none => if base.isNone ∧ cs.all Octets.isSpace then some 0 else none

def count? (cs : Octets) : Option Nat :=
  match integer? (some 10) cs with
  | some n => if 0 ≤ n ∧ n < 2147483648 then some n.toNat else none
  | none => none

/-- What is wrong with a text that should hold a number. -/
def illegalNumber (cs : Octets) : Octets := "Illegal number: ".toList ++ cs

namespace Arithmetic

inductive Token
  | number (n : Int)
  | name (cs : Octets)
  | sign (text : String)
  deriving DecidableEq

/-- The signs, longer ones first. -/
def signs : List String :=
  ["<<=", ">>=", "==", "!=", "<=", ">=", "<<", ">>", "&&", "||", "*=", "/=", "%=", "+=", "-=",
    "&=", "^=", "|=", "=", "<", ">", "&", "|", "^", "*", "/", "%", "+", "-", "!", "~", "(", ")",
    "?", ":"]

/-- The tokens of an expression. What is no token is a sign that fits nowhere. -/
def tokens : Nat → Octets → List Token
  | 0, _ => []
  | _, [] => []
  | fuel + 1, c :: cs =>
    if c = ' ' ∨ c = '\t' ∨ c = '\n' then tokens fuel cs
    else if Octets.isNameStart c then
      let name := (c :: cs).takeWhile Octets.isNameChar
      .name name :: tokens fuel ((c :: cs).drop name.length)
    else
      match takeMagnitude? none (c :: cs) with
      | some (n, rest) => .number (clamped n) :: tokens fuel rest
      | none =>
        match signs.find? fun s => s.toList.isPrefixOf (c :: cs) with
        | some s => .sign s :: tokens fuel ((c :: cs).drop s.length)
        | none => .sign "" :: tokens fuel cs

/-- A computation that is going on. -/
structure Computing where
  rest : List Token
  /-- The variables that were assigned to, the last one first. -/
  assigned : List (Octets × Int) := []

/-- A computation, which may fail with a complaint. -/
abbrev Computation := StateT Computing (Except Octets)

/-- What is known outside: the text of the expression, and the values of variables. -/
structure Surroundings where
  text : Octets
  value? : Octets → Option Octets

namespace Surroundings

def fail {α : Type} (o : Surroundings) (complaint : String) : Computation α :=
  throw ("arithmetic expression: ".toList ++ complaint.toList ++ ": \"".toList ++ o.text ++ ['"'])

def valueOf (o : Surroundings) (name : Octets) : Computation Int := do
  match (← get).assigned.lookup name with
  | some n => return n
  | none =>
    let text := (o.value? name).getD []
    match integer? none text with
    | some n => return n
    | none => throw (illegalNumber text)

/-- How tightly a sign between two numbers binds; a smaller number binds more tightly. -/
def tightness? (sign : String) : Option Nat :=
  match sign with
  | "*" | "/" | "%" => some 0
  | "+" | "-" => some 1
  | "<<" | ">>" => some 2
  | "<" | "<=" | ">" | ">=" => some 3
  | "==" | "!=" => some 4
  | "&" => some 5
  | "^" => some 6
  | "|" => some 7
  | _ => none

def truth (b : Bool) : Int := if b then 1 else 0

/-- The result of a sign between two numbers. -/
def combine (o : Surroundings) (sign : String) (a b : Int) : Computation Int :=
  let bits (f : Int64 → Int64 → Int64) : Computation Int :=
    pure (f (Int64.ofInt a) (Int64.ofInt b)).toInt
  match sign with
  | "*" => pure (wrapped (a * b))
  | "/" => if b = 0 then o.fail "division by zero" else pure (wrapped (Int.tdiv a b))
  | "%" => if b = 0 then o.fail "division by zero" else pure (wrapped (Int.tmod a b))
  | "+" => pure (wrapped (a + b))
  | "-" => pure (wrapped (a - b))
  | "<<" => bits (· <<< ·)
  | ">>" => bits (· >>> ·)
  | "<" => pure (truth (a < b))
  | "<=" => pure (truth (a ≤ b))
  | ">" => pure (truth (b < a))
  | ">=" => pure (truth (b ≤ a))
  | "==" => pure (truth (a = b))
  | "!=" => pure (truth (a ≠ b))
  | "&" => bits (· &&& ·)
  | "^" => bits (· ^^^ ·)
  | _ => bits (· ||| ·)

def peek? : Computation (Option Token) := return (← get).rest.head?

def skip : Computation Unit := modify fun s => { s with rest := s.rest.drop 1 }

/-- Uses up a sign if it stands ahead. -/
def takes (sign : String) : Computation Bool := do
  if (← peek?) = some (.sign sign) then
    skip
    return true
  return false

mutual

def assignment (o : Surroundings) (counts : Bool) : Nat → Computation Int
  | 0 => o.fail "expecting primary"
  | fuel + 1 => do
    match (← get).rest with
    | .name name :: .sign sign :: _ =>
      let isPlain : Bool := sign = "="
      let inner := String.ofList sign.toList.dropLast
      if isPlain || (sign.toList.getLast? = some '=' && (tightness? inner).isSome &&
          inner ≠ "<" && inner ≠ ">") then
        skip
        skip
        let n ← assignment o counts fuel
        if !counts then return n
        let n ← if isPlain then pure n else o.combine inner (← o.valueOf name) n
        modify fun s => { s with assigned := (name, n) :: s.assigned }
        return n
      else condition o counts fuel
    | _ => condition o counts fuel

/-- A choice between two results. -/
def condition (o : Surroundings) (counts : Bool) : Nat → Computation Int
  | 0 => o.fail "expecting primary"
  | fuel + 1 => do
    let a ← either o counts fuel
    if !(← takes "?") then return a
    let b ← assignment o (counts && a ≠ 0) fuel
    if !(← takes ":") then o.fail "expecting ':'"
    let c ← condition o (counts && a = 0) fuel
    return if a ≠ 0 then b else c

def either (o : Surroundings) (counts : Bool) : Nat → Computation Int
  | 0 => o.fail "expecting primary"
  | fuel + 1 => do
    let a ← both o counts fuel
    if !(← takes "||") then return a
    let b ← either o (counts && a = 0) fuel
    return truth (a ≠ 0 || b ≠ 0)

def both (o : Surroundings) (counts : Bool) : Nat → Computation Int
  | 0 => o.fail "expecting primary"
  | fuel + 1 => do
    let a ← joined o counts 8 fuel
    if !(← takes "&&") then return a
    let b ← both o (counts && a ≠ 0) fuel
    return truth (a ≠ 0 && b ≠ 0)

/-- Numbers joined by signs that bind more tightly than a bound. -/
def joined (o : Surroundings) (counts : Bool) (bound : Nat) : Nat → Computation Int
  | 0 => o.fail "expecting primary"
  | fuel + 1 => do
    let a ← single o counts fuel
    joinedTo o counts bound a fuel

/-- What follows a number, as far as it binds more tightly than a bound. -/
def joinedTo (o : Surroundings) (counts : Bool) (bound : Nat) (a : Int) : Nat → Computation Int
  | 0 => o.fail "expecting primary"
  | fuel + 1 => do
    match ← peek? with
    | some (.sign sign) =>
      match tightness? sign with
      | some t =>
        if t < bound then
          skip
          let b ← joined o counts t fuel
          let c ← if counts then o.combine sign a b else pure b
          joinedTo o counts bound c fuel
        else return a
      | none => return a
    | _ => return a

/-- A number, a variable, an expression in parentheses, or one of these behind signs. -/
def single (o : Surroundings) (counts : Bool) : Nat → Computation Int
  | 0 => o.fail "expecting primary"
  | fuel + 1 => do
    let token ← peek?
    skip
    match token with
    | some (.number n) => return n
    | some (.name name) => if counts then o.valueOf name else return 0
    | some (.sign "(") =>
      let n ← assignment o counts fuel
      if !(← takes ")") then o.fail "expecting ')'"
      return n
    | some (.sign "+") => single o counts fuel
    | some (.sign "-") => return wrapped (-(← single o counts fuel))
    | some (.sign "!") => return truth ((← single o counts fuel) = 0)
    | some (.sign "~") => return -(← single o counts fuel) - 1
    | _ => o.fail "expecting primary"

end

def whole (o : Surroundings) : Computation Int := do
  let rest := (← get).rest
  let n ← o.assignment true (8 * rest.length + 16)
  if (← peek?).isSome then o.fail "expecting EOF"
  return n

end Surroundings

/-- The value of an expression, and the variables that it changes, in order. -/
def evaluate (value? : Octets → Option Octets) (text : Octets) :
    Except Octets (Int × List (Octets × Int)) :=
  let o : Surroundings := ⟨text, value?⟩
  match o.whole.run { rest := tokens text.length text } with
  | .ok (n, s) => .ok (n, s.assigned.reverse)
  | .error complaint => .error complaint

end Arithmetic

end SharedConstants.Shell
