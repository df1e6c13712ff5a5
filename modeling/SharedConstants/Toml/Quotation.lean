import SharedConstants.Toml.Scan

/-!
# Texts of documents

A text stands in single or double quotes, or in three of them when it may span lines. Single
quotes take their content literally; double quotes resolve escapes.
-/
namespace SharedConstants.Toml

/-- The character of a letter behind a backslash. -/
def escapedChar? (c : Char) : Option Char :=
  match c with
  | 'b' => some '\x08'
  | 't' => some '\t'
  | 'n' => some '\n'
  | 'f' => some '\x0c'
  | 'r' => some '\x0d'
  | '"' => some '"'
  | '\\' => some '\\'
  | _ => none

def isHexDigit (c : Char) : Bool :=
  ('0' ≤ c && c ≤ '9') || ('a' ≤ c && c ≤ 'f') || ('A' ≤ c && c ≤ 'F')

/-- The character of a code point that is written in hexadecimal digits. Surrogates are no
characters. -/
def codePoint? (digits : List Char) : Option Char :=
  if digits.all isHexDigit then
    let n := Decimal.ofDigits 16 digits
    if n.isValidChar then some (Char.ofNat n) else none
  else none

/-- Behind a backslash at the end of a line, blanks and line ends are left out: first the
blanks of the line itself, then all of both kinds. -/
inductive Trimming
  | none
  | line
  | gaps
  deriving DecidableEq, Repr

/-- The content of a text in double quotes, up to the closing quote, and the rest. -/
def doubleQuoted : List Char → Option (List Char × List Char)
  | [] => none
  | '"' :: cs => some ([], cs)
  | '\\' :: 'u' :: a :: b :: c :: d :: cs => do
    let x ← codePoint? [a, b, c, d]
    let (text, rest) ← doubleQuoted cs
    return (x :: text, rest)
  | '\\' :: 'U' :: a :: b :: c :: d :: e :: f :: g :: h :: cs => do
    let x ← codePoint? [a, b, c, d, e, f, g, h]
    let (text, rest) ← doubleQuoted cs
    return (x :: text, rest)
  | '\\' :: c :: cs => do
    let x ← escapedChar? c
    let (text, rest) ← doubleQuoted cs
    return (x :: text, rest)
  | c :: cs =>
    if c = '\n' ∨ isControl c then none
    else (doubleQuoted cs).map fun (text, rest) => (c :: text, rest)

/-- The content of a text in three double quotes, and the rest. -/
def tripleQuoted : Trimming → List Char → Option (List Char × List Char)
  | .line, ' ' :: cs | .line, '\t' :: cs => tripleQuoted .line cs
  | .line, '\n' :: cs => tripleQuoted .gaps cs
  | .line, _ => none
  | .gaps, ' ' :: cs | .gaps, '\t' :: cs | .gaps, '\n' :: cs => tripleQuoted .gaps cs
  | _, [] => none
  | _, '"' :: '"' :: '"' :: cs => some ([], cs)
  | _, '\\' :: ' ' :: cs | _, '\\' :: '\t' :: cs => tripleQuoted .line cs
  | _, '\\' :: '\n' :: cs => tripleQuoted .gaps cs
  | _, '\\' :: 'u' :: a :: b :: c :: d :: cs => do
    let x ← codePoint? [a, b, c, d]
    let (text, rest) ← tripleQuoted .none cs
    return (x :: text, rest)
  | _, '\\' :: 'U' :: a :: b :: c :: d :: e :: f :: g :: h :: cs => do
    let x ← codePoint? [a, b, c, d, e, f, g, h]
    let (text, rest) ← tripleQuoted .none cs
    return (x :: text, rest)
  | _, '\\' :: c :: cs => do
    let x ← escapedChar? c
    let (text, rest) ← tripleQuoted .none cs
    return (x :: text, rest)
  | _, c :: cs =>
    if c ≠ '\n' ∧ isControl c then none
    else (tripleQuoted .none cs).map fun (text, rest) => (c :: text, rest)

/-- The content of a text in single quotes, and the rest. -/
def singleQuoted : List Char → Option (List Char × List Char)
  | [] => none
  | '\'' :: cs => some ([], cs)
  | c :: cs =>
    if c = '\n' ∨ isControl c then none
    else (singleQuoted cs).map fun (text, rest) => (c :: text, rest)

/-- The content of a text in three single quotes, and the rest. -/
def tripleSingleQuoted : List Char → Option (List Char × List Char)
  | [] => none
  | '\'' :: '\'' :: '\'' :: cs => some ([], cs)
  | c :: cs =>
    if c ≠ '\n' ∧ isControl c then none
    else (tripleSingleQuoted cs).map fun (text, rest) => (c :: text, rest)

/-- Up to two quotes in front of the closing three belong to the text. -/
def extraQuotes (quote : Char) : List Char × List Char → List Char × List Char
  | (text, c :: d :: rest) =>
    if c ≠ quote then (text, c :: d :: rest)
    else if d ≠ quote then (text ++ [quote], d :: rest)
    else (text ++ [quote, quote], rest)
  | (text, [c]) => if c = quote then (text ++ [quote], []) else (text, [c])
  | (text, []) => (text, [])

/-- A line end right behind the opening quotes is left out. -/
def skipLineEnd : List Char → List Char
  | '\n' :: cs => cs
  | cs => cs

/-- The content of a text on one line, where one stands in front. -/
def takeLineText : List Char → Option (List Char × List Char)
  | '"' :: cs => doubleQuoted cs
  | '\'' :: cs => singleQuoted cs
  | _ => none

/-- The content of a text, where one stands in front. -/
def takeText : List Char → Option (List Char × List Char)
  | '"' :: '"' :: '"' :: cs => (tripleQuoted .none (skipLineEnd cs)).map (extraQuotes '"')
  | '\'' :: '\'' :: '\'' :: cs =>
    (tripleSingleQuoted (skipLineEnd cs)).map (extraQuotes '\'')
  | cs => takeLineText cs

end SharedConstants.Toml
