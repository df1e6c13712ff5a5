import SharedConstants.Shell.Reader

/-!
# Reading commands

Commands are joined by operators and line ends, and some hold other commands between words of
their own. What does not fit is refused at the line where it stands.
-/
namespace SharedConstants.Shell

/-- The words that open, divide or close commands. -/
def keywords : List String :=
  ["!", "case", "do", "done", "elif", "else", "esac", "fi", "for", "if", "in", "then", "until",
    "while", "\x7b", "\x7d"]

/-- The keyword that a token is, where keywords count. -/
def keyword? : Token → Option String
  | .word [.text cs false] =>
    let text := String.ofList cs
    if keywords.contains text then some text else none
  | _ => none

/-- A token as complaints name it. -/
def tokenName (keywordsCount : Bool) (t : Token) : String :=
  match t with
  | .finish => "end of file"
  | .newline => "newline"
  | .operator o => "\"" ++ o ++ "\""
  | .redirect .. => "redirection"
  | .word _ =>
    match keyword? t with
    | some k => if keywordsCount then "\"" ++ k ++ "\"" else "word"
    | none => "word"

/-- Whether a token closes a list of commands. -/
def closesList (t : Token) : Bool :=
  match t with
  | .finish | .operator ")" | .operator ";;" => true
  | t =>
    let closing := ["then", "else", "elif", "fi", "do", "done", "esac", "\x7d"]
    closing.contains ((keyword? t).getD "")

/-- The names that no function may have. -/
def specialBuiltins : List String :=
  [".", ":", "break", "continue", "eval", "exec", "exit", "export", "readonly", "return", "set",
    "shift", "times", "trap", "unset"]

namespace Scan

def putBack (t : Token) : Scan Unit := modify fun s => { s with ahead := some t }

def token (commands : Commands) (close : Scan Unit) : Scan Token := do
  let s ← get
  match s.ahead with
  | some t =>
    set { s with ahead := none }
    return t
  | none => scanToken commands close (s.rest.length + 1)

/-- The next token behind line ends. -/
def tokenBehindLines (commands : Commands) (close : Scan Unit) : Nat → Scan Token
  | 0 => return .finish
  | fuel + 1 => do
    match ← token commands close with
    | .newline => tokenBehindLines commands close fuel
    | t => return t

/-- Refuses a token. -/
def unexpected {α : Type} (t : Token) (expected : Option String := none)
    (keywordsCount : Bool := true) : Scan α :=
  let text := match expected with
    | some e => s!"{tokenName keywordsCount t} unexpected (expecting {e})"
    | none => s!"{tokenName keywordsCount t} unexpected"
  fail text

end Scan

/-- What reading of commands needs: a reader of the commands inside, and what reads the
parenthesis that closes them. -/
structure Grammar where
  commands : Commands
  close : Scan Unit

namespace Grammar

def token (g : Grammar) : Scan Token := Scan.token g.commands g.close

def tokenBehindLines (g : Grammar) : Scan Token := do
  Scan.tokenBehindLines g.commands g.close ((← Scan.rest).length + 2)

/-- Demands a keyword. -/
def expect (g : Grammar) (word : String) : Scan Unit := do
  let t ← g.tokenBehindLines
  if keyword? t ≠ some word then Scan.unexpected t (some ("\"" ++ word ++ "\""))

/-- Commands, at least one. Where the script ends before, what closes the commands is missed
later on. -/
def body (g : Grammar) : Scan Tree := do
  match ← g.commands .body with
  | some tree => return tree
  | none =>
    match ← g.token with
    | .finish =>
      Scan.putBack .finish
      return .simple (← get).line [] [] []
    | t => Scan.unexpected t

/-- A word without the quotes in it, as the delimiter of a text. -/
def delimiterOf (w : Word) : Octets :=
  w.flatMap fun
    | .text cs _ => cs
    | .parameter name .. => '$' :: name
    | _ => []

def isQuotedWord (w : Word) : Bool :=
  w.any fun
    | .text _ q => q
    | _ => false

/-- The rest of a redirection. -/
def redirection (g : Grammar) (descriptor : Option Nat) (sign : String) : Scan Redirection := do
  match ← g.token with
  | .word w =>
    let input := descriptor.getD 0
    let output := descriptor.getD 1
    match sign with
    | "<" => return .file input .read w
    | "<>" => return .file input .readWrite w
    | "<&" => return .descriptor input w
    | ">" => return .file output .write w
    | ">|" => return .file output .overwrite w
    | ">>" => return .file output .append w
    | ">&" => return .descriptor output w
    | sign =>
      let s ← get
      let announced : Announced :=
        { number := s.nextDocument, delimiter := delimiterOf w
          stripsTabs := sign = "<<-", isQuoted := isQuotedWord w }
      set { s with announced := announced :: s.announced, nextDocument := s.nextDocument + 1 }
      return .document input announced.number
  | t => Scan.unexpected t none false

def redirections (g : Grammar) : Nat → Scan (List Redirection)
  | 0 => return []
  | fuel + 1 => do
    match ← g.token with
    | .redirect d sign =>
      let r ← g.redirection d sign
      return r :: (← redirections g fuel)
    | t => Scan.putBack t; return []

/-- The name and the value of a word that assigns to a variable. -/
def assignment? : Word → Option (Octets × Word)
  | .text cs false :: rest =>
    let name := cs.takeWhile Octets.isNameChar
    match cs.drop name.length with
    | '=' :: value =>
      if Octets.isName name then
        some (name, if value.isEmpty then rest else .text value false :: rest)
      else none
    | _ => none
  | _ => none

structure Simple where
  assignments : List (Octets × Word) := []
  words : List Word := []
  redirections : List Redirection := []

def function (g : Grammar) (name : Word) : Scan Tree := do
  match ← g.token with
  | .operator ")" =>
    match name with
    | [.text cs false] =>
      if !Octets.isName cs || specialBuiltins.contains (String.ofList cs) then
        Scan.fail "Bad function name"
      else
        let line := (← get).line
        match ← g.commands .command with
        | some body => return .define line cs body
        | none => Scan.unexpected (← g.token)
    | _ => Scan.fail "Bad function name"
  | t => Scan.unexpected t (some "\")\"") false

/-- A simple command from its parts so far on, or a function. -/
def simple (g : Grammar) (line : Nat) (s : Simple) : Nat → Scan Tree
  | 0 => return .simple line s.assignments s.words s.redirections
  | fuel + 1 => do
    match ← g.token with
    | .word w =>
      match if s.words.isEmpty then assignment? w else none with
      | some a => simple g line { s with assignments := s.assignments ++ [a] } fuel
      | none => simple g line { s with words := s.words ++ [w] } fuel
    | .redirect d sign =>
      let r ← g.redirection d sign
      simple g line { s with redirections := s.redirections ++ [r] } fuel
    | .operator "(" =>
      match s with
      | { assignments := [], words := [name], redirections := [] } => g.function name
      | _ =>
        Scan.putBack (.operator "(")
        return .simple line s.assignments s.words s.redirections
    | t =>
      Scan.putBack t
      return .simple line s.assignments s.words s.redirections

/-- The branches behind a condition. -/
def branches (g : Grammar) : Nat → Scan Tree
  | 0 => Scan.fail "end of file unexpected"
  | fuel + 1 => do
    let condition ← g.body
    g.expect "then"
    let body ← g.body
    let t ← g.tokenBehindLines
    match keyword? t with
    | some "elif" => return .choice condition body (some (← branches g fuel))
    | some "else" =>
      let other ← g.body
      g.expect "fi"
      return .choice condition body (some other)
    | some "fi" => return .choice condition body none
    | _ => Scan.unexpected t (some "\"fi\"")

/-- Words up to the end of a list of them. -/
def listWords (g : Grammar) : Nat → Scan (List Word)
  | 0 => return []
  | fuel + 1 => do
    match ← g.token with
    | .word w => return w :: (← listWords g fuel)
    | .newline | .operator ";" => return []
    | t => Scan.unexpected t none false

/-- A loop over words. -/
def each (g : Grammar) (line : Nat) : Scan Tree := do
  let t ← g.token
  let name ← match t with
    | .word [.text cs false] =>
      if Octets.isName cs then pure cs else Scan.fail "Bad for loop variable"
    | _ => Scan.fail "Bad for loop variable"
  let t ← g.tokenBehindLines
  let all : List Word := [[.parameter ['@'] .plain [] true]]
  let words ← match keyword? t, t with
    | some "in", _ => g.listWords ((← Scan.rest).length + 1)
    | _, .operator ";" => pure all
    | _, t => do
      Scan.putBack t
      pure all
  g.expect "do"
  let body ← g.body
  g.expect "done"
  return .each line name words body

/-- The patterns of a branch, up to the parenthesis. -/
def patterns (g : Grammar) : Token → Nat → Scan (List Word)
  | _, 0 => return []
  | t, fuel + 1 => do
    let w : Word := match t with
      | .word w => w
      | _ => []
    match ← g.token with
    | .operator "|" => return w :: (← patterns g (← g.token) fuel)
    | .operator ")" => return [w]
    | t => Scan.unexpected t (some "\")\"") false

/-- The branches of a selection. -/
def cases (g : Grammar) : Nat → Scan (List Branch)
  | 0 => return []
  | fuel + 1 => do
    let t ← g.tokenBehindLines
    if keyword? t = some "esac" then return []
    let t ← match t with
      | .operator "(" => g.token
      | t => pure t
    let patterns ← g.patterns t ((← Scan.rest).length + 1)
    let body ← g.commands .any
    let t ← g.tokenBehindLines
    match keyword? t, t with
    | some "esac", _ => return [.mk patterns body]
    | _, .operator ";;" => return .mk patterns body :: (← cases g fuel)
    | _, t => Scan.unexpected t (some "\";;\"")

/-- A selection by patterns. -/
def select (g : Grammar) (line : Nat) : Scan Tree := do
  match ← g.token with
  | .word w =>
    let t ← g.tokenBehindLines
    if keyword? t ≠ some "in" then Scan.unexpected t (some "\"in\"")
    return .select line w (← g.cases ((← Scan.rest).length + 1))
  | t => Scan.unexpected t (some "word") false

/-- A command with what is redirected behind it. -/
def redirectedCommand (g : Grammar) (line : Nat) (tree : Tree) : Scan Tree := do
  match ← g.redirections ((← Scan.rest).length + 1), tree with
  | [], tree => return tree
  | rs, .subshell line body [] => return .subshell line body rs
  | rs, tree => return .redirected line tree rs

/-- A command that starts with a token. -/
def commandFrom (g : Grammar) (line : Nat) (t : Token) : Scan Tree := do
  match keyword? t, t with
  | some "if", _ =>
    g.redirectedCommand line (← g.branches ((← Scan.rest).length + 1))
  | some "while", _ | some "until", _ =>
    let condition ← g.body
    g.expect "do"
    let body ← g.body
    g.expect "done"
    g.redirectedCommand line (.loop (keyword? t = some "until") condition body)
  | some "for", _ => g.redirectedCommand line (← g.each line)
  | some "case", _ => g.redirectedCommand line (← g.select line)
  | some "\x7b", _ =>
    let body ← g.body
    g.expect "\x7d"
    g.redirectedCommand line body
  | some _, t => Scan.unexpected t
  | none, .operator "(" =>
    let body ← g.body
    match ← g.tokenBehindLines with
    | .operator ")" => g.redirectedCommand line (.subshell line body [])
    | t => Scan.unexpected t (some "\")\"")
  | none, .word _ | none, .redirect .. =>
    Scan.putBack t
    g.simple (← get).line {} ((← Scan.rest).length + 2)
  | none, t => Scan.unexpected t

/-- Commands that are piped into one another. -/
def piped (g : Grammar) : Nat → Scan (List Tree)
  | 0 => return []
  | fuel + 1 => do
    match ← g.token with
    | .operator "|" =>
      let line := (← get).line
      let t ← g.tokenBehindLines
      let tree ← g.commandFrom line t
      return tree :: (← piped g fuel)
    | t => Scan.putBack t; return []

/-- A pipeline that starts with a token. A mark in front turns its status around. -/
def pipeline (g : Grammar) (line : Nat) (t : Token) : Scan Tree := do
  let isNegated := keyword? t = some "!"
  let line ← if isNegated then pure (← get).line else pure line
  let t ← if isNegated then g.token else pure t
  let first ← g.commandFrom line t
  let others ← g.piped ((← Scan.rest).length + 2)
  let tree := if others.isEmpty then first else .pipeline (first :: others)
  return if isNegated then .negation tree else tree

/-- Pipelines that depend on one another, behind the first one. -/
def dependent (g : Grammar) : Nat → Tree → Scan Tree
  | 0, tree => return tree
  | fuel + 1, tree => do
    match ← g.token with
    | .operator "&&" =>
      let line := (← get).line
      let next ← g.pipeline line (← g.tokenBehindLines)
      dependent g fuel (.both tree next)
    | .operator "||" =>
      let line := (← get).line
      let next ← g.pipeline line (← g.tokenBehindLines)
      dependent g fuel (.either tree next)
    | t => Scan.putBack t; return tree

/-- Adds a command to those before it. -/
def join (before : Option Tree) (tree : Tree) : Option Tree :=
  match before with
  | none => some tree
  | some b => some (.sequence b tree)

def list (g : Grammar) (goal : Goal) : Nat → Bool → Option Tree → Scan (Option Tree)
  | 0, _, before => return before
  | fuel + 1, mayClose, before => do
    let line := (← get).line
    let t ← if goal = .line then g.token else g.tokenBehindLines
    match t with
    | .newline => return before
    | .finish => Scan.putBack t; return before
    | t =>
      if mayClose && goal ≠ .line && closesList t then
        Scan.putBack t
        return before
      let first ← g.pipeline line t
      let tree ← g.dependent ((← Scan.rest).length + 2) first
      match ← g.token with
      | .operator "&" => list g goal fuel true (join before (.background tree))
      | .operator ";" => list g goal fuel true (join before tree)
      | .newline =>
        if goal = .line then return join before tree
        else list g goal fuel true (join before tree)
      | .finish => Scan.putBack .finish; return join before tree
      | t =>
        if goal = .line then Scan.unexpected t
        else
          Scan.putBack t
          return join before tree

end Grammar

/-- Reads commands. The fuel bounds how deep commands lie in one another. -/
def readCommands : Nat → Goal → Scan (Option Tree)
  | 0, _ => Scan.fail "end of file unexpected"
  | fuel + 1, goal => do
    let commands := readCommands fuel
    let close : Scan Unit := do
      match ← Scan.tokenBehindLines commands (pure ()) ((← Scan.rest).length + 2) with
      | .operator ")" => return
      | t => Scan.unexpected t (some "\")\"")
    let g : Grammar := ⟨commands, close⟩
    match goal with
    | .command =>
      let line := (← get).line
      return some (← g.commandFrom line (← g.tokenBehindLines))
    | goal => g.list goal ((← Scan.rest).length + 2) (goal = .any) none

end SharedConstants.Shell
