import SharedConstants.Shell.Tree

/-!
# Reading words

A script is read character by character. Words end where a blank, a line end or an operator
stands outside quotes; commands inside words are left to a reader of commands.
-/
namespace SharedConstants.Shell

/-- A text in a script that a redirection announced and that the next line starts. -/
structure Announced where
  number : Nat
  delimiter : Octets
  /-- Whether tabs in front of lines are left out. -/
  stripsTabs : Bool
  /-- Whether the text is taken as it is. -/
  isQuoted : Bool

inductive Token
  | word (w : Word)
  | operator (text : String)
  | newline
  | redirect (descriptor : Option Nat) (text : String)
  | finish

/-- A script that is being read. -/
structure ScanState where
  rest : Octets
  line : Nat := 1
  /-- A token that was read too early. -/
  ahead : Option Token := none
  announced : List Announced := []
  documents : List (Nat × Word) := []
  nextDocument : Nat := 0

/-- Why a script cannot be read on. -/
structure ScanFault where
  line : Nat
  text : String

/-- Reading of a script. -/
abbrev Scan := EStateM ScanFault ScanState

/-- What a reader of commands is to read. -/
inductive Goal
  /-- Commands up to the end of a line. -/
  | line
  /-- Commands, at least one, up to a word that closes them. -/
  | body
  /-- Commands, if there are any, up to what closes them. -/
  | any
  /-- A single command. -/
  | command
  deriving DecidableEq, Repr

/-- A reader of the commands inside words and commands. -/
abbrev Commands := Goal → Scan (Option Tree)

namespace Scan

def fail {α : Type} (text : String) : Scan α := do
  throw ⟨(← get).line, "Syntax error: " ++ text⟩

/-- The next character, which is used up. -/
def next? : Scan (Option Char) := do
  let s ← get
  match s.rest with
  | [] => return none
  | c :: cs =>
    set { s with rest := cs, line := if c = '\n' then s.line + 1 else s.line }
    return some c

def rest : Scan Octets := return (← get).rest

def skip (n : Nat) : Scan Unit := modify fun s =>
  { s with
    rest := s.rest.drop n
    line := s.line + (s.rest.take n).countP (· = '\n') }

/-- Uses up a backslash and a line end that stand ahead. -/
def skipJoins : Nat → Scan Unit
  | 0 => return
  | fuel + 1 => do
    match ← rest with
    | '\\' :: '\n' :: _ => skip 2; skipJoins fuel
    | _ => return

/-- The characters ahead, behind line ends that are taken away. -/
def restJoined : Scan Octets := do
  skipJoins (← rest).length
  rest

end Scan

/-- Where a piece of a word stands, and so what ends it. -/
inductive Setting
  /-- Outside quotes. -/
  | plain
  /-- Inside double quotes. -/
  | double
  /-- Inside the braces of a parameter. -/
  | braces (isQuoted : Bool)
  /-- Inside an arithmetic expression. -/
  | arithmetic
  /-- Inside a text that a redirection announced. -/
  | document
  deriving DecidableEq, Repr

namespace Setting

def isQuoted : Setting → Bool
  | .plain | .braces false => false
  | _ => true

end Setting

/-- Whether a character ends a word outside quotes. -/
def endsWord (c : Char) : Bool := " \t\n;&|<>()".toList.contains c

/-- Whether a single character may be the name of a parameter. -/
def isSpecialParameter (c : Char) : Bool := "@*#?-$!".toList.contains c

/-- Joins texts that stand side by side. -/
def joinTexts : List Piece → List Piece
  | [] => []
  | .text cs q :: rest =>
    match joinTexts rest with
    | .text ds r :: more =>
      if q = r then .text (cs ++ ds) q :: more else .text cs q :: .text ds r :: more
    | pieces => .text cs q :: pieces
  | p :: rest => p :: joinTexts rest

/-- The command text in backquotes and what follows it, backslashes resolved. -/
def takeBackquoted (isQuoted : Bool) : Nat → Scan (Option Octets)
  | 0 => return none
  | fuel + 1 => do
    match ← Scan.next? with
    | none => return none
    | some '\x60' => return some []
    | some '\\' =>
      match ← Scan.next? with
      | none => return none
      | some '\n' => takeBackquoted isQuoted fuel
      | some c =>
        let isResolved := c = '\\' || c = '\x60' || c = '$' || (isQuoted && c = '"')
        let front : Octets := if isResolved then [c] else ['\\', c]
        return (← takeBackquoted isQuoted fuel).map (front ++ ·)
    | some c => return (← takeBackquoted isQuoted fuel).map (c :: ·)

/-- A command in backquotes. -/
def readBackquoted (commands : Commands) (isQuoted : Bool) : Scan Piece := do
  match ← takeBackquoted isQuoted ((← Scan.rest).length + 1) with
  | none => Scan.fail "EOF in backquote substitution"
  | some text =>
    let outer ← get
    set { outer with rest := text, ahead := none }
    let body ← commands .any
    let inner ← get
    match inner.ahead with
    | some .finish | none =>
      set { outer with documents := inner.documents, nextDocument := inner.nextDocument }
      return .output body isQuoted
    | some _ => Scan.fail "EOF in backquote substitution"

/-- A command in parentheses. -/
def readParenthesized (commands : Commands) (isQuoted : Bool) (close : Scan Unit) : Scan Piece := do
  let saved := (← get).announced
  modify fun s => { s with announced := [] }
  let body ← commands .any
  close
  modify fun s => { s with announced := saved }
  return .output body isQuoted

/-- The operation behind the name of a parameter, and whether a word belongs to it. -/
def readOperation : Scan (Operation × Bool) := do
  match ← Scan.restJoined with
  | '}' :: _ => Scan.skip 1; return (.plain, false)
  | ':' :: c :: _ =>
    let found : Option Operation := match c with
      | '-' => some (.useDefault true)
      | '=' => some (.setDefault true)
      | '?' => some (.demand true)
      | '+' => some (.useOther true)
      | _ => none
    match found with
    | some o => Scan.skip 2; return (o, true)
    | none => return (.bad, true)
  | '#' :: '#' :: _ => Scan.skip 2; return (.trimFront true, true)
  | '%' :: '%' :: _ => Scan.skip 2; return (.trimBack true, true)
  | c :: _ =>
    let found : Option Operation := match c with
      | '-' => some (.useDefault false)
      | '=' => some (.setDefault false)
      | '?' => some (.demand false)
      | '+' => some (.useOther false)
      | '#' => some (.trimFront false)
      | '%' => some (.trimBack false)
      | _ => none
    match found with
    | some o => Scan.skip 1; return (o, true)
    | none => return (.bad, true)
  | [] => return (.plain, true)

/-- The name of a parameter ahead, if there is one. -/
def takeName : Scan Octets := do
  match ← Scan.restJoined with
  | c :: cs =>
    if Octets.isNameStart c then
      let name := (c :: cs).takeWhile Octets.isNameChar
      Scan.skip name.length
      return name
    else if Octets.isDigit c then
      let name := (c :: cs).takeWhile Octets.isDigit
      Scan.skip name.length
      return name
    else if isSpecialParameter c then
      Scan.skip 1
      return [c]
    else return []
  | [] => return []

/-- Whether a `#` behind the brace asks for a length, by what follows it. -/
def asksLength : Octets → Bool
  | [] => false
  | c :: cs => Octets.isNameChar c || (c ≠ '}' && cs.head? = some '}')

mutual

/-- Reads pieces of a word up to what ends them. -/
def readPieces (commands : Commands) (close : Scan Unit) (setting : Setting) :
    Nat → Scan (List Piece)
  | 0 => return []
  | fuel + 1 => do
    let more (p : Piece) : Scan (List Piece) := do
      return p :: (← readPieces commands close setting fuel)
    let q := setting.isQuoted
    match ← Scan.rest with
    | [] =>
      match setting with
      | .plain | .document => return []
      | .double => Scan.fail "Unterminated quoted string"
      | .braces true => Scan.fail "Unterminated quoted string"
      | .braces false => Scan.fail "Missing '\x7d'"
      | .arithmetic => Scan.fail "Missing '))'"
    | c :: cs =>
      if setting = .plain ∧ endsWord c then return []
      else if c = '\\' then readEscape commands close setting fuel
      else if c = '$' then
        Scan.skip 1
        let p ← readDollar commands close setting fuel
        more p
      else if c = '\x60' then
        Scan.skip 1
        let p ← readBackquoted commands q
        more p
      else
        match setting, c with
        | .double, '"' => Scan.skip 1; return []
        | .braces _, '}' => Scan.skip 1; return []
        | .braces true, '"' => do
          Scan.skip 1
          let inside ← readPieces commands close .double fuel
          return .text [] true :: inside ++ (← readPieces commands close setting fuel)
        | .arithmetic, ')' =>
          match cs with
          | ')' :: _ => Scan.skip 2; return []
          | _ => Scan.skip 1; more (.text [')'] true)
        | .arithmetic, '(' => do
          Scan.skip 1
          let inside ← readGroup commands close fuel
          return .text ['('] true :: inside ++ (← readPieces commands close setting fuel)
        | .plain, '"' | .braces false, '"' => do
          Scan.skip 1
          let inside ← readPieces commands close .double fuel
          let inside := match inside with
            | [.parameter ['@'] .plain ..] => inside
            | _ => .text [] true :: inside
          return inside ++ (← readPieces commands close setting fuel)
        | .plain, '\'' | .braces false, '\'' => do
          let body := cs.takeWhile (· ≠ '\'')
          if body.length = cs.length then
            Scan.skip (cs.length + 1)
            Scan.fail "Unterminated quoted string"
          Scan.skip (body.length + 2)
          more (.text body true)
        | _, c => Scan.skip 1; more (.text [c] q)

/-- Reads what a backslash makes of the character behind it, and the pieces that follow. -/
def readEscape (commands : Commands) (close : Scan Unit) (setting : Setting) :
    Nat → Scan (List Piece)
  | 0 => return []
  | fuel + 1 => do
    let more (p : Piece) : Scan (List Piece) := do
      return p :: (← readPieces commands close setting fuel)
    match ← Scan.rest with
    | _ :: '\n' :: _ => Scan.skip 2; readPieces commands close setting fuel
    | [_] => Scan.skip 1; more (.text ['\\'] true)
    | _ :: c :: _ =>
      Scan.skip 2
      let isResolved := match setting with
        | .plain | .braces false => true
        | .double | .arithmetic => c = '\\' || c = '\x60' || c = '$' || c = '"'
        | .braces true => c = '\\' || c = '\x60' || c = '$' || c = '"' || c = '}'
        | .document => c = '\\' || c = '\x60' || c = '$'
      more (.text (if isResolved then [c] else ['\\', c]) true)
    | [] => return []

/-- Reads what a dollar sign starts. -/
def readDollar (commands : Commands) (close : Scan Unit) (setting : Setting) : Nat → Scan Piece
  | 0 => return .text ['$'] setting.isQuoted
  | fuel + 1 => do
    let q := setting.isQuoted
    match ← Scan.restJoined with
    | '(' :: more =>
      Scan.skip 1
      match more with
      | '(' :: _ =>
        Scan.skip 1
        return .arithmetic (joinTexts (← readPieces commands close .arithmetic fuel)) q
      | _ => readParenthesized commands q close
    | '{' :: _ =>
      Scan.skip 1
      readBraced commands close setting fuel
    | c :: cs =>
      if Octets.isNameStart c then
        let name := (c :: cs).takeWhile Octets.isNameChar
        Scan.skip name.length
        return .parameter name .plain [] q
      else if Octets.isDigit c ∨ isSpecialParameter c then
        Scan.skip 1
        return .parameter [c] .plain [] q
      else return .text ['$'] q
    | [] => return .text ['$'] q

/-- Reads a parameter in braces. -/
def readBraced (commands : Commands) (close : Scan Unit) (setting : Setting) : Nat → Scan Piece
  | 0 => return .text [] true
  | fuel + 1 => do
    let q := setting.isQuoted
    match ← Scan.restJoined with
    | '#' :: cs =>
      if asksLength cs then
        Scan.skip 1
        let name ← takeName
        match ← Scan.restJoined with
        | '}' :: _ => Scan.skip 1; return .parameter name .length [] q
        | _ =>
          let word ← readPieces commands close (.braces q) fuel
          return .parameter name .bad (joinTexts word) q
      else readBracedName commands close setting fuel
    | _ => readBracedName commands close setting fuel

/-- Reads the name of a parameter in braces, and what is to be done with its value. -/
def readBracedName (commands : Commands) (close : Scan Unit) (setting : Setting) :
    Nat → Scan Piece
  | 0 => return .text [] true
  | fuel + 1 => do
    let q := setting.isQuoted
    let name ← takeName
    let (operation, hasWord) ← readOperation
    let operation := if name = [] then .bad else operation
    if !hasWord then return .parameter name operation [] q
    let inner : Setting := match operation with
      | .trimFront _ | .trimBack _ => .braces false
      | _ => .braces q
    let word ← readPieces commands close inner fuel
    return .parameter name operation (joinTexts word) q

/-- Reads what stands in parentheses in an arithmetic expression, with the closing one. -/
def readGroup (commands : Commands) (close : Scan Unit) : Nat → Scan (List Piece)
  | 0 => return []
  | fuel + 1 => do
    match ← Scan.rest with
    | ')' :: _ => Scan.skip 1; return [.text [')'] true]
    | '(' :: _ =>
      Scan.skip 1
      let inside ← readGroup commands close fuel
      return .text ['('] true :: inside ++ (← readGroup commands close fuel)
    | [] => Scan.fail "Missing '))'"
    | '$' :: _ =>
      Scan.skip 1
      let p ← readDollar commands close .arithmetic fuel
      return p :: (← readGroup commands close fuel)
    | '\x60' :: _ =>
      Scan.skip 1
      let p ← readBackquoted commands true
      return p :: (← readGroup commands close fuel)
    | c :: _ =>
      Scan.skip 1
      return .text [c] true :: (← readGroup commands close fuel)

end

def readWord (commands : Commands) (close : Scan Unit) : Scan Word := do
  return joinTexts (← readPieces commands close .plain (2 * (← Scan.rest).length + 8))

/-- The lines of an announced text, up to its delimiter. -/
def takeDocument (a : Announced) : Nat → Scan Octets
  | 0 => return []
  | fuel + 1 => do
    match ← Scan.rest with
    | [] => return []
    | cs =>
      let line := cs.takeWhile (· ≠ '\n')
      Scan.skip (line.length + 1)
      let shown := if a.stripsTabs then line.dropWhile (· = '\t') else line
      if shown = a.delimiter then return []
      else
        let ends : Octets := if line.length < cs.length then ['\n'] else []
        return shown ++ ends ++ (← takeDocument a fuel)

/-- Reads the texts that the last line announced. -/
def readDocuments (commands : Commands) (close : Scan Unit) : List Announced → Scan Unit
  | [] => return
  | a :: rest => do
    let text ← takeDocument a ((← Scan.rest).length + 1)
    let outer ← get
    let word : Word ← if a.isQuoted then pure [.text text true] else do
      set { outer with rest := text, announced := [] }
      let pieces ← readPieces commands close .document (2 * text.length + 8)
      pure (joinTexts pieces)
    modify fun s =>
      { s with
        rest := outer.rest, line := outer.line, documents := (a.number, word) :: s.documents }
    readDocuments commands close rest

/-- The operators, those of more characters first. -/
def operators : List String := ["&&", "||", ";;", ";", "&", "|", "(", ")"]

/-- The operators of redirections, those of more characters first. -/
def redirections : List String := ["<<-", "<<", "<&", "<>", "<", ">>", ">&", ">|", ">"]

/-- The first text of a list that stands ahead. -/
def ahead? (texts : List String) (cs : Octets) : Option String :=
  texts.find? fun t => t.toList.isPrefixOf cs

def scanToken (commands : Commands) (close : Scan Unit) : Nat → Scan Token
  | 0 => return .finish
  | fuel + 1 => do
    match ← Scan.rest with
    | [] => return .finish
    | c :: cs =>
      if c = ' ' ∨ c = '\t' then Scan.skip 1; scanToken commands close fuel
      else if c = '\\' ∧ cs.head? = some '\n' then Scan.skip 2; scanToken commands close fuel
      else if c = '#' then
        Scan.skip ((c :: cs).takeWhile (· ≠ '\n')).length
        scanToken commands close fuel
      else if c = '\n' then
        Scan.skip 1
        let announced := (← get).announced
        modify fun s => { s with announced := [] }
        readDocuments commands close announced.reverse
        return .newline
      else
        match ahead? redirections (c :: cs), ahead? operators (c :: cs) with
        | some r, _ => Scan.skip r.length; return .redirect none r
        | none, some o => Scan.skip o.length; return .operator o
        | none, none =>
          let word ← readWord commands close
          match word, ahead? redirections (← Scan.rest) with
          | [.text [d] false], some r =>
            if Octets.isDigit d then
              Scan.skip r.length
              return .redirect (some (d.toNat - 48)) r
            else return .word word
          | _, _ => return .word word

end SharedConstants.Shell
