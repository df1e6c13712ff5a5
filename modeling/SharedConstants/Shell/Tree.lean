import SharedConstants.Command.Octets

/-!
# Scripts as trees

A script is made of commands: simple ones, which are words with redirections, and those that
hold other commands. A word is a sequence of pieces, some of which are replaced when the word
is used.
-/
namespace SharedConstants.Shell

/-- What is done with the value of a parameter. The flags of the first four tell whether an
empty value counts as none. -/
inductive Operation
  | plain
  | useDefault (emptyToo : Bool)
  | setDefault (emptyToo : Bool)
  | demand (emptyToo : Bool)
  | useOther (emptyToo : Bool)
  | length
  | trimFront (isLongest : Bool)
  | trimBack (isLongest : Bool)
  /-- An operation that there is none of. -/
  | bad
  deriving DecidableEq, Repr

inductive OpenMode
  | read
  | write
  /-- Write even where files are protected. -/
  | overwrite
  | append
  | readWrite
  deriving DecidableEq, Repr

mutual

/-- A piece of a word. Quoted pieces are neither split nor taken as patterns. -/
inductive Piece
  | text (cs : Octets) (isQuoted : Bool)
  | parameter (name : Octets) (operation : Operation) (word : List Piece) (isQuoted : Bool)
  /-- What a command writes. -/
  | output (body : Option Tree) (isQuoted : Bool)
  | arithmetic (word : List Piece) (isQuoted : Bool)

inductive Redirection
  | file (descriptor : Nat) (mode : OpenMode) (name : List Piece)
  /-- To another descriptor, or to none if the word is a dash. -/
  | descriptor (descriptor : Nat) (source : List Piece)
  /-- To a text in the script, by its number. -/
  | document (descriptor : Nat) (number : Nat)

/-- A case of several and what is done in it. -/
inductive Branch
  | mk (patterns : List (List Piece)) (body : Option Tree)

/-- A command. The numbers are those of lines. -/
inductive Tree
  | simple (line : Nat) (assignments : List (Octets × List Piece)) (words : List (List Piece))
      (redirections : List Redirection)
  | pipeline (commands : List Tree)
  | background (body : Tree)
  | sequence (first second : Tree)
  | both (first second : Tree)
  | either (first second : Tree)
  | negation (body : Tree)
  | subshell (line : Nat) (body : Tree) (redirections : List Redirection)
  | redirected (line : Nat) (body : Tree) (redirections : List Redirection)
  | choice (condition body : Tree) (other : Option Tree)
  | loop (isUntil : Bool) (condition body : Tree)
  | each (line : Nat) (name : Octets) (words : List (List Piece)) (body : Tree)
  | select (line : Nat) (word : List Piece) (branches : List Branch)
  | define (line : Nat) (name : Octets) (body : Tree)

end

abbrev Word := List Piece

end SharedConstants.Shell
