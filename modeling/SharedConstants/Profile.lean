import SharedConstants.Format.Literal
import SharedConstants.Template

/-!
# Profiles

A profile describes one target notation: a template for statements, templates for import
lines and comments if the notation has them, a text in front and one behind, and rules for
spelling values. It may name a formatter for its output. Whatever a profile renders it renders
without failing, because its templates were checked when it was built.
-/
namespace SharedConstants

/-- One target notation. -/
structure Profile where
  name : String
  fileExt : String
  statement : Template .statement
  importLine : Option (Template .importLine) := none
  comment : Option (Template .comment) := none
  intro : Option (Template .intro) := none
  outro : Option (Template .outro) := none
  formatter : Option (List String) := none
  defaults : FormatRule := {}
  types : List (String × FormatRule) := []

/-- A profile whose templates are not checked yet. -/
structure ProfileDraft where
  name : String
  fileExt : String
  statement : String
  importLine : Option String := none
  comment : Option String := none
  intro : Option String := none
  outro : Option String := none
  formatter : Option (List String) := none
  defaults : FormatRule := {}
  types : List (String × FormatRule) := []

/-- Takes a text as a template of a slot, if there is one. -/
def Template.ofText? (slot : Slot) :
    Option String → Except Diagnostic (Option (Template slot))
  | none => .ok none
  | some text => (Template.ofText slot text).map some

/-- Checks the templates of a profile. A fault is placed at the profile. -/
def ProfileDraft.check (p : ProfileDraft) : Except Diagnostic Profile :=
  let checked : Except Diagnostic Profile := do
    let statement ← Template.ofText .statement p.statement
    let importLine ← Template.ofText? .importLine p.importLine
    let comment ← Template.ofText? .comment p.comment
    let intro ← Template.ofText? .intro p.intro
    let outro ← Template.ofText? .outro p.outro
    return {
      name := p.name, fileExt := p.fileExt, statement, importLine, comment, intro, outro
      formatter := p.formatter, defaults := p.defaults, types := p.types }
  checked.mapError (·.attachProfile p.name)

namespace Profile

/-- Whether statements spell the type of their constant. -/
def requiresType (p : Profile) : Bool := p.statement.uses "type"

def supportsComments (p : Profile) : Bool := p.comment.isSome

def statementValues (name type value parameter : String) : String :=
  if parameter = "name" then name else if parameter = "type" then type else value

def renderStatement (p : Profile) (name type value : String) : String :=
  p.statement.fill (statementValues name type value)

/-- An import line, in a notation that has them. -/
def renderImport (p : Profile) (path : String) : Except Diagnostic String :=
  match p.importLine with
  | none => .error { fault := .importsNotSupported, profile := some p.name }
  | some template => .ok (template.fill fun _ => path)

/-- A comment line for each line of a text, and one for an empty text. Notations without
comments have none. -/
def renderComment (p : Profile) (text : String) : List String :=
  match p.comment with
  | none => []
  | some template =>
    let lines := match Text.lines text with
      | [] => [""]
      | lines => lines
    lines.map fun line => template.fill fun _ => line

def renderIntro (p : Profile) : Option String := p.intro.map (·.fill fun _ => "")

def renderOutro (p : Profile) : Option String := p.outro.map (·.fill fun _ => "")

def override? (p : Profile) (typeName : String) : Option FormatRule := p.types.lookup typeName

end Profile

end SharedConstants
