import SharedConstants.Constant.Resolution
import SharedConstants.Profile.Registry

/-!
# Emission

Resolved constants become the text of a profile. The text is a sequence of parts: the intro,
the import lines and a blank line, a statement for each constant, the outro. With comments
each section has a title and each constant its own comment in front of it. What can fail is
checked before anything is rendered, so the parts themselves cannot.
-/
namespace SharedConstants

structure Artifact where
  profile : String
  fileExt : String
  text : String
  deriving DecidableEq, Repr

def Artifact.fileName (a : Artifact) (stem : String) : String := stem ++ a.fileExt

/-- A constant with the format that its profile gives it. -/
abbrev Formatted := ResolvedConstant × EffectiveFormat

namespace Emission

def introTitle : String := "Start body block"

def importsTitle : String := "Imports"

def constantsTitle : String := "Constants"

def outroTitle : String := "End body block"

/-- The formats of constants, in order. A fault is placed at its constant. -/
def formats (coverage : Bool) (p : Profile) :
    List ResolvedConstant → Except Diagnostic (List Formatted)
  | [] => .ok []
  | rc :: rest =>
    match p.effectiveFormat coverage rc.typeName with
    | .error d => .error (d.attachConstant rc.name)
    | .ok format =>
      match formats coverage p rest with
      | .error d => .error d
      | .ok formatted => .ok ((rc, format) :: formatted)

/-- The imports that constants need, each once, in the order of their first use. -/
def imports (constants : List Formatted) : List String :=
  (constants.flatMap (·.2.settings.imports)).eraseDups

/-- The import lines. Without imports none are needed. -/
def importLines (p : Profile) (paths : List String) : Except Diagnostic (List String) :=
  paths.mapM p.renderImport

/-- Fails for the first constant without a type where statements need types. -/
def checkTypes (p : Profile) (constants : List Formatted) : Except Diagnostic Unit :=
  match constants.find? fun (rc, _) => p.requiresType && rc.typeName.isNone with
  | none => .ok ()
  | some (rc, _) =>
    .error { fault := .typeRequired, profile := some p.name, constant := some rc.name }

/-- The title of a section, where comments are wanted. -/
def title (comments : Bool) (p : Profile) (text : String) : List String :=
  if comments then p.renderComment text else []

def statement (p : Profile) : Formatted → String
  | (rc, format) =>
    p.renderStatement rc.name format.typeToken (format.settings.formatLiteral rc.value)

/-- The comment of a constant, where comments are wanted. -/
def constantComment (comments : Bool) (p : Profile) (rc : ResolvedConstant) : List String :=
  match rc.constant.comment with
  | none | some "" => []
  | some text => title comments p text

/-- A text with the title of its section, if there is a text. -/
def titled (comments : Bool) (p : Profile) (heading : String) : Option String → List String
  | none => []
  | some text => title comments p heading ++ [text]

def parts (comments : Bool) (p : Profile) (importLines : List String)
    (constants : List Formatted) : List String :=
  titled comments p introTitle p.renderIntro ++
    (if importLines.isEmpty then [] else title comments p importsTitle ++ importLines ++ [""]) ++
    title comments p constantsTitle ++
    constants.flatMap (fun c => constantComment comments p c.1 ++ [statement p c]) ++
    titled comments p outroTitle p.renderOutro

def render (coverage comments : Bool) (p : Profile) (resolved : Resolved) :
    Except Diagnostic String := do
  let constants ← formats coverage p resolved.constants
  let lines ← importLines p (imports constants)
  checkTypes p constants
  return "\n".intercalate (parts comments p lines constants) ++ "\n"

end Emission

namespace ProfileRegistry

/-- How a profile spells the values of a type. -/
def effectiveFormat (r : ProfileRegistry) (profile : String) (typeName : Option String) :
    Except Diagnostic EffectiveFormat := do
  let p ← r.get profile
  p.effectiveFormat r.coverage typeName

def requiredImports (r : ProfileRegistry) (p : Profile) (resolved : Resolved) :
    Except Diagnostic (List String) :=
  (Emission.formats r.coverage p resolved.constants).map Emission.imports

/-- Emits constants through a profile. -/
def emit (r : ProfileRegistry) (comments : Bool) (resolved : Resolved) (name : String) :
    Except Diagnostic Artifact := do
  let p ← r.get name
  let text ← Emission.render r.coverage comments p resolved
  return ⟨p.name, p.fileExt, text⟩

/-- Emits constants through several profiles; the first failure stops. -/
def emitAll (r : ProfileRegistry) (comments : Bool) (resolved : Resolved)
    (names : List String) : Except Diagnostic (List Artifact) :=
  names.mapM (r.emit comments resolved)

end ProfileRegistry

end SharedConstants
