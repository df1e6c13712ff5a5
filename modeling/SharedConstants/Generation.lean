import SharedConstants.Constant.Resolution
import SharedConstants.Document.Options
import SharedConstants.Emission
import SharedConstants.FileSystem
import SharedConstants.Formatter

/-!
# Generation

Resolved constants are rendered through profiles. Each profile has an outcome of its own: an
artifact, passed through the formatter of the profile if it has one, or the reason why there
is none. A failing formatter leaves the artifact as it was emitted, unless formatters are
required. Artifacts are written whole or not at all: to a temporary file first, which then
takes the place of the artifact's file.
-/
namespace SharedConstants

/-- What happened to a profile. There is an artifact exactly if there is no failure. Hence an
artifact that is stored before its formatter runs, and taken back when the formatter is required
and fails, has no state of its own: it is put together with the reply. -/
inductive Rendering
  /-- An artifact, and the fault of the formatter that it was not passed through. -/
  | rendered (artifact : Artifact) (formatted : Bool) (warning : Option String)
  | failed (diagnostic : Diagnostic)
  | givenUp

structure Outcome where
  profile : String
  result : Rendering

namespace Outcome

def artifact? (o : Outcome) : Option Artifact :=
  match o.result with
  | .rendered a .. => some a
  | _ => none

def diagnostic? (o : Outcome) : Option Diagnostic :=
  match o.result with
  | .failed d => some d
  | _ => none

def isFormatted (o : Outcome) : Bool :=
  match o.result with
  | .rendered _ formatted _ => formatted
  | _ => false

def isGivenUp (o : Outcome) : Bool :=
  match o.result with
  | .givenUp => true
  | _ => false

end Outcome

structure FormatterPolicy (m : Type → Type) where
  formatters : Formatters m
  isEnabled : Bool := true
  isRequired : Bool := false

namespace Generation

def formatterDiagnostic (p : Profile) (command : List String) (fault : FormatterFault) :
    Diagnostic :=
  { fault := .formatter command fault, profile := some p.name }

/-- What becomes of an artifact by the reply of the formatter that it was passed through. -/
def withReply (isRequired : Bool) (p : Profile) (command : List String) (a : Artifact) :
    FormatterReply → Rendering
  | .formatted text => .rendered { a with text } true none
  | .givenUp => .givenUp
  | .failed fault =>
    let d := formatterDiagnostic p command fault
    if isRequired then .failed d else .rendered a false (some d.message)

variable {m : Type → Type} [Monad m]

/-- Passes an artifact through the formatter of its profile. -/
def applyFormatter (policy : FormatterPolicy m) (p : Profile) (a : Artifact) : m Rendering :=
  match policy.isEnabled, p.formatter with
  | false, _ | _, none | _, some [] => pure (.rendered a false none)
  | true, some command =>
    withReply policy.isRequired p command a <$> policy.formatters command a.text

/-- Renders a profile. A failure is placed at the profile. -/
def renderProfile (o : Options) (policy : FormatterPolicy m) (resolved : Resolved)
    (name : String) : m Outcome :=
  match o.profiles.get name with
  | .error d => pure ⟨name, .failed (d.attachProfile name)⟩
  | .ok p =>
    match o.profiles.emit o.comments resolved name with
    | .error d => pure ⟨name, .failed (d.attachProfile name)⟩
    | .ok a => Outcome.mk name <$> applyFormatter policy p a

/-- Renders profiles in order, up to one where work is given up. -/
def renderAll (o : Options) (policy : FormatterPolicy m) (resolved : Resolved) :
    List String → m (List Outcome)
  | [] => pure []
  | name :: names => do
    let outcome ← renderProfile o policy resolved name
    if outcome.isGivenUp then return [outcome]
    else return outcome :: (← renderAll o policy resolved names)

/-- Renders profiles in order, those that are enabled if none are named. -/
def render (o : Options) (policy : FormatterPolicy m) (resolved : Resolved)
    (names : List String) : m (List Outcome) :=
  renderAll o policy resolved (if names.isEmpty then o.enabledProfiles else names)

/-- The name of the file that an artifact is written to before it is complete. -/
def temporaryName (fileName suffix : String) : String := s!".{fileName}.{suffix}"

/-- The first name for a temporary file that no file in a directory has. -/
def freshName (fs : FileSystem) (directory : Location) (fileName : String) : String :=
  let candidates := (List.range (fs.nodes.length + 1)).map fun i =>
    let digits := toString i
    temporaryName fileName
      (String.ofList (List.replicate (8 - digits.length) '0') ++ digits)
  (candidates.find? fun name => (fs.node? (directory ++ [name])).isNone).getD
    (temporaryName fileName "00000000")

/-- A place as messages show it: as seen from the working directory where it lies inside. -/
def shownPlace (fs : FileSystem) (directory : Location) (name : String) : String :=
  let place := directory ++ [name]
  if fs.cwd.isPrefixOf place then "/".intercalate (place.drop fs.cwd.length)
  else "/" ++ "/".intercalate place

/-- Fills a temporary file and moves it onto a path. If that fails, the file is removed. -/
def replaceFile (outages : FileSystem.Outages) (fs : FileSystem) (directory : Location)
    (path : FilePath) (content : ByteArray) : Except FileFailure Unit × FileSystem :=
  let name := freshName fs directory path.fileName
  let temporary := directory ++ [name]
  let shown := shownPlace fs directory (temporaryName path.fileName "*")
  match fs.perform outages (.create temporary) with
  | (.error e, fs) => (.error (.failed e shown none), fs)
  | (.ok (), fs) =>
    match fs.perform outages (.write temporary content) with
    | (.error e, fs) => (.error (.failed e none none), fs.erase temporary)
    | (.ok (), fs) =>
      match fs.perform outages (.move temporary path) with
      | (.error e, fs) => (.error (.failed e shown (some path.toText)), fs.erase temporary)
      | (.ok (), fs) => (.ok (), fs)

def artifactPath (directory stem : String) (a : Artifact) : FilePath :=
  (FilePath.ofText directory).child (a.fileName stem)

/-- Writes an artifact into a directory, which is made if it is missing. -/
def writeArtifact (outages : FileSystem.Outages) (directory stem : String) (a : Artifact)
    (fs : FileSystem) : Except FileFailure Unit × FileSystem :=
  let target := FilePath.ofText directory
  if FilePath.hasNull directory then (.error .nullInPath, fs)
  else
    match FileSystem.makeDirectories outages target.root target.parts.reverse fs with
    | (.error failure, fs) => (.error failure, fs)
    | (.ok (), fs) =>
      if FilePath.hasNull (a.fileName stem) then (.error .nullInPath, fs)
      else
        match fs.locate target with
        | .error e => (.error (.failed e target.toText none), fs)
        | .ok place =>
          replaceFile outages fs place (artifactPath directory stem a) a.text.toUTF8

/-- What became of writing artifacts: the paths that were written, and the failure that
stopped it. -/
structure Written where
  paths : List FilePath := []
  failure : Option FileFailure := none
  files : FileSystem

/-- Writes artifacts in order; the first failure stops. -/
def writeAll (outages : FileSystem.Outages) (directory stem : String) :
    List Artifact → FileSystem → Written
  | [], fs => { files := fs }
  | a :: rest, fs =>
    match writeArtifact outages directory stem a fs with
    | (.error failure, fs) => { failure := some failure, files := fs }
    | (.ok (), fs) =>
      let others := writeAll outages directory stem rest fs
      { others with paths := artifactPath directory stem a :: others.paths }

def write (outages : FileSystem.Outages) (directory stem : String) (outcomes : List Outcome)
    (fs : FileSystem) : Written :=
  writeAll outages directory stem (outcomes.filterMap Outcome.artifact?) fs

end Generation

end SharedConstants
