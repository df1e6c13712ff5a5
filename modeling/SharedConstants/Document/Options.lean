import SharedConstants.Document.Section
import SharedConstants.Profile.Registry
import SharedConstants.SemanticType.Registry

/-!
# Options documents

An options document says which profiles to generate, declares types and describes the
profiles. Reading stops at the first fault. Sections are read in a fixed order: the switches,
the types, the profiles; inside a profile its rules for types come first and its templates
are checked last.
-/
namespace SharedConstants

/-- The switches of a run. A switch that a document leaves blank is off. -/
structure Switches where
  enabled : List String := []
  commentSections : Option Bool := some false
  strictTypes : Option Bool := some false
  strictFormats : Option Bool := some false

/-- Everything that an options document configures. -/
structure Options where
  switches : Switches := {}
  types : TypeRegistry := {}
  profiles : ProfileRegistry := {}

namespace Options

/-- The profiles to generate: those that are listed, or all of them if none are. -/
def enabledProfiles (o : Options) : List String :=
  if o.switches.enabled.isEmpty then o.profiles.names else o.switches.enabled

def comments (o : Options) : Bool := o.switches.commentSections == some true

/-- A read that is given up for a number too long to be shown is a fault of an entry instead,
where the entry's own checks fail in words. -/
def inWords {α : Type} (s : Section) (key : String) : Except Failure α → Except Failure α
  | .error .oversized => .error (Section.failure (.entry s.place key .oversized))
  | result => result

def readSwitches (s : Section) : Except Failure Switches := do
  let enabled ← s.texts? "enabled"
  let commentSections ← s.switchOr "comment_sections" false
  let strictTypes ← s.switchOr "strict_types" false
  let strictFormats ← s.switchOr "strict_formats" false
  return { enabled := enabled.getD [], commentSections, strictTypes, strictFormats }

def readKind (s : Section) : Except Failure Kind := do
  let name ← inWords s "kind" (s.text? "kind")
  match Kind.ofText? (name.getD "integer") with
  | some kind => return kind
  | none => throw (s.entryFailure "kind" (.unknownKind (name.getD "integer")))

def readType (name : String) (s : Section) : Except Failure SemanticType := do
  let kind ← readKind s
  let bits ← inWords s "bits" (s.integer? "bits" 1)
  let signed ← inWords s "bits" (s.switchOr "signed" false)
  match SemanticType.make? name kind (bits.getD 64) signed with
  | some t => return t
  | none => throw (s.entryFailure "bits" (.bitsOutOfBounds name (bits.getD 64)))

/-- The texts of both booleans, as an array or as a table. -/
def booleanTexts? : Datum → Option (String × String)
  | .array [.text t, .text f] => some (t, f)
  | .table [("true", .text t), ("false", .text f)] => some (t, f)
  | .table [("false", .text f), ("true", .text t)] => some (t, f)
  | _ => none

/-- Reads how booleans are spelled. -/
def readBoolean (s : Section) : Except Failure (Option (String × String)) :=
  match s.find? "boolean" with
  | none | some .null => .ok none
  | some d =>
    match booleanTexts? d with
    | some texts => .ok (some texts)
    | none => .error (s.entryFailure "boolean" .expectedBooleanTexts)

def readRadix (s : Section) : Except Failure (Option Radix) :=
  match s.find? "radix" with
  | none => .ok none
  | some _ => do
    let name ← inWords s "radix" (s.text "radix")
    match Radix.ofText? name with
    | some radix => return some radix
    | none => throw (s.entryFailure "radix" (.unknownRadix name))

def integerFormatKeys : List String :=
  ["radix", "underscores", "separator", "zero_pad", "omit_prefix"]

def readIntegerFormat (s : Section) : Except Failure FormatRule := do
  let radix ← readRadix s
  let groupWidth ← s.integer? "underscores" 0
  let groupSeparator ← s.text? "separator"
  let zeroPad ← s.integer? "zero_pad" 0
  let omitMark ← s.switch? "omit_prefix"
  return { radix, groupWidth, groupSeparator, zeroPad, omitMark }

def readFormat (s : Section) : Except Failure FormatRule := do
  let boolean ← readBoolean s
  let integer ← match ← s.open? "integer" (some integerFormatKeys) with
    | none => pure {}
    | some integer => readIntegerFormat integer
  return { integer with boolean }

/-- Reads the format inside a section, if it has one. -/
def readFormat? (s : Section) : Except Failure FormatRule := do
  match ← s.open? "format" (some ["boolean", "integer"]) with
  | none => return {}
  | some format => readFormat format

def readRule (s : Section) : Except Failure FormatRule := do
  let format ← readFormat? s
  let typeName ← s.text? "name"
  let leading ← s.text? "value_prefix"
  let trailing ← s.text? "value_suffix"
  let imports ← s.texts? "import"
  return { format with typeName, leading, trailing, imports }

/-- Reads each entry of a section as a section of its own. -/
def readEach {α : Type} (room : Nat) (place : String → String) (known : List String)
    (read : String → Section → Except Failure α) :
    List (String × Datum) → Except Failure (List α)
  | [] => .ok []
  | (name, d) :: rest => do
    let s ← Section.ofDatum room (place name) (some known) d
    let first ← read name s
    let others ← readEach room place known read rest
    return first :: others

def readFormatter (s : Section) : Except Failure (Option (List String)) := do
  match ← s.texts? "formatter" with
  | some [] => throw (s.entryFailure "formatter" .noCommand)
  | command => return command

def ruleKeys : List String := ["name", "value_prefix", "value_suffix", "format", "import"]

def readRules (s : Section) : Except Failure (List (String × FormatRule)) := do
  match ← s.open? "type" none with
  | none => return []
  | some types =>
    readEach types.room (types.place ++ "." ++ ·) ruleKeys (fun t r => (readRule r).map (t, ·))
      types.entries

def readProfile (name : String) (s : Section) : Except Failure Profile := do
  let types ← readRules s
  let formatter ← readFormatter s
  let fileExt ← s.text "file_ext"
  let statement ← s.text "template"
  let importLine ← s.text? "import"
  let comment ← s.text? "comment"
  let intro ← s.text? "intro"
  let outro ← s.text? "outro"
  let defaults ← readFormat? s
  let draft : ProfileDraft :=
    { name, fileExt, statement, importLine, comment, intro, outro, formatter, defaults, types }
  draft.check.mapError Failure.reported

def profileKeys : List String :=
  ["file_ext", "template", "import", "comment", "intro", "outro", "formatter", "format", "type"]

/-- Reads the tables of a section, if the document has it. -/
def readTables {α : Type} (root : Section) (key : String) (known : List String)
    (read : String → Section → Except Failure α) : Except Failure (List α) := do
  match ← root.open? key none with
  | none => return []
  | some s => readEach s.room (key ++ "." ++ ·) known read s.entries

def switchKeys : List String := ["enabled", "comment_sections", "strict_types", "strict_formats"]

def read (room : Nat) (document : Datum) : Except Failure Options := do
  let root ← Section.ofDatum room "<options>" (some ["codegen", "types", "lang"]) document
  let switches ← match ← root.open? "codegen" (some switchKeys) with
    | none => pure {}
    | some s => readSwitches s
  let declared ← readTables root "types" ["kind", "bits", "signed"] readType
  let profiles ← readTables root "lang" profileKeys readProfile
  return {
    switches
    types := TypeRegistry.ofDeclared declared (switches.strictTypes == some true)
    profiles := ⟨profiles, switches.strictFormats == some true⟩ }

/-- Reads a document whose faults name its path. The room limits how deep a value may nest that a
message shows. -/
def ofDocument (room : Nat) (path : Option String) (document : Datum) : Except Failure Options :=
  (read room document).mapError (Failure.map (·.attachPath path))

end Options

end SharedConstants
