import SharedConstants.FileSystem.Path
import SharedConstants.Text.Quoted

/-!
# File systems

A file system is a tree of directories and files, kept as a table from places to what stands
there. Changes are made by single actions; an action either happens or fails and leaves
everything as it was, except that a failing write may leave a part of its content behind.
-/
namespace SharedConstants

inductive Node
  | directory
  | file (content : ByteArray)

namespace Node

def isDirectory : Node → Bool
  | directory => true
  | file _ => false

/-- Whether two nodes are of one kind, with the same content if they are files. -/
def isSame : Node → Node → Bool
  | directory, directory => true
  | file a, file b => a.data == b.data
  | _, _ => false

end Node

/-- A place in the tree, by the names that lead to it. -/
abbrev Location := List String

/-- Directories and files, and the directory that relative paths start from. -/
structure FileSystem where
  cwd : Location := []
  nodes : List (Location × Node) := []

inductive FileError
  | notFound
  | tooManyArguments
  | badDescriptor
  | denied
  | busy
  | alreadyExists
  | notDirectory
  | isDirectory
  | noSpace
  | nameTooLong
  | notEmpty
  deriving DecidableEq, Repr

namespace FileError

def number : FileError → Nat
  | .notFound => 2
  | .tooManyArguments => 7
  | .badDescriptor => 9
  | .denied => 13
  | .busy => 16
  | .alreadyExists => 17
  | .notDirectory => 20
  | .isDirectory => 21
  | .noSpace => 28
  | .nameTooLong => 36
  | .notEmpty => 39

def wording : FileError → String
  | .notFound => "No such file or directory"
  | .tooManyArguments => "Argument list too long"
  | .badDescriptor => "Bad file descriptor"
  | .denied => "Permission denied"
  | .busy => "Device or resource busy"
  | .alreadyExists => "File exists"
  | .notDirectory => "Not a directory"
  | .isDirectory => "Is a directory"
  | .noSpace => "No space left on device"
  | .nameTooLong => "File name too long"
  | .notEmpty => "Directory not empty"

def text (e : FileError) : String := s!"[Errno {e.number}] {e.wording}"

end FileError

/-- A failure of an action, with the path it was to act on and the one it was to move a file
to. A path that no file can have fails in a way of its own. -/
inductive FileFailure
  | failed (error : FileError) (path target : Option String)
  | nullInPath
  deriving DecidableEq, Repr

def FileError.report (e : FileError) (path target : Option String) : String :=
  e.text ++ ((path.map fun p => ": " ++ Text.quoted p).getD "") ++
    ((target.map fun p => " -> " ++ Text.quoted p).getD "")

namespace FileSystem

/-- What stands at a place; the root is always there. -/
def node? (fs : FileSystem) (l : Location) : Option Node :=
  if l = [] then some .directory else fs.nodes.lookup l

/-- Puts something at a place, in the place of what stood there. -/
def put (fs : FileSystem) (l : Location) (node : Node) : FileSystem :=
  { fs with nodes := fs.nodes.filter (·.1 ≠ l) ++ [(l, node)] }

/-- Leaves a place empty. -/
def erase (fs : FileSystem) (l : Location) : FileSystem :=
  { fs with nodes := fs.nodes.filter (·.1 ≠ l) }

/-- The longest name, in bytes. -/
def nameLimit : Nat := 255

/-- Follows names from a place. Every place on the way must be a directory; the last one may
be empty. -/
def walk (fs : FileSystem) (l : Location) : List String → Except FileError Location
  | [] => .ok l
  | name :: names =>
    match fs.node? l with
    | none => .error .notFound
    | some (.file _) => .error .notDirectory
    | some .directory =>
      if nameLimit < name.utf8ByteSize then .error .nameTooLong
      else if name = ".." then walk fs l.dropLast names
      else walk fs (l ++ [name]) names

/-- The place that a path leads to. -/
def locate (fs : FileSystem) (p : FilePath) : Except FileError Location :=
  fs.walk (if p.root = "" then fs.cwd else []) p.parts

def isDirectory (fs : FileSystem) (p : FilePath) : Bool :=
  match fs.locate p with
  | .ok l => (fs.node? l).any Node.isDirectory
  | .error _ => false

/-- The content of the file that a path leads to. -/
def read (fs : FileSystem) (p : FilePath) : Except FileError ByteArray :=
  match fs.locate p with
  | .error e => .error e
  | .ok l =>
    match fs.node? l with
    | none => .error .notFound
    | some .directory => .error .isDirectory
    | some (.file content) => .ok content

/-- The longest text of a path, in bytes. -/
def textLimit : Nat := 4095

/-- The place that the text of a path leads to. Where the text ends in a slash, with or without
a dot behind it, nothing but a directory may stand there. -/
def locateText (fs : FileSystem) (text : String) : Except FileError Location :=
  if text = "" then .error .notFound
  else if textLimit < text.utf8ByteSize then .error .nameTooLong
  else
    match fs.locate (FilePath.ofText text) with
    | .error e => .error e
    | .ok l =>
      let names := FilePath.splitSlashes text.toList
      let isOpen := match names.getLast? with
        | some [] => true
        | some ['.'] => true
        | _ => false
      match isOpen, fs.node? l with
      | true, some (.file _) => .error .notDirectory
      | _, _ => .ok l

/-- The content of the file that the text of a path leads to. -/
def readText (fs : FileSystem) (text : String) : Except FileError ByteArray :=
  match fs.locateText text with
  | .error e => .error e
  | .ok l =>
    match fs.node? l with
    | none => .error .notFound
    | some .directory => .error .isDirectory
    | some (.file content) => .ok content

/-- The names of what stands in a directory, in the order of their bytes. -/
def entries (fs : FileSystem) (l : Location) : List String :=
  let names := fs.nodes.filterMap fun (place, _) =>
    if place.length = l.length + 1 ∧ l.isPrefixOf place then place.getLast? else none
  names.mergeSort (· ≤ ·)

/-- The content of a file, if there is one at a place. -/
def content? (fs : FileSystem) (l : Location) : Option ByteArray :=
  match fs.node? l with
  | some (.file content) => some content
  | _ => none

end FileSystem

inductive FileAction
  | makeDirectory (path : FilePath)
  | create (place : Location)
  | write (place : Location) (content : ByteArray)
  | move (source : Location) (target : FilePath)
  | remove (place : Location)

namespace FileSystem

/-- Moves a file onto a path, in the place of a file that stands there. It cannot take the place
of a directory, least of all of one that it lies in. -/
def move (fs : FileSystem) (source : Location) (target : FilePath) :
    Except FileError FileSystem :=
  match fs.locate target with
  | .error e => .error e
  | .ok l =>
    if target.fileName = "" ∨ target.fileName = ".." then .error .busy
    else
      match fs.node? l, fs.node? source with
      | some .directory, _ =>
        .error (if l.isPrefixOf source then .notEmpty else .isDirectory)
      | _, none => .error .notFound
      | _, some node => .ok ((fs.erase source).put l node)

/-- What an action changes, where nothing keeps it from happening. -/
def act (fs : FileSystem) : FileAction → Except FileError FileSystem
  | .makeDirectory path =>
    match fs.locate path with
    | .error e => .error e
    | .ok l =>
      match fs.node? l with
      | some _ => .error .alreadyExists
      | none => .ok (fs.put l .directory)
  | .create l =>
    if nameLimit < (l.getLast?.getD "").utf8ByteSize then .error .nameTooLong
    else .ok (fs.put l (.file .empty))
  | .write l content => .ok (fs.put l (.file content))
  | .move source target => fs.move source target
  | .remove l => .ok (fs.erase l)

/-- A failure that strikes from outside. A write that it strikes may have written a part. -/
structure Outage where
  error : FileError
  written : Nat := 0

/-- Which actions fail from outside. An outage may strike at one state of the files only, and so
one of several like actions. -/
abbrev Outages := FileSystem → FileAction → Option Outage

/-- Nothing fails from outside. -/
def Outages.none : Outages := fun _ _ => Option.none

/-- What a struck action leaves behind. -/
def struck (fs : FileSystem) (outage : Outage) : FileAction → FileSystem
  | .write l content => fs.put l (.file (content.extract 0 outage.written))
  | _ => fs

def perform (outages : Outages) (fs : FileSystem) (action : FileAction) :
    Except FileError Unit × FileSystem :=
  match outages fs action with
  | some outage => (.error outage.error, fs.struck outage action)
  | none =>
    match fs.act action with
    | .ok fs' => (.ok (), fs')
    | .error e => (.error e, fs)

/-- Makes a directory, given by its names from the last to the first, together with those
above it. A directory that is already there is fine. -/
def makeDirectories (outages : Outages) (root : String) :
    List String → FileSystem → Except FileFailure Unit × FileSystem
  | names, fs =>
    let path : FilePath := ⟨root, names.reverse⟩
    let settle (tried : Except FileError Unit × FileSystem) :
        Except FileFailure Unit × FileSystem :=
      match tried with
      | (.ok (), fs) => (.ok (), fs)
      | (.error e, fs) =>
        if fs.isDirectory path then (.ok (), fs)
        else (.error (.failed e path.toText none), fs)
    match fs.perform outages (.makeDirectory path), names with
    | (.error .notFound, fs), _ :: above =>
      match makeDirectories outages root above fs with
      | (.ok (), fs) => settle (fs.perform outages (.makeDirectory path))
      | (.error failure, fs) => (.error failure, fs)
    | tried, _ => settle tried

end FileSystem

end SharedConstants
