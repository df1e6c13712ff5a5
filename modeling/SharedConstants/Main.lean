import SharedConstants.CommandLine.Run

/-!
# Program

The program takes the files that its arguments name from the disk, runs on them, and puts the
files that changed back. A file is written under another name first and then renamed.
-/
namespace SharedConstants.Program

def placeOf (path : String) : Location := (FilePath.ofText path).parts

def pathOf (place : Location) : String := "/" ++ "/".intercalate place

/-- The places on the way to a place, itself included. -/
def wayTo (place : Location) : List Location :=
  (List.range place.length).map fun i => place.take (i + 1)

/-- Takes over what stands at a place on the disk, if anything does. -/
def takePlace (fs : FileSystem) (place : Location) : IO FileSystem := do
  if (fs.node? place).isSome then return fs
  let path := pathOf place
  try
    if ← (← IO.FS.realPath path).isDir then return fs.put place .directory
    return fs.put place (.file (← IO.FS.readBinFile path))
  catch _ => return fs

/-- Takes over what stands on the way to a path. -/
def takePath (fs : FileSystem) (path : String) : IO FileSystem := do
  let p := FilePath.ofText path
  let start := if p.root = "" then fs.cwd else []
  let place := p.parts.foldl
    (fun place part => if part = ".." then place.dropLast else place ++ [part]) start
  (wayTo place ++ wayTo (start ++ p.parts)).foldlM takePlace fs

/-- The paths that an invocation may read or write. -/
def pathsOf (i : CommandLine.Invocation) : List String :=
  let target := match i.command with
    | .generate _ directory .. => [directory]
    | _ => []
  i.inputs.options.toList ++ i.inputs.constants ++ target

def putBack (place : Location) : Node → IO Unit
  | .directory => IO.FS.createDirAll (pathOf place)
  | .file content => do
    let path := pathOf place
    let temporary := path ++ ".part"
    IO.FS.writeBinFile temporary content
    IO.FS.rename temporary path

/-- Runs the program on the disk. -/
def run (args : List String) : IO UInt32 := do
  let cwd := placeOf (← IO.currentDir).toString
  let empty : FileSystem := { cwd }
  let start ← (wayTo cwd).foldlM takePlace empty
  let before ← match CommandLine.readInvocation args with
    | .ok invocation => (pathsOf invocation).foldlM takePath start
    | .error _ => pure start
  let result := CommandLine.run {} before args
  for (place, node) in result.files.nodes do
    unless (before.node? place).any node.isSame do putBack place node
  (← IO.getStdout).putStr result.output
  (← IO.getStderr).putStr result.errors
  return result.status.toUInt32

end SharedConstants.Program

def main (args : List String) : IO UInt32 := SharedConstants.Program.run args
