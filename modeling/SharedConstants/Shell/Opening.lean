import SharedConstants.Shell.Expansion

/-!
# Redirections

A redirection lets a descriptor lead to a file, to where another descriptor leads, to a text of
the script, or nowhere. It ends with the command that it stands at.
-/
namespace SharedConstants.Shell

/-- A redirection whose names are expanded. -/
inductive Opening
  | file (descriptor : Nat) (mode : OpenMode) (name : Octets)
  | copy (descriptor : Nat) (source : Option Nat)
  | document (descriptor : Nat) (text : Word)

namespace Opening

def descriptor : Opening → Nat
  | file d .. => d
  | copy d _ => d
  | document d _ => d

/-- Expands the name in a redirection. -/
def ofRedirection (o : Outputs) : Redirection → Run Opening
  | .file d mode name => return .file d mode (← Expansion.text o name)
  | .descriptor d source => do
    match ← Expansion.text o source with
    | ['-'] => return .copy d none
    | [c] =>
      if Octets.isDigit c then return .copy d (some (c.toNat - 48))
      else Run.fail "Syntax error: Bad fd number".toList
    | _ => Run.fail "Syntax error: Bad fd number".toList
  | .document d number => do
    return .document d (((← Run.process).documents.lookup number).getD [])

def ofRedirections (o : Outputs) (rs : List Redirection) : Run (List Opening) :=
  rs.mapM (ofRedirection o)

/-- The descriptor that a name of a file stands for. -/
def descriptorName? (name : Octets) : Option Nat :=
  match String.ofList name with
  | "/dev/stdin" => some 0
  | "/dev/stdout" => some 1
  | "/dev/stderr" => some 2
  | text =>
    let digits := if text.startsWith "/dev/fd/" then name.drop 8
      else if text.startsWith "/proc/self/fd/" then name.drop 14
      else []
    Octets.toNat? digits

/-- Complains about a file that cannot be opened. -/
def refuse {α : Type} (isWritten : Bool) (name : Octets) (e : FileError) : Run α :=
  let reason := match e, isWritten with
    | .notFound, false | .notDirectory, false => "No such file"
    | .notFound, true | .notDirectory, true => "Directory nonexistent"
    | e, _ => e.wording
  let purpose := if isWritten then "cannot create " else "cannot open "
  Run.fail (purpose.toList ++ name ++ ": ".toList ++ reason.toList)

def openFile (mode : OpenMode) (name : Octets) : Run Nat := do
  let isWritten : Bool := mode ≠ .read
  match descriptorName? name with
  | some d =>
    match ← Run.streamOf? d with
    | some stream => return stream
    | none => refuse isWritten name .notFound
  | none =>
    let files := (← get).files
    match files.locateText (Octets.toText name) with
    | .error e => refuse isWritten name e
    | .ok l =>
      let put (content : ByteArray) : Run Unit :=
        modify fun s => { s with files := s.files.put l (.file content) }
      match files.node? l, mode with
      | none, .read => refuse false name .notFound
      | some .directory, .read => Run.openStream .directory
      | some .directory, .write => refuse (!(← Run.isOn 'C')) name .isDirectory
      | some .directory, _ => refuse true name .isDirectory
      | found, mode =>
        if l = ["dev", "null"] then Run.openStream .nothing
        else
          if mode = .write ∧ found.isSome then
            if ← Run.isOn 'C' then refuse true name .alreadyExists
          if mode = .write ∨ mode = .overwrite ∨ found.isNone then put .empty
          Run.openStream (.file l 0 (mode = .append))

/-- Lets a descriptor lead to where it should. -/
def apply (o : Outputs) : Opening → Run Unit
  | .file d mode name => do
    let stream ← openFile mode name
    Run.connect d (some stream)
  | .copy d none => Run.connect d none
  | .copy d (some source) => do
    match ← Run.streamOf? source with
    | some stream => Run.connect d (some stream)
    | none => Run.fail (Octets.ofNat source ++ ": Bad file descriptor".toList)
  | .document d word => do
    let stream ← Run.openStream (.pipe [← Expansion.text o word])
    Run.connect d (some stream)

/-- Whether redirections could be made. A complaint was written if not. -/
def applyAll (o : Outputs) (openings : List Opening) : Run Bool :=
  tryCatch (do
    for x in openings do x.apply o
    return true) fun
    | .failed => return false
    | e => throw e

/-- Where the descriptors of redirections lead. -/
def routes (openings : List Opening) : Run (List (Nat × Option Nat)) :=
  openings.mapM fun x => return (x.descriptor, ← Run.streamOf? x.descriptor)

/-- Lets descriptors lead to where they led before. -/
def restore (routes : List (Nat × Option Nat)) : Run Unit := do
  for (d, stream) in routes do Run.connect d stream

end Opening

/-- Does something, and something else at its end, however it ends. -/
def Run.closing {α : Type} (body : Run α) (close : Run Unit) : Run α := do
  let result ← tryCatch (body >>= fun a => pure (Except.ok a)) fun e => return Except.error e
  close
  match result with
  | .ok a => return a
  | .error e => throw e

end SharedConstants.Shell
