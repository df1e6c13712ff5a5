import SharedConstants.Command.Execution
import SharedConstants.Command.Options
import SharedConstants.Command.SortKey

/-!
# Sorting

`sort` writes the lines of files in order, merges files that are in order, or checks whether a
file is.
-/
namespace SharedConstants.Command

inductive SortTask
  | sort
  | merge
  | check (isSilent : Bool)
  deriving DecidableEq, Repr

structure SortOptions where
  task : SortTask := .sort
  keys : List SortKey := []
  comparison : Comparison := {}
  separator : Option Char := none
  target : Option Octets := none
  isUnique : Bool := false
  isStable : Bool := false
  lineEnd : Char := '\n'

namespace SortOptions

def table : OptionTable where
  letters :=
    "bcCdfghimMnrRsuVz".toList.map (·, .nothing) ++ "koStTy".toList.map (·, .argument)
  words :=
    [("ignore-leading-blanks", .nothing), ("batch-size", .argument), ("check", .optional),
      ("compress-program", .argument), ("debug", .nothing), ("dictionary-order", .nothing),
      ("ignore-case", .nothing), ("files0-from", .argument), ("general-numeric-sort", .nothing),
      ("ignore-nonprinting", .nothing), ("key", .argument), ("merge", .nothing),
      ("month-sort", .nothing), ("numeric-sort", .nothing), ("human-numeric-sort", .nothing),
      ("version-sort", .nothing), ("random-sort", .nothing), ("random-source", .argument),
      ("sort", .argument), ("output", .argument), ("reverse", .nothing), ("stable", .nothing),
      ("buffer-size", .argument), ("field-separator", .argument),
      ("temporary-directory", .argument), ("unique", .nothing), ("zero-terminated", .nothing),
      ("parallel", .argument), ("help", .nothing), ("version", .nothing)]

/-- The letter of a word that chooses a way to compare. -/
def comparisonLetter? (name : String) : Option Char :=
  match name with
  | "ignore-leading-blanks" => some 'b'
  | "dictionary-order" => some 'd'
  | "ignore-case" => some 'f'
  | "general-numeric-sort" => some 'g'
  | "human-numeric-sort" => some 'h'
  | "ignore-nonprinting" => some 'i'
  | "month-sort" => some 'M'
  | "numeric-sort" => some 'n'
  | "random-sort" => some 'R'
  | "reverse" => some 'r'
  | "version-sort" => some 'V'
  | _ =>
    match name.toList with
    | [c] => some c
    | _ => none

end SortOptions

/-- Why options are refused: a complaint alone, or complaints with a hint. -/
inductive SortRefusal
  | failed (complaint : String)
  | misused (complaint : String) (more : List String)

/-- A count in a key, and what follows it. -/
def takeCount (what : String) (cs : Octets) : Except SortRefusal (Nat × Octets) :=
  let body := cs.dropWhile Octets.isSpace
  let body := match body with
    | '+' :: rest => rest
    | body => body
  match Octets.takeDigits 10 body with
  | ([], _) => .error (.failed s!"{what}: invalid count at start of {quoted cs}")
  | (ds, rest) => .ok (Octets.numberOf 10 ds, rest)

/-- The number of a field, which counts from one. -/
def takeField (spec : Octets) (what : String) (cs : Octets) :
    Except SortRefusal (Nat × Octets) := do
  match ← takeCount what cs with
  | (0, _) => .error (.failed s!"field number is zero: invalid field specification {quoted spec}")
  | (n + 1, rest) => return (n, rest)

def readKey (spec : Octets) : Except SortRefusal SortKey := do
  let (field, rest) ← takeField spec "invalid number at field start" spec
  let (offset, rest) ← match rest with
    | '.' :: more =>
      match ← takeCount "invalid number after '.'" more with
      | (0, _) =>
        Except.error (.failed
          s!"character offset is zero: invalid field specification {quoted spec}")
      | (n + 1, rest) => pure (n, rest)
    | rest => pure (0, rest)
  let (comparison, rest) := Comparison.addAll {} true false rest
  let start := if field = 0 ∧ offset = 0 then none else some (field, offset)
  let (stop, comparison, rest) ← match rest with
    | ',' :: more => do
      let (last, rest) ← takeField spec "invalid number after ','" more
      let (count, rest) ← match rest with
        | '.' :: more => takeCount "invalid number after '.'" more
        | rest => pure (0, rest)
      let (comparison, rest) := comparison.addAll false true rest
      pure (some (last, count), comparison, rest)
    | rest => pure (none, comparison, rest)
  if rest = [] then return { start, stop, comparison }
  else
    .error (.failed s!"stray character in field spec: invalid field specification {quoted spec}")

def addSeparator (o : SortOptions) (value : Octets) : Except SortRefusal SortOptions := do
  let tab ← match value with
    | [] => Except.error (.failed "empty tab")
    | [c] => pure c
    | ['\\', '0'] => pure '\x00'
    | _ => .error (.failed s!"multi-character tab {quoted value}")
  if o.separator.isSome ∧ o.separator ≠ some tab then .error (.failed "incompatible tabs")
  else return { o with separator := some tab }

/-- Chooses to check lines. -/
def addCheck (o : SortOptions) (isSilent : Bool) : Except SortRefusal SortOptions :=
  match o.task with
  | .check before =>
    if before = isSilent then .ok o else .error (.failed "options '-cC' are incompatible")
  | _ => .ok { o with task := .check isSilent }

/-- The words that an option accepts, as complaints list them. -/
def acceptedWords (groups : List (List String)) : List String :=
  "Valid arguments are:" :: groups.map fun words =>
    "  - " ++ ", ".intercalate (words.map fun w => quoted w.toList)

/-- The word that an argument stands for, which may be shortened. -/
def chooseWord (option : String) (groups : List (List String)) (value : Octets) :
    Except SortRefusal String :=
  let words := groups.flatten
  let candidates := words.filter fun w => value.isPrefixOf w.toList
  let groupOf (w : String) : Option (List String) := groups.find? (·.contains w)
  if words.contains (Octets.toText value) then .ok (Octets.toText value)
  else
    match candidates with
    | [] =>
      .error (.misused s!"invalid argument {quoted value} for {quoted option.toList}"
        (acceptedWords groups))
    | w :: others =>
      if others.all fun v => groupOf v = groupOf w then .ok w
      else
        .error (.misused s!"ambiguous argument {quoted value} for {quoted option.toList}"
          (acceptedWords groups))

def SortOptions.add (o : SortOptions) (name : String) (value : Octets) :
    Except SortRefusal SortOptions := do
  match name with
  | "c" => addCheck o false
  | "C" => addCheck o true
  | "check" =>
    if value = [] then addCheck o false
    else
      let word ← chooseWord "--check" [["quiet", "silent"], ["diagnose-first"]] value
      addCheck o (word ≠ "diagnose-first")
  | "k" | "key" => return { o with keys := o.keys ++ [← readKey value] }
  | "m" | "merge" => return { o with task := if o.task = .sort then .merge else o.task }
  | "o" | "output" =>
    if o.target.isSome ∧ o.target ≠ some value then
      .error (.failed "multiple output files specified")
    else return { o with target := some value }
  | "s" | "stable" => return { o with isStable := true }
  | "t" | "field-separator" => addSeparator o value
  | "u" | "unique" => return { o with isUnique := true }
  | "z" | "zero-terminated" => return { o with lineEnd := '\x00' }
  | "sort" =>
    let word ← chooseWord "--sort"
      [["general-numeric"], ["human-numeric"], ["month"], ["numeric"], ["random"], ["version"]]
      value
    let letter := if word = "month" then 'M' else if word = "random" then 'R'
      else if word = "version" then 'V' else word.toList.headD 'n'
    return { o with comparison := (o.comparison.add? true true letter).getD o.comparison }
  | name =>
    match comparisonLetter? name with
    | some letter =>
      return { o with comparison := (o.comparison.add? true true letter).getD o.comparison }
    | none => return o

def SortOptions.ofItems (items : List Item) : Except SortRefusal SortOptions :=
  items.foldlM (fun o i =>
    match i with
    | .option name value => SortOptions.add o name (value.getD [])
    | .operand _ => .ok o) {}

/-- Completes options: keys without a comparison of their own take the general one. -/
def SortOptions.complete (o : SortOptions) : Except SortRefusal SortOptions :=
  let keys := o.keys.map fun k =>
    if k.comparison.isDefault ∧ !k.comparison.isReverse then
      { k with comparison := o.comparison }
    else k
  let keys := if keys.isEmpty ∧ !o.comparison.isDefault then [{ comparison := o.comparison }]
    else keys
  match keys.findSome? fun k => k.comparison.conflict? with
  | some letters => .error (.failed s!"options '-{letters}' are incompatible")
  | none => .ok { o with keys }

def compareByKeys (separator : Option Char) : List SortKey → Octets → Octets → Ordering
  | [], _, _ => .eq
  | k :: keys, a, b =>
    match k.comparison.compareParts (k.part separator a) (k.part separator b) with
    | .eq => compareByKeys separator keys a b
    | o => o

/-- Compares lines. Lines that are equal by their keys are compared as a whole, unless only
their keys matter. -/
def SortOptions.compare (o : SortOptions) (a b : Octets) : Ordering :=
  match compareByKeys o.separator o.keys a b with
  | .eq =>
    if !o.keys.isEmpty && (o.isUnique || o.isStable) then .eq
    else
      let order := compareOctets a b
      if o.comparison.isReverse then order.swap else order
  | order => order

/-- Leaves the first of lines that are equal to those before them. -/
def firstOfEqual (o : SortOptions) : List Octets → List Octets
  | [] => []
  | line :: lines =>
    match firstOfEqual o lines with
    | [] => [line]
    | next :: rest =>
      if o.compare line next = .eq then line :: rest else line :: next :: rest

/-- Takes the least of the first lines of lists, again and again. -/
def mergeLines (o : SortOptions) : Nat → List (List Octets) → List Octets
  | 0, _ => []
  | fuel + 1, lists =>
    let heads := lists.filterMap List.head?
    match heads with
    | [] => []
    | h :: others =>
      let least := others.foldl (fun m x => if o.compare x m = .lt then x else m) h
      let index := (lists.findIdx? fun l => l.head? = some least).getD 0
      least :: mergeLines o fuel (lists.modify index (List.drop 1))

/-- The first line that is out of order, with its number. -/
def disorder? (o : SortOptions) (number : Nat) : List Octets → Option (Nat × Octets)
  | a :: b :: rest =>
    let order := o.compare a b
    if order = .gt ∨ (o.isUnique ∧ order = .eq) then some (number + 1, b)
    else disorder? o (number + 1) (b :: rest)
  | _ => none

/-- How `sort` words an error of a file that it is to read. -/
def readFailure (name : Octets) (e : FileError) : String :=
  match e with
  | .isDirectory => s!"read failed: {fileQuoted name}: {e.wording}"
  | .badDescriptor => s!"stat failed: {fileQuoted name}: {e.wording}"
  | e => s!"cannot read: {fileQuoted name}: {e.wording}"

/-- The contents of sources. The input can be read only once. -/
def readSources (c : Call) : Bool → List Octets → Except String (List Octets)
  | _, [] => .ok []
  | isInputRead, name :: names =>
    let isInput : Bool := name = ['-']
    if isInput ∧ isInputRead then (readSources c isInputRead names).map ([] :: ·)
    else
      match c.read name with
      | .error e => .error (readFailure name e)
      | .ok content => (readSources c (isInputRead || isInput) names).map (content :: ·)

/-- The first source that cannot be opened. -/
def unreadable? (c : Call) (names : List Octets) : Option String :=
  names.findSome? fun name =>
    match c.read name with
    | .error .isDirectory | .ok _ => none
    | .error e => some (readFailure name e)

/-- Writes octets to a file, which is made if it is missing. -/
def writeTarget (c : Call) (name content : Octets) : Except FileError FileSystem :=
  match c.files.locateText name.toText with
  | .error e => .error e
  | .ok l =>
    match c.files.node? l with
    | some .directory => .error .isDirectory
    | _ => .ok (c.files.put l (.file content.toBytes))

def checkLines (c : Call) (o : SortOptions) (isSilent : Bool) (name : Octets) : Execution :=
  match c.read name with
  | .error .isDirectory => c.fail 2 [s!"read failed: {fileQuoted name}: Is a directory"]
  | .error e => c.fail 2 [s!"open failed: {fileQuoted name}: {e.wording}"]
  | .ok content =>
    let readsInput : Bool := name = ['-']
    match disorder? o 1 (Octets.splitAt o.lineEnd content) with
    | none => { readsInput }
    | some (number, line) =>
      let text := Octets.ofText s!"{fileQuoted name}:{number}: disorder: " ++ line
      { status := 1, readsInput
        written := if isSilent then [] else [(.errors, c.complaint text)] }

def sortLines (c : Call) (o : SortOptions) (names : List Octets) : Execution :=
  let readsInput := names.contains ['-']
  let writable : Except FileError Unit := match o.target with
    | none => .ok ()
    | some target => (writeTarget c target []).map fun _ => ()
  match unreadable? c names, writable, readSources c false names with
  | some complaint, _, _ => c.fail 2 [complaint]
  | none, .error e, _ =>
    c.fail 2 [s!"open failed: {fileQuoted (o.target.getD [])}: {e.wording}"]
  | none, _, .error complaint => { c.fail 2 [complaint] with readsInput }
  | none, _, .ok contents =>
    let lists := contents.map (Octets.splitAt o.lineEnd)
    let sorted :=
      if o.task = .merge then mergeLines o ((lists.map List.length).foldl (· + ·) 1) lists
      else lists.flatten.mergeSort fun a b => o.compare a b ≠ .gt
    let kept := if o.isUnique then firstOfEqual o sorted else sorted
    let text := kept.flatMap (· ++ [o.lineEnd])
    match o.target with
    | none => { readsInput, written := [(.output, text)] }
    | some target => { readsInput, files := (writeTarget c target text).toOption }

/-- Sorts, merges or checks lines, as options say. -/
def sortWith (c : Call) (o : SortOptions) (names : List Octets) : Execution :=
  match o.task, names with
  | .check isSilent, name :: others =>
    let letter := if isSilent then "C" else "c"
    match others, o.target with
    | extra :: _, _ =>
      c.fail 2 [s!"extra operand {shellQuoted extra} not allowed with -{letter}"]
    | [], some _ => c.fail 2 [s!"options '-{letter}o' are incompatible"]
    | [], none => checkLines c o isSilent name
  | _, names => sortLines c o names

/-- Sorts, merges or checks lines. -/
def sort (c : Call) : Execution :=
  let (items, complaint) := readItems SortOptions.table c.arguments
  let refuse : SortRefusal → Execution
    | .failed complaint => c.fail 2 [complaint]
    | .misused complaint more => c.misused 1 [complaint] more
  match SortOptions.ofItems items, complaint with
  | .error refusal, _ => refuse refusal
  | .ok _, some complaint => c.refuse 2 complaint
  | .ok o, none =>
    match o.complete with
    | .error refusal => refuse refusal
    | .ok o =>
      let names := operandsOf items
      sortWith c o (if names.isEmpty then [['-']] else names)

end SharedConstants.Command
