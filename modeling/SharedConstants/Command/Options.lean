import SharedConstants.Command.Octets

/-!
# Options of commands

Commands take options in front of their operands, some also between them. Letters may share a
dash, words may be shortened as long as only one option is meant.
-/
namespace SharedConstants.Command

/-- Whether an option takes an argument; an optional one must be attached. -/
inductive Takes
  | nothing
  | argument
  | optional
  deriving DecidableEq, Repr

/-- The options of a command: letters, and words with what they stand for. -/
structure OptionTable where
  letters : List (Char × Takes)
  words : List (String × Takes)
  /-- Whether options may stand behind operands. -/
  isOpen : Bool := true

/-- An argument that was read: an option by its letter or word, or an operand. -/
inductive Item
  | option (name : String) (value : Option Octets)
  | operand (value : Octets)

/-- An option by its letter. -/
def letterName (c : Char) : String := String.ofList [c]

/-- Items together with the first complaint about arguments. -/
abbrev Reading := List Item × Option Octets

def Reading.push (i : Item) (r : Reading) : Reading := (i :: r.1, r.2)

/-- The options that share a dash, the last one perhaps with its argument. The flag tells
whether the next word was used up. -/
def readLetters (table : OptionTable) (next : Option Octets) : Octets → Reading × Bool
  | [] => (([], none), false)
  | c :: cs =>
    match table.letters.lookup c with
    | none => (([], some ("invalid option -- '".toList ++ [c, '\''])), false)
    | some .nothing =>
      let (rest, used) := readLetters table next cs
      (rest.push (.option (letterName c) none), used)
    | some .optional =>
      (([.option (letterName c) (if cs = [] then none else some cs)], none), false)
    | some .argument =>
      if cs ≠ [] then (([.option (letterName c) (some cs)], none), false)
      else
        match next with
        | some value => (([.option (letterName c) (some value)], none), true)
        | none => (([], some ("option requires an argument -- '".toList ++ [c, '\''])), false)

/-- The option that a word behind two dashes stands for. -/
def readWord (table : OptionTable) (next : Option Octets) (text : Octets) : Reading × Bool :=
  let name := Octets.toText (text.takeWhile (· ≠ '='))
  let value : Option Octets := match text.dropWhile (· ≠ '=') with
    | [] => none
    | _ :: value => some value
  let candidates := table.words.filter fun (word, _) => name.toList.isPrefixOf word.toList
  let chosen := match table.words.lookup name with
    | some takes => [(name, takes)]
    | none => candidates
  match chosen with
  | [] => (([], some ("unrecognized option '--".toList ++ text ++ ['\''])), false)
  | _ :: _ :: _ =>
    let shown := String.join (candidates.map fun (word, _) => s!" '--{word}'")
    (([], some ("option '--".toList ++ text ++
      s!"' is ambiguous; possibilities:{shown}".toList)), false)
  | [(word, takes)] =>
    match takes, value with
    | .nothing, some _ => (([], some s!"option '--{word}' doesn't allow an argument".toList), false)
    | .argument, none =>
      match next with
      | some value => (([.option word (some value)], none), true)
      | none => (([], some s!"option '--{word}' requires an argument".toList), false)
    | _, value => (([.option word value], none), false)

/-- Reads arguments. Reading stops at the first complaint. -/
def readItems (table : OptionTable) : List Octets → Reading
  | [] => ([], none)
  | arg :: args =>
    match arg with
    | ['-', '-'] => (args.map .operand, none)
    | '-' :: c :: cs =>
      let next := args.head?
      let (first, used) := match c with
        | '-' => readWord table next cs
        | c => readLetters table next (c :: cs)
      match first.2 with
      | some _ => first
      | none =>
        let (rest, complaint) := match args, used with
          | _ :: args, true => readItems table args
          | args, _ => readItems table args
        (first.1 ++ rest, complaint)
    | arg =>
      if table.isOpen then (readItems table args).push (.operand arg)
      else ((arg :: args).map .operand, none)

def operandsOf (items : List Item) : List Octets :=
  items.filterMap fun
    | .operand value => some value
    | .option .. => none

end SharedConstants.Command
