import SharedConstants.FileSystem
import SharedConstants.Shell.Arithmetic

/-!
# Conditions

`test` asks about texts, numbers and files. Questions are joined by "and" and "or", turned around
by an exclamation mark, and grouped by parentheses.
-/
namespace SharedConstants.Shell

namespace Condition

def unarySigns : List String :=
  ["-r", "-w", "-x", "-e", "-f", "-d", "-c", "-b", "-p", "-u", "-g", "-k", "-s", "-t", "-z", "-n",
    "-h", "-O", "-G", "-L", "-S"]

def binarySigns : List String :=
  ["=", "==", "!=", "<", ">", "-eq", "-ne", "-ge", "-gt", "-le", "-lt", "-nt", "-ot", "-ef"]

/-- What a word may be. -/
inductive Role
  | operand
  | unary (sign : String)
  | binary (sign : String)
  | turn
  | both
  | either
  | opening
  | closing
  | finish
  deriving DecidableEq

/-- What a word is if nothing is known of its neighbours. -/
def sign? (word : Octets) : Option Role :=
  let text := String.ofList word
  if unarySigns.contains text then some (.unary text)
  else if binarySigns.contains text then some (.binary text)
  else
    match text with
    | "!" => some .turn
    | "-a" => some .both
    | "-o" => some .either
    | "(" => some .opening
    | ")" => some .closing
    | _ => none

/-- Whether the words behind a sign leave it no operand. -/
def isBare : List Octets → Bool
  | [] => true
  | [_] => false
  | word :: _ =>
    match sign? word with
    | some (.binary _) => true
    | _ => false

/-- What the first of some words is. -/
def role : List Octets → Role
  | [] => .finish
  | word :: rest =>
    match sign? word with
    | some (.unary s) => if isBare rest then .operand else .unary s
    | some .opening => if rest.isEmpty then .operand else .opening
    | some r => r
    | none => .operand

/-- An evaluation: the words from the one on that is looked at. -/
abbrev Evaluation := StateT (List Octets) (Except Octets)

namespace Evaluation

def fail {α : Type} (operator : Option Octets) (complaint : String) : Evaluation α :=
  match operator with
  | some o => throw (o ++ ": ".toList ++ complaint.toList)
  | none => throw complaint.toList

def skip (n : Nat) : Evaluation Unit := modify (·.drop n)

def word : Evaluation Octets := return (← get).head?.getD []

def number (cs : Octets) : Evaluation Int :=
  match integer? (some 10) cs with
  | some n => pure n
  | none => throw (illegalNumber cs)

end Evaluation

/-- What stands at the path that a word names, and its place. -/
def node? (fs : FileSystem) (word : Octets) : Option (Location × Node) :=
  match fs.locateText word.toText with
  | .error _ => none
  | .ok l => (fs.node? l).map (l, ·)

/-- The place of the file that takes everything in. -/
def nullPlace : Location := ["dev", "null"]

/-- Whether a program may stand at a place. -/
def isProgramPlace (l : Location) : Bool :=
  match l with
  | ["bin", _] | ["usr", "bin", _] => true
  | _ => false

def fileAnswer (fs : FileSystem) (sign : String) (word : Octets) : Bool :=
  match node? fs word with
  | none => false
  | some (l, node) =>
    match sign with
    | "-d" => node.isDirectory
    | "-f" => !node.isDirectory && l ≠ nullPlace
    | "-c" => l = nullPlace
    | "-x" => node.isDirectory || isProgramPlace l
    | "-s" =>
      match node with
      | .directory => true
      | .file content => 0 < content.size
    | "-b" | "-p" | "-u" | "-g" | "-k" | "-h" | "-L" | "-S" => false
    | _ => true

def unaryAnswer (fs : FileSystem) (sign : String) (word : Octets) : Evaluation Bool :=
  match sign with
  | "-z" => pure word.isEmpty
  | "-n" => pure !word.isEmpty
  | "-t" => return (← Evaluation.number word) < 0
  | sign => pure (fileAnswer fs sign word)

def binaryAnswer (fs : FileSystem) (sign : String) (a b : Octets) : Evaluation Bool := do
  let compare (test : Int → Int → Bool) : Evaluation Bool := do
    let m ← Evaluation.number a
    let n ← Evaluation.number b
    return test m n
  match sign with
  | "=" | "==" => return a = b
  | "!=" => return a ≠ b
  | "<" => return !Octets.le b a
  | ">" => return !Octets.le a b
  | "-eq" => compare fun m n => m = n
  | "-ne" => compare fun m n => m ≠ n
  | "-ge" => compare fun m n => n ≤ m
  | "-gt" => compare fun m n => n < m
  | "-le" => compare fun m n => m ≤ n
  | "-lt" => compare fun m n => m < n
  | "-ef" =>
    match node? fs a, node? fs b with
    | some (l, _), some (m, _) => return l = m
    | _, _ => return false
  | _ => return false

mutual

/-- Questions joined by "or"; the first word is looked at in a given role. -/
def either (fs : FileSystem) : Nat → Role → Evaluation Bool
  | 0, _ => pure false
  | fuel + 1, r => do
    let a ← both fs fuel r
    if role ((← get).drop 1) = .either then
      Evaluation.skip 2
      let b ← either fs fuel (role (← get))
      return a || b
    return a

/-- Questions joined by "and". -/
def both (fs : FileSystem) : Nat → Role → Evaluation Bool
  | 0, _ => pure false
  | fuel + 1, r => do
    let a ← turned fs fuel r
    if role ((← get).drop 1) = .both then
      Evaluation.skip 2
      let b ← both fs fuel (role (← get))
      return a && b
    return a

/-- A question, turned around or not. -/
def turned (fs : FileSystem) : Nat → Role → Evaluation Bool
  | 0, _ => pure false
  | fuel + 1, r => do
    if r = .turn then
      let next := role ((← get).drop 1)
      if next ≠ .finish then Evaluation.skip 1
      return !(← turned fs fuel next)
    else single fs fuel r

def single (fs : FileSystem) : Nat → Role → Evaluation Bool
  | 0, _ => pure false
  | fuel + 1, r => do
    match r with
    | .finish => return false
    | .opening =>
      Evaluation.skip 1
      let next := role (← get)
      if next = .closing then return false
      let a ← either fs fuel next
      Evaluation.skip 1
      if role (← get) ≠ .closing then Evaluation.fail none "closing paren expected"
      return a
    | .unary sign =>
      Evaluation.skip 1
      if (← get).isEmpty then Evaluation.fail (some sign.toList) "argument expected"
      unaryAnswer fs sign (← Evaluation.word)
    | _ =>
      match role ((← get).drop 1) with
      | .binary sign =>
        let a ← Evaluation.word
        Evaluation.skip 2
        if (← get).isEmpty then Evaluation.fail (some sign.toList) "argument expected"
        binaryAnswer fs sign a (← Evaluation.word)
      | _ => return !(← Evaluation.word).isEmpty

end

/-- The answer to some words from the first one on, which is looked at in a given role. -/
def answerFrom (fs : FileSystem) (words : List Octets) (r : Role) : Except Octets Bool :=
  match (either fs (4 * words.length + 8) r).run words with
  | .error complaint => .error complaint
  | .ok (a, left) =>
    match left with
    | word :: _ :: _ => .error (word ++ ": unexpected operator".toList)
    | _ => .ok a

/-- The answer to some words. Few words are read by their number. -/
def answer (fs : FileSystem) : List Octets → Except Octets Bool
  | [] => .ok false
  | ['!'] :: rest =>
    let joins : Bool := match rest with
      | [sign, _] => match sign? sign with
        | some (.binary _) => true
        | _ => false
      | _ => false
    if joins then answerFrom fs (['!'] :: rest) .operand
    else if rest.length = 2 ∨ rest.length = 3 then (answer fs rest).map (!·)
    else answerFrom fs (['!'] :: rest) (role (['!'] :: rest))
  | words =>
    match words with
    | [_, sign, _] =>
      match sign? sign with
      | some (.binary _) => answerFrom fs words .operand
      | _ => grouped fs words
    | [_, _, _, _] => grouped fs words
    | words => answerFrom fs words (role words)
where
  /-- The answer to three or four words, perhaps with parentheses around them. -/
  grouped (fs : FileSystem) (words : List Octets) : Except Octets Bool :=
    if words.head? = some ['('] ∧ words.getLast? = some [')'] then
      let inner := (words.drop 1).dropLast
      answerFrom fs inner (role inner)
    else answerFrom fs words (role words)

end Condition

end SharedConstants.Shell
