import SharedConstants.Command.CharacterSet
import SharedConstants.Command.Execution
import SharedConstants.Command.Options

/-!
# Replacement of octets

`tr` replaces, deletes or squeezes the octets of its input. Sets that do not fit together are
refused.
-/
namespace SharedConstants.Command

structure ReplaceOptions where
  complements : Bool := false
  deletes : Bool := false
  squeezes : Bool := false
  truncates : Bool := false

namespace ReplaceOptions

def table : OptionTable where
  letters := "AcCdst".toList.map (·, .nothing)
  words :=
    [("complement", .nothing), ("delete", .nothing), ("squeeze-repeats", .nothing),
      ("truncate-set1", .nothing), ("help", .nothing), ("version", .nothing)]
  isOpen := false

def add (o : ReplaceOptions) (name : String) : ReplaceOptions :=
  match name with
  | "c" | "C" | "complement" => { o with complements := true }
  | "d" | "delete" => { o with deletes := true }
  | "s" | "squeeze-repeats" => { o with squeezes := true }
  | "t" | "truncate-set1" => { o with truncates := true }
  | _ => o

def ofItems (items : List Item) : ReplaceOptions :=
  items.foldl (fun o i =>
    match i with
    | .option name _ => o.add name
    | .operand _ => o) {}

end ReplaceOptions

/-- The octets that a set leaves out. -/
def outside (s : SetElements) : Octets := allOctets.filter fun c => !s.holds c

/-- The number of octets of the first set, or of those that it leaves out. -/
def firstSize (o : ReplaceOptions) (s : SetElements) : Nat :=
  if o.complements then (outside s).length else s.size

/-- The number of octets up to which repetitions are followed one by one. -/
def memberLimit (sizes : Nat) : Nat := min (sizes + 512) 65536

/-- How many letters of a case there are behind the first one. -/
def otherLetters : Nat := 25

/-- Whether classes of letters in the second set stand where the first set has one, too. -/
def isAligned : Nat → List SetMember → List SetMember → Bool
  | 0, _, _ => true
  | fuel + 1, (_, k) :: first, (_, some _) :: second =>
    k.isSome && isAligned fuel (first.drop otherLetters) (second.drop otherLetters)
  | _ + 1, [], (_, some _) :: _ => false
  | fuel + 1, _ :: first, _ :: second => isAligned fuel first second
  | _, _, _ => true

/-- A set that a class may be replaced by as a whole: all its octets are the same. -/
def isUniform (s : SetElements) (limit : Nat) : Bool :=
  match s.members limit with
  | [] => true
  | (c, _) :: rest => rest.all fun (d, _) => d = c

/-- The second set in its final size, or what is wrong with two sets. -/
def fitSets (o : ReplaceOptions) (first second : SetElements) : Except String SetElements :=
  let wanted := firstSize o first
  let indefinite := second.filter SetElement.isIndefinite
  let stretched :=
    if indefinite.length = 1 ∧ second.size ≤ wanted then second.stretch wanted else second
  let limit := memberLimit wanted
  if 1 < indefinite.length then .error "only one [c*] repeat construct may appear in string2"
  else if o.deletes then
    if indefinite.isEmpty then .ok second
    else .error "the [c*] construct may appear in string2 only when translating"
  else if second.any SetElement.isEquivalence then
    .error "[=c=] expressions may not appear in string2 when translating"
  else if second.any SetElement.isRestricted then
    .error ("when translating, the only character classes that may appear in\n" ++
      "string2 are 'upper' and 'lower'")
  else if !o.complements && second.any SetElement.isClass &&
      !isAligned (limit + 1) (first.members limit) (stretched.members limit) then
    .error "misaligned [:upper:] and/or [:lower:] construct"
  else
    let extended : Except String SetElements :=
      if wanted ≤ stretched.size ∨ o.truncates then .ok stretched
      else if stretched.size = 0 then
        .error "when not truncating set1, string2 must be non-empty"
      else
        match stretched.lastOctet? with
        | some c => .ok (stretched ++ [.repeated c (wanted - stretched.size)])
        | none =>
          .error ("when translating with string1 longer than string2,\n" ++
            "the latter string must not end with a character class")
    match extended with
    | .error complaint => .error complaint
    | .ok final =>
      if o.complements ∧ first.any SetElement.isClass ∧
          !(final.size = wanted && isUniform final limit) then
        .error ("when translating with complemented character classes,\n" ++
          "string2 must map all characters in the domain to one")
      else .ok final

/-- What octets are replaced by; of several partners of one octet the last one counts. -/
abbrev Replacement := List (Char × Char)

/-- The partners of the octets of two sets. A class of letters that meets the class of the
other case changes the case. -/
def partners : Nat → List SetMember → List SetMember → Replacement
  | 0, _, _ => []
  | fuel + 1, (a, k) :: first, (b, l) :: second =>
    let pairs : Replacement := match k, l with
      | some .lower, some .upper =>
        CharacterClass.lower.members.map fun c => (c, Octets.toUpper c)
      | some .upper, some .lower =>
        CharacterClass.upper.members.map fun c => (c, Octets.toLower c)
      | _, _ => [(a, b)]
    let (first, second) :=
      if l.isSome then (first.drop otherLetters, second.drop otherLetters) else (first, second)
    pairs ++ partners fuel first second
  | _, _, _ => []

/-- What each octet is replaced by, as a table. -/
def replacementTable (o : ReplaceOptions) (first second : SetElements) : List Char :=
  let limit := memberLimit first.size
  let pairs : Replacement :=
    if o.complements then (outside first).zip ((second.members limit).map Prod.fst)
    else partners (limit + 1) (first.members limit) (second.members limit)
  let pairs := pairs.reverse
  allOctets.map fun c => (pairs.lookup c).getD c

/-- Leaves one of equal neighbours that a set holds. -/
def squeezed (isIn : Char → Bool) : Octets → Octets
  | [] => []
  | [c] => [c]
  | c :: d :: rest =>
    if c = d ∧ isIn c then squeezed isIn (d :: rest) else c :: squeezed isIn (d :: rest)

/-- The input with octets replaced, deleted and squeezed. -/
def replaced (o : ReplaceOptions) (first : SetElements) (second : Option SetElements)
    (input : Octets) : Octets :=
  let isInFirst (c : Char) : Bool := first.holds c != o.complements
  match second with
  | none =>
    if o.deletes then input.filter fun c => !isInFirst c else squeezed isInFirst input
  | some second =>
    if o.deletes then squeezed second.holds (input.filter fun c => !isInFirst c)
    else
      let table := (replacementTable o first second).toArray
      let swapped := input.map fun c => table.getD c.toNat c
      if o.squeezes then squeezed second.holds swapped else swapped

/-- Replaces, deletes or squeezes octets. -/
def replace (c : Call) : Execution :=
  match readItems ReplaceOptions.table c.arguments with
  | (_, some complaint) => c.refuse 1 complaint
  | (items, none) =>
    let o := ReplaceOptions.ofItems items
    let least := if o.deletes = o.squeezes then 2 else 1
    let most := if o.deletes ∧ !o.squeezes then 1 else 2
    let operands := operandsOf items
    match operands with
    | [] => c.misused 1 ["missing operand"]
    | one :: others =>
      if operands.length < least then
        let purpose := if o.squeezes then "both deleting and squeezing repeats" else "translating"
        c.misused 1 [s!"missing operand after {quoted one}"]
          [s!"Two strings must be given when {purpose}."]
      else if most < operands.length then
        let reason := "Only one string may be given when deleting without squeezing repeats."
        c.misused 1 [s!"extra operand {quoted (operands.getD most [])}"]
          (if operands.length = 2 then [reason] else [])
      else
        let (first, warnings) := readSet one
        let (second, moreWarnings) : Except String SetElements × List String :=
          match others with
          | [] => (.ok [], [])
          | two :: _ => readSet two
        let run (second : Option SetElements) (first : SetElements) : Execution :=
          let warned := c.fail 0 (warnings ++ moreWarnings)
          match c.input with
          | .error e => c.fail 1 (warnings ++ moreWarnings ++ [s!"read error: {e.wording}"])
          | .ok input =>
            { warned with
              readsInput := true
              written := warned.written ++ [(.output, replaced o first second input)] }
        match first, second with
        | .error complaint, _ => c.fail 1 (warnings ++ [complaint])
        | _, .error complaint => c.fail 1 (warnings ++ moreWarnings ++ [complaint])
        | .ok first, .ok second =>
          if first.any SetElement.isIndefinite then
            c.fail 1 (warnings ++ moreWarnings ++
              ["the [c*] repeat construct may not appear in string1"])
          else if others.isEmpty then run none first
          else
            match fitSets o first second with
            | .ok second => run (some second) first
            | .error complaint => c.fail 1 (warnings ++ moreWarnings ++ [complaint])

end SharedConstants.Command
