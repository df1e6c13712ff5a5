import SharedConstants.Command.Octets

/-!
# Order of versions

Names with numbers in them are ordered by the numbers' values. Endings that look like those of
files count only between names that are equal without them.
-/
namespace SharedConstants.Command

/-- The rank of what comes next in a part that is no number; nothing has a rank, too. -/
def versionRank : Octets → Int
  | [] => -1
  | c :: _ =>
    if Octets.isDigit c then 0
    else if Octets.isLetter c then c.toNat
    else if c = '~' then -2
    else c.toNat + 256

/-- Whether something comes next that is no digit. -/
def startsUncounted : Octets → Bool
  | [] => false
  | c :: _ => !Octets.isDigit c

/-- Compares parts that are no numbers. If they are equal, what follows them is left. -/
def compareUncounted : Nat → Octets → Octets → Ordering × Octets × Octets
  | 0, a, b => (.eq, a, b)
  | fuel + 1, a, b =>
    if startsUncounted a ∨ startsUncounted b then
      match compare (versionRank a) (versionRank b) with
      | .eq => compareUncounted fuel (a.drop 1) (b.drop 1)
      | o => (o, a, b)
    else (.eq, a, b)

def compareParts : Nat → Octets → Octets → Ordering
  | 0, _, _ => .eq
  | _, [], [] => .eq
  | fuel + 1, a, b =>
    match compareUncounted (a.length + b.length + 1) a b with
    | (.eq, a, b) =>
      let (m, a) := Octets.takeDigits 10 a
      let (n, b) := Octets.takeDigits 10 b
      match compare (Octets.numberOf 10 m) (Octets.numberOf 10 n) with
      | .eq => compareParts fuel a b
      | o => o
    | (o, _, _) => o

/-- What follows endings, each a dot, a letter or tilde, and letters, digits and tildes. -/
def dropEndings : Nat → Octets → Octets
  | 0, cs => cs
  | fuel + 1, '.' :: c :: cs =>
    if Octets.isLetter c ∨ c = '~' then
      dropEndings fuel (cs.dropWhile fun d => Octets.isAlphanumeric d || d = '~')
    else '.' :: c :: cs
  | _, cs => cs

/-- A name without the endings that close it. -/
def withoutEndings : Octets → Octets
  | [] => []
  | c :: cs =>
    if dropEndings (cs.length + 1) cs = [] then [c] else c :: withoutEndings cs

/-- Where hidden names stand: a single dot, two dots, other names with a dot in front. -/
def hiddenRank : Octets → Nat
  | [] => 0
  | ['.'] => 1
  | ['.', '.'] => 2
  | '.' :: _ => 3
  | _ => 4

def compareVersions (a b : Octets) : Ordering :=
  match compare (hiddenRank a) (hiddenRank b) with
  | .eq =>
    if hiddenRank a < 3 then .eq
    else
      match compareParts (a.length + b.length + 1) (withoutEndings a) (withoutEndings b) with
      | .eq => compareParts (a.length + b.length + 1) a b
      | o => o
  | o => o

end SharedConstants.Command
