import SharedConstants.Command.Number
import SharedConstants.Decimal.Layout
import SharedConstants.Shell.Arithmetic

/-!
# Printing

`echo` prints its arguments with spaces between them. `printf` prints them under a format, which
is used again as long as arguments are left. Both resolve escapes.
-/
namespace SharedConstants.Shell

/-- What was printed, and what there was to complain about. -/
structure Printed where
  output : Octets := []
  complaints : List Octets := []
  status : Nat := 0

namespace Printed

/-- The octet that a letter stands for behind a backslash. -/
def escaped? (c : Char) : Option Char :=
  match c with
  | '\\' => some '\\'
  | 'a' => some '\x07'
  | 'b' => some '\x08'
  | 'e' => some '\x1b'
  | 'f' => some '\x0c'
  | 'n' => some '\n'
  | 'r' => some '\r'
  | 't' => some '\t'
  | 'v' => some '\x0b'
  | _ => none

/-- The octet that stands behind a backslash, and what follows it. -/
def takeEscape (cs : Octets) : Char × Octets :=
  match cs with
  | [] => ('\\', [])
  | c :: rest =>
    match escaped? c with
    | some e => (e, rest)
    | none =>
      let digits := (cs.take 3).takeWhile Octets.isOctalDigit
      if digits.isEmpty then ('\\', cs)
      else
        (Octets.ofNumber (Octets.numberOf 8 (digits.map fun d => d.toNat - 48)),
          cs.drop digits.length)

/-- A text with its escapes resolved. The flag tells whether printing is cut off. -/
def resolve : Nat → Octets → Octets × Bool
  | 0, _ => ([], false)
  | _, [] => ([], false)
  | fuel + 1, '\\' :: rest =>
    let front (found : Char × Octets) : Octets × Bool :=
      let (more, isCut) := resolve fuel found.2
      (found.1 :: more, isCut)
    match rest with
    | 'c' :: _ => ([], true)
    | '0' :: d :: more =>
      front (takeEscape (if Octets.isOctalDigit d then d :: more else '0' :: d :: more))
    | rest => front (takeEscape rest)
  | fuel + 1, c :: rest =>
    let (more, isCut) := resolve fuel rest
    (c :: more, isCut)

/-- Arguments with spaces between them, up to where printing is cut off. -/
def joined : List Octets → Octets × Bool
  | [] => ([], false)
  | arg :: args =>
    match resolve arg.length arg, args with
    | (text, true), _ => (text, true)
    | (text, false), [] => (text, false)
    | (text, false), args =>
      let (more, isCut) := joined args
      (text ++ ' ' :: more, isCut)

/-- Prints arguments on a line. -/
def echo (args : List Octets) : Printed :=
  let isOpen : Bool := args.head? = some ['-', 'n']
  let (text, isCut) := joined (if isOpen then args.drop 1 else args)
  { output := if isOpen || isCut then text else text ++ ['\n'] }

end Printed

/-- A conversion of a format. -/
structure Conversion where
  marks : List Char
  width : Option Int := none
  precision : Option Int := none

namespace Conversion

/-- The places that a conversion fills at least. -/
def places (c : Conversion) : Nat := (c.width.getD 0).natAbs

def isLeft (c : Conversion) : Bool := c.marks.contains '-' || c.width.any (· < 0)

/-- The precision, if there is one. -/
def limit? (c : Conversion) : Option Nat :=
  c.precision.bind fun p => if p < 0 then none else some p.toNat

/-- A text in the places of a conversion. -/
def fill (c : Conversion) (text : Octets) : Octets :=
  let blanks := List.replicate (c.places - text.length) ' '
  if c.isLeft then text ++ blanks else blanks ++ text

def text (c : Conversion) (cs : Octets) : Octets :=
  c.fill (match c.limit? with
    | some n => cs.take n
    | none => cs)

/-- A number in the places of a conversion: a sign or a mark of its base, then its digits. -/
def number (c : Conversion) (front digits : Octets) (mayPad : Bool) : Octets :=
  let count := c.places - front.length - digits.length
  if mayPad && c.marks.contains '0' && !c.isLeft then
    front ++ List.replicate count '0' ++ digits
  else c.fill (front ++ digits)

/-- The sign in front of a number. -/
def sign (c : Conversion) (isNegative : Bool) : Octets :=
  if isNegative then ['-']
  else if c.marks.contains '+' then ['+']
  else if c.marks.contains ' ' then [' ']
  else []

def integer (c : Conversion) (letter : Char) (n : Int) : Octets :=
  let isSigned := letter = 'd' || letter = 'i'
  let magnitude := if isSigned then n.natAbs else (n % 18446744073709551616).toNat
  let base := if letter = 'o' then 8 else if Octets.toLower letter = 'x' then 16 else 10
  let digits := if magnitude = 0 then [] else Nat.toDigits base magnitude
  let digits := if letter = 'X' then digits.map Octets.toUpper else digits
  let least := c.limit?.getD 1
  let digits := List.replicate (least - digits.length) '0' ++ digits
  let isMarked := c.marks.contains '#'
  let digits := if isMarked && letter = 'o' && digits.head? ≠ some '0' then '0' :: digits
    else digits
  let front : Octets :=
    if isSigned then c.sign (n < 0)
    else if isMarked && base = 16 && magnitude ≠ 0 then ['0', letter]
    else []
  c.number front digits c.limit?.isNone

/-- Digits with the last ones behind a point. -/
def pointed (places : Nat) (digits : Octets) : Octets :=
  let digits := List.replicate (places + 1 - digits.length) '0' ++ digits
  let whole := digits.take (digits.length - places)
  if places = 0 then whole else whole ++ '.' :: digits.drop (digits.length - places)

/-- Digits of a positive number as a letter asks for them. -/
def realDigits (c : Conversion) (letter : Char) (b : Decimal.Binary) : Octets :=
  let places := c.limit?.getD 6
  match letter with
  | 'f' => pointed places (Nat.toDigits 10 (Decimal.nearest b (-(places : Int))))
  | 'e' =>
    let s := Decimal.rounded (places + 1) b
    let ds := s.digits ++ List.replicate (places + 1 - s.digits.length) '0'
    let exponent := Nat.toDigits 10 s.leading.natAbs
    pointed places ds ++ ['e', if s.leading < 0 then '-' else '+'] ++
      List.replicate (2 - exponent.length) '0' ++ exponent
  | _ =>
    let places := max 1 places
    let s := Decimal.rounded places b
    if -4 ≤ s.leading ∧ s.leading < places then Decimal.positionalText false s
    else Decimal.exponentText s

def real (c : Conversion) (letter : Char) (x : Float) : Octets :=
  let (isNegative, magnitude) := Decimal.ofBits x.toBits
  let lower := Octets.toLower letter
  let places := c.limit?.getD 6
  let (digits, mayPad) : Octets × Bool := match magnitude with
    | .undefined => ("nan".toList, false)
    | .infinite => ("inf".toList, false)
    | .finite b => (c.realDigits lower b, true)
    | .zero =>
      let ds := if lower = 'g' then ['0'] else pointed places (List.replicate (places + 1) '0')
      (if lower = 'e' then ds ++ "e+00".toList else ds, true)
  let digits := if Octets.isUpper letter then digits.map Octets.toUpper else digits
  c.number (c.sign isNegative) digits mayPad

end Conversion

/-- Why printing under a format stops early. -/
inductive PrintStop
  | cut
  | failed (complaint : Octets)

structure Printing where
  arguments : List Octets
  /-- What was printed, the last text first. -/
  output : List Octets := []
  complaints : List Octets := []

/-- Printing under a format. -/
abbrev Print := EStateM PrintStop Printing

namespace Print

def put (cs : Octets) : Print Unit := modify fun s => { s with output := cs :: s.output }

def complain (text : Octets) : Print Unit :=
  modify fun s => { s with complaints := s.complaints ++ [text] }

/-- The next argument, which is used up. -/
def argument? : Print (Option Octets) := do
  let s ← get
  set { s with arguments := s.arguments.drop 1 }
  return s.arguments.head?

/-- Complains about what follows a number that was read. -/
def checkRest (arg rest : Octets) : Print Unit := do
  if rest ≠ [] then
    let what := if rest = arg then "expected numeric value" else "not completely converted"
    complain (arg ++ ": ".toList ++ what.toList)

def integer (isSigned : Bool) : Print Int := do
  match ← argument? with
  | none => return 0
  | some ('"' :: cs) | some ('\'' :: cs) => return ((cs.head?.getD '\x00').toNat : Int)
  | some arg =>
    match takeInteger? none arg with
    | none =>
      checkRest arg arg
      return 0
    | some (n, rest) =>
      let low : Int := if isSigned then -9223372036854775808 else -18446744073709551615
      let high : Int := if isSigned then 9223372036854775807 else 18446744073709551615
      let fits : Bool := low ≤ n && n ≤ high
      if fits || rest ≠ [] then checkRest arg rest
      else complain (arg ++ ": Numerical result out of range".toList)
      if fits then return n
      else return if n < 0 && isSigned then low else high

def real : Print Float := do
  match ← argument? with
  | none => return 0
  | some arg =>
    match Command.takeFloat? arg with
    | some (x, rest) =>
      checkRest arg rest
      return x
    | none =>
      checkRest arg arg
      return 0

/-- A width or a precision in front of what follows it: digits, or a star for the next
argument. -/
def measure (cs : Octets) : Print (Option Int × Octets) := do
  match cs with
  | '*' :: rest =>
    let n ← integer true
    return (some n, rest)
  | cs =>
    match Octets.takeDigits 10 cs with
    | ([], _) => return (none, cs)
    | (ds, rest) => return (some (Octets.numberOf 10 ds), rest)

def convert (c : Conversion) (letter : Char) (shown : Octets) : Print Unit := do
  match letter with
  | 's' =>
    let arg ← argument?
    put (c.text (arg.getD []))
  | 'b' =>
    let arg := (← argument?).getD []
    let (text, isCut) := Printed.resolve arg.length arg
    put (c.text text)
    if isCut then throw .cut
  | 'c' =>
    let arg ← argument?
    put (c.fill [((arg.getD []).head?).getD '\x00'])
  | 'd' | 'i' => put (c.integer letter (← integer true))
  | 'o' | 'u' | 'x' | 'X' => put (c.integer letter (← integer false))
  | 'e' | 'E' | 'f' | 'F' | 'g' | 'G' => put (c.real letter (← real))
  | _ => throw (.failed (shown ++ ": invalid directive".toList))

/-- Prints under a format once. -/
def once : Nat → Octets → Print Unit
  | 0, _ => return
  | _, [] => return
  | fuel + 1, '\\' :: rest => do
    let (c, rest) := Printed.takeEscape rest
    put [c]
    once fuel rest
  | fuel + 1, '%' :: '%' :: rest => do
    put ['%']
    once fuel rest
  | fuel + 1, '%' :: rest => do
    let marks := rest.takeWhile "#-+ 0".toList.contains
    let (width, behind) ← measure (rest.drop marks.length)
    let (precision, behind) ← match behind with
      | '.' :: more => do
        let (p, behind) ← measure more
        pure (some (p.getD 0), behind)
      | behind => pure (none, behind)
    match behind with
    | [] => throw (.failed "missing format character".toList)
    | letter :: more =>
      convert { marks, width, precision } letter
        ('%' :: rest.take (rest.length - more.length))
      once fuel more
  | fuel + 1, c :: rest => do
    put [c]
    once fuel rest

/-- Prints under a format until no arguments are left, or it takes none. -/
def all (format : Octets) : Nat → Print Unit
  | 0 => return
  | fuel + 1 => do
    let before := (← get).arguments.length
    once format.length format
    let left := (← get).arguments.length
    if 0 < left ∧ left < before then all format fuel

end Print

/-- Prints arguments under a format. -/
def Printed.formatted (args : List Octets) : Printed :=
  let args := if args.head? = some ['-', '-'] then args.drop 1 else args
  match args with
  | [] => { complaints := ["usage: printf format [arg ...]".toList], status := 2 }
  | ('-' :: c :: _) :: _ => { complaints := ["Illegal option -".toList ++ [c]], status := 2 }
  | format :: args =>
    let close (s : Printing) (more : List Octets) (status : Nat) : Printed :=
      { output := s.output.reverse.flatten, complaints := s.complaints ++ more, status }
    match (Print.all format (args.length + 1)).run { arguments := args } with
    | .ok () s => close s [] (if s.complaints.isEmpty then 0 else 1)
    | .error .cut s => close s [] (if s.complaints.isEmpty then 0 else 1)
    | .error (.failed complaint) s => close s [complaint] 2

end SharedConstants.Shell
