import SharedConstants.Command.Execution
import SharedConstants.Command.Options

/-!
# Concatenation

`cat` writes files one after another. Options number the lines, leave out repeated empty ones
and show characters that cannot be seen.
-/
namespace SharedConstants.Command

/-- What is shown beside the octets themselves. -/
structure ConcatenateOptions where
  numbersFilled : Bool := false
  numbersAll : Bool := false
  squeezes : Bool := false
  showsEnds : Bool := false
  showsTabs : Bool := false
  showsHidden : Bool := false
  deriving Inhabited

namespace ConcatenateOptions

def isPlain (o : ConcatenateOptions) : Bool :=
  !(o.numbersFilled || o.numbersAll || o.squeezes || o.showsEnds || o.showsTabs ||
    o.showsHidden)

def table : OptionTable where
  letters := "benstuvAET".toList.map (·, .nothing)
  words :=
    [("number-nonblank", .nothing), ("number", .nothing), ("squeeze-blank", .nothing),
      ("show-nonprinting", .nothing), ("show-ends", .nothing), ("show-tabs", .nothing),
      ("show-all", .nothing), ("help", .nothing), ("version", .nothing)]

def add (o : ConcatenateOptions) (name : String) : ConcatenateOptions :=
  match name with
  | "b" | "number-nonblank" => { o with numbersFilled := true }
  | "e" => { o with showsHidden := true, showsEnds := true }
  | "n" | "number" => { o with numbersAll := true }
  | "s" | "squeeze-blank" => { o with squeezes := true }
  | "t" => { o with showsHidden := true, showsTabs := true }
  | "v" | "show-nonprinting" => { o with showsHidden := true }
  | "A" | "show-all" => { o with showsHidden := true, showsEnds := true, showsTabs := true }
  | "E" | "show-ends" => { o with showsEnds := true }
  | "T" | "show-tabs" => { o with showsTabs := true }
  | _ => o

def ofItems (items : List Item) : ConcatenateOptions :=
  items.foldl (fun o i =>
    match i with
    | .option name _ => o.add name
    | .operand _ => o) {}

end ConcatenateOptions

/-- A character below 128 as it is shown when hidden ones are. -/
def shownLow (c : Char) : Octets :=
  if c < ' ' then ['^', Octets.ofNumber (c.toNat + 64)]
  else if c = '\x7f' then ['^', '?']
  else [c]

def shownOctet (o : ConcatenateOptions) (c : Char) : Octets :=
  if c = '\t' then if o.showsTabs then ['^', 'I'] else [c]
  else if !o.showsHidden then [c]
  else if c.toNat < 128 then shownLow c
  else 'M' :: '-' :: shownLow (Octets.ofNumber (c.toNat - 128))

/-- Where in the lines the next octet stands. -/
structure LinePosition where
  isLineStart : Bool := true
  /-- How many empty lines come right before. -/
  empties : Nat := 0
  number : Nat := 1

/-- A number in front of a line. -/
def lineNumber (n : Nat) : Octets :=
  let digits := Octets.ofNat n
  List.replicate (6 - digits.length) ' ' ++ digits ++ ['\t']

/-- Octets as they are shown, from a position in the lines on. -/
def shown (o : ConcatenateOptions) : LinePosition → Octets → Octets × LinePosition
  | p, [] => ([], p)
  | p, '\n' :: cs =>
    if p.isLineStart then
      if o.squeezes ∧ 0 < p.empties then shown o { p with empties := p.empties + 1 } cs
      else
        let numbered := o.numbersAll && !o.numbersFilled
        let front := if numbered then lineNumber p.number else []
        let ends : Octets := if o.showsEnds then ['$', '\n'] else ['\n']
        let next : LinePosition :=
          { p with empties := p.empties + 1, number := if numbered then p.number + 1 else p.number }
        let (rest, last) := shown o next cs
        (front ++ ends ++ rest, last)
    else
      let ends : Octets := if o.showsEnds then ['$', '\n'] else ['\n']
      let (rest, last) := shown o { p with isLineStart := true, empties := 0 } cs
      (ends ++ rest, last)
  | p, c :: cs =>
    let numbered := p.isLineStart && (o.numbersAll || o.numbersFilled)
    let front := if numbered then lineNumber p.number else []
    let isEndMark := c = '\r' && o.showsEnds && cs.head? = some '\n'
    let text : Octets := if isEndMark then ['^', 'M'] else shownOctet o c
    let next : LinePosition :=
      { isLineStart := false, empties := 0
        number := if numbered then p.number + 1 else p.number }
    let (rest, last) := shown o next cs
    (front ++ text ++ rest, last)

/-- What is written of sources, one after another. The input can be read only once. -/
def concatenateSources (c : Call) (o : ConcatenateOptions) :
    List Octets → LinePosition → Execution → Execution
  | [], _, e => e
  | name :: names, p, e =>
    let isInput : Bool := name = ['-']
    let place : Option Location :=
      if isInput then c.inputPlace
      else
        match c.files.locateText name.toText with
        | .ok l => some l
        | .error _ => none
    let isOutput : Bool := place.isSome && place = c.outputPlace
    let source : Except FileError Octets :=
      if isInput ∧ e.readsInput then .ok [] else c.read name
    let e := { e with readsInput := e.readsInput || isInput }
    let failed (text : String) : Execution :=
      { e with
        status := 1
        written :=
          e.written ++ [(.errors, c.complaint (Octets.ofText s!"{fileQuoted name}: {text}"))] }
    match source with
    | .error error => concatenateSources c o names p (failed error.wording)
    | .ok content =>
      if isOutput ∧ !content.isEmpty then
        concatenateSources c o names p (failed "input file is output file")
      else
        let (text, p) := if o.isPlain then (content, p) else shown o p content
        concatenateSources c o names p { e with written := e.written ++ [(.output, text)] }

/-- Writes sources one after another. -/
def concatenate (c : Call) : Execution :=
  match readItems ConcatenateOptions.table c.arguments with
  | (_, some complaint) => c.refuse 1 complaint
  | (items, none) =>
    let names := operandsOf items
    let names := if names.isEmpty then [['-']] else names
    let e := concatenateSources c (.ofItems items) names {} {}
    match c.input with
    | .error .badDescriptor =>
      if names.contains ['-'] then
        let closing := Octets.ofText "closing standard input: Bad file descriptor"
        { e with written := e.written ++ [(.errors, c.complaint closing)] }
      else e
    | _ => e

end SharedConstants.Command
