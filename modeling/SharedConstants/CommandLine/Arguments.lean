import SharedConstants.Text.Digit

/-!
# Arguments

An argument that starts with a dash is an option, any other one an operand. An option may
take an argument of its own, in the same word or in the next one. Long options may be
shortened as long as only one option is meant; short options without arguments may share a
dash. Behind two dashes everything is an operand.
-/
namespace SharedConstants.CommandLine

/-- A request that is met instead of what the other arguments ask for. -/
inductive Aside
  | help
  | version
  deriving DecidableEq, Repr

/-- Why the reading of arguments stops. -/
inductive Halt
  | aside (a : Aside)
  | rejected
  deriving DecidableEq, Repr

/-- What an option does to the settings it belongs to. -/
inductive Effect (σ : Type)
  | set (f : σ → σ)
  | take (f : String → σ → Option σ)
  | stop (a : Aside)

structure OptionSpec (σ : Type) where
  names : List String
  effect : Effect σ

def OptionSpec.takesArgument {σ : Type} (spec : OptionSpec σ) : Bool :=
  match spec.effect with
  | .take _ => true
  | _ => false

/-- An argument by its role. -/
inductive Argument (σ : Type)
  | operand (text : String)
  | option (spec : OptionSpec σ) (isShort : Bool) (attached : Option String)
  | unknown
  | dashes

def findOption? {σ : Type} (specs : List (OptionSpec σ)) (name : String) :
    Option (OptionSpec σ) :=
  specs.find? (·.names.contains name)

/-- A text at its first equals sign: the part in front and the part behind, if there is one. -/
def splitEquals (text : List Char) : List Char × Option (List Char) :=
  match text.dropWhile (· ≠ '=') with
  | [] => (text, none)
  | _ :: value => (text.takeWhile (· ≠ '='), some value)

/-- Whether a text is a number with a minus sign, in the digits of any script. A line feed may
stand at its end. -/
def isNegativeNumber : List Char → Bool
  | '-' :: cs =>
    let cs := if cs.getLast? = some '\n' then cs.dropLast else cs
    let digits := cs.takeWhile Text.isDecimalDigit
    match cs.drop digits.length with
    | [] => !digits.isEmpty
    | '.' :: rest => !rest.isEmpty && rest.all Text.isDecimalDigit
    | _ => false
  | _ => false

/-- The options that a shortened or joined word may mean. -/
def candidates {σ : Type} (specs : List (OptionSpec σ)) (text : List Char) :
    List (Argument σ) :=
  match text with
  | '-' :: '-' :: _ =>
    let (name, value) := splitEquals text
    specs.flatMap fun spec =>
      (spec.names.filter fun n => name.isPrefixOf n.toList).map fun _ =>
        .option spec false (value.map String.ofList)
  | '-' :: letter :: rest =>
    ((findOption? specs (String.ofList ['-', letter])).map fun spec =>
      .option spec true (some (String.ofList rest))).toList
  | _ => []

/-- The role of an argument in front of two dashes. A word that could mean several options is
rejected. -/
def classify {σ : Type} (specs : List (OptionSpec σ)) (arg : String) :
    Except Halt (Argument σ) :=
  match arg.toList with
  | '-' :: c :: cs =>
    let text := '-' :: c :: cs
    match findOption? specs arg with
    | some spec => .ok (.option spec (c ≠ '-') none)
    | none =>
      let (name, value) := splitEquals text
      match value, findOption? specs (String.ofList name) with
      | some value, some spec => .ok (.option spec (c ≠ '-') (some (String.ofList value)))
      | _, _ =>
        match candidates specs text with
        | [candidate] => .ok candidate
        | _ :: _ :: _ => .error .rejected
        | [] =>
          if isNegativeNumber text ∨ text.contains ' ' then .ok (.operand arg) else .ok .unknown
  | _ => .ok (.operand arg)

def classifyAll {σ : Type} (specs : List (OptionSpec σ)) :
    List String → Except Halt (List (Argument σ))
  | [] => .ok []
  | arg :: args =>
    if arg = "--" then .ok (.dashes :: args.map .operand)
    else
      match classify specs arg, classifyAll specs args with
      | .ok a, .ok rest => .ok (a :: rest)
      | .error halt, _ | _, .error halt => .error halt

/-- The options that share a dash, and the argument attached to the last one. -/
def shareDash? {σ : Type} (specs : List (OptionSpec σ)) :
    OptionSpec σ → List Char → Option (List (OptionSpec σ) × Option String)
  | spec, [] => some ([spec], none)
  | spec, c :: cs =>
    if spec.takesArgument then some ([spec], some (String.ofList (c :: cs)))
    else
      match findOption? specs (String.ofList ['-', c]) with
      | none => none
      | some next =>
        (shareDash? specs next cs).map fun (more, attached) => (spec :: more, attached)

/-- The options that a word stands for, and the argument attached to the last one. An option
that takes no argument must have none attached; behind a short one further options may stand,
even behind an equals sign. -/
def spread? {σ : Type} (specs : List (OptionSpec σ)) (spec : OptionSpec σ) (isShort : Bool) :
    Option String → Option (List (OptionSpec σ) × Option String)
  | none => some ([spec], none)
  | some attached =>
    if spec.takesArgument then some ([spec], some attached)
    else if isShort ∧ attached ≠ "" then shareDash? specs spec attached.toList
    else none

/-- Settings that are read so far, and whether arguments were left over. -/
structure Intake (σ : Type) where
  settings : σ
  hasExtras : Bool := false

/-- Applies options; the last one may use an argument. The result tells whether it did. -/
def applyOptions {σ : Type} (argument : Option String) :
    List (OptionSpec σ) → σ → Except Halt σ
  | [], settings => .ok settings
  | spec :: rest, settings =>
    match spec.effect with
    | .stop a => .error (.aside a)
    | .set f => applyOptions argument rest (f settings)
    | .take f =>
      match argument.bind fun text => f text settings with
      | some settings => applyOptions argument rest settings
      | none => .error .rejected

/-- Reads options up to the first operand, or up to two dashes. -/
def readOptions {σ : Type} (specs : List (OptionSpec σ)) :
    Intake σ → List (Argument σ) → Except Halt (Intake σ × List (Argument σ))
  | intake, .unknown :: rest => readOptions specs { intake with hasExtras := true } rest
  | intake, .option spec isShort attached :: rest =>
    match spread? specs spec isShort attached with
    | none => .error .rejected
    | some (options, attached) =>
      let needs := attached.isNone && options.getLast?.any OptionSpec.takesArgument
      match needs, rest with
      | true, .operand text :: rest =>
        match applyOptions (some text) options intake.settings with
        | .ok settings => readOptions specs { intake with settings } rest
        | .error halt => .error halt
      | true, _ => .error .rejected
      | false, rest =>
        match applyOptions attached options intake.settings with
        | .ok settings => readOptions specs { intake with settings } rest
        | .error halt => .error halt
  | intake, rest => .ok (intake, rest)

/-- Gives an operand to the settings, if these take it. -/
def Intake.offer {σ : Type} (operand : String → σ → Option σ) (intake : Intake σ)
    (text : String) : Intake σ :=
  match operand text intake.settings with
  | some settings => { intake with settings }
  | none => { intake with hasExtras := true }

/-- Reads options and operands. Two dashes beside an operand belong to it. The fuel bounds the
number of operands. -/
def consume {σ : Type} (specs : List (OptionSpec σ)) (operand : String → σ → Option σ) :
    Nat → Intake σ → List (Argument σ) → Except Halt (Intake σ)
  | 0, intake, _ => .ok intake
  | fuel + 1, intake, arguments =>
    match readOptions specs intake arguments with
    | .error halt => .error halt
    | .ok (intake, .operand text :: .dashes :: rest)
    | .ok (intake, .dashes :: .operand text :: rest)
    | .ok (intake, .operand text :: rest) =>
      consume specs operand fuel (intake.offer operand text) rest
    | .ok (intake, _ :: rest) => consume specs operand fuel { intake with hasExtras := true } rest
    | .ok (intake, []) => .ok intake

/-- Reads arguments into settings. Arguments that are left over are rejected, but only after
all others were read. -/
def readArguments {σ : Type} (specs : List (OptionSpec σ)) (operand : String → σ → Option σ)
    (start : σ) (args : List String) : Except Halt σ := do
  let classified ← classifyAll specs args
  let intake ← consume specs operand (args.length + 1) ⟨start, false⟩ classified
  if intake.hasExtras then .error .rejected else return intake.settings

end SharedConstants.CommandLine
