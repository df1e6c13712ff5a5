import SharedConstants.Decimal.Layout
import SharedConstants.Text.Quoted

/-!
# Data of a document

A decoded document is a table of values. Messages that reject a value show it in full:
texts quoted, arrays and tables in brackets, dates and times as the calls that build them.
-/
namespace SharedConstants

structure Date where
  year : Nat
  month : Nat
  day : Nat
  deriving DecidableEq, Repr

structure ClockTime where
  hour : Nat
  minute : Nat
  second : Nat
  microsecond : Nat
  deriving DecidableEq, Repr

/-- A value of a document. Tables keep the order of their keys. -/
inductive Datum
  | null
  | boolean (value : Bool)
  | integer (value : Int)
  | float (value : Float)
  | text (value : String)
  | array (items : List Datum)
  | table (entries : List (String × Datum))
  | date (value : Date)
  | time (value : ClockTime)
  /-- A date and a time of day, with the offset from universal time in minutes if known. -/
  | moment (date : Date) (time : ClockTime) (offset : Option Int)
  deriving Inhabited

namespace Datum

/-- The name of a value's type in messages. -/
def typeName : Datum → String
  | .null => "NoneType"
  | .boolean _ => "bool"
  | .integer _ => "int"
  | .float _ => "float"
  | .text _ => "str"
  | .array _ => "list"
  | .table _ => "dict"
  | .date _ => "date"
  | .time _ => "time"
  | .moment .. => "datetime"

def dateParts (d : Date) : List Nat := [d.year, d.month, d.day]

/-- Numbers of a time of day, without zeros for seconds and microseconds at the end. -/
def timeParts (t : ClockTime) : List Nat :=
  if t.microsecond ≠ 0 then [t.hour, t.minute, t.second, t.microsecond]
  else if t.second ≠ 0 then [t.hour, t.minute, t.second]
  else [t.hour, t.minute]

def commaSeparated (parts : List String) : String := ", ".intercalate parts

/-- An offset from universal time, in minutes: whole days rounded down, then seconds. -/
def offsetText (minutes : Int) : String :=
  if minutes = 0 then "datetime.timezone.utc"
  else
    let seconds := minutes * 60
    let days := seconds.fdiv 86400
    let rest := seconds.fmod 86400
    let parts := (if days = 0 then [] else [s!"days={days}"]) ++
      (if rest = 0 then [] else [s!"seconds={rest}"])
    s!"datetime.timezone(datetime.timedelta({commaSeparated parts}))"

mutual

/-- A value as messages show it. -/
def spell : Datum → String
  | .null => "None"
  | .boolean b => if b then "True" else "False"
  | .integer n => toString n
  | .float x => Decimal.Layout.document.write x
  | .text s => Text.quoted s
  | .array items => "[" ++ commaSeparated (spellItems items) ++ "]"
  | .table entries => "\x7b" ++ commaSeparated (spellEntries entries) ++ "\x7d"
  | .date d => s!"datetime.date({commaSeparated ((dateParts d).map toString)})"
  | .time t => s!"datetime.time({commaSeparated ((timeParts t).map toString)})"
  | .moment d t offset =>
    let parts := (dateParts d ++ timeParts t).map toString
    match offset with
    | none => s!"datetime.datetime({commaSeparated parts})"
    | some minutes =>
      s!"datetime.datetime({commaSeparated parts}, tzinfo={offsetText minutes})"

def spellItems : List Datum → List String
  | [] => []
  | d :: ds => spell d :: spellItems ds

def spellEntries : List (String × Datum) → List String
  | [] => []
  | (key, d) :: rest => (Text.quoted key ++ ": " ++ spell d) :: spellEntries rest

end

/-- Numbers with more decimal digits than this are neither read nor shown. -/
def digitLimit : Nat := 4300

/-- Whether an integer is short enough to be shown. -/
def isShowable (n : Int) : Bool := n.natAbs < Nat.pow 10 digitLimit

/-- What keeps a value from being shown. -/
inductive Obstacle
  | tooLong
  | tooDeep
  deriving DecidableEq, Repr

/-- How many calls nest below the one that shows a moment. An offset is shown by a call of its
own, and so is the difference of times inside one that is not zero. -/
def offsetDepth : Option Int → Nat
  | none => 0
  | some minutes => if minutes = 0 then 1 else 2

mutual

/-- What keeps a value from being shown, first in the order of its text: an integer that is too
long, or a part of a value for whose call there is no room left on the stack. The room counts the
calls that may nest below the one that shows the value. -/
def obstacle? (room : Nat) : Datum → Option Obstacle
  | .integer n => if isShowable n then none else some .tooLong
  | .array items => obstacleOfItems? room items
  | .table entries => obstacleOfEntries? room entries
  | .moment _ _ offset => if room < offsetDepth offset then some .tooDeep else none
  | _ => none

def obstacleOfItems? (room : Nat) : List Datum → Option Obstacle
  | [] => none
  | d :: ds =>
    match room with
    | 0 => some .tooDeep
    | below + 1 => obstacle? below d <|> obstacleOfItems? room ds

def obstacleOfEntries? (room : Nat) : List (String × Datum) → Option Obstacle
  | [] => none
  | (_, d) :: rest =>
    match room with
    | 0 => some .tooDeep
    | below + 1 => obstacle? below d <|> obstacleOfEntries? room rest

end

end Datum

end SharedConstants
