import SharedConstants.Toml.Scan

/-!
# Dates and times of documents

A date has four digits for the year and two each for month and day. A time of day has two
digits each for hour, minute and second and may have a fraction, of which six digits count.
Both together may be followed by the offset from universal time.
-/
namespace SharedConstants.Toml

/-- A number of two digits in a range. -/
def takePair (least most : Nat) (cs : List Char) : Option (Nat × List Char) := do
  let (n, rest) ← takeNumber 2 cs
  if least ≤ n ∧ n ≤ most then some (n, rest) else none

/-- A character that must stand in front. -/
def expect (c : Char) : List Char → Option (List Char)
  | d :: rest => if d = c then some rest else none
  | [] => none

/-- The microseconds of a fraction, where one stands in front. -/
def takeMicroseconds : List Char → Nat × List Char
  | '.' :: cs =>
    let ds := cs.takeWhile Decimal.isDigit
    if ds.isEmpty then (0, '.' :: cs)
    else
      let six := ds.take 6
      (Decimal.ofDigits 10 (six ++ List.replicate (6 - six.length) '0'), cs.drop ds.length)
  | cs => (0, cs)

def takeTime (cs : List Char) : Option (ClockTime × List Char) := do
  let (hour, cs) ← takePair 0 23 cs
  let cs ← expect ':' cs
  let (minute, cs) ← takePair 0 59 cs
  let cs ← expect ':' cs
  let (second, cs) ← takePair 0 59 cs
  let (microsecond, cs) := takeMicroseconds cs
  some (⟨hour, minute, second, microsecond⟩, cs)

def takeOffset : List Char → Option (Int × List Char)
  | [] => none
  | c :: cs =>
    if c = 'Z' ∨ c = 'z' then some (0, cs)
    else if c = '+' ∨ c = '-' then do
      let (hours, cs) ← takePair 0 23 cs
      let cs ← expect ':' cs
      let (minutes, cs) ← takePair 0 59 cs
      let n : Int := hours * 60 + minutes
      some (if c = '-' then -n else n, cs)
    else none

def takeDate (cs : List Char) : Option (Date × List Char) := do
  let (year, cs) ← takeNumber 4 cs
  let cs ← expect '-' cs
  let (month, cs) ← takePair 1 12 cs
  let cs ← expect '-' cs
  let (day, cs) ← takePair 1 31 cs
  some (⟨year, month, day⟩, cs)

def isLeapYear (year : Nat) : Bool := year % 4 = 0 && (year % 100 ≠ 0 || year % 400 = 0)

def daysInMonth (year month : Nat) : Nat :=
  if month = 2 then if isLeapYear year then 29 else 28
  else if month = 4 ∨ month = 6 ∨ month = 9 ∨ month = 11 then 30
  else 31

/-- Whether a date is in the calendar. There is no year zero. -/
def isCalendarDate (d : Date) : Bool := 1 ≤ d.year && d.day ≤ daysInMonth d.year d.month

/-- The time behind a date, where one stands there. -/
def takeTimeBehind : List Char → Option (ClockTime × List Char)
  | [] => none
  | c :: cs => if c = 'T' ∨ c = 't' ∨ c = ' ' then takeTime cs else none

/-- A date, a time or both, where they stand in front. -/
def takeMoment (cs : List Char) : Option (Except Rejection (Datum × List Char)) :=
  match takeDate cs with
  | none => (takeTime cs).map fun (t, rest) => .ok (.time t, rest)
  | some (d, rest) =>
    if !isCalendarDate d then some (.error .malformed)
    else
      match takeTimeBehind rest with
      | none => some (.ok (.date d, rest))
      | some (t, rest) =>
        match takeOffset rest with
        | none => some (.ok (.moment d t none, rest))
        | some (offset, rest) => some (.ok (.moment d t (some offset), rest))

end SharedConstants.Toml
