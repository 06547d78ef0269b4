import SymbolSearch.Text.Digit

/-!
# Dates and times

The moments a settings file may hold: dates, times of day, and both together with or without a distance from universal time.
-/

namespace SymbolSearch

/-- A calendar day. -/
structure Date where
  year : Nat
  month : Nat
  day : Nat
  deriving DecidableEq, Repr

/-- A time of day, down to the millionth of a second. -/
structure TimeOfDay where
  hour : Nat
  minute : Nat
  second : Nat
  micros : Nat
  deriving DecidableEq, Repr

/-- A moment; `offset` is the distance from universal time in minutes. -/
inductive Moment where
  | date (d : Date)
  | time (t : TimeOfDay)
  | dateTime (d : Date) (t : TimeOfDay) (offset : Option Int)
  deriving DecidableEq, Repr

/-- A year with a twenty-ninth of February. -/
def Date.isLeapYear (year : Nat) : Bool :=
  year % 4 = 0 && (year % 100 ≠ 0 || year % 400 = 0)

/-- The number of days in a month. -/
def Date.daysIn (year month : Nat) : Nat :=
  if month = 2 then if isLeapYear year then 29 else 28
  else if month = 4 || month = 6 || month = 9 || month = 11 then 30
  else 31

/-- The day exists: years start at one, months and days are those of the calendar. -/
def Date.isValid (d : Date) : Bool :=
  1 ≤ d.year && 1 ≤ d.month && d.month ≤ 12 && 1 ≤ d.day && d.day ≤ Date.daysIn d.year d.month

namespace Moment

/-- Numbers as they stand between the parentheses of a written moment. -/
def numbers (ns : List Nat) : Text :=
  Text.joinWith [',', ' '] (ns.map Text.ofNat)

/-- The parts of a time of day that are written: seconds and millionths only as far as something is left of them. -/
def timeParts (t : TimeOfDay) : List Nat :=
  [t.hour, t.minute] ++ (if t.second = 0 && t.micros = 0 then [] else [t.second]) ++ (if t.micros = 0 then [] else [t.micros])

/-- A distance from universal time as it is written in messages: whole days down, and seconds up. -/
def offsetText (minutes : Int) : Text :=
  if minutes = 0 then "datetime.timezone.utc".toList
  else
    let seconds := minutes * 60
    let days := seconds.fdiv 86400
    let rest := seconds - days * 86400
    let days := if days = 0 then [] else "days=".toList ++ Text.ofInt days
    let rest := if rest = 0 then [] else "seconds=".toList ++ Text.ofInt rest
    "datetime.timezone(datetime.timedelta(".toList ++ Text.joinWith [',', ' '] ([days, rest].filter (· ≠ [])) ++
      [')', ')']

/-- A moment as it is written in messages. -/
def text : Moment → Text
  | date d => "datetime.date(".toList ++ numbers [d.year, d.month, d.day] ++ [')']
  | time t => "datetime.time(".toList ++ numbers (timeParts t) ++ [')']
  | dateTime d t offset =>
    "datetime.datetime(".toList ++ numbers ([d.year, d.month, d.day] ++ timeParts t) ++
      (match offset with
        | none => []
        | some minutes => ", tzinfo=".toList ++ offsetText minutes) ++
      [')']

end Moment

end SymbolSearch
