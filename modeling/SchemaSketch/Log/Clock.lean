import SchemaSketch.Text.Trim

/-!
# The time of a record

A clock counts microseconds from the beginning of the year 1970. `timeText` writes the time as a date and a time
of day in universal time, with a point and the microseconds unless there are none. Years are counted from
March, so that the leap day is the last day of its year.
-/

namespace SchemaSketch.Log

/-- A date. -/
structure Date where
  /-- the year -/
  year : Nat
  /-- the month, from one -/
  month : Nat
  /-- the day of the month, from one -/
  day : Nat
  deriving DecidableEq, Repr

/-- How many days there are in 400 years. -/
def daysPerCycle : Nat := 146097

/-- How many days lie between the first of March of the year 0 and the beginning of the year 1970. -/
def daysBefore1970 : Nat := 719468

/-- The date of a day, counted from the beginning of the year 1970. -/
def dateOf (days : Nat) : Date :=
  let n := days + daysBefore1970
  let inCycle := n % daysPerCycle
  let yearInCycle := (inCycle - inCycle / 1460 + inCycle / 36524 - inCycle / 146096) / 365
  let inYear := inCycle - (365 * yearInCycle + yearInCycle / 4 - yearInCycle / 100)
  let fromMarch := (5 * inYear + 2) / 153
  let month := if fromMarch < 10 then fromMarch + 3 else fromMarch - 9
  { year := n / daysPerCycle * 400 + yearInCycle + (if month ≤ 2 then 1 else 0)
    month
    day := inYear - (153 * fromMarch + 2) / 5 + 1 }

/-- A number with zeros in front, up to so many figures. -/
def padded (width n : Nat) : String :=
  let figures := Nat.toDigits 10 n
  String.ofList (List.replicate (width - figures.length) '0' ++ figures)

/-- A time in microseconds from the beginning of the year 1970, as a text. -/
def timeText (microseconds : Nat) : String :=
  let seconds := microseconds / 1000000
  let fraction := microseconds % 1000000
  let date := dateOf (seconds / 86400)
  let inDay := seconds % 86400
  padded 4 date.year ++ "-" ++ padded 2 date.month ++ "-" ++ padded 2 date.day ++ "T"
    ++ padded 2 (inDay / 3600) ++ ":" ++ padded 2 (inDay / 60 % 60) ++ ":" ++ padded 2 (inDay % 60)
    ++ (if fraction = 0 then "" else "." ++ padded 6 fraction) ++ "Z"

example : dateOf 0 = ⟨1970, 1, 1⟩ ∧ dateOf 59 = ⟨1970, 3, 1⟩ ∧ dateOf 11016 = ⟨2000, 2, 29⟩ := by decide

end SchemaSketch.Log
