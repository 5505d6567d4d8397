/-!
# Timestamps

An instant in coordinated universal time, and its written form `2001-02-03 04:05:06.789`.
-/

namespace SceneLighting.Log

/-- An instant, counted from the start of the year 1970. -/
structure Timestamp where
  seconds : Int
  nanoseconds : Nat

/-- A day of the Gregorian calendar, extended to all years. -/
structure Date where
  year : Int
  month : Nat
  day : Nat

/-- The date of a day counted from the start of 1970. Years are taken to begin in March, so that
the leap day is the last of its year; 400 of them have 146097 days, and five months in a row that
begin in March have 153. -/
def Date.ofDay (day : Int) : Date :=
  let day := day + 719468
  let era := day / 146097
  let dayOfEra := (day % 146097).toNat
  let yearOfEra := (dayOfEra - dayOfEra / 1460 + dayOfEra / 36524 - dayOfEra / 146096) / 365
  let dayOfYear := dayOfEra - (365 * yearOfEra + yearOfEra / 4 - yearOfEra / 100)
  let month := (5 * dayOfYear + 2) / 153
  let marchYear := 400 * era + yearOfEra
  { year := if month < 10 then marchYear else marchYear + 1
    month := if month < 10 then month + 3 else month - 9
    day := dayOfYear - (153 * month + 2) / 5 + 1 }

/-- A number in at least `width` digits. -/
def padded (width n : Nat) : String :=
  let digits := Nat.toDigits 10 n
  String.ofList (List.replicate (width - digits.length) '0' ++ digits)

/-- The year in four digits, with a sign outside the range of four digits. -/
def yearText (year : Int) : String :=
  let digits := padded 4 year.natAbs
  if year < 0 then "-" ++ digits else if 9999 < year then "+" ++ digits else digits

/-- The written form, with milliseconds cut off and not rounded. -/
def Timestamp.text (t : Timestamp) : String :=
  let seconds := t.seconds + t.nanoseconds / 1000000000
  let date := Date.ofDay (seconds / 86400)
  let second := (seconds % 86400).toNat
  let millisecond := t.nanoseconds % 1000000000 / 1000000
  yearText date.year ++ "-" ++ padded 2 date.month ++ "-" ++ padded 2 date.day ++ " " ++
    padded 2 (second / 3600) ++ ":" ++ padded 2 (second / 60 % 60) ++ ":" ++
    padded 2 (second % 60) ++ "." ++ padded 3 millisecond

end SceneLighting.Log
