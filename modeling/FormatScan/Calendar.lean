import FormatScan.Text.Padded

/-!
# The calendar

Points in time are counted in seconds from the first of January 1970 and shown
as dates of the proleptic Gregorian calendar. The year is taken to start in
March, so that the leap day is its last one, and the calendar repeats after an
era of 400 years.
-/

namespace FormatScan

/-- A date and a time of day. -/
structure DateTime where
  /-- The year. -/
  year : Nat
  /-- The month, from 1. -/
  month : Nat
  /-- The day of the month, from 1. -/
  day : Nat
  /-- The hour. -/
  hour : Nat
  /-- The minute. -/
  minute : Nat
  /-- The second. -/
  second : Nat
deriving DecidableEq, Repr

namespace DateTime

/-- The days from the first of March of the year 0 to the start of the count. -/
def epochDay : Nat := 719468

/-- The days of an era of 400 years. -/
def eraDays : Nat := 146097

/-- The date and time some seconds after the start of the count. -/
def ofSeconds (seconds : Nat) : DateTime :=
  let rest := seconds % 86400
  let day := seconds / 86400 + epochDay
  let era := day / eraDays
  let dayOfEra := day % eraDays
  let yearOfEra := (dayOfEra - dayOfEra / 1460 + dayOfEra / 36524 - dayOfEra / 146096) / 365
  let dayOfYear := dayOfEra - (365 * yearOfEra + yearOfEra / 4 - yearOfEra / 100)
  let monthFromMarch := (5 * dayOfYear + 2) / 153
  let month := if monthFromMarch < 10 then monthFromMarch + 3 else monthFromMarch - 9
  { year := yearOfEra + era * 400 + (if month ≤ 2 then 1 else 0)
    month := month
    day := dayOfYear - (153 * monthFromMarch + 2) / 5 + 1
    hour := rest / 3600
    minute := rest % 3600 / 60
    second := rest % 60 }

/-- A date and time with milliseconds as text. -/
def render (t : DateTime) (millis : Nat) : String :=
  Text.padded 4 t.year ++ "-" ++ Text.padded 2 t.month ++ "-" ++ Text.padded 2 t.day ++ "T" ++
    Text.padded 2 t.hour ++ ":" ++ Text.padded 2 t.minute ++ ":" ++ Text.padded 2 t.second ++
    "." ++ Text.padded 3 millis ++ "Z"

end DateTime

end FormatScan
