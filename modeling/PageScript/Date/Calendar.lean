import PageScript.Number.Binary64

/-! # The calendar

A time is a whole number of milliseconds since the start of 1970 in GMT.  `Moment.ofTime` takes it
apart by the Gregorian calendar, which is carried on in both directions, and `timeOfFields` puts
fields together; those may lie outside their ranges and carry over into the next larger unit.

Sums and products of fields are rounded as doubles are, and one that is too large for a double leaves
no time.  That matters only where they are far beyond the limit of times, and yet another field brings
the result back.
-/

set_option autoImplicit false

namespace PageScript.Calendar

/-! ## Units -/

/-- Milliseconds in a second. -/
def second : Int := 1000

/-- Milliseconds in a minute. -/
def minute : Int := 60000

/-- Milliseconds in an hour. -/
def hour : Int := 3600000

/-- Milliseconds in a day. -/
def day : Int := 86400000

/-- The largest magnitude of a time. -/
def timeLimit : Nat := 8640000000000000

/-- A time, unless it is beyond the limit. -/
def clip (t : Int) : Option Int := if t.natAbs ≤ timeLimit then some t else none

/-! ## Years -/

/-- Whether a year has a leap day. -/
def isLeap (year : Int) : Bool := year % 4 == 0 && (year % 100 != 0 || year % 400 == 0)

/-- Days from the start of 1970 to the start of a year. -/
def daysToYear (year : Int) : Int :=
  365 * (year - 1970) + (year - 1969) / 4 - (year - 1901) / 100 + (year - 1601) / 400

/-- The year of a day, counted from the start of 1970.  The mean length of a year gives it up to one
year. -/
def yearOfDay (d : Int) : Int :=
  let guess := 1970 + d * 400 / 146097
  if d < daysToYear guess then guess - 1
  else if daysToYear (guess + 1) ≤ d then guess + 1
  else guess

/-! ## Months -/

/-- The day of a common year on which each month starts. -/
def commonStarts : List Int := [0, 31, 59, 90, 120, 151, 181, 212, 243, 273, 304, 334]

/-- The day of a year on which a month starts. -/
def monthStart (leap : Bool) (month : Nat) : Int :=
  commonStarts.getD month 0 + if leap && 2 ≤ month then 1 else 0

/-- The month of a day of a year, the last one that has started. -/
def monthOfDay (leap : Bool) (d : Int) : Nat :=
  (List.range' 1 11).countP fun month => monthStart leap month ≤ d

end Calendar

open Calendar

/-! ## Times taken apart -/

/-- A time by the calendar; months count from zero. -/
structure Moment where
  year : Int
  month : Nat
  date : Int
  hours : Int
  minutes : Int
  seconds : Int
  milliseconds : Int
  deriving DecidableEq, Repr

namespace Moment

/-- Takes a time apart. -/
def ofTime (t : Int) : Moment :=
  let d := t / day
  let year := yearOfDay d
  let inYear := d - daysToYear year
  let month := monthOfDay (isLeap year) inYear
  { year := year
    month := month
    date := inYear - monthStart (isLeap year) month + 1
    hours := t % day / hour
    minutes := t % day / minute % 60
    seconds := t % day / second % 60
    milliseconds := t % second }

/-- The parts of a moment, largest first. -/
def fields (m : Moment) : List Int :=
  [m.year, m.month, m.date, m.hours, m.minutes, m.seconds, m.milliseconds]

end Moment

namespace Calendar

/-- The day of the week of a time, Sunday being zero. -/
def weekday (t : Int) : Int := (t / day + 4) % 7

/-! ## Times put together -/

/-- A rounded sum, unless it is too large for a double. -/
def plus (a b : Int) : Option Int := Binary64.nearest (a + b)

/-- A rounded product, unless it is too large for a double. -/
def times (a b : Int) : Option Int := Binary64.nearest (a * b)

/-- Days from the start of 1970 to the start of any year. -/
def roundedDaysToYear (year : Int) : Option Int := do
  let days ← times 365 (← plus year (-1970))
  let days ← plus days (Binary64.floorQuotient (← plus year (-1969)) 4)
  let days ← plus days (-Binary64.floorQuotient (← plus year (-1901)) 100)
  plus days (Binary64.floorQuotient (← plus year (-1601)) 400)

/-- The day of a date; months outside the year carry over into another one. -/
def dayOfFields (year month date : Int) : Option Int := do
  let y ← plus year (Binary64.floorQuotient month 12)
  let start := monthStart (isLeap y) (month % 12).toNat
  let days ← plus (← roundedDaysToYear y) start
  plus (← plus days date) (-1)

/-- Milliseconds of a time of day. -/
def millisecondsOfFields (hours minutes seconds milliseconds : Int) : Option Int := do
  let ms ← plus (← times hours hour) (← times minutes minute)
  let ms ← plus ms (← times seconds second)
  plus ms milliseconds

/-- The time of a year, month, date, hours, minutes, seconds and milliseconds, whether or not it is
within the limit.  A field that is missing, since its number is not finite, leaves no time. -/
def unlimitedTimeOfFields : List (Option Int) → Option Int
  | [some year, some month, some date, some hours, some minutes, some seconds, some ms] => do
    plus (← times (← dayOfFields year month date) day)
      (← millisecondsOfFields hours minutes seconds ms)
  | _ => none

/-- The time of fields, if it is within the limit. -/
def timeOfFields (fields : List (Option Int)) : Option Int := (unlimitedTimeOfFields fields).bind clip

end Calendar

end PageScript
