import PageScript.Date.Calendar

/-! # The text of dates

Dates are written with English names of days and months.
-/

set_option autoImplicit false

namespace PageScript.Calendar

/-- The names of the months. -/
def monthNames : List String :=
  ["Jan", "Feb", "Mar", "Apr", "May", "Jun", "Jul", "Aug", "Sep", "Oct", "Nov", "Dec"]

/-- The names of the days of the week. -/
def weekdayNames : List String := ["Sun", "Mon", "Tue", "Wed", "Thu", "Fri", "Sat"]

/-- A number below a hundred in two digits. -/
def twoDigits (n : Int) : String := (if n < 10 then "0" else "") ++ toString n

/-- Whether a time is a midnight before 1970.  The fields of its time of day are negative zeros. -/
def isEarlyMidnight (t : Int) : Bool := t < 0 && t % day == 0

/-- The time of day of a time. -/
def clockText (t : Int) : String :=
  if isEarlyMidnight t then "-0:-0:-0"
  else
    let m := Moment.ofTime t
    twoDigits m.hours ++ ":" ++ twoDigits m.minutes ++ ":" ++ twoDigits m.seconds

/-- The name of the day of the week of a time. -/
def weekdayText (t : Int) : String := weekdayNames.getD (weekday t).toNat ""

/-- The name of the month of a time. -/
def monthText (t : Int) : String := monthNames.getD (Moment.ofTime t).month ""

/-- A time without a zone, such as `Mon Jan 01 2024 00:00:00`. -/
def plainText (t : Int) : String :=
  let m := Moment.ofTime t
  weekdayText t ++ " " ++ monthText t ++ " " ++ twoDigits m.date ++ " " ++ toString m.year ++ " "
    ++ clockText t

/-- A time in GMT, such as `Mon Jan 01 2024 00:00:00 GMT`. -/
def zonedText (t : Int) : String := plainText t ++ " GMT"

/-- A time in GMT with the day first, such as `Mon, 01 Jan 2024 00:00:00 GMT`. -/
def gmtText (t : Int) : String :=
  let m := Moment.ofTime t
  weekdayText t ++ ", " ++ twoDigits m.date ++ " " ++ monthText t ++ " " ++ toString m.year ++ " "
    ++ clockText t ++ " GMT"

end PageScript.Calendar
