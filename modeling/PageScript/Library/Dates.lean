import PageScript.Date.Reading
import PageScript.Library.Basic

/-! # Dates -/

set_option autoImplicit false

namespace PageScript

/-- The number of a time; an invalid date is not a number. -/
def timeValue : Option Int → Value
  | some t => .number (.ofInt t)
  | none => .number .nan

/-- The whole part of a finite number. -/
def Number.whole? : Number → Option Int
  | .finite x => some (Binary64.toInt x)
  | _ => none

/-- A year as it is given to a date: one from 0 to 99 counts from 1900. -/
def fullYear (year : Int) : Int := if 0 ≤ year ∧ year ≤ 99 then year + 1900 else year

/-- A part of the time of day; those of a midnight before 1970 are negative zeros. -/
def clockPart (t part : Int) : Number :=
  if Calendar.isEarlyMidnight t then .signedZero true else .ofInt part

/-- The day of the week; a Sunday before the fifth day of 1970 is a negative zero. -/
def weekdayPart (t : Int) : Number :=
  let day := Calendar.weekday t
  if day = 0 ∧ t / Calendar.day + 4 < 0 then .signedZero true else .ofInt day

/-- A part of a time. -/
def DatePart.ofTime (part : DatePart) (t : Int) : Number :=
  let m := Moment.ofTime t
  match part with
  | .fullYear => .ofInt m.year
  | .month => .ofNat m.month
  | .date => .ofInt m.date
  | .day => weekdayPart t
  | .hours => clockPart t m.hours
  | .minutes => clockPart t m.minutes
  | .seconds => clockPart t m.seconds
  | .milliseconds => clockPart t m.milliseconds

namespace Script

/-! ## Times of dates -/

/-- The time of the date that a method is called on. -/
def thisTime (this : Value) : Script (Option Int) := do
  match ← payload? this with
  | some (.date t) => return t
  | _ => typeError "Date.prototype method called on incompatible object"

/-- Gives a date another time, and yields its number. -/
def storeTime (this : Value) (t : Option Int) : Script Value := do
  if let some id := this.id? then setPayload id (.date t)
  return timeValue t

/-- The present time. -/
def currentTime : Script Int := do
  let epoch := (← config).epoch
  read (Machine.now epoch)

/-- The fields that arguments stand for. -/
def toFields (args : List Value) : Script (List (Option Int)) :=
  each (fun v => do return (← toNumber v).whole?) args

/-- The time of a year, a month and so on; all but the year may be missing. -/
def timeOfArguments (args : List Value) : Script (Option Int) := do
  let given := (← toFields args).take 7
  let all := given ++ [none, some 0, some 1, some 0, some 0, some 0, some 0].drop given.length
  match all with
  | year :: rest => return Calendar.timeOfFields (year.map fullYear :: rest)
  | [] => return none

/-- The time that a text says. -/
def timeOfText (text : String) : Script (Option Int) := do
  return DateText.time? text (← config).gmtOffset

/-- The time of a value: what its text says, or its number. -/
def timeOfValue (v : Value) : Script (Option Int) := do
  match ← toPrimitive v with
  | .string s => timeOfText s
  | p => return (← toNumber p).whole?.bind Calendar.clip

/-- Makes a date.  Without `new` it is the text of the present time. -/
def constructDate (this : Value) (args : List Value) : Script Value := do
  if !(← isConstructing) then return .string (Calendar.zonedText (← currentTime))
  let t ← match args with
    | [] => some <$> currentTime
    | [v] => timeOfValue v
    | args => timeOfArguments args
  let _ ← storeTime this t
  return this

/-! ## Changes -/

/-- Replaces fields of a moment from one of them on; too many are cut off. -/
def replaceFields (first : Nat) (given : List (Option Int)) (m : Moment) : List (Option Int) :=
  let fields := m.fields.map some
  fields.take first ++ given ++ fields.drop (first + given.length)

/-- Sets fields of a date.  An invalid date can only be given a year. -/
def setFields (this : Value) (args : List Value) (first count : Nat) : Script Value := do
  let t ← thisTime this
  let given ← toFields (args.take count)
  if given.isEmpty then storeTime this none
  else
    match t, first with
    | none, 0 => storeTime this (Calendar.timeOfFields (replaceFields first given (.ofTime 0)))
    | none, _ => storeTime this none
    | some t, _ => storeTime this (Calendar.timeOfFields (replaceFields first given (.ofTime t)))

/-- Sets the year of a date, which may be short. -/
def setYear (this : Value) (args : List Value) : Script Value := do
  let t ← thisTime this
  let year := (← toNumber (argument args 0)).whole?.map fullYear
  storeTime this (Calendar.timeOfFields (replaceFields 0 [year] (.ofTime (t.getD 0))))

/-! ## Application -/

/-- The text of a date in a format. -/
def dateText (format : Int → String) (this : Value) : Script Value := do
  match ← thisTime this with
  | some t => return .string (format t)
  | none => return .string "Invalid Date"

/-- A number of a date. -/
def dateNumber (f : Int → Number) (this : Value) : Script Value := do
  match ← thisTime this with
  | some t => return .number (f t)
  | none => return .number .nan

/-- Applies a function of `Date` or its prototype. -/
def applyDate (f : DateFunction) (this : Value) (args : List Value) : Script Value := do
  match f with
  | .construct => constructDate this args
  | .parse => return timeValue (← timeOfText (← toText (argument args 0)))
  | .utc => return timeValue (← timeOfArguments args)
  | .get part => dateNumber part.ofTime this
  | .set first count => setFields this args first count
  | .valueOf => dateNumber .ofInt this
  | .getYear => dateNumber (fun t => .ofInt ((Moment.ofTime t).year - 1900)) this
  | .getTimezoneOffset =>
    let offset := (← config).gmtOffset
    dateNumber (fun _ => (Number.ofInt offset).neg) this
  | .setTime =>
    let _ ← thisTime this
    storeTime this ((← toNumber (argument args 0)).whole?.bind Calendar.clip)
  | .setYear => setYear this args
  | .toText => dateText Calendar.zonedText this
  | .toGmtText => dateText Calendar.gmtText this
  | .toLocaleText =>
    let offset := (← config).gmtOffset
    dateText (fun t => Calendar.plainText (t + offset * Calendar.minute)) this

end Script

end PageScript
