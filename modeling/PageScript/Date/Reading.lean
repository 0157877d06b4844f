import PageScript.Date.Text
import PageScript.Number.Reading
import PageScript.Text.Search
import PageScript.Text.Blank

/-! # Reading dates

A date is read word by word.  A month is known by its first three letters, a word with colons is the
time of day, the first other number is the day of the month and the second one the year.  After `GMT`
or `UTC` the time is not local any more, and may have an offset such as `+0130`.  Unknown words are
passed over.
-/

set_option autoImplicit false

namespace PageScript.DateText

/-! ## Numbers -/

/-- A number in a date.  One that is written in digits only is kept whole. -/
inductive Reading where
  | whole (n : Nat)
  | other (n : Number)

/-- A character with an ASCII letter in lower case. -/
def lowerAscii (c : Char) : Char :=
  if 'A' ≤ c ∧ c ≤ 'Z' then Char.ofNat (c.toNat + 32) else c

/-- The special numbers by name. -/
def specialNumber? (cs : List Char) : Option Number :=
  match String.ofList (cs.map lowerAscii) with
  | "inf" | "infinity" => some .posInf
  | "nan" => some .nan
  | _ => none

/-- The number that a word is. -/
def number? (cs : List Char) : Option Reading :=
  if !cs.isEmpty && cs.all Digit.isDecimal then some (.whole (Digit.toNat cs))
  else
    let (negative, rest) := readSign cs
    match specialNumber? rest with
    | some n => some (.other (if negative then n.neg else n))
    | none =>
      match readDecimal? rest with
      | some (n, []) => some (.other (.ofNumeral negative n))
      | _ => none

namespace Reading

/-- The number of a reading. -/
def toNumber : Reading → Number
  | .whole n => .ofNat n
  | .other n => n

/-- The whole part of a reading, if it is finite. -/
def whole? : Reading → Option Int
  | .whole n => (Binary64.nearestNat n).map Int.ofNat
  | .other (.finite x) => some (Binary64.toInt x)
  | .other _ => none

/-- The year of a reading: one below 70 is meant in this century, and any other one below 1970 counts
from 1900. -/
def year : Reading → Option Int
  | .whole n =>
    if n < 70 then some (n + 2000)
    else if n < 1970 then some (n + 1900)
    else (Binary64.nearestNat n).map Int.ofNat
  | .other n =>
    let shifted :=
      if n.lessThan? (.ofNat 70) == some true then n.add (.ofNat 2000)
      else if n.lessThan? (.ofNat 1970) == some true then n.add (.ofNat 1900)
      else n
    whole? (.other shifted)

end Reading

/-! ## Zones -/

/-- The zone of a date: GMT itself, or minutes ahead of it. -/
inductive Zone where
  | gmt
  | ahead (minutes : Number)

/-- The offset `hhmm` that a reading is meant as, in minutes. -/
def offsetMinutes (n : Number) : Number :=
  match n.div (.ofNat 100) with
  | .finite x => ((Number.finite (Binary64.truncate x)).mul (.ofNat 60)).add (n.rem (.ofNat 100))
  | _ => .nan

/-- The zone of an offset with its sign. -/
def zone? : List Char → Option Zone
  | '+' :: digits => (number? digits).map fun r => .ahead (offsetMinutes r.toNumber)
  | '-' :: digits => (number? digits).map fun r => .ahead (offsetMinutes r.toNumber).neg
  | _ => none

/-- What follows the mark of GMT at the front of a word. -/
def afterGmt? (word : List Char) : Option (List Char) :=
  match word.map lowerAscii with
  | 'g' :: 'm' :: 't' :: _ | 'u' :: 't' :: 'c' :: _ => some (word.drop 3)
  | _ => none

/-! ## Words -/

/-- What has been read of a date. -/
structure Parts where
  month : Option Nat := none
  date : Option Reading := none
  year : Option Reading := none
  clock : List (Option Int) := [some 0, some 0, some 0]
  zone : Option Zone := none

/-- The words of a text, which blanks and commas separate. -/
def words (cs : List Char) : List (List Char) :=
  (Text.splitWhere (fun c => Text.isWhiteSpace c || c == ',') cs).filter (!·.isEmpty)

/-- The month that a word begins like. -/
def month? (word : List Char) : Option Nat :=
  Calendar.monthNames.findIdx? fun name =>
    name.toList.map lowerAscii == (word.take 3).map lowerAscii

/-- Whether a word begins with a sign. -/
def isSigned : List Char → Bool
  | '+' :: _ | '-' :: _ => true
  | _ => false

/-- A further number of a date. -/
def Parts.addNumber (p : Parts) (r : Reading) : Parts :=
  match p.date, p.year with
  | none, _ => { p with date := some r }
  | some _, none => { p with year := some r }
  | some _, some _ => p

/-- Replaces the first fields of a time of day. -/
def replaceFront (given old : List (Option Int)) : List (Option Int) :=
  given ++ old.drop given.length

/-- Reads one word; `none` if it makes the text no date. -/
def Parts.addWord (p : Parts) (word : List Char) : Option Parts :=
  match afterGmt? word with
  | some [] => some { p with zone := some .gmt }
  | some rest => (zone? rest).map fun z => { p with zone := some z }
  | none =>
    if p.zone.isSome && isSigned word then (zone? word).map fun z => { p with zone := some z }
    else if word.contains ':' then
      (((Text.splitWhere (· == ':') word).take 3).mapM number?).map fun rs =>
        { p with clock := replaceFront (rs.map Reading.whole?) p.clock }
    else
      match number? word with
      | some r => some (p.addNumber r)
      | none =>
        match month? word with
        | some m => some { p with month := some m }
        | none => some p

/-- Takes a zone, or else the local offset, away from a time. -/
def toGmt (zone : Option Zone) (localOffset : Int) (t : Int) : Option Int :=
  match zone with
  | none => Calendar.plus t (-(localOffset * Calendar.minute))
  | some .gmt => some t
  | some (.ahead minutes) =>
    match (Number.ofInt t).sub (minutes.mul (.ofInt Calendar.minute)) with
    | .finite x => some (Binary64.toInt x)
    | _ => none

/-- The time that a text says, at a local offset from GMT in minutes. -/
def time? (text : String) (localOffset : Int) : Option Int := do
  let parts ← (words text.toList).foldlM Parts.addWord {}
  let year ← parts.year
  let month ← parts.month
  let date ← parts.date
  let t ← Calendar.unlimitedTimeOfFields
    ([year.year, some (month : Int), date.whole?] ++ parts.clock ++ [some 0])
  let t ← toGmt parts.zone localOffset t
  Calendar.clip t

end PageScript.DateText
