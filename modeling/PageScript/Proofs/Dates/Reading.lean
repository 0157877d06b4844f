import Mathlib.Algebra.Group.Defs
import PageScript.Proofs.Arrays.Indices
import PageScript.Proofs.Dates.Parts
import PageScript.Proofs.Texts.Pieces

/-! # Reading dates that were written

The reader takes a written date apart into the words that it was put together from, and each of them for
what it stands for.  So it reads the time again, but for the milliseconds, which no text has.
-/

set_option autoImplicit false

namespace PageScript

namespace DateText

open Calendar

variable {w rest : List Char} {c : Char} {n : Nat} {p : Parts}

/-! ## Words -/

/-- Whether a character stands between words. -/
def isSeparator (c : Char) : Bool := Text.isWhiteSpace c || c == ','

/-- Whether characters stand together as a word. -/
structure IsWord (w : List Char) : Prop where
  ne_nil : w ≠ []
  together : ∀ c ∈ w, isSeparator c = false

theorem words_append (cs : List Char) (hc : isSeparator c = true) :
    words (cs ++ c :: rest) = words cs ++ words rest := by
  unfold words
  rw [← List.filter_append]
  exact congrArg _ (Text.splitWhere_append cs hc)

theorem words_word (hw : IsWord w) : words w = [w] := by
  unfold words
  have hsplit := Text.splitWhere_of_forall hw.together
  unfold isSeparator at hsplit
  rw [hsplit, List.filter_cons_of_pos (by simpa using hw.ne_nil), List.filter_nil]

/-! ## Numbers -/

/-- Whether characters are the digits of a number, with zeros in front or not. -/
structure Spells (w : List Char) (n : Nat) : Prop where
  ne_nil : w ≠ []
  decimal : ∀ c ∈ w, Digit.isDecimal c = true
  value : Digit.toNat w = n

/-- What is so of the ten digits is so of all characters that are digits. -/
theorem of_isDecimal {P : Char → Prop} (h : ∀ d < 10, P (Nat.digitChar d))
    (hc : Digit.isDecimal c = true) : P c := by
  obtain ⟨hlt, hchar⟩ := Digit.digitChar_of_isDecimal hc
  rw [← hchar]
  exact h _ hlt

theorem spells_toDigits (n : Nat) : Spells (Nat.toDigits 10 n) n :=
  ⟨Nat.toDigits_ne_nil,
    fun _ hc => Digit.isDecimal_of_isDigit (Nat.isDigit_of_mem_toDigits (by decide) (by decide) hc),
    Digit.toNat_toDigits n⟩

theorem spells_toString {i : Int} (h : 0 ≤ i) : Spells (toString i).toList i.toNat := by
  obtain ⟨n, rfl⟩ := Int.eq_ofNat_of_zero_le h
  have htoList : (toString (n : Int)).toList = Nat.toDigits 10 n := Nat.toList_repr
  rw [htoList]
  exact spells_toDigits n

theorem Spells.zero_cons (h : Spells w n) : Spells ('0' :: w) n := by
  refine ⟨List.cons_ne_nil _ _, fun c hc => ?_, ?_⟩
  · rcases List.mem_cons.1 hc with rfl | hc
    · rfl
    · exact h.decimal c hc
  · have hvalue := h.value
    rw [Digit.toNat_eq_foldl] at hvalue ⊢
    exact hvalue

theorem spells_twoDigits {i : Int} (h : 0 ≤ i) : Spells (twoDigits i).toList i.toNat := by
  unfold twoDigits
  rw [String.toList_append]
  split
  · exact (spells_toString h).zero_cons
  · exact spells_toString h

namespace Spells

theorem isWord (h : Spells w n) : IsWord w :=
  ⟨h.ne_nil, fun c hc => of_isDecimal (P := fun c => isSeparator c = false) (by decide) (h.decimal c hc)⟩

theorem number? (h : Spells w n) : number? w = some (.whole n) := by
  have hall : (!w.isEmpty && w.all Digit.isDecimal) = true := by
    simp [h.ne_nil]
    exact h.decimal
  unfold DateText.number?
  rw [if_pos hall, h.value]

theorem afterGmt? (h : Spells w n) (rest : List Char) : afterGmt? (w ++ rest) = none := by
  obtain ⟨c, cs, rfl⟩ := List.exists_cons_of_ne_nil h.ne_nil
  have hlower := of_isDecimal (P := fun c => lowerAscii c ≠ 'g' ∧ lowerAscii c ≠ 'u') (by decide)
    (h.decimal c (.head _))
  unfold DateText.afterGmt?
  split <;> simp_all

theorem isSigned (h : Spells w n) : isSigned w = false := by
  obtain ⟨c, cs, rfl⟩ := List.exists_cons_of_ne_nil h.ne_nil
  have hsign := of_isDecimal (P := fun c => c ≠ '+' ∧ c ≠ '-') (by decide) (h.decimal c (.head _))
  unfold DateText.isSigned
  split <;> simp_all

theorem not_colon (h : Spells w n) : ∀ c ∈ w, (c == ':') = false :=
  fun c hc => of_isDecimal (P := fun c => (c == ':') = false) (by decide) (h.decimal c hc)

end Spells

/-! ## Words of dates -/

/-- A word that is neither the mark of a zone nor a time of day. -/
theorem addWord_plain (hgmt : afterGmt? w = none) (hsigned : isSigned w = false)
    (hcolon : w.contains ':' = false) :
    p.addWord w = match number? w with
      | some r => some (p.addNumber r)
      | none =>
        match month? w with
        | some m => some { p with month := some m }
        | none => some p := by
  unfold Parts.addWord
  rw [hgmt]
  dsimp only
  rw [hsigned, Bool.and_false, hcolon, if_neg Bool.false_ne_true]
  exact if_neg Bool.false_ne_true

theorem addWord_number (h : Spells w n) : p.addWord w = some (p.addNumber (.whole n)) := by
  have hcolon : w.contains ':' = false := by
    rw [List.contains_eq_mem, decide_eq_false_iff_not]
    exact fun hmem => Bool.false_ne_true (h.not_colon ':' hmem).symm
  have hgmt := h.afterGmt? []
  rw [List.append_nil] at hgmt
  rw [addWord_plain hgmt h.isSigned hcolon, h.number?]

theorem weekday_lt (t : Int) : (weekday t).toNat < 7 := by
  unfold weekday
  omega

/-- The name of a month is taken for the month. -/
theorem addWord_month (t : Int) :
    p.addWord (monthText t).toList = some { p with month := some (Moment.ofTime t).month } := by
  have hall : ∀ month < 12, let w := (monthNames.getD month "").toList
      afterGmt? w = none ∧ isSigned w = false ∧ w.contains ':' = false ∧ (number? w).isNone = true ∧
        month? w = some month := by decide +kernel
  obtain ⟨hgmt, hsigned, hcolon, hnumber, hmonth⟩ := hall _ (Moment.inRange_ofTime t).month
  unfold monthText
  rw [addWord_plain hgmt hsigned hcolon, Option.isNone_iff_eq_none.1 hnumber, hmonth]

/-- The name of a day of the week is passed over. -/
theorem addWord_weekday (t : Int) : p.addWord (weekdayText t).toList = some p := by
  have hall : ∀ weekday < 7, let w := (weekdayNames.getD weekday "").toList
      afterGmt? w = none ∧ isSigned w = false ∧ w.contains ':' = false ∧ (number? w).isNone = true ∧
        month? w = none := by decide +kernel
  obtain ⟨hgmt, hsigned, hcolon, hnumber, hmonth⟩ := hall _ (weekday_lt t)
  unfold weekdayText
  rw [addWord_plain hgmt hsigned hcolon, Option.isNone_iff_eq_none.1 hnumber, hmonth]

theorem addWord_gmt : p.addWord "GMT".toList = some { p with zone := some .gmt } := rfl

/-- A time of day is taken number by number. -/
theorem addWord_clock {hours minutes seconds : List Char} {h m s : Nat} (hhours : Spells hours h)
    (hminutes : Spells minutes m) (hseconds : Spells seconds s) (hzone : p.zone = none) :
    p.addWord (hours ++ ':' :: (minutes ++ ':' :: seconds))
      = some { p with clock := replaceFront ([.whole h, .whole m, .whole s].map Reading.whole?) p.clock } := by
  have hsplit : Text.splitWhere (· == ':') (hours ++ ':' :: (minutes ++ ':' :: seconds))
      = [hours, minutes, seconds] := by
    rw [Text.splitWhere_append _ rfl, Text.splitWhere_append _ rfl, Text.splitWhere_of_forall hhours.not_colon,
      Text.splitWhere_of_forall hminutes.not_colon, Text.splitWhere_of_forall hseconds.not_colon]
    rfl
  have hcolon : (hours ++ ':' :: (minutes ++ ':' :: seconds)).contains ':' = true := by simp
  unfold Parts.addWord
  rw [hhours.afterGmt?]
  dsimp only
  rw [hzone, hcolon, hsplit]
  simp [hhours.number?, hminutes.number?, hseconds.number?]

/-! ## Texts of times -/

/-- The time of day as it is written. -/
def clockWord (m : Moment) : List Char :=
  (twoDigits m.hours).toList ++ ':' :: ((twoDigits m.minutes).toList ++ ':' :: (twoDigits m.seconds).toList)

theorem toList_clockText {t : Int} (ht : 0 ≤ t) : (clockText t).toList = clockWord (.ofTime t) := by
  have hearly : isEarlyMidnight t = false := by
    unfold isEarlyMidnight
    simp [ht]
  unfold clockText clockWord
  rw [hearly, if_neg Bool.false_ne_true]
  simp [String.toList_append]

/-- What is read of a moment. -/
def partsOf (m : Moment) (zone : Option Zone) : Parts where
  month := some m.month
  date := some (.whole m.date.toNat)
  year := some (.whole m.year.toNat)
  clock := [some m.hours, some m.minutes, some m.seconds]
  zone := zone

theorem isWord_weekday (t : Int) : IsWord (weekdayText t).toList := by
  have hall : ∀ weekday < 7, let w := (weekdayNames.getD weekday "").toList
      w ≠ [] ∧ ∀ c ∈ w, isSeparator c = false := by decide +kernel
  obtain ⟨hne, htogether⟩ := hall _ (weekday_lt t)
  exact ⟨hne, htogether⟩

theorem isWord_month (t : Int) : IsWord (monthText t).toList := by
  have hall : ∀ month < 12, let w := (monthNames.getD month "").toList
      w ≠ [] ∧ ∀ c ∈ w, isSeparator c = false := by decide +kernel
  obtain ⟨hne, htogether⟩ := hall _ (Moment.inRange_ofTime t).month
  exact ⟨hne, htogether⟩

theorem isWord_clock {m : Moment} (hm : m.InRange) : IsWord (clockWord m) := by
  have hhours := (spells_twoDigits hm.hours_nonneg).isWord
  have hminutes := (spells_twoDigits hm.minutes_nonneg).isWord
  have hseconds := (spells_twoDigits hm.seconds_nonneg).isWord
  refine ⟨?_, fun c hc => ?_⟩
  · unfold clockWord
    simp
  · unfold clockWord at hc
    simp only [List.mem_append, List.mem_cons] at hc
    rcases hc with hc | rfl | hc | rfl | hc
    · exact hhours.together c hc
    · rfl
    · exact hminutes.together c hc
    · rfl
    · exact hseconds.together c hc

variable {t : Int}

theorem words_plainText (ht : 0 ≤ t) :
    words (plainText t).toList = [(weekdayText t).toList, (monthText t).toList,
      (twoDigits (Moment.ofTime t).date).toList, (toString (Moment.ofTime t).year).toList,
      clockWord (.ofTime t)] := by
  have hm := Moment.inRange_ofTime t
  have hdate := hm.date_pos
  have hyear := Moment.year_of_nonneg ht
  have htext : (plainText t).toList = (weekdayText t).toList ++ ' ' :: ((monthText t).toList ++ ' ' ::
      ((twoDigits (Moment.ofTime t).date).toList ++ ' ' :: ((toString (Moment.ofTime t).year).toList ++ ' ' ::
        clockWord (.ofTime t)))) := by
    unfold plainText
    simp [String.toList_append, toList_clockText ht]
  rw [htext, words_append _ rfl, words_append _ rfl, words_append _ rfl, words_append _ rfl,
    words_word (isWord_weekday t), words_word (isWord_month t), words_word (spells_twoDigits (by omega)).isWord,
    words_word (spells_toString (by omega)).isWord, words_word (isWord_clock hm)]
  rfl

theorem words_zonedText (t : Int) : words (zonedText t).toList = words (plainText t).toList ++ ["GMT".toList] := by
  unfold zonedText
  rw [String.toList_append]
  exact words_append _ rfl

theorem words_gmtText (ht : 0 ≤ t) :
    words (gmtText t).toList = [(weekdayText t).toList, (twoDigits (Moment.ofTime t).date).toList,
      (monthText t).toList, (toString (Moment.ofTime t).year).toList, clockWord (.ofTime t), "GMT".toList] := by
  have hm := Moment.inRange_ofTime t
  have hdate := hm.date_pos
  have hyear := Moment.year_of_nonneg ht
  have htext : (gmtText t).toList = (weekdayText t).toList ++ ',' :: ([] ++ ' ' ::
      ((twoDigits (Moment.ofTime t).date).toList ++ ' ' :: ((monthText t).toList ++ ' ' ::
        ((toString (Moment.ofTime t).year).toList ++ ' ' :: (clockWord (.ofTime t) ++ ' ' :: "GMT".toList))))) := by
    unfold gmtText
    simp [String.toList_append, toList_clockText ht]
  rw [htext, words_append _ rfl, words_append _ rfl, words_append _ rfl, words_append _ rfl, words_append _ rfl,
    words_append _ rfl, words_word (isWord_weekday t), words_word (isWord_month t),
    words_word (spells_twoDigits (by omega)).isWord, words_word (spells_toString (by omega)).isWord,
    words_word (isWord_clock hm)]
  rfl

/-! ## Reading them -/

theorem addWord_date (t : Int) (hdate : p.date = none) :
    p.addWord (twoDigits (Moment.ofTime t).date).toList
      = some { p with date := some (.whole (Moment.ofTime t).date.toNat) } := by
  have hpos := (Moment.inRange_ofTime t).date_pos
  rw [addWord_number (spells_twoDigits (by omega))]
  unfold Parts.addNumber
  rw [hdate]

theorem addWord_year {date : Reading} (ht : 0 ≤ t) (hdate : p.date = some date) (hyear : p.year = none) :
    p.addWord (toString (Moment.ofTime t).year).toList
      = some { p with year := some (.whole (Moment.ofTime t).year.toNat) } := by
  have hpos := Moment.year_of_nonneg ht
  rw [addWord_number (spells_toString (by omega))]
  unfold Parts.addNumber
  rw [hdate, hyear]

theorem whole?_whole (hn : n ≤ 2 ^ 53) : Reading.whole? (.whole n) = some (n : Int) := by
  show (Binary64.nearestNat n).map Int.ofNat = some (n : Int)
  rw [Binary64.nearestNat_of_le hn]
  rfl

theorem addWord_clockWord {m : Moment} (hm : m.InRange) (hzone : p.zone = none)
    (hclock : p.clock = [some 0, some 0, some 0]) :
    p.addWord (clockWord m) = some { p with clock := [some m.hours, some m.minutes, some m.seconds] } := by
  obtain ⟨-, -, -, hours, hours', minutes, minutes', seconds, seconds', -, -⟩ := hm
  unfold clockWord
  rw [addWord_clock (spells_twoDigits hours) (spells_twoDigits minutes) (spells_twoDigits seconds) hzone, hclock]
  simp only [List.map_cons, List.map_nil]
  rw [whole?_whole (by omega), whole?_whole (by omega), whole?_whole (by omega), Int.toNat_of_nonneg hours,
    Int.toNat_of_nonneg minutes, Int.toNat_of_nonneg seconds]
  rfl

theorem read_plainText (ht : 0 ≤ t) :
    (words (plainText t).toList).foldlM Parts.addWord {} = some (partsOf (.ofTime t) none) := by
  have hm := Moment.inRange_ofTime t
  rw [words_plainText ht]
  simp only [List.foldlM_cons, List.foldlM_nil, Option.bind_eq_bind]
  rw [addWord_weekday, Option.bind_some, addWord_month, Option.bind_some, addWord_date t rfl, Option.bind_some,
    addWord_year ht rfl rfl, Option.bind_some, addWord_clockWord hm rfl rfl, Option.bind_some]
  rfl

theorem read_zonedText (ht : 0 ≤ t) :
    (words (zonedText t).toList).foldlM Parts.addWord {} = some (partsOf (.ofTime t) (some .gmt)) := by
  rw [words_zonedText, List.foldlM_append, read_plainText ht]
  simp only [List.foldlM_cons, List.foldlM_nil, Option.bind_eq_bind, Option.bind_some]
  rw [addWord_gmt, Option.bind_some]
  rfl

theorem read_gmtText (ht : 0 ≤ t) :
    (words (gmtText t).toList).foldlM Parts.addWord {} = some (partsOf (.ofTime t) (some .gmt)) := by
  have hm := Moment.inRange_ofTime t
  rw [words_gmtText ht]
  simp only [List.foldlM_cons, List.foldlM_nil, Option.bind_eq_bind]
  rw [addWord_weekday, Option.bind_some, addWord_date t rfl, Option.bind_some, addWord_month, Option.bind_some,
    addWord_year ht rfl rfl, Option.bind_some, addWord_clockWord hm rfl rfl, Option.bind_some, addWord_gmt,
    Option.bind_some]
  rfl

theorem year_whole (hlo : 1970 ≤ n) (hhi : n ≤ 2 ^ 53) : Reading.year (.whole n) = some (n : Int) := by
  show (if n < 70 then some ((n : Int) + 2000) else if n < 1970 then some ((n : Int) + 1900)
    else (Binary64.nearestNat n).map Int.ofNat) = some (n : Int)
  rw [if_neg (by omega), if_neg (by omega), Binary64.nearestNat_of_le hhi]
  rfl

/-- The last second of a time has the same fields, but for the milliseconds. -/
theorem ofTime_lastSecond (t : Int) :
    Moment.ofTime (t - t % 1000) = { Moment.ofTime t with milliseconds := 0 } := by
  have hday : (t - t % 1000) / day = t / day := by
    unfold day
    omega
  have hhours : (t - t % 1000) % day / hour = t % day / hour := by
    unfold day hour
    omega
  have hminutes : (t - t % 1000) % day / minute = t % day / minute := by
    unfold day minute
    omega
  have hseconds : (t - t % 1000) % day / second = t % day / second := by
    unfold day second
    omega
  have hmilliseconds : (t - t % 1000) % second = 0 := by
    unfold second
    omega
  unfold Moment.ofTime
  rw [hday, hhours, hminutes, hseconds, hmilliseconds]

/-- A text does not have the milliseconds. -/
theorem partsOf_lastSecond (t : Int) (zone : Option Zone) :
    partsOf (.ofTime (t - t % 1000)) zone = partsOf (.ofTime t) zone := by
  rw [ofTime_lastSecond]
  rfl

theorem fields_of_parts (ht : 0 ≤ t) (hlimit : t ≤ 2 ^ 53) (hsecond : t % 1000 = 0) (zone : Option Zone) :
    [Reading.year (.whole (Moment.ofTime t).year.toNat), some ((Moment.ofTime t).month : Int),
      Reading.whole? (.whole (Moment.ofTime t).date.toNat)] ++ (partsOf (.ofTime t) zone).clock ++ [some 0]
      = (Moment.ofTime t).fields.map some := by
  have hm := Moment.inRange_ofTime t
  have hdate := hm.date_pos
  have hdate' := hm.date_le_last
  have hyear := Moment.year_of_nonneg ht
  have hyear' := Moment.year_bounds (t := t) (by omega)
  have hmilliseconds : (Moment.ofTime t).milliseconds = 0 := hsecond
  rw [year_whole (by omega) (by omega), whole?_whole (by omega), Int.toNat_of_nonneg (by omega),
    Int.toNat_of_nonneg (by omega), ← hmilliseconds]
  rfl

/-- What is read of a time is the time up to its last second, less what the zone is ahead of GMT. -/
theorem time?_of_parts {text : String} {zone : Option Zone} (ht : 0 ≤ t) (hlimit : t ≤ 2 ^ 53)
    (h : (words text.toList).foldlM Parts.addWord {} = some (partsOf (.ofTime t) zone)) (offset : Int) :
    time? text offset = (toGmt zone offset (t - t % 1000)).bind clip := by
  have hyear := Moment.year_bounds (t := t - t % 1000) (by omega)
  have htime := unlimitedTimeOfFields_of_nonneg (Moment.inRange_ofTime (t - t % 1000)) (by omega)
    (by rw [Moment.time_ofTime]; omega) (by rw [Moment.time_ofTime]; omega)
  rw [Moment.time_ofTime] at htime
  rw [← partsOf_lastSecond] at h
  unfold time?
  rw [h]
  show (unlimitedTimeOfFields _).bind (fun t => (toGmt zone offset t).bind clip) = _
  rw [fields_of_parts (by omega) (by omega) (by omega) zone, htime, Option.bind_some]

/-! ## Dates read back -/

theorem time?_gmt {text : String} (ht : 0 ≤ t) (hlimit : t.natAbs ≤ timeLimit)
    (h : (words text.toList).foldlM Parts.addWord {} = some (partsOf (.ofTime t) (some .gmt))) (offset : Int) :
    time? text offset = some (t - t % 1000) := by
  have hlimit' : timeLimit = 8640000000000000 := rfl
  rw [time?_of_parts ht (by omega) h]
  exact clip_of_le (by omega)

theorem time?_plainText {offset : Int} (ht : 0 ≤ t) (hlimit : t.natAbs ≤ timeLimit) (hlo : -2 ^ 31 ≤ offset)
    (hhi : offset < 2 ^ 31) (hlocal : 0 ≤ t + offset * minute) :
    time? (plainText (t + offset * minute)) offset = some (t - t % 1000) := by
  have hlimit' : timeLimit = 8640000000000000 := rfl
  have hminute : minute = 60000 := rfl
  rw [hminute] at hlocal ⊢
  rw [time?_of_parts hlocal (by omega) (read_plainText hlocal)]
  have hsum : t + offset * 60000 - (t + offset * 60000) % 1000 + -(offset * minute) = t - t % 1000 := by
    rw [hminute]
    omega
  unfold toGmt
  dsimp only
  rw [plus_of_le (by omega), hsum]
  exact clip_of_le (by omega)

end DateText

namespace Script

open Calendar DateText

variable {t : Int} {e : Engine} {m : Machine} {this : Value}

theorem dateText_dated (h : m.Dated this t) (format : Int → String) :
    dateText format this e m = .value (.string (format t)) m := by
  unfold dateText
  rw [bind_of_value (thisTime_dated h)]
  rfl

theorem parse_text {text : String} (h : time? text e.config.gmtOffset = some t) (that : Value) (rest : List Value) :
    applyDate .parse that (.string text :: rest) e m = .value (.number (.ofInt t)) m := by
  show Outcome.value (timeValue (time? text e.config.gmtOffset)) m = _
  rw [h]
  rfl

/-- A date from 1970 on is read back from its texts up to its last second: from those in GMT whatever the local
offset, and from the local one under the offset that it was written for, a number of 32 bits. -/
theorem texts_readBack (t : Int) (ht : 0 ≤ t) (hlimit : t.natAbs ≤ timeLimit) :
    (∀ offset,
      time? (gmtText t) offset = some (t - t % 1000) ∧ time? (zonedText t) offset = some (t - t % 1000)) ∧
    (∀ offset, -2 ^ 31 ≤ offset → offset < 2 ^ 31 → 0 ≤ t + offset * minute →
      time? (plainText (t + offset * minute)) offset = some (t - t % 1000)) ∧
    ∀ (e : Engine) (m : Machine) (this : Value) (args : List Value), m.Dated this t →
      (∃ text, applyDate .toGmtText this args e m = .value (.string text) m ∧
        ∀ e' n that, applyDate .parse that [.string text] e' n = .value (.number (.ofInt (t - t % 1000))) n) ∧
      (∃ text, applyDate .toText this args e m = .value (.string text) m ∧
        ∀ e' n that, applyDate .parse that [.string text] e' n = .value (.number (.ofInt (t - t % 1000))) n) ∧
      ∃ text, applyDate .toLocaleText this args e m = .value (.string text) m ∧
        (-2 ^ 31 ≤ e.config.gmtOffset → e.config.gmtOffset < 2 ^ 31 → 0 ≤ t + e.config.gmtOffset * minute →
          ∀ (e' : Engine) n that, e'.config.gmtOffset = e.config.gmtOffset →
            applyDate .parse that [.string text] e' n = .value (.number (.ofInt (t - t % 1000))) n) := by
  have hgmt := time?_gmt ht hlimit (read_gmtText ht)
  have hzoned := time?_gmt ht hlimit (read_zonedText ht)
  refine ⟨fun offset => ⟨hgmt offset, hzoned offset⟩, fun offset => time?_plainText ht hlimit,
    fun e m this args h => ⟨⟨gmtText t, ?_, ?_⟩, ⟨zonedText t, ?_, ?_⟩,
      plainText (t + e.config.gmtOffset * minute), ?_, ?_⟩⟩
  · exact dateText_dated h _
  · exact fun e' n that => parse_text (hgmt _) that []
  · exact dateText_dated h _
  · exact fun e' n that => parse_text (hzoned _) that []
  · exact dateText_dated h _
  · intro hlo hhi hlocal e' n that hoffset
    refine parse_text ?_ that []
    rw [hoffset]
    exact time?_plainText ht hlimit hlo hhi hlocal

/-- The last millisecond of a leap day, ten hours behind GMT. -/
theorem texts_readBack_leapDay :
    let t : Int := 951868799999
    let m : Machine := { Interpreter.initialMachine {} with
      heap := ⟨#[some ⟨{ Object.empty none with payload := .date (some t) }, 0⟩], [], 0⟩ }
    let e : Engine := ⟨{ gmtOffset := -600 }, Stock.scripted none [] [], fun _ m => .exhausted m, 0⟩
    0 ≤ t ∧ t.natAbs ≤ timeLimit ∧ m.Dated (.ref ⟨0⟩) t ∧ 0 ≤ t + -600 * minute ∧
    time? (gmtText t) 90 = some 951868799000 ∧ time? (zonedText t) 90 = some 951868799000 ∧
    time? (plainText (t + -600 * minute)) (-600) = some 951868799000 ∧
    ∃ text, applyDate .toLocaleText (.ref ⟨0⟩) [] e m = .value (.string text) m ∧
      applyDate .parse .undefined [.string text] e m = .value (.number (.ofInt 951868799000)) m := by
  intro t m e
  have ht : 0 ≤ t := by decide
  have hlimit : t.natAbs ≤ timeLimit := by decide
  have hm : m.Dated (.ref ⟨0⟩) t := ⟨⟨⟨0⟩, _, rfl, rfl, rfl⟩, hlimit⟩
  have hlocal : 0 ≤ t + -600 * minute := by decide
  obtain ⟨hgmt, hplain, hscript⟩ := texts_readBack t ht hlimit
  obtain ⟨-, -, text, htext, hparse⟩ := hscript e m (.ref ⟨0⟩) [] hm
  exact ⟨ht, hlimit, hm, hlocal, (hgmt 90).1, (hgmt 90).2, hplain (-600) (by decide) (by decide) hlocal,
    text, htext, hparse (by decide) (by decide) hlocal e m .undefined rfl⟩

end Script

end PageScript
