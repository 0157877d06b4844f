import Mathlib.Algebra.Order.Group.Int
import PageScript.Date.Calendar

/-! # The calendar as a numbering of days

Years and months follow each other without gaps: each starts where the one before it ends, by the lengths of
the Gregorian calendar.  So every day lies in exactly one year and month, and taking a time apart and putting
the parts together undo each other for all whole numbers.
-/

set_option autoImplicit false

namespace PageScript

namespace Calendar

variable {y z d : Int} {leap : Bool} {month : Nat}

/-! ## Years -/

/-- The days of a year. -/
def yearLength (year : Int) : Int := if isLeap year then 366 else 365

theorem isLeap_iff : isLeap y = true ↔ y % 4 = 0 ∧ (y % 100 ≠ 0 ∨ y % 400 = 0) := by
  simp [isLeap]

/-- The next year starts where a year ends. -/
theorem daysToYear_succ (y : Int) : daysToYear (y + 1) = daysToYear y + yearLength y := by
  unfold daysToYear yearLength
  split
  · rename_i hleap
    have := isLeap_iff.1 hleap
    omega
  · rename_i hcommon
    have := mt isLeap_iff.2 hcommon
    omega

theorem daysToYear_lt (h : y < z) : daysToYear y < daysToYear z := by
  have hpos : ∀ year, 0 < yearLength year := by
    intro year
    unfold yearLength
    split <;> omega
  induction z, h using Int.leInduction with
  | base =>
    have := hpos y
    rw [daysToYear_succ]
    omega
  | succ z _ ih =>
    have := hpos z
    rw [daysToYear_succ]
    omega

/-- The guess by the mean length of a year is off by one year at most. -/
theorem yearOfDay_spec (d : Int) : daysToYear (yearOfDay d) ≤ d ∧ d < daysToYear (yearOfDay d + 1) := by
  have hlo : daysToYear (1970 + d * 400 / 146097 - 1) ≤ d := by
    unfold daysToYear
    omega
  have hhi : d < daysToYear (1970 + d * 400 / 146097 + 1 + 1) := by
    unfold daysToYear
    omega
  unfold yearOfDay
  dsimp only
  split
  · rw [Int.sub_add_cancel]
    exact ⟨hlo, ‹_›⟩
  · split
    · exact ⟨‹_›, hhi⟩
    · omega

/-- A day lies in one year only. -/
theorem yearOfDay_eq (hlo : daysToYear y ≤ d) (hhi : d < daysToYear (y + 1)) : yearOfDay d = y := by
  obtain ⟨hstart, hend⟩ := yearOfDay_spec d
  rcases Int.lt_trichotomy (yearOfDay d) y with hlt | heq | hgt
  · have hbefore : daysToYear (yearOfDay d + 1) ≤ daysToYear y := by
      rcases Int.lt_or_eq_of_le (Int.add_one_le_of_lt hlt) with h | h
      · exact Int.le_of_lt (daysToYear_lt h)
      · rw [h]
    omega
  · exact heq
  · have hafter : daysToYear (y + 1) ≤ daysToYear (yearOfDay d) := by
      rcases Int.lt_or_eq_of_le (Int.add_one_le_of_lt hgt) with h | h
      · exact Int.le_of_lt (daysToYear_lt h)
      · rw [h]
    omega

/-! ## Searching for a year -/

/-- Goes back from a year as long as it starts after a time. -/
def backFrom (t year : Int) : Int :=
  if t < daysToYear year * day then backFrom t (year - 1) else year
termination_by (daysToYear year * day - t).toNat
decreasing_by
  have := daysToYear_lt (show year - 1 < year by omega)
  unfold day at *
  omega

/-- Goes on from a year as long as a time is not before the next one. -/
def onFrom (t year : Int) : Int :=
  if daysToYear (year + 1) * day ≤ t then onFrom t (year + 1) else year
termination_by (t - daysToYear year * day).toNat
decreasing_by
  have := daysToYear_lt (show year < year + 1 by omega)
  unfold day at *
  omega

variable {t : Int}

theorem backFrom_le (t year : Int) : daysToYear (backFrom t year) * day ≤ t := by
  fun_induction backFrom t year with
  | case1 year hlt ih => exact ih
  | case2 year hle => omega

theorem onFrom_spec (h : daysToYear y * day ≤ t) :
    daysToYear (onFrom t y) * day ≤ t ∧ t < daysToYear (onFrom t y + 1) * day := by
  fun_induction onFrom t y with
  | case1 year hle ih => exact ih hle
  | case2 year hlt => omega

/-- The search finds the year of a time from any estimate. -/
theorem onFrom_backFrom (t estimate : Int) : onFrom t (backFrom t estimate) = yearOfDay (t / day) := by
  obtain ⟨hlo, hhi⟩ := onFrom_spec (backFrom_le t estimate)
  refine (yearOfDay_eq ?_ ?_).symm
  · unfold day at *
    omega
  · unfold day at *
    omega

/-! ## Months -/

/-- The days of each month of a common year. -/
def commonLengths : List Int := [31, 28, 31, 30, 31, 30, 31, 31, 30, 31, 30, 31]

/-- The days of a month of a year; February has a leap day in a leap year. -/
def monthLength (leap : Bool) (month : Nat) : Int :=
  commonLengths.getD month 0 + if leap && month == 1 then 1 else 0

theorem monthStart_zero (leap : Bool) : monthStart leap 0 = 0 := by
  cases leap <;> rfl

/-- The next month starts where a month ends. -/
theorem monthStart_succ (leap : Bool) (h : month < 11) :
    monthStart leap (month + 1) = monthStart leap month + monthLength leap month := by
  have hall : ∀ leap : Bool, ∀ month < 11,
      monthStart leap (month + 1) = monthStart leap month + monthLength leap month := by decide
  exact hall leap month h

/-- The year ends with the last month. -/
theorem monthStart_last (year : Int) :
    monthStart (isLeap year) 11 + monthLength (isLeap year) 11 = yearLength year := by
  unfold yearLength
  cases isLeap year <;> rfl

theorem monthStart_mono (leap : Bool) {other : Nat} (h : month ≤ other) (hother : other < 12) :
    monthStart leap month ≤ monthStart leap other := by
  induction other, h using Nat.le_induction with
  | base => exact Int.le_refl _
  | succ other _ ih =>
    have hpos : 0 ≤ monthLength leap other := by
      have hall : ∀ leap, ∀ month < 12, 0 ≤ monthLength leap month := by decide
      exact hall leap other (by omega)
    have := ih (by omega)
    rw [monthStart_succ leap (by omega)]
    omega

theorem monthStart_bounds (leap : Bool) (h : month < 12) :
    0 ≤ monthStart leap month ∧ monthStart leap month ≤ 335 := by
  have hall : ∀ leap, ∀ month < 12, 0 ≤ monthStart leap month ∧ monthStart leap month ≤ 335 := by decide
  exact hall leap month h

theorem monthLength_le (leap : Bool) (h : month < 12) : monthLength leap month ≤ 31 := by
  have hall : ∀ leap, ∀ month < 12, monthLength leap month ≤ 31 := by decide
  exact hall leap month h

/-- A month that has started and whose successor has not is the month of the day. -/
theorem monthOfDay_eq (hmonth : month < 12) (hlo : monthStart leap month ≤ d)
    (hhi : month < 11 → d < monthStart leap (month + 1)) : monthOfDay leap d = month := by
  have hstarted : ∀ k, k < 12 → (monthStart leap k ≤ d ↔ k ≤ month) := by
    intro k hk
    constructor
    · intro hle
      by_contra hgt
      have := monthStart_mono leap (show month + 1 ≤ k by omega) hk
      have := hhi (by omega)
      omega
    · intro hle
      have := monthStart_mono leap hle hmonth
      omega
  have hcount : ∀ n ≤ 11,
      (List.range' 1 n).countP (fun k => decide (monthStart leap k ≤ d)) = min n month := by
    intro n hn
    induction n with
    | zero => simp
    | succ n ih =>
      rw [List.range'_1_concat, List.countP_append, ih (by omega), List.countP_singleton]
      have := hstarted (1 + n) (by omega)
      by_cases hle : monthStart leap (1 + n) ≤ d
      · simp [hle]
        omega
      · simp [hle]
        omega
  unfold monthOfDay
  rw [hcount 11 (Nat.le_refl _)]
  omega

/-- Every day of a year lies in a month. -/
theorem exists_month (year : Int) (hlo : 0 ≤ d) (hhi : d < yearLength year) :
    ∃ month < 12, monthStart (isLeap year) month ≤ d ∧
      d < monthStart (isLeap year) month + monthLength (isLeap year) month := by
  by_contra hnone
  -- A day that lies in no month comes after the start of every one.
  have hafter : ∀ month < 12, monthStart (isLeap year) month ≤ d := by
    intro month
    induction month with
    | zero => exact fun _ => by rwa [monthStart_zero]
    | succ month ih =>
      intro hmonth
      have hstart := ih (by omega)
      rw [monthStart_succ _ (by omega)]
      by_contra hlt
      exact hnone ⟨month, by omega, hstart, by omega⟩
  have hlast := monthStart_last year
  exact hnone ⟨11, by decide, hafter 11 (by decide), by omega⟩

end Calendar

open Calendar

/-! ## Moments -/

namespace Moment

/-- Whether the parts of a moment lie in their ranges. -/
structure InRange (m : Moment) : Prop where
  month : m.month < 12
  date_pos : 1 ≤ m.date
  date_le : m.date ≤ monthLength (isLeap m.year) m.month
  hours_nonneg : 0 ≤ m.hours
  hours_lt : m.hours < 24
  minutes_nonneg : 0 ≤ m.minutes
  minutes_lt : m.minutes < 60
  seconds_nonneg : 0 ≤ m.seconds
  seconds_lt : m.seconds < 60
  milliseconds_nonneg : 0 ≤ m.milliseconds
  milliseconds_lt : m.milliseconds < 1000

/-- The day of a moment, counted from the start of 1970. -/
def dayNumber (m : Moment) : Int := daysToYear m.year + monthStart (isLeap m.year) m.month + m.date - 1

/-- The milliseconds of a moment since the start of its day. -/
def timeOfDay (m : Moment) : Int :=
  m.hours * hour + m.minutes * minute + m.seconds * second + m.milliseconds

/-- The time of a moment. -/
def time (m : Moment) : Int := m.dayNumber * day + m.timeOfDay

variable {m : Moment}

/-- The day of the year lies in the year. -/
theorem InRange.inYear (hm : m.InRange) :
    0 ≤ monthStart (isLeap m.year) m.month + m.date - 1 ∧
      monthStart (isLeap m.year) m.month + m.date - 1 < yearLength m.year := by
  have hmonth := hm.month
  have hpos := hm.date_pos
  have hle := hm.date_le
  have hfirst := monthStart_bounds (isLeap m.year) hmonth
  have hlast := monthStart_last m.year
  refine ⟨by omega, ?_⟩
  by_cases heq : m.month = 11
  · rw [heq] at hle ⊢
    omega
  · have hsucc := monthStart_succ (isLeap m.year) (show m.month < 11 by omega)
    have hmono := monthStart_mono (isLeap m.year) (show m.month + 1 ≤ 11 by omega) (by decide)
    have hlength : 0 ≤ monthLength (isLeap m.year) 11 := by
      cases isLeap m.year <;> decide
    omega

theorem InRange.date_le_last (hm : m.InRange) : m.date ≤ 31 :=
  Int.le_trans hm.date_le (monthLength_le _ hm.month)

theorem InRange.timeOfDay_bounds (hm : m.InRange) : 0 ≤ m.timeOfDay ∧ m.timeOfDay < day := by
  obtain ⟨-, -, -, hours, hours', minutes, minutes', seconds, seconds', ms, ms'⟩ := hm
  unfold timeOfDay hour minute second day
  omega

/-- The parts of a time lie in their ranges. -/
theorem inRange_ofTime (t : Int) : (ofTime t).InRange := by
  obtain ⟨hstart, hend⟩ := yearOfDay_spec (t / day)
  rw [daysToYear_succ] at hend
  obtain ⟨month, hmonth, hlo, hhi⟩ := exists_month (yearOfDay (t / day))
    (d := t / day - daysToYear (yearOfDay (t / day))) (by omega) (by omega)
  have heq := monthOfDay_eq hmonth hlo fun h => by rwa [monthStart_succ _ h]
  unfold ofTime
  dsimp only
  rw [heq]
  unfold day hour minute second at *
  constructor <;> dsimp only <;> omega

/-- The parts of a time are those of the time. -/
theorem time_ofTime (t : Int) : (ofTime t).time = t := by
  unfold time dayNumber timeOfDay ofTime
  dsimp only
  unfold day hour minute second
  omega

/-- The years of whole doubles. -/
theorem year_bounds {t : Int} (ht : t.natAbs ≤ 2 ^ 53) : (ofTime t).year.natAbs ≤ 300000 := by
  obtain ⟨hlo, hhi⟩ := yearOfDay_spec (t / day)
  unfold daysToYear day at hlo hhi
  show (yearOfDay (t / 86400000)).natAbs ≤ 300000
  omega

theorem year_of_nonneg {t : Int} (ht : 0 ≤ t) : 1970 ≤ (ofTime t).year := by
  obtain ⟨hlo, hhi⟩ := yearOfDay_spec (t / day)
  unfold daysToYear day at hlo hhi
  show 1970 ≤ yearOfDay (t / 86400000)
  omega

theorem timeOfDay_ofTime (t : Int) : (ofTime t).timeOfDay = t % day := by
  unfold timeOfDay ofTime
  dsimp only
  unfold day hour minute second
  omega

/-- Parts in their ranges are the parts of their time. -/
theorem ofTime_time (hm : m.InRange) : ofTime m.time = m := by
  obtain ⟨hdayLo, hdayHi⟩ := hm.inYear
  obtain ⟨htimeLo, htimeHi⟩ := hm.timeOfDay_bounds
  have hday : m.time / day = m.dayNumber := by
    unfold time day at *
    omega
  have htime : m.time % day = m.timeOfDay := by
    unfold time day at *
    omega
  have hsecond : m.time % second = m.timeOfDay % second := by
    unfold time day second
    omega
  have hyear : yearOfDay m.dayNumber = m.year := by
    refine yearOfDay_eq ?_ ?_
    · unfold dayNumber
      omega
    · rw [daysToYear_succ]
      unfold dayNumber
      omega
  have hinYear : m.dayNumber - daysToYear m.year = monthStart (isLeap m.year) m.month + m.date - 1 := by
    unfold dayNumber
    omega
  have hmonth : monthOfDay (isLeap m.year) (m.dayNumber - daysToYear m.year) = m.month := by
    have hpos := hm.date_pos
    have hle := hm.date_le
    rw [hinYear]
    refine monthOfDay_eq hm.month (by omega) fun h => ?_
    rw [monthStart_succ _ h]
    omega
  obtain ⟨-, -, -, hours, hours', minutes, minutes', seconds, seconds', ms, ms'⟩ := hm
  unfold ofTime
  dsimp only
  rw [hday, htime, hsecond, hyear, hmonth, hinYear]
  unfold timeOfDay hour minute second
  cases m
  simp only [Moment.mk.injEq, true_and]
  dsimp only at *
  omega

end Moment

end PageScript
