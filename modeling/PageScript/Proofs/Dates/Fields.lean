import Mathlib.Algebra.Group.Defs
import PageScript.Library.Dates
import PageScript.Proofs.Arrays.Lists
import PageScript.Proofs.Dates.Calendar
import PageScript.Proofs.Dates.Rounding

/-! # Fields put together

Fields in their ranges make the time of their moment, or none if that is beyond the limit, for all years: the
sums and products are exact as long as the result can be within the limit, and stay beyond it where they are
rounded.
-/

set_option autoImplicit false

namespace PageScript

namespace Calendar

open Binary64

variable {a b t d g : Int} {m : Moment}

theorem plus_of_le (h : (a + b).natAbs ≤ 2 ^ 53) : plus a b = some (a + b) := nearest_of_le h

theorem times_of_le (h : (a * b).natAbs ≤ 2 ^ 53) : times a b = some (a * b) := nearest_of_le h

theorem clip_of_le (h : t.natAbs ≤ timeLimit) : clip t = some t := if_pos h

theorem clip_of_lt (h : timeLimit < t.natAbs) : clip t = none := if_neg (by omega)

/-- A time that is rounded on its way is beyond the limit, and stays there. -/
theorem clip_plus_times (hlo : 0 ≤ t) (hhi : t < day) :
    ((times d day).bind fun start => (plus start t).bind clip) = clip (d * day + t) := by
  unfold times plus
  have hlimit : timeLimit = 8640000000000000 := rfl
  have hday : day = 86400000 := rfl
  have hsum : ∀ start, 2 ^ 53 - day ≤ start.natAbs → (nearest (start + t)).bind clip = none := by
    intro start hstart
    refine Option.bind_eq_none_iff.2 fun z hz => clip_of_lt ?_
    by_cases hsmall : (start + t).natAbs ≤ 2 ^ 53
    · rw [nearest_of_le hsmall] at hz
      cases hz
      omega
    · have := nearest_beyond hz (by omega)
      omega
  by_cases hstart : (d * day).natAbs ≤ 2 ^ 53
  · rw [nearest_of_le hstart, Option.bind_some]
    by_cases hend : (d * day + t).natAbs ≤ 2 ^ 53
    · rw [nearest_of_le hend, Option.bind_some]
    · rw [hsum _ (by omega), clip_of_lt (by omega)]
  · rw [clip_of_lt (by omega)]
    refine Option.bind_eq_none_iff.2 fun z hz => hsum z ?_
    have := nearest_beyond hz (by omega)
    omega

/-! ## Days -/

/-- A month that lies in the year does not carry over. -/
theorem dayOfFields_inYear {year date : Int} {month : Nat} (h : month < 12) :
    dayOfFields year month date = (do
      let y ← plus year 0
      let days ← plus (← roundedDaysToYear y) (monthStart (isLeap y) month)
      plus (← plus days date) (-1)) := by
  have hquotient : floorQuotient month 12 = 0 := by
    rw [floorQuotient_of_lt (by omega)]
    omega
  have hmod : ((month : Int) % 12).toNat = month := by omega
  unfold dayOfFields
  rw [hquotient, hmod]

/-- The days up to years that are not far away are exact. -/
theorem dayOfFields_near (hm : m.InRange) (hyear : m.year.natAbs ≤ 2 ^ 41) :
    dayOfFields m.year m.month m.date = some m.dayNumber := by
  have hstart := monthStart_bounds (isLeap m.year) hm.month
  have hdate := hm.date_pos
  have hdate' := hm.date_le_last
  rw [dayOfFields_inYear hm.month]
  unfold roundedDaysToYear
  simp (disch := omega) only [plus_of_le, times_of_le, floorQuotient_of_lt, Int.add_zero, Option.bind_eq_bind,
    Option.bind_some]
  rfl

/-- Rounding does not bring the days of far away years back. -/
theorem roundedDaysToYear_far {y : Int} (hy : 2 ^ 40 ≤ y.natAbs) (h : roundedDaysToYear y = some d) :
    y.natAbs ≤ d.natAbs := by
  unfold roundedDaysToYear plus times at h
  simp only [Option.bind_eq_bind, Option.bind_eq_some_iff] at h
  obtain ⟨years, hyears, common, hcommon, years4, hyears4, days4, hdays4, years100, hyears100, days100, hdays100,
    years400, hyears400, hd⟩ := h
  have hcommonDays : 365 * y.natAbs ≤ 4 * common.natAbs + 365 * 1970 := by
    have := nearest_add_bounds hyears
    have := nearest_bounds hcommon
    omega
  have := floorQuotient_add_bounds (d := 4) (by decide) hyears4
  have := floorQuotient_add_bounds (d := 100) (by decide) hyears100
  have := floorQuotient_add_bounds (d := 400) (by decide) hyears400
  have := nearest_add_bounds hdays4
  have := nearest_add_bounds hdays100
  have := nearest_add_bounds hd
  omega

theorem dayOfFields_far (hm : m.InRange) (hyear : 2 ^ 41 < m.year.natAbs)
    (h : dayOfFields m.year m.month m.date = some g) : 2 ^ 28 ≤ g.natAbs := by
  have hdate := hm.date_pos
  have hdate' := hm.date_le_last
  rw [dayOfFields_inYear hm.month] at h
  unfold plus at h
  simp only [Option.bind_eq_bind, Option.bind_eq_some_iff] at h
  obtain ⟨y, hy, year, hyear, start, hstart, date, hdate, hg⟩ := h
  have hmonth := monthStart_bounds (isLeap y) hm.month
  have := nearest_add_bounds hy
  have := roundedDaysToYear_far (by omega) hyear
  have := nearest_add_bounds hstart
  have := nearest_add_bounds hdate
  have := nearest_add_bounds hg
  omega

/-! ## Times -/

theorem millisecondsOfFields_eq (hm : m.InRange) :
    millisecondsOfFields m.hours m.minutes m.seconds m.milliseconds = some m.timeOfDay := by
  obtain ⟨-, -, -, hours, hours', minutes, minutes', seconds, seconds', ms, ms'⟩ := hm
  unfold millisecondsOfFields hour minute second
  simp (disch := omega) only [plus_of_le, times_of_le, Option.bind_eq_bind, Option.bind_some]
  rfl

theorem unlimitedTimeOfFields_eq_bind (hm : m.InRange) :
    unlimitedTimeOfFields (m.fields.map some)
      = (dayOfFields m.year m.month m.date).bind fun d =>
          (times d day).bind fun start => plus start m.timeOfDay := by
  have hfields : unlimitedTimeOfFields (m.fields.map some)
      = (dayOfFields m.year m.month m.date).bind fun d => (times d day).bind fun start =>
          (millisecondsOfFields m.hours m.minutes m.seconds m.milliseconds).bind (plus start) := rfl
  rw [hfields, millisecondsOfFields_eq hm]
  rfl

theorem timeOfFields_eq_bind (hm : m.InRange) :
    timeOfFields (m.fields.map some)
      = (dayOfFields m.year m.month m.date).bind fun d => clip (d * day + m.timeOfDay) := by
  obtain ⟨hlo, hhi⟩ := hm.timeOfDay_bounds
  unfold timeOfFields
  rw [unlimitedTimeOfFields_eq_bind hm]
  simp only [Option.bind_assoc, clip_plus_times hlo hhi]

/-- Fields in their ranges make the time of their moment, unless it is beyond the limit. -/
theorem timeOfFields_of_inRange (hm : m.InRange) : timeOfFields (m.fields.map some) = clip m.time := by
  rw [timeOfFields_eq_bind hm]
  by_cases hyear : m.year.natAbs ≤ 2 ^ 41
  · rw [dayOfFields_near hm hyear]
    rfl
  · have hhi := hm.timeOfDay_bounds
    have hlimit : timeLimit = 8640000000000000 := rfl
    have hday : day = 86400000 := rfl
    have hbeyond : ∀ d : Int, 2 ^ 28 ≤ d.natAbs → clip (d * day + m.timeOfDay) = none := by
      intro d hd
      rw [hday] at hhi ⊢
      exact clip_of_lt (by omega)
    have hyears : 2 ^ 28 ≤ m.dayNumber.natAbs := by
      have := hm.inYear
      unfold yearLength at this
      unfold Moment.dayNumber daysToYear
      split at this <;> omega
    rw [show clip m.time = none from hbeyond _ hyears]
    refine Option.bind_eq_none_iff.2 fun d hd => hbeyond d ?_
    exact dayOfFields_far hm (by omega) hd

/-- A time from 1970 on is exact beyond the limit too. -/
theorem unlimitedTimeOfFields_of_nonneg (hm : m.InRange) (hyear : m.year.natAbs ≤ 2 ^ 41) (hlo : 0 ≤ m.time)
    (hhi : m.time ≤ 2 ^ 53) : unlimitedTimeOfFields (m.fields.map some) = some m.time := by
  obtain ⟨htime, htime'⟩ := hm.timeOfDay_bounds
  have hday : day = 86400000 := rfl
  unfold Moment.time at hlo hhi ⊢
  rw [unlimitedTimeOfFields_eq_bind hm, dayOfFields_near hm hyear, Option.bind_some,
    times_of_le (by omega), Option.bind_some, plus_of_le (by omega)]

end Calendar

end PageScript
