import PageScript.Proofs.Dates.Fields
import PageScript.Proofs.Declarations

/-! # Parts of dates

What the getters of a date yield are the fields of its time again, and a setter that is given current values
leaves the date as it is.
-/

set_option autoImplicit false

namespace PageScript

open Calendar

variable {t : Int}

/-! ## Numbers of parts -/

theorem Number.whole?_ofInt {i : Int} (hi : i.natAbs < 2 ^ 53) : (Number.ofInt i).whole? = some i := by
  rw [Number.ofInt_eq_finite hi]
  exact congrArg some (Binary64.isInt_ofInt hi).toInt

theorem Number.whole?_ofNat {n : Nat} (hn : n < 2 ^ 53) : (Number.ofNat n).whole? = some (n : Int) := by
  rw [Number.ofNat_eq_finite hn]
  exact congrArg some (Binary64.isNat_ofNat hn).toInt

theorem Number.whole?_negativeZero : (Number.signedZero true).whole? = some 0 := by
  obtain ⟨power, hdyadic⟩ : ∃ power, Binary64.dyadic (-0.0) = ⟨true, 0, power⟩ := ⟨-1074, by decide⟩
  have htoInt : Binary64.toInt (-0.0) = 0 := by
    unfold Binary64.toInt
    rw [Binary64.magnitude_of_significand_zero hdyadic]
    split <;> rfl
  exact congrArg some htoInt

/-- The zeros of an early midnight are what they stand for. -/
theorem whole?_clockPart {part : Int} (hpart : part.natAbs < 2 ^ 53) (hmidnight : t % day = 0 → part = 0) :
    (clockPart t part).whole? = some part := by
  unfold clockPart
  split
  · rename_i hearly
    have hzero : t % day = 0 := by simpa using (Bool.and_eq_true_iff.1 hearly).2
    rw [Number.whole?_negativeZero, hmidnight hzero]
  · exact Number.whole?_ofInt hpart

/-- The parts of a date that can be set, largest first. -/
def DatePart.fields : List DatePart :=
  [.fullYear, .month, .date, .hours, .minutes, .seconds, .milliseconds]

/-- The fields that the parts of a time stand for are those of the time. -/
theorem whole?_fields (ht : t.natAbs ≤ timeLimit) :
    DatePart.fields.map (fun part => (part.ofTime t).whole?) = (Moment.ofTime t).fields.map some := by
  have hyear := Moment.year_bounds (Nat.le_trans ht (by decide))
  have hmidnight := Moment.timeOfDay_ofTime t
  have hlast := (Moment.inRange_ofTime t).date_le_last
  obtain ⟨hmonth, hdate, -, hours, hours', minutes, minutes', seconds, seconds', ms, ms'⟩ :=
    Moment.inRange_ofTime t
  unfold Moment.timeOfDay hour minute second at hmidnight
  show [(Number.ofInt _).whole?, (Number.ofNat _).whole?, (Number.ofInt _).whole?, (clockPart t _).whole?,
    (clockPart t _).whole?, (clockPart t _).whole?, (clockPart t _).whole?] = _
  rw [Number.whole?_ofInt (by omega), Number.whole?_ofNat (by omega), Number.whole?_ofInt (by omega),
    whole?_clockPart (by omega) (by omega), whole?_clockPart (by omega) (by omega),
    whole?_clockPart (by omega) (by omega), whole?_clockPart (by omega) (by omega)]
  rfl

namespace Script

/-- Replacing fields by themselves changes none. -/
theorem replaceFields_self (m : Moment) {first : Nat} {given : List (Option Int)}
    (h : given <+: (m.fields.map some).drop first) : replaceFields first given m = m.fields.map some := by
  unfold replaceFields
  dsimp only
  rw [List.append_assoc, ← List.drop_drop, List.prefix_iff_eq_append.1 h, List.take_append_drop]

end Script

/-- Whether a value is a date with a time. -/
structure Machine.Dated (m : Machine) (this : Value) (t : Int) : Prop where
  isDate : ∃ id o, this.id? = some id ∧ m.heap.get? id = some o ∧ o.payload = .date (some t)
  within : t.natAbs ≤ timeLimit

namespace Script

variable {m : Machine} {this : Value} {e : Engine}

theorem thisTime_dated (h : m.Dated this t) : thisTime this e m = .value (some t) m := by
  obtain ⟨id, o, hid, ho, hpayload⟩ := h.isDate
  have hread : (this.id?.bind m.heap.get?).map Object.payload = some (.date (some t)) := by
    rw [hid, Option.bind_some, ho, Option.map_some, hpayload]
  unfold thisTime payload?
  rw [bind_read, hread]
  rfl

/-- To give a date the time that it has changes nothing. -/
theorem storeTime_dated (h : m.Dated this t) : storeTime this (some t) e m = .value (.number (.ofInt t)) m := by
  obtain ⟨id, o, hid, ho, hpayload⟩ := h.isDate
  have hsame : m.heap.modify id (fun o => { o with payload := .date (some t) }) = m.heap := by
    refine Heap.modify_eq_self fun other hother => ?_
    cases ho.symm.trans hother
    rw [← hpayload]
  unfold storeTime
  rw [hid]
  show Outcome.value (timeValue (some t)) { m with heap := m.heap.modify id _ } = _
  rw [hsame]
  rfl

theorem toFields_numbers (numbers : List Number) :
    toFields (numbers.map .number) e m = .value (numbers.map Number.whole?) m := by
  have hlooks : Looks True (toFields (numbers.map .number)) (numbers.map Number.whole?) e m := by
    unfold toFields
    rw [each_map]
    exact .each fun n _ => .of_eq rfl
  exact hlooks.yields trivial

/-- A setter that is given current values of parts, from its first one on, leaves the date as it is. -/
theorem setFields_dated (h : m.Dated this t) {parts : List DatePart} {args : List Value} {first count : Nat}
    (hparts : parts <+: DatePart.fields.drop first) (hsome : parts ≠ [])
    (hargs : args.take count = parts.map fun part => .number (part.ofTime t)) :
    setFields this args first count e m = .value (.number (.ofInt t)) m := by
  have hgiven : toFields (args.take count) e m
      = .value (parts.map fun part => (part.ofTime t).whole?) m := by
    rw [hargs, ← Function.comp_def Value.number, ← List.map_map, toFields_numbers, List.map_map]
    rfl
  have hprefix :
      (parts.map fun part => (part.ofTime t).whole?) <+: ((Moment.ofTime t).fields.map some).drop first := by
    rw [← whole?_fields h.within, ← List.map_drop]
    exact hparts.map _
  have hnotEmpty : (parts.map fun part => (part.ofTime t).whole?).isEmpty = false := by
    rw [List.isEmpty_map, List.isEmpty_eq_false_iff]
    exact hsome
  have htime : timeOfFields (replaceFields first (parts.map fun part => (part.ofTime t).whole?) (Moment.ofTime t))
      = some t := by
    rw [replaceFields_self _ hprefix, timeOfFields_of_inRange (Moment.inRange_ofTime t), Moment.time_ofTime,
      clip_of_le h.within]
  unfold setFields
  rw [bind_of_value (thisTime_dated h), bind_of_value hgiven, hnotEmpty, if_neg Bool.false_ne_true]
  show storeTime this (timeOfFields _) e m = _
  rw [htime, storeTime_dated h]

/-- Times and fields in their ranges are one and the same thing: within the limit, each time has its own fields,
its year being the one that the search ends at from any estimate, and all fields in their ranges are those of
their time.  So a date keeps its time when a setter is given what its getters yield. -/
theorem calendar_exact :
    (∀ t : Int, t.natAbs ≤ timeLimit →
      (Moment.ofTime t).InRange ∧ (∀ estimate, onFrom t (backFrom t estimate) = (Moment.ofTime t).year) ∧
      timeOfFields ((Moment.ofTime t).fields.map some) = some t) ∧
    (∀ m : Moment, m.InRange →
      timeOfFields (m.fields.map some) = clip m.time ∧
      ∀ t, timeOfFields (m.fields.map some) = some t → Moment.ofTime t = m) ∧
    (∀ (e : Engine) (m : Machine) (this : Value) (t : Int), m.Dated this t →
      (∀ part args, applyDate (.get part) this args e m = .value (.number (part.ofTime t)) m) ∧
      ∀ (first count : Nat) (parts : List DatePart) (args : List Value),
        parts ≠ [] → parts <+: DatePart.fields.drop first →
        args.take count = parts.map (fun part => .number (part.ofTime t)) →
        applyDate (.set first count) this args e m = .value (.number (.ofInt t)) m) := by
  refine ⟨fun t ht => ⟨Moment.inRange_ofTime t, onFrom_backFrom t, ?_⟩,
    fun m hm => ⟨timeOfFields_of_inRange hm, fun t ht => ?_⟩,
    fun e m this t h => ⟨fun part args => ?_, fun first count parts args hsome hparts hargs => ?_⟩⟩
  · rw [timeOfFields_of_inRange (Moment.inRange_ofTime t), Moment.time_ofTime, clip_of_le ht]
  · rw [timeOfFields_of_inRange hm] at ht
    have htime : m.time = t := Option.some.inj (Option.ite_none_right_eq_some.1 ht).2
    rw [← htime, Moment.ofTime_time hm]
  · show dateNumber part.ofTime this e m = _
    unfold dateNumber
    rw [bind_of_value (thisTime_dated h)]
    rfl
  · exact setFields_dated h hparts hsome hargs

/-- The last midnight before 1970, whose hours are a negative zero, and a leap day. -/
theorem calendar_exact_midnight :
    let t : Int := -86400000
    let leapDay : Moment := ⟨-400, 1, 29, 23, 59, 59, 999⟩
    let m : Machine := { Interpreter.initialMachine {} with
      heap := ⟨#[some ⟨{ Object.empty none with payload := .date (some t) }, 0⟩], [], 0⟩ }
    t.natAbs ≤ timeLimit ∧
    (Moment.ofTime t).InRange ∧ onFrom t (backFrom t 2000) = (Moment.ofTime t).year ∧
    timeOfFields ((Moment.ofTime t).fields.map some) = some t ∧
    leapDay.InRange ∧ timeOfFields (leapDay.fields.map some) = some (-74784816000001) ∧
    Moment.ofTime (-74784816000001) = leapDay ∧
    m.Dated (.ref ⟨0⟩) t ∧ ∀ e,
      applyDate (.set 3 4) (.ref ⟨0⟩) [.number (.signedZero true)] e m = .value (.number (.ofInt t)) m := by
  intro t leapDay m
  have ht : t.natAbs ≤ timeLimit := by decide
  have hleap : leapDay.InRange := by constructor <;> decide
  have htime : timeOfFields (leapDay.fields.map some) = some (-74784816000001) := by decide
  have hm : m.Dated (.ref ⟨0⟩) t := ⟨⟨⟨0⟩, _, rfl, rfl, rfl⟩, ht⟩
  have ⟨hrange, hyear, hback⟩ := calendar_exact.1 t ht
  refine ⟨ht, hrange, hyear 2000, hback, hleap, htime, (calendar_exact.2.1 leapDay hleap).2 _ htime, hm, fun e => ?_⟩
  exact (calendar_exact.2.2 e m (.ref ⟨0⟩) t hm).2 3 4 [.hours] _ (by decide) ⟨_, rfl⟩ rfl

end Script

end PageScript
