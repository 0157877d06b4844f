import PageScript.Number.Binary64

/-! # The shortest decimal that reads back

Every positive double is the nearest double to an interval of reals around it.  `shortest` gives
the decimal with the fewest digits inside that interval and, of those, the nearest to the double.
All comparisons are between whole numbers.
-/

set_option autoImplicit false

namespace PageScript.Decimal

/-- The number `coefficient * 10 ^ power`. -/
structure Scientific where
  coefficient : Nat
  power : Int
  deriving DecidableEq, Repr

/-- What is chosen when two decimals of one length are equally near. -/
inductive Tie where
  | toEven
  | up
  deriving DecidableEq, Repr

/-- A positive rational interval around a value, over one denominator.  The ends belong to it when
`closed` holds. -/
structure Interval where
  low : Nat
  value : Nat
  high : Nat
  denominator : Nat
  closed : Bool

/-- The reals that round to the positive double `significand * 2 ^ power`.  Below a power of two
the doubles lie twice as dense. -/
def roundingInterval (significand : Nat) (power : Int) : Interval :=
  let gap := if significand = 2 ^ 52 ∧ -1074 < power then 1 else 2
  let scale := 2 ^ (power - 2).toNat
  { low := (4 * significand - gap) * scale
    value := 4 * significand * scale
    high := (4 * significand + 2) * scale
    denominator := 2 ^ (2 - power).toNat
    closed := significand % 2 = 0 }

/-- Whether `10 ^ k` is at most `num / den`. -/
def powerAtMost (num den : Nat) (k : Int) : Bool :=
  decide (den * 10 ^ k.toNat ≤ num * 10 ^ (-k).toNat)

/-- The first exponent from `k` on whose power of ten exceeds `num / den`, tried `tries` times. -/
def firstAbove (num den : Nat) : Nat → Int → Int
  | 0, k => k
  | tries + 1, k => if powerAtMost num den k then firstAbove num den tries (k + 1) else k

/-- The exponent `k` with `10 ^ (k - 1) ≤ num / den < 10 ^ k`. -/
def magnitude (num den : Nat) : Int :=
  let bits := (num.log2 : Int) - den.log2 - 1
  firstAbove num den 5 ((bits * 30103) / 100000)

/-- The point of the grid `10 ^ power` inside the interval that is nearest to its value. -/
def nearestOnGrid (i : Interval) (tie : Tie) (power : Int) : Option Nat :=
  let unit := i.denominator * 10 ^ power.toNat
  let scale := 10 ^ (-power).toNat
  let below := i.value * scale / unit
  let rest := i.value * scale % unit
  let belowFits :=
    if i.closed then i.low * scale ≤ below * unit else i.low * scale < below * unit
  let aboveFits :=
    if i.closed then (below + 1) * unit ≤ i.high * scale else (below + 1) * unit < i.high * scale
  let aboveNearer :=
    unit < 2 * rest || unit = 2 * rest && (tie == .up || below % 2 = 1)
  if belowFits then (if aboveFits && aboveNearer then some (below + 1) else some below)
  else if aboveFits then some (below + 1)
  else none

/-- The first hit on the grids of `digits`, `digits + 1`, … digits, `tries` of them. -/
def firstHit (i : Interval) (tie : Tie) (k : Int) : Nat → Nat → Option Scientific
  | 0, _ => none
  | tries + 1, digits =>
    let power := k - digits
    match nearestOnGrid i tie power with
    | some c => some ⟨c, power⟩
    | none => firstHit i tie k tries (digits + 1)

/-- Moves trailing zeros of the coefficient into the power, at most `limit` of them. -/
def dropZeros : Nat → Scientific → Scientific
  | 0, d => d
  | limit + 1, d =>
    if d.coefficient % 10 = 0 ∧ d.coefficient ≠ 0 then
      dropZeros limit ⟨d.coefficient / 10, d.power + 1⟩
    else d

/-- The shortest decimal that rounds to the positive double `significand * 2 ^ power`; seventeen
digits always suffice. -/
def shortest (tie : Tie) (significand : Nat) (power : Int) : Scientific :=
  let i := roundingInterval significand power
  let k := magnitude i.value i.denominator
  match firstHit i tie k 17 1 with
  | some d => dropZeros 17 d
  | none => ⟨significand * 2 ^ power.toNat, 0⟩

end PageScript.Decimal
