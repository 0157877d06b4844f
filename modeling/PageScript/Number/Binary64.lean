/-! # Exact arithmetic on the doubles

A finite double is a sign, a whole significand and a power of two.  Everything here works on that
form in whole numbers:

* `dyadic` takes a finite double apart; `ofRatio` rounds a quotient of whole numbers to the
  nearest double, ties to the even significand, and `ofDecimal` a decimal number.
* `toInt`, `truncate`, `floor`, `ceiling` round to whole numbers; the sign of zero is kept.
* `remainder` is the exact remainder of truncating division, with the sign of the dividend.
* `nearest` and `floorQuotient` do sums, products and quotients of whole doubles in integers.
-/

set_option autoImplicit false

-- Powers of whole numbers are those of the core library, whatever else is imported.
attribute [instance (high), default_instance (high)] instPowNat

namespace PageScript.Binary64

/-! ## Taking a double apart -/

/-- The number `± significand * 2 ^ power`. -/
structure Dyadic where
  negative : Bool
  significand : Nat
  power : Int
  deriving DecidableEq, Repr

/-- The parts of a finite double; of an infinity or a NaN the bits are read as if it were finite. -/
def dyadic (x : Float) : Dyadic :=
  let bits : Nat := x.toBits.toNat
  let fraction : Nat := bits % 2 ^ 52
  let field : Nat := bits / 2 ^ 52 % 2 ^ 11
  let negative := decide (2 ^ 63 ≤ bits)
  if field = 0 then ⟨negative, fraction, -1074⟩
  else ⟨negative, 2 ^ 52 + fraction, (field : Int) - 1075⟩

/-- Whether the sign bit is set, which tells the two zeros apart. -/
def isNegative (x : Float) : Bool := decide (2 ^ 63 ≤ x.toBits.toNat)

/-- `x` with the sign bit set exactly when `negative` holds. -/
def withSign (negative : Bool) (x : Float) : Float :=
  if isNegative x = negative then x else -x

/-! ## Rounding to the nearest double -/

/-- `num / den` in whole units of `2 ^ power`, rounded to nearest, ties to even. -/
def roundedUnits (num den : Nat) (power : Int) : Nat :=
  let n := num * 2 ^ (-power).toNat
  let d := den * 2 ^ power.toNat
  let q := n / d
  let twice := 2 * (n % d)
  if twice < d then q else if d < twice then q + 1 else q + q % 2

/-- The least power of two whose whole multiples near `num / den` are doubles. -/
def unitPower (num den : Nat) : Int :=
  let guess := (num.log2 : Int) - den.log2 - 52
  let fits := den * 2 ^ (guess + 52).toNat ≤ num * 2 ^ (-(guess + 52)).toNat
  max (-1074) (if fits then guess else guess - 1)

/-- The double nearest to `num / den`; too large a quotient becomes infinite. -/
def ofRatio (num den : Nat) : Float :=
  if num = 0 then 0.0
  else
    let power := unitPower num den
    let units := roundedUnits num den power
    let bits := (power + 1074).toNat * 2 ^ 52 + units
    Float.ofBits (min bits (2047 * 2 ^ 52)).toUInt64

/-- The double nearest to `significand * 10 ^ power`.  Powers that are too large or too small for a
double are not worked out. -/
def ofDecimal (significand : Nat) (power : Int) : Float :=
  if significand = 0 ∨ power < -(1100 + significand.log2 : Int) then 0.0
  else if 400 < power then Float.ofBits (2047 * 2 ^ 52 : Nat).toUInt64
  else ofRatio (significand * 10 ^ power.toNat) (10 ^ (-power).toNat)

/-- The double nearest to `± significand * 2 ^ power`. -/
def ofDyadic (d : Dyadic) : Float :=
  withSign d.negative (ofRatio (d.significand * 2 ^ d.power.toNat) (2 ^ (-d.power).toNat))

/-- The double nearest to a natural number. -/
def ofNat (n : Nat) : Float := ofRatio n 1

/-- The double nearest to an integer. -/
def ofInt (i : Int) : Float := if i < 0 then -ofNat i.natAbs else ofNat i.natAbs

/-! ## Whole numbers -/

/-- The magnitude of a finite double, rounded down. -/
def magnitude (x : Float) : Nat :=
  let d := dyadic x
  d.significand * 2 ^ d.power.toNat / 2 ^ (-d.power).toNat

/-- A finite double rounded towards zero. -/
def toInt (x : Float) : Int :=
  if isNegative x then -(magnitude x : Int) else (magnitude x : Int)

/-- Whether a finite double has no fractional part. -/
def isWhole (x : Float) : Bool :=
  let d := dyadic x
  d.significand % 2 ^ (-d.power).toNat = 0

/-- The whole number at the magnitude of `x` rounded down, or up if `up` holds, under the sign
of `x`; infinities and NaN are kept. -/
def roundMagnitude (up : Bool) (x : Float) : Float :=
  if !x.isFinite || isWhole x then x
  else withSign (isNegative x) (ofNat (magnitude x + if up then 1 else 0))

/-- Rounds towards zero. -/
def truncate (x : Float) : Float := roundMagnitude false x

/-- Rounds towards negative infinity. -/
def floor (x : Float) : Float := roundMagnitude (isNegative x) x

/-- Rounds towards positive infinity. -/
def ceiling (x : Float) : Float := roundMagnitude (!isNegative x) x

/-! ## Remainder -/

/-- The exact remainder of truncating division of two finite doubles, `y` not zero; it has the
sign of `x`, also when it is zero. -/
def remainder (x y : Float) : Float :=
  let a := dyadic x
  let b := dyadic y
  let power := min a.power b.power
  let m := a.significand * 2 ^ (a.power - power).toNat
  let n := b.significand * 2 ^ (b.power - power).toNat
  ofDyadic ⟨a.negative, m % n, power⟩

/-! ## Whole doubles

Arithmetic on doubles that happen to be whole, in integers: each result is rounded as the double would
be, and there is none where the double would be infinite.
-/

/-- The natural number nearest to `n` that is a double; `none` if `n` is too large for one. -/
def nearestNat (n : Nat) : Option Nat :=
  if n ≤ 2 ^ 53 then some n
  else
    let power := unitPower n 1
    let rounded := roundedUnits n 1 power * 2 ^ power.toNat
    if rounded < 2 ^ 1024 then some rounded else none

/-- The integer nearest to `i` that is a double; `none` if `i` is too large for one. -/
def nearest (i : Int) : Option Int :=
  (nearestNat i.natAbs).map fun n => if i < 0 then -(n : Int) else n

/-- The double nearest to `i / d`, rounded down.  For `d` up to 400 and a dividend below `2 ^ 50` the
quotient is too far from the next whole number for its rounding to matter. -/
def floorQuotient (i : Int) (d : Nat) : Int :=
  if i.natAbs < 2 ^ 50 then i / d
  else
    let power := unitPower i.natAbs d
    let units : Int := roundedUnits i.natAbs d power * 2 ^ power.toNat
    (if i < 0 then -units else units) / 2 ^ (-power).toNat

end PageScript.Binary64
