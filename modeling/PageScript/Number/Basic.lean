import PageScript.Number.Binary64

/-! # Script numbers

A script number is a finite double or one of three tags: not a number, and the two infinities.
Arithmetic is defined over the tags first and reaches the doubles only where both operands are
finite, so no operation depends on how doubles encode their special values.
-/

set_option autoImplicit false

namespace PageScript

/-- A number of the language. -/
inductive Number where
  | finite (x : Float)
  | nan
  | posInf
  | negInf

namespace Number

/-! ## Passing to and from doubles -/

/-- Sorts a double into the finite ones and the three tags. -/
def ofFloat (x : Float) : Number :=
  if x.isNaN then .nan
  else if x.isInf then (if Binary64.isNegative x then .negInf else .posInf)
  else .finite x

/-- The number as a double. -/
def toFloat : Number → Float
  | .finite x => x
  | .nan => 0.0 / 0.0
  | .posInf => 1.0 / 0.0
  | .negInf => -1.0 / 0.0

instance : Inhabited Number := ⟨.nan⟩

/-- Positive zero. -/
def zero : Number := .finite 0.0

/-- The number nearest to a natural number. -/
def ofNat (n : Nat) : Number := ofFloat (Binary64.ofNat n)

/-- The number nearest to an integer. -/
def ofInt (i : Int) : Number := ofFloat (Binary64.ofInt i)

/-! ## Tests -/

/-- Whether the number is the NaN tag. -/
def isNaN : Number → Bool
  | .nan => true
  | _ => false

/-- Whether the number is neither infinite nor NaN. -/
def isFinite : Number → Bool
  | .finite _ => true
  | _ => false

/-- Whether the number is one of the two zeros. -/
def isZero : Number → Bool
  | .finite x => x == 0.0
  | _ => false

/-- Whether the sign is negative; negative zero counts, NaN does not. -/
def isNegative : Number → Bool
  | .finite x => Binary64.isNegative x
  | .negInf => true
  | .nan | .posInf => false

/-! ## Arithmetic -/

/-- The infinity of a given sign. -/
def infinity (negative : Bool) : Number := if negative then .negInf else .posInf

/-- The zero of a given sign. -/
def signedZero (negative : Bool) : Number := .finite (if negative then -0.0 else 0.0)

/-- Opposite infinities have no sum. -/
def add : Number → Number → Number
  | .finite x, .finite y => ofFloat (x + y)
  | .nan, _ | _, .nan => .nan
  | .posInf, .negInf | .negInf, .posInf => .nan
  | .posInf, _ | _, .posInf => .posInf
  | .negInf, _ | _, .negInf => .negInf

/-- Changes the sign, also of a zero. -/
def neg : Number → Number
  | .finite x => ofFloat (-x)
  | .nan => .nan
  | .posInf => .negInf
  | .negInf => .posInf

/-- Equal infinities have no difference. -/
def sub : Number → Number → Number
  | .finite x, .finite y => ofFloat (x - y)
  | .nan, _ | _, .nan => .nan
  | .posInf, .posInf | .negInf, .negInf => .nan
  | .posInf, _ | _, .negInf => .posInf
  | .negInf, _ | _, .posInf => .negInf

/-- An infinity times zero is not a number; otherwise the signs multiply. -/
def mul (x y : Number) : Number :=
  match x, y with
  | .nan, _ | _, .nan => .nan
  | .finite a, .finite b => ofFloat (a * b)
  | _, _ =>
    if x.isZero || y.isZero then .nan else infinity (x.isNegative != y.isNegative)

/-- Division by zero gives an infinity, except that zero by zero and infinity by infinity are not
numbers. -/
def div (x y : Number) : Number :=
  let negative := x.isNegative != y.isNegative
  match x, y with
  | .nan, _ | _, .nan => .nan
  | .finite a, .finite b =>
    if y.isZero then (if x.isZero then .nan else infinity negative) else ofFloat (a / b)
  | .finite _, _ => signedZero negative
  | _, .finite _ => infinity negative
  | _, _ => .nan

/-- The remainder of truncating division; it takes the sign of the dividend. -/
def rem (x y : Number) : Number :=
  match x, y with
  | .nan, _ | _, .nan | .posInf, _ | .negInf, _ => .nan
  | .finite a, .finite b =>
    if y.isZero then .nan else ofFloat (Binary64.remainder a b)
  | .finite _, _ => x

/-! ## Comparison -/

/-- Where a number lies relative to the finite ones. -/
def rank : Number → Nat
  | .negInf => 0
  | .finite _ | .nan => 1
  | .posInf => 2

/-- `none` when either side is NaN. -/
def lessThan? : Number → Number → Option Bool
  | .nan, _ | _, .nan => none
  | .finite x, .finite y => some (decide (x < y))
  | x, y => some (decide (x.rank < y.rank))

/-- NaN is unequal to everything, itself included; the two zeros are equal. -/
def equal : Number → Number → Bool
  | .finite x, .finite y => x == y
  | .posInf, .posInf | .negInf, .negInf => true
  | _, _ => false

/-- The order of two numbers, `none` when either is NaN. -/
def ordering? (x y : Number) : Option Ordering :=
  (lessThan? x y).map fun less =>
    if less then .lt else if equal x y then .eq else .gt

/-! ## Thirty-two bit integers -/

/-- The whole part modulo `2 ^ 32`; the three tags count as zero. -/
def toUInt32 : Number → UInt32
  | .finite x => (Binary64.toInt x % 2 ^ 32).toNat.toUInt32
  | _ => 0

/-- The whole part modulo `2 ^ 32`, between `-2 ^ 31` and `2 ^ 31 - 1`. -/
def toInt32 (x : Number) : Int32 := x.toUInt32.toInt32

/-- The number of a 32-bit signed integer. -/
def ofInt32 (i : Int32) : Number := ofInt i.toInt

/-- The number of a 32-bit unsigned integer. -/
def ofUInt32 (n : UInt32) : Number := ofNat n.toNat

end Number

end PageScript
