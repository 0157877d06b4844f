import PageScript.Library.Basic
import PageScript.Number.Radix

/-! # Numbers and mathematics -/

set_option autoImplicit false

namespace PageScript.Script

/-! ## Numbers -/

/-- The number that a method is called on. -/
def thisNumber (this : Value) : Script Number := do
  match this, ← payload? this with
  | .number n, _ => return n
  | _, some (.number n) => return n
  | _, _ => typeError "Number.prototype method called on incompatible object"

/-- The text of a number in a radix, ten if none is given. -/
def numberText (this : Value) (args : List Value) : Script Value := do
  let n ← thisNumber this
  let radix ← match given? args 0 with
    | none => pure (Position.at 10)
    | some v => toPosition v
  match radix, n with
  | .at 10, n => return .string n.text
  | .at r, n =>
    if 2 ≤ r ∧ r ≤ 36 then
      match n with
      | .finite x => return .string (Number.radixText x r.toNat)
      | n => return .string n.text
    else raise .range "radix must be between 2 and 36"
  | _, _ => raise .range "radix must be between 2 and 36"

/-- Applies a function of `Number` or its prototype. -/
def applyNumber (f : NumberFunction) (this : Value) (args : List Value) : Script Value := do
  match f with
  | .construct =>
    let n ← match args.head? with
      | some v => toNumber v
      | none => pure Number.zero
    match ← isConstructing, this.id? with
    | true, some id =>
      setPayload id (.number n)
      return this
    | _, _ => return .number n
  | .toText => numberText this args
  | .toLocaleText => return .string (← thisNumber this).text
  | .valueOf => return .number (← thisNumber this)

/-! ## Mathematics -/

/-- Rounds to the nearest whole number, halves upwards; what rounds to zero from below keeps its
sign. -/
def roundHalfUp (x : Float) : Float :=
  if !x.isFinite || x == 0.0 then x
  else if -0.5 ≤ x && x < 0.0 then -0.0
  else Binary64.floor (x + 0.5)

/-- A function of `Math` on one number. -/
def realFunction : RealFunction → Float → Float
  | .abs => Float.abs
  | .acos => Float.acos
  | .asin => Float.asin
  | .atan => Float.atan
  | .ceil => Binary64.ceiling
  | .cos => Float.cos
  | .exp => Float.exp
  | .floor => Binary64.floor
  | .log => Float.log
  | .round => roundHalfUp
  | .sin => Float.sin
  | .sqrt => Float.sqrt
  | .tan => Float.tan
  | .trunc => Binary64.truncate

/-- A power; unlike the power of doubles it is not a number for an infinite exponent of a base of
magnitude one. -/
def power (x y : Number) : Number :=
  if y.isNaN || (x.toFloat.abs == 1.0 && !y.isFinite) then .nan
  else .ofFloat (Float.pow x.toFloat y.toFloat)

/-- The best of a list of numbers; one that is not a number wins at once, and later ones are not even
converted. -/
def extreme (better : Number → Number → Bool) (best : Number) : List Value → Script Value
  | [] => return .number best
  | v :: rest => do
    let n ← toNumber v
    if n.isNaN then return .number .nan
    extreme better (if better n best then n else best) rest

/-- The next state of the random number generator. -/
def nextRandom (x : UInt64) : UInt64 :=
  let x := x ^^^ (x <<< 13)
  let x := x ^^^ (x >>> 7)
  x ^^^ (x <<< 17)

/-- The number in `[0, 1)` that a state of the random number generator stands for. -/
def randomNumber (x : UInt64) : Number :=
  .ofFloat (Binary64.ofRatio ((x * 0x2545F4914F6CDD1D) >>> 11).toNat (2 ^ 53))

/-- Applies a function of `Math`. -/
def applyMath (f : MathFunction) (args : List Value) : Script Value := do
  match f with
  | .real f =>
    let x ← toNumber (argument args 0)
    return .ofFloat (realFunction f x.toFloat)
  | .atan2 =>
    let y ← toNumber (argument args 0)
    let x ← toNumber (argument args 1)
    return .ofFloat (Float.atan2 y.toFloat x.toFloat)
  | .pow =>
    let x ← toNumber (argument args 0)
    let y ← toNumber (argument args 1)
    return .number (power x y)
  | .max => extreme (fun n best => best.lessThan? n == some true) .negInf args
  | .min => extreme (fun n best => n.lessThan? best == some true) .posInf args
  | .random =>
    modify fun m => { m with random := nextRandom m.random }
    read fun m => .number (randomNumber m.random)

end PageScript.Script
