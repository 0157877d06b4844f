import PageScript.Number.Reading

/-! # Numbers in another radix

The digits of a finite double in a radix from 2 to 36.  The whole part is exact below `2 ^ 53`; above
that the digits come from repeated division of doubles.  At most twenty fraction digits are written.
-/

set_option autoImplicit false

namespace PageScript.Number

/-- The digits of a natural number, last digit first; zero has one digit. -/
def wholeDigits (radix : Nat) (n : Nat) : List Nat :=
  if _h : radix < 2 ∨ n < radix then [n]
  else n % radix :: wholeDigits radix (n / radix)
termination_by n
decreasing_by exact Nat.div_lt_self (by omega) (by omega)

/-- The digits of a whole double, last digit first, by division of doubles down to `2 ^ 53`.
`limit` bounds the divisions: a double has fewer than 1024 binary digits. -/
def largeDigits (radix : Nat) : Nat → Float → List Nat
  | 0, _ => []
  | limit + 1, x =>
    if Binary64.magnitude x < 2 ^ 53 then wholeDigits radix (Binary64.magnitude x)
    else
      let base := Binary64.ofNat radix
      Binary64.magnitude (Binary64.remainder x base) ::
        largeDigits radix limit (Binary64.truncate (x / base))

/-- Digits of a fraction below one, first digit first, until nothing is left. -/
def fractionDigits (radix : Nat) : Nat → Float → List Nat
  | 0, _ => []
  | limit + 1, x =>
    if x ≤ 0.0 then []
    else
      let scaled := x * Binary64.ofNat radix
      let d := Binary64.magnitude scaled
      d :: fractionDigits radix limit (scaled - Binary64.ofNat d)

/-- A finite double in a radix. -/
def radixText (x : Float) (radix : Nat) : String :=
  let whole := Binary64.truncate x.abs
  let ds := (largeDigits radix 1100 whole).reverse
  let fraction := fractionDigits radix 20 (x.abs - whole)
  let sign := if x < 0.0 then "-" else ""
  let point := if fraction.isEmpty then "" else "."
  sign ++ String.ofList (ds.map Digit.char) ++ point ++ String.ofList (fraction.map Digit.char)

end PageScript.Number
