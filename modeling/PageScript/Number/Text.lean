import PageScript.Number.Basic
import PageScript.Number.Shortest

/-! # Numbers as text

A layout says how a decimal is spelled: which magnitudes are written positionally, whether a whole
number keeps its point, and how an exponent looks.  `Number.text` is how scripts see a number;
`Number.quoted` is how a message quotes a numeric token.
-/

set_option autoImplicit false

namespace PageScript

namespace Decimal

/-- How a decimal is spelled.  A value in `[10 ^ (k - 1), 10 ^ k)` is written positionally when
`leastPositional ≤ k ≤ mostPositional`. -/
structure Layout where
  leastPositional : Int
  mostPositional : Int
  keepsPoint : Bool
  exponentPlus : Bool
  tie : Tie

/-- The decimal digits of a natural number, first digit first. -/
def digits (n : Nat) : String := Nat.repr n

/-- A run of zeros. -/
def zeros (n : Nat) : String := String.ofList (List.replicate n '0')

/-- Spells a positive decimal. -/
def spell (layout : Layout) (d : Scientific) : String :=
  let ds := (digits d.coefficient).toList
  let n : Int := ds.length
  let k := n + d.power
  if layout.leastPositional ≤ k ∧ k ≤ layout.mostPositional then
    if n ≤ k then
      String.ofList ds ++ zeros (k - n).toNat ++ (if layout.keepsPoint then ".0" else "")
    else if 0 < k then
      String.ofList (ds.take k.toNat) ++ "." ++ String.ofList (ds.drop k.toNat)
    else
      "0." ++ zeros (-k).toNat ++ String.ofList ds
  else
    let e := k - 1
    let sign := if e < 0 then "-" else if layout.exponentPlus then "+" else ""
    let point := if ds.length = 1 then "" else "."
    String.ofList (ds.take 1) ++ point ++ String.ofList (ds.drop 1) ++ "e" ++ sign
      ++ digits e.natAbs

/-- Spells the magnitude of a finite double that is not zero. -/
def spellMagnitude (layout : Layout) (x : Float) : String :=
  let d := Binary64.dyadic x
  spell layout (shortest layout.tie d.significand d.power)

end Decimal

namespace Number

/-- Scripts write magnitudes from `10 ^ -6` up to below `10 ^ 21` positionally; other exponents
carry their sign. -/
def scriptLayout : Decimal.Layout :=
  { leastPositional := -5, mostPositional := 21, keepsPoint := false, exponentPlus := true,
    tie := .toEven }

/-- Quoted tokens write magnitudes from `10 ^ -4` up to below `10 ^ 16` positionally and always
with a point; exponents carry only a minus sign. -/
def quotedLayout : Decimal.Layout :=
  { leastPositional := -3, mostPositional := 16, keepsPoint := true, exponentPlus := false,
    tie := .up }

/-- Whole numbers of magnitude below `2 ^ 53` are written in full. -/
def finiteText (x : Float) : String :=
  let sign := if Binary64.isNegative x then "-" else ""
  if Binary64.isWhole x && Binary64.magnitude x < 2 ^ 53 then
    if Binary64.magnitude x = 0 then "0" else sign ++ Decimal.digits (Binary64.magnitude x)
  else sign ++ Decimal.spellMagnitude scriptLayout x

/-- The text of a number in a script; negative zero is written without its sign. -/
def text : Number → String
  | .finite x => finiteText x
  | .nan => "NaN"
  | .posInf => "Infinity"
  | .negInf => "-Infinity"

/-- The text of a numeric token in a message. -/
def quoted : Number → String
  | .finite x =>
    let sign := if Binary64.isNegative x then "-" else ""
    if x == 0.0 then sign ++ "0.0" else sign ++ Decimal.spellMagnitude quotedLayout x
  | .nan => "NaN"
  | .posInf => "inf"
  | .negInf => "-inf"

end Number

end PageScript
