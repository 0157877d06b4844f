import PageScript.Number.Basic

/-! # Positions

Whole numbers that may be infinite, as they arise from an argument that names a position or a count in
something of known length.
-/

set_option autoImplicit false

namespace PageScript

/-- A whole number or an infinity. -/
inductive Position where
  | before
  | at (i : Int)
  | after

namespace Position

/-- The whole part of a number; NaN counts as zero. -/
def ofNumber : Number → Position
  | .finite x => .at (Binary64.toInt x)
  | .nan => .at 0
  | .negInf => .before
  | .posInf => .after

/-- The nearest position from `0` to `length`. -/
def clamp (length : Nat) : Position → Nat
  | .before => 0
  | .at i => min i.toNat length
  | .after => length

/-- A position counted from the end if it is negative, moved into `0` to `length`. -/
def fromEnd (length : Nat) : Position → Nat
  | .before => 0
  | .at i => if i < 0 then (length + i).toNat else min i.toNat length
  | .after => length

/-- A position that is neither negative nor infinite. -/
def nat? : Position → Option Nat
  | .at i => if i < 0 then none else some i.toNat
  | _ => none

end Position

end PageScript
