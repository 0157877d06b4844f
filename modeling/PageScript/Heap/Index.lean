import PageScript.Number.Reading

/-! # Array indices as property names

An array index below `2 ^ 32 - 1` has exactly one spelling: its decimal digits without leading zeros.
-/

set_option autoImplicit false

namespace PageScript.ArrayIndex

/-- The first number that is no index. -/
def limit : Nat := 2 ^ 32 - 1

/-- The property name of an index. -/
def name (i : Nat) : String := Nat.repr i

/-- The index that a property name spells. -/
def ofName? (s : String) : Option Nat :=
  let cs := s.toList
  if cs.isEmpty || !cs.all Digit.isDecimal then none
  else if 1 < cs.length && cs.head? == some '0' then none
  else
    let n := Digit.toNat cs
    if n < limit then some n else none

end PageScript.ArrayIndex
