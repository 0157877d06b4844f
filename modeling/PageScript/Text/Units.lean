/-! # UTF-16 code units

Some functions take and give text as 16-bit units.  A character beyond the basic plane is a pair of
units; a unit of a pair that stands alone is read as the replacement character.
-/

set_option autoImplicit false

namespace PageScript.Text

/-- The code units of a character. -/
def unitsOfChar (c : Char) : List Nat :=
  let n := c.toNat
  if n < 0x10000 then [n]
  else [0xd800 + (n - 0x10000) / 0x400, 0xdc00 + (n - 0x10000) % 0x400]

/-- Whether a unit is the first of a pair. -/
def isHighUnit (u : Nat) : Bool := 0xd800 ≤ u && u < 0xdc00

/-- Whether a unit is the second of a pair. -/
def isLowUnit (u : Nat) : Bool := 0xdc00 ≤ u && u < 0xe000

/-- The character of a pair of units. -/
def charOfPair (high low : Nat) : Char :=
  Char.ofNat (0x10000 + (high - 0xd800) * 0x400 + (low - 0xdc00))

/-- The characters that units spell. -/
def charsOfUnits : List Nat → List Char
  | [] => []
  | [u] => [if isHighUnit u || isLowUnit u then '\uFFFD' else Char.ofNat u]
  | u :: v :: rest =>
    if isHighUnit u then
      if isLowUnit v then charOfPair u v :: charsOfUnits rest
      else '\uFFFD' :: charsOfUnits (v :: rest)
    else if isLowUnit u then '\uFFFD' :: charsOfUnits (v :: rest)
    else Char.ofNat u :: charsOfUnits (v :: rest)

/-! ## Escaped text -/

/-- A hexadecimal digit in upper case. -/
def upperHexDigit (d : Nat) : Char := if d < 10 then Char.ofNat (48 + d) else Char.ofNat (55 + d)

/-- Two hexadecimal digits. -/
def twoHexDigits (n : Nat) : List Char := [upperHexDigit (n / 16 % 16), upperHexDigit (n % 16)]

/-- The characters that are never escaped. -/
def isEscapeSafe (c : Char) : Bool := c.isAlphanum || "@*_+-./".toList.contains c

/-- The escape of a unit: two digits if they suffice, or else four. -/
def escapeUnit (u : Nat) : List Char :=
  if u < 0x100 then '%' :: twoHexDigits u
  else '%' :: 'u' :: twoHexDigits (u / 256) ++ twoHexDigits u

/-- Escapes the units of every character that is not safe. -/
def escape (cs : List Char) : List Char :=
  cs.flatMap fun c => if isEscapeSafe c then [c] else (unitsOfChar c).flatMap escapeUnit

/-- The value of a hexadecimal digit. -/
def hexValue? (c : Char) : Option Nat :=
  if '0' ≤ c ∧ c ≤ '9' then some (c.toNat - 48)
  else if 'a' ≤ c ∧ c ≤ 'f' then some (c.toNat - 87)
  else if 'A' ≤ c ∧ c ≤ 'F' then some (c.toNat - 55)
  else none

/-- The number that hexadecimal digits spell. -/
def hexNumber? (cs : List Char) : Option Nat :=
  cs.foldlM (fun n c => (hexValue? c).map (n * 16 + ·)) 0

/-- The unit of the escape at the front of a text, and what follows it. -/
def readEscapedUnit? : List Char → Option (Nat × List Char)
  | '%' :: 'u' :: a :: b :: c :: d :: rest => (hexNumber? [a, b, c, d]).map (·, rest)
  | '%' :: a :: b :: rest => (hexNumber? [a, b]).map (·, rest)
  | _ => none

/-- The units of an escaped text; what is no escape stands for itself. -/
def unescapeUnits : Nat → List Char → List Nat
  | 0, _ => []
  | _, [] => []
  | limit + 1, c :: cs =>
    match readEscapedUnit? (c :: cs) with
    | some (u, rest) => u :: unescapeUnits limit rest
    | none => unitsOfChar c ++ unescapeUnits limit cs

/-- The text that an escaped text stands for. -/
def unescape (cs : List Char) : List Char := charsOfUnits (unescapeUnits cs.length cs)

end PageScript.Text
