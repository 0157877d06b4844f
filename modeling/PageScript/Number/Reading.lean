import PageScript.Number.Basic
import PageScript.Text.Blank

/-! # Reading numbers

`readDecimal` reads the longest decimal numeral at the front of a text; a complete numeral is one
that leaves nothing over.  On it stand the conversion of a whole text (`ofText`), of the front of a
text (`ofFront`), and, with digits of any radix, `ofDigits` and `ofRadixText`.
-/

set_option autoImplicit false

namespace PageScript

namespace Digit

/-- The value of a digit, letters counting from ten up, if it is one in the radix. -/
def value? (radix : Nat) (c : Char) : Option Nat :=
  let v? :=
    if '0' ≤ c ∧ c ≤ '9' then some (c.toNat - 48)
    else if 'a' ≤ c ∧ c ≤ 'z' then some (c.toNat - 87)
    else if 'A' ≤ c ∧ c ≤ 'Z' then some (c.toNat - 55)
    else none
  v?.filter (· < radix)

/-- The values of the digits at the front of a text. -/
def values (radix : Nat) : List Char → List Nat
  | [] => []
  | c :: cs =>
    match value? radix c with
    | some d => d :: values radix cs
    | none => []

/-- Whether a character is a decimal digit. -/
def isDecimal (c : Char) : Bool := '0' ≤ c && c ≤ '9'

/-- The natural number that decimal digits spell behind others.  Those before them spell `high`, but
for the last few, which spell `low` and make up a numeral below `unit`.  So a long number is multiplied
only once for several digits. -/
def toNatAfter (high low unit : Nat) : List Char → Nat
  | [] => high * unit + low
  | c :: cs =>
    if unit < 10 ^ 17 then toNatAfter high (low * 10 + (c.toNat - 48)) (unit * 10) cs
    else toNatAfter (high * unit + low) (c.toNat - 48) 10 cs

/-- The natural number that decimal digits spell; `0` for none. -/
def toNat (cs : List Char) : Nat := toNatAfter 0 0 1 cs

theorem toNatAfter_eq_foldl (high low unit : Nat) (cs : List Char) :
    toNatAfter high low unit cs =
      cs.foldl (fun n c => n * 10 + (c.toNat - 48)) (high * unit + low) := by
  induction cs generalizing high low unit with
  | nil => rfl
  | cons c cs ih =>
    rw [toNatAfter, List.foldl_cons]
    split
    · rw [ih]
      congr 1
      rw [Nat.add_mul, Nat.mul_assoc, Nat.add_assoc]
    · rw [ih]

/-- Each digit makes the number before it ten times as large. -/
theorem toNat_eq_foldl (cs : List Char) :
    toNat cs = cs.foldl (fun n c => n * 10 + (c.toNat - 48)) 0 := by
  rw [toNat, toNatAfter_eq_foldl]

/-- The digit of a value, in lower case. -/
def char (v : Nat) : Char :=
  if v < 10 then Char.ofNat (48 + v) else if v < 36 then Char.ofNat (87 + v) else '0'

end Digit

/-! ## Decimal numerals -/

/-- A decimal numeral without its sign: the digits before and after the point, and the exponent. -/
structure Numeral where
  whole : List Char
  fraction : List Char
  exponent : Int
  deriving DecidableEq, Repr

namespace Numeral

/-- The double nearest to a numeral. -/
def toFloat (n : Numeral) : Float :=
  let power := n.exponent - n.fraction.length
  Binary64.ofDecimal (Digit.toNat (n.whole ++ n.fraction)) power

end Numeral

/-- Splits off an exponent if one is complete: a mark, a sign or none, and at least one digit. -/
def readExponent (cs : List Char) : Int × List Char :=
  match cs with
  | [] => (0, [])
  | mark :: rest =>
    if mark == 'e' || mark == 'E' then
      let (negative, digits) :=
        match rest with
        | '-' :: more => (true, more)
        | '+' :: more => (false, more)
        | _ => (false, rest)
      let ds := digits.takeWhile Digit.isDecimal
      if ds.isEmpty then (0, cs)
      else
        let n : Int := Digit.toNat ds
        (if negative then -n else n, digits.dropWhile Digit.isDecimal)
    else (0, cs)

/-- The longest numeral without a sign at the front of a text, and what follows it.  It needs a
digit before or after the point. -/
def readDecimal? (cs : List Char) : Option (Numeral × List Char) :=
  let whole := cs.takeWhile Digit.isDecimal
  let rest := cs.dropWhile Digit.isDecimal
  let (fraction, rest) :=
    match rest with
    | '.' :: more => (more.takeWhile Digit.isDecimal, more.dropWhile Digit.isDecimal)
    | _ => ([], rest)
  if whole.isEmpty && fraction.isEmpty then none
  else
    let (exponent, rest) := readExponent rest
    some (⟨whole, fraction, exponent⟩, rest)

/-- Splits off a sign, and says whether it is a minus. -/
def readSign : List Char → Bool × List Char
  | '-' :: rest => (true, rest)
  | '+' :: rest => (false, rest)
  | cs => (false, cs)

namespace Number

/-- The number of a numeral under a sign. -/
def ofNumeral (negative : Bool) (n : Numeral) : Number :=
  ofFloat (if negative then -n.toFloat else n.toFloat)

/-- The number spelled by the whole of a text: a numeral without a sign. -/
def ofLiteral? (cs : List Char) : Option Number :=
  match readDecimal? cs with
  | some (n, []) => some (ofNumeral false n)
  | _ => none

/-! ## Digits of any radix -/

/-- Reads digits after the whole number `n`.  Up to `2 ^ 53` this is exact; from there on each digit
rounds. -/
def ofDigitsAfter (radix : Nat) (n : Nat) : List Nat → Float
  | [] => Binary64.ofNat n
  | d :: ds =>
    if n * radix + d < 2 ^ 53 then ofDigitsAfter radix (n * radix + d) ds
    else
      (d :: ds).foldl (fun x d => x * Binary64.ofNat radix + Binary64.ofNat d) (Binary64.ofNat n)

/-- The number spelled by digits of a radix, first digit first. -/
def ofDigits (radix : Nat) (ds : List Nat) : Float := ofDigitsAfter radix 0 ds

/-! ## Conversions of text -/

/-- What follows a hexadecimal mark at the front of a text. -/
def afterHexMark? : List Char → Option (List Char)
  | '0' :: 'x' :: rest | '0' :: 'X' :: rest => some rest
  | _ => none

/-- The name of infinity. -/
def infinityName : List Char := "Infinity".toList

/-- The number of a whole text.  Blanks around it are ignored and an empty text is zero; a
hexadecimal numeral has no sign. -/
def ofText (s : String) : Number :=
  let cs := Text.trim s.toList
  if cs.isEmpty then zero
  else
    match afterHexMark? cs with
    | some hex =>
      let ds := Digit.values 16 hex
      if hex.isEmpty || ds.length ≠ hex.length then .nan else ofFloat (ofDigits 16 ds)
    | none =>
      let (negative, rest) := readSign cs
      if rest = infinityName then infinity negative
      else
        match readDecimal? rest with
        | some (n, []) => ofNumeral negative n
        | _ => .nan

/-- The number of the longest numeral at the front of a text, after its blanks. -/
def ofFront (s : String) : Number :=
  let (negative, rest) := readSign (Text.trimStart s.toList)
  if (Text.after? infinityName rest).isSome then infinity negative
  else
    match readDecimal? rest with
    | some (n, _) => ofNumeral negative n
    | none => .nan

/-- The whole number at the front of a text in a radix from 2 to 36.  Radix zero stands for ten, or
for sixteen if the text has a hexadecimal mark. -/
def ofRadixText (s : String) (radix : Int) : Number :=
  let (negative, rest) := readSign (Text.trimStart s.toList)
  if radix ≠ 0 ∧ ¬(2 ≤ radix ∧ radix ≤ 36) then .nan
  else
    let (base, rest) :=
      match afterHexMark? rest with
      | some hex =>
        if radix = 0 ∨ radix = 16 then (16, hex) else (radix.toNat, rest)
      | none => (if radix = 0 then 10 else radix.toNat, rest)
    let ds := Digit.values base rest
    if ds.isEmpty then .nan
    else ofFloat (if negative then -ofDigits base ds else ofDigits base ds)

end Number

end PageScript
