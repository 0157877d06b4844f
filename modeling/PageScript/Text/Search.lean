/-! # Searching text

Positions in a text count its characters.  `findFrom` and `findLast` look for a text in another one;
`splitAt`, `splitWhere` and `lines` cut a text at every separator.
-/

set_option autoImplicit false

namespace PageScript.Text

/-- The first position at which `needle` occurs in a text whose first character has position `i`. -/
def findFrom (needle : List Char) (i : Nat) : List Char → Option Nat
  | [] => if needle.isEmpty then some i else none
  | c :: cs => if needle.isPrefixOf (c :: cs) then some i else findFrom needle (i + 1) cs

theorem le_of_findFrom {needle cs : List Char} {i j : Nat} (h : findFrom needle i cs = some j) :
    i ≤ j ∧ j + needle.length ≤ i + cs.length := by
  induction cs generalizing i with
  | nil =>
    simp only [findFrom, List.isEmpty_iff] at h
    split at h <;> simp_all
  | cons c cs ih =>
    simp only [findFrom] at h
    split at h
    case isTrue hp =>
      have := (List.isPrefixOf_iff_prefix.1 hp).length_le
      simp only [Option.some.injEq] at h
      omega
    case isFalse =>
      have := ih h
      simp only [List.length_cons]
      omega

/-- The last position up to `limit` at which `needle` occurs in a text whose first character has
position `i`. -/
def findLast (needle : List Char) (limit : Nat) (i : Nat) : List Char → Option Nat
  | [] => if needle.isEmpty then some i else none
  | c :: cs =>
    match if i < limit then findLast needle limit (i + 1) cs else none with
    | some j => some j
    | none => if needle.isPrefixOf (c :: cs) then some i else none

/-- The pieces of a text between the occurrences of a separator, which is not empty. -/
def splitAt (sep : List Char) (hsep : 0 < sep.length) (cs : List Char) : List (List Char) :=
  match _h : findFrom sep 0 cs with
  | none => [cs]
  | some i => cs.take i :: splitAt sep hsep (cs.drop (i + sep.length))
termination_by cs.length
decreasing_by
  have := le_of_findFrom _h
  rw [List.length_drop]
  omega

/-- The pieces of a text between the characters of a kind. -/
def splitWhere (p : Char → Bool) : List Char → List (List Char)
  | [] => [[]]
  | c :: cs =>
    if p c then [] :: splitWhere p cs
    else
      match splitWhere p cs with
      | piece :: rest => (c :: piece) :: rest
      | [] => [[c]]

/-- The lines of a text, each without the line feed that ends it. -/
def lines (cs : List Char) : List (List Char) :=
  let pieces := splitWhere (· == '\n') cs
  if pieces.getLast? == some [] then pieces.dropLast else pieces

end PageScript.Text
