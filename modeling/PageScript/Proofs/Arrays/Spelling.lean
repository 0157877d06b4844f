import PageScript.Proofs.Arrays.Indices

/-! # The one spelling of an array index

Whether a name is an index can be decided in machine words: its digits are read into 64 bits, and reading stops
where a number no longer fits.  However long the name, this comes to the same as reading it as a number without
bounds, and each index has just one name.
-/

set_option autoImplicit false

namespace PageScript

namespace Digit

variable {c : Char} {cs : List Char}

/-- The word that decimal digits spell behind others, which spell `n`.  The multiplication and the addition of
each digit are checked; there is none if the number does not fit. -/
def toWordAfter? (n : UInt64) : List Char → Option UInt64
  | [] => some n
  | c :: cs =>
    if n.toNat * 10 < UInt64.size then
      if (n * 10).toNat + (c.toNat - 48) < UInt64.size then
        toWordAfter? (n * 10 + UInt64.ofNat (c.toNat - 48)) cs
      else none
    else none

/-- The word that decimal digits spell. -/
def toWord? (cs : List Char) : Option UInt64 := toWordAfter? 0 cs

theorem le_foldl (n : Nat) (cs : List Char) : n ≤ cs.foldl (fun n c => n * 10 + (c.toNat - 48)) n := by
  induction cs generalizing n with
  | nil => exact Nat.le_refl n
  | cons c cs ih => exact Nat.le_trans (by omega) (ih (n * 10 + (c.toNat - 48)))

/-- Digits spell a word just if the number that they spell fits, and then that number. -/
theorem toWordAfter?_eq (n : UInt64) (cs : List Char) :
    (toWordAfter? n cs).map UInt64.toNat =
      (some (cs.foldl (fun n c => n * 10 + (c.toNat - 48)) n.toNat)).filter (· < UInt64.size) := by
  induction cs generalizing n with
  | nil =>
    have hfits : decide (n.toNat < UInt64.size) = true := decide_eq_true n.toNat_lt_size
    rw [List.foldl_nil, Option.filter_some, if_pos hfits]
    rfl
  | cons c cs ih =>
    rw [toWordAfter?, List.foldl_cons]
    -- A number that is too large once stays too large, whatever digits follow.
    have hlarge : UInt64.size ≤ n.toNat * 10 + (c.toNat - 48) →
        (some (cs.foldl (fun n c => n * 10 + (c.toNat - 48)) (n.toNat * 10 + (c.toNat - 48)))).filter
          (· < UInt64.size) = none := fun hle => by
      refine Option.filter_eq_none_iff.2 fun v hv => ?_
      cases hv
      rw [decide_eq_true_eq, Nat.not_lt]
      exact Nat.le_trans hle (le_foldl _ cs)
    split
    · rename_i hfits
      have hten : (n * 10).toNat = n.toNat * 10 := by
        rw [UInt64.toNat_mul]
        exact Nat.mod_eq_of_lt hfits
      rw [hten]
      split
      · rename_i hsum
        have hnext : (n * 10 + UInt64.ofNat (c.toNat - 48)).toNat = n.toNat * 10 + (c.toNat - 48) := by
          rw [UInt64.toNat_add, hten, UInt64.toNat_ofNat', Nat.add_mod_mod]
          exact Nat.mod_eq_of_lt hsum
        rw [ih, hnext]
      · rename_i hsum
        exact (hlarge (Nat.not_lt.1 hsum)).symm
    · rename_i hfits
      exact (hlarge (by omega)).symm

end Digit

namespace ArrayIndex

/-- The index that a property name spells, read in words of 64 bits. -/
def ofNameInWords? (s : String) : Option Nat :=
  let cs := s.toList
  if cs.isEmpty || !cs.all Digit.isDecimal then none
  else if 1 < cs.length && cs.head? == some '0' then none
  else (Digit.toWord? cs).bind fun n => if n < 4294967295 then some n.toNat else none

theorem ofNameInWords?_eq (s : String) : ofNameInWords? s = ofName? s := by
  unfold ofNameInWords? ofName?
  dsimp only
  split
  · rfl
  · split
    · rfl
    · have hword : (Digit.toWord? s.toList).map UInt64.toNat = _ := Digit.toWordAfter?_eq 0 s.toList
      rw [UInt64.toNat_zero, ← Digit.toNat_eq_foldl] at hword
      generalize Digit.toNat s.toList = v at hword ⊢
      cases hn : Digit.toWord? s.toList with
      | none =>
        rw [hn] at hword
        have hlarge := Option.filter_eq_none_iff.1 hword.symm v rfl
        rw [decide_eq_true_eq, Nat.not_lt] at hlarge
        refine (if_neg (Nat.not_lt.2 (Nat.le_trans ?_ hlarge))).symm
        decide
      | some n =>
        rw [hn] at hword
        obtain ⟨hv, -⟩ := Option.filter_eq_some_iff.1 hword.symm
        cases hv
        rfl

/-- A name spells an index just if it is the decimal text of that index and the index is below the limit, and the
words of 64 bits in which it is read never run over.  So each index has one name, and each name one index. -/
theorem ofName?_spelling (s : String) (i : Nat) :
    (ofName? s = some i ↔ i < 2 ^ 32 - 1 ∧ s = name i) ∧ ofNameInWords? s = ofName? s ∧
      (ofName? s = some i → ∀ t, ofName? t = some i → t = s) := by
  refine ⟨ofName?_eq_some_iff, ofNameInWords?_eq s, fun hs t ht => ?_⟩
  rw [(ofName?_eq_some_iff.1 hs).2]
  exact (ofName?_eq_some_iff.1 ht).2

/-- At the limit, beyond 64 bits and with a zero in front there is no index. -/
example : ofName? "4294967294" = some 4294967294 ∧ ofName? "4294967295" = none ∧
    ofNameInWords? "18446744073709551616" = none ∧ ofName? "007" = none := by decide

end ArrayIndex

end PageScript
