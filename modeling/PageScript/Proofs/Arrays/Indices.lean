import Mathlib.Data.List.Induction
import PageScript.Proofs.Elements

/-! # Array indices and their names

A number below the limit has one spelling as the name of a property, and a name spells one index at most.
So the indices of an object are told by the names of its variables, and `Heap.indices` lists them all.
-/

set_option autoImplicit false

namespace PageScript

/-! ## Spelling -/

namespace Digit

variable {c : Char} {cs : List Char}

theorem toNat_append (cs : List Char) (c : Char) :
    toNat (cs ++ [c]) = toNat cs * 10 + (c.toNat - 48) := by
  rw [toNat_eq_foldl, toNat_eq_foldl, List.foldl_append]
  rfl

/-- A decimal digit is the one of its value. -/
theorem digitChar_of_isDecimal (hc : isDecimal c = true) :
    c.toNat - 48 < 10 ∧ Nat.digitChar (c.toNat - 48) = c := by
  unfold isDecimal at hc
  rw [Bool.and_eq_true, decide_eq_true_eq, decide_eq_true_eq] at hc
  obtain ⟨hlo, hhi⟩ := hc
  have hlo : 48 ≤ c.toNat := hlo
  have hhi : c.toNat ≤ 57 := hhi
  obtain ⟨d, hd⟩ : ∃ d, c.toNat = 48 + d := ⟨c.toNat - 48, by omega⟩
  have hlt : d < 10 := by omega
  have hc : c = Char.ofNat (48 + d) := by rw [← hd, Char.ofNat_toNat]
  rw [hd, Nat.add_sub_cancel_left]
  refine ⟨hlt, ?_⟩
  rw [hc]
  clear hd hc
  revert d
  decide

theorem isDecimal_of_isDigit (hc : c.isDigit = true) : isDecimal c = true := by
  rw [Char.isDigit_iff_toNat] at hc
  unfold isDecimal
  rw [Bool.and_eq_true, decide_eq_true_eq, decide_eq_true_eq]
  exact hc

theorem toNat_toDigits (n : Nat) : toNat (Nat.toDigits 10 n) = n := by
  rw [toNat_eq_foldl]
  conv_rhs => rw [← Nat.ofDigitChars_ten_toDigits (n := n)]
  rw [Nat.ofDigitChars_eq_foldl]
  congr 1
  funext m c
  rw [Nat.mul_comm]
  rfl

/-- Digits spell no number twice, but for zeros in front. -/
theorem toDigits_toNat (hdecimal : ∀ c ∈ cs, isDecimal c = true) (hne : cs ≠ [])
    (hzero : 1 < cs.length → cs.head? ≠ some '0') : Nat.toDigits 10 (toNat cs) = cs := by
  induction cs using List.reverseRecOn with
  | nil => exact absurd rfl hne
  | append_singleton cs c ih =>
    obtain ⟨hlt, hchar⟩ := digitChar_of_isDecimal (hdecimal c (by simp))
    rw [toNat_append]
    cases cs with
    | nil =>
      show Nat.toDigits 10 (0 * 10 + _) = _
      rw [Nat.zero_mul, Nat.zero_add, Nat.toDigits_of_lt_base hlt, hchar]
      rfl
    | cons d rest =>
      have hhead : (d :: rest).head? ≠ some '0' := hzero (by simp)
      have ih := ih (fun x hx => hdecimal x (List.mem_append_left _ hx)) (List.cons_ne_nil _ _)
        fun _ => hhead
      -- With no zero in front, the digits before the last one spell a positive number.
      have hpos : toNat (d :: rest) ≠ 0 := by
        intro hnil
        rw [hnil] at ih
        cases ih
        exact hhead rfl
      rw [Nat.toDigits_of_base_le (by decide) (by omega),
        show (toNat (d :: rest) * 10 + (c.toNat - 48)) / 10 = toNat (d :: rest) by omega,
        show (toNat (d :: rest) * 10 + (c.toNat - 48)) % 10 = c.toNat - 48 by omega, ih, hchar]

end Digit

namespace ArrayIndex

variable {s : String} {i j : Nat}

theorem head?_toDigits (n : Nat) (h : 1 < (Nat.toDigits 10 n).length) :
    (Nat.toDigits 10 n).head? ≠ some '0' := by
  induction n using Nat.strongRecOn with
  | ind n ih =>
    by_cases hn : n < 10
    · rw [Nat.toDigits_of_lt_base hn] at h
      exact absurd h (by simp)
    · rw [Nat.toDigits_of_base_le (by decide) (by omega),
        List.head?_append_of_ne_nil _ Nat.toDigits_ne_nil]
      by_cases hten : n / 10 < 10
      · rw [Nat.toDigits_of_lt_base hten]
        have hpos : 0 < n / 10 := by omega
        revert hpos hten
        generalize n / 10 = d
        intro hten hpos
        revert d
        decide
      · refine ih (n / 10) (by omega) ?_
        rw [Nat.toDigits_of_base_le (by decide) (by omega), List.length_append]
        have := Nat.length_toDigits_pos (b := 10) (n := n / 10 / 10)
        simp only [List.length_singleton]
        omega

/-- A name spells an index exactly if it is the name of the index. -/
theorem ofName?_eq_some_iff : ofName? s = some i ↔ i < limit ∧ s = name i := by
  constructor
  · intro h
    unfold ofName? at h
    dsimp only at h
    split at h
    · cases h
    rename_i hdigits
    split at h
    · cases h
    rename_i hzero
    split at h
    · rename_i hlt
      cases h
      rw [Bool.or_eq_true, not_or, Bool.not_eq_true, List.isEmpty_eq_false_iff, Bool.not_eq_true',
        Bool.not_eq_false, List.all_eq_true] at hdigits
      refine ⟨hlt, String.toList_inj.1 ?_⟩
      rw [toList_name]
      refine (Digit.toDigits_toNat hdigits.2 hdigits.1 fun hlength hhead => hzero ?_).symm
      rw [Bool.and_eq_true, decide_eq_true_eq, beq_iff_eq]
      exact ⟨hlength, hhead⟩
    · cases h
  · rintro ⟨hlt, rfl⟩
    unfold ofName?
    dsimp only
    have hdecimal : (name i).toList.all Digit.isDecimal = true :=
      List.all_eq_true.2 fun c hc => Digit.isDecimal_of_isDigit (isDigit_of_mem_name hc)
    have hne : (name i).toList.isEmpty = false := by
      rw [toList_name, List.isEmpty_eq_false_iff]
      exact Nat.toDigits_ne_nil
    rw [hdecimal, hne, if_neg (by decide), if_neg, toList_name, Digit.toNat_toDigits, if_pos hlt]
    rw [Bool.and_eq_true, decide_eq_true_eq, beq_iff_eq, toList_name]
    exact fun h => head?_toDigits i h.1 h.2

theorem ofName?_name (hi : i < limit) : ofName? (name i) = some i := ofName?_eq_some_iff.2 ⟨hi, rfl⟩

theorem ofName?_length : ofName? "length" = none := by decide

end ArrayIndex

/-! ## Indices of an object -/

theorem mem_eraseReps_loop_iff {rest taken : List Nat} {last i : Nat} :
    i ∈ List.eraseRepsBy.loop (· == ·) last rest taken ↔ i ∈ taken ∨ i ∈ last :: rest := by
  refine ⟨mem_eraseReps_loop, fun hi => ?_⟩
  induction rest generalizing last taken with
  | nil =>
    refine List.mem_reverse.2 ?_
    rcases hi with hi | hi
    · exact .tail _ hi
    · cases List.mem_singleton.1 hi
      exact .head _
  | cons j rest ih =>
    unfold List.eraseRepsBy.loop
    split
    · rename_i heq
      cases beq_iff_eq.1 heq
      refine ih (hi.imp_right fun hi => ?_)
      rcases List.mem_cons.1 hi with rfl | hi
      · exact .head _
      · exact hi
    · refine ih ?_
      rcases hi with hi | hi
      · exact .inl (.tail _ hi)
      · rcases List.mem_cons.1 hi with rfl | hi
        · exact .inl (.head _)
        · exact .inr hi

namespace Heap

/-- The indices below a limit that an object and its prototypes have names for. -/
theorem mem_indices {h : Heap} {id : ObjectId} {limit i : Nat} :
    i ∈ h.indices id limit ↔ i < limit ∧
      ∃ p ∈ h.chain id, ∃ x ∈ p.2.members, ArrayIndex.ofName? x.name = some i := by
  have hall : i ∈ h.indices id limit ↔ i ∈ (h.chain id).flatMap fun x =>
      x.2.members.toList.filterMap fun v => (ArrayIndex.ofName? v.name).filter (· < limit) := by
    refine Iff.trans ?_ (List.mergeSort_perm _ (fun i j : Nat => decide (i ≤ j))).mem_iff
    unfold indices
    dsimp only
    generalize List.mergeSort _ _ = sorted
    cases sorted with
    | nil => exact Iff.rfl
    | cons j rest =>
      exact mem_eraseReps_loop_iff.trans (or_iff_right List.not_mem_nil)
  rw [hall, List.mem_flatMap]
  constructor
  · rintro ⟨p, hp, hi⟩
    obtain ⟨x, hx, hindex⟩ := List.mem_filterMap.1 hi
    obtain ⟨hindex, hlt⟩ := Option.filter_eq_some_iff.1 hindex
    exact ⟨of_decide_eq_true hlt, p, hp, x, Array.mem_toList_iff.1 hx, hindex⟩
  · rintro ⟨hlt, p, hp, x, hx, hindex⟩
    exact ⟨p, hp, List.mem_filterMap.2 ⟨x, Array.mem_toList_iff.2 hx,
      Option.filter_eq_some_iff.2 ⟨hindex, decide_eq_true hlt⟩⟩⟩

end Heap

end PageScript
