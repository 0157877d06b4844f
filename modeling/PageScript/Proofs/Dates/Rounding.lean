import PageScript.Proofs.Whole

/-! # Rounded integers

Sums and products of whole doubles are exact up to `2 ^ 53`.  Beyond it a rounded integer stays within a factor
of two and does not come back below `2 ^ 53`.
-/

set_option autoImplicit false

namespace PageScript.Binary64

variable {n m d : Nat} {x y z i : Int}

/-- Rounding goes to one of the two neighbouring multiples of the unit. -/
theorem roundedUnits_near (num den : Nat) (power : Int) :
    let quotient := num * 2 ^ (-power).toNat / (den * 2 ^ power.toNat)
    roundedUnits num den power = quotient ∨ roundedUnits num den power = quotient + 1 := by
  unfold roundedUnits
  dsimp only
  split
  · exact .inl rfl
  · split
    · exact .inr rfl
    · omega

/-! ## The nearest double -/

theorem nearestNat_of_le (hn : n ≤ 2 ^ 53) : nearestNat n = some n := if_pos hn

/-- A number beyond `2 ^ 53` has a unit of its own, which its rounding keeps to. -/
theorem nearestNat_units (hn : ¬n ≤ 2 ^ 53) (h : nearestNat n = some m) :
    ∃ unit, 2 ≤ unit ∧ 2 ^ 52 ≤ n / unit ∧ (m = n / unit * unit ∨ m = (n / unit + 1) * unit) := by
  have hpos : n ≠ 0 := by omega
  have hlog : 53 ≤ n.log2 := (Nat.le_log2 hpos).2 (by omega)
  have hpower : unitPower n 1 = (n.log2 : Int) - 52 := by
    rw [unitPower_nat hpos]
    omega
  unfold nearestNat at h
  rw [if_neg hn] at h
  dsimp only at h
  rw [hpower] at h
  have hup : ((n.log2 : Int) - 52).toNat = n.log2 - 52 := by omega
  have hdown : (-((n.log2 : Int) - 52)).toNat = 0 := by omega
  obtain rfl : roundedUnits n 1 ((n.log2 : Int) - 52) * 2 ^ (n.log2 - 52) = m := by
    rw [hup] at h
    split at h
    · exact Option.some.inj h
    · cases h
  refine ⟨2 ^ (n.log2 - 52), ?_, ?_, ?_⟩
  · calc 2 = 2 ^ 1 := rfl
      _ ≤ 2 ^ (n.log2 - 52) := Nat.pow_le_pow_right (by decide) (by omega)
  · rw [Nat.le_div_iff_mul_le (Nat.two_pow_pos _), ← Nat.pow_add, show 52 + (n.log2 - 52) = n.log2 by omega]
    exact Nat.log2_self_le hpos
  · have hnear := roundedUnits_near n 1 ((n.log2 : Int) - 52)
    dsimp only at hnear
    rw [hup, hdown, Nat.pow_zero, Nat.mul_one, Nat.one_mul] at hnear
    rcases hnear with hnear | hnear
    · exact .inl (by rw [hnear])
    · exact .inr (by rw [hnear])

theorem nearestNat_bounds (h : nearestNat n = some m) :
    n ≤ 2 * m ∧ m ≤ 2 * n ∧ (2 ^ 53 ≤ n → 2 ^ 53 ≤ m) := by
  by_cases hn : n ≤ 2 ^ 53
  · rw [nearestNat_of_le hn] at h
    cases h
    omega
  · obtain ⟨unit, hunit, hquotient, hm⟩ := nearestNat_units hn h
    have hlo : n / unit * unit ≤ n := Nat.div_mul_le_self n unit
    have hhi : n < (n / unit + 1) * unit := by
      rw [Nat.mul_comm]
      exact Nat.lt_mul_div_succ n (by omega)
    have hone : unit ≤ n / unit * unit := Nat.le_mul_of_pos_left _ (by omega)
    have hbeyond : 2 ^ 52 * 2 ≤ n / unit * unit := Nat.mul_le_mul hquotient hunit
    rw [Nat.add_mul, Nat.one_mul] at hhi hm
    omega

theorem nearest_of_le (hx : x.natAbs ≤ 2 ^ 53) : nearest x = some x := by
  unfold nearest
  rw [nearestNat_of_le hx]
  show some (if x < 0 then -(x.natAbs : Int) else x.natAbs) = some x
  split <;> congr 1 <;> omega

theorem nearestNat_of_nearest (h : nearest x = some z) : nearestNat x.natAbs = some z.natAbs := by
  unfold nearest at h
  cases hm : nearestNat x.natAbs with
  | none => simp [hm] at h
  | some m =>
    have hz : (if x < 0 then -(m : Int) else m) = z := by simpa [hm] using h
    have hm : z.natAbs = m := by
      split at hz <;> omega
    rw [hm]

/-- A rounded integer is within a factor of two. -/
theorem nearest_bounds (h : nearest x = some z) : x.natAbs ≤ 2 * z.natAbs ∧ z.natAbs ≤ 2 * x.natAbs := by
  obtain ⟨hlo, hhi, -⟩ := nearestNat_bounds (nearestNat_of_nearest h)
  exact ⟨hlo, hhi⟩

theorem nearest_add_bounds (h : nearest (x + y) = some z) :
    x.natAbs ≤ 2 * z.natAbs + y.natAbs ∧ z.natAbs ≤ 2 * (x.natAbs + y.natAbs) := by
  have := nearest_bounds h
  omega

theorem nearest_beyond (h : nearest x = some z) (hx : 2 ^ 53 ≤ x.natAbs) : 2 ^ 53 ≤ z.natAbs := by
  obtain ⟨-, -, hbeyond⟩ := nearestNat_bounds (nearestNat_of_nearest h)
  exact hbeyond hx

/-! ## Quotients -/

theorem floorQuotient_of_lt (hi : i.natAbs < 2 ^ 50) : floorQuotient i d = i / d := if_pos hi

theorem unitPower_le (n d : Nat) : unitPower n d ≤ n.log2 := by
  unfold unitPower
  dsimp only
  split <;> omega

theorem roundedUnits_le (hn : n ≠ 0) (hd : 0 < d) :
    roundedUnits n d (unitPower n d) * 2 ^ (unitPower n d).toNat ≤ 2 * n * 2 ^ (-unitPower n d).toNat := by
  have hnear := roundedUnits_near n d (unitPower n d)
  have hunit : 2 ^ (unitPower n d).toNat ≤ n := by
    have hpower := unitPower_le n d
    calc 2 ^ (unitPower n d).toNat ≤ 2 ^ n.log2 := Nat.pow_le_pow_right (by decide) (by omega)
      _ ≤ n := Nat.log2_self_le hn
  generalize unitPower n d = power at hnear hunit ⊢
  have hscale : 0 < 2 ^ (-power).toNat := Nat.two_pow_pos _
  generalize 2 ^ (-power).toNat = scale at hnear hscale ⊢
  generalize 2 ^ power.toNat = unit at hnear hunit ⊢
  have hquotient : n * scale / (d * unit) * unit ≤ n * scale := by
    calc n * scale / (d * unit) * unit ≤ n * scale / (d * unit) * (d * unit) :=
          Nat.mul_le_mul_left _ (Nat.le_mul_of_pos_left _ hd)
      _ ≤ n * scale := Nat.div_mul_le_self _ _
  have hone : n ≤ n * scale := Nat.le_mul_of_pos_right _ hscale
  rw [Nat.mul_assoc]
  rcases hnear with hnear | hnear <;> rw [hnear]
  · omega
  · rw [Nat.add_mul]
    omega

/-- A rounded quotient is not far beyond the dividend. -/
theorem floorQuotient_bounds (hd : 0 < d) (i : Int) : (floorQuotient i d).natAbs ≤ 2 * i.natAbs := by
  by_cases hi : i.natAbs < 2 ^ 50
  · rw [floorQuotient_of_lt hi]
    have := Int.natAbs_ediv_le_natAbs i d
    omega
  · have hle : (roundedUnits i.natAbs d (unitPower i.natAbs d) : Int) * 2 ^ (unitPower i.natAbs d).toNat
        ≤ 2 * i.natAbs * 2 ^ (-unitPower i.natAbs d).toNat := by
      exact_mod_cast roundedUnits_le (show i.natAbs ≠ 0 by omega) hd
    have hscale : (0 : Int) < 2 ^ (-unitPower i.natAbs d).toNat := Int.pow_pos (by decide)
    have hunits : (0 : Int) ≤ roundedUnits i.natAbs d (unitPower i.natAbs d)
        * 2 ^ (unitPower i.natAbs d).toNat := by
      exact_mod_cast Nat.zero_le _
    unfold floorQuotient
    rw [if_neg hi]
    dsimp only
    generalize (roundedUnits i.natAbs d (unitPower i.natAbs d) : Int) * 2 ^ (unitPower i.natAbs d).toNat = units
      at hle hunits ⊢
    generalize (2 : Int) ^ (-unitPower i.natAbs d).toNat = scale at hle hscale ⊢
    have hhi : (if i < 0 then -units else units) / scale ≤ 2 * i.natAbs :=
      Int.ediv_le_of_le_mul hscale (by split <;> omega)
    have hlo : -(2 * i.natAbs) ≤ (if i < 0 then -units else units) / scale := by
      refine Int.le_ediv_of_mul_le hscale ?_
      rw [Int.neg_mul]
      split <;> omega
    omega

theorem floorQuotient_add_bounds (hd : 0 < d) (h : nearest (x + y) = some z) :
    (floorQuotient z d).natAbs ≤ 4 * (x.natAbs + y.natAbs) := by
  have := nearest_add_bounds h
  have := floorQuotient_bounds hd z
  omega

end PageScript.Binary64
