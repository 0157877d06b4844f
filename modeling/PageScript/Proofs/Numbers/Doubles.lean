import PageScript.Proofs.Whole

/-! # Doubles, compared, negated and subtracted

What the platform's model of doubles makes of a few operations: equality does not depend on the order of its
sides, a double that is a number is one under the other sign, and on whole numbers below `2 ^ 53` magnitude,
sign and difference are those of the integers.
-/

set_option autoImplicit false

namespace PageScript

namespace Binary64

open Float.Model

/-! ## Comparison -/

/-- Within one sign the exponents decide, and then the significands. -/
theorem compare_swap (u v : UnpackedFloat) : (u.compare v).map Ordering.swap = v.compare u := by
  cases u with
  | notANumber => cases v <;> rfl
  | infinity s =>
    cases v with
    | notANumber => rfl
    | infinity t => cases s <;> cases t <;> rfl
    | _ => cases s <;> rfl
  | zero s =>
    cases v with
    | infinity t => cases t <;> rfl
    | finite t n f hn => cases t <;> rfl
    | _ => rfl
  | finite s m e hm =>
    cases v with
    | notANumber => rfl
    | infinity t => cases t <;> rfl
    | zero t => cases s <;> rfl
    | finite t n f hn =>
      have hswap : ((compare e f).then (compare m n)).swap = (compare f e).then (compare n m) := by
        rw [Ordering.swap_then, Int.compare_swap, Nat.compare_swap]
      cases s <;> cases t
      · exact congrArg (some ·.swap) hswap
      · rfl
      · rfl
      · exact congrArg some hswap

theorem beq_comm (x y : Float) : (x == y) = (y == x) := by
  have hswap := compare_swap x.toModel.unpack y.toModel.unpack
  show (x.toModel.unpack.compare y.toModel.unpack == some .eq)
    = (y.toModel.unpack.compare x.toModel.unpack == some .eq)
  rw [← hswap]
  cases x.toModel.unpack.compare y.toModel.unpack with
  | none => rfl
  | some order => cases order <;> rfl

theorem beq_self {x : Float} (hx : x.isNaN = false) : (x == x) = true := by
  have hx : x.toModel.unpack.isNaN = false := hx
  show (x.toModel.unpack.compare x.toModel.unpack == some .eq) = true
  cases hu : x.toModel.unpack with
  | notANumber => rw [hu] at hx; cases hx
  | infinity s => cases s <;> rfl
  | zero s => rfl
  | finite s m e hm =>
    have hsame : (compare e e).then (compare m m) = .eq := by simp
    cases s
    · exact congrArg (some ·.swap == some .eq) hsame
    · exact congrArg (some · == some .eq) hsame

/-! ## What is a number -/

theorem isNaN_unpack_of_exponent {b : BitVec 64} (hb : @UnpackedFloat.unpackExponent .binary64 b ≠ -1#11) :
    (UnpackedFloat.unpack .binary64 b).isNaN = false := by
  unfold UnpackedFloat.unpack
  dsimp only
  rw [if_neg hb]
  by_cases hexponent : @UnpackedFloat.unpackExponent .binary64 b = 0#11
  · rw [if_pos hexponent]
    by_cases hfraction : @UnpackedFloat.unpackMantissa .binary64 b = 0#52
    · rw [dif_pos hfraction]
      rfl
    · rw [dif_neg hfraction]
      rfl
  · rw [if_neg hexponent]
    rfl

/-- Only what is no number is packed with all bits of the exponent set beside a significand. -/
theorem isNaN_pack {u : UnpackedFloat} (hu : u.isNaN = false) :
    (UnpackedFloat.unpack .binary64 (u.pack .binary64)).isNaN = false := by
  cases u with
  | notANumber => cases hu
  | infinity s => cases s <;> rfl
  | zero s => cases s <;> rfl
  | finite s m e hm =>
    unfold UnpackedFloat.pack
    dsimp only
    split
    · cases s <;> rfl
    · rename_i hfield
      split
      · refine isNaN_unpack_of_exponent ?_
        rw [UnpackedFloat.unpackExponent_packComponents]
        intro heq
        have hones := congrArg BitVec.toNat heq
        have hlt : (e + Format.exponentBias .binary64 + Format.mantissaBitsWithoutImplicit .binary64).toNat % 2 ^ 11
            = 2047 := hones
        have hfield : ¬2 ^ 11 ≤ (e + Format.exponentBias .binary64
            + Format.mantissaBitsWithoutImplicit .binary64).toNat + 1 := hfield
        omega
      · refine isNaN_unpack_of_exponent ?_
        rw [UnpackedFloat.unpackExponent_packComponents]
        decide

theorem isNaN_ofBits {w : UInt64} (hw : w.toNat ≤ 2047 * 2 ^ 52) : (Float.ofBits w).isNaN = false := by
  refine isNaN_pack ?_
  have hw : w.toBitVec.toNat ≤ 2047 * 2 ^ 52 := hw
  by_cases hones : @UnpackedFloat.unpackExponent .binary64 w.toBitVec = -1#11
  · have hexponent := unpackExponent_toNat w.toBitVec
    rw [hones, show (-1#11).toNat = 2047 from by decide] at hexponent
    have hzero : w.toBitVec = BitVec.ofNat 64 (2047 * 2 ^ 52) := by
      refine BitVec.eq_of_toNat_eq ?_
      rw [BitVec.toNat_ofNat]
      omega
    rw [hzero]
    rfl
  · exact isNaN_unpack_of_exponent hones

theorem isNaN_neg {x : Float} (hx : x.isNaN = false) : (-x).isNaN = false := by
  refine isNaN_pack ?_
  have hx : x.toModel.unpack.isNaN = false := hx
  cases hu : x.toModel.unpack with
  | notANumber => rw [hu] at hx; cases hx
  | _ => rfl

/-- Rounding ends at infinity, whose bits are the last that are a number. -/
theorem isNaN_ofRatio (num den : Nat) : (ofRatio num den).isNaN = false := by
  unfold ofRatio
  split
  · decide
  · dsimp only
    refine isNaN_ofBits ?_
    rw [Nat.toUInt64_eq, UInt64.toNat_ofNat']
    omega

theorem isNaN_ofDecimal (significand : Nat) (power : Int) : (ofDecimal significand power).isNaN = false := by
  unfold ofDecimal
  split
  · decide
  · split
    · exact isNaN_ofBits (by decide)
    · exact isNaN_ofRatio _ _

/-! ## Whole numbers -/

namespace Normal

variable {u v : UInt64} {negative : Bool} {field fraction : Nat}

theorem abs (h : Normal u negative field fraction) (hv : Normal v false field fraction) :
    (Float.ofBits u).abs = Float.ofBits v := by
  show Float.ofModel (Float.Model.pack (Float.ofBits u).toModel.unpack.abs)
    = Float.ofModel (Float.Model.pack (UnpackedFloat.unpack .binary64 v.toBitVec))
  rw [h.unpack_ofBits, hv.unpack]
  rfl

theorem sub_self (h : Normal u negative field fraction) : Float.ofBits u - Float.ofBits u = 0.0 := by
  show Float.ofModel (Float.Model.pack (UnpackedFloat.sub .binary64 (Float.ofBits u).toModel.unpack
    (Float.ofBits u).toModel.unpack)) = 0.0
  rw [h.unpack_ofBits]
  show Float.ofModel (Float.Model.pack (UnpackedFloat.normalize .binary64 (_ - _) _ .positive)) = 0.0
  rw [Int.sub_self]
  rfl

theorem lt_zero (h : Normal u negative field fraction) : Float.ofBits u < 0.0 ↔ negative = true := by
  show decide (UnpackedFloat.lt (Float.ofBits u).toModel.unpack (0.0 : Float).toModel.unpack = true) = true ↔ _
  rw [decide_eq_true_iff, h.unpack_ofBits, show (0.0 : Float).toModel.unpack = .zero .positive from rfl]
  cases negative
  · exact iff_of_false (fun h => nomatch h) Bool.false_ne_true
  · exact iff_of_true rfl rfl

end Normal

variable {n : Nat} {i : Int}

/-- The double of an integer other than zero has the bits of its magnitude and of its sign. -/
theorem ofInt_eq_word (hpos : i ≠ 0) (hi : i.natAbs < 2 ^ 53) :
    ofInt i = Float.ofBits (word (decide (i < 0)) i.natAbs) := by
  have hnat : i.natAbs ≠ 0 := by omega
  unfold ofInt
  rw [ofNat_eq_word hnat hi]
  split
  · rename_i hneg
    rw [decide_eq_true hneg]
    exact (normal_word false hnat hi).neg (normal_word true hnat hi)
  · rename_i hneg
    rw [decide_eq_false hneg]

theorem abs_ofInt (hi : i.natAbs < 2 ^ 53) : (ofInt i).abs = ofNat i.natAbs := by
  by_cases hpos : i = 0
  · subst hpos
    rfl
  · have hnat : i.natAbs ≠ 0 := by omega
    rw [ofInt_eq_word hpos hi, ofNat_eq_word hnat hi]
    exact (normal_word _ hnat hi).abs (normal_word false hnat hi)

theorem ofInt_lt_zero (hi : i.natAbs < 2 ^ 53) : ofInt i < 0.0 ↔ i < 0 := by
  by_cases hpos : i = 0
  · subst hpos
    decide
  · rw [ofInt_eq_word hpos hi, (normal_word _ (by omega) hi).lt_zero, decide_eq_true_eq]

theorem sub_self_ofNat (hn : n < 2 ^ 53) : ofNat n - ofNat n = 0.0 := by
  by_cases hpos : n = 0
  · subst hpos
    decide
  · rw [ofNat_eq_word hpos hn]
    exact (normal_word false hpos hn).sub_self

theorem truncate_ofNat (hn : n < 2 ^ 53) : truncate (ofNat n) = ofNat n := by
  unfold truncate roundMagnitude
  simp [(isNat_ofNat hn).isWhole]

end Binary64

theorem Position.ofNumber_ofNat {n : Nat} (hn : n < 2 ^ 53) : Position.ofNumber (.ofNat n) = .at n := by
  rw [Number.ofNat_eq_finite hn]
  exact congrArg Position.at (Binary64.isNat_ofNat hn).toInt

theorem Number.equal_comm (x y : Number) : x.equal y = y.equal x := by
  cases x with
  | finite x =>
    cases y with
    | finite y => exact Binary64.beq_comm x y
    | _ => rfl
  | _ => cases y <;> rfl

end PageScript
