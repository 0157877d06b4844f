import PageScript.Variables.Writing

/-! # Whole numbers that are doubles

An integer below `2 ^ 53` is a double, and all that arrays and dates ask of it (its sign, whether it is
whole, its magnitude) is what it is for the integer.  A double is taken apart into its fields twice: by
the platform's model of it, and by `Binary64.dyadic`.
-/

set_option autoImplicit false

namespace PageScript

namespace Binary64

open Float.Model

/-! ## The fields of a double -/

theorem unpackExponent_toNat (b : BitVec 64) :
    (@UnpackedFloat.unpackExponent .binary64 b).toNat = b.toNat / 2 ^ 52 % 2 ^ 11 := by
  unfold UnpackedFloat.unpackExponent
  simp [BitVec.extractLsb, Nat.shiftRight_eq_div_pow]

theorem unpackMantissa_toNat (b : BitVec 64) :
    (@UnpackedFloat.unpackMantissa .binary64 b).toNat = b.toNat % 2 ^ 52 := by
  unfold UnpackedFloat.unpackMantissa
  simp [BitVec.extractLsb]

theorem unpackSign_toNat (b : BitVec 64) :
    (@UnpackedFloat.unpackSign .binary64 b).toNat = b.toNat / 2 ^ 63 % 2 := by
  unfold UnpackedFloat.unpackSign
  simp [BitVec.extractLsb, Nat.shiftRight_eq_div_pow]

/-- The sign of a number, as the model of doubles has it. -/
def signOf (negative : Bool) : UnpackedFloat.Sign := if negative then .negative else .positive

theorem neg_signOf (negative : Bool) : -signOf negative = signOf !negative := by
  cases negative <;> rfl

/-- Whether bits are those of a double with a full significand. -/
structure Normal (u : UInt64) (negative : Bool) (field fraction : Nat) : Prop where
  bits : u.toNat = negative.toNat * 2 ^ 63 + field * 2 ^ 52 + fraction
  fraction_lt : fraction < 2 ^ 52
  field_pos : 0 < field
  field_lt : field < 2 ^ 11 - 1

namespace Normal

variable {u v : UInt64} {negative : Bool} {field fraction : Nat}

theorem unpack (h : Normal u negative field fraction) :
    UnpackedFloat.unpack .binary64 u.toBitVec
      = .finite (signOf negative) (2 ^ 52 + fraction) ((field : Int) - 1075)
          (Nat.add_pos_left (by decide) fraction) := by
  obtain ⟨hbits, hlt, hpos, hfinite⟩ := h
  have hbits : u.toBitVec.toNat = negative.toNat * 2 ^ 63 + field * 2 ^ 52 + fraction := hbits
  have hnegative := Bool.toNat_lt negative
  have hfield : (@UnpackedFloat.unpackExponent .binary64 u.toBitVec).toNat = field := by
    rw [unpackExponent_toNat, hbits]
    omega
  have hfraction : (@UnpackedFloat.unpackMantissa .binary64 u.toBitVec).toNat = fraction := by
    rw [unpackMantissa_toNat, hbits]
    omega
  have hsign : @UnpackedFloat.unpackSign .binary64 u.toBitVec = BitVec.ofBool negative := by
    refine BitVec.eq_of_toNat_eq ?_
    rw [unpackSign_toNat, hbits, BitVec.toNat_ofBool]
    omega
  have hone : @UnpackedFloat.unpackExponent .binary64 u.toBitVec ≠ -1#11 := by
    intro heq
    rw [heq, show (-1#11).toNat = 2047 from by decide] at hfield
    omega
  have hzero : @UnpackedFloat.unpackExponent .binary64 u.toBitVec ≠ 0#11 := by
    intro heq
    rw [heq, BitVec.toNat_zero] at hfield
    omega
  have hsignificand :
      (1#1 ++ @UnpackedFloat.unpackMantissa .binary64 u.toBitVec).toNat = 2 ^ 52 + fraction := by
    rw [BitVec.toNat_append, hfraction]
    exact (Nat.two_pow_add_eq_or_of_lt hlt 1).symm
  unfold UnpackedFloat.unpack
  dsimp only
  rw [if_neg hone, if_neg hzero]
  congr 1
  · rw [hsign]
    cases negative <;> rfl
  · rw [hfield]
    rfl

theorem pack (h : Normal u negative field fraction) :
    UnpackedFloat.pack .binary64 (.finite (signOf negative) (2 ^ 52 + fraction) ((field : Int) - 1075)
      (Nat.add_pos_left (by decide) fraction)) = u.toBitVec := by
  obtain ⟨hbits, hlt, hpos, hfinite⟩ := h
  have hlog : (2 ^ 52 + fraction).log2 = 52 := by
    rw [Nat.log2_eq_iff (by omega)]
    omega
  have hfield : ((field : Int) - 1075 + Format.exponentBias .binary64
      + Format.mantissaBitsWithoutImplicit .binary64).toNat = field := by
    show ((field : Int) - 1075 + (1023 : Nat) + (52 : Nat)).toNat = field
    omega
  have hsign : (signOf negative).toBitVec.toNat = negative.toNat := by
    cases negative <;> rfl
  unfold UnpackedFloat.pack
  dsimp only
  rw [hfield, if_neg (show ¬ 2 ^ 11 ≤ field + 1 by omega), hlog,
    if_pos (show 52 + 1 = Format.binary64.mantissaBits from rfl)]
  refine BitVec.eq_of_toNat_eq ?_
  show ((signOf negative).toBitVec ++ BitVec.ofNat 11 field ++ BitVec.ofNat 52 (2 ^ 52 + fraction)).toNat
    = u.toNat
  simp only [BitVec.toNat_append, BitVec.toNat_ofNat, Nat.shiftLeft_eq]
  rw [hbits, hsign, Nat.mod_eq_of_lt (show field < 2 ^ 11 by omega),
    show (2 ^ 52 + fraction) % 2 ^ 52 = fraction by omega, Nat.mul_comm negative.toNat,
    ← Nat.two_pow_add_eq_or_of_lt (show field < 2 ^ 11 by omega), Nat.mul_comm _ (2 ^ 52),
    ← Nat.two_pow_add_eq_or_of_lt hlt]
  omega

theorem toBits_ofBits (h : Normal u negative field fraction) : (Float.ofBits u).toBits = u := by
  show UInt64.ofBitVec (UnpackedFloat.pack .binary64 (UnpackedFloat.unpack .binary64 u.toBitVec)) = u
  rw [h.unpack, h.pack]

theorem unpack_ofBits (h : Normal u negative field fraction) :
    (Float.ofBits u).toModel.unpack
      = .finite (signOf negative) (2 ^ 52 + fraction) ((field : Int) - 1075)
          (Nat.add_pos_left (by decide) fraction) := by
  show UnpackedFloat.unpack .binary64 (Float.ofBits u).toBits.toBitVec = _
  rw [h.toBits_ofBits]
  exact h.unpack

/-- The other sign is the other highest bit. -/
theorem neg (h : Normal u negative field fraction) (hv : Normal v (!negative) field fraction) :
    -Float.ofBits u = Float.ofBits v := by
  show Float.ofModel (Float.Model.pack (Float.ofBits u).toModel.unpack.neg)
    = Float.ofModel (Float.Model.pack (UnpackedFloat.unpack .binary64 v.toBitVec))
  rw [h.unpack_ofBits, hv.unpack, ← neg_signOf]
  rfl

theorem dyadic (h : Normal u negative field fraction) :
    Binary64.dyadic (Float.ofBits u) = ⟨negative, 2 ^ 52 + fraction, (field : Int) - 1075⟩ := by
  have hbits := h.bits
  have hlt := h.fraction_lt
  have hpos := h.field_pos
  have hfinite := h.field_lt
  have hnegative := Bool.toNat_lt negative
  have hsign : decide (2 ^ 63 ≤ negative.toNat * 2 ^ 63 + field * 2 ^ 52 + fraction) = negative := by
    cases negative
    · exact decide_eq_false (by simp; omega)
    · exact decide_eq_true (by simp; omega)
  unfold Binary64.dyadic
  dsimp only
  rw [h.toBits_ofBits, hbits, hsign, if_neg (by omega)]
  congr 2 <;> omega

theorem isNegative (h : Normal u negative field fraction) : isNegative (Float.ofBits u) = negative := by
  have hdyadic := h.dyadic
  unfold Binary64.dyadic at hdyadic
  unfold Binary64.isNegative
  dsimp only at hdyadic
  split at hdyadic <;> exact congrArg Dyadic.negative hdyadic

theorem isNaN (h : Normal u negative field fraction) : (Float.ofBits u).isNaN = false := by
  show (Float.ofBits u).toModel.unpack.isNaN = false
  rw [h.unpack_ofBits]
  rfl

theorem isInf (h : Normal u negative field fraction) : (Float.ofBits u).isInf = false := by
  show (Float.ofBits u).toModel.unpack.isInf = false
  rw [h.unpack_ofBits]
  rfl

theorem nonneg (h : Normal u false field fraction) : 0.0 ≤ Float.ofBits u := by
  have hle : UnpackedFloat.le (0.0 : Float).toModel.unpack (Float.ofBits u).toModel.unpack = true := by
    rw [h.unpack_ofBits, show (0.0 : Float).toModel.unpack = .zero .positive from rfl]
    rfl
  exact decide_eq_true hle

end Normal

/-! ## Whole numbers -/

/-- Whether a double is a natural number, as `Number` and arrays look at it. -/
structure IsNat (x : Float) (n : Nat) : Prop where
  isNaN : x.isNaN = false
  isInf : x.isInf = false
  isNegative : isNegative x = false
  nonneg : 0.0 ≤ x
  isWhole : isWhole x = true
  magnitude : magnitude x = n

theorem IsNat.toInt {x : Float} {n : Nat} (h : IsNat x n) : toInt x = n := by
  unfold Binary64.toInt
  rw [h.isNegative, h.magnitude, if_neg Bool.false_ne_true]

theorem magnitude_of_significand_zero {x : Float} {negative : Bool} {power : Int}
    (h : dyadic x = ⟨negative, 0, power⟩) : magnitude x = 0 := by
  unfold magnitude
  rw [h]
  dsimp only
  rw [Nat.zero_mul, Nat.zero_div]

theorem isNat_zero : IsNat 0.0 0 := by
  obtain ⟨power, hdyadic⟩ : ∃ power, dyadic 0.0 = ⟨false, 0, power⟩ := ⟨-1074, by decide⟩
  refine ⟨by decide, by decide, by decide, by decide, ?_, ?_⟩
  · unfold isWhole
    rw [hdyadic]
    exact decide_eq_true (Nat.zero_mod _)
  · exact magnitude_of_significand_zero hdyadic

variable {n : Nat}

/-- The significand of a whole number fills the bits that a double has for it. -/
theorem significand_bounds (hpos : n ≠ 0) (hn : n < 2 ^ 53) :
    n.log2 ≤ 52 ∧ 2 ^ 52 ≤ n * 2 ^ (52 - n.log2) ∧ n * 2 ^ (52 - n.log2) < 2 ^ 53 := by
  have hlog : n.log2 < 53 := (Nat.log2_lt hpos).2 hn
  have hlo : 2 ^ n.log2 ≤ n := Nat.log2_self_le hpos
  have hhi : n < 2 ^ (n.log2 + 1) := Nat.lt_log2_self
  refine ⟨by omega, ?_, ?_⟩
  · calc 2 ^ 52 = 2 ^ n.log2 * 2 ^ (52 - n.log2) := by rw [← Nat.pow_add]; congr 1; omega
      _ ≤ n * 2 ^ (52 - n.log2) := Nat.mul_le_mul_right _ hlo
  · calc n * 2 ^ (52 - n.log2) < 2 ^ (n.log2 + 1) * 2 ^ (52 - n.log2) :=
          Nat.mul_lt_mul_of_pos_right hhi (Nat.two_pow_pos _)
      _ = 2 ^ 53 := by rw [← Nat.pow_add]; congr 1; omega

theorem unitPower_nat (hpos : n ≠ 0) : unitPower n 1 = max (-1074) ((n.log2 : Int) - 52) := by
  unfold unitPower
  dsimp only
  rw [show Nat.log2 1 = 0 from rfl, if_pos]
  · omega
  · rw [show ((n.log2 : Int) - (0 : Nat) - 52 + 52).toNat = n.log2 by omega,
      show (-((n.log2 : Int) - (0 : Nat) - 52 + 52)).toNat = 0 by omega, Nat.one_mul, Nat.pow_zero,
      Nat.mul_one]
    exact Nat.log2_self_le hpos

theorem roundedUnits_nat (hpos : n ≠ 0) (hn : n < 2 ^ 53) :
    roundedUnits n 1 ((n.log2 : Int) - 52) = n * 2 ^ (52 - n.log2) := by
  have hlog : n.log2 < 53 := (Nat.log2_lt hpos).2 hn
  unfold roundedUnits
  dsimp only
  rw [show (-((n.log2 : Int) - 52)).toNat = 52 - n.log2 by omega,
    show ((n.log2 : Int) - 52).toNat = 0 by omega, Nat.pow_zero, Nat.mul_one, Nat.div_one, Nat.mod_one,
    if_pos (by decide)]

/-- The bits of a whole number other than zero.  The significand is the number itself, moved up to the top
of its field. -/
def word (negative : Bool) (n : Nat) : UInt64 :=
  (negative.toNat * 2 ^ 63 + (n.log2 + 1022) * 2 ^ 52 + n * 2 ^ (52 - n.log2)).toUInt64

theorem normal_word (negative : Bool) (hpos : n ≠ 0) (hn : n < 2 ^ 53) :
    Normal (word negative n) negative (n.log2 + 1023) (n * 2 ^ (52 - n.log2) - 2 ^ 52) := by
  obtain ⟨hlog, hlo, hhi⟩ := significand_bounds hpos hn
  have hnegative := Bool.toNat_lt negative
  refine ⟨?_, by omega, by omega, by omega⟩
  unfold word
  rw [Nat.toUInt64_eq, UInt64.toNat_ofNat', Nat.mod_eq_of_lt (by omega)]
  omega

theorem ofNat_eq_word (hpos : n ≠ 0) (hn : n < 2 ^ 53) : ofNat n = Float.ofBits (word false n) := by
  obtain ⟨hlog, hlo, hhi⟩ := significand_bounds hpos hn
  unfold ofNat ofRatio word
  dsimp only
  rw [if_neg hpos, unitPower_nat hpos, show max (-1074) ((n.log2 : Int) - 52) = (n.log2 : Int) - 52 by omega,
    roundedUnits_nat hpos hn, show ((n.log2 : Int) - 52 + 1074).toNat = n.log2 + 1022 by omega,
    Nat.min_eq_left (by omega), Bool.toNat_false, Nat.zero_mul, Nat.zero_add]

theorem dyadic_word (negative : Bool) (hpos : n ≠ 0) (hn : n < 2 ^ 53) :
    dyadic (Float.ofBits (word negative n)) = ⟨negative, n * 2 ^ (52 - n.log2), (n.log2 : Int) - 52⟩ := by
  obtain ⟨hlog, hlo, hhi⟩ := significand_bounds hpos hn
  rw [(normal_word negative hpos hn).dyadic, Nat.add_sub_cancel' hlo,
    show ((n.log2 + 1023 : Nat) : Int) - 1075 = (n.log2 : Int) - 52 by omega]

theorem magnitude_word (negative : Bool) (hpos : n ≠ 0) (hn : n < 2 ^ 53) :
    magnitude (Float.ofBits (word negative n)) = n := by
  obtain ⟨hlog, -, -⟩ := significand_bounds hpos hn
  unfold magnitude
  rw [dyadic_word negative hpos hn]
  dsimp only
  rw [show (-((n.log2 : Int) - 52)).toNat = 52 - n.log2 by omega,
    show ((n.log2 : Int) - 52).toNat = 0 by omega, Nat.pow_zero, Nat.mul_one,
    Nat.mul_div_cancel _ (Nat.two_pow_pos _)]

theorem isWhole_word (negative : Bool) (hpos : n ≠ 0) (hn : n < 2 ^ 53) :
    isWhole (Float.ofBits (word negative n)) = true := by
  obtain ⟨hlog, -, -⟩ := significand_bounds hpos hn
  unfold isWhole
  rw [dyadic_word negative hpos hn]
  dsimp only
  rw [show (-((n.log2 : Int) - 52)).toNat = 52 - n.log2 by omega]
  exact decide_eq_true (Nat.mul_mod_left _ _)

theorem isNat_ofNat (hn : n < 2 ^ 53) : IsNat (ofNat n) n := by
  by_cases hpos : n = 0
  · subst hpos
    exact isNat_zero
  have hnormal := normal_word false hpos hn
  rw [ofNat_eq_word hpos hn]
  exact ⟨hnormal.isNaN, hnormal.isInf, hnormal.isNegative, hnormal.nonneg, isWhole_word false hpos hn,
    magnitude_word false hpos hn⟩

/-- Whether a double is an integer, as dates look at it. -/
structure IsInt (x : Float) (i : Int) : Prop where
  isNaN : x.isNaN = false
  isInf : x.isInf = false
  toInt : toInt x = i

theorem isInt_ofInt {i : Int} (hi : i.natAbs < 2 ^ 53) : IsInt (ofInt i) i := by
  unfold ofInt
  split
  · rename_i hneg
    have hpos : i.natAbs ≠ 0 := by omega
    have hnormal := normal_word true hpos hi
    rw [ofNat_eq_word hpos hi, (normal_word false hpos hi).neg hnormal]
    refine ⟨hnormal.isNaN, hnormal.isInf, ?_⟩
    unfold toInt
    rw [hnormal.isNegative, magnitude_word true hpos hi, if_pos rfl]
    omega
  · have h := isNat_ofNat hi
    refine ⟨h.isNaN, h.isInf, h.toInt.trans ?_⟩
    omega

end Binary64

/-! ## Lengths as numbers -/

variable {n : Nat}

theorem Number.ofNat_eq_finite (hn : n < 2 ^ 53) : Number.ofNat n = .finite (Binary64.ofNat n) := by
  have h := Binary64.isNat_ofNat hn
  unfold Number.ofNat Number.ofFloat
  rw [if_neg (by rw [h.isNaN]; exact Bool.false_ne_true), if_neg (by rw [h.isInf]; exact Bool.false_ne_true)]

theorem Number.ofInt_eq_finite {i : Int} (hi : i.natAbs < 2 ^ 53) :
    Number.ofInt i = .finite (Binary64.ofInt i) := by
  have h := Binary64.isInt_ofInt hi
  unfold Number.ofInt Number.ofFloat
  rw [if_neg (by rw [h.isNaN]; exact Bool.false_ne_true), if_neg (by rw [h.isInf]; exact Bool.false_ne_true)]

theorem Number.toUInt32_ofNat (hn : n < 2 ^ 32) : (Number.ofNat n).toUInt32.toNat = n := by
  have h := Binary64.isNat_ofNat (show n < 2 ^ 53 by omega)
  rw [Number.ofNat_eq_finite (by omega)]
  show ((Binary64.toInt (Binary64.ofNat n) % 2 ^ 32).toNat.toUInt32).toNat = n
  rw [h.toInt, Nat.toUInt32_eq, UInt32.toNat_ofNat']
  omega

/-- A length below the limit is accepted as a length, and no other one is. -/
theorem lengthOfNumber?_ofNat (hn : n < 2 ^ 53) :
    lengthOfNumber? (.ofNat n) = if n < ArrayIndex.limit then some n else none := by
  have h := Binary64.isNat_ofNat hn
  rw [Number.ofNat_eq_finite hn]
  unfold lengthOfNumber?
  dsimp only
  rw [h.magnitude]
  simp only [h.nonneg, h.isWhole, true_and]

end PageScript
