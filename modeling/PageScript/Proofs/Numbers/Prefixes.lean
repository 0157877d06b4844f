import PageScript.Proofs.Arrays.Indices
import PageScript.Proofs.Numbers.Doubles

/-! # Numerals at the front of a text

A numeral is a sign or none, and then the name of infinity or decimal digits with a point and an exponent.  Reading
from the front takes the longest numeral there is; a whole text is a number if nothing but blanks is left over.
-/

set_option autoImplicit false

namespace PageScript

theorem length_dropWhile_le {α : Type} (p : α → Bool) (cs : List α) : (cs.dropWhile p).length ≤ cs.length :=
  (List.dropWhile_suffix p).length_le

/-! ## The grammar of numerals -/

/-- Whether all characters are decimal digits. -/
def AllDigits (w : List Char) : Prop := ∀ c ∈ w, Digit.isDecimal c = true

/-- A sign or none, and whether it is a minus. -/
inductive SignText : List Char → Bool → Prop where
  | none : SignText [] false
  | plus : SignText ['+'] false
  | minus : SignText ['-'] true

/-- A point with digits behind it, or nothing. -/
inductive FractionText : List Char → List Char → Prop where
  | none : FractionText [] []
  | point {f : List Char} (hf : AllDigits f) : FractionText ('.' :: f) f

/-- An exponent with at least one digit, or nothing. -/
inductive ExponentText : List Char → Prop where
  | none : ExponentText []
  | some {mark : Char} {sign w : List Char} {negative : Bool} (hmark : mark = 'e' ∨ mark = 'E')
      (hsign : SignText sign negative) (hw : AllDigits w) (hne : w ≠ []) : ExponentText (mark :: (sign ++ w))

/-- Decimal digits with at least one before or after the point. -/
inductive DecimalText : List Char → Prop where
  | mk {w p f x : List Char} (hw : AllDigits w) (hp : FractionText p f) (hne : w ≠ [] ∨ f ≠ [])
      (hx : ExponentText x) : DecimalText (w ++ (p ++ x))

/-- A decimal number or infinity, under a sign or none. -/
inductive NumeralText : List Char → Prop where
  | decimal {sign d : List Char} {negative : Bool} (hsign : SignText sign negative) (hd : DecimalText d) :
      NumeralText (sign ++ d)
  | infinity {sign : List Char} {negative : Bool} (hsign : SignText sign negative) :
      NumeralText (sign ++ Number.infinityName)

variable {cs w p f x d y tail rest sign : List Char} {negative : Bool} {mark c : Char}

/-! ## Digits -/

theorem allDigits_takeWhile (cs : List Char) : AllDigits (cs.takeWhile Digit.isDecimal) :=
  List.all_eq_true.1 List.all_takeWhile

namespace AllDigits

/-- Digits are taken up to what is none. -/
theorem span (hw : AllDigits w) (hy : ∀ c ∈ y.head?, Digit.isDecimal c = false) :
    (w ++ y).takeWhile Digit.isDecimal = w ∧ (w ++ y).dropWhile Digit.isDecimal = y := by
  rw [List.takeWhile_append_of_pos hw, List.dropWhile_append_of_pos hw]
  cases y with
  | nil => exact ⟨List.append_nil w, rfl⟩
  | cons c y =>
    have hc : ¬Digit.isDecimal c = true := Bool.eq_false_iff.1 (hy c rfl)
    rw [List.takeWhile_cons_of_neg hc, List.dropWhile_cons_of_neg hc]
    exact ⟨List.append_nil w, rfl⟩

theorem head_ne (hw : AllDigits w) (hne : w ≠ []) (tail : List Char) (hc : Digit.isDecimal c = false) :
    ∀ c' ∈ (w ++ tail).head?, c' ≠ c := by
  cases w with
  | nil => exact absurd rfl hne
  | cons first w =>
    rintro c' hc' rfl
    obtain rfl := Option.some.inj hc'
    exact Bool.noConfusion (hc.symm.trans (hw _ (.head _)))

end AllDigits

/-! ## Signs -/

theorem readSign_spec (cs : List Char) : ∃ sign, SignText sign (readSign cs).1 ∧ cs = sign ++ (readSign cs).2 := by
  fun_cases readSign cs with
  | case1 rest => exact ⟨['-'], .minus, rfl⟩
  | case2 rest => exact ⟨['+'], .plus, rfl⟩
  | case3 => exact ⟨[], .none, rfl⟩

theorem SignText.readSign (h : SignText sign negative) (hminus : ∀ c ∈ y.head?, c ≠ '-')
    (hplus : ∀ c ∈ y.head?, c ≠ '+') : readSign (sign ++ y) = (negative, y) := by
  cases h with
  | none =>
    show PageScript.readSign y = _
    fun_cases PageScript.readSign y with
    | case1 rest => exact absurd rfl (hminus '-' rfl)
    | case2 rest => exact absurd rfl (hplus '+' rfl)
    | case3 => rfl
  | plus => rfl
  | minus => rfl

/-! ## Exponents -/

theorem readExponent_cons (hmark : mark = 'e' ∨ mark = 'E') (rest : List Char) :
    readExponent (mark :: rest) =
      if ((readSign rest).2.takeWhile Digit.isDecimal).isEmpty then (0, mark :: rest)
      else
        (if (readSign rest).1 then -(Digit.toNat ((readSign rest).2.takeWhile Digit.isDecimal) : Int)
          else Digit.toNat ((readSign rest).2.takeWhile Digit.isDecimal),
          (readSign rest).2.dropWhile Digit.isDecimal) := by
  have hmark : (mark == 'e' || mark == 'E') = true := by simpa using hmark
  unfold readExponent
  dsimp only
  rw [if_pos hmark]
  fun_cases readSign rest with
  | case1 more => rfl
  | case2 more => rfl
  | case3 _ hminus hplus =>
    split
    · exact (hminus _ rfl).elim
    · exact (hplus _ rfl).elim
    · rfl

theorem readExponent_of_not_mark (hmark : ¬(mark = 'e' ∨ mark = 'E')) (rest : List Char) :
    readExponent (mark :: rest) = (0, mark :: rest) :=
  if_neg (by simpa using hmark)

/-- What is read is an exponent, and it is read the same by itself. -/
theorem readExponent_spec (cs : List Char) :
    ∃ x, ExponentText x ∧ cs = x ++ (readExponent cs).2 ∧ readExponent x = ((readExponent cs).1, []) := by
  cases cs with
  | nil => exact ⟨[], .none, rfl, rfl⟩
  | cons mark rest =>
    by_cases hmark : mark = 'e' ∨ mark = 'E'
    · obtain ⟨sign, hsign, hrest⟩ := readSign_spec rest
      have hw := allDigits_takeWhile (readSign rest).2
      have happend : (readSign rest).2.takeWhile Digit.isDecimal ++ (readSign rest).2.dropWhile Digit.isDecimal
          = (readSign rest).2 := List.takeWhile_append_dropWhile
      rw [readExponent_cons hmark rest]
      generalize (readSign rest).2.takeWhile Digit.isDecimal = w at hw happend ⊢
      generalize (readSign rest).2.dropWhile Digit.isDecimal = left at happend ⊢
      split
      · exact ⟨[], .none, rfl, rfl⟩
      · rename_i hempty
        have hne : w ≠ [] := fun h => hempty (by rw [h]; rfl)
        have hread := hsign.readSign (hw.head_ne hne [] (by decide)) (hw.head_ne hne [] (by decide))
        have hspan := hw.span (show ∀ c ∈ ([] : List Char).head?, _ from nofun)
        rw [List.append_nil] at hread hspan
        refine ⟨mark :: (sign ++ w), .some hmark hsign hw hne, ?_, ?_⟩
        · rw [List.cons_append, List.append_assoc, happend, ← hrest]
        · rw [readExponent_cons hmark, hread]
          dsimp only
          rw [hspan.1, hspan.2, if_neg hempty]
    · rw [readExponent_of_not_mark hmark]
      exact ⟨[], .none, rfl, rfl⟩

theorem length_readExponent_le (cs : List Char) : (readExponent cs).2.length ≤ cs.length := by
  obtain ⟨x, -, hcs, -⟩ := readExponent_spec cs
  exact List.IsSuffix.length_le ⟨x, hcs.symm⟩

theorem ExponentText.head (hx : ExponentText x) : ∀ c ∈ x.head?, Digit.isDecimal c = false ∧ c ≠ '.' := by
  cases hx with
  | none => exact nofun
  | some hmark hsign hw hne =>
    rintro c hc
    obtain rfl := Option.some.inj hc
    rcases hmark with rfl | rfl <;> decide

/-- An exponent is read to its end at least, and past further digits. -/
theorem ExponentText.read (hx : ExponentText x) (tail : List Char) :
    (readExponent ((x ++ tail).dropWhile Digit.isDecimal)).2.length ≤ tail.length := by
  cases hx with
  | none => exact Nat.le_trans (length_readExponent_le _) (length_dropWhile_le _ _)
  | @some mark sign w negative hmark hsign hw hne =>
    have hdigit : ¬Digit.isDecimal mark = true := by
      rcases hmark with rfl | rfl <;> decide
    have hread := hsign.readSign (hw.head_ne hne tail (by decide)) (hw.head_ne hne tail (by decide))
    rw [List.cons_append, List.append_assoc, List.dropWhile_cons_of_neg hdigit, readExponent_cons hmark, hread]
    dsimp only
    rw [List.takeWhile_append_of_pos hw, List.dropWhile_append_of_pos hw, if_neg (by simp [hne])]
    exact length_dropWhile_le _ _

/-! ## Fractions -/

/-- Splits off a point with the digits behind it. -/
def readFraction : List Char → List Char × List Char
  | '.' :: more => (more.takeWhile Digit.isDecimal, more.dropWhile Digit.isDecimal)
  | cs => ([], cs)

theorem readDecimal?_eq (cs : List Char) :
    readDecimal? cs =
      let w := cs.takeWhile Digit.isDecimal
      let read := readFraction (cs.dropWhile Digit.isDecimal)
      if w.isEmpty && read.1.isEmpty then none
      else some (⟨w, read.1, (readExponent read.2).1⟩, (readExponent read.2).2) := by
  have hfraction : ∀ y : List Char, (match y with
      | '.' :: more => (more.takeWhile Digit.isDecimal, more.dropWhile Digit.isDecimal)
      | _ => ([], y)) = readFraction y := by
    intro y
    split
    · rfl
    · rename_i hpoint
      fun_cases readFraction y with
      | case1 more => exact (hpoint more rfl).elim
      | case2 => rfl
  rw [← hfraction]
  rfl

theorem readFraction_of_not_point (h : ∀ c ∈ cs.head?, c ≠ '.') : readFraction cs = ([], cs) := by
  fun_cases readFraction cs with
  | case1 more => exact absurd rfl (h '.' rfl)
  | case2 => rfl

theorem readFraction_spec (cs : List Char) :
    ∃ p, FractionText p (readFraction cs).1 ∧ cs = p ++ (readFraction cs).2 := by
  fun_cases readFraction cs with
  | case1 more =>
    refine ⟨_, .point (allDigits_takeWhile more), ?_⟩
    rw [List.cons_append, List.takeWhile_append_dropWhile]
  | case2 => exact ⟨[], .none, rfl⟩

theorem length_readFraction_le (cs : List Char) : (readFraction cs).2.length ≤ cs.length := by
  obtain ⟨p, -, hcs⟩ := readFraction_spec cs
  exact List.IsSuffix.length_le ⟨p, hcs.symm⟩

namespace FractionText

/-- A fraction with an exponent behind it is read by itself. -/
theorem read (hp : FractionText p f) (hx : ExponentText x) : readFraction (p ++ x) = (f, x) := by
  cases hp with
  | none => exact readFraction_of_not_point fun c hc => (hx.head c hc).2
  | point hf =>
    have hspan := hf.span fun c hc => (hx.head c hc).1
    exact Prod.ext hspan.1 hspan.2

theorem head (hp : FractionText p f) (hx : ExponentText x) :
    ∀ c ∈ (p ++ x).head?, Digit.isDecimal c = false := by
  cases hp with
  | none => exact fun c hc => (hx.head c hc).1
  | point hf =>
    intro c hc
    obtain rfl := Option.some.inj hc
    decide

/-- A fraction and an exponent are read to their end at least, and past further digits. -/
theorem read_append (hp : FractionText p f) (hx : ExponentText x) (tail : List Char) :
    let read := readFraction ((p ++ (x ++ tail)).dropWhile Digit.isDecimal)
    (readExponent read.2).2.length ≤ tail.length ∧ (f ≠ [] → read.1 ≠ []) := by
  cases hp with
  | none =>
    refine ⟨?_, fun h => absurd rfl h⟩
    cases x with
    | nil =>
      calc _ ≤ (readFraction (tail.dropWhile Digit.isDecimal)).2.length := length_readExponent_le _
        _ ≤ (tail.dropWhile Digit.isDecimal).length := length_readFraction_le _
        _ ≤ tail.length := length_dropWhile_le _ _
    | cons mark x =>
      obtain ⟨hdigit, hpoint⟩ := hx.head mark rfl
      have hdrop : (mark :: x ++ tail).dropWhile Digit.isDecimal = mark :: x ++ tail :=
        List.dropWhile_cons_of_neg (Bool.eq_false_iff.1 hdigit)
      have hread := hx.read tail
      have hnone : readFraction (mark :: x ++ tail) = ([], mark :: x ++ tail) := by
        refine readFraction_of_not_point fun c hc => ?_
        obtain rfl := Option.some.inj hc
        exact hpoint
      rw [hdrop] at hread
      rw [List.nil_append, hdrop, hnone]
      exact hread
  | point hf =>
    show (readExponent ((f ++ (x ++ tail)).dropWhile Digit.isDecimal)).2.length ≤ tail.length ∧
      (f ≠ [] → (f ++ (x ++ tail)).takeWhile Digit.isDecimal ≠ [])
    rw [List.dropWhile_append_of_pos hf, List.takeWhile_append_of_pos hf]
    exact ⟨hx.read tail, fun hne happend => hne (List.append_eq_nil_iff.1 happend).1⟩

end FractionText

/-! ## Decimal numbers -/

/-- What is read is a decimal number, and it is read the same by itself. -/
theorem readDecimal?_spec {n : Numeral} (h : readDecimal? cs = some (n, rest)) :
    ∃ d, DecimalText d ∧ cs = d ++ rest ∧ readDecimal? d = some (n, []) := by
  have hw := allDigits_takeWhile cs
  have hcs : cs.takeWhile Digit.isDecimal ++ cs.dropWhile Digit.isDecimal = cs := List.takeWhile_append_dropWhile
  rw [readDecimal?_eq] at h
  generalize cs.takeWhile Digit.isDecimal = w at h hw hcs
  generalize cs.dropWhile Digit.isDecimal = y at h hcs
  obtain ⟨p, hp, hy⟩ := readFraction_spec y
  dsimp only at h
  generalize (readFraction y).1 = f at h hp
  generalize (readFraction y).2 = z at h hy
  obtain ⟨x, hx, hz, hexponent⟩ := readExponent_spec z
  split at h
  · cases h
  · rename_i hempty
    obtain ⟨rfl, rfl⟩ := Prod.mk.inj (Option.some.inj h)
    have hne : w ≠ [] ∨ f ≠ [] := by
      simpa [← not_and_or] using hempty
    refine ⟨w ++ (p ++ x), .mk hw hp hne hx, ?_, ?_⟩
    · rw [← hcs, hy, List.append_assoc, List.append_assoc, ← hz]
    · have hspan := hw.span (hp.head hx)
      rw [readDecimal?_eq]
      dsimp only
      rw [hspan.1, hspan.2, hp.read hx]
      dsimp only
      rw [if_neg hempty, hexponent]

/-- A decimal number is read to its end at least. -/
theorem DecimalText.read (hd : DecimalText d) (tail : List Char) :
    ∃ n rest, readDecimal? (d ++ tail) = some (n, rest) ∧ rest.length ≤ tail.length := by
  obtain ⟨hw, hp, hne, hx⟩ := hd
  rename_i w p f x
  obtain ⟨hlength, hfraction⟩ := hp.read_append hx tail
  rw [readDecimal?_eq, List.append_assoc, List.append_assoc]
  dsimp only
  rw [List.takeWhile_append_of_pos hw, List.dropWhile_append_of_pos hw, if_neg]
  · exact ⟨_, _, rfl, hlength⟩
  · intro hempty
    obtain ⟨hwhole, hempty⟩ := Bool.and_eq_true_iff.1 hempty
    rcases hne with hne | hne
    · exact hne (List.append_eq_nil_iff.1 (List.isEmpty_iff.1 hwhole)).1
    · exact hfraction hne (List.isEmpty_iff.1 hempty)

/-- A decimal number begins with a digit or a point. -/
theorem DecimalText.head (hd : DecimalText d) (tail : List Char) :
    ∀ c ∈ (d ++ tail).head?, Digit.isDecimal c = true ∨ c = '.' := by
  obtain ⟨hw, hp, hne, hx⟩ := hd
  rename_i w p f x
  intro c hc
  cases w with
  | cons first w =>
    obtain rfl := Option.some.inj hc
    exact .inl (hw _ (.head _))
  | nil =>
    cases hp with
    | none => exact absurd rfl (hne.resolve_left fun h => h rfl)
    | point hf => exact .inr (Option.some.inj hc).symm

theorem DecimalText.head_ne (hd : DecimalText d) (tail : List Char) (hdigit : Digit.isDecimal c = false)
    (hpoint : c ≠ '.') : ∀ c' ∈ (d ++ tail).head?, c' ≠ c := by
  rintro c' hc' rfl
  rcases hd.head tail _ hc' with h | h
  · exact Bool.noConfusion (hdigit.symm.trans h)
  · exact hpoint h

/-! ## Numerals under a sign -/

namespace Number

/-- Reads the numeral at the front of a text, with its sign. -/
def readSigned? (cs : List Char) : Option (Number × List Char) :=
  let (negative, rest) := readSign cs
  match Text.after? infinityName rest with
  | some rest => some (infinity negative, rest)
  | none => (readDecimal? rest).map fun (n, rest) => (ofNumeral negative n, rest)

theorem isNaN_ofFloat {x : Float} (hx : x.isNaN = false) : (ofFloat x).isNaN = false := by
  unfold ofFloat
  rw [hx, if_neg Bool.false_ne_true]
  split
  · split <;> rfl
  · rfl

theorem isNaN_ofNumeral (negative : Bool) (n : Numeral) : (ofNumeral negative n).isNaN = false := by
  have hfloat : n.toFloat.isNaN = false := Binary64.isNaN_ofDecimal _ _
  refine isNaN_ofFloat ?_
  split
  · exact Binary64.isNaN_neg hfloat
  · exact hfloat

theorem after?_of_head_ne (h : ∀ c ∈ cs.head?, c ≠ 'I') : Text.after? infinityName cs = none := by
  cases cs with
  | nil => rfl
  | cons c cs => exact if_neg (h c rfl).symm

theorem readSigned?_infinity (h : readSign cs = (negative, infinityName ++ rest)) :
    readSigned? cs = some (infinity negative, rest) := by
  have hafter : Text.after? infinityName (infinityName ++ rest) = some rest := Text.after?_eq_some_iff.2 rfl
  unfold readSigned?
  rw [h]
  dsimp only
  rw [hafter]

theorem readSigned?_decimal {n : Numeral} (hd : DecimalText d) (h : readSign cs = (negative, d ++ tail))
    (hread : readDecimal? (d ++ tail) = some (n, rest)) : readSigned? cs = some (ofNumeral negative n, rest) := by
  unfold readSigned?
  rw [h]
  dsimp only
  rw [after?_of_head_ne (hd.head_ne tail (by decide) (by decide)), hread]
  rfl

end Number

open Number

theorem SignText.readSign_decimal (hsign : SignText sign negative) (hd : DecimalText d) (tail : List Char) :
    PageScript.readSign (sign ++ (d ++ tail)) = (negative, d ++ tail) :=
  hsign.readSign (hd.head_ne tail (by decide) (by decide)) (hd.head_ne tail (by decide) (by decide))

theorem SignText.readSign_infinity (hsign : SignText sign negative) (tail : List Char) :
    PageScript.readSign (sign ++ (infinityName ++ tail)) = (negative, infinityName ++ tail) := by
  refine hsign.readSign ?_ ?_ <;>
  · intro c hc
    obtain rfl := Option.some.inj hc
    decide

/-- What is read is a numeral, and it is read the same by itself. -/
theorem readSigned?_spec {n : Number} (h : readSigned? cs = some (n, rest)) :
    ∃ d, NumeralText d ∧ cs = d ++ rest ∧ readSigned? d = some (n, []) ∧ n.isNaN = false := by
  obtain ⟨sign, hsign, hcs⟩ := readSign_spec cs
  unfold readSigned? at h
  dsimp only at h
  generalize (readSign cs).1 = negative at h hsign
  generalize (readSign cs).2 = y at h hcs
  split at h
  · rename_i left hafter
    obtain ⟨rfl, rfl⟩ := Prod.mk.inj (Option.some.inj h)
    obtain rfl := Text.after?_eq_some_iff.1 hafter
    have hread := hsign.readSign_infinity []
    rw [List.append_nil] at hread
    refine ⟨sign ++ infinityName, .infinity hsign, by rw [hcs, List.append_assoc], ?_, by cases negative <;> rfl⟩
    exact readSigned?_infinity (hread.trans (by rw [List.append_nil]))
  · obtain ⟨⟨numeral, left⟩, hdecimal, heq⟩ := Option.map_eq_some_iff.1 h
    obtain ⟨rfl, rfl⟩ := Prod.mk.inj heq
    obtain ⟨d, hd, rfl, hread⟩ := readDecimal?_spec hdecimal
    have hsigned := hsign.readSign_decimal hd []
    refine ⟨sign ++ d, .decimal hsign hd, by rw [hcs, List.append_assoc], ?_, isNaN_ofNumeral negative numeral⟩
    refine readSigned?_decimal hd (?_ : _ = (negative, d ++ [])) (by rwa [List.append_nil])
    rwa [List.append_nil] at hsigned ⊢

/-- A numeral is read to its end at least. -/
theorem NumeralText.read (hd : NumeralText d) (tail : List Char) :
    ∃ n rest, readSigned? (d ++ tail) = some (n, rest) ∧ rest.length ≤ tail.length := by
  cases hd with
  | decimal hsign hd =>
    obtain ⟨n, rest, hread, hlength⟩ := hd.read tail
    have hsigned := hsign.readSign_decimal hd tail
    rw [← List.append_assoc] at hsigned
    exact ⟨_, rest, readSigned?_decimal hd hsigned hread, hlength⟩
  | infinity hsign =>
    have hsigned := hsign.readSign_infinity tail
    rw [← List.append_assoc] at hsigned
    exact ⟨_, tail, readSigned?_infinity hsigned, Nat.le_refl _⟩

/-! ## Characters of numerals -/

/-- Whether a character is neither a blank nor the letter of a hexadecimal mark. -/
def IsPlain (c : Char) : Prop := Text.isBlank c = false ∧ c ≠ 'x' ∧ c ≠ 'X'

instance : DecidablePred IsPlain := fun c =>
  inferInstanceAs (Decidable (Text.isBlank c = false ∧ c ≠ 'x' ∧ c ≠ 'X'))

theorem AllDigits.plain (hw : AllDigits w) : ∀ c ∈ w, IsPlain c := by
  intro c hc
  obtain ⟨hlt, hchar⟩ := Digit.digitChar_of_isDecimal (hw c hc)
  have hall : ∀ d < 10, IsPlain (Nat.digitChar d) := by decide
  rw [← hchar]
  exact hall _ hlt

theorem SignText.plain (hsign : SignText sign negative) : ∀ c ∈ sign, IsPlain c := by
  cases hsign with
  | none => exact nofun
  | plus => exact List.forall_mem_singleton.2 (by decide)
  | minus => exact List.forall_mem_singleton.2 (by decide)

theorem FractionText.plain (hp : FractionText p f) : ∀ c ∈ p, IsPlain c := by
  cases hp with
  | none => exact nofun
  | point hf => exact List.forall_mem_cons.2 ⟨by decide, hf.plain⟩

theorem ExponentText.plain (hx : ExponentText x) : ∀ c ∈ x, IsPlain c := by
  cases hx with
  | none => exact nofun
  | some hmark hsign hw hne =>
    refine List.forall_mem_cons.2 ⟨?_, List.forall_mem_append.2 ⟨hsign.plain, hw.plain⟩⟩
    rcases hmark with rfl | rfl <;> decide

theorem NumeralText.plain (hd : NumeralText d) : ∀ c ∈ d, IsPlain c := by
  cases hd with
  | decimal hsign hd =>
    obtain ⟨hw, hp, hne, hx⟩ := hd
    exact List.forall_mem_append.2 ⟨hsign.plain,
      List.forall_mem_append.2 ⟨hw.plain, List.forall_mem_append.2 ⟨hp.plain, hx.plain⟩⟩⟩
  | infinity hsign => exact List.forall_mem_append.2 ⟨hsign.plain, by decide⟩

theorem NumeralText.ne_nil (hd : NumeralText d) : d ≠ [] := by
  rintro rfl
  obtain ⟨n, rest, hread, -⟩ := hd.read []
  cases hread

/-! ## Blanks -/

/-- What has no blanks is trimmed to itself, also from blanks behind it. -/
theorem trim_append (hd : ∀ c ∈ d, Text.isBlank c = false) (hne : d ≠ [])
    (hblank : ∀ c ∈ tail, Text.isBlank c = true) : Text.trim (d ++ tail) = d := by
  have hkeep : ∀ {cs : List Char} (rest : List Char), cs ≠ [] → (∀ c ∈ cs, Text.isBlank c = false) →
      (cs ++ rest).dropWhile Text.isBlank = cs ++ rest := by
    intro cs rest hne hcs
    obtain ⟨c, cs, rfl⟩ := List.exists_cons_of_ne_nil hne
    exact List.dropWhile_cons_of_neg (Bool.eq_false_iff.1 (hcs c (.head _)))
  have hreverse := hkeep [] (mt List.reverse_eq_nil_iff.1 hne) fun c hc => hd c (List.mem_reverse.1 hc)
  rw [List.append_nil] at hreverse
  unfold Text.trim Text.trimStart
  rw [hkeep tail hne hd, List.reverse_append,
    List.dropWhile_append_of_pos fun c hc => hblank c (List.mem_reverse.1 hc), hreverse, List.reverse_reverse]

/-- What is trimmed at the end is blank. -/
theorem trim_spec (h : Text.trimStart cs = cs) :
    ∃ tail, cs = Text.trim cs ++ tail ∧ ∀ c ∈ tail, Text.isBlank c = true := by
  refine ⟨(cs.reverse.takeWhile Text.isBlank).reverse, ?_, fun c hc => ?_⟩
  · unfold Text.trim
    rw [h, ← List.reverse_append, List.takeWhile_append_dropWhile, List.reverse_reverse]
  · exact List.all_eq_true.1 List.all_takeWhile c (List.mem_reverse.1 hc)

namespace Number

/-! ## Whole texts and their fronts -/

theorem ofFront_eq (s : String) :
    ofFront s = ((readSigned? (Text.trimStart s.toList)).map Prod.fst).getD .nan := by
  unfold ofFront readSigned?
  dsimp only
  cases Text.after? infinityName (readSign (Text.trimStart s.toList)).2 with
  | some rest => rfl
  | none => cases readDecimal? (readSign (Text.trimStart s.toList)).2 <;> rfl

/-- A text that is no hexadecimal numeral is a number if a numeral is all that it is. -/
theorem ofText_eq (s : String) (hne : Text.trim s.toList ≠ []) (hmark : afterHexMark? (Text.trim s.toList) = none) :
    ofText s = match readSigned? (Text.trim s.toList) with
      | some (n, []) => n
      | _ => .nan := by
  unfold ofText readSigned?
  dsimp only
  rw [if_neg (by simpa using hne), hmark]
  dsimp only
  generalize (readSign (Text.trim s.toList)).2 = y
  cases hafter : Text.after? infinityName y with
  | some rest =>
    obtain rfl := Text.after?_eq_some_iff.1 hafter
    cases rest with
    | nil => exact if_pos (List.append_nil _)
    | cons c rest => exact if_neg (by simp)
  | none =>
    have hne : y ≠ infinityName := by
      rintro rfl
      cases hafter
    rw [if_neg hne]
    cases readDecimal? y with
    | none => rfl
    | some read =>
      obtain ⟨n, rest⟩ := read
      cases rest <;> rfl

theorem readSigned?_of_ofText {s : String} (hne : Text.trim s.toList ≠ [])
    (hmark : afterHexMark? (Text.trim s.toList) = none) (hnan : (ofText s).isNaN = false) :
    readSigned? (Text.trim s.toList) = some (ofText s, []) := by
  rw [ofText_eq s hne hmark] at hnan ⊢
  split at hnan
  · assumption
  · cases hnan

/-! ## The longest front that is a number -/

/-- Whether a text is a number in front of another one, behind its blanks, and not a hexadecimal one. -/
structure NumericFront (s p : String) : Prop where
  front : p.toList <+: Text.trimStart s.toList
  ne_empty : p ≠ ""
  decimal : ¬['0', 'x'] <+: p.toList ∧ ¬['0', 'X'] <+: p.toList
  number : (ofText p).isNaN = false

theorem afterHexMark?_eq_none_iff : afterHexMark? cs = none ↔ ¬['0', 'x'] <+: cs ∧ ¬['0', 'X'] <+: cs := by
  constructor
  · intro h
    constructor <;> rintro ⟨rest, rfl⟩ <;> cases h
  · rintro ⟨hlower, hupper⟩
    unfold afterHexMark?
    split
    · exact absurd ⟨_, rfl⟩ hlower
    · exact absurd ⟨_, rfl⟩ hupper
    · rfl

theorem not_hex_of_forall (h : ∀ c ∈ cs, c ≠ 'x' ∧ c ≠ 'X') : ¬['0', 'x'] <+: cs ∧ ¬['0', 'X'] <+: cs :=
  ⟨fun hx => (h _ (hx.subset (.tail _ (.head _)))).1 rfl, fun hx => (h _ (hx.subset (.tail _ (.head _)))).2 rfl⟩

/-- A front behind the blanks has none before it. -/
theorem trimStart_front (hcs : cs <+: Text.trimStart d) : Text.trimStart cs = cs := by
  cases cs with
  | nil => rfl
  | cons c cs =>
    obtain ⟨rest, hrest⟩ := hcs
    have hhead := List.head?_dropWhile_not Text.isBlank d
    rw [show d.dropWhile Text.isBlank = c :: cs ++ rest from hrest.symm] at hhead
    have hc : Text.isBlank c = false := hhead
    exact List.dropWhile_cons_of_neg (Bool.eq_false_iff.1 hc)

variable {s : String} {n : Number}

/-- A number in front is a numeral with blanks behind it. -/
theorem NumericFront.numeral {q : String} (h : NumericFront s q) :
    ∃ d tail, q.toList = d ++ tail ∧ (∀ c ∈ tail, Text.isBlank c = true) ∧ NumeralText d := by
  have hstart := trimStart_front h.front
  obtain ⟨tail, hq, hblank⟩ := trim_spec hstart
  have hne : Text.trim q.toList ≠ [] := by
    intro hempty
    have hdrop : (tail ++ []).dropWhile Text.isBlank = [] := List.dropWhile_append_of_pos hblank
    rw [List.append_nil] at hdrop
    rw [hempty, List.nil_append] at hq
    rw [hq, Text.trimStart, hdrop, ← hq] at hstart
    exact h.ne_empty (String.toList_eq_nil_iff.1 hstart.symm)
  have hmark : afterHexMark? (Text.trim q.toList) = none := by
    have hfront : Text.trim q.toList <+: q.toList := ⟨tail, hq.symm⟩
    exact afterHexMark?_eq_none_iff.2 ⟨fun hx => h.decimal.1 (hx.trans hfront), fun hx => h.decimal.2 (hx.trans hfront)⟩
  obtain ⟨d, hd, heq, -⟩ := readSigned?_spec (readSigned?_of_ofText hne hmark h.number)
  rw [List.append_nil] at heq
  exact ⟨d, tail, heq ▸ hq, hblank, hd⟩

/-- A numeral with blanks behind it is a number in front. -/
theorem numericFront_of_numeral {q : String} (hd : NumeralText d) (hread : readSigned? d = some (n, []))
    (hnan : n.isNaN = false) (hblank : ∀ c ∈ tail, Text.isBlank c = true) (hq : q.toList = d ++ tail)
    (hfront : q.toList <+: Text.trimStart s.toList) : NumericFront s q ∧ ofText q = n := by
  have hdecimal : ∀ c ∈ q.toList, c ≠ 'x' ∧ c ≠ 'X' := by
    rw [hq]
    refine List.forall_mem_append.2 ⟨fun c hc => (hd.plain c hc).2, fun c hc => ?_⟩
    constructor <;> rintro rfl <;> cases hblank _ hc
  have htrim : Text.trim q.toList = d := by
    rw [hq, trim_append (fun c hc => (hd.plain c hc).1) hd.ne_nil hblank]
  have hvalue : ofText q = n := by
    have hmark := afterHexMark?_eq_none_iff.2 (not_hex_of_forall fun c hc => (hd.plain c hc).2)
    rw [ofText_eq q (by rw [htrim]; exact hd.ne_nil) (by rwa [htrim]), htrim, hread]
  have hne : q ≠ "" := by
    rintro rfl
    exact hd.ne_nil (List.append_eq_nil_iff.1 hq.symm).1
  exact ⟨⟨hfront, hne, not_hex_of_forall hdecimal, hvalue ▸ hnan⟩, hvalue⟩

/-- No number in front is longer than the numeral that is read, with the blanks behind it. -/
theorem NumericFront.length_le {q : String} (h : NumericFront s q)
    (hread : readSigned? (Text.trimStart s.toList) = some (n, rest)) (hd : NumeralText d)
    (hs : Text.trimStart s.toList = d ++ rest) :
    q.toList.length ≤ (d ++ rest.takeWhile Text.isBlank).length := by
  obtain ⟨d', tail, hq, hblank, hd'⟩ := h.numeral
  obtain ⟨left, hleft⟩ := h.front
  rw [hq, List.append_assoc] at hleft
  obtain ⟨n', rest', hread', hlength⟩ := hd'.read (tail ++ left)
  rw [hleft, hread] at hread'
  obtain ⟨-, rfl⟩ := Prod.mk.inj (Option.some.inj hread')
  have htotal := congrArg List.length (hleft.trans hs)
  simp only [List.length_append] at htotal hlength
  have hprefix : d' <+: d := List.prefix_of_prefix_length_le ⟨_, hleft⟩ ⟨_, hs.symm⟩ (by omega)
  obtain ⟨more, rfl⟩ := hprefix
  have hmore : tail ++ left = more ++ rest := by
    rw [hs, List.append_assoc] at hleft
    exact List.append_cancel_left hleft
  rw [hq]
  simp only [List.length_append]
  cases more with
  | nil =>
    rw [List.nil_append] at hmore
    rw [← hmore, List.takeWhile_append_of_pos hblank, List.length_append]
    simp
  | cons c more =>
    cases tail with
    | nil => simp; omega
    | cons b tail =>
      obtain ⟨rfl, -⟩ := List.cons.inj hmore
      have hplain := (hd.plain b (by simp)).1
      rw [hblank b (.head _)] at hplain
      cases hplain

theorem ofText_congr {q : String} (h : Text.trim q.toList = Text.trim s.toList) : ofText q = ofText s := by
  unfold ofText
  rw [h]

/-- The longest front that is a number, if there is one. -/
theorem ofFront_of_longest (s : String) :
    (∃ q, NumericFront s q ∧ (∀ r, NumericFront s r → r.length ≤ q.length) ∧ ofFront s = ofText q) ∨
      (∀ q, ¬NumericFront s q) ∧ ofFront s = .nan := by
  rw [ofFront_eq]
  cases hread : readSigned? (Text.trimStart s.toList) with
  | none =>
    refine .inr ⟨fun q h => ?_, rfl⟩
    obtain ⟨d, tail, hq, -, hd⟩ := h.numeral
    obtain ⟨left, hleft⟩ := h.front
    obtain ⟨n, rest, hsome, -⟩ := hd.read (tail ++ left)
    rw [← List.append_assoc, ← hq, hleft, hread] at hsome
    cases hsome
  | some read =>
    obtain ⟨n, rest⟩ := read
    obtain ⟨d, hd, hs, hself, hnan⟩ := readSigned?_spec hread
    let q := String.ofList (d ++ rest.takeWhile Text.isBlank)
    have hq : q.toList = d ++ rest.takeWhile Text.isBlank := String.toList_ofList
    have hblank : ∀ c ∈ rest.takeWhile Text.isBlank, Text.isBlank c = true :=
      List.all_eq_true.1 List.all_takeWhile
    have hfront : q.toList <+: Text.trimStart s.toList := by
      rw [hq, hs]
      exact (List.prefix_append_right_inj d).2 (List.takeWhile_prefix _)
    obtain ⟨hnumeric, hvalue⟩ := numericFront_of_numeral hd hself hnan hblank hq hfront
    refine .inl ⟨q, hnumeric, fun r hr => ?_, hvalue.symm⟩
    have hlength := hr.length_le hread hd hs
    rwa [← hq, String.length_toList, String.length_toList] at hlength

/-- The number at the front of a text is that of the longest front that is a number, or else there is no such front.
So it is the number of the whole text, where that is a numeral between blanks. -/
theorem ofFront_longest (s : String) :
    ((∃ q, NumericFront s q ∧ (∀ r, NumericFront s r → r.length ≤ q.length) ∧ ofFront s = ofText q) ∨
      (∀ q, ¬NumericFront s q) ∧ ofFront s = .nan) ∧
    (NumeralText (Text.trim s.toList) → ofFront s = ofText s ∧ (ofText s).isNaN = false) := by
  refine ⟨ofFront_of_longest s, fun hnumeral => ?_⟩
  let q := String.ofList (Text.trimStart s.toList)
  have hq : q.toList = Text.trimStart s.toList := String.toList_ofList
  have hwhole : q.toList <+: Text.trimStart s.toList := ⟨[], by rw [List.append_nil, hq]⟩
  have hstart : Text.trimStart q.toList = q.toList := trimStart_front hwhole
  have htrim : Text.trim q.toList = Text.trim s.toList := by
    unfold Text.trim
    rw [hstart, hq]
  obtain ⟨tail, hsplit, hblank⟩ := trim_spec hstart
  obtain ⟨n, rest, hread, hrest⟩ := hnumeral.read []
  obtain rfl : rest = [] := List.length_eq_zero_iff.1 (Nat.le_zero.1 hrest)
  rw [List.append_nil] at hread
  obtain ⟨-, -, -, -, hnan⟩ := readSigned?_spec hread
  obtain ⟨hnumeric, hvalue⟩ := numericFront_of_numeral hnumeral hread hnan hblank (htrim ▸ hsplit) hwhole
  rw [← ofText_congr htrim, hvalue]
  obtain ⟨r, hr, hlongest, hfront⟩ | ⟨hnone, -⟩ := ofFront_of_longest s
  · have hlength := hlongest q hnumeric
    rw [← String.length_toList, ← String.length_toList] at hlength
    have hsame := List.IsPrefix.eq_of_length_le (hq ▸ hr.front) hlength
    rw [hfront, String.toList_inj.1 hsame, hvalue]
    exact ⟨rfl, hnan⟩
  · exact absurd hnumeric (hnone q)

/-- A number with a fraction and an exponent, between blanks. -/
theorem ofFront_longest_blanks :
    NumeralText (Text.trim " -12.5e3\n".toList) ∧ ofFront " -12.5e3\n" = ofText " -12.5e3\n" ∧
      (ofText " -12.5e3\n").isNaN = false := by
  have hdecimal : DecimalText "12.5e3".toList :=
    .mk (w := ['1', '2']) (x := ['e', '3']) (List.all_eq_true.1 rfl) (.point (f := ['5']) (List.all_eq_true.1 rfl))
      (.inl (by decide)) (.some (.inl rfl) .none (w := ['3']) (List.all_eq_true.1 rfl) (by decide))
  have hnumeral : NumeralText (Text.trim " -12.5e3\n".toList) := .decimal .minus hdecimal
  exact ⟨hnumeral, (ofFront_longest " -12.5e3\n").2 hnumeral⟩

/-- An exponent without digits is left over, and so is a point without digits before or after it. -/
example : ofFront "5.e+" = ofText "5." ∧ ofFront "-.e5" = .nan := ⟨rfl, rfl⟩

end Number

end PageScript
