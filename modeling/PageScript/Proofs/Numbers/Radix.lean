import PageScript.Embedding.Interpreter
import PageScript.Embedding.Stock
import PageScript.Proofs.Numbers.Doubles
import PageScript.Proofs.Reads

/-! # Whole numbers in a radix

The digits of a whole number are written by division, last digit first, and read by multiplication, first digit
first.  Below `2 ^ 53` neither rounds, and the text of the number is the same however it is come by: in radix ten it
is what a number is shown as.
-/

set_option autoImplicit false

namespace PageScript

/-! ## Digits -/

namespace Digit

variable {radix d : Nat} {ds : List Nat}

/-- A digit is read as what it was written for. -/
theorem value?_char (hd : d < radix) (hradix : radix ≤ 36) : value? radix (char d) = some d := by
  have hall : ∀ e < 36, value? 36 (char e) = some e := by decide
  have h := hall d (Nat.lt_of_lt_of_le hd hradix)
  unfold value? at h ⊢
  dsimp only at h ⊢
  rw [Option.filter_eq_some_iff] at h ⊢
  exact ⟨h.1, decide_eq_true hd⟩

theorem values_map_char (hds : ∀ d ∈ ds, d < radix) (hradix : radix ≤ 36) :
    values radix (ds.map char) = ds := by
  induction ds with
  | nil => rfl
  | cons d ds ih =>
    obtain ⟨hd, hds⟩ := List.forall_mem_cons.1 hds
    rw [List.map_cons, values, value?_char hd hradix, ih hds]

/-- No digit is a blank or a sign. -/
theorem char_plain (hd : d < 36) : Text.isBlank (char d) = false ∧ char d ≠ '-' ∧ char d ≠ '+' := by
  have hall : ∀ e < 36, Text.isBlank (char e) = false ∧ char e ≠ '-' ∧ char e ≠ '+' := by decide
  exact hall d hd

/-- No hexadecimal digit belongs to the mark of hexadecimal numerals. -/
theorem char_ne_x (hd : d < 16) : char d ≠ 'x' ∧ char d ≠ 'X' := by
  have hall : ∀ e < 16, char e ≠ 'x' ∧ char e ≠ 'X' := by decide
  exact hall d hd

end Digit

namespace Number

variable {r n : Nat} {i : Int}

theorem wholeDigits_of_lt (hn : n < r) : wholeDigits r n = [n] := by
  rw [wholeDigits, dif_pos (.inr hn)]

theorem wholeDigits_ne_nil (r n : Nat) : wholeDigits r n ≠ [] := by
  unfold wholeDigits
  split <;> exact List.cons_ne_nil _ _

theorem lt_of_mem_wholeDigits (hr : 2 ≤ r) (n : Nat) : ∀ d ∈ wholeDigits r n, d < r := by
  fun_induction wholeDigits r n with
  | case1 n hn => simp; omega
  | case2 n hn ih => exact List.forall_mem_cons.2 ⟨Nat.mod_lt _ (by omega), ih⟩

/-- A number is the value of its digits. -/
theorem value_wholeDigits (r n : Nat) : (wholeDigits r n).reverse.foldl (fun n d => n * r + d) 0 = n := by
  rw [List.foldl_reverse]
  fun_induction wholeDigits r n with
  | case1 n hn => simp
  | case2 n hn ih => rw [List.foldr_cons, ih, Nat.div_add_mod']

/-- In radix ten they are the digits that a natural number is shown with. -/
theorem toDigits_eq (n : Nat) : Nat.toDigits 10 n = (wholeDigits 10 n).reverse.map Digit.char := by
  have hchar : ∀ d < 10, Nat.digitChar d = Digit.char d := by decide
  fun_induction wholeDigits 10 n with
  | case1 n hn =>
    have hn : n < 10 := by omega
    rw [Nat.toDigits_of_lt_base hn, hchar n hn]
    rfl
  | case2 n hn ih =>
    rw [Nat.toDigits_of_base_le (by decide) (by omega), ih, hchar (n % 10) (by omega)]
    simp

/-! ## Writing -/

/-- A double as the texts of whole numbers are made of it. -/
structure Shows (x : Float) (i : Int) : Prop where
  abs : x.abs = Binary64.ofNat i.natAbs
  lt_zero : x < 0.0 ↔ i < 0
  isWhole : Binary64.isWhole x = true
  magnitude : Binary64.magnitude x = i.natAbs
  isNegative : i ≠ 0 → Binary64.isNegative x = decide (i < 0)

/-- The text of an integer in a radix. -/
def integerText (r : Nat) (i : Int) : String :=
  (if i < 0 then "-" else "") ++ String.ofList ((wholeDigits r i.natAbs).reverse.map Digit.char)

theorem largeDigits_ofNat (hn : n < 2 ^ 53) (limit : Nat) :
    largeDigits r (limit + 1) (Binary64.ofNat n) = wholeDigits r n := by
  have hmagnitude := (Binary64.isNat_ofNat hn).magnitude
  rw [largeDigits, hmagnitude, if_pos hn]

theorem fractionDigits_zero (limit : Nat) : fractionDigits r limit 0.0 = [] := by
  cases limit with
  | zero => rfl
  | succ limit => exact if_pos (by decide)

variable {x : Float}

/-- In a radix no digit of an integer follows a point. -/
theorem radixText_integer (hx : Shows x i) (hi : i.natAbs < 2 ^ 53) (r : Nat) : radixText x r = integerText r i := by
  have hwhole : Binary64.truncate x.abs = Binary64.ofNat i.natAbs := by rw [hx.abs, Binary64.truncate_ofNat hi]
  unfold radixText integerText
  dsimp only
  rw [hwhole, hx.abs, Binary64.sub_self_ofNat hi, fractionDigits_zero, largeDigits_ofNat hi]
  simp only [hx.lt_zero, List.isEmpty_nil, if_pos, List.map_nil, String.ofList_nil, String.append_empty]

theorem finiteText_integer (hx : Shows x i) (hi : i.natAbs < 2 ^ 53) : finiteText x = integerText 10 i := by
  unfold finiteText integerText
  dsimp only
  rw [hx.isWhole, hx.magnitude, Bool.true_and, decide_eq_true hi, if_pos rfl]
  split
  · rename_i hzero
    obtain rfl : i = 0 := by omega
    rw [show (0 : Int).natAbs = 0 from rfl, wholeDigits_of_lt (by decide)]
    rfl
  · rename_i hzero
    rw [hx.isNegative (by omega), ← toDigits_eq]
    simp only [decide_eq_true_eq]
    rfl

theorem shows_ofInt (hi : i.natAbs < 2 ^ 53) : Shows (Binary64.ofInt i) i := by
  refine ⟨Binary64.abs_ofInt hi, Binary64.ofInt_lt_zero hi, ?_, ?_, ?_⟩
  all_goals by_cases hzero : i = 0
  · subst hzero
    exact Binary64.isNat_zero.isWhole
  · rw [Binary64.ofInt_eq_word hzero hi]
    exact Binary64.isWhole_word _ (by omega) hi
  · subst hzero
    exact Binary64.isNat_zero.magnitude
  · rw [Binary64.ofInt_eq_word hzero hi]
    exact Binary64.magnitude_word _ (by omega) hi
  · exact fun hne => absurd hzero hne
  · rw [Binary64.ofInt_eq_word hzero hi]
    exact fun _ => (Binary64.normal_word _ (by omega) hi).isNegative

/-- Zero is written without its sign. -/
theorem shows_negativeZero : Shows (-0.0) 0 := by
  obtain ⟨power, hdyadic⟩ : ∃ power, Binary64.dyadic (-0.0) = ⟨true, 0, power⟩ := ⟨-1074, by decide⟩
  refine ⟨rfl, by decide, ?_, Binary64.magnitude_of_significand_zero hdyadic, fun h => absurd rfl h⟩
  unfold Binary64.isWhole
  rw [hdyadic]
  exact decide_eq_true (Nat.zero_mod _)

/-! ## Reading -/

variable {ds : List Nat}

theorem le_foldl_digits (hr : 1 ≤ r) (n : Nat) (ds : List Nat) : n ≤ ds.foldl (fun n d => n * r + d) n := by
  induction ds generalizing n with
  | nil => exact Nat.le_refl n
  | cons d ds ih =>
    have hle : n * 1 ≤ n * r := Nat.mul_le_mul_left n hr
    have hrest := ih (n * r + d)
    rw [List.foldl_cons]
    omega

/-- Where the whole number is exact, so is every one on the way to it. -/
theorem ofDigitsAfter_exact (hr : 1 ≤ r) (h : ds.foldl (fun n d => n * r + d) n < 2 ^ 53) :
    ofDigitsAfter r n ds = Binary64.ofNat (ds.foldl (fun n d => n * r + d) n) := by
  induction ds generalizing n with
  | nil => rfl
  | cons d ds ih =>
    rw [List.foldl_cons] at h ⊢
    have hle := le_foldl_digits hr (n * r + d) ds
    rw [ofDigitsAfter, if_pos (by omega), ih h]

theorem ofDigits_wholeDigits (hr : 1 ≤ r) (hn : n < 2 ^ 53) :
    ofDigits r (wholeDigits r n).reverse = Binary64.ofNat n := by
  have hvalue := value_wholeDigits r n
  unfold ofDigits
  rw [ofDigitsAfter_exact hr (by rwa [hvalue]), hvalue]

/-- Hexadecimal digits alone are no hexadecimal mark. -/
theorem afterHexMark?_digits (hds : ∀ d ∈ ds, d < 16) : afterHexMark? (ds.map Digit.char) = none := by
  have hne : ∀ c ∈ ds.map Digit.char, c ≠ 'x' ∧ c ≠ 'X' := by
    intro c hc
    obtain ⟨d, hd, rfl⟩ := List.mem_map.1 hc
    exact Digit.char_ne_x (hds d hd)
  unfold afterHexMark?
  split
  · rename_i heq
    rw [heq] at hne
    exact absurd rfl (hne 'x' (.tail _ (.head _))).1
  · rename_i heq
    rw [heq] at hne
    exact absurd rfl (hne 'X' (.tail _ (.head _))).2
  · rfl

theorem readSign_integerText (hlo : 2 ≤ r) (hhi : r ≤ 36) (i : Int) :
    readSign (Text.trimStart (integerText r i).toList)
      = (decide (i < 0), (wholeDigits r i.natAbs).reverse.map Digit.char) := by
  have hdigits : ∀ d ∈ (wholeDigits r i.natAbs).reverse, d < r := fun d hd =>
    lt_of_mem_wholeDigits hlo _ d (List.mem_reverse.1 hd)
  obtain ⟨d, ds, hds⟩ := List.exists_cons_of_ne_nil (mt List.reverse_eq_nil_iff.1 (wholeDigits_ne_nil r i.natAbs))
  rw [hds] at hdigits
  obtain ⟨hblank, hminus, hplus⟩ := Digit.char_plain (Nat.lt_of_lt_of_le (hdigits d (.head _)) hhi)
  unfold integerText
  rw [String.toList_append, String.toList_ofList, hds, List.map_cons]
  split
  · rename_i hneg
    rw [decide_eq_true hneg]
    rfl
  · rename_i hneg
    rw [decide_eq_false hneg]
    show readSign (List.dropWhile Text.isBlank (Digit.char d :: _)) = _
    rw [List.dropWhile_cons, hblank, if_neg Bool.false_ne_true]
    unfold readSign
    split
    · rename_i heq
      exact absurd (List.cons.inj heq).1 hminus
    · rename_i heq
      exact absurd (List.cons.inj heq).1 hplus
    · rfl

/-- Digits are read in the radix that is asked for, also where they begin like a hexadecimal mark. -/
theorem ofRadixText_digits {s : String} {negative : Bool} (hlo : 2 ≤ r) (hhi : r ≤ 36) (hne : ds ≠ [])
    (hds : ∀ d ∈ ds, d < r) (hs : readSign (Text.trimStart s.toList) = (negative, ds.map Digit.char)) :
    ofRadixText s r = ofFloat (if negative then -ofDigits r ds else ofDigits r ds) := by
  have hvalues := Digit.values_map_char hds hhi
  have hempty : ds.isEmpty = false := List.isEmpty_eq_false_iff.2 hne
  have hzero : ¬(r : Int) = 0 := by omega
  unfold ofRadixText
  rw [hs]
  dsimp only
  rw [if_neg (by omega)]
  cases hmark : afterHexMark? (ds.map Digit.char) with
  | none =>
    dsimp only
    rw [if_neg hzero, Int.toNat_natCast, hvalues, hempty, if_neg Bool.false_ne_true]
  | some hex =>
    have hsixteen : ¬((r : Int) = 0 ∨ (r : Int) = 16) := by
      rintro (hr | hr)
      · exact hzero hr
      · obtain rfl : r = 16 := by omega
        rw [afterHexMark?_digits hds] at hmark
        cases hmark
    simp only [if_neg hsixteen, Int.toNat_natCast, hvalues, hempty, if_neg Bool.false_ne_true]

/-- In its own radix the text of an integer is read as the integer. -/
theorem ofRadixText_integerText (hi : i.natAbs < 2 ^ 53) (hlo : 2 ≤ r) (hhi : r ≤ 36) :
    ofRadixText (integerText r i) r = .ofInt i := by
  have hds : ∀ d ∈ (wholeDigits r i.natAbs).reverse, d < r := fun d hd =>
    lt_of_mem_wholeDigits hlo _ d (List.mem_reverse.1 hd)
  have hne := mt List.reverse_eq_nil_iff.1 (wholeDigits_ne_nil r i.natAbs)
  rw [ofRadixText_digits hlo hhi hne hds (readSign_integerText hlo hhi i), ofDigits_wholeDigits (by omega) hi]
  simp only [decide_eq_true_eq]
  rfl

end Number

/-! ## Writing and reading -/

namespace Script

variable {r : Nat} {i : Int} {e : Engine} {m : Machine} {others : List Value}

theorem toText_radix (x : Float) (hlo : 2 ≤ r) (hhi : r ≤ 36) :
    applyNumber .toText (.number (.finite x)) (.ofNat r :: others) e m
      = .value (.string (if r = 10 then Number.finiteText x else Number.radixText x r)) m := by
  show numberText (.number (.finite x)) (.ofNat r :: others) e m = _
  have hposition : toPosition (.ofNat r) e m = .value (.at r) m := by
    show Outcome.value (Position.ofNumber (.ofNat r)) m = _
    rw [Position.ofNumber_ofNat (by omega)]
  have hthis : thisNumber (.number (.finite x)) e m = .value (.finite x) m := rfl
  refine (bind_of_value hthis _).trans ((bind_of_value hposition _).trans ?_)
  dsimp only
  split
  · rename_i hten
    subst hten
    rfl
  · rename_i hten
    refine congrFun (congrFun (show _ = (pure (.string (Number.radixText x r)) : Script Value) from ?_) e) m
    split
    · rename_i heq
      injection heq
      omega
    · rename_i k hten heq
      injection heq with hk
      subst hk
      rw [if_pos (by omega), Int.toNat_natCast]
    · rename_i hother
      exact (hother r rfl).elim

theorem parseInt_radix (t : String) (hr : r ≤ 36) :
    applyGlobal .parseInt (.string t :: .ofNat r :: others) e m = .value (.number (.ofRadixText t r)) m := by
  have htoInt : ∀ k : Nat, k ≤ 36 → k.toUInt32.toInt32.toInt = (k : Int) := by decide
  have hint : (Number.ofNat r).toInt32.toInt = r := by
    have h : (Number.ofNat r).toUInt32 = r.toUInt32 := by
      refine UInt32.toNat_inj.1 ?_
      rw [Number.toUInt32_ofNat (by omega), Nat.toUInt32_eq, UInt32.toNat_ofNat']
      omega
    unfold Number.toInt32
    rw [h, htoInt r hr]
  show Outcome.value (Value.number (.ofRadixText t (Number.ofNat r).toInt32.toInt)) m = _
  rw [hint]

/-- What an integer is written as in a radix from 2 to 36 is read as the integer in this radix, and so is the text of
negative zero, for zero. -/
theorem parseInt_toText {n : Number} (hn : n = .ofInt i ∨ n = .signedZero true ∧ i = 0)
    (hi : i.natAbs < 2 ^ 53) (hlo : 2 ≤ r) (hhi : r ≤ 36) (e : Engine) (m : Machine) (others : List Value) :
    let t := Number.integerText r i
    applyNumber .toText (.number n) (.ofNat r :: others) e m = .value (.string t) m ∧
      applyGlobal .parseInt (.string t :: .ofNat r :: others) e m = .value (.number (.ofInt i)) m ∧
      (Number.ofInt i).equal n = true := by
  intro t
  obtain ⟨x, rfl, hx, hequal⟩ : ∃ x, n = .finite x ∧ Number.Shows x i ∧ (Binary64.ofInt i == x) = true := by
    obtain rfl | ⟨rfl, rfl⟩ := hn
    · exact ⟨_, Number.ofInt_eq_finite hi, Number.shows_ofInt hi, Binary64.beq_self (Binary64.isInt_ofInt hi).isNaN⟩
    · exact ⟨-0.0, rfl, Number.shows_negativeZero, by decide⟩
  have htext : (if r = 10 then Number.finiteText x else Number.radixText x r) = t := by
    split
    · rename_i hten
      subst hten
      exact Number.finiteText_integer hx hi
    · exact Number.radixText_integer hx hi r
  refine ⟨?_, ?_, ?_⟩
  · rw [toText_radix x hlo hhi, htext]
  · rw [parseInt_radix t hhi, Number.ofRadixText_integerText hi hlo hhi]
  · rw [Number.ofInt_eq_finite hi]
    exact hequal

/-- Letters as digits, also the one of the hexadecimal mark, behind a sign. -/
theorem parseInt_toText_letters :
    let e : Engine := .upTo {} (Stock.host (Stock.scripted none [] [])) 100
    let m := Interpreter.initialMachine {}
    (-1221 : Int).natAbs < 2 ^ 53 ∧
      applyNumber .toText (.number (.ofInt (-1221))) [.ofNat 36] e m = .value (.string "-xx") m ∧
      applyGlobal .parseInt [.string "-xx", .ofNat 36] e m = .value (.number (.ofInt (-1221))) m := by
  intro e m
  have hi : (-1221 : Int).natAbs < 2 ^ 53 := by decide
  have htext : Number.integerText 36 (-1221) = "-xx" := by
    simp [Number.integerText, Number.wholeDigits]
    decide
  obtain ⟨hwritten, hread, -⟩ := parseInt_toText (.inl rfl) hi (show 2 ≤ 36 by decide) (by decide) e m []
  rw [htext] at hwritten hread
  exact ⟨hi, hwritten, hread⟩

end Script

end PageScript
