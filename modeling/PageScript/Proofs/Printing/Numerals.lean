import PageScript.Proofs.Printing.Scanning

/-! # Scanning numerals

How a number is written and read is a matter of doubles, so `Number.ReadsBack` says that the text of a
number is read back as the number when it stands alone.  Here it follows that the same is true in front of
any text that does not go on with the numeral.
-/

set_option autoImplicit false

namespace PageScript

/-- Whether a number is read back off its text, with nothing left over. -/
def Number.ReadsBack (n : Number) : Prop :=
  ∃ c cs, n.text.toList = c :: cs ∧ Lexeme.readToken c 1 cs = .ok ⟨.number n, 1, []⟩

namespace Lexeme

/-- What may follow a numeral: no character goes on with it, and none makes it a word. -/
structure EndsNumeral (rest : List Char) : Prop where
  digit : ∀ c ∈ rest.head?, Digit.value? 16 c = none
  decimal : ∀ c ∈ rest.head?, Digit.isDecimal c = false
  word : ∀ c ∈ rest.head?, Text.isIdentifierStart c = false
  mark : ∀ c ∈ rest.head?, c ∉ ['.', '+', '-']

/-- A piece of a text with more text behind it. -/
def Piece.append (p : Piece) (rest : List Char) : Piece := { p with rest := p.rest ++ rest }

variable {c : Char} {line : Nat} {cs rest : List Char}

/-! ## Numerals in front of a text -/

theorem length_values_le (radix : Nat) (cs : List Char) : (Digit.values radix cs).length ≤ cs.length := by
  induction cs with
  | nil => exact Nat.le_refl 0
  | cons c cs ih =>
    rw [Digit.values]
    split
    · exact Nat.succ_le_succ ih
    · exact Nat.zero_le _

/-- A decimal numeral is the same in front of any text. -/
theorem numeralPiece_append (spelling left : List Char) :
    numeralPiece spelling line (left ++ rest) = (numeralPiece spelling line left).map (·.append rest) := by
  unfold numeralPiece
  split <;> rfl

/-- Digits end before what is none. -/
theorem values_append {radix : Nat} (hrest : ∀ c ∈ rest.head?, Digit.value? radix c = none) (cs : List Char) :
    Digit.values radix (cs ++ rest) = Digit.values radix cs := by
  induction cs with
  | nil =>
    cases rest with
    | nil => rfl
    | cons c rest => rw [List.nil_append, Digit.values, Digit.values, hrest c rfl]
  | cons c cs ih => rw [List.cons_append, Digit.values, Digit.values, ih]

namespace EndsNumeral

variable (h : EndsNumeral rest)

include h

theorem head_ne {c' : Char} (hc' : Text.isIdentifierStart c' = true) : ∀ c ∈ rest.head?, c ≠ c' := by
  rintro c hc rfl
  rw [h.word c hc] at hc'
  cases hc'

theorem afterHexMark?_append (c : Char) (cs : List Char) :
    Number.afterHexMark? (c :: (cs ++ rest)) = (Number.afterHexMark? (c :: cs)).map (· ++ rest) := by
  cases cs with
  | nil =>
    unfold Number.afterHexMark?
    split
    · rename_i heq
      rw [List.nil_append] at heq
      exact absurd rfl (h.head_ne (by decide) 'x' (by rw [(List.cons.inj heq).2]; rfl))
    · rename_i heq
      rw [List.nil_append] at heq
      exact absurd rfl (h.head_ne (by decide) 'X' (by rw [(List.cons.inj heq).2]; rfl))
    · split
      · rename_i heq
        cases heq
      · rename_i heq
        cases heq
      · rfl
  | cons mark cs =>
    unfold Number.afterHexMark?
    rw [List.cons_append]
    split
    · rename_i heq
      cases heq
      rfl
    · rename_i heq
      cases heq
      rfl
    · rename_i hlower hupper
      split
      · rename_i heq
        cases heq
        exact absurd rfl (hlower _)
      · rename_i heq
        cases heq
        exact absurd rfl (hupper _)
      · rfl

theorem values_append (cs : List Char) : Digit.values 16 (cs ++ rest) = Digit.values 16 cs :=
  Lexeme.values_append h.digit cs

theorem spanFraction_append (cs : List Char) :
    spanFraction (cs ++ rest) = ((spanFraction cs).1, (spanFraction cs).2 ++ rest) := by
  cases cs with
  | nil =>
    unfold spanFraction
    split
    · rename_i more heq
      rw [List.nil_append] at heq
      exact absurd (by decide) (h.mark '.' (by rw [heq]; rfl))
    · rfl
  | cons c cs =>
    by_cases hc : c = '.'
    · subst hc
      show ('.' :: (cs ++ rest).takeWhile Digit.isDecimal, (cs ++ rest).dropWhile Digit.isDecimal) = _
      rw [(Text.span_append cs h.decimal).1, (Text.span_append cs h.decimal).2]
      rfl
    · unfold spanFraction
      split
      · rename_i heq
        exact absurd (List.cons.inj heq).1 hc
      · split
        · rename_i heq
          exact absurd (List.cons.inj heq).1 hc
        · rfl

theorem spanExponent_append (cs : List Char) :
    spanExponent (cs ++ rest) = ((spanExponent cs).1, (spanExponent cs).2 ++ rest) := by
  have hsign : ∀ c ∈ rest.head?, ¬(c = '+' ∨ c = '-') := by
    rintro c hc (rfl | rfl)
    · exact h.mark _ hc (by decide)
    · exact h.mark _ hc (by decide)
  cases cs with
  | nil =>
    cases rest with
    | nil => rfl
    | cons c rest =>
      have hc : ¬(c = 'e' ∨ c = 'E') := fun hc =>
        hc.elim (h.head_ne (by decide) c rfl) (h.head_ne (by decide) c rfl)
      exact if_neg hc
  | cons mark cs =>
    rw [List.cons_append]
    unfold spanExponent
    dsimp only
    split
    · cases cs with
      | nil =>
        cases rest with
        | nil => rfl
        | cons c rest =>
          have hc : ¬Digit.isDecimal c = true := by rw [h.decimal c rfl]; exact Bool.false_ne_true
          dsimp only [List.nil_append]
          rw [if_neg (hsign c rfl), List.takeWhile_cons_of_neg hc, List.dropWhile_cons_of_neg hc]
      | cons sign more =>
        dsimp only [List.cons_append]
        split
        · rw [(Text.span_append more h.decimal).1, (Text.span_append more h.decimal).2]
        · have hspan := Text.span_append (sign :: more) h.decimal
          rw [List.cons_append] at hspan
          rw [hspan.1, hspan.2]
    · rfl

theorem hexPiece_append (cs : List Char) :
    hexPiece line (cs ++ rest) = (hexPiece line cs).map (·.append rest) := by
  simp only [hexPiece]
  rw [h.values_append, List.drop_append_of_le_length (length_values_le 16 cs)]
  split <;> rfl

theorem decimalPiece_append (digits : List Char) (fraction exponent : List Char × List Char) :
    decimalPiece c line digits (fraction.1, fraction.2 ++ rest) (exponent.1, exponent.2 ++ rest)
      = (decimalPiece c line digits fraction exponent).map (·.append rest) := by
  have hword : (exponent.2 ++ rest).head?.any Text.isIdentifierStart =
      exponent.2.head?.any Text.isIdentifierStart := by
    cases exponent.2 with
    | cons => rfl
    | nil =>
      cases hhead : rest.head? with
      | none => rw [List.nil_append, hhead]; rfl
      | some c => rw [List.nil_append, hhead]; exact h.word c hhead
  simp only [decimalPiece]
  rw [hword, numeralPiece_append]
  split
  · split <;> rfl
  · split <;> rfl

/-- A number is read in front of `rest` as it is by itself. -/
theorem readNumber_append (c : Char) (cs : List Char) :
    readNumber c line (cs ++ rest) = (readNumber c line cs).map (·.append rest) := by
  unfold readNumber
  rw [h.afterHexMark?_append]
  cases Number.afterHexMark? (c :: cs) with
  | some hex => exact h.hexPiece_append hex
  | none =>
    dsimp only [Option.map_none]
    rw [(Text.span_append cs h.decimal).1, (Text.span_append cs h.decimal).2]
    by_cases hdot : c = '.'
    · rw [if_pos hdot, if_pos hdot, h.spanExponent_append]
      exact h.decimalPiece_append _ ([], cs.dropWhile Digit.isDecimal) _
    · rw [if_neg hdot, if_neg hdot, h.spanFraction_append, h.spanExponent_append]
      exact h.decimalPiece_append ..

end EndsNumeral

/-! ## Numbers -/

theorem readString_token {quote : Char} {line : Nat} {read : List Char} {p : Piece}
    (h : readString quote line read cs = .ok p) : ∃ s, p.token = .string s := by
  fun_induction readString quote line read cs with
  | case1 => cases h
  | case2 =>
    cases h
    exact ⟨_, rfl⟩
  | case3 => cases h
  | case4 => cases h
  | case5 =>
    rename_i ih
    exact ih h
  | case6 =>
    rename_i ih
    exact ih h

theorem ofWord_ne_number (name : String) (n : Number) : ofWord name ≠ .number n := by
  unfold ofWord
  split
  · exact Token.noConfusion
  · exact Token.noConfusion
  · exact Token.noConfusion
  · split
    · exact Token.noConfusion
    · exact Token.noConfusion

/-- Only a digit, or a point before one, begins a number. -/
theorem readNumber_of_readToken {n : Number} {p : Piece} (h : readToken c 1 cs = .ok p)
    (hp : p.token = .number n) :
    (c.isDigit = true ∨ c = '.' ∧ cs.head?.any Digit.isDecimal = true) ∧ readNumber c 1 cs = .ok p := by
  unfold readToken at h
  split at h
  · obtain ⟨s, hs⟩ := readString_token h
    rw [hs] at hp
    cases hp
  · split at h
    · rename_i hnumber
      exact ⟨hnumber, h⟩
    · split at h
      · cases h
        exact absurd hp (ofWord_ne_number _ n)
      · split at h
        · cases h
          cases hp
        · cases h

/-- A number that is read back is scanned as itself. -/
theorem scan_number {n : Number} (hn : n.ReadsBack) (hrest : EndsNumeral rest) :
    scan 1 false (n.text.toList ++ rest) = ⟨.number n, 1, false⟩ :: scan 1 false rest := by
  obtain ⟨c, cs, htext, hread⟩ := hn
  obtain ⟨hnumber, hread⟩ := readNumber_of_readToken hread rfl
  have hc : c ∈ '.' :: Text.digits := by
    rcases hnumber with hdigit | ⟨rfl, -⟩
    · exact .tail _ (Text.mem_digits_of_isDecimal hdigit)
    · exact .head _
  have hchar : ∀ c ∈ '.' :: Text.digits, Text.isBlank c = false ∧ c ≠ '/' ∧ c ≠ '<' ∧
      ¬(c = '\'' ∨ c = '"') := by decide
  obtain ⟨hblank, hslash, hless, hquote⟩ := hchar c hc
  have hnumber' : c.isDigit = true ∨ c = '.' ∧ (cs ++ rest).head?.any Digit.isDecimal = true := by
    refine hnumber.imp_right fun hdot => ⟨hdot.1, ?_⟩
    cases cs with
    | nil => cases hdot.2
    | cons d cs => exact hdot.2
  have htoken : readToken c 1 (cs ++ rest) = .ok ⟨.number n, 1, rest⟩ := by
    unfold readToken
    rw [if_neg hquote, if_pos hnumber', hrest.readNumber_append, hread]
    rfl
  have hcomment := afterCommentMark?_eq_none hslash hless (cs ++ rest)
  rw [htext]
  exact scan_token hblank hcomment.1 hcomment.2 htoken false

end Lexeme

end PageScript
