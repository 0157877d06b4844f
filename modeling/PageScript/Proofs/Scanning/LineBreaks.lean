import PageScript.Source.Lexer

/-! # Lines of a text

The scan counts lines while it passes over line breaks, in blanks, in comments and in string literals.
Whatever it reads, the line it has reached and the line breaks that are still before it come to the same
number.  A token ends on its line; only a string literal may have begun on an earlier one.
-/

set_option autoImplicit false

namespace PageScript

namespace Text

/-! ## Line breaks -/

/-- The number of line breaks of a text; a carriage return with a line feed behind it is one. -/
def lineBreaks : List Char → Nat
  | [] => 0
  | '\r' :: '\n' :: cs => lineBreaks cs + 1
  | c :: cs => lineBreaks cs + if isLineBreak c then 1 else 0

variable {c : Char} {cs ds rest : List Char}

theorem lineBreaks_cons (hc : isLineBreak c = false) (cs : List Char) :
    lineBreaks (c :: cs) = lineBreaks cs := by
  rw [lineBreaks.eq_3]
  · rw [hc]
    rfl
  · rintro cs rfl
    cases hc

/-- Only a carriage return takes something along, and only a line feed. -/
theorem afterBreak_eq_self (hpair : ¬(c = '\r' ∧ ∃ more, cs = '\n' :: more)) : afterBreak c cs = cs := by
  unfold afterBreak
  split
  · rename_i more
    exact if_neg fun h => hpair ⟨h, more, rfl⟩
  · rfl

theorem lineBreaks_break (hc : isLineBreak c = true) (cs : List Char) :
    lineBreaks (c :: cs) = lineBreaks (afterBreak c cs) + 1 := by
  by_cases hpair : c = '\r' ∧ ∃ more, cs = '\n' :: more
  · obtain ⟨rfl, more, rfl⟩ := hpair
    rfl
  · rw [lineBreaks.eq_3, hc, afterBreak_eq_self hpair]
    · rfl
    · rintro more rfl rfl
      exact hpair ⟨rfl, more, rfl⟩

theorem afterBreak_suffix (c : Char) (cs : List Char) : afterBreak c cs <:+ cs := by
  unfold afterBreak
  split
  · split
    · exact List.suffix_cons ..
    · exact List.suffix_refl _
  · exact List.suffix_refl _

/-- A text is cut between two lines, or within one, but not between a carriage return and its line feed. -/
theorem lineBreaks_append (hds : ∀ c ∈ ds.head?, c ≠ '\n') (cs : List Char) :
    lineBreaks (cs ++ ds) = lineBreaks cs + lineBreaks ds := by
  fun_induction lineBreaks cs with
  | case1 => rw [List.nil_append, Nat.zero_add]
  | case2 cs ih =>
    rw [List.cons_append, List.cons_append, lineBreaks, ih]
    omega
  | case3 c cs hpair ih =>
    rw [List.cons_append, lineBreaks.eq_3, ih]
    · omega
    · rintro more rfl hmore
      cases cs with
      | nil => exact hds '\n' (by rw [show ds = '\n' :: more from hmore]; rfl) rfl
      | cons d cs =>
        cases hmore
        exact hpair cs rfl rfl

/-- No line break is cut behind a line feed. -/
theorem lineBreaks_line (cs ds : List Char) :
    lineBreaks (cs ++ '\n' :: ds) = lineBreaks (cs ++ ['\n']) + lineBreaks ds := by
  fun_induction lineBreaks cs with
  | case1 =>
    have hfeed : lineBreaks ('\n' :: ds) = lineBreaks ds + 1 := by
      rw [lineBreaks_break (by decide), afterBreak_eq_self (by rintro ⟨⟨⟩, -⟩)]
    rw [List.nil_append, hfeed, Nat.add_comm]
    rfl
  | case2 cs ih =>
    rw [List.cons_append, List.cons_append, lineBreaks, List.cons_append, List.cons_append, lineBreaks, ih]
    omega
  | case3 c cs hpair ih =>
    by_cases hreturn : c = '\r' ∧ cs = []
    · obtain ⟨rfl, rfl⟩ := hreturn
      rw [List.singleton_append, lineBreaks, Nat.add_comm]
      rfl
    · have hplain : ∀ {es more : List Char}, c = '\r' → cs ++ '\n' :: es = '\n' :: more → False := by
        intro es more hc hmore
        cases cs with
        | nil => exact hreturn ⟨hc, rfl⟩
        | cons d cs =>
          cases hmore
          exact hpair cs hc rfl
      rw [List.cons_append, List.cons_append, lineBreaks.eq_3, lineBreaks.eq_3, ih]
      · omega
      · exact fun _ => hplain
      · exact fun _ => hplain

/-- The characters that end a line. -/
def breakers : List Char := ['\n', '\r', '\u2028', '\u2029']

/-- A class of characters without line breaks. -/
theorem not_isLineBreak {p : Char → Bool} (hp : ∀ c ∈ breakers, p c = false) (hc : p c = true) :
    isLineBreak c = false := by
  cases hbreak : isLineBreak c with
  | false => rfl
  | true =>
    simp only [isLineBreak, Bool.or_eq_true, beq_iff_eq] at hbreak
    have hmem : c ∈ breakers := by
      rcases hbreak with ((rfl | rfl) | rfl) | rfl <;> decide
    rw [hp c hmem] at hc
    cases hc

/-- Whether a text goes on with `rest` on the line on which it begins. -/
def Reaches (cs rest : List Char) : Prop :=
  ∃ word, cs = word ++ rest ∧ ∀ c ∈ word, isLineBreak c = false

namespace Reaches

theorem refl (cs : List Char) : Reaches cs cs := ⟨[], rfl, nofun⟩

theorem trans (h : Reaches cs ds) (h' : Reaches ds rest) : Reaches cs rest := by
  obtain ⟨word, rfl, hword⟩ := h
  obtain ⟨word', rfl, hword'⟩ := h'
  refine ⟨word ++ word', (List.append_assoc ..).symm, fun c hc => ?_⟩
  rcases List.mem_append.1 hc with hc | hc
  · exact hword c hc
  · exact hword' c hc

theorem cons (hc : isLineBreak c = false) (h : Reaches cs rest) : Reaches (c :: cs) rest :=
  trans ⟨[c], rfl, fun d hd => by rw [List.mem_singleton.1 hd, hc]⟩ h

theorem dropWhile {p : Char → Bool} (hp : ∀ c, p c = true → isLineBreak c = false) (cs : List Char) :
    Reaches cs (cs.dropWhile p) :=
  ⟨cs.takeWhile p, List.takeWhile_append_dropWhile.symm,
    fun c hc => hp c (List.all_eq_true.1 List.all_takeWhile c hc)⟩

/-- The digits at the front of a text stand on its line. -/
theorem drop_digits {radix n : Nat} (h : n ≤ (Digit.values radix cs).length) : Reaches cs (cs.drop n) := by
  induction cs generalizing n with
  | nil => rw [List.drop_nil]; exact refl []
  | cons c cs ih =>
    cases n with
    | zero => exact refl _
    | succ n =>
      rw [Digit.values] at h
      split at h
      · rename_i d hd
        have hnone : ∀ c ∈ breakers, (Digit.value? radix c).isSome = false := by
          intro c hc
          simp only [breakers, List.mem_cons, List.not_mem_nil, or_false] at hc
          rcases hc with rfl | rfl | rfl | rfl <;> rfl
        exact cons (not_isLineBreak hnone (by rw [hd]; rfl)) (ih (Nat.le_of_succ_le_succ h))
      · cases h

theorem lineBreaks_eq (h : Reaches cs rest) : lineBreaks cs = lineBreaks rest := by
  obtain ⟨word, rfl, hword⟩ := h
  induction word with
  | nil => rfl
  | cons c word ih =>
    rw [List.cons_append, lineBreaks_cons (hword c (.head _)), ih fun d hd => hword d (.tail _ hd)]

end Reaches

end Text

theorem Mark.eq_of_read? {m : Mark} {cs rest : List Char} (h : Mark.read? cs = some (m, rest)) :
    cs = m.spelling.toList ++ rest := by
  obtain ⟨⟨word, m'⟩, hmem, hafter⟩ := List.exists_of_findSome?_eq_some h
  simp only [Option.map_eq_some_iff, Prod.mk.injEq] at hafter
  obtain ⟨rest', hafter, rfl, rfl⟩ := hafter
  obtain ⟨m'', -, hword⟩ := List.mem_map.1 hmem
  cases hword
  exact Text.after?_eq_some_iff.1 hafter

namespace Lexeme

variable {c quote : Char} {line : Nat} {cs : List Char} {p : Piece}

/-! ## Readers -/

/-- The line that is reached behind a comment, and the line breaks behind it. -/
theorem skipComment_lines {broken : Bool} {r : Nat × Bool × List Char}
    (h : skipComment line broken cs = .ok r) :
    r.1 + Text.lineBreaks r.2.2 = line + Text.lineBreaks cs := by
  fun_induction skipComment line broken cs with
  | case1 => cases h
  | case2 line broken c cs hend =>
    cases h
    obtain ⟨rfl, hslash⟩ := hend
    cases cs with
    | nil => cases hslash
    | cons d cs =>
      cases hslash
      rw [Text.lineBreaks_cons (by decide), Text.lineBreaks_cons (by decide)]
      rfl
  | case3 line broken c cs _ hbreak ih =>
    rw [ih h, Text.lineBreaks_break hbreak]
    omega
  | case4 line broken c cs _ hbreak ih =>
    rw [ih h, Text.lineBreaks_cons (Bool.not_eq_true _ ▸ hbreak)]

theorem skipComment_suffix {broken : Bool} {r : Nat × Bool × List Char}
    (h : skipComment line broken cs = .ok r) : r.2.2 <:+ cs := by
  fun_induction skipComment line broken cs with
  | case1 => cases h
  | case2 line broken c cs =>
    cases h
    exact (List.tail_suffix cs).trans (List.suffix_cons c cs)
  | case3 line broken c cs _ _ ih => exact (ih h).trans ((Text.afterBreak_suffix c cs).trans (List.suffix_cons c cs))
  | case4 line broken c cs _ _ ih => exact (ih h).trans (List.suffix_cons c cs)

theorem length_values_take_le (radix n : Nat) (cs : List Char) :
    (Digit.values radix (cs.take n)).length ≤ (Digit.values radix cs).length := by
  induction cs generalizing n with
  | nil => exact Nat.le_of_eq (by rw [List.take_nil])
  | cons c cs ih =>
    cases n with
    | zero => exact Nat.zero_le _
    | succ n =>
      rw [List.take_succ_cons, Digit.values, Digit.values]
      split
      · exact Nat.succ_le_succ (ih n)
      · exact Nat.le_refl _

theorem readHexEscape_reaches {count : Nat} {e : Escape} (h : readHexEscape count cs = .ok e) :
    e.breaks = 0 ∧ Text.Reaches cs e.rest := by
  simp only [readHexEscape] at h
  split at h
  · rename_i hlength
    cases h
    exact ⟨rfl, .drop_digits (hlength ▸ length_values_take_le 16 count cs)⟩
  · cases h

theorem readOctalEscape_reaches (c : Char) (cs : List Char) :
    Text.Reaches cs (readOctalEscape c cs).rest := by
  refine .drop_digits (Nat.le_trans ?_ (length_values_take_le 8 (if c ≤ '3' then 2 else 1) cs))
  rw [Digit.values]
  split
  · exact Nat.le_of_eq (Nat.add_sub_cancel ..)
  · exact Nat.zero_le _

theorem readEscape_lines {e : Escape} (h : readEscape cs = .ok e) :
    e.breaks + Text.lineBreaks e.rest = Text.lineBreaks cs := by
  unfold readEscape at h
  split at h
  · cases h
  · rename_i c cs
    -- Whatever the character behind the backslash, it is a line break only if it counts as one.
    have hplain : ∀ {e : Escape}, Text.isLineBreak c = false → e.breaks = 0 → Text.Reaches cs e.rest →
        e.breaks + Text.lineBreaks e.rest = Text.lineBreaks (c :: cs) := fun hc hzero hreach => by
      rw [hzero, Nat.zero_add, Text.lineBreaks_cons hc, hreach.lineBreaks_eq]
    split at h
    · rename_i c' hc'
      cases h
      have hnone : ∀ c ∈ Text.breakers, (simpleEscape? c).isSome = false := by decide
      exact hplain (Text.not_isLineBreak hnone (by rw [hc']; rfl)) rfl (.refl cs)
    · split at h
      · rename_i hoctal
        cases h
        have hnone : ∀ c ∈ Text.breakers, decide ('0' ≤ c ∧ c ≤ '7') = false := by decide
        exact hplain (Text.not_isLineBreak hnone (decide_eq_true hoctal)) rfl (readOctalEscape_reaches c cs)
      · split at h
        · rename_i hx
          subst hx
          obtain ⟨hzero, hreach⟩ := readHexEscape_reaches h
          exact hplain (by decide) hzero hreach
        · split at h
          · rename_i hu
            subst hu
            obtain ⟨hzero, hreach⟩ := readHexEscape_reaches h
            exact hplain (by decide) hzero hreach
          · split at h
            · rename_i hbreak
              cases h
              rw [Text.lineBreaks_break hbreak, Nat.add_comm]
            · rename_i hbreak
              cases h
              exact hplain (Bool.not_eq_true _ ▸ hbreak) rfl (.refl cs)

theorem readEscape_suffix {e : Escape} (h : readEscape cs = .ok e) : e.rest <:+ cs := by
  have hhex : ∀ {count : Nat} {cs : List Char}, readHexEscape count cs = .ok e → e.rest <:+ cs := by
    intro count cs h
    obtain ⟨-, word, hword, -⟩ := readHexEscape_reaches h
    exact ⟨word, hword.symm⟩
  unfold readEscape at h
  split at h
  · cases h
  · rename_i c cs
    refine List.IsSuffix.trans ?_ (List.suffix_cons c cs)
    split at h
    · cases h
      exact List.suffix_refl _
    · split at h
      · cases h
        exact List.drop_suffix ..
      · split at h
        · exact hhex h
        · split at h
          · exact hhex h
          · split at h
            · cases h
              exact Text.afterBreak_suffix c cs
            · cases h
              exact List.suffix_refl _

theorem readString_lines {read : List Char} (hquote : Text.isLineBreak quote = false)
    (h : readString quote line read cs = .ok p) :
    p.line + Text.lineBreaks p.rest = line + Text.lineBreaks cs := by
  fun_induction readString quote line read cs with
  | case1 => cases h
  | case2 line read cs =>
    cases h
    rw [Text.lineBreaks_cons hquote]
  | case3 => cases h
  | case4 => cases h
  | case5 line read cs e he _ _ ih =>
    have := readEscape_lines he
    rw [ih h, Text.lineBreaks_cons (by decide)]
    omega
  | case6 line read c cs _ hbreak _ ih => rw [ih h, Text.lineBreaks_cons (Bool.not_eq_true _ ▸ hbreak)]

/-- A string literal ends with its quote. -/
theorem readString_quote {read : List Char} (h : readString quote line read cs = .ok p) :
    ∃ body, cs = body ++ quote :: p.rest := by
  fun_induction readString quote line read cs with
  | case1 => cases h
  | case2 line read cs =>
    cases h
    exact ⟨[], rfl⟩
  | case3 => cases h
  | case4 => cases h
  | case5 line read cs e he _ _ ih =>
    obtain ⟨body, hbody⟩ := ih h
    obtain ⟨front, hfront⟩ := readEscape_suffix he
    exact ⟨'\\' :: (front ++ body), by rw [← hfront, hbody, List.cons_append, List.append_assoc]⟩
  | case6 line read c cs _ _ _ ih =>
    obtain ⟨body, hbody⟩ := ih h
    exact ⟨c :: body, by rw [hbody, List.cons_append]⟩

/-! ### Numbers -/

theorem reaches_decimals (cs : List Char) : Text.Reaches cs (cs.dropWhile Digit.isDecimal) :=
  .dropWhile (fun _ => Text.not_isLineBreak (by decide)) cs

theorem spanFraction_reaches (cs : List Char) : Text.Reaches cs (spanFraction cs).2 := by
  unfold spanFraction
  split
  · exact .cons (by decide) (reaches_decimals _)
  · exact .refl _

theorem spanExponent_reaches (cs : List Char) : Text.Reaches cs (spanExponent cs).2 := by
  unfold spanExponent
  split
  · exact .refl _
  · rename_i mark cs
    split
    · rename_i hmark
      have hmark : Text.isLineBreak mark = false := by
        rcases hmark with rfl | rfl <;> decide
      split
      · rename_i sign more
        split
        · rename_i hsign
          refine .cons hmark (.cons ?_ (reaches_decimals more))
          rcases hsign with rfl | rfl <;> decide
        · exact .cons hmark (reaches_decimals _)
      · exact .cons hmark (.refl _)
    · exact .refl _

theorem numeralPiece_rest {spelling rest : List Char} (h : numeralPiece spelling line rest = .ok p) :
    p.line = line ∧ p.rest = rest := by
  unfold numeralPiece at h
  split at h
  · cases h
    exact ⟨rfl, rfl⟩
  · cases h

theorem decimalPiece_rest {digits : List Char} {fraction exponent : List Char × List Char}
    (h : decimalPiece c line digits fraction exponent = .ok p) : p.line = line ∧ p.rest = exponent.2 := by
  simp only [decimalPiece] at h
  split at h
  · split at h
    · cases h
      exact ⟨rfl, rfl⟩
    · exact numeralPiece_rest h
  · split at h
    · cases h
    · exact numeralPiece_rest h

theorem readNumber_reaches (hc : Text.isLineBreak c = false) (h : readNumber c line cs = .ok p) :
    p.line = line ∧ Text.Reaches (c :: cs) p.rest := by
  unfold readNumber at h
  split at h
  · rename_i hex hmark
    have hhex : Text.Reaches (c :: cs) hex := by
      unfold Number.afterHexMark? at hmark
      split at hmark
      · rename_i heq
        cases hmark
        cases heq
        exact .cons (by decide) (.cons (by decide) (.refl _))
      · rename_i heq
        cases hmark
        cases heq
        exact .cons (by decide) (.cons (by decide) (.refl _))
      · cases hmark
    simp only [hexPiece] at h
    split at h
    · cases h
    · cases h
      exact ⟨rfl, hhex.trans (.drop_digits (Nat.le_refl _))⟩
  · obtain ⟨hline, hrest⟩ := decimalPiece_rest h
    refine ⟨hline, ?_⟩
    rw [hrest]
    refine .cons hc ((reaches_decimals cs).trans (.trans ?_ (spanExponent_reaches _)))
    split
    · exact .refl _
    · exact spanFraction_reaches _

/-! ### Tokens -/

/-- A token other than a string literal stands on one line. -/
theorem readToken_reaches (hc : Text.isLineBreak c = false) (hquote : ¬(c = '\'' ∨ c = '"'))
    (h : readToken c line cs = .ok p) : p.line = line ∧ Text.Reaches (c :: cs) p.rest := by
  unfold readToken at h
  rw [if_neg hquote] at h
  split at h
  · exact readNumber_reaches hc h
  · split at h
    · cases h
      refine ⟨rfl, .cons hc (.dropWhile (fun _ => Text.not_isLineBreak ?_) cs)⟩
      decide +kernel
    · split at h
      · rename_i m rest hmark
        cases h
        have hplain : ∀ c ∈ m.spelling.toList, Text.isLineBreak c = false := by cases m <;> decide
        exact ⟨rfl, m.spelling.toList, Mark.eq_of_read? hmark, hplain⟩
      · cases h

theorem readToken_suffix (hc : Text.isLineBreak c = false) (h : readToken c line cs = .ok p) :
    p.rest.length ≤ cs.length ∧ p.rest <:+ c :: cs := by
  refine ⟨length_readToken_le h, ?_⟩
  by_cases hquote : c = '\'' ∨ c = '"'
  · unfold readToken at h
    rw [if_pos hquote] at h
    obtain ⟨body, rfl⟩ := readString_quote h
    exact ⟨c :: (body ++ [c]), by simp only [List.cons_append, List.append_assoc, List.nil_append]⟩
  · obtain ⟨-, word, hword, -⟩ := readToken_reaches hc hquote h
    exact ⟨word, hword.symm⟩

/-- The line that a token ends on, and the line breaks behind it. -/
theorem readToken_lines (hc : Text.isLineBreak c = false) (h : readToken c line cs = .ok p) :
    p.line + Text.lineBreaks p.rest = line + Text.lineBreaks (c :: cs) := by
  by_cases hquote : c = '\'' ∨ c = '"'
  · unfold readToken at h
    rw [if_pos hquote] at h
    rw [Text.lineBreaks_cons hc, readString_lines hc h]
  · obtain ⟨hline, hreach⟩ := readToken_reaches hc hquote h
    rw [hline, hreach.lineBreaks_eq]

/-- A token ends on the line on which it begins, unless it is a string literal that goes on over line breaks. -/
theorem readToken_word (hc : Text.isLineBreak c = false) (h : readToken c line cs = .ok p) :
    ∃ word, c :: cs = word ++ p.rest ∧ p.line = line + Text.lineBreaks word ∧
      (Text.lineBreaks word = 0 ∨ ∃ more, word = c :: more ∧ (c = '\'' ∨ c = '"')) := by
  by_cases hquote : c = '\'' ∨ c = '"'
  · have hlines := readToken_lines hc h
    unfold readToken at h
    rw [if_pos hquote] at h
    obtain ⟨body, rfl⟩ := readString_quote h
    have hcut : ∀ more : List Char, Text.lineBreaks (c :: body ++ c :: more) =
        Text.lineBreaks (c :: body) + Text.lineBreaks more := by
      intro more
      rw [Text.lineBreaks_append ?_ (c :: body), Text.lineBreaks_cons hc more]
      rintro d hd rfl
      cases hd
      cases hc
    refine ⟨c :: body ++ [c], by rw [List.append_assoc]; rfl, ?_, .inr ⟨_, rfl, hquote⟩⟩
    rw [← List.cons_append, hcut] at hlines
    rw [hcut]
    have hnil : Text.lineBreaks [] = 0 := rfl
    omega
  · obtain ⟨hline, word, hword, hplain⟩ := readToken_reaches hc hquote h
    have hnone : Text.lineBreaks word = 0 :=
      (Text.Reaches.lineBreaks_eq ⟨word, (List.append_nil word).symm, hplain⟩).trans rfl
    exact ⟨word, hword, by rw [hline, hnone, Nat.add_zero], .inl hnone⟩

end Lexeme

end PageScript
