import PageScript.Proofs.Printing.Texts
import PageScript.Proofs.Scanning.Shifts

/-! # Scanning a text in front of another one

A text in front of a line feed, a closing parenthesis or a semicolon is scanned as it is by itself: none of
these characters goes on with a token.  Only a comment at the end of the text could run on over them, which a
line feed does not allow to comments that end with their line.  A text that cannot be scanned by itself cannot
be scanned there, either, if the text behind it closes no string literal and no comment.
-/

set_option autoImplicit false

namespace PageScript

namespace Text

/-- The characters that stand behind a text. -/
def separators : List Char := ['\n', ')', ';']

/-- Whether no string literal can end or go on over the end of the line on which a text begins. -/
def Unquoted (cs : List Char) : Prop :=
  ∀ c ∈ cs.takeWhile (!isLineBreak ·), c ∉ ['\'', '"', '\\']

variable {c : Char} {cs tail : List Char}

theorem after?_append (htail : ∀ c ∈ tail.head?, c ∈ separators) {word : List Char}
    (hword : ∀ c ∈ word, c ∉ separators) (cs : List Char) :
    after? word (cs ++ tail) = (after? word cs).map (· ++ tail) := by
  induction word generalizing cs with
  | nil => rfl
  | cons p word ih =>
    cases cs with
    | cons c cs =>
      rw [List.cons_append, after?, after?]
      split
      · exact ih (fun c hc => hword c (.tail _ hc)) cs
      · rfl
    | nil =>
      cases tail with
      | nil => rfl
      | cons c tail =>
        have hp : p ≠ c := by
          rintro rfl
          exact hword p (.head _) (htail p rfl)
        exact if_neg hp

/-- A separator may only be the first character of a word. -/
theorem after?_cons_append (htail : ∀ c ∈ tail.head?, c ∈ separators) {word : List Char}
    (hword : ∀ c ∈ word.tail, c ∉ separators) (c : Char) (cs : List Char) :
    after? word (c :: (cs ++ tail)) = (after? word (c :: cs)).map (· ++ tail) := by
  cases word with
  | nil => rfl
  | cons p word =>
    rw [after?, after?]
    split
    · exact after?_append htail hword cs
    · rfl

theorem afterBreak_append (hreturn : cs = [] → c = '\r' → ∀ d ∈ tail.head?, d ≠ '\n') :
    afterBreak c (cs ++ tail) = afterBreak c cs ++ tail := by
  by_cases hpair : c = '\r' ∧ ∃ more, cs = '\n' :: more
  · obtain ⟨rfl, more, rfl⟩ := hpair
    rfl
  · rw [afterBreak_eq_self hpair, afterBreak_eq_self]
    rintro ⟨rfl, more, hmore⟩
    cases cs with
    | nil => exact hreturn rfl rfl '\n' (by rw [show tail = '\n' :: more from hmore]; rfl) rfl
    | cons d cs =>
      cases hmore
      exact hpair ⟨rfl, cs, rfl⟩

end Text

theorem Lexeme.EndsNumeral.of_separators {tail : List Char} (htail : ∀ c ∈ tail.head?, c ∈ Text.separators) :
    EndsNumeral tail := by
  have hall : ∀ c ∈ Text.separators, Digit.value? 16 c = none ∧ Digit.isDecimal c = false ∧
      Text.isIdentifierStart c = false ∧ c ∉ ['.', '+', '-'] := by decide +kernel
  exact ⟨fun c hc => (hall c (htail c hc)).1, fun c hc => (hall c (htail c hc)).2.1,
    fun c hc => (hall c (htail c hc)).2.2.1, fun c hc => (hall c (htail c hc)).2.2.2⟩

theorem Mark.read?_append {tail : List Char} (htail : ∀ c ∈ tail.head?, c ∈ Text.separators) (c : Char)
    (cs : List Char) : Mark.read? (c :: (cs ++ tail)) = (Mark.read? (c :: cs)).map fun r => (r.1, r.2 ++ tail) := by
  have hinner : ∀ w ∈ Mark.spellings, ∀ d ∈ w.1.tail, d ∉ Text.separators := by decide
  unfold Mark.read?
  generalize Mark.spellings = words at hinner
  induction words with
  | nil => rfl
  | cons w words ih =>
    obtain ⟨word, m⟩ := w
    have hafter := Text.after?_cons_append htail (hinner (word, m) (.head _)) c cs
    rw [List.findSome?_cons, List.findSome?_cons]
    dsimp only at hafter ⊢
    rw [hafter]
    cases Text.after? word (c :: cs) with
    | some rest => rfl
    | none => exact ih fun w hw => hinner w (.tail _ hw)

namespace Lexeme

variable {c quote : Char} {line : Nat} {cs tail : List Char} {p : Piece}

/-! ## Comments -/

theorem afterLineCommentMark?_eq (cs : List Char) : afterLineCommentMark? cs =
    (Text.after? ['/', '/'] cs).or (Text.after? ['<', '!', '-', '-'] cs) := by
  unfold afterLineCommentMark?
  split
  · rfl
  · rfl
  · rename_i hslashes hmarkup
    cases hfirst : Text.after? ['/', '/'] cs with
    | some rest => exact absurd (Text.after?_eq_some_iff.1 hfirst) (hslashes rest)
    | none =>
      cases hsecond : Text.after? ['<', '!', '-', '-'] cs with
      | some rest => exact absurd (Text.after?_eq_some_iff.1 hsecond) (hmarkup rest)
      | none => rfl

theorem afterBlockCommentMark?_eq (cs : List Char) : afterBlockCommentMark? cs = Text.after? ['/', '*'] cs := by
  unfold afterBlockCommentMark?
  split
  · rfl
  · rename_i hmark
    cases hafter : Text.after? ['/', '*'] cs with
    | some rest => exact absurd (Text.after?_eq_some_iff.1 hafter) (hmark rest)
    | none => rfl

section

variable (htail : ∀ c ∈ tail.head?, c ∈ Text.separators)

include htail

theorem afterLineCommentMark?_append (cs : List Char) :
    afterLineCommentMark? (cs ++ tail) = (afterLineCommentMark? cs).map (· ++ tail) := by
  rw [afterLineCommentMark?_eq, afterLineCommentMark?_eq, Text.after?_append htail (by decide),
    Text.after?_append htail (by decide)]
  cases Text.after? ['/', '/'] cs with
  | some rest => rfl
  | none => rfl

theorem afterBlockCommentMark?_append (cs : List Char) :
    afterBlockCommentMark? (cs ++ tail) = (afterBlockCommentMark? cs).map (· ++ tail) := by
  rw [afterBlockCommentMark?_eq, afterBlockCommentMark?_eq, Text.after?_append htail (by decide)]

end

/-- A comment that is closed is the same in front of a text. -/
theorem skipComment_append {broken : Bool} {r : Nat × Bool × List Char}
    (h : skipComment line broken cs = .ok r) :
    skipComment line broken (cs ++ tail) = .ok (r.1, r.2.1, r.2.2 ++ tail) := by
  fun_induction skipComment line broken cs with
  | case1 => cases h
  | case2 line broken c cs hend =>
    cases h
    cases cs with
    | nil => cases hend.2
    | cons d cs =>
      rw [List.cons_append, List.cons_append, skipComment.eq_def]
      exact if_pos hend
  | case3 line broken c cs hend hbreak ih =>
    have hclosed : cs ≠ [] := by
      rintro rfl
      rw [show Text.afterBreak c [] = [] from rfl, skipComment.eq_def] at h
      cases h
    have hhead : (cs ++ tail).head? = cs.head? := List.head?_append_of_ne_nil cs hclosed
    rw [List.cons_append, skipComment.eq_def]
    dsimp only
    rw [hhead, if_neg hend, if_pos hbreak, Text.afterBreak_append fun hnil => absurd hnil hclosed, ih h]
  | case4 line broken c cs hend hbreak ih =>
    have hclosed : cs ≠ [] := by
      rintro rfl
      rw [skipComment.eq_def] at h
      cases h
    have hhead : (cs ++ tail).head? = cs.head? := List.head?_append_of_ne_nil cs hclosed
    rw [List.cons_append, skipComment.eq_def]
    dsimp only
    rw [hhead, if_neg hend, if_neg hbreak, ih h]

theorem skipComment_unclosed {broken : Bool} (hcs : '/' ∉ cs) : ∃ e, skipComment line broken cs = .error e := by
  fun_induction skipComment line broken cs with
  | case1 => exact ⟨_, rfl⟩
  | case2 line broken c cs hend => exact absurd (.tail _ (List.mem_of_head? hend.2)) hcs
  | case3 line broken c cs _ _ ih =>
    exact ih fun hmem => hcs (.tail _ ((Text.afterBreak_suffix c cs).mem hmem))
  | case4 line broken c cs _ _ ih => exact ih fun hmem => hcs (.tail _ hmem)

/-- A comment that is not closed is not closed by a text without slashes, either. -/
theorem skipComment_open {broken : Bool} {e : LexicalError × Nat} (htail : '/' ∉ tail)
    (h : skipComment line broken cs = .error e) : ∃ e, skipComment line broken (cs ++ tail) = .error e := by
  have hslash : ∀ d ∈ tail.head?, d ≠ '/' := by
    rintro d hd rfl
    exact htail (List.mem_of_head? hd)
  fun_induction skipComment line broken cs with
  | case1 => exact skipComment_unclosed htail
  | case2 => cases h
  | case3 line broken c cs hend hbreak ih =>
    have hstar : ¬(c = '*' ∧ (cs ++ tail).head? = some '/') := by
      rintro ⟨rfl, -⟩
      cases hbreak
    rw [List.cons_append, skipComment.eq_def]
    dsimp only
    rw [if_neg hstar, if_pos hbreak]
    by_cases hpair : cs = [] ∧ ∃ more, c = '\r' ∧ tail = '\n' :: more
    · obtain ⟨rfl, more, rfl, rfl⟩ := hpair
      exact skipComment_unclosed fun hmem => htail (.tail _ hmem)
    · rw [Text.afterBreak_append]
      · exact ih h
      · rintro rfl rfl d hd rfl
        exact hpair ⟨rfl, tail.tail, rfl, (List.eq_cons_of_mem_head? hd)⟩
  | case4 line broken c cs hend hbreak ih =>
    have hstar : ¬(c = '*' ∧ (cs ++ tail).head? = some '/') := by
      rintro ⟨rfl, hhead⟩
      cases cs with
      | nil => exact hslash '/' hhead rfl
      | cons d cs => exact hend ⟨rfl, hhead⟩
    rw [List.cons_append, skipComment.eq_def]
    dsimp only
    rw [if_neg hstar, if_neg hbreak]
    exact ih h

/-! ## String literals -/

/-- An escape with more text behind it. -/
def Escape.append (e : Escape) (tail : List Char) : Escape := { e with rest := e.rest ++ tail }

theorem values_take_append {radix : Nat} (htail : ∀ c ∈ tail.head?, Digit.value? radix c = none) (n : Nat)
    (cs : List Char) : Digit.values radix ((cs ++ tail).take n) = Digit.values radix (cs.take n) := by
  rw [List.take_append]
  refine values_append (fun c hc => htail c ?_) _
  rw [List.head?_take] at hc
  split at hc
  · cases hc
  · exact hc

section

variable (htail : ∀ c ∈ tail.head?, c ∈ Text.separators)

include htail

theorem readHexEscape_append (count : Nat) (cs : List Char) :
    readHexEscape count (cs ++ tail) = (readHexEscape count cs).map (·.append tail) := by
  have hdigit : ∀ c ∈ Text.separators, Digit.value? 16 c = none := by decide +kernel
  simp only [readHexEscape]
  rw [values_take_append fun c hc => hdigit c (htail c hc)]
  split
  · rename_i hlength
    have hle : count ≤ cs.length := by
      rw [← hlength]
      exact Nat.le_trans (length_values_take_le 16 count cs) (length_values_le 16 cs)
    rw [List.drop_append_of_le_length hle]
    rfl
  · rfl

theorem readOctalEscape_append (c : Char) (cs : List Char) :
    readOctalEscape c (cs ++ tail) = (readOctalEscape c cs).append tail := by
  have hdigit : ∀ c ∈ Text.separators, Digit.value? 8 c = none := by decide +kernel
  have hvalues : Digit.values 8 (c :: (cs ++ tail).take (if c ≤ '3' then 2 else 1)) =
      Digit.values 8 (c :: cs.take (if c ≤ '3' then 2 else 1)) := by
    rw [Digit.values, Digit.values, values_take_append fun c hc => hdigit c (htail c hc)]
  have hle : (Digit.values 8 (c :: cs.take (if c ≤ '3' then 2 else 1))).length - 1 ≤ cs.length := by
    have := length_values_le 8 (c :: cs.take (if c ≤ '3' then 2 else 1))
    rw [List.length_cons, List.length_take] at this
    omega
  simp only [readOctalEscape]
  rw [hvalues, List.drop_append_of_le_length hle]
  rfl

theorem readEscape_append (hcs : cs ≠ []) (hreturn : cs = ['\r'] → ∀ d ∈ tail.head?, d ≠ '\n') :
    readEscape (cs ++ tail) = (readEscape cs).map (·.append tail) := by
  cases cs with
  | nil => exact absurd rfl hcs
  | cons c cs =>
    rw [List.cons_append, readEscape, readEscape]
    cases simpleEscape? c with
    | some c' => rfl
    | none =>
      dsimp only
      rw [readOctalEscape_append htail, readHexEscape_append htail, readHexEscape_append htail,
        Text.afterBreak_append fun hnil hc => hreturn (by rw [hnil, hc])]
      split
      · rfl
      · split
        · rfl
        · split
          · rfl
          · split <;> rfl

/-- A string literal that is closed is the same in front of a text. -/
theorem readString_append {read : List Char} (h : readString quote line read cs = .ok p) :
    readString quote line read (cs ++ tail) = .ok (p.append tail) := by
  fun_induction readString quote line read cs with
  | case1 => cases h
  | case2 line read cs =>
    cases h
    rw [List.cons_append, readString.eq_def]
    exact if_pos rfl
  | case3 => cases h
  | case4 => cases h
  | case5 line read cs e he hquote hbreak ih =>
    have hrest : e.rest ≠ [] := by
      intro hnil
      rw [hnil, readString.eq_def] at h
      cases h
    have hcs : cs ≠ [] := by
      rintro rfl
      cases he
    have happend := readEscape_append htail hcs (by
      rintro rfl
      cases he
      exact absurd rfl hrest)
    rw [List.cons_append, readString.eq_def]
    dsimp only
    rw [if_neg hquote, if_neg hbreak, if_pos rfl]
    split
    · rename_i herror
      rw [happend, he] at herror
      cases herror
    · rename_i e' he'
      rw [happend, he] at he'
      cases he'
      exact ih h
  | case6 line read c cs hquote hbreak hslash ih =>
    rw [List.cons_append, readString.eq_def]
    dsimp only
    rw [if_neg hquote, if_neg hbreak, if_neg hslash]
    exact ih h

end

/-- A string literal that is not closed is not closed by a text without quotes and backslashes on the rest of
the line. -/
theorem readString_unclosed {read : List Char} (hquote : quote ∈ ['\'', '"']) (hcs : Text.Unquoted cs) :
    ∃ e, readString quote line read cs = .error e := by
  induction cs generalizing read with
  | nil =>
    rw [readString.eq_def]
    exact ⟨_, rfl⟩
  | cons c cs ih =>
    rw [readString.eq_def]
    dsimp only
    cases hbreak : Text.isLineBreak c with
    | true =>
      have hc : c ≠ quote := by
        rintro rfl
        have hplain : ∀ c ∈ ['\'', '"'], Text.isLineBreak c = false := by decide
        rw [hplain c hquote] at hbreak
        cases hbreak
      rw [if_neg hc, if_pos rfl]
      exact ⟨_, rfl⟩
    | false =>
      have htake : (c :: cs).takeWhile (!Text.isLineBreak ·) = c :: cs.takeWhile (!Text.isLineBreak ·) :=
        List.takeWhile_cons_of_pos (by rw [hbreak]; rfl)
      rw [Text.Unquoted, htake] at hcs
      have hc := hcs c (.head _)
      have hplain : c ≠ quote := by
        rintro rfl
        exact hc (List.mem_append_left ['\\'] hquote)
      have hslash : c ≠ '\\' := by
        rintro rfl
        exact hc (by decide)
      rw [if_neg hplain, if_neg Bool.false_ne_true, if_neg hslash]
      exact ih fun d hd => hcs d (.tail _ hd)

theorem readString_backslash {read : List Char} (hquote : quote ∈ ['\'', '"']) (cs : List Char) :
    readString quote line read ('\\' :: cs) =
      match readEscape cs with
      | .error cause => .error (cause, line)
      | .ok e => readString quote (line + e.breaks) (e.chars.reverse ++ read) e.rest := by
  have hslash : '\\' ≠ quote := by
    rintro rfl
    exact absurd hquote (by decide)
  rw [readString.eq_def]
  dsimp only
  rw [if_neg hslash, if_neg (by decide), if_pos rfl]
  split
  · rename_i herror
    rw [herror]
  · rename_i hok
    rw [hok]

/-- A backslash before a separator takes just that along. -/
theorem readEscape_separator (hc : c ∈ Text.separators) (cs : List Char) :
    ∃ e, readEscape (c :: cs) = .ok e ∧ e.rest = cs := by
  simp only [Text.separators, List.mem_cons, List.not_mem_nil, or_false] at hc
  rcases hc with rfl | rfl | rfl
  · exact ⟨⟨[], Text.afterBreak '\n' cs, 1⟩, rfl, Text.afterBreak_eq_self (by rintro ⟨⟨⟩, -⟩)⟩
  · exact ⟨_, rfl, rfl⟩
  · exact ⟨_, rfl, rfl⟩

/-- A string literal that is not closed is not closed by a text without quotes and backslashes, either. -/
theorem readString_open {read : List Char} {e : LexicalError × Nat} (hquote : quote ∈ ['\'', '"'])
    (htail : ∀ c ∈ tail.head?, c ∈ Text.separators) (hplain : Text.Unquoted tail)
    (hplain' : Text.Unquoted tail.tail) (h : readString quote line read cs = .error e) :
    ∃ e, readString quote line read (cs ++ tail) = .error e := by
  fun_induction readString quote line read cs with
  | case1 => exact readString_unclosed hquote hplain
  | case2 => cases h
  | case3 line read c cs hc hbreak =>
    rw [List.cons_append, readString.eq_def]
    dsimp only
    rw [if_neg hc, if_pos hbreak]
    exact ⟨_, rfl⟩
  | case4 line read cs cause he =>
    rw [List.cons_append, readString_backslash hquote]
    cases cs with
    | nil =>
      cases tail with
      | nil => exact ⟨_, rfl⟩
      | cons d tail =>
        obtain ⟨e, he', rfl⟩ := readEscape_separator (htail d rfl) tail
        rw [List.nil_append, he']
        exact readString_unclosed hquote hplain'
    | cons c cs =>
      rw [readEscape_append htail (List.cons_ne_nil c cs) (by rintro ⟨⟩; cases he), he]
      exact ⟨_, rfl⟩
  | case5 line read cs e he _ _ ih =>
    rw [List.cons_append, readString_backslash hquote]
    by_cases hpair : cs = ['\r'] ∧ ∃ more, tail = '\n' :: more
    · obtain ⟨rfl, more, rfl⟩ := hpair
      exact readString_unclosed hquote hplain'
    · rw [readEscape_append htail (by rintro rfl; cases he), he]
      · exact ih h
      · rintro rfl d hd rfl
        exact hpair ⟨rfl, tail.tail, List.eq_cons_of_mem_head? hd⟩
  | case6 line read c cs hc hbreak hslash ih =>
    rw [List.cons_append, readString.eq_def]
    dsimp only
    rw [if_neg hc, if_neg hbreak, if_neg hslash]
    exact ih h

/-! ## Tokens -/

section

variable (htail : ∀ c ∈ tail.head?, c ∈ Text.separators)

include htail

/-- A token that is no string literal is read in front of a text as it is by itself. -/
theorem readToken_plain_append (hc : ¬(c = '\'' ∨ c = '"')) (cs : List Char) :
    readToken c line (cs ++ tail) = (readToken c line cs).map (·.append tail) := by
  have hpart : ∀ c ∈ tail.head?, Text.isIdentifierPart c = false := by
    have hnone : ∀ c ∈ Text.separators, Text.isIdentifierPart c = false := by decide +kernel
    exact fun c hc => hnone c (htail c hc)
  have hdecimal : (cs ++ tail).head?.any Digit.isDecimal = cs.head?.any Digit.isDecimal := by
    cases cs with
    | cons d cs => rfl
    | nil =>
      cases hhead : tail.head? with
      | none => rw [List.nil_append, hhead]; rfl
      | some d => rw [List.nil_append, hhead]; exact (EndsNumeral.of_separators htail).decimal d hhead
  unfold readToken
  rw [if_neg hc, if_neg hc, hdecimal, (EndsNumeral.of_separators htail).readNumber_append,
    (Text.span_append cs hpart).1, (Text.span_append cs hpart).2, Mark.read?_append htail]
  split
  · rfl
  · split
    · rfl
    · cases Mark.read? (c :: cs) with
      | none => rfl
      | some r => rfl

theorem readToken_append (h : readToken c line cs = .ok p) :
    readToken c line (cs ++ tail) = .ok (p.append tail) := by
  by_cases hc : c = '\'' ∨ c = '"'
  · unfold readToken at h ⊢
    rw [if_pos hc] at h ⊢
    exact readString_append htail h
  · rw [readToken_plain_append htail hc, h]
    rfl

theorem readToken_open {e : LexicalError × Nat} (hplain : Text.Unquoted tail)
    (hplain' : Text.Unquoted tail.tail) (h : readToken c line cs = .error e) :
    ∃ e, readToken c line (cs ++ tail) = .error e := by
  by_cases hc : c = '\'' ∨ c = '"'
  · unfold readToken at h ⊢
    rw [if_pos hc] at h ⊢
    refine readString_open ?_ htail hplain hplain' h
    rcases hc with rfl | rfl <;> decide
  · rw [readToken_plain_append htail hc, h]
    exact ⟨e, rfl⟩

end

/-! ## Steps -/

namespace Scan

/-- A scan in front of a text. -/
def append (q : Scan) (tail : List Char) : Scan := { q with rest := q.rest ++ tail }

/-- A scan that stands before a comment which goes on to the end of the text. -/
inductive InComment : Scan → Prop
  | line {line : Nat} {broken : Bool} {c : Char} {rest : List Char} :
    (afterLineCommentMark? (c :: rest)).isSome = true → (∀ d ∈ rest, Text.isLineBreak d = false) →
    InComment ⟨line, broken, c :: rest⟩
  | block {line : Nat} {broken : Bool} {text body : List Char} {e : LexicalError × Nat} :
    afterBlockCommentMark? text = some body → skipComment line false body = .error e →
    InComment ⟨line, broken, text⟩

variable {q r : Scan} {u : Option Lexeme} {us : List Lexeme}

section

variable (htail : ∀ c ∈ tail.head?, c ∈ Text.separators)

include htail

theorem Step.append (h : Step q u r) (hcomment : q.InComment → ∀ c ∈ tail.head?, Text.isLineBreak c = true)
    (hreturn : q.rest = ['\r'] → ∀ c ∈ tail.head?, c ≠ '\n') : Step (q.append tail) u (r.append tail) := by
  cases h with
  | space hc => exact .space hc
  | @lineBreak line broken c rest hc =>
    have hafter : Text.afterBreak c (rest ++ tail) = Text.afterBreak c rest ++ tail :=
      Text.afterBreak_append fun hnil heq => hreturn (by rw [hnil, heq])
    unfold Scan.append
    rw [← hafter]
    exact .lineBreak hc
  | @lineComment line broken c rest hmark =>
    have hdrop : (rest ++ tail).dropWhile (!Text.isLineBreak ·) = rest.dropWhile (!Text.isLineBreak ·) ++ tail := by
      rw [List.dropWhile_append]
      split
      · rename_i hempty
        have hnil := List.isEmpty_iff.1 hempty
        have hall : ∀ d ∈ rest, Text.isLineBreak d = false := by
          have hspan := List.takeWhile_append_dropWhile (p := (!Text.isLineBreak ·)) (l := rest)
          rw [hnil, List.append_nil] at hspan
          intro d hd
          rw [← hspan] at hd
          exact Bool.not_eq_true' _ ▸ List.all_eq_true.1 List.all_takeWhile d hd
        rw [hnil, List.nil_append]
        cases tail with
        | nil => rfl
        | cons d tail =>
          have hd : Text.isLineBreak d = true := hcomment (.line hmark hall) d rfl
          exact List.dropWhile_cons_of_neg (by rw [hd]; exact Bool.false_ne_true)
      · rfl
    unfold Scan.append
    rw [← hdrop]
    refine .lineComment ?_
    have hsome := congrArg Option.isSome (afterLineCommentMark?_append htail (c :: rest))
    rw [Option.isSome_map, hmark] at hsome
    exact hsome
  | blockComment hmark hskip =>
    refine .blockComment ?_ (skipComment_append hskip)
    rw [afterBlockCommentMark?_append htail, hmark]
    rfl
  | @token line broken c rest p hblank hline hblock hread =>
    refine Step.token hblank ?_ ?_ (readToken_append htail hread)
    · exact (afterLineCommentMark?_append htail (c :: rest)).trans (by rw [hline]; rfl)
    · exact (afterBlockCommentMark?_append htail (c :: rest)).trans (by rw [hblock]; rfl)

theorem Stuck.append (h : q.Stuck) (hplain : Text.Unquoted tail) (hplain' : Text.Unquoted tail.tail)
    (hcomment : q.InComment → '/' ∉ tail) : (q.append tail).Stuck := by
  cases h with
  | comment hmark hskip =>
    obtain ⟨e, hopen⟩ := skipComment_open (hcomment (.block hmark hskip)) hskip
    refine .comment ?_ hopen
    rw [afterBlockCommentMark?_append htail, hmark]
    rfl
  | @token line broken c rest e hblank hline hblock hread =>
    obtain ⟨e, hopen⟩ := readToken_open htail hplain hplain' hread
    refine Stuck.token hblank ?_ ?_ hopen
    · exact (afterLineCommentMark?_append htail (c :: rest)).trans (by rw [hline]; rfl)
    · exact (afterBlockCommentMark?_append htail (c :: rest)).trans (by rw [hblock]; rfl)

/-- A text that does not end in a comment is scanned in front of another one as it is by itself. -/
theorem Passes.append (h : Passes q us r) (hcomment : ∀ us' r', Passes q us' r' → ¬r'.InComment)
    (hfeed : ∀ c ∈ tail.head?, c ≠ '\n') : Passes (q.append tail) us (r.append tail) := by
  induction h with
  | refl => exact .refl _
  | @step q r t u us hstep _ ih =>
    have hfirst : Step (q.append tail) u (r.append tail) :=
      hstep.append htail (fun hopen => absurd hopen (hcomment [] q (.refl q))) fun _ => hfeed
    exact .step hfirst (ih fun us' r' hpasses => hcomment _ r' (.step hstep hpasses))

end

theorem Passes.eq_of_rest_eq_nil (h : Passes q us r) (hq : q.rest = []) : us = [] ∧ r = q := by
  cases h with
  | refl => exact ⟨rfl, rfl⟩
  | step hstep =>
    have hlength := hstep.suffix.1
    rw [hq] at hlength
    cases hlength

/-- A text is scanned in front of a line feed as it is by itself, also if it ends in a comment up to the end of
the line. -/
theorem Passes.append_lineFeed (h : Passes q us r) (hr : r.rest = []) (tail : List Char) :
    ∃ line, Passes (q.append ('\n' :: tail)) us ⟨line, true, tail⟩ := by
  induction h with
  | refl q =>
    have hfeed : Step ⟨q.line, q.broken, '\n' :: tail⟩ none ⟨q.line + 1, true, Text.afterBreak '\n' tail⟩ :=
      .lineBreak (by decide)
    rw [Text.afterBreak_eq_self (by rintro ⟨⟨⟩, -⟩)] at hfeed
    unfold Scan.append
    rw [hr]
    exact ⟨_, .single hfeed⟩
  | @step q r t u us hstep hpasses ih =>
    by_cases hreturn : q.rest = ['\r']
    · -- The line feed belongs to the carriage return before it.
      obtain ⟨line, broken, rest⟩ := q
      cases hreturn
      cases hstep with
      | lineBreak =>
        obtain ⟨rfl, rfl⟩ := hpasses.eq_of_rest_eq_nil rfl
        exact ⟨line + 1, .single (.lineBreak (by decide))⟩
      | space hc => exact absurd hc (by decide)
      | lineComment hmark => cases hmark
      | blockComment hmark => cases hmark
      | token hblank => exact absurd hblank (by decide)
    · obtain ⟨line, hrest⟩ := ih hr
      have hfirst : Step (q.append ('\n' :: tail)) u (r.append ('\n' :: tail)) := by
        refine hstep.append (fun c hc => ?_) (fun _ c hc => ?_) fun heq => absurd heq hreturn
        · cases hc
          decide
        · cases hc
          decide
      exact ⟨line, .step hfirst hrest⟩

/-- Behind a text that is scanned to its end and a line feed, a text has its own lexemes, some lines further
down. -/
theorem Passes.scan_lineFeed {cs : List Char} (h : Passes ⟨1, false, cs⟩ us r) (hr : r.rest = []) (ds : List Char) :
    scan 1 false (cs ++ '\n' :: ds) = us ++
      Lexeme.behindBreak ((scan 1 false ds).map (renumber (· + Text.lineBreaks (cs ++ ['\n'])))) := by
  obtain ⟨line, hpasses⟩ := h.append_lineFeed hr ds
  have hlines := hpasses.lines
  change line + Text.lineBreaks ds = 1 + Text.lineBreaks (cs ++ '\n' :: ds) at hlines
  rw [Text.lineBreaks_line] at hlines
  have hline : line = 1 + Text.lineBreaks (cs ++ ['\n']) := by omega
  have hbelow := lexemes_below (Text.lineBreaks (cs ++ ['\n'])) ⟨1, false, ds⟩
  have hbroken := lexemes_behindBreak ⟨line, false, ds⟩
  rw [hline] at hbroken
  rw [hline] at hpasses
  exact hpasses.lexemes_eq.trans (congrArg (us ++ ·) (hbroken.trans (congrArg Lexeme.behindBreak hbelow)))

end Scan

/-- Whether a text ends in a comment. -/
def EndsInComment (cs : List Char) : Prop := ∃ us q, Scan.Passes ⟨1, false, cs⟩ us q ∧ q.InComment

theorem not_endsInComment {cs : List Char} (h : ∀ c ∈ cs, c ≠ '/' ∧ c ≠ '<') : ¬EndsInComment cs := by
  rintro ⟨us, q, hpasses, hopen⟩
  have hrest : ∀ c ∈ q.rest, c ≠ '/' ∧ c ≠ '<' := fun c hc => h c (hpasses.suffix.subset hc)
  cases hopen with
  | @line line broken c rest hmark =>
    obtain ⟨hslash, hless⟩ := hrest c (.head rest)
    rw [(afterCommentMark?_eq_none hslash hless rest).1] at hmark
    cases hmark
  | block hmark =>
    rw [Scan.blockComment_text hmark] at hrest
    exact (hrest '/' (.head _)).1 rfl

/-! ## Texts without errors -/

namespace Scan

variable {cs : List Char}

/-- Where a scan gets stuck, the text has an error. -/
theorem Passes.not_stuck {q r : Scan} {us : List Lexeme} (h : Passes q us r)
    (hvalid : ∀ l ∈ q.lexemes, ∀ cause, l.token ≠ .invalid cause) : ¬r.Stuck := by
  intro hstuck
  obtain ⟨cause, line, hlexemes⟩ := hstuck.lexemes_eq
  refine hvalid ⟨.invalid cause, line, r.broken⟩ ?_ cause rfl
  rw [h.lexemes_eq, hlexemes]
  exact List.mem_append_right us (.head [])

/-- The lexemes of a text that does not end in a comment stand in front of those of what follows it. -/
theorem Passes.scan_append {r : Scan} {us : List Lexeme} (h : Passes ⟨1, false, cs⟩ us r) (hr : r.rest = [])
    (hcomment : ¬EndsInComment cs) (htail : ∀ c ∈ tail.head?, c ∈ Text.separators)
    (hfeed : ∀ c ∈ tail.head?, c ≠ '\n') : scan 1 false (cs ++ tail) = us ++ scan r.line r.broken tail := by
  have hwhole := h.append htail (fun us' r' hpasses hopen => hcomment ⟨us', r', hpasses, hopen⟩) hfeed
  refine hwhole.lexemes_eq.trans ?_
  unfold Scan.append lexemes
  rw [hr]
  rfl

/-- A text that does not end in a comment is scanned to its end, if it stands at the front of a text without
errors. -/
theorem exists_passes_of_append (htail : ∀ c ∈ tail.head?, c ∈ Text.separators) (hplain : Text.Unquoted tail)
    (hplain' : Text.Unquoted tail.tail) (hfeed : ∀ c ∈ tail.head?, c ≠ '\n') (hcomment : ¬EndsInComment cs)
    (hvalid : ∀ l ∈ scan 1 false (cs ++ tail), ∀ cause, l.token ≠ .invalid cause) :
    ∃ us r, Passes ⟨1, false, cs⟩ us r ∧ r.rest = [] := by
  have hclosed : ∀ us r, Passes ⟨1, false, cs⟩ us r → ¬r.InComment := fun us r hpasses hopen =>
    hcomment ⟨us, r, hpasses, hopen⟩
  obtain ⟨us, r, hpasses, hend⟩ := exists_passes ⟨1, false, cs⟩
  rcases hend with hr | hstuck
  · exact ⟨us, r, hpasses, hr⟩
  · exact absurd (hstuck.append htail hplain hplain' fun hopen => absurd hopen (hclosed us r hpasses))
      ((hpasses.append htail hclosed hfeed).not_stuck hvalid)

/-- In front of a line feed a text is scanned as it is by itself, as long as more of it follows. -/
theorem Passes.append_of_rest_ne_nil {q r : Scan} {us : List Lexeme} (h : Passes q us r) (hr : r.rest ≠ []) :
    Passes (q.append ('\n' :: tail)) us (r.append ('\n' :: tail)) := by
  induction h with
  | refl => exact .refl _
  | @step q r t u us hstep hpasses ih =>
    have hfirst : Step (q.append ('\n' :: tail)) u (r.append ('\n' :: tail)) := by
      refine hstep.append (fun c hc => ?_) (fun _ c hc => ?_) fun hreturn => absurd ?_ hr
      · cases hc
        decide
      · cases hc
        decide
      · have hlength := hstep.suffix.1
        rw [hreturn] at hlength
        have hnil : r.rest = [] := List.length_eq_zero_iff.1 (Nat.lt_one_iff.1 hlength)
        obtain ⟨-, rfl⟩ := hpasses.eq_of_rest_eq_nil hnil
        exact hnil
    exact .step hfirst (ih hr)

/-- A text is scanned to its end, if it stands at the front of a text without errors and a line feed that no
comment can be closed behind comes after it. -/
theorem exists_passes_of_lineFeed (hplain : Text.Unquoted tail) (hslash : '/' ∉ tail)
    (hvalid : ∀ l ∈ scan 1 false (cs ++ '\n' :: tail), ∀ cause, l.token ≠ .invalid cause) :
    ∃ us r, Passes ⟨1, false, cs⟩ us r ∧ r.rest = [] := by
  obtain ⟨us, r, hpasses, hend⟩ := exists_passes ⟨1, false, cs⟩
  rcases hend with hr | hstuck
  · exact ⟨us, r, hpasses, hr⟩
  · have hr : r.rest ≠ [] := by
      cases hstuck with
      | comment hmark =>
        rw [blockComment_text hmark]
        exact List.cons_ne_nil _ _
      | token => exact List.cons_ne_nil _ _
    have hslash' : '/' ∉ '\n' :: tail := List.not_mem_cons_of_ne_of_not_mem (by decide) hslash
    have hopen : (r.append ('\n' :: tail)).Stuck :=
      hstuck.append (fun c hc => by cases hc; decide) (fun c hc => by cases hc) hplain fun _ => hslash'
    exact absurd hopen ((hpasses.append_of_rest_ne_nil hr).not_stuck hvalid)

end Scan

end Lexeme

end PageScript
