import PageScript.Source.Lexer
import PageScript.Source.Printer

/-! # Scanning what was printed

A mark, a word and a string literal that stand at the front of a text are read back as one token each, as
long as the character behind them does not go on with them.  For a mark that is a matter of the longer
marks, of comments and, for a point, of digits; a string literal ends by itself.
-/

set_option autoImplicit false

namespace PageScript

/-! ## Classes of characters -/

/-- What holds of the characters of a list is decided along the list, not over all characters. -/
instance (priority := high) decidableForallMem {p : Char → Prop} [DecidablePred p] (cs : List Char) :
    Decidable (∀ c ∈ cs, p c) :=
  List.decidableBAll p cs

namespace Text

/-- The code points of blanks. -/
def blankCodes : List Nat :=
  [9, 10, 11, 12, 13, 32, 0x85, 0xa0, 0x1680, 0x2000, 0x2001, 0x2002, 0x2003, 0x2004, 0x2005, 0x2006,
    0x2007, 0x2008, 0x2009, 0x200a, 0x2028, 0x2029, 0x202f, 0x205f, 0x3000, 0xfeff]

theorem toNat_mem_blankCodes {c : Char} (h : isBlank c = true) : c.toNat ∈ blankCodes := by
  have hle : ∀ a b : Char, a ≤ b ↔ a.toNat ≤ b.toNat := fun a b => Iff.rfl
  simp only [isBlank, isWhiteSpace, Bool.or_eq_true, Bool.and_eq_true, decide_eq_true_eq, beq_iff_eq,
    hle] at h
  simp only [blankCodes, List.mem_cons, List.not_mem_nil, or_false]
  rcases h with
    ((((((((((⟨h, h'⟩ | rfl) | rfl) | rfl) | rfl) | ⟨h, h'⟩) | rfl) | rfl) | rfl) | rfl) | rfl) | rfl <;>
    first
    | decide
    | (change 9 ≤ _ at h; change _ ≤ 13 at h'; omega)
    | (change 0x2000 ≤ _ at h; change _ ≤ 0x200a at h'; omega)

theorem not_blank_of_isIdentifierStart {c : Char} (h : isIdentifierStart c = true) :
    isBlank c = false := by
  have hnone : ∀ n ∈ blankCodes, isIdentifierStart (Char.ofNat n) = false := by decide +kernel
  cases hblank : isBlank c with
  | false => rfl
  | true =>
    have hstart := hnone _ (toNat_mem_blankCodes hblank)
    rw [Char.ofNat_toNat, h] at hstart
    cases hstart

/-- The decimal digits. -/
def digits : List Char := ['0', '1', '2', '3', '4', '5', '6', '7', '8', '9']

theorem mem_digits_of_isDecimal {c : Char} (h : Digit.isDecimal c = true) : c ∈ digits := by
  rw [Digit.isDecimal, Bool.and_eq_true, decide_eq_true_eq, decide_eq_true_eq] at h
  have hcode : c.toNat ∈ List.range' 48 10 := by
    rw [List.mem_range'_1]
    exact ⟨h.1, Nat.lt_succ_of_le h.2⟩
  have hall : ∀ n ∈ List.range' 48 10, Char.ofNat n ∈ digits := by decide
  exact Char.ofNat_toNat c ▸ hall _ hcode

theorem not_isDigit_of_isIdentifierStart {c : Char} (h : isIdentifierStart c = true) :
    c.isDigit = false := by
  have hnone : ∀ c ∈ digits, isIdentifierStart c = false := by decide +kernel
  cases hdigit : c.isDigit with
  | false => rfl
  | true =>
    rw [hnone c (mem_digits_of_isDecimal hdigit)] at h
    cases h

/-- A span of a text ends before what follows the text, if that does not go on with it. -/
theorem span_append {p : Char → Bool} (cs : List Char) {rest : List Char}
    (hrest : ∀ c ∈ rest.head?, p c = false) :
    (cs ++ rest).takeWhile p = cs.takeWhile p ∧ (cs ++ rest).dropWhile p = cs.dropWhile p ++ rest := by
  induction cs with
  | nil =>
    cases rest with
    | nil => exact ⟨rfl, rfl⟩
    | cons c rest =>
      have hc : ¬p c = true := by rw [hrest c rfl]; exact Bool.false_ne_true
      exact ⟨List.takeWhile_cons_of_neg hc, List.dropWhile_cons_of_neg hc⟩
  | cons c cs ih =>
    rw [List.cons_append, List.takeWhile_cons, List.dropWhile_cons, List.takeWhile_cons, List.dropWhile_cons,
      ih.1, ih.2]
    split
    · exact ⟨rfl, rfl⟩
    · exact ⟨rfl, rfl⟩

end Text

namespace Lexeme

/-! ## One step of the scan -/

theorem scan_nil (line : Nat) (broken : Bool) : scan line broken [] = [⟨.finish, line, broken⟩] := by
  rw [scan.eq_def]

theorem scan_space (line : Nat) (broken : Bool) (rest : List Char) :
    scan line broken (' ' :: rest) = scan line broken rest := by
  rw [scan.eq_def]
  exact if_pos (by decide)

/-- A token is scanned where it is read, unless a blank or a comment begins there. -/
theorem scan_token {c : Char} {rest : List Char} {line : Nat} {p : Piece}
    (hblank : Text.isBlank c = false) (hline : afterLineCommentMark? (c :: rest) = none)
    (hblock : afterBlockCommentMark? (c :: rest) = none) (hread : readToken c line rest = .ok p)
    (broken : Bool) :
    scan line broken (c :: rest) = ⟨p.token, p.line, broken⟩ :: scan p.line false p.rest := by
  have hspace : Text.isSpace c = false := by rw [Text.isSpace, hblank]; rfl
  have hbreak : Text.isLineBreak c = false := by
    cases hbreak : Text.isLineBreak c with
    | false => rfl
    | true =>
      simp only [Text.isLineBreak, Bool.or_eq_true, beq_iff_eq] at hbreak
      rcases hbreak with ((rfl | rfl) | rfl) | rfl <;> cases hblank
  rw [scan.eq_def]
  dsimp only
  rw [if_neg (by rw [hspace]; exact Bool.false_ne_true), if_neg (by rw [hbreak]; exact Bool.false_ne_true),
    if_neg (by rw [hline]; exact Bool.false_ne_true)]
  split
  · rename_i body hbody
    rw [hblock] at hbody
    cases hbody
  · split
    · rename_i cause line' herror
      rw [hread] at herror
      cases herror
    · rename_i p' hp
      rw [hread] at hp
      cases hp
      rfl

/-- No comment begins with a character that is neither a slash nor a `<`. -/
theorem afterCommentMark?_eq_none {c : Char} (hslash : c ≠ '/') (hless : c ≠ '<') (rest : List Char) :
    afterLineCommentMark? (c :: rest) = none ∧ afterBlockCommentMark? (c :: rest) = none := by
  constructor
  · unfold afterLineCommentMark?
    split
    · rename_i heq
      exact absurd (List.cons.inj heq).1 hslash
    · rename_i heq
      exact absurd (List.cons.inj heq).1 hless
    · rfl
  · unfold afterBlockCommentMark?
    split
    · rename_i heq
      exact absurd (List.cons.inj heq).1 hslash
    · rfl

end Lexeme

/-! ## Marks -/

namespace Mark

/-- The characters that would make a longer mark of a mark, or a comment or a number. -/
def continuations (m : Mark) : List Char :=
  (byLength.filterMap fun longer =>
      (Text.after? m.spelling.toList longer.spelling.toList).bind List.head?)
    ++ match m with
      | .slash => ['/', '*']
      | .less => ['!']
      | .dot => Text.digits
      | _ => []

/-- No mark begins with one of those that are tried after it. -/
theorem byLength_pairwise :
    byLength.Pairwise fun m m' => ¬m.spelling.toList <+: m'.spelling.toList := by
  decide +kernel

theorem mem_byLength (m : Mark) : m ∈ byLength := by cases m <;> decide

/-- A mark is read back, if the character behind it does not belong to it. -/
theorem read?_spelling {m : Mark} {rest : List Char} (hrest : ∀ c ∈ rest.head?, c ∉ m.continuations) :
    read? (m.spelling.toList ++ rest) = some (m, rest) := by
  obtain ⟨before, behind, hsplit⟩ := List.append_of_mem (mem_byLength m)
  have hpairs := byLength_pairwise
  rw [hsplit, List.pairwise_append] at hpairs
  refine List.findSome?_eq_some_iff.2 ⟨before.map fun m => (m.spelling.toList, m), (m.spelling.toList, m),
    behind.map fun m => (m.spelling.toList, m), ?_, ?_, fun x hx => ?_⟩
  · rw [spellings, hsplit, List.map_append, List.map_cons]
  · rw [Option.map_eq_some_iff]
    exact ⟨rest, Text.after?_eq_some_iff.2 rfl, rfl⟩
  · obtain ⟨m', hm', rfl⟩ := List.mem_map.1 hx
    rw [Option.map_eq_none_iff]
    cases hafter : Text.after? m'.spelling.toList (m.spelling.toList ++ rest) with
    | none => rfl
    | some after =>
      have hnot := hpairs.2.2 m' hm' m (.head _)
      -- A mark that is tried before would have to reach beyond this one.
      rcases List.append_eq_append_iff.1 (Text.after?_eq_some_iff.1 hafter) with
        ⟨more, hlong, hrest'⟩ | ⟨more, hshort, -⟩
      · cases more with
        | nil =>
          rw [List.append_nil] at hlong
          exact absurd (hlong ▸ List.prefix_rfl) hnot
        | cons c more =>
          refine absurd ?_ (hrest c (by rw [hrest']; rfl))
          refine List.mem_append_left _ (List.mem_filterMap.2 ⟨m', mem_byLength m', ?_⟩)
          rw [Text.after?_eq_some_iff.2 hlong]
          rfl
      · exact absurd ⟨more, hshort.symm⟩ hnot

end Mark

namespace Lexeme

/-- A mark is scanned as itself, if the character behind it does not belong to it. -/
theorem scan_mark {m : Mark} {line : Nat} {broken : Bool} {rest : List Char}
    (hrest : ∀ c ∈ rest.head?, c ∉ m.continuations) :
    scan line broken (m.spelling.toList ++ rest) = ⟨.mark m, line, broken⟩ :: scan line false rest := by
  have hread := Mark.read?_spelling hrest
  cases hm : m.spelling.toList with
  | nil => cases m <;> cases hm
  | cons c word =>
    rw [hm, List.cons_append] at hread
    have hchar : Text.isBlank c = false ∧ ¬(c = '\'' ∨ c = '"') ∧ c.isDigit = false ∧
        Text.isIdentifierStart c = false := by
      cases m <;> cases hm <;> decide
    have hline : afterLineCommentMark? (c :: (word ++ rest)) = none := by
      unfold afterLineCommentMark?
      split
      · rename_i heq
        cases m <;> cases hm <;> cases heq
        exact absurd (by decide) (hrest '/' rfl)
      · rename_i heq
        cases m <;> cases hm <;> cases heq
        exact absurd (by decide) (hrest '!' rfl)
      · rfl
    have hblock : afterBlockCommentMark? (c :: (word ++ rest)) = none := by
      unfold afterBlockCommentMark?
      split
      · rename_i heq
        cases m <;> cases hm <;> cases heq
        exact absurd (by decide) (hrest '*' rfl)
      · rfl
    have hdot : ¬(c = '.' ∧ (word ++ rest).head?.any Digit.isDecimal = true) := by
      rintro ⟨rfl, hdigit⟩
      have hm : word = [] ∧ m = .dot := by
        cases m <;> cases hm
        exact ⟨rfl, rfl⟩
      obtain ⟨rfl, rfl⟩ := hm
      obtain ⟨d, hd, hdecimal⟩ := (Option.any_eq_true _ _).1 hdigit
      exact hrest d hd (List.mem_append_right _ (Text.mem_digits_of_isDecimal hdecimal))
    have hnumber : ¬(c.isDigit = true ∨ c = '.' ∧ (word ++ rest).head?.any Digit.isDecimal = true) :=
      fun h => h.elim (by rw [hchar.2.2.1]; exact Bool.false_ne_true) hdot
    have htoken : readToken c line (word ++ rest) = .ok ⟨.mark m, line, rest⟩ := by
      unfold readToken
      rw [if_neg hchar.2.1, if_neg hnumber, if_neg (by rw [hchar.2.2.2]; exact Bool.false_ne_true), hread]
    exact scan_token hchar.1 hline hblock htoken broken

/-! ## Words -/

/-- Whether a text is read as one word. -/
def IsWord (name : String) : Prop :=
  ∃ c cs, name.toList = c :: cs ∧ Text.isIdentifierStart c = true ∧
    ∀ x ∈ cs, Text.isIdentifierPart x = true

/-- A word is scanned as its token, if the character behind it does not belong to it. -/
theorem scan_word {name : String} {line : Nat} {broken : Bool} {rest : List Char} (hname : IsWord name)
    (hrest : ∀ c ∈ rest.head?, Text.isIdentifierPart c = false) :
    scan line broken (name.toList ++ rest) = ⟨ofWord name, line, broken⟩ :: scan line false rest := by
  obtain ⟨c, cs, hc, hstart, hparts⟩ := hname
  have hapart : ∀ c', Text.isIdentifierStart c' = false → c ≠ c' := by
    rintro c' h rfl
    rw [hstart] at h
    cases h
  have hnumber : ¬(c.isDigit = true ∨ c = '.' ∧ (cs ++ rest).head?.any Digit.isDecimal = true) :=
    fun h => h.elim (by rw [Text.not_isDigit_of_isIdentifierStart hstart]; exact Bool.false_ne_true)
      fun h => hapart '.' (by decide) h.1
  obtain ⟨hnone, hall⟩ := Text.span_append [] hrest
  rw [List.nil_append] at hnone hall
  have htake : (cs ++ rest).takeWhile Text.isIdentifierPart = cs := by
    rw [List.takeWhile_append_of_pos hparts, hnone]
    exact List.append_nil cs
  have hdrop : (cs ++ rest).dropWhile Text.isIdentifierPart = rest := by
    rw [List.dropWhile_append_of_pos hparts, hall]
    rfl
  have htoken : readToken c line (cs ++ rest) = .ok ⟨ofWord name, line, rest⟩ := by
    unfold readToken
    rw [if_neg fun h => h.elim (hapart _ (by decide)) (hapart _ (by decide)), if_neg hnumber, if_pos hstart,
      htake, hdrop, ← hc, String.ofList_toList]
  have hcomment := afterCommentMark?_eq_none (hapart '/' (by decide)) (hapart '<' (by decide)) (cs ++ rest)
  rw [hc]
  exact scan_token (Text.not_blank_of_isIdentifierStart hstart) hcomment.1 hcomment.2 htoken broken

/-! ## String literals -/

theorem readString_escape {read tail : List Char} {mark c : Char}
    (h : readEscape (mark :: tail) = .ok ⟨[c], tail, 0⟩) :
    readString '"' 1 read ('\\' :: mark :: tail) = readString '"' 1 (c :: read) tail := by
  rw [readString.eq_def]
  dsimp only
  rw [if_neg (by decide), if_neg (by decide), if_pos rfl]
  split
  · rename_i cause herror
    rw [h] at herror
    cases herror
  · rename_i e hok
    rw [h] at hok
    cases hok
    rfl

/-- A character of a string literal is read back, if it is no line break that is printed as it is. -/
theorem readString_char {c : Char} (hc : c ≠ '\u2028' ∧ c ≠ '\u2029') (read tail : List Char) :
    readString '"' 1 read (Printer.literalChar c ++ tail) = readString '"' 1 (c :: read) tail := by
  unfold Printer.literalChar
  split
  · exact readString_escape rfl
  · exact readString_escape rfl
  · exact readString_escape rfl
  · exact readString_escape rfl
  · exact readString_escape rfl
  · rename_i hquote hslash hfeed hreturn _
    have hbreak : Text.isLineBreak c = false := by
      simp only [Text.isLineBreak, Bool.or_eq_false_iff, beq_eq_false_iff_ne]
      exact ⟨⟨⟨hfeed, hreturn⟩, hc.1⟩, hc.2⟩
    rw [List.cons_append, List.nil_append, readString.eq_def]
    dsimp only
    rw [if_neg hquote, if_neg (by rw [hbreak]; exact Bool.false_ne_true), if_neg hslash]

theorem readString_literal {cs : List Char} (hcs : ∀ c ∈ cs, c ≠ '\u2028' ∧ c ≠ '\u2029')
    (read rest : List Char) :
    readString '"' 1 read (cs.flatMap Printer.literalChar ++ '"' :: rest)
      = .ok ⟨.string (String.ofList (read.reverse ++ cs)), 1, rest⟩ := by
  induction cs generalizing read with
  | nil =>
    rw [List.flatMap_nil, List.nil_append, readString.eq_def]
    dsimp only
    rw [if_pos rfl, List.append_nil]
  | cons c cs ih =>
    rw [List.flatMap_cons, List.append_assoc, readString_char (hcs c (.head _)),
      ih (fun c hc => hcs c (.tail _ hc)), List.reverse_cons, List.append_assoc, List.singleton_append]

/-- A string literal is scanned as its string. -/
theorem scan_string {s : String} (hs : ∀ c ∈ s.toList, c ≠ '\u2028' ∧ c ≠ '\u2029') (rest : List Char) :
    scan 1 false ((Printer.stringLiteral s).toList ++ rest)
      = ⟨.string s, 1, false⟩ :: scan 1 false rest := by
  have htext : (Printer.stringLiteral s).toList ++ rest
      = '"' :: (s.toList.flatMap Printer.literalChar ++ '"' :: rest) := by
    simp only [Printer.stringLiteral, String.toList_append, String.toList_ofList, List.append_assoc]
    rfl
  have htoken : readToken '"' 1 (s.toList.flatMap Printer.literalChar ++ '"' :: rest)
      = .ok ⟨.string s, 1, rest⟩ := by
    unfold readToken
    rw [if_pos (.inr rfl), readString_literal hs, List.reverse_nil, List.nil_append, String.ofList_toList]
  rw [htext]
  exact scan_token (by decide) rfl rfl htoken false

end Lexeme

end PageScript
