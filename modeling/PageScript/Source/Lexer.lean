import PageScript.Number.Reading
import PageScript.Source.Token

/-! # From text to lexemes

`Lexeme.ofText` splits a source text.  It never fails: where no token can be read the list ends in an
`invalid` one, so that whoever reads the list meets the error only on getting there.  Each reader
returns the unread text, which is never longer than what it was given; that makes the scan end.
-/

set_option autoImplicit false

namespace PageScript

namespace Text

/-- The text after a line break that begins with `c`; a carriage return takes a line feed along. -/
def afterBreak (c : Char) (cs : List Char) : List Char :=
  match cs with
  | '\n' :: rest => if c = '\r' then rest else cs
  | _ => cs

theorem length_afterBreak_le (c : Char) (cs : List Char) : (afterBreak c cs).length ≤ cs.length := by
  unfold afterBreak
  split
  · split <;> simp
  · exact Nat.le_refl _

theorem length_dropWhile_le {α : Type} (p : α → Bool) (cs : List α) :
    (cs.dropWhile p).length ≤ cs.length :=
  (List.dropWhile_sublist p).length_le

end Text

namespace Lexeme

/-! ## Comments -/

/-- Skips a block comment from after its opening on: the line reached, whether a line break was
passed, and the text after the comment. -/
def skipComment (line : Nat) (broken : Bool) :
    List Char → Except (LexicalError × Nat) (Nat × Bool × List Char)
  | [] => .error (.unterminatedComment, line)
  | c :: cs =>
    if c = '*' ∧ cs.head? = some '/' then .ok (line, broken, cs.tail)
    else if Text.isLineBreak c then skipComment (line + 1) true (Text.afterBreak c cs)
    else skipComment line broken cs
termination_by cs => cs.length
decreasing_by
  · have := Text.length_afterBreak_le c cs; simp; omega
  · simp

theorem length_skipComment_le {line : Nat} {broken : Bool} {cs : List Char}
    {r : Nat × Bool × List Char} (h : skipComment line broken cs = .ok r) :
    r.2.2.length ≤ cs.length := by
  fun_induction skipComment line broken cs with
  | case1 => simp at h
  | case2 => simp only [Except.ok.injEq] at h; subst h; simp; omega
  | case3 _ _ c cs _ _ ih =>
    have := ih h
    have := Text.length_afterBreak_le c cs
    simp; omega
  | case4 _ _ _ _ _ _ ih => have := ih h; simp; omega

/-! ## Strings -/

/-- What an escape stands for, the text after it, and how many line breaks it contains. -/
structure Escape where
  chars : List Char
  rest : List Char
  breaks : Nat

/-- The character with a code, or the replacement character where there is none. -/
def charOfCode (n : Nat) : Char := if n.isValidChar then Char.ofNat n else '\uFFFD'

/-- Reads an escape of a given number of hexadecimal digits. -/
def readHexEscape (count : Nat) (cs : List Char) : Except LexicalError Escape :=
  let ds := Digit.values 16 (cs.take count)
  if ds.length = count then
    .ok ⟨[charOfCode (ds.foldl (fun n d => n * 16 + d) 0)], cs.drop count, 0⟩
  else .error .badHexEscape

/-- Reads an octal escape: up to three digits, two if the first is above three. -/
def readOctalEscape (c : Char) (cs : List Char) : Escape :=
  let ds := Digit.values 8 (c :: cs.take (if c ≤ '3' then 2 else 1))
  ⟨[charOfCode (ds.foldl (fun n d => n * 8 + d) 0)], cs.drop (ds.length - 1), 0⟩

/-- The characters that stand for another one after a backslash. -/
def simpleEscape? (c : Char) : Option Char :=
  match c with
  | 'n' => some '\n'
  | 'r' => some '\r'
  | 't' => some '\t'
  | 'b' => some '\x08'
  | 'f' => some '\x0c'
  | 'v' => some '\x0b'
  | _ => none

/-- Reads an escape from after its backslash on. -/
def readEscape : List Char → Except LexicalError Escape
  | [] => .error .unterminatedEscape
  | c :: cs =>
    match simpleEscape? c with
    | some c' => .ok ⟨[c'], cs, 0⟩
    | none =>
      if '0' ≤ c ∧ c ≤ '7' then .ok (readOctalEscape c cs)
      else if c = 'x' then readHexEscape 2 cs
      else if c = 'u' then readHexEscape 4 cs
      else if Text.isLineBreak c then .ok ⟨[], Text.afterBreak c cs, 1⟩
      else .ok ⟨[c], cs, 0⟩

theorem length_readEscape_le {cs : List Char} {e : Escape} (h : readEscape cs = .ok e) :
    e.rest.length ≤ cs.length := by
  unfold readEscape at h
  split at h
  · simp at h
  next c cs =>
    have hb := Text.length_afterBreak_le c cs
    split at h
    · simp only [Except.ok.injEq] at h; subst h; simp
    · split at h
      · simp only [Except.ok.injEq] at h; subst h; simp [readOctalEscape]; omega
      · have hex : ∀ n, readHexEscape n cs = .ok e → e.rest.length ≤ cs.length := by
          intro n hn
          unfold readHexEscape at hn
          simp only at hn
          split at hn
          · simp only [Except.ok.injEq] at hn; subst hn; simp
          · simp at hn
        split at h
        · have := hex 2 h; simp; omega
        · split at h
          · have := hex 4 h; simp; omega
          · split at h
            · simp only [Except.ok.injEq] at h; subst h; simp; omega
            · simp only [Except.ok.injEq] at h; subst h; simp

/-- What a reader of one token has found: the token, the line reached, and the unread text. -/
structure Piece where
  token : Token
  line : Nat
  rest : List Char

/-- Reads a string from after its opening quote on; `read` holds its characters so far, last one
first. -/
def readString (quote : Char) (line : Nat) (read : List Char) :
    List Char → Except (LexicalError × Nat) Piece
  | [] => .error (.unterminatedString, line)
  | c :: cs =>
    if c = quote then .ok ⟨.string (String.ofList read.reverse), line, cs⟩
    else if Text.isLineBreak c then .error (.unterminatedString, line)
    else if c = '\\' then
      match _h : readEscape cs with
      | .error cause => .error (cause, line)
      | .ok e => readString quote (line + e.breaks) (e.chars.reverse ++ read) e.rest
    else readString quote line (c :: read) cs
termination_by cs => cs.length
decreasing_by
  · have := length_readEscape_le _h; simp; omega
  · simp

theorem length_readString_le {quote : Char} {line : Nat} {read cs : List Char} {p : Piece}
    (h : readString quote line read cs = .ok p) : p.rest.length ≤ cs.length := by
  fun_induction readString quote line read cs with
  | case1 => simp at h
  | case2 => simp only [Except.ok.injEq] at h; subst h; simp
  | case3 => simp at h
  | case4 => simp at h
  | case5 =>
    rename_i ih
    have := ih h
    have := length_readEscape_le (by assumption)
    simp; omega
  | case6 _ _ _ _ _ _ _ ih => have := ih h; simp; omega

/-! ## Numbers -/

/-- Splits off an exponent mark with the sign and digits that follow it, complete or not. -/
def spanExponent : List Char → List Char × List Char
  | [] => ([], [])
  | mark :: cs =>
    if mark = 'e' ∨ mark = 'E' then
      match cs with
      | sign :: more =>
        if sign = '+' ∨ sign = '-' then
          (mark :: sign :: more.takeWhile Digit.isDecimal, more.dropWhile Digit.isDecimal)
        else (mark :: cs.takeWhile Digit.isDecimal, cs.dropWhile Digit.isDecimal)
      | [] => ([mark], [])
    else ([], mark :: cs)

/-- Splits off a point with the digits that follow it. -/
def spanFraction : List Char → List Char × List Char
  | '.' :: cs => ('.' :: cs.takeWhile Digit.isDecimal, cs.dropWhile Digit.isDecimal)
  | cs => ([], cs)

theorem length_spanExponent_le (cs : List Char) : (spanExponent cs).2.length ≤ cs.length := by
  unfold spanExponent
  split
  · simp
  · split
    · split
      · split
        · have := Text.length_dropWhile_le Digit.isDecimal (by assumption); simp; omega
        · exact Nat.le_trans (Text.length_dropWhile_le _ _) (by simp)
      · simp
    · simp

theorem length_spanFraction_le (cs : List Char) : (spanFraction cs).2.length ≤ cs.length := by
  unfold spanFraction
  split
  · exact Nat.le_trans (Text.length_dropWhile_le _ _) (by simp)
  · simp

/-- The piece of a decimal numeral with a spelling. -/
def numeralPiece (spelling : List Char) (line : Nat) (rest : List Char) :
    Except (LexicalError × Nat) Piece :=
  match Number.ofLiteral? spelling with
  | some n => .ok ⟨.number n, line, rest⟩
  | none => .error (.badNumber, line)

/-- The piece of the digits after a hexadecimal mark. -/
def hexPiece (line : Nat) (cs : List Char) : Except (LexicalError × Nat) Piece :=
  let ds := Digit.values 16 cs
  if ds.isEmpty then .error (.badHexLiteral, line)
  else .ok ⟨.number (.ofFloat (Number.ofDigits 16 ds)), line, cs.drop ds.length⟩

/-- The piece of a decimal or octal numeral whose first character is `c` and which goes on with
`digits`, a fraction and an exponent.  Octal digits alone after a leading zero are octal; no letter
may follow a numeral without leading zero. -/
def decimalPiece (c : Char) (line : Nat) (digits : List Char) (fraction exponent : List Char × List Char) :
    Except (LexicalError × Nat) Piece :=
  let spelling := c :: digits ++ fraction.1 ++ exponent.1
  if c = '0' ∧ digits ≠ [] then
    if digits.all (· ≤ '7') ∧ fraction.1 = [] ∧ exponent.1 = [] then
      .ok ⟨.number (.ofFloat (Number.ofDigits 8 (Digit.values 8 digits))), line, exponent.2⟩
    else numeralPiece spelling line exponent.2
  else if exponent.2.head?.any Text.isIdentifierStart then .error (.wordAfterNumber, line)
  else numeralPiece spelling line exponent.2

/-- Reads a number whose first character is `c`. -/
def readNumber (c : Char) (line : Nat) (cs : List Char) : Except (LexicalError × Nat) Piece :=
  match Number.afterHexMark? (c :: cs) with
  | some hex => hexPiece line hex
  | none =>
    let rest := cs.dropWhile Digit.isDecimal
    let fraction := if c = '.' then ([], rest) else spanFraction rest
    decimalPiece c line (cs.takeWhile Digit.isDecimal) fraction (spanExponent fraction.2)

theorem length_numeralPiece_le {spelling rest : List Char} {line : Nat} {p : Piece}
    (h : numeralPiece spelling line rest = .ok p) : p.rest.length ≤ rest.length := by
  unfold numeralPiece at h
  split at h
  · simp only [Except.ok.injEq] at h; subst h; exact Nat.le_refl _
  · simp at h

theorem length_hexPiece_le {line : Nat} {cs : List Char} {p : Piece}
    (h : hexPiece line cs = .ok p) : p.rest.length ≤ cs.length := by
  simp only [hexPiece] at h
  split at h
  · simp at h
  · simp only [Except.ok.injEq] at h; subst h; simp

theorem length_decimalPiece_le {c : Char} {line : Nat} {digits : List Char}
    {fraction exponent : List Char × List Char} {p : Piece}
    (h : decimalPiece c line digits fraction exponent = .ok p) :
    p.rest.length ≤ exponent.2.length := by
  simp only [decimalPiece] at h
  split at h
  · split at h
    · simp only [Except.ok.injEq] at h; subst h; exact Nat.le_refl _
    · exact length_numeralPiece_le h
  · split at h
    · simp at h
    · exact length_numeralPiece_le h

theorem length_readNumber_le {c : Char} {line : Nat} {cs : List Char} {p : Piece}
    (h : readNumber c line cs = .ok p) : p.rest.length ≤ cs.length := by
  unfold readNumber at h
  split at h
  next hex hm =>
    have hl : hex.length ≤ cs.length := by
      unfold Number.afterHexMark? at hm
      split at hm
      case h_1 heq =>
        cases hm
        simp [(List.cons.inj heq).2]
      case h_2 heq =>
        cases hm
        simp [(List.cons.inj heq).2]
      case h_3 => cases hm
    exact Nat.le_trans (length_hexPiece_le h) hl
  next =>
    have hd := Text.length_dropWhile_le Digit.isDecimal cs
    have hp := length_decimalPiece_le h
    have hs := length_spanExponent_le
      (if c = '.' then ([], cs.dropWhile Digit.isDecimal)
        else spanFraction (cs.dropWhile Digit.isDecimal) : List Char × List Char).2
    have hf : (if c = '.' then ([], cs.dropWhile Digit.isDecimal)
        else spanFraction (cs.dropWhile Digit.isDecimal) : List Char × List Char).2.length
        ≤ cs.length := by
      split
      · exact hd
      · exact Nat.le_trans (length_spanFraction_le _) hd
    omega

/-! ## The scan -/

/-- The token of a word. -/
def ofWord (word : String) : Token :=
  match word with
  | "true" => .boolean true
  | "false" => .boolean false
  | "null" => .null
  | _ =>
    match Keyword.ofSpelling? word with
    | some k => .keyword k
    | none => .identifier word

/-- Reads the token that starts with `c`. -/
def readToken (c : Char) (line : Nat) (cs : List Char) : Except (LexicalError × Nat) Piece :=
  if c = '\'' ∨ c = '"' then readString c line [] cs
  else if c.isDigit ∨ (c = '.' ∧ cs.head?.any Digit.isDecimal) then readNumber c line cs
  else if Text.isIdentifierStart c then
    .ok ⟨ofWord (String.ofList (c :: cs.takeWhile Text.isIdentifierPart)), line,
      cs.dropWhile Text.isIdentifierPart⟩
  else
    match Mark.read? (c :: cs) with
    | some (m, rest) => .ok ⟨.mark m, line, rest⟩
    | none => .error (.unexpectedCharacter c, line)

theorem length_read?_lt {cs : List Char} {m : Mark} {rest : List Char}
    (h : Mark.read? cs = some (m, rest)) : rest.length < cs.length := by
  obtain ⟨⟨word, m'⟩, hm, hr⟩ := List.exists_of_findSome?_eq_some h
  simp only [Option.map_eq_some_iff, Prod.mk.injEq] at hr
  obtain ⟨r, hr, -, rfl⟩ := hr
  have hw : ∀ p ∈ Mark.spellings, p.1 ≠ [] := by decide
  have := hw _ hm
  rw [Text.after?_eq_some_iff.1 hr]
  cases word with
  | nil => simp at this
  | cons =>
    simp only [List.length_append, List.length_cons]
    omega

theorem length_readToken_le {c : Char} {line : Nat} {cs : List Char} {p : Piece}
    (h : readToken c line cs = .ok p) : p.rest.length ≤ cs.length := by
  unfold readToken at h
  split at h
  · exact length_readString_le h
  · split at h
    · exact length_readNumber_le h
    · split at h
      · simp only [Except.ok.injEq] at h; subst h; exact Text.length_dropWhile_le _ _
      · split at h
        next hm =>
          simp only [Except.ok.injEq] at h
          subst h
          exact Nat.le_of_lt_succ (length_read?_lt hm)
        next => simp at h

/-- The text after the opening of a comment that runs to the end of its line: two slashes, or the
markup opener that hides inline scripts. -/
def afterLineCommentMark? : List Char → Option (List Char)
  | '/' :: '/' :: rest => some rest
  | '<' :: '!' :: '-' :: '-' :: rest => some rest
  | _ => none

/-- The text after the opening of a block comment. -/
def afterBlockCommentMark? : List Char → Option (List Char)
  | '/' :: '*' :: rest => some rest
  | _ => none

/-- The lexemes of a text that starts on a line; `broken` says whether a line break came since the
last token. -/
def scan (line : Nat) (broken : Bool) (cs : List Char) : List Lexeme :=
  match cs with
  | [] => [⟨.finish, line, broken⟩]
  | c :: rest =>
    if Text.isSpace c then scan line broken rest
    else if Text.isLineBreak c then scan (line + 1) true (Text.afterBreak c rest)
    else if (afterLineCommentMark? (c :: rest)).isSome then
      scan line broken (rest.dropWhile (!Text.isLineBreak ·))
    else
      match _hb : afterBlockCommentMark? (c :: rest) with
      | some body =>
        match _hc : skipComment line false body with
        | .error (cause, line) => [⟨.invalid cause, line, broken⟩]
        | .ok (line, passed, after) => scan line (broken || passed) after
      | none =>
        match _ht : readToken c line rest with
        | .error (cause, line) => [⟨.invalid cause, line, broken⟩]
        | .ok p => ⟨p.token, p.line, broken⟩ :: scan p.line false p.rest
termination_by cs.length
decreasing_by
  · simp
  · have := Text.length_afterBreak_le c rest; simp; omega
  · have := Text.length_dropWhile_le (!Text.isLineBreak ·) rest; simp; omega
  · have := length_skipComment_le _hc
    unfold afterBlockCommentMark? at _hb
    split at _hb
    · simp_all; omega
    · simp at _hb
  · have := length_readToken_le _ht; simp; omega

/-- The lexemes of a source text. -/
def ofText (source : String) : List Lexeme := scan 1 false source.toList

end Lexeme

end PageScript
