import PageScript.Proofs.Scanning.Passages
import PageScript.Proofs.SyntaxErrors.Places
import PageScript.Proofs.Texts.Pieces

/-! # The lines of a text and of its lexemes

`Text.linesOf` cuts a text at its line breaks.  Every lexeme of a text stands on one of its lines, and so does what
is no lexeme at its end.  Where all line breaks are line feeds, with or without a carriage return in front, the
lines are those between the line feeds.
-/

set_option autoImplicit false

namespace PageScript

namespace Text

/-! ## Lines -/

/-- A line of a text with the line break that ends it; the last line has none. -/
structure Line where
  chars : List Char
  ending : List Char
  deriving DecidableEq

namespace Line

/-- The line with one more character in front. -/
def push (c : Char) (l : Line) : Line := { l with chars := c :: l.chars }

/-- Whether a line ends with the text, or with a line feed that may have a carriage return in front. -/
def EndsInFeed (l : Line) : Prop := l.ending ∈ [[], ['\n'], ['\r', '\n']]

instance (l : Line) : Decidable l.EndsInFeed := inferInstanceAs (Decidable (_ ∈ _))

end Line

/-- The lines of a text; a carriage return with a line feed behind it ends one line. -/
def linesOf : List Char → List Line
  | [] => [⟨[], []⟩]
  | '\r' :: '\n' :: cs => ⟨[], ['\r', '\n']⟩ :: linesOf cs
  | c :: cs => if isLineBreak c then ⟨[], [c]⟩ :: linesOf cs else (linesOf cs).modifyHead (Line.push c)

/-- A text has one line more than it has line breaks. -/
theorem length_linesOf (cs : List Char) : (linesOf cs).length = lineBreaks cs + 1 := by
  fun_induction linesOf cs with
  | case1 => rfl
  | case2 cs ih => rw [List.length_cons, ih, lineBreaks]
  | case3 c cs hpair hbreak ih => rw [List.length_cons, ih, lineBreaks.eq_3 _ _ hpair, if_pos hbreak]
  | case4 c cs hpair hbreak ih => rw [List.length_modifyHead, ih, lineBreaks.eq_3 _ _ hpair, if_neg hbreak]

example : linesOf "a\r\nb\rc\n\u2028".toList =
    [⟨['a'], ['\r', '\n']⟩, ⟨['b'], ['\r']⟩, ⟨['c'], ['\n']⟩, ⟨[], ['\u2028']⟩, ⟨[], []⟩] := by decide

/-- Up to a line that ends in a line feed, as all before it do, the lines are the pieces between line feeds, but
for the carriage returns. -/
theorem getElem?_splitWhere_feed {cs : List Char} {n : Nat} {line : Line}
    (hfeeds : ∀ l ∈ (linesOf cs).take (n + 1), l.EndsInFeed) (hline : (linesOf cs)[n]? = some line) :
    (splitWhere (· == '\n') cs)[n]? = some (line.chars ++ line.ending.dropLast) := by
  fun_induction linesOf cs generalizing n line with
  | case1 =>
    cases n with
    | zero =>
      cases hline
      rfl
    | succ n => cases hline
  | case2 cs ih =>
    have hpieces : splitWhere (· == '\n') ('\r' :: '\n' :: cs) = ['\r'] :: splitWhere (· == '\n') cs := rfl
    rw [hpieces]
    cases n with
    | zero =>
      cases hline
      rfl
    | succ n => exact ih (fun l hl => hfeeds l (.tail _ hl)) hline
  | case3 c cs hpair hbreak ih =>
    have hfeed : c = '\n' := by
      have hends := hfeeds _ (.head _)
      simp only [Line.EndsInFeed, List.mem_cons, List.not_mem_nil, List.cons.injEq, and_true, or_false,
        reduceCtorEq, and_false, false_or] at hends
      exact hends
    subst hfeed
    have hpieces : splitWhere (· == '\n') ('\n' :: cs) = [] :: splitWhere (· == '\n') cs := rfl
    rw [hpieces]
    cases n with
    | zero =>
      cases hline
      rfl
    | succ n => exact ih (fun l hl => hfeeds l (.tail _ hl)) hline
  | case4 c cs hpair hbreak ih =>
    have hplain : (c == '\n') = false := by
      rw [beq_eq_false_iff_ne]
      rintro rfl
      exact hbreak rfl
    rw [splitWhere_cons (p := (· == '\n')) hplain, List.getElem?_modifyHead]
    rw [List.take_modifyHead] at hfeeds
    rw [List.getElem?_modifyHead] at hline
    have hends : ∀ l ∈ (linesOf cs).take (n + 1), l.EndsInFeed := by
      intro l hl
      cases hlines : (linesOf cs).take (n + 1) with
      | nil =>
        rw [hlines] at hl
        cases hl
      | cons first more =>
        rw [hlines] at hl hfeeds
        rcases List.mem_cons.1 hl with rfl | hl
        · exact hfeeds (l.push c) (.head _)
        · exact hfeeds l (.tail _ hl)
    cases n with
    | zero =>
      rw [if_pos rfl] at hline ⊢
      obtain ⟨l, hl, rfl⟩ := Option.map_eq_some_iff.1 hline
      rw [ih hends hl]
      rfl
    | succ n =>
      rw [if_neg (Nat.succ_ne_zero n)] at hline ⊢
      exact ih hends hline

theorem trimWhiteSpace_concat {c : Char} (hc : isWhiteSpace c = true) (cs : List Char) :
    trimWhiteSpace (cs ++ [c]) = trimWhiteSpace cs := by
  unfold trimWhiteSpace
  rw [List.dropWhile_append]
  split
  · rename_i hblank
    rw [List.isEmpty_iff.1 hblank, List.dropWhile_cons_of_pos hc, List.dropWhile_nil]
  · rw [List.reverse_append, List.reverse_singleton, List.singleton_append, List.dropWhile_cons_of_pos hc]

/-- Trimmed, such a line is the text between two line feeds. -/
theorem trimWhiteSpace_getD_lines {cs : List Char} {n : Nat} {line : Line}
    (hfeeds : ∀ l ∈ (linesOf cs).take (n + 1), l.EndsInFeed) (hline : (linesOf cs)[n]? = some line) :
    trimWhiteSpace ((lines cs).getD n []) = trimWhiteSpace line.chars := by
  rw [getD_lines, List.getD_eq_getElem?_getD, getElem?_splitWhere_feed hfeeds hline, Option.getD_some]
  have hends : line.EndsInFeed := by
    refine hfeeds line (List.mem_of_getElem? (i := n) ?_)
    rw [List.getElem?_take_of_lt (Nat.lt_succ_self n), hline]
  simp only [Line.EndsInFeed, List.mem_cons, List.not_mem_nil, or_false] at hends
  rcases hends with hending | hending | hending <;> rw [hending]
  · rw [List.dropLast_nil, List.append_nil]
  · rw [List.dropLast_singleton, List.append_nil]
  · exact trimWhiteSpace_concat rfl line.chars

/-! ## Line breaks behind one another -/

theorem lineBreaks_le_cons (c : Char) (cs : List Char) : lineBreaks cs ≤ lineBreaks (c :: cs) := by
  cases hc : isLineBreak c with
  | false => exact Nat.le_of_eq (lineBreaks_cons hc cs).symm
  | true =>
    rw [lineBreaks_break hc]
    by_cases hpair : c = '\r' ∧ ∃ more, cs = '\n' :: more
    · obtain ⟨rfl, more, rfl⟩ := hpair
      exact Nat.le_refl _
    · rw [afterBreak_eq_self hpair]
      exact Nat.le_succ _

theorem lineBreaks_le_of_suffix {cs ds : List Char} (h : ds <:+ cs) : lineBreaks ds ≤ lineBreaks cs := by
  obtain ⟨front, rfl⟩ := h
  induction front with
  | nil => exact Nat.le_refl _
  | cons c front ih => exact Nat.le_trans ih (lineBreaks_le_cons c _)

end Text

namespace Lexeme

variable {c quote : Char} {line : Nat} {cs : List Char} {e : LexicalError × Nat}

/-! ## Lines of lexical errors -/

/-- A comment that is not closed goes on to the last line. -/
theorem skipComment_error {broken : Bool} (h : skipComment line broken cs = .error e) :
    e.2 = line + Text.lineBreaks cs := by
  fun_induction skipComment line broken cs with
  | case1 =>
    cases h
    rfl
  | case2 => cases h
  | case3 line broken c cs _ hbreak ih =>
    rw [ih h, Text.lineBreaks_break hbreak]
    omega
  | case4 line broken c cs _ hbreak ih => rw [ih h, Text.lineBreaks_cons (Bool.not_eq_true _ ▸ hbreak)]

theorem readString_error {read : List Char} (h : readString quote line read cs = .error e) :
    line ≤ e.2 ∧ e.2 ≤ line + Text.lineBreaks cs := by
  fun_induction readString quote line read cs with
  | case1 =>
    cases h
    exact ⟨Nat.le_refl _, Nat.le_refl _⟩
  | case2 => cases h
  | case3 =>
    cases h
    exact ⟨Nat.le_refl _, Nat.le_add_right _ _⟩
  | case4 =>
    cases h
    exact ⟨Nat.le_refl _, Nat.le_add_right _ _⟩
  | case5 line read cs esc hescape _ _ ih =>
    have hlines := readEscape_lines hescape
    have hbounds := ih h
    rw [Text.lineBreaks_cons (by decide)]
    omega
  | case6 line read c cs _ hbreak _ ih =>
    rw [Text.lineBreaks_cons (Bool.not_eq_true _ ▸ hbreak)]
    exact ih h

theorem numeralPiece_error {spelling rest : List Char} (h : numeralPiece spelling line rest = .error e) :
    e.2 = line := by
  unfold numeralPiece at h
  split at h <;> cases h
  rfl

theorem decimalPiece_error {digits : List Char} {fraction exponent : List Char × List Char}
    (h : decimalPiece c line digits fraction exponent = .error e) : e.2 = line := by
  simp only [decimalPiece] at h
  split at h
  · split at h
    · cases h
    · exact numeralPiece_error h
  · split at h
    · cases h
      rfl
    · exact numeralPiece_error h

theorem readNumber_error (h : readNumber c line cs = .error e) : e.2 = line := by
  unfold readNumber at h
  split at h
  · simp only [hexPiece] at h
    split at h <;> cases h
    rfl
  · exact decimalPiece_error h

theorem readToken_error (h : readToken c line cs = .error e) : line ≤ e.2 ∧ e.2 ≤ line + Text.lineBreaks (c :: cs) := by
  have hsame : e.2 = line → line ≤ e.2 ∧ e.2 ≤ line + Text.lineBreaks (c :: cs) := by
    intro heq
    rw [heq]
    exact ⟨Nat.le_refl _, Nat.le_add_right _ _⟩
  unfold readToken at h
  split at h
  · obtain ⟨hbehind, hbefore⟩ := readString_error h
    exact ⟨hbehind, Nat.le_trans hbefore (Nat.add_le_add_left (Text.lineBreaks_le_cons c cs) line)⟩
  · split at h
    · exact hsame (readNumber_error h)
    · split at h
      · cases h
      · split at h <;> cases h
        exact hsame rfl

namespace Scan

variable {q r : Scan} {l : Lexeme} {us : List Lexeme}

/-! ## Lines of lexemes -/

theorem Passes.line_le (h : Passes q us r) : q.line ≤ r.line := by
  have hlines := h.lines
  have hle := Text.lineBreaks_le_of_suffix h.suffix
  omega

/-- A lexeme stands on the line that the scan has reached with it. -/
theorem Passes.lexeme_line (h : Passes q us r) : ∀ l ∈ us, q.line ≤ l.line ∧ l.line ≤ r.line := by
  induction h with
  | refl => exact List.forall_mem_nil _
  | @step q r t u us hstep hpasses ih =>
    have hfirst := (Passes.single hstep).line_le
    have hrest := hpasses.line_le
    intro l hl
    rcases List.mem_append.1 hl with hl | hl
    · have hline : l.line = r.line := by
        cases hstep with
        | token _ _ _ _ =>
          rw [List.mem_singleton.1 hl]
        | _ => cases hl
      omega
    · have := ih l hl
      omega

theorem Stuck.lexeme_line (h : q.Stuck) (hl : q.lexemes = [l]) :
    q.line ≤ l.line ∧ l.line ≤ q.line + Text.lineBreaks q.rest := by
  unfold lexemes at hl
  cases h with
  | @comment line broken text body e hmark hskip =>
    obtain ⟨cause, line'⟩ := e
    have hline : line' = line + Text.lineBreaks body := skipComment_error hskip
    obtain rfl := blockComment_text hmark
    rw [scan_blockComment, hskip] at hl
    cases hl
    rw [Text.lineBreaks_cons (by decide), Text.lineBreaks_cons (by decide)]
    exact ⟨hline ▸ Nat.le_add_right _ _, Nat.le_of_eq hline⟩
  | @token line broken c rest e hblank hline hblock hread =>
    obtain ⟨cause, line'⟩ := e
    rw [scan_word hblank hline hblock, hread] at hl
    cases hl
    exact readToken_error hread

/-- The lexemes ahead go on to the end of the text, each on one of its lines. -/
theorem lexemes_ended (q : Scan) : Parser.Ended q.lexemes ∧
    ∀ l ∈ q.lexemes, q.line ≤ l.line ∧ l.line ≤ q.line + Text.lineBreaks q.rest := by
  obtain ⟨us, r, hpasses, hend⟩ := q.exists_passes
  have hlines := hpasses.lines
  have hle := hpasses.line_le
  obtain ⟨l, hl, hlast, hline⟩ : ∃ l, r.lexemes = [l] ∧ l.token.isLast = true ∧
      r.line ≤ l.line ∧ l.line ≤ r.line + Text.lineBreaks r.rest := by
    rcases hend with hrest | hstuck
    · exact ⟨_, lexemes_of_rest_eq_nil hrest, rfl, Nat.le_refl _, Nat.le_add_right _ _⟩
    · obtain ⟨cause, line, hl⟩ := hstuck.lexemes_eq
      exact ⟨_, hl, rfl, hstuck.lexeme_line hl⟩
  rw [hpasses.lexemes_eq, hl]
  refine ⟨⟨us, l, rfl, hlast⟩, fun u hu => ?_⟩
  rcases List.mem_append.1 hu with hu | hu
  · have := hpasses.lexeme_line u hu
    omega
  · rw [List.mem_singleton.1 hu]
    omega

end Scan

end Lexeme

/-! ## Lines of syntax errors -/

/-- A text that is no program has its first error on one of its lines. -/
theorem Program.parse_error_line {source : String} {e : SyntaxError} (h : Program.parse source = .error e) :
    ∃ n line, e.line = n + 1 ∧ (Text.linesOf source.toList)[n]? = some line := by
  have hrun : Program.ofLexemes (Lexeme.ofText source) = .error e := by
    unfold Program.parse at h
    cases hlexemes : Program.ofLexemes (Lexeme.ofText source) with
    | error e' =>
      rw [hlexemes] at h
      cases h
      rfl
    | ok r =>
      rw [hlexemes] at h
      cases h
  obtain ⟨hended, hbounds⟩ := Lexeme.Scan.lexemes_ended ⟨1, false, source.toList⟩
  obtain ⟨l, hl, hline⟩ := (Program.ofLexemes_remains.stays _).error hended rfl hrun
  obtain ⟨hfirst, hlast⟩ : 1 ≤ l.line ∧ l.line ≤ 1 + Text.lineBreaks source.toList := hbounds l hl
  have hlength : l.line - 1 < (Text.linesOf source.toList).length := by
    rw [Text.length_linesOf]
    omega
  exact ⟨l.line - 1, _, by omega, List.getElem?_eq_getElem hlength⟩

end PageScript
