import Mathlib.Data.List.Basic
import PageScript.Proofs.FirstTokens
import PageScript.Proofs.Printing.Numerals
import PageScript.Proofs.Scanning.LineBreaks

/-! # The steps of a scan

A scan passes over blanks, comments and tokens one after another.  `Lexeme.Scan.Step` is one step with the lexeme
that it gives, `Lexeme.Scan.Passes` a number of them.  A scan can go on until its text is at an end or no token
can be read, and the lexemes from some place on are those of the scan that stands there.
-/

set_option autoImplicit false

namespace PageScript

namespace Lexeme

/-! ## Tokens -/

theorem numeralPiece_isLast {spelling rest : List Char} {line : Nat} {p : Piece}
    (h : numeralPiece spelling line rest = .ok p) : p.token.isLast = false := by
  unfold numeralPiece at h
  split at h <;> cases h
  rfl

theorem decimalPiece_isLast {c : Char} {line : Nat} {digits : List Char} {fraction exponent : List Char × List Char}
    {p : Piece} (h : decimalPiece c line digits fraction exponent = .ok p) : p.token.isLast = false := by
  simp only [decimalPiece] at h
  split at h
  · split at h
    · cases h
      rfl
    · exact numeralPiece_isLast h
  · split at h
    · cases h
    · exact numeralPiece_isLast h

theorem readNumber_isLast {c : Char} {line : Nat} {cs : List Char} {p : Piece}
    (h : readNumber c line cs = .ok p) : p.token.isLast = false := by
  unfold readNumber at h
  split at h
  · simp only [hexPiece] at h
    split at h <;> cases h
    rfl
  · exact decimalPiece_isLast h

theorem ofWord_isLast (word : String) : (ofWord word).isLast = false := by
  unfold ofWord
  split
  · rfl
  · rfl
  · rfl
  · split <;> rfl

/-- The tokens of a text come before its end. -/
theorem readToken_isLast {c : Char} {line : Nat} {cs : List Char} {p : Piece}
    (h : readToken c line cs = .ok p) : p.token.isLast = false := by
  unfold readToken at h
  split at h
  · obtain ⟨text, htext⟩ := readString_token h
    rw [htext]
    rfl
  · split at h
    · exact readNumber_isLast h
    · split at h
      · cases h
        exact ofWord_isLast _
      · split at h <;> cases h
        rfl

/-! ## Scans -/

/-- Where a scan stands: its line, whether a line break came since the last token, and the text ahead. -/
structure Scan where
  line : Nat
  broken : Bool
  rest : List Char

namespace Scan

/-- The lexemes of the text ahead. -/
def lexemes (q : Scan) : List Lexeme := scan q.line q.broken q.rest

/-! ### Single steps -/

/-- A step of a scan over a blank, a comment or a token, with the lexeme that it gives. -/
inductive Step : Scan → Option Lexeme → Scan → Prop
  | space {line : Nat} {broken : Bool} {c : Char} {rest : List Char} :
    Text.isSpace c = true → Step ⟨line, broken, c :: rest⟩ none ⟨line, broken, rest⟩
  | lineBreak {line : Nat} {broken : Bool} {c : Char} {rest : List Char} :
    Text.isLineBreak c = true →
    Step ⟨line, broken, c :: rest⟩ none ⟨line + 1, true, Text.afterBreak c rest⟩
  | lineComment {line : Nat} {broken : Bool} {c : Char} {rest : List Char} :
    (afterLineCommentMark? (c :: rest)).isSome = true →
    Step ⟨line, broken, c :: rest⟩ none ⟨line, broken, rest.dropWhile (!Text.isLineBreak ·)⟩
  | blockComment {line line' : Nat} {broken passed : Bool} {text body rest : List Char} :
    afterBlockCommentMark? text = some body → skipComment line false body = .ok (line', passed, rest) →
    Step ⟨line, broken, text⟩ none ⟨line', broken || passed, rest⟩
  | token {line : Nat} {broken : Bool} {c : Char} {rest : List Char} {p : Piece} :
    Text.isBlank c = false → afterLineCommentMark? (c :: rest) = none →
    afterBlockCommentMark? (c :: rest) = none → readToken c line rest = .ok p →
    Step ⟨line, broken, c :: rest⟩ (some ⟨p.token, p.line, broken⟩) ⟨p.line, false, p.rest⟩

/-- A scan that cannot go on: a comment is not closed, or no token can be read. -/
inductive Stuck : Scan → Prop
  | comment {line : Nat} {broken : Bool} {text body : List Char} {e : LexicalError × Nat} :
    afterBlockCommentMark? text = some body → skipComment line false body = .error e →
    Stuck ⟨line, broken, text⟩
  | token {line : Nat} {broken : Bool} {c : Char} {rest : List Char} {e : LexicalError × Nat} :
    Text.isBlank c = false → afterLineCommentMark? (c :: rest) = none →
    afterBlockCommentMark? (c :: rest) = none → readToken c line rest = .error e →
    Stuck ⟨line, broken, c :: rest⟩

variable {q r r' : Scan} {l : Lexeme} {u : Option Lexeme} {us vs ts : List Lexeme}

theorem isSpace_eq_false {c : Char} (hc : Text.isLineBreak c = true) : Text.isSpace c = false := by
  rw [Text.isSpace, hc, Bool.not_true, Bool.and_false]

theorem isLineBreak_eq_false {c : Char} (hblank : Text.isBlank c = false) : Text.isLineBreak c = false := by
  cases hbreak : Text.isLineBreak c with
  | false => rfl
  | true =>
    simp only [Text.isLineBreak, Bool.or_eq_true, beq_iff_eq] at hbreak
    rcases hbreak with ((rfl | rfl) | rfl) | rfl <;> cases hblank

theorem blockComment_text {text body : List Char} (hmark : afterBlockCommentMark? text = some body) :
    text = '/' :: '*' :: body := by
  unfold afterBlockCommentMark? at hmark
  split at hmark
  · cases hmark
    rfl
  · cases hmark

/-- The scan of a block comment. -/
theorem scan_blockComment (line : Nat) (broken : Bool) (body : List Char) :
    scan line broken ('/' :: '*' :: body) =
      match skipComment line false body with
      | .error (cause, line) => [⟨.invalid cause, line, broken⟩]
      | .ok (line, passed, after) => scan line (broken || passed) after := by
  rw [scan.eq_def]
  dsimp only
  rw [if_neg (by decide), if_neg (by decide), if_neg (by rintro ⟨⟩)]
  split
  · rename_i body' hbody
    cases hbody
    split
    · rename_i herror
      rw [herror]
    · rename_i hok
      rw [hok]
  · rename_i hnone
    cases hnone

/-- The scan of what is neither a blank nor a comment. -/
theorem scan_word {line : Nat} {broken : Bool} {c : Char} {rest : List Char}
    (hblank : Text.isBlank c = false) (hline : afterLineCommentMark? (c :: rest) = none)
    (hblock : afterBlockCommentMark? (c :: rest) = none) :
    scan line broken (c :: rest) =
      match readToken c line rest with
      | .error (cause, line) => [⟨.invalid cause, line, broken⟩]
      | .ok p => ⟨p.token, p.line, broken⟩ :: scan p.line false p.rest := by
  have hspace : ¬Text.isSpace c = true := by
    rw [Text.isSpace, hblank, Bool.false_and]
    exact Bool.false_ne_true
  have hbreak : ¬Text.isLineBreak c = true := by
    rw [isLineBreak_eq_false hblank]
    exact Bool.false_ne_true
  rw [scan.eq_def]
  dsimp only
  rw [if_neg hspace, if_neg hbreak, if_neg (by rw [hline]; exact Bool.false_ne_true)]
  split
  · rename_i body hbody
    rw [hblock] at hbody
    cases hbody
  · split
    · rename_i herror
      rw [herror]
    · rename_i hok
      rw [hok]

namespace Step

/-- The lexemes from before a step on are the one that it gives and those behind it. -/
theorem lexemes_eq (h : Step q u r) : q.lexemes = u.toList ++ r.lexemes := by
  unfold lexemes
  cases h with
  | space hc =>
    rw [scan.eq_def]
    exact if_pos hc
  | lineBreak hc =>
    rw [scan.eq_def]
    dsimp only
    rw [if_neg (by rw [isSpace_eq_false hc]; exact Bool.false_ne_true), if_pos hc]
    rfl
  | @lineComment line broken c rest hmark =>
    have hc : c = '/' ∨ c = '<' := by
      by_contra hc
      rw [not_or] at hc
      rw [(afterCommentMark?_eq_none hc.1 hc.2 rest).1] at hmark
      cases hmark
    have hplain : ¬Text.isSpace c = true ∧ ¬Text.isLineBreak c = true := by
      rcases hc with rfl | rfl <;> decide
    rw [scan.eq_def]
    dsimp only
    rw [if_neg hplain.1, if_neg hplain.2, if_pos hmark]
    rfl
  | blockComment hmark hskip => rw [blockComment_text hmark, scan_blockComment, hskip]; rfl
  | token hblank hline hblock hread => rw [scan_word hblank hline hblock, hread]; rfl

theorem lineComment_reaches {c : Char} {rest : List Char}
    (hmark : (afterLineCommentMark? (c :: rest)).isSome = true) :
    Text.Reaches (c :: rest) (rest.dropWhile (!Text.isLineBreak ·)) := by
  refine .cons ?_ (.dropWhile (fun d hd => Bool.not_eq_true' _ ▸ hd) rest)
  by_cases hc : c = '/' ∨ c = '<'
  · rcases hc with rfl | rfl <;> decide
  · rw [not_or] at hc
    rw [(afterCommentMark?_eq_none hc.1 hc.2 rest).1] at hmark
    cases hmark

/-- A step goes on behind some of its text. -/
theorem suffix (h : Step q u r) : r.rest.length < q.rest.length ∧ r.rest <:+ q.rest := by
  cases h with
  | @space _ _ c rest => exact ⟨Nat.lt_succ_self _, List.suffix_cons c rest⟩
  | @lineBreak _ _ c rest =>
    have hsuffix := Text.afterBreak_suffix c rest
    exact ⟨Nat.lt_succ_of_le hsuffix.length_le, hsuffix.trans (List.suffix_cons c rest)⟩
  | @lineComment _ _ c rest =>
    have hsuffix := List.dropWhile_suffix (l := rest) (!Text.isLineBreak ·)
    exact ⟨Nat.lt_succ_of_le hsuffix.length_le, hsuffix.trans (List.suffix_cons c rest)⟩
  | blockComment hmark hskip =>
    have hsuffix := skipComment_suffix hskip
    rw [blockComment_text hmark]
    have hlength := Nat.lt_succ_of_le (Nat.le_succ_of_le hsuffix.length_le)
    exact ⟨hlength, hsuffix.trans ((List.suffix_cons ..).trans (List.suffix_cons ..))⟩
  | token hblank _ _ hread =>
    obtain ⟨hlength, hsuffix⟩ := readToken_suffix (isLineBreak_eq_false hblank) hread
    exact ⟨Nat.lt_succ_of_le hlength, hsuffix⟩

/-- The lines that are behind a step and those that are before it stay as many together. -/
theorem lines (h : Step q u r) : r.line + Text.lineBreaks r.rest = q.line + Text.lineBreaks q.rest := by
  cases h with
  | @space _ _ c rest hc =>
    have hplain : Text.isLineBreak c = false := by
      rw [Text.isSpace, Bool.and_eq_true, Bool.not_eq_true'] at hc
      exact hc.2
    rw [Text.lineBreaks_cons hplain]
  | lineBreak hc =>
    rw [Text.lineBreaks_break hc]
    dsimp only
    omega
  | lineComment hmark => rw [(lineComment_reaches hmark).lineBreaks_eq]
  | blockComment hmark hskip =>
    rw [blockComment_text hmark, Text.lineBreaks_cons (by decide), Text.lineBreaks_cons (by decide)]
    exact skipComment_lines hskip
  | token hblank _ _ hread => exact readToken_lines (isLineBreak_eq_false hblank) hread

end Step

/-- A scan stands at the end of its text, takes a step, or is stuck. -/
theorem progress (q : Scan) : q.rest = [] ∨ (∃ u r, Step q u r) ∨ q.Stuck := by
  obtain ⟨line, broken, cs⟩ := q
  cases cs with
  | nil => exact .inl rfl
  | cons c rest =>
    refine .inr ?_
    cases hspace : Text.isSpace c with
    | true => exact .inl ⟨_, _, .space hspace⟩
    | false =>
      cases hbreak : Text.isLineBreak c with
      | true => exact .inl ⟨_, _, .lineBreak hbreak⟩
      | false =>
        have hblank : Text.isBlank c = false := by
          rw [Text.isSpace, hbreak, Bool.not_false, Bool.and_true] at hspace
          exact hspace
        cases hline : afterLineCommentMark? (c :: rest) with
        | some more => exact .inl ⟨_, _, .lineComment (by rw [hline]; rfl)⟩
        | none =>
          cases hblock : afterBlockCommentMark? (c :: rest) with
          | some body =>
            cases hskip : skipComment line false body with
            | ok r => exact .inl ⟨_, _, .blockComment hblock hskip⟩
            | error e => exact .inr (.comment hblock hskip)
          | none =>
            cases hread : readToken c line rest with
            | ok p => exact .inl ⟨_, _, .token hblank hline hblock hread⟩
            | error e => exact .inr (.token hblank hline hblock hread)

theorem Stuck.lexemes_eq (h : q.Stuck) : ∃ cause line, q.lexemes = [⟨.invalid cause, line, q.broken⟩] := by
  unfold lexemes
  cases h with
  | @comment line broken text body e hmark hskip =>
    obtain ⟨cause, line'⟩ := e
    exact ⟨cause, line', by rw [blockComment_text hmark, scan_blockComment, hskip]⟩
  | @token line broken c rest e hblank hline hblock hread =>
    obtain ⟨cause, line'⟩ := e
    exact ⟨cause, line', by rw [scan_word hblank hline hblock, hread]⟩

/-! ### Passages -/

/-- A number of steps of a scan, with the lexemes that they give. -/
inductive Passes : Scan → List Lexeme → Scan → Prop
  | refl (q : Scan) : Passes q [] q
  | step {q r t : Scan} {u : Option Lexeme} {us : List Lexeme} :
    Step q u r → Passes r us t → Passes q (u.toList ++ us) t

namespace Passes

theorem single (h : Step q u r) : Passes q u.toList r := by
  have hpass := Passes.step h (.refl r)
  rwa [List.append_nil] at hpass

theorem trans {t : Scan} (h : Passes q us r) (h' : Passes r vs t) : Passes q (us ++ vs) t := by
  induction h with
  | refl => exact h'
  | step hstep _ ih =>
    rw [List.append_assoc]
    exact .step hstep (ih h')

theorem lexemes_eq (h : Passes q us r) : q.lexemes = us ++ r.lexemes := by
  induction h with
  | refl => rfl
  | step hstep _ ih => rw [hstep.lexemes_eq, ih, List.append_assoc]

theorem suffix (h : Passes q us r) : r.rest <:+ q.rest := by
  induction h with
  | refl => exact List.suffix_refl _
  | step hstep _ ih => exact ih.trans hstep.suffix.2

theorem lines (h : Passes q us r) : r.line + Text.lineBreaks r.rest = q.line + Text.lineBreaks q.rest := by
  induction h with
  | refl => rfl
  | step hstep _ ih => exact ih.trans hstep.lines

theorem isLast_eq_false (h : Passes q us r) : ∀ l ∈ us, l.token.isLast = false := by
  induction h with
  | refl => nofun
  | step hstep _ ih =>
    intro l hl
    rcases List.mem_append.1 hl with hl | hl
    · cases hstep with
      | token _ _ _ hread =>
        rw [Option.toList_some, List.mem_singleton] at hl
        rw [hl]
        exact readToken_isLast hread
      | _ => cases hl
    · exact ih l hl

end Passes

/-- A scan goes on until its text is at an end or it is stuck. -/
theorem exists_passes (q : Scan) : ∃ us r, Passes q us r ∧ (r.rest = [] ∨ r.Stuck) := by
  induction hn : q.rest.length using Nat.strongRecOn generalizing q with
  | ind n ih =>
    rcases q.progress with hrest | ⟨u, r, hstep⟩ | hstuck
    · exact ⟨[], q, .refl q, .inl hrest⟩
    · obtain ⟨us, t, hpasses, hend⟩ := ih _ (hn ▸ hstep.suffix.1) r rfl
      exact ⟨u.toList ++ us, t, .step hstep hpasses, hend⟩
    · exact ⟨[], q, .refl q, .inr hstuck⟩

theorem lexemes_of_rest_eq_nil (h : q.rest = []) : q.lexemes = [⟨.finish, q.line, q.broken⟩] := by
  rw [lexemes, h, scan_nil]

/-- A text has one last token, at its end. -/
theorem exists_step_of_suffix {q : Scan} (h : ts <:+ q.lexemes) (htoken : (Parser.head ts).token.isLast = false) :
    ∃ us r l t, Passes q us r ∧ ts = r.lexemes ∧ Step r (some l) t := by
  have hlast : ∀ {l : Lexeme}, l.token.isLast = true → ¬ts <:+ [l] := by
    intro l hl hsuffix
    rcases List.suffix_cons_iff.1 hsuffix with rfl | hsuffix
    · rw [Parser.head, hl] at htoken
      cases htoken
    · rw [List.suffix_nil.1 hsuffix] at htoken
      cases htoken
  induction hn : q.rest.length using Nat.strongRecOn generalizing q with
  | ind n ih =>
    rcases q.progress with hrest | ⟨u, r, hstep⟩ | hstuck
    · rw [lexemes_of_rest_eq_nil hrest] at h
      exact absurd h (hlast rfl)
    · have hlater : ts <:+ r.lexemes → ∃ us r l t, Passes q us r ∧ ts = r.lexemes ∧ Step r (some l) t := by
        intro hsuffix
        obtain ⟨us, r', l, t, hpasses, hts, hnext⟩ := ih _ (hn ▸ hstep.suffix.1) hsuffix rfl
        exact ⟨_, r', l, t, .step hstep hpasses, hts, hnext⟩
      rw [hstep.lexemes_eq] at h
      cases u with
      | none => exact hlater h
      | some l =>
        rcases List.suffix_cons_iff.1 h with hts | hsuffix
        · exact ⟨[], q, l, r, .refl q, hts.trans hstep.lexemes_eq.symm, hstep⟩
        · exact hlater hsuffix
    · obtain ⟨cause, line, heq⟩ := hstuck.lexemes_eq
      rw [heq] at h
      exact absurd h (hlast rfl)

end Scan

end Lexeme

end PageScript
