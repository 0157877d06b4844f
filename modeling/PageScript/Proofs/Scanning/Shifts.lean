import PageScript.Proofs.Rereading.Lines
import PageScript.Proofs.Scanning.Passages

/-! # Scanning a text from another line on

The line on which a text begins, and whether a line break came before it, matters to nothing but the lines of
its lexemes and to the mark of its first lexeme.
-/

set_option autoImplicit false

namespace PageScript

namespace Lexeme

/-- Lexemes, the first of which stands behind a line break. -/
def behindBreak : List Lexeme → List Lexeme
  | [] => []
  | l :: ts => { l with afterBreak := true } :: ts

theorem behindBreak_behindBreak (ts : List Lexeme) : behindBreak (behindBreak ts) = behindBreak ts := by
  cases ts <;> rfl

theorem behindBreak_append {l : Lexeme} (hl : l.afterBreak = true) (ts us : List Lexeme) :
    behindBreak (ts ++ l :: us) = behindBreak ts ++ l :: us := by
  cases ts with
  | nil =>
    obtain ⟨t, line, b⟩ := l
    cases hl
    rfl
  | cons t ts => rfl

theorem map_token_behindBreak (ts : List Lexeme) : (behindBreak ts).map (·.token) = ts.map (·.token) := by
  cases ts <;> rfl

theorem eq_of_behindBreak {l : Lexeme} {ts us : List Lexeme} (h : behindBreak ts = behindBreak (l :: us)) :
    ∃ b, ts = { l with afterBreak := b } :: us := by
  cases ts with
  | nil => cases h
  | cons t ts =>
    obtain ⟨token, line, b⟩ := t
    obtain ⟨token', line', b'⟩ := l
    cases h
    exact ⟨b, rfl⟩

/-- A piece of a text some lines further down. -/
def Piece.below (p : Piece) (k : Nat) : Piece := { p with line := p.line + k }

/-- An error some lines further down. -/
def errorBelow (k : Nat) (e : LexicalError × Nat) : LexicalError × Nat := (e.1, e.2 + k)

variable {quote c : Char} {line : Nat} {cs : List Char} {broken : Bool} (k : Nat)

/-! ## Readers -/

theorem skipComment_below : skipComment (line + k) broken cs =
    ((skipComment line broken cs).map fun r => (r.1 + k, r.2)).mapError (errorBelow k) := by
  fun_induction skipComment line broken cs with
  | case1 => rw [skipComment.eq_def]; rfl
  | case2 line broken c cs hend =>
    rw [skipComment.eq_def]
    exact if_pos hend
  | case3 line broken c cs hend hbreak ih =>
    rw [skipComment.eq_def]
    dsimp only
    rw [if_neg hend, if_pos hbreak, ← ih, Nat.add_right_comm]
  | case4 line broken c cs hend hbreak ih =>
    rw [skipComment.eq_def]
    dsimp only
    rw [if_neg hend, if_neg hbreak, ← ih]

theorem readString_below (read : List Char) : readString quote (line + k) read cs =
    ((readString quote line read cs).map (·.below k)).mapError (errorBelow k) := by
  fun_induction readString quote line read cs with
  | case1 => rw [readString.eq_def]; rfl
  | case2 line read cs =>
    rw [readString.eq_def]
    exact if_pos rfl
  | case3 line read c cs hc hbreak =>
    rw [readString.eq_def]
    dsimp only
    rw [if_neg hc, if_pos hbreak]
    rfl
  | case4 line read cs cause he hquote hbreak =>
    rw [readString.eq_def]
    dsimp only
    rw [if_neg hquote, if_neg hbreak, if_pos rfl]
    split
    · rename_i herror
      rw [he] at herror
      cases herror
      rfl
    · rename_i hok
      rw [he] at hok
      cases hok
  | case5 line read cs e he hquote hbreak ih =>
    rw [readString.eq_def]
    dsimp only
    rw [if_neg hquote, if_neg hbreak, if_pos rfl]
    split
    · rename_i herror
      rw [he] at herror
      cases herror
    · rename_i hok
      rw [he] at hok
      cases hok
      rw [← ih, Nat.add_right_comm]
  | case6 line read c cs hc hbreak hslash ih =>
    rw [readString.eq_def]
    dsimp only
    rw [if_neg hc, if_neg hbreak, if_neg hslash, ← ih]

theorem numeralPiece_below (spelling rest : List Char) : numeralPiece spelling (line + k) rest =
    ((numeralPiece spelling line rest).map (·.below k)).mapError (errorBelow k) := by
  unfold numeralPiece
  split <;> rfl

theorem decimalPiece_below (digits : List Char) (fraction exponent : List Char × List Char) :
    decimalPiece c (line + k) digits fraction exponent =
      ((decimalPiece c line digits fraction exponent).map (·.below k)).mapError (errorBelow k) := by
  simp only [decimalPiece]
  rw [numeralPiece_below]
  split
  · split <;> rfl
  · split <;> rfl

theorem readNumber_below : readNumber c (line + k) cs =
    ((readNumber c line cs).map (·.below k)).mapError (errorBelow k) := by
  unfold readNumber
  split
  · simp only [hexPiece]
    split <;> rfl
  · exact decimalPiece_below k _ _ _

theorem readToken_below : readToken c (line + k) cs =
    ((readToken c line cs).map (·.below k)).mapError (errorBelow k) := by
  unfold readToken
  rw [readString_below, readNumber_below]
  split
  · rfl
  · split
    · rfl
    · split
      · rfl
      · split <;> rfl

/-! ## Scans -/

namespace Scan

variable {q r : Scan} {u : Option Lexeme} {l : Lexeme}

/-- A scan some lines further down. -/
def below (q : Scan) (k : Nat) : Scan := { q with line := q.line + k }

/-- A scan behind a line break. -/
def behindBreak (q : Scan) : Scan := { q with broken := true }

theorem Step.below (h : Step q u r) : Step (q.below k) (u.map (renumber (· + k))) (r.below k) := by
  cases h with
  | space hc => exact .space hc
  | lineBreak hc =>
    unfold Scan.below
    rw [Nat.add_right_comm]
    exact .lineBreak hc
  | lineComment hmark => exact .lineComment hmark
  | blockComment hmark hskip => exact .blockComment hmark (by rw [skipComment_below, hskip]; rfl)
  | token hblank hline hblock hread =>
    exact .token (p := .below _ k) hblank hline hblock (by rw [readToken_below, hread]; rfl)

theorem Step.behindBreak (h : Step q none r) : Step q.behindBreak none r.behindBreak := by
  cases h with
  | space hc => exact .space hc
  | lineBreak hc => exact .lineBreak hc
  | lineComment hmark => exact .lineComment hmark
  | blockComment hmark hskip => exact .blockComment hmark hskip

theorem Step.token_behindBreak (h : Step q (some l) r) :
    Step q.behindBreak (some { l with afterBreak := true }) r := by
  cases h with
  | token hblank hline hblock hread => exact .token hblank hline hblock hread

/-- The lexemes of a scan some lines further down are the same, some lines further down. -/
theorem lexemes_below (q : Scan) : (q.below k).lexemes = q.lexemes.map (renumber (· + k)) := by
  induction hn : q.rest.length using Nat.strongRecOn generalizing q with
  | ind n ih =>
    rcases q.progress with hrest | ⟨u, r, hstep⟩ | hstuck
    · rw [lexemes_of_rest_eq_nil hrest, lexemes_of_rest_eq_nil (q := q.below k) hrest]
      rfl
    · rw [hstep.lexemes_eq, (hstep.below k).lexemes_eq, ih _ (hn ▸ hstep.suffix.1) r rfl, List.map_append,
        Option.toList_map]
    · unfold lexemes Scan.below
      cases hstuck with
      | comment hmark hskip =>
        rw [blockComment_text hmark, scan_blockComment, scan_blockComment, skipComment_below, hskip]
        rfl
      | token hblank hline hblock hread =>
        rw [scan_word hblank hline hblock, scan_word hblank hline hblock, readToken_below, hread]
        rfl

/-- A line break before a text matters only to its first lexeme. -/
theorem lexemes_behindBreak (q : Scan) : q.behindBreak.lexemes = Lexeme.behindBreak q.lexemes := by
  induction hn : q.rest.length using Nat.strongRecOn generalizing q with
  | ind n ih =>
    rcases q.progress with hrest | ⟨u, r, hstep⟩ | hstuck
    · rw [lexemes_of_rest_eq_nil hrest, lexemes_of_rest_eq_nil (q := q.behindBreak) hrest]
      rfl
    · cases u with
      | none =>
        rw [hstep.lexemes_eq, hstep.behindBreak.lexemes_eq]
        exact ih _ (hn ▸ hstep.suffix.1) r rfl
      | some l =>
        rw [hstep.lexemes_eq, hstep.token_behindBreak.lexemes_eq]
        rfl
    · unfold lexemes Scan.behindBreak
      cases hstuck with
      | comment hmark hskip =>
        rw [blockComment_text hmark, scan_blockComment, scan_blockComment, hskip]
        rfl
      | token hblank hline hblock hread =>
        rw [scan_word hblank hline hblock, scan_word hblank hline hblock, hread]
        rfl

end Scan

/-- Behind a line feed a text has its own lexemes, further down. -/
theorem scan_lineFeed (line : Nat) (broken : Bool) (cs : List Char) :
    scan line broken ('\n' :: cs) = behindBreak ((scan 1 false cs).map (renumber (· + line))) := by
  have hfeed : Scan.Step ⟨line, broken, '\n' :: cs⟩ none ⟨line + 1, true, Text.afterBreak '\n' cs⟩ :=
    .lineBreak (by decide)
  rw [Text.afterBreak_eq_self (by rintro ⟨⟨⟩, -⟩), Nat.add_comm] at hfeed
  refine hfeed.lexemes_eq.trans ?_
  exact (Scan.lexemes_behindBreak ⟨1 + line, false, cs⟩).trans
    (congrArg behindBreak (Scan.lexemes_below line ⟨1, false, cs⟩))

end Lexeme

end PageScript
