import PageScript.Embedding.Interpreter
import PageScript.Embedding.Stock
import PageScript.Proofs.SyntaxErrors.Lines

/-! # Reports of syntax errors

A script that is no program is not run.  Its first error is reported with the line on which it was met, which is
one of the lines of the script, and with the text of a line.  That is the text of the same line if the script has
only line feeds as line breaks up to there, with or without carriage returns in front: the text is looked up
among the pieces between line feeds.
-/

set_option autoImplicit false

namespace PageScript

namespace Interpreter

/-- The interpreter after one more event. -/
def noting (event : Event) (i : Interpreter) : Interpreter :=
  { i with machine := { i.machine with events := event :: i.machine.events } }

theorem perform_showSyntaxError (source : String) (e : SyntaxError) (i : Interpreter) :
    i.perform (showSyntaxError source e) =
      if i.config.showErrors then i.noting (.reported ⟨.badSource, e.message, e.line, sourceLine source e.line⟩)
      else i := by
  have hshown : ∀ (engine : Engine) (m : Machine), showSyntaxError source e engine m =
      .value () (if engine.config.showErrors then
        { m with events := .reported ⟨.badSource, e.message, e.line, sourceLine source e.line⟩ :: m.events }
      else m) := by
    intro engine m
    change (if engine.config.showErrors then _ else _ : Script Unit) engine m = _
    split <;> rfl
  rw [perform, apply, hshown]
  change (⟨i.config, i.host, if i.config.showErrors then _ else _⟩ : Interpreter) = _
  split <;> rfl

/-- Up to a line that ends in a line feed, as all before it do, the text that is shown for a line is its own. -/
theorem sourceLine_feed {source : String} {n : Nat} {line : Text.Line}
    (hfeeds : ∀ l ∈ (Text.linesOf source.toList).take (n + 1), l.EndsInFeed)
    (hline : (Text.linesOf source.toList)[n]? = some line) :
    sourceLine source (n + 1) = String.ofList (Text.trimWhiteSpace line.chars) := by
  rw [sourceLine, Nat.add_sub_cancel, Text.trimWhiteSpace_getD_lines hfeeds hline]

-- Other line breaks count for the line of an error, but not for the text of the line that is shown.
example : (Text.linesOf "a;\r)".toList)[1]? = some ⟨[')'], []⟩ ∧ sourceLine "a;\r)" 2 = "" := by decide

/-- A script that is no program changes nothing but that its first error is reported, if errors are shown.  The
report names a line of the script, and it shows the text of that line without the blanks around it if the line
and all lines before it end in line feeds or carriage returns with line feeds. -/
theorem runScript_rejected {source : String} {e : SyntaxError} (h : Program.parse source = .error e)
    (i : Interpreter) :
    ∃ n line shown, e.line = n + 1 ∧ (Text.linesOf source.toList)[n]? = some line ∧
      i.runScript source = (.error e, if i.config.showErrors then
        i.noting (.reported ⟨.badSource, e.message, n + 1, shown⟩) else i) ∧
      ((∀ l ∈ (Text.linesOf source.toList).take (n + 1), l.EndsInFeed) →
        shown = String.ofList (Text.trimWhiteSpace line.chars)) := by
  obtain ⟨n, line, hn, hline⟩ := Program.parse_error_line h
  refine ⟨n, line, sourceLine source (n + 1), hn, hline, ?_, fun hfeeds => sourceLine_feed hfeeds hline⟩
  rw [runScript, h]
  dsimp only
  rw [perform_showSyntaxError, hn]

theorem rejectsParen : (match Program.parse "a;\r\n b )" with
    | .error ⟨.expectedSemicolon (.mark .rightParen), 2⟩ => true
    | _ => false) = true := by decide +kernel

theorem runScript_rejected_secondLine :
    Program.parse "a;\r\n b )" = .error ⟨.expectedSemicolon (.mark .rightParen), 2⟩ ∧
      (new {} (Stock.host (Stock.scripted none [] []))).runScript "a;\r\n b )" =
        (.error ⟨.expectedSemicolon (.mark .rightParen), 2⟩,
          (new {} (Stock.host (Stock.scripted none [] []))).noting
            (.reported ⟨.badSource, "Expected ';', got RightParen", 2, "b )"⟩)) := by
  have hparse : Program.parse "a;\r\n b )" = .error ⟨.expectedSemicolon (.mark .rightParen), 2⟩ := by
    have herror := rejectsParen
    split at herror
    · assumption
    · cases herror
  refine ⟨hparse, ?_⟩
  obtain ⟨n, line, shown, hn, hline, hrun, hshown⟩ :=
    runScript_rejected hparse (new {} (Stock.host (Stock.scripted none [] [])))
  obtain rfl : n = 1 := (Nat.succ.inj hn).symm
  have hsecond : (Text.linesOf "a;\r\n b )".toList)[1]? = some ⟨" b )".toList, []⟩ := by decide
  cases hline.symm.trans hsecond
  have hshows : (new {} (Stock.host (Stock.scripted none [] []))).config.showErrors = true := rfl
  rw [hrun, hshown (by decide), if_pos hshows]
  rfl

end Interpreter

end PageScript
