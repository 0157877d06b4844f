import Mathlib.Data.List.GetD
import PageScript.Text.Search

/-! # Pieces of a text

A text that is cut at the characters of a kind has a piece between any two of them, in front of the first and
behind the last one.  Cut into lines it has the same pieces, but for an empty one behind the last line feed.
-/

set_option autoImplicit false

namespace PageScript

namespace Text

variable {p : Char → Bool} {cs rest : List Char} {c : Char}

theorem splitWhere_ne_nil (p : Char → Bool) (cs : List Char) : splitWhere p cs ≠ [] := by
  cases cs with
  | nil => exact List.cons_ne_nil _ _
  | cons c cs =>
    unfold splitWhere
    split
    · exact List.cons_ne_nil _ _
    · split <;> exact List.cons_ne_nil _ _

theorem splitWhere_append (cs : List Char) (hc : p c = true) :
    splitWhere p (cs ++ c :: rest) = splitWhere p cs ++ splitWhere p rest := by
  induction cs with
  | nil => simp [splitWhere, hc]
  | cons x cs ih =>
    obtain ⟨piece, pieces, hpieces⟩ := List.exists_cons_of_ne_nil (splitWhere_ne_nil p cs)
    rw [List.cons_append]
    by_cases hx : p x = true
    · simp [splitWhere, hx, ih]
    · simp [splitWhere, hx, ih, hpieces]

theorem splitWhere_of_forall (hcs : ∀ x ∈ cs, p x = false) : splitWhere p cs = [cs] := by
  induction cs with
  | nil => rfl
  | cons x cs ih =>
    have hx := hcs x (.head _)
    have ih := ih fun y hy => hcs y (.tail _ hy)
    simp [splitWhere, hx, ih]

theorem splitWhere_cons (hc : p c = false) (cs : List Char) :
    splitWhere p (c :: cs) = (splitWhere p cs).modifyHead (List.cons c) := by
  obtain ⟨piece, pieces, hpieces⟩ := List.exists_cons_of_ne_nil (splitWhere_ne_nil p cs)
  rw [splitWhere, hc, hpieces]
  rfl

/-- The line with a number is the piece with that number, or empty where there is none. -/
theorem getD_lines (cs : List Char) (n : Nat) : (lines cs).getD n [] = (splitWhere (· == '\n') cs).getD n [] := by
  simp only [lines]
  split
  · rename_i hlast
    obtain ⟨pieces, hpieces⟩ := List.getLast?_eq_some_iff.1 (beq_iff_eq.1 hlast)
    rw [hpieces, List.dropLast_concat]
    rcases Nat.lt_trichotomy n pieces.length with hn | rfl | hn
    · rw [List.getD_append _ _ _ _ hn]
    · rw [List.getD_append_right _ _ _ _ (Nat.le_refl _), Nat.sub_self]
      exact List.getD_eq_default _ _ (Nat.le_refl _)
    · rw [List.getD_eq_default _ _ (Nat.le_of_lt hn), List.getD_eq_default]
      rw [List.length_append]
      exact hn
  · rfl

end Text

end PageScript
