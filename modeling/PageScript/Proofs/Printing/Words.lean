import PageScript.Proofs.Printing.Tokens

/-! # The words of a scanned text

A token that may stand for a name, as an identifier or behind a point, is the token of the word that it was
scanned from.
-/

set_option autoImplicit false

namespace PageScript

/-- Whether a token that may stand for a name is the token of that word. -/
def Token.NamesItself (t : Token) : Prop :=
  ∀ name, t.memberName? = some name → Lexeme.IsWord name ∧ Lexeme.ofWord name = t

namespace Lexeme

variable {c : Char} {cs : List Char} {line : Nat} {p : Piece}

theorem numeralPiece_token {spelling rest : List Char} (h : numeralPiece spelling line rest = .ok p) :
    ∃ n, p.token = .number n := by
  unfold numeralPiece at h
  split at h
  · cases h
    exact ⟨_, rfl⟩
  · cases h

theorem decimalPiece_token {digits : List Char} {fraction exponent : List Char × List Char}
    (h : decimalPiece c line digits fraction exponent = .ok p) : ∃ n, p.token = .number n := by
  simp only [decimalPiece] at h
  split at h
  · split at h
    · cases h
      exact ⟨_, rfl⟩
    · exact numeralPiece_token h
  · split at h
    · cases h
    · exact numeralPiece_token h

theorem readNumber_token (h : readNumber c line cs = .ok p) : ∃ n, p.token = .number n := by
  unfold readNumber at h
  split at h
  · simp only [hexPiece] at h
    split at h
    · cases h
    · cases h
      exact ⟨_, rfl⟩
  · exact decimalPiece_token h

theorem isWord_takeWhile (hstart : Text.isIdentifierStart c = true) (cs : List Char) :
    IsWord (String.ofList (c :: cs.takeWhile Text.isIdentifierPart)) :=
  ⟨c, cs.takeWhile Text.isIdentifierPart, String.toList_ofList, hstart,
    List.all_eq_true.1 List.all_takeWhile⟩

theorem namesItself_ofWord {name : String} (hname : IsWord name) : (ofWord name).NamesItself := by
  intro name' hmember
  rw [Token.memberName?_ofWord, Option.some.injEq] at hmember
  rw [← hmember]
  exact ⟨hname, rfl⟩

theorem namesItself_of_readToken (h : readToken c line cs = .ok p) : p.token.NamesItself := by
  unfold readToken at h
  split at h
  · obtain ⟨s, hs⟩ := readString_token h
    rw [hs]
    exact nofun
  · split at h
    · obtain ⟨n, hn⟩ := readNumber_token h
      rw [hn]
      exact nofun
    · split at h
      · rename_i hstart
        cases h
        exact namesItself_ofWord (isWord_takeWhile hstart cs)
      · split at h
        · cases h
          exact nofun
        · cases h

/-- Every token of a scanned text that may stand for a name is the token of that word. -/
theorem namesItself_of_mem_scan (line : Nat) (broken : Bool) (cs : List Char) :
    ∀ l ∈ scan line broken cs, l.token.NamesItself := by
  have hnone : ∀ {l : Lexeme}, l.token.memberName? = none → l.token.NamesItself := fun h name hname => by
    rw [h] at hname
    cases hname
  fun_induction scan line broken cs with
  | case1 line broken =>
    intro l hl
    rw [List.mem_singleton.1 hl]
    exact hnone rfl
  | case2 line broken c rest hspace ih => exact ih
  | case3 line broken c rest hspace hbreak ih => exact ih
  | case4 line broken c rest hspace hbreak hline ih => exact ih
  | case5 =>
    intro l hl
    rw [List.mem_singleton.1 hl]
    exact hnone rfl
  | case6 =>
    rename_i ih
    exact ih
  | case7 =>
    intro l hl
    rw [List.mem_singleton.1 hl]
    exact hnone rfl
  | case8 =>
    rename_i hread ih
    exact List.forall_mem_cons.2 ⟨namesItself_of_readToken hread, ih⟩

end Lexeme

end PageScript
