import PageScript.Source.Parser

/-! # What readers read

A reader put together from others reads what they read one after another, and fails where one of them does.
-/

set_option autoImplicit false

namespace PageScript

namespace Token

theorem eq_of_isMark {t : Token} {m : Mark} (h : t.isMark m = true) : t = .mark m := by
  cases t with
  | mark m' => rw [isMark, beq_iff_eq] at h; rw [h]
  | _ => cases h

theorem eq_of_isKeyword {t : Token} {k : Keyword} (h : t.isKeyword k = true) : t = .keyword k := by
  cases t with
  | keyword k' => rw [isKeyword, beq_iff_eq] at h; rw [h]
  | _ => cases h

/-- Whether a token is the last one of a text. -/
def isLast : Token → Bool
  | .finish | .invalid _ => true
  | _ => false

end Token

namespace Parser

variable {α β : Type} {x : Parser α} {a : α} {e : SyntaxError} {r : β × List Lexeme} {ts us : List Lexeme}

/-! ## Readable texts -/

/-- Whether a text does not go on with an error. -/
def Readable (ts : List Lexeme) : Prop := ∀ cause, (head ts).token ≠ .invalid cause

theorem eq_of_checked {r : Unit × List Lexeme} (h : checked ts = .ok r) : r = ((), ts) := by
  unfold checked at h
  split at h <;> cases h
  rfl

theorem readable_of_checked {r : Unit × List Lexeme} (h : checked ts = .ok r) : Readable ts := by
  intro cause
  unfold checked at h
  split at h
  · cases h
  · rename_i hvalid
    exact hvalid cause

theorem Readable.append (hts : Readable ts) (hus : ∀ u ∈ us, u.token.isLast = false) : Readable (us ++ ts) := by
  cases us with
  | nil => exact hts
  | cons u us =>
    intro cause hcause
    have hplain := hus u (.head us)
    rw [show u.token = .invalid cause from hcause] at hplain
    cases hplain

theorem isLast_concat {l : Lexeme} (hus : ∀ u ∈ us, u.token.isLast = false) (hl : l.token.isLast = false) :
    ∀ u ∈ us ++ [l], u.token.isLast = false := by
  intro u hu
  rcases List.mem_append.1 hu with hu | hu
  · exact hus u hu
  · rw [List.mem_singleton.1 hu]
    exact hl

theorem Readable.checked (h : Readable ts) : checked ts = .ok ((), ts) := by
  unfold Parser.checked
  split
  · rename_i cause hcause
    exact absurd hcause (h cause)
  · rfl

theorem readable_of_mark {l : Lexeme} {m : Mark} (hl : l.token = .mark m) : Readable (l :: ts) := by
  intro cause hcause
  rw [head, hl] at hcause
  cases hcause

theorem readable_of_finish {l : Lexeme} (hl : l.token = .finish) : Readable (l :: ts) := by
  intro cause hcause
  rw [head, hl] at hcause
  cases hcause

/-! ## One reader after another -/

theorem bind_ok (h : x ts = .ok (a, us)) (f : α → Parser β) : (x >>= f) ts = f a us := by
  change Except.bind (x ts) (fun r => f r.1 r.2) = f a us
  rw [h]
  rfl

theorem bind_error (h : x ts = .error e) (f : α → Parser β) : (x >>= f) ts = .error e := by
  change Except.bind (x ts) (fun r => f r.1 r.2) = .error e
  rw [h]
  rfl

theorem bind_eq_ok_iff {f : α → Parser β} :
    (x >>= f) ts = .ok r ↔ ∃ a us, x ts = .ok (a, us) ∧ f a us = .ok r := by
  constructor
  · intro h
    cases hfirst : x ts with
    | error e =>
      rw [bind_error hfirst] at h
      cases h
    | ok p =>
      rw [bind_ok hfirst] at h
      exact ⟨p.1, p.2, rfl, h⟩
  · rintro ⟨a, us, hfirst, hnext⟩
    rw [bind_ok hfirst, hnext]

/-! ## Single tokens -/

theorem current_bind (f : Token → Parser β) (ts : List Lexeme) :
    (current >>= f) ts = f (head ts).token ts := rfl

theorem peek_bind (f : Lexeme → Parser β) (ts : List Lexeme) : (peek >>= f) ts = f (head ts) ts := rfl

theorem advance_cons (hts : Readable ts) (l : Lexeme) : advance (l :: ts) = .ok ((), ts) := hts.checked

theorem advance_eq_ok_iff : advance ts = .ok ((), us) ↔ us = ts.tail ∧ Readable us := by
  constructor
  · intro h
    cases eq_of_checked h
    exact ⟨rfl, readable_of_checked h⟩
  · rintro ⟨rfl, hus⟩
    exact hus.checked

theorem skipMark_cons {m : Mark} {line : Nat} {b : Bool} (hts : Readable ts) :
    skipMark m (⟨.mark m, line, b⟩ :: ts) = .ok (true, ts) := by
  have hmark : (Token.mark m).isMark m = true := beq_self_eq_true m
  unfold skipMark
  rw [current_bind, head, if_pos hmark]
  exact bind_ok (advance_cons hts _) _

theorem expectMark_eq_ok_iff {m : Mark} :
    expectMark m ts = .ok ((), us) ↔ ∃ line b, ts = ⟨.mark m, line, b⟩ :: us ∧ Readable us := by
  have hmark : (Token.mark m).isMark m = true := beq_self_eq_true m
  unfold expectMark
  rw [current_bind]
  constructor
  · intro h
    split at h
    · rename_i hm
      obtain ⟨rfl, hus⟩ := advance_eq_ok_iff.1 h
      cases ts with
      | nil => cases hm
      | cons l ts =>
        refine ⟨l.line, l.afterBreak, ?_, hus⟩
        rw [← Token.eq_of_isMark hm]
        rfl
    · cases h
  · rintro ⟨line, b, rfl, hus⟩
    rw [head, if_pos hmark]
    exact advance_eq_ok_iff.2 ⟨rfl, hus⟩

theorem identifier_eq_ok_iff {name : String} :
    identifier ts = .ok (name, us) ↔ ∃ line b, ts = ⟨.identifier name, line, b⟩ :: us ∧ Readable us := by
  cases ts with
  | nil => exact ⟨nofun, nofun⟩
  | cons l ts =>
    obtain ⟨t, line, b⟩ := l
    cases t with
    | identifier name' =>
      change Except.bind (checked ts) (fun r => .ok (name', r.2)) = .ok (name, us) ↔ _
      constructor
      · intro h
        cases hchecked : checked ts with
        | error e =>
          rw [hchecked] at h
          cases h
        | ok r =>
          cases eq_of_checked hchecked
          rw [hchecked] at h
          cases h
          exact ⟨line, b, rfl, readable_of_checked hchecked⟩
      · rintro ⟨_, _, ⟨⟩, hus⟩
        rw [hus.checked]
        rfl
    | _ => exact ⟨nofun, nofun⟩

/-! ## Lists -/

theorem length_le_of_collect {stop : Token → Bool} {item : List α → Parser α} {limit : Nat} {read xs : List α}
    (h : collect stop item limit read ts = .ok (xs, us)) : read.length ≤ xs.length := by
  induction limit generalizing read ts with
  | zero =>
    cases h
    exact Nat.le_of_eq List.length_reverse.symm
  | succ limit ih =>
    unfold collect at h
    split at h
    · cases h
      exact Nat.le_of_eq List.length_reverse.symm
    · split at h
      · exact Nat.le_trans (Nat.le_succ _) (ih h)
      · cases h

/-- Where no item is read, nothing is. -/
theorem eq_of_many_nil {stop : Token → Bool} {item : List α → Parser α} (h : many stop item ts = .ok ([], us)) :
    us = ts := by
  unfold many at h
  split at h
  · cases h
    rfl
  · cases ts with
    | nil =>
      cases h
      rfl
    | cons l ts =>
      rw [List.length_cons, collect] at h
      split at h
      · cases h
        rfl
      · split at h
        · exact absurd (length_le_of_collect h) (Nat.not_succ_le_zero _)
        · cases h

theorem commaSeparated_singleton {item : Parser α} (h : item ts = .ok (a, us))
    (hus : (head us).token.isMark .comma = false) : commaSeparated item ts = .ok ([a], us) := by
  have hstop : (!(head us).token.isMark .comma) = true := by rw [hus]; rfl
  exact (bind_ok h _).trans (bind_ok (if_pos hstop) _)

theorem of_commaSeparated_singleton {item : Parser α} (h : commaSeparated item ts = .ok ([a], us)) :
    item ts = .ok (a, us) := by
  obtain ⟨first, vs, hfirst, hmore⟩ := bind_eq_ok_iff.1 h
  obtain ⟨rest, ws, hrest, hpure⟩ := bind_eq_ok_iff.1 hmore
  cases hpure
  rw [eq_of_many_nil hrest]
  exact hfirst

end Parser

open PageScript.Parser in
/-- A statement is its form on the line of its first token. -/
theorem Goal.parse_statement_eq_ok_iff {levels : Nat} {s : Surroundings} {t : Statement} {ts us : List Lexeme} :
    Goal.parse (levels + 1) .statement s ts = .ok (t, us) ↔
      ∃ form, Goal.statementForm (Goal.parse levels) s ts = .ok (form, us) ∧ t = .mk (head ts).line form := by
  change (Goal.statementForm (Goal.parse levels) s >>= fun form =>
    (pure (.mk (head ts).line form) : Parser Statement)) ts = .ok (t, us) ↔ _
  rw [bind_eq_ok_iff]
  constructor
  · rintro ⟨form, us, hform, ⟨⟩⟩
    exact ⟨form, hform, rfl⟩
  · rintro ⟨form, hform, rfl⟩
    exact ⟨form, us, hform, rfl⟩

theorem Goal.parse_statement_of_error {levels : Nat} {s : Surroundings} {e : SyntaxError} {ts : List Lexeme}
    (h : Goal.statementForm (Goal.parse levels) s ts = .error e) :
    Goal.parse (levels + 1) .statement s ts = .error e := by
  change (Goal.statementForm (Goal.parse levels) s >>= fun form =>
    (pure (.mk (Parser.head ts).line form) : Parser Statement)) ts = .error e
  exact Parser.bind_error h _

end PageScript
