import PageScript.Proofs.Printing.Tokens

/-! # Readers at tokens

`Parser.LeadsTo` says that a reader at some tokens comes down to another reader at others, unless the
nesting limit is met on the way.  So a tree is read by a chain of steps, with one lemma for each way in
which readers are put together.
-/

set_option autoImplicit false

namespace PageScript

open Lexeme (ofTokens)

/-- Whether a token is one. -/
def Token.isValid : Token → Bool
  | .invalid _ => false
  | _ => true

@[simp] theorem Token.isMark_mark (m : Mark) : (Token.mark m).isMark m = true := beq_self_eq_true m

namespace Parser

variable {α β : Type} {x y z : Parser α} {f : α → Parser β} {w : Parser β} {a : α} {ts us vs : List Token}
  {t u : Token} {m : Mark}

/-- Whether a reader at the tokens `ts` does what another does at `us`, or gives up since the text is nested
too deeply. -/
def LeadsTo (x : Parser α) (ts : List Token) (y : Parser α) (us : List Token) : Prop :=
  x (ofTokens ts) = y (ofTokens us) ∨ ∃ line, x (ofTokens ts) = .error ⟨.tooDeep, line⟩

namespace LeadsTo

theorem refl (x : Parser α) (ts : List Token) : LeadsTo x ts x ts := .inl rfl

theorem trans (h : LeadsTo x ts y us) (h' : LeadsTo y us z vs) : LeadsTo x ts z vs := by
  rcases h with h | h
  · unfold LeadsTo
    rw [h]
    exact h'
  · exact .inr h

theorem tooDeep : LeadsTo (Parser.fail .tooDeep) ts y us := .inr ⟨_, rfl⟩

theorem bind (h : LeadsTo x ts y us) (f : α → Parser β) : LeadsTo (x >>= f) ts (y >>= f) us := by
  rcases h with h | ⟨line, h⟩
  · left
    show Except.bind (x (ofTokens ts)) (fun r => f r.1 r.2) = Except.bind (y (ofTokens us)) fun r => f r.1 r.2
    rw [h]
  · right
    refine ⟨line, ?_⟩
    show Except.bind (x (ofTokens ts)) (fun r => f r.1 r.2) = _
    rw [h]
    rfl

/-- What has been read is handed on. -/
theorem andThen (h : LeadsTo x ts (pure a) us) (h' : LeadsTo (f a) us w vs) : LeadsTo (x >>= f) ts w vs :=
  (h.bind f).trans h'

/-! ### Single tokens -/

theorem current {f : Token → Parser β} (h : LeadsTo (f t) (t :: ts) w us) :
    LeadsTo (Parser.current >>= f) (t :: ts) w us := h

theorem peek {f : Lexeme → Parser β} (h : LeadsTo (f ⟨t, 1, false⟩) (t :: ts) w us) :
    LeadsTo (Parser.peek >>= f) (t :: ts) w us := h

theorem advance (hu : u.isValid = true) : LeadsTo Parser.advance (t :: u :: us) (pure ()) (u :: us) := by
  cases u with
  | invalid => cases hu
  | _ => exact .inl rfl

theorem expectMark (h : LeadsTo Parser.advance (.mark m :: ts) (pure ()) us) :
    LeadsTo (Parser.expectMark m) (.mark m :: ts) (pure ()) us := by
  refine current ?_
  rw [if_pos (Token.isMark_mark m)]
  exact h

theorem skipMark (h : LeadsTo Parser.advance (.mark m :: ts) (pure ()) us) :
    LeadsTo (Parser.skipMark m) (.mark m :: ts) (pure true) us := by
  refine current ?_
  rw [if_pos (Token.isMark_mark m)]
  exact h.andThen (refl _ _)

theorem skipMark_of_ne (ht : t.isMark m = false) :
    LeadsTo (Parser.skipMark m) (t :: ts) (pure false) (t :: ts) := by
  refine current ?_
  rw [if_neg (by rw [ht]; exact Bool.false_ne_true)]
  exact refl _ _

/-! ### Several items -/

variable {stop : Token → Bool} {item : List α → Parser α} {limit : Nat} {read : List α}

theorem collect_stop (ht : stop t = true) :
    LeadsTo (Parser.collect stop item limit read) (t :: ts) (pure read.reverse) (t :: ts) := by
  left
  cases limit with
  | zero => rfl
  | succ limit => exact if_pos ht

theorem collect_item (ht : stop t = false) (h : LeadsTo (item read) (t :: ts) (pure a) us) :
    LeadsTo (Parser.collect stop item (limit + 1) read) (t :: ts)
      (Parser.collect stop item limit (a :: read)) us := by
  have hgo : ¬stop (head (ofTokens (t :: ts))).token = true := by
    show ¬stop t = true
    rw [ht]
    exact Bool.false_ne_true
  unfold LeadsTo
  rw [Parser.collect, if_neg hgo]
  rcases h with h | ⟨line, h⟩
  · rw [h]
    exact .inl rfl
  · rw [h]
    exact .inr ⟨line, rfl⟩

theorem many_stop (ht : stop t = true) :
    LeadsTo (Parser.many stop item) (t :: ts) (pure []) (t :: ts) := .inl (if_pos ht)

theorem many_collect (ht : stop t = false) :
    LeadsTo (Parser.many stop item) (t :: ts) (Parser.collect stop item (ts.length + 1) []) (t :: ts) := by
  left
  have hgo : ¬stop (head (ofTokens (t :: ts))).token = true := by
    show ¬stop t = true
    rw [ht]
    exact Bool.false_ne_true
  unfold Parser.many
  rw [if_neg hgo]
  have hlength : (ofTokens (t :: ts)).length = ts.length + 1 := by simp [ofTokens]
  rw [hlength]

end LeadsTo

/-- Whether a reader of items reads one off its tokens: the last one in front of the closing mark, and any
other one with the comma behind it. -/
structure ReadsItem (close : Mark) (item : List α → Parser α) (ts : List Token) (a : α) : Prop where
  first : ∃ t rest, ts = t :: rest ∧ t.isValid = true ∧ t.isMark close = false
  last : ∀ before us, LeadsTo (item before) (ts ++ .mark close :: us) (pure a) (.mark close :: us)
  more : ∀ before v us, v.isValid = true →
    LeadsTo (item before) (ts ++ .mark .comma :: v :: us) (pure a) (v :: us)

theorem LeadsTo.commas {close : Mark} {item : List α → Parser α} {f : Expression → α} {es : List Expression}
    (hes : ∀ e ∈ es, ReadsItem close item e.tokens (f e)) (limit : Nat) (hlimit : es.length ≤ limit)
    (read : List α) (us : List Token) :
    LeadsTo (Parser.collect (·.isMark close) item limit read)
      (Printer.commaTokens (Expression.tokenLists es) ++ .mark close :: us)
      (pure (read.reverse ++ es.map f)) (.mark close :: us) := by
  induction es generalizing limit read with
  | nil =>
    rw [List.map_nil, List.append_nil]
    exact collect_stop (beq_self_eq_true close)
  | cons e es ih =>
    obtain ⟨limit, rfl⟩ := Nat.exists_eq_add_of_le' (Nat.le_trans (Nat.le_add_left 1 es.length) hlimit)
    have he := hes e (.head _)
    obtain ⟨t, rest, htokens, -, ht⟩ := he.first
    have hread : read.reverse ++ (e :: es).map f = (f e :: read).reverse ++ es.map f := by
      rw [List.map_cons, List.reverse_cons, List.append_assoc, List.singleton_append]
    have ih := ih (fun e he => hes e (.tail _ he)) limit (Nat.le_of_succ_le_succ hlimit) (f e :: read)
    rw [hread]
    refine trans ?_ ih
    cases es with
    | nil =>
      have hlast := he.last read us
      simp only [Expression.tokenLists, Printer.commaTokens, List.intercalate_singleton]
      rw [htokens] at hlast ⊢
      exact collect_item ht hlast
    | cons e' es =>
      obtain ⟨v, rest', htokens', hv, -⟩ := (hes e' (.tail _ (.head _))).first
      have hnext : ∃ vs, Printer.commaTokens (Expression.tokenLists (e' :: es)) ++ .mark close :: us
          = v :: vs := by
        obtain ⟨more, hmore⟩ := Printer.commaTokens_cons e'.tokens (Expression.tokenLists es)
        rw [Expression.tokenLists, hmore, htokens']
        exact ⟨_, rfl⟩
      obtain ⟨vs, hvs⟩ := hnext
      have hsplit : Printer.commaTokens (Expression.tokenLists (e :: e' :: es)) ++ .mark close :: us
          = e.tokens ++ .mark .comma :: v :: vs := by
        rw [← hvs]
        simp only [Expression.tokenLists]
        rw [Printer.commaTokens_cons_cons, List.append_assoc, List.cons_append]
      have hitem := he.more read v vs hv
      rw [hsplit, hvs]
      rw [htokens] at hitem ⊢
      exact collect_item ht hitem

/-- Items with commas between them are read up to the closing mark. -/
theorem LeadsTo.many_commas {close : Mark} {item : List α → Parser α} {f : Expression → α}
    {es : List Expression} (hes : ∀ e ∈ es, ReadsItem close item e.tokens (f e)) (us : List Token) :
    LeadsTo (Parser.many (·.isMark close) item)
      (Printer.commaTokens (Expression.tokenLists es) ++ .mark close :: us)
      (pure (es.map f)) (.mark close :: us) := by
  cases es with
  | nil => exact many_stop (Token.isMark_mark close)
  | cons e es =>
    obtain ⟨t, rest, htokens, -, ht⟩ := (hes e (.head _)).first
    obtain ⟨more, hmore⟩ := Printer.commaTokens_cons e.tokens (Expression.tokenLists es)
    have hlength := Printer.length_le_commaTokens (Expression.tokenLists (e :: es))
    have hcommas := fun limit hlimit => commas hes limit hlimit [] us
    rw [Expression.length_tokenLists, Expression.tokenLists, hmore, htokens] at hlength
    rw [Expression.tokenLists, hmore, htokens] at hcommas ⊢
    refine (many_collect ht).trans (hcommas _ (Nat.le_trans hlength ?_))
    simp only [List.append_eq, List.cons_append, List.length_cons, List.length_append]
    omega

end Parser

end PageScript
