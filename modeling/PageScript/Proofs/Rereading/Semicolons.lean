import PageScript.Proofs.Rereading.Statements

/-! # A semicolon at the end of a text

A statement whose last token is a semicolon at the end of its text is read as the same statement in front of
other statements: behind the semicolon it looks at nothing but an `else`.
-/

set_option autoImplicit false

namespace PageScript

open PageScript.Parser PageScript.Goal

namespace Parser.Seam

/-- Whether the common front of two texts ends with a semicolon, behind which the first text is at its end `f`
and the second one goes on with `vs`, but not with `else`. -/
structure GoesOn (k : Seam) (f : Lexeme) (vs : List Lexeme) : Prop where
  cut : ∃ l, l.token = .mark .semicolon ∧ k.rest = [l, f] ∧ k.rest' = l.renumber k.lines :: vs
  whole : ∃ us, k.whole = us ++ k.rest
  finish : f.token = .finish
  readable : Readable vs
  noElse : (head vs).token.isKeyword .elseWord = false
  long : ¬k.short

variable {α β : Type} {k : Seam} {f : Lexeme} {vs : List Lexeme} {q : Place} {ts ts' : List Lexeme}

namespace GoesOn

variable (hk : k.GoesOn f vs)

include hk

/-- What is left of the first text includes the semicolon, or is only its end. -/
theorem inside_cases (h : k.Inside q ts) : 2 ≤ ts.length ∨ ts = [f] ∧ q.before = .semicolon := by
  obtain ⟨l, hl, hrest, -⟩ := hk.cut
  obtain ⟨us, hwhole⟩ := hk.whole
  obtain ⟨⟨front, hfront, hq, hlast⟩, -⟩ := h
  rw [hfront, hrest] at hwhole
  match ts with
  | _ :: _ :: _ => exact .inl (Nat.le_add_left 2 _)
  | [] =>
    rw [List.append_nil] at hwhole
    have hf := hlast f (by rw [hwhole]; exact List.mem_append_right us (.tail _ (.head _)))
    rw [hk.finish] at hf
    cases hf
  | [x] =>
    have hsplit : front ++ [x] = (us ++ [l]) ++ [f] := by rw [hwhole, List.append_assoc]; rfl
    obtain ⟨rfl, hx⟩ := List.append_inj' hsplit rfl
    refine .inr ⟨hx, ?_⟩
    rw [← hq, List.map_append, List.foldl_append, List.map_cons, hl]
    rfl

theorem head_eq (h : k.Matches ts ts') : head ts' = (head ts).renumber k.lines := by
  obtain ⟨l, -, hrest, hrest'⟩ := hk.cut
  obtain ⟨us, rfl, rfl⟩ := h
  cases us with
  | nil => rw [hrest, hrest']; rfl
  | cons u us => rfl

theorem matches_length (h : k.Matches ts ts') : 2 ≤ ts.length := by
  obtain ⟨l, -, hrest, -⟩ := hk.cut
  obtain ⟨us, rfl, -⟩ := h
  rw [List.length_append, hrest]
  exact Nat.le_add_left 2 _

end GoesOn

/-- Whether the second reading goes on with `vs` where the first one ends at the end of its text. -/
structure Closes (k : Seam) (f : Lexeme) (vs : List Lexeme) (P : Place → Token → Prop) (g : α → α)
    (x x' : Parser α) : Prop where
  on : ∀ {q ts ts' a}, k.Inside q ts → P q (head ts).token → k.Matches ts ts' → x ts = .ok (a, [f]) →
    x' ts' = .ok (g a, vs)

namespace Closes

variable {n : Nat} {P A M Q : Place → Token → Prop} {g : α → α} {h : β → β} {x x' : Parser α}
  {y y' : α → Parser β}

theorem imp (hx : Closes k f vs P g x x') (hpre : ∀ q t, A q t → P q t) : Closes k f vs A g x x' where
  on hq hp := hx.on hq (hpre _ _ hp)

/-- One reader behind another, which may have come to the end of the text before. -/
theorem andThen (hk : k.GoesOn f vs) (hx : Rereads k 0 n P M g x x')
    (hend : ∀ {q ts ts' a b q'}, k.Inside q ts → P q (head ts).token → k.Matches ts ts' → x ts = .ok (a, [f]) →
      M q' f.token → q'.before = .semicolon → y a [f] = .ok (b, [f]) → (x' >>= y') ts' = .ok (h b, vs))
    (hy : ∀ a, Closes k f vs M h (y a) (y' (g a))) : Closes k f vs P h (x >>= y) (x' >>= y') := by
  refine ⟨fun {q ts ts' b} hq hp hmatch hrun => ?_⟩
  obtain ⟨a, us, hfirst, hnext⟩ := bind_eq_ok_iff.1 hrun
  obtain ⟨-, q', hq', hp'⟩ := hx.course hq hp hfirst
  rcases hk.inside_cases hq' with hlength | ⟨rfl, hbefore⟩
  · have hseam : k.rest.length + 0 ≤ us.length := by
      obtain ⟨l, -, hrest, -⟩ := hk.cut
      rw [hrest]
      exact hlength
    rcases hx.again hq hp hmatch hfirst hseam with ⟨us', hsecond, hmatch'⟩ | ⟨hshort, -⟩
    · rw [bind_ok hsecond]
      exact (hy a).on hq' hp' hmatch' hnext
    · exact absurd hshort hk.long
  · exact hend hq hp hmatch hfirst hp' hbefore hnext

/-- One reader behind another, which has not come to the end of the text before. -/
theorem bind (hk : k.GoesOn f vs) (hx : Rereads k 0 n P M g x x')
    (hstop : ∀ a q, M q f.token → q.before = .semicolon → Refuses (y a) [f])
    (hy : ∀ a, Closes k f vs M h (y a) (y' (g a))) : Closes k f vs P h (x >>= y) (x' >>= y') :=
  andThen hk hx (fun _ _ _ _ hp hbefore hrun => absurd hrun (hstop _ _ hp hbefore _)) hy

/-- What is returned behind the semicolon. -/
theorem give {w w' : α → β} (hx : Closes k f vs P g x x') (hw : ∀ a, w' (g a) = h (w a)) :
    Closes k f vs P h (x >>= fun a => Pure.pure (w a)) (x' >>= fun a => Pure.pure (w' a)) := by
  refine ⟨fun {q ts ts' b} hq hp hmatch hrun => ?_⟩
  change Except.bind (x ts) (fun r => .ok (w r.1, r.2)) = .ok (b, [f]) at hrun
  change Except.bind (x' ts') (fun r => .ok (w' r.1, r.2)) = .ok (h b, vs)
  cases hfirst : x ts with
  | error e =>
    rw [hfirst] at hrun
    cases hrun
  | ok r =>
    obtain ⟨a, us⟩ := r
    rw [hfirst] at hrun
    cases hrun
    rw [hx.on hq hp hmatch hfirst, ← hw]
    rfl

/-- Only a semicolon comes before the end of the text. -/
theorem nowhere (hk : k.GoesOn f vs) (hx : Rereads k 0 n P Q g x x')
    (hpost : ∀ q t, Q q t → q.before ≠ .semicolon) : Closes k f vs P g x x' := by
  refine ⟨fun {q ts ts' a} hq hp _ hrun => ?_⟩
  obtain ⟨-, q', hq', hp'⟩ := hx.course hq hp hrun
  rcases hk.inside_cases hq' with hlength | ⟨-, hbefore⟩
  · exact absurd hlength (Nat.not_succ_le_self 1)
  · exact absurd hbefore (hpost q' _ hp')

theorem current {y y' : Token → Parser β} (hk : k.GoesOn f vs)
    (hy : ∀ t, Closes k f vs (fun q u => P q u ∧ u = t) h (y t) (y' t)) :
    Closes k f vs P h (Parser.current >>= y) (Parser.current >>= y') := by
  refine ⟨fun {q ts ts' b} hq hp hmatch hrun => ?_⟩
  change y' (head ts').token ts' = _
  rw [hk.head_eq hmatch]
  exact (hy _).on hq ⟨hp, rfl⟩ hmatch hrun

theorem peek {y y' : Lexeme → Parser β} (hk : k.GoesOn f vs)
    (hy : ∀ l, Closes k f vs (fun q u => P q u ∧ u = l.token) h (y l) (y' (l.renumber k.lines))) :
    Closes k f vs P h (Parser.peek >>= y) (Parser.peek >>= y') := by
  refine ⟨fun {q ts ts' b} hq hp hmatch hrun => ?_⟩
  change y' (head ts') ts' = _
  rw [hk.head_eq hmatch]
  exact (hy _).on hq ⟨hp, rfl⟩ hmatch hrun

theorem labelAhead {y y' : Option String → Parser β} (hk : k.GoesOn f vs)
    (hy : ∀ label, Closes k f vs P h (y label) (y' label)) :
    Closes k f vs P h (Goal.labelAhead >>= y) (Goal.labelAhead >>= y') := by
  refine ⟨fun {q ts ts' b} hq hp hmatch hrun => ?_⟩
  change Except.bind (Goal.labelAhead ts) (fun r => y r.1 r.2) = .ok (b, [f]) at hrun
  change Except.bind (Goal.labelAhead ts') (fun r => y' r.1 r.2) = .ok (h b, vs)
  cases hlabel : Goal.labelAhead ts with
  | error e =>
    rw [hlabel] at hrun
    cases hrun
  | ok r =>
    obtain ⟨label, us⟩ := r
    obtain rfl := labelAhead_rest hlabel
    rw [hlabel] at hrun
    have hsame : Goal.labelAhead ts' = .ok (label, ts') := by
      obtain ⟨front, hts, hts'⟩ := hmatch
      cases front with
      | cons u front =>
        have hlength : k.rest.length < us.length := by
          rw [hts, List.length_append, List.length_cons]
          omega
        exact Matches.labelAhead ⟨u :: front, hts, hts'⟩ hlength hlabel
      | nil =>
        obtain ⟨⟨t, line, c⟩, hl, hrest, hrest'⟩ := hk.cut
        cases hl
        rw [hts, hrest] at hlabel
        rw [hts', hrest']
        cases hlabel
        rfl
    rw [hsame]
    exact (hy label).on hq hp hmatch hrun

theorem pure {x' : Parser β} {b : β} (hk : k.GoesOn f vs) : Closes k f vs P h (Pure.pure b) x' := by
  refine ⟨fun {q ts ts' a} _ _ hmatch hrun => ?_⟩
  cases hrun
  exact absurd (hk.matches_length hmatch) (Nat.not_succ_le_self 1)

theorem fail {cause : SyntaxCause} : Closes k f vs P g (Parser.fail cause) x' := ⟨nofun⟩

/-- The semicolon itself. -/
theorem advance (hk : k.GoesOn f vs) : Closes k f vs P id Parser.advance Parser.advance := by
  refine ⟨fun {q ts ts' a} _ _ hmatch hrun => ?_⟩
  obtain ⟨l, -, hrest, hrest'⟩ := hk.cut
  obtain ⟨us, rfl, rfl⟩ := hmatch
  have htail := congrArg Prod.snd (eq_of_checked hrun)
  cases us with
  | nil =>
    rw [hrest']
    exact hk.readable.checked
  | cons u us =>
    have hlength := congrArg List.length htail
    rw [hrest, List.cons_append, List.tail_cons, List.length_append, List.length_cons] at hlength
    exact absurd hlength (by simp only [List.length_cons, List.length_nil]; omega)

theorem endStatement (hk : k.GoesOn f vs) : Closes k f vs P id Parser.endStatement Parser.endStatement := by
  refine peek hk fun l => ?_
  change Closes k f vs _ id (ite _ _ _) (ite (l.token.isMark .semicolon = true) _ _)
  split
  · exact advance hk
  · refine ⟨fun {q ts ts' a} _ _ hmatch hrun => ?_⟩
    have hlength := hk.matches_length hmatch
    split at hrun
    · cases hrun
      exact absurd hlength (Nat.not_succ_le_self 1)
    · cases hrun

end Closes

/-- A place inside the brackets `S` that is not behind a semicolon. -/
def Follows (S : List Bool) (q : Place) (_ : Token) : Prop := q.brackets = S ∧ q.before ≠ .semicolon

variable {S : List Bool} {s : Surroundings} {d d' : Deeper} {t : Token}

theorem Ends.follows (h : Ends S q t) : Follows S q t := by
  refine ⟨h.1, fun hbefore => ?_⟩
  have hends := h.2
  rw [hbefore] at hends
  cases hends

theorem word_follows (w : Keyword) :
    Rereads k 0 1 (fun q t => Stands S q t ∧ t = .keyword w) (Follows S) id Parser.advance Parser.advance :=
  .advance fun q t ⟨hp, ht⟩ => by
    rw [ht]
    exact ⟨nofun, fun _ => ⟨hp, Before.after_keyword_ne_semicolon q.before w⟩⟩

/-! ## Statements -/

section

variable {levels : Nat} (hk : k.GoesOn f vs) (hd : k.Carries (parse levels) (parse levels))
  (hs : ∀ S s, Closes k f vs (Stands S) (Statement.renumber k.lines) (parse levels .statement s)
    (parse levels .statement s))

theorem refuses_expectMark (hk : k.GoesOn f vs) (m : Mark) : Refuses (expectMark m) [f] :=
  .expectMark (by rw [head, hk.finish]; rfl)

theorem refuses_expectKeyword (hk : k.GoesOn f vs) (w : Keyword) : Refuses (expectKeyword w) [f] :=
  .expectKeyword (by rw [head, hk.finish]; rfl)

theorem refuses_expression (hk : k.GoesOn f vs) : Refuses (Goal.expression (parse levels) s) [f] :=
  .expression (by rw [head, hk.finish]; rfl)

theorem refuses_statement (hk : k.GoesOn f vs) : Refuses (parse levels .statement s) [f] :=
  .statement (by rw [head, hk.finish]; rfl)

theorem refuses_expressionUnless (hk : k.GoesOn f vs) (m : Mark) :
    Refuses (expressionUnless (parse levels) s m) [f] := by
  unfold expressionUnless Refuses
  rw [current_bind, head, hk.finish]
  exact (refuses_expression hk).bind _

include hk

theorem closes_endStatement {w : StatementForm} {P : Place → Token → Prop} :
    Closes k f vs P (StatementForm.renumber k.lines)
      (do
        endStatement
        return w)
      (do
        endStatement
        return w.renumber k.lines) :=
  (Closes.endStatement hk).give fun _ => rfl

include hd hs

theorem closes_ifStatement (S : List Bool) (s : Surroundings) :
    Closes k f vs (fun q t => Stands S q t ∧ t = .keyword .ifWord) (StatementForm.renumber k.lines)
      (ifStatement (parse levels) s) (ifStatement (parse levels) s) := by
  refine .bind hk (word_follows .ifWord) (fun _ _ hp hb => absurd hb hp.2) fun _ => ?_
  refine .bind (M := Holds S) hk ((hd.parenthesized S s).imp (fun _ _ hp => hp.1) fun _ _ hp => hp)
    (fun _ _ hp hb => absurd hb hp.ends.follows.2) fun test => ?_
  refine .andThen hk ((hd.statement S s).imp (fun _ _ hp => hp.1) fun _ _ hp => hp) ?_ fun yes => ?_
  · refine fun {q ts ts' yes b q'} hq hp hmatch hfirst _ _ hrun => ?_
    have hnone : (head [f]).token.isKeyword .elseWord = false := by rw [head, hk.finish]; rfl
    rw [current_bind, hnone] at hrun
    cases hrun
    change Except.bind (parse levels .statement s ts') _ = _
    rw [(hs S s).on hq hp.1 hmatch hfirst]
    change (Parser.current >>= fun t => _) vs = _
    rw [current_bind, hk.noElse]
    rfl
  · refine .current hk fun t => ?_
    split
    · rename_i ht
      have helse := (word_follows (k := k) (S := S) .elseWord).imp (A := fun q u => Stands S q u ∧ u = t)
        (fun q u hu => hu.imp_right fun hu => hu.trans (Token.eq_of_isKeyword ht)) fun _ _ hp => hp
      refine .bind hk helse (fun _ _ hp hb => absurd hb hp.2) fun _ => ?_
      exact ((hs S s).imp fun _ _ hp => hp.1).give fun no => rfl
    · exact .pure hk

theorem closes_whileStatement (S : List Bool) (s : Surroundings) :
    Closes k f vs (fun q t => Stands S q t ∧ t = .keyword .whileWord) (StatementForm.renumber k.lines)
      (whileStatement (parse levels) s) (whileStatement (parse levels) s) := by
  refine .bind hk (word_follows .whileWord) (fun _ _ hp hb => absurd hb hp.2) fun _ => ?_
  refine .bind (M := Holds S) hk ((hd.parenthesized S s).imp (fun _ _ hp => hp.1) fun _ _ hp => hp)
    (fun _ _ hp hb => absurd hb hp.ends.follows.2) fun test => ?_
  exact ((hs S s.loopBody).imp fun _ _ hp => hp.1).give fun body => rfl

omit hs in
theorem closes_doStatement (S : List Bool) (s : Surroundings) :
    Closes k f vs (fun q t => Stands S q t ∧ t = .keyword .doWord) (StatementForm.renumber k.lines)
      (doStatement (parse levels) s) (doStatement (parse levels) s) := by
  have hword : Rereads k 0 1 (Stands S) (Stands S) id (expectKeyword .whileWord) (expectKeyword .whileWord) :=
    .expectKeyword fun q hp u => hp
  refine .bind hk (word_follows .doWord) (fun _ _ hp hb => absurd hb hp.2) fun _ => ?_
  refine .bind (M := Stands S) hk ((hd.statement S s.loopBody).imp (fun _ _ hp => hp.1) fun _ _ hp => hp)
    (fun _ _ _ _ => (refuses_expectKeyword hk _).bind _) fun body => ?_
  refine .bind (M := Stands S) hk hword (fun _ _ _ _ => ((refuses_expectMark hk _).bind _).bind _) fun _ => ?_
  refine .bind hk (hd.parenthesized S s) (fun _ _ hp hb => absurd hb hp.ends.follows.2) fun test => ?_
  rw [skipMark_bind, skipMark_bind]
  refine .current hk fun t => ?_
  split
  · exact (Closes.advance hk).give fun _ => rfl
  · exact .pure hk

theorem closes_forRest (S : List Bool) (s : Surroundings) (start : ForStart) :
    Closes k f vs (Stands (true :: S)) (StatementForm.renumber k.lines) (forRest (parse levels) s start)
      (forRest (parse levels) s (start.renumber k.lines)) := by
  have hsemicolon : Rereads k 0 1 (Stands (true :: S)) (Stands (true :: S)) id (expectMark .semicolon)
      (expectMark .semicolon) := .expectMark fun q hp u => hp
  have hclose : Rereads k 0 1 (Stands (true :: S)) (Stands S) id (expectMark .rightParen) (expectMark .rightParen) :=
    .expectMark fun q hp u => congrArg List.tail hp
  refine .bind hk hsemicolon (fun _ _ _ _ => (refuses_expressionUnless hk _).bind _) fun _ => ?_
  refine .bind hk (hd.expressionUnless (m := .semicolon) nofun (true :: S) s)
    (fun _ _ _ _ => (refuses_expectMark hk _).bind _) fun test => ?_
  refine .bind hk hsemicolon (fun _ _ _ _ => (refuses_expressionUnless hk _).bind _) fun _ => ?_
  refine .bind hk (hd.expressionUnless (m := .rightParen) nofun (true :: S) s)
    (fun _ _ _ _ => (refuses_expectMark hk _).bind _) fun update => ?_
  refine .bind hk hclose (fun _ _ _ _ => (refuses_statement hk).bind _) fun _ => ?_
  refine (hs S s.loopBody).give fun body => ?_
  rw [StatementForm.renumber, Expression.renumberOption_eq, Expression.renumberOption_eq]

theorem closes_forInRest (S : List Bool) (s : Surroundings) :
    Closes k f vs (fun q t => Stands (true :: S) q t ∧ t = .keyword .inWord)
      (fun x => (x.1.renumber k.lines, x.2.renumber k.lines)) (forInRest (parse levels) s)
      (forInRest (parse levels) s) := by
  have hclose : Rereads k 0 1 (Ends (true :: S)) (Stands S) id (expectMark .rightParen) (expectMark .rightParen) :=
    .expectMark fun q hp u => congrArg List.tail hp.1
  refine .bind hk (word_follows .inWord) (fun _ _ hp hb => absurd hb hp.2) fun _ => ?_
  refine .bind (M := Ends (true :: S)) hk
    ((hd.value (true :: S) s).imp (fun _ _ hp => hp.1) fun _ _ hp => hp)
    (fun _ _ hp hb => absurd hb hp.follows.2) fun object => ?_
  refine .bind hk hclose (fun _ _ _ _ => (refuses_statement hk).bind _) fun _ => ?_
  exact (hs S s.loopBody).give fun body => rfl

theorem closes_forStatement (S : List Bool) (s : Surroundings) :
    Closes k f vs (fun q t => Stands S q t ∧ t = .keyword .forWord) (StatementForm.renumber k.lines)
      (forStatement (parse levels) s) (forStatement (parse levels) s) := by
  have hopen : Rereads k 0 1 (Follows S) (Follows (true :: S)) id (expectMark .leftParen) (expectMark .leftParen) :=
    .expectMark fun q hp u => ⟨congrArg (true :: ·) hp.1, by rintro ⟨⟩⟩
  have hin : ∀ t : Token, t.isKeyword .inWord = true → ∀ q u, Ends (true :: S) q u ∧ u = t →
      Stands (true :: S) q u ∧ u = .keyword .inWord := fun t ht q u hu =>
    ⟨hu.1.1, hu.2.trans (Token.eq_of_isKeyword ht)⟩
  refine .bind hk (word_follows .forWord) (fun _ _ hp hb => absurd hb hp.2) fun _ => ?_
  refine .bind hk hopen (fun _ _ hp hb => absurd hb hp.2) fun _ => .current hk fun t => ?_
  dsimp only
  split
  · exact (closes_forRest hk hd hs S s .nothing).imp fun _ _ hp => hp.1.1
  · split
    · rename_i ht
      have hvar := (word_follows (k := k) (S := true :: S) .varWord).imp
        (A := fun q u => Follows (true :: S) q u ∧ u = t)
        (fun q u hu => ⟨hu.1.1, hu.2.trans (Token.eq_of_isKeyword ht)⟩) fun _ _ hp => hp
      refine .bind hk hvar (fun _ _ hp hb => absurd hb hp.2) fun _ => ?_
      have hlist := Rereads.commaSeparated (hd.declarator (e := 0) (true :: S) s.loopHead) fun q hp u => hp.1
      refine .bind hk (hlist.imp (fun _ _ hp => hp.1) fun _ _ hp => hp)
        (fun _ _ hp hb => absurd hb hp.follows.2) fun ds => .current hk fun u => ?_
      have hrest := (closes_forRest hk hd hs S s (.declare ds)).imp (A := fun q v => Ends (true :: S) q v ∧ v = u)
        fun _ _ hp => hp.1.1
      rw [ForStart.renumber, Declarator.renumberAll_eq] at hrest
      rcases ds with _ | ⟨e, _ | ⟨g, ds⟩⟩
      · exact hrest
      · cases hu : u.isKeyword .inWord with
        | false => exact hrest
        | true => exact ((closes_forInRest hk hd hs S s).imp (hin u hu)).give fun x => rfl
      · exact hrest
    · refine .bind hk ((hd.value (true :: S) s.loopHead).imp (fun _ _ hp => hp.1.1) fun _ _ hp => hp)
        (fun _ _ hp hb => absurd hb hp.follows.2) fun e => .current hk fun u => ?_
      split
      · rename_i hu
        rw [Expression.isTarget_renumber]
        cases e.isTarget with
        | false => exact .fail
        | true => exact ((closes_forInRest hk hd hs S s).imp (hin u hu)).give fun x => rfl
      · exact (closes_forRest hk hd hs S s (.expression e)).imp fun _ _ hp => hp.1.1

omit hs in
theorem closes_returnStatement (S : List Bool) (s : Surroundings) :
    Closes k f vs (fun q t => Stands S q t ∧ t = .keyword .returnWord) (StatementForm.renumber k.lines)
      (returnStatement (parse levels) s) (returnStatement (parse levels) s) := by
  unfold Goal.returnStatement
  cases s.inFunction with
  | false => exact .fail
  | true =>
    refine .bind hk (word_follows .returnWord) (fun _ _ hp hb => absurd hb hp.2) fun _ => .peek hk fun l => ?_
    have hvalue := ((hd.value (e := 0) S s).map (h := Option.map (Expression.renumber k.lines)) some some
        fun _ => rfl)
    change Closes k f vs _ _ (ite _ _ _) (ite ((l.token.isMark .semicolon || l.token.isMark .rightBrace ||
      l.token.isFinish || l.afterBreak) = true) _ _)
    split
    · exact closes_endStatement hk
    · refine .bind hk (hvalue.imp (fun _ _ hp => hp.1.1) fun _ _ hp => hp)
        (fun _ _ hp hb => absurd hb hp.follows.2) fun value => ?_
      rw [← Expression.renumberOption_eq]
      exact closes_endStatement hk

omit hd hs in
theorem closes_breakStatement (S : List Bool) (s : Surroundings) :
    Closes k f vs (fun q t => Stands S q t ∧ t = .keyword .breakWord) (StatementForm.renumber k.lines)
      (breakStatement s) (breakStatement s) := by
  have hlabel : Rereads k 0 0 (Follows S) (Follows S) id (optionalLabel s) (optionalLabel s) :=
    optionalLabel_rereads fun q name hp u => ⟨hp.1, nofun⟩
  refine .bind hk (word_follows .breakWord) (fun _ _ hp hb => absurd hb hp.2) fun _ => ?_
  refine .bind hk hlabel (fun _ _ hp hb => absurd hb hp.2) fun label => ?_
  rw [id_eq]
  split
  · exact .fail
  · exact closes_endStatement hk

omit hd hs in
theorem closes_continueStatement (S : List Bool) (s : Surroundings) :
    Closes k f vs (fun q t => Stands S q t ∧ t = .keyword .continueWord) (StatementForm.renumber k.lines)
      (continueStatement s) (continueStatement s) := by
  have hlabel : Rereads k 0 0 (Follows S) (Follows S) id (optionalLabel s) (optionalLabel s) :=
    optionalLabel_rereads fun q name hp u => ⟨hp.1, nofun⟩
  refine .bind hk (word_follows .continueWord) (fun _ _ hp hb => absurd hb hp.2) fun _ => ?_
  cases s.inLoop with
  | false => exact .fail
  | true => exact .bind hk hlabel (fun _ _ hp hb => absurd hb hp.2) fun label => closes_endStatement hk

omit hs in
theorem closes_throwStatement (S : List Bool) (s : Surroundings) :
    Closes k f vs (fun q t => Stands S q t ∧ t = .keyword .throwWord) (StatementForm.renumber k.lines)
      (throwStatement (parse levels) s) (throwStatement (parse levels) s) := by
  refine .bind hk (word_follows .throwWord) (fun _ _ hp hb => absurd hb hp.2) fun _ => .peek hk fun l => ?_
  change Closes k f vs _ _ (ite _ _ _) (ite (l.afterBreak = true) _ _)
  split
  · exact .fail
  · refine .bind hk ((hd.value S s).imp (fun _ _ hp => hp.1.1) fun _ _ hp => hp)
      (fun _ _ hp hb => absurd hb hp.follows.2) fun e => ?_
    exact closes_endStatement hk

theorem closes_withStatement (S : List Bool) (s : Surroundings) :
    Closes k f vs (fun q t => Stands S q t ∧ t = .keyword .withWord) (StatementForm.renumber k.lines)
      (withStatement (parse levels) s) (withStatement (parse levels) s) := by
  refine .bind hk (word_follows .withWord) (fun _ _ hp hb => absurd hb hp.2) fun _ => ?_
  refine .bind (M := Holds S) hk ((hd.parenthesized S s).imp (fun _ _ hp => hp.1) fun _ _ hp => hp)
    (fun _ _ hp hb => absurd hb hp.ends.follows.2) fun object => ?_
  exact ((hs S s).imp fun _ _ hp => hp.1).give fun body => rfl

theorem closes_otherStatement (S : List Bool) (s : Surroundings) :
    Closes k f vs (Stands S) (StatementForm.renumber k.lines) (otherStatement (parse levels) s)
      (otherStatement (parse levels) s) := by
  rw [otherStatement_eq]
  refine .labelAhead hk fun label => ?_
  cases label with
  | some name =>
    have hname : Rereads k 0 1 (Stands S) (Follows S) id Parser.identifier Parser.identifier :=
      .identifier fun q name hp u => ⟨hp, nofun⟩
    have hcolon : Rereads k 0 1 (Follows S) (Follows S) id (expectMark .colon) (expectMark .colon) :=
      .expectMark fun q hp u => ⟨hp.1, nofun⟩
    refine .bind hk hname (fun _ _ hp hb => absurd hb hp.2) fun _ => ?_
    refine .bind hk hcolon (fun _ _ hp hb => absurd hb hp.2) fun _ => ?_
    exact ((hs S (s.labeled name)).imp fun _ _ hp => hp.1).give fun body => rfl
  | none =>
    refine .bind hk (hd.value S s) (fun _ _ hp hb => absurd hb hp.follows.2) fun e => ?_
    exact closes_endStatement hk

theorem closes_statementForm (S : List Bool) (s : Surroundings) :
    Closes k f vs (Stands S) (StatementForm.renumber k.lines) (statementForm (parse levels) s)
      (statementForm (parse levels) s) := by
  have hends : ∀ {q : Place} {t : Token}, Holds S q t → q.before ≠ .semicolon := fun hp => hp.ends.follows.2
  refine .current hk fun t => ?_
  split
  · have hblock : Rereads k 0 1 (Stands S) (Holds S) (StatementForm.renumber k.lines)
        (do return .block (← block (parse levels) s)) (do return .block (← block (parse levels) s)) :=
      (hd.block S s).bind fun body =>
        .give (by rw [StatementForm.renumber, Statement.renumberAll_eq]) fun _ _ hp => hp
    exact .nowhere hk (hblock.imp (fun _ _ hp => hp.1) fun _ _ hp => hp) fun _ _ => hends
  · exact (Closes.advance hk).give fun _ => rfl
  · refine .bind hk (word_follows .varWord) (fun _ _ hp hb => absurd hb hp.2) fun _ => ?_
    have hlist := Rereads.commaSeparated (hd.declarator (e := 0) S s) fun q hp u => hp.1
    refine .bind hk (hlist.imp (fun _ _ hp => hp.1) fun _ _ hp => hp)
      (fun _ _ hp hb => absurd hb hp.follows.2) fun ds => ?_
    rw [← Declarator.renumberAll_eq]
    exact closes_endStatement hk
  · have hfunction : Rereads k 0 1 (Stands S) (Holds S) (StatementForm.renumber k.lines)
        (do return .function (← function (parse levels) true))
        (do return .function (← function (parse levels) true)) :=
      (hd.function S true).bind fun g => .give rfl fun _ _ hp => hp
    exact .nowhere hk (hfunction.imp (fun _ _ hp => hp.1) fun _ _ hp => hp) fun _ _ => hends
  · exact closes_ifStatement hk hd hs S s
  · exact closes_whileStatement hk hd hs S s
  · exact closes_doStatement hk hd S s
  · exact closes_forStatement hk hd hs S s
  · exact closes_returnStatement hk hd S s
  · exact closes_breakStatement hk S s
  · exact closes_continueStatement hk S s
  · exact closes_throwStatement hk hd S s
  · exact .nowhere hk (hd.tryStatement S s) fun _ _ => hends
  · exact .nowhere hk (hd.switchStatement S s) fun _ _ => hends
  · exact closes_withStatement hk hd hs S s
  · exact (closes_otherStatement hk hd hs S s).imp fun _ _ hp => hp.1

end

/-- A statement that ends with the semicolon is read as the same statement in front of others. -/
theorem closes_parse (hk : k.GoesOn f vs) (levels : Nat) (S : List Bool) (s : Surroundings) :
    Closes k f vs (Stands S) (Statement.renumber k.lines) (parse levels .statement s) (parse levels .statement s) := by
  induction levels generalizing S s with
  | zero => exact .fail
  | succ levels ih =>
    have hd : k.Carries (parse levels) (parse levels) := carries_parse (.inl (Nat.le_refl _))
    refine .peek hk fun l => ?_
    exact ((closes_statementForm hk hd ih S s).imp fun _ _ hp => hp.1).give fun form => rfl

end Parser.Seam

end PageScript
