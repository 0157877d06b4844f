import PageScript.Proofs.Rereading.Expressions

/-! # Reading a statement again

A statement is read again as the same statement on other lines, and so is everything that the grammar knows.
-/

set_option autoImplicit false

namespace PageScript

open PageScript.Parser PageScript.Goal

namespace Parser.Seam

variable {k : Seam} {S : List Bool} {s : Surroundings} {e : Nat} {d d' : Deeper}

/-! ## Reserved words and labels -/

theorem labelAhead_rest {ts rest : List Lexeme} {label : Option String} (h : labelAhead ts = .ok (label, rest)) :
    rest = ts := by
  unfold labelAhead at h
  split at h
  · split at h <;> cases h
    rfl
  · cases h
    rfl

theorem eq_of_labelAhead {ts rest : List Lexeme} {name : String} (h : labelAhead ts = .ok (some name, rest)) :
    ∃ line b us, ts = ⟨.identifier name, line, b⟩ :: us ∧ checked us = .ok ((), us) ∧
      (head us).token.isMark .colon = true := by
  unfold labelAhead at h
  split at h
  · rename_i name' line b us
    cases hchecked : checked us with
    | error e =>
      rw [hchecked] at h
      cases h
    | ok r =>
      cases eq_of_checked hchecked
      rw [hchecked] at h
      cases hcolon : (head us).token.isMark .colon with
      | false =>
        rw [hcolon] at h
        cases h
      | true =>
        rw [hcolon] at h
        cases h
        exact ⟨line, b, us, rfl, hchecked, hcolon⟩
  · cases h

/-- A label is an identifier and a colon. -/
theorem otherStatement_eq (d : Deeper) (s : Surroundings) : otherStatement d s = (labelAhead >>= fun
    | some name => do
      let _ ← Parser.identifier
      expectMark .colon
      return .labeled name (← d .statement (s.labeled name))
    | none => do
      let f ← Goal.expression d s
      endStatement
      return .expression f) := by
  funext ts
  change Except.bind (labelAhead ts) _ = Except.bind (labelAhead ts) _
  cases hlabel : labelAhead ts with
  | error e => rfl
  | ok r =>
    obtain ⟨label, rest⟩ := r
    obtain rfl := labelAhead_rest hlabel
    cases label with
    | none => rfl
    | some name =>
      obtain ⟨line, b, us, rfl, hchecked, hcolon⟩ := eq_of_labelAhead hlabel
      change Except.bind (checked us) (fun r => Except.bind (advance r.2) _) =
        Except.bind (Except.bind (checked us) fun r => .ok (name, r.2)) fun r =>
          Except.bind ((if (head r.2).token.isMark .colon then advance else fail _ : Parser Unit) r.2) _
      rw [hchecked]
      dsimp only [Except.bind]
      rw [hcolon, if_pos rfl]

/-- A label in front of the seam is seen in both texts. -/
theorem Matches.labelAhead {ts ts' : List Lexeme} {label : Option String} (h : k.Matches ts ts')
    (hlength : k.rest.length < ts.length) (hrun : labelAhead ts = .ok (label, ts)) :
    labelAhead ts' = .ok (label, ts') := by
  obtain ⟨l, us, us', rfl, rfl, hmatch⟩ := h.ahead hlength
  obtain ⟨t, line, b⟩ := l
  cases t with
  | identifier name =>
    have hcolon : ∀ {t : Token}, t.closes = true → t.isMark .colon = false := by
      intro t ht
      rcases Token.eq_of_closes ht with rfl | rfl <;> rfl
    have hsame : (head us').token.isMark .colon = (head us).token.isMark .colon := by
      rcases hmatch.alike with ⟨ht, -⟩ | ⟨ht, ht'⟩
      · rw [ht]
      · rw [hcolon ht, hcolon ht']
    rw [labelAhead_identifier] at hrun
    rw [Lexeme.renumber, labelAhead_identifier]
    cases hchecked : Parser.checked us with
    | error e =>
      rw [hchecked] at hrun
      cases hrun
    | ok r =>
      rw [hchecked] at hrun
      rw [hmatch.checked hchecked, hsame]
      cases hrun
      rfl
  | _ =>
    cases hrun
    rfl

theorem word_rereads (w : Keyword) :
    Rereads k e 1 (fun q t => Stands S q t ∧ t = .keyword w) (Stands S) id advance advance :=
  .advance fun q t ⟨hp, ht⟩ => by
    rw [ht]
    exact ⟨nofun, fun _ => hp⟩

theorem endStatement_rereads : Rereads k e 0 (Stands S) (Stands S) id endStatement endStatement :=
  .endStatement (fun _ hp _ => hp) fun _ _ hp => hp

/-- There is no label where a list of statements ends. -/
theorem noLabel_of_closes {l : Lexeme} (h : l.token.closes = true) :
    (match l.afterBreak, l.token with
      | false, .identifier name => do
        if name ∉ s.labels then fail (.undefinedLabel name)
        advance
        return some name
      | _, _ => return none : Parser (Option String)) = pure none := by
  obtain ⟨t, line, b⟩ := l
  rcases Token.eq_of_closes h with rfl | rfl <;> cases b <;> rfl

theorem optionalLabel_rereads {P : Place → Token → Prop}
    (hnext : ∀ q name, P q (.identifier name) → ∀ u, P (q.next (.identifier name)) u) :
    Rereads k e 0 P P id (optionalLabel s) (optionalLabel s) := by
  refine .peek (fun l l' hl => ?_) fun l => ?_
  · rcases hl with ⟨ht, hb⟩ | ⟨hl, hl'⟩
    · rw [ht, hb]
    · exact (noLabel_of_closes hl').trans (noLabel_of_closes hl).symm
  · split
    · rename_i name _ ht
      dsimp only
      split
      · exact .failed
      · have hname : Rereads k e 1 (fun q u => P q u ∧ u = l.token) P id advance advance :=
          .advance fun q u hu => by
            obtain ⟨hp, hu⟩ := hu
            rw [hu, ht] at hp ⊢
            exact ⟨by rintro ⟨⟩, hnext q name hp⟩
        exact hname.lax.bind fun _ => .pure fun _ _ hp => hp
    · exact .pure fun _ _ hp => hp.1

/-- What is ahead of a statement that reads something tells in both texts whether it has a label. -/
theorem labelAhead_rereads {α : Type} {n : Nat} {P Q : Place → Token → Prop} {g : α → α}
    {f f' : Option String → Parser α} (hn : 0 < e + n)
    (hf : ∀ label, Rereads k e n P Q g (f label) (f' label)) :
    Rereads k e n P Q g (labelAhead >>= f) (labelAhead >>= f') where
  course {q ts a rest} hq hp hrun := by
    obtain ⟨label, us, hlabel, hnext⟩ := bind_eq_ok_iff.1 hrun
    obtain rfl := labelAhead_rest hlabel
    exact (hf label).course hq hp hnext
  again {q ts ts' a rest} hq hp hmatch hrun hlength := by
    obtain ⟨label, us, hlabel, hnext⟩ := bind_eq_ok_iff.1 hrun
    obtain rfl := labelAhead_rest hlabel
    obtain ⟨hshorter, -⟩ := (hf label).course hq hp hnext
    rw [bind_ok (hmatch.labelAhead (by omega) hlabel)]
    exact (hf label).again hq hp hmatch hnext hlength

namespace Carries

variable (hd : k.Carries d d')

include hd

/-! ## Parts of statements -/

/-- In the same surroundings an expression may be read anywhere. -/
theorem value (S : List Bool) (s : Surroundings) :
    Rereads k e 1 (Stands S) (Ends S) (Expression.renumber k.lines) (Goal.expression d s) (Goal.expression d' s) :=
  (hd.expression (.self k S s)).imp (fun _ _ hp => starts_self hp) fun _ _ hp => hp

theorem parenthesized (S : List Bool) (s : Surroundings) :
    Rereads k e 1 (Stands S) (Holds S) (Expression.renumber k.lines) (parenthesized d s) (parenthesized d' s) := by
  have hopen : Rereads k e 1 (Stands S) (Stands (true :: S)) id (expectMark .leftParen) (expectMark .leftParen) :=
    .expectMark fun q hp u => congrArg (true :: ·) hp
  have hclose : Rereads k e 1 (Ends (true :: S)) (Holds S) id (expectMark .rightParen) (expectMark .rightParen) :=
    .expectMark fun q hp u => ⟨congrArg List.tail hp.1, rfl⟩
  refine hopen.bind fun _ => ((hd.value (true :: S) s).lax.before fun f => ?_).lax
  exact hclose.bind fun _ => .pure fun _ _ hp => hp

theorem declarator (S : List Bool) (s : Surroundings) :
    Rereads k e 1 (Stands S) (Ends S) (Declarator.renumber k.lines) (declarator d s) (declarator d' s) := by
  have hname : Rereads k e 1 (Stands S) (Ends S) id Parser.identifier Parser.identifier :=
    .identifier fun q name hp u => ⟨hp, rfl⟩
  refine hname.bind fun name => ?_
  refine .skipMark (M := Stands S) nofun (fun q hp u => hp.1) ?_ ?_ (Nat.zero_le 1)
  · refine Rereads.bind ((hd.assignment (.self k S s)).lax.imp (fun _ _ hp => starts_self hp) fun _ _ hp => hp)
      fun f => ?_
    exact .give rfl fun _ _ hp => hp
  · exact .give rfl fun _ _ hp => hp.1

theorem expressionUnless {m : Mark} (hm : m ≠ .rightBrace) (S : List Bool) (s : Surroundings) :
    Rereads k e 0 (Stands S) (Stands S) (Option.map (Expression.renumber k.lines)) (expressionUnless d s m)
      (expressionUnless d' s m) := by
  refine .current ?_ fun t => ?_
  · have hbrace : (Token.mark .rightBrace).isMark m = false := beq_false_of_ne hm.symm
    rw [hbrace]
    rfl
  · split
    · exact .pure fun _ _ hp => hp.1
    · refine Rereads.bind ((hd.value S s).lax.imp (fun _ _ hp => hp.1) fun _ _ hp => hp) fun f => ?_
      exact .give rfl fun _ _ hp => hp.1

/-! ## Forms of statements -/

theorem ifStatement (S : List Bool) (s : Surroundings) :
    Rereads k e 1 (fun q t => Stands S q t ∧ t = .keyword .ifWord) (Stands S) (StatementForm.renumber k.lines)
      (ifStatement d s) (ifStatement d' s) := by
  refine (word_rereads .ifWord).bind fun _ => (hd.parenthesized S s).lax.bind fun test => ?_
  refine Rereads.bind ((hd.statement S s).lax.imp (fun _ _ hp => hp.1) fun _ _ hp => hp) fun yes => ?_
  refine .current rfl fun t => ?_
  split
  · rename_i ht
    have helse : Rereads k e 1 (fun q u => Stands S q u ∧ u = t) (Stands S) id advance advance :=
      (word_rereads .elseWord).imp (fun q u ⟨hp, hu⟩ => ⟨hp, hu.trans (Token.eq_of_isKeyword ht)⟩) fun _ _ hp => hp
    exact helse.lax.bind fun _ => (hd.statement S s).lax.bind fun no => .pure fun _ _ hp => hp
  · exact .pure fun _ _ hp => hp.1

theorem whileStatement (S : List Bool) (s : Surroundings) :
    Rereads k e 1 (fun q t => Stands S q t ∧ t = .keyword .whileWord) (Stands S) (StatementForm.renumber k.lines)
      (whileStatement d s) (whileStatement d' s) := by
  refine (word_rereads .whileWord).bind fun _ => (hd.parenthesized S s).lax.bind fun test => ?_
  refine Rereads.bind ((hd.statement S s.loopBody).lax.imp (fun _ _ hp => hp.1) fun _ _ hp => hp) fun body => ?_
  exact .pure fun _ _ hp => hp

theorem doStatement (S : List Bool) (s : Surroundings) :
    Rereads k e 1 (fun q t => Stands S q t ∧ t = .keyword .doWord) (Stands S) (StatementForm.renumber k.lines)
      (doStatement d s) (doStatement d' s) := by
  have hword : Rereads k e 1 (Stands S) (Stands S) id (expectKeyword .whileWord) (expectKeyword .whileWord) :=
    .expectKeyword fun q hp u => hp
  refine (word_rereads .doWord).bind fun _ => (hd.statement S s.loopBody).lax.bind fun body => ?_
  refine hword.lax.bind fun _ => (hd.parenthesized S s).lax.bind fun test => ?_
  refine .skipMark (M := Stands S) nofun (fun q hp u => hp.1) ?_ ?_ (Nat.zero_le 1)
  · exact .pure fun _ _ hp => hp
  · exact .pure fun _ _ hp => hp.1.1

theorem forRest (S : List Bool) (s : Surroundings) (start : ForStart) :
    Rereads k e 1 (Stands (true :: S)) (Stands S) (StatementForm.renumber k.lines) (forRest d s start)
      (forRest d' s (start.renumber k.lines)) := by
  have hsemicolon : Rereads k e 1 (Stands (true :: S)) (Stands (true :: S)) id (expectMark .semicolon)
      (expectMark .semicolon) := .expectMark fun q hp u => hp
  have hclose : Rereads k e 1 (Stands (true :: S)) (Stands S) id (expectMark .rightParen) (expectMark .rightParen) :=
    .expectMark fun q hp u => congrArg List.tail hp
  refine hsemicolon.bind fun _ => (hd.expressionUnless (m := .semicolon) nofun (true :: S) s).bind fun test => ?_
  refine hsemicolon.lax.bind fun _ =>
    (hd.expressionUnless (m := .rightParen) nofun (true :: S) s).bind fun update => ?_
  refine hclose.lax.bind fun _ => (hd.statement S s.loopBody).lax.bind fun body => ?_
  refine .give ?_ fun _ _ hp => hp
  rw [StatementForm.renumber, Expression.renumberOption_eq, Expression.renumberOption_eq]

theorem forInRest (S : List Bool) (s : Surroundings) :
    Rereads k e 1 (fun q t => Stands (true :: S) q t ∧ t = .keyword .inWord) (Stands S)
      (fun x => (x.1.renumber k.lines, x.2.renumber k.lines)) (forInRest d s) (forInRest d' s) := by
  have hclose : Rereads k e 1 (Ends (true :: S)) (Stands S) id (expectMark .rightParen) (expectMark .rightParen) :=
    .expectMark fun q hp u => congrArg List.tail hp.1
  refine (word_rereads .inWord).bind fun _ => (hd.value (true :: S) s).lax.bind fun object => ?_
  exact hclose.lax.bind fun _ => (hd.statement S s.loopBody).lax.bind fun body => .give rfl fun _ _ hp => hp

theorem forStatement (S : List Bool) (s : Surroundings) :
    Rereads k e 1 (fun q t => Stands S q t ∧ t = .keyword .forWord) (Stands S) (StatementForm.renumber k.lines)
      (forStatement d s) (forStatement d' s) := by
  have hopen : Rereads k e 1 (Stands S) (Stands (true :: S)) id (expectMark .leftParen) (expectMark .leftParen) :=
    .expectMark fun q hp u => congrArg (true :: ·) hp
  have hin : ∀ t : Token, t.isKeyword .inWord = true → ∀ q u, Ends (true :: S) q u ∧ u = t →
      Stands (true :: S) q u ∧ u = .keyword .inWord := fun t ht q u ⟨hp, hu⟩ =>
    ⟨hp.1, hu.trans (Token.eq_of_isKeyword ht)⟩
  refine (word_rereads .forWord).bind fun _ => hopen.lax.bind fun _ => ?_
  refine Rereads.lax (n := 1) (.currentAhead (Nat.succ_pos e) fun t => ?_)
  dsimp only
  split
  · exact (hd.forRest S s .nothing).imp (fun _ _ hp => hp.1) fun _ _ hp => hp
  · split
    · rename_i ht
      have hvar : Rereads k e 1 (fun q u => Stands (true :: S) q u ∧ u = t) (Stands (true :: S)) id advance
          advance := (word_rereads .varWord).imp (fun q u ⟨hp, hu⟩ => ⟨hp, hu.trans (Token.eq_of_isKeyword ht)⟩)
        fun _ _ hp => hp
      refine hvar.bind fun _ => ?_
      refine Rereads.lax (n := 1) (.bind (.commaSeparated (hd.declarator (true :: S) s.loopHead)
        fun q hp u => hp.1) fun ds => ?_)
      refine Rereads.lax (n := 1) (.currentAhead (Nat.succ_pos e) fun u => ?_)
      have hrest := (hd.forRest (e := e) S s (.declare ds)).imp (A := fun q v => Ends (true :: S) q v ∧ v = u)
        (fun _ _ hp => hp.1.1) fun _ _ hp => hp
      rw [ForStart.renumber, Declarator.renumberAll_eq] at hrest
      match ds with
      | [] => exact hrest
      | f :: g :: ds => exact hrest
      | [f] =>
        cases hu : u.isKeyword .inWord with
        | false => exact hrest
        | true =>
          refine Rereads.bind ((hd.forInRest S s).imp (hin u hu) fun _ _ hp => hp) fun x => ?_
          exact .give rfl fun _ _ hp => hp
    · refine Rereads.bind ((hd.value (true :: S) s.loopHead).imp (fun _ _ hp => hp.1) fun _ _ hp => hp)
        fun f => ?_
      refine Rereads.lax (n := 1) (.currentAhead (Nat.succ_pos e) fun u => ?_)
      split
      · rename_i hu
        rw [Expression.isTarget_renumber]
        cases f.isTarget with
        | false => exact .failed
        | true =>
          refine Rereads.bind ((hd.forInRest S s).imp (hin u hu) fun _ _ hp => hp) fun x => ?_
          exact .give rfl fun _ _ hp => hp
      · exact (hd.forRest S s (.expression f)).imp (fun _ _ hp => hp.1.1) fun _ _ hp => hp

theorem returnStatement (S : List Bool) (s : Surroundings) :
    Rereads k e 1 (fun q t => Stands S q t ∧ t = .keyword .returnWord) (Stands S) (StatementForm.renumber k.lines)
      (returnStatement d s) (returnStatement d' s) := by
  have hends : ∀ {t : Token}, t.closes = true →
      (t.isMark .semicolon || t.isMark .rightBrace || t.isFinish) = true := by
    intro t ht
    rcases Token.eq_of_closes ht with rfl | rfl <;> rfl
  unfold Goal.returnStatement
  cases s.inFunction with
  | false => exact .failed
  | true =>
    refine (word_rereads .returnWord).bind fun _ => .peek (fun l l' hl => ?_) fun l => ?_
    · rcases hl with ⟨ht, hb⟩ | ⟨hl, hl'⟩
      · rw [ht, hb]
      · rw [hends hl, hends hl']
        rfl
    · have hend : ∀ value : Option Expression, Rereads k e 0 (Stands S) (Stands S) (StatementForm.renumber k.lines)
          (do
            endStatement
            return StatementForm.returnValue value)
          (do
            endStatement
            return StatementForm.returnValue (value.map (Expression.renumber k.lines))) := fun value =>
        endStatement_rereads.bind fun _ =>
          .give (by rw [StatementForm.renumber, Expression.renumberOption_eq]) fun _ _ hp => hp
      split
      · exact (hend none).imp (fun _ _ hp => hp.1) fun _ _ hp => hp
      · have hvalue := ((hd.value (e := e) S s).lax.map (h := Option.map (Expression.renumber k.lines)) some some
        fun _ => rfl)
        exact Rereads.bind (hvalue.imp (fun _ _ hp => hp.1) fun _ _ hp => hp.1) hend

omit hd in
theorem breakStatement (S : List Bool) (s : Surroundings) :
    Rereads k e 1 (fun q t => Stands S q t ∧ t = .keyword .breakWord) (Stands S) (StatementForm.renumber k.lines)
      (breakStatement s) (breakStatement s) := by
  refine (word_rereads .breakWord).bind fun _ => (optionalLabel_rereads fun _ _ hp _ => hp).bind fun label => ?_
  rw [id_eq]
  split
  · exact .failed
  · exact endStatement_rereads.bind fun _ => .give rfl fun _ _ hp => hp

omit hd in
theorem continueStatement (S : List Bool) (s : Surroundings) :
    Rereads k e 1 (fun q t => Stands S q t ∧ t = .keyword .continueWord) (Stands S) (StatementForm.renumber k.lines)
      (continueStatement s) (continueStatement s) := by
  refine (word_rereads .continueWord).bind fun _ => ?_
  cases s.inLoop with
  | false => exact .failed
  | true =>
    exact (optionalLabel_rereads fun _ _ hp _ => hp).bind fun label =>
      endStatement_rereads.bind fun _ => .give rfl fun _ _ hp => hp

theorem throwStatement (S : List Bool) (s : Surroundings) :
    Rereads k e 1 (fun q t => Stands S q t ∧ t = .keyword .throwWord) (Stands S) (StatementForm.renumber k.lines)
      (throwStatement d s) (throwStatement d' s) := by
  refine (word_rereads .throwWord).bind fun _ => Rereads.lax (n := 1) (.peekAhead (Nat.succ_pos e) fun l => ?_)
  cases hl : l.afterBreak with
  | true =>
    rw [if_pos rfl]
    exact .failed
  | false =>
    rw [if_neg Bool.false_ne_true, Lexeme.renumber, hl, if_neg Bool.false_ne_true]
    refine Rereads.bind ((hd.value S s).imp (fun _ _ hp => hp.1) fun _ _ hp => hp) fun f => ?_
    refine Rereads.imp (P := Stands S) ?_ (fun _ _ hp => hp.1) fun _ _ hp => hp
    exact endStatement_rereads.bind fun _ => .give rfl fun _ _ hp => hp

theorem handler (S : List Bool) :
    Rereads k e 0 (Holds S) (Holds S) (Option.map fun x => (x.1, x.2.map (Statement.renumber k.lines)))
      (handler d s) (handler d' s) := by
  refine .current rfl fun t => ?_
  cases ht : t.isKeyword .catchWord with
  | false => exact .pure fun _ _ hp => hp.1
  | true =>
    have hword : Rereads k e 1 (fun q u => Holds S q u ∧ u = t) (Stands S) id advance advance :=
      (word_rereads .catchWord).imp (fun q u ⟨hp, hu⟩ => ⟨hp.1, hu.trans (Token.eq_of_isKeyword ht)⟩) fun _ _ hp => hp
    have hopen : Rereads k e 1 (Stands S) (Stands (true :: S)) id (expectMark .leftParen) (expectMark .leftParen) :=
      .expectMark fun q hp u => congrArg (true :: ·) hp
    have hname : Rereads k e 1 (Stands (true :: S)) (Stands (true :: S)) id Parser.identifier Parser.identifier :=
      .identifier fun q name hp u => hp
    have hclose : Rereads k e 1 (Stands (true :: S)) (Stands S) id (expectMark .rightParen) (expectMark .rightParen) :=
      .expectMark fun q hp u => congrArg List.tail hp
    refine hword.lax.bind fun _ => hopen.lax.bind fun _ => hname.lax.bind fun name => hclose.lax.bind fun _ => ?_
    exact (hd.block S s).lax.bind fun body => .give rfl fun _ _ hp => hp

theorem finalBlock (S : List Bool) :
    Rereads k e 0 (Holds S) (Holds S) (Option.map (List.map (Statement.renumber k.lines))) (finalBlock d s)
      (finalBlock d' s) := by
  refine .current rfl fun t => ?_
  cases ht : t.isKeyword .finallyWord with
  | false => exact .pure fun _ _ hp => hp.1
  | true =>
    have hword : Rereads k e 1 (fun q u => Holds S q u ∧ u = t) (Stands S) id advance advance :=
      (word_rereads .finallyWord).imp (fun q u ⟨hp, hu⟩ => ⟨hp.1, hu.trans (Token.eq_of_isKeyword ht)⟩)
        fun _ _ hp => hp
    exact hword.lax.bind fun _ => (hd.block S s).lax.bind fun body => .give rfl fun _ _ hp => hp

theorem tryStatement (S : List Bool) (s : Surroundings) :
    Rereads k e 1 (fun q t => Stands S q t ∧ t = .keyword .tryWord) (Holds S) (StatementForm.renumber k.lines)
      (tryStatement d s) (tryStatement d' s) := by
  have hall := Statement.renumberAll_eq k.lines
  refine (word_rereads .tryWord).bind fun _ => (hd.block S s).lax.bind fun body => ?_
  refine (hd.handler S).bind fun caught => ?_
  refine (hd.finalBlock S).bind fun final => ?_
  match caught, final with
  | some (name, handler), some final => exact .give (by simp only [StatementForm.renumber, hall]) fun _ _ hp => hp
  | some (name, handler), none => exact .give (by simp only [StatementForm.renumber, hall]) fun _ _ hp => hp
  | none, some final => exact .give (by simp only [StatementForm.renumber, hall]) fun _ _ hp => hp
  | none, none => exact .failed

theorem switchClause (S : List Bool) (s : Surroundings) (read : List SwitchClause) :
    Rereads k (e + 1) 1 (Stands S) (Stands S) (SwitchClause.renumber k.lines) (switchClause d s read)
      (switchClause d' s (read.map (SwitchClause.renumber k.lines))) := by
  have hcolon : Rereads k (e + 1) 1 (Stands S) (Stands S) id (expectMark .colon) (expectMark .colon) :=
    .expectMark fun q hp u => hp
  have hrest : ∀ test : Option Expression, Rereads k (e + 1) 0 (Stands S) (Stands S) (SwitchClause.renumber k.lines)
      (do
        expectMark .colon
        let body ← many endsClause fun _ => d .statement s
        return SwitchClause.mk test body)
      (do
        expectMark .colon
        let body ← many endsClause fun _ => d' .statement s
        return SwitchClause.mk (test.map (Expression.renumber k.lines)) body) := by
    intro test
    have hbody : Rereads k (e + 1) 0 (Stands S) (Stands S) (List.map (Statement.renumber k.lines))
        (many endsClause fun _ => d .statement s) (many endsClause fun _ => d' .statement s) :=
      .many (fun _ => rfl) fun _ => (hd.statement S s).imp (fun _ _ hp => hp.1) fun _ _ hp => hp
    refine hcolon.lax.bind fun _ => hbody.bind fun body => .give ?_ fun _ _ hp => hp
    rw [SwitchClause.renumber, Expression.renumberOption_eq, Statement.renumberAll_eq]
  have hany : (read.map (SwitchClause.renumber k.lines)).any isDefault = read.any isDefault := by
    rw [List.any_map]
    exact congrArg read.any (funext (isDefault_renumber k.lines))
  have hword : ∀ w : Keyword, Rereads k (e + 1) 1 (fun q u => Stands S q u ∧ u = .keyword w) (Stands S) id advance
      advance := fun w => word_rereads w
  refine .currentAhead (Nat.succ_pos _) fun t => ?_
  dsimp only
  split
  · have hvalue := (hd.value (e := e + 1) S s).lax.map (h := Option.map (Expression.renumber k.lines)) some some
        fun _ => rfl
    refine Rereads.bind ((hword .caseWord).imp (fun _ _ hp => hp) fun _ _ hp => hp) fun _ => ?_
    exact (hvalue.imp (fun _ _ hp => hp) fun _ _ hp => hp.1).bind hrest
  · rw [hany]
    cases read.any isDefault with
    | true => exact .failed
    | false => exact (hword .defaultWord).bind fun _ => hrest none
  · exact .failed

theorem switchStatement (S : List Bool) (s : Surroundings) :
    Rereads k e 1 (fun q t => Stands S q t ∧ t = .keyword .switchWord) (Holds S) (StatementForm.renumber k.lines)
      (switchStatement d s) (switchStatement d' s) := by
  have hopen : Rereads k e 1 (Holds S) (fun q t => ∃ b, Stands (b :: S) q t) id (expectMark .leftBrace)
      (expectMark .leftBrace) := .expectMark fun q hp u => ⟨_, congrArg (_ :: ·) hp.1⟩
  refine (word_rereads .switchWord).bind fun _ => (hd.parenthesized S s).lax.bind fun value => ?_
  refine hopen.lax.bind fun _ => Rereads.cases fun b => ?_
  have hclauses : Rereads k (e + 1) 0 (Stands (b :: S)) (Stands (b :: S)) (List.map (SwitchClause.renumber k.lines))
      (many (·.isMark .rightBrace) (Goal.switchClause d s.switchBody))
      (many (·.isMark .rightBrace) (Goal.switchClause d' s.switchBody)) :=
    .many nofun fun read => (hd.switchClause (b :: S) s.switchBody read).imp (fun _ _ hp => hp.1) fun _ _ hp => hp
  have hclose : Rereads k e 1 (Stands (b :: S)) (Holds S) id (expectMark .rightBrace) (expectMark .rightBrace) :=
    .expectMark fun q hp u => ⟨congrArg List.tail hp, rfl⟩
  refine (hclauses.before fun clauses => ?_).lax
  refine hclose.bind fun _ => .give ?_ fun _ _ hp => hp
  rw [StatementForm.renumber, SwitchClause.renumberAll_eq]

theorem withStatement (S : List Bool) (s : Surroundings) :
    Rereads k e 1 (fun q t => Stands S q t ∧ t = .keyword .withWord) (Stands S) (StatementForm.renumber k.lines)
      (withStatement d s) (withStatement d' s) := by
  refine (word_rereads .withWord).bind fun _ => (hd.parenthesized S s).lax.bind fun object => ?_
  refine Rereads.bind ((hd.statement S s).lax.imp (fun _ _ hp => hp.1) fun _ _ hp => hp) fun body => ?_
  exact .pure fun _ _ hp => hp

theorem otherStatement (S : List Bool) (s : Surroundings) :
    Rereads k e 1 (Stands S) (Stands S) (StatementForm.renumber k.lines) (otherStatement d s)
      (otherStatement d' s) := by
  rw [otherStatement_eq, otherStatement_eq]
  refine labelAhead_rereads (Nat.succ_pos e) fun label => ?_
  cases label with
  | some name =>
    have hname : Rereads k e 1 (Stands S) (Stands S) id Parser.identifier Parser.identifier :=
      .identifier fun q name hp u => hp
    have hcolon : Rereads k e 1 (Stands S) (Stands S) id (expectMark .colon) (expectMark .colon) :=
      .expectMark fun q hp u => hp
    refine hname.bind fun _ => hcolon.lax.bind fun _ => (hd.statement S (s.labeled name)).lax.bind fun body => ?_
    exact .pure fun _ _ hp => hp
  | none =>
    refine Rereads.bind ((hd.value S s).imp (fun _ _ hp => hp) fun _ _ hp => hp.1) fun f => ?_
    exact endStatement_rereads.bind fun _ => .give rfl fun _ _ hp => hp

theorem statementForm (S : List Bool) (s : Surroundings) :
    Rereads k e 1 (Stands S) (Stands S) (StatementForm.renumber k.lines) (statementForm d s)
      (statementForm d' s) := by
  refine .currentAhead (Nat.succ_pos e) fun t => ?_
  split
  · refine Rereads.bind ((hd.block S s).imp (fun _ _ hp => hp.1) fun _ _ hp => hp) fun body => ?_
    exact .give (by rw [StatementForm.renumber, Statement.renumberAll_eq]) fun _ _ hp => hp.1
  · have hmark : Rereads k e 1 (fun q u => Stands S q u ∧ u = .mark .semicolon) (Stands S) id advance advance :=
      .advance fun q u ⟨hp, hu⟩ => by
        rw [hu]
        exact ⟨nofun, fun _ => hp⟩
    exact hmark.bind fun _ => .pure fun _ _ hp => hp
  · refine (word_rereads .varWord).bind fun _ => ?_
    refine Rereads.lax (n := 1) (.bind (.commaSeparated (hd.declarator S s) fun q hp u => hp.1) fun ds => ?_)
    refine Rereads.imp (P := Stands S) ?_ (fun _ _ hp => hp.1) fun _ _ hp => hp
    exact endStatement_rereads.bind fun _ =>
      .give (by rw [StatementForm.renumber, Declarator.renumberAll_eq]) fun _ _ hp => hp
  · refine Rereads.bind ((hd.function S true).imp (fun _ _ hp => hp.1) fun _ _ hp => hp) fun g => ?_
    exact .pure fun _ _ hp => hp.1
  · exact hd.ifStatement S s
  · exact hd.whileStatement S s
  · exact hd.doStatement S s
  · exact hd.forStatement S s
  · exact hd.returnStatement S s
  · exact breakStatement S s
  · exact continueStatement S s
  · exact hd.throwStatement S s
  · exact (hd.tryStatement S s).imp (fun _ _ hp => hp) fun _ _ hp => hp.1
  · exact (hd.switchStatement S s).imp (fun _ _ hp => hp) fun _ _ hp => hp.1
  · exact hd.withStatement S s
  · exact (hd.otherStatement S s).imp (fun _ _ hp => hp.1) fun _ _ hp => hp

theorem statementTree (S : List Bool) (s : Surroundings) :
    Rereads k e 1 (Stands S) (Stands S) (Statement.renumber k.lines) (statementTree d s) (statementTree d' s) := by
  refine .peekAhead (Nat.succ_pos e) fun l => ?_
  refine Rereads.bind ((hd.statementForm S s).imp (fun _ _ hp => hp.1) fun _ _ hp => hp) fun form => ?_
  exact .pure fun _ _ hp => hp

/-! ## All goals -/

/-- If the goals one level deeper are read again, then so are the goals of this level. -/
theorem rule : k.Carries (rule d) (rule d') where
  statement := hd.statementTree
  assignment := hd.assignmentExpression
  unary := hd.prefixed
  construct := hd.newExpression
  operand tier tighter left op hs := by
    refine (hd.tiers hs tighter).bind fun right => ?_
    rw [← Infix.apply_renumber]
    exact hd.chain hs tier tighter _
  memberName object calls hs := dotName_rereads.bind fun name => hd.suffixes hs calls (.member object name)
  memberKey {e S s s'} object calls hs := by
    have hclose : Rereads k e 1 (Ends (true :: S)) (Holds S) id (expectMark .rightBracket)
        (expectMark .rightBracket) := .expectMark fun q hp u => ⟨congrArg List.tail hp.1, rfl⟩
    refine Rereads.bind (M := Ends (true :: S)) (g := Expression.renumber k.lines) ?_ fun key => ?_
    · rw [hs.bracketed]
      exact hd.value (true :: S) s.bracketed
    · exact hclose.lax.bind fun _ => hd.suffixes hs calls (.index object key)
  arguments callee hs := (hd.argumentList hs).bind fun args => by
    simpa only [Expression.renumber, Expression.renumberAll_eq] using hd.suffixes hs true (.call callee args)

end Carries

/-- A goal is read again with at least as many levels left, or with fewer, if the second reading may meet the
nesting limit. -/
theorem carries_parse {n m : Nat} (h : n ≤ m ∨ k.short) : k.Carries (parse n) (parse m) := by
  induction n generalizing m with
  | zero =>
    exact
      { statement := fun _ _ => .failed
        assignment := fun _ => .failed
        unary := fun _ => .failed
        construct := fun _ => .failed
        operand := fun _ _ _ _ _ => .failed
        memberName := fun _ _ _ => .failed
        memberKey := fun _ _ _ => .failed
        arguments := fun _ _ => .failed }
  | succ n ih =>
    cases m with
    | zero =>
      have hshort : k.short := h.resolve_left (Nat.not_succ_le_zero n)
      have hn : k.Carries (parse (n + 1)) (rule (parse 0)) := (ih (.inr hshort)).rule
      exact
        { statement := fun S s => (hn.statement S s).tooDeep hshort
          assignment := fun hs => (hn.assignment hs).tooDeep hshort
          unary := fun hs => (hn.unary hs).tooDeep hshort
          construct := fun hs => (hn.construct hs).tooDeep hshort
          operand := fun tier tighter left op hs => (hn.operand tier tighter left op hs).tooDeep hshort
          memberName := fun object calls hs => (hn.memberName object calls hs).tooDeep hshort
          memberKey := fun object calls hs => (hn.memberKey object calls hs).tooDeep hshort
          arguments := fun callee hs => (hn.arguments callee hs).tooDeep hshort }
    | succ m => exact (ih (h.imp_left Nat.le_of_succ_le_succ)).rule

end Parser.Seam

end PageScript
