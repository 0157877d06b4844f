import PageScript.Proofs.Simulation.Watch

/-! # Statements on two sides

Each form of statement ends with no other jumps than its text lists.
-/

set_option autoImplicit false

namespace PageScript.Simulation

open Script

variable {S : Simulation} {α β : Type} {p q : Pairing} {V : Matching α} {W : Matching β}
  {js js' : List Jump} {a b : ObjectId} {v w : Value} {labels : List String}

/-! ## Completions that are passed on -/

theorem pass_runs {start d : Phase} {i i' : Abrupt} (hi : Abrupt.Matches p i i')
    (hj : S.Allows js' i) (hjs : ∀ j, i.jump? = some j → j ∈ js' → j ∈ js) :
    S.Runs (Course.abrupt ⟨start, .halting, js'⟩ i) ⟨d, .halting, js⟩ p V (Script.abrupt i)
      (Script.abrupt i') := by
  have hallow : S.Allows js i := fun j h => (hj j h).imp_right (hjs j h)
  cases hi with
  | stopped => exact .stopped
  | _ => exact .abrupt (by constructor <;> assumption) hallow fun h => nomatch h

theorem complete_runs {start : Phase} {i i' : Abrupt} (hi : Abrupt.Matches p i i')
    (hj : S.Allows js' i) (hjs : ∀ j, i.jump? = some j → j ∈ js' → j ∈ js) :
    S.Runs (Course.abrupt ⟨start, .halting, js'⟩ i) (.leaving js) p Value.Matches
      (Script.complete (.abrupt i)) (Script.complete (.abrupt i')) := pass_runs hi hj hjs

/-! ## Loops -/

theorem testHolds_follows {test : Option Expression}
    (h : S.Sound (Expression.treesOfOption test)) :
    S.Follows js p .same (testHolds test) (testHolds test) := by
  unfold testHolds
  cases test with
  | none => exact .pure rfl
  | some e => exact .bind (.evaluate h) fun _ _ _ _ hu => .pure hu.isTruthy_eq

theorem runForUpdate_follows {update : Option Expression}
    (h : S.Sound (Expression.treesOfOption update)) :
    S.Follows js p .same (runForUpdate update) (runForUpdate update) := by
  unfold runForUpdate
  cases update with
  | none => exact .pure rfl
  | some e => exact .bind (.evaluate h) fun _ _ _ _ _ => .pure rfl

theorem runBody_follows {body : Statement} {last last' : Value} {more : Script Bool}
    (h : S.Sound body.trees) (hlast : Value.Matches p last last')
    (hjs : (body.jumps []).filter (fun j => !j.endsRound labels) ⊆ js)
    (hmore : ∀ q, S.Follows js q .same more more) :
    S.Follows js p (.either Value.Matches Value.Matches) (runBody labels body last more)
      (runBody labels body last' more) := by
  have hnext : ∀ {q : Pairing} {u u' : Value}, Value.Matches q u u' →
      S.Follows js q (.either Value.Matches Value.Matches)
        (do return if ← more then .inl u else .inr u)
        (do return if ← more then .inl u' else .inr u') := fun {q u u'} hu => by
    refine .bind (hmore q) ?_
    rintro r hr c _ rfl
    cases c with
    | true => exact .pure (.inl (hu.mono hr))
    | false => exact .pure (.inr (hu.mono hr))
  have hmem : ∀ j, j ∈ body.jumps [] → j.endsRound labels = false → j ∈ js := fun j hj hends =>
    hjs (List.mem_filter.2 ⟨hj, by rw [hends]; rfl⟩)
  unfold runBody
  refine .attempt_bind (.runInner h) (fun q _ u u' hu => hnext hu) fun q hq i i' hi hj => ?_
  cases hi with
  | broken l =>
    cases ht : targets labels l with
    | true =>
      dsimp only [Completion.flow]
      rw [ht]
      exact .pure (.inr (hlast.mono hq))
    | false =>
      dsimp only [Completion.flow]
      rw [ht]
      exact pass_runs (.broken l) hj fun j hl hj => hmem j hj (by cases hl; exact ht)
  | continued l =>
    cases ht : targets labels l with
    | true =>
      dsimp only [Completion.flow]
      rw [ht]
      exact hnext (hlast.mono hq)
    | false =>
      dsimp only [Completion.flow]
      rw [ht]
      exact pass_runs (.continued l) hj fun j hl hj => hmem j hj (by cases hl; exact ht)
  | returned hu => exact pass_runs (.returned hu) hj fun j hl hj => hmem j hj (by cases hl; rfl)
  | thrown hu => exact pass_runs (.thrown hu) hj fun _ h _ => nomatch h
  | stopped => exact .stopped

theorem declareVariables_follows {declarators : List Declarator}
    (h : S.Sound (Declarator.treesOf declarators)) :
    S.Follows js p .same (declareVariables declarators) (declareVariables declarators) := by
  unfold declareVariables
  refine .read_bind (V := .id) (fun hm => (S.matched hm).frame.locals) fun a b hlocals => ?_
  refine .fold (Matching.list_member declarators) Matching.member_mono rfl ?_
  rintro q hq _ _ ⟨name, initial⟩ _ - ⟨rfl, hd⟩
  have ht : S.Sound (Expression.treesOfOption initial) :=
    h.mono (Declarator.trees_subset_treesOf hd)
  refine .bind (declare_follows (hq hlocals) name) fun r hr _ _ _ => ?_
  cases initial with
  | none => exact .pure rfl
  | some e =>
    refine .bind (.evaluate ht) fun s hs u u' hu => ?_
    exact .bind (writeVariable_follows ⟨hs (hr (hq hlocals)), rfl⟩ hu) fun _ _ _ _ _ => .pure rfl

theorem runForStart_follows {start : ForStart} (h : S.Sound start.trees) :
    S.Follows js p .same (runForStart start) (runForStart start) := by
  unfold runForStart
  cases start with
  | nothing => exact .pure rfl
  | declare declarators => exact declareVariables_follows h
  | expression e => exact .bind (.evaluate h) fun _ _ _ _ _ => .pure rfl

theorem runRounds_follows {test : Option Expression} {body : Statement} {more : Script Bool}
    (ht : S.Sound (Expression.treesOfOption test)) (hb : S.Sound body.trees)
    (hjs : (body.jumps []).filter (fun j => !j.endsRound labels) ⊆ js)
    (hmore : ∀ q, S.Follows js q .same more more) :
    S.Follows js p Value.Matches
      (Script.iterate (fun last => do
        if ← testHolds test then runBody labels body last more
        else return .inr last) Value.undefined)
      (Script.iterate (fun last => do
        if ← testHolds test then runBody labels body last more
        else return .inr last) Value.undefined) := by
  refine .iterate (U := Value.Matches) .undefined fun q _ u u' hu => ?_
  refine .bind (testHolds_follows ht) ?_
  rintro r hr c _ rfl
  split
  · exact runBody_follows hb (hu.mono hr) hjs hmore
  · exact .pure (.inr (hu.mono hr))

theorem runForIn_follows {object : Expression} {store : Value → Script Unit} {body : Statement}
    (h : S.Sound object.trees) (hb : S.Sound body.trees)
    (hstore : ∀ q name, S.Follows js q .same (store (.string name)) (store (.string name)))
    (hjs : (body.jumps []).filter (fun j => !j.endsRound labels) ⊆ js) :
    S.Follows js p Value.Matches (runForIn object store body labels)
      (runForIn object store body labels) := by
  unfold runForIn
  refine .bind (.evaluate h) fun q _ u u' hu => ?_
  rw [hu.isNothing_eq]
  split
  · exact .pure .undefined
  · refine .bind (toObject_follows hu) fun r _ c d hid => ?_
    refine .read_bind (V := .same) (fun hm => (S.matched hm).heap.enumerable_eq hid) ?_
    rintro names _ rfl
    refine .foldUntil (Matching.list_member names) Matching.member_mono .undefined ?_
    rintro s hs last last' name _ hlast ⟨rfl, -⟩
    refine .read_bind (V := .same) (fun hm => (S.matched hm).heap.hasProperty_eq (hs hid) name) ?_
    rintro present _ rfl
    split
    · exact .bind (hstore s name) fun t ht _ _ _ =>
        runBody_follows hb (hlast.mono ht) hjs fun _ => .pure rfl
    · exact .pure (.inl hlast)

theorem runForVariable_follows {d : Declarator} {object : Expression} {body : Statement}
    (hd : S.Sound d.trees) (h : S.Sound object.trees) (hb : S.Sound body.trees)
    (hjs : (body.jumps []).filter (fun j => !j.endsRound labels) ⊆ js) :
    S.Follows js p Value.Matches (runForVariable d object body labels)
      (runForVariable d object body labels) := by
  have hds : S.Sound (Declarator.treesOf [d]) := by
    rw [Declarator.treesOf, Declarator.treesOf, List.append_nil]
    exact hd
  refine .bind (declareVariables_follows hds) fun q _ _ _ _ => ?_
  refine runForIn_follows h hb (fun r name => ?_) hjs
  refine .read_bind (V := .id) (fun hm => (S.matched hm).frame.locals) fun a b hlocals => ?_
  exact .bind (writeVariable_follows ⟨hlocals, rfl⟩ (.string name)) fun _ _ _ _ _ => .pure rfl

theorem runForTarget_follows {target object : Expression} {body : Statement}
    (ht : S.Sound target.trees) (h : S.Sound object.trees) (hb : S.Sound body.trees)
    (hjs : (body.jumps []).filter (fun j => !j.endsRound labels) ⊆ js) :
    S.Follows js p Value.Matches (runForTarget target object body labels)
      (runForTarget target object body labels) := by
  refine runForIn_follows h hb (fun r name => ?_) hjs
  refine .bind (findTarget_follows ht) fun s _ x y hxy => ?_
  exact .bind (writeTarget_follows hxy (.string name)) fun _ _ _ _ _ => .pure rfl

/-! ## Exceptions -/

theorem runGuarded_follows {body : List Statement} (h : S.Sound (Statement.treesOf body)) :
    S.Follows (Statement.jumpsOf body) p Value.Matches (runGuarded body) (runGuarded body) :=
  .bracket .guard (runStatements_runs body h)

theorem runHandler_follows (parameter : String) {handler : List Statement}
    (h : S.Sound (Statement.treesOf handler)) (hv : Value.Matches p v w) :
    S.Follows (Statement.jumpsOf handler) p Value.Matches (runHandler parameter handler v)
      (runHandler parameter handler w) := by
  unfold runHandler
  refine .read_bind (V := .id) (fun hm => (S.matched hm).frame.locals) fun a b hlocals => ?_
  refine .bind (declare_follows hlocals parameter) fun q hq _ _ _ => ?_
  refine .bind (writeVariable_follows ⟨hq hlocals, rfl⟩ (hv.mono hq)) fun r hr _ _ _ => ?_
  exact .bind (.modifyObject (hr (hq hlocals)) (.makePermanent parameter) fun _ ho =>
    ho.update parameter (fun _ => rfl) fun _ hx => hx) fun _ _ _ _ _ => runStatements_runs handler h

theorem runCatching_follows (parameter : String) {body handler : List Statement}
    (hb : S.Sound (Statement.treesOf body)) (hh : S.Sound (Statement.treesOf handler)) :
    S.Follows (Statement.jumpsOf body ++ Statement.jumpsOf handler) p Value.Matches
      (runCatching body parameter handler) (runCatching body parameter handler) := by
  unfold runCatching
  refine .attempt_bind (runGuarded_follows hb) (fun q _ u u' hu => .pure hu) fun q _ i i' hi hj => ?_
  have hleft : ∀ j, i.jump? = some j → j ∈ Statement.jumpsOf body →
      j ∈ Statement.jumpsOf body ++ Statement.jumpsOf handler := fun j _ hj =>
    List.mem_append_left _ hj
  cases hi with
  | thrown hu => exact (runHandler_follows parameter hh hu).widen (List.subset_append_right ..)
  | stopped => exact .stopped
  | returned hu => exact complete_runs (.returned hu) hj hleft
  | broken l => exact complete_runs (.broken l) hj hleft
  | continued l => exact complete_runs (.continued l) hj hleft

theorem runFinally_follows {x : Script Value} {final : List Statement}
    (hx : S.Follows js p Value.Matches x x) (hf : S.Sound (Statement.treesOf final)) :
    S.Follows (js ++ Statement.jumpsOf final) p Value.Matches (runFinally x final)
      (runFinally x final) := by
  have hfinal : ∀ {q : Pairing} {c c' : Completion},
      (∀ r, q ≤ r → S.Follows (js ++ Statement.jumpsOf final) r Value.Matches (Script.complete c)
        (Script.complete c')) →
      S.Follows (js ++ Statement.jumpsOf final) q Value.Matches
        (do
          let _ ← runStatements final
          Script.complete c)
        (do
          let _ ← runStatements final
          Script.complete c') := fun hc =>
    .bind ((runStatements_runs final hf).widen (List.subset_append_right ..)) fun r hr _ _ _ =>
      hc r hr
  have hpass : ∀ {r : Pairing} {i i' : Abrupt}, Abrupt.Matches r i i' → i ≠ .stopped →
      S.Allows js i → S.Follows (js ++ Statement.jumpsOf final) r Value.Matches
        (Script.complete (.abrupt i)) (Script.complete (.abrupt i')) := fun hi hne hj =>
    .abrupt hi (hj.mono (List.subset_append_left ..)) hne
  unfold runFinally
  refine .attempt_bind hx (fun q _ u u' hu => hfinal fun r hr => .pure (hu.mono hr))
    fun q _ i i' hi hj => ?_
  cases hi with
  | stopped => exact .stopped
  | returned hu => exact hfinal fun r hr => hpass (.returned (hu.mono hr)) nofun hj
  | thrown hu => exact hfinal fun r hr => hpass (.thrown (hu.mono hr)) nofun hj
  | broken l => exact hfinal fun r _ => hpass (.broken l) nofun hj
  | continued l => exact hfinal fun r _ => hpass (.continued l) nofun hj

/-! ## Switches -/

/-- Options that are equal, and hold an end of a list if anything. -/
def suffixOf (clauses : List SwitchClause) : Matching (Option (List SwitchClause)) := fun _ x y =>
  x = y ∧ ∀ rest ∈ x, rest <:+ clauses

theorem matchingClauses_follows (hv : Value.Matches p v w) {clauses : List SwitchClause}
    (h : S.Sound (SwitchClause.treesOf clauses)) :
    S.Follows js p (suffixOf clauses) (matchingClauses v clauses) (matchingClauses w clauses) := by
  have hcons : ∀ {q : Pairing} (c : SwitchClause) (rest : List SwitchClause)
      (x y : Option (List SwitchClause)), suffixOf rest q x y → suffixOf (c :: rest) q x y :=
    fun c _ _ _ hxy => ⟨hxy.1, fun l hl => (hxy.2 l hl).trans (List.suffix_cons c _)⟩
  induction clauses generalizing p with
  | nil => exact .pure ⟨rfl, nofun⟩
  | cons c rest ih =>
    obtain ⟨test, body⟩ := c
    rw [SwitchClause.treesOf] at h
    cases test with
    | none => exact (ih hv h.right).map_value fun q _ => hcons _ rest
    | some test =>
      unfold matchingClauses
      refine .bind (.evaluate h.left.left) fun q hq u u' hu => ?_
      rw [(hv.mono hq).strictEquals_eq hu]
      split
      · refine .pure ⟨rfl, fun l hl => ?_⟩
        cases hl
        exact List.suffix_refl _
      · exact (ih (hv.mono hq) h.right).map_value fun r _ => hcons _ rest

theorem defaultClauses_suffix (clauses : List SwitchClause) :
    defaultClauses clauses <:+ clauses := by
  induction clauses with
  | nil => exact List.suffix_refl _
  | cons c rest ih =>
    obtain ⟨test, body⟩ := c
    cases test with
    | none => exact List.suffix_refl _
    | some test => exact ih.trans (List.suffix_cons _ _)

theorem runUntilBreak_follows {body : List Statement} (h : S.Sound (Statement.treesOf body))
    (hjs : (Statement.jumpsOf body).filter (fun j => !j.endsSwitch labels) ⊆ js) :
    S.Follows js p Value.Matches (runUntilBreak labels body) (runUntilBreak labels body) := by
  refine .foldUntil (Matching.list_member body) Matching.member_mono .undefined ?_
  rintro q hq last last' s _ hlast ⟨rfl, hs⟩
  have hmem : ∀ j, j ∈ s.jumps [] → j.endsSwitch labels = false → j ∈ js := fun j hj hends =>
    hjs (List.mem_filter.2 ⟨Statement.jumps_subset_jumpsOf hs hj, by rw [hends]; rfl⟩)
  refine .attempt_bind (.runInner (h.mono (Statement.trees_subset_treesOf hs)))
    (fun r hr u u' hu => ?_) fun r hr i i' hi hj => ?_
  · dsimp only
    split
    · exact .pure (.inl hu)
    · exact .pure (.inl (hlast.mono hr))
  · cases hi with
    | broken l =>
      cases ht : targets labels l with
      | true =>
        dsimp only
        rw [ht]
        exact .pure (.inr (hlast.mono hr))
      | false =>
        dsimp only
        rw [ht]
        exact pass_runs (.broken l) hj fun j hl hj => hmem j hj (by cases hl; exact ht)
    | continued l =>
      exact pass_runs (.continued l) hj fun j hl hj => hmem j hj (by cases hl; rfl)
    | returned hu =>
      exact pass_runs (.returned hu) hj fun j hl hj => hmem j hj (by cases hl; rfl)
    | thrown hu => exact pass_runs (.thrown hu) hj fun _ h _ => nomatch h
    | stopped => exact .stopped

theorem runSwitch_follows {value : Expression} {clauses : List SwitchClause}
    (h : S.Sound value.trees) (hc : S.Sound (SwitchClause.treesOf clauses)) :
    S.Follows ((SwitchClause.jumpsOf clauses).filter fun j => !j.endsSwitch labels) p Value.Matches
      (runSwitch value clauses labels) (runSwitch value clauses labels) := by
  unfold runSwitch
  refine .bind (.evaluate h) fun q _ u u' hu => ?_
  refine .bind (matchingClauses_follows hu hc) ?_
  rintro r _ found _ ⟨rfl, hfound⟩
  have hsuffix : found.getD (defaultClauses clauses) <:+ clauses := by
    cases found with
    | none => exact defaultClauses_suffix clauses
    | some rest => exact hfound rest rfl
  have hbody := clauseStatements_suffix hsuffix
  refine runUntilBreak_follows (hc.mono ?_) (List.filter_subset _ ?_)
  · exact List.Subset.trans (Statement.treesOf_suffix hbody)
      (SwitchClause.treesOf_clauseStatements_subset clauses)
  · rw [SwitchClause.jumpsOf_eq]
    exact Statement.jumpsOf_suffix hbody

/-! ## Other statements -/

theorem runLabeled_follows (label : String) {body : Statement} (h : S.Sound body.trees) :
    S.Follows ((body.jumps (label :: labels)).filter fun j => !j.endsLabeled (label :: labels)) p
      Value.Matches (runLabeled label body labels) (runLabeled label body labels) := by
  have hmem : ∀ i j, Abrupt.jump? i = some j → j.endsLabeled (label :: labels) = false →
      j ∈ body.jumps (label :: labels) →
      j ∈ (body.jumps (label :: labels)).filter fun j => !j.endsLabeled (label :: labels) :=
    fun _ j _ hends hj => List.mem_filter.2 ⟨hj, by rw [hends]; rfl⟩
  unfold runLabeled
  refine .attempt_bind (Runs.statement (label :: labels) h).halt (fun q _ u u' hu => .pure hu)
    fun q _ i i' hi hj => ?_
  cases hi with
  | broken l =>
    cases l with
    | none => exact complete_runs (.broken none) hj fun j hl => hmem _ j hl (by cases hl; rfl)
    | some l =>
      cases hc : (label :: labels).contains l with
      | true =>
        dsimp only
        rw [hc]
        exact .pure .undefined
      | false =>
        dsimp only
        rw [hc]
        exact pass_runs (.broken (some l)) hj fun j hl => hmem _ j hl (by cases hl; exact hc)
  | continued l =>
    exact complete_runs (.continued l) hj fun j hl => hmem _ j hl (by cases hl; rfl)
  | returned hu =>
    exact complete_runs (.returned hu) hj fun j hl => hmem _ j hl (by cases hl; rfl)
  | thrown hu => exact complete_runs (.thrown hu) hj fun _ h => nomatch h
  | stopped => exact .stopped

theorem runWith_follows {object : Expression} {body : Statement} (h : S.Sound object.trees)
    (hb : S.Sound body.trees) :
    S.Follows (body.jumps []) p Value.Matches (runWith object body) (runWith object body) := by
  unfold runWith
  refine .bind (.evaluate h) fun q _ u u' hu => ?_
  exact .bind (toObject_follows hu) fun r _ a b hid => .bracket (.withObject hid) (.runInner hb)

theorem statementForm_follows {form : StatementForm} (h : S.Sound form.trees) :
    S.Follows (form.jumps labels) p Value.Matches (statementForm form labels)
      (statementForm form labels) := by
  unfold statementForm
  cases form <;> rw [StatementForm.trees] at h <;> rw [StatementForm.jumps]
  case empty => exact .pure .undefined
  case function => exact .pure .undefined
  case expression e => exact .evaluate h
  case block body => exact runStatements_runs body h
  case declare declarators =>
    exact .bind (declareVariables_follows h) fun _ _ _ _ _ => .pure .undefined
  case ifThen test yes =>
    refine .bind (.evaluate h.left) fun q _ u u' hu => ?_
    rw [hu.isTruthy_eq]
    split
    · exact .runInner h.right
    · exact .pure .undefined
  case ifElse test yes no =>
    refine .bind (.evaluate h.left.left) fun q _ u u' hu => ?_
    rw [hu.isTruthy_eq]
    split
    · exact (Runs.runInner h.left.right).widen (List.subset_append_left ..)
    · exact (Runs.runInner h.right).widen (List.subset_append_right ..)
  case whileLoop test body =>
    have ht : S.Sound (Expression.treesOfOption (some test)) := h.left
    exact runRounds_follows ht h.right (List.Subset.refl _) fun _ => .pure rfl
  case doLoop body test =>
    have ht : S.Sound (Expression.treesOfOption (some test)) := h.right
    refine .iterate (U := Value.Matches) .undefined fun q _ u u' hu => ?_
    exact runBody_follows h.left hu (List.Subset.refl _) fun _ => testHolds_follows ht
  case forLoop start test update body =>
    exact .bind (runForStart_follows h.left.left.left) fun _ _ _ _ _ =>
      runRounds_follows h.left.left.right h.right (List.Subset.refl _) fun _ =>
        runForUpdate_follows h.left.right
  case forVariable d object body =>
    exact runForVariable_follows h.left.left h.left.right h.right (List.Subset.refl _)
  case forTarget target object body =>
    exact runForTarget_follows h.left.left h.left.right h.right (List.Subset.refl _)
  case returnValue value =>
    cases value with
    | none => exact .abrupt (.returned .undefined) (fun j hj => .inr (by cases hj; exact .head _)) nofun
    | some e =>
      exact .bind (.evaluate h) fun _ _ _ _ hu =>
        .abrupt (.returned hu) (fun j hj => .inr (by cases hj; exact .head _)) nofun
  case breakTo label =>
    exact .abrupt (.broken label) (fun j hj => .inr (by cases hj; exact .head _)) nofun
  case continueTo label =>
    exact .abrupt (.continued label) (fun j hj => .inr (by cases hj; exact .head _)) nofun
  case throw e => exact .bind (.evaluate h) fun _ _ _ _ hu => .thrown hu
  case tryCatch body parameter handler => exact runCatching_follows parameter h.left h.right
  case tryFinally body final => exact runFinally_follows (runGuarded_follows h.left) h.right
  case tryCatchFinally body parameter handler final =>
    exact runFinally_follows (runCatching_follows parameter h.left.left h.left.right) h.right
  case switch value clauses => exact runSwitch_follows h.left h.right
  case labeled label body => exact runLabeled_follows label h
  case withObject object body => exact runWith_follows h.left h.right

theorem pending_cases {g : S.Ghost} {x x' y y' : Script α} {k : Course}
    (hx : S.RunsAt g .halting k p V x x') (hy : S.RunsAt g .going k p V y y') :
    S.RunsAt g .halting k p V (do if (← Script.read Machine.pending).isSome then x else y)
      (do if (← Script.read Machine.pending).isSome then x' else y') := by
  refine ⟨fun e e' he m m' hm => ?_⟩
  show S.Ends k g p V ((if m.pending.isSome then x else y : Script α) e m)
    ((if m'.pending.isSome then x' else y' : Script α) e' m')
  rw [← (S.matched hm).pending]
  split
  · exact hx.ends e e' he m m' hm
  · rename_i hpending
    rw [Option.not_isSome_iff_eq_none] at hpending
    exact hy.ends e e' he m m' (S.settle hm hpending)

theorem runElement_runs {g : S.Ghost} {s : Statement} (hs : S.inside g s) (h : S.Sound s.trees) :
    S.RunsAt g .going ⟨.going, .going, s.jumps labels⟩ p Value.Matches (runElement s labels)
      (runElement s labels) := by
  have hform : ∀ q, S.Follows (s.jumps labels) q Value.Matches (statementForm s.form labels)
      (statementForm s.form labels) := fun q => by
    obtain ⟨line, form⟩ := s
    rw [Statement.trees] at h
    rw [Statement.jumps]
    exact statementForm_follows h
  unfold runElement
  refine (poll_runs.within g).bind fun _ _ _ _ _ => ?_
  refine ((debug_runs _).within g).bind fun r _ _ _ _ => ?_
  refine ((hform r).within g).attempt_bind (fun _ _ _ _ hu => (Runs.pure hu).within g)
    fun t _ i i' hi hj => ?_
  cases hi with
  | thrown hu =>
    refine .read_bind (V := .same) (fun hm => (S.matched hm).tryDepth) ?_
    rintro depth _ rfl
    split
    · exact ((noteUncaught_runs hu).within g).bind fun _ _ _ _ _ => showPending_runs hs
    · exact (Runs.thrown hu).within g
  | stopped => exact pending_cases (showPending_runs hs) (Runs.stopped.within g)
  | returned hu => exact (Runs.abrupt (.returned hu) hj nofun).within g
  | broken l => exact (Runs.abrupt (.broken l) hj nofun).within g
  | continued l => exact (Runs.abrupt (.continued l) hj nofun).within g

theorem runStatement_runs {s : Statement} (h : S.Sound s.trees) :
    S.Runs .going ⟨.going, .going, s.jumps labels⟩ p Value.Matches (runStatement s labels)
      (runStatement s labels) := .statement_bracket s fun _ hs => runElement_runs hs h

end PageScript.Simulation
