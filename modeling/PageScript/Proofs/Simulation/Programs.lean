import PageScript.Proofs.Simulation.Tasks

/-! # Programs on two sides

A program runs its statements one after another and may collect garbage after each of them.  As a
collection frees what no longer plays a part, the objects may have to be paired anew there; this is why
a whole run has a pairing at its end only, and none that it grew from.
-/

set_option autoImplicit false

namespace PageScript.Simulation

open Script

variable {S : Simulation} {α β : Type} {p q : Pairing} {V : Matching α} {W : Matching β}
  {js : List Jump} {k : Course} {g : S.Ghost} {e e' : Engine} {m m' : Machine}

/-! ## Endings with some pairing -/

/-- Two endings of a course with the invariant between the machines for some pairing. -/
def Meets (S : Simulation) (k : Course) (g : S.Ghost) (V : Matching α) (o o' : Outcome α) : Prop :=
  ∃ p, S.Ends k g p V o o'

theorem Meets.bind {x x' : Script α} {f f' : α → Script β}
    (hx : S.Meets (.leaving js) g V (x e m) (x' e' m'))
    (hf : ∀ q v v' n n', V q v v' → S.inv .going g q n n' →
      S.Meets (.leaving js) g W (f v e n) (f' v' e' n')) :
    S.Meets (.leaving js) g W ((x >>= f) e m) ((x' >>= f') e' m') := by
  obtain ⟨p, hx⟩ := hx
  show S.Meets _ g W (Script.bind x f e m) (Script.bind x' f' e' m')
  unfold Script.bind
  generalize x e m = o at hx
  generalize x' e' m' = o' at hx
  cases hx with
  | value hq hv hn => exact hf _ _ _ _ _ hv hn
  | abrupt hq hc hj hn => exact ⟨p, .abrupt hq hc hj hn⟩
  | exhausted h => exact ⟨p, .exhausted h⟩

/-! ## Top-level statements -/

/-- What the statements of a program ask of a simulation, besides their tasks. -/
structure TopLevel (S : Simulation) (g : S.Ghost) (e e' : Engine) : Prop where
  agree : S.Agree e e'
  result : ∀ {p m m' v w}, S.inv .going g p m m' → Value.Matches p v w →
    S.inv .going g p { m with result := v } { m' with result := w }
  collect : ∀ {p m m'}, S.inv .going g p m m' →
    ∃ q n n', collectIfDue e m = .value () n ∧ collectIfDue e' m' = .value () n' ∧
      S.inv .going g q n n' ∧ n.result = m.result ∧ n'.result = m'.result

/-- What whole programs ask of a simulation, besides their tasks. -/
structure Programs (S : Simulation) (g : S.Ghost) (e e' : Engine) : Prop extends S.TopLevel g e e' where
  outermost : ∀ {p m m'}, S.inv .going g p m m' →
    S.inv .going g p { m with frame := Frame.outermost Intrinsic.globalObject [] }
      { m' with frame := Frame.outermost Intrinsic.globalObject [] }

/-- What is done with the value of a top-level statement that did not end the run. -/
def settleTopLevel (last : Value) : Script (Sum Value Value) := do
  if ← Script.read Machine.stopped then return .inr last
  Script.modify fun m => { m with result := last }
  collectIfDue
  return .inl last

theorem settleTopLevel_stopped {last : Value} (h : m.stopped = true) :
    settleTopLevel last e m = .value (.inr last) m := by
  show (if m.stopped = true then _ else _ : Script (Sum Value Value)) e m = _
  rw [if_pos h]
  rfl

theorem settleTopLevel_going {last : Value} {n : Machine} (h : m.stopped = false)
    (hn : collectIfDue e { m with result := last } = .value () n) :
    settleTopLevel last e m = .value (.inl last) n := by
  show (if m.stopped = true then _ else _ : Script (Sum Value Value)) e m = _
  rw [if_neg (Bool.eq_false_iff.1 h)]
  show Script.bind collectIfDue _ e { m with result := last } = _
  unfold Script.bind
  rw [hn]
  rfl

theorem settleTopLevel_meets (h : S.TopLevel g e e') {last last' : Value}
    (hlast : Value.Matches p last last') (hm : S.inv .going g p m m') :
    S.Meets (.leaving js) g (.either Value.Matches Value.Matches) (settleTopLevel last e m)
      (settleTopLevel last' e' m') := by
  have hstopped := (S.matched hm).stopped
  cases hs : m.stopped with
  | true =>
    rw [settleTopLevel_stopped hs, settleTopLevel_stopped (hstopped ▸ hs)]
    exact ⟨p, .value (le_refl p) (.inr hlast) hm⟩
  | false =>
    obtain ⟨q, n, n', hn, hn', hinv, hresult, hresult'⟩ := h.collect (h.result hm hlast)
    rw [settleTopLevel_going hs hn, settleTopLevel_going (hstopped ▸ hs) hn']
    have hlast' : Value.Matches q last last' := by
      have hmatch := (S.matched hinv).result
      rw [hresult, hresult'] at hmatch
      exact hmatch
    exact ⟨q, .value (le_refl q) (.inl hlast') hinv⟩

theorem runTopLevel_meets (h : S.TopLevel g e e') {s : Statement} (hs : S.Sound s.trees)
    {last last' : Value} (hlast : Value.Matches p last last') (hm : S.inv .going g p m m') :
    S.Meets (.leaving js) g (.either Value.Matches Value.Matches) (runTopLevel last s e m)
      (runTopLevel last' s e' m') := by
  have hrun : S.Ends ⟨.going, .going, s.jumps []⟩ g p Value.Matches (runInner s e m)
      (runInner s e' m') := (Runs.statement [] hs).ends e e' h.agree g m m' hm
  show S.Meets _ g _ (Script.bind (Script.attempt (runInner s)) _ e m)
    (Script.bind (Script.attempt (runInner s)) _ e' m')
  unfold Script.bind Script.attempt
  generalize runInner s e m = o at hrun
  generalize runInner s e' m' = o' at hrun
  cases hrun with
  | @value q v v' n n' hq hv hn =>
    show S.Meets _ g _ (settleTopLevel (if s.yieldsValue then v else last) e n)
      (settleTopLevel (if s.yieldsValue then v' else last') e' n')
    split
    · exact settleTopLevel_meets h hv hn
    · exact settleTopLevel_meets h (hlast.mono hq) hn
  | @abrupt q c c' n n' hq hc hj hn =>
    cases hc with
    | stopped => exact ⟨q, .value (le_refl q) (.inr (hlast.mono hq)) hn⟩
    | returned hv => exact settleTopLevel_meets h (hlast.mono hq) hn
    | thrown hv => exact settleTopLevel_meets h (hlast.mono hq) hn
    | broken l => exact settleTopLevel_meets h (hlast.mono hq) hn
    | continued l => exact settleTopLevel_meets h (hlast.mono hq) hn
  | exhausted hspent => exact ⟨p, .exhausted hspent⟩

theorem topLevel_meets (h : S.TopLevel g e e') {body : List Statement}
    (hs : S.Sound (Statement.treesOf body)) {last last' : Value}
    (hlast : Value.Matches p last last') (hm : S.inv .going g p m m') :
    S.Meets (.leaving js) g Value.Matches (Script.foldUntil runTopLevel body last e m)
      (Script.foldUntil runTopLevel body last' e' m') := by
  show S.Meets _ g _ (Script.foldOverUntil runTopLevel body last e m)
    (Script.foldOverUntil runTopLevel body last' e' m')
  induction body generalizing p last last' m m' with
  | nil => exact ⟨p, .value (le_refl p) hlast hm⟩
  | cons s rest ih =>
    rw [Statement.treesOf] at hs
    obtain ⟨q, hrun⟩ := (runTopLevel_meets h hs.left hlast hm : S.Meets (.leaving js) g _ _ _)
    unfold Script.foldOverUntil
    generalize runTopLevel last s e m = o at hrun
    generalize runTopLevel last' s e' m' = o' at hrun
    cases hrun with
    | value hq hv hn =>
      cases hv with
      | inl hv => exact ih hs.right hv hn
      | inr hv => exact ⟨_, .value (le_refl _) hv hn⟩
    | abrupt hq hc hj hn => exact ⟨q, .abrupt hq hc hj hn⟩
    | exhausted hspent => exact ⟨q, .exhausted hspent⟩

/-! ## Programs -/

theorem RunsAt.meets {x x' : Script α} (h : S.RunsAt g .going (.leaving js) p V x x')
    (he : S.Agree e e') (hm : S.inv .going g p m m') :
    S.Meets (.leaving js) g V (x e m) (x' e' m') := ⟨p, h.ends e e' he m m' hm⟩

/-- What is done after the last statement of a program. -/
def finishProgram (v : Value) : Script Value := do
  Script.log .debug fun m =>
    "execution finished after " ++ toString m.elements ++ " elements"
      ++ if m.stopped then " (stopped)" else ""
  Script.modify fun m => { m with result := v }
  return v

theorem finishProgram_runs (h : S.Programs g e e') {v w : Value} (hv : Value.Matches p v w) :
    S.RunsAt g .going (.leaving js) p Value.Matches (finishProgram v) (finishProgram w) := by
  refine .bind (V := .same) (Runs.within (.log fun hm => ?_) g) fun q hq _ _ _ => ?_
  · rw [(S.matched hm).elements, (S.matched hm).stopped]
  · exact .bind (V := .same) (.modify fun hm => h.result hm (hv.mono hq)) fun _ hr _ _ _ =>
      Runs.within (.pure (hv.mono (hq.trans hr))) g

theorem runProgram_meets (h : S.Programs g e e') {body : List Statement}
    (hs : S.Sound (Statement.treesOf body)) {this this' : Option ObjectId}
    {withs withs' : List ObjectId}
    (hstart : ∀ n n', startRun this withs e m = .value () n → startRun this' withs' e' m' = .value () n' →
      S.inv .going g p n n') :
    S.Meets (.leaving js) g Value.Matches (runProgram body this withs e m)
      (runProgram body this' withs' e' m') := by
  have hn := hstart _ _ rfl rfl
  have hlog : S.Follows js p .same
      (Script.log .debug fun _ => "executing " ++ toString body.length ++ " top-level statements")
      (Script.log .debug fun _ => "executing " ++ toString body.length ++ " top-level statements") :=
    .log fun _ => rfl
  refine ((hlog.within g).meets h.agree hn).bind fun q _ _ n n' _ hn => ?_
  refine (((hoist_follows body q.intrinsic_global hs).within g).meets h.agree hn).bind
    fun q _ _ n n' _ hn => ?_
  refine (topLevel_meets h.toTopLevel hs .undefined hn).bind fun r v v' n n' hv hn => ?_
  exact (finishProgram_runs h hv).meets h.agree (h.outermost hn)

end PageScript.Simulation
