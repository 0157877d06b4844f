import PageScript.Proofs.Composed.Tasks
import PageScript.Proofs.Grounded

/-! # Runs that end

Loops perform elements and recursion makes calls, so that a run ends if the embedding program cancels it
beyond some number of elements.  What is left of a run is measured by the elements and the calls that are
still to come.  A task performs further tasks only where it has counted one of them; what ends at once
needs no measure, and hooks that answer at once perform nothing.  A walk up a chain of prototypes counts
nothing; it ends because the chain does.
-/

set_option autoImplicit false

namespace PageScript

open Script

variable {α β σ : Type} {x : Script α} {config : Config} {host : Host} {e e' : Engine} {m n : Machine}
  {t : Task} {bound limit : Nat}

/-! ## What is left of a run -/

/-- The elements and the nested calls that are still to come, if there are at most `bound` of the former
and `depth` of the latter. -/
def Machine.load (bound depth : Nat) (m : Machine) : Nat := (bound - m.elements) + (depth - m.callDepth)

theorem Machine.After.load (h : m.After n) (depth : Nat) : n.load bound depth ≤ m.load bound depth := by
  have helements := h.elements
  unfold Machine.load
  rw [h.callDepth]
  omega

theorem Machine.load_count (h : m.elements + 1 ≤ bound) (depth : Nat) :
    (t.enter m).count.load bound depth < m.load bound depth := by
  have hcount : (t.enter m).count.elements = m.elements + 1 ∧ (t.enter m).count.callDepth = m.callDepth := by
    cases t <;> exact ⟨rfl, rfl⟩
  unfold Machine.load
  rw [hcount.1, hcount.2]
  omega

theorem Machine.load_submerge {depth : Nat} (h : m.callDepth < depth) :
    m.submerge.load bound depth < m.load bound depth := by
  show (bound - m.elements) + (depth - (m.callDepth + 1)) < (bound - m.elements) + (depth - m.callDepth)
  omega

/-! ## Engines whose tasks end -/

/-- Whether tasks end on machines with less than `limit` left of their run, and elements are counted there
or stop the run. -/
structure Engine.Ends (bound limit : Nat) (e : Engine) : Prop where
  advances : e.Advances
  rounds : limit ≤ e.rounds
  ends : ∀ t m, m.load bound e.config.maxDepth < limit → ∀ n, e.perform t m ≠ .exhausted n
  counts : ∀ t m, t.isElement = true → m.load bound e.config.maxDepth < limit →
    (∃ n, e.perform t m = .abrupt .stopped n) ∨
      m.elements < bound ∧ m.elements < (e.perform t m).machine.elements

/-- Whether a computation ends on the machines on which the tasks of an engine do. -/
def Engine.Finishes (bound limit : Nat) (e : Engine) (x : Script α) : Prop :=
  ∀ m, m.load bound e.config.maxDepth < limit → ∀ n, x e m ≠ .exhausted n

namespace Engine.Ends

theorem fold {step : σ → β → Script σ} (he : e.Ends bound limit)
    (hcomposed : ∀ s b, Composed σ (step s b)) (hstep : ∀ s b, e.Finishes bound limit (step s b))
    (items : List β) (s : σ) : e.Finishes bound limit (Script.fold step items s) := by
  show ∀ m, _ → ∀ n, foldOver step items s e m ≠ .exhausted n
  induction items generalizing s with
  | nil =>
    intro m _ n hn
    cases hn
  | cons b rest ih =>
    intro m hload n
    have hlater := (hcomposed s b).after he.advances m
    unfold foldOver
    cases ho : step s b e m with
    | value s' k =>
      rw [ho] at hlater
      exact ih s' k (Nat.lt_of_le_of_lt (hlater.load _) hload) n
    | abrupt c k =>
      intro hn
      cases hn
    | exhausted k => exact absurd ho (hstep s b m hload k)

theorem foldUntil {step : σ → β → Script (Sum σ σ)} (he : e.Ends bound limit)
    (hcomposed : ∀ s b, Composed (Sum σ σ) (step s b)) (hstep : ∀ s b, e.Finishes bound limit (step s b))
    (items : List β) (s : σ) : e.Finishes bound limit (Script.foldUntil step items s) := by
  show ∀ m, _ → ∀ n, foldOverUntil step items s e m ≠ .exhausted n
  induction items generalizing s with
  | nil =>
    intro m _ n hn
    cases hn
  | cons b rest ih =>
    intro m hload n
    have hlater := (hcomposed s b).after he.advances m
    unfold foldOverUntil
    cases ho : step s b e m with
    | value r k =>
      rw [ho] at hlater
      cases r with
      | inl s' => exact ih s' k (Nat.lt_of_le_of_lt (hlater.load _) hload) n
      | inr s' =>
        intro hn
        cases hn
    | abrupt c k =>
      intro hn
      cases hn
    | exhausted k => exact absurd ho (hstep s b m hload k)

/-- Each round that is followed by another one counts an element, so there are no more rounds than
elements are left. -/
theorem iterateUpTo {round : σ → Script (Sum σ α)} (he : e.Ends bound limit)
    (hcomposed : ∀ s, Composed (Sum σ α) (round s)) (hbusy : ∀ s, (round s).Busy)
    (hround : ∀ s, e.Finishes bound limit (round s)) (rounds : Nat) (s : σ) (m : Machine)
    (hload : m.load bound e.config.maxDepth < limit) (hrounds : bound - m.elements < rounds) (n : Machine) :
    Script.iterateUpTo round rounds s e m ≠ .exhausted n := by
  induction rounds generalizing s m with
  | zero => exact absurd hrounds (Nat.not_lt_zero _)
  | succ rounds ih =>
    have hlater := (hcomposed s).after he.advances m
    obtain ⟨t, ht, hcount, hstop⟩ := hbusy s e he.advances m
    unfold Script.iterateUpTo
    cases ho : round s e m with
    | value r k =>
      cases r with
      | inr a =>
        intro hn
        cases hn
      | inl s' =>
        rw [ho] at hlater hcount hstop
        have hmore : m.elements < bound ∧ m.elements < k.elements := by
          obtain ⟨j, hj⟩ | ⟨hbound, hless⟩ := he.counts t m ht hload
          · cases hstop j hj
          · exact ⟨hbound, Nat.lt_of_lt_of_le hless hcount⟩
        exact ih s' k (Nat.lt_of_le_of_lt (hlater.load _) hload) (by omega)
    | abrupt c k =>
      intro hn
      cases hn
    | exhausted k => exact absurd ho (hround s m hload k)

end Engine.Ends

/-- A composed computation ends where the tasks that it performs do. -/
theorem Composed.finishes (h : Composed α x) (he : e.Ends bound limit) : e.Finishes bound limit x := by
  induction h with
  | pure a => exact fun m _ n hn => nomatch hn
  | @bind α β x f hx _ first next =>
    intro m hload n
    have hlater := hx.after he.advances m
    show Script.bind x f e m ≠ _
    unfold Script.bind
    cases ho : x e m with
    | value a k =>
      rw [ho] at hlater
      exact next a k (Nat.lt_of_le_of_lt (hlater.load _) hload) n
    | abrupt c k => exact fun hn => nomatch hn
    | exhausted k => exact absurd ho (first m hload k)
  | abrupt c => exact fun m _ n hn => nomatch hn
  | act f g _ => exact fun m _ n hn => nomatch hn
  | ask f _ => exact fun m _ n hn => nomatch hn
  | config => exact fun m _ n hn => nomatch hn
  | log level text =>
    intro m _ n
    unfold Script.log
    split <;> exact fun hn => nomatch hn
  | perform t => exact fun m hload n => he.ends t m hload n
  | @attempt x _ body =>
    intro m hload n
    have hbody := body m hload
    unfold Script.attempt
    cases ho : x e m with
    | exhausted k => exact absurd ho (hbody k)
    | _ => exact fun hn => nomatch hn
  | @orElse α x _ default body =>
    intro m hload n
    have hbody := body m hload
    unfold Script.orElse
    cases ho : x e m with
    | exhausted k => exact absurd ho (hbody k)
    | _ => exact fun hn => nomatch hn
  | @returning x _ body =>
    intro m hload n
    have hbody := body m hload
    unfold Script.returning
    cases ho : x e m with
    | exhausted k => exact absurd ho (hbody k)
    | abrupt c k => cases c <;> exact fun hn => nomatch hn
    | value v k => exact fun hn => nomatch hn
  | @afterwards α x _ g _ body =>
    intro m hload n
    have hbody := body m hload
    unfold Script.afterwards
    cases ho : x e m with
    | exhausted k => exact absurd ho (hbody k)
    | _ => exact fun hn => nomatch hn
  | fold hsteps items s steps => exact he.fold hsteps steps items s
  | foldUntil hsteps items s steps => exact he.foldUntil hsteps steps items s
  | iterate hrounds hbusy s rounds =>
    intro m hload n
    refine he.iterateUpTo hrounds hbusy rounds e.rounds s m hload ?_ n
    have hload' : (bound - m.elements) + (e.config.maxDepth - m.callDepth) < limit := hload
    have := he.rounds
    omega

/-! ## Tasks that end -/

/-- Whether a computation ends without performing a task. -/
def Script.AnswersAtOnce (x : Script α) : Prop := ∀ (e : Engine) (m n : Machine), x e.idle m ≠ .exhausted n

/-- Whether the hooks of an embedding program perform no tasks, as if there were none. -/
structure Host.HooksAtOnce (host : Host) : Prop where
  readHook : ∀ behavior owner, (host.readHook behavior owner).AnswersAtOnce
  writeHook : ∀ behavior owner v, (host.writeHook behavior owner v).AnswersAtOnce
  offer : ∀ behavior object name, (host.offer behavior object name).AnswersAtOnce

/-- Whether an embedding program cancels every run beyond a number of elements. -/
def Observer.CancelsBeyond (bound : Nat) (o : Observer) : Prop :=
  ∀ es elements, bound < elements → ∃ remark, o.feedback es elements = .cancel remark

theorem Host.HooksAtOnce.step (h : host.HooksAtOnce) (ht : t.isHook = true) (e : Engine) (m n : Machine) :
    step host t e.idle m ≠ .exhausted n := by
  cases t with
  | readHook behavior owner => exact h.readHook behavior owner e m n
  | writeHook behavior owner v => exact h.writeHook behavior owner v e m n
  | offer behavior object name =>
    show Script.bind (host.offer behavior object name) _ e.idle m ≠ _
    unfold Script.bind
    cases ho : host.offer behavior object name e.idle m with
    | exhausted k => exact absurd ho (h.offer behavior object name e m k)
    | _ => exact fun hn => nomatch hn
  | _ => cases ht

/-- A step ends where the tasks that it performs do, and these have less left of their run. -/
theorem step_finishes (hhost : host.Composed) (hhooks : host.HooksAtOnce)
    (hcancels : e.observer.CancelsBeyond bound) (he : e.Ends bound limit) (t : Task) :
    e.Finishes bound (limit + 1) (step host t) := by
  intro m hload n
  have hself := he.advances.fellow t m
  cases hhost.course t e m with
  | ends c k after stopped step =>
    rw [step e hself]
    exact fun hn => nomatch hn
  | element kind feedback step =>
    rw [step e hself]
    have hbound : m.elements + 1 ≤ bound := by
      by_contra hbeyond
      obtain ⟨remark, hcancel⟩ := hcancels m.events (m.elements + 1) (Nat.not_le.1 hbeyond)
      exact nomatch feedback.symm.trans hcancel
    have hless := Machine.load_count (t := t) hbound e.config.maxDepth
    exact (Composed.element t).finishes he _ (by omega) n
  | call x composed depth kind step =>
    rw [step e hself]
    have hless : m.submerge.load bound e.config.maxDepth < m.load bound e.config.maxDepth :=
      Machine.load_submerge depth
    have hbody := composed.finishes he m.submerge (by omega)
    unfold afterwards
    cases ho : x e m.submerge with
    | exhausted k => exact absurd ho (hbody k)
    | _ => exact fun hn => nomatch hn
  | hook x composed kind step =>
    rw [step e, composed.at_once (fun k => step e.idle ▸ hhooks.step kind e m k) he.advances.idle_cut,
      ← step e.idle]
    exact hhooks.step kind e m n

/-- An element is counted, unless it stops. -/
theorem step_counts (hhost : host.Composed) (hcancels : e.observer.CancelsBeyond bound)
    (he : e.Advances) (ht : t.isElement = true) (m : Machine) :
    (∃ n, step host t e m = .abrupt .stopped n) ∨
      m.elements < bound ∧ m.elements < (step host t e m).machine.elements := by
  have hself := he.fellow t m
  cases hhost.course t e m with
  | ends c n after stopped step =>
    have hc := stopped ht
    subst hc
    exact .inl ⟨n, step e hself⟩
  | element kind feedback step =>
    rw [step e hself]
    refine .inr ⟨?_, ?_⟩
    · by_contra hbeyond
      obtain ⟨remark, hcancel⟩ := hcancels m.events (m.elements + 1) (by omega)
      exact nomatch feedback.symm.trans hcancel
    · have hcount : (t.enter m).count.elements = m.elements + 1 := by cases t <;> rfl
      have hlater := ((Composed.element t).after he (t.enter m).count).elements
      omega
  | call x composed depth kind step => exact nomatch ht.symm.trans kind
  | hook x composed kind step =>
    cases t <;> first | exact absurd ht Bool.false_ne_true | exact absurd kind Bool.false_ne_true

/-- Tasks end on machines with less left of their run than they may be nested. -/
theorem performUpTo_ends (hhost : host.Composed) (hhooks : host.HooksAtOnce)
    (hcancels : host.CancelsBeyond bound) (limit : Nat) :
    (Engine.upTo config host limit).Ends bound limit := by
  induction limit with
  | zero =>
    exact
      { advances := performUpTo_advances hhost 0
        rounds := Nat.le_refl _
        ends := fun _ _ hload => absurd hload (Nat.not_lt_zero _)
        counts := fun _ _ _ hload => absurd hload (Nat.not_lt_zero _) }
  | succ limit ih =>
    exact
      { advances := performUpTo_advances hhost _
        rounds := Nat.le_refl _
        ends := fun t m hload n => step_finishes hhost hhooks hcancels ih t m hload n
        counts := fun t m ht _ => step_counts hhost hcancels ih.advances ht m }

/-! ## Runs -/

/-- Whether a computation never completes abruptly. -/
def Script.Completes (x : Script α) : Prop := ∀ e m c n, x e m ≠ .abrupt c n

namespace Script.Completes

theorem bind {f : α → Script β} (hx : x.Completes) (hf : ∀ a, (f a).Completes) : (x >>= f).Completes := by
  intro e m c n
  show Script.bind x f e m ≠ _
  unfold Script.bind
  cases ho : x e m with
  | value a k => exact hf a e k c n
  | abrupt c' k => exact absurd ho (hx e m c' k)
  | exhausted k => exact fun hn => nomatch hn

theorem log (level : LogLevel) (text : Machine → String) : (Script.log level text).Completes := by
  intro e m c n
  unfold Script.log
  split <;> exact fun hn => nomatch hn

theorem fold {step : σ → β → Script σ} (hstep : ∀ s b, (step s b).Completes) (items : List β) (s : σ) :
    (Script.fold step items s).Completes := by
  show ∀ e m c n, foldOver step items s e m ≠ .abrupt c n
  induction items generalizing s with
  | nil =>
    intro e m c n hn
    cases hn
  | cons b rest ih =>
    intro e m c n
    unfold foldOver
    cases ho : step s b e m with
    | value s' k => exact ih s' e k c n
    | abrupt c' k => exact absurd ho (hstep s b e m c' k)
    | exhausted k =>
      intro hn
      cases hn

theorem foldUntil {step : σ → β → Script (Sum σ σ)} (hstep : ∀ s b, (step s b).Completes) (items : List β)
    (s : σ) : (Script.foldUntil step items s).Completes := by
  show ∀ e m c n, foldOverUntil step items s e m ≠ .abrupt c n
  induction items generalizing s with
  | nil =>
    intro e m c n hn
    cases hn
  | cons b rest ih =>
    intro e m c n
    unfold foldOverUntil
    cases ho : step s b e m with
    | value r k =>
      cases r with
      | inl s' => exact ih s' e k c n
      | inr s' =>
        intro hn
        cases hn
    | abrupt c' k => exact absurd ho (hstep s b e m c' k)
    | exhausted k =>
      intro hn
      cases hn

theorem attempt (x : Script Value) : (Script.attempt x).Completes := by
  intro e m c n
  unfold Script.attempt
  cases x e m <;> exact fun hn => nomatch hn

theorem modify (f : Machine → Machine) : (Script.modify f).Completes := fun _ _ _ _ hn => nomatch hn

theorem hoist (body : List Statement) (scope : ObjectId) : (Script.hoist body scope).Completes := by
  refine .bind (.fold (fun _ _ => .modify _) _ _) fun _ => .fold (fun _ tree => ?_) _ _
  unfold Script.declareFunction
  cases tree.name with
  | none => exact fun _ _ _ _ hn => nomatch hn
  | some name =>
    exact .bind (fun _ _ _ _ hn => nomatch hn) fun _ => .bind (.modify _) fun _ => .modify _

theorem collectIfDue : Script.collectIfDue.Completes := by
  refine .bind (fun _ _ _ _ hn => nomatch hn) fun config => .bind (fun _ _ _ _ hn => nomatch hn) fun due => ?_
  split
  · refine .bind (.bind (fun _ _ _ _ hn => nomatch hn) fun census => .bind (.log _ _) fun _ => ?_) fun _ => ?_
    · exact fun _ _ _ _ hn => nomatch hn
    · exact fun _ _ _ _ hn => nomatch hn
  · exact fun _ _ _ _ hn => nomatch hn

theorem runTopLevel (last : Value) (s : Statement) : (Script.runTopLevel last s).Completes := by
  refine .bind (.attempt _) fun c => ?_
  split
  · exact fun _ _ _ _ hn => nomatch hn
  · refine .bind (fun _ _ _ _ hn => nomatch hn) fun stopped => ?_
    split
    · exact fun _ _ _ _ hn => nomatch hn
    · exact .bind (.modify _) fun _ => .bind collectIfDue fun _ => fun _ _ _ _ hn => nomatch hn

/-- Whatever becomes of the statements of a program, the program has a value. -/
theorem runStarted (body : List Statement) : (Composed.runStarted body).Completes :=
  .bind (.log _ _) fun _ => .bind (hoist _ _) fun _ => .bind (.foldUntil runTopLevel _ _) fun _ =>
    .bind (.modify _) fun _ => .bind (.log _ _) fun _ => .bind (.modify _) fun _ _ _ _ _ hn => nomatch hn

end Script.Completes

/-- An embedding program without hooks. -/
def Host.unhooked (host : Host) : Host :=
  { host with
    readHook := fun _ _ => pure .undefined
    writeHook := fun _ _ v => pure v
    offer := fun _ _ _ => pure false }

theorem Host.unhooked_atOnce (host : Host) : host.unhooked.HooksAtOnce where
  readHook _ _ _ _ _ hn := nomatch hn
  writeHook _ _ _ _ _ _ hn := nomatch hn
  offer _ _ _ _ _ _ hn := nomatch hn

theorem Host.unhooked_composed (h : host.Composed) : host.unhooked.Composed where
  native := h.native
  readHook _ _ := .pure _
  writeHook _ _ _ := .pure _
  offer _ _ _ := .pure _

namespace Script

end Script

end PageScript
