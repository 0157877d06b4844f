import PageScript.Proofs.Composed

/-! # Runs cut short

An engine with a smaller bound on its tasks may use it up where another one goes on.  Up to there the two
run alike: a composed computation either ends in the same way under both, or it is exhausted under the
first with events that the second one has shown as well.
-/

set_option autoImplicit false

namespace PageScript

open Script

variable {α β σ : Type} {x : Script α} {e e' : Engine} {m : Machine}

/-! ## Outcomes -/

/-- An outcome, or less of what leads to it. -/
inductive Outcome.Cut : Outcome α → Outcome α → Prop where
  | same (o : Outcome α) : Cut o o
  | short {n : Machine} {o : Outcome α} (events : n.events <:+ o.machine.events) : Cut (.exhausted n) o

namespace Outcome.Cut

theorem of_eq {o o' : Outcome α} (h : o' = o) : o.Cut o' := h ▸ .same o

theorem alternatives {o o' : Outcome α} (h : o.Cut o') :
    o' = o ∨ ∃ n, o = .exhausted n ∧ n.events <:+ o'.machine.events := by
  cases h with
  | same o => exact .inl rfl
  | short events => exact .inr ⟨_, rfl, events⟩

theorem shown {o o' : Outcome α} (h : o.Cut o') : o.machine.events <:+ o'.machine.events := by
  cases h with
  | same o => exact List.suffix_refl _
  | short events => exact events

end Outcome.Cut

/-! ## Engines -/

/-- Two engines that differ in how far their tasks get.  What they answer at the start of an element is
no part of it. -/
structure Engine.Cut (e e' : Engine) : Prop where
  config : e'.config = e.config
  onError : e'.observer.onError = e.observer.onError
  onStep : e'.observer.onStep = e.observer.onStep
  rounds : e.rounds ≤ e'.rounds
  perform : ∀ t m, (e.perform t m).Cut (e'.perform t m)
  advances : e'.Advances

/-- An engine that performs no task. -/
def Engine.idle (e : Engine) : Engine := { e with perform := fun _ m => .exhausted m, rounds := 0 }

theorem Engine.idle_advances (e : Engine) : e.idle.Advances := fun _ m => .refl m

theorem Engine.Advances.idle_cut (h : e.Advances) : e.idle.Cut e :=
  { config := rfl
    onError := rfl
    onStep := rfl
    rounds := Nat.zero_le _
    perform := fun t m => .short (h t m).events
    advances := h }

theorem Engine.Cut.idle (h : e.Cut e') : e.idle.Cut e' :=
  { h with
    rounds := Nat.zero_le _
    perform := fun t m => .short (h.advances t m).events }

/-! ## Sequences and loops -/

/-- What goes on behind a computation that may have been cut short. -/
theorem bind_cut {f : α → Script β} (hx : (x e m).Cut (x e' m))
    (hf : ∀ a n, (f a e n).Cut (f a e' n)) (hafter : ∀ a (n : Machine), n.After (f a e' n).machine) :
    (Script.bind x f e m).Cut (Script.bind x f e' m) := by
  unfold Script.bind
  generalize x e m = o at hx
  generalize x e' m = o' at hx
  cases hx with
  | same o =>
    cases o with
    | value a n => exact hf a n
    | abrupt c n => exact .same _
    | exhausted n => exact .same _
  | short events =>
    refine .short ?_
    cases o' with
    | value a n => exact events.trans (hafter a n).events
    | abrupt c n => exact events
    | exhausted n => exact events

theorem foldOver_cut {step : σ → β → Script σ} (hcut : ∀ s b n, (step s b e n).Cut (step s b e' n))
    (hafter : ∀ s b (n : Machine), n.After (step s b e' n).machine) (items : List β) (s : σ)
    (m : Machine) : (foldOver step items s e m).Cut (foldOver step items s e' m) := by
  induction items generalizing s m with
  | nil => exact .same _
  | cons b rest ih =>
    exact bind_cut (x := step s b) (f := fun s => foldOver step rest s) (hcut s b m) ih
      fun s n => Composed.foldOver_after hafter rest s n

theorem foldOverUntil_cut {step : σ → β → Script (Sum σ σ)}
    (hcut : ∀ s b n, (step s b e n).Cut (step s b e' n))
    (hafter : ∀ s b (n : Machine), n.After (step s b e' n).machine) (items : List β) (s : σ)
    (m : Machine) : (foldOverUntil step items s e m).Cut (foldOverUntil step items s e' m) := by
  induction items generalizing s m with
  | nil => exact .same _
  | cons b rest ih =>
    have hfirst := hcut s b m
    have hlater := hafter s b m
    unfold foldOverUntil
    generalize step s b e m = o at hfirst
    generalize step s b e' m = o' at hfirst hlater
    cases hfirst with
    | same o =>
      cases o with
      | value r n =>
        cases r with
        | inl s' => exact ih s' n
        | inr s' => exact .same _
      | abrupt c n => exact .same _
      | exhausted n => exact .same _
    | short events =>
      refine .short ?_
      cases o' with
      | value r n =>
        cases r with
        | inl s' => exact events.trans (Composed.foldOverUntil_after hafter rest s' n).events
        | inr s' => exact events
      | abrupt c n => exact events
      | exhausted n => exact events

/-- More rounds may be run under a larger bound. -/
theorem iterateUpTo_cut {round : σ → Script (Sum σ α)} (hcut : ∀ s n, (round s e n).Cut (round s e' n))
    (hafter : ∀ s (n : Machine), n.After (round s e' n).machine) {limit limit' : Nat} (h : limit ≤ limit')
    (s : σ) (m : Machine) : (iterateUpTo round limit s e m).Cut (iterateUpTo round limit' s e' m) := by
  induction limit generalizing limit' s m with
  | zero => exact .short (Composed.iterateUpTo_after hafter limit' s m).events
  | succ limit ih =>
    obtain ⟨rest, rfl⟩ : ∃ rest, limit' = rest + 1 := ⟨limit' - 1, by omega⟩
    have hrest : limit ≤ rest := by omega
    have hfirst := hcut s m
    unfold iterateUpTo
    generalize round s e m = o at hfirst
    generalize round s e' m = o' at hfirst
    cases hfirst with
    | same o =>
      cases o with
      | value r n =>
        cases r with
        | inl s' => exact ih hrest s' n
        | inr a => exact .same _
      | abrupt c n => exact .same _
      | exhausted n => exact .same _
    | short events =>
      refine .short ?_
      cases o' with
      | value r n =>
        cases r with
        | inl s' => exact events.trans (Composed.iterateUpTo_after hafter rest s' n).events
        | inr a => exact events
      | abrupt c n => exact events
      | exhausted n => exact events

theorem afterwards_cut {g : Machine → Machine} (h : (x e m).Cut (x e' m))
    (hevents : ∀ n, (g n).events = n.events) : (afterwards x g e m).Cut (afterwards x g e' m) := by
  unfold afterwards
  obtain heq | ⟨n, hn, hshown⟩ := h.alternatives
  · exact heq ▸ .same _
  · rw [hn]
    refine .short ?_
    show (g n).events <:+ _
    rw [hevents]
    cases ho : x e' m <;> rw [ho] at hshown <;> refine hshown.trans ?_ <;> exact hevents _ ▸ List.suffix_refl _

/-! ## Composed computations -/

namespace Composed

/-- A composed computation ends alike under two engines, or is cut short under the first one. -/
theorem cut (h : Composed α x) (he : e.Cut e') (m : Machine) : (x e m).Cut (x e' m) := by
  induction h generalizing m with
  | pure a => exact .same _
  | bind _ hf first next => exact bind_cut (first m) next fun a n => (hf a).after he.advances n
  | abrupt c => exact .same _
  | act f g _ => exact .same _
  | ask f same =>
    refine .of_eq ?_
    show Outcome.value (f e'.observer m) m = .value (f e.observer m) m
    rw [same _ _ m he.onError he.onStep]
  | config =>
    refine .of_eq ?_
    show Outcome.value e'.config m = .value e.config m
    rw [he.config]
  | log level text =>
    refine .of_eq ?_
    unfold Script.log
    rw [he.config]
  | perform t => exact he.perform t m
  | @attempt x _ body =>
    unfold Script.attempt
    obtain heq | ⟨n, hn, hevents⟩ := (body m).alternatives
    · exact heq ▸ .same _
    · rw [hn]
      refine .short ?_
      cases ho : x e' m <;> rwa [ho] at hevents
  | @orElse α x _ default body =>
    unfold Script.orElse
    obtain heq | ⟨n, hn, hevents⟩ := (body m).alternatives
    · exact heq ▸ .same _
    · rw [hn]
      refine .short ?_
      cases ho : x e' m <;> rwa [ho] at hevents
  | @returning x _ body =>
    unfold Script.returning
    obtain heq | ⟨n, hn, hevents⟩ := (body m).alternatives
    · exact heq ▸ .same _
    · rw [hn]
      refine .short ?_
      cases ho : x e' m with
      | abrupt c n => cases c <;> rwa [ho] at hevents
      | _ => rwa [ho] at hevents
  | afterwards _ g habreast body => exact afterwards_cut (body m) fun n => (habreast n).events
  | fold hsteps items s steps =>
    exact foldOver_cut steps (fun s b n => (hsteps s b).after he.advances n) items s m
  | foldUntil hsteps items s steps =>
    exact foldOverUntil_cut steps (fun s b n => (hsteps s b).after he.advances n) items s m
  | iterate hrounds _ s rounds =>
    exact iterateUpTo_cut rounds (fun s n => (hrounds s).after he.advances n) he.rounds s m

/-- A computation that ends without performing a task ends so however tasks are performed. -/
theorem at_once (h : Composed α x) (hends : ∀ n, x e.idle m ≠ .exhausted n) (he : e.idle.Cut e') :
    x e' m = x e.idle m := by
  obtain heq | ⟨n, hn, -⟩ := (h.cut he m).alternatives
  · exact heq
  · exact absurd hn (hends n)

end Composed

end PageScript
