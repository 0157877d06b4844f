import PageScript.Proofs.Simulation

/-! # Rules for simulations

How facts on two computations are put together along the ways in which computations are: sequences,
loops, endings that are taken up, and parts whose start is taken back at their end.
-/

set_option autoImplicit false

namespace PageScript.Simulation

variable {S : Simulation} {α β σ : Type} {k : Course} {p q : Pairing} {V : Matching α}
  {W : Matching β} {U : Matching σ} {a b c stop : Phase} {js js' : List Jump} {g : S.Ghost}

/-! ## Endings -/

theorem Allows.mono {c : Abrupt} (h : S.Allows js c) (hjs : js ⊆ js') : S.Allows js' c :=
  fun j hj => (h j hj).imp_right fun h => hjs h

theorem allows_thrown (v : Value) : S.Allows js (.thrown v) := fun _ h => nomatch h

theorem allows_stopped : S.Allows js .stopped := fun _ h => nomatch h

namespace Ends

variable {o o' : Outcome α}

theorem mono (hjs : js ⊆ js') (h : S.Ends ⟨b, stop, js⟩ g p V o o') :
    S.Ends ⟨b, stop, js'⟩ g p V o o' := by
  cases h with
  | value hq hv hm => exact .value hq hv hm
  | abrupt hq hc hj hm => exact .abrupt hq hc (hj.mono hjs) hm
  | exhausted h => exact .exhausted h

theorem halt (h : S.Ends ⟨b, .going, js⟩ g p V o o') :
    S.Ends ⟨b, .halting, js⟩ g p V o o' := by
  cases h with
  | value hq hv hm => exact .value hq hv hm
  | @abrupt q c _ _ _ hq hc hj hm =>
    refine .abrupt hq hc hj ?_
    cases c with
    | stopped => exact S.halt hm
    | _ => exact hm
  | exhausted h => exact .exhausted h

theorem lift (hpq : p ≤ q) (h : S.Ends k g q V o o') : S.Ends k g p V o o' := by
  cases h with
  | value hq hv hm => exact .value (hpq.trans hq) hv hm
  | abrupt hq hc hj hm => exact .abrupt (hpq.trans hq) hc hj hm
  | exhausted h => exact .exhausted h

theorem weaken {U : Matching α} (hVU : ∀ q v v', V q v v' → U q v v') (h : S.Ends k g p V o o') :
    S.Ends k g p U o o' := by
  cases h with
  | value hq hv hm => exact .value hq (hVU _ _ _ hv) hm
  | abrupt hq hc hj hm => exact .abrupt hq hc hj hm
  | exhausted h => exact .exhausted h

/-- What follows a computation may depend on the machines at its start. -/
theorem bind {x x' : Script α} {f f' : α → Script β} {e e' : Engine} {m m' : Machine}
    (hx : S.Ends ⟨b, stop, js⟩ g p V (x e m) (x' e' m'))
    (hf : ∀ q v v' n n', p ≤ q → V q v v' → x e m = .value v n → S.inv b g q n n' →
      S.Ends ⟨c, stop, js⟩ g q W (f v e n) (f' v' e' n')) :
    S.Ends ⟨c, stop, js⟩ g p W ((x >>= f) e m) ((x' >>= f') e' m') := by
  show S.Ends _ g p W (Script.bind x f e m) (Script.bind x' f' e' m')
  unfold Script.bind
  generalize hxm : x e m = o at hx
  generalize x' e' m' = o' at hx
  cases hx with
  | value hq hv hn => exact (hf _ _ _ _ _ hq hv hxm hn).lift hq
  | abrupt hq hc hj hn => exact .abrupt hq hc hj hn
  | exhausted h => exact .exhausted h

end Ends

/-! ## Within a part of a run -/

theorem Runs.weaken {U : Matching α} {x x' : Script α} (hVU : ∀ q v v', V q v v' → U q v v')
    (h : S.Runs a k p V x x') : S.Runs a k p U x x' :=
  ⟨fun e e' he g m m' hm => (h.ends e e' he g m m' hm).weaken hVU⟩

theorem Runs.within {x x' : Script α} (h : S.Runs a k p V x x') (g : S.Ghost) :
    S.RunsAt g a k p V x x' := ⟨fun e e' he m m' hm => h.ends e e' he g m m' hm⟩

theorem Runs.of_within {x x' : Script α} (h : ∀ g, S.RunsAt g a k p V x x') : S.Runs a k p V x x' :=
  ⟨fun e e' he g m m' hm => (h g).ends e e' he m m' hm⟩

namespace RunsAt

theorem bind {x x' : Script α} {f f' : α → Script β} (hx : S.RunsAt g a ⟨b, stop, js⟩ p V x x')
    (hf : ∀ q, p ≤ q → ∀ v v', V q v v' → S.RunsAt g b ⟨c, stop, js⟩ q W (f v) (f' v')) :
    S.RunsAt g a ⟨c, stop, js⟩ p W (x >>= f) (x' >>= f') :=
  ⟨fun e e' he m m' hm => (hx.ends e e' he m m' hm).bind fun q v v' n n' hq hv _ hn =>
    (hf q hq v v' hv).ends e e' he n n' hn⟩

theorem read_bind {f f' : Machine → α} {x x' : α → Script β}
    (h : ∀ {m m'}, S.inv a g p m m' → V p (f m) (f' m'))
    (hx : ∀ v v', V p v v' → S.RunsAt g a ⟨b, stop, js⟩ p W (x v) (x' v')) :
    S.RunsAt g a ⟨b, stop, js⟩ p W (Script.read f >>= x) (Script.read f' >>= x') :=
  ⟨fun e e' he m m' hm => (hx _ _ (h hm)).ends e e' he m m' hm⟩

theorem ask_bind {f : Observer → Machine → α} {x x' : α → Script β}
    (h : ∀ {e e' m m'}, S.Agree e e' → S.inv a g p m m' → f e.observer m = f e'.observer m')
    (hx : ∀ v, S.RunsAt g a ⟨b, stop, js⟩ p W (x v) (x' v)) :
    S.RunsAt g a ⟨b, stop, js⟩ p W (Script.ask f >>= x) (Script.ask f >>= x') := by
  refine ⟨fun e e' he m m' hm => ?_⟩
  show S.Ends _ g p W (x (f e.observer m) e m) (x' (f e'.observer m') e' m')
  rw [h he hm]
  exact (hx _).ends e e' he m m' hm

theorem modify {f f' : Machine → Machine}
    (h : ∀ {m m'}, S.inv a g p m m' → S.inv b g p (f m) (f' m')) :
    S.RunsAt g a ⟨b, stop, js⟩ p .same (Script.modify f) (Script.modify f') :=
  ⟨fun _ _ _ _ _ hm => .value (le_refl p) rfl (h hm)⟩

theorem attempt_bind {x x' : Script Value} {f f' : Completion → Script β} {d : Phase}
    (hx : S.RunsAt g a ⟨b, d, js'⟩ p Value.Matches x x')
    (hvalue : ∀ q, p ≤ q → ∀ v v', Value.Matches q v v' →
      S.RunsAt g b ⟨c, stop, js⟩ q W (f (.normal v)) (f' (.normal v')))
    (habrupt : ∀ q, p ≤ q → ∀ i i', Abrupt.Matches q i i' → S.Allows js' i →
      S.RunsAt g (Course.abrupt ⟨b, d, js'⟩ i) ⟨c, stop, js⟩ q W (f (.abrupt i)) (f' (.abrupt i'))) :
    S.RunsAt g a ⟨c, stop, js⟩ p W (Script.attempt x >>= f) (Script.attempt x' >>= f') := by
  refine ⟨fun e e' he m m' hm => ?_⟩
  have h := hx.ends e e' he m m' hm
  show S.Ends _ g p W (Script.bind (Script.attempt x) f e m) (Script.bind (Script.attempt x') f' e' m')
  unfold Script.bind Script.attempt
  generalize x e m = o at h
  generalize x' e' m' = o' at h
  cases h with
  | value hq hv hn => exact ((hvalue _ hq _ _ hv).ends e e' he _ _ hn).lift hq
  | abrupt hq hc hj hn => exact ((habrupt _ hq _ _ hc hj).ends e e' he _ _ hn).lift hq
  | exhausted h => exact .exhausted h

theorem widen {x x' : Script α} (h : S.RunsAt g a ⟨b, stop, js⟩ p V x x') (hjs : js ⊆ js') :
    S.RunsAt g a ⟨b, stop, js'⟩ p V x x' :=
  ⟨fun e e' he m m' hm => (h.ends e e' he m m' hm).mono hjs⟩

/-- What is done at the start of a part of a run is taken back at its end. -/
theorem afterwards {x x' : Script α} {leave leave' : Machine → Machine} {g' : S.Ghost}
    (hx : S.RunsAt g' a k p V x x')
    (hleave : ∀ {ph q n n'}, p ≤ q → S.inv ph g' q n n' → S.inv ph g q (leave n) (leave' n'))
    (hspent : ∀ {n n'}, S.spent g' n n' → S.spent g (leave n) (leave' n'))
    {e e' : Engine} (he : S.Agree e e') {m m' : Machine} (hm : S.inv a g' p m m') :
    S.Ends k g p V (Script.afterwards x leave e m) (Script.afterwards x' leave' e' m') := by
  have h := hx.ends e e' he m m' hm
  unfold Script.afterwards
  generalize x e m = o at h
  generalize x' e' m' = o' at h
  cases h with
  | value hq hv hn => exact .value hq hv (hleave hq hn)
  | abrupt hq hc hj hn => exact .abrupt hq hc hj (hleave hq hn)
  | exhausted h => exact .exhausted (hspent h)

theorem returning {x x' : Script Value}
    (hx : S.RunsAt g .going (.leaving js') p Value.Matches x x')
    (hjs : ∀ j ∈ js', j = .returned ∨ S.stray j) :
    S.RunsAt g .going (.leaving js) p Value.Matches (Script.returning x) (Script.returning x') := by
  refine ⟨fun e e' he m m' hm => ?_⟩
  have h := hx.ends e e' he m m' hm
  unfold Script.returning
  generalize x e m = o at h
  generalize x' e' m' = o' at h
  cases h with
  | value hq hv hn => exact .value hq hv hn
  | @abrupt q c _ _ _ hq hc hj hn =>
    have hallow : c.jump? ≠ some .returned → S.Allows js c := fun hne j hj' => by
      refine (hj j hj').elim .inl fun hmem => ?_
      refine (hjs j hmem).elim (fun he => ?_) .inl
      exact absurd (he ▸ hj') hne
    cases hc with
    | returned hv => exact .value hq hv hn
    | thrown hv => exact .abrupt hq (.thrown hv) (allows_thrown _) hn
    | broken l => exact .abrupt hq (.broken l) (hallow fun h => nomatch h) hn
    | continued l => exact .abrupt hq (.continued l) (hallow fun h => nomatch h) hn
    | stopped => exact .abrupt hq .stopped allows_stopped hn
  | exhausted h => exact .exhausted h

end RunsAt

namespace Runs

theorem widen {x x' : Script α} (h : S.Runs a ⟨b, stop, js⟩ p V x x') (hjs : js ⊆ js') :
    S.Runs a ⟨b, stop, js'⟩ p V x x' :=
  ⟨fun e e' he g m m' hm => (h.ends e e' he g m m' hm).mono hjs⟩

theorem halt {x x' : Script α} (h : S.Runs a ⟨b, .going, js⟩ p V x x') :
    S.Runs a ⟨b, .halting, js⟩ p V x x' :=
  ⟨fun e e' he g m m' hm => (h.ends e e' he g m m' hm).halt⟩

theorem start {x x' : Script α} (hab : ∀ {g m m'}, S.inv a g p m m' → S.inv b g p m m')
    (h : S.Runs b k p V x x') : S.Runs a k p V x x' :=
  ⟨fun e e' he g m m' hm => h.ends e e' he g m m' (hab hm)⟩

theorem map_value {V' : Matching α} {x x' : Script α} (h : S.Runs a k p V x x')
    (hV : ∀ q, p ≤ q → ∀ v v', V q v v' → V' q v v') : S.Runs a k p V' x x' := by
  refine ⟨fun e e' he g m m' hm => ?_⟩
  have h := h.ends e e' he g m m' hm
  generalize x e m = o at h
  generalize x' e' m' = o' at h
  cases h with
  | value hq hv hm => exact .value hq (hV _ hq _ _ hv) hm
  | abrupt hq hc hj hm => exact .abrupt hq hc hj hm
  | exhausted h => exact .exhausted h

/-! ## Sequences -/

theorem pure {x x' : α} (h : V p x x') :
    S.Runs a ⟨a, stop, js⟩ p V (Pure.pure x : Script α) (Pure.pure x') :=
  ⟨fun _ _ _ _ _ _ hm => .value (le_refl p) h hm⟩

theorem bind {x x' : Script α} {f f' : α → Script β} (hx : S.Runs a ⟨b, stop, js⟩ p V x x')
    (hf : ∀ q, p ≤ q → ∀ v v', V q v v' → S.Runs b ⟨c, stop, js⟩ q W (f v) (f' v')) :
    S.Runs a ⟨c, stop, js⟩ p W (x >>= f) (x' >>= f') :=
  .of_within fun g => (hx.within g).bind fun q hq v v' hv => (hf q hq v v' hv).within g

theorem map {x x' : Script α} {f f' : α → β} (hx : S.Runs a ⟨b, stop, js⟩ p V x x')
    (hf : ∀ q, p ≤ q → ∀ v v', V q v v' → W q (f v) (f' v')) :
    S.Runs a ⟨b, stop, js⟩ p W (f <$> x) (f' <$> x') :=
  hx.bind fun q hq v v' hv => .pure (hf q hq v v' hv)

theorem read {f f' : Machine → α}
    (h : ∀ {g m m'}, S.inv a g p m m' → V p (f m) (f' m')) :
    S.Runs a ⟨a, stop, js⟩ p V (Script.read f) (Script.read f') :=
  ⟨fun _ _ _ _ _ _ hm => .value (le_refl p) (h hm) hm⟩

theorem read_bind {f f' : Machine → α} {x x' : α → Script β}
    (h : ∀ {g m m'}, S.inv a g p m m' → V p (f m) (f' m'))
    (hx : ∀ v v', V p v v' → S.Runs a ⟨b, stop, js⟩ p W (x v) (x' v')) :
    S.Runs a ⟨b, stop, js⟩ p W (Script.read f >>= x) (Script.read f' >>= x') :=
  .of_within fun g => .read_bind h fun v v' hv => (hx v v' hv).within g

theorem ask_bind {f : Observer → Machine → α} {x x' : α → Script β}
    (h : ∀ {e e' g m m'}, S.Agree e e' → S.inv a g p m m' → f e.observer m = f e'.observer m')
    (hx : ∀ v, S.Runs a ⟨b, stop, js⟩ p W (x v) (x' v)) :
    S.Runs a ⟨b, stop, js⟩ p W (Script.ask f >>= x) (Script.ask f >>= x') :=
  .of_within fun g => .ask_bind h fun v => (hx v).within g

theorem config_bind {f f' : Config → Script β}
    (hf : ∀ e e', S.Agree e e' → S.Runs a ⟨b, stop, js⟩ p W (f e.config) (f' e'.config)) :
    S.Runs a ⟨b, stop, js⟩ p W (Script.config >>= f) (Script.config >>= f') :=
  ⟨fun e e' he g m m' hm => (hf e e' he).ends e e' he g m m' hm⟩

/-! ## Abrupt completions -/

theorem abrupt {d d' : Abrupt} (h : Abrupt.Matches p d d') (hj : S.Allows js d) (hd : d ≠ .stopped) :
    S.Runs .going ⟨b, stop, js⟩ p V (Script.abrupt d) (Script.abrupt d') := by
  refine ⟨fun e e' he g m m' hm => .abrupt (le_refl p) h hj ?_⟩
  cases d with
  | stopped => exact absurd rfl hd
  | _ => exact hm

theorem stopped : S.Runs a ⟨b, a, js⟩ p V (Script.abrupt .stopped) (Script.abrupt .stopped) :=
  ⟨fun _ _ _ _ _ _ hm => .abrupt (le_refl p) .stopped allows_stopped hm⟩

theorem thrown {v v' : Value} (h : Value.Matches p v v') :
    S.Runs .going ⟨b, stop, js⟩ p V (Script.abrupt (.thrown v)) (Script.abrupt (.thrown v')) :=
  .abrupt (.thrown h) (allows_thrown v) (fun h => nomatch h)

/-! ## Tasks and the heap -/

theorem perform {t t' : Task} (h : S.Poses p t t') (ht : ∀ s labels, t ≠ .statement s labels) :
    S.Follows js p Value.Matches (Script.perform t) (Script.perform t') := by
  refine ⟨fun e e' he g m m' hm => ?_⟩
  have ho := he.performs p t t' h g m m' hm
  cases t with
  | statement s labels => exact absurd rfl (ht s labels)
  | _ => exact ho.mono (List.nil_subset js)

theorem statement {s : Statement} (labels : List String) (h : S.Sound s.trees) :
    S.Runs .going ⟨.going, .going, s.jumps labels⟩ p Value.Matches
      (Script.perform (.statement s labels)) (Script.perform (.statement s labels)) :=
  ⟨fun _ _ he g m m' hm => he.performs p _ _ (.statement labels h) g m m' hm⟩

theorem evaluate {e : Expression} (h : S.Sound e.trees) :
    S.Follows js p Value.Matches (Script.evaluate e) (Script.evaluate e) :=
  .perform (.expression h) fun _ _ h => nomatch h

theorem runInner {s : Statement} (h : S.Sound s.trees) :
    S.Follows (s.jumps []) p Value.Matches (Script.runInner s) (Script.runInner s) :=
  (statement [] h).halt

theorem modify {f f' : Machine → Machine}
    (h : ∀ {g m m'}, S.inv a g p m m' → S.inv b g p (f m) (f' m')) :
    S.Runs a ⟨b, stop, js⟩ p .same (Script.modify f) (Script.modify f') :=
  ⟨fun _ _ _ _ _ _ hm => .value (le_refl p) rfl (h hm)⟩

theorem modifyObject {i i' : ObjectId} {f f' : Object → Object} (hi : p.ids i i')
    (hf : Object.Edit p i i' f f') (htidy : ∀ o : Object, o.Tidy S.unique → (f o).Tidy S.unique) :
    S.Runs .going ⟨.going, stop, js⟩ p .same (Script.modifyObject i f)
      (Script.modifyObject i' f') :=
  .modify fun hm => S.edit hm hi hf fun _ o _ => htidy o

theorem fill {i i' : ObjectId} {f f' : Object → Object} (hi : p.ids i i') (hmade : S.made i)
    (hf : Object.Fill p f f') (htidy : ∀ o : Object, o.Tidy S.unique → (f o).Tidy S.unique) :
    S.Runs .going ⟨.going, stop, js⟩ p .same (Script.modifyObject i f)
      (Script.modifyObject i' f') :=
  .modify fun hm => S.fill hm hi hmade hf fun _ o _ => htidy o

theorem alloc_made {o o' : Object} (ho : Object.Matches p o o') (hnew : o.Ordinary)
    (hcode : ∀ tree scope, o.callable = some (.script tree scope) → S.Sound tree.trees) :
    S.Runs .going ⟨.going, stop, js⟩ p S.Made (Script.alloc o) (Script.alloc o') := by
  refine ⟨fun e e' he g m m' hm => ?_⟩
  obtain ⟨q, hq, hid, hn⟩ := S.alloc hm ho hnew fun tree scope hc => (hcode tree scope hc).trees
  exact .value hq ⟨hid, S.makes o hm⟩ hn

theorem alloc {o o' : Object} (ho : Object.Matches p o o') (hnew : o.Ordinary)
    (hcode : ∀ tree scope, o.callable = some (.script tree scope) → S.Sound tree.trees) :
    S.Runs .going ⟨.going, stop, js⟩ p .id (Script.alloc o) (Script.alloc o') :=
  (alloc_made ho hnew hcode).weaken fun _ _ _ h => h.1

theorem alloc_plain {o o' : Object} (ho : Object.Matches p o o') (hnew : o.Ordinary)
    (hc : o.callable = none) :
    S.Runs .going ⟨.going, stop, js⟩ p .id (Script.alloc o) (Script.alloc o') :=
  .alloc ho hnew fun tree scope h => by rw [hc] at h; cases h

theorem alloc_empty {i j : ObjectId} (h : p.ids i j) :
    S.Runs .going ⟨.going, stop, js⟩ p S.Made (Script.alloc (.empty (some i)))
      (Script.alloc (.empty (some j))) :=
  .alloc_made (.empty (.some h)) (Object.ordinary_empty _) nofun

theorem emit (event : Event) (h : event.isReport = false) :
    S.Runs a ⟨a, stop, js⟩ p .same (Script.emit event) (Script.emit event) :=
  .modify fun hm => S.see event h hm

theorem log {level : LogLevel} {text text' : Machine → String}
    (h : ∀ {g m m'}, S.inv a g p m m' → text m = text' m') :
    S.Runs a ⟨a, stop, js⟩ p .same (Script.log level text) (Script.log level text') := by
  refine ⟨fun e e' he g m m' hm => ?_⟩
  unfold Script.log
  rw [he.verbosity, h hm]
  split
  · exact .value (le_refl p) rfl (S.see _ rfl hm)
  · exact .value (le_refl p) rfl hm

/-! ## Loops -/

theorem fold {step step' : σ → β → Script σ} {xs ys : List β} {s t : σ}
    (hxs : Matching.list W p xs ys) (hW : W.Monotone) (hs : U p s t)
    (hstep : ∀ q, p ≤ q → ∀ s t x y, U q s t → W q x y →
      S.Follows js q U (step s x) (step' t y)) :
    S.Follows js p U (Script.fold step xs s) (Script.fold step' ys t) := by
  refine ⟨fun e e' he g m m' hm => ?_⟩
  show S.Ends _ g p U (Script.foldOver step xs s e m) (Script.foldOver step' ys t e' m')
  induction xs generalizing p ys s t m m' with
  | nil =>
    cases hxs
    exact .value (le_refl p) hs hm
  | cons x xs ih =>
    obtain ⟨y, ys, rfl, hx, hrest⟩ := Matching.list_cons hxs
    have h := (hstep p (le_refl p) s t x y hs hx).ends e e' he g m m' hm
    unfold Script.foldOver
    generalize step s x e m = o at h
    generalize step' t y e' m' = o' at h
    cases h with
    | value hq hv hn =>
      exact (ih (Matching.list_mono hW hq hrest) hv
        (fun r hr => hstep r (hq.trans hr)) _ _ hn).lift hq
    | abrupt hq hc hj hn => exact .abrupt hq hc hj hn
    | exhausted h => exact .exhausted h

theorem foldUntil {step step' : σ → β → Script (Sum σ σ)} {xs ys : List β} {s t : σ}
    (hxs : Matching.list W p xs ys) (hW : W.Monotone) (hs : U p s t)
    (hstep : ∀ q, p ≤ q → ∀ s t x y, U q s t → W q x y →
      S.Follows js q (.either U U) (step s x) (step' t y)) :
    S.Follows js p U (Script.foldUntil step xs s) (Script.foldUntil step' ys t) := by
  refine ⟨fun e e' he g m m' hm => ?_⟩
  show S.Ends _ g p U (Script.foldOverUntil step xs s e m) (Script.foldOverUntil step' ys t e' m')
  induction xs generalizing p ys s t m m' with
  | nil =>
    cases hxs
    exact .value (le_refl p) hs hm
  | cons x xs ih =>
    obtain ⟨y, ys, rfl, hx, hrest⟩ := Matching.list_cons hxs
    have h := (hstep p (le_refl p) s t x y hs hx).ends e e' he g m m' hm
    unfold Script.foldOverUntil
    generalize step s x e m = o at h
    generalize step' t y e' m' = o' at h
    cases h with
    | value hq hv hn =>
      cases hv with
      | inl hv =>
        exact (ih (Matching.list_mono hW hq hrest) hv
          (fun r hr => hstep r (hq.trans hr)) _ _ hn).lift hq
      | inr hv => exact .value hq hv hn
    | abrupt hq hc hj hn => exact .abrupt hq hc hj hn
    | exhausted h => exact .exhausted h

theorem each {f f' : β → Script α} {xs ys : List β} (hxs : Matching.list W p xs ys)
    (hW : W.Monotone) (hV : V.Monotone)
    (hf : ∀ q, p ≤ q → ∀ x y, W q x y → S.Follows js q V (f x) (f' y)) :
    S.Follows js p (.list V) (Script.each f xs) (Script.each f' ys) := by
  have hfold : S.Follows js p (.list V) (Script.fold (fun done x => do return (← f x) :: done) xs [])
      (Script.fold (fun done x => do return (← f' x) :: done) ys []) :=
    fold hxs hW .nil fun q hq s t x y hs hx => (hf q hq x y hx).bind fun r hr v v' hv =>
      .pure (.cons hv (Matching.list_mono hV hr hs))
  exact hfold.bind fun q _ v v' hv => .pure (Matching.list_reverse hv)

theorem iterate {round round' : σ → Script (Sum σ α)} {s t : σ} (hs : U p s t)
    (hround : ∀ q, p ≤ q → ∀ s t, U q s t →
      S.Follows js q (.either U V) (round s) (round' t)) :
    S.Follows js p V (Script.iterate round s) (Script.iterate round' t) := by
  refine ⟨fun e e' he g m m' hm => ?_⟩
  show S.Ends _ g p V (Script.iterateUpTo round e.rounds s e m)
    (Script.iterateUpTo round' e'.rounds t e' m')
  rw [← he.rounds]
  generalize e.rounds = limit
  induction limit generalizing p s t m m' with
  | zero => exact .exhausted (S.spend hm)
  | succ limit ih =>
    have h := (hround p (le_refl p) s t hs).ends e e' he g m m' hm
    unfold Script.iterateUpTo
    generalize round s e m = o at h
    generalize round' t e' m' = o' at h
    cases h with
    | value hq hv hn =>
      cases hv with
      | inl hv => exact (ih hv (fun r hr => hround r (hq.trans hr)) _ _ hn).lift hq
      | inr hv => exact .value hq hv hn
    | abrupt hq hc hj hn => exact .abrupt hq hc hj hn
    | exhausted h => exact .exhausted h

/-! ## Endings that are taken up -/

theorem attempt_bind {x x' : Script Value} {f f' : Completion → Script β} {d : Phase}
    (hx : S.Runs a ⟨b, d, js'⟩ p Value.Matches x x')
    (hvalue : ∀ q, p ≤ q → ∀ v v', Value.Matches q v v' →
      S.Runs b ⟨c, stop, js⟩ q W (f (.normal v)) (f' (.normal v')))
    (habrupt : ∀ q, p ≤ q → ∀ i i', Abrupt.Matches q i i' → S.Allows js' i →
      S.Runs (Course.abrupt ⟨b, d, js'⟩ i) ⟨c, stop, js⟩ q W (f (.abrupt i)) (f' (.abrupt i'))) :
    S.Runs a ⟨c, stop, js⟩ p W (Script.attempt x >>= f) (Script.attempt x' >>= f') :=
  .of_within fun g => (hx.within g).attempt_bind (fun q hq v v' hv => (hvalue q hq v v' hv).within g)
    fun q hq i i' hi hj => (habrupt q hq i i' hi hj).within g

theorem orElse {x x' : Script α} {v v' : α} (hx : S.Follows js p V x x')
    (hv : ∀ q, p ≤ q → V q v v') :
    S.Runs .going ⟨.halting, stop, js'⟩ p V (Script.orElse x v) (Script.orElse x' v') := by
  refine ⟨fun e e' he g m m' hm => ?_⟩
  have h := hx.ends e e' he g m m' hm
  unfold Script.orElse
  generalize x e m = o at h
  generalize x' e' m' = o' at h
  cases h with
  | value hq hv hn => exact .value hq hv (S.halt hn)
  | @abrupt q c _ _ _ hq hc hj hn =>
    refine .value hq (hv q hq) ?_
    cases c with
    | stopped => exact hn
    | _ => exact S.halt hn
  | exhausted h => exact .exhausted h

theorem bracket {x x' : Script α} {enter enter' leave leave' : Machine → Machine}
    (hb : Bracket p enter enter' leave leave') (hx : S.Follows js p V x x') :
    S.Follows js p V (Script.modify enter >>= fun _ => Script.afterwards x leave)
      (Script.modify enter' >>= fun _ => Script.afterwards x' leave') := by
  refine ⟨fun e e' he g m m' hm => ?_⟩
  obtain ⟨g', henter, hleave, hspent⟩ := S.bracket hb hm
  exact (hx.within g').afterwards hleave hspent he henter

/-- A call, where it is not nested too deeply. -/
theorem call_bracket {x x' : Script α} {limit : Nat} (hlimit : S.depth limit)
    (hx : ∀ g, S.room g 2 → S.RunsAt g .going (.leaving js) p V x x') {e e' : Engine}
    (he : S.Agree e e') {g : S.Ghost} {m m' : Machine} (hm : S.inv .going g p m m')
    (hdepth : m.callDepth < limit) :
    S.Ends (.leaving js) g p V
      ((Script.modify (fun m => { m with callDepth := m.callDepth + 1 }) >>= fun _ =>
        Script.afterwards x fun m => { m with callDepth := m.callDepth - 1 }) e m)
      ((Script.modify (fun m => { m with callDepth := m.callDepth + 1 }) >>= fun _ =>
        Script.afterwards x' fun m => { m with callDepth := m.callDepth - 1 }) e' m') := by
  obtain ⟨g', hroom, henter, hleave, hspent⟩ := S.call hlimit hdepth hm
  exact (hx g' hroom).afterwards hleave hspent he henter

theorem statement_bracket (s : Statement) {x x' : Script α}
    (hx : ∀ g, S.inside g s → S.RunsAt g .going ⟨.going, .going, js⟩ p V x x') :
    S.Runs .going ⟨.going, .going, js⟩ p V
      (Script.modify (Machine.enter s) >>= fun _ => Script.afterwards x Machine.leave)
      (Script.modify (Machine.enter s) >>= fun _ => Script.afterwards x' Machine.leave) := by
  refine ⟨fun e e' he g m m' hm => ?_⟩
  obtain ⟨g', hinside, henter, hleave, hspent⟩ := S.statement s hm
  have h := (hx g' hinside).ends e e' he _ _ henter
  show S.Ends _ g p V (Script.afterwards x Machine.leave e (m.enter s))
    (Script.afterwards x' Machine.leave e' (m'.enter s))
  unfold Script.afterwards
  generalize x e (m.enter s) = o at h
  generalize x' e' (m'.enter s) = o' at h
  cases h with
  | value hq hv hn => exact .value hq hv (hleave hq hn)
  | @abrupt q c _ _ _ hq hc hj hn =>
    refine .abrupt hq hc hj ?_
    cases c <;> exact hleave hq hn
  | exhausted h => exact .exhausted (hspent h)

theorem bracket_bind {x x' : Script α} {f f' : α → Script β}
    {enter enter' leave leave' : Machine → Machine} (hb : Bracket p enter enter' leave leave')
    (hx : S.Follows js p V x x')
    (hf : ∀ q, p ≤ q → ∀ v v', V q v v' → S.Follows js q W (f v) (f' v')) :
    S.Follows js p W (Script.modify enter >>= fun _ => Script.afterwards x leave >>= f)
      (Script.modify enter' >>= fun _ => Script.afterwards x' leave' >>= f') :=
  (bracket hb hx).bind hf

end Runs

end PageScript.Simulation
