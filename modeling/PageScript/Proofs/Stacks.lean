import PageScript.Proofs.Collection.Pins
import PageScript.Proofs.Reachable

/-! # Stacks

Calls, activations, `with` entries, `try` blocks and pins are put on stacks at the start of a part of a
run, and taken off again however that part ends.  The call depth never exceeds its limit, and each call
enters two activations at most: that of a function, and one more if the function is `eval`.
-/

set_option autoImplicit false

namespace PageScript

/-! ## Balance -/

/-- Whether calls and activations are within their limits, over a sound heap. -/
structure Machine.Bounded (limit : Nat) (m : Machine) : Prop where
  sound : m.heap.Sound
  calls : m.callDepth ≤ limit
  activations : m.frames.length ≤ 1 + 2 * m.callDepth

/-- Whether a machine has the stacks that another one had, and its pins. -/
structure Machine.Balanced (m n : Machine) : Prop where
  frames : n.frames = m.frames
  callDepth : n.callDepth = m.callDepth
  tryDepth : n.tryDepth = m.tryDepth
  pins : ∀ a, n.heap.pinsAt a = m.heap.pinsAt a

/-- The stacks at the start of a part of a run.  The innermost activation need not be recorded. -/
structure Stacks where
  frame : Option Frame
  callers : List Frame
  callDepth : Nat
  tryDepth : Nat
  pins : ObjectId → Nat

/-- Whether a machine has some stacks, which are within the limits. -/
structure Stacks.At (limit : Nat) (g : Stacks) (heap : Heap) (frame : Frame) (callers : List Frame)
    (callDepth tryDepth : Nat) : Prop where
  sound : heap.Sound
  frame : ∀ f, g.frame = some f → frame = f
  callers : callers = g.callers
  callDepth : callDepth = g.callDepth
  tryDepth : tryDepth = g.tryDepth
  pins : ∀ a, heap.pinsAt a = g.pins a
  calls : g.callDepth ≤ limit
  activations : g.callers.length ≤ 2 * g.callDepth

/-- The stacks of a machine. -/
def Machine.standing (m : Machine) : Stacks :=
  ⟨some m.frame, m.callers, m.callDepth, m.tryDepth, m.heap.pinsAt⟩

namespace Stacks

variable {limit : Nat} {g : Stacks} {m n : Machine}

/-- Whether a machine has some stacks. -/
abbrev Of (limit : Nat) (g : Stacks) (m : Machine) : Prop :=
  g.At limit m.heap m.frame m.callers m.callDepth m.tryDepth

theorem Of.bounded (h : g.Of limit m) : m.Bounded limit where
  sound := h.sound
  calls := h.callDepth ▸ h.calls
  activations := by
    have hlength : m.frames.length = m.callers.length + 1 := rfl
    have hroom := h.activations
    rw [← h.callers, ← h.callDepth] at hroom
    omega

theorem of_bounded (h : m.Bounded limit) : m.standing.Of limit m where
  sound := h.sound
  frame _ hf := Option.some.inj hf
  callers := rfl
  callDepth := rfl
  tryDepth := rfl
  pins _ := rfl
  calls := h.calls
  activations := by
    have hlength : m.frames.length = m.callers.length + 1 := rfl
    have hroom := h.activations
    show m.callers.length ≤ 2 * m.callDepth
    omega

theorem Of.balanced (h : m.standing.Of limit n) : m.Balanced n where
  frames := congrArg₂ List.cons (h.frame _ rfl) h.callers
  callDepth := h.callDepth
  tryDepth := h.tryDepth
  pins := h.pins

/-! ### What goes on a stack comes off it -/

theorem Of.modify (h : g.Of limit m) (a : ObjectId) (f : Object → Object) :
    g.Of limit { m with heap := m.heap.modify a f } :=
  { h with
    sound := h.sound.modifySlot _
    pins := fun b => (Heap.pinsAt_modify f).trans (h.pins b) }

/-- The stacks with the pins of a heap. -/
def pinned (g : Stacks) (heap : Heap) : Stacks := { g with pins := heap.pinsAt }

theorem Of.pin (h : g.Of limit m) (a : ObjectId) :
    (g.pinned (m.heap.pin a)).Of limit { m with heap := m.heap.pin a } :=
  { h with sound := h.sound.modifySlot _, pins := fun _ => rfl }

theorem Of.unpin (h : g.Of limit m) {a : ObjectId} (hn : (g.pinned (m.heap.pin a)).Of limit n) :
    g.Of limit { n with heap := n.heap.unpin a } :=
  { hn with
    sound := hn.sound.modifySlot _
    pins := fun b => (Heap.pinsAt_unpin_of_pin (hn.pins b)).trans (h.pins b) }

theorem Of.popWith (h : g.Of limit m) {w : WithEntry}
    (hn : { g with frame := some { m.frame with withs := w :: m.frame.withs } }.Of limit n) :
    g.Of limit { n with frame := { n.frame with withs := n.frame.withs.tail } } := by
  refine { hn with frame := fun f hf => ?_ }
  show { n.frame with withs := n.frame.withs.tail } = f
  rw [hn.frame _ rfl]
  exact h.frame f hf

theorem Of.call (h : g.Of limit m) (hdepth : m.callDepth < limit) :
    { g with callDepth := g.callDepth + 1 }.Of limit { m with callDepth := m.callDepth + 1 } where
  sound := h.sound
  frame := h.frame
  callers := h.callers
  callDepth := congrArg (· + 1) h.callDepth
  tryDepth := h.tryDepth
  pins := h.pins
  calls := h.callDepth ▸ hdepth
  activations := by
    have hroom := h.activations
    show g.callers.length ≤ 2 * (g.callDepth + 1)
    omega

theorem Of.endCall (h : g.Of limit m) (hn : { g with callDepth := g.callDepth + 1 }.Of limit n) :
    g.Of limit { n with callDepth := n.callDepth - 1 } :=
  { hn with
    callDepth := congrArg (· - 1) hn.callDepth
    calls := h.calls
    activations := h.activations }

/-- The stacks within a new activation of a machine. -/
def within (g : Stacks) (m : Machine) (f : Frame) : Stacks :=
  { g with frame := some f, callers := m.frame :: m.callers }

theorem Of.push (h : g.Of limit m) (f : Frame) (hroom : g.callers.length + 1 ≤ 2 * g.callDepth) :
    (g.within m f).Of limit (m.push f) where
  sound := h.sound
  frame _ hf := Option.some.inj hf
  callers := rfl
  callDepth := h.callDepth
  tryDepth := h.tryDepth
  pins := h.pins
  calls := h.calls
  activations := by
    show m.callers.length + 1 ≤ 2 * g.callDepth
    rwa [h.callers]

theorem Of.pop (h : g.Of limit m) {f : Frame} (hn : (g.within m f).Of limit n) : g.Of limit n.pop := by
  have hcallers : n.callers = m.frame :: m.callers := hn.callers
  unfold Machine.pop
  rw [hcallers]
  exact { hn with frame := h.frame, callers := h.callers, activations := h.activations }

end Stacks

/-- The stacks as an invariant, for a limit to the call depth. -/
def Invariant.balance (limit : Nat) : Invariant where
  Ghost := Stacks
  inv _ := Stacks.Of limit
  spent := Stacks.Of limit
  room g k := g.callers.length + k ≤ 2 * g.callDepth
  depth n := n ≤ limit
  spend h := h
  edit h _ _ := h.modify _ _
  fill h _ _ _ := h.modify _ _
  setLength _ _ h _ := h.modify _ _
  alloc h _ _ :=
    { h with
      sound := h.sound.alloc _
      pins := fun b => (Heap.pinsAt_alloc h.sound _).trans (h.pins b) }
  pin a {g m} h := ⟨g.pinned (m.heap.pin a), h.pin a, h.unpin, h.unpin⟩
  guard {g m} h :=
    ⟨{ g with tryDepth := g.tryDepth + 1 }, { h with tryDepth := congrArg (· + 1) h.tryDepth },
      fun hn => { hn with tryDepth := congrArg (· - 1) hn.tryDepth },
      fun hn => { hn with tryDepth := congrArg (· - 1) hn.tryDepth }⟩
  withObject a {g m} h :=
    ⟨{ g with frame := some { m.frame with withs := ⟨a, false⟩ :: m.frame.withs } },
      { h with frame := fun _ hf => Option.some.inj hf }, h.popWith, h.popWith⟩
  call {g m n} hn hdepth h := by
    refine ⟨{ g with callDepth := g.callDepth + 1 }, ?_, h.call (Nat.lt_of_lt_of_le hdepth hn),
      h.endCall, h.endCall⟩
    have hroom := h.activations
    show g.callers.length + 2 ≤ 2 * (g.callDepth + 1)
    omega
  frame {g m k} f _ hroom h := by
    refine ⟨g.within m f, ?_, h.push f (by omega), h.pop, h.pop⟩
    show m.callers.length + 1 + k ≤ 2 * g.callDepth
    rw [h.callers]
    omega

/-! ## Runs -/

/-- All of the interface but for keeping objects. -/
abbrev Permit.unpinned : Permit := ⟨fun _ => True, False, True, True, True, True, True⟩

/-- Calls and activations are within their limits as each task starts, as it ends, and as each built-in
function begins; and each task leaves the stacks as it found them. -/
def Check.balance (limit : Nat) : Check where
  task _ m o := m.Bounded limit ∧ o.machine.Bounded limit ∧ m.Balanced o.machine
  native m := m.Bounded limit

namespace Invariant

variable {limit : Nat} {config : Config} {host : Host} {m : Machine}

theorem balance_steady : (balance limit).Steady := ⟨fun h => h, fun h => h⟩

theorem balance_grants : (balance limit).Grants .unpinned where
  keep h := h.elim
  protect _ _ _ a name key hm := hm.modify a _
  hook _ _ _ _ _ hm _ := hm.modify _ _
  fill _ _ _ _ _ hm _ := hm.modify _ _
  collect _ _ m hm :=
    { hm with
      sound := hm.sound.sweep _
      pins := fun a => by
        have hsame := Machine.pinsAt_collected (fun h => m.slot?_collect h) (m.slot?_collect_or a)
        exact hsame.trans (hm.pins a) }

theorem balance_hosts (hhost : host.Uses .unpinned .unpinned) :
    (balance config.maxDepth).Hosts config host where
  depth := Nat.le_refl _
  shows := trivial
  embeds := .of_uses hhost balance_grants.toSimulation balance_grants.toSimulation
    (fun _ _ => .inr trivial) fun _ _ => trivial

theorem balance_ensures : (balance limit).Ensures (.balance limit) where
  task {t m o} _ hm hends := by
    obtain ⟨g, hm⟩ := hm
    have hend : m.standing.Of limit o.machine :=
      (hends m.standing (Stacks.of_bounded (Stacks.Of.bounded hm))).steady balance_steady
    exact ⟨Stacks.Of.bounded hm, hend.bounded, hend.balanced⟩
  native hm := Stacks.Of.bounded hm

theorem balance_programs {g : Stacks} (hg : g.frame = none) : (balance limit).Programs g where
  outermost hm := { hm with frame := fun f hf => by rw [hg] at hf; cases hf }
  collect hm hreach hsub hsound _ :=
    { hm with
      sound := hsound hm.sound
      pins := fun a => (Machine.pinsAt_collected (hreach a) (hsub a)).trans (hm.pins a) }

/-- The stacks of a run that has just been started: nothing is under way. -/
def startOfRun (m : Machine) : Stacks := ⟨none, [], 0, 0, m.heap.pinsAt⟩

theorem balance_startRun (hm : m.heap.Sound) {this : Option ObjectId} {withs : List ObjectId}
    (e : Engine) {n : Machine} (hn : Script.startRun this withs e m = .value () n) :
    (startOfRun m).Of limit n := by
  cases hn
  exact ⟨hm, nofun, rfl, rfl, rfl, fun _ => rfl, Nat.zero_le _, Nat.le_refl _⟩

theorem balance_contained : (balance limit).toSimulation.Contained :=
  Simulation.contained_of_stray fun _ => trivial

end Invariant

namespace Script

variable {config : Config} {host : Host}

theorem bounded_of_reachable (hhost : host.Uses .unpinned .unpinned) {m : Machine}
    (hm : Interpreter.Reachable .unpinned config host m) : m.Bounded config.maxDepth := by
  obtain ⟨g, hg⟩ := Invariant.reachable [] Invariant.balance_steady
    (Invariant.balance_hosts hhost) trivial Invariant.balance_contained Invariant.balance_grants
    trivial (fun _ _ => .inl trivial)
    (fun es _ => ⟨_, Stacks.of_bounded ⟨Realm.heap_sound, Nat.zero_le _, Nat.le_refl _⟩⟩)
    (fun {g m this withs} hm => ⟨_, Invariant.balance_programs rfl, fun e n hn =>
      Invariant.balance_startRun (Stacks.Of.bounded hm).sound e hn⟩) hm
  exact Stacks.Of.bounded hg

/-- Every evaluation, statement, call and hook leaves the stacks and the pins as it found them, however
it ends.  In its course, and in that of every program, calls and activations are within their limits
whenever a task starts or ends or a built-in function begins, and each task is balanced.  It starts so
on every machine that an embedding program can come to. -/
theorem stacks_balanced (config : Config) (host : Host) (hhost : host.Uses .unpinned .unpinned)
    (alarm : Outcome Value) (limit : Nat) (m : Machine) :
    (m.Bounded config.maxDepth → ∀ t,
      performChecked (.balance config.maxDepth) alarm config host limit t m
          = performUpTo config host limit t m ∧
        (performUpTo config host limit t m).machine.Bounded config.maxDepth ∧
        m.Balanced (performUpTo config host limit t m).machine) ∧
    (m.Bounded config.maxDepth → ∀ body this withs,
      runProgram body this withs (.checked (.balance config.maxDepth) alarm config host limit) m
          = runProgram body this withs (.upTo config host limit) m) ∧
    (Interpreter.Reachable .unpinned config host m → m.Bounded config.maxDepth) := by
  have hhosts : (Invariant.balance config.maxDepth).Hosts config host := Invariant.balance_hosts hhost
  refine ⟨fun hm t => ?_, fun hm body this withs => ?_, bounded_of_reachable hhost⟩
  · have hrun := Invariant.perform_checked hhosts trivial Invariant.balance_contained
      Invariant.balance_ensures alarm limit (Invariant.poses_of_trees (t := t) trivial fun _ _ => trivial)
      (Stacks.of_bounded hm)
    have hend : m.standing.Of config.maxDepth _ := hrun.2.steady Invariant.balance_steady
    exact ⟨hrun.1, hend.bounded, hend.balanced⟩
  · exact (Invariant.runProgram_checked hhosts trivial Invariant.balance_contained
      Invariant.balance_ensures (Invariant.balance_programs rfl) alarm limit (fun _ _ => trivial)
      fun e n hn => Invariant.balance_startRun hm.sound e hn).1

/-- A call of the print function of a new interpreter, at the default limit to the call depth. -/
theorem stacks_balanced_printing :
    (Stock.host (Stock.scripted none [] [])).Uses .unpinned .unpinned ∧
      (Interpreter.fresh {} (Stock.host (Stock.scripted none [] []))
        [⟨"print", 1, "print"⟩]).machine.Bounded 128 ∧
      (Interpreter.fresh {} (Stock.host (Stock.scripted none [] []))
        [⟨"print", 1, "print"⟩]).machine.Balanced
          (performUpTo {} (Stock.host (Stock.scripted none [] [])) 100
            (.expression (.call (.identifier "print") [.literal (.string "text")]))
            (Interpreter.fresh {} (Stock.host (Stock.scripted none [] []))
              [⟨"print", 1, "print"⟩]).machine).machine :=
  have hhost : (Stock.host (Stock.scripted none [] [])).Uses .unpinned .unpinned := Stock.host_uses _
  have hrun := stacks_balanced {} _ hhost (.exhausted (Interpreter.initialMachine {})) 100
    (Interpreter.fresh {} _ [⟨"print", 1, "print"⟩]).machine
  have hbounded := hrun.2.2 (.fresh _)
  ⟨hhost, hbounded, (hrun.1 hbounded _).2.2⟩

end Script

end PageScript
