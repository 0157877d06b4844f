import PageScript.Proofs.Fresh
import PageScript.Proofs.Simulation.Checked

/-! # Machines between two runs

An embedding program makes an interpreter, runs programs on it, and uses the interface in between.  An
invariant that does not depend on phases holds of every machine that it comes to in this way.
-/

set_option autoImplicit false

namespace PageScript

/-- The machines that an embedding program can come to between two runs. -/
inductive Interpreter.Reachable (may : Permit) (config : Config) (host : Host) : Machine → Prop where
  | fresh (functions : List Registration) :
      Reachable may config host (Interpreter.fresh config host functions).machine
  | run {m : Machine} {source : String} {body : List Statement}
      (parsed : Program.parse source = .ok body) (this : Option ObjectId) (withs : List ObjectId)
      (limit : Nat) (before : Reachable may config host m) :
      Reachable may config host
        (Script.runProgram body this withs (.upTo config host limit) m).machine
  | use {m : Machine} {α : Type} {V : Matching α} {x : Script α}
      (code : Foreign may .identity α V x x) (limit : Nat) (before : Reachable may config host m) :
      Reachable may config host (x (.upTo config host limit) m).machine

namespace Invariant

open Script

variable {I : Invariant} {config : Config} {host : Host} {may : Permit} {g : I.Ghost} {m : Machine}

/-- Whether an invariant does not depend on phases. -/
structure Steady (I : Invariant) : Prop where
  inv : ∀ {ph g m}, I.inv ph g m → I.inv .going g m
  spent : ∀ {g m}, I.spent g m → I.inv .going g m

theorem Ends.steady (h : I.Steady) {α : Type} {k : Course} {o : Outcome α} (ho : I.Ends k g o) :
    I.inv .going g o.machine := by
  cases ho with
  | value hm => exact h.inv hm
  | abrupt _ hm => exact h.inv hm
  | exhausted hm => exact h.spent hm

theorem register (hgrants : I.Grants may) (hfills : may.fills) (hm : I.inv .going g m) (i : Interpreter)
    (hi : i.machine = m) (name : String) (arity : Nat) (behavior : String) :
    I.inv .going g (i.register Intrinsic.globalObject name arity behavior).2.machine := by
  subst hi
  have halloc := I.alloc (o := .foreign name arity behavior) hm
    (Object.ordinary_foreign name arity behavior) nofun
  exact hgrants.fill hfills (a := Intrinsic.globalObject) halloc (.putHidden name (.ref rfl) rfl)

/-- A computation that keeps an invariant along with itself ends with it. -/
theorem ends_of_follows (h : I.Hosts config host) (htext : I.text) (hc : I.toSimulation.Contained)
    {js : List Jump} {α : Type} {V : Matching α} {x : Script α}
    (hx : I.toSimulation.Follows js .identity V x x) (limit : Nat) (hm : I.inv .going g m) :
    I.Ends (.leaving js) g (x (.upTo config host limit) m) := by
  have hperform := Simulation.performUpTo_performs h.toSimulation htext hc limit
  exact .of_simulation (hx.ends _ _ (h.toSimulation.agree hperform limit) g m m ⟨rfl, rfl, hm⟩)

theorem use (h : I.Hosts config host) (htext : I.text) (hc : I.toSimulation.Contained)
    (hgrants : I.Grants may) {js : List Jump} (hjumps : ∀ j, may.jumps j → I.stray j ∨ j ∈ js)
    {α : Type} {V : Matching α} {x : Script α} (hx : Foreign may .identity α V x x) (limit : Nat)
    (hm : I.inv .going g m) : I.Ends (.leaving js) g (x (.upTo config host limit) m) :=
  ends_of_follows h htext hc (Simulation.foreign_follows hgrants.toSimulation hjumps hx) limit hm

theorem runProgram_ends (h : I.Hosts config host) (htext : I.text) (hc : I.toSimulation.Contained)
    (hprograms : I.Programs g) (limit : Nat) {body : List Statement}
    (hs : ∀ t ∈ Statement.treesOf body, I.sound t) {this : Option ObjectId} {withs : List ObjectId}
    (hstart : ∀ e n, startRun this withs e m = .value () n → I.inv .going g n) :
    I.Ends (.leaving []) g (runProgram body this withs (.upTo config host limit) m) :=
  have hcheck : I.Ensures ⟨fun _ _ _ => True, fun _ => True⟩ :=
    ⟨fun _ _ _ => trivial, fun _ => trivial⟩
  (runProgram_checked h htext hc hcheck hprograms (.exhausted m) limit hs hstart).2

/-- A steady invariant holds of every machine that an embedding program can come to between two
runs. -/
theorem reachable (js : List Jump) (hsteady : I.Steady) (h : I.Hosts config host) (htext : I.text)
    (hc : I.toSimulation.Contained) (hgrants : I.Grants may) (hfills : may.fills)
    (hjumps : ∀ j, may.jumps j → I.stray j ∨ j ∈ js)
    (hnew : ∀ es, shown es = [] →
      ∃ g, I.inv .going g { Interpreter.initialMachine config with events := es })
    (hstart : ∀ {g m this withs}, I.inv .going g m → ∃ g', I.Programs g' ∧ ∀ e n,
      startRun this withs e m = .value () n → I.inv .going g' n)
    (hm : Interpreter.Reachable may config host m) : ∃ g, I.inv .going g m := by
  induction hm with
  | fresh functions =>
    refine Interpreter.fresh_machine (P := fun m => ∃ g, I.inv .going g m) functions hnew ?_
    rintro i name arity behavior ⟨g, hm⟩
    exact ⟨g, register hgrants hfills hm i rfl name arity behavior⟩
  | run parsed this withs limit _ ih =>
    obtain ⟨g, hm⟩ := ih
    obtain ⟨g', hprograms, hstart⟩ := hstart hm
    exact ⟨g', (runProgram_ends h htext hc hprograms limit (I.parsed parsed) hstart).steady hsteady⟩
  | use code limit _ ih =>
    obtain ⟨g, hm⟩ := ih
    exact ⟨g, (use h htext hc hgrants hjumps code limit hm).steady hsteady⟩

end Invariant

end PageScript
