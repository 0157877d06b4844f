import PageScript.Proofs.Collection.Invisible
import PageScript.Proofs.Reads
import PageScript.Proofs.Vouching

/-! # Walks up chains of prototypes

On every machine that an embedding program comes to, and in the course of every run from there, a walk up the
prototypes of any live object comes to an object without a prototype, whether or not a script can still come
to the object.  A walk that looks for an object therefore needs no bound, and the one that is made here has
none that matters.
-/

set_option autoImplicit false

namespace PageScript

/-! ## Walks without a bound -/

namespace Heap

variable {h : Heap} {a ancestor : ObjectId}

end Heap

/-! ## Machines between two runs -/

/-- The machines that an embedding program comes to if it passes on live objects only: it makes an interpreter,
runs programs to their ends, uses the interface, and collects garbage. -/
inductive Interpreter.Tended (config : Config) (host : Host) : Machine → Prop where
  | new : Tended config host (Interpreter.new config host).machine
  | run {m n : Machine} {body : List Statement} {this : Option ObjectId} {withs : List ObjectId} {limit : Nat}
      {v : Value} (before : Tended config host m) (thisLive : ∀ a ∈ this, m.heap.isLive a = true)
      (withsLive : ∀ a ∈ withs, m.heap.isLive a = true)
      (ended : Script.runProgram body this withs (.upTo config host limit) m = .value v n) :
      Tended config host n
  | refused {m : Machine} (before : Tended config host m) (source : String) (e : SyntaxError) (limit : Nat) :
      Tended config host (Interpreter.showSyntaxError source e (.upTo config host limit) m).machine
  | use {m n : Machine} {x : Script Unit} {limit : Nat} (before : Tended config host m)
      (code : ∀ p, Careful p Unit .same x)
      (ended : x (.upTo config host limit) m = .value () n ∨
        ∃ c, x (.upTo config host limit) m = .abrupt c n) : Tended config host n
  | collect {m : Machine} (before : Tended config host m) (limit : Nat) :
      Tended config host (Script.collectGarbage (.upTo config host limit) m).machine

/-- A function has its prototype already, or comes to have a new plain object as its prototype. -/
theorem Grounding.prototypeOf {p : Pairing} {m m' : Machine} (h : Grounding p m m') (f : ObjectId) (e : Engine) :
    ∃ proto n, Script.prototypeOf f e m = .value proto n ∧ n.heap.Rooted := by
  have hread : Script.read (·.heap.own? f "prototype") e m = .value (m.heap.own? f "prototype") m := rfl
  unfold Script.prototypeOf
  rw [Script.bind_of_value hread]
  cases (m.heap.own? f "prototype").bind (·.value.id?) with
  | some id => exact ⟨id, m, rfl, h.rooted⟩
  | none =>
    refine ⟨_, _, rfl, ?_⟩
    refine Heap.Rooted.modify (h.rooted.alloc h.renamed.left h.live_root fun parent hparent => ?_) f
      fun _ => Object.putHidden_makeup ..
    cases (Object.proto_of_makeup (Object.putHidden_makeup ..)).symm.trans hparent
    exact h.live_root

namespace Simulation

open Script

variable {config : Config} {host : Host} {p : Pairing} {m : Machine} {α : Type} {V : Matching α} {k : Course}
  {g : tending.Ghost} {o o' : Outcome α}

theorem tending_agree (hhost : host.Careful) (limit : Nat) :
    tending.Agree (.upTo config host limit) (.upTo config host limit) :=
  (tending_hosts hhost).agree (performUpTo_performs (tending_hosts hhost) trivial
    (contained_of_stray fun _ => trivial) limit) limit

end Simulation

namespace Interpreter

variable {config : Config} {host : Host} {m : Machine}

theorem initialMachine_tending (config : Config) (es : List Event) :
    Tending Realm.pairing { initialMachine config with events := es }
      { initialMachine config with events := es } := by
  have hrenamed := Realm.initialMachine_renamed config config rfl
  have hrooted : Realm.isRooted Realm.heap = true := by decide +kernel
  exact {
    renamed := { hrenamed with matched := { hrenamed.matched with }, shown := rfl }
    same := rfl
    equal := ⟨fun _ _ h => h.1, rfl, rfl⟩
    rooted := Realm.rooted_of_isRooted Realm.heap_isFull hrooted
    living := fun a ha => ⟨rfl, Realm.size_of_isFull Realm.heap_isFull ▸ Realm.heap.index_lt_of_isLive ha⟩ }

/-- All live objects of the machines that an embedding program comes to are paired with themselves. -/
theorem Tended.tending (hhost : host.Careful) (hm : Tended config host m) : ∃ p, Tending p m m := by
  induction hm with
  | new =>
    obtain ⟨es, hes, -⟩ := new_machine config host
    rw [hes]
    exact ⟨_, initialMachine_tending config es⟩
  | @run m n body this withs limit v before thisLive withsLive ended ih =>
    obtain ⟨p, hm⟩ := ih
    have hagree : Simulation.tending.Agree (.upTo config host limit) (.upTo config host limit) :=
      Simulation.tending_agree hhost limit
    have hmeets : Simulation.tending.Meets (.leaving []) () Value.Matches
        (Script.runProgram body this withs (.upTo config host limit) m)
        (Script.runProgram body this withs (.upTo config host limit) m) := by
      refine Simulation.runProgram_meets (p := p) (Simulation.tending_programs hagree rfl)
        ⟨trivial, fun _ _ => trivial⟩ fun k k' hk hk' => ?_
      cases hk.symm.trans hk'
      exact hm.started thisLive withsLive hk
    obtain ⟨q, hends⟩ := hmeets
    rw [ended] at hends
    cases hends with
    | value _ _ hn => exact ⟨_, hn⟩
  | @refused m before source e limit ih =>
    obtain ⟨p, hm⟩ := ih
    have hshown : ∃ es, showSyntaxError source e (.upTo config host limit) m
        = .value () { m with events := es } := by
      show ∃ es, (if config.showErrors then _ else _ : Script Unit) _ m = _
      split
      · exact ⟨_, rfl⟩
      · exact ⟨m.events, rfl⟩
    obtain ⟨es, hes⟩ := hshown
    rw [hes]
    exact ⟨p, hm.relog es⟩
  | @use m n x limit before code ended ih =>
    obtain ⟨p, hm⟩ := ih
    have hends : Simulation.tending.Ends (.leaving []) () p .same (x (.upTo config host limit) m)
        (x (.upTo config host limit) m) :=
      (Simulation.careful_follows (code p)).ends _ _ (Simulation.tending_agree hhost limit) () m m hm
    rcases ended with ended | ⟨c, ended⟩
    · rw [ended] at hends
      cases hends with
      | value _ _ hn => exact ⟨_, hn⟩
    · rw [ended] at hends
      cases hends with
      | abrupt _ _ _ hn => exact ⟨_, hn⟩
  | @collect m before limit ih =>
    obtain ⟨p, hm⟩ := ih
    obtain ⟨es, hrun, -⟩ := Simulation.collectGarbage_value (.upTo config host limit) m
    rw [hrun]
    exact ⟨_, hm.collected es⟩

end Interpreter

namespace Script

variable {m : Machine}

end Script

end PageScript
