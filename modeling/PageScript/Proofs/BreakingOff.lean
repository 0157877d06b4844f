import PageScript.Proofs.Composed.Tasks
import PageScript.Proofs.Fresh

/-! # Runs broken off

A run that is cancelled goes on for a while: whoever has asked for the text of a value gets a stand-in
and may show it.  What was shown before is the same in every run that is given more elements.  The run
that is broken off in place of its cancellation says what that is.
-/

set_option autoImplicit false

namespace PageScript

open Script

variable {config : Config} {host : Host} {e e' : Engine} {m : Machine} {t : Task} {budget : Nat}

/-! ## Budgets -/

/-- An embedding program that cancels runs beyond a number of elements, if there is one. -/
def Host.budgeted (host : Host) (budget : Option Nat) : Host :=
  { host with feedback := fun _ elements =>
      match budget with
      | some limit => if elements ≤ limit then .goOn else .cancel none
      | none => .goOn }

/-- Whether a task would be an element beyond a budget. -/
def Task.isBeyond (budget : Nat) (t : Task) (m : Machine) : Bool :=
  t.isElement && !m.stopped && decide (budget ≤ m.elements)

namespace Script

/-- Performs a task, with further tasks nested up to `limit` deep, and breaks off at an element beyond a
budget. -/
def performWithin (budget : Nat) (config : Config) (host : Host) : Nat → Task → Machine → Outcome Value
  | 0, _, m => .exhausted m
  | limit + 1, t, m =>
    if t.isBeyond budget m then .exhausted m
    else step host t
      ⟨config, (host.budgeted none).toObserver, performWithin budget config host limit, limit⟩ m

end Script

/-- An engine that breaks off at an element beyond a budget. -/
def Engine.within (budget : Nat) (config : Config) (host : Host) (limit : Nat) : Engine :=
  ⟨config, (host.budgeted none).toObserver, performWithin budget config host limit, limit⟩

namespace Script

end Script

end PageScript
