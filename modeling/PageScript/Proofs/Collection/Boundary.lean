import PageScript.Embedding.Interpreter
import PageScript.Proofs.Collection.Slots

/-! # Collections between statements

A collection that is due between two top-level statements empties slots that the machine cannot come
to, and writes to the log; nothing else changes.
-/

set_option autoImplicit false

namespace PageScript

/-! ## Shown events -/

/-- Whether the embedding program is shown an event; the log is not for it. -/
def Event.isShown : Event → Bool
  | .logged _ _ => false
  | _ => true

/-- The events that the embedding program is shown. -/
def shown (events : List Event) : List Event := events.filter Event.isShown

theorem shown_cons {es es' : List Event} (h : shown es = shown es') (event : Event) :
    shown (event :: es) = shown (event :: es') := by
  unfold shown at h ⊢
  rw [List.filter_cons, List.filter_cons, h]

/-! ## Collections -/

namespace Simulation

open Script

variable {e : Engine} {m : Machine}

theorem log_value (level : LogLevel) (text : Machine → String) (e : Engine) (m : Machine) :
    ∃ es, Script.log level text e m = .value () { m with events := es } ∧ shown es = shown m.events := by
  unfold Script.log
  split
  · exact ⟨_, rfl, rfl⟩
  · exact ⟨m.events, rfl, rfl⟩

/-- What a collection writes to the log. -/
def censusText (census : Heap.Census) : String :=
  "gc: " ++ toString census.live ++ " live, " ++ toString census.freed ++ " freed"

theorem collectGarbage_value (e : Engine) (m : Machine) :
    ∃ es, collectGarbage e m = .value m.collect.1 { m with heap := m.collect.2.heap, events := es } ∧
      shown es = shown m.events := by
  obtain ⟨es, hlog, hes⟩ := log_value .debug (fun _ => censusText m.collect.1) e m.collect.2
  refine ⟨es, ?_, hes⟩
  have hrun : collectGarbage e m
      = Script.bind (Script.log .debug fun _ => censusText m.collect.1)
          (fun _ => Script.pure m.collect.1) e m.collect.2 := rfl
  rw [hrun]
  unfold Script.bind
  rw [hlog]
  rfl

/-- Whether and how garbage is collected depends on the settings only. -/
theorem collectIfDue_congr {e e' : Engine} (h : e.config = e'.config) (m : Machine) :
    collectIfDue e m = collectIfDue e' m := by
  obtain ⟨config, observer, perform, rounds⟩ := e
  obtain ⟨config', observer', perform', rounds'⟩ := e'
  cases h
  show (if m.callers.isEmpty && decide (config.collectAbove < m.heap.fresh) then _ else _ :
      Script Unit) _ m
    = (if m.callers.isEmpty && decide (config.collectAbove < m.heap.fresh) then _ else _ :
      Script Unit) _ m
  split <;> rfl

/-- Either nothing is collected, or all that the machine cannot come to. -/
theorem collectIfDue_or (e : Engine) (m : Machine) :
    ∃ hp es, collectIfDue e m = .value () { m with heap := hp, events := es } ∧
      shown es = shown m.events ∧ (hp = m.heap ∨ hp = m.collect.2.heap) := by
  have hstep : collectIfDue e m
      = (if m.callers.isEmpty && decide (e.config.collectAbove < m.heap.fresh) then (do
          let _ ← collectGarbage)
        else pure () : Script Unit) e m := rfl
  rw [hstep]
  split
  · obtain ⟨es, hrun, hes⟩ := collectGarbage_value e m
    refine ⟨m.collect.2.heap, es, ?_, hes, .inr rfl⟩
    show Script.bind collectGarbage _ e m = _
    unfold Script.bind
    rw [hrun]
    rfl
  · exact ⟨m.heap, m.events, rfl, rfl, .inl rfl⟩

theorem collectIfDue_value (e : Engine) (m : Machine) :
    ∃ hp es, collectIfDue e m = .value () { m with heap := hp, events := es } ∧
      (∀ a, m.Reaches a → hp.slot? a = m.heap.slot? a) ∧ (m.heap.Sound → hp.Sound) ∧
      shown es = shown m.events ∧ ∀ a, hp.slot? a = m.heap.slot? a ∨ hp.slot? a = none := by
  obtain ⟨hp, es, hrun, hes, rfl | rfl⟩ := collectIfDue_or e m
  · exact ⟨_, es, hrun, fun _ _ => rfl, id, hes, fun _ => .inl rfl⟩
  · exact ⟨_, es, hrun, fun a ha => m.slot?_collect ha, fun hs => hs.sweep _, hes, m.slot?_collect_or⟩

end Simulation

end PageScript
