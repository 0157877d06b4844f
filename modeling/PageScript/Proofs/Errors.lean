import PageScript.Proofs.Reachable

/-! # Errors outside `try`

Each error that no `try` handles is noted together with the innermost statement.  Where the embedding
program does not pass over errors itself, each noted error is shown once, at that statement and before
any other statement starts; or the run ends there, if errors are not shown.
-/

set_option autoImplicit false

namespace PageScript

/-! ## Accounts -/

/-- The error that an event shows. -/
def Event.report? : Event → Option ErrorReport
  | .reported r => some r
  | _ => none

/-- The errors that some events show, last one first. -/
def reportsOf (events : List Event) : List ErrorReport := events.filterMap Event.report?

theorem reportsOf_cons {event : Event} (h : event.isReport = false) (events : List Event) :
    reportsOf (event :: events) = reportsOf events := by
  cases event with
  | reported r => cases h
  | _ => rfl

/-- Whether a report shows an error that was noted, under its own name and at the statement that was
being executed. -/
structure Noted.ShownBy (n : Noted) (r : ErrorReport) : Prop where
  kind : r.kind = n.kind
  message : r.message = n.message
  statement : ∃ s, n.statement = some s ∧ r.line = s.line ∧ r.source = s.text

/-- Whether the errors of a run that were noted are accounted for.  They are those that were shown, in
order; or none was shown and the run has stopped at the first of them. -/
def Accounted (shows : Bool) (before : List ErrorReport) (noted : List Noted)
    (reports : List ErrorReport) (stopped : Bool) : Prop :=
  match shows with
  | true => ∃ new, reports = new ++ before ∧ List.Forall₂ Noted.ShownBy noted new
  | false => reports = before ∧ (noted ≠ [] → stopped = true)

namespace Accounted

variable {shows stopped : Bool} {before reports : List ErrorReport} {noted : List Noted} {n : Noted}

theorem start : Accounted shows before [] before stopped := by
  cases shows with
  | true => exact ⟨[], rfl, .nil⟩
  | false => exact ⟨rfl, fun h => absurd rfl h⟩

theorem stop (h : Accounted shows before noted reports stopped) :
    Accounted shows before noted reports true := by
  cases shows with
  | true => exact h
  | false => exact ⟨h.1, fun _ => rfl⟩

theorem report (h : Accounted true before noted reports stopped) {r : ErrorReport}
    (hr : n.ShownBy r) : Accounted true before (n :: noted) (r :: reports) stopped := by
  obtain ⟨new, rfl, hnew⟩ := h
  exact ⟨r :: new, rfl, .cons hr hnew⟩

theorem suppress (h : Accounted false before noted reports stopped) :
    Accounted false before (n :: noted) reports true := ⟨h.1, fun _ => rfl⟩

end Accounted

/-- Whether no error of a machine waits to be shown, and all that were noted are accounted for. -/
structure Machine.Settled (shows : Bool) (before : List ErrorReport) (m : Machine) : Prop where
  pending : m.pending = none
  accounted : Accounted shows before m.noted (reportsOf m.events) m.stopped

/-- Whether the one error that waits to be shown was noted last, at a statement, and all others are
accounted for. -/
def Accounted.AllBut (shows : Bool) (before : List ErrorReport) (entry : ErrorKind × String)
    (statement : Option Statement) (noted : List Noted) (reports : List ErrorReport)
    (stopped : Bool) : Prop :=
  ∃ rest, noted = ⟨entry.1, entry.2, statement⟩ :: rest ∧
    Accounted shows before rest reports stopped

/-! ## The invariant -/

/-- What holds of the errors of a run in each of its phases, within some statements. -/
def Phase.ErrorsOf (shows : Bool) (before : List ErrorReport) (ph : Phase) (running : List Statement)
    (pending : Option (ErrorKind × String)) (noted : List Noted) (reports : List ErrorReport)
    (stopped : Bool) : Prop :=
  match ph with
  | .going | .polled => pending = none ∧ Accounted shows before noted reports stopped
  | .halting =>
    match pending with
    | none => Accounted shows before noted reports stopped
    | some entry => Accounted.AllBut shows before entry running.head? noted reports stopped
  | .showing kind message =>
    pending = none ∧
      Accounted.AllBut shows before (kind, message) running.head? noted reports stopped
  | .answered a =>
    pending = none ∧ Accounted shows before noted reports stopped ∧ (a.isToError = true → shows = true)

/-- An error is noted where none waits to be shown. -/
theorem Phase.ErrorsOf.note {shows : Bool} {before : List ErrorReport} {m : Machine}
    (hpending : m.pending = none)
    (h : Accounted shows before m.noted (reportsOf m.events) m.stopped) (entry : ErrorKind × String) :
    Phase.halting.ErrorsOf shows before (m.note entry).running (m.note entry).pending
      (m.note entry).noted (reportsOf (m.note entry).events) (m.note entry).stopped := by
  have hentry : (m.note entry).pending = some entry := by
    show m.pending.or (some entry) = some entry
    rw [hpending]
    rfl
  rw [hentry]
  exact ⟨m.noted, rfl, h⟩

/-- The errors of a run as an invariant, given the reports before it. -/
def Invariant.errors (shows : Bool) (before : List ErrorReport) : Invariant where
  Ghost := List Statement
  inv ph g m := m.running = g ∧
    ph.ErrorsOf shows before m.running m.pending m.noted (reportsOf m.events) m.stopped
  spent _ _ := True
  shows b := b = shows
  inside g s := g.head? = some s
  spend _ := trivial
  halt h := by
    obtain ⟨hg, hpending, h⟩ := h
    refine ⟨hg, ?_⟩
    rw [hpending]
    exact h
  settle h hp := by
    obtain ⟨hg, h⟩ := h
    rw [hp] at h
    exact ⟨hg, hp, h⟩
  see event he h := by
    refine ⟨h.1, ?_⟩
    show Phase.ErrorsOf _ _ _ _ _ _ (reportsOf (event :: _)) _
    rw [reportsOf_cons he]
    exact h.2
  note entry h _ _ := ⟨h.1, .note h.2.1 h.2.2 entry⟩
  uncaught {g m} entry h := by
    obtain ⟨hg, h⟩ := h
    split
    · rename_i hp
      rw [Option.isNone_iff_eq_none] at hp
      rw [hp] at h
      exact ⟨hg, .note hp h entry⟩
    · exact ⟨hg, h⟩
  reveal {g m kind message} h hp := by
    obtain ⟨hg, h⟩ := h
    rw [hp] at h
    exact ⟨hg, rfl, h⟩
  report {g m kind message s} action hshows hs h := by
    cases hshows
    obtain ⟨hg, hp, rest, hnoted, h⟩ := h
    refine ⟨hg, hp, ?_, fun _ => rfl⟩
    show Accounted true before m.noted (⟨kind, message, s.line, s.text⟩ :: reportsOf m.events) _
    rw [hnoted, hg, hs]
    exact h.report ⟨rfl, rfl, s, rfl, rfl, rfl⟩
  suppress hshows h := by
    cases hshows
    obtain ⟨hg, hp, rest, hnoted, h⟩ := h
    refine ⟨hg, hp, ?_⟩
    rw [hnoted]
    exact h.suppress
  obey {g m a} h := by
    obtain ⟨hg, hp, h, hto⟩ := h
    cases a with
    | cancelled => exact ⟨hg, hp, h.stop⟩
    | toError action =>
      cases hto rfl
      cases action <;> exact ⟨hg, hp, h⟩
    | toStep action =>
      cases action with
      | abort => exact ⟨hg, hp, h.stop⟩
      | _ => exact ⟨hg, hp, h⟩
  answerPoll a ha h := ⟨h.1, h.2.1, h.2.2, fun hto => by rw [ha] at hto; cases hto⟩
  quit h := ⟨h.1, h.2.1, h.2.2.stop⟩
  statement {g m} s h := ⟨s :: g, rfl, ⟨congrArg (s :: ·) h.1, h.2⟩,
    fun hn => ⟨congrArg List.tail hn.1, hn.2⟩, fun _ => trivial⟩
  frame _ _ _ h := by
    refine ⟨_, trivial, h, fun {_ n} hn => ?_, fun _ => trivial⟩
    unfold Machine.pop
    split <;> exact hn

/-! ## Runs -/

/-- All errors are accounted for, and none waits to be shown, as each statement starts and as it ends. -/
def Check.settled (shows : Bool) (before : List ErrorReport) : Check where
  task t m o :=
    match t with
    | .statement _ _ => m.Settled shows before ∧ ((∀ n, o ≠ .exhausted n) → o.machine.Settled shows before)
    | _ => True

namespace Invariant

variable {config : Config} {host : Host} {shows : Bool} {before : List ErrorReport}

end Invariant

namespace Script

end Script

end PageScript
