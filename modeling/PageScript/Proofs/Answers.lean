import PageScript.Proofs.Reachable

/-! # Answers of the embedding program

An answer that aborts a run stops it: no element is evaluated any more and no step is offered to the
debugger.  What may still follow is an error that is shown on the way out, to which there is an answer
again.
-/

set_option autoImplicit false

namespace PageScript

/-! ## Answers in order -/

/-- Whether an answer aborts the run. -/
def Answer.aborts : Answer → Bool
  | .cancelled | .toError .abort | .toStep .abort => true
  | .toError .debug | .toStep .step | .toStep .goOn => false

/-- Whether an answer may follow another one: behind one that aborts, none but to an error may, and no
element is evaluated in between. -/
def Answered.MayFollow (shows : Bool) (next previous : Answered) : Prop :=
  previous.answer.aborts = true →
    shows = true ∧ next.answer.isToError = true ∧ next.elements = previous.elements

/-- Whether the answers of a run, the last one first, are in order. -/
def Answered.InOrder (shows : Bool) (answers : List Answered) : Prop :=
  answers.IsChain (Answered.MayFollow shows)

/-- Whether a run that has come to some answers has stopped if the last one aborts, and evaluated no
element since. -/
def Answered.Obeyed (answers : List Answered) (stopped : Bool) (elements : Nat) : Prop :=
  ∀ a ∈ answers.head?, a.answer.aborts = true → stopped = true ∧ elements = a.elements

/-- Whether the last of some answers, if there is one, lets the run go on. -/
def Answered.Open (answers : List Answered) : Prop :=
  ∀ a ∈ answers.head?, a.answer.aborts = false

namespace Answered

variable {shows stopped : Bool} {answers : List Answered} {elements : Nat} {a : Answer}

theorem Open.obeyed (h : Open answers) : Obeyed answers stopped elements := fun a ha habort => by
  rw [h a ha] at habort
  cases habort

theorem Obeyed.isOpen (h : Obeyed answers false elements) : Open answers := fun a ha =>
  Bool.eq_false_iff.2 fun habort => nomatch (h a ha habort).1

theorem Obeyed.stop (h : Obeyed answers stopped elements) : Obeyed answers true elements :=
  fun a ha habort => ⟨rfl, (h a ha habort).2⟩

theorem InOrder.cons (h : InOrder shows answers) {b : Answered}
    (hb : ∀ a ∈ answers.head?, b.MayFollow shows a) : InOrder shows (b :: answers) := by
  cases answers with
  | nil => exact .singleton b
  | cons a rest => exact .cons_cons (hb a rfl) h

/-- Any answer may follow where the run goes on. -/
theorem InOrder.cons_open (h : InOrder shows answers) (hopen : Open answers) (b : Answered) :
    InOrder shows (b :: answers) := h.cons fun a ha habort => by
  rw [hopen a ha] at habort
  cases habort

/-- An answer to an error may follow at any time, as no element is evaluated since. -/
theorem InOrder.cons_report (h : InOrder true answers) (hobeyed : Obeyed answers stopped elements)
    (action : ErrorAction) : InOrder true (⟨.toError action, elements⟩ :: answers) :=
  h.cons fun a ha habort => ⟨rfl, rfl, (hobeyed a ha habort).2⟩

theorem answers_obey (m : Machine) (a : Answer) : (m.obey a).answers = m.answers := by
  cases a with
  | cancelled => rfl
  | toError action => cases action <;> rfl
  | toStep action => cases action <;> rfl

theorem obeyed_obey {m : Machine} (h : m.answers.head? = some ⟨a, m.elements⟩) :
    Obeyed (m.obey a).answers (m.obey a).stopped (m.obey a).elements := by
  rw [answers_obey]
  intro b hb habort
  rw [h] at hb
  cases hb
  cases a with
  | cancelled => exact ⟨rfl, rfl⟩
  | toError action =>
    cases action with
    | abort => exact ⟨rfl, rfl⟩
    | debug => cases habort
  | toStep action =>
    cases action with
    | abort => exact ⟨rfl, rfl⟩
    | _ => cases habort

end Answered

/-! ## The invariant -/

/-- What holds of the answers in each phase of a run. -/
def Phase.AnswersOf (shows : Bool) (ph : Phase) (answers : List Answered) (stopped : Bool)
    (elements : Nat) : Prop :=
  Answered.InOrder shows answers ∧
    match ph with
    | .polled => Answered.Open answers
    | .answered a => answers.head? = some ⟨a, elements⟩
    | _ => Answered.Obeyed answers stopped elements

/-- The answers as an invariant, where errors are shown or not. -/
def Invariant.answers (shows : Bool) : Invariant where
  Ghost := Unit
  inv ph _ m := ph.AnswersOf shows m.answers m.stopped m.elements
  spent _ m := Phase.going.AnswersOf shows m.answers m.stopped m.elements
  shows b := b = shows
  spend h := h
  goOn h := ⟨h.1, h.2.obeyed⟩
  report action hshows _ h := by
    cases hshows
    exact ⟨h.1.cons_report h.2 action, rfl⟩
  suppress _ h := ⟨h.1, h.2.stop⟩
  count h hs := ⟨h.1, Answered.Obeyed.isOpen (hs ▸ h.2)⟩
  answerPoll a _ h := ⟨h.1.cons_open h.2 _, rfl⟩
  obey {g m a} h := by
    refine ⟨?_, Answered.obeyed_obey h.2⟩
    rw [Answered.answers_obey]
    exact h.1
  quit h := ⟨h.1, h.2.stop⟩
  frame _ _ _ h := by
    refine ⟨(), trivial, h, fun {_ n} hn => ?_, fun {n} hn => ?_⟩ <;>
    · unfold Machine.pop
      split <;> exact hn

namespace Invariant

variable {config : Config} {host : Host} {shows : Bool}

end Invariant

/-! ## Runs -/

namespace Script

end Script

end PageScript
