import PageScript.Proofs.FirstTokens

/-! # What readers yield

`Parser.Yields P x` says that all that a reader `x` reads satisfies `P`.  `Parser.Takes T P x` says so of the
texts that satisfy `T`, and that the end of the text it leaves unread satisfies `T` again.  The lemmas
on them follow the ways in which readers are put together, so that a property of trees is proved along the
grammar.
-/

set_option autoImplicit false

namespace PageScript

namespace Parser

variable {α β : Type} {T : List Lexeme → Prop} {P : α → Prop} {Q : β → Prop} {x : Parser α} {f : α → Parser β}
  {a : α}

/-! ## Readers that only pass over tokens -/

/-- A reader that leaves an end of its text unread. -/
class Drops (x : Parser α) : Prop where
  suffix : ∀ ts a rest, x ts = .ok (a, rest) → rest <:+ ts

namespace Drops

theorem bind (hx : Drops x) (hf : ∀ a, Drops (f a)) : Drops (x >>= f) := by
  refine ⟨fun ts b rest hrun => ?_⟩
  obtain ⟨a, us, hfirst, hnext⟩ := bind_eq_ok_iff.1 hrun
  exact ((hf a).suffix us b rest hnext).trans (hx.suffix ts a us hfirst)

instance pure (a : α) : Drops (Pure.pure a : Parser α) where
  suffix ts b rest hrun := by
    cases hrun
    exact List.suffix_refl _

instance fail (cause : SyntaxCause) : Drops (Parser.fail cause : Parser α) where
  suffix ts a rest hrun := by cases hrun

instance current : Drops Parser.current where
  suffix ts t rest hrun := by
    cases hrun
    exact List.suffix_refl _

instance peek : Drops Parser.peek where
  suffix ts t rest hrun := by
    cases hrun
    exact List.suffix_refl _

instance checked : Drops Parser.checked where
  suffix ts a rest hrun := by
    cases Parser.eq_of_checked hrun
    exact List.suffix_refl _

instance advance : Drops Parser.advance where
  suffix ts a rest hrun := (checked.suffix ts.tail a rest hrun).trans (List.tail_suffix ts)

instance expectMark (m : Mark) : Drops (Parser.expectMark m) := current.bind fun t => by
  split <;> infer_instance

instance expectKeyword (k : Keyword) : Drops (Parser.expectKeyword k) := current.bind fun t => by
  split <;> infer_instance

instance skipMark (m : Mark) : Drops (Parser.skipMark m) := current.bind fun t => by
  split
  · exact advance.bind fun _ => inferInstance
  · infer_instance

instance identifier : Drops Parser.identifier := current.bind fun t => by
  split
  · exact advance.bind fun _ => inferInstance
  · infer_instance

instance endStatement : Drops Parser.endStatement := peek.bind fun t => by
  split
  · infer_instance
  · split <;> infer_instance

end Drops

/-! ## Readers of texts of a kind -/

/-- A property of texts that passes on to their ends. -/
class PassesToEnds (T : List Lexeme → Prop) : Prop where
  pass : ∀ {ts rest}, rest <:+ ts → T ts → T rest

instance : PassesToEnds fun _ => True := ⟨fun _ _ => trivial⟩

/-- Whether what a reader reads from texts of a kind is always of a kind, and what it leaves unread, too. -/
def Takes (T : List Lexeme → Prop) (P : α → Prop) (x : Parser α) : Prop :=
  ∀ ts a rest, T ts → x ts = .ok (a, rest) → P a ∧ T rest

namespace Takes

theorem pure (h : P a) : Takes T P (Pure.pure a) := by
  intro ts b rest hts hrun
  cases hrun
  exact ⟨h, hts⟩

theorem fail (cause : SyntaxCause) : Takes T P (Parser.fail cause) := by
  intro ts a rest _ hrun
  cases hrun

theorem bind (hx : Takes T P x) (hf : ∀ a, P a → Takes T Q (f a)) : Takes T Q (x >>= f) := by
  intro ts b rest hts hrun
  obtain ⟨a, us, hfirst, hnext⟩ := bind_eq_ok_iff.1 hrun
  obtain ⟨ha, hus⟩ := hx ts a us hts hfirst
  exact hf a ha us b rest hus hnext

theorem drops [PassesToEnds T] (hx : Drops x) : Takes T (fun _ => True) x := fun ts a rest hts hrun =>
  ⟨trivial, PassesToEnds.pass (hx.suffix ts a rest hrun) hts⟩

/-- What is passed over does not count. -/
theorem after [PassesToEnds T] [hx : Drops x] (hf : ∀ a, Takes T Q (f a)) : Takes T Q (x >>= f) :=
  (drops hx).bind fun a _ => hf a

/-- Nothing is read behind a failure. -/
theorem failed (cause : SyntaxCause) : Takes T Q (Parser.fail cause >>= f) :=
  bind (fail (P := fun _ => False) cause) fun _ h => h.elim

theorem map {g : α → β} (hx : Takes T P x) (hg : ∀ a, P a → Q (g a)) : Takes T Q (g <$> x) :=
  hx.bind fun a ha => pure (hg a ha)

/-- The token that comes next is the first one of a text of the kind. -/
theorem current : Takes T (fun t => ∃ ts, T ts ∧ (head ts).token = t) Parser.current := by
  intro ts t rest hts hrun
  cases hrun
  exact ⟨⟨ts, hts, rfl⟩, hts⟩

theorem collect {stop : Token → Bool} {item : List α → Parser α} (hitem : ∀ before, Takes T P (item before))
    (limit : Nat) {read : List α} (hread : ∀ a ∈ read, P a) :
    Takes T (fun xs => ∀ a ∈ xs, P a) (Parser.collect stop item limit read) := by
  induction limit generalizing read with
  | zero =>
    intro ts xs rest hts hrun
    cases hrun
    exact ⟨fun a ha => hread a (List.mem_reverse.1 ha), hts⟩
  | succ limit ih =>
    intro ts xs rest hts hrun
    unfold Parser.collect at hrun
    split at hrun
    · cases hrun
      exact ⟨fun a ha => hread a (List.mem_reverse.1 ha), hts⟩
    · split at hrun
      · rename_i b after hitemRun
        obtain ⟨hb, hafter⟩ := hitem read ts b after hts hitemRun
        refine ih (fun a ha => ?_) after xs rest hafter hrun
        rcases List.mem_cons.1 ha with rfl | ha
        · exact hb
        · exact hread a ha
      · cases hrun

theorem many {stop : Token → Bool} {item : List α → Parser α}
    (hitem : ∀ before, Takes T P (item before)) :
    Takes T (fun xs => ∀ a ∈ xs, P a) (Parser.many stop item) := by
  intro ts xs rest hts hrun
  unfold Parser.many at hrun
  split at hrun
  · cases hrun
    exact ⟨nofun, hts⟩
  · exact collect hitem _ (List.forall_mem_nil _) ts xs rest hts hrun

theorem commaItems [PassesToEnds T] {close : Mark} (hx : Takes T P x) :
    Takes T (fun xs => ∀ a ∈ xs, P a) (Parser.commaItems close x) := by
  refine many fun _ => hx.bind fun a ha => after fun t => ?_
  dsimp only
  split
  · exact after fun _ => pure ha
  · exact pure ha

theorem commaSeparated [PassesToEnds T] (hx : Takes T P x) :
    Takes T (fun xs => ∀ a ∈ xs, P a) (Parser.commaSeparated x) := by
  refine hx.bind fun a ha => ?_
  have hrest : Takes T (fun xs => ∀ b ∈ xs, P b)
      (Parser.many (fun t => !t.isMark .comma) fun _ => do
        advance
        x) := many fun _ => after fun _ => hx
  refine hrest.bind fun xs hxs => pure fun b hb => ?_
  rcases List.mem_cons.1 hb with rfl | hb
  · exact ha
  · exact hxs b hb

end Takes

/-! ## Readers of any tokens -/

/-- Whether what a reader reads is always of a kind. -/
def Yields (P : α → Prop) (x : Parser α) : Prop := ∀ ts a rest, x ts = .ok (a, rest) → P a

theorem yields_iff : Yields P x ↔ Takes (fun _ => True) P x :=
  ⟨fun h ts a rest _ hrun => ⟨h ts a rest hrun, trivial⟩, fun h ts a rest hrun => (h ts a rest trivial hrun).1⟩

namespace Yields

theorem pure (h : P a) : Yields P (Pure.pure a) := yields_iff.2 (.pure h)

theorem fail (cause : SyntaxCause) : Yields P (Parser.fail cause) := yields_iff.2 (.fail cause)

theorem bind (hx : Yields P x) (hf : ∀ a, P a → Yields Q (f a)) : Yields Q (x >>= f) :=
  yields_iff.2 ((yields_iff.1 hx).bind fun a ha => yields_iff.1 (hf a ha))

theorem any : Yields (fun _ => True) x := fun _ _ _ _ => trivial

/-- What is passed over does not count. -/
theorem after (hf : ∀ a, Yields Q (f a)) : Yields Q (x >>= f) := any.bind fun a _ => hf a

/-- Nothing is read behind a failure. -/
theorem failed (cause : SyntaxCause) : Yields Q (Parser.fail cause >>= f) := yields_iff.2 (.failed cause)

theorem map {g : α → β} (hx : Yields P x) (hg : ∀ a, P a → Q (g a)) : Yields Q (g <$> x) :=
  yields_iff.2 ((yields_iff.1 hx).map hg)

theorem many {stop : Token → Bool} {item : List α → Parser α} (hitem : ∀ before, Yields P (item before)) :
    Yields (fun xs => ∀ a ∈ xs, P a) (Parser.many stop item) :=
  yields_iff.2 (.many fun before => yields_iff.1 (hitem before))

theorem commaItems {close : Mark} (hx : Yields P x) :
    Yields (fun xs => ∀ a ∈ xs, P a) (Parser.commaItems close x) :=
  yields_iff.2 (.commaItems (yields_iff.1 hx))

theorem commaSeparated (hx : Yields P x) : Yields (fun xs => ∀ a ∈ xs, P a) (Parser.commaSeparated x) :=
  yields_iff.2 (.commaSeparated (yields_iff.1 hx))

end Yields

end Parser

end PageScript
