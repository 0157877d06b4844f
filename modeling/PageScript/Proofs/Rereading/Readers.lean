import Mathlib.Data.List.Basic
import PageScript.Proofs.FirstTokens
import PageScript.Proofs.Rereading.Lines
import PageScript.Proofs.Rereading.Places

/-! # Reading a text again elsewhere

Two texts share a front, up to the lines on which it stands, and go on differently behind a seam.
`Parser.Rereads` says that a reader which reads something from the front of one text, without going beyond the
seam, reads the same from the front of the other.  It also says, of the first reading alone, how much is read
and between which places.  The lemmas on it follow the ways in which readers are put together.
-/

set_option autoImplicit false

namespace PageScript

/-- Whether a token may end a list of statements. -/
def Token.closes : Token → Bool
  | .mark .rightBrace | .finish => true
  | _ => false

theorem Token.eq_of_closes {t : Token} (h : t.closes = true) : t = .mark .rightBrace ∨ t = .finish := by
  unfold closes at h
  split at h
  · exact .inl rfl
  · exact .inr rfl
  · cases h

/-- Whether two lexemes look the same to a parser, or both end a list of statements. -/
def Lexeme.Alike (l l' : Lexeme) : Prop :=
  (l'.token = l.token ∧ l'.afterBreak = l.afterBreak) ∨ (l.token.closes = true ∧ l'.token.closes = true)

namespace Parser

/-- Two texts with a common front.  Where `judged` holds, the operators `in` of the first text are sheltered;
where `short` does, the second reading may meet the nesting limit. -/
structure Seam where
  whole : List Lexeme
  rest : List Lexeme
  rest' : List Lexeme
  lines : Nat → Nat
  judged : Prop
  short : Prop
  nonempty : rest ≠ []
  alike : (head rest).Alike (head rest')
  sheltered : judged → Place.start.sheltersAll (whole.map (·.token)) = true

namespace Seam

variable {k : Seam} {q : Place} {ts ts' : List Lexeme}

/-- Whether the first text goes on with `ts` at a place, with no end of the text before and none by an error. -/
def Inside (k : Seam) (q : Place) (ts : List Lexeme) : Prop :=
  (∃ us : List Lexeme, k.whole = us ++ ts ∧ (us.map (·.token)).foldl Place.next .start = q ∧
    ∀ u ∈ us, u.token.isLast = false) ∧ Readable ts

/-- Whether the two texts go on with the same part of the front. -/
def Matches (k : Seam) (ts ts' : List Lexeme) : Prop :=
  ∃ us : List Lexeme, ts = us ++ k.rest ∧ ts' = us.map (Lexeme.renumber k.lines) ++ k.rest'

namespace Inside

theorem next {l : Lexeme} (h : k.Inside q (l :: ts)) (hl : l.token ≠ .finish)
    (hts : Readable ts) : k.Inside (q.next l.token) ts := by
  obtain ⟨⟨us, hwhole, rfl, hus⟩, hvalid⟩ := h
  refine ⟨⟨us ++ [l], by rw [hwhole, List.append_assoc]; rfl, ?_, fun u hu => ?_⟩, hts⟩
  · rw [List.map_append, List.foldl_append]
    rfl
  · rcases List.mem_append.1 hu with hu | hu
    · exact hus u hu
    · rw [List.mem_singleton.1 hu]
      cases ht : l.token with
      | finish => exact absurd ht hl
      | invalid cause => exact absurd ht (hvalid cause)
      | _ => rfl

/-- An operator `in` of a judged text stands inside a bracket that lifts the restriction. -/
theorem sheltered {l : Lexeme} (h : k.Inside q (l :: ts)) (hk : k.judged)
    (hl : l.token.isKeyword .inWord = true) (hq : q.before.endsExpression = true) : true ∈ q.brackets := by
  obtain ⟨⟨us, hwhole, rfl, -⟩, -⟩ := h
  have hall := k.sheltered hk
  rw [hwhole, List.map_append, List.map_cons] at hall
  have hshelters := Place.shelters_of_sheltersAll hall
  rw [Place.shelters, hl, hq] at hshelters
  exact List.contains_iff_mem.1 hshelters

end Inside

namespace Matches

theorem alike (h : k.Matches ts ts') : (head ts).Alike (head ts') := by
  obtain ⟨us, rfl, rfl⟩ := h
  cases us with
  | nil => exact k.alike
  | cons u us => exact .inl ⟨rfl, rfl⟩

/-- If the next lexeme of one text can be read, then so can that of the other one. -/
theorem checked {r : Unit × List Lexeme} (h : k.Matches ts ts') (hrun : Parser.checked ts = .ok r) :
    Parser.checked ts' = .ok ((), ts') :=
  Readable.checked fun cause hcause => by
    rcases h.alike with ⟨hsame, -⟩ | ⟨-, hcloses⟩
    · exact readable_of_checked hrun cause (hsame ▸ hcause)
    · rw [hcause] at hcloses
      cases hcloses

/-- Before the seam the next lexeme is the same on another line. -/
theorem ahead (h : k.Matches ts ts') (hlength : k.rest.length < ts.length) :
    ∃ l us us', ts = l :: us ∧ ts' = l.renumber k.lines :: us' ∧ k.Matches us us' := by
  obtain ⟨us, rfl, rfl⟩ := h
  cases us with
  | nil => exact absurd hlength (Nat.lt_irrefl _)
  | cons u us => exact ⟨u, _, _, rfl, rfl, us, rfl, rfl⟩

end Matches

end Seam

variable {α β γ : Type} {k : Seam} {e n : Nat} {P M Q : Place → Token → Prop} {g : α → α} {h : β → β}
  {x x' : Parser α} {f f' : α → Parser β} {a : α} {m : Mark}

theorem skipMark_bind (f : Bool → Parser β) : (skipMark m >>= f) =
    (current >>= fun t => if t.isMark m then advance >>= fun _ => f true else f false) := by
  funext ts
  change Except.bind ((if (head ts).token.isMark m then advance >>= fun _ => Pure.pure true
    else Pure.pure false : Parser Bool) ts) _ = (if (head ts).token.isMark m then _ else _ : Parser β) ts
  split
  · change Except.bind (Except.bind (advance ts) _) _ = Except.bind (advance ts) _
    cases advance ts <;> rfl
  · rfl

/-- Whether a reader that starts where `P` holds ends where `Q` does and reads at least `n` lexemes; and
whether the other reader reads `g a` from the second text where the first one reads `a` from the first text
with at least `e` lexemes left before the seam. -/
structure Rereads (k : Seam) (e n : Nat) (P Q : Place → Token → Prop) (g : α → α) (x x' : Parser α) : Prop where
  course : ∀ {q ts a rest}, k.Inside q ts → P q (head ts).token → x ts = .ok (a, rest) →
    rest.length + n ≤ ts.length ∧ ∃ q', k.Inside q' rest ∧ Q q' (head rest).token
  again : ∀ {q ts ts' a rest}, k.Inside q ts → P q (head ts).token → k.Matches ts ts' → x ts = .ok (a, rest) →
    k.rest.length + e ≤ rest.length →
    (∃ rest', x' ts' = .ok (g a, rest') ∧ k.Matches rest rest') ∨ k.short ∧ ∃ line, x' ts' = .error ⟨.tooDeep, line⟩

namespace Rereads

/-! ## General rules -/

theorem imp {A B : Place → Token → Prop} (hx : Rereads k e n P Q g x x') (hpre : ∀ q t, A q t → P q t)
    (hpost : ∀ q t, Q q t → B q t) : Rereads k e n A B g x x' where
  course hq hp hrun := by
    obtain ⟨hlength, q', hq', hp'⟩ := hx.course hq (hpre _ _ hp) hrun
    exact ⟨hlength, q', hq', hpost _ _ hp'⟩
  again hq hp := hx.again hq (hpre _ _ hp)

theorem atLeast {m : Nat} (hx : Rereads k e n P Q g x x') (hm : m ≤ n) : Rereads k e m P Q g x x' where
  course hq hp hrun := by
    obtain ⟨hlength, hend⟩ := hx.course hq hp hrun
    exact ⟨by omega, hend⟩
  again := hx.again

/-- What is read at least is not counted. -/
theorem lax (hx : Rereads k e n P Q g x x') : Rereads k e 0 P Q g x x' := hx.atLeast (Nat.zero_le n)

theorem give {a' : α} (ha : g a = a') (hpost : ∀ q t, P q t → Q q t) :
    Rereads k e 0 P Q g (Pure.pure a) (Pure.pure a') where
  course hq hp hrun := by
    cases hrun
    exact ⟨Nat.le_refl _, _, hq, hpost _ _ hp⟩
  again hq hp hmatch hrun hlength := by
    cases hrun
    exact .inl ⟨_, by rw [← ha]; rfl, hmatch⟩

theorem pure (hpost : ∀ q t, P q t → Q q t) : Rereads k e 0 P Q g (Pure.pure a) (Pure.pure (g a)) :=
  give rfl hpost

/-- A reader that starts where one of several conditions holds. -/
theorem cases {ι : Type} {P : ι → Place → Token → Prop} (hx : ∀ i, Rereads k e n (P i) Q g x x') :
    Rereads k e n (fun q t => ∃ i, P i q t) Q g x x' where
  course hq hp hrun := by
    obtain ⟨i, hp⟩ := hp
    exact (hx i).course hq hp hrun
  again hq hp := by
    obtain ⟨i, hp⟩ := hp
    exact (hx i).again hq hp

/-- Nothing is asked where no reader starts. -/
theorem nowhere (hpre : ∀ q t, ¬P q t) : Rereads k e n P Q g x x' where
  course _ hp := absurd hp (hpre _ _)
  again _ hp := absurd hp (hpre _ _)

/-- In a judged text every operator `in` stands inside a bracket that lifts the restriction. -/
theorem judge (hk : k.judged) (hx : Rereads k e n (fun q t => P q t ∧
      (t.isKeyword .inWord = true → q.before.endsExpression = true → true ∈ q.brackets)) Q g x x') :
    Rereads k e n P Q g x x' := by
  have hsheltered : ∀ {q : Place} {ts : List Lexeme}, k.Inside q ts →
      (head ts).token.isKeyword .inWord = true → q.before.endsExpression = true → true ∈ q.brackets := by
    intro q ts hq ht
    cases ts with
    | nil => cases ht
    | cons l ts => exact hq.sheltered hk ht
  exact
    { course := fun hq hp => hx.course hq ⟨hp, hsheltered hq⟩
      again := fun hq hp => hx.again hq ⟨hp, hsheltered hq⟩ }

/-- Where the first reader fails, nothing is asked of the other one. -/
theorem failed {cause : SyntaxCause} : Rereads k e n P Q g (Parser.fail cause) x' where
  course _ _ hrun := by cases hrun
  again _ _ _ hrun := by cases hrun

/-- One reader behind another.  What the second one reads keeps the first one away from the seam. -/
theorem andThen {d m : Nat} (hx : Rereads k d n P M g x x')
    (hf : ∀ a, Rereads k e m M Q h (f a) (f' (g a))) (hd : d ≤ e + m) :
    Rereads k e (n + m) P Q h (x >>= f) (x' >>= f') where
  course {q ts b rest} hq hp hrun := by
    obtain ⟨a, us, hfirst, hnext⟩ := bind_eq_ok_iff.1 hrun
    obtain ⟨hlength, q', hq', hp'⟩ := hx.course hq hp hfirst
    obtain ⟨hlength', hend⟩ := (hf a).course hq' hp' hnext
    exact ⟨by omega, hend⟩
  again {q ts ts' b rest} hq hp hmatch hrun hlength := by
    obtain ⟨a, us, hfirst, hnext⟩ := bind_eq_ok_iff.1 hrun
    obtain ⟨-, q', hq', hp'⟩ := hx.course hq hp hfirst
    obtain ⟨hlength', -⟩ := (hf a).course hq' hp' hnext
    rcases hx.again hq hp hmatch hfirst (by omega) with ⟨us', hsecond, hmatch'⟩ | ⟨hshort, line, hsecond⟩
    · rw [bind_ok hsecond]
      exact (hf a).again hq' hp' hmatch' hnext hlength
    · exact .inr ⟨hshort, line, bind_error hsecond f'⟩

theorem bind (hx : Rereads k e n P M g x x') (hf : ∀ a, Rereads k e 0 M Q h (f a) (f' (g a))) :
    Rereads k e n P Q h (x >>= f) (x' >>= f') := hx.andThen hf (Nat.le_refl e)

/-- What is read behind a reader keeps it away from the seam. -/
theorem before (hx : Rereads k (e + 1) 0 P M g x x') (hf : ∀ a, Rereads k e 1 M Q h (f a) (f' (g a))) :
    Rereads k e 1 P Q h (x >>= f) (x' >>= f') := by
  have hboth := hx.andThen hf (Nat.le_refl (e + 1))
  rwa [Nat.zero_add] at hboth

theorem map (hx : Rereads k e n P Q g x x') (w w' : α → β) (hw : ∀ a, w' (g a) = h (w a)) :
    Rereads k e n P Q h (w <$> x) (w' <$> x') := by
  change Rereads k e n P Q h (x >>= fun a => Pure.pure (w a)) (x' >>= fun a => Pure.pure (w' a))
  refine hx.bind fun a => ?_
  rw [hw]
  exact pure fun _ _ hp => hp

/-- Where the second reading may meet the nesting limit, it may meet it at once. -/
theorem tooDeep (hk : k.short) (hx : Rereads k e n P Q g x x') :
    Rereads k e n P Q g x (Parser.fail .tooDeep) where
  course := hx.course
  again _ _ _ _ _ := .inr ⟨hk, _, rfl⟩

/-! ## Single tokens -/

/-- The token that comes next, where more is read or left before the seam. -/
theorem currentAhead {f f' : Token → Parser β} (hn : 0 < e + n)
    (hf : ∀ t, Rereads k e n (fun q u => P q u ∧ u = t) Q h (f t) (f' t)) :
    Rereads k e n P Q h (Parser.current >>= f) (Parser.current >>= f') where
  course hq hp hrun := (hf _).course hq ⟨hp, rfl⟩ hrun
  again {q ts ts' a rest} hq hp hmatch hrun hlength := by
    obtain ⟨hlength', -⟩ := (hf _).course hq ⟨hp, rfl⟩ hrun
    obtain ⟨l, us, us', rfl, rfl, -⟩ := hmatch.ahead (by omega)
    exact (hf l.token).again hq ⟨hp, rfl⟩ hmatch hrun hlength

/-- The lexeme that comes next, where more is read or left before the seam. -/
theorem peekAhead {f f' : Lexeme → Parser β} (hn : 0 < e + n)
    (hf : ∀ l, Rereads k e n (fun q u => P q u ∧ u = l.token) Q h (f l) (f' (l.renumber k.lines))) :
    Rereads k e n P Q h (Parser.peek >>= f) (Parser.peek >>= f') where
  course hq hp hrun := (hf _).course hq ⟨hp, rfl⟩ hrun
  again {q ts ts' a rest} hq hp hmatch hrun hlength := by
    obtain ⟨hlength', -⟩ := (hf _).course hq ⟨hp, rfl⟩ hrun
    obtain ⟨l, us, us', rfl, rfl, -⟩ := hmatch.ahead (by omega)
    exact (hf l).again hq ⟨hp, rfl⟩ hmatch hrun hlength

/-- The lexeme that comes next, if lexemes that look alike are treated alike. -/
theorem peek {f f' : Lexeme → Parser β} (hsame : ∀ l l' : Lexeme, l.Alike l' → f' l' = f' l)
    (hf : ∀ l, Rereads k e n (fun q u => P q u ∧ u = l.token) Q h (f l) (f' l)) :
    Rereads k e n P Q h (Parser.peek >>= f) (Parser.peek >>= f') where
  course hq hp hrun := (hf _).course hq ⟨hp, rfl⟩ hrun
  again {q ts ts' a rest} hq hp hmatch hrun hlength := by
    change (∃ rest', f' (head ts') ts' = .ok (h a, rest') ∧ k.Matches rest rest') ∨
      k.short ∧ ∃ line, f' (head ts') ts' = .error ⟨.tooDeep, line⟩
    rw [hsame _ _ hmatch.alike]
    exact (hf _).again hq ⟨hp, rfl⟩ hmatch hrun hlength

/-- The token that comes next, if both ends of a list of statements are treated alike. -/
theorem current {f f' : Token → Parser β} (hsame : f' .finish = f' (.mark .rightBrace))
    (hf : ∀ t, Rereads k e n (fun q u => P q u ∧ u = t) Q h (f t) (f' t)) :
    Rereads k e n P Q h (Parser.current >>= f) (Parser.current >>= f') := by
  have hcloses : ∀ {t : Token}, t.closes = true → f' t = f' .finish := by
    intro t ht
    rcases Token.eq_of_closes ht with rfl | rfl
    · exact hsame.symm
    · rfl
  change Rereads k e n P Q h (Parser.peek >>= fun l => f l.token) (Parser.peek >>= fun l => f' l.token)
  refine peek (fun l l' hl => ?_) fun l => hf l.token
  rcases hl with ⟨hl, -⟩ | ⟨hl, hl'⟩
  · rw [hl]
  · rw [hcloses hl, hcloses hl']

theorem advance (hnext : ∀ q t, P q t → t ≠ .finish ∧ ∀ u, Q (q.next t) u) :
    Rereads k e 1 P Q id Parser.advance Parser.advance where
  course {q ts a rest} hq hp hrun := by
    cases eq_of_checked hrun
    obtain ⟨hfinish, hpost⟩ := hnext q _ hp
    cases ts with
    | nil => exact absurd rfl hfinish
    | cons l ts => exact ⟨Nat.le_refl _, _, hq.next hfinish (readable_of_checked hrun), hpost _⟩
  again {q ts ts' a rest} hq hp hmatch hrun hlength := by
    cases eq_of_checked hrun
    have hnil : k.rest.length ≠ 0 := fun hzero => k.nonempty (List.length_eq_zero_iff.1 hzero)
    obtain ⟨l, us, us', rfl, rfl, hmatch'⟩ := hmatch.ahead (by rw [List.length_tail] at hlength; omega)
    exact .inl ⟨us', hmatch'.checked hrun, hmatch'⟩

theorem expectMark (hnext : ∀ q, P q (.mark m) → ∀ u, Q (q.next (.mark m)) u) :
    Rereads k e 1 P Q id (Parser.expectMark m) (Parser.expectMark m) := by
  refine currentAhead (Nat.succ_pos e) fun t => ?_
  split
  · rename_i ht
    refine advance fun q u hp => ?_
    obtain ⟨hp, rfl⟩ := hp
    rw [Token.eq_of_isMark ht] at hp ⊢
    exact ⟨nofun, hnext q hp⟩
  · exact failed

theorem expectKeyword {w : Keyword} (hnext : ∀ q, P q (.keyword w) → ∀ u, Q (q.next (.keyword w)) u) :
    Rereads k e 1 P Q id (Parser.expectKeyword w) (Parser.expectKeyword w) := by
  refine currentAhead (Nat.succ_pos e) fun t => ?_
  split
  · rename_i ht
    refine advance fun q u hp => ?_
    obtain ⟨hp, rfl⟩ := hp
    rw [Token.eq_of_isKeyword ht] at hp ⊢
    exact ⟨nofun, hnext q hp⟩
  · exact failed

theorem identifier (hnext : ∀ q name, P q (.identifier name) → ∀ u, Q (q.next (.identifier name)) u) :
    Rereads k e 1 P Q id Parser.identifier Parser.identifier := by
  refine currentAhead (Nat.succ_pos e) fun t => ?_
  split
  · rename_i name
    have hskip : Rereads k e 1 (fun q u => P q u ∧ u = .identifier name) Q id Parser.advance Parser.advance :=
      advance fun q u hu => by
        obtain ⟨hp, rfl⟩ := hu
        exact ⟨by rintro ⟨⟩, hnext q name hp⟩
    exact hskip.bind fun _ => pure fun _ _ hp => hp
  · exact failed

/-- A mark that is passed over if it comes next. -/
theorem skipMark {f f' : Bool → Parser β} (hm : m ≠ .rightBrace)
    (hnext : ∀ q, P q (.mark m) → ∀ u, M (q.next (.mark m)) u)
    (hyes : Rereads k e 0 M Q h (f true) (f' true))
    (hno : Rereads k e n (fun q u => P q u ∧ u.isMark m = false) Q h (f false) (f' false)) (hn : n ≤ 1) :
    Rereads k e n P Q h (Parser.skipMark m >>= f) (Parser.skipMark m >>= f') := by
  rw [skipMark_bind, skipMark_bind]
  refine current ?_ fun t => ?_
  · have hbrace : (Token.mark .rightBrace).isMark m = false := beq_false_of_ne hm.symm
    rw [hbrace]
    rfl
  · split
    · rename_i ht
      have hskip : Rereads k e 1 (fun q u => P q u ∧ u = t) M id Parser.advance Parser.advance :=
        advance fun q u ⟨hp, hu⟩ => by
          rw [hu, Token.eq_of_isMark ht] at hp ⊢
          exact ⟨nofun, hnext q hp⟩
      exact (hskip.bind fun _ => hyes).atLeast hn
    · rename_i ht
      exact hno.imp (fun q u ⟨hp, hu⟩ => ⟨hp, by rw [hu]; exact Bool.not_eq_true _ ▸ ht⟩) fun _ _ hp => hp

theorem endStatement (hnext : ∀ q, P q (.mark .semicolon) → ∀ u, Q (q.next (.mark .semicolon)) u)
    (hpost : ∀ q t, P q t → Q q t) :
    Rereads k e 0 P Q id Parser.endStatement Parser.endStatement := by
  have hcloses : ∀ l : Lexeme, l.token.closes = true →
      l.token.isMark .semicolon = false ∧
        (l.afterBreak || l.token.isMark .rightBrace || l.token.isFinish) = true := by
    rintro ⟨t, line, b⟩ ht
    rcases Token.eq_of_closes ht with rfl | rfl <;> exact ⟨rfl, by cases b <;> rfl⟩
  refine peek (fun l l' hl => ?_) fun l => ?_
  · rcases hl with ⟨ht, hb⟩ | ⟨hl, hl'⟩
    · rw [ht, hb]
    · rw [(hcloses l hl).1, (hcloses l hl).2, (hcloses l' hl').1, (hcloses l' hl').2]
      rfl
  · split
    · rename_i ht
      exact (advance fun q u ⟨hp, hu⟩ => by
        rw [hu, Token.eq_of_isMark ht] at hp ⊢
        exact ⟨nofun, hnext q hp⟩ : Rereads k e 1 _ _ id _ _).lax
    · split
      · exact pure fun q t hp => hpost q t hp.1
      · exact failed

/-! ## Lists -/

/-- Both readings see the same end of a list, if both ends of a list of statements do or the seam is not met. -/
theorem stop_alike {stop : Token → Bool} {ts ts' : List Lexeme} (hmatch : k.Matches ts ts')
    (hstop : e = 0 → stop .finish = stop (.mark .rightBrace)) (hlength : k.rest.length + e ≤ ts.length) :
    stop (head ts').token = stop (head ts).token := by
  have hcloses : ∀ {t : Token}, e = 0 → t.closes = true → stop t = stop .finish := by
    intro t he ht
    rcases Token.eq_of_closes ht with rfl | rfl
    · exact (hstop he).symm
    · rfl
  cases e with
  | zero =>
    rcases hmatch.alike with ⟨ht, -⟩ | ⟨ht, ht'⟩
    · rw [ht]
    · rw [hcloses rfl ht, hcloses rfl ht']
  | succ e =>
    obtain ⟨l, us, us', rfl, rfl, -⟩ := hmatch.ahead (by omega)
    rfl

section

variable {stop : Token → Bool} {item item' : List α → Parser α}
  (hstop : e = 0 → stop .finish = stop (.mark .rightBrace))
  (hitem : ∀ read, Rereads k e 1 (fun q u => P q u ∧ stop u = false) P g (item read) (item' (read.map g)))

include hstop hitem

/-- The limits of both readings suffice, since every item takes a lexeme. -/
theorem collect (limit : Nat) {q : Place} {ts rest : List Lexeme} {xs : List α} (read : List α)
    (hq : k.Inside q ts) (hp : P q (head ts).token) (hlimit : ts.length ≤ limit)
    (hrun : Parser.collect stop item limit read ts = .ok (xs, rest)) :
    rest.length ≤ ts.length ∧ (∃ q', k.Inside q' rest ∧ P q' (head rest).token) ∧
      ∀ {ts' limit'}, k.Matches ts ts' → ts.length ≤ limit' + k.rest.length → k.rest.length + e ≤ rest.length →
        (∃ rest', Parser.collect stop item' limit' (read.map g) ts' = .ok (xs.map g, rest') ∧ k.Matches rest rest')
          ∨ k.short ∧ ∃ line, Parser.collect stop item' limit' (read.map g) ts' = .error ⟨.tooDeep, line⟩ := by
  have hnil : k.rest.length ≠ 0 := fun hzero => k.nonempty (List.length_eq_zero_iff.1 hzero)
  induction limit generalizing q ts read with
  | zero =>
    cases hrun
    refine ⟨Nat.le_refl _, ⟨q, hq, hp⟩, fun _ _ hlength => ?_⟩
    omega
  | succ limit ih =>
    unfold Parser.collect at hrun
    split at hrun
    · rename_i hend
      cases hrun
      refine ⟨Nat.le_refl _, ⟨q, hq, hp⟩, fun {ts' limit'} hmatch _ hlength => .inl ⟨ts', ?_, hmatch⟩⟩
      rw [List.map_reverse]
      cases limit' with
      | zero => rfl
      | succ limit' =>
        unfold Parser.collect
        rw [stop_alike hmatch hstop hlength, if_pos hend]
    · rename_i hgoes
      have hgoes := Bool.not_eq_true _ ▸ hgoes
      split at hrun
      · rename_i x after hfirst
        obtain ⟨hshorter, q', hq', hp'⟩ := (hitem read).course hq ⟨hp, hgoes⟩ hfirst
        obtain ⟨hlength', hend, hagain⟩ := ih (x :: read) hq' hp' (by omega) hrun
        refine ⟨by omega, hend, fun {ts' limit'} hmatch hlimit' hlength => ?_⟩
        obtain ⟨limit', rfl⟩ : ∃ n, limit' = n + 1 := ⟨limit' - 1, by omega⟩
        unfold Parser.collect
        rw [stop_alike hmatch hstop (by omega), hgoes, if_neg Bool.false_ne_true]
        rcases (hitem read).again hq ⟨hp, hgoes⟩ hmatch hfirst (by omega) with
          ⟨after', hsecond, hmatch'⟩ | ⟨hshort, line, hsecond⟩
        · rw [hsecond]
          exact hagain hmatch' (by omega) hlength
        · rw [hsecond]
          exact .inr ⟨hshort, line, rfl⟩
      · cases hrun

theorem many : Rereads k e 0 P P (List.map g) (Parser.many stop item) (Parser.many stop item') where
  course {q ts xs rest} hq hp hrun := by
    unfold Parser.many at hrun
    split at hrun
    · cases hrun
      exact ⟨Nat.le_refl _, q, hq, hp⟩
    · obtain ⟨hlength, hend, -⟩ := collect hstop hitem ts.length [] hq hp (Nat.le_refl _) hrun
      exact ⟨hlength, hend⟩
  again {q ts ts' xs rest} hq hp hmatch hrun hlength := by
    unfold Parser.many at hrun ⊢
    split at hrun
    · rename_i hend
      cases hrun
      rw [stop_alike hmatch hstop hlength, if_pos hend]
      exact .inl ⟨ts', rfl, hmatch⟩
    · rename_i hgoes
      obtain ⟨hlength', -, hagain⟩ := collect hstop hitem ts.length [] hq hp (Nat.le_refl _) hrun
      rw [stop_alike hmatch hstop (by omega), if_neg hgoes]
      refine hagain hmatch ?_ hlength
      obtain ⟨us, rfl, rfl⟩ := hmatch
      simp only [List.length_append, List.length_map]
      omega

end

/-- Items up to a closing mark, which is read behind them. -/
theorem commaItems {close : Mark}
    (hx : Rereads k (e + 1) 1 (fun q u => P q u ∧ u.isMark close = false) Q g x x')
    (hpost : ∀ q t, Q q t → t.isMark close = true → P q t)
    (hnext : ∀ q, Q q (.mark .comma) → ∀ u, P (q.next (.mark .comma)) u) :
    Rereads k (e + 1) 0 P P (List.map g) (Parser.commaItems close x) (Parser.commaItems close x') := by
  refine many (fun he => absurd he (Nat.succ_ne_zero e)) fun _ => hx.bind fun a => ?_
  refine currentAhead (Nat.succ_pos _) fun t => ?_
  dsimp only
  split
  · have hcomma : Rereads k (e + 1) 1 (fun q u => Q q u ∧ u = t) P id (Parser.expectMark .comma)
        (Parser.expectMark .comma) := expectMark fun q hp => hnext q hp.1
    exact hcomma.lax.bind fun _ => pure fun _ _ hp => hp
  · rename_i ht
    rw [Bool.not_eq_true, Bool.not_eq_false'] at ht
    exact pure fun q u ⟨hp, hu⟩ => hpost q u hp (hu ▸ ht)

/-- One or more items with commas between them. -/
theorem commaSeparated (hx : Rereads k e 1 P Q g x x')
    (hnext : ∀ q, Q q (.mark .comma) → ∀ u, P (q.next (.mark .comma)) u) :
    Rereads k e 1 P Q (List.map g) (Parser.commaSeparated x) (Parser.commaSeparated x') := by
  refine hx.bind fun a => ?_
  have hrest : Rereads k e 0 Q Q (List.map g)
      (Parser.many (fun t => !t.isMark .comma) fun _ => do
        Parser.advance
        x)
      (Parser.many (fun t => !t.isMark .comma) fun _ => do
        Parser.advance
        x') := by
    refine many (fun _ => rfl) fun _ => ?_
    have hcomma : Rereads k e 1 (fun q u => Q q u ∧ (!u.isMark .comma) = false) P id Parser.advance
        Parser.advance := advance fun q u ⟨hp, hu⟩ => by
      rw [Bool.not_eq_false'] at hu
      rw [Token.eq_of_isMark hu] at hp ⊢
      exact ⟨nofun, hnext q hp⟩
    exact hcomma.bind fun _ => hx.lax
  exact hrest.bind fun as => pure fun _ _ hp => hp

end Rereads

end Parser

end PageScript
