import PageScript.Proofs.Rereading.Statements

/-! # Where syntax errors are met

The lexemes of a text end with one that is no token.  A reader `Remains` in its text if it leaves that last
lexeme unread and, where it fails, fails on the line of a lexeme of the text.  No reader looks behind
the last lexeme, since each passes over a token only after it has seen what token it is: `Parser.Stays t` says the
same as `Remains` of texts that start with the token `t`.
-/

set_option autoImplicit false

namespace PageScript

namespace Token

theorem isLast_of_isMark {t : Token} {m : Mark} (h : t.isMark m = true) : t.isLast = false := by
  rw [eq_of_isMark h]
  rfl

theorem isLast_of_isKeyword {t : Token} {k : Keyword} (h : t.isKeyword k = true) : t.isLast = false := by
  rw [eq_of_isKeyword h]
  rfl

/-- What a table has an entry for is not the end of a text, if the table has none for that. -/
theorem isLast_of_eq_some {γ : Type} {t : Token} {table : Token → Option γ} {a : γ} (h : table t = some a)
    (hfinish : table .finish = none) (hinvalid : ∀ cause, table (.invalid cause) = none) : t.isLast = false := by
  cases t with
  | finish =>
    rw [hfinish] at h
    cases h
  | invalid cause =>
    rw [hinvalid cause] at h
    cases h
  | _ => rfl

end Token

namespace Parser

variable {α β : Type} {x : Parser α} {f : α → Parser β} {t : Token} {ts us : List Lexeme}

theorem bind_eq_error_iff {e : SyntaxError} :
    (x >>= f) ts = .error e ↔ x ts = .error e ∨ ∃ a us, x ts = .ok (a, us) ∧ f a us = .error e := by
  cases hfirst : x ts with
  | error e' =>
    rw [bind_error hfirst]
    constructor
    · rintro ⟨⟩
      exact .inl rfl
    · rintro (⟨⟨⟩⟩ | ⟨a, us, ⟨⟩, -⟩)
      rfl
  | ok r =>
    rw [bind_ok hfirst]
    constructor
    · exact fun h => .inr ⟨r.1, r.2, rfl, h⟩
    · rintro (⟨⟨⟩⟩ | ⟨a, us, ⟨⟩, h⟩)
      exact h

/-! ## Texts with their ends -/

/-- Whether lexemes go on to the end of their text. -/
def Ended (ts : List Lexeme) : Prop := ∃ us l, ts = us ++ [l] ∧ l.token.isLast = true

namespace Ended

theorem head_mem (h : Ended ts) : head ts ∈ ts := by
  obtain ⟨us, l, rfl, -⟩ := h
  cases us with
  | nil => exact .head _
  | cons u us => exact .head _

theorem tail (h : Ended ts) (hhead : (head ts).token.isLast = false) : Ended ts.tail := by
  obtain ⟨us, l, rfl, hl⟩ := h
  cases us with
  | nil =>
    rw [show (head ([] ++ [l])).token = l.token from rfl, hl] at hhead
    cases hhead
  | cons u us => exact ⟨us, l, rfl, hl⟩

end Ended

/-! ## Readers that remain in their text -/

/-- Whether a reader of texts that start with a token leaves the last lexeme of a text unread, and fails on the
line of one of its lexemes. -/
structure Stays (t : Token) (x : Parser α) : Prop where
  ended : ∀ {ts a us}, Ended ts → (head ts).token = t → x ts = .ok (a, us) → us <:+ ts ∧ Ended us
  error : ∀ {ts e}, Ended ts → (head ts).token = t → x ts = .error e → ∃ l ∈ ts, e.line = l.line

/-- Whether a reader leaves the last lexeme of any text unread, and fails on the line of one of its lexemes. -/
class Remains (x : Parser α) : Prop where
  stays : ∀ t, Stays t x

namespace Stays

theorem bind (hx : Stays t x) (hf : ∀ a, Remains (f a)) : Stays t (x >>= f) where
  ended hts ht hrun := by
    obtain ⟨a, us, hfirst, hnext⟩ := bind_eq_ok_iff.1 hrun
    obtain ⟨hsuffix, hus⟩ := hx.ended hts ht hfirst
    obtain ⟨hsuffix', hrest⟩ := ((hf a).stays _).ended hus rfl hnext
    exact ⟨hsuffix'.trans hsuffix, hrest⟩
  error hts ht hrun := by
    rcases bind_eq_error_iff.1 hrun with hfirst | ⟨a, us, hfirst, hnext⟩
    · exact hx.error hts ht hfirst
    · obtain ⟨hsuffix, hus⟩ := hx.ended hts ht hfirst
      obtain ⟨l, hl, hline⟩ := ((hf a).stays _).error hus rfl hnext
      exact ⟨l, hsuffix.subset hl, hline⟩

/-- A token that does not end the text may be passed over. -/
theorem advance (ht : t.isLast = false) : Stays t Parser.advance where
  ended hts hhead hrun := by
    obtain ⟨rfl, -⟩ := advance_eq_ok_iff.1 hrun
    exact ⟨List.tail_suffix _, hts.tail (hhead ▸ ht)⟩
  error hts hhead hrun := by
    unfold Parser.advance checked at hrun
    split at hrun <;> cases hrun
    exact ⟨_, List.mem_of_mem_tail (hts.tail (hhead ▸ ht)).head_mem, rfl⟩

theorem advanced {f : Unit → Parser β} (ht : t.isLast = false) (hf : ∀ a, Remains (f a)) :
    Stays t (Parser.advance >>= f) := (advance ht).bind hf

end Stays

namespace Remains

theorem bind (hx : Remains x) (hf : ∀ a, Remains (f a)) : Remains (x >>= f) := ⟨fun t => (hx.stays t).bind hf⟩

theorem after [hx : Remains x] (hf : ∀ a, Remains (f a)) : Remains (x >>= f) := hx.bind hf

instance pure (a : α) : Remains (Pure.pure a : Parser α) where
  stays _ :=
    { ended := fun hts _ hrun => by
        cases hrun
        exact ⟨List.suffix_refl _, hts⟩
      error := fun _ _ hrun => by cases hrun }

theorem map {g : α → β} (hx : Remains x) : Remains (g <$> x) := hx.bind fun a => pure (g a)

instance fail (cause : SyntaxCause) : Remains (Parser.fail cause : Parser α) where
  stays _ :=
    { ended := fun _ _ hrun => by cases hrun
      error := fun hts _ hrun => by
        cases hrun
        exact ⟨_, hts.head_mem, rfl⟩ }

/-- Nothing is read behind a failure. -/
theorem failed (cause : SyntaxCause) : Remains (Parser.fail cause >>= f) where
  stays _ :=
    { ended := fun _ _ hrun => by cases hrun
      error := fun hts _ hrun => by
        cases hrun
        exact ⟨_, hts.head_mem, rfl⟩ }

instance checked : Remains Parser.checked where
  stays _ :=
    { ended := fun hts _ hrun => by
        cases eq_of_checked hrun
        exact ⟨List.suffix_refl _, hts⟩
      error := fun hts _ hrun => by
        unfold Parser.checked at hrun
        split at hrun <;> cases hrun
        exact ⟨_, hts.head_mem, rfl⟩ }

/-- Whoever looks at the next token knows with which one the text starts. -/
theorem current {f : Token → Parser β} (hf : ∀ t, Stays t (f t)) : Remains (Parser.current >>= f) where
  stays _ :=
    { ended := fun hts _ hrun => (hf _).ended hts rfl hrun
      error := fun hts _ hrun => (hf _).error hts rfl hrun }

theorem peek {f : Lexeme → Parser β} (hf : ∀ l, Stays l.token (f l)) : Remains (Parser.peek >>= f) where
  stays _ :=
    { ended := fun hts _ hrun => (hf _).ended hts rfl hrun
      error := fun hts _ hrun => (hf _).error hts rfl hrun }

instance expectMark (m : Mark) : Remains (Parser.expectMark m) := current fun t => by
  split
  · rename_i hm
    exact .advance (Token.isLast_of_isMark hm)
  · exact stays t

instance expectKeyword (k : Keyword) : Remains (Parser.expectKeyword k) := current fun t => by
  split
  · rename_i hk
    exact .advance (Token.isLast_of_isKeyword hk)
  · exact stays t

instance skipMark (m : Mark) : Remains (Parser.skipMark m) := current fun t => by
  split
  · rename_i hm
    exact .advanced (Token.isLast_of_isMark hm) fun _ => inferInstance
  · exact stays t

instance identifier : Remains Parser.identifier := current fun t => by
  split
  · exact .advanced rfl fun _ => inferInstance
  · exact stays _

instance endStatement : Remains Parser.endStatement := peek fun l => by
  split
  · rename_i hm
    exact .advance (Token.isLast_of_isMark hm)
  · split <;> exact stays _

/-! ### Lists -/

variable {stop : Token → Bool} {item : List α → Parser α}

theorem collect (hitem : ∀ before t, stop t = false → Stays t (item before)) (limit : Nat) (read : List α) :
    Remains (Parser.collect stop item limit read : Parser (List α)) := by
  induction limit generalizing read with
  | zero => exact pure read.reverse
  | succ limit ih =>
    refine ⟨fun t => ⟨fun {ts xs us} hts ht hrun => ?_, fun {ts e} hts ht hrun => ?_⟩⟩
    · unfold Parser.collect at hrun
      split at hrun
      · cases hrun
        exact ⟨List.suffix_refl _, hts⟩
      · rename_i hstop
        have hstay := hitem read _ (Bool.not_eq_true _ ▸ hstop)
        split at hrun
        · rename_i a rest hfirst
          obtain ⟨hsuffix, hrest⟩ := hstay.ended hts rfl hfirst
          obtain ⟨hsuffix', hus⟩ := ((ih (a :: read)).stays _).ended hrest rfl hrun
          exact ⟨hsuffix'.trans hsuffix, hus⟩
        · cases hrun
    · unfold Parser.collect at hrun
      split at hrun
      · cases hrun
      · rename_i hstop
        have hstay := hitem read _ (Bool.not_eq_true _ ▸ hstop)
        split at hrun
        · rename_i a rest hfirst
          obtain ⟨hsuffix, hrest⟩ := hstay.ended hts rfl hfirst
          obtain ⟨l, hl, hline⟩ := ((ih (a :: read)).stays _).error hrest rfl hrun
          exact ⟨l, hsuffix.subset hl, hline⟩
        · rename_i hfirst
          cases hrun
          exact hstay.error hts rfl hfirst

theorem manyUnless (hitem : ∀ before t, stop t = false → Stays t (item before)) : Remains (Parser.many stop item) where
  stays t :=
    { ended := fun {ts _ _} hts ht hrun => by
        unfold Parser.many at hrun
        split at hrun
        · cases hrun
          exact ⟨List.suffix_refl _, hts⟩
        · exact ((collect hitem ts.length []).stays t).ended hts ht hrun
      error := fun {ts _} hts ht hrun => by
        unfold Parser.many at hrun
        split at hrun
        · cases hrun
        · exact ((collect hitem ts.length []).stays t).error hts ht hrun }

theorem many (hitem : ∀ before, Remains (item before)) : Remains (Parser.many stop item) :=
  manyUnless fun before t _ => (hitem before).stays t

theorem commaItems {close : Mark} (hx : Remains x) : Remains (Parser.commaItems close x) := by
  refine many fun _ => hx.bind fun a => current fun t => ?_
  dsimp only
  split
  · exact Stays.bind (stays t) fun _ => inferInstance
  · exact stays t

theorem commaSeparated (hx : Remains x) : Remains (Parser.commaSeparated x) := by
  have hrest : Remains (Parser.many (fun t => !t.isMark .comma) fun _ => do
      advance
      x) := manyUnless fun _ t ht => by
    rw [Bool.not_eq_false'] at ht
    exact .advanced (Token.isLast_of_isMark ht) fun _ => hx
  exact hx.bind fun a => hrest.bind fun xs => inferInstance

end Remains

end Parser

/-! ## The grammar -/

namespace Goal

open PageScript.Parser

variable {deeper : Deeper} {s : Surroundings} {t : Token}

/-- The tokens with which a goal may be set: `new` has been seen before what it constructs is read. -/
def Opens : Goal → Token → Prop
  | .construct, t => t.isLast = false
  | _, _ => True

/-- Whether the parsers for the goals one level deeper remain in their text. -/
def Remain (deeper : Deeper) : Prop := ∀ (g : Goal) (s : Surroundings) (t : Token), g.Opens t → Stays t (deeper g s)

theorem Remain.goal {g : Goal} (h : Remain deeper) (s : Surroundings) (hg : ∀ t, g.Opens t) : Remains (deeper g s) :=
  ⟨fun t => h g s t (hg t)⟩

theorem Remain.assignment (h : Remain deeper) (s : Surroundings) : Remains (deeper .assignment s) :=
  h.goal s fun _ => trivial

theorem Remain.statement (h : Remain deeper) (s : Surroundings) : Remains (deeper .statement s) :=
  h.goal s fun _ => trivial

/-- A token that stands for something by itself is passed over. -/
theorem passed_stays {α : Type} (ht : t.isLast = false) (a : α) : Stays t (do
    advance
    return a) := .advanced ht fun _ => inferInstance

/-! ### Expressions -/

theorem expression_remains (h : Remain deeper) (s : Surroundings) : Remains (expression deeper s) := by
  refine (Remains.commaSeparated (h.assignment s)).bind fun es => ?_
  split <;> infer_instance

theorem block_remains (h : Remain deeper) (s : Surroundings) : Remains (block deeper s) :=
  .after fun _ => (Remains.many fun _ => h.statement s).bind fun _ => .after fun _ => inferInstance

theorem function_remains (h : Remain deeper) (needsName : Bool) : Remains (function deeper needsName) := by
  have hrest : ∀ (name : Option String) (line : Nat), Remains (do
      expectMark .leftParen
      let parameters ← commaItems .rightParen Parser.identifier
      expectMark .rightParen
      let body ← block deeper .functionBody
      return FunctionTree.mk name parameters body line) := fun name line => by
    refine .after fun _ => (Remains.commaItems inferInstance).bind fun _ => .after fun _ => ?_
    exact (block_remains h _).bind fun _ => inferInstance
  refine .peek fun first => (Remains.after fun _ => .current fun t => ?_).stays _
  dsimp only
  split
  · exact .advanced rfl fun _ => .after fun name => hrest name _
  · split
    · exact (Remains.after fun name => hrest name _).stays _
    · exact (Remains.after fun name => hrest name _).stays _

theorem argumentList_remains (h : Remain deeper) (s : Surroundings) : Remains (argumentList deeper s) := by
  refine .after fun _ => (Remains.commaItems (h.assignment s.bracketed)).bind fun _ => ?_
  exact .after fun _ => inferInstance

theorem element_remains (h : Remain deeper) (s : Surroundings) : Remains (element deeper s) := by
  refine .after fun skipped => ?_
  split
  · infer_instance
  · refine (h.assignment s).bind fun e => .current fun t => ?_
    dsimp only
    split
    · exact (Remains.after fun _ => inferInstance).stays t
    · exact Remains.stays t

theorem propertyKey_remains : Remains propertyKey := .current fun t => by
  dsimp only
  split
  · exact passed_stays rfl _
  · exact passed_stays rfl _
  · exact passed_stays rfl _
  · exact passed_stays rfl _
  · exact (Remains.failed _).stays _

theorem property_remains (h : Remain deeper) (s : Surroundings) : Remains (property deeper s) :=
  propertyKey_remains.bind fun _ => .after fun _ => (h.assignment s).bind fun _ => inferInstance

theorem primary_remains (h : Remain deeper) (s : Surroundings) : Remains (primary deeper s) := .current fun t => by
  split
  · exact passed_stays rfl _
  · exact passed_stays rfl _
  · exact passed_stays rfl _
  · exact passed_stays rfl _
  · exact passed_stays rfl _
  · exact passed_stays rfl _
  · exact ((function_remains h false).bind fun _ => inferInstance).stays _
  · refine .advanced rfl fun _ => (expression_remains h _).bind fun _ => ?_
    exact .after fun _ => inferInstance
  · refine .advanced rfl fun _ => (Remains.many fun _ => element_remains h s).bind fun _ => ?_
    exact .after fun _ => inferInstance
  · refine .advanced rfl fun _ => (Remains.commaItems (property_remains h s)).bind fun _ => ?_
    exact .after fun _ => inferInstance
  · exact Remains.stays _

theorem suffixes_remains (h : Remain deeper) (s : Surroundings) (calls : Bool) (e : Expression) :
    Remains (suffixes deeper s calls e) := .current fun t => by
  split
  · exact .advanced rfl fun _ => h.goal s fun _ => trivial
  · exact .advanced rfl fun _ => h.goal s fun _ => trivial
  · split
    · exact h _ s _ trivial
    · exact Remains.stays _
  · exact Remains.stays _

theorem newExpression_stays (h : Remain deeper) (s : Surroundings) (ht : t.isLast = false) :
    Stays t (newExpression deeper s) := by
  have hargs : ∀ callee : Expression, Remains (do
      let args ← if (← Parser.current).isMark .leftParen then argumentList deeper s else pure []
      return Expression.construct callee args) := fun callee => .current fun t => by
    dsimp only
    split
    · exact ((argumentList_remains h s).bind fun _ => inferInstance).stays t
    · exact (Remains.after fun _ => inferInstance).stays t
  refine .advanced ht fun _ => .current fun u => ?_
  dsimp only
  split
  · rename_i hnew
    exact (h .construct s u (Token.isLast_of_isKeyword hnew)).bind hargs
  · exact ((primary_remains h s).bind fun e => (suffixes_remains h s false e).bind hargs).stays u

theorem leftHandSide_remains (h : Remain deeper) (s : Surroundings) : Remains (leftHandSide deeper s) :=
  .current fun t => by
    dsimp only
    split
    · rename_i hnew
      exact (newExpression_stays h s (Token.isLast_of_isKeyword hnew)).bind fun e => suffixes_remains h s true e
    · exact ((primary_remains h s).bind fun e => suffixes_remains h s true e).stays t

theorem postfixed_remains (h : Remain deeper) (s : Surroundings) : Remains (postfixed deeper s) := by
  refine (leftHandSide_remains h s).bind fun e => .peek fun l => ?_
  dsimp only
  split
  · exact Remains.stays _
  · split
    · exact Remains.stays _
    · rename_i op hop
      have hlast : l.token.isLast = false := Token.isLast_of_eq_some hop rfl fun _ => rfl
      split
      · exact (Remains.failed _).stays _
      · exact .advanced hlast fun _ => inferInstance

theorem prefixed_remains (h : Remain deeper) (s : Surroundings) : Remains (prefixed deeper s) := .current fun t => by
  have hunary : Remains (deeper .unary s) := h.goal s fun _ => trivial
  split
  · rename_i hop
    have hlast : t.isLast = false := Token.isLast_of_eq_some hop rfl fun _ => rfl
    exact .advanced hlast fun _ => hunary.bind fun _ => inferInstance
  · rename_i hop
    have hlast : t.isLast = false := Token.isLast_of_eq_some hop rfl fun _ => rfl
    refine .advanced hlast fun _ => hunary.bind fun e => ?_
    dsimp only
    split
    · exact .failed _
    · infer_instance
  · exact (postfixed_remains h s).stays _

theorem chain_remains (h : Remain deeper) (s : Surroundings) (tier : Tier) (tighter : List Tier) (e : Expression) :
    Remains (chain deeper s tier tighter e) := .current fun t => by
  split
  · rename_i hop
    have hlast : t.isLast = false := Token.isLast_of_eq_some hop rfl fun _ => rfl
    exact .advanced hlast fun _ => h.goal s fun _ => trivial
  · exact Remains.stays t

theorem tiers_remains (h : Remain deeper) (s : Surroundings) (list : List Tier) : Remains (tiers deeper s list) := by
  induction list with
  | nil => exact prefixed_remains h s
  | cons tier tighter ih => exact ih.bind fun e => chain_remains h s tier tighter e

theorem conditional_remains (h : Remain deeper) (s : Surroundings) : Remains (Goal.conditional deeper s) := by
  refine (tiers_remains h s Tier.all).bind fun test => .after fun asked => ?_
  split
  · refine (h.assignment _).bind fun yes => .after fun _ => ?_
    exact (h.assignment s).bind fun no => inferInstance
  · infer_instance

theorem assignmentExpression_remains (h : Remain deeper) (s : Surroundings) :
    Remains (assignmentExpression deeper s) := by
  refine (conditional_remains h s).bind fun left => .current fun t => ?_
  split
  · exact Remains.stays t
  · rename_i hop
    have hlast : t.isLast = false := Token.isLast_of_eq_some hop rfl fun _ => rfl
    dsimp only
    split
    · exact (Remains.failed _).stays t
    · exact .advanced hlast fun _ => (h.assignment s).bind fun _ => inferInstance

theorem dotName_remains : Remains dotName := .current fun t => by
  dsimp only
  split
  · exact passed_stays rfl _
  · exact passed_stays rfl _
  · exact passed_stays rfl _
  · exact passed_stays rfl _
  · exact (Remains.failed _).stays _

/-! ### Parts of statements -/

theorem parenthesized_remains (h : Remain deeper) (s : Surroundings) : Remains (parenthesized deeper s) :=
  .after fun _ => (expression_remains h s).bind fun _ => .after fun _ => inferInstance

theorem declarator_remains (h : Remain deeper) (s : Surroundings) : Remains (declarator deeper s) := by
  refine .after fun name => .after fun given => ?_
  split
  · exact (h.assignment s).bind fun _ => inferInstance
  · infer_instance

theorem expressionUnless_remains (h : Remain deeper) (s : Surroundings) (m : Mark) :
    Remains (expressionUnless deeper s m) := .current fun t => by
  split
  · exact Remains.stays t
  · exact ((expression_remains h s).bind fun _ => inferInstance).stays t

/-! ### Forms of statements -/

theorem ifStatement_stays (h : Remain deeper) (s : Surroundings) (ht : t.isLast = false) :
    Stays t (ifStatement deeper s) := by
  refine .advanced ht fun _ => (parenthesized_remains h s).bind fun test => ?_
  refine (h.statement s).bind fun yes => .current fun u => ?_
  split
  · rename_i helse
    refine .advanced (Token.isLast_of_isKeyword helse) fun _ => ?_
    exact (h.statement s).bind fun _ => inferInstance
  · exact Remains.stays u

theorem whileStatement_stays (h : Remain deeper) (s : Surroundings) (ht : t.isLast = false) :
    Stays t (whileStatement deeper s) := by
  refine .advanced ht fun _ => (parenthesized_remains h s).bind fun test => ?_
  exact (h.statement _).bind fun _ => inferInstance

theorem doStatement_stays (h : Remain deeper) (s : Surroundings) (ht : t.isLast = false) :
    Stays t (doStatement deeper s) := by
  refine .advanced ht fun _ => (h.statement _).bind fun body => .after fun _ => ?_
  exact (parenthesized_remains h s).bind fun test => .after fun _ => inferInstance

theorem forRest_remains (h : Remain deeper) (s : Surroundings) (start : ForStart) :
    Remains (forRest deeper s start) := by
  refine .after fun _ => (expressionUnless_remains h s _).bind fun test => .after fun _ => ?_
  refine (expressionUnless_remains h s _).bind fun update => .after fun _ => ?_
  exact (h.statement _).bind fun _ => inferInstance

theorem forInRest_stays (h : Remain deeper) (s : Surroundings) (ht : t.isLast = false) :
    Stays t (forInRest deeper s) := by
  refine .advanced ht fun _ => (expression_remains h s).bind fun object => .after fun _ => ?_
  exact (h.statement _).bind fun _ => inferInstance

theorem forStatement_stays (h : Remain deeper) (s : Surroundings) (ht : t.isLast = false) :
    Stays t (forStatement deeper s) := by
  refine .advanced ht fun _ => .after fun _ => .current fun u => ?_
  dsimp only
  split
  · exact (forRest_remains h s _).stays u
  · split
    · rename_i hvar
      refine .advanced (Token.isLast_of_isKeyword hvar) fun _ => ?_
      refine (Remains.commaSeparated (declarator_remains h _)).bind fun ds => .current fun v => ?_
      split
      · rename_i hin
        exact (forInRest_stays h s (Token.isLast_of_isKeyword hin)).bind fun _ => inferInstance
      · exact (forRest_remains h s _).stays v
    · refine ((expression_remains h _).bind fun e => .current fun v => ?_).stays u
      split
      · rename_i hin
        split
        · exact (Remains.failed _).stays v
        · exact (forInRest_stays h s (Token.isLast_of_isKeyword hin)).bind fun _ => inferInstance
      · exact (forRest_remains h s _).stays v

theorem returnStatement_stays (h : Remain deeper) (s : Surroundings) (ht : t.isLast = false) :
    Stays t (returnStatement deeper s) := by
  have hreturn : ∀ value, Remains (do
      endStatement
      return StatementForm.returnValue value) := fun value => .after fun _ => inferInstance
  unfold returnStatement
  split
  · exact (Remains.failed _).stays t
  · refine .advanced ht fun _ => .peek fun l => ?_
    dsimp only
    split
    · exact (hreturn none).stays _
    · exact ((expression_remains h s).map.bind hreturn).stays _

theorem optionalLabel_remains (s : Surroundings) : Remains (optionalLabel s) := .peek fun l => by
  split
  · rename_i hname
    split
    · exact (Remains.failed _).stays _
    · exact .advanced (by rw [hname]; rfl) fun _ => inferInstance
  · exact Remains.stays _

theorem breakStatement_stays (s : Surroundings) (ht : t.isLast = false) : Stays t (breakStatement s) := by
  refine .advanced ht fun _ => (optionalLabel_remains s).bind fun label => ?_
  dsimp only
  split
  · exact .failed _
  · exact .after fun _ => inferInstance

theorem continueStatement_stays (s : Surroundings) (ht : t.isLast = false) : Stays t (continueStatement s) := by
  refine .advanced ht fun _ => ?_
  dsimp only
  split
  · exact .failed _
  · exact (optionalLabel_remains s).bind fun _ => .after fun _ => inferInstance

theorem throwStatement_stays (h : Remain deeper) (s : Surroundings) (ht : t.isLast = false) :
    Stays t (throwStatement deeper s) := by
  refine .advanced ht fun _ => .peek fun l => ?_
  dsimp only
  split
  · exact (Remains.failed _).stays _
  · exact ((expression_remains h s).bind fun _ => .after fun _ => inferInstance).stays _

theorem handler_remains (h : Remain deeper) (s : Surroundings) : Remains (handler deeper s) := .current fun t => by
  split
  · exact Remains.stays t
  · rename_i hcatch
    rw [Bool.not_eq_true, Bool.not_eq_false'] at hcatch
    refine .advanced (Token.isLast_of_isKeyword hcatch) fun _ => .after fun _ => .after fun name => .after fun _ => ?_
    exact (block_remains h s).bind fun _ => inferInstance

theorem finalBlock_remains (h : Remain deeper) (s : Surroundings) : Remains (finalBlock deeper s) :=
  .current fun t => by
    split
    · exact Remains.stays t
    · rename_i hfinally
      rw [Bool.not_eq_true, Bool.not_eq_false'] at hfinally
      exact .advanced (Token.isLast_of_isKeyword hfinally) fun _ => (block_remains h s).bind fun _ => inferInstance

theorem tryStatement_stays (h : Remain deeper) (s : Surroundings) (ht : t.isLast = false) :
    Stays t (tryStatement deeper s) := by
  refine .advanced ht fun _ => (block_remains h s).bind fun body => ?_
  refine (handler_remains h s).bind fun caught => (finalBlock_remains h s).bind fun final => ?_
  split <;> infer_instance

theorem switchClause_remains (h : Remain deeper) (s : Surroundings) (before : List SwitchClause) :
    Remains (switchClause deeper s before) := by
  have hclause : ∀ test, Remains (do
      expectMark .colon
      let body ← many endsClause fun _ => deeper .statement s
      return SwitchClause.mk test body) := fun test =>
    .after fun _ => (Remains.many fun _ => h.statement s).bind fun _ => inferInstance
  refine .current fun t => ?_
  dsimp only
  split
  · exact .advanced rfl fun _ => (expression_remains h s).map.bind hclause
  · split
    · exact (Remains.failed _).stays _
    · exact .advanced rfl fun _ => .after hclause
  · exact (Remains.failed _).stays _

theorem switchStatement_stays (h : Remain deeper) (s : Surroundings) (ht : t.isLast = false) :
    Stays t (switchStatement deeper s) := by
  refine .advanced ht fun _ => (parenthesized_remains h s).bind fun value => .after fun _ => ?_
  refine (Remains.many fun before => switchClause_remains h _ before).bind fun clauses => ?_
  exact .after fun _ => inferInstance

theorem withStatement_stays (h : Remain deeper) (s : Surroundings) (ht : t.isLast = false) :
    Stays t (withStatement deeper s) := by
  refine .advanced ht fun _ => (parenthesized_remains h s).bind fun object => ?_
  exact (h.statement s).bind fun _ => inferInstance

theorem labelAhead_remains : Remains labelAhead where
  stays t :=
    { ended := fun hts _ hrun => by
        cases Seam.labelAhead_rest hrun
        exact ⟨List.suffix_refl _, hts⟩
      error := fun {ts _} hts _ hrun => by
        unfold labelAhead at hrun
        split at hrun
        · rename_i name line b rest _
          split at hrun
          · cases hrun
          · rename_i hchecked
            cases hrun
            have hrest : Ended rest := hts.tail rfl
            obtain ⟨l, hl, hline⟩ := (Remains.checked.stays _).error hrest rfl hchecked
            exact ⟨l, .tail _ hl, hline⟩
        · cases hrun }

theorem otherStatement_remains (h : Remain deeper) (s : Surroundings) : Remains (otherStatement deeper s) := by
  -- The two tokens of a label were seen ahead, so that passing over them is reading an identifier and a colon.
  rw [Seam.otherStatement_eq]
  refine labelAhead_remains.bind fun label => ?_
  split
  · exact .after fun _ => .after fun _ => (h.statement _).bind fun _ => inferInstance
  · exact (expression_remains h s).bind fun _ => .after fun _ => inferInstance

theorem statementForm_remains (h : Remain deeper) (s : Surroundings) : Remains (statementForm deeper s) :=
  .current fun t => by
    have hother := otherStatement_remains h s
    cases t with
    | mark m =>
      cases m with
      | leftBrace => exact ((block_remains h s).bind fun _ => inferInstance).stays _
      | semicolon => exact .advanced rfl fun _ => inferInstance
      | _ => exact hother.stays _
    | keyword k =>
      cases k with
      | varWord =>
        refine .advanced rfl fun _ => (Remains.commaSeparated (declarator_remains h s)).bind fun _ => ?_
        exact .after fun _ => inferInstance
      | functionWord => exact ((function_remains h true).bind fun _ => inferInstance).stays _
      | ifWord => exact ifStatement_stays h s rfl
      | whileWord => exact whileStatement_stays h s rfl
      | doWord => exact doStatement_stays h s rfl
      | forWord => exact forStatement_stays h s rfl
      | returnWord => exact returnStatement_stays h s rfl
      | breakWord => exact breakStatement_stays s rfl
      | continueWord => exact continueStatement_stays s rfl
      | throwWord => exact throwStatement_stays h s rfl
      | tryWord => exact tryStatement_stays h s rfl
      | switchWord => exact switchStatement_stays h s rfl
      | withWord => exact withStatement_stays h s rfl
      | _ => exact hother.stays _
    | _ => exact hother.stays _

/-! ### The knot -/

theorem rule_remain (h : Remain deeper) : Remain (rule deeper) := by
  intro g s t hg
  cases g with
  | statement =>
    exact (Remains.peek fun _ => ((statementForm_remains h s).bind fun _ => inferInstance).stays _).stays t
  | assignment => exact (assignmentExpression_remains h s).stays t
  | unary => exact (prefixed_remains h s).stays t
  | construct => exact newExpression_stays h s hg
  | operand tier tighter left op =>
    exact ((tiers_remains h s tighter).bind fun right => chain_remains h s tier tighter _).stays t
  | memberName e calls => exact (dotName_remains.bind fun name => suffixes_remains h s calls _).stays t
  | memberKey e calls =>
    refine ((expression_remains h _).bind fun key => .after fun _ => ?_).stays t
    exact suffixes_remains h s calls _
  | arguments e => exact ((argumentList_remains h s).bind fun args => suffixes_remains h s true _).stays t

/-- Whatever nesting is left, no goal is read beyond the text. -/
theorem parse_remain (levels : Nat) : Remain (parse levels) := by
  induction levels with
  | zero => exact fun g s t _ => (Remains.fail .tooDeep).stays t
  | succ levels ih => exact rule_remain ih

end Goal

open PageScript.Parser in
theorem Program.ofLexemes_remains : Remains Program.ofLexemes :=
  .after fun _ => .many fun _ => (Goal.parse_remain _).statement _

end PageScript
