import PageScript.Proofs.Rereading.Readers

/-! # Reading an expression again

An expression is read again as the same expression, also where `in` is no operator, if every operator `in`
stands inside a bracket that lifts this restriction.
-/

set_option autoImplicit false

namespace PageScript

open PageScript.Parser PageScript.Goal

namespace Parser.Seam

variable {k : Seam} {S : List Bool} {s s' : Surroundings} {e : Nat} {d d' : Deeper}

/-! ## Places of readers -/

/-- Whether a second reading in other surroundings is to be the same inside the brackets `S`: they are the same
surroundings, or `in` is no operator there, which no bracket has lifted yet. -/
def Fits (k : Seam) (S : List Bool) (s s' : Surroundings) : Prop :=
  s' = s ∨ k.judged ∧ true ∉ S ∧ s' = s.loopHead

/-- A place inside the brackets `S`. -/
def Stands (S : List Bool) (q : Place) (_ : Token) : Prop := q.brackets = S

/-- A place inside the brackets `S` where an operand may begin, if that matters. -/
def Starts (S : List Bool) (s s' : Surroundings) (q : Place) (_ : Token) : Prop :=
  q.brackets = S ∧ (s' = s ∨ q.before.opensOperand = true)

/-- A place inside the brackets `S` behind an operand that takes suffixes. -/
def Holds (S : List Bool) (q : Place) (_ : Token) : Prop := q.brackets = S ∧ q.before.endsOperand = true

/-- A place inside the brackets `S` behind an expression. -/
def Ends (S : List Bool) (q : Place) (_ : Token) : Prop := q.brackets = S ∧ q.before.endsExpression = true

/-- A place inside the brackets `S` behind a point. -/
def Points (S : List Bool) (q : Place) (_ : Token) : Prop := q.brackets = S ∧ q.before = .point

theorem Holds.ends {q : Place} {t : Token} (h : Holds S q t) : Ends S q t :=
  ⟨h.1, Before.endsExpression_of_endsOperand h.2⟩

/-- In the same surroundings it does not matter what comes before. -/
theorem starts_self {q : Place} {t : Token} (h : q.brackets = S) : Starts S s s q t := ⟨h, .inl rfl⟩

namespace Fits

theorem self (k : Seam) (S : List Bool) (s : Surroundings) : k.Fits S s s := .inl rfl

theorem bracketed (h : k.Fits S s s') : s'.bracketed = s.bracketed := by
  rcases h with rfl | ⟨-, -, rfl⟩ <;> rfl

/-- A bracket that does not lift the restriction changes nothing. -/
theorem inside {b : Bool} (h : k.Fits S s s') (hb : s' = s ∨ b = false) : k.Fits (b :: S) s s' := by
  rcases hb with rfl | rfl
  · exact .inl rfl
  · refine h.imp_right fun ⟨hk, hS, hs⟩ => ⟨hk, fun hmem => ?_, hs⟩
    rcases List.mem_cons.1 hmem with hmem | hmem
    · cases hmem
    · exact hS hmem

end Fits

/-! ## Goals -/

/-- Whether the goals one level deeper are read again. -/
structure Carries (k : Seam) (d d' : Deeper) : Prop where
  statement : ∀ {e} (S s), Rereads k e 1 (Stands S) (Stands S) (Statement.renumber k.lines)
    (d .statement s) (d' .statement s)
  assignment : ∀ {e S s s'}, k.Fits S s s' → Rereads k e 1 (Starts S s s') (Ends S)
    (Expression.renumber k.lines) (d .assignment s) (d' .assignment s')
  unary : ∀ {e S s s'}, k.Fits S s s' → Rereads k e 1 (Starts S s s') (Ends S)
    (Expression.renumber k.lines) (d .unary s) (d' .unary s')
  construct : ∀ {e S s s'}, k.Fits S s s' → Rereads k e 1
    (fun q t => Starts S s s' q t ∧ t.isKeyword .newWord = true) (Holds S)
    (Expression.renumber k.lines) (d .construct s) (d' .construct s')
  operand : ∀ {e S s s'} (tier tighter left op), k.Fits S s s' → Rereads k e 1 (Starts S s s') (Ends S)
    (Expression.renumber k.lines) (d (.operand tier tighter left op) s)
    (d' (.operand tier tighter (left.renumber k.lines) op) s')
  memberName : ∀ {e S s s'} (object calls), k.Fits S s s' → Rereads k e 1 (Points S) (Holds S)
    (Expression.renumber k.lines) (d (.memberName object calls) s)
    (d' (.memberName (object.renumber k.lines) calls) s')
  memberKey : ∀ {e S s s'} (object calls), k.Fits S s s' → Rereads k e 1 (Stands (true :: S)) (Holds S)
    (Expression.renumber k.lines) (d (.memberKey object calls) s)
    (d' (.memberKey (object.renumber k.lines) calls) s')
  arguments : ∀ {e S s s'} (callee), k.Fits S s s' → Rereads k e 1 (Stands S) (Holds S)
    (Expression.renumber k.lines) (d (.arguments callee) s) (d' (.arguments (callee.renumber k.lines)) s')

/-! ## Tokens that are read by themselves -/

theorem leaf_rereads {f : Expression} {P : Place → Token → Prop}
    (hpre : ∀ q t, P q t → t ≠ .finish ∧ q.bracketsAfter t = S ∧ q.before.after t = .operand) :
    Rereads k e 1 P (Holds S) (Expression.renumber k.lines) (leaf f) (leaf (f.renumber k.lines)) := by
  have hnext : Rereads k e 1 P (Holds S) id advance advance := .advance fun q t hp => by
    obtain ⟨hfinish, hbrackets, hbefore⟩ := hpre q t hp
    exact ⟨hfinish, fun _ => ⟨hbrackets, by rw [Place.next, hbefore]; rfl⟩⟩
  exact hnext.bind fun _ => .pure fun _ _ hp => hp

/-- The key of a property, whatever it looks like. -/
theorem propertyKey_rereads : Rereads k e 1 (Stands S) (Stands S) id propertyKey propertyKey := by
  have hrest : ∀ (t : Token) (key : PropertyKey), t ≠ .finish → (∀ q : Place, q.bracketsAfter t = q.brackets) →
      Rereads k e 1 (fun q u => Stands S q u ∧ u = t) (Stands S) id
        (do
          advance
          return key)
        (do
          advance
          return key) := by
    intro t key hfinish hbrackets
    have hnext : Rereads k e 1 (fun q u => Stands S q u ∧ u = t) (Stands S) id advance advance :=
      .advance fun q u hu => by
        obtain ⟨hp, rfl⟩ := hu
        exact ⟨hfinish, fun _ => (hbrackets q).trans hp⟩
    exact hnext.bind fun _ => .pure fun _ _ hp => hp
  refine .currentAhead (Nat.succ_pos e) fun t => ?_
  dsimp only
  split
  · exact hrest _ _ (by rintro ⟨⟩) fun _ => rfl
  · exact hrest _ _ (by rintro ⟨⟩) fun _ => rfl
  · exact hrest _ _ (by rintro ⟨⟩) fun _ => rfl
  · exact hrest _ _ (by rintro ⟨⟩) fun _ => rfl
  · exact .failed

/-- The name of a member behind a point. -/
theorem dotName_rereads : Rereads k e 1 (Points S) (Holds S) id dotName dotName := by
  have hrest : ∀ (t : Token) (name : String), t ≠ .finish →
      (∀ b : List Bool, (Place.mk b .point).next t = ⟨b, .operand⟩) →
      Rereads k e 1 (fun q u => Points S q u ∧ u = t) (Holds S) id
        (do
          advance
          return name)
        (do
          advance
          return name) := by
    intro t name hfinish hplace
    have hnext : Rereads k e 1 (fun q u => Points S q u ∧ u = t) (Holds S) id advance advance :=
      .advance fun q u ⟨hp, hu⟩ => by
        obtain ⟨b, before⟩ := q
        obtain ⟨rfl, rfl⟩ := hp
        rw [hu]
        refine ⟨hfinish, fun _ => ?_⟩
        rw [hplace]
        exact ⟨rfl, rfl⟩
    exact hnext.bind fun _ => .pure fun _ _ hp => hp
  refine .currentAhead (Nat.succ_pos e) fun t => ?_
  dsimp only
  split
  · exact hrest _ _ nofun fun _ => rfl
  · exact hrest _ _ nofun fun b => congrArg (Place.mk b) (Before.after_point _)
  · exact hrest _ _ nofun fun _ => rfl
  · exact hrest _ _ nofun fun _ => rfl
  · exact .failed

/-- Behind an operator or a reserved word an operand may begin. -/
theorem advance_rereads {P : Place → Token → Prop}
    (hpre : ∀ q t, P q t → t.LeadsOn ∧ q.brackets = S ∧ (s' = s ∨ q.before ≠ .point)) :
    Rereads k e 1 P (Starts S s s') id advance advance :=
  .advance fun q t hp => by
    obtain ⟨ht, hbrackets, hbefore⟩ := hpre q t hp
    exact ⟨ht.notFinish, fun _ => ⟨(ht.brackets q).trans hbrackets, hbefore.imp_right (ht.before _)⟩⟩

namespace Carries

variable (hd : k.Carries d d')

include hd

/-! ## Expressions -/

theorem expression (hs : k.Fits S s s') :
    Rereads k e 1 (Starts S s s') (Ends S) (Expression.renumber k.lines) (expression d s) (expression d' s') := by
  have hparts := Rereads.commaSeparated (hd.assignment (e := e) hs) fun q hp u => ⟨hp.1, .inr rfl⟩
  refine hparts.bind fun es => ?_
  have hall := Expression.renumberAll_eq k.lines
  match es with
  | [] => exact .give (by rw [Expression.renumber, hall]) fun _ _ hp => hp
  | [f] => exact .pure fun _ _ hp => hp
  | f :: g :: es => exact .give (by rw [Expression.renumber, hall]; rfl) fun _ _ hp => hp

theorem block (S : List Bool) (s : Surroundings) :
    Rereads k e 1 (Stands S) (Holds S) (List.map (Statement.renumber k.lines)) (block d s) (block d' s) := by
  have hopen : Rereads k e 1 (Stands S) (fun q t => ∃ b, Stands (b :: S) q t) id (expectMark .leftBrace)
      (expectMark .leftBrace) := .expectMark fun q hp u => ⟨_, congrArg (_ :: ·) hp⟩
  refine hopen.bind fun _ => (Rereads.cases fun b => ?_)
  have hbody : Rereads k (e + 1) 0 (Stands (b :: S)) (Stands (b :: S)) (List.map (Statement.renumber k.lines))
      (many (fun t => t.isMark .rightBrace || t.isFinish) fun _ => d .statement s)
      (many (fun t => t.isMark .rightBrace || t.isFinish) fun _ => d' .statement s) :=
    .many (fun _ => rfl) fun _ => (hd.statement (b :: S) s).imp (fun _ _ hp => hp.1) fun _ _ hp => hp
  refine (hbody.before fun body => ?_).lax
  have hclose : Rereads k e 1 (Stands (b :: S)) (Holds S) id (expectMark .rightBrace) (expectMark .rightBrace) :=
    .expectMark fun q hp u => ⟨congrArg List.tail hp, rfl⟩
  exact hclose.bind fun _ => .pure fun _ _ hp => hp

theorem function (S : List Bool) (needsName : Bool) :
    Rereads k e 1 (Stands S) (Holds S) (FunctionTree.renumber k.lines) (function d needsName)
      (function d' needsName) := by
  have hrest : ∀ (name : Option String) (line : Nat), Rereads k e 1 (Stands S) (Holds S)
      (FunctionTree.renumber k.lines)
      (do
        expectMark .leftParen
        let parameters ← commaItems .rightParen Parser.identifier
        expectMark .rightParen
        let body ← Goal.block d .functionBody
        return FunctionTree.mk name parameters body line)
      (do
        expectMark .leftParen
        let parameters ← commaItems .rightParen Parser.identifier
        expectMark .rightParen
        let body ← Goal.block d' .functionBody
        return FunctionTree.mk name parameters body (k.lines line)) := by
    intro name line
    have hopen : Rereads k e 1 (Stands S) (Stands (true :: S)) id (expectMark .leftParen) (expectMark .leftParen) :=
      .expectMark fun q hp u => congrArg (true :: ·) hp
    have hname : Rereads k (e + 1) 1 (fun q u => Stands (true :: S) q u ∧ u.isMark .rightParen = false)
        (Stands (true :: S)) id Parser.identifier Parser.identifier := .identifier fun q name hp u => hp.1
    have hnames : Rereads k (e + 1) 0 (Stands (true :: S)) (Stands (true :: S)) (List.map id)
        (commaItems .rightParen Parser.identifier) (commaItems .rightParen Parser.identifier) :=
      .commaItems hname (fun _ _ hp _ => hp) fun q hp u => hp
    have hclose : Rereads k e 1 (Stands (true :: S)) (Stands S) id (expectMark .rightParen) (expectMark .rightParen) :=
      .expectMark fun q hp u => congrArg List.tail hp
    refine hopen.bind fun _ => (hnames.before fun parameters => ?_).lax
    rw [List.map_id]
    refine hclose.bind fun _ => (hd.block S .functionBody).lax.bind fun body => ?_
    exact .give (by rw [FunctionTree.renumber, Statement.renumberAll_eq]) fun _ _ hp => hp
  refine .peekAhead (Nat.succ_pos e) fun l => ?_
  have hword : Rereads k e 1 (fun q u => Stands S q u ∧ u = l.token) (Stands S) id
      (expectKeyword .functionWord) (expectKeyword .functionWord) := .expectKeyword fun q hp u => hp.1
  refine hword.bind fun _ => (Rereads.currentAhead (n := 1) (Nat.succ_pos e) fun t => ?_).lax
  dsimp only
  split
  · rename_i name
    have hname : Rereads k e 1 (fun q u => Stands S q u ∧ u = .identifier name) (Stands S) id advance advance :=
      .advance fun q u hu => by
        obtain ⟨hp, rfl⟩ := hu
        exact ⟨by rintro ⟨⟩, fun _ => hp⟩
    exact hname.bind fun _ => (hrest (some name) l.line).lax
  · split
    · exact .failed
    · exact (hrest none l.line).imp (fun _ _ hp => hp.1) fun _ _ hp => hp

theorem argumentList (hs : k.Fits S s s') :
    Rereads k e 1 (Stands S) (Holds S) (List.map (Expression.renumber k.lines)) (argumentList d s)
      (argumentList d' s') := by
  have hopen : Rereads k e 1 (Stands S) (Stands (true :: S)) id (expectMark .leftParen) (expectMark .leftParen) :=
    .expectMark fun q hp u => congrArg (true :: ·) hp
  have hargs : Rereads k (e + 1) 0 (Stands (true :: S)) (Stands (true :: S)) (List.map (Expression.renumber k.lines))
      (commaItems .rightParen (d .assignment s.bracketed)) (commaItems .rightParen (d' .assignment s'.bracketed)) := by
    rw [hs.bracketed]
    exact .commaItems ((hd.assignment (.self k (true :: S) s.bracketed)).imp (fun q t hp => starts_self hp.1)
      fun _ _ hp => hp.1) (fun _ _ hp _ => hp) fun q hp u => hp
  have hclose : Rereads k e 1 (Stands (true :: S)) (Holds S) id (expectMark .rightParen) (expectMark .rightParen) :=
    .expectMark fun q hp u => ⟨congrArg List.tail hp, rfl⟩
  refine hopen.bind fun _ => (hargs.before fun args => ?_).lax
  exact hclose.bind fun _ => .pure fun _ _ hp => hp

theorem element {b : Bool} (hs : k.Fits (b :: S) s s') :
    Rereads k e 1 (fun q t => (Starts (b :: S) s s' q t ∨ Stands (b :: S) q t ∧ t.isMark .rightBracket = true) ∧
        t.isMark .rightBracket = false)
      (fun q t => Starts (b :: S) s s' q t ∨ Stands (b :: S) q t ∧ t.isMark .rightBracket = true)
      (Option.map (Expression.renumber k.lines)) (element d s) (element d' s') := by
  refine Rereads.imp (P := Starts (b :: S) s s') ?_ (fun q t ⟨hp, ht⟩ => ?_) fun _ _ hp => hp
  · refine .skipMark (M := Starts (b :: S) s s') nofun (fun q hp u => ⟨hp.1, .inr rfl⟩) ?_ ?_ (Nat.le_refl 1)
    · exact .pure fun _ _ hp => .inl hp
    · refine Rereads.bind ((hd.assignment hs).imp (fun _ _ hp => hp.1) fun _ _ hp => hp) fun f => ?_
      refine .current rfl fun t => ?_
      dsimp only
      split
      · have hcomma : Rereads k e 1 (fun q u => Ends (b :: S) q u ∧ u = t) (Starts (b :: S) s s') id
            (expectMark .comma) (expectMark .comma) := .expectMark fun q hp u => ⟨hp.1.1, .inr rfl⟩
        exact hcomma.lax.bind fun _ => .pure fun _ _ hp => .inl hp
      · rename_i ht
        rw [Bool.not_eq_true, Bool.not_eq_false'] at ht
        exact .pure fun q u ⟨hp, hu⟩ => .inr ⟨hp.1, hu ▸ ht⟩
  · refine hp.elim (fun h => h) fun h => ?_
    rw [h.2] at ht
    cases ht

theorem property (hs : k.Fits S s s') :
    Rereads k e 1 (Stands S) (Ends S) (fun x => (x.1, x.2.renumber k.lines)) (property d s) (property d' s') := by
  have hcolon : Rereads k e 1 (Stands S) (Starts S s s') id (expectMark .colon) (expectMark .colon) :=
    .expectMark fun q hp u => ⟨hp, .inr rfl⟩
  refine propertyKey_rereads.bind fun key => (hcolon.bind fun _ => ?_).lax
  exact (hd.assignment hs).lax.bind fun f => .give rfl fun _ _ hp => hp

theorem primary (hs : k.Fits S s s') :
    Rereads k e 1 (Starts S s s') (Holds S) (Expression.renumber k.lines) (primary d s) (primary d' s') := by
  have hleaf : ∀ (t : Token) (f : Expression), t ≠ .finish → (∀ q : Place, q.bracketsAfter t = q.brackets) →
      (∀ b : Before, b.after t = .operand) → Rereads k e 1 (fun q u => Starts S s s' q u ∧ u = t) (Holds S)
        (Expression.renumber k.lines) (leaf f) (leaf (f.renumber k.lines)) :=
    fun t f hfinish hbrackets hbefore => leaf_rereads fun q u ⟨hp, hu⟩ => by
      rw [hu]
      exact ⟨hfinish, (hbrackets q).trans hp.1, hbefore _⟩
  refine .currentAhead (Nat.succ_pos e) fun t => ?_
  split
  · exact hleaf _ _ nofun (fun _ => rfl) fun _ => rfl
  · exact hleaf _ _ nofun (fun _ => rfl) fun _ => rfl
  · exact hleaf _ _ nofun (fun _ => rfl) fun _ => rfl
  · exact hleaf _ _ nofun (fun _ => rfl) fun _ => rfl
  · exact hleaf _ _ nofun (fun _ => rfl) fun _ => rfl
  · exact hleaf _ _ nofun (fun _ => rfl) fun _ => rfl
  · exact ((hd.function S false).imp (fun _ _ hp => hp.1.1) fun _ _ hp => hp).bind fun f => .pure fun _ _ hp => hp
  · have hopen : Rereads k e 1 (fun q u => Starts S s s' q u ∧ u = .mark .leftParen) (Stands (true :: S)) id
        advance advance := .advance fun q u ⟨hp, hu⟩ => by
      rw [hu]
      exact ⟨nofun, fun _ => congrArg (true :: ·) hp.1⟩
    have hclose : Rereads k e 1 (Ends (true :: S)) (Holds S) id (expectMark .rightParen) (expectMark .rightParen) :=
      .expectMark fun q hp u => ⟨congrArg List.tail hp.1, rfl⟩
    rw [hs.bracketed]
    refine hopen.bind fun _ => ?_
    refine (Rereads.before ((hd.expression (.self k (true :: S) s.bracketed)).lax.imp
      (fun _ _ hp => starts_self hp) fun _ _ hp => hp) fun f => ?_).lax
    exact hclose.bind fun _ => .pure fun _ _ hp => hp
  · have hopen : Rereads k e 1 (fun q u => Starts S s s' q u ∧ u = .mark .leftBracket)
        (fun q u => ∃ b : {b : Bool // s' = s ∨ b = false}, Starts (b.1 :: S) s s' q u) id advance advance :=
      .advance fun q u ⟨hp, hu⟩ => by
        rw [hu]
        refine ⟨nofun, fun _ => ⟨⟨q.before.endsOperand, ?_⟩, congrArg (_ :: ·) hp.1, .inr rfl⟩⟩
        exact hp.2.imp_right Before.not_endsOperand_of_opensOperand
    refine hopen.bind fun _ => (Rereads.cases fun b => ?_)
    have helements : Rereads k (e + 1) 0
        (fun q t => Starts (b.1 :: S) s s' q t ∨ Stands (b.1 :: S) q t ∧ t.isMark .rightBracket = true)
        (fun q t => Starts (b.1 :: S) s s' q t ∨ Stands (b.1 :: S) q t ∧ t.isMark .rightBracket = true)
        (List.map (Option.map (Expression.renumber k.lines)))
        (many (·.isMark .rightBracket) fun _ => Goal.element d s)
        (many (·.isMark .rightBracket) fun _ => Goal.element d' s') :=
      .many nofun fun _ => hd.element (hs.inside b.2)
    refine (Rereads.before (helements.imp (fun _ _ hp => .inl hp) fun _ _ hp => hp) fun es => ?_).lax
    have hclose : Rereads k e 1
        (fun q t => Starts (b.1 :: S) s s' q t ∨ Stands (b.1 :: S) q t ∧ t.isMark .rightBracket = true)
        (Holds S) id (expectMark .rightBracket) (expectMark .rightBracket) :=
      .expectMark fun q hp u => ⟨congrArg List.tail (hp.elim (·.1) (·.1)), rfl⟩
    refine hclose.bind fun _ => .give ?_ fun _ _ hp => hp
    rw [Expression.renumber, Expression.renumberElements_eq]
  · have hopen : Rereads k e 1 (fun q u => Starts S s s' q u ∧ u = .mark .leftBrace)
        (fun q u => ∃ b : {b : Bool // s' = s ∨ b = false}, Stands (b.1 :: S) q u) id advance advance :=
      .advance fun q u ⟨hp, hu⟩ => by
        rw [hu]
        refine ⟨nofun, fun _ => ⟨⟨q.before == .closing, ?_⟩, congrArg (_ :: ·) hp.1⟩⟩
        exact hp.2.imp_right Before.not_closing_of_opensOperand
    refine hopen.bind fun _ => (Rereads.cases fun b => ?_)
    have hproperties : Rereads k (e + 1) 0 (Stands (b.1 :: S)) (Stands (b.1 :: S))
        (List.map fun x => (x.1, x.2.renumber k.lines)) (commaItems .rightBrace (Goal.property d s))
        (commaItems .rightBrace (Goal.property d' s')) :=
      .commaItems ((hd.property (hs.inside b.2)).imp (fun _ _ hp => hp.1) fun _ _ hp => hp)
        (fun _ _ hp _ => hp.1) fun q hp u => hp.1
    refine (hproperties.before fun xs => ?_).lax
    have hclose : Rereads k e 1 (Stands (b.1 :: S)) (Holds S) id (expectMark .rightBrace) (expectMark .rightBrace) :=
      .expectMark fun q hp u => ⟨congrArg List.tail hp, rfl⟩
    refine hclose.bind fun _ => .give ?_ fun _ _ hp => hp
    rw [Expression.renumber, Expression.renumberProperties_eq]
  · exact .failed

theorem suffixes (hs : k.Fits S s s') (calls : Bool) (f : Expression) :
    Rereads k e 0 (Holds S) (Holds S) (Expression.renumber k.lines) (suffixes d s calls f)
      (suffixes d' s' calls (f.renumber k.lines)) := by
  refine .current rfl fun t => ?_
  split
  · have hpoint : Rereads k e 1 (fun q u => Holds S q u ∧ u = .mark .dot) (Points S) id advance advance :=
      .advance fun q u ⟨hp, hu⟩ => by
        rw [hu]
        exact ⟨nofun, fun _ => ⟨hp.1, rfl⟩⟩
    exact hpoint.lax.bind fun _ => (hd.memberName f calls hs).lax
  · have hopen : Rereads k e 1 (fun q u => Holds S q u ∧ u = .mark .leftBracket) (Stands (true :: S)) id
        advance advance := .advance fun q u ⟨hp, hu⟩ => by
      rw [hu]
      exact ⟨nofun, fun _ => by rw [Stands, Place.next, Place.bracketsAfter, hp.1, hp.2]⟩
    exact hopen.lax.bind fun _ => (hd.memberKey f calls hs).lax
  · split
    · exact (hd.arguments f hs).lax.imp (fun _ _ hp => hp.1.1) fun _ _ hp => hp
    · exact .pure fun _ _ hp => hp.1
  · exact .pure fun _ _ hp => hp.1

theorem newExpression (hs : k.Fits S s s') :
    Rereads k e 1 (fun q t => Starts S s s' q t ∧ t.isKeyword .newWord = true) (Holds S)
      (Expression.renumber k.lines) (newExpression d s) (newExpression d' s') := by
  have hword : Rereads k e 1 (fun q t => Starts S s s' q t ∧ t.isKeyword .newWord = true) (Starts S s s') id
      advance advance := advance_rereads fun q t ⟨hp, ht⟩ => by
    rw [Token.eq_of_isKeyword ht]
    exact ⟨.keyword nofun, hp.1, hp.2.imp_right Before.ne_point_of_opensOperand⟩
  have hargs : ∀ f : Expression, Rereads k e 0 (Holds S) (Holds S) (Expression.renumber k.lines)
      (do
        let args ← if (← current).isMark .leftParen then Goal.argumentList d s else pure []
        return Expression.construct f args)
      (do
        let args ← if (← current).isMark .leftParen then Goal.argumentList d' s' else pure []
        return Expression.construct (f.renumber k.lines) args) := by
    intro f
    have hgive : ∀ args : List Expression, Rereads k e 0 (Holds S) (Holds S) (Expression.renumber k.lines)
        (pure (Expression.construct f args))
        (pure (Expression.construct (f.renumber k.lines) (args.map (Expression.renumber k.lines)))) := fun args =>
      .give (by rw [Expression.renumber, Expression.renumberAll_eq]) fun _ _ hp => hp
    refine .current rfl fun t => ?_
    dsimp only
    split
    · exact ((hd.argumentList hs).lax.imp (fun _ _ hp => hp.1.1) fun _ _ hp => hp).bind hgive
    · exact (hgive []).imp (fun _ _ hp => hp.1) fun _ _ hp => hp
  refine hword.bind fun _ => ?_
  refine Rereads.lax (n := 1) (.currentAhead (Nat.succ_pos e) fun t => ?_)
  dsimp only
  split
  · rename_i ht
    refine Rereads.bind ((hd.construct hs).imp (fun q u ⟨hp, hu⟩ => ⟨hp, hu ▸ ht⟩) fun _ _ hp => hp) hargs
  · refine Rereads.bind ((hd.primary hs).imp (fun _ _ hp => hp.1) fun _ _ hp => hp) fun f => ?_
    exact (hd.suffixes hs false f).bind hargs

theorem leftHandSide (hs : k.Fits S s s') :
    Rereads k e 1 (Starts S s s') (Holds S) (Expression.renumber k.lines) (leftHandSide d s) (leftHandSide d' s') := by
  refine .currentAhead (Nat.succ_pos e) fun t => ?_
  dsimp only
  split
  · rename_i ht
    refine Rereads.bind ((hd.newExpression hs).imp (fun q u ⟨hp, hu⟩ => ⟨hp, hu ▸ ht⟩) fun _ _ hp => hp) ?_
    exact hd.suffixes hs true
  · refine Rereads.bind ((hd.primary hs).imp (fun _ _ hp => hp.1) fun _ _ hp => hp) ?_
    exact hd.suffixes hs true

theorem postfixed (hs : k.Fits S s s') :
    Rereads k e 1 (Starts S s s') (Ends S) (Expression.renumber k.lines) (postfixed d s) (postfixed d' s') := by
  have hnone : ∀ {t : Token}, t.closes = true → updateOperator? t = none := by
    intro t ht
    rcases Token.eq_of_closes ht with rfl | rfl <;> rfl
  refine (hd.leftHandSide hs).bind fun f => .peek (fun l l' hl => ?_) fun l => ?_
  · rcases hl with ⟨ht, hb⟩ | ⟨hl, hl'⟩
    · rw [ht, hb]
    · rw [hnone hl, hnone hl', ite_self, ite_self]
  · split
    · exact .pure fun _ _ hp => hp.1.ends
    · cases hop : updateOperator? l.token with
      | none => exact .pure fun _ _ hp => hp.1.ends
      | some op =>
        rw [Expression.isTarget_renumber]
        cases f.isTarget with
        | false => exact .failed
        | true =>
          have hmark : Rereads k e 1 (fun q u => Holds S q u ∧ u = l.token) (Ends S) id advance advance :=
            .advance fun q u ⟨hp, hu⟩ => by
              obtain ⟨hleads, hchange⟩ := Token.LeadsOn.update hop
              rw [hu]
              exact ⟨hleads.notFinish, fun _ => ⟨(hleads.brackets q).trans hp.1, by
                rw [Place.next, hchange]
                rfl⟩⟩
          exact hmark.lax.bind fun _ => .pure fun _ _ hp => hp

theorem prefixed (hs : k.Fits S s s') :
    Rereads k e 1 (Starts S s s') (Ends S) (Expression.renumber k.lines) (prefixed d s) (prefixed d' s') := by
  have hnext : ∀ {t : Token}, t.LeadsOn →
      Rereads k e 1 (fun q u => Starts S s s' q u ∧ u = t) (Starts S s s') id advance advance := fun ht =>
    advance_rereads fun q u ⟨hp, hu⟩ => ⟨hu ▸ ht, hp.1, hp.2.imp_right Before.ne_point_of_opensOperand⟩
  refine .currentAhead (Nat.succ_pos e) fun t => ?_
  cases hunary : unaryOperator? t with
  | some op => exact (hnext (.unary hunary)).bind fun _ => (hd.unary hs).lax.bind fun f => .pure fun _ _ hp => hp
  | none =>
    cases hupdate : updateOperator? t with
    | some op =>
      refine (hnext (Token.LeadsOn.update hupdate).1).bind fun _ => (hd.unary hs).lax.bind fun f => ?_
      rw [Expression.isTarget_renumber]
      cases f.isTarget with
      | false => exact .failed
      | true => exact .pure fun _ _ hp => hp
    | none => exact (hd.postfixed hs).imp (fun _ _ hp => hp.1) fun _ _ hp => hp

theorem chain (hs : k.Fits S s s') (tier : Tier) (tighter : List Tier) (left : Expression) :
    Rereads k e 0 (Ends S) (Ends S) (Expression.renumber k.lines) (chain d s tier tighter left)
      (chain d' s' tier tighter (left.renumber k.lines)) := by
  have hsame : Rereads k e 0 (fun q t => Ends S q t ∧
        tier.operator? s'.withoutIn t = tier.operator? s.withoutIn t) (Ends S)
      (Expression.renumber k.lines) (Goal.chain d s tier tighter left)
      (Goal.chain d' s' tier tighter (left.renumber k.lines)) := by
    refine .current ?_ fun t => ?_
    · cases tier <;> rfl
    · by_cases heq : tier.operator? s'.withoutIn t = tier.operator? s.withoutIn t
      · rw [heq]
        cases hop : tier.operator? s.withoutIn t with
        | none => exact .pure fun _ _ hp => hp.1.1
        | some op =>
          have hnext : Rereads k e 1 (fun q u => (Ends S q u ∧
              tier.operator? s'.withoutIn u = tier.operator? s.withoutIn u) ∧ u = t) (Starts S s s') id
              advance advance := advance_rereads fun q u ⟨⟨hp, _⟩, hu⟩ =>
            ⟨hu ▸ .operator hop, hp.1, .inr (Before.ne_point_of_endsExpression hp.2)⟩
          exact hnext.lax.bind fun _ => (hd.operand tier tighter left op hs).lax
      · refine .nowhere fun q u ⟨⟨_, hu⟩, ht⟩ => heq ?_
        rwa [ht] at hu
  rcases hs with rfl | ⟨hk, hS, rfl⟩
  · exact hsame.imp (fun q t hp => ⟨hp, rfl⟩) fun _ _ hp => hp
  · refine .judge hk (hsame.imp (fun q t ⟨hp, hsheltered⟩ => ⟨hp, ?_⟩) fun _ _ hp => hp)
    refine Tier.operator?_withoutIn ?_ _ _ tier
    cases ht : t.isKeyword .inWord with
    | false => rfl
    | true => exact absurd (hp.1 ▸ hsheltered ht hp.2) hS

theorem tiers (hs : k.Fits S s s') (list : List Tier) :
    Rereads k e 1 (Starts S s s') (Ends S) (Expression.renumber k.lines) (tiers d s list) (tiers d' s' list) := by
  induction list with
  | nil => exact hd.prefixed hs
  | cons tier tighter ih => exact ih.bind fun left => hd.chain hs tier tighter left

theorem conditional (hs : k.Fits S s s') :
    Rereads k e 1 (Starts S s s') (Ends S) (Expression.renumber k.lines) (conditional d s) (conditional d' s') := by
  refine (hd.tiers hs Tier.all).bind fun test => ?_
  refine .skipMark (M := Starts S s s') nofun (fun q hp u => ⟨hp.1, .inr rfl⟩) ?_ ?_ (Nat.zero_le 1)
  · have hcolon : Rereads k e 1 (Ends S) (Starts S s s') id (expectMark .colon) (expectMark .colon) :=
      .expectMark fun q hp u => ⟨hp.1, .inr rfl⟩
    rw [if_pos rfl, if_pos rfl, hs.bracketed]
    refine Rereads.bind ((hd.assignment (.self k S s.bracketed)).lax.imp (fun _ _ hp => starts_self hp.1)
      fun _ _ hp => hp) fun yes => ?_
    exact hcolon.lax.bind fun _ => (hd.assignment hs).lax.bind fun no => .pure fun _ _ hp => hp
  · exact .pure fun _ _ hp => hp.1

theorem assignmentExpression (hs : k.Fits S s s') :
    Rereads k e 1 (Starts S s s') (Ends S) (Expression.renumber k.lines) (assignmentExpression d s)
      (assignmentExpression d' s') := by
  refine (hd.conditional hs).bind fun left => .current rfl fun t => ?_
  dsimp only
  cases hop : assignment? t with
  | none => exact .pure fun _ _ hp => hp.1
  | some op =>
    rw [Expression.isTarget_renumber]
    cases left.isTarget with
    | false => exact .failed
    | true =>
      have hnext : Rereads k e 1 (fun q u => Ends S q u ∧ u = t) (Starts S s s') id advance advance :=
        advance_rereads fun q u ⟨hp, hu⟩ =>
          ⟨hu ▸ .assignment hop, hp.1, .inr (Before.ne_point_of_endsExpression hp.2)⟩
      exact hnext.lax.bind fun _ => (hd.assignment hs).lax.bind fun value => .pure fun _ _ hp => hp

end Carries

end Parser.Seam

end PageScript
