import PageScript.Library.Functions
import PageScript.Proofs.Rereading.Sequences
import PageScript.Proofs.Scanning.Tails

/-! # Functions made of texts

The text of a function that is made of the texts of its parameters and its body is read as a function whose
parameters and body are what these texts are by themselves, if a comment does not lead out of the parameters and
they do not close their parenthesis.
-/

set_option autoImplicit false

namespace PageScript

open PageScript.Parser PageScript.Goal

/-! ## Parameters -/

/-- The names that tokens are made of, with commas between them and perhaps one behind the last name. -/
inductive Token.NameList : List Token → List String → Prop
  | nil : NameList [] []
  | last (name : String) : NameList [.identifier name] [name]
  | cons {ts : List Token} {names : List String} (name : String) :
    NameList ts names → NameList (.identifier name :: .mark .comma :: ts) (name :: names)

namespace Parser

variable {us ts rest : List Lexeme} {l : Lexeme} {name : String} {names : List String}

/-- A parameter with the comma behind it. -/
def parameter : Parser String := do
  let name ← identifier
  if !(← current).isMark .rightParen then expectMark .comma
  return name

/-- A parameter is a name in front of the closing parenthesis or of a comma. -/
theorem parameter_eq_ok_iff : parameter ts = .ok (name, rest) ↔
    ∃ line b us, ts = ⟨.identifier name, line, b⟩ :: us ∧ Readable us ∧
      ((head us).token.isMark .rightParen = true ∧ rest = us ∨
        ∃ line b, us = ⟨.mark .comma, line, b⟩ :: rest ∧ Readable rest) := by
  unfold parameter
  rw [bind_eq_ok_iff]
  constructor
  · rintro ⟨name', us, hname, hrest⟩
    obtain ⟨line, b, rfl, hus⟩ := identifier_eq_ok_iff.1 hname
    rw [current_bind] at hrest
    cases hclose : (head us).token.isMark .rightParen with
    | true =>
      rw [hclose] at hrest
      cases hrest
      exact ⟨line, b, _, rfl, hus, .inl ⟨hclose, rfl⟩⟩
    | false =>
      rw [hclose] at hrest
      obtain ⟨_, vs, hcomma, hpure⟩ := bind_eq_ok_iff.1 hrest
      cases hpure
      exact ⟨line, b, _, rfl, hus, .inr (expectMark_eq_ok_iff.1 hcomma)⟩
  · rintro ⟨line, b, us, rfl, hus, hrest⟩
    refine ⟨name, us, identifier_eq_ok_iff.2 ⟨line, b, rfl, hus⟩, ?_⟩
    rw [current_bind]
    rcases hrest with ⟨hclose, rfl⟩ | ⟨line, b, rfl, hrest⟩
    · rw [hclose]
      rfl
    · exact bind_ok (expectMark_eq_ok_iff.2 ⟨line, b, rfl, hrest⟩) _

theorem parameter_shorter (h : parameter ts = .ok (name, rest)) : Readable rest ∧ rest.length < ts.length := by
  obtain ⟨line, b, us, rfl, hus, ⟨-, rfl⟩ | ⟨line, b, rfl, hrest⟩⟩ := parameter_eq_ok_iff.1 h
  · exact ⟨hus, Nat.lt_succ_self _⟩
  · exact ⟨hrest, by simp only [List.length_cons]; omega⟩

variable (hl : l.token = .mark .rightParen)

include hl

theorem nameList_of_items {vs : List Lexeme} (hparen : ∀ u ∈ us, u.token ≠ .mark .rightParen)
    (h : Items parameter (·.isMark .rightParen) (us ++ l :: rest) names vs)
    (hend : vs = [] ∨ (head vs).token.isMark .rightParen = true) :
    vs = l :: rest ∧ Token.NameList (us.map (·.token)) names := by
  generalize hts : us ++ l :: rest = ts at h
  induction h generalizing us with
  | nil ts =>
    subst hts
    cases us with
    | nil => exact ⟨rfl, .nil⟩
    | cons u us => exact absurd (Token.eq_of_isMark (hend.resolve_left (List.cons_ne_nil _ _))) (hparen u (.head us))
  | @cons ts ts' vs name names hgoes hitem hitems ih =>
    subst hts
    cases us with
    | nil =>
      rw [List.nil_append, head, hl] at hgoes
      cases hgoes
    | cons u us =>
      obtain ⟨line, b, more, hmore, -, hrest⟩ := parameter_eq_ok_iff.1 hitem
      cases hmore
      rcases hrest with ⟨hclose, rfl⟩ | ⟨line', b', hcomma, -⟩
      · cases us with
        | nil =>
          obtain ⟨rfl, rfl⟩ := hitems.of_stop hclose
          exact ⟨rfl, .last name⟩
        | cons u us => exact absurd (Token.eq_of_isMark hclose) (hparen u (.tail _ (.head us)))
      · cases us with
        | nil =>
          cases hcomma
          cases hl
        | cons u us =>
          cases hcomma
          obtain ⟨hvs, hnames⟩ := ih (fun u hu => hparen u (.tail _ (.tail _ hu))) hend rfl
          exact ⟨hvs, .cons name hnames⟩

theorem items_of_nameList {ts : List Token} (h : Token.NameList ts names) (hts : us.map (·.token) = ts)
    (hplain : ∀ u ∈ us, u.token.isLast = false) :
    Items parameter (·.isMark .rightParen) (us ++ l :: rest) names (l :: rest) := by
  have hrest : Readable (l :: rest) := readable_of_mark hl
  have hclose : (head (l :: rest)).token.isMark .rightParen = true := by rw [head, hl]; rfl
  induction h generalizing us with
  | nil =>
    cases List.map_eq_nil_iff.1 hts
    exact .nil _
  | last name =>
    obtain ⟨u, rfl, hu⟩ := List.map_eq_singleton_iff.1 hts
    obtain ⟨t, line, b⟩ := u
    cases hu
    exact .cons rfl (parameter_eq_ok_iff.2 ⟨line, b, _, rfl, hrest, .inl ⟨hclose, rfl⟩⟩) (.nil _)
  | cons name _ ih =>
    obtain ⟨u, us, rfl, hu, hus⟩ := List.map_eq_cons_iff.1 hts
    obtain ⟨v, us, rfl, hv, hmore⟩ := List.map_eq_cons_iff.1 hus
    obtain ⟨t, line, b⟩ := u
    obtain ⟨t', line', b'⟩ := v
    cases hu
    cases hv
    have hplain' : ∀ u ∈ us, u.token.isLast = false := fun u hu => hplain u (.tail _ (.tail _ hu))
    have hitem : parameter (⟨.identifier name, line, b⟩ :: ⟨.mark .comma, line', b'⟩ :: (us ++ l :: rest)) =
        .ok (name, us ++ l :: rest) :=
      parameter_eq_ok_iff.2 ⟨line, b, _, rfl, readable_of_mark rfl, .inr ⟨line', b', rfl, hrest.append hplain'⟩⟩
    exact .cons rfl hitem (ih hmore hplain')

/-- Parameters are read up to the closing parenthesis if they are names with commas between them. -/
theorem commaItems_identifier_iff {vs : List Lexeme} (hparen : ∀ u ∈ us, u.token ≠ .mark .rightParen)
    (hplain : ∀ u ∈ us, u.token.isLast = false) :
    commaItems .rightParen identifier (us ++ l :: rest) = .ok (names, vs) ↔
      vs = l :: rest ∧ Token.NameList (us.map (·.token)) names := by
  have hclose : (head (l :: rest)).token.isMark .rightParen = true := by rw [head, hl]; rfl
  have hts : Readable (us ++ l :: rest) := (readable_of_mark hl).append hplain
  change many (·.isMark .rightParen) (fun _ => parameter) (us ++ l :: rest) = .ok (names, vs) ↔ _
  constructor
  · intro h
    obtain ⟨hitems, hend⟩ := items_of_many (fun _ => parameter_shorter) hts h
    exact nameList_of_items hl hparen hitems hend
  · rintro ⟨rfl, hnames⟩
    exact many_of_items (fun _ => parameter_shorter) hts (items_of_nameList hl hnames rfl hplain) hclose

end Parser

/-! ## Functions -/

namespace Goal

open PageScript.Lexeme (ofTokens)

variable {levels : Nat} {us bs ts rest : List Lexeme} {l f : Lexeme} {tree : FunctionTree}

theorem function_named {deeper : Deeper} {name : String} (hts : Readable ts) :
    function deeper true (ofTokens [.keyword .functionWord, .identifier name, .mark .leftParen] ++ ts) =
      (do
        let parameters ← commaItems .rightParen identifier
        expectMark .rightParen
        let body ← block deeper .functionBody
        return FunctionTree.mk (some name) parameters body 1 : Parser FunctionTree) ts := by
  have hopen : expectMark .leftParen (ofTokens [.mark .leftParen] ++ ts) = .ok ((), ts) :=
    expectMark_eq_ok_iff.2 ⟨1, false, rfl, hts⟩
  unfold function
  refine (bind_ok rfl _).trans ((bind_ok (a := ()) rfl _).trans ((bind_ok rfl _).trans ?_))
  exact (bind_ok rfl _).trans ((bind_ok rfl _).trans (bind_ok hopen _))

/-- Whether the statements of a block end before a token. -/
def endsBlock (t : Token) : Bool := t.isMark .rightBrace || t.isFinish

theorem not_endsBlock_of_parse {s : Surroundings} {r : Statement × List Lexeme}
    (h : parse levels .statement s ts = .ok r) :
    endsBlock (head ts).token = false ∧ (head ts).token.isFinish = false := by
  have hopens := Refuses.opensStatement_of_parse h
  cases ht : (head ts).token with
  | finish =>
    rw [ht] at hopens
    cases hopens
  | mark m =>
    rw [ht] at hopens
    cases m <;> first | exact ⟨rfl, rfl⟩ | cases hopens
  | _ => exact ⟨rfl, rfl⟩

theorem block_eq_ok_iff {deeper : Deeper} {s : Surroundings} {body : List Statement} {line : Nat} {b : Bool}
    (hts : Readable ts) : block deeper s (⟨.mark .leftBrace, line, b⟩ :: ts) = .ok (body, rest) ↔
      ∃ line b, many endsBlock (fun _ => deeper .statement s) ts = .ok (body, ⟨.mark .rightBrace, line, b⟩ :: rest) ∧
        Readable rest := by
  have hopen : expectMark .leftBrace (⟨.mark .leftBrace, line, b⟩ :: ts) = .ok ((), ts) :=
    expectMark_eq_ok_iff.2 ⟨line, b, rfl, hts⟩
  unfold block
  rw [bind_ok hopen, bind_eq_ok_iff]
  constructor
  · rintro ⟨body', us, hbody, hclose⟩
    obtain ⟨_, vs, hclose, hpure⟩ := bind_eq_ok_iff.1 hclose
    cases hpure
    obtain ⟨line', b', rfl, hrest⟩ := expectMark_eq_ok_iff.1 hclose
    exact ⟨line', b', hbody, hrest⟩
  · rintro ⟨line', b', hbody, hrest⟩
    exact ⟨body, _, hbody, bind_ok (expectMark_eq_ok_iff.2 ⟨line', b', rfl, hrest⟩) _⟩

/-- A function is read if its parameters are names and its body is a block. -/
theorem function_eq_ok_iff {deeper : Deeper} {name : String} {line line' : Nat} {b b' : Bool}
    (hparen : ∀ u ∈ us, u.token ≠ .mark .rightParen) (hplain : ∀ u ∈ us, u.token.isLast = false) :
    function deeper true (ofTokens [.keyword .functionWord, .identifier name, .mark .leftParen] ++
        (us ++ ⟨.mark .rightParen, line, b⟩ :: ⟨.mark .leftBrace, line', b'⟩ :: bs)) = .ok (tree, rest) ↔
      ∃ names body, Token.NameList (us.map (·.token)) names ∧
        block deeper .functionBody (⟨.mark .leftBrace, line', b'⟩ :: bs) = .ok (body, rest) ∧
        tree = .mk (some name) names body 1 := by
  have hts : Readable (us ++ ⟨.mark .rightParen, line, b⟩ :: ⟨.mark .leftBrace, line', b'⟩ :: bs) :=
    Readable.append nofun hplain
  have hclose : expectMark .rightParen (⟨.mark .rightParen, line, b⟩ :: ⟨.mark .leftBrace, line', b'⟩ :: bs) =
      .ok ((), ⟨.mark .leftBrace, line', b'⟩ :: bs) := expectMark_eq_ok_iff.2 ⟨line, b, rfl, nofun⟩
  rw [function_named hts, bind_eq_ok_iff]
  constructor
  · rintro ⟨names, vs, hitems, hrest⟩
    obtain ⟨rfl, hnames⟩ := (commaItems_identifier_iff rfl hparen hplain).1 hitems
    rw [bind_ok hclose] at hrest
    obtain ⟨body, ws, hbody, hpure⟩ := bind_eq_ok_iff.1 hrest
    cases hpure
    exact ⟨names, body, hnames, hbody, rfl⟩
  · rintro ⟨names, body, hnames, hbody, rfl⟩
    refine ⟨names, _, (commaItems_identifier_iff rfl hparen hplain).2 ⟨rfl, hnames⟩, ?_⟩
    rw [bind_ok hclose]
    exact bind_ok hbody _

/-! ## Bodies -/

section

variable {own own' : List Lexeme} {last : Lexeme} {body : List Statement} {line line' : Nat} {b : Bool} {k : Nat}
  (hown : ∀ u ∈ own, u.token.isLast = false) (hlast : last.token = .finish) (hf : f.token = .finish)
  (hsame : own' = Lexeme.behindBreak (own.map (Lexeme.renumber (· + k))))

include hown hsame

omit hlast hf in
theorem isLast_of_below : ∀ u ∈ own', u.token.isLast = false := by
  have htokens : own'.map (·.token) = own.map (·.token) := by
    rw [hsame, Lexeme.map_token_behindBreak, List.map_map]
    rfl
  intro u hu
  have hmem : u.token ∈ own.map (·.token) := htokens ▸ List.mem_map_of_mem hu
  obtain ⟨u', hu', htoken⟩ := List.mem_map.1 hmem
  rw [← htoken]
  exact hown u' hu'

include hlast hf

/-- The statements of a text are those of a block that it stands in, some lines further down. -/
theorem block_of_items (h : Items (parse levels .statement .functionBody) (·.isFinish) (own ++ [last]) body [last]) :
    block (parse levels) .functionBody
        (⟨.mark .leftBrace, line, b⟩ :: (own' ++ [⟨.mark .rightBrace, line', true⟩, f])) =
      .ok (body.map (Statement.renumber (· + k)), [f]) := by
  have hts : Readable (own ++ [last]) := (readable_of_finish hlast).append hown
  have hbs : Readable (own' ++ [⟨.mark .rightBrace, line', true⟩, f]) :=
    (readable_of_mark rfl).append (isLast_of_below hown hsame)
  have hbehind : Lexeme.behindBreak (own' ++ [⟨.mark .rightBrace, line', true⟩, f]) =
      Lexeme.behindBreak (own.map (Lexeme.renumber (· + k)) ++ [⟨.mark .rightBrace, line', true⟩, f]) := by
    rw [hsame, ← Lexeme.behindBreak_append rfl, Lexeme.behindBreak_behindBreak]
  obtain ⟨rest, hitems, hrest⟩ := items_elsewhere (· + k) (List.cons_ne_nil _ [])
    (.inr ⟨by rw [head, hlast]; rfl, rfl⟩ : (head [last]).Alike (head [⟨.mark .rightBrace, line', true⟩, f]))
    hts hbehind h
  obtain ⟨b', rfl⟩ : ∃ b', rest = [⟨.mark .rightBrace, line', b'⟩, f] := by
    rcases hrest with rfl | hrest
    · exact ⟨true, rfl⟩
    · exact Lexeme.eq_of_behindBreak hrest
  have hblock : Items (parse levels .statement .functionBody) endsBlock _ _ _ :=
    hitems.restop fun hitem _ => (not_endsBlock_of_parse hitem).1
  refine (block_eq_ok_iff hbs).2 ⟨line', b', many_of_items hbs hblock rfl, readable_of_finish hf⟩

/-- The statements of a block in which a text stands are those of the text, some lines further up. -/
theorem items_of_block (hrest : (head rest).token.isFinish = true)
    (h : block (parse levels) .functionBody
      (⟨.mark .leftBrace, line, b⟩ :: (own' ++ [⟨.mark .rightBrace, line', true⟩, f])) = .ok (body, rest)) :
    rest = [f] ∧ Items (parse levels .statement .functionBody) (·.isFinish) (own ++ [last])
      (body.map (Statement.renumber (· - k))) [last] := by
  have hplain := isLast_of_below hown hsame
  have hbs : Readable (own' ++ [⟨.mark .rightBrace, line', true⟩, f]) := (readable_of_mark rfl).append hplain
  obtain ⟨line'', b'', hmany, -⟩ := (block_eq_ok_iff hbs).1 h
  obtain ⟨hblock, -⟩ := items_of_many rfl hbs hmany
  obtain ⟨-, front, hfront, hfront'⟩ := front_of_items hbs hblock
  have hsplit : front ++ [⟨.mark .rightBrace, line'', b''⟩] ++ rest =
      own' ++ [⟨.mark .rightBrace, line', true⟩] ++ [f] := by
    rw [List.append_assoc, List.append_assoc]
    exact hfront.symm
  obtain ⟨hfronts, rfl⟩ := eq_of_isLast hsplit (isLast_concat hfront' rfl) (isLast_concat hplain rfl)
    (by rw [hf]; rfl) (isLast_of_isFinish hrest)
  obtain ⟨rfl, hbrace⟩ := List.append_inj' hfronts rfl
  cases hbrace
  have hitems : Items (parse levels .statement .functionBody) (·.isFinish) _ _ _ :=
    hblock.restop fun hitem _ => (not_endsBlock_of_parse hitem).2
  have hbehind : Lexeme.behindBreak (own ++ [last]) =
      Lexeme.behindBreak (front.map (Lexeme.renumber (· - k)) ++ [last]) := by
    have hback : ∀ ts : List Lexeme, (ts.map (Lexeme.renumber (· + k))).map (Lexeme.renumber (· - k)) = ts := by
      intro ts
      rw [List.map_map]
      refine (List.map_congr_left fun l _ => ?_).trans (List.map_id ts)
      simp only [Function.comp_apply, Lexeme.renumber, Nat.add_sub_cancel, id_eq]
    rw [hsame]
    cases own with
    | nil => rfl
    | cons l own =>
      simp only [List.map_cons, Lexeme.behindBreak, List.cons_append, hback, Lexeme.renumber, Nat.add_sub_cancel]
  obtain ⟨rest, hown', hrest'⟩ := items_elsewhere (· - k) (List.cons_ne_nil _ [f])
    (.inr ⟨rfl, by rw [head, hlast]; rfl⟩ : (head [⟨.mark .rightBrace, line', true⟩, f]).Alike (head [last]))
    hbs hbehind hitems
  have hts : Readable (own ++ [last]) := (readable_of_finish hlast).append hown
  have hisLast : (head rest).token.isLast = true := by
    rcases hrest' with rfl | hrest'
    · rw [head, hlast]
      rfl
    · obtain ⟨b, rfl⟩ := Lexeme.eq_of_behindBreak hrest'
      rw [head, hlast]
      rfl
  obtain ⟨-, front', hwhole, hplain'⟩ := front_of_items hts hown'
  obtain ⟨-, rfl⟩ := eq_of_isLast hwhole.symm hplain' hown (by rw [hlast]; rfl) hisLast
  exact ⟨rfl, hown'⟩

/-- A block in which a text stands has the statements of the text, some lines further down. -/
theorem block_iff : (block (parse levels) .functionBody
      (⟨.mark .leftBrace, line, b⟩ :: (own' ++ [⟨.mark .rightBrace, line', true⟩, f])) = .ok (body, rest) ∧
        (head rest).token.isFinish = true) ↔
      rest = [f] ∧ ∃ statements, body = statements.map (Statement.renumber (· + k)) ∧
        Items (parse levels .statement .functionBody) (·.isFinish) (own ++ [last]) statements [last] := by
  constructor
  · rintro ⟨hblock, hrest⟩
    obtain ⟨rfl, hitems⟩ := items_of_block hown hlast hf hsame hrest hblock
    refine ⟨rfl, _, ?_, hitems⟩
    exact congrArg Prod.fst (Except.ok.inj (hblock.symm.trans (block_of_items hown hlast hf hsame hitems)))
  · rintro ⟨rfl, statements, rfl, hitems⟩
    exact ⟨block_of_items hown hlast hf hsame hitems, by rw [head, hf]; rfl⟩

end

end Goal

/-! ## Texts -/

open PageScript.Lexeme (Scan scan ofTokens)

namespace Lexeme

theorem scan_functionHead (cs : List Char) : scan 1 false ("function anonymous(".toList ++ cs) =
    ofTokens [.keyword .functionWord, .identifier "anonymous", .mark .leftParen] ++ scan 1 false cs := by
  change scan 1 false ("function".toList ++ ' ' :: ("anonymous".toList ++ (Mark.leftParen.spelling.toList ++ cs))) = _
  rw [scan_word ⟨_, _, rfl, by decide, by decide⟩ (fun c hc => by cases hc; decide), scan_space,
    scan_word ⟨_, _, rfl, by decide, by decide⟩ (fun c hc => by cases hc; decide), scan_closed (by decide)]
  rfl

theorem scan_bodyHead (line : Nat) (broken : Bool) (cs : List Char) :
    scan line broken (") \x7b\n".toList ++ cs) = ⟨.mark .rightParen, line, broken⟩ ::
      ⟨.mark .leftBrace, line, false⟩ :: behindBreak ((scan 1 false cs).map (renumber (· + line))) := by
  change scan line broken (Mark.rightParen.spelling.toList ++ ' ' :: (Mark.leftBrace.spelling.toList ++ '\n' :: cs)) = _
  rw [scan_closed (by decide), scan_space, scan_closed (by decide), scan_lineFeed]

/-- A text that is scanned to its end has one lexeme more, the end. -/
theorem Scan.Passes.ofText_eq {text : String} {us : List Lexeme} {r : Scan}
    (h : Scan.Passes ⟨1, false, text.toList⟩ us r) (hr : r.rest = []) :
    ofText text = us ++ [⟨.finish, r.line, r.broken⟩] :=
  h.lexemes_eq.trans (congrArg (us ++ ·) (Scan.lexemes_of_rest_eq_nil hr))

end Lexeme

/-- Whether a text is a list of names by itself. -/
def Token.IsNameList (text : String) (names : List String) : Prop :=
  ∃ ts, (Lexeme.ofText text).map (·.token) = ts ++ [.finish] ∧ Token.NameList ts names

/-- Whether a text is the body of a function by itself, as deep as that of a function at the top of a program. -/
def Program.IsFunctionBody (text : String) (body : List Statement) : Prop :=
  ∃ rest, Goal.statements (nestingLimit - 1) .functionBody (Lexeme.ofText text) = .ok (body, rest)

/-- Whether a function has the parameters and the body that two texts are by themselves, with the body on the lines
behind the parameters. -/
def FunctionTree.IsMadeOf (tree : FunctionTree) (parameters body : String) : Prop :=
  ∃ names statements, Token.IsNameList parameters names ∧ Program.IsFunctionBody body statements ∧
    tree = .mk (some "anonymous") names
      (statements.map (Statement.renumber (· + (1 + Text.lineBreaks parameters.toList)))) 1

section

variable {text : String} {names : List String} {body : List Statement} {us : List Lexeme} {r : Scan}

theorem Token.IsNameList.exists_passes (h : Token.IsNameList text names) :
    ∃ us r, Scan.Passes ⟨1, false, text.toList⟩ us r ∧ r.rest = [] := by
  obtain ⟨us, r, hpasses, hend⟩ := Scan.exists_passes ⟨1, false, text.toList⟩
  rcases hend with hr | hstuck
  · exact ⟨us, r, hpasses, hr⟩
  · obtain ⟨ts, hts, -⟩ := h
    obtain ⟨cause, line, hlexemes⟩ := hstuck.lexemes_eq
    have hscan : Lexeme.ofText text = us ++ r.lexemes := hpasses.lexemes_eq
    rw [hscan, hlexemes, List.map_append] at hts
    cases (List.append_inj' hts rfl).2

variable (hpasses : Scan.Passes ⟨1, false, text.toList⟩ us r) (hr : r.rest = [])

include hpasses hr

theorem Token.isNameList_iff : Token.IsNameList text names ↔ Token.NameList (us.map (·.token)) names := by
  have htokens : (Lexeme.ofText text).map (·.token) = us.map (·.token) ++ [.finish] := by
    rw [hpasses.ofText_eq hr, List.map_append]
    rfl
  constructor
  · rintro ⟨ts, hts, hnames⟩
    rw [(List.append_inj' (htokens.symm.trans hts) rfl).1]
    exact hnames
  · exact fun hnames => ⟨_, htokens, hnames⟩

theorem Program.isFunctionBody_iff : Program.IsFunctionBody text body ↔
    Items (Goal.parse 999 .statement .functionBody) (·.isFinish) (us ++ [⟨.finish, r.line, r.broken⟩]) body
      [⟨.finish, r.line, r.broken⟩] := by
  constructor
  · rintro ⟨rest, h⟩
    obtain ⟨us', r', hpasses', hr', rfl, hitems⟩ := statements_scan_iff.1 h
    have hscan := (hpasses.ofText_eq hr).symm.trans (hpasses'.ofText_eq hr')
    obtain ⟨rfl, hlast⟩ := List.append_inj' hscan rfl
    rw [hlast]
    exact hitems
  · exact fun hitems => ⟨_, statements_scan_iff.2 ⟨us, r, hpasses, hr, rfl, hitems⟩⟩

end

namespace Script

variable {parameters texts names : List String} {body source : String} {tree : FunctionTree}
  {us own bs : List Lexeme} {r q : Scan}

theorem soleFunction?_eq_some_iff {statements : List Statement} :
    soleFunction? statements = some tree ↔ ∃ line, statements = [.mk line (.function tree)] := by
  constructor
  · intro h
    unfold soleFunction? at h
    split at h <;> cases h
    exact ⟨_, rfl⟩
  · rintro ⟨line, rfl⟩
    rfl

/-- A text is a sole function if its parameters are names and its body is a block up to the end of the text. -/
theorem parse_soleFunction_iff {name : String} {line line' : Nat} {b b' : Bool}
    (hscan : Lexeme.ofText source = ofTokens [.keyword .functionWord, .identifier name, .mark .leftParen] ++
      (us ++ ⟨.mark .rightParen, line, b⟩ :: ⟨.mark .leftBrace, line', b'⟩ :: bs))
    (hparen : ∀ u ∈ us, u.token ≠ .mark .rightParen) (hplain : ∀ u ∈ us, u.token.isLast = false) :
    (∃ statements, Program.parse source = .ok statements ∧ soleFunction? statements = some tree) ↔
      ∃ names body rest, Token.NameList (us.map (·.token)) names ∧
        (block (Goal.parse 999) .functionBody (⟨.mark .leftBrace, line', b'⟩ :: bs) = .ok (body, rest) ∧
          (head rest).token.isFinish = true) ∧ tree = .mk (some name) names body 1 := by
  constructor
  · rintro ⟨statements, hparse, hsole⟩
    obtain ⟨line, rfl⟩ := soleFunction?_eq_some_iff.1 hsole
    obtain ⟨rest, hparse⟩ := Program.parse_eq_ok_iff.1 hparse
    obtain ⟨-, hitems, hfinish⟩ := items_of_statements hparse
    rw [hscan] at hitems
    cases hitems with
    | cons _ hitem hitems =>
      cases hitems
      obtain ⟨form, hform, hstatement⟩ := parse_statement_eq_ok_iff.1 hitem
      cases hstatement
      change (function (Goal.parse 999) true >>= fun g => pure (StatementForm.function g)) _ = _ at hform
      obtain ⟨g, vs, hfunction, hpure⟩ := bind_eq_ok_iff.1 hform
      cases hpure
      obtain ⟨names, body, hnames, hblock, htree⟩ := (function_eq_ok_iff hparen hplain).1 hfunction
      exact ⟨names, body, rest, hnames, ⟨hblock, hfinish⟩, htree⟩
  · rintro ⟨names, body, rest, hnames, ⟨hblock, hfinish⟩, rfl⟩
    refine ⟨_, Program.parse_eq_ok_iff.2 ⟨rest, ?_⟩, soleFunction?_eq_some_iff.2 ⟨1, rfl⟩⟩
    rw [hscan]
    refine statements_of_items (by rintro _ ⟨⟩) (.cons rfl ?_ (.nil rest)) hfinish
    refine parse_statement_eq_ok_iff.2 ⟨_, ?_, rfl⟩
    change (function (Goal.parse 999) true >>= fun g => pure (StatementForm.function g)) _ = _
    exact bind_ok ((function_eq_ok_iff hparen hplain).2 ⟨names, body, hnames, hblock, rfl⟩) _

/-! ## The assembled text -/

theorem toList_functionSource : (functionSource parameters body).toList =
    "function anonymous(".toList ++ ((Printer.commas parameters).toList ++
      (") \x7b\n".toList ++ (body.toList ++ "\n\x7d".toList))) := by
  unfold functionSource
  simp only [String.toList_append, List.append_assoc]

theorem unquoted_bodyHead (cs : List Char) : Text.Unquoted (") \x7b\n".toList ++ cs) ∧
    Text.Unquoted (") \x7b\n".toList ++ cs).tail := by
  constructor
  · change ∀ c ∈ [')', ' ', '\x7b'], _
    decide
  · change ∀ c ∈ [' ', '\x7b'], _
    decide

/-- The lexemes of the assembled text, if no comment leads out of the parameters. -/
theorem scan_functionSource (hcomment : ¬Lexeme.EndsInComment (Printer.commas parameters).toList)
    (hpasses : Scan.Passes ⟨1, false, (Printer.commas parameters).toList⟩ us r) (hr : r.rest = []) (body : String) :
    Lexeme.ofText (functionSource parameters body) =
      ofTokens [.keyword .functionWord, .identifier "anonymous", .mark .leftParen] ++
        (us ++ ⟨.mark .rightParen, r.line, r.broken⟩ :: ⟨.mark .leftBrace, r.line, false⟩ ::
          Lexeme.behindBreak ((scan 1 false (body.toList ++ "\n\x7d".toList)).map (Lexeme.renumber (· + r.line)))) := by
  rw [Lexeme.ofText, toList_functionSource, Lexeme.scan_functionHead,
    hpasses.scan_append hr hcomment (fun c hc => by cases hc; decide) (fun c hc => by cases hc; decide),
    Lexeme.scan_bodyHead]

/-- The lexemes of a body in front of the end of its block. -/
theorem scan_body (hpasses : Scan.Passes ⟨1, false, body.toList⟩ own q) (hq : q.rest = []) (k : Nat) :
    ∃ line, Lexeme.behindBreak ((scan 1 false (body.toList ++ "\n\x7d".toList)).map (Lexeme.renumber (· + k))) =
      Lexeme.behindBreak (own.map (Lexeme.renumber (· + k))) ++
        [⟨.mark .rightBrace, line, true⟩, ⟨.finish, line, false⟩] := by
  have hclose : scan 1 false ['\x7d'] = [⟨.mark .rightBrace, 1, false⟩, ⟨.finish, 1, false⟩] := by
    change scan 1 false (Mark.rightBrace.spelling.toList ++ []) = _
    rw [Lexeme.scan_closed (by decide), Lexeme.scan_nil]
  have hscan := hpasses.scan_lineFeed hq ['\x7d']
  rw [hclose] at hscan
  change scan 1 false (body.toList ++ "\n\x7d".toList) = _ at hscan
  rw [hscan, List.map_append]
  exact ⟨_, Lexeme.behindBreak_append rfl _ _⟩

section

variable (hcomment : ¬Lexeme.EndsInComment (Printer.commas parameters).toList)

include hcomment

/-- The parameters and the body of a text that is a sole function are scanned to their ends by themselves. -/
theorem exists_passes_of_parse {statements : List Statement}
    (h : Program.parse (functionSource parameters body) = .ok statements) :
    (∃ us r, Scan.Passes ⟨1, false, (Printer.commas parameters).toList⟩ us r ∧ r.rest = []) ∧
      ∃ own q, Scan.Passes ⟨1, false, body.toList⟩ own q ∧ q.rest = [] := by
  obtain ⟨rest, hparse⟩ := Program.parse_eq_ok_iff.1 h
  have hvalid := valid_of_statements hparse
  have hparameters : ∃ us r, Scan.Passes ⟨1, false, (Printer.commas parameters).toList⟩ us r ∧ r.rest = [] := by
    rw [toList_functionSource, Lexeme.scan_functionHead] at hvalid
    exact Scan.exists_passes_of_append (fun c hc => by cases hc; decide) (unquoted_bodyHead _).1
      (unquoted_bodyHead _).2 (fun c hc => by cases hc; decide) hcomment
      fun l hl => hvalid l (List.mem_append_right _ hl)
  refine ⟨hparameters, ?_⟩
  obtain ⟨us, r, hpasses, hr⟩ := hparameters
  have hscan := scan_functionSource hcomment hpasses hr body
  have hunquoted : Text.Unquoted ['\x7d'] := by
    unfold Text.Unquoted
    decide
  refine Scan.exists_passes_of_lineFeed hunquoted (by decide) fun l hl cause hcause => ?_
  -- The tokens of the body are among those of the whole text.
  have hmem : Token.invalid cause ∈ (Lexeme.ofText (functionSource parameters body)).map (·.token) := by
    rw [hscan, List.map_append, List.map_append, List.map_cons, List.map_cons, Lexeme.map_token_behindBreak,
      List.map_map, ← hcause]
    refine List.mem_append_right _ (List.mem_append_right _ (.tail _ (.tail _ ?_)))
    exact List.mem_map.2 ⟨l, hl, rfl⟩
  obtain ⟨l', hl', htoken⟩ := List.mem_map.1 hmem
  exact hvalid l' hl' cause htoken

theorem soleFunction_iff_of_passes
    (hparen : ∀ l ∈ Lexeme.ofText (Printer.commas parameters), l.token ≠ .mark .rightParen)
    (hpasses : Scan.Passes ⟨1, false, (Printer.commas parameters).toList⟩ us r) (hr : r.rest = [])
    (hpasses' : Scan.Passes ⟨1, false, body.toList⟩ own q) (hq : q.rest = []) :
    (∃ statements, Program.parse (functionSource parameters body) = .ok statements ∧
        soleFunction? statements = some tree) ↔ tree.IsMadeOf (Printer.commas parameters) body := by
  have hscan := scan_functionSource hcomment hpasses hr body
  obtain ⟨line, hbody⟩ := scan_body hpasses' hq r.line
  rw [hbody] at hscan
  have hparen' : ∀ u ∈ us, u.token ≠ .mark .rightParen := by
    intro u hu
    refine hparen u ?_
    rw [hpasses.ofText_eq hr]
    exact List.mem_append_left _ hu
  have hline : r.line = 1 + Text.lineBreaks (Printer.commas parameters).toList := by
    have hlines := hpasses.lines
    rwa [hr] at hlines
  have hlast : (Lexeme.mk .finish q.line q.broken).token = .finish := rfl
  rw [parse_soleFunction_iff hscan hparen' hpasses.isLast_eq_false, FunctionTree.IsMadeOf, ← hline]
  constructor
  · rintro ⟨names, statements, rest, hnames, hblock, rfl⟩
    obtain ⟨-, statements, rfl, hitems⟩ := (block_iff hpasses'.isLast_eq_false hlast rfl rfl).1 hblock
    exact ⟨names, statements, (Token.isNameList_iff hpasses hr).2 hnames,
      (Program.isFunctionBody_iff hpasses' hq).2 hitems, rfl⟩
  · rintro ⟨names, statements, hnames, hstatements, rfl⟩
    have hitems := (Program.isFunctionBody_iff hpasses' hq).1 hstatements
    exact ⟨names, _, _, (Token.isNameList_iff hpasses hr).1 hnames,
      (block_iff hpasses'.isLast_eq_false hlast rfl rfl).2 ⟨rfl, statements, rfl, hitems⟩, rfl⟩

/-- The assembled text is a sole function if the parameters are a list of names and the body is one of a function,
each by itself. -/
theorem soleFunction_iff (hparen : ∀ l ∈ Lexeme.ofText (Printer.commas parameters), l.token ≠ .mark .rightParen) :
    (∃ statements, Program.parse (functionSource parameters body) = .ok statements ∧
        soleFunction? statements = some tree) ↔ tree.IsMadeOf (Printer.commas parameters) body := by
  constructor
  · rintro ⟨statements, hparse, hsole⟩
    obtain ⟨⟨us, r, hpasses, hr⟩, own, q, hpasses', hq⟩ := exists_passes_of_parse hcomment hparse
    exact (soleFunction_iff_of_passes hcomment hparen hpasses hr hpasses' hq).1 ⟨statements, hparse, hsole⟩
  · rintro ⟨names, statements, hnames, ⟨rest, hstatements⟩, htree⟩
    obtain ⟨us, r, hpasses, hr⟩ := hnames.exists_passes
    obtain ⟨own, q, hpasses', hq, -⟩ := statements_scan_iff.1 hstatements
    exact (soleFunction_iff_of_passes hcomment hparen hpasses hr hpasses' hq).2
      ⟨names, statements, hnames, ⟨rest, hstatements⟩, htree⟩

end

/-! ## Making functions -/

theorem toTexts_strings (texts : List String) : toTexts (texts.map .string) = pure texts := by
  have hfold : ∀ rest done : List String, fold (fun done v => do return (← toText v) :: done)
      (rest.map Value.string) done = pure (rest.reverse ++ done) := by
    intro rest
    induction rest with
    | nil => exact fun done => rfl
    | cons text rest ih =>
      intro done
      rw [List.reverse_cons, List.append_assoc]
      exact ih (text :: done)
  unfold toTexts each
  rw [hfold, List.append_nil]
  change (pure texts.reverse.reverse : Script (List String)) = _
  rw [List.reverse_reverse]

theorem constructFunction_strings (parameters : List String) (body : String) :
    constructFunction ((parameters ++ [body]).map .string) =
      match Program.parse (functionSource parameters body) with
      | .error e => raise .badSource e.message
      | .ok statements =>
        match soleFunction? statements with
        | some tree => do return .ref (← newFunction tree Intrinsic.globalObject)
        | none => raise .badSource "invalid function body" := by
  unfold constructFunction
  rw [toTexts_strings]
  change (match Program.parse (functionSource (parameters ++ [body]).dropLast
    ((parameters ++ [body]).getLast?.getD "")) with | .error e => _ | .ok statements => _) = _
  rw [List.dropLast_concat, List.getLast?_concat]
  rfl

/-- If no comment leads out of the parameters and they do not close their parenthesis, a function is made exactly
of parameters that are a list of names and a body that is one of a function, each by itself, and it has these.
Everything else is a syntax error. -/
theorem constructFunction_texts (hcomment : ¬Lexeme.EndsInComment (Printer.commas parameters).toList)
    (hparen : ∀ l ∈ Lexeme.ofText (Printer.commas parameters), l.token ≠ .mark .rightParen) :
    (∀ tree : FunctionTree, tree.IsMadeOf (Printer.commas parameters) body →
        ∃ o : Object, o.callable = some (.script tree Intrinsic.globalObject) ∧
          constructFunction ((parameters ++ [body]).map .string) = do return .ref (← alloc o)) ∧
      ((∀ tree : FunctionTree, ¬tree.IsMadeOf (Printer.commas parameters) body) →
        ∃ message, constructFunction ((parameters ++ [body]).map .string) = raise .badSource message) := by
  rw [constructFunction_strings]
  constructor
  · intro tree htree
    obtain ⟨statements, hparse, hsole⟩ := (soleFunction_iff hcomment hparen).2 htree
    rw [hparse]
    dsimp only
    rw [hsole]
    exact ⟨_, rfl, rfl⟩
  · intro hnone
    cases hparse : Program.parse (functionSource parameters body) with
    | error e => exact ⟨e.message, rfl⟩
    | ok statements =>
      dsimp only
      cases hsole : soleFunction? statements with
      | none => exact ⟨_, rfl⟩
      | some tree => exact absurd ((soleFunction_iff hcomment hparen).1 ⟨statements, hparse, hsole⟩) (hnone tree)

theorem readsNames : (match (Lexeme.ofText (Printer.commas ["a", "b"])).map (·.token) with
    | [.identifier "a", .mark .comma, .identifier "b", .finish] => true
    | _ => false) = true := by decide +kernel

theorem readsSum : (match Goal.statements (nestingLimit - 1) .functionBody (Lexeme.ofText "return a + b;") with
    | .ok ([.mk 1 (.returnValue (some (.binary .add (.identifier "a") (.identifier "b"))))], _) => true
    | _ => false) = true := by decide +kernel

theorem constructFunction_sum :
    ∃ o : Object, o.callable = some (.script (.mk (some "anonymous") ["a", "b"]
        [.mk 2 (.returnValue (some (.binary .add (.identifier "a") (.identifier "b"))))] 1) Intrinsic.globalObject) ∧
      constructFunction ((["a", "b"] ++ ["return a + b;"]).map .string) = do return .ref (← alloc o) := by
  have hnames : Token.IsNameList (Printer.commas ["a", "b"]) ["a", "b"] := by
    refine ⟨[.identifier "a", .mark .comma, .identifier "b"], ?_, .cons "a" (.last "b")⟩
    have hok := readsNames
    split at hok
    · assumption
    · cases hok
  have hbody : Program.IsFunctionBody "return a + b;"
      [.mk 1 (.returnValue (some (.binary .add (.identifier "a") (.identifier "b"))))] := by
    have hok := readsSum
    split at hok
    · exact ⟨_, by assumption⟩
    · cases hok
  have hcomment : ¬Lexeme.EndsInComment (Printer.commas ["a", "b"]).toList := Lexeme.not_endsInComment (by decide)
  have hparen : ∀ l ∈ Lexeme.ofText (Printer.commas ["a", "b"]), l.token ≠ .mark .rightParen := by
    have hmarks : ((Lexeme.ofText (Printer.commas ["a", "b"])).any (·.token.isMark .rightParen)) = false := by
      decide +kernel
    intro l hl htoken
    have hmark := List.any_eq_false.1 hmarks l hl
    rw [htoken] at hmark
    exact hmark rfl
  exact (constructFunction_texts hcomment hparen).1 _ ⟨_, _, hnames, hbody, rfl⟩

end Script

end PageScript
