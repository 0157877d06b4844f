import PageScript.Proofs.Rereading.Sequences
import PageScript.Proofs.Scanning.Tails

/-! # Expressions in the head of a loop

In the head of a `for` statement `in` is no operator, up to the brackets that lift this restriction.  An initial
value with all its operators `in` inside such brackets is the same there as in a declaration.
-/

set_option autoImplicit false

namespace PageScript

open PageScript.Parser PageScript.Goal

/-! ## Sheltered operators -/

theorem Place.sheltersAll_append (q : Place) (us ts : List Token) :
    q.sheltersAll (us ++ ts) = (q.sheltersAll us && (us.foldl Place.next q).sheltersAll ts) := by
  induction us generalizing q with
  | nil => exact (Bool.true_and _).symm
  | cons u us ih => rw [List.cons_append, sheltersAll, sheltersAll, ih, Bool.and_assoc, List.foldl_cons]

namespace Goal

variable {levels : Nat} {s : Surroundings} {name : String} {value : Expression} {front ts us rest : List Lexeme}
  {l f : Lexeme}

/-! ## Values in front of a semicolon -/

theorem endStatement_cases (h : endStatement us = .ok ((), rest)) :
    rest = us ∨ ∃ l, l.token = .mark .semicolon ∧ us = l :: rest := by
  unfold endStatement at h
  rw [peek_bind] at h
  split at h
  · rename_i hsemicolon
    cases us with
    | nil => cases hsemicolon
    | cons l us =>
      obtain ⟨rfl, -⟩ := advance_eq_ok_iff.1 h
      exact .inr ⟨l, Token.eq_of_isMark hsemicolon, rfl⟩
  · split at h <;> cases h
    exact .inl rfl

/-- A value with only the end of a statement behind it goes up to the semicolon at the end of the text. -/
theorem eq_of_endStatement (hl : l.token = .mark .semicolon) (hf : f.token = .finish)
    (hfront : ∀ u ∈ front, u.token.isLast = false)
    (hvalue : parse levels .assignment s (front ++ [l, f]) = .ok (value, us))
    (hend : endStatement us = .ok ((), rest)) (hrest : (head rest).token.isFinish = true) : us = [l, f] := by
  let k := alone (front ++ [l, f])
  have hcarries : k.Carries (parse levels) (parse levels) := Seam.carries_parse (.inl (Nat.le_refl _))
  have hreadable : Readable (front ++ [l, f]) := (readable_of_mark hl).append hfront
  obtain ⟨-, q, ⟨⟨w, hwhole, rfl, hw⟩, -⟩, hbefore⟩ :=
    (hcarries.assignment (e := 0) (Seam.Fits.self k [] s)).course ⟨⟨[], rfl, rfl, List.forall_mem_nil _⟩, hreadable⟩
      (Seam.starts_self rfl) hvalue
  have hplain : ∀ u ∈ front ++ [l], u.token.isLast = false := isLast_concat hfront (by rw [hl]; rfl)
  have hlast : f.token.isLast = true := by rw [hf]; rfl
  have hisLast := isLast_of_isFinish hrest
  have hwhole : w ++ us = front ++ [l] ++ [f] := by rw [List.append_assoc]; exact hwhole.symm
  rcases endStatement_cases hend with rfl | ⟨l', hl', rfl⟩
  · -- No expression ends behind a semicolon.
    obtain ⟨rfl, -⟩ := eq_of_isLast hwhole hw hplain hlast hisLast
    rw [List.map_append, List.foldl_append, List.map_singleton, List.foldl_cons, List.foldl_nil, hl] at hbefore
    cases hbefore.2
  · have hw' : ∀ u ∈ w ++ [l'], u.token.isLast = false := isLast_concat hw (by rw [hl']; rfl)
    have hsplit : (w ++ [l']) ++ rest = front ++ [l] ++ [f] := by
      rw [List.append_assoc]
      exact hwhole
    obtain ⟨hfronts, rfl⟩ := eq_of_isLast hsplit hw' hplain hlast hisLast
    obtain ⟨-, hsame⟩ := List.append_inj' hfronts rfl
    rw [(List.cons.inj hsame).1]

/-- A value is the same expression in the head of a loop, if its operators `in` are sheltered. -/
theorem assignment_loopHead {levels' : Nat} (hl : l.token = .mark .semicolon)
    (hfront : ∀ u ∈ front, u.token.isLast = false)
    (hsheltered : Place.start.sheltersAll ((front ++ [l, f]).map (·.token)) = true)
    (h : parse levels .assignment s (front ++ [l, f]) = .ok (value, [l, f])) (more : List Lexeme) :
    parse levels' .assignment s.loopHead (front ++ l :: more) = .ok (value, l :: more) ∨
      levels' < levels ∧
        ∃ line, parse levels' .assignment s.loopHead (front ++ l :: more) = .error ⟨.tooDeep, line⟩ := by
  have hreadable : Readable (front ++ [l, f]) := (readable_of_mark hl).append hfront
  have hvalue : value.renumber id = value := by
    let k : Seam := ⟨front ++ [l, f], [l, f], [l, f], id, False, False, List.cons_ne_nil _ _, .inl ⟨rfl, rfl⟩, False.elim⟩
    have hcarries : k.Carries (parse levels) (parse levels) := Seam.carries_parse (.inl (Nat.le_refl _))
    have hmatch : k.Matches (front ++ [l, f]) (front ++ [l, f]) :=
      ⟨front, rfl, congrArg (· ++ [l, f]) (List.map_id front).symm⟩
    rcases (hcarries.assignment (e := 0) (Seam.Fits.self k [] s)).again ⟨⟨[], rfl, rfl, List.forall_mem_nil _⟩, hreadable⟩
      (Seam.starts_self rfl) hmatch h (Nat.le_refl _) with ⟨us, hagain, -⟩ | ⟨hshort, -⟩
    · exact (congrArg Prod.fst (Except.ok.inj (h.symm.trans hagain))).symm
    · cases hshort
  let k : Seam := ⟨front ++ [l, f], [l, f], l :: more, id, True, levels' < levels, List.cons_ne_nil _ _,
    .inl ⟨rfl, rfl⟩, fun _ => hsheltered⟩
  have hcarries : k.Carries (parse levels) (parse levels') := Seam.carries_parse (Nat.lt_or_ge levels' levels).symm
  have hmatch : k.Matches (front ++ [l, f]) (front ++ l :: more) :=
    ⟨front, rfl, congrArg (· ++ l :: more) (List.map_id front).symm⟩
  have hfits : k.Fits [] s s.loopHead := .inr ⟨trivial, List.not_mem_nil, rfl⟩
  rcases (hcarries.assignment (e := 0) hfits).again ⟨⟨[], rfl, rfl, List.forall_mem_nil _⟩, hreadable⟩ ⟨rfl, .inr rfl⟩ hmatch h
    (Nat.le_refl _) with ⟨us, hagain, more', hmore, rfl⟩ | hdeep
  · obtain rfl : more' = [] := List.append_left_eq_self.1 hmore.symm
    rw [hvalue] at hagain
    exact .inl hagain
  · exact .inr hdeep

/-! ## Declarations and loops -/

theorem declarator_value {deeper : Deeper} {line line' : Nat} {b b' : Bool} (hts : Readable ts) :
    declarator deeper s (⟨.identifier name, line, b⟩ :: ⟨.mark .assign, line', b'⟩ :: ts) =
      (deeper .assignment s ts).map fun r => (Declarator.mk name (some r.1), r.2) := by
  have hname : identifier (⟨.identifier name, line, b⟩ :: ⟨.mark .assign, line', b'⟩ :: ts) =
      .ok (name, ⟨.mark .assign, line', b'⟩ :: ts) := rfl
  refine (bind_ok hname _).trans ((bind_ok (skipMark_cons hts) _).trans ?_)
  change Except.bind (deeper .assignment s ts) (fun r => .ok (Declarator.mk name (some r.1), r.2)) = _
  cases deeper .assignment s ts <;> rfl

theorem value_of_declaration {line line' line'' : Nat} {b b' b'' : Bool} (hts : Readable ts)
    (h : statementForm (parse levels) s (⟨.keyword .varWord, line, b⟩ :: ⟨.identifier name, line', b'⟩ ::
      ⟨.mark .assign, line'', b''⟩ :: ts) = .ok (.declare [.mk name (some value)], rest)) :
    ∃ us, parse levels .assignment s ts = .ok (value, us) ∧ endStatement us = .ok ((), rest) := by
  change (commaSeparated (declarator (parse levels) s) >>= fun ds => endStatement >>= fun _ =>
    (pure (.declare ds) : Parser StatementForm)) _ = _ at h
  obtain ⟨ds, us, hds, hrest⟩ := bind_eq_ok_iff.1 h
  obtain ⟨_, vs, hend, hpure⟩ := bind_eq_ok_iff.1 hrest
  cases hpure
  have hvalue := of_commaSeparated_singleton hds
  rw [List.tail_cons, declarator_value hts] at hvalue
  cases hrun : parse levels .assignment s ts with
  | error e =>
    rw [hrun] at hvalue
    cases hvalue
  | ok r =>
    rw [hrun] at hvalue
    cases hvalue
    exact ⟨_, rfl, hend⟩

/-- The rest of a loop that has nothing in its head behind the initial value, and nothing in its body. -/
def emptyLoop (line : Nat) (broken : Bool) : List Lexeme :=
  [⟨.mark .semicolon, line, broken⟩, ⟨.mark .semicolon, line, false⟩, ⟨.mark .rightParen, line, false⟩,
    ⟨.mark .semicolon, line, false⟩, ⟨.finish, line, false⟩]

theorem forRest_emptyLoop (levels : Nat) (s : Surroundings) (start : ForStart) (line : Nat) (broken : Bool) :
    forRest (parse (levels + 1)) s start (emptyLoop line broken) =
      .ok (.forLoop start none none (.mk line .empty), [⟨.finish, line, false⟩]) := rfl

open Lexeme (ofTokens)

theorem forStatement_declaration {line : Nat} {broken : Bool} (hts : Readable ts)
    (h : parse (levels + 1) .assignment s.loopHead ts = .ok (value, emptyLoop line broken)) :
    forStatement (parse (levels + 1)) s (ofTokens [.keyword .forWord, .mark .leftParen, .keyword .varWord,
        .identifier name, .mark .assign] ++ ts) =
      .ok (.forLoop (.declare [.mk name (some value)]) none none (.mk line .empty), [⟨.finish, line, false⟩]) := by
  have hdeclarator : declarator (parse (levels + 1)) s.loopHead (ofTokens [.identifier name, .mark .assign] ++ ts) =
      .ok (.mk name (some value), emptyLoop line broken) := by
    refine (declarator_value hts).trans ?_
    rw [h]
    rfl
  have hds := commaSeparated_singleton hdeclarator rfl
  unfold forStatement
  refine bind_eq_ok_iff.2 ⟨(), _, rfl, bind_eq_ok_iff.2 ⟨(), _, rfl, bind_eq_ok_iff.2 ⟨_, _, rfl, ?_⟩⟩⟩
  exact bind_eq_ok_iff.2 ⟨(), _, rfl, bind_eq_ok_iff.2 ⟨_, _, hds, rfl⟩⟩

/-- An assignment to a name is one of what comes behind the mark. -/
theorem assignmentExpression_name {deeper : Deeper} (hts : Readable ts) :
    assignmentExpression deeper s (ofTokens [.identifier name, .mark .assign] ++ ts) =
      (deeper .assignment s ts).map fun r => (Expression.assign none (.identifier name) r.1, r.2) := by
  change Except.bind (checked ts) (fun r => Except.bind (deeper .assignment s r.2)
    fun r => .ok (Expression.assign none (.identifier name) r.1, r.2)) = _
  rw [hts.checked]
  change Except.bind (deeper .assignment s ts) _ = _
  cases deeper .assignment s ts <;> rfl

theorem forStatement_target {line : Nat} {broken : Bool} (hts : Readable ts)
    (h : parse levels .assignment s.loopHead ts = .ok (value, emptyLoop line broken)) :
    forStatement (parse (levels + 1)) s
        (ofTokens [.keyword .forWord, .mark .leftParen, .identifier name, .mark .assign] ++ ts) =
      .ok (.forLoop (.expression (.assign none (.identifier name) value)) none none (.mk line .empty),
        [⟨.finish, line, false⟩]) := by
  have hassignment : parse (levels + 1) .assignment s.loopHead (ofTokens [.identifier name, .mark .assign] ++ ts) =
      .ok (.assign none (.identifier name) value, emptyLoop line broken) := by
    refine (assignmentExpression_name hts).trans ?_
    rw [h]
    rfl
  have hexpression : Goal.expression (parse (levels + 1)) s.loopHead
      (ofTokens [.identifier name, .mark .assign] ++ ts) =
      .ok (.assign none (.identifier name) value, emptyLoop line broken) :=
    bind_eq_ok_iff.2 ⟨_, _, commaSeparated_singleton hassignment rfl, rfl⟩
  unfold forStatement
  refine bind_eq_ok_iff.2 ⟨(), _, rfl, bind_eq_ok_iff.2 ⟨(), _, rfl, bind_eq_ok_iff.2 ⟨_, _, rfl, ?_⟩⟩⟩
  exact bind_eq_ok_iff.2 ⟨_, _, hexpression, rfl⟩

theorem forStatement_target_error {e : SyntaxError} (hts : Readable ts)
    (h : parse levels .assignment s.loopHead ts = .error e) :
    forStatement (parse (levels + 1)) s
      (ofTokens [.keyword .forWord, .mark .leftParen, .identifier name, .mark .assign] ++ ts) = .error e := by
  have hassignment : parse (levels + 1) .assignment s.loopHead (ofTokens [.identifier name, .mark .assign] ++ ts) =
      .error e := by
    refine (assignmentExpression_name hts).trans ?_
    rw [h]
    rfl
  have hexpression : Goal.expression (parse (levels + 1)) s.loopHead
      (ofTokens [.identifier name, .mark .assign] ++ ts) = .error e := bind_error (bind_error hassignment _) _
  unfold forStatement
  refine (bind_ok (a := ()) rfl _).trans ((bind_ok (a := ()) rfl _).trans ((bind_ok rfl _).trans ?_))
  exact bind_error hexpression _

end Goal

/-! ## Texts -/

namespace Lexeme

theorem scan_leftHead (cs : List Char) :
    scan 1 false ("for (".toList ++ cs) = ofTokens [.keyword .forWord, .mark .leftParen] ++ scan 1 false cs := by
  change scan 1 false ("for".toList ++ ' ' :: (Mark.leftParen.spelling.toList ++ cs)) = _
  rw [scan_word ⟨_, _, rfl, by decide, by decide⟩ (fun c hc => by cases hc; decide), scan_space,
    scan_closed (by decide)]
  rfl

theorem scan_varWord (cs : List Char) :
    scan 1 false ("var ".toList ++ cs) = ofTokens [.keyword .varWord] ++ scan 1 false cs := by
  change scan 1 false ("var".toList ++ ' ' :: cs) = _
  rw [scan_word ⟨_, _, rfl, by decide, by decide⟩ (fun c hc => by cases hc; decide), scan_space]
  rfl

theorem scan_assigned (cs : List Char) :
    scan 1 false ("x = ".toList ++ cs) = ofTokens [.identifier "x", .mark .assign] ++ scan 1 false cs := by
  change scan 1 false ("x".toList ++ ' ' :: (Mark.assign.spelling.toList ++ ' ' :: cs)) = _
  rw [scan_word ⟨_, _, rfl, by decide, by decide⟩ (fun c hc => by cases hc; decide), scan_space,
    scan_mark (fun c hc => by cases hc; decide), scan_space]
  rfl

theorem scan_semicolon (line : Nat) (broken : Bool) (cs : List Char) :
    scan line broken (';' :: cs) = ⟨.mark .semicolon, line, broken⟩ :: scan line false cs :=
  scan_closed (m := .semicolon) (by decide) cs

theorem scan_emptyLoop (line : Nat) (broken : Bool) :
    scan line broken "; ; ) ;".toList = emptyLoop line broken := by
  change scan line broken (';' :: ' ' :: ';' :: ' ' :: (Mark.rightParen.spelling.toList ++ [' ', ';'])) = _
  rw [scan_semicolon, scan_space, scan_semicolon, scan_space, scan_closed (by decide), scan_space, scan_semicolon,
    scan_nil]
  rfl

end Lexeme

namespace Program

open PageScript.Lexeme (Scan scan ofTokens)

variable {e : String} {line : Nat} {value : Expression} {us : List Lexeme} {r : Scan}

/-- The value of a declaration is read from its text, up to the semicolon. -/
theorem value_of_parse (hcomment : ¬Lexeme.EndsInComment e.toList)
    (h : parse ("var x = " ++ e ++ ";") = .ok [.mk line (.declare [.mk "x" (some value)])]) :
    ∃ us r, Scan.Passes ⟨1, false, e.toList⟩ us r ∧ r.rest = [] ∧
      Goal.parse 999 .assignment .program
          (us ++ [⟨.mark .semicolon, r.line, r.broken⟩, ⟨.finish, r.line, false⟩]) =
        .ok (value, [⟨.mark .semicolon, r.line, r.broken⟩, ⟨.finish, r.line, false⟩]) := by
  obtain ⟨rest, h⟩ := parse_eq_ok_iff.1 h
  have htext : ("var x = " ++ e ++ ";").toList = "var ".toList ++ ("x = ".toList ++ (e.toList ++ [';'])) := by
    rw [String.toList_append, String.toList_append, List.append_assoc]
    rfl
  have hscan : scan 1 false ("var x = " ++ e ++ ";").toList =
      ofTokens [.keyword .varWord, .identifier "x", .mark .assign] ++ scan 1 false (e.toList ++ [';']) := by
    rw [htext, Lexeme.scan_varWord, Lexeme.scan_assigned]
    rfl
  have hvalid : ∀ l ∈ scan 1 false (e.toList ++ [';']), ∀ cause, l.token ≠ .invalid cause := fun l hl =>
    valid_of_statements h l (by rw [hscan]; exact List.mem_append_right _ hl)
  have htail : ∀ c ∈ [';'].head?, c ∈ Text.separators := fun c hc => by cases hc; decide
  have hfeed : ∀ c ∈ [';'].head?, c ≠ '\n' := fun c hc => by cases hc; decide
  have hplain : Text.Unquoted [';'] := by unfold Text.Unquoted; decide
  obtain ⟨us, r, hpasses, hr⟩ := Scan.exists_passes_of_append htail hplain nofun hfeed hcomment hvalid
  have hvalue := hpasses.scan_append hr hcomment htail hfeed
  rw [Lexeme.scan_semicolon, Lexeme.scan_nil] at hvalue
  have hreadable : Readable (scan 1 false (e.toList ++ [';'])) := by
    rw [hvalue]
    exact Readable.append nofun hpasses.isLast_eq_false
  obtain ⟨-, hitems, hfinish⟩ := items_of_statements h
  cases hitems with
  | cons _ hitem hitems =>
    cases hitems
    obtain ⟨form, hform, hstatement⟩ := parse_statement_eq_ok_iff.1 hitem
    cases hstatement
    rw [Lexeme.ofText, hscan] at hform
    obtain ⟨vs, hassignment, hend⟩ := value_of_declaration hreadable hform
    rw [hvalue] at hassignment
    cases eq_of_endStatement rfl rfl hpasses.isLast_eq_false hassignment hend hfinish
    exact ⟨us, r, hpasses, hr, hassignment⟩

theorem scan_loop (hpasses : Scan.Passes ⟨1, false, e.toList⟩ us r) (hr : r.rest = [])
    (hcomment : ¬Lexeme.EndsInComment e.toList) :
    scan 1 false (e.toList ++ "; ; ) ;".toList) = us ++ emptyLoop r.line r.broken := by
  rw [hpasses.scan_append hr hcomment (fun c hc => by cases hc; decide) (fun c hc => by cases hc; decide),
    Lexeme.scan_emptyLoop]

/-- The semicolon behind a text has no part in its operators. -/
theorem sheltersAll_semicolon (hpasses : Scan.Passes ⟨1, false, e.toList⟩ us r) (hr : r.rest = [])
    (hsheltered : Token.InSheltered ((Lexeme.ofText e).map (·.token))) :
    Place.start.sheltersAll ((us ++ [Lexeme.mk (.mark .semicolon) r.line r.broken, ⟨.finish, r.line, false⟩]).map
      (·.token)) = true := by
  have hscan : Lexeme.ofText e = us ++ [⟨.finish, r.line, r.broken⟩] :=
    hpasses.lexemes_eq.trans (congrArg (us ++ ·) (Scan.lexemes_of_rest_eq_nil hr))
  rw [Token.InSheltered, hscan, List.map_append, Place.sheltersAll_append, Bool.and_eq_true] at hsheltered
  rw [List.map_append, Place.sheltersAll_append, hsheltered.1]
  rfl

/-- A text that is one statement. -/
theorem parse_statement {source : String} {form : StatementForm} {f : Lexeme} {ts : List Lexeme}
    (hts : Readable ts) (hscan : Lexeme.ofText source = ts) (hgoes : (head ts).token.isFinish = false)
    (hf : f.token = .finish) (h : statementForm (Goal.parse 999) .program ts = .ok (form, [f])) :
    parse source = .ok [.mk (head ts).line form] := by
  refine parse_eq_ok_iff.2 ⟨[f], ?_⟩
  rw [hscan]
  refine statements_of_items hts (.cons hgoes ?_ (.nil [f])) (by rw [head, hf]; rfl)
  exact parse_statement_eq_ok_iff.2 ⟨form, h, rfl⟩

/-- An initial value that does not end in a comment, with all its operators `in` inside brackets that lift the
restriction on them, is the same expression in the head of a loop as in a declaration. -/
theorem parse_loopHead (hcomment : ¬Lexeme.EndsInComment e.toList)
    (hvar : parse ("var x = " ++ e ++ ";") = .ok [.mk line (.declare [.mk "x" (some value)])])
    (hsheltered : Token.InSheltered ((Lexeme.ofText e).map (·.token))) :
    parse ("for (var x = " ++ e ++ "; ; ) ;") =
        .ok [.mk 1 (.forLoop (.declare [.mk "x" (some value)]) none none
          (.mk (1 + Text.lineBreaks e.toList) .empty))] ∧
      (parse ("for (x = " ++ e ++ "; ; ) ;") =
          .ok [.mk 1 (.forLoop (.expression (.assign none (.identifier "x") value)) none none
            (.mk (1 + Text.lineBreaks e.toList) .empty))] ∨
        ∃ line, parse ("for (x = " ++ e ++ "; ; ) ;") = .error ⟨.tooDeep, line⟩) := by
  obtain ⟨us, r, hpasses, hr, hvalue⟩ := value_of_parse hcomment hvar
  have hplain := hpasses.isLast_eq_false
  have hline : r.line = 1 + Text.lineBreaks e.toList := by
    have hlines := hpasses.lines
    rwa [hr] at hlines
  have hreadable : Readable (us ++ emptyLoop r.line r.broken) := Readable.append nofun hplain
  have hloopHead : ∀ levels, Goal.parse levels .assignment Surroundings.program.loopHead
        (us ++ emptyLoop r.line r.broken) = .ok (value, emptyLoop r.line r.broken) ∨
      levels < 999 ∧ ∃ line, Goal.parse levels .assignment Surroundings.program.loopHead
        (us ++ emptyLoop r.line r.broken) = .error ⟨.tooDeep, line⟩ := fun levels =>
    assignment_loopHead rfl hplain (sheltersAll_semicolon hpasses hr hsheltered) hvalue _
  have hdeclared : scan 1 false ("for (var x = " ++ e ++ "; ; ) ;").toList =
      ofTokens [.keyword .forWord, .mark .leftParen, .keyword .varWord, .identifier "x", .mark .assign] ++
        (us ++ emptyLoop r.line r.broken) := by
    rw [String.toList_append, String.toList_append, List.append_assoc, ← scan_loop hpasses hr hcomment]
    change scan 1 false ("for (".toList ++ ("var ".toList ++ ("x = ".toList ++ (e.toList ++ _)))) = _
    rw [Lexeme.scan_leftHead, Lexeme.scan_varWord, Lexeme.scan_assigned]
    rfl
  have hassigned : scan 1 false ("for (x = " ++ e ++ "; ; ) ;").toList =
      ofTokens [.keyword .forWord, .mark .leftParen, .identifier "x", .mark .assign] ++
        (us ++ emptyLoop r.line r.broken) := by
    rw [String.toList_append, String.toList_append, List.append_assoc, ← scan_loop hpasses hr hcomment]
    change scan 1 false ("for (".toList ++ ("x = ".toList ++ (e.toList ++ _))) = _
    rw [Lexeme.scan_leftHead, Lexeme.scan_assigned]
    rfl
  rw [← hline]
  constructor
  · rcases hloopHead 999 with hok | ⟨hless, -⟩
    · exact parse_statement (by rintro _ ⟨⟩) hdeclared rfl rfl (forStatement_declaration hreadable hok)
    · exact absurd hless (Nat.lt_irrefl _)
  · rcases hloopHead 998 with hok | ⟨-, line, herror⟩
    · exact .inl (parse_statement (by rintro _ ⟨⟩) hassigned rfl rfl (forStatement_target hreadable hok))
    · right
      refine ⟨line, parse_of_error ?_⟩
      rw [Lexeme.ofText, hassigned]
      refine statements_of_error (by rintro _ ⟨⟩) rfl (parse_statement_of_error ?_)
      exact forStatement_target_error hreadable herror

theorem readsDeclaration : (match parse ("var x = " ++ "[f(\"a\" in o)]" ++ ";") with
    | .ok [.mk 1 (.declare [.mk "x" (some (.array [some (.call (.identifier "f")
      [.binary .isIn (.literal (.string "a")) (.identifier "o")])]))])] => true
    | _ => false) = true := by decide +kernel

theorem parse_loopHead_argument :
    parse ("var x = " ++ "[f(\"a\" in o)]" ++ ";") =
        .ok [.mk 1 (.declare [.mk "x" (some (.array [some (.call (.identifier "f")
          [.binary .isIn (.literal (.string "a")) (.identifier "o")])]))])] ∧
      parse ("for (var x = " ++ "[f(\"a\" in o)]" ++ "; ; ) ;") =
        .ok [.mk 1 (.forLoop (.declare [.mk "x" (some (.array [some (.call (.identifier "f")
          [.binary .isIn (.literal (.string "a")) (.identifier "o")])]))]) none none (.mk 1 .empty))] := by
  have hvar : parse ("var x = " ++ "[f(\"a\" in o)]" ++ ";") =
      .ok [.mk 1 (.declare [.mk "x" (some (.array [some (.call (.identifier "f")
        [.binary .isIn (.literal (.string "a")) (.identifier "o")])]))])] := by
    have hok := readsDeclaration
    split at hok
    · assumption
    · cases hok
  have hcomment : ¬Lexeme.EndsInComment "[f(\"a\" in o)]".toList := Lexeme.not_endsInComment (by decide)
  have hsheltered : Token.InSheltered ((Lexeme.ofText "[f(\"a\" in o)]").map (·.token)) := by
    unfold Token.InSheltered
    decide +kernel
  exact ⟨hvar, (parse_loopHead hcomment hvar hsheltered).1⟩

end Program

end PageScript
