import PageScript.Proofs.Rereading.Statements
import PageScript.Proofs.Scanning.Shifts

/-! # Sequences of statements

The statements up to a stop are those that are read one after another, none of them at a stop.
-/

set_option autoImplicit false

namespace PageScript

namespace Parser

variable {α : Type} {item : Parser α} {stop stop' : Token → Bool} {x : α} {xs ys : List α}
  {ts us rest : List Lexeme}

/-- Items that are read one after another, none of them at a stop. -/
inductive Items (item : Parser α) (stop : Token → Bool) : List Lexeme → List α → List Lexeme → Prop
  | nil (ts : List Lexeme) : Items item stop ts [] ts
  | cons {ts us rest : List Lexeme} {x : α} {xs : List α} :
    stop (head ts).token = false → item ts = .ok (x, us) → Items item stop us xs rest →
    Items item stop ts (x :: xs) rest

namespace Items

theorem append (h : Items item stop ts xs us) (h' : Items item stop us ys rest) :
    Items item stop ts (xs ++ ys) rest := by
  induction h with
  | nil => exact h'
  | cons hstop hitem _ ih => exact .cons hstop hitem (ih h')

/-- No item is read at a stop. -/
theorem of_stop (h : Items item stop ts xs rest) (hstop : stop (head ts).token = true) : xs = [] ∧ rest = ts := by
  cases h with
  | nil => exact ⟨rfl, rfl⟩
  | cons hgoes =>
    rw [hstop] at hgoes
    cases hgoes

theorem restop (h : Items item stop ts xs rest)
    (hstop : ∀ {ts x us}, item ts = .ok (x, us) → stop (head ts).token = false → stop' (head ts).token = false) :
    Items item stop' ts xs rest := by
  induction h with
  | nil => exact .nil _
  | cons hgoes hitem _ ih => exact .cons (hstop hitem hgoes) hitem ih

end Items

section

variable (hitem : ∀ {ts us : List Lexeme} {x : α}, Readable ts → item ts = .ok (x, us) →
  Readable us ∧ us.length < ts.length)

include hitem

theorem items_of_collect (limit : Nat) (read : List α) (hts : Readable ts) (hlimit : ts.length ≤ limit)
    (h : collect stop (fun _ => item) limit read ts = .ok (xs, rest)) :
    ∃ ys, xs = read.reverse ++ ys ∧ Items item stop ts ys rest ∧ (rest = [] ∨ stop (head rest).token = true) := by
  induction limit generalizing ts read with
  | zero =>
    cases h
    exact ⟨[], (List.append_nil _).symm, .nil _, .inl (List.eq_nil_of_length_eq_zero (Nat.le_zero.1 hlimit))⟩
  | succ limit ih =>
    unfold collect at h
    split at h
    · rename_i hstop
      cases h
      exact ⟨[], (List.append_nil _).symm, .nil _, .inr hstop⟩
    · rename_i hgoes
      split at h
      · rename_i x us hfirst
        obtain ⟨hus, hlength⟩ := hitem hts hfirst
        obtain ⟨ys, rfl, hitems, hend⟩ := ih (x :: read) hus (by omega) h
        refine ⟨x :: ys, ?_, .cons (Bool.not_eq_true _ ▸ hgoes) hfirst hitems, hend⟩
        rw [List.reverse_cons, List.append_assoc, List.singleton_append]
      · cases h

theorem collect_of_items (limit : Nat) (read : List α) (hts : Readable ts) (hlimit : ts.length ≤ limit)
    (h : Items item stop ts xs rest) (hend : stop (head rest).token = true) :
    collect stop (fun _ => item) limit read ts = .ok (read.reverse ++ xs, rest) := by
  induction h generalizing limit read with
  | nil ts =>
    rw [List.append_nil]
    cases limit with
    | zero => rfl
    | succ limit =>
      unfold collect
      rw [if_pos hend]
  | @cons ts us rest x xs hgoes hfirst _ ih =>
    obtain ⟨hus, hlength⟩ := hitem hts hfirst
    obtain ⟨limit, rfl⟩ : ∃ n, limit = n + 1 := ⟨limit - 1, by omega⟩
    unfold collect
    rw [hgoes, if_neg Bool.false_ne_true, hfirst]
    dsimp only
    rw [ih limit (x :: read) hus (by omega) hend, List.reverse_cons, List.append_assoc, List.singleton_append]

/-- What `many` reads are items up to a stop, or to the end of the text. -/
theorem items_of_many (hts : Readable ts) (h : many stop (fun _ => item) ts = .ok (xs, rest)) :
    Items item stop ts xs rest ∧ (rest = [] ∨ stop (head rest).token = true) := by
  unfold many at h
  split at h
  · rename_i hstop
    cases h
    exact ⟨.nil ts, .inr hstop⟩
  · obtain ⟨ys, rfl, hitems⟩ := items_of_collect hitem ts.length [] hts (Nat.le_refl _) h
    exact hitems

theorem many_of_items (hts : Readable ts) (h : Items item stop ts xs rest) (hend : stop (head rest).token = true) :
    many stop (fun _ => item) ts = .ok (xs, rest) := by
  unfold many
  split
  · rename_i hstop
    obtain ⟨rfl, rfl⟩ := h.of_stop hstop
    rfl
  · exact collect_of_items hitem ts.length [] hts (Nat.le_refl _) h hend

end

end Parser

/-! ## Statements -/

namespace Goal

open PageScript.Parser

variable {levels : Nat} {s : Surroundings} {t : Statement} {b b' : List Statement} {stop : Token → Bool}
  {ts rest : List Lexeme}

/-- A text by itself. -/
def alone (ts : List Lexeme) : Seam where
  whole := ts
  rest := [⟨.finish, 0, false⟩]
  rest' := [⟨.finish, 0, false⟩]
  lines := id
  judged := False
  short := False
  nonempty := nofun
  alike := .inl ⟨rfl, rfl⟩
  sheltered := False.elim

/-- A statement takes a part of its text, before its end. -/
theorem front_of_parse (hts : Readable ts) (h : parse levels .statement s ts = .ok (t, rest)) :
    Readable rest ∧ rest.length < ts.length ∧ ∃ us, ts = us ++ rest ∧ ∀ u ∈ us, u.token.isLast = false := by
  have hcarries : (alone ts).Carries (parse levels) (parse levels) := Seam.carries_parse (.inl (Nat.le_refl _))
  have hinside : (alone ts).Inside .start ts := ⟨⟨[], rfl, rfl, nofun⟩, hts⟩
  obtain ⟨hlength, q, ⟨⟨us, hwhole, -, hus⟩, hrest⟩, -⟩ :=
    (hcarries.statement (e := 0) [] s).course hinside rfl h
  exact ⟨hrest, hlength, us, hwhole, hus⟩

theorem front_of_items (hts : Readable ts) (h : Items (parse levels .statement s) stop ts b rest) :
    Readable rest ∧ ∃ us, ts = us ++ rest ∧ ∀ u ∈ us, u.token.isLast = false := by
  induction h with
  | nil ts => exact ⟨hts, [], rfl, nofun⟩
  | cons _ hitem _ ih =>
    obtain ⟨hus, -, front, rfl, hfront⟩ := front_of_parse hts hitem
    obtain ⟨hrest, front', rfl, hfront'⟩ := ih hus
    refine ⟨hrest, front ++ front', (List.append_assoc ..).symm, fun u hu => ?_⟩
    rcases List.mem_append.1 hu with hu | hu
    · exact hfront u hu
    · exact hfront' u hu

/-- A text of statements begins with one, if it has any. -/
theorem opens_of_items (h : Items (parse levels .statement s) stop ts b rest) :
    ts = rest ∨ (head ts).token.opensStatement = true := by
  cases h with
  | nil => exact .inl rfl
  | cons _ hitem => exact .inr (Refuses.opensStatement_of_parse hitem)

theorem items_of_many (hstop : stop .finish = true) (hts : Readable ts)
    (h : many stop (fun _ => parse levels .statement s) ts = .ok (b, rest)) :
    Items (parse levels .statement s) stop ts b rest ∧ stop (head rest).token = true := by
  obtain ⟨hitems, hend⟩ := Parser.items_of_many (fun hts h => by
    obtain ⟨hus, hlength, -⟩ := front_of_parse hts h
    exact ⟨hus, hlength⟩) hts h
  refine ⟨hitems, hend.elim ?_ fun h => h⟩
  rintro rfl
  exact hstop

theorem many_of_items (hts : Readable ts) (h : Items (parse levels .statement s) stop ts b rest)
    (hend : stop (head rest).token = true) :
    many stop (fun _ => parse levels .statement s) ts = .ok (b, rest) :=
  Parser.many_of_items (fun hts h => by
    obtain ⟨hus, hlength, -⟩ := front_of_parse hts h
    exact ⟨hus, hlength⟩) hts h hend

/-! ## Reading statements again -/

/-- Statements in front of a seam are read again. -/
theorem items_again {k : Seam} {q : Place} {ts' : List Lexeme} (hk : ¬k.short) (hq : k.Inside q ts)
    (hp : q.brackets = []) (hmatch : k.Matches ts ts') (h : Items (parse levels .statement s) stop ts b rest)
    (hrest : k.rest.length ≤ rest.length) :
    ∃ rest', Items (parse levels .statement s) stop ts' (b.map (Statement.renumber k.lines)) rest' ∧
      k.Matches rest rest' := by
  have hcarries : k.Carries (parse levels) (parse levels) := Seam.carries_parse (.inl (Nat.le_refl _))
  induction h generalizing q ts' with
  | nil => exact ⟨ts', .nil ts', hmatch⟩
  | @cons ts us rest t b hgoes hitem hitems ih =>
    obtain ⟨hlength, q', hq', hp'⟩ := (hcarries.statement (e := 0) [] s).course hq hp hitem
    obtain ⟨-, front, rfl, -⟩ := front_of_items hq'.2 hitems
    rw [List.length_append] at hlength
    rcases (hcarries.statement (e := 0) [] s).again hq hp hmatch hitem (by rw [List.length_append]; omega) with
      ⟨us', hitem', hmatch'⟩ | ⟨hshort, -⟩
    · obtain ⟨rest', hitems', hend⟩ := ih hq' hp' hmatch' hrest
      obtain ⟨l, ts, ts', rfl, rfl, -⟩ := hmatch.ahead (by omega)
      exact ⟨rest', .cons hgoes hitem' hitems', hend⟩
    · exact absurd hshort hk

/-- A line break before statements does not matter to them. -/
theorem items_blind {ts' : List Lexeme} (hts : Lexeme.behindBreak ts' = Lexeme.behindBreak ts)
    (h : Items (parse levels .statement s) stop ts b rest) :
    ∃ rest', Items (parse levels .statement s) stop ts' b rest' ∧
      (rest' = rest ∨ Lexeme.behindBreak rest' = Lexeme.behindBreak rest) := by
  cases h with
  | nil => exact ⟨ts', .nil ts', .inr hts⟩
  | cons hgoes hitem hitems =>
    refine ⟨rest, ?_, .inl rfl⟩
    cases ts with
    | nil =>
      cases ts' with
      | nil => exact .cons hgoes hitem hitems
      | cons l' ts' => cases hts
    | cons l ts =>
      cases ts' with
      | nil => cases hts
      | cons l' ts' =>
        obtain ⟨t, line, broken⟩ := l
        obtain ⟨t', line', broken'⟩ := l'
        cases hts
        exact .cons hgoes ((Blind.statement levels s t line broken' broken ts).trans hitem) hitems

/-- Statements that stand elsewhere, behind a line break or not and in front of another end, are the same on
other lines. -/
theorem items_elsewhere {us vs ts : List Lexeme} (f : Nat → Nat) (hrest : rest ≠ [])
    (halike : (head rest).Alike (head vs)) (hus : Readable (us ++ rest))
    (hts : Lexeme.behindBreak ts = Lexeme.behindBreak (us.map (Lexeme.renumber f) ++ vs))
    (h : Items (parse levels .statement s) stop (us ++ rest) b rest) :
    ∃ rest', Items (parse levels .statement s) stop ts (b.map (Statement.renumber f)) rest' ∧
      (rest' = vs ∨ Lexeme.behindBreak rest' = Lexeme.behindBreak vs) := by
  let k : Seam := ⟨us ++ rest, rest, vs, f, False, False, hrest, halike, False.elim⟩
  have hmatch : k.Matches (us ++ rest) (us.map (Lexeme.renumber f) ++ vs) := ⟨us, rfl, rfl⟩
  obtain ⟨rest', hitems, more, hmore, rfl⟩ :=
    items_again (k := k) False.elim ⟨⟨[], rfl, rfl, nofun⟩, hus⟩ rfl hmatch h (Nat.le_refl _)
  obtain rfl : more = [] := List.append_left_eq_self.1 hmore.symm
  exact items_blind hts hitems

/-- The tree of a statement stands on the lines of its text. -/
theorem renumber_id_of_parse (hts : Readable ts) (hrest : rest ≠ [])
    (h : parse levels .statement s ts = .ok (t, rest)) : t.renumber id = t := by
  obtain ⟨-, -, us, hus, -⟩ := front_of_parse hts h
  let k : Seam := ⟨ts, rest, rest, id, False, False, hrest, .inl ⟨rfl, rfl⟩, False.elim⟩
  have hcarries : k.Carries (parse levels) (parse levels) := Seam.carries_parse (.inl (Nat.le_refl _))
  have hmatch : k.Matches ts ts := ⟨us, hus, hus.trans (congrArg (· ++ rest) (List.map_id us).symm)⟩
  rcases (hcarries.statement (e := 0) [] s).again ⟨⟨[], rfl, rfl, nofun⟩, hts⟩ rfl hmatch h (Nat.le_refl _) with
    ⟨rest', hagain, -⟩ | ⟨hshort, -⟩
  · exact (congrArg Prod.fst (Except.ok.inj (h.symm.trans hagain))).symm
  · cases hshort

theorem renumber_id_of_items (hts : Readable ts) (hrest : rest ≠ [])
    (h : Items (parse levels .statement s) stop ts b rest) : b.map (Statement.renumber id) = b := by
  induction h with
  | nil => rfl
  | cons _ hitem hitems ih =>
    have hus := (front_of_parse hts hitem).1
    obtain ⟨-, front, rfl, -⟩ := front_of_items hus hitems
    rw [List.map_cons, ih hus hrest, renumber_id_of_parse hts (List.append_ne_nil_of_right_ne_nil front hrest) hitem]

/-! ## Texts -/

/-- A text has only one end. -/
theorem eq_of_isLast {front us : List Lexeme} {l : Lexeme} (h : front ++ rest = us ++ [l])
    (hfront : ∀ u ∈ front, u.token.isLast = false) (hus : ∀ u ∈ us, u.token.isLast = false)
    (hl : l.token.isLast = true) (hrest : (head rest).token.isLast = true) : front = us ∧ rest = [l] := by
  rcases List.append_eq_append_iff.1 h with ⟨more, rfl, hmore⟩ | ⟨more, rfl, hmore⟩
  · cases more with
    | nil => exact ⟨(List.append_nil front).symm, hmore⟩
    | cons u more =>
      rw [hmore, List.cons_append, head, hus u (List.mem_append_right front (.head more))] at hrest
      cases hrest
  · rcases List.singleton_eq_append_iff.1 hmore with ⟨rfl, hrest'⟩ | ⟨hmore', -⟩
    · exact ⟨List.append_nil us, hrest'⟩
    · have hplain := hfront l (List.mem_append_right us (by rw [hmore']; exact .head _))
      rw [hl] at hplain
      cases hplain

/-- The statements of a text. -/
def statements (levels : Nat) (s : Surroundings) : Parser (List Statement) := do
  checked
  many (·.isFinish) fun _ => parse levels .statement s

theorem statements_of_items (hts : Readable ts) (h : Items (parse levels .statement s) (·.isFinish) ts b rest)
    (hend : (head rest).token.isFinish = true) : statements levels s ts = .ok (b, rest) :=
  (bind_ok hts.checked _).trans (many_of_items hts h hend)

theorem items_of_statements (h : statements levels s ts = .ok (b, rest)) :
    Readable ts ∧ Items (parse levels .statement s) (·.isFinish) ts b rest ∧
      (head rest).token.isFinish = true := by
  obtain ⟨_, us, hchecked, hmany⟩ := bind_eq_ok_iff.1 h
  have hts := readable_of_checked hchecked
  cases eq_of_checked hchecked
  exact ⟨hts, items_of_many rfl hts hmany⟩

theorem statements_of_error {e : SyntaxError} (hts : Readable ts) (hgoes : (head ts).token.isFinish = false)
    (h : parse levels .statement s ts = .error e) : statements levels s ts = .error e := by
  have hgoes : ¬(head ts).token.isFinish = true := by rw [hgoes]; exact Bool.false_ne_true
  refine (bind_ok hts.checked _).trans ((if_neg hgoes).trans ?_)
  cases ts with
  | nil => exact absurd rfl hgoes
  | cons l ts => rw [List.length_cons, collect, if_neg hgoes, h]

theorem isLast_of_isFinish {t : Token} (h : t.isFinish = true) : t.isLast = true := by
  cases t <;> first | rfl | cases h

open PageScript.Lexeme in
/-- A text is made of statements if it is scanned to its end and its statements are read one after another up
to that. -/
theorem statements_scan_iff {cs : List Char} : statements levels s (scan 1 false cs) = .ok (b, rest) ↔
    ∃ us r, Scan.Passes ⟨1, false, cs⟩ us r ∧ r.rest = [] ∧ rest = [⟨.finish, r.line, r.broken⟩] ∧
      Items (parse levels .statement s) (·.isFinish) (us ++ rest) b rest := by
  constructor
  · intro h
    obtain ⟨hreadable, hitems, hfinish⟩ := items_of_statements h
    obtain ⟨-, front, hfront, hplain⟩ := front_of_items hreadable hitems
    obtain ⟨us, r, hpasses, hend⟩ := Scan.exists_passes ⟨1, false, cs⟩
    have hscan : scan 1 false cs = us ++ r.lexemes := hpasses.lexemes_eq
    have hisLast := isLast_of_isFinish hfinish
    rcases hend with hr | hstuck
    · rw [Scan.lexemes_of_rest_eq_nil hr] at hscan
      obtain ⟨-, rfl⟩ := eq_of_isLast (hfront.symm.trans hscan) hplain hpasses.isLast_eq_false rfl hisLast
      rw [hscan] at hitems
      exact ⟨us, r, hpasses, hr, rfl, hitems⟩
    · obtain ⟨cause, line, hlexemes⟩ := hstuck.lexemes_eq
      rw [hlexemes] at hscan
      obtain ⟨-, rfl⟩ := eq_of_isLast (hfront.symm.trans hscan) hplain hpasses.isLast_eq_false rfl hisLast
      cases hfinish
  · rintro ⟨us, r, hpasses, hr, rfl, hitems⟩
    have hscan : scan 1 false cs = us ++ r.lexemes := hpasses.lexemes_eq
    rw [hscan, Scan.lexemes_of_rest_eq_nil hr]
    exact statements_of_items (Readable.append nofun hpasses.isLast_eq_false) hitems rfl

/-- A text that is made of statements has no errors. -/
theorem valid_of_statements {cs : List Char} (h : statements levels s (Lexeme.scan 1 false cs) = .ok (b, rest)) :
    ∀ l ∈ Lexeme.scan 1 false cs, ∀ cause, l.token ≠ .invalid cause := by
  obtain ⟨us, r, hpasses, hr, -, -⟩ := statements_scan_iff.1 h
  intro l hl cause hcause
  have hscan : Lexeme.scan 1 false cs = us ++ r.lexemes := hpasses.lexemes_eq
  rw [hscan, Lexeme.Scan.lexemes_of_rest_eq_nil hr] at hl
  rcases List.mem_append.1 hl with hl | hl
  · have hplain := hpasses.isLast_eq_false l hl
    rw [hcause] at hplain
    cases hplain
  · rw [List.mem_singleton.1 hl] at hcause
    cases hcause

end Goal

namespace Program

open PageScript.Goal

variable {source : String} {body : List Statement} {e : SyntaxError}

theorem parse_eq_ok_iff : parse source = .ok body ↔
    ∃ rest, statements nestingLimit .program (Lexeme.ofText source) = .ok (body, rest) := by
  change (statements nestingLimit .program (Lexeme.ofText source)).map (·.1) = .ok body ↔ _
  cases statements nestingLimit .program (Lexeme.ofText source) with
  | error e => exact ⟨nofun, nofun⟩
  | ok r =>
    obtain ⟨b, rest⟩ := r
    constructor
    · rintro ⟨⟩
      exact ⟨rest, rfl⟩
    · rintro ⟨rest, ⟨⟩⟩
      rfl

theorem parse_of_error (h : statements nestingLimit .program (Lexeme.ofText source) = .error e) :
    parse source = .error e := by
  change (statements nestingLimit .program (Lexeme.ofText source)).map (·.1) = .error e
  rw [h]
  rfl

end Program

end PageScript
