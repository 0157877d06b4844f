import PageScript.Proofs.Rereading.Semicolons
import PageScript.Proofs.Rereading.Sequences
import PageScript.Proofs.Scanning.Tails

/-! # Programs one after another

A program that ends with a semicolon and a program on the lines behind it are one program, whose statements are
those of both.  No statement sees what was read before it.
-/

set_option autoImplicit false

namespace PageScript

open PageScript.Parser PageScript.Goal

variable {levels : Nat} {s : Surroundings} {ts ts' vs : List Lexeme} {b : List Statement} {f : Lexeme}

/-- The statements up to a semicolon at the end of a text are those in front of other statements. -/
theorem Parser.Seam.GoesOn.items {k : Seam} {q : Place} (hk : k.GoesOn f vs) (hq : k.Inside q ts)
    (hp : q.brackets = []) (hmatch : k.Matches ts ts')
    (h : Items (Goal.parse levels .statement s) (·.isFinish) ts b [f]) :
    Items (Goal.parse levels .statement s) (·.isFinish) ts' (b.map (Statement.renumber k.lines)) vs := by
  have hcarries : k.Carries (Goal.parse levels) (Goal.parse levels) := Seam.carries_parse (.inl (Nat.le_refl _))
  generalize hrest : [f] = rest at h
  induction h generalizing q ts' with
  | nil =>
    subst hrest
    exact absurd (hk.matches_length hmatch) (Nat.not_succ_le_self 1)
  | @cons ts us rest t b hgoes hitem hitems ih =>
    subst hrest
    have hgoes' : (head ts').token.isFinish = false := by rw [hk.head_eq hmatch]; exact hgoes
    obtain ⟨-, q', hq', hp'⟩ := (hcarries.statement (e := 0) [] s).course hq hp hitem
    rcases hk.inside_cases hq' with hlength | ⟨rfl, -⟩
    · have hseam : k.rest.length + 0 ≤ us.length := by
        obtain ⟨l, -, hrest, -⟩ := hk.cut
        rw [hrest]
        exact hlength
      rcases (hcarries.statement (e := 0) [] s).again hq hp hmatch hitem hseam with
        ⟨us', hitem', hmatch'⟩ | ⟨hshort, -⟩
      · exact .cons hgoes' hitem' (ih hq' hp' hmatch' rfl)
      · exact absurd hshort hk.long
    · obtain ⟨rfl, -⟩ := hitems.of_stop (by rw [head, hk.finish]; rfl)
      exact .cons hgoes' ((Seam.closes_parse hk levels [] s).on hq hp hmatch hitem) (.nil vs)

/-- Statements up to a semicolon at the end of a text stand in front of other statements as they are. -/
theorem Goal.items_goOn {us : List Lexeme} {l : Lexeme} (hl : l.token = .mark .semicolon) (hf : f.token = .finish)
    (hvs : Readable vs) (helse : (head vs).token.isKeyword .elseWord = false) (hts : Readable (us ++ [l, f]))
    (h : Items (Goal.parse levels .statement s) (·.isFinish) (us ++ [l, f]) b [f]) :
    Items (Goal.parse levels .statement s) (·.isFinish) (us ++ l :: vs) b vs := by
  let k : Seam := ⟨us ++ [l, f], [l, f], l :: vs, id, False, False, nofun, .inl ⟨rfl, rfl⟩, False.elim⟩
  have hk : k.GoesOn f vs := ⟨⟨l, hl, rfl, rfl⟩, ⟨us, rfl⟩, hf, hvs, helse, False.elim⟩
  have hmatch : k.Matches (us ++ [l, f]) (us ++ l :: vs) :=
    ⟨us, rfl, congrArg (· ++ l :: vs) (List.map_id us).symm⟩
  have hitems := hk.items ⟨⟨[], rfl, rfl, nofun⟩, hts⟩ rfl hmatch h
  rwa [renumber_id_of_items hts (List.cons_ne_nil f []) h] at hitems

/-- Statements up to the end of a text begin with no error and with no `else`. -/
theorem Goal.readable_of_items (h : Items (Goal.parse levels .statement s) (·.isFinish) ts b vs)
    (hend : (head vs).token.isFinish = true) : Readable ts ∧ (head ts).token.isKeyword .elseWord = false := by
  have hopens : (head ts).token.isFinish = true ∨ (head ts).token.opensStatement = true := by
    rcases opens_of_items h with rfl | hopens
    · exact .inl hend
    · exact .inr hopens
  unfold Readable
  cases ht : (head ts).token with
  | keyword w =>
    rw [ht] at hopens
    refine ⟨nofun, ?_⟩
    cases w <;> first | rfl | (rcases hopens with hopens | hopens <;> cases hopens)
  | invalid cause =>
    rw [ht] at hopens
    rcases hopens with hopens | hopens <;> cases hopens
  | _ => exact ⟨nofun, rfl⟩

namespace Program

/-- A program behind one that ends with a semicolon: both are read as they are by themselves, one after the
other. -/
theorem parse_append {source more : String} {body rest : List Statement} (hsource : parse source = .ok body)
    (hmore : parse more = .ok rest)
    (hlast : (Lexeme.ofText source).dropLast.getLast?.map (·.token) = some (.mark .semicolon)) :
    parse (source ++ "\n" ++ more) =
      .ok (body ++ rest.map (Statement.renumber (· + Text.lineBreaks (source.toList ++ ['\n'])))) := by
  obtain ⟨left, hsource⟩ := parse_eq_ok_iff.1 hsource
  obtain ⟨left', hmore⟩ := parse_eq_ok_iff.1 hmore
  obtain ⟨us, r, hpasses, hr, rfl, hitems⟩ := statements_scan_iff.1 hsource
  obtain ⟨us', r', hpasses', hr', rfl, hitems'⟩ := statements_scan_iff.1 hmore
  have hscan : Lexeme.ofText source = us ++ [⟨.finish, r.line, r.broken⟩] :=
    hpasses.lexemes_eq.trans (congrArg (us ++ ·) (Lexeme.Scan.lexemes_of_rest_eq_nil hr))
  have hscan' : Lexeme.scan 1 false more.toList = us' ++ [⟨.finish, r'.line, r'.broken⟩] :=
    hpasses'.lexemes_eq.trans (congrArg (us' ++ ·) (Lexeme.Scan.lexemes_of_rest_eq_nil hr'))
  obtain ⟨front, l, rfl, hl⟩ : ∃ front l, us = front ++ [l] ∧ l.token = .mark .semicolon := by
    rw [hscan, List.dropLast_concat, Option.map_eq_some_iff] at hlast
    obtain ⟨l, hgetLast, hl⟩ := hlast
    obtain ⟨front, rfl⟩ := List.getLast?_eq_some_iff.1 hgetLast
    exact ⟨front, l, rfl, hl⟩
  have hplain := hpasses.isLast_eq_false
  have hwhole := hpasses.scan_lineFeed hr more.toList
  rw [hscan', List.map_append, List.map_singleton, Lexeme.renumber] at hwhole
  generalize Text.lineBreaks (source.toList ++ ['\n']) = k at hwhole ⊢
  obtain ⟨left, hbehind, hleft⟩ := items_elsewhere (· + k) (List.cons_ne_nil _ [])
    (.inl ⟨rfl, rfl⟩ : (head [⟨.finish, r'.line, r'.broken⟩]).Alike (head [⟨.finish, r'.line + k, r'.broken⟩]))
    ((readable_of_finish rfl).append hpasses'.isLast_eq_false) (Lexeme.behindBreak_behindBreak _) hitems'
  have hend : (head left).token.isFinish = true := by
    rcases hleft with rfl | hleft
    · rfl
    · obtain ⟨b, rfl⟩ := Lexeme.eq_of_behindBreak hleft
      rfl
  obtain ⟨hreadable, helse⟩ := readable_of_items hbehind hend
  have hts : Readable (front ++ [l] ++ [Lexeme.mk .finish r.line r.broken]) :=
    (readable_of_finish rfl).append hplain
  rw [List.append_assoc, List.singleton_append] at hitems hts
  have hboth := (items_goOn hl rfl hreadable helse hts hitems).append hbehind
  rw [List.append_assoc, List.singleton_append] at hwhole
  rw [← hwhole] at hboth
  have htext : (source ++ "\n" ++ more).toList = source.toList ++ '\n' :: more.toList := by
    rw [String.toList_append, String.toList_append, List.append_assoc]
    rfl
  refine parse_eq_ok_iff.2 ⟨left, ?_⟩
  rw [Lexeme.ofText, htext]
  refine statements_of_items ?_ hboth hend
  rw [hwhole, ← List.singleton_append, ← List.append_assoc]
  exact Readable.append hreadable hplain

theorem readsIf : (match parse "if (a) b; //" with
    | .ok [.mk 1 (.ifThen (.identifier "a") (.mk 1 (.expression (.identifier "b"))))] => true
    | _ => false) = true := by decide +kernel

theorem readsMinus : (match parse "-c" with
    | .ok [.mk 1 (.expression (.unary .minus (.identifier "c")))] => true
    | _ => false) = true := by decide +kernel

theorem parse_append_afterIf :
    parse "if (a) b; //" = .ok [.mk 1 (.ifThen (.identifier "a") (.mk 1 (.expression (.identifier "b"))))] ∧
      parse "-c" = .ok [.mk 1 (.expression (.unary .minus (.identifier "c")))] ∧
      parse ("if (a) b; //" ++ "\n" ++ "-c") =
        .ok [.mk 1 (.ifThen (.identifier "a") (.mk 1 (.expression (.identifier "b")))),
          .mk 2 (.expression (.unary .minus (.identifier "c")))] := by
  have hsource : parse "if (a) b; //" =
      .ok [.mk 1 (.ifThen (.identifier "a") (.mk 1 (.expression (.identifier "b"))))] := by
    have hok := readsIf
    split at hok
    · assumption
    · cases hok
  have hmore : parse "-c" = .ok [.mk 1 (.expression (.unary .minus (.identifier "c")))] := by
    have hok := readsMinus
    split at hok
    · assumption
    · cases hok
  have hlast : (Lexeme.ofText "if (a) b; //").dropLast.getLast?.map (·.token) = some (.mark .semicolon) := by
    have hmark : ((Lexeme.ofText "if (a) b; //").dropLast.getLast?.any (·.token.isMark .semicolon)) = true := by
      decide +kernel
    obtain ⟨l, hl, hmark⟩ := (Option.any_eq_true ..).1 hmark
    rw [hl, Option.map_some, Token.eq_of_isMark hmark]
  exact ⟨hsource, hmore, parse_append hsource hmore hlast⟩

end Program

end PageScript
