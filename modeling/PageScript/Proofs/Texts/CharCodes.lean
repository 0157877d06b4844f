import PageScript.Proofs.Texts.Splitting
import PageScript.Proofs.Texts.Units

/-! # Character codes

The code of a character is its code point, but a text is made of codes as of units of sixteen bits.  The two agree
on the characters of the basic plane, which have a unit to themselves, and on no others.
-/

set_option autoImplicit false

namespace PageScript

namespace Text

variable {c : Char} {cs : List Char} {u : Nat} {us : List Nat}

/-- Whether a character has a code unit to itself. -/
def IsBasic (c : Char) : Prop := c.toNat < 0x10000

instance : DecidablePred IsBasic := fun c => inferInstanceAs (Decidable (c.toNat < 0x10000))

/-- The low sixteen bits of the codes of characters. -/
def lowCodes (cs : List Char) : List Nat := cs.map (·.toNat % 2 ^ 16)

/-- The codes of basic characters are their units. -/
theorem lowCodes_basic (h : ∀ c ∈ cs, IsBasic c) : lowCodes cs = cs.flatMap unitsOfChar := by
  induction cs with
  | nil => rfl
  | cons c cs ih =>
    obtain ⟨hc, hcs⟩ := List.forall_mem_cons.1 h
    have hunits : unitsOfChar c = [c.toNat % 2 ^ 16] := by
      rw [Nat.mod_eq_of_lt hc]
      exact if_pos hc
    rw [List.flatMap_cons, hunits, ← ih hcs]
    rfl

theorem isBasic_ofNat (hu : u < 0x10000) : IsBasic (Char.ofNat u) := by
  by_cases hvalid : u.isValidChar
  · rw [show Char.ofNat u = Char.ofNatAux u hvalid from dif_pos hvalid]
    exact hu
  · rw [show Char.ofNat u = '\x00' from dif_neg hvalid]
    decide

/-- Each character takes at least one unit. -/
theorem length_charsOfUnits_le (us : List Nat) : (charsOfUnits us).length ≤ us.length := by
  fun_induction charsOfUnits us <;> simp <;> omega

/-- Where there are as many characters as units, none of them was a pair. -/
theorem isBasic_of_length (hus : ∀ u ∈ us, u < 0x10000) (hlength : us.length ≤ (charsOfUnits us).length) :
    ∀ c ∈ charsOfUnits us, IsBasic c := by
  have hreplacement : IsBasic '\uFFFD' := by decide
  fun_induction charsOfUnits us with
  | case1 => simp
  | case2 u =>
    intro c hc
    obtain rfl := List.mem_singleton.1 hc
    split
    · exact hreplacement
    · exact isBasic_ofNat (hus u (.head _))
  | case3 u v rest hhigh hlow ih =>
    have hle := length_charsOfUnits_le rest
    simp only [List.length_cons] at hlength
    omega
  | case4 u v rest hhigh hlow ih | case5 u v rest hhigh hlow ih =>
    exact List.forall_mem_cons.2 ⟨hreplacement, ih (fun u hu => hus u (.tail _ hu)) (Nat.le_of_succ_le_succ hlength)⟩
  | case6 u v rest hhigh hlow ih =>
    exact List.forall_mem_cons.2 ⟨isBasic_ofNat (hus u (.head _)),
      ih (fun u hu => hus u (.tail _ hu)) (Nat.le_of_succ_le_succ hlength)⟩

/-- The codes of characters, cut to sixteen bits, spell these characters just when all of them are basic. -/
theorem charsOfUnits_lowCodes (cs : List Char) : charsOfUnits (lowCodes cs) = cs ↔ ∀ c ∈ cs, IsBasic c := by
  constructor
  · intro h
    have hunits : ∀ u ∈ lowCodes cs, u < 0x10000 := by
      intro u hu
      obtain ⟨c, -, rfl⟩ := List.mem_map.1 hu
      exact Nat.mod_lt _ (by decide)
    have hbasic := isBasic_of_length hunits (by rw [h]; exact Nat.le_of_eq (List.length_map _))
    rwa [h] at hbasic
  · intro h
    rw [lowCodes_basic h, charsOfUnits_flatMap]

end Text

namespace Script

variable {e : Engine} {m : Machine} {s : String} {c : Char} {x : Number} {i : Nat} {others : List Value}

/-- The code of a character. -/
def codeOf (c : Char) : Value := .ofNat c.toNat

/-! ## Characters and codes of a text -/

/-- What stands at a position, whatever further arguments are given. -/
theorem charAt?_string (s : String) (x : Number) (others : List Value) (e : Engine) (m : Machine) :
    charAt? (.string s) (.number x :: others) e m
      = .value ((Position.ofNumber x).nat?.bind (s.toList[·]?)) m := rfl

theorem nat?_at (i : Nat) : (Position.at i).nat? = some i := by
  show (if (i : Int) < 0 then none else some (i : Int).toNat) = some i
  rw [if_neg (by omega), Int.toNat_natCast]

theorem charAt?_at (hx : Position.ofNumber x = .at i) (hc : s.toList[i]? = some c) :
    charAt? (.string s) (.number x :: others) e m = .value (some c) m := by
  rw [charAt?_string, hx, nat?_at, Option.bind_some, hc]

theorem charAt_string (hx : Position.ofNumber x = .at i) (hc : s.toList[i]? = some c) :
    applyString .charAt (.string s) (.number x :: others) e m = .value (ofChars [c]) m :=
  bind_of_value (charAt?_at hx hc) _

theorem charCodeAt_string (hx : Position.ofNumber x = .at i) (hc : s.toList[i]? = some c) :
    applyString .charCodeAt (.string s) (.number x :: others) e m = .value (codeOf c) m :=
  bind_of_value (charAt?_at hx hc) _

/-- The codes at the positions of a text are those of its characters. -/
theorem charCodes_string {xs : List Number}
    (hxs : xs.map Position.ofNumber = (List.range s.length).map fun i => .at i) :
    each (fun x => applyString .charCodeAt (.string s) [.number x]) xs e m = .value (s.toList.map codeOf) m := by
  let code (p : Position) : Value := (p.nat?.bind (s.toList[·]?)).elim (.number .nan) codeOf
  have hlooks : Looks True (each (fun x => applyString .charCodeAt (.string s) [.number x]) xs)
      (xs.map fun x => code (Position.ofNumber x)) e m := by
    refine .each fun x _ => .of_eq ((bind_of_value (charAt?_string s x [] e m) _).trans ?_)
    unfold code
    cases (Position.ofNumber x).nat?.bind (s.toList[·]?) <;> rfl
  have hcodes : (xs.map fun x => code (Position.ofNumber x)) = s.toList.map codeOf := by
    rw [← Function.comp_def, ← List.map_map, hxs, List.map_map]
    refine List.ext_getElem (by simp [← String.length_toList]) fun i hi hi' => ?_
    have hi : i < s.toList.length := by simpa using hi'
    simp [code, nat?_at, List.getElem?_eq_getElem hi]
  exact hcodes ▸ hlooks.yields trivial

/-! ## Texts of codes -/

/-- A text is made of the low bits of codes. -/
theorem fromCharCode_codes (this : Value) (cs : List Char) (e : Engine) (m : Machine) :
    applyString .fromCharCode this (cs.map codeOf) e m
      = .value (ofChars (Text.charsOfUnits (Text.lowCodes cs))) m := by
  have hunit : ∀ c : Char, (Number.ofNat c.toNat).toUInt32.toNat = c.toNat := by
    intro c
    have hvalid := Text.toNat_valid c
    exact Number.toUInt32_ofNat (by omega)
  have hunits : Looks True
      (each (fun v => do return (← toNumber v).toUInt32.toNat % 2 ^ 16) (cs.map codeOf))
      (Text.lowCodes cs) e m := by
    rw [each_map]
    refine .each fun c _ => .of_eq ?_
    show Outcome.value ((Number.ofNat c.toNat).toUInt32.toNat % 2 ^ 16) m = _
    rw [hunit]
  exact bind_of_value (hunits.yields trivial) _

theorem fromCharCode_codes_iff (this : Value) (cs : List Char) (e : Engine) (m : Machine) :
    applyString .fromCharCode this (cs.map codeOf) e m = .value (ofChars cs) m ↔ ∀ c ∈ cs, Text.IsBasic c := by
  rw [fromCharCode_codes, ← Text.charsOfUnits_lowCodes]
  simp [ofChars, String.ofList_inj]

/-- At each position of a text stands a character, whose code is its code point.  Making a text of the code gives the
character just when it is basic, and making one of all codes gives the text just when all its characters are. -/
theorem fromCharCode_charCodeAt (this : Value) (s : String) (e : Engine) (m : Machine) :
    (∀ i x others, i < s.length → Position.ofNumber x = .at i → ∃ c, s.toList[i]? = some c ∧
      applyString .charAt (.string s) (.number x :: others) e m = .value (ofChars [c]) m ∧
      applyString .charCodeAt (.string s) (.number x :: others) e m = .value (.ofNat c.toNat) m ∧
      ((do applyString .fromCharCode this [← applyString .charCodeAt (.string s) (.number x :: others)]) e m
        = .value (ofChars [c]) m ↔ Text.IsBasic c)) ∧
    ∀ xs : List Number, xs.map Position.ofNumber = (List.range s.length).map (fun i => .at i) →
      ((do
          let codes ← each (fun x => applyString .charCodeAt (.string s) [.number x]) xs
          applyString .fromCharCode this codes) e m = .value (.string s) m ↔ ∀ c ∈ s.toList, Text.IsBasic c) := by
  constructor
  · intro i x others hi hx
    have hlength : i < s.toList.length := by rwa [String.length_toList]
    have hc : s.toList[i]? = some (s.toList.get ⟨i, hlength⟩) := List.getElem?_eq_getElem _
    refine ⟨_, hc, charAt_string hx hc, charCodeAt_string hx hc, ?_⟩
    rw [bind_of_value (charCodeAt_string hx hc)]
    exact (fromCharCode_codes_iff this [_] e m).trans List.forall_mem_singleton
  · intro xs hxs
    have hiff := fromCharCode_codes_iff this s.toList e m
    rw [bind_of_value (charCodes_string hxs)]
    rwa [ofChars, String.ofList_toList] at hiff

/-- The characters of an arrow and a ligature among letters, the arrow by itself and all of them together. -/
theorem fromCharCode_charCodeAt_arrow :
    let e : Engine := .upTo {} (Stock.printer (Stock.scripted none [] [])) 100
    let m := Interpreter.initialMachine {}
    let numbers : List Number := [.ofNat 0, .ofNat 1, .ofNat 2]
    1 < "a→ﬀ".length ∧ Position.ofNumber (.ofNat 1) = .at 1 ∧
      numbers.map Position.ofNumber = (List.range "a→ﬀ".length).map (fun i => .at i) ∧
      applyString .charAt (.string "a→ﬀ") [.ofNat 1] e m = .value (.string "→") m ∧
      (do applyString .fromCharCode .undefined [← applyString .charCodeAt (.string "a→ﬀ") [.ofNat 1]]) e m
        = .value (.string "→") m ∧
      (do
        let codes ← each (fun x => applyString .charCodeAt (.string "a→ﬀ") [.number x]) numbers
        applyString .fromCharCode .undefined codes) e m = .value (.string "a→ﬀ") m := by
  intro e m numbers
  have hone : Position.ofNumber (.ofNat 1) = .at 1 := Position.ofNumber_ofNat (by decide)
  have hnumbers : numbers.map Position.ofNumber = (List.range "a→ﬀ".length).map fun i => .at i := by
    show [Position.ofNumber (.ofNat 0), .ofNumber (.ofNat 1), .ofNumber (.ofNat 2)] = _
    rw [Position.ofNumber_ofNat (by decide), hone, Position.ofNumber_ofNat (by decide)]
    rfl
  obtain ⟨hchars, htext⟩ := fromCharCode_charCodeAt .undefined "a→ﬀ" e m
  obtain ⟨c, hc, hat, -, hremade⟩ := hchars 1 (.ofNat 1) [] (by decide) hone
  obtain rfl : '→' = c := Option.some.inj hc
  exact ⟨by decide, hone, hnumbers, hat, hremade.2 (by decide), (htext numbers hnumbers).2 (by decide)⟩

/-- The code of a face has more than sixteen bits, and what is left of it is another character.  Of two characters
whose codes have as many, the face is made. -/
theorem fromCharCode_cutShort :
    let e : Engine := .upTo {} (Stock.printer (Stock.scripted none [] [])) 100
    let m := Interpreter.initialMachine {}
    let signs := String.ofList [Char.ofNat 0x1d83d, Char.ofNat 0x1de00]
    applyString .charAt (.string "😀") [.ofNat 0] e m = .value (.string "😀") m ∧
      (do applyString .fromCharCode .undefined [← applyString .charCodeAt (.string "😀") [.ofNat 0]]) e m
        = .value (.string "\uf600") m ∧
      (do
        let codes ← each (fun x => applyString .charCodeAt (.string signs) [.number x]) [.ofNat 0, .ofNat 1]
        applyString .fromCharCode .undefined codes) e m = .value (.string "😀") m := by
  intro e m signs
  have hzero : Position.ofNumber (.ofNat 0) = .at 0 := Position.ofNumber_ofNat (by decide)
  have hnumbers : [Number.ofNat 0, .ofNat 1].map Position.ofNumber
      = (List.range signs.length).map fun i => .at i := by
    show [Position.ofNumber (.ofNat 0), .ofNumber (.ofNat 1)] = _
    rw [hzero, Position.ofNumber_ofNat (by decide), String.length_ofList]
    rfl
  have hsigns := fromCharCode_codes .undefined signs.toList e m
  rw [show Text.lowCodes signs.toList = [0xd83d, 0xde00] by rw [String.toList_ofList]; decide] at hsigns
  have hface : "😀".toList[0]? = some '😀' := rfl
  exact ⟨charAt_string hzero hface,
    (bind_of_value (charCodeAt_string hzero hface) _).trans (fromCharCode_codes .undefined ['😀'] e m),
    (bind_of_value (charCodes_string hnumbers) _).trans hsigns⟩

end Script

end PageScript
