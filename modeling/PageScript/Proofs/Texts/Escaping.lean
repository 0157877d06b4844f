import PageScript.Library.Globals
import PageScript.Proofs.Texts.Units

/-! # Escaped text

Escaping writes the units of a character as two or four hexadecimal digits behind a mark, and reading takes
the mark and exactly these digits away again, whatever follows.  So every text comes back from its escaped
form.
-/

set_option autoImplicit false

namespace PageScript

namespace Text

variable {d n u : Nat} {c : Char} {cs rest : List Char}

/-! ## Digits -/

theorem hexValue?_upperHexDigit (hd : d < 16) : hexValue? (upperHexDigit d) = some d := by
  revert d
  decide

theorem upperHexDigit_isAlphanum (hd : d < 16) : (upperHexDigit d).isAlphanum = true := by
  revert d
  decide

theorem upperHexDigit_ne_u (hd : d < 16) : upperHexDigit d ≠ 'u' := by
  revert d
  decide

/-- Two more digits after a number shift it by eight bits. -/
theorem foldlM_twoHexDigits (k n : Nat) :
    (twoHexDigits n).foldlM (fun n c => (hexValue? c).map (n * 16 + ·)) k = some (k * 256 + n % 256) := by
  have hhigh := hexValue?_upperHexDigit (Nat.mod_lt (n / 16) (by decide : 0 < 16))
  have hlow := hexValue?_upperHexDigit (Nat.mod_lt n (by decide : 0 < 16))
  have hvalue : (k * 16 + n / 16 % 16) * 16 + n % 16 = k * 256 + n % 256 := by omega
  simp [twoHexDigits, hhigh, hlow, hvalue]

theorem hexNumber?_two (hn : n < 0x100) : hexNumber? (twoHexDigits n) = some n := by
  unfold hexNumber?
  rw [foldlM_twoHexDigits, Nat.zero_mul, Nat.zero_add, Nat.mod_eq_of_lt hn]

theorem hexNumber?_four (hn : n < 0x10000) :
    hexNumber? (twoHexDigits (n / 256) ++ twoHexDigits n) = some n := by
  have hvalue : (0 * 256 + n / 256 % 256) * 256 + n % 256 = n := by omega
  unfold hexNumber?
  rw [List.foldlM_append, foldlM_twoHexDigits, Option.bind_eq_bind, Option.bind_some, foldlM_twoHexDigits,
    hvalue]

/-! ## One escape -/

/-- The escape of a unit is read back, and ends where it ended. -/
theorem readEscapedUnit?_escapeUnit (hu : u < 0x10000) (rest : List Char) :
    readEscapedUnit? (escapeUnit u ++ rest) = some (u, rest) := by
  unfold escapeUnit
  split
  · rename_i hsmall
    -- The first digit is no mark of four digits.
    have hfirst := upperHexDigit_ne_u (Nat.mod_lt (u / 16) (by decide : 0 < 16))
    have hnumber := hexNumber?_two hsmall
    unfold twoHexDigits at hnumber ⊢
    simp [readEscapedUnit?, hfirst, hnumber]
  · have hnumber := hexNumber?_four hu
    unfold twoHexDigits at hnumber ⊢
    simp only [List.cons_append, List.nil_append] at hnumber ⊢
    simp [readEscapedUnit?, hnumber]

theorem readEscapedUnit?_of_ne (hc : c ≠ '%') (cs : List Char) : readEscapedUnit? (c :: cs) = none := by
  unfold readEscapedUnit?
  split
  · simp_all
  · simp_all
  · rfl

theorem length_readEscapedUnit? (h : readEscapedUnit? cs = some (u, rest)) : rest.length < cs.length := by
  unfold readEscapedUnit? at h
  split at h
  · obtain ⟨v, -, hv⟩ := Option.map_eq_some_iff.1 h
    cases hv
    simp only [List.length_cons]
    omega
  · obtain ⟨v, -, hv⟩ := Option.map_eq_some_iff.1 h
    cases hv
    simp only [List.length_cons]
    omega
  · cases h

/-! ## All units -/

/-- The limit on the steps of reading does not matter if the text is not longer. -/
theorem unescapeUnits_congr {limit limit' : Nat} (h : cs.length ≤ limit) (h' : cs.length ≤ limit') :
    unescapeUnits limit cs = unescapeUnits limit' cs := by
  induction limit generalizing cs limit' with
  | zero =>
    cases List.length_eq_zero_iff.1 (Nat.le_zero.1 h)
    cases limit' <;> rfl
  | succ limit ih =>
    cases cs with
    | nil => cases limit' <;> rfl
    | cons c cs =>
      rw [List.length_cons] at h h'
      obtain ⟨limit', rfl⟩ : ∃ k, limit' = k + 1 := ⟨limit' - 1, by omega⟩
      unfold unescapeUnits
      cases hread : readEscapedUnit? (c :: cs) with
      | none =>
        have hrest : unescapeUnits limit cs = unescapeUnits limit' cs := ih (by omega) (by omega)
        simp [hrest]
      | some result =>
        have hlength := length_readEscapedUnit? hread
        rw [List.length_cons] at hlength
        have hrest : unescapeUnits limit result.2 = unescapeUnits limit' result.2 := ih (by omega) (by omega)
        simp [hrest]

theorem unescapeUnits_escape {u : Nat} (hu : u < 0x10000) (rest : List Char) :
    unescapeUnits (escapeUnit u ++ rest).length (escapeUnit u ++ rest)
      = u :: unescapeUnits rest.length rest := by
  have hread := readEscapedUnit?_escapeUnit hu rest
  have hlength := length_readEscapedUnit? hread
  cases htext : escapeUnit u ++ rest with
  | nil => simp [htext] at hlength
  | cons c cs =>
    rw [htext] at hread hlength
    rw [List.length_cons] at hlength ⊢
    have hrest := unescapeUnits_congr (show rest.length ≤ cs.length by omega) (Nat.le_refl rest.length)
    rw [unescapeUnits, hread]
    exact congrArg (u :: ·) hrest

theorem unescapeUnits_escapes {units : List Nat} (hunits : ∀ u ∈ units, u < 0x10000) (rest : List Char) :
    unescapeUnits (units.flatMap escapeUnit ++ rest).length (units.flatMap escapeUnit ++ rest)
      = units ++ unescapeUnits rest.length rest := by
  induction units with
  | nil => rfl
  | cons u units ih =>
    rw [List.flatMap_cons, List.append_assoc, unescapeUnits_escape (hunits u (.head _)),
      ih fun v hv => hunits v (.tail _ hv), List.cons_append]

theorem unescapeUnits_of_ne {c : Char} (hc : c ≠ '%') (cs : List Char) :
    unescapeUnits (c :: cs).length (c :: cs) = unitsOfChar c ++ unescapeUnits cs.length cs := by
  rw [List.length_cons, unescapeUnits, readEscapedUnit?_of_ne hc]

/-- What is not escaped is no mark of an escape. -/
theorem ne_mark_of_isEscapeSafe {c : Char} (hc : isEscapeSafe c = true) : c ≠ '%' := by
  rintro rfl
  exact absurd hc (by decide)

/-- The units of an escaped text are those of the text. -/
theorem unescapeUnits_escaped (cs : List Char) :
    unescapeUnits (escape cs).length (escape cs) = cs.flatMap unitsOfChar := by
  induction cs with
  | nil => rfl
  | cons c cs ih =>
    rw [List.flatMap_cons, ← ih]
    by_cases hc : isEscapeSafe c = true
    · have hescape : escape (c :: cs) = c :: escape cs := by simp [escape, hc]
      rw [hescape]
      exact unescapeUnits_of_ne (ne_mark_of_isEscapeSafe hc) _
    · have hescape : escape (c :: cs) = (unitsOfChar c).flatMap escapeUnit ++ escape cs := by
        simp [escape, hc]
      rw [hescape]
      exact unescapeUnits_escapes (fun u hu => lt_of_mem_unitsOfChar hu) _

/-! ## Whole texts -/

theorem unescape_escaped (cs : List Char) : unescape (escape cs) = cs := by
  unfold unescape
  rw [unescapeUnits_escaped, charsOfUnits_flatMap]

/-- The characters of escaped texts: letters and digits of ASCII, and a few marks. -/
def IsEscapeText (c : Char) : Prop := c.isAlphanum = true ∨ c ∈ "@*_+-./%".toList

theorem isEscapeText_of_safe {c : Char} (hc : isEscapeSafe c = true) : IsEscapeText c := by
  have hmarks : "@*_+-./%".toList = "@*_+-./".toList ++ ['%'] := by decide
  unfold isEscapeSafe at hc
  rw [Bool.or_eq_true, List.contains_iff_mem] at hc
  refine hc.imp_right fun hmem => ?_
  rw [hmarks]
  exact List.mem_append_left _ hmem

theorem isEscapeText_of_mem_twoHexDigits {c : Char} {n : Nat} (hc : c ∈ twoHexDigits n) : IsEscapeText c := by
  unfold twoHexDigits at hc
  rcases List.mem_cons.1 hc with rfl | hc
  · exact .inl (upperHexDigit_isAlphanum (Nat.mod_lt _ (by decide)))
  · cases List.mem_singleton.1 hc
    exact .inl (upperHexDigit_isAlphanum (Nat.mod_lt _ (by decide)))

theorem isEscapeText_of_mem_escapeUnit {c : Char} {u : Nat} (hc : c ∈ escapeUnit u) : IsEscapeText c := by
  have hmark : IsEscapeText '%' := .inr (by decide)
  have hfour : IsEscapeText 'u' := .inl (by decide)
  unfold escapeUnit at hc
  split at hc
  · rcases List.mem_cons.1 hc with rfl | hc
    · exact hmark
    · exact isEscapeText_of_mem_twoHexDigits hc
  · rw [List.cons_append, List.cons_append, List.mem_cons, List.mem_cons, List.mem_append] at hc
    rcases hc with rfl | rfl | hc | hc
    · exact hmark
    · exact hfour
    · exact isEscapeText_of_mem_twoHexDigits hc
    · exact isEscapeText_of_mem_twoHexDigits hc

theorem isEscapeText_of_mem_escape {c : Char} {cs : List Char} (hc : c ∈ escape cs) : IsEscapeText c := by
  obtain ⟨d, -, hd⟩ := List.mem_flatMap.1 hc
  by_cases hsafe : isEscapeSafe d = true
  · rw [if_pos hsafe] at hd
    cases List.mem_singleton.1 hd
    exact isEscapeText_of_safe hsafe
  · rw [if_neg hsafe] at hd
    obtain ⟨u, -, hu⟩ := List.mem_flatMap.1 hd
    exact isEscapeText_of_mem_escapeUnit hu

end Text

namespace Script

theorem mapText_string (f : List Char → List Char) (s : String) (e : Engine) (m : Machine) :
    mapText f (.string s) e m = .value (.string (String.ofList (f s.toList))) m := rfl

/-- Escaping a text gives one of letters, digits and a few marks, from which unescaping gives the text again. -/
theorem unescape_escape (s : String) (others : List Value) (e : Engine) (m : Machine) :
    ∃ t : String,
      applyGlobal .escape (.string s :: others) e m = .value (.string t) m ∧
      (∀ c ∈ t.toList, Text.IsEscapeText c) ∧
      ∀ others n, applyGlobal .unescape (.string t :: others) e n = .value (.string s) n := by
  refine ⟨String.ofList (Text.escape s.toList), mapText_string _ s e m, fun c hc => ?_, fun others n => ?_⟩
  · rw [String.toList_ofList] at hc
    exact Text.isEscapeText_of_mem_escape hc
  · have hread := mapText_string Text.unescape (String.ofList (Text.escape s.toList)) e n
    rw [String.toList_ofList, Text.unescape_escaped, String.ofList_toList] at hread
    exact hread

/-- A percent sign, what looks like an escape, and characters of all planes. -/
example : Text.escape "%u0041 é€😀".toList = "%25u0041%20%E9%u20AC%uD83D%uDE00".toList := by decide

end Script

end PageScript
