import PageScript.Text.Units

/-! # Characters and their code units

The code units of characters spell these characters again.  The units of a character beyond the basic plane
stay together, since no unit that is a character by itself is half of a pair.
-/

set_option autoImplicit false

namespace PageScript.Text

variable {u v : Nat}

/-- The code points of characters leave out the units of pairs. -/
theorem toNat_valid (c : Char) : c.toNat < 0xd800 ∨ 0xdfff < c.toNat ∧ c.toNat < 0x110000 := c.valid

/-- No character is half of a pair. -/
theorem not_paired (c : Char) : isHighUnit c.toNat = false ∧ isLowUnit c.toNat = false := by
  have hvalid := toNat_valid c
  unfold isHighUnit isLowUnit
  simp only [Bool.and_eq_false_iff, decide_eq_false_iff_not]
  omega

theorem charsOfUnits_single (hhigh : isHighUnit u = false) (hlow : isLowUnit u = false) (rest : List Nat) :
    charsOfUnits (u :: rest) = Char.ofNat u :: charsOfUnits rest := by
  cases rest with
  | nil => simp [charsOfUnits, hhigh, hlow]
  | cons v rest => simp [charsOfUnits, hhigh, hlow]

theorem charsOfUnits_pair (hhigh : isHighUnit u = true) (hlow : isLowUnit v = true) (rest : List Nat) :
    charsOfUnits (u :: v :: rest) = charOfPair u v :: charsOfUnits rest := by
  simp [charsOfUnits, hhigh, hlow]

/-- The units of a character beyond the basic plane are a pair, and the pair is that of the character. -/
theorem pair_of_large (c : Char) (hc : 0x10000 ≤ c.toNat) :
    let high := 0xd800 + (c.toNat - 0x10000) / 0x400
    let low := 0xdc00 + (c.toNat - 0x10000) % 0x400
    isHighUnit high = true ∧ isLowUnit low = true ∧ charOfPair high low = c := by
  have hvalid := toNat_valid c
  intro high low
  have hhigh : 0xd800 ≤ high ∧ high < 0xdc00 := by omega
  have hlow : 0xdc00 ≤ low ∧ low < 0xe000 := by omega
  have hcode : 0x10000 + (high - 0xd800) * 0x400 + (low - 0xdc00) = c.toNat := by omega
  refine ⟨by simp [isHighUnit, hhigh], by simp [isLowUnit, hlow], ?_⟩
  unfold charOfPair
  rw [hcode, Char.ofNat_toNat]

theorem charsOfUnits_append (c : Char) (rest : List Nat) :
    charsOfUnits (unitsOfChar c ++ rest) = c :: charsOfUnits rest := by
  unfold unitsOfChar
  dsimp only
  split
  · obtain ⟨hhigh, hlow⟩ := not_paired c
    have hsingle := charsOfUnits_single hhigh hlow rest
    rwa [Char.ofNat_toNat] at hsingle
  · rename_i hlarge
    obtain ⟨hhigh, hlow, hchar⟩ := pair_of_large c (Nat.not_lt.1 hlarge)
    have hpair := charsOfUnits_pair hhigh hlow rest
    rwa [hchar] at hpair

/-- The units of a text spell the text. -/
theorem charsOfUnits_flatMap (cs : List Char) : charsOfUnits (cs.flatMap unitsOfChar) = cs := by
  induction cs with
  | nil => rfl
  | cons c cs ih => rw [List.flatMap_cons, charsOfUnits_append, ih]

/-- A unit has sixteen bits. -/
theorem lt_of_mem_unitsOfChar {c : Char} (hu : u ∈ unitsOfChar c) : u < 0x10000 := by
  have hvalid := toNat_valid c
  unfold unitsOfChar at hu
  dsimp only at hu
  split at hu
  · rename_i hsmall
    cases List.mem_singleton.1 hu
    exact hsmall
  · simp only [List.mem_cons, List.not_mem_nil, or_false] at hu
    omega

end PageScript.Text
