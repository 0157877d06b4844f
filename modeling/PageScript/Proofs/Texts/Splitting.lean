import Mathlib.Algebra.Group.Defs
import PageScript.Embedding.Stock
import PageScript.Library.Strings
import PageScript.Proofs.Arrays.Methods
import PageScript.Proofs.Arrays.Sparse
import PageScript.Proofs.Fresh
import PageScript.Proofs.Numbers.Doubles

/-! # Splitting and joining

The pieces of a text lie between the places where the separator is found, from left to right, and joining the
array of them with the separator gives the text again.
-/

set_option autoImplicit false

namespace PageScript

namespace Text

variable {sep needle cs : List Char} {i j : Nat}

/-! ## Pieces -/

/-- Where a text is found, it stands. -/
theorem append_of_findFrom (h : findFrom needle i cs = some j) :
    cs.take (j - i) ++ needle ++ cs.drop (j - i + needle.length) = cs := by
  induction cs generalizing i with
  | nil =>
    simp only [findFrom, List.isEmpty_iff] at h
    split at h <;> simp_all
  | cons c cs ih =>
    simp only [findFrom] at h
    split at h
    case isTrue hfront =>
      obtain ⟨rest, hrest⟩ := List.isPrefixOf_iff_prefix.1 hfront
      cases h
      rw [← hrest]
      simp
    case isFalse =>
      have hle := (le_of_findFrom h).1
      have hcs := ih h
      obtain ⟨k, rfl⟩ : ∃ k, j = i + 1 + k := ⟨j - (i + 1), by omega⟩
      rw [show i + 1 + k - i = k + 1 by omega, show k + 1 + needle.length = k + needle.length + 1 by omega,
        List.take_succ_cons, List.drop_succ_cons, List.cons_append, List.cons_append]
      rw [show i + 1 + k - (i + 1) = k by omega] at hcs
      rw [hcs]

/-- What is not found stands nowhere. -/
theorem not_prefix_of_findFrom_eq_none (h : findFrom needle i cs = none) (k : Nat) : ¬needle <+: cs.drop k := by
  induction cs generalizing i k with
  | nil =>
    simp only [findFrom, List.isEmpty_iff] at h
    split at h <;> simp_all
  | cons c cs ih =>
    simp only [findFrom] at h
    split at h
    case isTrue => cases h
    case isFalse hfront =>
      cases k with
      | zero => exact fun hprefix => hfront (List.isPrefixOf_iff_prefix.2 hprefix)
      | succ k => exact ih h k

/-- What is found stands nowhere before. -/
theorem not_prefix_of_findFrom (h : findFrom needle i cs = some j) {k : Nat} (hk : i + k < j) :
    ¬needle <+: cs.drop k := by
  induction cs generalizing i k with
  | nil =>
    simp only [findFrom] at h
    split at h
    · cases h
      omega
    · cases h
  | cons c cs ih =>
    simp only [findFrom] at h
    split at h
    case isTrue =>
      cases h
      omega
    case isFalse hfront =>
      cases k with
      | zero => exact fun hprefix => hfront (List.isPrefixOf_iff_prefix.2 hprefix)
      | succ k => exact ih h (by omega)

theorem splitAt_of_none (hsep : 0 < sep.length) (h : findFrom sep 0 cs = none) :
    splitAt sep hsep cs = [cs] := by
  rw [splitAt]
  split <;> simp_all

theorem splitAt_of_some (hsep : 0 < sep.length) (h : findFrom sep 0 cs = some i) :
    splitAt sep hsep cs = cs.take i :: splitAt sep hsep (cs.drop (i + sep.length)) := by
  rw [splitAt]
  split <;> simp_all

theorem splitAt_ne_nil (hsep : 0 < sep.length) (cs : List Char) : splitAt sep hsep cs ≠ [] := by
  cases h : findFrom sep 0 cs with
  | none => simp [splitAt_of_none hsep h]
  | some i => simp [splitAt_of_some hsep h]

/-- The pieces with the separator between them are the text. -/
theorem intercalate_splitAt (hsep : 0 < sep.length) (cs : List Char) :
    sep.intercalate (splitAt sep hsep cs) = cs := by
  induction cs using splitAt.induct sep hsep with
  | case1 cs h => rw [splitAt_of_none hsep h, List.intercalate_singleton]
  | case2 cs i h ih =>
    have happend := append_of_findFrom h
    rw [Nat.sub_zero] at happend
    rw [splitAt_of_some hsep h, List.intercalate_cons_of_ne_nil (splitAt_ne_nil hsep _), ih, happend]

theorem length_splitAt_le (hsep : 0 < sep.length) (cs : List Char) :
    (splitAt sep hsep cs).length ≤ cs.length + 1 := by
  induction cs using splitAt.induct sep hsep with
  | case1 cs h => simp [splitAt_of_none hsep h]
  | case2 cs i h ih =>
    have hle := (le_of_findFrom h).2
    rw [List.length_drop] at ih
    rw [splitAt_of_some hsep h, List.length_cons]
    omega

/-- Every character has at least one byte. -/
theorem length_le_utf8ByteSize (cs : List Char) : cs.length ≤ (String.ofList cs).utf8ByteSize := by
  induction cs with
  | nil => exact Nat.zero_le _
  | cons c cs ih =>
    have hsize : (String.ofList (c :: cs)).utf8ByteSize = c.utf8Size + (String.ofList cs).utf8ByteSize := by
      rw [show c :: cs = [c] ++ cs from rfl, String.ofList_append, String.utf8ByteSize_append]
      rw [← String.utf8ByteSize_singleton]
      rfl
    have hpos := Char.utf8Size_pos c
    rw [List.length_cons, hsize]
    omega

/-- A text is put together from its characters. -/
theorem intercalate_singletons (cs : List Char) : ([] : List Char).intercalate (cs.map ([·])) = cs := by
  induction cs with
  | nil => rfl
  | cons c cs ih =>
    cases cs with
    | nil => rfl
    | cons d cs =>
      rw [List.map_cons, List.intercalate_cons_of_ne_nil (by simp), ih]
      rfl

end Text

namespace Script

variable {e : Engine} {m : Machine} {s sep : String} {args : List Value} {i k length default : Nat}

theorem positionWithin_ofNat (harg : args[k]? = some (.ofNat i)) (hi : i < 2 ^ 53) (length default : Nat)
    (e : Engine) (m : Machine) : positionWithin args k length default e m = .value (min i length) m := by
  have hclamp : (Position.ofNumber (.ofNat i)).clamp length = min i length := by
    rw [Position.ofNumber_ofNat hi]
    rfl
  unfold positionWithin given?
  rw [harg]
  show Outcome.value ((Position.ofNumber (.ofNat i)).clamp length) m = _
  rw [hclamp]

/-- A part of a string is taken between the positions that are given, or up to its end. -/
theorem substring_string {start stop : Nat}
    (hstart : positionWithin args 0 s.toList.length 0 e m = .value start m)
    (hstop : positionWithin args 1 s.toList.length s.toList.length e m = .value stop m) :
    applyString .substring (.string s) args e m
      = .value (ofChars (s.toList.extract (min start stop) (max start stop))) m :=
  (bind_of_value hstart _).trans (bind_of_value hstop _)

/-- The part of a text up to a position. -/
theorem substring_front (hi : i ≤ s.length) (hs : s.length < 2 ^ 53) (e : Engine) (m : Machine) :
    applyString .substring (.string s) [.ofNat 0, .ofNat i] e m
      = .value (.string (String.ofList (s.toList.take i))) m := by
  have hlength : s.toList.length = s.length := String.length_toList
  have hstart := positionWithin_ofNat (show [Value.ofNat 0, .ofNat i][0]? = some (.ofNat 0) from rfl)
    (by decide) s.toList.length 0 e m
  have hstop := positionWithin_ofNat (show [Value.ofNat 0, .ofNat i][1]? = some (.ofNat i) from rfl)
    (by omega) s.toList.length s.toList.length e m
  have hpart : s.toList.extract 0 i = s.toList.take i := by simp
  rw [show min 0 s.toList.length = 0 by omega] at hstart
  rw [show min i s.toList.length = i by omega] at hstop
  rw [substring_string hstart hstop, Nat.zero_min, Nat.zero_max, hpart]
  rfl

/-- The part of a text from a position on. -/
theorem substring_back (hi : i ≤ s.length) (hs : s.length < 2 ^ 53) (e : Engine) (m : Machine) :
    applyString .substring (.string s) [.ofNat i] e m
      = .value (.string (String.ofList (s.toList.drop i))) m := by
  have hlength : s.toList.length = s.length := String.length_toList
  have hstart := positionWithin_ofNat (show [Value.ofNat i][0]? = some (.ofNat i) from rfl) (by omega)
    s.toList.length 0 e m
  have hstop : positionWithin [.ofNat i] 1 s.toList.length s.toList.length e m
      = .value s.toList.length m := rfl
  have hpart : s.toList.extract i s.toList.length = s.toList.drop i := by simp
  rw [show min i s.toList.length = i by omega] at hstart
  rw [substring_string hstart hstop, Nat.min_eq_left (by omega), Nat.max_eq_right (by omega), hpart]
  rfl

/-! ## Splitting -/

theorem intercalate_pieces (sep cs : List Char) : sep.intercalate (pieces sep cs) = cs := by
  unfold pieces
  split
  · exact Text.intercalate_splitAt _ cs
  · rename_i hempty
    obtain rfl : sep = [] := List.length_eq_zero_iff.1 (by omega)
    exact Text.intercalate_singletons cs

theorem length_pieces_le (sep cs : List Char) : (pieces sep cs).length ≤ cs.length + 1 := by
  unfold pieces
  split
  · exact Text.length_splitAt_le _ cs
  · rw [List.length_map]
    omega

/-- The texts between the separators in a text. -/
def textPieces (s sep : String) : List String := (pieces sep.toList s.toList).map String.ofList

/-- A text without the separator stays whole. -/
theorem textPieces_of_none (hsep : 0 < sep.toList.length) (h : Text.findFrom sep.toList 0 s.toList = none) :
    textPieces s sep = [s] := by
  unfold textPieces pieces
  rw [dif_pos hsep, Text.splitAt_of_none hsep h]
  simp

/-- The first piece ends where the separator is found, and the others are those of what follows it. -/
theorem textPieces_of_some (hsep : 0 < sep.toList.length)
    (h : Text.findFrom sep.toList 0 s.toList = some i) :
    textPieces s sep = String.ofList (s.toList.take i) ::
      textPieces (String.ofList (s.toList.drop (i + sep.length))) sep := by
  unfold textPieces pieces
  rw [dif_pos hsep, dif_pos hsep, Text.splitAt_of_some hsep h, String.length_toList, String.toList_ofList,
    List.map_cons]

theorem intercalate_textPieces (s sep : String) : sep.intercalate (textPieces s sep) = s := by
  refine String.toList_inj.1 ?_
  have htexts : (textPieces s sep).map String.toList = pieces sep.toList s.toList := by
    simp [textPieces, Function.comp_def]
  rw [String.toList_intercalate, htexts, intercalate_pieces]

/-- A text that may be joined again has no more pieces than an array has elements. -/
theorem length_textPieces_le (sep : String) (hsize : s.utf8ByteSize ≤ joinLimit) :
    (textPieces s sep).length ≤ ArrayIndex.limit := by
  have hpieces := length_pieces_le sep.toList s.toList
  have hbytes := Text.length_le_utf8ByteSize s.toList
  rw [String.ofList_toList] at hbytes
  unfold joinLimit at hsize
  unfold textPieces ArrayIndex.limit
  rw [List.length_map]
  omega

/-- Whether splitting a text at a separator makes an array of certain texts. -/
def Splits (s sep : String) (parts : List String) : Prop :=
  ∀ e m, applyString .split (.string s) [.string sep] e m
    = (do return .ref (← arrayOf (parts.map .string)) : Script Value) e m

theorem splits_textPieces (s sep : String) : Splits s sep (textPieces s sep) := by
  intro e m
  rw [textPieces, List.map_map]
  rfl

/-! ## Joining -/

/-- An array of values is one of elements without holes. -/
theorem arrayOf_eq (values : List Value) :
    arrayOf values = arrayOfElements (.ofItems (values.map fun v => some v.unbound)) := by
  have hpresent : Elements.presentFrom 0 (values.map fun v => some v.unbound)
      = values.zipIdx.map fun x => (x.2, x.1.unbound) := by
    have h := (Elements.map_zipIdx (values.map Value.unbound) 0).symm
    rw [List.map_map, List.zipIdx_map, List.map_map] at h
    simpa [Function.comp_def] using h
  unfold arrayOf arrayOfElements Elements.ofItems
  simp only [hpresent, List.length_map, List.foldl_map]

/-- An array that owns every index below its length has just these indices. -/
theorem indices_of_owned {a : ObjectId} (hlimit : length ≤ ArrayIndex.limit)
    (howned : ∀ i < length, m.heap.owns a (ArrayIndex.name i) = true) :
    m.heap.indices a length = List.range length := by
  rw [Heap.indices_eq_filter _ _ hlimit, List.filter_eq_self]
  intro i hi
  unfold Heap.hasProperty
  rw [Machine.findOwner_of_owns (howned i (List.mem_range.1 hi))]
  rfl

/-- The elements of an array without holes, all of them texts. -/
theorem join_strings {a : ObjectId} {parts : List String}
    (hlists : m.heap.Lists a (parts.map fun s => some (.string s))) (hshows : m.Shows a)
    (hlength : parts.length ≤ ArrayIndex.limit) (hsize : (sep.intercalate parts).utf8ByteSize ≤ joinLimit)
    (e : Engine) :
    applyArray .join (.ref a) [.string sep] e m = .value (.string (sep.intercalate parts)) m := by
  let texts (i : Nat) : String := parts[i]?.getD ""
  have hitem : ∀ i < parts.length,
      (parts.map fun s => some (Value.string s))[i]?.join = some (.string (texts i)) := by
    intro i hi
    simp [texts, hi]
  have hall : (List.range parts.length).map texts = parts := by
    refine List.ext_getElem (by simp) fun i hi hi' => ?_
    simp [texts, hi']
  have hread : ∀ i < parts.length,
      readMember (.ref a) (ArrayIndex.name i) e m = .value (.string (texts i)) m := by
    intro i hi
    obtain ⟨w, hw, hunbound⟩ := readMember_element (e := e) hlists (hitem i hi)
    cases w with
    | string t =>
      cases hunbound
      exact hw.yields hshows
    | _ => cases hunbound
  have hindices : m.heap.indices a parts.length = List.range parts.length := by
    refine indices_of_owned hlength fun i hi => ?_
    have howned := (hlists.owned_of_some (hitem i hi)).2
    rwa [owns_eq_isSome]
  have hlengthOf : lengthOf a e m = .value parts.length m := by
    have hlooks := lengthOf_looks (e := e) hlists (by rwa [List.length_map])
    rw [List.length_map] at hlooks
    exact hlooks.yields hshows
  have helements : readElements a e m
      = .value ⟨parts.length, (List.range parts.length).map fun i => (i, .string (texts i))⟩ m := by
    have h : readElements a e m = .value ⟨parts.length, (m.heap.indices a parts.length).map fun i =>
        (i, (Value.string (texts i)).unbound)⟩ m :=
      readElements_value hlengthOf fun i hi => hread i (Heap.lt_of_mem_indices hi)
    rwa [hindices] at h
  have hjoin : joinElements sep ⟨parts.length, (List.range parts.length).map fun i => (i, .string (texts i))⟩ e m
      = .value (sep.intercalate parts) m := by
    rw [← hall] at hsize
    have h : joinElements sep ⟨parts.length, (List.range parts.length).map fun i => (i, .string (texts i))⟩ e m
        = .value (sep.intercalate ((List.range parts.length).map texts)) m :=
      joinElements_value List.pairwise_lt_range (fun i hi => List.mem_range.1 hi)
        (fun i hi hnot => absurd (List.mem_range.2 hi) hnot) (fun i _ => rfl) hsize
    rwa [hall] at h
  have hseparator : separatorOf [.string sep] e m = .value sep m := rfl
  show join a [.string sep] e m = _
  rw [join_eq]
  exact (bind_of_value hseparator _).trans ((bind_of_value helements _).trans (bind_of_value hjoin _))

/-- Joining what splitting made gives the text again. -/
theorem join_of_splits (hm : m.heap.Sound) (hsize : s.utf8ByteSize ≤ joinLimit) (sep : String) (e : Engine) :
    ∃ n, (do applyArray .join (← applyString .split (.string s) [.string sep]) [.string sep]) e m
        = .value (.string s) { m with heap := n } ∧
      ∀ c o, m.heap.get? c = some o → n.get? c = some o := by
  have hlength := length_textPieces_le sep hsize
  have hjoined := intercalate_textPieces s sep
  let items : List (Option Value) := (textPieces s sep).map fun s => some (.string s)
  have hvalues : ((textPieces s sep).map Value.string).map (fun v => some v.unbound) = items := by
    rw [List.map_map]
    rfl
  have hunbound : Elements.unbound items = items := by
    rw [Elements.unbound, List.map_map]
    rfl
  have hlimit : items.length ≤ ArrayIndex.limit := by rwa [List.length_map]
  obtain ⟨b, n, hmake, hfresh, hrest, hget⟩ := arrayOfElements_new hm items e
  have hsplit : applyString .split (.string s) [.string sep] e m = .value (.ref b) { m with heap := n } := by
    rw [splits_textPieces, arrayOf_eq, hvalues]
    exact bind_of_value hmake _
  have hlists : n.Lists b items := hunbound ▸ (Heap.Lists.of_ofItems hget hlimit).1
  have hjoin : applyArray .join (.ref b) [.string sep] e { m with heap := n }
      = .value (.string (sep.intercalate (textPieces s sep))) { m with heap := n } :=
    join_strings hlists (.of_ofItems hget hlimit) hlength (by rwa [hjoined]) e
  rw [hjoined] at hjoin
  refine ⟨n, (bind_of_value hsplit _).trans hjoin, fun c o ho => ?_⟩
  rw [hrest c (Heap.ne_of_fresh hfresh ho), ho]

/-! ## Agreement -/

theorem indexOf_string (s sep : String) (e : Engine) (m : Machine) :
    applyString .indexOf (.string s) [.string sep] e m
      = .value (positionNumber (Text.findFrom sep.toList 0 s.toList)) m := rfl

/-- The pieces of a text are the whole of it if the search finds the separator nowhere.  Else the first one is the
part up to the first position of it, and the others are the pieces of the part behind the separator there.  These
parts are substrings at the position as a number, which says it exactly in a text of fewer than `2 ^ 53` characters.
Joined with the separator, even an empty one, the pieces are the text again, if its bytes are within the limit of
joining. -/
theorem split_agrees (s sep : String) :
    ∃ parts, Splits s sep parts ∧
      (sep ≠ "" →
        ((∀ e m, applyString .indexOf (.string s) [.string sep] e m = .value (.number (.ofInt (-1))) m) ∧
          (∀ j, ¬sep.toList <+: s.toList.drop j) ∧ parts = [s]) ∨
        ∃ i first behind rest, i + sep.length ≤ s.length ∧
          (∀ e m, applyString .indexOf (.string s) [.string sep] e m = .value (.ofNat i) m) ∧
          (∀ j < i, ¬sep.toList <+: s.toList.drop j) ∧
          first = String.ofList (s.toList.take i) ∧
          behind = String.ofList (s.toList.drop (i + sep.length)) ∧
          (s.length < 2 ^ 53 → ∀ e m,
            applyString .substring (.string s) [.ofNat 0, .ofNat i] e m = .value (.string first) m ∧
            applyString .substring (.string s) [.ofNat (i + sep.length)] e m = .value (.string behind) m) ∧
          Splits behind sep rest ∧ parts = first :: rest) ∧
      ∀ e m, m.heap.Sound → s.utf8ByteSize ≤ joinLimit → ∃ n,
        (do applyArray .join (← applyString .split (.string s) [.string sep]) [.string sep]) e m
          = .value (.string s) { m with heap := n } ∧
        ∀ c o, m.heap.get? c = some o → n.get? c = some o := by
  refine ⟨textPieces s sep, splits_textPieces s sep, fun hsep => ?_, fun e m hm hsize =>
    join_of_splits hm hsize sep e⟩
  have hpos : 0 < sep.toList.length := by
    rw [List.length_pos_iff]
    simpa using hsep
  cases hfind : Text.findFrom sep.toList 0 s.toList with
  | none =>
    refine .inl ⟨fun e m => ?_, Text.not_prefix_of_findFrom_eq_none hfind, textPieces_of_none hpos hfind⟩
    rw [indexOf_string, hfind]
    rfl
  | some i =>
    have hle : i + sep.length ≤ s.length := by
      have h := (Text.le_of_findFrom hfind).2
      rwa [String.length_toList, String.length_toList, Nat.zero_add] at h
    have hfirst : ∀ j < i, ¬sep.toList <+: s.toList.drop j := fun j hj =>
      Text.not_prefix_of_findFrom hfind (by omega)
    refine .inr ⟨i, _, _, _, hle, fun e m => ?_, hfirst, rfl, rfl, fun hs e m => ?_, splits_textPieces _ sep,
      textPieces_of_some hpos hfind⟩
    · rw [indexOf_string, hfind]
      rfl
    · exact ⟨substring_front (by omega) hs e m, substring_back hle hs e m⟩

/-- A text with the separator inside it and twice at its end, on a new machine. -/
theorem split_agrees_dashes :
    let m := Interpreter.initialMachine {}
    "--" ≠ "" ∧ "ä--b----".length < 2 ^ 53 ∧ m.heap.Sound ∧ "ä--b----".utf8ByteSize ≤ joinLimit ∧
    ∃ first behind rest,
      (∀ e m, applyString .indexOf (.string "ä--b----") [.string "--"] e m = .value (.ofNat 1) m) ∧
      (∀ e m,
        applyString .substring (.string "ä--b----") [.ofNat 0, .ofNat 1] e m = .value (.string first) m ∧
        applyString .substring (.string "ä--b----") [.ofNat 3] e m = .value (.string behind) m) ∧
      Splits behind "--" rest ∧ Splits "ä--b----" "--" (first :: rest) ∧
      ∀ e, ∃ n, (do applyArray .join (← applyString .split (.string "ä--b----") [.string "--"]) [.string "--"]) e m
        = .value (.string "ä--b----") { m with heap := n } := by
  intro m
  have hlength : "ä--b----".length = 8 := by decide
  have hshort : "ä--b----".length < 2 ^ 53 := by rw [hlength]; decide
  have hm : m.heap.Sound := Realm.heap_sound
  have hsize : "ä--b----".utf8ByteSize ≤ joinLimit := by decide +kernel
  have hfind : Text.findFrom "--".toList 0 "ä--b----".toList = some 1 := by decide
  have hone : ∀ e m, applyString .indexOf (.string "ä--b----") [.string "--"] e m = .value (.ofNat 1) m := by
    intro e m
    rw [indexOf_string, hfind]
    rfl
  obtain ⟨parts, hparts, hfound, hjoin⟩ := split_agrees "ä--b----" "--"
  refine ⟨by decide, hshort, hm, hsize, ?_⟩
  let e : Engine := ⟨{}, Stock.scripted none [] [], fun _ m => .exhausted m, 0⟩
  rcases hfound (by decide) with
    ⟨hmissing, -⟩ | ⟨i, first, behind, rest, hle, hindex, -, -, -, hsubstring, hbehind, rfl⟩
  · -- One is not minus one.
    have heq := (Outcome.value.inj ((hone e m).symm.trans (hmissing e m))).1
    have hnumber : Number.ofNat 1 = Number.ofInt (-1) := Value.number.inj heq
    have hsign : (Number.ofNat 1).isNegative ≠ (Number.ofInt (-1)).isNegative := by decide +kernel
    exact absurd (congrArg Number.isNegative hnumber) hsign
  · obtain rfl : i = 1 := by
      have heq := (Outcome.value.inj ((hindex e m).symm.trans (hone e m))).1
      have hposition := congrArg Position.ofNumber (Value.number.inj heq)
      rw [Position.ofNumber_ofNat (by omega), Position.ofNumber_ofNat (by decide)] at hposition
      cases hposition
      rfl
    exact ⟨first, behind, rest, hone, hsubstring hshort, hbehind, hparts,
      fun e => (hjoin e m hm hsize).imp fun _ h => h.1⟩

end Script

end PageScript
