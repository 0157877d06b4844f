import Mathlib.Tactic.IntervalCases
import PageScript.Embedding.Stock
import PageScript.Library.Functions
import PageScript.Proofs.Arrays.Lists
import PageScript.Proofs.Inheritance

/-! # Sparse reading and the plain loop

The methods read only the elements that an object has, own or inherited, and fill in the rest by counting.  The
outcome is that of the plain loop that asks for every index below the length.
-/

set_option autoImplicit false

namespace PageScript

/-! ## A list without holes -/

namespace Elements

theorem getElem?_foldl_set (values : Nat → Value) (indices : List Nat) (all : Array Value) (j : Nat) :
    ((indices.map fun i => (i, values i)).foldl (fun all (i, v) => all.setIfInBounds i v) all)[j]?
      = if j ∈ indices ∧ j < all.size then some (values j) else all[j]? := by
  induction indices generalizing all with
  | nil => simp
  | cons i indices ih =>
    rw [List.map_cons, List.foldl_cons, ih]
    by_cases hj : j < all.size
    · by_cases hmem : j ∈ indices
      · simp [hmem, hj]
      · by_cases hi : i = j
        · subst hi
          simp [hj]
        · have hne : j ≠ i := fun h => hi h.symm
          simp [hmem, hi, hne]
    · simp [hj]

/-- All values from the sparse list of those that are there, if the others are undefined. -/
theorem dense_eq {values : Nat → Value} {indices : List Nat} {length : Nat}
    (hmissing : ∀ i < length, i ∉ indices → values i = .undefined) :
    (⟨length, indices.map fun i => (i, values i)⟩ : Elements).dense = (List.range length).map values := by
  refine List.ext_getElem? ?_
  intro j
  unfold dense
  rw [Array.getElem?_toList, getElem?_foldl_set, List.getElem?_map]
  by_cases hj : j < length
  · by_cases hmem : j ∈ indices
    · simp [hmem, hj]
    · simp [hmem, hj, hmissing j hj hmem]
  · simp [hj]

end Elements

/-! ## Separators -/

namespace Script

variable {separator text : String} {texts : Nat → String} {written first i k length : Nat}

/-- Texts with a separator behind each. -/
def separated (separator : String) (texts : Nat → String) : Nat → String
  | 0 => ""
  | n + 1 => separated separator texts n ++ texts n ++ separator

theorem intercalate_range (separator : String) (texts : Nat → String) (n : Nat) :
    separator.intercalate ((List.range (n + 1)).map texts) = separated separator texts n ++ texts n := by
  induction n with
  | zero => simp [separated]
  | succ n ih =>
    rw [List.range_succ, List.map_append,
      String.intercalate_append_of_ne_nil (by simp) (by simp), ih]
    simp [separated]

theorem appendTimes_append (text : String) (n : Nat) (s : String) :
    appendTimes text n (s ++ text) = appendTimes text n s ++ text := by
  induction n generalizing s with
  | zero => rfl
  | succ n ih => exact ih (s ++ text)

theorem appendSeparators_eq (separator : String) (n : Nat) (s : String) :
    appendSeparators separator n s = appendTimes separator n s := by
  unfold appendSeparators
  split
  · rename_i hempty
    rw [String.isEmpty_iff.1 hempty]
    induction n generalizing s with
    | zero => rfl
    | succ n ih => simpa [appendTimes] using ih s
  · rfl

/-- Where texts are empty, only separators are added. -/
theorem separated_add (hempty : ∀ j, written ≤ j → j < written + k → texts j = "") :
    separated separator texts (written + k) = appendTimes separator k (separated separator texts written) := by
  induction k with
  | zero => rfl
  | succ k ih =>
    show separated separator texts (written + k) ++ texts (written + k) ++ separator = _
    rw [hempty (written + k) (by omega) (by omega), ih fun j hj hlt => hempty j hj (by omega),
      String.append_empty, ← appendTimes_append]
    rfl

/-- What is written between two elements of a list that is joined.  `first` is the first index that has not had
its turn, and either nothing was written yet, or all texts up to the one at `written`. -/
inductive Written (separator : String) (texts : Nat → String) : String → Nat → Nat → Prop
  | nothing : Written separator texts "" 0 0
  | upTo (written : Nat) :
      Written separator texts (separated separator texts written ++ texts written) written (written + 1)

theorem Written.appendSeparators (h : Written separator texts text written first) (hi : first ≤ i)
    (hempty : ∀ j, first ≤ j → j < i → texts j = "") :
    appendSeparators separator (i - written) text = separated separator texts i := by
  rw [appendSeparators_eq]
  cases h with
  | nothing =>
    have hadd : separated separator texts (0 + i) = appendTimes separator i (separated separator texts 0) :=
      separated_add fun j hj hlt => hempty j hj (by omega)
    rw [Nat.zero_add] at hadd
    exact hadd.symm
  | upTo =>
    obtain ⟨k, rfl⟩ := Nat.exists_eq_add_of_le hi
    rw [separated_add fun j hj hlt => hempty j hj hlt, show written + 1 + k - written = k + 1 by omega]
    rfl

theorem utf8ByteSize_separated_le (separator : String) (texts : Nat → String) {n : Nat} (hi : i ≤ n) :
    (separated separator texts i ++ texts i).utf8ByteSize
      ≤ (separated separator texts n ++ texts n).utf8ByteSize := by
  induction n, hi using Nat.le_induction with
  | base => exact Nat.le_refl _
  | succ n _ ih =>
    refine ih.trans ?_
    simp only [separated, String.utf8ByteSize_append]
    omega

theorem mul_le_utf8ByteSize_separated (separator : String) (texts : Nat → String) (n : Nat) :
    separator.utf8ByteSize * n ≤ (separated separator texts n).utf8ByteSize := by
  induction n with
  | zero => simp
  | succ n ih =>
    simp only [separated, String.utf8ByteSize_append, Nat.mul_succ]
    omega

/-! ## Joining -/

variable {e : Engine} {m n k start : Machine} {a : ObjectId} {values : Nat → Value} {indices : List Nat}

/-- What joining does with one element. -/
def joinStep (separator : String) : String × Nat → Nat × Value → Script (String × Nat) :=
  fun (text, written) (i, v) => do
    let text := appendSeparators separator (i - written) text ++ (← elementText v)
    if joinLimit < text.utf8ByteSize then raise .range "invalid string length"
    return (text, i)

theorem joinStep_value {v : Value} (hv : elementText v e n = .value (texts i) n)
    (htext : appendSeparators separator (i - written) text = separated separator texts i)
    (hsize : (separated separator texts i ++ texts i).utf8ByteSize ≤ joinLimit) :
    joinStep separator (text, written) (i, v) e n
      = .value (separated separator texts i ++ texts i, i) n := by
  refine (bind_of_value hv _).trans ?_
  dsimp only
  rw [htext, if_neg (by omega)]
  rfl

/-- The pass over the elements that are there writes everything up to the last of them. -/
theorem fold_joinStep (hpos : 0 < length)
    (hsize : (separated separator texts (length - 1) ++ texts (length - 1)).utf8ByteSize ≤ joinLimit)
    (hrising : indices.Pairwise (· < ·)) (hbounds : ∀ i ∈ indices, first ≤ i ∧ i < length)
    (hempty : ∀ j < length, first ≤ j → j ∉ indices → texts j = "")
    (hvalue : ∀ i ∈ indices, elementText (values i) e n = .value (texts i) n)
    (hwritten : Written separator texts text written first) (hfirst : first ≤ length) :
    ∃ text' written',
      fold (joinStep separator) (indices.map fun i => (i, values i)) (text, written) e n
        = .value (text', written') n ∧
      appendSeparators separator (length - 1 - written') text'
        = separated separator texts (length - 1) ++ texts (length - 1) := by
  induction indices generalizing text written first with
  | nil =>
    refine ⟨text, written, rfl, ?_⟩
    by_cases hlast : first ≤ length - 1
    · have hseparators := hwritten.appendSeparators hlast fun j hj hlt =>
        hempty j (by omega) hj List.not_mem_nil
      rw [hseparators, hempty (length - 1) (by omega) hlast List.not_mem_nil, String.append_empty]
    · -- The last element has been written.
      cases hwritten with
      | nothing => omega
      | upTo =>
        obtain rfl : written = length - 1 := by omega
        rw [Nat.sub_self, appendSeparators_eq]
        rfl
  | cons i indices ih =>
    obtain ⟨hlater, hrising⟩ := List.pairwise_cons.1 hrising
    obtain ⟨hi, hlt⟩ := hbounds i (.head _)
    have htext := hwritten.appendSeparators hi fun j hj hji => hempty j (by omega) hj fun hmem => by
      rcases List.mem_cons.1 hmem with rfl | hmem
      · omega
      · have := hlater j hmem
        omega
    have hstep := joinStep_value (hvalue i (.head _)) htext
      ((utf8ByteSize_separated_le separator texts (show i ≤ length - 1 by omega)).trans hsize)
    rw [List.map_cons, fold_cons, bind_of_value hstep]
    refine ih hrising (fun j hj => ⟨hlater j hj, (hbounds j (.tail _ hj)).2⟩) (fun j hj hij hmem => ?_)
      (fun j hj => hvalue j (.tail _ hj)) (.upTo i) (by omega)
    refine hempty j hj (by omega) fun hmem' => ?_
    rcases List.mem_cons.1 hmem' with rfl | hmem'
    · omega
    · exact hmem hmem'

theorem joinElements_value (hrising : indices.Pairwise (· < ·)) (hbounds : ∀ i ∈ indices, i < length)
    (hempty : ∀ j < length, j ∉ indices → texts j = "")
    (hvalue : ∀ i ∈ indices, elementText (values i) e n = .value (texts i) n)
    (hsize : (separator.intercalate ((List.range length).map texts)).utf8ByteSize ≤ joinLimit) :
    joinElements separator ⟨length, indices.map fun i => (i, values i)⟩ e n
      = .value (separator.intercalate ((List.range length).map texts)) n := by
  cases length with
  | zero =>
    have hnil : indices = [] := List.eq_nil_iff_forall_not_mem.2 fun i hi => by
      have := hbounds i hi
      omega
    subst hnil
    unfold joinElements
    dsimp only
    rw [if_neg (by simp)]
    show Outcome.value (appendSeparators separator 0 "") n = _
    rw [appendSeparators_eq]
    rfl
  | succ last =>
    rw [intercalate_range] at hsize ⊢
    have hgaps : ¬joinLimit < separator.utf8ByteSize * last := by
      have := mul_le_utf8ByteSize_separated separator texts last
      rw [String.utf8ByteSize_append] at hsize
      omega
    obtain ⟨text', written', hfold, htext⟩ := fold_joinStep (show 0 < last + 1 by omega) hsize hrising
      (fun i hi => ⟨Nat.zero_le i, hbounds i hi⟩) (fun j hj _ => hempty j hj) hvalue .nothing (Nat.zero_le _)
    unfold joinElements
    dsimp only
    rw [Nat.add_sub_cancel, if_neg hgaps]
    refine (bind_of_value hfold _).trans ?_
    exact congrArg (Outcome.value · n) htext

/-! ## All elements -/

/-- The separator that joining is given, or a comma. -/
def separatorOf (args : List Value) : Script String :=
  match given? args 0 with
  | none => pure ","
  | some v => toText v

theorem join_eq (a : ObjectId) (args : List Value) :
    join a args = do
      let separator ← separatorOf args
      return .string (← joinElements separator (← readElements a)) := by
  unfold join separatorOf
  cases given? args 0 <;> rfl

theorem readElements_value (hlength : lengthOf a e m = .value length n)
    (hread : ∀ i ∈ n.heap.indices a length,
      readMember (.ref a) (ArrayIndex.name i) e n = .value (values i) n) :
    readElements a e m
      = .value ⟨length, (n.heap.indices a length).map fun i => (i, (values i).unbound)⟩ n := by
  have helements : Looks True (each (fun i => do
      return (i, (← readMember (.ref a) (ArrayIndex.name i)).unbound)) (n.heap.indices a length))
      ((n.heap.indices a length).map fun i => (i, (values i).unbound)) e n :=
    .each fun i hi => (Looks.of_eq (hread i hi)).bind (.pure _)
  refine (bind_of_value hlength _).trans ?_
  exact bind_of_value (helements.yields trivial) _

/-- A member that no object on the chain of prototypes has is undefined. -/
theorem readMember_missing {name : String} (hhas : n.heap.hasProperty a name = false)
    (hname : name ≠ "prototype") : readMember (.ref a) name e n = .value .undefined n := by
  have howner : n.heap.findOwner a name = none := Option.isSome_eq_false_iff.1 hhas |> Option.isNone_iff_eq_none.1
  show readObjectMember a name e n = _
  unfold readObjectMember
  rw [bind_read, howner]
  dsimp only
  rw [if_neg (by simpa using hname)]
  rfl

theorem elementText_nothing {v : Value} (hnothing : v.isNothing = true)
    (htext : elementText v.unbound e m = .value text n) : text = "" := by
  have hunbound : v.unbound.isNothing = true := by
    rw [← hnothing]
    cases v <;> rfl
  unfold elementText at htext
  rw [if_pos hunbound] at htext
  exact (Outcome.value.inj htext).1.symm

/-- The elements that methods read from an object with a length, whether it owns or inherits them, are those of
the plain loop that asks for each index in turn, if asking changes nothing.  Applied to the object, a function
gets the value of every index, and joining puts the texts of all of them behind one another. -/
theorem elements_plainLoop {receiver : Option ObjectId} {v : Value} {x : Number}
    (hlength : readMember (.ref a) "length" e m = .value v k) (hnumber : toNumber v e k = .value x n)
    (hread : ∀ i < x.toUInt32.toNat, readMember (.ref a) (ArrayIndex.name i) e n = .value (values i) n) :
    let all := List.range x.toUInt32.toNat
    let present := all.filter fun i => n.heap.hasProperty a (ArrayIndex.name i)
    (∀ i ∈ all, i ∉ present → values i = .undefined) ∧
    readElements a e m = .value ⟨x.toUInt32.toNat, present.map fun i => (i, (values i).unbound)⟩ n ∧
    argumentsOf (.object a receiver) e m
      = (do
          if argumentLimit < x.toUInt32.toNat then raise .range "too many arguments"
          return all.map fun i => (values i).unbound : Script (List Value)) e n ∧
    ∀ args separator start texts, separatorOf args e start = .value separator m →
      (∀ i ∈ all, elementText (values i).unbound e n = .value (texts i) n) →
      (separator.intercalate (all.map texts)).utf8ByteSize ≤ joinLimit →
      (∀ i ∈ all, (values i).isNothing = true → texts i = "") ∧
      join a args e start = .value (.string (separator.intercalate (all.map texts))) n := by
  intro all present
  have hlimit : x.toUInt32.toNat ≤ ArrayIndex.limit := by
    have := x.toUInt32.toNat_lt
    unfold ArrayIndex.limit
    omega
  have hindices : n.heap.indices a x.toUInt32.toNat = present := n.heap.indices_eq_filter a hlimit
  have hmissing : ∀ i ∈ all, i ∉ present → values i = .undefined := by
    intro i hi hnot
    have hhas : n.heap.hasProperty a (ArrayIndex.name i) = false := by
      simpa [present, hi] using hnot
    have hname : ArrayIndex.name i ≠ "prototype" := fun h =>
      absurd (ArrayIndex.isDigit_of_mem_name (i := i) (c := 'p') (h ▸ by decide)) (by decide)
    have hvalue := (hread i (List.mem_range.1 hi)).symm.trans (readMember_missing hhas hname)
    exact (Outcome.value.inj hvalue).1
  have hlengthOf : lengthOf a e m = .value x.toUInt32.toNat n :=
    (bind_of_value hlength _).trans (bind_of_value hnumber _)
  have helements : readElements a e m
      = .value ⟨x.toUInt32.toNat, present.map fun i => (i, (values i).unbound)⟩ n := by
    rw [← hindices]
    exact readElements_value hlengthOf fun i hi => hread i (Heap.lt_of_mem_indices hi)
  refine ⟨hmissing, helements, ?_, ?_⟩
  · have hdense : (⟨x.toUInt32.toNat, present.map fun i => (i, (values i).unbound)⟩ : Elements).dense
        = all.map fun i => (values i).unbound :=
      Elements.dense_eq fun i hi hnot => by
        rw [hmissing i (List.mem_range.2 hi) hnot]
        rfl
    show elementsAsArguments a e m = _
    refine (bind_of_value helements _).trans ?_
    dsimp only
    rw [hdense]
  · intro args separator start texts hseparator htexts hsize
    have hnothing : ∀ i ∈ all, (values i).isNothing = true → texts i = "" := fun i hi hnothing =>
      elementText_nothing hnothing (htexts i hi)
    refine ⟨hnothing, ?_⟩
    have hempty : ∀ j < x.toUInt32.toNat, j ∉ present → texts j = "" := fun j hj hnot =>
      hnothing j (List.mem_range.2 hj) (by rw [hmissing j (List.mem_range.2 hj) hnot]; rfl)
    have hjoin : joinElements separator
          ⟨x.toUInt32.toNat, present.map fun i => (i, (values i).unbound)⟩ e n
        = .value (separator.intercalate (all.map texts)) n :=
      joinElements_value (List.pairwise_lt_range.filter _)
        (fun i hi => List.mem_range.1 (List.mem_filter.1 hi).1) hempty
        (fun i hi => htexts i (List.mem_filter.1 hi).1) hsize
    rw [join_eq, bind_of_value hseparator, bind_of_value helements, bind_of_value hjoin]
    rfl

/-- An object that is no array, with an element of its own, an inherited one, one that is `null` and one that is
missing. -/
theorem elements_plainLoop_inherited :
    let owner : Object := (((Object.empty (some ⟨0⟩)).put "2" .null).put "0" (.string "a")).put "07" .null
    let proto : Object := (((Object.empty none).put "3" (.boolean true)).put "0" .null).put "length" (.ofNat 4)
    let m : Machine :=
      { (Interpreter.fresh {} (Stock.host (Stock.scripted none [] [])) []).machine with
        heap := ⟨#[some ⟨proto, 0⟩, some ⟨owner, 0⟩], [], 0⟩ }
    ∀ e, readElements ⟨1⟩ e m = .value ⟨4, [(0, .string "a"), (2, .null), (3, .boolean true)]⟩ m ∧
      argumentsOf (.ref ⟨1⟩) e m = .value [.string "a", .undefined, .null, .boolean true] m ∧
      join ⟨1⟩ [.string "-"] e m = .value (.string "a---true") m := by
  intro owner proto m e
  let values : Nat → Value
    | 0 => .string "a"
    | 2 => .null
    | 3 => .boolean true
    | _ => .undefined
  let texts : Nat → String
    | 0 => "a"
    | 3 => "true"
    | _ => ""
  have hlength : readMember (.ref ⟨1⟩) "length" e m = .value (.ofNat 4) m := by with_unfolding_all rfl
  have hsize : (Number.ofNat 4).toUInt32.toNat = 4 := by decide +kernel
  have hread : ∀ i < (Number.ofNat 4).toUInt32.toNat,
      readMember (.ref ⟨1⟩) (ArrayIndex.name i) e m = .value (values i) m := by
    rw [hsize]
    intro i hi
    interval_cases i <;> with_unfolding_all rfl
  have hpresent : (List.range 4).filter (fun i => m.heap.hasProperty ⟨1⟩ (ArrayIndex.name i)) = [0, 2, 3] := by
    decide +kernel
  obtain ⟨-, helements, harguments, hjoin⟩ :=
    @elements_plainLoop e m m m ⟨1⟩ values none _ (.ofNat 4) hlength rfl hread
  rw [hsize] at helements harguments hjoin
  rw [hpresent] at helements
  refine ⟨helements, harguments, ?_⟩
  refine (hjoin [.string "-"] "-" m texts rfl (fun i hi => ?_) (by decide +kernel)).2
  have hi := List.mem_range.1 hi
  interval_cases i <;> rfl

end Script

end PageScript
