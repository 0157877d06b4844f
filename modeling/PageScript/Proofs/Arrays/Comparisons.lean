import PageScript.Library.Arrays

/-! # Sorting as a tree of comparisons

Sorting asks one comparison after the other, and what it asks next depends on the answers alone.  `Decision`
is that dependence: the sort of a list is the tree of `Decision.sort`, followed by asking.  What holds of
every path through the tree holds whatever a comparison function answers.
-/

set_option autoImplicit false

namespace PageScript

/-- A result that is reached by asking whether values are greater than others. -/
inductive Decision (α : Type) where
  | settled (result : α)
  | asks (a b : Value) (next : Bool → Decision α)

namespace Decision

/-- Goes on after a result. -/
def bind {α β : Type} : Decision α → (α → Decision β) → Decision β
  | .settled r, f => f r
  | .asks a b next, f => .asks a b fun greater => (next greater).bind f

/-- Asks a comparison function for the answers. -/
def follow {α : Type} (compare : Value → Value → Script Ordering) : Decision α → Script α
  | .settled r => return r
  | .asks a b next => do
    let order ← compare a b
    follow compare (next (order == .gt))

/-- The merging of two lists. -/
def merge : List Value → List Value → Decision (List Value)
  | [], right => .settled right
  | left, [] => .settled left
  | a :: left, b :: right => .asks a b fun greater =>
    if greater then (merge (a :: left) right).bind fun rest => .settled (b :: rest)
    else (merge left (b :: right)).bind fun rest => .settled (a :: rest)
termination_by left right => left.length + right.length

/-- The sorting of a list by merging halves. -/
def sort (values : List Value) : Decision (List Value) :=
  match values with
  | [] | [_] => .settled values
  | a :: b :: rest =>
    (sort ((a :: b :: rest).take ((a :: b :: rest).length / 2))).bind fun left =>
      (sort ((a :: b :: rest).drop ((a :: b :: rest).length / 2))).bind fun right => merge left right
termination_by values.length
decreasing_by
  · simp only [List.length_take, List.length_cons]
    omega
  · simp only [List.length_drop, List.length_cons]
    omega

/-! ## Asking -/

section Asking

variable {α β : Type} {compare : Value → Value → Script Ordering} {e : Engine} {m n k : Machine}
  {t : Decision α} {a b : Value} {r : α}

theorem follow_bind (t : Decision α) (f : α → Decision β) :
    (t.bind f).follow compare = t.follow compare >>= fun r => (f r).follow compare := by
  induction t with
  | settled r => rfl
  | asks a b next ih =>
    funext e m
    show Script.bind (compare a b) (fun order => ((next (order == .gt)).bind f).follow compare) e m
      = Script.bind (Script.bind (compare a b) fun order => (next (order == .gt)).follow compare)
          (fun r => (f r).follow compare) e m
    unfold Script.bind
    cases compare a b e m with
    | value order n => exact congrFun (congrFun (ih (order == .gt)) e) n
    | _ => rfl

/-- Whether a comparison is asked of a machine when a decision is followed from another one on. -/
inductive Asks (compare : Value → Value → Script Ordering) (e : Engine) {α : Type} :
    Decision α → Machine → Value → Value → Machine → Prop where
  | here {a b : Value} {next : Bool → Decision α} {m : Machine} : Asks compare e (.asks a b next) m a b m
  | later {a b c d : Value} {next : Bool → Decision α} {m n k : Machine} {order : Ordering}
      (answered : compare a b e m = .value order n) (asked : Asks compare e (next (order == .gt)) n c d k) :
      Asks compare e (.asks a b next) m c d k

/-- Whether a result is reached by certain answers. -/
inductive Reaches (answers : Value → Value → Bool → Prop) {α : Type} : Decision α → α → Prop where
  | settled {r : α} : Reaches answers (.settled r) r
  | asks {a b : Value} {next : Bool → Decision α} {r : α} (greater : Bool) (answered : answers a b greater)
      (reached : Reaches answers (next greater) r) : Reaches answers (.asks a b next) r

/-- What a decision yields is reached by what was answered. -/
theorem reaches_of_follow (answers : Value → Value → Bool → Prop) (h : t.follow compare e m = .value r n)
    (hanswers : ∀ a b k order j, Asks compare e t m a b k → compare a b e k = .value order j →
      answers a b (order == .gt)) : Reaches answers t r := by
  induction t generalizing m with
  | settled s =>
    cases h
    exact .settled
  | asks a b next ih =>
    change Script.bind (compare a b) (fun order => (next (order == .gt)).follow compare) e m = _ at h
    unfold Script.bind at h
    cases ho : compare a b e m with
    | value order j =>
      rw [ho] at h
      exact .asks _ (hanswers a b m order j .here ho)
        (ih _ h fun c d k order j hasked => hanswers c d k order j (.later ho hasked))
    | abrupt c j => rw [ho] at h; cases h
    | exhausted j => rw [ho] at h; cases h

/-- What every comparison keeps holds of a machine that is asked. -/
theorem Asks.keeps {P : Machine → Prop} (h : Asks compare e t m a b k) (hm : P m)
    (hkeeps : ∀ a b k, Asks compare e t m a b k → P k → P (compare a b e k).machine) : P k := by
  induction h with
  | here => exact hm
  | later ho hasked ih =>
    refine ih ?_ fun c d k hk => hkeeps c d k (.later ho hk)
    have hfirst := hkeeps _ _ _ .here hm
    rwa [ho] at hfirst

/-- What every comparison keeps holds after all of them. -/
theorem follow_keeps {P : Machine → Prop} (h : t.follow compare e m = .value r n) (hm : P m)
    (hkeeps : ∀ a b k, Asks compare e t m a b k → P k → P (compare a b e k).machine) : P n := by
  induction t generalizing m with
  | settled s =>
    cases h
    exact hm
  | asks a b next ih =>
    change Script.bind (compare a b) (fun order => (next (order == .gt)).follow compare) e m = _ at h
    unfold Script.bind at h
    have hfirst := hkeeps a b m .here hm
    cases ho : compare a b e m with
    | value order j =>
      rw [ho] at h hfirst
      exact ih _ h hfirst fun c d k hk => hkeeps c d k (.later ho hk)
    | abrupt c j => rw [ho] at h; cases h
    | exhausted j => rw [ho] at h; cases h

/-- A comparison that ends abruptly ends the decision. -/
theorem Asks.abrupt {c : Abrupt} {j : Machine} (h : Asks compare e t m a b k)
    (hc : compare a b e k = .abrupt c j) : t.follow compare e m = .abrupt c j := by
  induction h with
  | here =>
    show Script.bind (compare _ _) _ e _ = _
    unfold Script.bind
    rw [hc]
  | later ho _ ih =>
    show Script.bind (compare _ _) _ e _ = _
    unfold Script.bind
    rw [ho]
    exact ih hc

end Asking

/-! ## The sort of the library -/

theorem merge_nil (left : List Value) : merge left [] = .settled left := by
  cases left <;> rw [merge]
  exact nofun

theorem follow_merge (comparator : Option Value) (left right : List Value) :
    Script.mergeSorted comparator left right = (merge left right).follow (Script.elementOrder comparator) := by
  induction left, right using merge.induct with
  | case1 right =>
    rw [Script.mergeSorted, merge]
    rfl
  | case2 left hleft =>
    rw [Script.mergeSorted, merge_nil]
    · rfl
    · exact hleft
  | case3 a left b right ihright ihleft =>
    have hgreater : (do return b :: (← Script.mergeSorted comparator (a :: left) right) : Script (List Value))
        = ((merge (a :: left) right).bind fun rest => .settled (b :: rest)).follow
            (Script.elementOrder comparator) := by
      rw [follow_bind, ihright]
      rfl
    have hless : (do return a :: (← Script.mergeSorted comparator left (b :: right)) : Script (List Value))
        = ((merge left (b :: right)).bind fun rest => .settled (a :: rest)).follow
            (Script.elementOrder comparator) := by
      rw [follow_bind, ihleft]
      rfl
    rw [Script.mergeSorted, merge]
    refine congrArg (Script.elementOrder comparator a b >>= ·) (funext fun order => ?_)
    cases order with
    | gt => exact hgreater
    | lt => exact hless
    | eq => exact hless

theorem follow_sort (comparator : Option Value) (values : List Value) :
    Script.sortValues comparator values = (sort values).follow (Script.elementOrder comparator) := by
  induction values using sort.induct with
  | case1 => rw [Script.sortValues, sort]; rfl
  | case2 v => rw [Script.sortValues, sort]; rfl
  | case3 a b rest ihleft ihright =>
    rw [Script.sortValues, sort, follow_bind, ihleft, ihright]
    refine congrArg (_ >>= ·) (funext fun left => ?_)
    rw [follow_bind]
    exact congrArg (_ >>= ·) (funext fun right => follow_merge comparator left right)

/-! ## Paths -/

section Paths

variable {α β : Type} {answers : Value → Value → Bool → Prop} {left right values s : List Value} {a b : Value}

theorem reaches_bind {t : Decision α} {f : α → Decision β} {r : β} :
    Reaches answers (t.bind f) r ↔ ∃ u, Reaches answers t u ∧ Reaches answers (f u) r := by
  induction t with
  | settled u =>
    refine ⟨fun h => ⟨u, .settled, h⟩, ?_⟩
    rintro ⟨_, ⟨⟩, h⟩
    exact h
  | asks a b next ih =>
    constructor
    · rintro (_ | ⟨greater, hanswer, h⟩)
      obtain ⟨u, hu, hr⟩ := (ih greater).1 h
      exact ⟨u, .asks greater hanswer hu, hr⟩
    · rintro ⟨u, _ | ⟨greater, hanswer, hu⟩, hr⟩
      exact .asks greater hanswer ((ih greater).2 ⟨u, hu, hr⟩)

theorem reaches_settled {u r : α} : Reaches answers (.settled u) r ↔ r = u := by
  refine ⟨?_, fun h => h ▸ .settled⟩
  rintro ⟨⟩
  rfl

/-- Of two lists that are merged the greater head is left for later. -/
theorem reaches_merge_cons : Reaches answers (merge (a :: left) (b :: right)) s ↔
    (answers a b true ∧ ∃ rest, Reaches answers (merge (a :: left) right) rest ∧ s = b :: rest) ∨
    (answers a b false ∧ ∃ rest, Reaches answers (merge left (b :: right)) rest ∧ s = a :: rest) := by
  rw [merge]
  constructor
  · rintro (_ | ⟨greater, hanswer, h⟩)
    cases greater with
    | true =>
      obtain ⟨rest, hrest, hs⟩ := reaches_bind.1 h
      exact .inl ⟨hanswer, rest, hrest, reaches_settled.1 hs⟩
    | false =>
      obtain ⟨rest, hrest, hs⟩ := reaches_bind.1 h
      exact .inr ⟨hanswer, rest, hrest, reaches_settled.1 hs⟩
  · rintro (⟨hanswer, rest, hrest, hs⟩ | ⟨hanswer, rest, hrest, hs⟩)
    · exact .asks true hanswer (reaches_bind.2 ⟨rest, hrest, reaches_settled.2 hs⟩)
    · exact .asks false hanswer (reaches_bind.2 ⟨rest, hrest, reaches_settled.2 hs⟩)

/-- A merged list has the elements of both lists. -/
theorem merge_perm (h : Reaches answers (merge left right) s) : s.Perm (left ++ right) := by
  induction left, right using merge.induct generalizing s with
  | case1 right =>
    rw [merge, reaches_settled] at h
    rw [h]
    exact .refl _
  | case2 left =>
    rw [merge_nil, reaches_settled] at h
    rw [h, List.append_nil]
  | case3 a left b right ihright ihleft =>
    rcases reaches_merge_cons.1 h with ⟨-, rest, hrest, rfl⟩ | ⟨-, rest, hrest, rfl⟩
    · exact ((ihright hrest).cons b).trans List.perm_middle.symm
    · exact (ihleft hrest).cons a

/-- Merging keeps an order that the answers respect. -/
theorem merge_ordered {R : Value → Value → Prop} (htrans : ∀ x y z, R x y → R y z → R x z)
    (hgreater : ∀ x y, answers x y true → R y x) (hless : ∀ x y, answers x y false → R x y)
    (hleft : left.Pairwise R) (hright : right.Pairwise R) (h : Reaches answers (merge left right) s) :
    s.Pairwise R := by
  induction left, right using merge.induct generalizing s with
  | case1 right =>
    rw [merge, reaches_settled] at h
    rwa [h]
  | case2 left =>
    rw [merge_nil, reaches_settled] at h
    rwa [h]
  | case3 a left b right ihright ihleft =>
    rcases reaches_merge_cons.1 h with ⟨hanswer, rest, hrest, rfl⟩ | ⟨hanswer, rest, hrest, rfl⟩
    · refine .cons (fun x hx => ?_) (ihright hleft hright.of_cons hrest)
      rcases List.mem_append.1 ((merge_perm hrest).mem_iff.1 hx) with hx | hx
      · rcases List.mem_cons.1 hx with rfl | hx
        · exact hgreater x b hanswer
        · exact htrans b a x (hgreater a b hanswer) (List.rel_of_pairwise_cons hleft hx)
      · exact List.rel_of_pairwise_cons hright hx
    · refine .cons (fun x hx => ?_) (ihleft hleft.of_cons hright hrest)
      rcases List.mem_append.1 ((merge_perm hrest).mem_iff.1 hx) with hx | hx
      · exact List.rel_of_pairwise_cons hleft hx
      · rcases List.mem_cons.1 hx with rfl | hx
        · exact hless a x hanswer
        · exact htrans a b x (hless a b hanswer) (List.rel_of_pairwise_cons hright hx)

/-- Merging keeps the elements of a class in their order if none of them is said to be greater than another. -/
theorem merge_stable {R : Value → Value → Prop} {p : Value → Bool}
    (hclass : ∀ x y z, p x = true → p z = true → R x y → R y z → p y = true)
    (hequal : ∀ x y, p x = true → p y = true → ¬answers x y true) (htotal : ∀ x y, answers x y true → R y x)
    (hleft : left.Pairwise R) (h : Reaches answers (merge left right) s) :
    s.filter p = left.filter p ++ right.filter p := by
  induction left, right using merge.induct generalizing s with
  | case1 right =>
    rw [merge, reaches_settled] at h
    rw [h]
    rfl
  | case2 left =>
    rw [merge_nil, reaches_settled] at h
    rw [h, List.filter_nil, List.append_nil]
  | case3 a left b right ihright ihleft =>
    rcases reaches_merge_cons.1 h with ⟨hanswer, rest, hrest, rfl⟩ | ⟨-, rest, hrest, rfl⟩
    · rw [List.filter_cons, List.filter_cons (x := b), ihright hleft hrest]
      split
      · rename_i hb
        -- An element of the class in the left list would have the left head between itself and the right head.
        have hnone : (a :: left).filter p = [] := by
          refine List.filter_eq_nil_iff.2 fun x hx hpx => ?_
          rcases List.mem_cons.1 hx with rfl | hx
          · exact hequal x b hpx hb hanswer
          · exact hequal a b (hclass b a x hb hpx (htotal a b hanswer) (List.rel_of_pairwise_cons hleft hx)) hb
              hanswer
        rw [hnone, List.nil_append, List.nil_append]
      · rfl
    · rw [List.filter_cons, List.filter_cons (x := a), ihleft hleft.of_cons hrest]
      split
      · rfl
      · rfl

/-- A property of sorted lists that merging keeps holds of what sorting reaches. -/
theorem sort_induction {P : List Value → List Value → Prop} (hnil : P [] []) (hone : ∀ v, P [v] [v])
    (hmerge : ∀ values start left right s, P (values.take start) left → P (values.drop start) right →
      Reaches answers (merge left right) s → P values s)
    (h : Reaches answers (sort values) s) : P values s := by
  induction values using sort.induct generalizing s with
  | case1 =>
    rw [sort, reaches_settled] at h
    rwa [h]
  | case2 v =>
    rw [sort, reaches_settled] at h
    rw [h]
    exact hone v
  | case3 a b rest ihleft ihright =>
    rw [sort] at h
    obtain ⟨left, hleft, h⟩ := reaches_bind.1 h
    obtain ⟨right, hright, h⟩ := reaches_bind.1 h
    exact hmerge _ _ left right s (ihleft hleft) (ihright hright) h

/-- Sorting reaches permutations only. -/
theorem sort_perm (h : Reaches answers (sort values) s) : s.Perm values := by
  refine sort_induction (P := fun values s => s.Perm values) (.refl _) (fun v => .refl _) ?_ h
  intro values start left right s hleft hright h
  have hparts : (left ++ right).Perm (values.take start ++ values.drop start) := hleft.append hright
  rw [List.take_append_drop] at hparts
  exact (merge_perm h).trans hparts

/-- Sorting reaches lists in the order of the answers. -/
theorem sort_ordered {R : Value → Value → Prop} (htrans : ∀ x y z, R x y → R y z → R x z)
    (hgreater : ∀ x y, answers x y true → R y x) (hless : ∀ x y, answers x y false → R x y)
    (h : Reaches answers (sort values) s) : s.Pairwise R := by
  refine sort_induction (P := fun _ s => s.Pairwise R) .nil (List.pairwise_singleton R) ?_ h
  intro values start left right s hleft hright h
  exact merge_ordered htrans hgreater hless hleft hright h

/-- Sorting keeps the elements of a class in their order. -/
theorem sort_stable {R : Value → Value → Prop} {p : Value → Bool}
    (htrans : ∀ x y z, R x y → R y z → R x z)
    (hgreater : ∀ x y, answers x y true → R y x) (hless : ∀ x y, answers x y false → R x y)
    (hclass : ∀ x y z, p x = true → p z = true → R x y → R y z → p y = true)
    (hequal : ∀ x y, p x = true → p y = true → ¬answers x y true)
    (h : Reaches answers (sort values) s) : s.filter p = values.filter p := by
  refine (sort_induction (P := fun values s => s.Pairwise R ∧ s.filter p = values.filter p) ⟨.nil, rfl⟩
    (fun v => ⟨List.pairwise_singleton R v, rfl⟩) ?_ h).2
  rintro values start left right s ⟨hleft, hleftClass⟩ ⟨hright, hrightClass⟩ h
  refine ⟨merge_ordered htrans hgreater hless hleft hright h, ?_⟩
  rw [merge_stable hclass hequal hgreater hleft h, hleftClass, hrightClass, ← List.filter_append,
    List.take_append_drop]

end Paths

end Decision

end PageScript
