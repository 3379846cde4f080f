import Mathlib.Order.MinMax
import Mathlib.Data.List.Pairwise
import Mathlib.Data.List.Perm.Basic
import Mathlib.Data.List.Sort

/-!
# Folds and in-place rearrangement of lists

`gather` reads a list at given positions and `scatter` writes records back there. Writing back a
permutation of what was read at distinct positions permutes the list. In a sorted list the member
at a position is known by how many members lie below.
-/

namespace EgressDns.Lib

universe u

theorem foldl_min_le_iff {A : Type u} [LinearOrder A] (as : List A) (start bound : A) :
    as.foldl min start ≤ bound ↔ start ≤ bound ∨ ∃ a ∈ as, a ≤ bound := by
  induction as generalizing start with
  | nil => simp
  | cons a as ih =>
    rw [List.foldl_cons, ih, min_le_iff]
    simp only [List.mem_cons, exists_eq_or_imp, or_assoc]

theorem eq_of_mem_zip_self {A : Type u} {as : List A} {p : A × A} (h : p ∈ as.zip as) :
    p.1 = p.2 := by
  induction as with
  | nil => cases h
  | cons a as ih =>
    rcases List.mem_cons.mp h with rfl | h
    · rfl
    · exact ih h

section Rearrange

variable {A : Type u}

def gather (as : List A) (is : List Nat) : List A := is.filterMap fun i => as[i]?

def scatter : List A → List Nat → List A → List A
  | as, [], _ => as
  | as, _ :: _, [] => as
  | as, i :: is, b :: bs => scatter (as.set i b) is bs

variable {as bs : List A} {is : List Nat} {i : Nat}

theorem gather_cons (h : i < as.length) : gather as (i :: is) = as[i] :: gather as is := by
  simp [gather, h]

theorem length_gather (h : ∀ i ∈ is, i < as.length) : (gather as is).length = is.length := by
  induction is with
  | nil => rfl
  | cons i is ih =>
    rw [gather_cons (h i List.mem_cons_self)]
    simp [ih fun j hj => h j (List.mem_cons_of_mem i hj)]

theorem gather_set_of_notMem (b : A) (h : i ∉ is) : gather (as.set i b) is = gather as is := by
  refine List.filterMap_congr fun j hj => ?_
  have hne : i ≠ j := fun he => h (he ▸ hj)
  rw [List.getElem?_set_ne hne]

theorem set_perm (h : i < as.length) (b : A) : (as[i] :: as.set i b).Perm (b :: as) := by
  have hset := List.getElem_cons_eraseIdx_perm (l := as.set i b) (by simpa using h)
  have has := List.getElem_cons_eraseIdx_perm h
  rw [List.eraseIdx_set_eq, List.getElem_set_self] at hset
  have hout := hset.symm.cons as[i]
  exact hout.trans ((List.Perm.swap _ _ _).trans (has.cons b))

theorem scatter_append_gather_perm (hn : is.Nodup) (hr : ∀ i ∈ is, i < as.length)
    (hl : bs.length = is.length) : (scatter as is bs ++ gather as is).Perm (as ++ bs) := by
  induction is generalizing as bs with
  | nil =>
    rw [List.eq_nil_of_length_eq_zero hl]
    exact List.Perm.refl _
  | cons i is ih =>
    cases bs with
    | nil => cases hl
    | cons b bs =>
      have hi := hr i List.mem_cons_self
      have hnot : i ∉ is := (List.nodup_cons.mp hn).1
      have hr' : ∀ j ∈ is, j < (as.set i b).length := fun j hj => by
        simpa using hr j (List.mem_cons_of_mem i hj)
      have hrec := ih (List.nodup_cons.mp hn).2 hr' (Nat.succ.inj hl)
      rw [gather_set_of_notMem b hnot] at hrec
      rw [scatter, gather_cons hi]
      have hswap : (as[i] :: (as.set i b ++ bs)).Perm (as ++ b :: bs) := by
        have hset := (set_perm hi b).append_right bs
        exact hset.trans (List.perm_middle.symm)
      exact List.perm_middle.trans ((hrec.cons as[i]).trans hswap)

theorem scatter_perm (hn : is.Nodup) (hr : ∀ i ∈ is, i < as.length) (hb : bs.Perm (gather as is)) :
    (scatter as is bs).Perm as := by
  have hl : bs.length = is.length := hb.length_eq.trans (length_gather hr)
  have hall := scatter_append_gather_perm hn hr hl
  have hswap := hall.trans (hb.append_left as)
  exact (List.perm_append_right_iff _).mp hswap

theorem getElem?_scatter_of_notMem (h : i ∉ is) : (scatter as is bs)[i]? = as[i]? := by
  induction is generalizing as bs with
  | nil => rw [scatter]
  | cons j is ih =>
    cases bs with
    | nil => rfl
    | cons b bs =>
      have hne : j ≠ i := fun he => h (he ▸ List.mem_cons_self)
      rw [scatter, ih fun hm => h (List.mem_cons_of_mem j hm), List.getElem?_set_ne hne]

theorem gather_scatter (hn : is.Nodup) (hr : ∀ i ∈ is, i < as.length) (hl : bs.length = is.length) :
    gather (scatter as is bs) is = bs := by
  induction is generalizing as bs with
  | nil =>
    rw [List.eq_nil_of_length_eq_zero hl]
    rfl
  | cons i is ih =>
    cases bs with
    | nil => cases hl
    | cons b bs =>
      have hi := hr i List.mem_cons_self
      have hr' : ∀ j ∈ is, j < (as.set i b).length := fun j hj => by
        simpa using hr j (List.mem_cons_of_mem i hj)
      have hkeep : (scatter (as.set i b) is bs)[i]? = some b := by
        rw [getElem?_scatter_of_notMem (List.nodup_cons.mp hn).1]
        simp [hi]
      have hrec := ih (List.nodup_cons.mp hn).2 hr' (Nat.succ.inj hl)
      unfold gather at hrec ⊢
      rw [scatter, List.filterMap_cons, hkeep, hrec]

theorem length_scatter (as : List A) (is : List Nat) (bs : List A) :
    (scatter as is bs).length = as.length := by
  induction is generalizing as bs with
  | nil => rw [scatter]
  | cons i is ih =>
    cases bs with
    | nil => rfl
    | cons b bs => rw [scatter, ih, List.length_set]

theorem gather_scatter_of_disjoint {js : List Nat} (h : List.Disjoint js is) :
    gather (scatter as is bs) js = gather as js := by
  refine List.filterMap_congr fun j hj => ?_
  exact getElem?_scatter_of_notMem fun hm => h hj hm

theorem gather_map {B : Type u} (f : A → B) (as : List A) (is : List Nat) :
    gather (as.map f) is = (gather as is).map f := by
  unfold gather
  rw [List.map_filterMap]
  exact List.filterMap_congr fun i _ => List.getElem?_map

structure RearrangedWithin (blocks : List (List Nat)) (as bs : List A) : Prop where
  length : bs.length = as.length
  inside : ∀ is ∈ blocks, (gather bs is).Perm (gather as is)
  outside : ∀ i, (∀ is ∈ blocks, i ∉ is) → bs[i]? = as[i]?

namespace RearrangedWithin

variable {blocks : List (List Nat)} {as bs cs : List A}

theorem refl (blocks : List (List Nat)) (as : List A) : RearrangedWithin blocks as as where
  length := rfl
  inside _ _ := List.Perm.refl _
  outside _ _ := rfl

theorem trans (h : RearrangedWithin blocks as bs) (h' : RearrangedWithin blocks bs cs) :
    RearrangedWithin blocks as cs where
  length := h'.length.trans h.length
  inside is hm := (h'.inside is hm).trans (h.inside is hm)
  outside i hi := (h'.outside i hi).trans (h.outside i hi)

theorem scatter {is : List Nat} (hd : blocks.Pairwise List.Disjoint) (hm : is ∈ blocks)
    (hn : is.Nodup) (hr : ∀ i ∈ is, i < as.length) (hb : bs.Perm (gather as is)) :
    RearrangedWithin blocks as (scatter as is bs) where
  length := length_scatter as is bs
  inside js hj := by
    by_cases he : js = is
    · rw [he, gather_scatter hn hr (hb.length_eq.trans (length_gather hr))]
      exact hb
    · have : Std.Symm (List.Disjoint (α := Nat)) := ⟨fun _ _ h => List.disjoint_symm h⟩
      have hdis : List.Disjoint js is := hd.forall hj hm he
      rw [gather_scatter_of_disjoint hdis]
  outside i hi := getElem?_scatter_of_notMem (hi is hm)

end RearrangedWithin

end Rearrange

section Ahead

variable {A : Type u} {as : List A} {r : A → A → Prop}

theorem pair_sublist_or {a b : A} (ha : a ∈ as) (hb : b ∈ as) (hne : a ≠ b) :
    [a, b].Sublist as ∨ [b, a].Sublist as := by
  induction as with
  | nil => cases ha
  | cons c as ih =>
    rcases List.mem_cons.mp ha with rfl | hat
    · rcases List.mem_cons.mp hb with rfl | hbt
      · exact absurd rfl hne
      · exact .inl ((List.singleton_sublist.mpr hbt).cons_cons a)
    · rcases List.mem_cons.mp hb with rfl | hbt
      · exact .inr ((List.singleton_sublist.mpr hat).cons_cons b)
      · exact (ih hat hbt).imp (List.Sublist.cons c) (List.Sublist.cons c)

theorem pair_sublist_iff (hasymm : ∀ a b, r a b → ¬ r b a) (hs : as.Pairwise r) {a b : A}
    (ha : a ∈ as) (hb : b ∈ as) (hne : a ≠ b) : [a, b].Sublist as ↔ r a b := by
  constructor
  · intro h
    exact List.pairwise_pair.mp (hs.sublist h)
  · intro h
    rcases pair_sublist_or ha hb hne with hab | hba
    · exact hab
    · exact absurd (List.pairwise_pair.mp (hs.sublist hba)) (hasymm a b h)

theorem eq_cons_of_least (hasymm : ∀ a b, r a b → ¬ r b a) (hs : as.Pairwise r) {a : A}
    (ha : a ∈ as) (hleast : ∀ b ∈ as, b ≠ a → r a b) : ∃ rest, as = a :: rest := by
  cases as with
  | nil => cases ha
  | cons b rest =>
    rcases List.mem_cons.mp ha with rfl | hrest
    · exact ⟨rest, rfl⟩
    · have hba := (List.pairwise_cons.mp hs).1 a hrest
      by_cases heq : b = a
      · exact ⟨rest, by rw [heq]⟩
      · exact absurd hba (hasymm a b (hleast b List.mem_cons_self heq))

end Ahead

section Stable

variable {A : Type u} {B : Type*} [LinearOrder B] {key : A → B} {idx : A → Nat}

theorem filter_eq_of_sorted {as sorted : List A} (hperm : sorted.Perm as)
    (hidx : as.Pairwise fun a b => idx a < idx b)
    (hsorted : sorted.Pairwise fun a b => key a < key b ∨ key a = key b ∧ idx a ≤ idx b) (k : B) :
    sorted.filter (fun a => decide (key a = k)) = as.filter fun a => decide (key a = k) := by
  have hinj : ∀ a ∈ as, ∀ b ∈ as, idx a = idx b → a = b := by
    have hnodup : (as.map idx).Nodup := (List.pairwise_map.mpr hidx).imp Nat.ne_of_lt
    intro a ha b hb
    exact List.inj_on_of_nodup_map hnodup ha hb
  have hin : (sorted.filter fun a => decide (key a = k)).Pairwise fun a b => idx a ≤ idx b := by
    apply List.pairwise_filter.mpr
    apply hsorted.imp
    intro a b hab ha hb
    have hsame : key a = key b := (of_decide_eq_true ha).trans (of_decide_eq_true hb).symm
    rcases hab with hlt | ⟨-, hle⟩
    · exact absurd hsame hlt.ne
    · exact hle
  have hout : (as.filter fun a => decide (key a = k)).Pairwise fun a b => idx a ≤ idx b :=
    (hidx.imp Nat.le_of_lt).filter _
  refine List.Perm.eq_of_pairwise ?_ hin hout (hperm.filter _)
  intro a b ha hb hab hba
  have hmem := hperm.mem_iff.mp (List.mem_of_mem_filter ha)
  exact hinj a hmem b (List.mem_of_mem_filter hb) (Nat.le_antisymm hab hba)

end Stable

theorem mem_take_iff_of_nodup {A : Type*} {as : List A} (hn : as.Nodup) {i : Nat} {a : A}
    (h : as[i]? = some a) (d : Nat) : a ∈ as.take d ↔ i < d := by
  constructor
  · intro hmem
    obtain ⟨j, hj⟩ := List.mem_iff_getElem?.mp hmem
    rw [List.getElem?_take] at hj
    split at hj
    · rename_i hlt
      obtain ⟨hi, -⟩ := List.getElem?_eq_some_iff.mp h
      have hij : i = j := (List.getElem?_inj hi hn).mp (h.trans hj.symm)
      exact hij ▸ hlt
    · cases hj
  · intro hlt
    apply List.mem_of_getElem? (i := i)
    rw [List.getElem?_take, if_pos hlt]
    exact h

theorem countP_or_le {A : Type*} (p q : A → Bool) (as : List A) :
    as.countP (fun a => p a || q a) ≤ as.countP p + as.countP q := by
  induction as with
  | nil => exact Nat.zero_le _
  | cons a as ih =>
    simp only [List.countP_cons]
    cases p a <;> cases q a <;> simp <;> omega

section OrderStatistic

variable {A : Type u} [LinearOrder A] {p : A → Bool} {as : List A}

theorem countP_eq_zero_of_le {a : A} (hdown : ∀ a b, a ≤ b → p b = true → p a = true)
    (hle : ∀ b ∈ as, a ≤ b) (ha : p a = false) : as.countP p = 0 := by
  apply List.countP_eq_zero.mpr
  intro b hb hp
  rw [hdown a b (hle b hb) hp] at ha
  cases ha

/-- In a sorted list the member at position `k` is outside a lower set just when at most `k`
members are inside. -/
theorem countP_le_iff_getElem? (hdown : ∀ a b, a ≤ b → p b = true → p a = true)
    (hs : as.Pairwise (· ≤ ·)) {k : Nat} {m : A} (hk : as[k]? = some m) :
    as.countP p ≤ k ↔ p m = false := by
  induction as generalizing k with
  | nil => cases hk
  | cons a as ih =>
    obtain ⟨hle, hs⟩ := List.pairwise_cons.mp hs
    cases hp : p a with
    | false =>
      have hzero := countP_eq_zero_of_le hdown hle hp
      have hm : a ≤ m := by
        rcases List.mem_cons.mp (List.mem_of_getElem? hk) with rfl | hm
        · exact le_rfl
        · exact hle m hm
      have hpm : p m = false := by
        by_contra hne
        rw [hdown a m hm (Bool.not_eq_false _ ▸ hne)] at hp
        cases hp
      simp [hzero, hp, hpm]
    | true =>
      cases k with
      | zero =>
        obtain rfl : a = m := by simpa using hk
        simp [hp]
      | succ k =>
        have ih := ih hs (k := k) (by simpa using hk)
        rw [List.countP_cons, if_pos hp, ← ih]
        omega

theorem countP_insertionSort_le_iff (hdown : ∀ a b, a ≤ b → p b = true → p a = true) {k : Nat}
    {m : A} (hk : (as.insertionSort (· ≤ ·))[k]? = some m) : as.countP p ≤ k ↔ p m = false := by
  rw [← (List.perm_insertionSort (· ≤ ·) as).countP_eq p]
  exact countP_le_iff_getElem? hdown (List.pairwise_insertionSort (· ≤ ·) as) hk

end OrderStatistic

theorem least_of_find?_insertionSort {A : Type*} {r : A → A → Prop} [DecidableRel r] [Std.Total r]
    [IsTrans A r] {p : A → Bool} {as : List A} {a : A}
    (h : (as.insertionSort r).find? p = some a) :
    a ∈ as ∧ p a = true ∧ ∀ b ∈ as, p b = true → r a b := by
  obtain ⟨hp, front, back, heq, hfront⟩ := List.find?_eq_some_iff_append.mp h
  have hmem : ∀ b, b ∈ as ↔ b ∈ front ++ a :: back := by
    intro b
    rw [← heq, List.mem_insertionSort]
  have hsorted := List.pairwise_insertionSort r as
  rw [heq] at hsorted
  refine ⟨(hmem a).mpr (List.mem_append_right _ List.mem_cons_self), hp, ?_⟩
  intro b hb hpb
  rcases List.mem_append.mp ((hmem b).mp hb) with hearlier | hlater
  · have hnot := hfront b hearlier
    rw [hpb] at hnot
    cases hnot
  · rcases List.mem_cons.mp hlater with rfl | hback
    · exact (Std.Total.total b b).elim id id
    · exact (List.pairwise_cons.mp (List.pairwise_append.mp hsorted).2.1).1 b hback

section FirstLongest

variable {A B : Type*}

/-- Of the members that pass the test, one with the largest key, the first of those. -/
def firstLongest (key : A → Nat) (p : A → Bool) : List A → Option A
  | [] => none
  | a :: as =>
    match firstLongest key p as with
    | none => if p a then some a else none
    | some b => if p a ∧ key b ≤ key a then some a else some b

variable {key : A → Nat} {p : A → Bool} {as : List A}

theorem mem_of_firstLongest {a : A} (h : firstLongest key p as = some a) : a ∈ as ∧ p a = true := by
  induction as with
  | nil => cases h
  | cons b as ih =>
    unfold firstLongest at h
    split at h
    · split at h
      · cases h
        exact ⟨List.mem_cons_self, ‹_›⟩
      · cases h
    · split at h
      · cases h
        exact ⟨List.mem_cons_self, ‹_ ∧ _›.1⟩
      · cases h
        obtain ⟨hmem, hp⟩ := ih ‹_›
        exact ⟨List.mem_cons_of_mem b hmem, hp⟩

theorem find?_orderedInsert (hs : as.Pairwise fun a b => key b ≤ key a) (a : A) :
    (as.orderedInsert (fun a b => key b ≤ key a) a).find? p =
      match as.find? p with
      | none => if p a then some a else none
      | some b => if p a ∧ key b ≤ key a then some a else some b := by
  induction as with
  | nil => cases hp : p a <;> simp [hp]
  | cons b as ih =>
    obtain ⟨hle, hs⟩ := List.pairwise_cons.mp hs
    rw [List.orderedInsert_cons]
    by_cases hba : key b ≤ key a
    · rw [if_pos hba]
      cases hfind : (b :: as).find? p with
      | none => cases hp : p a <;> simp [hp, hfind]
      | some c =>
        have hca : key c ≤ key a := by
          rcases List.mem_cons.mp (List.mem_of_find?_eq_some hfind) with rfl | hc
          · exact hba
          · exact (hle c hc).trans hba
        rw [List.find?_cons, hfind]
        cases p a <;> simp [hca]
    · rw [if_neg hba, List.find?_cons, List.find?_cons]
      cases hpb : p b with
      | true => simp [hba]
      | false => exact ih hs

theorem find?_insertionSort (key : A → Nat) (p : A → Bool) (as : List A) :
    (as.insertionSort fun a b => key b ≤ key a).find? p = firstLongest key p as := by
  have : Std.Total fun a b : A => key b ≤ key a := ⟨fun a b => Nat.le_total (key b) (key a)⟩
  have : IsTrans A fun a b => key b ≤ key a := ⟨fun _ _ _ hab hbc => hbc.trans hab⟩
  induction as with
  | nil => rfl
  | cons a as ih =>
    rw [List.insertionSort_cons, find?_orderedInsert (List.pairwise_insertionSort _ _), ih]
    rfl

theorem firstLongest_rel {R : A → B → Prop} {key' : B → Nat} {p' : B → Bool}
    (hR : ∀ a b, R a b → key a = key' b ∧ p a = p' b) {bs : List B} (h : List.Forall₂ R as bs) :
    Option.Rel R (firstLongest key p as) (firstLongest key' p' bs) := by
  induction h with
  | nil => exact .none
  | @cons a b as bs hab _ ih =>
    obtain ⟨hkey, hp⟩ := hR a b hab
    unfold firstLongest
    generalize firstLongest key p as = found at ih
    generalize firstLongest key' p' bs = found' at ih
    cases ih with
    | none =>
      dsimp only
      rw [hp]
      split
      · exact .some hab
      · exact .none
    | @some c d hcd =>
      dsimp only
      rw [hp, hkey, (hR c d hcd).1]
      split
      · exact .some hab
      · exact .some hcd

end FirstLongest

theorem perm_map_of_determined {A B C : Type*} [Nonempty C] {f : A → B} {g : A → C}
    (h : ∀ x y, f x = f y → g x = g y) {xs ys : List A} (hp : (xs.map f).Perm (ys.map f)) :
    (xs.map g).Perm (ys.map g) := by
  obtain ⟨c⟩ := ‹Nonempty C›
  have hg : Function.extend f g (fun _ => c) ∘ f = g :=
    Function.FactorsThrough.extend_comp _ fun x y he => h x y he
  have hmap := hp.map (Function.extend f g fun _ => c)
  rwa [List.map_map, List.map_map, hg] at hmap

end EgressDns.Lib
