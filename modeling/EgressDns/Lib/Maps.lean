import Mathlib.Data.List.AList
import Mathlib.Data.List.Count
import Mathlib.Data.List.Perm.Basic

/-!
# Finite maps that are rewritten, thinned out and emptied

Association lists without duplicate keys, and properties that all of their values have. A table of
counters, where a missing counter reads as zero and zero counters may be dropped, and what it takes
for such a table to count the members of a changing list.
-/

namespace EgressDns.Lib

universe u v

abbrev Map (K : Type u) (V : Type v) := AList fun _ : K => V

namespace Map

variable {K : Type u} {V : Type v}

def mapValues (f : V → V) (m : Map K V) : Map K V where
  entries := m.entries.map fun e => ⟨e.1, f e.2⟩
  nodupKeys := by
    have hkeys : (m.entries.map fun e => (⟨e.1, f e.2⟩ : Sigma fun _ => V)).keys =
        m.entries.keys := by
      unfold List.keys
      rw [List.map_map]
      rfl
    unfold List.NodupKeys
    rw [hkeys]
    exact m.nodupKeys

def retain (keep : K → V → Bool) (m : Map K V) : Map K V where
  entries := m.entries.filter fun e => keep e.1 e.2
  nodupKeys := m.nodupKeys.sublist List.filter_sublist

theorem length_entries (m : Map K V) : m.entries.length = m.keys.length :=
  (List.length_map _).symm

theorem length_le_of_keys {m m' : Map K V} (h : ∀ k, k ∈ m → k ∈ m') :
    m.entries.length ≤ m'.entries.length := by
  rw [length_entries, length_entries]
  exact (List.subperm_of_subset m.keys_nodup h).length_le

variable {key k : K} {f : V → V} {keys : List K} {keep : K → V → Bool}

theorem length_lt_of_keys {m m' : Map K V} (h : ∀ k, k ∈ m → k ∈ m') (hin : key ∈ m')
    (hout : key ∉ m) : m.entries.length < m'.entries.length := by
  rw [length_entries, length_entries]
  have hnodup : (key :: m.keys).Nodup := List.nodup_cons.mpr ⟨hout, m.keys_nodup⟩
  have hsubset : (key :: m.keys) ⊆ m'.keys := by
    intro k hk
    rcases List.mem_cons.mp hk with rfl | hold
    · exact hin
    · exact h k hold
  exact (List.subperm_of_subset hnodup hsubset).length_le

theorem length_retain_le (keep : K → V → Bool) (m : Map K V) :
    (m.retain keep).entries.length ≤ m.entries.length :=
  List.length_filter_le _ _

theorem length_mapValues (f : V → V) (m : Map K V) :
    (m.mapValues f).entries.length = m.entries.length :=
  List.length_map _

variable [DecidableEq K]

def eraseAll (m : Map K V) (keys : List K) : Map K V := keys.foldl (fun m k => m.erase k) m

def Each (φ : V → Prop) (m : Map K V) : Prop := ∀ k v, m.lookup k = some v → φ v

variable {φ : V → Prop} {m : Map K V}

theorem lookup_eq_none (h : ∀ e ∈ m.entries, e.1 ≠ key) : m.lookup key = none := by
  rw [AList.lookup_eq_none]
  intro hmem
  obtain ⟨e, he, hkey⟩ := List.mem_map.mp (AList.mem_keys.mp hmem)
  exact h e he hkey

theorem each_empty : Each φ (∅ : Map K V) := by
  intro k v hv
  cases hv

theorem each_insert (h : Each φ m) {value : V} (hv : φ value) : Each φ (m.insert key value) := by
  intro k v hs
  by_cases hk : k = key
  · rw [hk, AList.lookup_insert] at hs
    cases hs
    exact hv
  · rw [AList.lookup_insert_ne hk] at hs
    exact h k v hs

theorem each_erase (h : Each φ m) (key : K) : Each φ (m.erase key) := by
  intro k v hs
  by_cases hk : k = key
  · rw [hk, AList.lookup_erase] at hs
    cases hs
  · rw [AList.lookup_erase_ne hk] at hs
    exact h k v hs

theorem each_eraseAll (h : Each φ m) (keys : List K) : Each φ (m.eraseAll keys) := by
  induction keys generalizing m with
  | nil => exact h
  | cons key rest ih => exact ih (each_erase h key)

theorem each_mapValues (h : ∀ v, φ (f v)) : Each φ (m.mapValues f) := by
  intro k v hs
  obtain ⟨e, _, he⟩ := List.mem_map.mp (AList.mem_lookup_iff.mp hs)
  cases he
  exact h e.2

theorem mem_eraseAll : k ∈ m.eraseAll keys ↔ k ∈ m ∧ k ∉ keys := by
  induction keys generalizing m with
  | nil => simp [eraseAll]
  | cons key rest ih =>
    change k ∈ eraseAll (m.erase key) rest ↔ _
    rw [ih, AList.mem_erase, List.mem_cons, not_or]
    constructor
    · rintro ⟨⟨hne, hmem⟩, hrest⟩
      exact ⟨hmem, hne, hrest⟩
    · rintro ⟨hmem, hne, hrest⟩
      exact ⟨⟨hne, hmem⟩, hrest⟩

theorem lookup_of_eraseAll {v : V} (h : (m.eraseAll keys).lookup k = some v) :
    m.lookup k = some v := by
  induction keys generalizing m with
  | nil => exact h
  | cons key rest ih =>
    have hrest : (m.erase key).lookup k = some v := ih h
    by_cases hk : k = key
    · rw [hk, AList.lookup_erase] at hrest
      cases hrest
    · rwa [AList.lookup_erase_ne hk] at hrest

theorem lookup_mapValues (f : V → V) (m : Map K V) (k : K) :
    (m.mapValues f).lookup k = (m.lookup k).map f := by
  apply Option.ext
  intro v
  rw [Option.map_eq_some_iff]
  constructor
  · intro h
    obtain ⟨e, he, heq⟩ := List.mem_map.mp (AList.mem_lookup_iff.mp h)
    cases heq
    exact ⟨e.2, AList.mem_lookup_iff.mpr he, rfl⟩
  · rintro ⟨w, hw, rfl⟩
    apply AList.mem_lookup_iff.mpr
    exact List.mem_map.mpr ⟨⟨k, w⟩, AList.mem_lookup_iff.mp hw, rfl⟩

theorem mem_mapValues : k ∈ m.mapValues f ↔ k ∈ m := by
  rw [← AList.lookup_isSome, lookup_mapValues, Option.isSome_map, AList.lookup_isSome]

theorem length_insert_le (m : Map K V) (k : K) (v : V) :
    (m.insert k v).entries.length ≤ m.entries.length + 1 := by
  rw [AList.entries_insert, List.length_cons]
  exact Nat.succ_le_succ (List.kerase_sublist k m.entries).length_le

theorem length_insert_of_mem (h : k ∈ m) (v : V) :
    (m.insert k v).entries.length = m.entries.length := by
  apply Nat.le_antisymm
  · apply length_le_of_keys
    intro j hj
    rcases (AList.mem_insert _).mp hj with rfl | hj
    · exact h
    · exact hj
  · apply length_le_of_keys
    intro j hj
    exact (AList.mem_insert _).mpr (.inr hj)

theorem length_erase_lt (h : k ∈ m) : (m.erase k).entries.length < m.entries.length := by
  have hout : k ∉ m.erase k := fun hmem => (AList.mem_erase.mp hmem).1 rfl
  exact length_lt_of_keys (fun _ hj => (AList.mem_erase.mp hj).2) h hout

theorem lookup_retain (keep : K → V → Bool) (m : Map K V) (k : K) :
    (m.retain keep).lookup k = (m.lookup k).filter (keep k) := by
  apply Option.ext
  intro v
  rw [Option.filter_eq_some_iff]
  constructor
  · intro h
    obtain ⟨hmem, hkeep⟩ := List.mem_filter.mp (AList.mem_lookup_iff.mp h)
    exact ⟨AList.mem_lookup_iff.mpr hmem, hkeep⟩
  · rintro ⟨hlookup, hkeep⟩
    apply AList.mem_lookup_iff.mpr
    exact List.mem_filter.mpr ⟨AList.mem_lookup_iff.mp hlookup, hkeep⟩

theorem mem_retain {v : V} (h : m.lookup k = some v) : k ∈ m.retain keep ↔ keep k v = true := by
  rw [← AList.lookup_isSome, lookup_retain, h, Option.isSome_filter]
  rfl

theorem mem_of_mem_retain (h : k ∈ m.retain keep) : k ∈ m := by
  rw [← AList.lookup_isSome, lookup_retain] at h
  exact AList.lookup_isSome.mp (Option.isSome_of_isSome_filter _ _ h)

theorem countP_key_le_one (m : Map K V) (key : K) :
    m.entries.countP (fun e => e.1 = key) ≤ 1 := by
  have hcount : m.keys.count key ≤ 1 := List.nodup_iff_count_le_one.mp m.keys_nodup key
  rw [AList.keys, List.keys, List.count, List.countP_map] at hcount
  apply le_trans (le_of_eq _) hcount
  apply List.countP_congr
  intro e _
  simp

theorem each_retain (h : Each φ m) (keep : K → V → Bool) : Each φ (m.retain keep) := by
  intro k v hs
  have hmem := List.mem_of_mem_filter (AList.mem_lookup_iff.mp hs)
  exact h k v (AList.mem_lookup_iff.mpr hmem)

end Map

def exchange {A : Type u} [DecidableEq A] (as : List A) (a b : A) : List A := b :: as.erase a

section Exchange

variable {A : Type u} [DecidableEq A] {as : List A} {a : A}

theorem length_exchange (h : a ∈ as) (b : A) : (exchange as a b).length = as.length := by
  have hpos : 0 < as.length := List.length_pos_of_mem h
  simp only [exchange, List.length_cons, List.length_erase_of_mem h]
  omega

end Exchange

abbrev Tally (K : Type u) := AList (fun _ : K => Nat)

namespace Tally

variable {K : Type u} [DecidableEq K] (t : Tally K)

def count (k : K) : Nat := (t.lookup k).getD 0

def raise (k : K) : Tally K := t.insert k (t.count k + 1)

def lower (k : K) : Tally K := t.insert k (t.count k - 1)

def retain : Tally K where
  entries := t.entries.filter fun e => 0 < e.2
  nodupKeys := t.nodupKeys.sublist List.filter_sublist

theorem count_insert (k j : K) (n : Nat) :
    count (t.insert k n) j = if j = k then n else t.count j := by
  unfold count
  split
  · rename_i h
    rw [h, AList.lookup_insert, Option.getD_some]
  · rename_i h
    rw [AList.lookup_insert_ne h]

theorem count_retain (k : K) : t.retain.count k = t.count k := by
  have hmem (n : Nat) : t.retain.lookup k = some n ↔ 0 < n ∧ t.lookup k = some n := by
    rw [← Option.mem_def, ← Option.mem_def, AList.mem_lookup_iff, AList.mem_lookup_iff]
    simp [retain, and_comm]
  unfold count
  cases hr : t.retain.lookup k with
  | some n =>
    rw [((hmem n).mp hr).2]
  | none =>
    cases ht : t.lookup k with
    | none => rfl
    | some n =>
      have hzero : ¬0 < n := by
        intro hpos
        rw [(hmem n).mpr ⟨hpos, ht⟩] at hr
        cases hr
      simp only [Option.getD_none, Option.getD_some]
      omega

section Counts

variable {A : Type v} (key : A → Option K)

/-- Every counter is the number of members with its key. -/
def Counts (as : List A) : Prop := ∀ k, t.count k = as.countP fun a => key a = some k

variable {t key} {as : List A}

theorem Counts.cons (h : t.Counts key as) {a : A} {k : K} (ha : key a = some k) :
    (t.raise k).Counts key (a :: as) := by
  intro j
  rw [raise, count_insert, List.countP_cons, ha]
  by_cases hj : j = k
  · simp [hj, h k]
  · simp [hj, Ne.symm hj, h j]

theorem Counts.perm (h : t.Counts key as) {bs : List A} (hp : as.Perm bs) : t.Counts key bs := by
  intro k
  rw [h k, hp.countP_eq]

theorem Counts.tail {a : A} (h : t.Counts key (a :: as)) (hkey : key a = none) :
    t.Counts key as := by
  intro j
  simpa [List.countP_cons, hkey] using h j

theorem Counts.swapHead {a b : A} (h : t.Counts key (a :: as)) (hkey : key b = key a) :
    t.Counts key (b :: as) := by
  intro j
  rw [h j, List.countP_cons, List.countP_cons, hkey]

theorem Counts.uncountHead {a b : A} {k : K} (h : t.Counts key (a :: as)) (hkey : key a = some k)
    (hb : key b = none) : (t.lower k).Counts key (b :: as) := by
  intro j
  have hj := h j
  rw [List.countP_cons, hkey] at hj
  rw [lower, count_insert, h k, List.countP_cons, List.countP_cons, hb, hkey]
  by_cases hjk : j = k
  · simp [hjk]
  · simpa [hjk, Ne.symm hjk] using hj

end Counts

end Tally

end EgressDns.Lib
