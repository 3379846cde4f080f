import Mathlib.Data.Prod.Lex
import EgressDns.Cache.Store
import EgressDns.Lib.Maps

/-!
# The set of hot names

`HotSet::observe`: popularity decays, the observed key is counted, the map is trimmed back under
its ceiling and the transition table notes what was asked after what.

Scores belong to any linear order, which stands for `f32` under `total_cmp`; what it is to count one
more and what a decay does to a score are parameters.
-/

namespace EgressDns

open Lib

universe u

structure HotEntry (S : Type u) where
  score : S
  hits : Nat
  lastSeen : Nat
  lastPrefetch : Option Nat

/-- What a decay does to a score: it keeps the order, and what it drops is not above what it
leaves. -/
structure Decay (S : Type u) [LinearOrder S] where
  scale : S → S
  keep : S → Bool
  monotone : Monotone scale
  upward : ∀ a b, a ≤ b → keep a = true → keep b = true

/-- The order of the entries is that in which the `HashMap`s are iterated. -/
structure HotSet (S : Type u) where
  map : Map CacheKey (HotEntry S)
  transitions : Map CacheKey (Map CacheKey S)
  transitionCapacity : Nat
  capacity : Nat
  capacity_pos : 0 < capacity

/-- One call of `observe`, with the decay that its time brings about. -/
structure HotCall (S : Type u) [LinearOrder S] where
  key : CacheKey
  previous : Option CacheKey
  now : Nat
  decay : Decay S

section Model

variable {S : Type u}

def HotEntry.rank (e : HotEntry S) : S ×ₗ Nat := toLex (e.score, e.lastSeen)

namespace HotSet

def new (capacity transitionCapacity : Nat) : HotSet S where
  map := ∅
  transitions := ∅
  transitionCapacity
  capacity := max capacity 1
  capacity_pos := lt_of_lt_of_le Nat.one_pos (le_max_right _ _)

variable [LinearOrder S] (h : HotSet S)

def decayLocked (d : Decay S) : HotSet S :=
  { h with
    map := (h.map.mapValues fun e => { e with score := d.scale e.score }).retain
      fun _ e => d.keep e.score
    transitions := (h.transitions.mapValues fun row =>
      (row.mapValues d.scale).retain fun _ w => d.keep w).retain fun _ row => !row.entries.isEmpty }

def ranks : List (S ×ₗ Nat) := h.map.entries.map fun e => e.2.rank

def overflow : Nat := h.map.entries.length - h.capacity

def batch : Nat :=
  max (min (h.overflow + h.capacity / 10 + 1) (h.map.entries.length - 1)) 1

/-- What `select_nth_unstable_by` leaves at the position of the batch. -/
def threshold? : Option (S ×ₗ Nat) :=
  (h.ranks.insertionSort (· ≤ ·))[min h.batch (h.ranks.length - 1)]?

def evictLocked (protect : CacheKey) : HotSet S :=
  if h.overflow = 0 ∨ h.map.entries.length < 2 then h
  else
    match h.threshold? with
    | none => h
    | some threshold =>
      let map := h.map.retain fun k e => k = protect || threshold < e.rank
      -- The second pass, for what ties are taken to leave behind.
      let stillOver := map.entries.length - h.capacity
      let victims := (map.keys.filter fun k => k ≠ protect).take stillOver
      { h with map := map.eraseAll victims }

variable (zero : S) (bump : S → S)

def count (h : HotSet S) (key : CacheKey) (now : Nat) : HotSet S :=
  let e := (h.map.lookup key).getD ⟨zero, 0, now, none⟩
  let e := { e with score := bump e.score, hits := e.hits + 1, lastSeen := now }
  { h with map := h.map.insert key e }

def strongest (row : Map CacheKey S) : Map CacheKey S where
  entries := (row.entries.insertionSort fun a b => b.2 ≤ a.2).take 8
  nodupKeys := by
    have hsorted := (List.perm_nodupKeys
      (List.perm_insertionSort (fun a b => b.2 ≤ a.2) row.entries)).mpr row.nodupKeys
    exact hsorted.sublist (List.take_sublist _ _)

def successorRow (h : HotSet S) (prev key : CacheKey) : Map CacheKey S :=
  let row := (h.transitions.lookup prev).getD ∅
  let row := row.insert key (bump ((row.lookup key).getD zero))
  if 8 < row.entries.length then strongest row else row

def noteSuccessor (h : HotSet S) (prev key : CacheKey) : HotSet S :=
  let transitions := h.transitions.insert prev (successorRow zero bump h prev key)
  { h with transitions :=
      if h.transitionCapacity < transitions.entries.length then
        match transitions.keys.head? with
        | some victim => transitions.erase victim
        | none => transitions
      else transitions }

def trimmed (h : HotSet S) (call : HotCall S) : HotSet S :=
  let h := count zero bump (h.decayLocked call.decay) call.key call.now
  if h.capacity < h.map.entries.length then h.evictLocked call.key else h

def observe (h : HotSet S) (call : HotCall S) : HotSet S :=
  let h := trimmed zero bump h call
  if 0 < h.transitionCapacity then
    match call.previous with
    | some prev => if prev ≠ call.key then noteSuccessor zero bump h prev call.key else h
    | none => h
  else h

def observeAll (h : HotSet S) (calls : List (HotCall S)) : HotSet S :=
  calls.foldl (observe zero bump) h

end HotSet

end Model

section Eviction

variable {S : Type u} [LinearOrder S] {h : HotSet S} {protect : CacheKey}

namespace HotSet

def aboveThreshold (h : HotSet S) (protect : CacheKey) (threshold : S ×ₗ Nat) :
    Map CacheKey (HotEntry S) :=
  h.map.retain fun k e => k = protect || threshold < e.rank

omit [LinearOrder S] in
theorem length_ranks (h : HotSet S) : h.ranks.length = h.map.entries.length := List.length_map _

omit [LinearOrder S] in
theorem place_of_threshold (hover : h.capacity < h.map.entries.length) :
    min h.batch (h.ranks.length - 1) < h.map.entries.length ∧
      h.overflow ≤ min h.batch (h.ranks.length - 1) := by
  have hpos := h.capacity_pos
  rw [length_ranks]
  unfold batch overflow
  omega

theorem exists_threshold (hover : h.capacity < h.map.entries.length) :
    ∃ threshold, h.threshold? = some threshold := by
  obtain ⟨hlt, -⟩ := place_of_threshold hover
  have hlen : (h.ranks.insertionSort (· ≤ ·)).length = h.map.entries.length := by
    rw [List.length_insertionSort, length_ranks]
  exact ⟨_, List.getElem?_eq_getElem (hlen ▸ hlt)⟩

variable {threshold : S ×ₗ Nat}

theorem decide_le_trans (a b : S ×ₗ Nat) (hab : a ≤ b) (hb : decide (b ≤ threshold) = true) :
    decide (a ≤ threshold) = true :=
  decide_eq_true (hab.trans (of_decide_eq_true hb))

theorem place_lt_countP (ht : h.threshold? = some threshold) :
    min h.batch (h.ranks.length - 1) < h.ranks.countP (fun r => decide (r ≤ threshold)) := by
  by_contra hle
  have hout := (countP_insertionSort_le_iff decide_le_trans ht).mp (not_lt.mp hle)
  exact of_decide_eq_false hout le_rfl

theorem length_aboveThreshold_le (protect : CacheKey) (threshold : S ×ₗ Nat) :
    (h.aboveThreshold protect threshold).entries.length +
      h.ranks.countP (fun r => decide (r ≤ threshold)) ≤ h.map.entries.length + 1 := by
  have hone := Map.countP_key_le_one h.map protect
  have hor := countP_or_le (fun e => decide (e.1 = protect))
    (fun e => decide (threshold < e.2.rank)) h.map.entries
  have hsplit := List.length_eq_countP_add_countP (l := h.map.entries)
    (fun e => decide (e.2.rank ≤ threshold))
  have hcount : h.ranks.countP (fun r => decide (r ≤ threshold)) =
      h.map.entries.countP (fun e => decide (e.2.rank ≤ threshold)) := List.countP_map
  have hlen : (h.aboveThreshold protect threshold).entries.length = h.map.entries.countP
      (fun e => decide (e.1 = protect) || decide (threshold < e.2.rank)) :=
    List.countP_eq_length_filter.symm
  simp only [decide_eq_true_eq, not_le] at hsplit
  omega

/-- The first pass already brings the map under its ceiling, so that the second one has nothing
to do. -/
theorem length_aboveThreshold_le_capacity (protect : CacheKey)
    (hover : h.capacity < h.map.entries.length) (ht : h.threshold? = some threshold) :
    (h.aboveThreshold protect threshold).entries.length ≤ h.capacity := by
  obtain ⟨-, hplace⟩ := place_of_threshold hover
  have hcount := place_lt_countP ht
  have hsplit := length_aboveThreshold_le (h := h) protect threshold
  unfold overflow at hplace
  omega

theorem evictLocked_eq (hover : h.capacity < h.map.entries.length) (protect : CacheKey) :
    ∃ threshold, h.threshold? = some threshold ∧
      h.evictLocked protect = { h with map := h.aboveThreshold protect threshold } := by
  obtain ⟨threshold, ht⟩ := exists_threshold hover
  have hunder := length_aboveThreshold_le_capacity protect hover ht
  have hpos := h.capacity_pos
  have hgo : ¬(h.overflow = 0 ∨ h.map.entries.length < 2) := by
    unfold overflow
    omega
  refine ⟨threshold, ht, ?_⟩
  unfold evictLocked
  rw [if_neg hgo, ht]
  have hidle : (h.aboveThreshold protect threshold).entries.length - h.capacity = 0 :=
    Nat.sub_eq_zero_of_le hunder
  unfold aboveThreshold at hidle ⊢
  simp only [hidle, List.take_zero, Map.eraseAll, List.foldl_nil]

theorem lookup_aboveThreshold (protect : CacheKey) (threshold : S ×ₗ Nat) (k : CacheKey) :
    (h.aboveThreshold protect threshold).lookup k =
      (h.map.lookup k).filter fun e => k = protect || threshold < e.rank :=
  Map.lookup_retain _ _ _

section

variable (hover : h.capacity < h.map.entries.length)
include hover

theorem length_evictLocked (protect : CacheKey) :
    (h.evictLocked protect).map.entries.length ≤ h.capacity := by
  obtain ⟨threshold, ht, heq⟩ := evictLocked_eq hover protect
  rw [heq]
  exact length_aboveThreshold_le_capacity protect hover ht

theorem mem_evictLocked (hp : protect ∈ h.map) : protect ∈ (h.evictLocked protect).map := by
  obtain ⟨threshold, -, heq⟩ := evictLocked_eq hover protect
  obtain ⟨e, he⟩ := Option.isSome_iff_exists.mp (AList.lookup_isSome.mpr hp)
  rw [heq, ← AList.lookup_isSome, lookup_aboveThreshold, he]
  simp

theorem lookup_of_evictLocked {k : CacheKey} {e : HotEntry S}
    (hk : (h.evictLocked protect).map.lookup k = some e) : h.map.lookup k = some e := by
  obtain ⟨threshold, -, heq⟩ := evictLocked_eq hover protect
  rw [heq, lookup_aboveThreshold] at hk
  exact (Option.filter_eq_some_iff.mp hk).1

theorem rank_lt_of_evictLocked {k j : CacheKey} {e e' : HotEntry S} (hk : h.map.lookup k = some e)
    (hout : k ∉ (h.evictLocked protect).map) (hj : (h.evictLocked protect).map.lookup j = some e')
    (hne : j ≠ protect) : e.rank < e'.rank := by
  obtain ⟨threshold, -, heq⟩ := evictLocked_eq hover protect
  rw [heq, ← AList.lookup_eq_none, lookup_aboveThreshold, hk] at hout
  rw [heq, lookup_aboveThreshold] at hj
  have hle : e.rank ≤ threshold := by
    by_contra hlt
    simp [Option.filter, not_le.mp hlt] at hout
  have habove : threshold < e'.rank := by
    simpa [hne] using (Option.filter_eq_some_iff.mp hj).2
  exact hle.trans_lt habove

end

def evicted (h : HotSet S) (protect : CacheKey) : List CacheKey :=
  h.map.keys.filter fun k => ((h.evictLocked protect).map.lookup k).isNone

def otherRanks (h : HotSet S) (protect : CacheKey) : List (S ×ₗ Nat) :=
  (h.map.entries.filter fun e => e.1 ≠ protect).map fun e => e.2.rank

theorem length_evicted (hover : h.capacity < h.map.entries.length) (protect : CacheKey) :
    ∃ threshold, h.threshold? = some threshold ∧ (h.evicted protect).length =
      (h.otherRanks protect).countP (fun r => decide (r ≤ threshold)) := by
  obtain ⟨threshold, ht, heq⟩ := evictLocked_eq hover protect
  refine ⟨threshold, ht, ?_⟩
  unfold evicted otherRanks
  rw [heq, ← List.countP_eq_length_filter, AList.keys, List.keys, List.countP_map, List.countP_map,
    List.countP_filter]
  apply List.countP_congr
  intro e he
  have hlookup : h.map.lookup e.1 = some e.2 := AList.mem_lookup_iff.mpr he
  simp only [Function.comp_apply, lookup_aboveThreshold, hlookup]
  by_cases hk : e.1 = protect <;> by_cases hr : threshold < e.2.rank <;>
    simp [Option.filter, hk, hr, not_le.mpr, not_lt.mp]

/-- The keys that tie with the threshold end with the batch: the next place, counted without the
observed key, ranks above it. -/
def TiesEnd (h : HotSet S) (protect : CacheKey) : Prop :=
  ∀ threshold ∈ (h.ranks.insertionSort (· ≤ ·))[h.overflow + h.capacity / 10 + 1]?,
    ∀ rank ∈ ((h.otherRanks protect).insertionSort (· ≤ ·))[h.overflow + h.capacity / 10 + 2]?,
      threshold < rank

theorem threshold_of_place (hp : protect ∈ h.map) {rank : S ×ₗ Nat}
    (hr : ((h.otherRanks protect).insertionSort (· ≤ ·))[h.overflow + h.capacity / 10 + 2]? =
      some rank) (ht : h.threshold? = some threshold) :
    (h.ranks.insertionSort (· ≤ ·))[h.overflow + h.capacity / 10 + 1]? = some threshold := by
  obtain ⟨hlt, -⟩ := List.getElem?_eq_some_iff.mp hr
  have hlen : (h.otherRanks protect).length < h.map.entries.length := by
    unfold otherRanks
    rw [List.length_map]
    obtain ⟨e, he⟩ := Option.isSome_iff_exists.mp (AList.lookup_isSome.mpr hp)
    apply List.length_filter_lt_length_iff_exists.mpr
    exact ⟨⟨protect, e⟩, AList.mem_lookup_iff.mp he, by simp⟩
  rw [List.length_insertionSort] at hlt
  -- The batch is not clipped, since a key is left that far up.
  have hplace : min h.batch (h.ranks.length - 1) = h.overflow + h.capacity / 10 + 1 := by
    rw [length_ranks]
    unfold batch
    omega
  rwa [threshold?, hplace] at ht

theorem countP_le_iff_tiesEnd (hp : protect ∈ h.map) (ht : h.threshold? = some threshold) :
    (h.otherRanks protect).countP (fun r => decide (r ≤ threshold)) ≤
      h.overflow + h.capacity / 10 + 2 ↔ h.TiesEnd protect := by
  cases hr : ((h.otherRanks protect).insertionSort (· ≤ ·))[h.overflow + h.capacity / 10 + 2]? with
  | none =>
    have hlen := List.getElem?_eq_none_iff.mp hr
    rw [List.length_insertionSort] at hlen
    have hall : (h.otherRanks protect).countP (fun r => decide (r ≤ threshold)) ≤
        (h.otherRanks protect).length := List.countP_le_length
    have hnone : h.TiesEnd protect := by
      intro t _ rank hrank
      rw [hr] at hrank
      cases hrank
    exact ⟨fun _ => hnone, fun _ => hall.trans hlen⟩
  | some rank =>
    have hplace := threshold_of_place hp hr ht
    rw [countP_insertionSort_le_iff decide_le_trans hr, decide_eq_false_iff_not, not_le]
    constructor
    · intro hlt t htt r hrr
      rw [hplace] at htt
      rw [hr] at hrr
      cases htt
      cases hrr
      exact hlt
    · intro hends
      exact hends threshold hplace rank hr

/-- One eviction is a bounded batch just when the ties end with it. -/
theorem eviction_batch_iff (hp : protect ∈ h.map) (hover : h.capacity < h.map.entries.length) :
    ((h.evicted protect).length ≤ h.overflow + h.capacity / 10 + 2 ∧
      ∀ k ∈ h.map.keys, k ∉ h.evicted protect →
        (h.evictLocked protect).map.lookup k = h.map.lookup k) ↔ h.TiesEnd protect := by
  obtain ⟨threshold, ht, hlen⟩ := length_evicted hover protect
  rw [hlen, countP_le_iff_tiesEnd hp ht]
  constructor
  · exact fun hboth => hboth.1
  · intro hends
    refine ⟨hends, ?_⟩
    intro k hk hkept
    cases hafter : (h.evictLocked protect).map.lookup k with
    | none => exact absurd (List.mem_filter.mpr ⟨hk, by rw [hafter]; rfl⟩) hkept
    | some e => exact (lookup_of_evictLocked hover hafter).symm

end HotSet

def Decay.idle : Decay S := ⟨id, fun _ => true, monotone_id, fun _ _ _ _ => rfl⟩

def letterKey (letter : UInt8) : CacheKey :=
  CacheKey.new [letter] .a classIn ⟨"default", none⟩ ⟨false, false⟩

def letterCall (now : UInt8 → Nat) (letter : UInt8) : HotCall Nat :=
  ⟨letterKey letter, none, now letter, Decay.idle⟩

/-- A set with room for four has seen five names, once each, and has yet to evict. -/
def burst (now : UInt8 → Nat) : HotSet Nat :=
  let seen := HotSet.observeAll 0 (· + 1) (HotSet.new 4 0) ([97, 98, 99, 100].map (letterCall now))
  HotSet.count 0 (· + 1) seen (letterKey 101) (now 101)

instance (h : HotSet S) (protect : CacheKey) : Decidable (h.TiesEnd protect) :=
  inferInstanceAs (Decidable (∀ threshold ∈ _, ∀ rank ∈ _, _))

theorem eviction_batch_apart :
    ((burst UInt8.toNat).evicted (letterKey 101)).length ≤ 3 :=
  (HotSet.eviction_batch_iff (by decide) (by decide)).mpr (by decide) |>.1

theorem eviction_batch_at_once : letterKey 101 ∈ (burst fun _ => 0).map ∧
    (burst fun _ => 0).capacity < (burst fun _ => 0).map.entries.length ∧
    ¬((burst fun _ => 0).evicted (letterKey 101)).length ≤
      (burst fun _ => 0).overflow + (burst fun _ => 0).capacity / 10 + 2 := by
  decide

end Eviction

section Calls

variable {S : Type u}

structure HotSet.Tabled (h : HotSet S) : Prop where
  rows : Map.Each (fun row => row.entries.length ≤ 8) h.transitions
  table : h.transitions.entries.length ≤ h.transitionCapacity

namespace HotSet

variable (zero : S) (bump : S → S)

theorem tabled_new (capacity transitionCapacity : Nat) :
    (new capacity transitionCapacity : HotSet S).Tabled :=
  ⟨Map.each_empty, Nat.zero_le _⟩

theorem mem_count (h : HotSet S) (key : CacheKey) (now : Nat) :
    key ∈ (count zero bump h key now).map :=
  (AList.mem_insert _).mpr (.inl rfl)

theorem lookup_count {k key : CacheKey} (hne : k ≠ key) (h : HotSet S) (now : Nat) :
    (count zero bump h key now).map.lookup k = h.map.lookup k :=
  AList.lookup_insert_ne hne

end HotSet

variable [LinearOrder S]

def HotEntry.decayed (e : HotEntry S) (d : Decay S) : HotEntry S :=
  { e with score := d.scale e.score }

namespace HotSet

variable (zero : S) (bump : S → S) {h : HotSet S} {call : HotCall S}

theorem lookup_decayLocked (h : HotSet S) (d : Decay S) (k : CacheKey) :
    (h.decayLocked d).map.lookup k =
      ((h.map.lookup k).map fun e => e.decayed d).filter fun e => d.keep e.score := by
  unfold decayLocked
  rw [Map.lookup_retain, Map.lookup_mapValues]
  rfl

theorem fields_evictLocked (h : HotSet S) (protect : CacheKey) :
    (h.evictLocked protect).transitions = h.transitions ∧
      (h.evictLocked protect).transitionCapacity = h.transitionCapacity ∧
      (h.evictLocked protect).capacity = h.capacity := by
  unfold evictLocked
  split
  · exact ⟨rfl, rfl, rfl⟩
  · split
    · exact ⟨rfl, rfl, rfl⟩
    · exact ⟨rfl, rfl, rfl⟩

theorem fields_trimmed (h : HotSet S) (call : HotCall S) :
    (trimmed zero bump h call).transitions = (h.decayLocked call.decay).transitions ∧
      (trimmed zero bump h call).transitionCapacity = h.transitionCapacity ∧
      (trimmed zero bump h call).capacity = h.capacity := by
  unfold trimmed
  dsimp only
  split
  · exact fields_evictLocked _ _
  · exact ⟨rfl, rfl, rfl⟩

theorem trimmed_cases (h : HotSet S) (call : HotCall S) :
    let counted := count zero bump (h.decayLocked call.decay) call.key call.now
    (counted.capacity < counted.map.entries.length ∧
      trimmed zero bump h call = counted.evictLocked call.key) ∨
    (counted.map.entries.length ≤ counted.capacity ∧ trimmed zero bump h call = counted) := by
  unfold trimmed
  dsimp only
  split
  · exact .inl ⟨‹_›, rfl⟩
  · exact .inr ⟨not_lt.mp ‹_›, rfl⟩

theorem length_trimmed (h : HotSet S) (call : HotCall S) :
    (trimmed zero bump h call).map.entries.length ≤ h.capacity := by
  rcases trimmed_cases zero bump h call with ⟨hover, heq⟩ | ⟨hle, heq⟩
  · rw [heq]
    exact length_evictLocked hover call.key
  · rw [heq]
    exact hle

theorem mem_trimmed (h : HotSet S) (call : HotCall S) :
    call.key ∈ (trimmed zero bump h call).map := by
  have hmem := mem_count zero bump (h.decayLocked call.decay) call.key call.now
  rcases trimmed_cases zero bump h call with ⟨hover, heq⟩ | ⟨-, heq⟩
  · rw [heq]
    exact mem_evictLocked hover hmem
  · rw [heq]
    exact hmem

theorem lookup_of_trimmed {j : CacheKey} {e : HotEntry S} (hne : j ≠ call.key)
    (hj : (trimmed zero bump h call).map.lookup j = some e) :
    (h.decayLocked call.decay).map.lookup j = some e := by
  rw [← lookup_count zero bump hne (h.decayLocked call.decay) call.now]
  rcases trimmed_cases zero bump h call with ⟨hover, heq⟩ | ⟨-, heq⟩
  · rw [heq] at hj
    exact lookup_of_evictLocked hover hj
  · rwa [heq] at hj

theorem rank_lt_of_trimmed {k j : CacheKey} {e e' : HotEntry S} (hk : h.map.lookup k = some e)
    (hout : k ∉ (trimmed zero bump h call).map)
    (hj : (trimmed zero bump h call).map.lookup j = some e') (hne : j ≠ call.key) :
    (e.decayed call.decay).rank < e'.rank := by
  have hkey : k ≠ call.key := by
    rintro rfl
    exact hout (mem_trimmed zero bump h call)
  have hleft := lookup_of_trimmed zero bump hne hj
  cases hkeep : call.decay.keep (e.decayed call.decay).score with
  | false =>
    -- The decay dropped it, and left the other one.
    rw [lookup_decayLocked] at hleft
    have hkept := (Option.filter_eq_some_iff.mp hleft).2
    apply Prod.Lex.toLex_lt_toLex.mpr
    left
    by_contra hge
    rw [call.decay.upward _ _ (not_lt.mp hge) hkept] at hkeep
    cases hkeep
  | true =>
    have hdecayed : (h.decayLocked call.decay).map.lookup k = some (e.decayed call.decay) := by
      rw [lookup_decayLocked, hk]
      exact Option.filter_eq_some_iff.mpr ⟨rfl, hkeep⟩
    rw [← lookup_count zero bump hkey _ call.now] at hdecayed
    rcases trimmed_cases zero bump h call with ⟨hover, heq⟩ | ⟨-, heq⟩
    · rw [heq] at hout hj
      exact rank_lt_of_evictLocked hover hdecayed hout hj hne
    · rw [heq, ← AList.lookup_eq_none, hdecayed] at hout
      cases hout

theorem length_successorRow (h : HotSet S) (prev key : CacheKey) :
    (successorRow zero bump h prev key).entries.length ≤ 8 := by
  unfold successorRow
  dsimp only
  split
  · exact List.length_take_le _ _
  · exact not_lt.mp ‹_›

theorem tabled_decayLocked (ht : h.Tabled) (d : Decay S) : (h.decayLocked d).Tabled where
  rows := by
    apply Map.each_retain
    intro k row hrow
    rw [Map.lookup_mapValues] at hrow
    obtain ⟨old, hold, rfl⟩ := Option.map_eq_some_iff.mp hrow
    have hle := Map.length_retain_le (fun _ w => d.keep w) (old.mapValues d.scale)
    rw [Map.length_mapValues] at hle
    exact hle.trans (ht.rows k old hold)
  table := by
    apply (Map.length_retain_le _ _).trans
    rw [Map.length_mapValues]
    exact ht.table

theorem tabled_noteSuccessor (ht : h.Tabled) (prev key : CacheKey) :
    (noteSuccessor zero bump h prev key).Tabled := by
  unfold noteSuccessor
  dsimp only
  have hle := length_successorRow zero bump h prev key
  generalize successorRow zero bump h prev key = row at hle
  have hrows : Map.Each (fun row => row.entries.length ≤ 8) (h.transitions.insert prev row) :=
    Map.each_insert ht.rows hle
  split
  · rename_i hover
    cases hhead : (h.transitions.insert prev row).keys.head? with
    | none =>
      have hempty : (h.transitions.insert prev row).keys = [] := List.head?_eq_none_iff.mp hhead
      rw [Map.length_entries, hempty] at hover
      exact absurd hover (Nat.not_lt_zero _)
    | some victim =>
      have hmem : victim ∈ h.transitions.insert prev row := List.mem_of_head? hhead
      have hlt := Map.length_erase_lt hmem
      have hone := Map.length_insert_le h.transitions prev row
      have htable := ht.table
      refine ⟨Map.each_erase hrows victim, ?_⟩
      dsimp only
      omega
  · exact ⟨hrows, not_lt.mp ‹_›⟩

theorem tabled_observe (ht : h.Tabled) (call : HotCall S) : (observe zero bump h call).Tabled := by
  have htrimmed : (trimmed zero bump h call).Tabled := by
    obtain ⟨hrows, htable⟩ := tabled_decayLocked ht call.decay
    obtain ⟨htransitions, hcapacity, -⟩ := fields_trimmed zero bump h call
    constructor
    · rw [htransitions]
      exact hrows
    · rw [htransitions, hcapacity]
      exact htable
  unfold observe
  dsimp only
  split
  · split
    · split
      · exact tabled_noteSuccessor zero bump htrimmed _ _
      · exact htrimmed
    · exact htrimmed
  · exact htrimmed

theorem fields_observe (h : HotSet S) (call : HotCall S) :
    (observe zero bump h call).map = (trimmed zero bump h call).map ∧
      (observe zero bump h call).transitionCapacity = h.transitionCapacity ∧
      (observe zero bump h call).capacity = h.capacity := by
  obtain ⟨-, htransitions, hcapacity⟩ := fields_trimmed zero bump h call
  unfold observe
  dsimp only
  split
  · split
    · split
      · exact ⟨rfl, htransitions, hcapacity⟩
      · exact ⟨rfl, htransitions, hcapacity⟩
    · exact ⟨rfl, htransitions, hcapacity⟩
  · exact ⟨rfl, htransitions, hcapacity⟩

theorem tabled_observeAll (ht : h.Tabled) (calls : List (HotCall S)) :
    (observeAll zero bump h calls).Tabled ∧
      (observeAll zero bump h calls).transitionCapacity = h.transitionCapacity ∧
      (observeAll zero bump h calls).capacity = h.capacity := by
  induction calls generalizing h with
  | nil => exact ⟨ht, rfl, rfl⟩
  | cons call calls ih =>
    obtain ⟨-, htransitions, hcapacity⟩ := fields_observe zero bump h call
    rw [← htransitions, ← hcapacity]
    exact ih (tabled_observe zero bump ht call)

/-- The bounds of the hot set after any call of any sequence. -/
theorem hot_set_bounds (zero : S) (bump : S → S) (capacity transitionCapacity : Nat)
    (calls : List (HotCall S)) (call : HotCall S) :
    let before := observeAll zero bump (new capacity transitionCapacity) calls
    let after := observe zero bump before call
    after.map.entries.length ≤ max capacity 1 ∧ call.key ∈ after.map ∧
      (∀ k e j e', before.map.lookup k = some e → k ∉ after.map →
        after.map.lookup j = some e' → j ≠ call.key → (e.decayed call.decay).rank < e'.rank) ∧
      (∀ k row, after.transitions.lookup k = some row → row.entries.length ≤ 8) ∧
      after.transitions.entries.length ≤ transitionCapacity := by
  intro before after
  obtain ⟨htabled, htransitions, hcapacity⟩ :=
    tabled_observeAll zero bump (tabled_new capacity transitionCapacity) calls
  obtain ⟨hmap, hsame, -⟩ := fields_observe zero bump before call
  obtain ⟨hrows, htable⟩ := tabled_observe zero bump htabled call
  refine ⟨?_, ?_, ?_, hrows, ?_⟩
  · rw [hmap]
    exact (length_trimmed zero bump before call).trans (le_of_eq hcapacity)
  · rw [hmap]
    exact mem_trimmed zero bump before call
  · intro k e j e' hk hout hj hne
    rw [hmap] at hout hj
    exact rank_lt_of_trimmed zero bump hk hout hj hne
  · rw [hsame, htransitions] at htable
    exact htable

end HotSet

end Calls

end EgressDns
