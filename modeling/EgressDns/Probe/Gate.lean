import EgressDns.Lib.ListFacts
import EgressDns.Lib.Maps
import EgressDns.Upstream.Rank
import EgressDns.Util.IpClass

/-!
# The gate in front of the probe queue

`probe/gate.rs`: an offer of a triple is suppressed until the jittered cooldown has elapsed since
the last one, and the table of offers is compacted at its ceiling. Instants and durations are
nanoseconds; the text of an address is a parameter.
-/

namespace EgressDns

open Lib

structure OfferKey where
  addr : IpAddr
  port : UInt16
  hostname : List UInt8
  deriving DecidableEq

structure Offer where
  key : OfferKey
  now : Nat

/-- The order of the entries is that in which the `HashMap` is iterated. -/
abbrev OfferGate := Map OfferKey Nat

namespace OfferGate

def maxEntries : Nat := 8192

def byAge (seen : OfferGate) : List (Sigma fun _ : OfferKey => Nat) :=
  seen.entries.insertionSort fun a b => a.2 ≤ b.2

def compact (seen : OfferGate) (window now : Nat) : OfferGate :=
  if maxEntries ≤ seen.entries.length then
    let seen := Map.retain (fun _ t => now - t < window) seen
    if maxEntries ≤ seen.entries.length then
      let keys := byAge seen
      let drop := keys.length - keys.length / 4
      Map.eraseAll seen ((keys.take drop).map fun e => e.1)
    else seen
  else seen

variable (addrText : IpAddr → List UInt8) (cooldown : Nat)

/-- Between eight and twelve tenths of the cooldown. -/
def jittered (key : OfferKey) : Nat :=
  let hash := fnv1a64 (addrText key.addr ++
    [(key.port >>> 8).toUInt8, key.port.toUInt8] ++ key.hostname)
  cooldown * (8 + hash.toNat % 5) / 10

def recent (seen : OfferGate) (offer : Offer) : Bool :=
  match seen.lookup offer.key with
  | some last => offer.now - last < jittered addrText cooldown offer.key
  | none => false

def allow (seen : OfferGate) (offer : Offer) : Bool × OfferGate :=
  if recent addrText cooldown seen offer then (false, seen)
  else
    let window := jittered addrText cooldown offer.key
    (true, (seen.compact window offer.now).insert offer.key offer.now)

def after (seen : OfferGate) (offers : List Offer) : OfferGate :=
  offers.foldl (fun seen offer => (allow addrText cooldown seen offer).2) seen

def Accepted (seen : OfferGate) (offer : Offer) : Prop :=
  (allow addrText cooldown seen offer).1 = true

def oldestQuarter (seen : OfferGate) : List OfferKey :=
  (seen.byAge.take (seen.entries.length / 4)).map fun e => e.1

/-- A triple that the offer made the table forget had outlived its own window, or was one of the
oldest quarter. -/
def ForgetsLittle (seen : OfferGate) (offer : Offer) : Prop :=
  ∀ k t, seen.lookup k = some t → k ∉ (allow addrText cooldown seen offer).2 →
    jittered addrText cooldown k ≤ offer.now - t ∨ k ∈ seen.oldestQuarter

def dropped (seen : OfferGate) (window now : Nat) : Nat :=
  let due := seen.entries.countP fun e => window ≤ now - e.2
  if due = 0 then seen.entries.length - seen.entries.length / 4 else due

/-- At the ceiling, what the offer drops beyond the oldest quarter has outlived its own window. -/
def DropsDue (seen : OfferGate) (offer : Offer) : Prop :=
  maxEntries ≤ seen.entries.length → Accepted addrText cooldown seen offer →
    ∀ i, seen.entries.length / 4 ≤ i →
      i < seen.dropped (jittered addrText cooldown offer.key) offer.now →
      ∀ e ∈ seen.byAge[i]?, jittered addrText cooldown e.1 ≤ offer.now - e.2

section Compaction

variable {seen : OfferGate} {window now : Nat}

theorem perm_byAge (seen : OfferGate) : seen.byAge.Perm seen.entries :=
  List.perm_insertionSort _ _

theorem sorted_byAge (seen : OfferGate) : seen.byAge.Pairwise fun a b => a.2 ≤ b.2 := by
  have : Std.Total fun a b : Sigma fun _ : OfferKey => Nat => a.2 ≤ b.2 :=
    ⟨fun a b => Nat.le_total a.2 b.2⟩
  have : IsTrans (Sigma fun _ : OfferKey => Nat) fun a b => a.2 ≤ b.2 :=
    ⟨fun _ _ _ => Nat.le_trans⟩
  exact List.pairwise_insertionSort _ _

theorem nodup_byAge (seen : OfferGate) : (seen.byAge.map fun e => e.1).Nodup := by
  have hkeys : (seen.entries.map fun e => e.1).Nodup := seen.nodupKeys
  exact ((perm_byAge seen).map _).nodup_iff.mpr hkeys

variable {e : Sigma fun _ : OfferKey => Nat}

theorem due_iff {i : Nat} (he : seen.byAge[i]? = some e) :
    i < seen.entries.countP (fun e => window ≤ now - e.2) ↔ window ≤ now - e.2 := by
  have hdown : ∀ a b : Nat, a ≤ b → decide (window ≤ now - b) = true →
      decide (window ≤ now - a) = true := by
    intro a b hab hb
    have := of_decide_eq_true hb
    exact decide_eq_true (by omega)
  have hsorted : (seen.byAge.map fun e => e.2).Pairwise (· ≤ ·) :=
    List.pairwise_map.mpr (sorted_byAge seen)
  have hplace : (seen.byAge.map fun e => e.2)[i]? = some e.2 := by
    rw [List.getElem?_map, he]
    rfl
  have hcount := countP_le_iff_getElem? hdown hsorted hplace
  rw [List.countP_map, (perm_byAge seen).countP_eq, decide_eq_false_iff_not] at hcount
  rw [← not_le, ← not_iff_not, not_not]
  exact hcount

theorem length_retain_recent (seen : OfferGate) (window now : Nat) :
    (Map.retain (fun _ t => now - t < window) seen).entries.length +
      seen.entries.countP (fun e => window ≤ now - e.2) = seen.entries.length := by
  have hsplit := List.length_eq_countP_add_countP (l := seen.entries)
    (fun e => decide (now - e.2 < window))
  simp only [decide_eq_true_eq, not_lt] at hsplit
  unfold Map.retain
  rw [← List.countP_eq_length_filter]
  exact hsplit.symm

theorem retain_recent_eq (hnone : seen.entries.countP (fun e => window ≤ now - e.2) = 0) :
    Map.retain (fun _ t => now - t < window) seen = seen := by
  apply AList.ext
  apply List.filter_eq_self.mpr
  intro e he
  have hyoung := List.countP_eq_zero.mp hnone e he
  simpa using hyoung

theorem mem_compact (hfull : seen.entries.length = maxEntries) {i : Nat}
    (he : seen.byAge[i]? = some e) :
    e.1 ∈ seen.compact window now ↔ seen.dropped window now ≤ i := by
  have hmem : e ∈ seen.entries := (perm_byAge seen).mem_iff.mp (List.mem_of_getElem? he)
  have hlookup : seen.lookup e.1 = some e.2 := AList.mem_lookup_iff.mpr hmem
  have hlength : seen.byAge.length = seen.entries.length := (perm_byAge seen).length_eq
  unfold compact dropped
  rw [if_pos hfull.ge]
  by_cases hnone : seen.entries.countP (fun e => window ≤ now - e.2) = 0
  · -- Nothing has outlived the window, and the oldest entries go.
    have hplace : (seen.byAge.map fun e => e.1)[i]? = some e.1 := by
      rw [List.getElem?_map, he]
      rfl
    have htake := mem_take_iff_of_nodup (nodup_byAge seen) hplace
      (seen.entries.length - seen.entries.length / 4)
    rw [retain_recent_eq hnone, if_pos hfull.ge, if_pos hnone, Map.mem_eraseAll, hlength,
      List.map_take, htake, not_lt]
    exact and_iff_right (AList.lookup_isSome.mp (by rw [hlookup]; rfl))
  · have hsplit := length_retain_recent seen window now
    have hroom : ¬maxEntries ≤
        (Map.retain (fun _ t => now - t < window) seen).entries.length := by omega
    rw [if_neg hroom, if_neg hnone, Map.mem_retain hlookup, decide_eq_true_eq, ← not_lt,
      due_iff he, not_le]

theorem mem_of_compact {k : OfferKey} (hk : k ∈ seen.compact window now) : k ∈ seen := by
  have hretain : ∀ {k : OfferKey},
      k ∈ Map.retain (fun _ t => decide (now - t < window)) seen → k ∈ seen := by
    intro k hk
    obtain ⟨t, ht⟩ := Option.isSome_iff_exists.mp (AList.lookup_isSome.mpr hk)
    rw [Map.lookup_retain] at ht
    exact AList.lookup_isSome.mp (by rw [(Option.filter_eq_some_iff.mp ht).1]; rfl)
  unfold compact at hk
  split at hk
  · dsimp only at hk
    split at hk
    · exact hretain (Map.mem_eraseAll.mp hk).1
    · exact hretain hk
  · exact hk

theorem compact_of_room (hroom : seen.entries.length < maxEntries) :
    seen.compact window now = seen := if_neg (not_le.mpr hroom)

theorem length_compact (hle : seen.entries.length ≤ maxEntries) :
    (seen.compact window now).entries.length < maxEntries := by
  rcases hle.lt_or_eq with hroom | hfull
  · rw [compact_of_room hroom]
    exact hroom
  · -- The oldest entry is dropped, and no key is new.
    have hzero : 0 < seen.byAge.length := by
      rw [(perm_byAge seen).length_eq, hfull]
      exact Nat.zero_lt_succ _
    have hold := List.getElem?_eq_getElem hzero
    have hdropped : 0 < seen.dropped window now := by
      unfold dropped
      dsimp only
      split
      · rw [hfull]
        exact Nat.zero_lt_succ _
      · omega
    have hout : seen.byAge[0].1 ∉ seen.compact window now := by
      rw [mem_compact hfull hold]
      omega
    rw [← hfull]
    apply Map.length_lt_of_keys (fun k => mem_of_compact) _ hout
    apply AList.mem_keys.mpr
    exact List.mem_map.mpr ⟨_, (perm_byAge seen).mem_iff.mp (List.getElem_mem hzero), rfl⟩

end Compaction

section Offers

theorem allow_cases (seen : OfferGate) (offer : Offer) :
    (¬Accepted addrText cooldown seen offer ∧ (allow addrText cooldown seen offer).2 = seen ∧
      recent addrText cooldown seen offer = true) ∨
    (Accepted addrText cooldown seen offer ∧ recent addrText cooldown seen offer = false ∧
      (allow addrText cooldown seen offer).2 =
        (seen.compact (jittered addrText cooldown offer.key) offer.now).insert offer.key
          offer.now) := by
  unfold Accepted allow
  cases recent addrText cooldown seen offer
  · exact .inr ⟨rfl, rfl, rfl⟩
  · exact .inl ⟨Bool.false_ne_true, rfl, rfl⟩

variable {addrText cooldown} {seen : OfferGate} {offer : Offer}

theorem window_le_of_accepted (h : Accepted addrText cooldown seen offer) {last : Nat}
    (hlast : seen.lookup offer.key = some last) :
    jittered addrText cooldown offer.key ≤ offer.now - last := by
  rcases allow_cases addrText cooldown seen offer with
    ⟨hno, -, -⟩ | ⟨-, hold, -⟩
  · exact absurd h hno
  · unfold recent at hold
    rw [hlast] at hold
    simpa using hold

theorem allow_of_new (hnew : offer.key ∉ seen) :
    Accepted addrText cooldown seen offer ∧ (allow addrText cooldown seen offer).2 =
      (seen.compact (jittered addrText cooldown offer.key) offer.now).insert offer.key
        offer.now := by
  rcases allow_cases addrText cooldown seen offer with ⟨-, -, hrecent⟩ | ⟨hyes, -, hafter⟩
  · unfold recent at hrecent
    rw [AList.lookup_eq_none.mpr hnew] at hrecent
    cases hrecent
  · exact ⟨hyes, hafter⟩

variable {k : OfferKey}

theorem exists_place {t : Nat} (hk : seen.lookup k = some t) :
    ∃ i : Nat, seen.byAge[i]? = some ⟨k, t⟩ := by
  have hmem : (⟨k, t⟩ : Sigma fun _ => Nat) ∈ seen.byAge :=
    (perm_byAge seen).mem_iff.mpr (AList.mem_lookup_iff.mp hk)
  exact List.mem_iff_getElem?.mp hmem

theorem mem_oldestQuarter {i : Nat} {e : Sigma fun _ : OfferKey => Nat}
    (he : seen.byAge[i]? = some e) : e.1 ∈ seen.oldestQuarter ↔ i < seen.entries.length / 4 := by
  have hplace : (seen.byAge.map fun e => e.1)[i]? = some e.1 := by
    rw [List.getElem?_map, he]
    rfl
  unfold oldestQuarter
  rw [List.map_take]
  exact mem_take_iff_of_nodup (nodup_byAge seen) hplace _

section

variable (hle : seen.entries.length ≤ maxEntries)
include hle

/-- An offer makes the table forget no more than it may just when what it drops at the ceiling is
due. -/
theorem forgetsLittle_iff :
    ForgetsLittle addrText cooldown seen offer ↔ DropsDue addrText cooldown seen offer := by
  rcases allow_cases addrText cooldown seen offer with
    ⟨hno, hsame, -⟩ | ⟨hyes, -, hafter⟩
  · constructor
    · intro _ _ hyes
      exact absurd hyes hno
    · intro _ k t hk hout
      rw [hsame, ← AList.lookup_eq_none, hk] at hout
      cases hout
  · constructor
    · intro hforgets hfull _ i hquarter hi e he
      have hout : e.1 ∉ seen.compact (jittered addrText cooldown offer.key) offer.now := by
        rw [mem_compact (le_antisymm hle hfull) he]
        exact not_le.mpr hi
      have hlookup : seen.lookup e.1 = some e.2 :=
        AList.mem_lookup_iff.mpr ((perm_byAge seen).mem_iff.mp (List.mem_of_getElem? he))
      by_cases hkey : e.1 = offer.key
      · rw [hkey] at hlookup ⊢
        exact window_le_of_accepted hyes hlookup
      · have hgone : e.1 ∉ (allow addrText cooldown seen offer).2 := by
          rw [hafter, AList.mem_insert, not_or]
          exact ⟨hkey, hout⟩
        rcases hforgets e.1 e.2 hlookup hgone with hdue | hold
        · exact hdue
        · have := (mem_oldestQuarter he).mp hold
          omega
    · intro hdue k t hk hgone
      rw [hafter, AList.mem_insert, not_or] at hgone
      rcases hle.lt_or_eq with hroom | hfull
      · rw [compact_of_room hroom, ← AList.lookup_eq_none, hk] at hgone
        cases hgone.2
      · obtain ⟨i, hi⟩ := exists_place hk
        have hlt := not_le.mp (mt (mem_compact hfull hi).mpr hgone.2)
        by_cases hquarter : i < seen.entries.length / 4
        · exact .inr ((mem_oldestQuarter hi).mpr hquarter)
        · exact .inl (hdue hfull.ge hyes i (not_lt.mp hquarter) hlt ⟨k, t⟩ hi)

theorem length_allow (offer : Offer) :
    (allow addrText cooldown seen offer).2.entries.length ≤ maxEntries := by
  rcases allow_cases addrText cooldown seen offer with
    ⟨-, hsame, -⟩ | ⟨-, -, hafter⟩
  · rw [hsame]
    exact hle
  · rw [hafter]
    exact (Map.length_insert_le _ _ _).trans (length_compact hle)

theorem length_after (offers : List Offer) :
    (after addrText cooldown seen offers).entries.length ≤ maxEntries := by
  induction offers generalizing seen with
  | nil => exact hle
  | cons offer offers ih => exact ih (length_allow hle offer)

end

theorem lookup_allow (hroom : seen.entries.length < maxEntries) {t : Nat}
    (hk : seen.lookup k = some t) (offer : Offer) :
    (allow addrText cooldown seen offer).2.lookup k = some t ∨
      (allow addrText cooldown seen offer).2.lookup k = some offer.now := by
  rcases allow_cases addrText cooldown seen offer with
    ⟨-, hsame, -⟩ | ⟨-, -, hafter⟩
  · rw [hsame]
    exact .inl hk
  · rw [hafter, compact_of_room hroom]
    by_cases hkey : k = offer.key
    · rw [hkey, AList.lookup_insert]
      exact .inr rfl
    · rw [AList.lookup_insert_ne hkey]
      exact .inl hk

theorem lookup_after {offers : List Offer} {since : Nat} (hroom : ∀ first, first <+: offers →
      (after addrText cooldown seen first).entries.length < maxEntries)
    (hlater : ∀ offer ∈ offers, since ≤ offer.now) (hk : ∃ t, seen.lookup k = some t ∧ since ≤ t) :
    ∃ t, (after addrText cooldown seen offers).lookup k = some t ∧ since ≤ t := by
  induction offers generalizing seen with
  | nil => exact hk
  | cons offer offers ih =>
    obtain ⟨t, ht, hsince⟩ := hk
    apply ih
    · intro first hfirst
      exact hroom (offer :: first) (List.prefix_cons_inj offer |>.mpr hfirst)
    · exact fun o ho => hlater o (List.mem_cons_of_mem _ ho)
    · rcases lookup_allow (hroom [] List.nil_prefix) ht offer with hsame | hnew
      · exact ⟨t, hsame, hsince⟩
      · exact ⟨offer.now, hnew, hlater offer List.mem_cons_self⟩

theorem after_append (seen : OfferGate) (first second : List Offer) :
    after addrText cooldown seen (first ++ second) =
      after addrText cooldown (after addrText cooldown seen first) second :=
  List.foldl_append

theorem lookup_of_accepted (h : Accepted addrText cooldown seen offer) :
    (allow addrText cooldown seen offer).2.lookup offer.key = some offer.now := by
  rcases allow_cases addrText cooldown seen offer with
    ⟨hno, -, -⟩ | ⟨-, -, hafter⟩
  · exact absurd h hno
  · rw [hafter]
    exact AList.lookup_insert _

end Offers

/-- Two offers of one triple that are let through lie its window apart, unless the table was full in
between. -/
def Spaced (past : List Offer) (offer : Offer) : Prop :=
  Accepted addrText cooldown (after addrText cooldown ∅ past) offer →
    ∀ first earlier mid, past = first ++ earlier :: mid → earlier.key = offer.key →
      Accepted addrText cooldown (after addrText cooldown ∅ first) earlier →
      (∀ m, m <+: mid →
        (after addrText cooldown ∅ (first ++ earlier :: m)).entries.length < maxEntries) →
      earlier.now + jittered addrText cooldown offer.key ≤ offer.now

variable {addrText cooldown}

theorem spaced_of_sorted {past : List Offer} {offer : Offer}
    (hsorted : (past ++ [offer]).Pairwise fun a b => a.now ≤ b.now) :
    Spaced addrText cooldown past offer := by
  intro hyes first earlier mid hpast hkey hearlier hroom
  have hsplit : past ++ [offer] = first ++ (earlier :: (mid ++ [offer])) := by
    rw [hpast]
    simp
  rw [hsplit] at hsorted
  have hlater := (List.pairwise_cons.mp (List.pairwise_append.mp hsorted).2.1).1
  have hrun : ∀ m, after addrText cooldown ∅ (first ++ earlier :: m) = after addrText cooldown
      (allow addrText cooldown (after addrText cooldown ∅ first) earlier).2 m :=
    fun m => after_append ∅ first (earlier :: m)
  -- The time of the earlier offer, or a later one, is still in the table.
  have hkept := lookup_after (fun m hm => hrun m ▸ hroom m hm)
    (fun o ho => hlater o (List.mem_append_left _ ho))
    ⟨earlier.now, lookup_of_accepted hearlier, le_rfl⟩
  obtain ⟨t, ht, hsince⟩ := hkept
  rw [← hrun mid, ← hpast, hkey] at ht
  have hwindow := window_le_of_accepted hyes ht
  have hnow := hlater offer (List.mem_append_right _ List.mem_cons_self)
  omega

/-- The gate along a sequence of offers: the ceiling, the windows, and what a compaction forgets. -/
theorem offer_gate_iff {offers : List Offer}
    (hsorted : offers.Pairwise fun a b => a.now ≤ b.now) :
    (∀ past offer rest, offers = past ++ offer :: rest →
      (after addrText cooldown ∅ (past ++ [offer])).entries.length ≤ maxEntries ∧
      Spaced addrText cooldown past offer ∧
      ForgetsLittle addrText cooldown (after addrText cooldown ∅ past) offer) ↔
    ∀ past offer rest, offers = past ++ offer :: rest →
      DropsDue addrText cooldown (after addrText cooldown ∅ past) offer := by
  have hbound : ∀ past, (after addrText cooldown ∅ past).entries.length ≤ maxEntries :=
    fun past => length_after (Nat.zero_le _) past
  constructor
  · intro hlawful past offer rest hsplit
    exact (forgetsLittle_iff (hbound past)).mp (hlawful past offer rest hsplit).2.2
  · intro hdue past offer rest hsplit
    refine ⟨hbound _, ?_, (forgetsLittle_iff (hbound past)).mpr (hdue past offer rest hsplit)⟩
    apply spaced_of_sorted
    have hrest : offers = (past ++ [offer]) ++ rest := by
      rw [hsplit]
      simp
    rw [hrest] at hsorted
    exact (List.pairwise_append.mp hsorted).1

variable (addrText cooldown)

theorem length_after_le (seen : OfferGate) (offers : List Offer) :
    (after addrText cooldown seen offers).entries.length ≤ seen.entries.length + offers.length := by
  induction offers generalizing seen with
  | nil => exact le_rfl
  | cons offer offers ih =>
    have hone : (allow addrText cooldown seen offer).2.entries.length ≤
        seen.entries.length + 1 := by
      rcases allow_cases addrText cooldown seen offer with ⟨-, hsame, -⟩ | ⟨-, -, hafter⟩
      · rw [hsame]
        exact Nat.le_succ _
      · rw [hafter]
        apply (Map.length_insert_le _ _ _).trans
        exact Nat.succ_le_succ (Map.length_le_of_keys fun _ => mem_of_compact)
    have hrest := ih (allow addrText cooldown seen offer).2
    rw [List.length_cons]
    exact hrest.trans (by omega)

def portOffer (now i : Nat) : Offer := ⟨⟨.v4 0, UInt16.ofNat i, []⟩, now⟩

theorem offer_gate_repeated :
    (after (fun _ => []) 100 ∅ [portOffer 0 1, portOffer 5 1, portOffer 200 1]).entries.length ≤
      maxEntries ∧
    Spaced (fun _ => []) 100 [portOffer 0 1, portOffer 5 1] (portOffer 200 1) ∧
    ForgetsLittle (fun _ => []) 100 (after (fun _ => []) 100 ∅ [portOffer 0 1, portOffer 5 1])
      (portOffer 200 1) := by
  refine (offer_gate_iff (by decide)).mpr ?_ [portOffer 0 1, portOffer 5 1] (portOffer 200 1) [] rfl
  intro past offer rest hsplit hfull
  have hshort := congrArg List.length hsplit
  have hle := length_after_le (fun _ => []) 100 ∅ past
  simp at hshort hle
  unfold maxEntries at hfull
  omega

theorem entries_after_new {seen : OfferGate} {offers : List Offer}
    (hnodup : (offers.map fun o => o.key).Nodup) (hnew : ∀ o ∈ offers, o.key ∉ seen)
    (hroom : seen.entries.length + offers.length ≤ maxEntries) :
    (after addrText cooldown seen offers).entries =
      (offers.map fun o => (⟨o.key, o.now⟩ : Sigma fun _ => Nat)).reverse ++ seen.entries := by
  induction offers generalizing seen with
  | nil => rfl
  | cons offer offers ih =>
    obtain ⟨hout, hnodup⟩ := List.nodup_cons.mp hnodup
    have hkey := hnew offer List.mem_cons_self
    rw [List.length_cons] at hroom
    have hallow : (allow addrText cooldown seen offer).2 = seen.insert offer.key offer.now := by
      rw [(allow_of_new hkey).2, compact_of_room (by omega)]
    have hentries : (seen.insert offer.key offer.now).entries =
        ⟨offer.key, offer.now⟩ :: seen.entries := AList.entries_insert_of_notMem hkey
    change (after addrText cooldown (allow addrText cooldown seen offer).2 offers).entries = _
    rw [hallow, ih hnodup, hentries]
    · simp
    · intro o ho hmem
      rcases (AList.mem_insert _).mp hmem with heq | hold
      · exact hout (List.mem_map.mpr ⟨o, ho, heq⟩)
      · exact hnew o (List.mem_cons_of_mem _ ho) hold
    · rw [hentries, List.length_cons]
      omega

theorem portOffer_inj {s t i j : Nat} (hi : i < 65536) (hj : j < 65536)
    (h : (portOffer s i).key = (portOffer t j).key) : i = j := by
  have hport := congrArg (fun k => k.port.toNat) h
  simp only [portOffer, UInt16.toNat_ofNat'] at hport
  omega

def fullRun : List Offer := (List.range maxEntries).map (portOffer 0)

theorem nodup_ports (n : Nat) (hn : n ≤ 65536) :
    (((List.range n).map (portOffer 0)).map fun o => o.key).Nodup := by
  rw [List.map_map]
  apply List.nodup_range.map_on
  intro i hi j hj heq
  have hi := List.mem_range.mp hi
  have hj := List.mem_range.mp hj
  exact portOffer_inj (hi.trans_le hn) (hj.trans_le hn) heq

theorem entries_after_fullRun : (after addrText 100 ∅ fullRun).entries =
    (fullRun.map fun o => (⟨o.key, o.now⟩ : Sigma fun _ => Nat)).reverse := by
  have hnodup : (fullRun.map fun o => o.key).Nodup := nodup_ports maxEntries (by decide)
  have hempty : ∀ o ∈ fullRun, o.key ∉ (∅ : OfferGate) := fun _ _ => AList.notMem_empty _
  rw [entries_after_new addrText 100 hnodup hempty (by simp [fullRun])]
  exact List.append_nil _

theorem length_after_fullRun : (after addrText 100 ∅ fullRun).entries.length = maxEntries := by
  rw [entries_after_fullRun]
  simp [fullRun]

theorem time_of_fullRun {e : Sigma fun _ : OfferKey => Nat}
    (he : e ∈ (after addrText 100 ∅ fullRun).entries) : e.2 = 0 := by
  rw [entries_after_fullRun, List.mem_reverse] at he
  obtain ⟨o, ho, rfl⟩ := List.mem_map.mp he
  obtain ⟨i, -, rfl⟩ := List.mem_map.mp ho
  rfl

theorem late_not_mem_fullRun : (portOffer 1 maxEntries).key ∉ after addrText 100 ∅ fullRun := by
  intro hmem
  obtain ⟨e, he, hkey⟩ := List.mem_map.mp (AList.mem_keys.mp hmem)
  rw [entries_after_fullRun, List.mem_reverse] at he
  obtain ⟨o, ho, rfl⟩ := List.mem_map.mp he
  obtain ⟨i, hi, rfl⟩ := List.mem_map.mp ho
  have hi := List.mem_range.mp hi
  have hkey : (portOffer 0 i).key = (portOffer 1 maxEntries).key := hkey
  have heq := portOffer_inj (hi.trans_le (by decide)) (by decide) hkey
  omega

theorem one_lt_jittered (key : OfferKey) : 1 < jittered addrText 100 key := by
  unfold jittered
  dsimp only
  omega

/-- At the ceiling, a new triple makes the table forget more than the oldest quarter of it, though
no window has elapsed. -/
theorem offer_gate_forgets :
    (fullRun ++ [portOffer 1 maxEntries]).Pairwise (fun a b => a.now ≤ b.now) ∧
      ∀ addrText, ¬ForgetsLittle addrText 100 (after addrText 100 ∅ fullRun)
        (portOffer 1 maxEntries) := by
  constructor
  · apply List.pairwise_append.mpr
    refine ⟨?_, List.pairwise_singleton _ _, ?_⟩
    · exact List.pairwise_map.mpr (List.pairwise_of_forall fun _ _ => le_rfl)
    · intro a ha b hb
      obtain ⟨i, -, rfl⟩ := List.mem_map.mp ha
      exact Nat.zero_le _
  · intro addrText hforgets
    have hfull := length_after_fullRun addrText
    have hdue := (forgetsLittle_iff hfull.le).mp hforgets hfull.ge
      (allow_of_new (late_not_mem_fullRun addrText)).1
    have hlength : (after addrText 100 ∅ fullRun).byAge.length = maxEntries :=
      (perm_byAge _).length_eq.trans hfull
    have hplace : 2048 < (after addrText 100 ∅ fullRun).byAge.length := by
      rw [hlength]
      decide
    have hmem := (perm_byAge _).mem_iff.mp (List.getElem_mem hplace)
    -- No entry is due, so that three quarters go, the one at position 2048 among them.
    have hnone : (after addrText 100 ∅ fullRun).entries.countP
        (fun e => jittered addrText 100 (portOffer 1 maxEntries).key ≤ 1 - e.2) = 0 := by
      apply List.countP_eq_zero.mpr
      intro e he
      have hlt := one_lt_jittered addrText (portOffer 1 maxEntries).key
      simp [time_of_fullRun addrText he]
      omega
    have hdropped : (after addrText 100 ∅ fullRun).dropped
        (jittered addrText 100 (portOffer 1 maxEntries).key) 1 = 6144 := by
      unfold dropped
      rw [if_pos hnone, hfull]
      rfl
    have helapsed := hdue 2048 (by rw [hfull]; decide)
      (by change _ < dropped _ _ 1; rw [hdropped]; decide) _ (List.getElem?_eq_getElem hplace)
    have hlt := one_lt_jittered addrText (after addrText 100 ∅ fullRun).byAge[2048].1
    rw [time_of_fullRun addrText hmem] at helapsed
    change _ ≤ 1 - 0 at helapsed
    omega

end OfferGate

end EgressDns
