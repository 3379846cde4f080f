import EgressDns.Upstream.Bootstrap

/-!
# The network monitor

The loop of `tasks/network.rs` with the state of `network/mod.rs` that it publishes to. A poll is
one pass of the loop: the settings it reads, and what sampling the host came to.
-/

namespace EgressDns

structure RawNetworkState where
  defaultIfaceV4 : Option Text := none
  gatewayV4 : Option (BitVec 32) := none
  defaultIfaceV6 : Option Text := none
  gatewayV6 : Option (BitVec 128) := none
  sourceV4 : Option (BitVec 32) := none
  sourceV6 : Option (BitVec 128) := none
  globalAddresses : List Text := []
  deriving DecidableEq

def isLinkLocalV6 (addr : BitVec 128) : Bool := (addr >>> 112) &&& 0xffc0 == 0xfe80

structure NetworkSnapshot where
  generation : Nat
  v4 : FamilyState
  v6 : FamilyState
  raw : RawNetworkState
  publishedUnix : Nat

def NetworkSnapshot.unknown : NetworkSnapshot := ⟨1, .unknown, .unknown, {}, 0⟩

/-- `sample` is `none` if the thread that takes it fails; the two times are read after it. -/
structure Poll where
  enabled : Bool
  debounce : Nat
  sample : Option RawNetworkState
  now : Nat
  nowUnix : Nat

structure NetworkMonitor where
  snapshot : NetworkSnapshot
  pending : Option (UInt64 × Nat)

section Model

variable (addrText : IpAddr → Text)

namespace RawNetworkState

def fingerprint (raw : RawNetworkState) : UInt64 :=
  let texts : List Text :=
    [raw.defaultIfaceV4.getD [45], (raw.gatewayV4.map fun g => addrText (.v4 g)).getD [],
      raw.defaultIfaceV6.getD [45], (raw.gatewayV6.map fun g => addrText (.v6 g)).getD [],
      (raw.sourceV4.map fun g => addrText (.v4 g)).getD [],
      (raw.sourceV6.map fun g => addrText (.v6 g)).getD []]
  fnv1a64 ((texts ++ raw.globalAddresses).flatMap (· ++ [0x1f]))

def v4State (raw : RawNetworkState) : FamilyState :=
  match raw.defaultIfaceV4, raw.sourceV4 with
  | some _, some addr =>
    if isLoopback (.v4 addr) || isUnspecified (.v4 addr) then .unusable else .usable
  | _, _ => .unusable

def v6State (raw : RawNetworkState) : FamilyState :=
  match raw.defaultIfaceV6, raw.sourceV6 with
  | some _, some addr =>
    if isLoopback (.v6 addr) || isUnspecified (.v6 addr) || isLinkLocalV6 addr then .unusable
    else .usable
  | _, _ => .unusable

end RawNetworkState

open RawNetworkState (fingerprint)

def NetworkSnapshot.publish (previous : NetworkSnapshot) (raw : RawNetworkState) (nowUnix : Nat) :
    NetworkSnapshot × Bool :=
  let changed := fingerprint addrText previous.raw != fingerprint addrText raw
  ({ generation := if changed then min (previous.generation + 1) (2 ^ 64 - 1)
       else previous.generation
     v4 := raw.v4State
     v6 := raw.v6State
     raw
     publishedUnix := if changed then nowUnix else previous.publishedUnix }, changed)

namespace NetworkMonitor

def poll (m : NetworkMonitor) (p : Poll) : NetworkMonitor :=
  if p.enabled then
    match p.sample with
    | none => m
    | some raw =>
      let fp := fingerprint addrText raw
      if fingerprint addrText m.snapshot.raw = fp then { m with pending := none }
      else
        match m.pending with
        | some (seen, first) =>
          if seen = fp then
            if p.debounce ≤ p.now - first then
              ⟨(m.snapshot.publish addrText raw p.nowUnix).1, none⟩
            else m
          else { m with pending := some (fp, p.now) }
        | none => { m with pending := some (fp, p.now) }
  else { m with pending := none }

def after (polls : List Poll) : NetworkMonitor := polls.foldl (poll addrText) ⟨.unknown, none⟩

end NetworkMonitor

end Model

section Debounce

open RawNetworkState (fingerprint)
open NetworkMonitor (after)

variable (addrText : IpAddr → Text)

def Poll.Shows (fp : UInt64) (p : Poll) : Prop :=
  p.enabled = true ∧ ∃ raw, p.sample = some raw ∧ fingerprint addrText raw = fp

/-- The fingerprint was sampled at `since` and in every sample after that, and the monitor was on
all the time. -/
def SeenSince (polls : List Poll) (fp : UInt64) (since : Nat) : Prop :=
  ∃ before first middle, polls = before ++ first :: middle ∧ first.Shows addrText fp ∧
    first.now = since ∧
    ∀ p ∈ middle, p.enabled = true ∧ ∀ raw, p.sample = some raw → fingerprint addrText raw = fp

/-- A pass changes the snapshot only by publishing what it sampled. The generation has 64 bits, which
as many passes of half a second each do not use up. -/
structure Publishes (polls : List Poll) (p : Poll) (old new : NetworkSnapshot) : Prop where
  sampled : p.enabled = true ∧ p.sample = some new.raw
  changed : fingerprint addrText old.raw ≠ fingerprint addrText new.raw
  stable : ∃ since, SeenSince addrText polls (fingerprint addrText new.raw) since ∧
    p.debounce ≤ p.now - since
  generation : polls.length + 1 < 2 ^ 64 → new.generation = old.generation + 1

inductive Polled (m : NetworkMonitor) (p : Poll) : NetworkMonitor → Prop where
  | reset : Polled m p { m with pending := none }
  | failed (hon : p.enabled = true) (hnone : p.sample = none) : Polled m p m
  | waiting {raw : RawNetworkState} {first : Nat} (hon : p.enabled = true)
      (hraw : p.sample = some raw) (hseen : m.pending = some (fingerprint addrText raw, first)) :
      Polled m p m
  | noticed {raw : RawNetworkState} (hon : p.enabled = true) (hraw : p.sample = some raw)
      (hnew : fingerprint addrText m.snapshot.raw ≠ fingerprint addrText raw) :
      Polled m p { m with pending := some (fingerprint addrText raw, p.now) }
  | published {raw : RawNetworkState} {first : Nat} (hon : p.enabled = true)
      (hraw : p.sample = some raw)
      (hnew : fingerprint addrText m.snapshot.raw ≠ fingerprint addrText raw)
      (hseen : m.pending = some (fingerprint addrText raw, first))
      (hspan : p.debounce ≤ p.now - first) :
      Polled m p ⟨(m.snapshot.publish addrText raw p.nowUnix).1, none⟩

variable {addrText} {polls : List Poll} {p : Poll} {m : NetworkMonitor} {fp : UInt64} {since : Nat}

theorem SeenSince.snoc (h : SeenSince addrText polls fp since) (hon : p.enabled = true)
    (hp : ∀ raw, p.sample = some raw → fingerprint addrText raw = fp) :
    SeenSince addrText (polls ++ [p]) fp since := by
  obtain ⟨before, first, middle, rfl, hfirst, hsince, hmiddle⟩ := h
  refine ⟨before, first, middle ++ [p], by simp, hfirst, hsince, ?_⟩
  intro q hq
  rcases List.mem_append.mp hq with hq | hq
  · exact hmiddle q hq
  · cases List.mem_singleton.mp hq
    exact ⟨hon, hp⟩

theorem polled (m : NetworkMonitor) (p : Poll) : Polled addrText m p (m.poll addrText p) := by
  unfold NetworkMonitor.poll
  split_ifs with hon
  · split
    · exact .failed hon ‹_›
    · rename_i raw hraw
      dsimp only
      split_ifs with hsame
      · exact .reset
      · split
        · rename_i seen first hseen
          split_ifs with hfp hspan
          · subst hfp
            exact .published hon hraw hsame hseen hspan
          · subst hfp
            exact .waiting hon hraw hseen
          · exact .noticed hon hraw hsame
        · exact .noticed hon hraw hsame
  · exact .reset

theorem after_snoc (polls : List Poll) (p : Poll) :
    after addrText (polls ++ [p]) = (after addrText polls).poll addrText p := by
  rw [after, List.foldl_append]
  rfl

theorem pending_seen (h : (after addrText polls).pending = some (fp, since)) :
    SeenSince addrText polls fp since := by
  induction polls using List.reverseRecOn generalizing fp since with
  | nil => cases h
  | append_singleton polls p ih =>
    rw [after_snoc] at h
    generalize hq : (after addrText polls).poll addrText p = q at h
    cases hq ▸ polled (after addrText polls) p with
    | reset => cases h
    | failed hon hnone =>
      exact (ih h).snoc hon fun raw hraw => by cases hnone.symm.trans hraw
    | waiting hon hraw hseen =>
      cases h.symm.trans hseen
      exact (ih h).snoc hon fun raw' hraw' => by cases hraw.symm.trans hraw'; rfl
    | noticed hon hraw =>
      cases h
      exact ⟨polls, p, [], rfl, ⟨hon, _, hraw, rfl⟩, rfl, nofun⟩
    | published => cases h

/-- Nothing is published in the first pass. -/
theorem generation_le (polls : List Poll) :
    (after addrText polls).snapshot.generation ≤ max 1 polls.length := by
  induction polls using List.reverseRecOn with
  | nil => exact le_rfl
  | append_singleton polls p ih =>
    rw [after_snoc, List.length_append, List.length_singleton]
    generalize hq : (after addrText polls).poll addrText p = q
    cases hq ▸ polled (after addrText polls) p with
    | published hon hraw hnew hseen hspan =>
      obtain ⟨before, first, middle, rfl, -⟩ := pending_seen hseen
      simp only [NetworkSnapshot.publish, bne_iff_ne, ne_eq, hnew, not_false_eq_true, if_true,
        List.length_append, List.length_cons] at ih ⊢
      omega
    | _ => exact ih.trans (by omega)

theorem publishes_or_same (polls : List Poll) (p : Poll) :
    (after addrText (polls ++ [p])).snapshot = (after addrText polls).snapshot ∨
    Publishes addrText polls p (after addrText polls).snapshot
      (after addrText (polls ++ [p])).snapshot := by
  rw [after_snoc]
  generalize hq : (after addrText polls).poll addrText p = q
  cases hq ▸ polled (after addrText polls) p with
  | published hon hraw hnew hseen hspan =>
    refine .inr ⟨⟨hon, hraw⟩, hnew, ⟨_, pending_seen hseen, hspan⟩, ?_⟩
    have hle : (after addrText polls).snapshot.generation ≤ max 1 polls.length := generation_le polls
    simp only [NetworkSnapshot.publish, bne_iff_ne, ne_eq, hnew, not_false_eq_true, if_true]
    omega
  | _ => exact .inl rfl

theorem poll_of_shown (h : p.Shows addrText (fingerprint addrText m.snapshot.raw)) :
    m.poll addrText p = { m with pending := none } := by
  obtain ⟨hon, raw, hraw, hfp⟩ := h
  simp [NetworkMonitor.poll, hon, hraw, hfp]

/-- All samples lie in a span shorter than the debounce of each, and so does what is pending. -/
theorem foldl_poll_flap {flap : List Poll} {t₀ t₁ : Nat}
    (hpending : ∀ x ∈ m.pending, t₀ ≤ x.2)
    (hflap : ∀ q ∈ flap, q.sample ≠ none → t₀ ≤ q.now ∧ q.now ≤ t₁ ∧ t₁ - t₀ < q.debounce) :
    (flap.foldl (NetworkMonitor.poll addrText) m).snapshot = m.snapshot := by
  induction flap generalizing m with
  | nil => rfl
  | cons q flap ih =>
    have hq := hflap q List.mem_cons_self
    rw [List.foldl_cons]
    generalize hn : m.poll addrText q = n
    have hstep : n.snapshot = m.snapshot ∧ ∀ x ∈ n.pending, t₀ ≤ x.2 := by
      cases hn ▸ polled m q with
      | reset => exact ⟨rfl, nofun⟩
      | failed | waiting => exact ⟨rfl, hpending⟩
      | noticed hon hraw hnew =>
        refine ⟨rfl, ?_⟩
        rintro x ⟨⟩
        exact (hq (by simp [hraw])).1
      | published hon hraw hnew hseen hspan =>
        have hfirst := hpending _ hseen
        have hbounds := hq (by simp [hraw])
        dsimp only at hfirst
        omega
    rw [ih hstep.2 fun q hq => hflap q (List.mem_cons_of_mem _ hq), hstep.1]

/-- A snapshot is published only when the debounce is over, with the next generation; and what comes
and goes between two samples of the published path within less than the debounce is not
published. -/
theorem network_debounced (addrText : IpAddr → Text) (polls : List Poll) (p : Poll) :
    ((after addrText (polls ++ [p])).snapshot = (after addrText polls).snapshot ∨
      Publishes addrText polls p (after addrText polls).snapshot
        (after addrText (polls ++ [p])).snapshot) ∧
    ∀ (flap : List Poll) (back : Poll) (t₀ t₁ : Nat),
      p.Shows addrText (fingerprint addrText (after addrText polls).snapshot.raw) →
      (∀ q ∈ flap, q.sample ≠ none → t₀ ≤ q.now ∧ q.now ≤ t₁ ∧ t₁ - t₀ < q.debounce) →
      back.Shows addrText (fingerprint addrText (after addrText polls).snapshot.raw) →
      (after addrText (polls ++ [p] ++ flap ++ [back])).snapshot =
        (after addrText polls).snapshot := by
  refine ⟨publishes_or_same polls p, ?_⟩
  intro flap back t₀ t₁ hp hflap hback
  have hkept : (after addrText (polls ++ [p] ++ flap)).snapshot =
      (after addrText polls).snapshot := by
    rw [after, List.foldl_append]
    change (flap.foldl _ (after addrText (polls ++ [p]))).snapshot = _
    rw [after_snoc, poll_of_shown hp]
    exact foldl_poll_flap nofun hflap
  rw [after_snoc, poll_of_shown (hkept ▸ hback)]
  exact hkept

end Debounce

end EgressDns
