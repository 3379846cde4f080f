import EgressDns.Ranking.Ordering
import EgressDns.Ranking.Prior
import EgressDns.Resolver.Service

/-!
# Observations that carry no evidence

Answers are ordered and augmented by the HTTPS and the generic series of port 443. An observation
that is neither a success nor a penalty leaves them alone only if it goes to another series; one of
theirs it ages, refreshes, counts or hides.
-/

namespace EgressDns

open Lib

def ProbeKey.ReadFor (name : Text) (key : ProbeKey) : Prop :=
  key = .https key.addr 443 name ∨ key = .generic key.addr 443

def ProbeKey.IsRead (key : ProbeKey) : Prop := ∃ name, key.ReadFor name

section Answers

variable {P : Type} (math : FloatMath)

def Stores.orderFor (st : Stores P) (name : Text) (m : Moment) (addrs : List IpAddr) :
    List IpAddr :=
  (orderAddresses addrs (readingsOf math m.evidence m.now (st.quality.snapshotFor 443 name))
    m.evidence.toRankingConfig m.exploreSeed).1

def Stores.addedFor (st : Stores P) (name : Text) (m : Moment) (ctx : AnswerContext)
    (rtype : RecordType) (existing : List IpAddr) : List IpAddr :=
  let verified := st.validations.verifiedFor name (rtype = .a) ctx.augment.minValidations
    m.validationTtl m.now (st.cost math name m)
  let ctx := { ctx with
    quality := readingsOf math m.evidence m.now (st.quality.snapshotFor 443 name), verified }
  chooseAdded ctx rtype existing verified []

structure SameAnswers (st' st : Stores P) : Prop where
  order : ∀ name m addrs, st'.orderFor math name m addrs = st.orderFor math name m addrs
  added : ∀ name m ctx rtype existing,
    st'.addedFor math name m ctx rtype existing = st.addedFor math name m ctx rtype existing

end Answers

section Histories

variable {P : Type}

def QualityStore.after (math : FloatMath) (cfg : EvidenceConfig) (st : QualityStore P)
    (events : List (QualityEvent P)) : QualityStore P :=
  events.foldl (QualityStore.apply math cfg) st

/-- Neither a success nor a penalty. -/
structure Observation.Quiet (o : Observation P) : Prop where
  failed : o.cls ≠ .success
  spared : o.cls.isPenalising = false

/-- The first history is the second one with quiet observations of series in `K` put in. -/
inductive Padded (K : ProbeKey → Prop) :
    List (QualityEvent P) → List (QualityEvent P) → Prop where
  | nil : Padded K [] []
  | same (e : QualityEvent P) {long short : List (QualityEvent P)} :
    Padded K long short → Padded K (e :: long) (e :: short)
  | extra {o : Observation P} {long short : List (QualityEvent P)} :
    o.Quiet → K o.key → Padded K long short → Padded K (.record o :: long) short

/-- The key of an observation has a place in the store, or there is one left. -/
def HasRoom (st : QualityStore P) : QualityEvent P → Prop
  | .record o =>
    if o.key ∈ st.entries then st.entries.entries.length ≤ st.capacity
    else st.entries.entries.length < st.capacity
  | .change .. => True

/-- Quiet observations of series in `K`, put into a history that leaves room for them, change no
answer. -/
def Unnoticed (math : FloatMath) (K : ProbeKey → Prop) : Prop :=
  ∀ (P : Type) (cfg : EvidenceConfig) (st : Stores P) (long short : List (QualityEvent P)),
    Padded K long short →
    Guarded (QualityStore.step math cfg) HasRoom st.quality long →
    SameAnswers math { st with quality := st.quality.after math cfg long }
      { st with quality := st.quality.after math cfg short }

end Histories

section Unread

variable {P : Type} {math : FloatMath} {cfg : EvidenceConfig} {st st' : QualityStore P}
  {o : Observation P}

/-- Two stores that differ in series no answer reads; the first has all keys of the second. -/
structure SameWhereRead (st' st : QualityStore P) : Prop where
  read : ∀ key, key.IsRead → st'.entries.lookup key = st.entries.lookup key
  keys : ∀ key, key ∈ st.entries → key ∈ st'.entries
  capacity : st'.capacity = st.capacity

theorem makeRoom_of_hasRoom (h : HasRoom st (.record o)) : st.makeRoom o.key = st.entries := by
  unfold HasRoom at h
  unfold QualityStore.makeRoom
  by_cases hmem : o.key ∈ st.entries
  · simp [hmem]
  · simp only [hmem, if_false] at h
    have hnot : ¬ st.capacity ≤ st.entries.entries.length := by omega
    simp [hnot]

theorem SameWhereRead.hasRoom (h : SameWhereRead st' st) {e : QualityEvent P}
    (hroom : HasRoom st' e) : HasRoom st e := by
  cases e with
  | change => exact trivial
  | record o =>
    have hle := Map.length_le_of_keys h.keys
    have hcapacity := h.capacity
    unfold HasRoom at hroom ⊢
    dsimp only at hroom ⊢
    by_cases hin : o.key ∈ st.entries
    · rw [if_pos hin]
      rw [if_pos (h.keys o.key hin)] at hroom
      omega
    · rw [if_neg hin]
      by_cases hin' : o.key ∈ st'.entries
      · have hlt := Map.length_lt_of_keys h.keys hin' hin
        rw [if_pos hin'] at hroom
        omega
      · rw [if_neg hin'] at hroom
        omega

theorem mem_observe (hroom : HasRoom st (.record o)) {key : ProbeKey} :
    key ∈ (st.observe math cfg o).entries ↔ key = o.key ∨ key ∈ st.entries := by
  rw [← makeRoom_of_hasRoom hroom]
  exact AList.mem_insert _

theorem lookup_observe_ne (hroom : HasRoom st (.record o)) {key : ProbeKey} (hne : key ≠ o.key) :
    (st.observe math cfg o).entries.lookup key = st.entries.lookup key := by
  rw [← makeRoom_of_hasRoom hroom]
  exact AList.lookup_insert_ne hne

theorem SameWhereRead.observe (h : SameWhereRead st' st) (hroom : HasRoom st' (.record o)) :
    SameWhereRead (st'.observe math cfg o) (st.observe math cfg o) := by
  have hroom' := h.hasRoom hroom
  refine ⟨?_, ?_, h.capacity⟩
  · intro key hread
    by_cases hkey : key = o.key
    · subst hkey
      have htarget : st'.target cfg o = st.target cfg o := by
        unfold QualityStore.target QualityStore.seriesFor
        rw [makeRoom_of_hasRoom hroom, makeRoom_of_hasRoom hroom', h.read o.key hread]
      rw [lookup_observe_self, lookup_observe_self, htarget]
    · rw [lookup_observe_ne hroom hkey, lookup_observe_ne hroom' hkey]
      exact h.read key hread
  · intro key hkey
    rw [mem_observe hroom'] at hkey
    rw [mem_observe hroom]
    exact hkey.imp id (h.keys key)

theorem SameWhereRead.extra (h : SameWhereRead st' st) (hroom : HasRoom st' (.record o))
    (hunread : ¬ o.key.IsRead) : SameWhereRead (st'.observe math cfg o) st := by
  refine ⟨?_, ?_, h.capacity⟩
  · intro key hread
    have hkey : key ≠ o.key := by
      rintro rfl
      exact hunread hread
    rw [lookup_observe_ne hroom hkey]
    exact h.read key hread
  · intro key hkey
    rw [mem_observe hroom]
    exact .inr (h.keys key hkey)

theorem SameWhereRead.change (h : SameWhereRead st' st) (generation : Nat) (factor : ℚ) :
    SameWhereRead (st'.onGenerationChange generation factor)
      (st.onGenerationChange generation factor) := by
  refine ⟨?_, ?_, h.capacity⟩
  · intro key hread
    unfold QualityStore.onGenerationChange
    rw [Map.lookup_mapValues, Map.lookup_mapValues, h.read key hread]
  · intro key hkey
    exact Map.mem_mapValues.mpr (h.keys key (Map.mem_mapValues.mp hkey))

theorem SameWhereRead.after {K : ProbeKey → Prop} (hK : ∀ key, K key → ¬ key.IsRead)
    {long short : List (QualityEvent P)} (hpad : Padded K long short) (h : SameWhereRead st' st)
    (hroom : Guarded (QualityStore.step math cfg) HasRoom st' long) :
    SameWhereRead (st'.after math cfg long) (st.after math cfg short) := by
  induction hpad generalizing st' st with
  | nil => exact h
  | same e _ ih =>
    have hnext : SameWhereRead (st'.apply math cfg e) (st.apply math cfg e) := by
      cases e with
      | record o => exact h.observe hroom.1
      | change generation factor => exact h.change generation factor
    exact ih hnext (hroom.2 _ rfl)
  | extra _ hkey _ ih => exact ih (h.extra hroom.1 (hK _ hkey)) (hroom.2 _ rfl)

theorem sameAnswers_of_sameWhereRead {stores : Stores P} (h : SameWhereRead st' st) :
    SameAnswers math { stores with quality := st' } { stores with quality := st } := by
  have hhttps (name : Text) (addr : IpAddr) : st'.entries.lookup (.https addr 443 name) =
      st.entries.lookup (.https addr 443 name) := h.read _ ⟨name, .inl rfl⟩
  have hgeneric (addr : IpAddr) : st'.entries.lookup (.generic addr 443) =
      st.entries.lookup (.generic addr 443) := h.read _ ⟨[], .inr rfl⟩
  have hsnapshot (name : Text) : st'.snapshotFor 443 name = st.snapshotFor 443 name := by
    funext addr
    unfold QualityStore.snapshotFor
    rw [hhttps, hgeneric]
  have hcost (name : Text) (m : Moment) : Stores.cost math { stores with quality := st' } name m =
      Stores.cost math { stores with quality := st } name m := by
    funext addr
    unfold Stores.cost
    rw [hhttps]
  constructor
  · intro name m addrs
    unfold Stores.orderFor
    rw [hsnapshot]
  · intro name m ctx rtype existing
    unfold Stores.addedFor
    rw [hsnapshot, hcost]

end Unread

section Noticed

variable {P : Type} {math : FloatMath} {cfg : EvidenceConfig} {st : QualityStore P}
  {o : Observation P}

theorem hasRoom_of_lt (h : st.entries.entries.length < st.capacity) (e : QualityEvent P) :
    HasRoom st e := by
  cases e with
  | change => exact trivial
  | record o =>
    unfold HasRoom
    dsimp only
    split
    · exact h.le
    · exact h

theorem length_apply_le {e : QualityEvent P} (hroom : HasRoom st e) :
    (st.apply math cfg e).entries.entries.length ≤ st.entries.entries.length + 1 := by
  cases e with
  | record o =>
    rw [← makeRoom_of_hasRoom hroom]
    exact Map.length_insert_le _ _ _
  | change generation factor =>
    exact (List.length_map _).le.trans (Nat.le_succ _)

theorem hasRoom_throughout {events : List (QualityEvent P)}
    (h : st.entries.entries.length + events.length ≤ st.capacity) :
    Guarded (QualityStore.step math cfg) HasRoom st events := by
  induction events generalizing st with
  | nil => exact trivial
  | cons e events ih =>
    rw [List.length_cons] at h
    have hroom : HasRoom st e := hasRoom_of_lt (by omega) e
    refine ⟨hroom, ?_⟩
    intro t ht
    cases ht
    apply ih
    have hlength : (st.apply math cfg e).entries.entries.length ≤ st.entries.entries.length + 1 :=
      length_apply_le hroom
    have hcapacity : (st.apply math cfg e).capacity = st.capacity := by
      cases e <;> rfl
    omega

def blocked (key : ProbeKey) : Observation Unit where
  key := key
  cls := .policyBlocked
  latency := none
  generation := 0
  now := 0
  probe := ()

def spareAddrs : List IpAddr := [.v4 0x68100002, .v4 0x68100003]

theorem exists_candidate_ne (addr : IpAddr) : ∃ other ∈ spareAddrs, other ≠ addr := by
  by_cases h : addr = .v4 0x68100002
  · exact ⟨.v4 0x68100003, by decide, by rw [h]; decide⟩
  · exact ⟨.v4 0x68100002, by decide, fun heq => h heq.symm⟩

def validatedStores (name : Text) (addr : IpAddr) (quality : QualityStore Unit) : Stores Unit where
  quality := quality
  validations :=
    { Validations.new 16 with
      domains := (∅ : Map (List UInt8 × IpAddr) (DomainValidation Unit)).insert
        (trimEndDots name, addr) ⟨3, 0, some 0, some 0, []⟩ }
  services := .new 16

def shippedMoment : Moment where
  now := 0
  nowUnix := 0
  snapshot := none
  modeOverride := none
  recentChange := false
  exploreSeed := 0
  evidence := .shipped
  validationTtl := 1

/-- Asks a candidate for nothing but its advantage in cost. -/
def marginContext (minAdvantage : ℚ) : AnswerContext :=
  { measuredContext with
    augment := { maxAdded := 1, minValidations := 0, minAdvantage, minSamples := 0 } }

theorem verifiedFor_validated {st : QualityStore Unit} {name : Text} {other : IpAddr}
    (hv4 : other.isIpv4 = true) (hnone : st.entries.lookup (.https other 443 name) = none) :
    (validatedStores name other st).validations.verifiedFor name true 0 1 0
      ((validatedStores name other st).cost math name shippedMoment) =
      [⟨other, 3, EvidenceConfig.shipped.neutralCostMs, 0, true⟩] := by
  have hcost : (validatedStores name other st).cost math name shippedMoment other =
      (EvidenceConfig.shipped.neutralCostMs, 0) := by
    unfold Stores.cost
    rw [show (validatedStores name other st).quality = st from rfl, hnone]
    rfl
  unfold Validations.verifiedFor
  rw [show (validatedStores name other st).validations.domains.entries =
    [⟨(trimEndDots name, other), ⟨3, 0, some 0, some 0, []⟩⟩] from rfl]
  simp [hv4, hcost, DomainValidation.isFresh]

/-- A candidate without a series is added unless the address in the answer has one that leaves it
too little advantage, with evidence or without. -/
theorem addedFor_candidate {st : QualityStore Unit} {name : Text} {addr other : IpAddr}
    (hother : other ∈ spareAddrs) (hne : other ≠ addr)
    (hnone : st.entries.lookup (.https other 443 name) = none) (margin : ℚ) :
    (validatedStores name other st).addedFor math name shippedMoment (marginContext margin) .a
        [addr] =
      if ∀ s ∈ st.snapshotFor 443 name addr,
        margin ≤ (s.expectedCost math .shipped 0 - EvidenceConfig.shipped.neutralCostMs) /
          max (s.expectedCost math .shipped 0) 1
      then [other] else [] := by
  have hfacts : ∀ a ∈ spareAddrs, a.isIpv4 = true ∧ classifyAddr a = none ∧
      (measuredContext.snapshot.map fun s => s.contains a) = some true := by decide
  obtain ⟨hv4, hordinary, howned⟩ := hfacts other hother
  let v : VerifiedCandidate := ⟨other, 3, EvidenceConfig.shipped.neutralCostMs, 0, true⟩
  let ctx := { marginContext margin with
    quality := readingsOf math .shipped 0 (st.snapshotFor 443 name), verified := [v] }
  have hadded : (validatedStores name other st).addedFor math name shippedMoment
      (marginContext margin) .a [addr] = chooseAdded ctx .a [addr] [v] [] := by
    simp only [ctx, v, ← @verifiedFor_validated math _ _ _ hv4 hnone]
    rfl
  rw [hadded, chooseAdded, if_neg (by simp [ctx, marginContext])]
  refine if_congr ?_ rfl rfl
  cases other with
  | v6 => cases hv4
  | v4 bits =>
    cases hs : st.snapshotFor 443 name addr with
    | none => simp [ctx, v, admits, marginContext, bestOriginalCost, readingsOf, hs, hordinary,
        howned, hne]
    | some s =>
      set cost := s.expectedCost math .shipped 0 with hcost
      by_cases hle : margin ≤ (cost - EvidenceConfig.shipped.neutralCostMs) / max cost 1 <;>
        simp [ctx, v, admits, marginContext, bestOriginalCost, readingsOf, QualityStats.reading,
          hs, hordinary, howned, hne, ← hcost, hle]

theorem noticed_of_isRead {K : ProbeKey → Prop} {key : ProbeKey} (hkey : K key)
    (hread : key.IsRead) : ¬ Unnoticed math K := by
  intro hsame
  obtain ⟨name, hname⟩ := hread
  obtain ⟨other, hother, hne⟩ := exists_candidate_ne key.addr
  let st := (QualityStore.new 16).observe math .shipped (blocked key)
  have hroom : Guarded (QualityStore.step math .shipped) HasRoom (QualityStore.new 16)
      [.record (blocked key)] := hasRoom_throughout (by change 0 + 1 ≤ 16; omega)
  have hothers (k : ProbeKey) (hk : k ≠ key) : st.entries.lookup k = none :=
    (lookup_observe_ne hroom.1 hk).trans (AList.lookup_empty k)
  have hcandidate : st.entries.lookup (.https other 443 name) = none :=
    hothers _ fun heq => hne (congrArg ProbeKey.addr heq)
  obtain ⟨s, hs⟩ : ∃ s, st.snapshotFor 443 name key.addr = some s := by
    obtain ⟨s, hself⟩ : ∃ s, st.entries.lookup key = some s := ⟨_, AList.lookup_insert _⟩
    refine ⟨s, ?_⟩
    unfold QualityStore.snapshotFor
    rcases hname with hhttps | hgeneric
    · rw [← hhttps, hself]
    · rw [hothers (.https key.addr 443 name) (by rw [hgeneric]; rintro ⟨⟩), ← hgeneric, hself]
  let margin := (s.expectedCost math .shipped 0 - EvidenceConfig.shipped.neutralCostMs) /
    max (s.expectedCost math .shipped 0) 1 + 1
  have hadded := (hsame Unit .shipped (validatedStores name other (.new 16)) _ _
    (.extra ⟨by rintro ⟨⟩, rfl⟩ hkey .nil) hroom).added name shippedMoment (marginContext margin) .a
      [key.addr]
  have hwith : (validatedStores name other st).addedFor math name shippedMoment
      (marginContext margin) .a [key.addr] = _ := addedFor_candidate hother hne hcandidate margin
  have hwithout : (validatedStores name other (.new 16)).addedFor math name shippedMoment
      (marginContext margin) .a [key.addr] = _ :=
    addedFor_candidate hother hne (AList.lookup_empty _) margin
  rw [hs, if_neg (by simp [margin])] at hwith
  rw [if_pos (by rintro s ⟨⟩)] at hwithout
  exact List.cons_ne_nil _ _ (hwithout.symm.trans (hadded.symm.trans hwith))

end Noticed

/-- Quiet observations go unnoticed just when answers read none of their series. -/
theorem quiet_observations_unnoticed_iff (math : FloatMath) (K : ProbeKey → Prop) :
    Unnoticed math K ↔ ∀ key, K key → ¬ key.IsRead := by
  constructor
  · intro h key hkey hread
    exact noticed_of_isRead hkey hread h
  · intro hK P cfg st long short hpad hroom
    have hrefl : SameWhereRead st.quality st.quality := ⟨fun _ _ => rfl, fun _ hkey => hkey, rfl⟩
    exact sameAnswers_of_sameWhereRead (hrefl.after hK hpad hroom)

theorem padded_append {P : Type} {K : ProbeKey → Prop} (short : List (QualityEvent P))
    {extras : List (Observation P)} (h : ∀ o ∈ extras, o.Quiet ∧ K o.key) :
    Padded K (short ++ extras.map .record) short := by
  induction short with
  | cons e short ih => exact .same e ih
  | nil =>
    induction extras with
    | nil => exact .nil
    | cons o extras ih =>
      obtain ⟨hquiet, hkey⟩ := h o List.mem_cons_self
      exact .extra hquiet hkey (ih fun o ho => h o (List.mem_cons_of_mem _ ho))

def measurement (key : ProbeKey) (cls : ObservationClass) (ms : Nat) : Observation Unit where
  key := key
  cls := cls
  latency := some (ms * 10 ^ 6)
  generation := 1
  now := 0
  probe := ()

/-- A slow and a fast address, and a candidate that is one sample short. -/
def measuredHistory : List (QualityEvent Unit) :=
  List.replicate 3 (QualityEvent.record (measurement (.generic (.v4 0x68100001) 443) .success 200)) ++
    List.replicate 3 (QualityEvent.record (measurement (.generic (.v4 0x68100002) 443) .success 10)) ++
    List.replicate 7
      (QualityEvent.record (measurement (.https (.v4 0x68100003) 443 [97]) .success 10))

def historyStores (events : List (QualityEvent Unit)) : Stores Unit :=
  validatedStores [97] (.v4 0x68100003) ((QualityStore.new 16).after .rounded .shipped events)

/-- A blocked probe of the fast address and an ambiguous one of the candidate. -/
def quietExtras : List (Observation Unit) :=
  [measurement (.https (.v4 0x68100002) 443 [97]) .policyBlocked 0,
    measurement (.https (.v4 0x68100003) 443 [97]) .ambiguousFailure 0]

/-- The blocked probe hides what was measured of the fast address, and the ambiguous one counts as
the sample that the candidate lacked. -/
theorem quiet_observations_noticed :
    Padded (fun _ => True) (measuredHistory ++ quietExtras.map .record) measuredHistory ∧
    Guarded (QualityStore.step .rounded .shipped) HasRoom (QualityStore.new 16)
      (measuredHistory ++ quietExtras.map .record) ∧
    (historyStores measuredHistory).orderFor .rounded [97] shippedMoment
        [.v4 0x68100001, .v4 0x68100002] = [.v4 0x68100002, .v4 0x68100001] ∧
    (historyStores (measuredHistory ++ quietExtras.map .record)).orderFor .rounded [97]
        shippedMoment [.v4 0x68100001, .v4 0x68100002] = [.v4 0x68100001, .v4 0x68100002] ∧
    (historyStores measuredHistory).addedFor .rounded [97] shippedMoment measuredContext .a
        [.v4 0x68100001] = [] ∧
    (historyStores (measuredHistory ++ quietExtras.map .record)).addedFor .rounded [97]
        shippedMoment measuredContext .a [.v4 0x68100001] = [.v4 0x68100003] := by
  refine ⟨padded_append _ ?_, hasRoom_throughout (by decide), ?_⟩
  · intro o ho
    rcases List.mem_pair.mp ho with rfl | rfl
    · exact ⟨⟨by decide, rfl⟩, trivial⟩
    · exact ⟨⟨by decide, rfl⟩, trivial⟩
  · decide +kernel

end EgressDns
