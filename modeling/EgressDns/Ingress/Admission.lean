import EgressDns.Ingress.Server
import EgressDns.Lib.Maps

/-!
# Which queries were admitted

Every query the resolver gets from a datagram was checked by itself. A query read from a stream
was not: what was checked is its connection, once, when it was accepted. The tables of clients are
bounded along any sequence of checks.
-/

namespace EgressDns

open Lib

namespace Ingress

variable {gov : Governor} {hk : Hickory} {decode : List UInt8 → Option Message}
variable {s t : Ingress gov} {f : Listener → Option Listener} {rejection : Option Rejection}
  {client : IpAddr} {n : Nat} {q : ClientQuery}

theorem withListener_eq_some {i : Nat} (h : s.withListener i f = some t) :
    ∃ l l', s.listeners[i]? = some l ∧ f l = some l' ∧
      t = { s with listeners := s.listeners.set i l' } := by
  obtain ⟨l, hl, hmap⟩ := Option.bind_eq_some_iff.mp h
  obtain ⟨l', hl', rfl⟩ := Option.map_eq_some_iff.mp hmap
  exact ⟨l, l', hl, hl', rfl⟩

theorem admitClient_eq_some {subject v now : Nat}
    (h : s.admitClient subject client v now = some (rejection, t)) :
    ∃ state, s.states[v]? = some state ∧ rejection = (state.admitClient client now).1 ∧
      t = { s with
        states := s.states.set v (state.admitClient client now).2
        decisions := { subject, client, state := v, rejection } :: s.decisions } := by
  obtain ⟨state, hstate, he⟩ := Option.map_eq_some_iff.mp h
  cases he
  exact ⟨state, hstate, rfl, rfl⟩

/-- The client was allowed by the access list and the limiter of the runtime state `v`, for this
very query or connection. -/
def Allowed (s : Ingress gov) (subject : Nat) (client : IpAddr) (v : Nat) : Prop :=
  { subject, client, state := v, rejection := none } ∈ s.decisions

instance (s : Ingress gov) (subject : Nat) (client : IpAddr) (v : Nat) :
    Decidable (s.Allowed subject client v) :=
  inferInstanceAs (Decidable (_ ∈ _))

/-- What was handed to the resolver had been allowed in the state in force when it arrived. -/
def Admitted (s : Ingress gov) (h : Handed) : Prop :=
  s.Allowed h.serial h.query.peer h.query.received

instance (s : Ingress gov) (h : Handed) : Decidable (s.Admitted h) :=
  inferInstanceAs (Decidable (_ ∈ _))

section Frame

variable (n : Nat) (q : ClientQuery)

theorem leave_eq : ∃ listeners,
    s.leave n q = { s with listeners, queries := Function.update s.queries n none } := by
  unfold leave
  dsimp only
  split
  · exact ⟨s.listeners, rfl⟩
  · rename_i i stream _
    cases h : (s.setQuery n none).withListener i fun l => l.serve stream .answered with
    | none => exact ⟨s.listeners, rfl⟩
    | some t =>
      obtain ⟨l, l', _, _, rfl⟩ := withListener_eq_some h
      exact ⟨_, rfl⟩

@[simp] theorem leave_queries :
    (s.leave n q).queries = Function.update s.queries n none := by
  obtain ⟨_, h⟩ := s.leave_eq n q
  rw [h]

@[simp] theorem leave_decisions : (s.leave n q).decisions = s.decisions := by
  obtain ⟨_, h⟩ := s.leave_eq n q
  rw [h]

@[simp] theorem leave_handed : (s.leave n q).handed = s.handed := by
  obtain ⟨_, h⟩ := s.leave_eq n q
  rw [h]

end Frame

def Fair (s : Ingress gov) (n : Nat) (q : ClientQuery) : Prop :=
  q.origin = .datagram ∧
    match q.phase with
    | .spawned | .handed => True
    | .loaded v => v = q.received
    | .admitted => s.Allowed n q.peer q.received

structure AllFair (s : Ingress gov) : Prop where
  queries : ∀ {n q}, s.queries n = some q → s.Fair n q
  handed : ∀ h ∈ s.handed, s.Admitted h

/-- No query is taken from a stream, and a datagram's check reads the state it arrived in. -/
def AdmissionGuard (s : Ingress gov) : IngressLabel → Prop
  | .dispatch .. => False
  | .load n => (s.queries n).all (fun q => q.received = s.inForce) = true
  | _ => True

instance (s : Ingress gov) (l : IngressLabel) : Decidable (AdmissionGuard s l) := by
  cases l <;> unfold AdmissionGuard <;> infer_instance

theorem Fair.mono (h : s.Fair n q) (hd : s.decisions ⊆ t.decisions) : t.Fair n q := by
  refine ⟨h.1, ?_⟩
  have hphase := h.2
  revert hphase
  cases q.phase with
  | admitted => exact fun hin => hd hin
  | _ => exact id

section

variable (h : s.AllFair)
include h

theorem AllFair.mono (hq : t.queries = s.queries) (hh : t.handed = s.handed)
    (hd : s.decisions ⊆ t.decisions) : t.AllFair where
  queries hn := (h.queries (hq ▸ hn)).mono hd
  handed r hr := hd (h.handed r (hh ▸ hr))

theorem AllFair.update {q : Option ClientQuery} (hq : t.queries = Function.update s.queries n q)
    (hh : t.handed = s.handed) (hd : s.decisions ⊆ t.decisions)
    (hn : ∀ q', q = some q' → t.Fair n q') : t.AllFair where
  queries {m q'} hm := by
    rw [hq] at hm
    by_cases heq : m = n
    · subst heq
      rw [Function.update_self] at hm
      exact hn q' hm
    · rw [Function.update_of_ne heq] at hm
      exact (h.queries hm).mono hd
  handed r hr := hd (h.handed r (hh ▸ hr))

theorem AllFair.withListener {i : Nat} (he : s.withListener i f = some t) : t.AllFair := by
  obtain ⟨_, _, _, _, rfl⟩ := withListener_eq_some he
  exact h.mono rfl rfl (List.Subset.refl _)

theorem AllFair.admitClient {subject v now : Nat}
    (he : s.admitClient subject client v now = some (rejection, t)) : t.AllFair := by
  obtain ⟨_, _, _, rfl⟩ := admitClient_eq_some he
  exact h.mono rfl rfl (List.subset_cons_self _ _)

theorem AllFair.leave (n : Nat) (q : ClientQuery) : (s.leave n q).AllFair :=
  h.update (leave_queries n q) (leave_handed n q) (by rw [leave_decisions]; exact fun _ => id) nofun

theorem AllFair.receive (peer : IpAddr) (bytes : List UInt8) : (s.receive peer bytes).AllFair := by
  unfold Ingress.receive
  split
  · exact h
  · refine h.update rfl rfl (List.Subset.refl _) ?_
    intro q' hq'
    cases hq'
    exact ⟨rfl, trivial⟩

theorem AllFair.load (hg : AdmissionGuard s (.load n)) (he : s.load n = some t) : t.AllFair := by
  obtain ⟨q, hq, hstep⟩ := Option.bind_eq_some_iff.mp he
  have hreceived : q.received = s.inForce := by
    simpa [AdmissionGuard, hq] using hg
  split at hstep
  · rename_i hspawned
    cases hstep
    refine h.update rfl rfl (List.Subset.refl _) ?_
    intro q' hq'
    cases hq'
    exact ⟨hspawned.1, hreceived.symm⟩
  · cases hstep

theorem AllFair.check {now : Nat} (he : s.check hk decode n now = some t) : t.AllFair := by
  obtain ⟨q, hq, hstep⟩ := Option.bind_eq_some_iff.mp he
  have hfair := h.queries hq
  split at hstep
  · rename_i v hphase
    have hv : v = q.received := by
      have hloaded := hfair.2
      rw [hphase] at hloaded
      exact hloaded
    obtain ⟨⟨rejection, m⟩, hchecked, rfl⟩ := Option.map_eq_some_iff.mp hstep
    have hm := h.admitClient hchecked
    obtain ⟨state, _, _, rfl⟩ := admitClient_eq_some hchecked
    cases rejection with
    | some rejection => exact (hm.leave n q).mono rfl rfl (List.Subset.refl _)
    | none =>
      refine hm.update rfl rfl (List.Subset.refl _) ?_
      intro q' hq'
      cases hq'
      refine ⟨hfair.1, ?_⟩
      rw [hv]
      exact List.mem_cons_self
  · cases hstep

theorem AllFair.respond (hd : q.origin = .datagram) (ha : s.Allowed n q.peer q.received) :
    (s.respond decode n q).AllFair := by
  unfold Ingress.respond
  split
  · exact (h.leave n q).mono rfl rfl (List.Subset.refl _)
  · split
    · have hset : (s.setQuery n (some { q with phase := .handed })).AllFair := by
        refine h.update rfl rfl (List.Subset.refl _) ?_
        intro q' hq'
        cases hq'
        exact ⟨hd, trivial⟩
      refine ⟨hset.queries, ?_⟩
      intro r hr
      rcases List.mem_cons.mp hr with rfl | hr
      · exact ha
      · exact h.handed r hr
    · exact (h.leave n q).mono rfl rfl (List.Subset.refl _)

theorem AllFair.hand (he : s.hand decode n = some t) : t.AllFair := by
  obtain ⟨q, hq, hstep⟩ := Option.bind_eq_some_iff.mp he
  have hfair := h.queries hq
  split at hstep
  · rename_i hd hphase
    cases hstep
    have ha := hfair.2
    rw [hphase] at ha
    exact h.respond hfair.1 ha
  · rename_i i stream hstream _
    rw [hfair.1] at hstream
    cases hstream
  · cases hstep

end

end Ingress

def lanClient : IpAddr := .v4 0x0a000005

def Governor.sample : Governor where
  Bucket := Nat
  direct quota := quota.burst
  check tokens _ := (tokens != 0, tokens - 1)

def lanConfig : IngressConfig where
  allow := [.v4 ⟨0x0a000000, 8⟩]
  deny := []
  rateLimit :=
    { enabled := true, perClientQps := 1, perClientBurst := 1, globalQps := 0, globalBurst := 0
      clientTableSize := 16 }
  tcp :=
    { maxConnections := 1, maxConnectionsPerClient := 1, maxPipelinedQueries := 2
      maxMessageBytes := 512 }

def decodeSample (_ : List UInt8) : Option Message := some addressQuery

variable {gov : Governor}

def InboundLimiter.trackedClients (l : InboundLimiter gov) : Nat :=
  match l.perClient with
  | some table => table.current.entries.length + table.previous.entries.length
  | none => 0

def InboundLimiter.step (l : InboundLimiter gov) (ask : IpAddr × Nat) :
    Option (InboundLimiter gov) :=
  some (l.check ask.1 ask.2).2

namespace ClientTable

structure Bounded (size : Nat) (table : ClientTable gov) : Prop where
  capacity : table.capacity = size
  current : table.current.entries.length ≤ size
  previous : table.previous.entries.length ≤ size

def RoomFor (table : ClientTable gov) (client : IpAddr) : Prop :=
  client ∈ table.previous → client ∉ table.current →
    table.current.entries.length < table.capacity

instance (table : ClientTable gov) (client : IpAddr) : Decidable (table.RoomFor client) :=
  inferInstanceAs (Decidable (_ → _))

variable {table : ClientTable gov} {size : Nat}

theorem mem_limiterFor (table : ClientTable gov) (client : IpAddr) :
    client ∈ (table.limiterFor client).2.current := by
  unfold limiterFor
  split
  · rename_i l hl
    exact AList.lookup_isSome.mp (by rw [hl]; rfl)
  · split
    · exact (AList.mem_insert _).mpr (.inl rfl)
    · dsimp only
      split
      · exact AList.mem_keys.mpr List.mem_cons_self
      · exact (AList.mem_insert _).mpr (.inl rfl)

theorem Bounded.limiterFor (h : table.Bounded size) (hpos : 0 < size) {client : IpAddr}
    (hroom : table.RoomFor client) : (table.limiterFor client).2.Bounded size := by
  have hcapacity := h.capacity
  unfold ClientTable.limiterFor
  split
  · exact h
  · rename_i hout
    have hnot : client ∉ table.current := AList.lookup_eq_none.mp hout
    split
    · -- A client of the previous generation comes back.
      rename_i l hl
      have hin : client ∈ table.previous := AList.lookup_isSome.mp (by rw [hl]; rfl)
      have hlt := hroom hin hnot
      have hle := Map.length_insert_le table.current client l
      refine ⟨hcapacity, ?_, h.previous⟩
      dsimp only
      omega
    · dsimp only
      split
      · -- The generations rotate.
        exact ⟨hcapacity, hpos, h.current⟩
      · rename_i hfree
        have hle := Map.length_insert_le table.current client (gov.direct table.quota)
        refine ⟨hcapacity, ?_, h.previous⟩
        dsimp only
        omega

theorem Bounded.setBucket (h : table.Bounded size) {client : IpAddr}
    (hmem : client ∈ table.current) (bucket : gov.Bucket) :
    { table with current := table.current.insert client bucket }.Bounded size := by
  refine ⟨h.capacity, ?_, h.previous⟩
  rw [Map.length_insert_of_mem hmem]
  exact h.current

end ClientTable

namespace InboundLimiter

variable {l l' : InboundLimiter gov} {size : Nat}

def Bounded (size : Nat) (l : InboundLimiter gov) : Prop :=
  ∀ table, l.perClient = some table → table.Bounded size

def RoomFor (l : InboundLimiter gov) (ask : IpAddr × Nat) : Prop :=
  ∀ table ∈ l.perClient, table.RoomFor ask.1

instance (l : InboundLimiter gov) (ask : IpAddr × Nat) : Decidable (l.RoomFor ask) :=
  inferInstanceAs (Decidable (∀ table ∈ l.perClient, _))

theorem perClient_checkGlobal (l : InboundLimiter gov) (now : Nat) :
    (l.checkGlobal now).2.perClient = l.perClient := by
  unfold checkGlobal
  split <;> rfl

theorem Bounded.step (h : l.Bounded size) (hpos : 0 < size) {ask : IpAddr × Nat}
    (hroom : l.RoomFor ask) (hstep : l.step ask = some l') : l'.Bounded size := by
  cases hstep
  unfold InboundLimiter.check
  split
  · exact h
  · split
    · intro table htable
      rw [perClient_checkGlobal] at htable
      exact h table htable
    · rename_i table htable
      have hfor := (h table htable).limiterFor hpos (hroom table htable)
      have hnext := hfor.setBucket (table.mem_limiterFor ask.1)
        (gov.check (table.limiterFor ask.1).1 ask.2).2
      dsimp only
      split
      · intro t ht
        rw [perClient_checkGlobal] at ht
        cases ht
        exact hnext
      · intro t ht
        cases ht
        exact hnext

theorem bounded_new (gov : Governor) (cfg : RateLimitConfig) :
    (new gov cfg).Bounded (max cfg.clientTableSize 1) := by
  intro table htable
  unfold new at htable
  split at htable
  · cases htable
  · obtain ⟨quota, _, rfl⟩ := Option.map_eq_some_iff.mp htable
    exact ⟨rfl, Nat.zero_le _, Nat.zero_le _⟩

theorem Bounded.trackedClients (h : l.Bounded size) : l.trackedClients ≤ 2 * size := by
  unfold InboundLimiter.trackedClients
  split
  · rename_i table htable
    have hcurrent := (h table htable).current
    have hprevious := (h table htable).previous
    omega
  · exact Nat.zero_le _

end InboundLimiter

/-- If every client that only the previous generation knows comes back while the current one has
room, both generations together never hold more than twice the configured size. -/
theorem client_table_bounded (gov : Governor) (cfg : RateLimitConfig)
    (hvalid : 0 < cfg.clientTableSize) (asks : List (IpAddr × Nat)) (l : InboundLimiter gov)
    (hroom : Guarded InboundLimiter.step InboundLimiter.RoomFor (.new gov cfg) asks)
    (hrun : run InboundLimiter.step (.new gov cfg) asks = some l) :
    l.trackedClients ≤ 2 * cfg.clientTableSize := by
  have hsize : max cfg.clientTableSize 1 = cfg.clientTableSize := Nat.max_eq_left hvalid
  have hnew := InboundLimiter.bounded_new gov cfg
  rw [hsize] at hnew
  have hl : l.Bounded cfg.clientTableSize :=
    invariant_of_run (fun hi hok hs => hi.step hvalid hok hs) hnew hroom hrun
  exact hl.trackedClients

def smallTable (size : Nat) : RateLimitConfig where
  enabled := true
  perClientQps := 1000
  perClientBurst := 1000
  globalQps := 1000000
  globalBurst := 1000000
  clientTableSize := size

def asksOf (clients : List (BitVec 32)) : List (IpAddr × Nat) := clients.map fun a => (.v4 a, 0)

/-- Three clients in a table of two, the first of which comes back. -/
theorem client_table_bounded_two :
    ∃ l, run InboundLimiter.step (.new .sample (smallTable 2)) (asksOf [1, 2, 3, 1]) = some l ∧
      l.trackedClients ≤ 4 := by
  obtain ⟨l, hl⟩ : ∃ l, run InboundLimiter.step (.new .sample (smallTable 2))
      (asksOf [1, 2, 3, 1]) = some l := ⟨_, rfl⟩
  exact ⟨l, hl, client_table_bounded .sample (smallTable 2) (by decide) _ l (by decide) hl⟩

/-- In a table of one, the client of the previous generation that comes back is held twice, and
beside the one that replaced it. -/
theorem client_table_outgrown :
    (run InboundLimiter.step (.new .sample (smallTable 1)) (asksOf [1, 2, 1])).map
        InboundLimiter.trackedClients = some 3 ∧
    (run InboundLimiter.step (.new .sample (smallTable 1))
        (asksOf [1, 2, 1, 3, 1, 2, 4, 3, 1, 2])).map InboundLimiter.trackedClients = some 7 := by
  decide

end EgressDns
