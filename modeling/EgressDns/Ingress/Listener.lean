import EgressDns.Ingress.Admit
import EgressDns.Lib.Maps

/-!
# One TCP listener

The books of `serve_tcp`: the connection semaphore and the per-client counters that each listener
keeps for itself, the step its accept loop is at, and its connections. Both ceilings are those of
the configuration the listener started with, and hold for its own connections.
-/

namespace EgressDns

open Lib

/-- A frame that was read and waits for a pipeline permit, with the runtime state that was in force
when it was read. -/
structure Frame where
  bytes : List UInt8
  received : Nat
  deriving DecidableEq, Repr

/-- A connection is live until `serve_tcp_connection` returns; then its counter goes down, and last
its permit comes back. The settings of a connection are read when it starts. -/
inductive StreamPhase where
  | starting
  | reading (cfg : TcpConfig) (outstanding : Nat) (pending : Option Frame)
  | closed
  | uncounted
  deriving DecidableEq, Repr

def StreamPhase.isLive : StreamPhase → Bool
  | starting | reading .. => true
  | closed | uncounted => false

structure Stream where
  serial : Nat
  peer : IpAddr
  phase : StreamPhase
  deriving DecidableEq, Repr

def Stream.client (st : Stream) : Option IpAddr :=
  if st.phase = .uncounted then none else some st.peer

/-- Where the accept loop is with a connection: the admission check reads the runtime state in one
step and decides in another. -/
inductive AcceptPhase where
  | listening
  | permitted (serial : Nat) (peer : IpAddr)
  | loaded (serial : Nat) (peer : IpAddr) (state : Nat)
  | admitted (serial : Nat) (peer : IpAddr)
  deriving DecidableEq, Repr

def AcceptPhase.held : AcceptPhase → Nat
  | listening => 0
  | _ => 1

structure Accounts where
  cfg : TcpConfig
  permits : Nat
  perClient : Tally IpAddr
  accepting : AcceptPhase
  streams : List Stream

inductive AcceptAction where
  | accept (serial : Nat) (peer : IpAddr)
  | load (state : Nat)
  | decide (admitted : Bool)
  | connect

inductive StreamAction where
  | start (cfg : TcpConfig)
  | read (frame : Frame)
  | dispatch
  | answered
  | hangUp

/-- `serve_tcp_connection` and the queries it spawned, one step. A frame of a length out of bounds
ends the reading loop, only so many queries are under way at once, and a query that outlives its
connection gives its permit back to nobody. -/
def StreamPhase.next : StreamPhase → StreamAction → Option StreamPhase
  | starting, .start cfg => some (reading cfg 0 none)
  | starting, .hangUp => some closed
  | reading cfg outstanding none, .read frame =>
    if frame.bytes.length = 0 ∨ cfg.maxMessageBytes < frame.bytes.length then some closed
    else some (reading cfg outstanding (some frame))
  | reading cfg outstanding (some _), .dispatch =>
    if outstanding < cfg.maxPipelinedQueries then some (reading cfg (outstanding + 1) none)
    else none
  | reading cfg outstanding pending, .answered => some (reading cfg (outstanding - 1) pending)
  | reading .., .hangUp => some closed
  | closed, .answered => some closed
  | uncounted, .answered => some uncounted
  | _, _ => none

namespace Accounts

def listen (cfg : TcpConfig) : Accounts where
  cfg := cfg
  permits := cfg.maxConnections
  perClient := ∅
  accepting := .listening
  streams := []

variable (a : Accounts)

def turnAway : Accounts := { a with permits := a.permits + 1, accepting := .listening }

def counters : Tally IpAddr :=
  if 65536 < a.perClient.entries.length then a.perClient.retain else a.perClient

def connect (serial : Nat) (peer : IpAddr) : Accounts :=
  let count := a.counters.count peer
  if a.cfg.maxConnectionsPerClient ≤ count then
    { a with perClient := a.counters.insert peer count }.turnAway
  else
    { a with
      perClient := a.counters.raise peer
      accepting := .listening
      streams := { serial, peer, phase := .starting } :: a.streams }

def accept : AcceptAction → Option Accounts
  | .accept serial peer =>
    match a.accepting with
    | .listening =>
      if a.permits = 0 then some a
      else some { a with permits := a.permits - 1, accepting := .permitted serial peer }
    | _ => none
  | .load state =>
    match a.accepting with
    | .permitted serial peer => some { a with accepting := .loaded serial peer state }
    | _ => none
  | .decide admitted =>
    match a.accepting with
    | .loaded serial peer _ =>
      some (if admitted then { a with accepting := .admitted serial peer } else a.turnAway)
    | _ => none
  | .connect =>
    match a.accepting with
    | .admitted serial peer => some (a.connect serial peer)
    | _ => none

def stream (serial : Nat) : Option Stream := a.streams.find? fun st => st.serial = serial

def serve (serial : Nat) (action : StreamAction) : Option Accounts :=
  (a.stream serial).bind fun st =>
    (st.phase.next action).map fun phase =>
      { a with streams := exchange a.streams st { st with phase } }

def discount (serial : Nat) : Option Accounts :=
  (a.stream serial).bind fun st =>
    if st.phase = .closed then
      some { a with
        perClient := a.perClient.lower st.peer
        streams := exchange a.streams st { st with phase := .uncounted } }
    else none

def release (serial : Nat) : Option Accounts :=
  (a.stream serial).bind fun st =>
    if st.phase = .uncounted then
      some { a with permits := a.permits + 1, streams := a.streams.erase st }
    else none

structure Sound : Prop where
  permits : a.permits + a.accepting.held + a.streams.length = a.cfg.maxConnections
  counted : a.perClient.Counts Stream.client a.streams
  bounded : ∀ ip, a.perClient.count ip ≤ a.cfg.maxConnectionsPerClient

variable {a} {b : Accounts}

theorem sound_listen (cfg : TcpConfig) : (listen cfg).Sound where
  permits := rfl
  counted _ := rfl
  bounded _ := Nat.zero_le _

theorem counters_count (ip : IpAddr) : a.counters.count ip = a.perClient.count ip := by
  unfold counters
  split
  · exact a.perClient.count_retain ip
  · rfl

variable {serial : Nat} {st : Stream} {action : StreamAction}

theorem sound_connect {peer : IpAddr} (h : a.Sound) (hphase : a.accepting = .admitted serial peer) :
    (a.connect serial peer).Sound := by
  have hpermits := h.permits
  have hcounted : a.counters.Counts Stream.client a.streams := by
    intro ip
    rw [counters_count, h.counted ip]
  simp only [hphase, AcceptPhase.held] at hpermits
  unfold connect
  dsimp only
  split
  · have hsame (ip : IpAddr) :
        Tally.count (a.counters.insert peer (a.counters.count peer)) ip =
          a.counters.count ip := by
      rw [Tally.count_insert]
      split
      · rename_i heq
        rw [heq]
      · rfl
    refine ⟨?_, ?_, ?_⟩
    · simp only [turnAway, AcceptPhase.held]
      omega
    · intro ip
      exact (hsame ip).trans (hcounted ip)
    · intro ip
      rw [turnAway, hsame, counters_count]
      exact h.bounded ip
  · rename_i hroom
    refine ⟨?_, hcounted.cons rfl, ?_⟩
    · simp only [AcceptPhase.held, List.length_cons]
      omega
    · intro ip
      rw [Tally.raise, Tally.count_insert]
      split
      · exact Nat.lt_of_not_le hroom
      · rw [counters_count]
        exact h.bounded ip

theorem sound_accept {action : AcceptAction} (h : a.Sound) (he : a.accept action = some b) :
    b.Sound := by
  have hpermits := h.permits
  cases action with
  | accept serial peer =>
    simp only [accept] at he
    split at he
    · rename_i hphase
      simp only [hphase, AcceptPhase.held] at hpermits
      split at he
      · cases he
        exact h
      · cases he
        refine ⟨?_, h.counted, h.bounded⟩
        simp only [AcceptPhase.held]
        omega
    · cases he
  | load state =>
    simp only [accept] at he
    split at he
    · rename_i hphase
      rw [hphase] at hpermits
      cases he
      exact ⟨hpermits, h.counted, h.bounded⟩
    · cases he
  | decide admitted =>
    simp only [accept] at he
    split at he
    · rename_i hphase
      simp only [hphase, AcceptPhase.held] at hpermits
      cases he
      split
      · exact ⟨hpermits, h.counted, h.bounded⟩
      · refine ⟨?_, h.counted, h.bounded⟩
        simp only [turnAway, AcceptPhase.held]
        omega
    · cases he
  | connect =>
    simp only [accept] at he
    split at he
    · rename_i hphase
      cases he
      exact sound_connect h hphase
    · cases he

theorem mem_of_stream (h : a.stream serial = some st) : st ∈ a.streams :=
  List.mem_of_find?_eq_some h

theorem client_of_next {phase : StreamPhase} (h : st.phase.next action = some phase) :
    { st with phase }.client = st.client := by
  have hiff : phase = .uncounted ↔ st.phase = .uncounted := by
    unfold StreamPhase.next at h
    split at h
    all_goals
      try split at h
      all_goals
        cases h
        try simp [*]
  simp only [Stream.client, hiff]

theorem sound_serve (h : a.Sound) (he : a.serve serial action = some b) : b.Sound := by
  obtain ⟨st, hst, hnext⟩ := Option.bind_eq_some_iff.mp he
  obtain ⟨phase, hphase, rfl⟩ := Option.map_eq_some_iff.mp hnext
  have hmem := mem_of_stream hst
  refine ⟨?_, ?_, h.bounded⟩
  · rw [length_exchange hmem]
    exact h.permits
  · exact (h.counted.perm (List.perm_cons_erase hmem)).swapHead (client_of_next hphase)

theorem sound_discount (h : a.Sound) (he : a.discount serial = some b) : b.Sound := by
  obtain ⟨st, hst, hclosed⟩ := Option.bind_eq_some_iff.mp he
  have hmem := mem_of_stream hst
  split at hclosed
  · rename_i hphase
    cases hclosed
    have hclient : st.client = some st.peer := by simp [Stream.client, hphase]
    refine ⟨?_, ?_, ?_⟩
    · rw [length_exchange hmem]
      exact h.permits
    · exact (h.counted.perm (List.perm_cons_erase hmem)).uncountHead hclient
        (by simp [Stream.client])
    · intro ip
      have hip := h.bounded ip
      rw [Tally.lower, Tally.count_insert]
      split
      · rename_i heq
        rw [heq] at hip
        exact (Nat.sub_le _ _).trans hip
      · exact hip
  · cases hclosed

theorem sound_release (h : a.Sound) (he : a.release serial = some b) : b.Sound := by
  obtain ⟨st, hst, hover⟩ := Option.bind_eq_some_iff.mp he
  have hmem := mem_of_stream hst
  split at hover
  · rename_i hphase
    cases hover
    have hclient : st.client = none := by simp [Stream.client, hphase]
    refine ⟨?_, ?_, h.bounded⟩
    · have hpermits := h.permits
      have hpos : 0 < a.streams.length := List.length_pos_of_mem hmem
      simp only [List.length_erase_of_mem hmem]
      omega
    · exact (h.counted.perm (List.perm_cons_erase hmem)).tail hclient
  · cases hover

end Accounts

structure Listener extends Accounts where
  sound : toAccounts.Sound

namespace Listener

def listen (cfg : TcpConfig) : Listener := ⟨.listen cfg, Accounts.sound_listen cfg⟩

def lift (next : Option Accounts) (h : ∀ b, next = some b → b.Sound) : Option Listener :=
  next.pmap Listener.mk h

theorem lift_eq_some {next : Option Accounts} {h : ∀ b, next = some b → b.Sound} {l : Listener}
    (he : lift next h = some l) : next = some l.toAccounts := by
  obtain ⟨a, _, ha, rfl⟩ := Option.pmap_eq_some_iff.mp he
  exact ha

variable (l : Listener)

def accept (action : AcceptAction) : Option Listener :=
  lift (l.toAccounts.accept action) fun _ => Accounts.sound_accept l.sound

def serve (serial : Nat) (action : StreamAction) : Option Listener :=
  lift (l.toAccounts.serve serial action) fun _ => Accounts.sound_serve l.sound

def discount (serial : Nat) : Option Listener :=
  lift (l.toAccounts.discount serial) fun _ => Accounts.sound_discount l.sound

def release (serial : Nat) : Option Listener :=
  lift (l.toAccounts.release serial) fun _ => Accounts.sound_release l.sound

def live : Nat := l.streams.countP fun st => st.phase.isLive

def liveFrom (ip : IpAddr) : Nat := l.streams.countP fun st => st.phase.isLive && st.peer = ip

theorem live_le : l.live ≤ l.cfg.maxConnections := by
  have hpermits := l.sound.permits
  have hlen : l.live ≤ l.streams.length := List.countP_le_length
  omega

theorem liveFrom_le (ip : IpAddr) : l.liveFrom ip ≤ l.cfg.maxConnectionsPerClient := by
  have hle : l.liveFrom ip ≤ l.streams.countP fun st => st.client = some ip := by
    apply List.countP_mono_left
    intro st _ hst
    rw [Bool.and_eq_true, decide_eq_true_eq] at hst
    have hphase : st.phase ≠ .uncounted := by
      intro he
      simp [he, StreamPhase.isLive] at hst
    simp [Stream.client, hphase, hst.2]
  calc l.liveFrom ip
      ≤ l.streams.countP fun st => st.client = some ip := hle
    _ = l.perClient.count ip := (l.sound.counted ip).symm
    _ ≤ l.cfg.maxConnectionsPerClient := l.sound.bounded ip

end Listener

end EgressDns
