import EgressDns.Ingress.Listener

/-!
# The listeners

`dns/server.rs` as a state machine: datagrams and connections, the tasks spawned for their
queries, and reloads, in any order. A datagram is checked in a task of its own before it is
answered; on a stream the check is made once, when the connection is accepted.

A runtime state is named by its place in the list of all that were published. What arrives gets a
serial number, and every admission check and every query given to the resolver is noted under it.
-/

namespace EgressDns

inductive QueryOrigin where
  | datagram
  | stream (listener serial : Nat)
  deriving DecidableEq, Repr

inductive QueryPhase where
  | spawned
  | loaded (state : Nat)
  | admitted
  | handed
  deriving DecidableEq, Repr

/-- The task of one query; `received` is the runtime state that was in force when it arrived. -/
structure ClientQuery where
  origin : QueryOrigin
  peer : IpAddr
  bytes : List UInt8
  received : Nat
  phase : QueryPhase
  deriving DecidableEq, Repr

/-- One call of `admit`: for what, in which runtime state, and why it was turned away, if it was. -/
structure Decision where
  subject : Nat
  client : IpAddr
  state : Nat
  rejection : Option Rejection
  deriving DecidableEq, Repr

structure Handed where
  serial : Nat
  query : ClientQuery
  request : Message
  state : Nat

/-- A connection that was let in: how many were live right after, and the settings then in force. -/
structure Acceptance where
  live : Nat
  liveFromClient : Nat
  limits : TcpConfig
  deriving DecidableEq, Repr

structure Ingress (gov : Governor) where
  states : List (IngressState gov)
  inflight : Nat
  listeners : List Listener
  queries : Nat → Option ClientQuery
  serial : Nat
  decisions : List Decision
  handed : List Handed
  refusals : List (IpAddr × Message)
  accepts : List Acceptance

inductive IngressLabel where
  | reload (cfg : IngressConfig)
  | receive (peer : IpAddr) (bytes : List UInt8)
  | load (serial : Nat)
  | check (serial now : Nat)
  | hand (serial : Nat)
  | finish (serial : Nat)
  | listen
  | accept (listener : Nat) (peer : IpAddr)
  | acceptLoad (listener : Nat)
  | acceptCheck (listener now : Nat)
  | connect (listener : Nat)
  | start (listener serial : Nat)
  | read (listener serial : Nat) (bytes : List UInt8)
  | dispatch (listener serial : Nat)
  | hangUp (listener serial : Nat)
  | discount (listener serial : Nat)
  | release (listener serial : Nat)

def udpReadBuffer : Nat := 4096

namespace Ingress

variable {gov : Governor} (hk : Hickory) (decode : List UInt8 → Option Message)

def boot (gov : Governor) (cfg : IngressConfig) (maxInflight : Nat) : Ingress gov where
  states := [.build gov cfg]
  inflight := maxInflight
  listeners := []
  queries _ := none
  serial := 0
  decisions := []
  handed := []
  refusals := []
  accepts := []

variable (s : Ingress gov)

def inForce : Nat := s.states.length - 1

def setQuery (serial : Nat) (query : Option ClientQuery) : Ingress gov :=
  { s with queries := Function.update s.queries serial query }

variable (i : Nat)

def withListener (f : Listener → Option Listener) : Option (Ingress gov) :=
  (s.listeners[i]?).bind fun l =>
    (f l).map fun l' => { s with listeners := s.listeners.set i l' }

def admitClient (subject : Nat) (client : IpAddr) (v now : Nat) :
    Option (Option Rejection × Ingress gov) :=
  (s.states[v]?).map fun state =>
    let (rejection, state) := state.admitClient client now
    (rejection,
      { s with
        states := s.states.set v state
        decisions := { subject, client, state := v, rejection } :: s.decisions })

variable (peer : IpAddr)

def receive (bytes : List UInt8) : Ingress gov :=
  if s.inflight = 0 then s
  else
    { s with inflight := s.inflight - 1, serial := s.serial + 1 }.setQuery s.serial
      (some { origin := .datagram, peer, bytes := bytes.take udpReadBuffer, received := s.inForce
              phase := .spawned })

variable (n : Nat)

def load : Option (Ingress gov) :=
  (s.queries n).bind fun q =>
    if q.origin = .datagram ∧ q.phase = .spawned then
      some (s.setQuery n (some { q with phase := .loaded s.inForce }))
    else none

/-- The end of a query's task: it leaves its connection's pipeline if that is still there. -/
def leave (q : ClientQuery) : Ingress gov :=
  let s := s.setQuery n none
  match q.origin with
  | .datagram => s
  | .stream i stream => (s.withListener i fun l => l.serve stream .answered).getD s

def check (now : Nat) : Option (Ingress gov) :=
  (s.queries n).bind fun q =>
    match q.phase with
    | .loaded v =>
      (s.admitClient n q.peer v now).map fun
        | (none, s) => s.setQuery n (some { q with phase := .admitted })
        | (some rejection, s) =>
          { s.leave n q with
            inflight := s.inflight + 1
            refusals := (refuse hk (decode q.bytes) rejection).toList.map (fun m => (q.peer, m)) ++
              s.refusals }
    | _ => none

def respond (q : ClientQuery) : Ingress gov :=
  match decode q.bytes with
  | none => { s.leave n q with inflight := s.inflight + 1 }
  | some request =>
    if request.metadata.messageType = .query then
      { s.setQuery n (some { q with phase := .handed }) with
        handed := { serial := n, query := q, request, state := s.inForce } :: s.handed }
    else { s.leave n q with inflight := s.inflight + 1 }

/-- A query of a stream takes its in-flight permit only now. -/
def hand : Option (Ingress gov) :=
  (s.queries n).bind fun q =>
    match q.origin, q.phase with
    | .datagram, .admitted => some (s.respond decode n q)
    | .stream .., .spawned =>
      if s.inflight = 0 then some (s.leave n q)
      else some ({ s with inflight := s.inflight - 1 }.respond decode n q)
    | _, _ => none

def finish : Option (Ingress gov) :=
  (s.queries n).bind fun q =>
    if q.phase = .handed then some { s.leave n q with inflight := s.inflight + 1 } else none

def listen : Option (Ingress gov) :=
  s.states.getLast?.map fun state =>
    { s with listeners := s.listeners ++ [.listen state.tcp] }

def accept : Option (Ingress gov) :=
  { s with serial := s.serial + 1 }.withListener i fun l => l.accept (.accept s.serial peer)

def acceptCheck (now : Nat) : Option (Ingress gov) :=
  (s.listeners[i]?).bind fun l =>
    match l.accepting with
    | .loaded serial peer v =>
      (s.admitClient serial peer v now).bind fun (rejection, s) =>
        s.withListener i fun l => l.accept (.decide rejection.isNone)
    | _ => none

def live : Nat := (s.listeners.map Listener.live).sum

def liveFrom (ip : IpAddr) : Nat := (s.listeners.map fun l => l.liveFrom ip).sum

def noteAccept (limits : TcpConfig) : Ingress gov :=
  { s with accepts := { live := s.live, liveFromClient := s.liveFrom peer, limits } :: s.accepts }

def connect : Option (Ingress gov) :=
  (s.listeners[i]?).bind fun l =>
    s.states.getLast?.bind fun state =>
      match l.accepting with
      | .admitted _ peer =>
        (s.withListener i fun l => l.accept .connect).map fun s =>
          if l.counters.count peer < l.cfg.maxConnectionsPerClient then s.noteAccept peer state.tcp
          else s
      | _ => none

def dispatch (stream : Nat) : Option (Ingress gov) :=
  (s.listeners[i]?).bind fun l =>
    (l.stream stream).bind fun st =>
      match st.phase with
      | .reading _ _ (some frame) =>
        (s.withListener i fun l => l.serve stream .dispatch).map fun s =>
          { s with serial := s.serial + 1 }.setQuery s.serial
            (some { origin := .stream i stream, peer := st.peer, bytes := frame.bytes
                    received := frame.received, phase := .spawned })
      | _ => none

def step : IngressLabel → Option (Ingress gov)
  | .reload cfg => some { s with states := s.states ++ [.build gov cfg] }
  | .receive peer bytes => some (s.receive peer bytes)
  | .load n => s.load n
  | .check n now => s.check hk decode n now
  | .hand n => s.hand decode n
  | .finish n => s.finish n
  | .listen => s.listen
  | .accept i peer => s.accept i peer
  | .acceptLoad i => s.withListener i fun l => l.accept (.load s.inForce)
  | .acceptCheck i now => s.acceptCheck i now
  | .connect i => s.connect i
  | .start i stream =>
    s.states.getLast?.bind fun state => s.withListener i fun l => l.serve stream (.start state.tcp)
  | .read i stream bytes =>
    s.withListener i fun l => l.serve stream (.read { bytes, received := s.inForce })
  | .dispatch i stream => s.dispatch i stream
  | .hangUp i stream => s.withListener i fun l => l.serve stream .hangUp
  | .discount i stream => s.withListener i fun l => l.discount stream
  | .release i stream => s.withListener i fun l => l.release stream

end Ingress

end EgressDns
