import EgressDns.Dns.Hickory
import EgressDns.Dns.Message
import Mathlib.Algebra.Order.Ring.Unbundled.Rat
import Mathlib.Data.Rat.Defs

/-!
# Routes, their ranking and exchanges

`upstream/pool.rs` and the ranking of `upstream/scheduler.rs`. Scores and rates are rationals. What
the ranking reads from a route's health after its tick is an input, and so is the exchange an
attempt ends in.
-/

namespace EgressDns

section Rank

def fnvOffset : UInt64 := 0xcbf29ce484222325

def fnvStep (hash : UInt64) (b : UInt8) : UInt64 := (hash ^^^ b.toUInt64) * 0x100000001b3

def fnv1a64 (data : List UInt8) : UInt64 := data.foldl fnvStep fnvOffset

def leBytes (seed : UInt64) : List UInt8 :=
  (List.range 8).map (fun i => (seed >>> (8 * i).toUInt64).toUInt8)

def unitFromSeed (seed : UInt64) : ℚ := ((fnv1a64 (leBytes seed)) >>> 11).toNat / (2 ^ 53 : Nat)

inductive TransportKind where
  | udp | tcp | dot | doh2 | doh3 | doq
  deriving DecidableEq, Repr

def TransportKind.isStream (t : TransportKind) : Bool := decide (t ≠ .udp)

inductive ResolverRole where
  | authority | localForwarder
  deriving DecidableEq, Repr

def ResolverRole.isIndependent (role : ResolverRole) : Bool := decide (role = .authority)

structure RouteKey where
  server : String
  transport : TransportKind
  addr : IpAddr
  path : String
  role : ResolverRole
  authority : String
  deriving DecidableEq, Repr

inductive EgressPath where
  | direct | proxy (identity : String)
  deriving DecidableEq, Repr

structure Route where
  key : RouteKey
  weight : Nat
  cookiesEnabled : Bool
  clientCookie : List UInt8
  trustAd : Bool
  egress : EgressPath
  streamCompanion : Bool
  deriving DecidableEq, Repr

structure SchedulerConfig where
  hedgeEnabled : Bool
  exploreRate : ℚ
  emergencyFanout : Bool
  emergencyFanoutMax : Nat
  deriving DecidableEq

structure UpstreamGroup where
  name : String
  routes : List Route
  scheduler : SchedulerConfig
  deriving DecidableEq

structure UpstreamRegistry where
  groups : List UpstreamGroup
  defaultGroup : String

def UpstreamRegistry.group (registry : UpstreamRegistry) (name : String) : Option UpstreamGroup :=
  match registry.groups.find? fun g => g.name = name with
  | some g => some g
  | none => registry.groups.find? fun g => g.name = registry.defaultGroup

inductive FamilyState where
  | unknown | usable | unusable
  deriving DecidableEq, Repr

structure HealthReading where
  usable : Bool
  score : ℚ
  measured : Bool

/-- What `rank` reads besides the group and the seed. -/
structure RankState where
  v4 : FamilyState
  v6 : FamilyState
  health : Nat → HealthReading
  inRelearnWindow : Bool

inductive Bucket where
  | ready | degraded | familyExcluded
  deriving DecidableEq, Repr

structure Candidate where
  score : ℚ
  idx : Nat
  route : Route
  measured : Bool
  bucket : Bucket

variable (group : UpstreamGroup) (st : RankState) (route : Route)

def proxyPenalty : ℚ :=
  match route.egress with
  | .direct => 0
  | .proxy _ => 120

def weightBias (weight : Nat) : ℚ := 100 / max weight 1

def familyOk : Bool :=
  match route.key.addr with
  | .v4 _ => decide (st.v4 ≠ .unusable)
  | .v6 _ => decide (st.v6 ≠ .unusable)

def candidate (idx : Nat) : Candidate where
  score := (st.health idx).score + proxyPenalty route
  idx := idx
  route := route
  measured := (st.health idx).measured
  bucket :=
    if !familyOk st route then .familyExcluded
    else if (st.health idx).usable then .ready
    else .degraded

def candidates (includeCompanions : Bool) : List Candidate :=
  group.routes.zipIdx.filterMap fun p =>
    if p.1.streamCompanion && !includeCompanions then none else some (candidate st p.1 p.2)

variable (cs : List Candidate)

def measuredScores : List ℚ :=
  ((cs.filter Candidate.measured).map Candidate.score).insertionSort (· ≤ ·)

/-- A route nobody has measured is priced at the median of the measured ones. -/
def reprice : List Candidate :=
  let scores := measuredScores cs
  match scores[scores.length / 2]? with
  | none => cs
  | some median =>
    cs.map fun c => if c.measured then c else { c with score := median + weightBias c.route.weight }

def inBucket (b : Bucket) : List Candidate :=
  cs.filter fun c => c.bucket = b

/-- The first bucket that holds a route: ready, else open circuits, else excluded families. -/
def offered : List Candidate :=
  let scored := inBucket cs .ready
  let scored := if scored.isEmpty then inBucket cs .degraded else scored
  if scored.isEmpty then inBucket cs .familyExcluded else scored

def scoreLe (a b : Candidate) : Prop := a.score < b.score ∨ a.score = b.score ∧ a.idx ≤ b.idx

instance : DecidableRel scoreLe := fun a b =>
  inferInstanceAs (Decidable (a.score < b.score ∨ a.score = b.score ∧ a.idx ≤ b.idx))

def exploreRate : ℚ :=
  if st.inRelearnWindow then min (group.scheduler.exploreRate * 5) (1 / 5)
  else group.scheduler.exploreRate

def swapFirst {A : Type} : List A → List A
  | a :: b :: rest => b :: a :: rest
  | as => as

def rankInner (seed : UInt64) (includeCompanions : Bool) : List Route :=
  let scored := (offered (reprice (candidates group st includeCompanions))).insertionSort scoreLe
  let ranked := scored.map Candidate.route
  if 1 < ranked.length ∧ 0 < exploreRate group st ∧ unitFromSeed seed < exploreRate group st then
    swapFirst ranked
  else ranked

def rank (seed : UInt64) : List Route :=
  rankInner group st seed false

/-! Routes for concrete runs. -/

def plainRoute (server : String) (addr : BitVec 32) (role : ResolverRole) : Route where
  key :=
    { server, transport := .udp, addr := .v4 addr, path := "direct", role, authority := server }
  weight := 100
  cookiesEnabled := false
  clientCookie := []
  trustAd := false
  egress := .direct
  streamCompanion := false

def gateway : Route := plainRoute "192.168.1.1:53" 0xc0a80101 .localForwarder

def quad9 : Route := plainRoute "9.9.9.9:53" 0x09090909 .authority

def quad1 : Route := plainRoute "1.1.1.1:53" 0x01010101 .authority

def plainGroup (routes : List Route) : UpstreamGroup where
  name := "default"
  routes := routes
  scheduler := { hedgeEnabled := true, exploreRate := 0, emergencyFanout := true
                 emergencyFanoutMax := 3 }

def coldState : RankState where
  v4 := .usable
  v6 := .usable
  health _ := { usable := true, score := 0, measured := false }
  inRelearnWindow := false

end Rank

inductive ResolveError where
  | noRoute (group : String)
  | allFailed (detail : String)
  | timeout (elapsedMs : Nat)
  | invalidResponse (reason : String)
  | dnssecBogus
  | proofIncomplete (outcome : String)
  | shuttingDown
  | overloaded (limit : Nat)
  deriving DecidableEq, Repr

def ResolveError.isTransient : ResolveError → Bool
  | proofIncomplete _ => true
  | _ => false

inductive AttemptOutcome where
  | success | timeout | serverFailure | malformed | transportError
  deriving DecidableEq, Repr

/-- A reply as decoded from the wire, before anything has validated it. -/
structure WireMessage where
  message : Message
  unvalidated : message.Unvalidated
  deriving DecidableEq

/-- How an attempt ended before its reply is judged. A send fails by timeout or in the transport. -/
inductive Exchange where
  | shed
  | failed (timedOut : Bool) (detail : String)
  | replied (reply : WireMessage) (latency : Nat)

structure AttemptResult where
  outcome : Option AttemptOutcome
  latency : Option Nat
  message : Option WireMessage
  detail : String

structure UpstreamAnswer where
  message : WireMessage
  route : RouteKey
  latency : Nat
  streamRetry : Bool
  trustAd : Bool

def cookieOptionCode : UInt16 := 10

def EdnsOption.code : EdnsOption → UInt16
  | subnet _ _ _ => 8
  | unknown code _ => code

def Edns.get (edns : Edns) (code : UInt16) : Option EdnsOption :=
  edns.options.find? (fun o => o.code = code)

def extractServerCookie (msg : Message) (expectClient : List UInt8) : Option (List UInt8) :=
  match msg.edns with
  | none => none
  | some edns =>
    match edns.get cookieOptionCode with
    | some (.unknown _ octets) =>
      if octets.length < 8 ∨ octets.take 8 ≠ expectClient then none
      else
        let server := octets.drop 8
        if server = [] then some []
        else if 8 ≤ server.length ∧ server.length ≤ 32 then some server
        else none
    | _ => none

variable (hk : Hickory) (request : Message)

def questionMatches (response : Message) : Bool :=
  decide (request.queries.length = response.queries.length) &&
    (request.queries.zip response.queries).all fun p =>
      decide (p.1.qtype = p.2.qtype) && decide (p.1.qclass = p.2.qclass) &&
        decide (lower (hk.nameText p.1.name) = lower (hk.nameText p.2.name))

def describeQueries (msg : Message) : String :=
  if msg.queries = [] then "<no question>" else ", ".intercalate (msg.queries.map hk.queryText)

/-- The checks of RFC 5452 and the response codes that count as an answer. -/
def validateResponse (response : Message) (route : Route) : Except (AttemptOutcome × String) Unit :=
  if !questionMatches hk request response then
    .error (.malformed, "response question did not match the query: asked [" ++
      describeQueries hk request ++ "], got [" ++ describeQueries hk response ++ "]")
  else if response.metadata.messageType ≠ .response then
    .error (.malformed, "response was not a reply")
  else if response.metadata.opCode ≠ request.metadata.opCode then
    .error (.malformed, "response opcode did not match")
  else if route.cookiesEnabled && (response.edns.bind (·.get cookieOptionCode)).isSome &&
      (extractServerCookie response route.clientCookie).isNone then
    .error (.malformed, "DNS cookie in response did not echo the client cookie")
  else
    match response.metadata.responseCode with
    | .noError | .nxDomain => .ok ()
    | .badVers => .error (.serverFailure, "upstream rejected the EDNS version")
    | code => .error (.serverFailure, "upstream returned " ++ hk.rcodeText code)

def attempt (route : Route) : Exchange → AttemptResult
  | .shed =>
    { outcome := none, latency := none, message := none
      detail := "shed at the upstream concurrency ceiling" }
  | .failed timedOut detail =>
    { outcome := some (if timedOut then .timeout else .transportError)
      latency := none, message := none, detail }
  | .replied reply latency =>
    match validateResponse hk request reply.message route with
    | .ok _ =>
      { outcome := some .success, latency := some latency, message := some reply, detail := "" }
    | .error (outcome, detail) =>
      { outcome := some outcome, latency := some latency, message := none, detail }

def AttemptResult.answer (result : AttemptResult) (route : Route) (streamRetry : Bool) :
    Option UpstreamAnswer :=
  if result.outcome = some .success then
    result.message.map fun message =>
      { message, route := route.key, latency := result.latency.getD 0, streamRetry
        trustAd := route.trustAd }
  else none

theorem AttemptResult.answer_eq_some {result : AttemptResult} {route : Route}
    {streamRetry : Bool} {answer : UpstreamAnswer}
    (h : result.answer route streamRetry = some answer) :
    result.outcome = some .success ∧ result.message = some answer.message ∧
      answer.route = route.key := by
  unfold AttemptResult.answer at h
  split at h
  · rename_i hs
    obtain ⟨message, hm, rfl⟩ := Option.map_eq_some_iff.mp h
    exact ⟨hs, hm, rfl⟩
  · cases h

@[simp] theorem attempt_outcome_eq_none_iff (route : Route) (exchange : Exchange) :
    (attempt hk request route exchange).outcome = none ↔ exchange = .shed := by
  cases exchange with
  | shed => exact ⟨fun _ => rfl, fun _ => rfl⟩
  | failed timedOut detail => exact ⟨nofun, nofun⟩
  | replied reply latency =>
    simp only [attempt]
    split <;> exact ⟨nofun, nofun⟩

end EgressDns
