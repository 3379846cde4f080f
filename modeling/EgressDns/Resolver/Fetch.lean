import EgressDns.Cache.Verdict
import EgressDns.Resolver.Response
import EgressDns.Resolver.SecondOpinion

/-!
# Fetching an answer

`Resolver::fetch` in the stages between its awaits: the answer is received and its DNSSEC state
read, the entry is made, and the caches are written. Everything the awaits and clocks bring is in
`FetchEnv`.
-/

namespace EgressDns

/-- One runtime state of the resolver, over the DNS library `hk`. `validators` are the groups that
have a validator. -/
structure Resolver (hk : Hickory) where
  cfg : Config
  registry : UpstreamRegistry
  validators : List String
  validationCapacity : Nat
  exchangeCapacity : Nat

inductive ValidatorResult where
  | timedOut
  | ended
  | failed (text : String)
  | answered (msg : Message)

/-- One pass of the validation loop: the result, what the transport saw meanwhile, and whether
enough of the deadline is left for another. -/
structure ValidatorRun where
  result : ValidatorResult
  observed : ProofFailure
  deadlineLeft : Bool

/-- A second opinion as it unfolds: time left, what the ranking reads, and every exchange. -/
structure OpinionEnv where
  remaining : Nat
  state : RankState
  exchange : Route → Exchange

structure FetchEnv where
  name : Option Name
  queryId : UInt16
  seed : UInt64
  permit : Bool
  validatorRun : Nat → ValidatorRun
  fallback : OpinionEnv
  state : RankState
  hedgeAdmitted : Bool
  retryOpen : Bool
  retryState : RankState
  retry : Route → Option Exchange
  turns : List Turn
  corroboration : OpinionEnv
  now : Nat
  nowUnix : Nat

def containsText (text needle : String) : Bool := decide (needle.toList <:+: text.toList)

def judgeRun (cfg : DnssecConfig) (run : ValidatorRun) : Option Message × ValidationOutcome :=
  match run.result with
  | .timedOut => (none, .timeout)
  | .answered msg => (some msg, classifyOutcome msg cfg false run.observed)
  | .failed text =>
    (none,
      if run.observed ≠ .none then .incompleteProof
      else if containsText text "Bogus" || containsText text "bogus" then .bogus
      else .transportFailure)
  | .ended => (none, .transportFailure)

/-- The pass the loop ends with: a retryable outcome is retried while passes and time are left. -/
def lastAttempt (cfg : DnssecConfig) (runs : Nat → ValidatorRun) : Nat → Nat → Nat
  | 0, attempt => attempt
  | retries + 1, attempt =>
    if (judgeRun cfg (runs attempt)).2.isRetryable && (runs attempt).deadlineLeft then
      lastAttempt cfg runs retries (attempt + 1)
    else attempt

namespace Resolver

variable {hk : Hickory} (r : Resolver hk) (key : CacheKey) (group : UpstreamGroup)
  (request : Message) (env : FetchEnv)

def finalRun : ValidatorRun :=
  env.validatorRun (lastAttempt r.cfg.dnssec env.validatorRun 1 1)

def validated : Option Message × ValidationOutcome :=
  judgeRun r.cfg.dnssec (r.finalRun env)

def fetchRequest (name : Name) (env : FetchEnv) : Message :=
  let wants := r.cfg.dnssec.mode.wantsDnssecRecords || key.mode.dnssecOk
  { metadata :=
      { id := env.queryId, messageType := .query, opCode := .query, authoritative := false
        truncation := false, recursionDesired := true, recursionAvailable := false
        authenticData := false, checkingDisabled := key.mode.checkingDisabled
        responseCode := .noError }
    queries := [{ name, qtype := key.qtype, qclass := key.qclass }]
    answers := [], authorities := [], additionals := []
    edns := some
      { maxPayload := r.cfg.maxPayload, version := 0, dnssecOk := wants
        options := match r.cfg.ecsEgress with
          | some (addr, len) => [.subnet (.v4 addr) len 0]
          | none => [] } }

/-- Only Strict mode puts validation in front of the client, and not when it disabled checking. -/
def synchronous : Bool :=
  r.cfg.dnssec.mode.blocksTheClient && !key.mode.checkingDisabled

def fallbackAnswer (hk : Hickory) (group : UpstreamGroup) (request : Message) (env : FetchEnv) :
    Option WireMessage :=
  unprovedFallback hk group env.fallback.state request env.fallback.remaining env.seed
    env.fallback.exchange

/-- Acting on an outcome: Bogus fails closed, an unfinished proof serves what it has. -/
def actOn (hk : Hickory) (group : UpstreamGroup) (request : Message) (env : FetchEnv) :
    Option Message × ValidationOutcome → Except ResolveError Message
  | (_, .bogus) => .error .dnssecBogus
  | (some msg, _) => .ok msg
  | (none, .secure) | (none, .provenInsecure) =>
    .error (.allFailed "validator reported success without an answer")
  | (none, outcome) =>
    match fallbackAnswer hk group request env with
    | some reply => .ok reply.message
    | none => .error (.proofIncomplete outcome.label)

def strictAnswer : Except ResolveError Message :=
  if r.validators = [] then .error (.noRoute key.view.group)
  else if !env.permit then .error (.overloaded r.validationCapacity)
  else actOn hk group request env (r.validated env)

def resolveCtx : ResolveCtx where
  hk := hk
  group := group
  request := request
  state := env.state
  seed := env.seed
  hedgeAdmitted := env.hedgeAdmitted
  capacity := r.exchangeCapacity
  retryOpen := env.retryOpen
  retryState := env.retryState
  retry := env.retry

/-- The answer, the route it came by and whether that route's AD bit is trusted; `none` while the
resolution has not ended. -/
def obtain : Option (Except ResolveError (Message × Option RouteKey × Bool)) :=
  if r.synchronous key then
    some ((r.strictAnswer key group request env).map fun msg => (msg, none, false))
  else
    ((r.resolveCtx group request env).resolve env.turns).map fun result =>
      result.map fun answer => (answer.message.message, some answer.route, answer.trustAd)

structure Received where
  group : UpstreamGroup
  request : Message
  response : Message
  route : Option RouteKey
  status : DnssecStatus

def lastCheck :
    Except ResolveError (Message × Option RouteKey × Bool) → Except ResolveError Received
  | .error e => .error e
  | .ok (response, route, trustAd) =>
    if dnssecStatus response r.cfg.dnssec trustAd = .bogus then .error .dnssecBogus
    else .ok { group, request, response, route
               status := dnssecStatus response r.cfg.dnssec trustAd }

def receive : Option (Except ResolveError Received) :=
  match r.registry.group key.view.group with
  | none => some (.error (.noRoute key.view.group))
  | some group =>
    match env.name with
    | none => some (.error (.invalidResponse "query name could not be encoded"))
    | some name =>
      let request := r.fetchRequest key name env
      (r.obtain key group request env).map (r.lastCheck group request)

def validatesInBackground : Bool :=
  r.cfg.dnssec.mode == .background && !key.mode.checkingDisabled

end Resolver

def classify (hk : Hickory) (msg : Message) : EntryKind :=
  if msg.metadata.responseCode = .nxDomain then .nxDomain
  else if msg.answers.any fun r => r.recordType != .opt && !hk.isDnssec r.recordType then .positive
  else .noData

def negativeTtl (msg : Message) : Option Nat :=
  msg.authorities.findSome? fun r =>
    match r.data with
    | .soa minimum _ => some (min r.ttl minimum)
    | _ => none

def provisionalNegativeTtl : Nat := 5

namespace Resolver

variable {hk : Hickory} (r : Resolver hk)

def secondOpinion (got : Received) (env : FetchEnv) :
    Message × Option RouteKey × NegativeEvidence :=
  corroborateNegative hk r.cfg.dnssec got.group env.corroboration.state got.request got.response
    got.status got.route env.corroboration.remaining env.seed env.corroboration.exchange

def cappedTtl (internalMaxTtl : Nat) (response : Message) : Nat :=
  match classify hk response with
  | .positive => min ((minTtl response).getD 0) internalMaxTtl
  | _ => min ((negativeTtl response).getD 0) r.cfg.negativeMaxTtl

def storedTtl (internalMaxTtl : Nat) (response : Message) (evidence : NegativeEvidence) : Nat :=
  let ttl := r.cappedTtl internalMaxTtl response
  if evidence = .singleSource then min ttl provisionalNegativeTtl else ttl

/-- The entry `fetch` makes of what it received. The state is the one read before the second
opinion. -/
def entryOf (got : Received) (env : FetchEnv) (internalMaxTtl : Nat) : CacheEntry :=
  let (response, route, evidence) := r.secondOpinion got env
  { message := response
    receivedAt := env.now
    receivedUnix := env.nowUnix
    ttl := r.storedTtl internalMaxTtl response evidence
    kind := classify hk response
    dnssec := got.status
    source :=
      { server := (route.map RouteKey.server).getD "validator"
        transport := (route.map RouteKey.transport).getD .udp }
    fingerprint := answerFingerprint hk response
    rrsigExpiryUnix := earliestRrsigExpiry response }

end Resolver

/-- What `fetch` writes before the entry: the variant of a positive answer, and no failure. -/
def DnsCache.remember (c : DnsCache) (key : CacheKey) (entry : CacheEntry) : DnsCache :=
  let c :=
    if entry.kind = .positive then
      (c.recordVariant key
        { fingerprint := entry.fingerprint, message := entry.message, source := entry.source
          observedAt := entry.receivedAt, ttl := entry.ttl, dnssec := entry.dnssec }
        entry.receivedAt).1
    else c
  c.clearFailure key

def DnsCache.store (c : DnsCache) (key : CacheKey) (entry : CacheEntry) : DnsCache :=
  (c.remember key entry).insert key entry

def Resolver.fetch {hk : Hickory} (r : Resolver hk) (key : CacheKey) (env : FetchEnv)
    (c : DnsCache) : Option (Except ResolveError CacheEntry × DnsCache) :=
  (r.receive key env).map fun result =>
    match result with
    | .error e => (.error e, c)
    | .ok got =>
      let entry := r.entryOf got env c.internalMaxTtl
      (.ok entry, c.store key entry)

section Receive

variable {hk : Hickory} {r : Resolver hk} {key : CacheKey} {env : FetchEnv}
  {got : Resolver.Received} {group : UpstreamGroup}

theorem Resolver.receive_eq_ok (h : r.receive key env = some (.ok got)) :
    ∃ name trustAd, r.registry.group key.view.group = some got.group ∧ env.name = some name ∧
      got.request = r.fetchRequest key name env ∧
      r.obtain key got.group got.request env = some (.ok (got.response, got.route, trustAd)) ∧
      got.status = dnssecStatus got.response r.cfg.dnssec trustAd ∧ got.status ≠ .bogus := by
  unfold Resolver.receive at h
  split at h
  · cases h
  · rename_i group hgroup
    split at h
    · cases h
    · rename_i name hname
      obtain ⟨result, hobtain, he⟩ := Option.map_eq_some_iff.mp h
      unfold Resolver.lastCheck at he
      split at he
      · cases he
      · rename_i response route trustAd
        split at he
        · cases he
        · rename_i hne
          cases he
          exact ⟨name, trustAd, hgroup, hname, rfl, hobtain, rfl, hne⟩

theorem Resolver.actOn_eq_ok {request msg : Message} {result : Option Message × ValidationOutcome}
    (h : Resolver.actOn hk group request env result = .ok msg) :
    result.1 = some msg ∨ result.1 = none ∧
      ∃ reply, Resolver.fallbackAnswer hk group request env = some reply ∧ reply.message = msg := by
  unfold Resolver.actOn at h
  split at h
  · cases h
  · cases h
    exact .inl rfl
  · cases h
  · cases h
  · split at h
    · rename_i reply hreply
      cases h
      exact .inr ⟨rfl, reply, hreply, rfl⟩
    · cases h

theorem Resolver.strictAnswer_eq_actOn {request msg : Message}
    (h : r.strictAnswer key group request env = .ok msg) :
    Resolver.actOn hk group request env (r.validated env) = .ok msg := by
  unfold Resolver.strictAnswer at h
  split at h
  · cases h
  · split at h
    · cases h
    · exact h

@[simp] theorem Resolver.entryOf_dnssec (got : Resolver.Received) (internalMaxTtl : Nat) :
    (r.entryOf got env internalMaxTtl).dnssec = got.status := rfl

@[simp] theorem Resolver.entryOf_message (got : Resolver.Received) (internalMaxTtl : Nat) :
    (r.entryOf got env internalMaxTtl).message = (r.secondOpinion got env).1 := rfl

theorem Resolver.secondOpinion_message_of_no_route (h : got.route = none) :
    (r.secondOpinion got env).1 = got.response := by
  unfold Resolver.secondOpinion corroborateNegative
  rw [h]
  split
  · rfl
  · split
    · rfl
    · split <;> rfl

end Receive

section Store

variable (c : DnsCache) (key : CacheKey) (entry : CacheEntry)

@[simp] theorem DnsCache.remember_answers : (c.remember key entry).answers = c.answers := by
  unfold DnsCache.remember
  split <;> rfl

theorem DnsCache.remember_failures :
    (c.remember key entry).failures = Function.update c.failures key none := by
  unfold DnsCache.remember
  split <;> rfl

theorem DnsCache.store_answers (h : entry.dnssec ≠ .bogus) :
    (c.store key entry).answers = Function.update c.answers key (some entry) := by
  rw [DnsCache.store, DnsCache.insert, if_neg h, DnsCache.setAnswer, DnsCache.remember_answers]

theorem DnsCache.store_failures :
    (c.store key entry).failures = Function.update c.failures key none := by
  unfold DnsCache.store DnsCache.insert
  split <;> exact DnsCache.remember_failures c key entry

end Store

def singleResolver (mode : DnssecMode) : Resolver .sample where
  cfg := defaultConfig mode
  registry := { groups := [plainGroup [quad9]], defaultGroup := "default" }
  validators := ["default"]
  validationCapacity := 64
  exchangeCapacity := 256

def noOpinion : OpinionEnv where
  remaining := 0
  state := coldState
  exchange _ := .shed

/-- A fetch for `a.` whose validator ends every pass in the same way and whose upstream ends in
these turns. -/
def fetchEnv (run : ValidatorRun) (turns : List Turn) : FetchEnv where
  name := some ⟨[[97]]⟩
  queryId := 1
  seed := 0
  permit := true
  validatorRun _ := run
  fallback := noOpinion
  state := coldState
  hedgeAdmitted := false
  retryOpen := false
  retryState := coldState
  retry _ := none
  turns := turns
  corroboration := noOpinion
  now := 0
  nowUnix := 0

def validatorAnswers (msg : Message) (observed : ProofFailure) : FetchEnv :=
  fetchEnv { result := .answered msg, observed, deadlineLeft := false } []

end EgressDns
