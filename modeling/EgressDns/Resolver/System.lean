import EgressDns.Resolver.Miss

/-!
# The running resolver

Client queries, refreshes, background validations and reloads over the caches and the flights they
share. A task keeps the resolver it started with; the caches and the flights outlive a reload.
Every map operation, and every stretch of code between two awaits, is one step. What time, the
network and the validator bring is in the labels.
-/

namespace EgressDns.System

open Lib

inductive Vetting where
  | validator | fallback | unvetted
  deriving DecidableEq, Repr

structure Stored where
  entry : CacheEntry
  vetting : Vetting
  deriving DecidableEq

def clientDo (request : Message) : Bool := (request.edns.map Edns.dnssecOk).getD false

structure Asker where
  request : Message
  maxSize : Nat

def Asker.client (asker : Asker) (now : Nat) (env : ResponseEnv) : Client where
  request := asker.request
  clientDo := clientDo asker.request
  maxSize := asker.maxSize
  now := now
  env := env

/-- A refresh may have a client waiting for it, with the expired entry in its hands. -/
inductive Role where
  | client (asker : Asker)
  | refresh (waiting : Option (Asker × Stored))
  | validation

/-- Where a task stands between two steps. A client is `asked` before it looks at the failures and
`checked` before it looks at the answers; a leader has `received` its answer, `made` its entry and
inserted it when it is `publishing`; `ended` is the outcome of `resolve_miss`, and `recording` has
read the streak that a failure to remember extends; `refreshed` is the outcome of a refresh. A
verdict is `judging` before it reads the cache, with the state to promote to, if any. -/
inductive Stage where
  | asked
  | refused (failure : FailureEntry)
  | checked
  | joining
  | leading
  | received (got : Resolver.Received) (env : FetchEnv) (vetting : Vetting)
  | made (stored : Stored)
  | publishing (outcome : Except ResolveError Stored)
  | following
  | ended (outcome : Except FailureReport Stored)
  | recording (report : FailureReport) (streak : Nat)
  | refreshed (outcome : Except ResolveError Stored)
  | answering (stored : Stored) (remaining : Nat) (stale : Bool)
  | validating
  | judging (msg : Message) (status : Option DnssecStatus)
  | promoting (stored : Stored)
  | evicting (msg : Message)

def outcomeEntry {E : Type} : Except E Stored → List Stored
  | .ok stored => [stored]
  | .error _ => []

@[simp] theorem outcomeEntry_mapError {E E' : Type} (f : E → E') (outcome : Except E Stored) :
    outcomeEntry (outcome.mapError f) = outcomeEntry outcome := by cases outcome <;> rfl

@[simp] theorem outcomeEntry_followed (flight : Except FlightError Stored) :
    outcomeEntry (followed (some flight)) = outcomeEntry flight := by cases flight <;> rfl

@[simp] theorem outcomeEntry_publish (led : LedBy) (outcome : Except ResolveError Stored) :
    outcomeEntry (publish led outcome) = outcomeEntry outcome := by
  cases outcome <;> cases led <;> rfl

def Role.serves : Role → List Stored
  | .refresh (some (_, stale)) => [stale]
  | _ => []

def Stage.serves : Stage → List Stored
  | .publishing outcome => outcomeEntry outcome
  | .ended outcome => outcomeEntry outcome
  | .refreshed outcome => outcomeEntry outcome
  | .answering stored _ _ => [stored]
  | _ => []

def Stage.writes : Stage → List Stored
  | .made stored => [stored]
  | .promoting stored => [stored]
  | _ => []

def Stage.canCancel : Stage → Bool
  | .leading => true
  | .received _ _ _ => true
  | _ => false

/-- The bars are the messages found forged, by key, before the task began. -/
structure Task (hk : Hickory) where
  resolver : Resolver hk
  key : CacheKey
  bars : List (CacheKey × Message)
  role : Role
  stage : Stage

/-- A response sent, with the entry it was built from and whether Strict mode was in force. -/
structure Response where
  key : CacheKey
  bars : List (CacheKey × Message)
  source : Option Stored
  strict : Bool
  answer : Answer

/-- The caches and the flights, with the history of every cached entry, the messages found forged
so far, those of them whose eviction is complete, and the responses sent. -/
structure Shared (hk : Hickory) where
  current : Resolver hk
  cache : DnsCache
  tags : CacheKey → Vetting
  inFlight : CacheKey → Bool
  condemned : List (CacheKey × Message)
  evicted : List (CacheKey × Message)
  responses : List Response

variable {hk : Hickory}

def clientKey (r : Resolver hk) (request : Message) (view : PolicyView) : CacheKey :=
  let question := questionOf request
  CacheKey.new (hk.nameText question.name) question.qtype question.qclass view
    { dnssecOk := r.cfg.dnssec.mode.wantsDnssecRecords || clientDo request
      checkingDisabled := request.metadata.checkingDisabled }

def vettingOf (r : Resolver hk) (key : CacheKey) (env : FetchEnv) : Vetting :=
  if r.synchronous key then
    match (r.validated env).1 with
    | some _ => .validator
    | none => .fallback
  else .unvetted

/-- The outcome of a background validation. A validator that gives up has proved nothing. -/
def backgroundOutcome (cfg : DnssecConfig) (run : ValidatorRun) : ValidationOutcome :=
  match run.result with
  | .timedOut => .timeout
  | .answered msg => classifyOutcome msg cfg false run.observed
  | .failed _ => .incompleteProof
  | .ended => .transportFailure

def carriesFailedSignatures (msg : Message) : Bool :=
  msg.answers.any fun r => r.recordType == .rrsig && r.proof == .bogus

namespace Shared

variable (s : Shared hk) (key : CacheKey)

def tagged (entry : CacheEntry) : Stored := { entry, vetting := s.tags key }

def insert (stored : Stored) : Shared hk :=
  if stored.entry.dnssec = .bogus then s
  else { s with cache := s.cache.insert key stored.entry
                tags := Function.update s.tags key stored.vetting }

def rewrite (stored : Stored) : Shared hk :=
  { s with cache := s.cache.setAnswer key (some stored.entry)
           tags := Function.update s.tags key stored.vetting }

def setFlight (flying : Bool) : Shared hk :=
  { s with inFlight := Function.update s.inFlight key flying }

def recordFailure (failure : FailureEntry) : Shared hk :=
  { s with cache := s.cache.recordFailure key failure }

def condemn (msg : Message) : Shared hk :=
  { s with condemned := (key, msg) :: s.condemned }

def evict (msg : Message) : Shared hk :=
  { s with evicted := (key, msg) :: s.evicted }

end Shared

namespace Task

variable (t : Task hk)

def goto (stage : Stage) : Task hk := { t with stage }

def ledBy : LedBy :=
  match t.role with
  | .refresh _ => .refresh
  | _ => .miss

def conclude (outcome : Except ResolveError Stored) : Task hk :=
  match t.role with
  | .refresh _ => t.goto (.refreshed outcome)
  | _ => t.goto (.ended (outcome.mapError FailureReport.fromError))

def cancelled : Option (Task hk) :=
  match t.role with
  | .refresh _ => some (t.goto (.refreshed (.error .shuttingDown)))
  | _ => none

def shed : Task hk :=
  match t.role with
  | .refresh _ => t.goto (.refreshed (.error (.allFailed "singleflight saturated")))
  | _ => t.goto (.ended (.error (.upstream "too many distinct queries in flight")))

/-- A follower of the key's flight gets what was published; nobody else notices. -/
def hear (key : CacheKey) (flight : Except FlightError Stored) : Task hk :=
  if t.key = key then
    match t.role, t.stage with
    | .refresh _, .following =>
      t.goto (.refreshed (flight.mapError fun _ => .allFailed "coalesced refresh failed"))
    | _, .following => t.goto (.ended (followed (some flight)))
    | _, _ => t
  else t

end Task

/-- What an action of a task does, if the task can take it. -/
abbrev Step (hk : Hickory) := Option (Effect (Shared hk) (Task hk))

section Actions

variable (s : Shared hk) (t : Task hk)

def stay (s : Shared hk) (t : Task hk) : Step hk := some (.stay s (some t))

def quit (s : Shared hk) : Step hk := some (.stay s none)

def checkFailure (now : Nat) : Step hk :=
  match t.role, t.stage with
  | .client _, .asked =>
    match s.cache.failure t.key now with
    | (some failure, cache) => stay { s with cache } (t.goto (.refused failure))
    | (none, cache) => stay { s with cache } (t.goto .checked)
  | _, _ => none

/-- The cache lookup. An expired entry is answered with at once, or after a refresh if one is
allowed now. -/
def lookup (now : Nat) (refreshAllowed : Bool) : Step hk :=
  match t.role, t.stage with
  | .client asker, .checked =>
    match s.cache.get t.key now with
    | .fresh entry remaining => stay s (t.goto (.answering (s.tagged t.key entry) remaining false))
    | .stale entry _ =>
      let stale := s.tagged t.key entry
      if refreshAllowed then
        stay s { t with role := .refresh (some (asker, stale)), stage := .joining }
      else stay s (t.goto (.answering stale 0 true))
    | .miss => stay s (t.goto .joining)
  | _, _ => none

def join (saturated : Bool) : Step hk :=
  match t.stage with
  | .joining =>
    if s.inFlight t.key then stay s (t.goto .following)
    else if saturated then stay s t.shed
    else stay (s.setFlight t.key true) (t.goto .leading)
  | _ => none

def validationOf : Task hk := { t with role := .validation, stage := .validating }

/-- The awaits of `fetch` up to the received answer. `permit` names the background validation when
there is room for one. -/
def receive (env : FetchEnv) (permit : Option Nat) : Step hk :=
  match t.stage with
  | .leading =>
    match t.resolver.receive t.key env with
    | none => none
    | some (.error e) => stay s (t.goto (.publishing (.error e)))
    | some (.ok got) =>
      some (.fork s (t.goto (.received got env (vettingOf t.resolver t.key env)))
        (if t.resolver.validatesInBackground t.key && !t.resolver.validators.isEmpty then
          permit.map fun child => (child, validationOf t)
        else none))
  | _ => none

/-- The second opinion, the entry, and the writes before the insert. -/
def make : Step hk :=
  match t.stage with
  | .received got env vetting =>
    let entry := t.resolver.entryOf got env s.cache.internalMaxTtl
    stay { s with cache := s.cache.remember t.key entry } (t.goto (.made { entry, vetting }))
  | _ => none

def insertEntry : Step hk :=
  match t.stage with
  | .made stored => stay (s.insert t.key stored) (t.goto (.publishing (.ok stored)))
  | _ => none

def publishFlight : Step hk :=
  match t.stage with
  | .publishing outcome =>
    some (.broadcast (s.setFlight t.key false) (some (t.conclude outcome))
      fun other => other.hear t.key (publish t.ledBy outcome))
  | _ => none

/-- A leader's future is dropped at an await: the client went away, or the refresh was cancelled. -/
def cancel : Step hk :=
  if t.stage.canCancel then
    some (.broadcast (s.setFlight t.key false) t.cancelled
      fun other => other.hear t.key (.error .leaderGone))
  else none

def timeout : Step hk :=
  match t.role, t.stage with
  | .client _, .following => stay s (t.goto (.ended (followed none)))
  | _, _ => none

def takeRefresh : Step hk :=
  match t.role, t.stage with
  | .refresh (some (asker, _)), .refreshed (.ok stored) =>
    stay s { t with role := .client asker, stage := .ended (.ok stored) }
  | _, _ => none

/-- The client stops waiting and answers with the expired entry; the refresh goes on. -/
def goStale (child : Nat) : Step hk :=
  match t.role with
  | .refresh (some (asker, stale)) =>
    some (.fork s { t with role := .refresh none }
      (some (child, { t with role := .client asker, stage := .answering stale 0 true })))
  | _ => none

def send (source : Option Stored) (answer : Answer) : Step hk :=
  quit { s with
    responses :=
      { key := t.key, bars := t.bars, source, answer
        strict := s.current.cfg.dnssec.mode == .strict } :: s.responses }

def mustRecord : Except FailureReport Stored → Bool
  | .ok _ => false
  | .error report => report.remember

/-- The read of `failure_streak` before a failure is remembered. -/
def readStreak : Step hk :=
  match t.role, t.stage with
  | .client _, .ended (.error report) =>
    if report.remember then
      stay s (t.goto (.recording report (s.cache.failureStreak t.key)))
    else none
  | _, _ => none

def respond (now : Nat) (env : ResponseEnv) : Step hk :=
  match t.role with
  | .client asker =>
    let client := asker.client now env
    match t.stage with
    | .refused failure => send s t none (t.resolver.failureAnswer client failure)
    | .answering stored remaining stale =>
      send s t (some stored)
        (if stale then t.resolver.staleAnswer client stored.entry
        else t.resolver.hitAnswer client stored.entry remaining)
    | .ended outcome =>
      if mustRecord outcome then none
      else
        send s t outcome.toOption
          (t.resolver.settle t.key client s.cache (outcome.map Stored.entry)).1
    | .recording report streak =>
      send (s.recordFailure t.key (t.resolver.backoff streak now)) t none
        (t.resolver.settle t.key client s.cache (.error report)).1
    | _ => none
  | _ => none

/-- What a background validation came to. A Bogus message without a failed signature is kept. -/
def verdict (run : ValidatorRun) : Step hk :=
  match t.stage with
  | .validating =>
    match run.result, backgroundOutcome t.resolver.cfg.dnssec run with
    | .answered msg, .bogus =>
      if carriesFailedSignatures msg then
        stay (s.condemn t.key msg) (t.goto (.judging msg none))
      else quit s
    | .answered msg, .secure => stay s (t.goto (.judging msg (some .secure)))
    | .answered msg, .provenInsecure => stay s (t.goto (.judging msg (some .insecure)))
    | _, _ => quit s
  | _ => none

/-- The read of `promote` or `evict_variant`. -/
def readCache : Step hk :=
  match t.stage with
  | .judging msg (some status) =>
    match DnsCache.promoted (s.cache.answers t.key) (answerFingerprint hk msg) status with
    | some updated => stay s (t.goto (.promoting (s.tagged t.key updated)))
    | none => quit s
  | .judging msg none =>
    if DnsCache.condemned (s.cache.answers t.key) (answerFingerprint hk msg) then
      stay s (t.goto (.evicting msg))
    else quit (s.evict t.key msg)
  | _ => none

/-- The write of `promote` or `evict_variant`. -/
def writeCache : Step hk :=
  match t.stage with
  | .promoting stored => quit (s.rewrite t.key stored)
  | .evicting msg =>
    quit ({ s with cache := s.cache.invalidate t.key }.evict t.key msg)
  | _ => none

end Actions

inductive Action where
  | checkFailure (now : Nat)
  | lookup (now : Nat) (refreshAllowed : Bool)
  | join (saturated : Bool)
  | receive (env : FetchEnv) (permit : Option Nat)
  | make
  | insert
  | publish
  | cancel
  | timeout
  | takeRefresh
  | goStale (child : Nat)
  | readStreak
  | respond (now : Nat) (env : ResponseEnv)
  | verdict (run : ValidatorRun)
  | read
  | write

variable (s : Shared hk)

def act (t : Task hk) : Action → Step hk
  | .checkFailure now => checkFailure s t now
  | .lookup now refreshAllowed => lookup s t now refreshAllowed
  | .join saturated => join s t saturated
  | .receive env permit => receive s t env permit
  | .make => make s t
  | .insert => insertEntry s t
  | .publish => publishFlight s t
  | .cancel => cancel s t
  | .timeout => timeout s t
  | .takeRefresh => takeRefresh s t
  | .goStale child => goStale s t child
  | .readStreak => readStreak s t
  | .respond now env => respond s t now env
  | .verdict run => verdict s t run
  | .read => readCache s t
  | .write => writeCache s t

/-- A reload that succeeded, or an entry removed by a flush, an expiry or the memory bound. -/
inductive Event (hk : Hickory) where
  | reload (r : Resolver hk)
  | drop (key : CacheKey)
  | dropFailure (key : CacheKey)

def event : Event hk → Option (Shared hk)
  | .reload r => some { s with current := r }
  | .drop key => some { s with cache := s.cache.invalidate key }
  | .dropFailure key => some { s with cache := s.cache.clearFailure key }

inductive Start where
  | arrive (asker : Asker) (view : PolicyView)
  | prefetch (key : CacheKey)

def start : Start → Task hk
  | .arrive asker view =>
    { resolver := s.current, key := clientKey s.current asker.request view, bars := s.condemned
      role := .client asker, stage := .asked }
  | .prefetch key =>
    { resolver := s.current, key, bars := s.condemned, role := .refresh none, stage := .joining }

def program (hk : Hickory) : Program (Shared hk) (Task hk) (Event hk) Start Action where
  env := event
  start := start
  act := act

abbrev State (hk : Hickory) := Pool (Shared hk) (Task hk)

abbrev Label (hk : Hickory) := TaskLabel (Event hk) Start Action

def initial (r : Resolver hk) (serveStale : ServeStaleConfig) (internalMaxTtl : Nat) :
    State hk where
  shared :=
    { current := r, cache := .new serveStale internalMaxTtl, tags := fun _ => .unvetted
      inFlight := fun _ => false, condemned := [], evicted := [], responses := [] }
  tasks _ := none

/-! ## Concrete runs -/

def defaultStale : ServeStaleConfig where
  enabled := true
  maxStaleSecs := 86400

def addressAsker : Asker where
  request := addressQuery
  maxSize := 512

def addressView : PolicyView where
  group := "default"
  ecsIdentity := none

def ask (hk : Hickory) (id : Nat) : List (Label hk) :=
  [.start id (.arrive addressAsker addressView), .act id (.checkFailure 0),
   .act id (.lookup 0 false)]

def fetchAndAnswer (hk : Hickory) (id : Nat) (env : FetchEnv) (permit : Option Nat) :
    List (Label hk) :=
  [.act id (.join false), .act id (.receive env permit), .act id .make, .act id .insert,
   .act id .publish, .act id (.respond 0 quietEnv)]

def upstreamReplies (reply : WireMessage) : FetchEnv :=
  fetchEnv { result := .timedOut, observed := .none, deadlineLeft := false }
    [.finished 0 (.replied reply 0) none]

def upstreamRefuses : FetchEnv :=
  fetchEnv { result := .timedOut, observed := .none, deadlineLeft := false }
    [.finished 0 (.failed false "refused") none, .drained]

def sampleKey : CacheKey := clientKey (singleResolver .background) addressQuery addressView

end EgressDns.System
