import EgressDns.Cache.Singleflight
import EgressDns.Resolver.Fetch

/-!
# Answering a client after a miss

`Resolver::resolve_miss` and `Resolver::refresh` with the outcomes of `cache/singleflight.rs`:
what a leader publishes, what a follower makes of it, and when a failure is remembered. What
`serve_stale` hands out is built from an expired entry with nothing remaining: its records have been
aged to zero, and the policy only ever takes minima.
-/

namespace EgressDns

inductive ExtendedError where
  | staleAnswer | dnssecBogus | staleNxdomain | noReachableAuthority | networkError
  deriving DecidableEq, Repr

def ExtendedError.code : ExtendedError → UInt16
  | staleAnswer => 3
  | dnssecBogus => 6
  | staleNxdomain => 19
  | noReachableAuthority => 22
  | networkError => 23

def edeOptionCode : UInt16 := 15

def encodeEde (err : ExtendedError) (extraText : String) : EdnsOption :=
  .unknown edeOptionCode (be16 err.code ++ (bounded extraText 60).toUTF8.toList)

def attachEde (msg : Message) (err : ExtendedError) (extraText : String) : Message :=
  { msg with edns := msg.edns.map fun edns =>
      { edns with options := edns.options ++ [encodeEde err extraText] } }

def errorResponse (hk : Hickory) (request : Message) (code : ResponseCode)
    (recursionAvailable : Bool) : Message where
  metadata := { hk.responseFromRequest request.metadata with
    responseCode := code, recursionAvailable := recursionAvailable }
  queries := request.queries
  answers := []
  authorities := []
  additionals := []
  edns := request.edns.map fun e =>
    { maxPayload := e.maxPayload, version := 0, dnssecOk := e.dnssecOk, options := [] }

inductive AnswerOrigin where
  | cacheHit | negativeHit | failureHit | stale | upstream | rejected
  deriving DecidableEq, Repr

structure Answer where
  message : Message
  origin : AnswerOrigin
  maxSize : Nat

def ResolveError.text : ResolveError → String
  | noRoute group => "no upstream route available in group " ++ "`" ++ group ++ "`"
  | allFailed detail => "all upstreams failed: " ++ detail
  | timeout elapsedMs => "foreground budget exceeded after " ++ toString elapsedMs ++ " ms"
  | invalidResponse reason => "upstream response rejected: " ++ reason
  | dnssecBogus => "DNSSEC validation failed (bogus)"
  | proofIncomplete outcome => "DNSSEC proof could not be completed (" ++ outcome ++ ")"
  | shuttingDown => "resolver shutting down"
  | overloaded limit =>
    "upstream concurrency ceiling reached (" ++ toString limit ++ " permits configured)"

structure FailureReport where
  detail : String
  remember : Bool
  ede : ExtendedError
  deriving DecidableEq, Repr

def FailureReport.fromError (e : ResolveError) : FailureReport where
  detail := e.text
  remember := !e.isTransient
  ede := if e = .dnssecBogus then .dnssecBogus else .noReachableAuthority

def FailureReport.upstream (detail : String) : FailureReport where
  detail := detail
  remember := true
  ede := .noReachableAuthority

inductive LedBy where
  | miss | refresh
  deriving DecidableEq, Repr

/-- What the leader publishes. A refresh publishes every failure as one to remember. -/
def publish {V : Type} (led : LedBy) : Except ResolveError V → Except FlightError V
  | .ok value => .ok value
  | .error e =>
    match led with
    | .miss => .error (if e.isTransient then .transient e.text else .failed e.text)
    | .refresh => .error (.failed e.text)

/-- What a follower of `resolve_miss` makes of a flight; `none` when its wait timed out. -/
def followed {V : Type} : Option (Except FlightError V) → Except FailureReport V
  | some (.ok value) => .ok value
  | some (.error e) =>
    .error { detail := e.detail, remember := e.isCacheable, ede := .noReachableAuthority }
  | none => .error (.upstream "coalesced request timed out")

structure Client where
  request : Message
  clientDo : Bool
  maxSize : Nat
  now : Nat
  env : ResponseEnv

namespace Resolver

variable {hk : Hickory} (r : Resolver hk)

/-- The failure `resolve_miss` remembers after so many before it, its lifetime doubling with each
repetition. -/
def backoff (streak now : Nat) : FailureEntry :=
  let streak := min (streak + 1) (2 ^ 32 - 1)
  { recordedAt := now
    ttl := min (r.cfg.failureMinTtl * 2 ^ min streak 6) r.cfg.failureMaxTtl
    rcode := .servFail
    reason := "upstream resolution failed"
    consecutive := streak }

def failureEntry (c : DnsCache) (key : CacheKey) (now : Nat) : FailureEntry :=
  r.backoff (c.failureStreak key) now

/-- The second half of `resolve_miss`: build the answer, or report and maybe remember a failure. -/
def settle (key : CacheKey) (client : Client) (c : DnsCache) :
    Except FailureReport CacheEntry → Answer × DnsCache
  | .ok entry =>
    ({ message := buildResponse hk r.cfg client.env client.request entry
          (entry.remainingTtl client.now) false client.clientDo
       origin := .upstream, maxSize := client.maxSize }, c)
  | .error report =>
    let msg := errorResponse hk client.request .servFail true
    ({ message :=
          if r.cfg.dnssec.extendedErrors then attachEde msg report.ede report.detail else msg
       origin := .rejected, maxSize := client.maxSize },
      if report.remember then c.recordFailure key (r.failureEntry c key client.now) else c)

inductive Joined where
  | leader (env : FetchEnv)
  | follower (flight : Option (Except FlightError CacheEntry))
  | saturated

/-- `resolve_miss`, undisturbed: the answer, what a leader published and the caches left. -/
def resolveMiss (key : CacheKey) (client : Client) (joined : Joined) (c : DnsCache) :
    Option (Answer × Option (Except FlightError CacheEntry) × DnsCache) :=
  match joined with
  | .leader env =>
    (r.fetch key env c).map fun (outcome, c) =>
      let (answer, c) := r.settle key client c (outcome.mapError FailureReport.fromError)
      (answer, some (publish .miss outcome), c)
  | .follower flight =>
    let (answer, c) := r.settle key client c (followed flight)
    some (answer, none, c)
  | .saturated =>
    let (answer, c) :=
      r.settle key client c (.error (.upstream "too many distinct queries in flight"))
    some (answer, none, c)

end Resolver

namespace Resolver

variable {hk : Hickory} (r : Resolver hk)

def hitAnswer (client : Client) (entry : CacheEntry) (remaining : Nat) : Answer where
  message := buildResponse hk r.cfg client.env client.request entry remaining false client.clientDo
  origin := if entry.kind = .positive then .cacheHit else .negativeHit
  maxSize := client.maxSize

def failureAnswer (client : Client) (failure : FailureEntry) : Answer where
  message :=
    let msg := errorResponse hk client.request failure.rcode true
    if r.cfg.dnssec.extendedErrors then attachEde msg .networkError failure.reason else msg
  origin := .failureHit
  maxSize := client.maxSize

def staleAnswer (client : Client) (entry : CacheEntry) : Answer where
  message :=
    let msg := buildResponse hk r.cfg client.env client.request entry 0 true client.clientDo
    if r.cfg.staleIncludeEde && r.cfg.dnssec.extendedErrors then
      attachEde msg (if entry.kind = .nxDomain then .staleNxdomain else .staleAnswer)
        "serving expired data"
    else msg
  origin := .stale
  maxSize := client.maxSize

end Resolver

section Settle

variable {hk : Hickory} (r : Resolver hk) (key : CacheKey) (client : Client) (c : DnsCache)

@[simp] theorem Resolver.settle_error_records (report : FailureReport) :
    (r.settle key client c (.error report)).1.message.records = [] := by
  simp only [Resolver.settle]
  split <;> rfl

@[simp] theorem Resolver.settle_error_answers (report : FailureReport) :
    (r.settle key client c (.error report)).2.answers = c.answers := by
  simp only [Resolver.settle]
  split <;> rfl

end Settle

section Fetched

variable {hk : Hickory} {r : Resolver hk} {key : CacheKey} {env : FetchEnv}

theorem Resolver.fetch_of_received {got : Resolver.Received}
    (h : r.receive key env = some (.ok got)) (c : DnsCache) :
    r.fetch key env c = some (.ok (r.entryOf got env c.internalMaxTtl),
      c.store key (r.entryOf got env c.internalMaxTtl)) := by
  simp [Resolver.fetch, h]

theorem Resolver.fetch_of_error {e : ResolveError} (h : r.receive key env = some (.error e))
    (c : DnsCache) : r.fetch key env c = some (.error e, c) := by
  simp [Resolver.fetch, h]

theorem Resolver.resolveMiss_leader (client : Client) {c c' : DnsCache}
    {outcome : Except ResolveError CacheEntry} (h : r.fetch key env c = some (outcome, c')) :
    r.resolveMiss key client (.leader env) c =
      some ((r.settle key client c' (outcome.mapError FailureReport.fromError)).1,
        some (publish .miss outcome),
        (r.settle key client c' (outcome.mapError FailureReport.fromError)).2) := by
  simp [Resolver.resolveMiss, h]

end Fetched

/-- The TTL a stale answer is documented to carry: the configured one, lowered only by the cap
after a network change and by what is left of the signatures. -/
def staleTtl (cfg : TtlConfig) (recentChange : Bool) (signature : Option Nat) : Nat :=
  let cap := if recentChange then min cfg.capServeStale cfg.capNetworkChange else cfg.capServeStale
  match signature with
  | some sig => min cap sig
  | none => cap

/-- `maybe_strip_dnssec_records` keeps or removes a record by the question and its type. -/
def StripsByType (hk : Hickory) (keep : List Query → RecordType → Bool) : Prop :=
  ∀ msg : Message,
    (hk.stripDnssec msg).answers = msg.answers.filter fun r => keep msg.queries r.recordType

section Sections

variable (hk : Hickory) (cfg : Config) (env : ResponseEnv) (request : Message)
  (entry : CacheEntry) (remaining : Nat) (isStale clientDo : Bool)

theorem buildResponse_answers :
    (buildResponse hk cfg env request entry remaining isStale clientDo).answers =
      if clientDo then (shapedAnswer hk cfg env request entry remaining isStale).1.answers
      else
        (hk.stripDnssec (shapedAnswer hk cfg env request entry remaining isStale).1).answers := by
  unfold buildResponse
  simp only [attachResponseEdns_sections]
  split <;> rfl

theorem ttl_le_clientTtl {r : Record}
    (hr : r ∈ (buildResponse hk cfg env request entry remaining isStale clientDo).answers) :
    r.ttl ≤ (shapedAnswer hk cfg env request entry remaining isStale).2.clientTtl := by
  obtain ⟨added, heff⟩ := applyAnswerPolicy_effect
    (answerContext hk cfg env request entry remaining isStale) (agedMessage hk env request entry)
  have hshaped :=
    (buildResponse_sublist hk cfg env request entry remaining isStale clientDo).1.subset hr
  obtain ⟨r₀, _, rfl⟩ := List.mem_map.mp (heff.answers.mem_iff.mp hshaped)
  exact min_le_right _ _

theorem shapedAnswer_recordType (t : RecordType) :
    (∃ r ∈ (shapedAnswer hk cfg env request entry remaining isStale).1.answers, r.recordType = t) ↔
      ∃ r ∈ entry.message.answers, r.recordType = t := by
  constructor
  · rintro ⟨r, hr, rfl⟩
    obtain ⟨r₀, hr₀, ht⟩ := applyAnswerPolicy_recordType _ _ r hr
    obtain ⟨r₁, hr₁, rfl⟩ := List.mem_map.mp hr₀
    exact ⟨r₁, hr₁, ht⟩
  · rintro ⟨r, hr, rfl⟩
    obtain ⟨added, heff⟩ := applyAnswerPolicy_effect
      (answerContext hk cfg env request entry remaining isStale) (agedMessage hk env request entry)
    have haged : r.mapTtl (fun ttl => ttl - entry.ageSecs env.now) ∈
        (agedMessage hk env request entry).answers := List.mem_map_of_mem hr
    have hcapped := List.mem_map_of_mem (f := Record.mapTtl (min · (shapedAnswer hk cfg env request
      entry remaining isStale).2.clientTtl)) (List.mem_append_right added haged)
    exact ⟨_, heff.answers.mem_iff.mpr hcapped, rfl⟩

variable {hk} {keep : List Query → RecordType → Bool}

theorem buildResponse_answers_eq_nil_iff (hstrip : StripsByType hk keep) :
    (buildResponse hk cfg env request entry remaining isStale clientDo).answers = [] ↔
      ∀ r ∈ entry.message.answers,
        clientDo = false ∧ keep request.queries r.recordType = false := by
  have hqueries : (shapedAnswer hk cfg env request entry remaining isStale).1.queries =
      request.queries := applyAnswerPolicy_queries _ _
  rw [buildResponse_answers, hstrip, hqueries]
  constructor
  · intro hnil r hr
    obtain ⟨r₀, hr₀, ht⟩ := (shapedAnswer_recordType hk cfg env request entry remaining isStale
      r.recordType).mpr ⟨r, hr, rfl⟩
    cases clientDo with
    | true =>
      rw [if_pos rfl] at hnil
      rw [hnil] at hr₀
      cases hr₀
    | false =>
      have hdropped := List.filter_eq_nil_iff.mp hnil r₀ hr₀
      rw [ht] at hdropped
      exact ⟨rfl, Bool.eq_false_iff.mpr hdropped⟩
  · intro hall
    refine List.eq_nil_iff_forall_not_mem.mpr fun r hr => ?_
    have horigin : r ∈ (shapedAnswer hk cfg env request entry remaining isStale).1.answers := by
      split at hr
      · exact hr
      · exact (List.mem_filter.mp hr).1
    obtain ⟨r₀, hr₀, ht⟩ := (shapedAnswer_recordType hk cfg env request entry remaining isStale
      r.recordType).mp ⟨r, horigin, rfl⟩
    obtain ⟨hdo, hdropped⟩ := hall r₀ hr₀
    rw [hdo, if_neg Bool.false_ne_true] at hr
    have hkept := (List.mem_filter.mp hr).2
    rw [← ht, hdropped] at hkept
    cases hkept

end Sections

section Stale

variable {hk : Hickory} (r : Resolver hk) (client : Client) (entry : CacheEntry)

theorem staleAnswer_answers :
    (r.staleAnswer client entry).message.answers =
      (buildResponse hk r.cfg client.env client.request entry 0 true client.clientDo).answers := by
  simp only [Resolver.staleAnswer]
  split <;> rfl

theorem staleAnswer_ttl : ∀ rec ∈ (r.staleAnswer client entry).message.answers, rec.ttl = 0 := by
  intro rec hrec
  rw [staleAnswer_answers] at hrec
  have hcap := ttl_le_clientTtl hk r.cfg client.env client.request entry 0 true client.clientDo hrec
  have hzero := (clientTtl_le hk r.cfg client.env client.request entry 0 true).1
  exact Nat.le_zero.mp (hcap.trans hzero)

/-- A stale answer carries the documented TTL exactly when that is zero or no answer record is
passed on at all: every record it does carry has TTL zero. -/
theorem stale_ttl_iff {keep : List Query → RecordType → Bool} (hstrip : StripsByType hk keep) :
    (∀ rec ∈ (r.staleAnswer client entry).message.answers,
      rec.ttl = staleTtl r.cfg.ttl client.env.recentChange
        (entry.remainingSignatureSecs client.env.nowUnix)) ↔
      staleTtl r.cfg.ttl client.env.recentChange
          (entry.remainingSignatureSecs client.env.nowUnix) = 0 ∨
        ∀ rec ∈ entry.message.answers,
          client.clientDo = false ∧ keep client.request.queries rec.recordType = false := by
  constructor
  · intro hall
    cases hanswers : (r.staleAnswer client entry).message.answers with
    | nil =>
      rw [staleAnswer_answers] at hanswers
      exact .inr ((buildResponse_answers_eq_nil_iff r.cfg client.env client.request entry 0 true
        client.clientDo hstrip).mp hanswers)
    | cons rec rest =>
      have hmem : rec ∈ (r.staleAnswer client entry).message.answers :=
        hanswers ▸ List.mem_cons_self
      exact .inl ((hall rec hmem).symm.trans (staleAnswer_ttl r client entry rec hmem))
  · rintro (hzero | hnone) rec hrec
    · rw [hzero]
      exact staleAnswer_ttl r client entry rec hrec
    · have hnil := (buildResponse_answers_eq_nil_iff r.cfg client.env client.request entry 0 true
        client.clientDo hstrip).mpr hnone
      rw [staleAnswer_answers, hnil] at hrec
      cases hrec

end Stale

theorem stripsByType_sample :
    StripsByType .sample fun _ rtype => !Hickory.dnssecTypes rtype := fun _ => rfl

def lateClient : Client where
  request := addressQuery
  clientDo := false
  maxSize := 512
  now := 310 * nanosPerSec
  env := { quietEnv with now := 310 * nanosPerSec, nowUnix := 310 }

theorem stale_ttl_iff_signatures_expired :
    StripsByType .sample (fun _ rtype => !Hickory.dnssecTypes rtype) ∧
    ∀ rec ∈ ((singleResolver .background).staleAnswer lateClient
      { addressEntry with rrsigExpiryUnix := some 305 }).message.answers,
      rec.ttl = staleTtl (singleResolver .background).cfg.ttl false (some 0) := by
  refine ⟨stripsByType_sample, ?_⟩
  exact (stale_ttl_iff (singleResolver .background) lateClient
    { addressEntry with rrsigExpiryUnix := some 305 } stripsByType_sample).mpr (.inl (by decide))

/-- The entry is within the stale window and thirty seconds are configured; the client gets zero. -/
theorem stale_answer_has_ttl_zero :
    DnsCache.fresh.judge (some addressEntry) lateClient.now = .stale addressEntry 10 ∧
    staleTtl (singleResolver .background).cfg.ttl lateClient.env.recentChange
      (addressEntry.remainingSignatureSecs lateClient.env.nowUnix) = 30 ∧
    ((singleResolver .background).staleAnswer lateClient addressEntry).message.answers.map
      Record.ttl = [0] := by
  decide

end EgressDns
