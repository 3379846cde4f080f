import EgressDns.Resolver.Miss

/-!
# Strict validation in front of the client

What `fetch` and `resolve_miss` do with the last pass of the validation loop: a verdict of
forgery fails closed, an unfinished proof does not.
-/

namespace EgressDns

theorem isRetryable_of_lt_lastAttempt {cfg : DnssecConfig} {runs : Nat → ValidatorRun}
    {retries start i : Nat} (hs : start ≤ i) (hi : i < lastAttempt cfg runs retries start) :
    (judgeRun cfg (runs i)).2.isRetryable = true := by
  induction retries generalizing start with
  | zero =>
    rw [lastAttempt] at hi
    omega
  | succ retries ih =>
    rw [lastAttempt] at hi
    split at hi
    · rename_i hretry
      rcases Nat.eq_or_lt_of_le hs with rfl | hlt
      · exact (Bool.and_eq_true_iff.mp hretry).1
      · exact ih hlt hi
    · omega

theorem not_isRetryable_of_observed_none {msg : Message} {cfg : DnssecConfig} :
    (classifyOutcome msg cfg false .none).isRetryable = false := by
  unfold classifyOutcome
  cases dnssecStatus msg cfg false <;> rfl

namespace Resolver

variable {hk : Hickory} (r : Resolver hk) (key : CacheKey) (env : FetchEnv)

/-- The validator is asked: the group and the name resolve and a permit is granted. -/
structure Asked : Prop where
  group : (r.registry.group key.view.group).isSome = true
  name : env.name.isSome = true
  validators : r.validators ≠ []
  permit : env.permit = true

/-- Some pass of the validation loop returned this message under this observation. -/
def Returned (msg : Message) (observed : ProofFailure) : Prop :=
  ∃ attempt, 1 ≤ attempt ∧ attempt ≤ lastAttempt r.cfg.dnssec env.validatorRun 1 1 ∧
    (env.validatorRun attempt).result = .answered msg ∧
    (env.validatorRun attempt).observed = observed

variable {r key env} {msg : Message} {outcome : ValidationOutcome}

theorem validated_of_returned (h : r.Returned env msg .none) :
    r.validated env = (some msg, classifyOutcome msg r.cfg.dnssec false .none) := by
  obtain ⟨attempt, hlo, hhi, hresult, hobserved⟩ := h
  have hjudge : judgeRun r.cfg.dnssec (env.validatorRun attempt) =
      (some msg, classifyOutcome msg r.cfg.dnssec false .none) := by
    simp only [judgeRun, hresult, hobserved]
  rcases Nat.eq_or_lt_of_le hhi with heq | hlt
  · rw [validated, finalRun, ← heq]
    exact hjudge
  · have hretry := isRetryable_of_lt_lastAttempt hlo hlt
    rw [hjudge, not_isRetryable_of_observed_none] at hretry
    cases hretry

section Asked

variable (hmode : r.cfg.dnssec.mode = .strict) (hcd : key.mode.checkingDisabled = false)
  (h : r.Asked key env)
include hmode hcd h

theorem receive_of_asked :
    ∃ group request, r.receive key env = some (r.lastCheck group request
      ((actOn hk group request env (r.validated env)).map fun msg => (msg, none, false))) := by
  obtain ⟨group, hgroup⟩ := Option.isSome_iff_exists.mp h.group
  obtain ⟨name, hname⟩ := Option.isSome_iff_exists.mp h.name
  have hsync : r.synchronous key = true := by
    simp [synchronous, hmode, hcd, DnssecMode.blocksTheClient]
  have hstrict (request : Message) :
      r.strictAnswer key group request env = actOn hk group request env (r.validated env) := by
    rw [strictAnswer, if_neg h.validators, if_neg (by simp [h.permit])]
  refine ⟨group, r.fetchRequest key name env, ?_⟩
  simp only [receive, hgroup, hname, obtain, hsync, if_true, Option.map_some, hstrict]

theorem receive_of_message (hv : r.validated env = (some msg, outcome))
    (hne : dnssecStatus msg r.cfg.dnssec false ≠ .bogus) (hout : outcome ≠ .bogus) :
    ∃ group request, r.receive key env = some (.ok
      { group, request, response := msg, route := none
        status := dnssecStatus msg r.cfg.dnssec false }) := by
  obtain ⟨group, request, hrecv⟩ := receive_of_asked hmode hcd h
  refine ⟨group, request, ?_⟩
  have hact : actOn hk group request env (some msg, outcome) = .ok msg := by
    cases outcome <;> first | rfl | exact absurd rfl hout
  rw [hrecv, hv, hact]
  simp only [Except.map, lastCheck, if_neg hne]

theorem receive_of_bogus_message (hv : r.validated env = (some msg, outcome))
    (hb : dnssecStatus msg r.cfg.dnssec false = .bogus) :
    r.receive key env = some (.error .dnssecBogus) := by
  obtain ⟨group, request, hrecv⟩ := receive_of_asked hmode hcd h
  rw [hrecv, hv]
  cases outcome with
  | bogus => rfl
  | _ => simp only [actOn, Except.map, lastCheck, if_pos hb]

end Asked

/-- The fetch ends in a Bogus error, writes no answer, and neither the leader's response nor any
follower's carries a record. -/
structure FailsClosed {hk : Hickory} (r : Resolver hk) (key : CacheKey) (env : FetchEnv)
    (c : DnsCache) : Prop where
  fetched : r.fetch key env c = some (.error .dnssecBogus, c)
  leader : ∀ client, ∃ answer flight c',
    r.resolveMiss key client (.leader env) c = some (answer, flight, c') ∧
      answer.message.records = [] ∧ c'.answers = c.answers
  follower : ∀ (other : Resolver hk) led client c',
    (other.settle key client c'
      (followed (some (publish led (.error .dnssecBogus))))).1.message.records = []

theorem failsClosed_of_receive (h : r.receive key env = some (.error .dnssecBogus))
    (c : DnsCache) : r.FailsClosed key env c where
  fetched := fetch_of_error h c
  leader client :=
    ⟨_, _, _, resolveMiss_leader client (fetch_of_error h c), settle_error_records ..,
      settle_error_answers ..⟩
  follower other led client c' := by
    cases led <;> exact settle_error_records ..

end Resolver

/-- Strict validation fails closed on a returned message exactly when a Bogus mark is the weakest
mark on its data: a single Indeterminate mark beside it lets the answer through. -/
theorem forged_record_fails_closed_iff {hk : Hickory} (r : Resolver hk) (key : CacheKey)
    (env : FetchEnv) (c : DnsCache) (msg : Message) (hmode : r.cfg.dnssec.mode = .strict)
    (hcd : key.mode.checkingDisabled = false) (hasked : r.Asked key env)
    (hreturned : r.Returned env msg .none) :
    r.FailsClosed key env c ↔
      (∃ rec ∈ dataRecords msg, rec.proof = .bogus) ∧
        ∀ rec ∈ dataRecords msg, rec.proof ≠ .indeterminate := by
  have hv := Resolver.validated_of_returned hreturned
  rw [← dnssecStatus_eq_bogus_iff msg r.cfg.dnssec false (by simp [hmode])]
  constructor
  · intro hclosed
    by_contra hne
    have hout : classifyOutcome msg r.cfg.dnssec false .none ≠ .bogus := by
      rw [ne_eq, classifyOutcome_eq_bogus_iff]
      exact fun h => hne h.1
    obtain ⟨group, request, hrecv⟩ := Resolver.receive_of_message hmode hcd hasked hv hne hout
    have hfetch := Resolver.fetch_of_received hrecv c
    rw [hclosed.fetched] at hfetch
    cases hfetch
  · intro hb
    exact Resolver.failsClosed_of_receive
      (Resolver.receive_of_bogus_message hmode hcd hasked hv hb) c

def markedAnswer (address signature : Proof) : Message :=
  { emptyAnswer .noError with
    answers :=
      [{ name := ⟨[[97]]⟩, ttl := 300, dnsClass := classIn, data := .a 0x06060606
         proof := address },
       { name := ⟨[[97]]⟩, ttl := 300, dnsClass := classIn, data := .rrsig 4000000000 []
         proof := signature }] }

theorem asked_singleResolver (mode : DnssecMode) (msg : Message) (observed : ProofFailure) :
    (singleResolver mode).Asked addressKey (validatorAnswers msg observed) where
  group := rfl
  name := rfl
  validators := by exact List.cons_ne_nil _ _
  permit := rfl

theorem returned_validatorAnswers (mode : DnssecMode) (msg : Message) (observed : ProofFailure) :
    (singleResolver mode).Returned (validatorAnswers msg observed) msg observed := by
  refine ⟨1, le_refl 1, ?_, rfl, rfl⟩
  rw [lastAttempt]
  split
  · exact Nat.le_succ 1
  · exact le_refl 1

theorem forged_record_fails_closed_both_bogus :
    (singleResolver .strict).FailsClosed addressKey
      (validatorAnswers (markedAnswer .bogus .bogus) .none) .fresh :=
  (forged_record_fails_closed_iff _ _ _ _ _ rfl rfl (asked_singleResolver _ _ _)
    (returned_validatorAnswers _ _ _)).mpr (by decide)

def forgedEntry : CacheEntry where
  message := markedAnswer .bogus .indeterminate
  receivedAt := 0
  receivedUnix := 0
  ttl := 300
  kind := .positive
  dnssec := .indeterminate
  source := { server := "validator", transport := .udp }
  fingerprint := answerFingerprint .sample (markedAnswer .bogus .indeterminate)
  rrsigExpiryUnix := some 4000000000

/-- A forged address is cached and served because its signature was left unevaluated. -/
theorem forged_record_served_beside_indeterminate :
    (∃ rec ∈ (markedAnswer .bogus .indeterminate).answers, rec.proof = .bogus) ∧
    (singleResolver .strict).fetch addressKey
        (validatorAnswers (markedAnswer .bogus .indeterminate) .none) .fresh =
      some (.ok forgedEntry, DnsCache.fresh.store addressKey forgedEntry) ∧
    (DnsCache.fresh.store addressKey forgedEntry).answers addressKey = some forgedEntry ∧
    ∃ rec ∈ (buildResponse .sample (defaultConfig .strict) quietEnv addressQuery forgedEntry 300
      false false).answers, rec.data = .a 0x06060606 := by
  refine ⟨by decide, by rfl, ?_, by decide⟩
  rw [DnsCache.store_answers _ _ _ (by decide), Function.update_self]

/-! ## Proofs that were not finished -/

/-- The results of a fetch that no client may take for a forgery or a broken name. A refresh may
only publish an entry: it publishes every error as one to remember. -/
inductive Harmless : LedBy → Except ResolveError CacheEntry → Prop where
  | entry (led : LedBy) (entry : CacheEntry) : Harmless led (.ok entry)
  | unproved (label : String) : Harmless .miss (.error (.proofIncomplete label))

namespace Harmless

variable {led : LedBy} {outcome : Except ResolveError CacheEntry}

theorem ne_bogus (h : Harmless led outcome) : outcome ≠ .error .dnssecBogus := by
  cases h <;> exact nofun

end Harmless

def anyClient : Client where
  request := addressQuery
  clientDo := false
  maxSize := 512
  now := 0
  env := quietEnv

namespace Resolver

variable {hk : Hickory} {r : Resolver hk} {key : CacheKey} {env : FetchEnv}

/-- However the fallback goes, the fetch does not report a forgery, no `resolve_miss` that led or
followed the flight writes a failure, and a message the validator returned is served without AD. -/
structure NotForgery {hk : Hickory} (r : Resolver hk) (key : CacheKey) (env : FetchEnv)
    (led : LedBy) : Prop where
  fetched : ∀ fallback c c',
    r.fetch key { env with fallback } c ≠ some (.error .dnssecBogus, c')
  missed : ∀ fallback client c, ∃ answer flight c',
    r.resolveMiss key client (.leader { env with fallback }) c = some (answer, flight, c') ∧
      (c'.failures = c.failures ∨ c'.failures = Function.update c.failures key none)
  coalesced : ∀ fallback c outcome c', r.fetch key { env with fallback } c = some (outcome, c') →
    ∀ (other : Resolver hk) client c'',
      (other.settle key client c'' (followed (some (publish led outcome)))).2.failures =
        c''.failures
  served : ∀ msg, (r.validated env).1 = some msg → ∀ fallback c, ∃ entry,
    r.fetch key { env with fallback } c = some (.ok entry, c.store key entry) ∧
      entry.message = msg ∧
      ∀ client, (r.settle key client c (.ok entry)).1.message.metadata.authenticData = false

theorem harmless_of_fetch {led : LedBy}
    (h : ∀ fallback c, ∃ outcome c', r.fetch key { env with fallback } c = some (outcome, c') ∧
      Harmless led outcome ∧
      (c'.failures = c.failures ∨ c'.failures = Function.update c.failures key none))
    (hserved : ∀ msg, (r.validated env).1 = some msg → ∀ fallback c, ∃ entry,
      r.fetch key { env with fallback } c = some (.ok entry, c.store key entry) ∧
        entry.message = msg ∧ entry.dnssec ≠ .secure) : r.NotForgery key env led where
  fetched fallback c c' he := by
    obtain ⟨outcome, c₁, hf, hh, _⟩ := h fallback c
    rw [hf] at he
    cases he
    exact hh.ne_bogus rfl
  missed fallback client c := by
    obtain ⟨outcome, c', hf, hh, hfail⟩ := h fallback c
    refine ⟨_, _, _, resolveMiss_leader client hf, ?_⟩
    cases hh <;> exact hfail
  coalesced fallback c outcome c' hf other client c'' := by
    obtain ⟨outcome', c₁, hf', hh, _⟩ := h fallback c
    rw [hf] at hf'
    cases hf'
    cases hh <;> rfl
  served msg hmsg fallback c := by
    obtain ⟨entry, hf, hm, hsec⟩ := hserved msg hmsg fallback c
    refine ⟨entry, hf, hm, ?_⟩
    intro client
    exact authenticData_eq_false _ _ _ _ hsec

theorem asked_fallback (h : r.Asked key env) (fallback : OpinionEnv) :
    r.Asked key { env with fallback } where
  group := h.group
  name := h.name
  validators := h.validators
  permit := h.permit

theorem receive_of_unfinished (hmode : r.cfg.dnssec.mode = .strict)
    (hcd : key.mode.checkingDisabled = false) (h : r.Asked key env)
    {outcome : ValidationOutcome} (hv : r.validated env = (none, outcome))
    (hun : outcome.IsUnfinished) :
    ∃ group request, r.receive key env = some
      (match fallbackAnswer hk group request env with
      | some reply => .ok { group, request, response := reply.message, route := none
                            status := .indeterminate }
      | none => .error (.proofIncomplete outcome.label)) := by
  obtain ⟨group, request, hrecv⟩ := receive_of_asked hmode hcd h
  refine ⟨group, request, ?_⟩
  have hact : actOn hk group request env (none, outcome) =
      match fallbackAnswer hk group request env with
      | some reply => .ok reply.message
      | none => .error (.proofIncomplete outcome.label) := by
    rcases hun with rfl | rfl | rfl | rfl <;> rfl
  rw [hrecv, hv, hact]
  cases fallbackAnswer hk group request env with
  | none => rfl
  | some reply =>
    have hstatus := dnssecStatus_of_unvalidated r.cfg.dnssec false (by simp [hmode])
      reply.unvalidated
    simp [Except.map, lastCheck, hstatus]

variable {observed : ProofFailure} {msg : Message}

theorem dnssecStatus_of_unfinished {cfg : DnssecConfig}
    (hun : (classifyOutcome msg cfg false observed).IsUnfinished)
    (hne : dnssecStatus msg cfg false ≠ .bogus) : dnssecStatus msg cfg false = .indeterminate := by
  have hsecure : ¬ValidationOutcome.secure.IsUnfinished := by decide
  have hinsecure : ¬ValidationOutcome.provenInsecure.IsUnfinished := by decide
  unfold classifyOutcome at hun
  cases hs : dnssecStatus msg cfg false with
  | bogus => exact absurd hs hne
  | indeterminate => rfl
  | secure =>
    rw [hs] at hun
    exact absurd hun hsecure
  | insecure =>
    rw [hs] at hun
    exact absurd hun hinsecure

theorem finalRun_of_message (h : (r.validated env).1 = some msg) :
    (r.finalRun env).result = .answered msg ∧
      r.validated env =
        (some msg, classifyOutcome msg r.cfg.dnssec false (r.finalRun env).observed) := by
  unfold validated judgeRun at *
  cases hr : (r.finalRun env).result with
  | answered got =>
    simp only [hr, Option.some.injEq] at h
    subst h
    exact ⟨rfl, rfl⟩
  | _ => simp [hr] at h

theorem finalRun_of_no_message (h : (r.validated env).1 = none) (msg : Message) :
    (r.finalRun env).result ≠ .answered msg := by
  intro hr
  simp [validated, judgeRun, hr] at h

section Unfinished

variable (hmode : r.cfg.dnssec.mode = .strict) (hcd : key.mode.checkingDisabled = false)
  (hasked : r.Asked key env) (hun : (r.validated env).2.IsUnfinished)
include hmode hcd hasked hun

theorem notForgery_of_message
    (hv : r.validated env = (some msg, classifyOutcome msg r.cfg.dnssec false observed))
    (hne : dnssecStatus msg r.cfg.dnssec false ≠ .bogus) (led : LedBy) :
    r.NotForgery key env led := by
  have hstatus : dnssecStatus msg r.cfg.dnssec false = .indeterminate := by
    rw [hv] at hun
    exact dnssecStatus_of_unfinished hun hne
  have hout : classifyOutcome msg r.cfg.dnssec false observed ≠ .bogus := by
    rw [ne_eq, classifyOutcome_eq_bogus_iff]
    exact fun h => hne h.1
  have hfetch (fallback : OpinionEnv) (c : DnsCache) : ∃ entry,
      r.fetch key { env with fallback } c = some (.ok entry, c.store key entry) ∧
        entry.message = msg ∧ entry.dnssec ≠ .secure := by
    obtain ⟨group, request, hrecv⟩ := receive_of_message hmode hcd
      (asked_fallback hasked fallback) hv hne hout
    refine ⟨_, fetch_of_received hrecv c, ?_, ?_⟩
    · rw [entryOf_message]
      exact secondOpinion_message_of_no_route rfl
    · rw [entryOf_dnssec, hstatus]
      exact nofun
  refine harmless_of_fetch ?_ ?_
  · intro fallback c
    obtain ⟨entry, hf, _⟩ := hfetch fallback c
    exact ⟨_, _, hf, .entry led entry, .inr (DnsCache.store_failures ..)⟩
  · intro msg' hmsg' fallback c
    rw [hv] at hmsg'
    cases hmsg'
    exact hfetch fallback c

theorem notForgery_of_no_message (hv : r.validated env = (none, (r.validated env).2)) :
    r.NotForgery key env .miss := by
  refine harmless_of_fetch ?_ ?_
  · intro fallback c
    obtain ⟨group, request, hrecv⟩ := receive_of_unfinished hmode hcd
      (asked_fallback hasked fallback) hv hun
    split at hrecv
    · exact ⟨_, _, fetch_of_received hrecv c, .entry _ _, .inr (DnsCache.store_failures ..)⟩
    · exact ⟨_, _, fetch_of_error hrecv c, .unproved _, .inl rfl⟩
  · intro msg hmsg
    rw [hv] at hmsg
    cases hmsg

/-- A refresh without a message and without time for the fallback is remembered as a failure by
whoever follows it. -/
theorem not_notForgery_of_refresh (hv : r.validated env = (none, (r.validated env).2)) :
    ¬r.NotForgery key env .refresh := by
  intro h
  obtain ⟨group, request, hrecv⟩ := receive_of_unfinished hmode hcd
    (asked_fallback hasked noOpinion) hv hun
  have hkept := h.coalesced noOpinion .fresh _ _ (fetch_of_error hrecv .fresh) r anyClient .fresh
  change DnsCache.failures (DnsCache.recordFailure _ key _) = _ at hkept
  have hnone := congrFun hkept key
  simp [DnsCache.recordFailure, DnsCache.setFailure, DnsCache.fresh, DnsCache.new] at hnone

end Unfinished

end Resolver

/-- An unfinished proof is kept apart from a forgery exactly when the last pass returned a message
whose own marks are not Bogus, or no message and the flight was led by a `resolve_miss`. -/
theorem unfinished_proof_not_forgery_iff {hk : Hickory} (r : Resolver hk) (key : CacheKey)
    (env : FetchEnv) (led : LedBy) (hmode : r.cfg.dnssec.mode = .strict)
    (hcd : key.mode.checkingDisabled = false) (hasked : r.Asked key env)
    (hun : (r.validated env).2.IsUnfinished) :
    r.NotForgery key env led ↔
      match (r.finalRun env).result with
      | .answered msg => dnssecStatus msg r.cfg.dnssec false ≠ .bogus
      | _ => led = .miss := by
  cases hmsg : (r.validated env).1 with
  | some msg =>
    obtain ⟨hresult, hv⟩ := Resolver.finalRun_of_message hmsg
    rw [hresult]
    constructor
    · intro h hb
      exact h.fetched env.fallback .fresh _ (Resolver.fetch_of_error
        (Resolver.receive_of_bogus_message hmode hcd hasked hv hb) .fresh)
    · intro hne
      exact Resolver.notForgery_of_message hmode hcd hasked hun hv hne led
  | none =>
    have hresult := Resolver.finalRun_of_no_message hmsg
    have hv : r.validated env = (none, (r.validated env).2) := Prod.ext hmsg rfl
    constructor
    · intro h
      have hled : led = .miss := by
        cases led with
        | miss => rfl
        | refresh => exact absurd h (Resolver.not_notForgery_of_refresh hmode hcd hasked hun hv)
      cases hr : (r.finalRun env).result with
      | answered msg => exact absurd hr (hresult msg)
      | _ => exact hled
    · intro h
      have hled : led = .miss := by
        cases hr : (r.finalRun env).result with
        | answered msg => exact absurd hr (hresult msg)
        | _ => simpa [hr] using h
      subst hled
      exact Resolver.notForgery_of_no_message hmode hcd hasked hun hv

theorem unfinished_proof_not_forgery_deadline_unmarked :
    (singleResolver .strict).NotForgery addressKey
      (validatorAnswers (markedAnswer .indeterminate .indeterminate) .deadline) .refresh :=
  (unfinished_proof_not_forgery_iff _ _ _ _ rfl rfl (asked_singleResolver _ _ _) (by decide)).mpr
    (show dnssecStatus (markedAnswer .indeterminate .indeterminate) _ false ≠ .bogus by decide)

/-- The deadline passed during the chain walk, the outcome is a timeout, and still the answer is
refused as forged and the name remembered as broken. -/
theorem timeout_refused_as_forgery :
    ((singleResolver .strict).validated
      (validatorAnswers (markedAnswer .bogus .bogus) .deadline)).2 = .timeout ∧
    (singleResolver .strict).fetch addressKey
        (validatorAnswers (markedAnswer .bogus .bogus) .deadline) .fresh =
      some (.error .dnssecBogus, .fresh) ∧
    ∃ answer flight c, (singleResolver .strict).resolveMiss addressKey anyClient
        (.leader (validatorAnswers (markedAnswer .bogus .bogus) .deadline)) .fresh =
      some (answer, flight, c) ∧ (c.failures addressKey).isSome = true := by
  have hcd : addressKey.mode.checkingDisabled = false := rfl
  have hrecv := Resolver.receive_of_bogus_message (r := singleResolver .strict) rfl hcd
    (asked_singleResolver .strict (markedAnswer .bogus .bogus) .deadline) rfl (by decide)
  have hf := Resolver.fetch_of_error hrecv .fresh
  exact ⟨by decide, hf, _, _, _, Resolver.resolveMiss_leader anyClient hf, by rfl⟩

end EgressDns
