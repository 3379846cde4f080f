import EgressDns.Cache.Store
import EgressDns.Policy.Augmentation

/-!
# Responses built from a cached answer

`Resolver::build_response`. The shared state it reads at that moment is an input.
-/

namespace EgressDns

structure Config where
  dnssec : DnssecConfig
  negativeMaxTtl : Nat
  -- In nanoseconds.
  failureMinTtl : Nat
  failureMaxTtl : Nat
  foregroundBudget : Nat
  maxPayload : Nat
  staleIncludeEde : Bool
  staleClientTimeout : Nat
  staleRetryInterval : Nat
  ecsEgress : Option (BitVec 32 × Nat)
  ttl : TtlConfig
  ranking : RankingConfig
  augment : AugmentConfig
  cloudflareEnabled : Bool
  cloudflareMode : CloudflareMode
  allowDomains : List (List UInt8)
  denyDomains : List (List UInt8)

def defaultConfig (mode : DnssecMode) : Config where
  dnssec := { mode, trustUpstreamAd := false, corroborateNegative := true, extendedErrors := true }
  negativeMaxTtl := 3600
  failureMinTtl := nanosPerSec
  failureMaxTtl := 300 * nanosPerSec
  foregroundBudget := 2500000000
  maxPayload := 1232
  staleIncludeEde := true
  staleClientTimeout := 1800000000
  staleRetryInterval := 30 * nanosPerSec
  ecsEgress := none
  ttl := .shipped
  ranking := { enabled := true, neutralCostMs := 120, hysteresis := 12 / 100
               minSuccessesToLead := 3, explorationRate := 2 / 100 }
  augment := { maxAdded := 2, minValidations := 3, minAdvantage := 12 / 100, minSamples := 8 }
  cloudflareEnabled := false
  cloudflareMode := .preserve
  allowDomains := []
  denyDomains := []

/-- What `build_response` reads besides the entry and the request. -/
structure ResponseEnv where
  now : Nat
  nowUnix : Nat
  isWebService : Bool
  quality : IpAddr → Option QualityReading
  snapshot : Option PrefixSnapshot
  modeOverride : Option CloudflareMode
  verified : List VerifiedCandidate
  baselineValidated : Bool
  recentChange : Bool
  exploreSeed : UInt64

section Build

variable (hk : Hickory) (cfg : Config) (env : ResponseEnv) (request : Message)

def questionOf : Query :=
  request.queries.headD { name := ⟨[]⟩, qtype := .any, qclass := classIn }

variable (entry : CacheEntry) (remaining : Nat) (isStale : Bool)

def answerContext : AnswerContext :=
  let question := questionOf request
  let mode := effectiveMode env.modeOverride cfg.cloudflareMode
  { qtype := question.qtype
    dnssec := entry.dnssec
    cloudflareEnabled := cfg.cloudflareEnabled
    cloudflareMode := mode
    snapshot := env.snapshot
    domainExcluded := isExcluded (hk.nameText question.name) cfg.allowDomains cfg.denyDomains
    baselineValidated := env.baselineValidated
    verified := if cfg.cloudflareEnabled && mode == .verifiedAugment then env.verified else []
    canValidateEch := false
    quality := if env.isWebService then env.quality else fun _ => none
    ranking := cfg.ranking
    augment := cfg.augment
    ttl := cfg.ttl
    remainingAuthoritative := remaining
    remainingSignature := entry.remainingSignatureSecs env.nowUnix
    isStale := isStale
    recentNetworkChange := env.recentChange
    exploreSeed := env.exploreSeed }

def agedMessage : Message :=
  ageTtls (entry.ageSecs env.now)
    { entry.message with
      metadata := { hk.responseFromRequest request.metadata with
        responseCode := entry.message.metadata.responseCode
        recursionAvailable := true
        authoritative := false }
      queries := request.queries
      edns := none }

def shapedAnswer : Message × AnswerOutcome :=
  applyAnswerPolicy (answerContext hk cfg env request entry remaining isStale)
    (agedMessage hk env request entry)

def attachResponseEdns (message : Message) : Message :=
  match request.edns with
  | none => { message with edns := none }
  | some requestEdns =>
    { message with
      edns := some { maxPayload := cfg.maxPayload, version := 0
                     dnssecOk := requestEdns.dnssecOk, options := [] } }

def buildResponse (clientDo : Bool) : Message :=
  let shaped := shapedAnswer hk cfg env request entry remaining isStale
  let message := if clientDo then shaped.1 else hk.stripDnssec shaped.1
  let ad := maySetAd entry.dnssec (clientDo || request.metadata.authenticData) shaped.2.modified
  attachResponseEdns cfg request
    { message with metadata := { message.metadata with authenticData := ad } }

end Build

section Ttls

variable (hk : Hickory) (cfg : Config) (env : ResponseEnv) (request : Message)
  {entry : CacheEntry}

theorem attachResponseEdns_sections (message : Message) :
    (attachResponseEdns cfg request message).answers = message.answers ∧
    (attachResponseEdns cfg request message).authorities = message.authorities ∧
    (attachResponseEdns cfg request message).additionals = message.additionals := by
  unfold attachResponseEdns
  split <;> exact ⟨rfl, rfl, rfl⟩

theorem attachResponseEdns_metadata (message : Message) :
    (attachResponseEdns cfg request message).metadata = message.metadata := by
  unfold attachResponseEdns
  split <;> rfl

theorem buildResponse_authenticData (entry : CacheEntry) (remaining : Nat)
    (isStale clientDo : Bool) :
    (buildResponse hk cfg env request entry remaining isStale clientDo).metadata.authenticData =
      maySetAd entry.dnssec (clientDo || request.metadata.authenticData)
        (shapedAnswer hk cfg env request entry remaining isStale).2.modified := by
  simp [buildResponse, attachResponseEdns_metadata]

theorem authenticData_eq_false {remaining : Nat} {isStale clientDo : Bool}
    (h : entry.dnssec ≠ .secure) :
    (buildResponse hk cfg env request entry remaining isStale clientDo).metadata.authenticData =
      false := by
  have hauth : entry.dnssec.isAuthentic = false := by
    cases hd : entry.dnssec <;> first | rfl | exact absurd hd h
  rw [buildResponse_authenticData]
  simp [maySetAd, hauth]

/-- The sections of the response are taken from the shaped answer, DNSSEC records possibly left
out. -/
theorem buildResponse_sublist (entry : CacheEntry) (remaining : Nat) (isStale clientDo : Bool) :
    (buildResponse hk cfg env request entry remaining isStale clientDo).answers.Sublist
        (shapedAnswer hk cfg env request entry remaining isStale).1.answers ∧
    (buildResponse hk cfg env request entry remaining isStale clientDo).authorities.Sublist
        (shapedAnswer hk cfg env request entry remaining isStale).1.authorities ∧
    (buildResponse hk cfg env request entry remaining isStale clientDo).additionals.Sublist
        (shapedAnswer hk cfg env request entry remaining isStale).1.additionals := by
  unfold buildResponse
  simp only [attachResponseEdns_sections]
  cases clientDo with
  | true => exact ⟨List.Sublist.refl _, List.Sublist.refl _, List.Sublist.refl _⟩
  | false =>
    exact ⟨hk.stripDnssec_answers _, hk.stripDnssec_authorities _, hk.stripDnssec_additionals _⟩

theorem clientTtl_le (entry : CacheEntry) (remaining : Nat) (isStale : Bool) :
    let outcome := (shapedAnswer hk cfg env request entry remaining isStale).2
    outcome.clientTtl ≤ remaining ∧
    (∀ sig, entry.remainingSignatureSecs env.nowUnix = some sig → outcome.clientTtl ≤ sig) ∧
    outcome.clientTtl ≤ cfg.ttl.cap outcome.ttlReason ∧
    (env.recentChange = true → outcome.clientTtl ≤ cfg.ttl.capNetworkChange) := by
  obtain ⟨added, heff⟩ := applyAnswerPolicy_effect
    (answerContext hk cfg env request entry remaining isStale) (agedMessage hk env request entry)
  obtain ⟨augmented, preserved, optimized, hcap⟩ := heff.cap
  obtain ⟨httl, hreason⟩ := Prod.mk.inj hcap
  have hle := effectiveClientTtl_le_cap cfg.ttl
    (ttlInputs (answerContext hk cfg env request entry remaining isStale) augmented preserved
      optimized)
  have hcapReason := policyCap_le_reason cfg.ttl
    (ttlInputs (answerContext hk cfg env request entry remaining isStale) augmented preserved
      optimized)
  unfold shapedAnswer
  simp only [httl, hreason]
  refine ⟨hle.trans (min_le_left _ _), ?_, ?_, ?_⟩
  · intro sig hs
    exact effectiveClientTtl_le_signature cfg.ttl _ hs
  · exact (hle.trans (min_le_right _ _)).trans hcapReason
  · intro hr
    refine (hle.trans (min_le_right _ _)).trans ?_
    unfold policyCap
    rw [if_pos (by simpa [ttlInputs, answerContext] using hr)]
    exact min_le_right _ _

/-- Verified augmentation is confined: when addresses may be added, which ones and where, and that
the AD bit is left to unmodified Secure answers. -/
theorem augmentation_confined (ctx : AnswerContext) (msg : Message) :
    (0 < (applyAnswerPolicy ctx msg).2.added →
      AugmentAllowed ctx msg ∧
        ∃ chosen, Augmented ctx msg (applyAnswerPolicy ctx msg) chosen) ∧
    ∀ (hk : Hickory) (cfg : Config) (env : ResponseEnv) (request : Message) (entry : CacheEntry)
      (remaining : Nat) (isStale clientDo : Bool),
      let shaped := shapedAnswer hk cfg env request entry remaining isStale
      let response := buildResponse hk cfg env request entry remaining isStale clientDo
      (0 < shaped.2.added →
        publishesEch (agedMessage hk env request entry) = false ∧
          response.metadata.authenticData = false) ∧
      (response.metadata.authenticData = true ↔
        entry.dnssec = .secure ∧ shaped.2.added = 0 ∧
          (clientDo = true ∨ request.metadata.authenticData = true)) := by
  refine ⟨applyAnswerPolicy_added, ?_⟩
  intro hk cfg env request entry remaining isStale clientDo shaped response
  have hmodified : shaped.2.modified = true ↔ 0 < shaped.2.added := applyAnswerPolicy_modified _ _
  have had : response.metadata.authenticData = true ↔
      entry.dnssec = .secure ∧ shaped.2.added = 0 ∧
        (clientDo = true ∨ request.metadata.authenticData = true) := by
    have hunmodified : shaped.2.modified = false ↔ shaped.2.added = 0 := by
      rw [← Bool.not_eq_true, hmodified, Nat.pos_iff_ne_zero, not_not]
    rw [buildResponse_authenticData, maySetAd]
    simp only [Bool.and_eq_true, Bool.or_eq_true, Bool.not_eq_true', DnssecStatus.isAuthentic,
      beq_iff_eq]
    tauto
  refine ⟨?_, had⟩
  intro hadded
  have hallowed := (applyAnswerPolicy_added hadded).1
  refine ⟨Bool.eq_false_iff.mpr fun hech => ?_, Bool.eq_false_iff.mpr fun hset => ?_⟩
  · cases hallowed.ech hech
  · exact absurd (had.mp hset).2.1 hadded.ne'

theorem augmentation_confined_one_address :
    (applyAnswerPolicy measuredContext { echAnswer with additionals := [] }).2.added = 1 ∧
    AugmentAllowed measuredContext { echAnswer with additionals := [] } := by
  have hadded : (applyAnswerPolicy measuredContext { echAnswer with additionals := [] }).2.added =
      1 := by decide
  refine ⟨hadded, ?_⟩
  exact ((augmentation_confined measuredContext { echAnswer with additionals := [] }).1
    (by rw [hadded]; decide)).1

/-- Seconds since receipt, without the 32-bit wrap. -/
def trueAge (entry : CacheEntry) (now : Nat) : Nat := (now - entry.receivedAt) / nanosPerSec

/-- What an upstream TTL has become in the response: aged, then capped. -/
def servedTtl (entry : CacheEntry) (now clientTtl ttl : Nat) : Nat :=
  min (ttl - trueAge entry now) clientTtl

theorem ageSecs_eq_trueAge {now : Nat} (h : trueAge entry now < 2 ^ 32) :
    entry.ageSecs now = trueAge entry now := Nat.mod_eq_of_lt h

theorem map_cap_age {now clientTtl : Nat} (h : trueAge entry now < 2 ^ 32)
    (records : List Record) :
    (records.map (Record.mapTtl fun ttl => ttl - entry.ageSecs now)).map
        (Record.mapTtl (min · clientTtl)) =
      records.map (Record.mapTtl (servedTtl entry now clientTtl)) := by
  rw [ageSecs_eq_trueAge h, List.map_map]
  rfl

theorem shapedAnswer_sections (remaining : Nat) (isStale : Bool)
    (h : trueAge entry env.now < 2 ^ 32) :
    let shaped := shapedAnswer hk cfg env request entry remaining isStale
    let served := Record.mapTtl (servedTtl entry env.now shaped.2.clientTtl)
    ∃ added : List Record,
      shaped.1.answers.Perm (added ++ entry.message.answers.map served) ∧
      shaped.1.authorities = entry.message.authorities.map served ∧
      shaped.1.additionals = entry.message.additionals.map served ∧
      (∀ a ∈ added, a.ttl ≤ shaped.2.clientTtl) ∧
      ∀ a ∈ added, ∀ r ∈ entry.message.answers, r.recordType = a.recordType →
        a.ttl ≤ (served r).ttl := by
  obtain ⟨added, heff⟩ := applyAnswerPolicy_effect
    (answerContext hk cfg env request entry remaining isStale) (agedMessage hk env request entry)
  intro shaped served
  refine ⟨added.map (Record.mapTtl (min · shaped.2.clientTtl)), ?_, ?_, ?_, ?_, ?_⟩
  · have hp := heff.answers
    rw [List.map_append] at hp
    exact hp.trans (List.Perm.of_eq (congrArg _ (map_cap_age h _)))
  · exact heff.authorities.trans (map_cap_age h _)
  · exact heff.additionals.trans (map_cap_age h _)
  · intro a ha
    obtain ⟨b, _, rfl⟩ := List.mem_map.mp ha
    exact min_le_right _ _
  · intro a ha r hr ht
    obtain ⟨b, hb, rfl⟩ := List.mem_map.mp ha
    have haged : Record.mapTtl (fun ttl => ttl - entry.ageSecs env.now) r ∈
        (agedMessage hk env request entry).answers := List.mem_map_of_mem hr
    have hbtype := heff.addedType b hb
    have hle := heff.addedTtl b hb _ haged (ht.trans hbtype)
    simp only [Record.mapTtl, ageSecs_eq_trueAge h] at hle
    exact min_le_min_right _ hle

/-- Client TTLs never exceed what is left: an upstream record is served with its TTL aged and
capped, an added record with no more than any member of the RRset it joins, and every record
stays below what remains of the entry, of its signatures and of the policy's cap. -/
theorem client_ttls_bounded (hk : Hickory) (cfg : Config) (env : ResponseEnv) (request : Message)
    (entry : CacheEntry) (lookup : Nat) (clientDo : Bool)
    (hage : trueAge entry env.now < 2 ^ 32) :
    let remaining := entry.remainingTtl lookup
    let outcome := (shapedAnswer hk cfg env request entry remaining false).2
    let served := Record.mapTtl (servedTtl entry env.now outcome.clientTtl)
    let response := buildResponse hk cfg env request entry remaining false clientDo
    (∃ added : List Record,
      response.answers.Subperm (added ++ entry.message.answers.map served) ∧
      ∀ a ∈ added, ∀ r ∈ entry.message.answers, r.recordType = a.recordType →
        a.ttl ≤ (served r).ttl) ∧
    response.authorities.Subperm (entry.message.authorities.map served) ∧
    response.additionals.Subperm (entry.message.additionals.map served) ∧
    ∀ r ∈ response.records, r.ttl ≤ remaining ∧
      (∀ sig, entry.remainingSignatureSecs env.nowUnix = some sig → r.ttl ≤ sig) ∧
      r.ttl ≤ cfg.ttl.cap outcome.ttlReason ∧
      (env.recentChange = true → r.ttl ≤ cfg.ttl.capNetworkChange) := by
  intro remaining outcome served response
  obtain ⟨added, hans, hauth, hadd, hcap, hjoin⟩ :=
    shapedAnswer_sections hk cfg env request remaining false hage
  obtain ⟨sans, sauth, sadd⟩ :=
    buildResponse_sublist hk cfg env request entry remaining false clientDo
  have panswers := sans.subperm.trans hans.subperm
  have pauth := (hauth ▸ sauth).subperm
  have padd := (hadd ▸ sadd).subperm
  refine ⟨⟨added, panswers, hjoin⟩, pauth, padd, ?_⟩
  intro r hr
  have hclient : r.ttl ≤ outcome.clientTtl := by
    have hserved (records : List Record) (hm : r ∈ records.map served) :
        r.ttl ≤ outcome.clientTtl := by
      obtain ⟨b, _, rfl⟩ := List.mem_map.mp hm
      exact min_le_right _ _
    rcases List.mem_append.mp hr with hr | hr
    · rcases List.mem_append.mp hr with hr | hr
      · rcases List.mem_append.mp (panswers.subset hr) with ha | hm
        · exact hcap r ha
        · exact hserved _ hm
      · exact hserved _ (pauth.subset hr)
    · exact hserved _ (padd.subset hr)
  obtain ⟨hrem, hsig, hreason, hnet⟩ := clientTtl_le hk cfg env request entry remaining false
  exact ⟨hclient.trans hrem, fun sig hs => hclient.trans (hsig sig hs), hclient.trans hreason,
    fun hr => hclient.trans (hnet hr)⟩

def addressEntry : CacheEntry where
  message := { addressQuery with
    answers := [Record.fromRdata ⟨[[97]]⟩ 300 (.a 0x5db8d822)] }
  receivedAt := 0
  receivedUnix := 0
  ttl := 300
  kind := .positive
  dnssec := .indeterminate
  source := { server := "quad9", transport := .udp }
  fingerprint := 0
  rrsigExpiryUnix := none

def quietEnv : ResponseEnv where
  now := 10 * nanosPerSec
  nowUnix := 10
  isWebService := false
  quality _ := none
  snapshot := none
  modeOverride := none
  verified := []
  baselineValidated := false
  recentChange := false
  exploreSeed := 0

theorem client_ttls_bounded_after_ten_seconds :
    trueAge addressEntry quietEnv.now < 2 ^ 32 ∧
    ∀ r ∈ (buildResponse .sample (defaultConfig .background) quietEnv addressQuery addressEntry
      (addressEntry.remainingTtl (10 * nanosPerSec)) false true).records, r.ttl ≤ 290 := by
  have hage : trueAge addressEntry quietEnv.now < 2 ^ 32 := by decide
  refine ⟨hage, ?_⟩
  intro r hr
  have h := client_ttls_bounded .sample (defaultConfig .background) quietEnv addressQuery
    addressEntry (10 * nanosPerSec) true hage
  exact (h.2.2.2 r hr).1

end Ttls

end EgressDns
