import EgressDns.Resolver.Strict

/-!
# How long an unproved answer is kept

Only an NXDOMAIN is put to a second authority: what `fetch` stores is related here to what it
received and to what that authority said. An answer that Strict validation could not finish is
served without AD, and how long the cache keeps it is read from the answer itself.
-/

namespace EgressDns

theorem responseCode_of_classify {hk : Hickory} {msg : Message}
    (h : classify hk msg = .nxDomain) : msg.metadata.responseCode = .nxDomain := by
  unfold classify at h
  split at h
  · assumption
  · split at h <;> cases h

namespace Resolver

variable {hk : Hickory} (r : Resolver hk)

def secondAuthority (got : Received) (env : FetchEnv) : Option UpstreamAnswer :=
  if r.cfg.dnssec.corroborateNegative then
    got.route.bind fun first =>
      corroborate hk got.group env.corroboration.state got.request
        (env.corroboration.remaining / 2) (corroborationSeed env.seed) first.authority
        env.corroboration.exchange
  else none

def SecondAgreed (got : Received) (env : FetchEnv) : Prop :=
  ∃ second, r.secondAuthority got env = some second ∧
    second.message.message.metadata.responseCode = .nxDomain

/-- The second authority answers what the first denies. -/
def Overruled (got : Received) (env : FetchEnv) (second : UpstreamAnswer) : Prop :=
  r.secondAuthority got env = some second ∧
    second.message.message.metadata.responseCode = .noError ∧ second.message.message.answers ≠ []

def Received.Unproved (got : Received) : Prop :=
  got.response.metadata.responseCode = .nxDomain ∧ got.status ≠ .secure

variable {r} {got : Received} {env : FetchEnv}

theorem secondOpinion_of_not_unproved (h : ¬got.Unproved) :
    (r.secondOpinion got env).1 = got.response ∧
      (r.secondOpinion got env).2.2 ≠ .singleSource := by
  unfold secondOpinion corroborateNegative
  split
  · exact ⟨rfl, nofun⟩
  · rename_i hnx
    split
    · exact ⟨rfl, nofun⟩
    · rename_i hsec
      exact absurd ⟨not_not.mp hnx, hsec⟩ h

theorem secondOpinion_of_unproved {hk : Hickory} (r : Resolver hk) (env : FetchEnv)
    (h : got.Unproved) :
    (r.SecondAgreed got env ∧ r.secondOpinion got env = (got.response, got.route, .corroborated)) ∨
    (∃ second, r.Overruled got env second ∧
      r.secondOpinion got env = (second.message.message, some second.route, .notNegative)) ∨
    ((∀ second, ¬ r.Overruled got env second) ∧
      r.secondOpinion got env = (got.response, got.route, .singleSource)) := by
  have hopinion : r.secondOpinion got env =
      (r.secondAuthority got env).elim (got.response, got.route, .singleSource) fun second =>
        if second.message.message.metadata.responseCode = .nxDomain then
          (got.response, got.route, .corroborated)
        else if second.message.message.metadata.responseCode = .noError ∧
            second.message.message.answers ≠ [] then
          (second.message.message, some second.route, .notNegative)
        else (got.response, got.route, .singleSource) := by
    unfold secondOpinion corroborateNegative secondAuthority
    rw [if_neg (not_not.mpr h.1), if_neg h.2]
    cases r.cfg.dnssec.corroborateNegative with
    | false => rfl
    | true =>
      rcases got.route with _ | first
      · rfl
      · dsimp only [Option.bind_some]
        cases corroborate hk got.group env.corroboration.state got.request
          (env.corroboration.remaining / 2) (corroborationSeed env.seed) first.authority
          env.corroboration.exchange <;> rfl
  cases hsecond : r.secondAuthority got env with
  | none =>
    rw [hsecond] at hopinion
    refine .inr (.inr ⟨fun _ hover => ?_, hopinion⟩)
    cases hsecond.symm.trans hover.1
  | some second =>
    rw [hsecond, Option.elim_some] at hopinion
    split_ifs at hopinion with hnx hanswer
    · exact .inl ⟨⟨second, hsecond, hnx⟩, hopinion⟩
    · exact .inr (.inl ⟨second, ⟨hsecond, hanswer⟩, hopinion⟩)
    · refine .inr (.inr ⟨?_, hopinion⟩)
      rintro other ⟨hother, hok⟩
      cases hsecond.symm.trans hother
      exact hanswer hok

theorem entryOf_ttl (internalMaxTtl : Nat) :
    (r.entryOf got env internalMaxTtl).ttl =
      r.storedTtl internalMaxTtl (r.secondOpinion got env).1 (r.secondOpinion got env).2.2 := rfl

theorem entryOf_kind (internalMaxTtl : Nat) :
    (r.entryOf got env internalMaxTtl).kind = classify hk (r.secondOpinion got env).1 := rfl

theorem storedTtl_le_provisional (internalMaxTtl : Nat) (response : Message) :
    r.storedTtl internalMaxTtl response .singleSource ≤ provisionalNegativeTtl := by
  unfold storedTtl
  rw [if_pos rfl]
  exact min_le_right _ _

theorem storedTtl_le_negativeMax {internalMaxTtl : Nat} {response : Message}
    {evidence : NegativeEvidence} (h : classify hk response ≠ .positive) :
    r.storedTtl internalMaxTtl response evidence ≤ r.cfg.negativeMaxTtl := by
  unfold storedTtl
  have hcap : r.cappedTtl internalMaxTtl response ≤ r.cfg.negativeMaxTtl := by
    unfold cappedTtl
    split
    · contradiction
    · exact min_le_right _ _
  split
  · exact (min_le_left _ _).trans hcap
  · exact hcap

end Resolver

theorem Resolver.fetch_eq_ok {hk : Hickory} {r : Resolver hk} {key : CacheKey} {env : FetchEnv}
    {c c' : DnsCache} {entry : CacheEntry} (h : r.fetch key env c = some (.ok entry, c')) :
    ∃ got, r.receive key env = some (.ok got) ∧ entry = r.entryOf got env c.internalMaxTtl ∧
      c' = c.store key entry := by
  obtain ⟨result, hrecv, he⟩ := Option.map_eq_some_iff.mp h
  split at he
  · cases he
  · rename_i got
    cases he
    exact ⟨got, hrecv, rfl, rfl⟩

/-- What the cache is to keep for a moment only, and what a second authority is to put in place of
a denial. -/
def CacheEntry.Careful (hk : Hickory) (entry : CacheEntry) (response : Message) (agreed : Prop) :
    Prop :=
  (entry.kind ≠ .positive → entry.dnssec ≠ .secure → ¬agreed →
    entry.ttl ≤ provisionalNegativeTtl) ∧
  (entry.message ≠ response →
    classify hk response ≠ .positive ∧ classify hk entry.message = .positive)

namespace Resolver

variable {hk : Hickory} {r : Resolver hk} {got : Received} {env : FetchEnv} {internalMaxTtl : Nat}

theorem careful_iff_of_unproved (hu : got.Unproved) :
    (r.entryOf got env internalMaxTtl).Careful hk got.response
        (got.Unproved ∧ r.SecondAgreed got env) ↔
      ∀ second, r.Overruled got env second → classify hk second.message.message = .positive := by
  have hclass : classify hk got.response = .nxDomain := if_pos hu.1
  rw [CacheEntry.Careful, entryOf_kind, entryOf_message, entryOf_ttl, hclass]
  rcases secondOpinion_of_unproved r env hu with
    ⟨hagreed, he⟩ | ⟨second, hover, he⟩ | ⟨hno, he⟩
  · rw [he]
    refine iff_of_true ⟨fun _ _ hnot => absurd ⟨hu, hagreed⟩ hnot, absurd rfl⟩ ?_
    rintro other ⟨hother, hok, -⟩
    obtain ⟨second, hsecond, hnx⟩ := hagreed
    cases hsecond.symm.trans hother
    exact absurd (hnx.symm.trans hok) (by decide)
  · rw [he]
    have hne : second.message.message ≠ got.response := by
      intro heq
      have hcode := hover.2.1
      rw [heq, hu.1] at hcode
      cases hcode
    constructor
    · rintro ⟨-, hreplaced⟩ other hother
      cases hover.1.symm.trans hother.1
      exact (hreplaced hne).2
    · intro hdata
      have hpos := hdata second hover
      exact ⟨fun hneg => absurd hpos hneg, fun _ => ⟨nofun, hpos⟩⟩
  · rw [he]
    exact iff_of_true ⟨fun _ _ _ => storedTtl_le_provisional _ _, absurd rfl⟩
      fun second hover => absurd hover (hno second)

theorem careful_iff_of_not_unproved (hu : ¬got.Unproved) :
    (r.entryOf got env internalMaxTtl).Careful hk got.response
        (got.Unproved ∧ r.SecondAgreed got env) ↔
      (classify hk got.response = .noData → got.status ≠ .secure →
        min ((negativeTtl got.response).getD 0) r.cfg.negativeMaxTtl ≤ provisionalNegativeTtl) := by
  obtain ⟨hsame, hevidence⟩ := @secondOpinion_of_not_unproved hk r got env hu
  rw [CacheEntry.Careful, entryOf_kind, entryOf_message, entryOf_dnssec, entryOf_ttl,
    hsame, storedTtl, if_neg hevidence]
  constructor
  · rintro ⟨hbrief, -⟩ hnodata hsec
    have hle := hbrief (by rw [hnodata]; nofun) hsec fun hagreed => hu hagreed.1
    rwa [cappedTtl, hnodata] at hle
  · intro hbrief
    refine ⟨fun hneg hsec _ => ?_, absurd rfl⟩
    cases hclass : classify hk got.response with
    | positive => exact absurd hclass hneg
    | nxDomain => exact absurd ⟨responseCode_of_classify hclass, hsec⟩ hu
    | noData =>
      rw [cappedTtl, hclass]
      exact hbrief hclass hsec

end Resolver

section Fetched

variable {hk : Hickory} (r : Resolver hk) (key : CacheKey) (env : FetchEnv) (c c' : DnsCache)
  (entry : CacheEntry) (h : r.fetch key env c = some (.ok entry, c'))
include h

/-- An NXDOMAIN that is neither signed nor agreed to is kept for five seconds, and any other
negative for at most the configured bound. Nothing but an unproved NXDOMAIN is ever replaced, and
only by a reply with an answer section. -/
theorem unproved_denial_short_lived :
    ∃ got, r.receive key env = some (.ok got) ∧ c'.answers key = some entry ∧
      (entry.kind = .nxDomain → entry.dnssec ≠ .secure → ¬r.SecondAgreed got env →
        entry.ttl ≤ provisionalNegativeTtl) ∧
      (entry.kind ≠ .positive → entry.ttl ≤ r.cfg.negativeMaxTtl) ∧
      (¬got.Unproved → entry.message = got.response) ∧
      (entry.message ≠ got.response →
        entry.message.metadata.responseCode = .noError ∧ entry.message.answers ≠ []) := by
  obtain ⟨got, hrecv, rfl, rfl⟩ := Resolver.fetch_eq_ok h
  obtain ⟨_, _, _, _, _, _, _, hnb⟩ := Resolver.receive_eq_ok hrecv
  refine ⟨got, hrecv, ?_, ?_, ?_, ?_, ?_⟩
  · rw [DnsCache.store_answers _ _ _ hnb, Function.update_self]
  · intro hkind hsec hagreed
    have hcode : (r.secondOpinion got env).1.metadata.responseCode = .nxDomain :=
      responseCode_of_classify hkind
    by_cases hu : got.Unproved
    · rcases Resolver.secondOpinion_of_unproved r env hu with
        ⟨hyes, _⟩ | ⟨second, hover, he⟩ | ⟨_, he⟩
      · exact absurd hyes hagreed
      · rw [he] at hcode
        exact absurd (hcode.symm.trans hover.2.1) (by decide)
      · rw [Resolver.entryOf_ttl, he]
        exact Resolver.storedTtl_le_provisional _ _
    · rw [(Resolver.secondOpinion_of_not_unproved hu).1] at hcode
      exact absurd ⟨hcode, hsec⟩ hu
  · exact Resolver.storedTtl_le_negativeMax
  · exact fun hu => (Resolver.secondOpinion_of_not_unproved hu).1
  · intro hne
    by_cases hu : got.Unproved
    · rcases Resolver.secondOpinion_of_unproved r env hu with
        ⟨_, he⟩ | ⟨second, hover, he⟩ | ⟨_, he⟩
      · exact absurd (congrArg Prod.fst he) hne
      · rw [Resolver.entryOf_message, he]
        exact hover.2
      · exact absurd (congrArg Prod.fst he) hne
    · exact absurd (Resolver.secondOpinion_of_not_unproved hu).1 hne

/-- An unproved negative is brief and only data replaces it, just if an unproved NODATA came with a
brief lifetime and what overrules an unproved NXDOMAIN has data in its answer section. -/
theorem unproved_negative_brief_iff :
    ∃ got, r.receive key env = some (.ok got) ∧ c'.answers key = some entry ∧
      (entry.Careful hk got.response (got.Unproved ∧ r.SecondAgreed got env) ↔
        (classify hk got.response = .noData → got.status ≠ .secure →
          min ((negativeTtl got.response).getD 0) r.cfg.negativeMaxTtl ≤ provisionalNegativeTtl) ∧
        (got.Unproved → ∀ second, r.Overruled got env second →
          classify hk second.message.message = .positive)) := by
  obtain ⟨got, hrecv, hstored, -⟩ := unproved_denial_short_lived r key env c c' entry h
  obtain ⟨got', hrecv', rfl, -⟩ := Resolver.fetch_eq_ok h
  cases hrecv.symm.trans hrecv'
  refine ⟨got, hrecv, hstored, ?_⟩
  by_cases hu : got.Unproved
  · have hclass : classify hk got.response = .nxDomain := if_pos hu.1
    rw [Resolver.careful_iff_of_unproved hu, hclass, imp_iff_right hu]
    exact (and_iff_right nofun).symm
  · rw [Resolver.careful_iff_of_not_unproved hu]
    exact (and_iff_left fun hyes => absurd hyes hu).symm

end Fetched

def unsignedDenial : Message :=
  { emptyAnswer .noError with
    authorities := [{ name := ⟨[[97]]⟩, ttl := 900, dnsClass := classIn, data := .soa 900 []
                      proof := .insecure }] }

def unsignedDenialEntry : CacheEntry where
  message := unsignedDenial
  receivedAt := 0
  receivedUnix := 0
  ttl := 900
  kind := .noData
  dnssec := .insecure
  source := { server := "validator", transport := .udp }
  fingerprint := answerFingerprint .sample unsignedDenial
  rrsigExpiryUnix := none

def pairResolver (mode : DnssecMode) : Resolver .sample :=
  { singleResolver mode with
    registry := { groups := [plainGroup [quad9, quad1]], defaultGroup := "default" } }

def endedRun : ValidatorRun := { result := .ended, observed := .none, deadlineLeft := false }

def replyWith (qtype : RecordType) (code : ResponseCode) (data : List RData) : WireMessage where
  message :=
    { (pairResolver .background).fetchRequest { addressKey with qtype } ⟨[[97]]⟩
        (fetchEnv endedRun []) with
      metadata := { addressQuery.metadata with messageType := .response, responseCode := code }
      answers := data.map (Record.fromRdata ⟨[[97]]⟩ 60)
      edns := none }
  unvalidated := by
    intro r hr
    simp only [Message.records, Resolver.fetchRequest, List.append_nil] at hr
    obtain ⟨d, -, rfl⟩ := List.mem_map.mp hr
    rfl

/-- One authority denies the name, and the other answers with this. -/
def overruledBy (qtype : RecordType) (data : List RData) : FetchEnv :=
  { fetchEnv endedRun [.finished 0 (.replied (replyWith qtype .nxDomain []) 0) none] with
    corroboration :=
      { remaining := 4 * minRevalidationBudget, state := coldState
        exchange := fun _ => .replied (replyWith qtype .noError data) 0 } }

theorem unproved_negative_brief_overruled :
    ∃ entry c' got, (pairResolver .background).fetch addressKey (overruledBy .a [.a 0x06060606])
        .fresh = some (.ok entry, c') ∧
      (pairResolver .background).receive addressKey (overruledBy .a [.a 0x06060606]) =
        some (.ok got) ∧
      entry.Careful .sample got.response (got.Unproved ∧
        (pairResolver .background).SecondAgreed got (overruledBy .a [.a 0x06060606])) := by
  have hkinds : ((pairResolver .background).receive addressKey
      (overruledBy .a [.a 0x06060606])).map (fun result => result.toOption.map fun got =>
        (classify .sample got.response, ((pairResolver .background).secondAuthority got
          (overruledBy .a [.a 0x06060606])).map (classify .sample ·.message.message))) =
      some (some (.nxDomain, some .positive)) := by
    decide +kernel
  obtain ⟨result, hrecv, hkinds⟩ := Option.map_eq_some_iff.mp hkinds
  cases result with
  | error e => cases hkinds
  | ok got =>
    obtain ⟨hdenied, hdata⟩ := Prod.mk.inj (Option.some.inj hkinds)
    have hfetch := Resolver.fetch_of_received hrecv .fresh
    obtain ⟨got', hrecv', -, hiff⟩ := unproved_negative_brief_iff _ _ _ _ _ _ hfetch
    cases hrecv.symm.trans hrecv'
    refine ⟨_, _, got, hfetch, hrecv, hiff.mpr ⟨fun hnodata => ?_, fun _ second hover => ?_⟩⟩
    · cases hdenied.symm.trans hnodata
    · rw [hover.1] at hdata
      exact Option.some.inj hdata

/-- A NODATA nobody signed and nobody else was asked about is kept for its full negative TTL. A
DNSKEY record, which is no data to `classify`, replaces a denial. -/
theorem unproved_negatives_err :
    ((singleResolver .strict).fetch addressKey
        (validatorAnswers unsignedDenial .none) .fresh =
      some (.ok unsignedDenialEntry, DnsCache.fresh.store addressKey unsignedDenialEntry) ∧
      (∀ got, (singleResolver .strict).receive addressKey
          (validatorAnswers unsignedDenial .none) = some (.ok got) →
        ¬(singleResolver .strict).SecondAgreed got
          (validatorAnswers unsignedDenial .none)) ∧
      unsignedDenialEntry.kind = .noData ∧ unsignedDenialEntry.dnssec ≠ .secure ∧
      provisionalNegativeTtl < unsignedDenialEntry.ttl) ∧
    ((pairResolver .background).receive { addressKey with qtype := .dnskey }
        (overruledBy .dnskey [.other .dnskey [1]])).map
        (fun result => result.toOption.map (classify .sample ·.response)) =
      some (some .nxDomain) ∧
    ((pairResolver .background).fetch { addressKey with qtype := .dnskey }
        (overruledBy .dnskey [.other .dnskey [1]]) .fresh).map
        (fun result => result.1.toOption.map (classify .sample ·.message)) =
      some (some .noData) := by
  refine ⟨⟨by rfl, ?_, rfl, by decide, by decide⟩, by decide +kernel, by decide +kernel⟩
  rintro got hrecv ⟨second, hsecond, _⟩
  cases hrecv
  cases hsecond

namespace Resolver

variable {hk : Hickory} {r : Resolver hk} {key : CacheKey} {env : FetchEnv}

/-- The message an unfinished validation is answered with: the validator's own, or the one the
fallback pair agrees on. -/
def unprovedMessage (r : Resolver hk) (key : CacheKey) (env : FetchEnv) : Option Message :=
  match (r.validated env).1, r.registry.group key.view.group, env.name with
  | some msg, _, _ => some msg
  | none, some group, some name =>
    (fallbackAnswer hk group (r.fetchRequest key name env) env).map WireMessage.message
  | none, _, _ => none

theorem receive_eq_ok_of_strict (hmode : r.cfg.dnssec.mode = .strict)
    (hcd : key.mode.checkingDisabled = false) {got : Received}
    (h : r.receive key env = some (.ok got)) :
    got.route = none ∧ got.status = dnssecStatus got.response r.cfg.dnssec false ∧
      got.status ≠ .bogus ∧ r.unprovedMessage key env = some got.response ∧
      ((r.validated env).1 = some got.response ∨
        ∃ reply : WireMessage, reply.message = got.response) := by
  obtain ⟨name, trustAd, hgroup, hname, hrequest, hobtain, hstatus, hnb⟩ := receive_eq_ok h
  have hsync : r.synchronous key = true := by
    simp [synchronous, hmode, hcd, DnssecMode.blocksTheClient]
  simp only [obtain, hsync, if_true, Option.some.injEq] at hobtain
  cases hanswer : r.strictAnswer key got.group got.request env with
  | error e =>
    rw [hanswer] at hobtain
    cases hobtain
  | ok msg =>
    rw [hanswer] at hobtain
    simp only [Except.map, Except.ok.injEq, Prod.mk.injEq] at hobtain
    obtain ⟨rfl, hroute, rfl⟩ := hobtain
    refine ⟨hroute.symm, hstatus, hnb, ?_⟩
    rcases actOn_eq_ok (strictAnswer_eq_actOn hanswer) with hmsg | ⟨hmsg, reply, hreply, he⟩
    · exact ⟨by simp [unprovedMessage, hmsg], .inl hmsg⟩
    · rw [hrequest] at hreply
      exact ⟨by simp [unprovedMessage, hmsg, hgroup, hname, hreply, he], .inr ⟨reply, he⟩⟩

theorem status_of_unfinished (hmode : r.cfg.dnssec.mode = .strict)
    (hcd : key.mode.checkingDisabled = false) (hun : (r.validated env).2.IsUnfinished)
    {got : Received} (h : r.receive key env = some (.ok got)) :
    got.status = .indeterminate := by
  obtain ⟨_, hstatus, hnb, _, hfrom⟩ := receive_eq_ok_of_strict hmode hcd h
  rw [hstatus] at hnb ⊢
  rcases hfrom with hmsg | ⟨reply, hreply⟩
  · rw [(finalRun_of_message hmsg).2] at hun
    exact dnssecStatus_of_unfinished hun hnb
  · rw [← hreply]
    exact dnssecStatus_of_unvalidated r.cfg.dnssec false (by simp [hmode]) reply.unvalidated

/-- The TTL an unproved answer brings with it, before the ceiling of the cache. -/
def broughtTtl (r : Resolver hk) (msg : Message) : Nat :=
  match classify hk msg with
  | .positive => (minTtl msg).getD 0
  | .noData => min ((negativeTtl msg).getD 0) r.cfg.negativeMaxTtl
  | .nxDomain => min (min ((negativeTtl msg).getD 0) r.cfg.negativeMaxTtl) provisionalNegativeTtl

theorem secondOpinion_of_no_route {got : Received} (hroute : got.route = none)
    (hns : got.status ≠ .secure) :
    r.secondOpinion got env =
      (got.response, none,
        if got.response.metadata.responseCode = .nxDomain then .singleSource
        else .notNegative) := by
  unfold secondOpinion corroborateNegative
  rw [hroute]
  by_cases hnx : got.response.metadata.responseCode = .nxDomain
  · simp [hnx, hns]
  · simp [hnx]

theorem classify_eq_nxDomain_iff (msg : Message) :
    classify hk msg = .nxDomain ↔ msg.metadata.responseCode = .nxDomain := by
  unfold classify
  split
  · simp [*]
  · split <;> simp [*]

theorem storedTtl_unproved (internalMaxTtl : Nat) (msg : Message) :
    r.storedTtl internalMaxTtl msg
        (if msg.metadata.responseCode = .nxDomain then .singleSource else .notNegative) =
      if classify hk msg = .positive then min (r.broughtTtl msg) internalMaxTtl
      else r.broughtTtl msg := by
  have hnx := @classify_eq_nxDomain_iff hk msg
  unfold storedTtl cappedTtl broughtTtl
  cases hkind : classify hk msg with
  | nxDomain =>
    rw [if_pos (hnx.mp hkind)]
    simp
  | positive | noData =>
    have hne : msg.metadata.responseCode ≠ .nxDomain := by simp [← hnx, hkind]
    simp [hne]

end Resolver

/-- An unproved answer is kept for less than the ceiling of the cache exactly when its own TTL says
so: no shorter limit is applied to it. -/
theorem unproved_answer_provisional_iff {hk : Hickory} (r : Resolver hk) (key : CacheKey)
    (env : FetchEnv) (c c' : DnsCache) (entry : CacheEntry) (limit : Nat)
    (hmode : r.cfg.dnssec.mode = .strict) (hcd : key.mode.checkingDisabled = false)
    (hun : (r.validated env).2.IsUnfinished) (hfetch : r.fetch key env c = some (.ok entry, c'))
    (hlimit : limit < c.internalMaxTtl) :
    entry.dnssec = .indeterminate ∧
    (∀ cfg renv request remaining isStale clientDo,
      (buildResponse hk cfg renv request entry remaining isStale
        clientDo).metadata.authenticData = false) ∧
    ∃ msg, r.unprovedMessage key env = some msg ∧ entry.message = msg ∧
      (entry.ttl ≤ limit ↔ r.broughtTtl msg ≤ limit) := by
  obtain ⟨got, hrecv, rfl, _⟩ := Resolver.fetch_eq_ok hfetch
  have hstatus := Resolver.status_of_unfinished hmode hcd hun hrecv
  have hns : got.status ≠ .secure := by simp [hstatus]
  obtain ⟨hroute, _, _, hmsg, _⟩ := Resolver.receive_eq_ok_of_strict hmode hcd hrecv
  have hopinion := @Resolver.secondOpinion_of_no_route hk r env got hroute hns
  refine ⟨hstatus, ?_, got.response, hmsg, ?_, ?_⟩
  · intro cfg renv request remaining isStale clientDo
    exact authenticData_eq_false _ _ _ _ hns
  · rw [Resolver.entryOf_message, hopinion]
  · rw [Resolver.entryOf_ttl, hopinion]
    dsimp only
    rw [Resolver.storedTtl_unproved]
    split
    · omega
    · exact Iff.rfl

def unsignedAnswer (ttl : Nat) : Message :=
  { emptyAnswer .noError with
    answers := [{ name := ⟨[[97]]⟩, ttl, dnsClass := classIn, data := .a 0x06060606
                  proof := .indeterminate }] }

theorem unproved_answer_provisional_minute :
    ∃ entry c', (singleResolver .strict).fetch addressKey
        (validatorAnswers (unsignedAnswer 60) .none) .fresh = some (.ok entry, c') ∧
      entry.ttl ≤ 60 := by
  refine ⟨_, _, by rfl, ?_⟩
  obtain ⟨_, _, msg, hmsg, _, hiff⟩ := unproved_answer_provisional_iff (singleResolver .strict)
    addressKey (validatorAnswers (unsignedAnswer 60) .none) .fresh _ _ 60 rfl rfl (by decide)
    (by rfl) (by decide)
  cases hmsg
  exact hiff.mpr (by decide)

def timedOutEnv : FetchEnv :=
  let env := fetchEnv { result := .timedOut, observed := .none, deadlineLeft := false } []
  { env with
    fallback :=
      { remaining := minRevalidationBudget, state := coldState
        exchange :=
          echoing ((pairResolver .strict).fetchRequest addressKey ⟨[[97]]⟩ env) false .noError } }

/-- Both ways of obtaining an unproved answer store it for as long as the cache keeps anything. -/
theorem unproved_answer_kept_for_internal_max :
    (((singleResolver .strict).validated
        (validatorAnswers (unsignedAnswer 86400) .none)).2.IsUnfinished ∧
      ∃ entry c', (singleResolver .strict).fetch addressKey
          (validatorAnswers (unsignedAnswer 86400) .none) .fresh = some (.ok entry, c') ∧
        entry.ttl = DnsCache.fresh.internalMaxTtl) ∧
    (((pairResolver .strict).validated timedOutEnv).2.IsUnfinished ∧
      ∃ entry c', (pairResolver .strict).fetch addressKey timedOutEnv
          { DnsCache.fresh with internalMaxTtl := 60 } = some (.ok entry, c') ∧
        entry.ttl = 60) := by
  refine ⟨⟨by decide, _, _, by rfl, by decide⟩, by decide, ?_⟩
  have hrun : ((pairResolver .strict).fetch addressKey timedOutEnv
      { DnsCache.fresh with internalMaxTtl := 60 }).map
        (fun p => p.1.toOption.map CacheEntry.ttl) = some (some 60) := by
    decide +kernel
  obtain ⟨⟨result, c'⟩, hfetch, hkept⟩ := Option.map_eq_some_iff.mp hrun
  cases result with
  | error e => cases hkept
  | ok entry => exact ⟨entry, c', hfetch, Option.some.inj hkept⟩

end EgressDns
