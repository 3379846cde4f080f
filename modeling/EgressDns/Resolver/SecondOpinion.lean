import EgressDns.Policy.Dnssec
import EgressDns.Upstream.Resolve

/-!
# Second opinions

`policy/corroborate.rs` with the two callers in `dns/resolver.rs`: an answer that could not be
proved is served only if two authorities agree, and an unsigned NXDOMAIN is put to a second one.
Both callers are judged against every behaviour of the upstreams: each attempt may be shed, fail, or
bring any reply.
-/

namespace EgressDns

section Opinions

def registrableSuffix (hk : Hickory) (name : Name) : List UInt8 :=
  let text := lower (trimEndDots (hk.nameText name))
  let labels := text.splitOn 46
  if labels.length ≤ 2 then text else [46].intercalate (labels.drop (labels.length - 2))

/-- Owner and type of the last record that is neither a CNAME nor a signature, or of the last
CNAME when the chain ends in one. -/
def terminal (msg : Message) : Option (Name × RecordType) :=
  let owner (r : Record) := (r.name, r.recordType)
  match (msg.answers.filter fun r => r.recordType ≠ .cname ∧ r.recordType ≠ .rrsig).getLast? with
  | some r => some (owner r)
  | none => (msg.answers.filter fun r => r.recordType = .cname).getLast?.map owner

def answersAreCompatible (hk : Hickory) (a b : Message) : Bool :=
  if a.metadata.responseCode ≠ b.metadata.responseCode then false
  else if a.metadata.responseCode ≠ .noError then false
  else
    match terminal a, terminal b with
    | some ta, some tb =>
      decide (ta.2 = tb.2) && decide (registrableSuffix hk ta.1 = registrableSuffix hk tb.1)
    | _, _ => false

def minRevalidationBudget : Nat := 150000000

/-- An unproved answer, if two authorities agree on it and it is positive. -/
def unprovedFallback (hk : Hickory) (group : UpstreamGroup) (st : RankState) (request : Message)
    (slice : Nat) (seed : UInt64) (exchange : Route → Exchange) : Option WireMessage :=
  if slice < minRevalidationBudget then none
  else
    match resolvePair hk group st request slice seed exchange with
    | none => none
    | some (first, second) =>
      if first.message.message.metadata.responseCode ≠ .noError ∨
          first.message.message.answers = [] then none
      else if !answersAreCompatible hk first.message.message second.message.message then none
      else some first.message

inductive NegativeEvidence where
  | notNegative | proven | corroborated | singleSource
  deriving DecidableEq, Repr

def corroborationSeed (seed : UInt64) : UInt64 := seed ^^^ 0x9E3779B9

/-- The answer to use, the route that produced it and how well supported a negative one is.
`remaining` is what is left of the client's deadline. -/
def corroborateNegative (hk : Hickory) (cfg : DnssecConfig) (group : UpstreamGroup)
    (st : RankState) (request response : Message) (status : DnssecStatus)
    (route : Option RouteKey) (remaining : Nat) (seed : UInt64) (exchange : Route → Exchange) :
    Message × Option RouteKey × NegativeEvidence :=
  let original := (response, route, NegativeEvidence.singleSource)
  if response.metadata.responseCode ≠ .nxDomain then (response, route, .notNegative)
  else if status = .secure then (response, route, .proven)
  else if !cfg.corroborateNegative then original
  else
    match route with
    | none => original
    | some first =>
      match corroborate hk group st request (remaining / 2) (corroborationSeed seed)
          first.authority exchange with
      | none => original
      | some second =>
        if second.message.message.metadata.responseCode = .nxDomain then
          (response, route, .corroborated)
        else if second.message.message.metadata.responseCode = .noError ∧
            second.message.message.answers ≠ [] then
          (second.message.message, some second.route, .notNegative)
        else original

variable {exchange : Route → Exchange} {group : UpstreamGroup} {request : Message} {st : RankState}
  {seed : UInt64} {hk : Hickory} {budget : Nat}

theorem unprovedFallback_eq_some {slice : Nat} {msg : WireMessage}
    (h : unprovedFallback hk group st request slice seed exchange = some msg) :
    ∃ first second, resolvePair hk group st request slice seed exchange = some (first, second) ∧
      first.message = msg ∧ msg.message.metadata.responseCode = .noError ∧
      msg.message.answers ≠ [] := by
  unfold unprovedFallback at h
  split at h
  · cases h
  · split at h
    · cases h
    · rename_i first second hp
      split at h
      · cases h
      · rename_i hpos
        push Not at hpos
        split at h
        · cases h
        · cases h
          exact ⟨first, second, hp, rfl, hpos.1, hpos.2⟩

theorem resolvePair_eq_some {a b : UpstreamAnswer}
    (h : resolvePair hk group st request budget seed exchange = some (a, b)) :
    ∃ first second, pairRoutes (rank group st seed) = some (first, second) ∧
      ask hk request exchange first = some a ∧ ask hk request exchange second = some b := by
  unfold resolvePair at h
  split at h
  · cases h
  · split at h
    · cases h
    · rename_i first second hp
      split at h
      · rename_i hfirst hsecond
        cases h
        exact ⟨first, second, hp, hfirst, hsecond⟩
      · cases h

theorem corroborate_eq_some {exclude : String} {a : UpstreamAnswer}
    (h : corroborate hk group st request budget seed exclude exchange = some a) :
    ∃ route, secondRoute (rank group st seed) exclude = some route ∧
      ask hk request exchange route = some a := by
  unfold corroborate at h
  split at h
  · cases h
  · split at h
    · cases h
    · rename_i route hr
      exact ⟨route, hr, h⟩

def echoReply (request : Message) (code : ResponseCode) (truncated : Bool) : WireMessage where
  message :=
    { metadata := { request.metadata with
        messageType := .response, responseCode := code, truncation := truncated }
      queries := request.queries
      answers := [Record.fromRdata ⟨[]⟩ 60 (.a 0x01010101)]
      authorities := [], additionals := [], edns := none }
  unvalidated := by
    intro r hr
    simp only [Message.records, List.append_nil, List.mem_singleton] at hr
    rw [hr]
    rfl

section Echo

variable (hk : Hickory) (request : Message) (truncated : Bool)

def echoing (code : ResponseCode) (_ : Route) : Exchange :=
  .replied (echoReply request code truncated) 0

def echoAnswer (code : ResponseCode) (route : Route) : UpstreamAnswer where
  message := echoReply request code truncated
  route := route.key
  latency := 0
  streamRetry := false
  trustAd := route.trustAd

theorem questionMatches_echoReply (code : ResponseCode) :
    questionMatches hk request (echoReply request code truncated).message = true := by
  unfold questionMatches
  simp only [echoReply, decide_true, Bool.true_and, List.all_eq_true]
  intro p hp
  rw [Lib.eq_of_mem_zip_self hp]
  simp

variable {code : ResponseCode} {budget : Nat}

theorem validateResponse_echoReply (route : Route) (h : code = .noError ∨ code = .nxDomain) :
    validateResponse hk request (echoReply request code truncated).message route = .ok () := by
  unfold validateResponse
  rw [questionMatches_echoReply]
  rcases h with rfl | rfl <;> simp [echoReply]

theorem ask_echoing (route : Route) (h : code = .noError ∨ code = .nxDomain) :
    ask hk request (echoing request truncated code) route =
      some (echoAnswer request truncated code route) := by
  simp [ask, attempt, echoing, echoAnswer, validateResponse_echoReply _ _ _ route h,
    AttemptResult.answer]

theorem answersAreCompatible_echoReply :
    answersAreCompatible hk (echoReply request .noError truncated).message
      (echoReply request .noError truncated).message = true := by
  have ht : terminal (echoReply request .noError truncated).message = some (⟨[]⟩, .a) := rfl
  unfold answersAreCompatible
  rw [ht]
  simp [echoReply]

variable {group : UpstreamGroup} {st : RankState} {seed : UInt64}

theorem resolvePair_echoing {first second : Route}
    (hp : pairRoutes (rank group st seed) = some (first, second)) (hb : budget ≠ 0) :
    resolvePair hk group st request budget seed (echoing request truncated .noError) =
      some (echoAnswer request truncated .noError first,
        echoAnswer request truncated .noError second) := by
  simp [resolvePair, hp, hb, ask_echoing]

theorem unprovedFallback_echoing {first second : Route}
    (hp : pairRoutes (rank group st seed) = some (first, second)) :
    unprovedFallback hk group st request minRevalidationBudget seed
        (echoing request truncated .noError) = some (echoReply request .noError truncated) := by
  unfold unprovedFallback
  rw [if_neg (lt_irrefl _), resolvePair_echoing hk request truncated hp (by decide)]
  simp only [echoAnswer, answersAreCompatible_echoReply]
  simp [echoReply]

theorem corroborate_echoing {exclude : String} {route : Route}
    (h : code = .noError ∨ code = .nxDomain)
    (hr : secondRoute (rank group st seed) exclude = some route) (hb : budget ≠ 0) :
    corroborate hk group st request budget seed exclude (echoing request truncated code) =
      some (echoAnswer request truncated code route) := by
  simp [corroborate, hr, hb, ask_echoing hk request truncated route h]

end Echo

end Opinions

def IndependentPair (a b : RouteKey) : Prop :=
  a.authority ≠ b.authority ∧ a.role.isIndependent = true ∧ b.role.isIndependent = true

theorem secondRoute_eq_some {ranked : List Route} {exclude : String} {route : Route}
    (h : secondRoute ranked exclude = some route) :
    route.key.authority ≠ exclude ∧ route.key.role.isIndependent = true := by
  have hp := List.find?_some h
  simpa using hp

theorem pairRoutes_eq_some {ranked : List Route} {first second : Route}
    (h : pairRoutes ranked = some (first, second)) :
    first.key.authority ≠ second.key.authority ∧ second.key.role.isIndependent = true := by
  unfold pairRoutes at h
  split at h
  · cases h
  · obtain ⟨found, hf, he⟩ := Option.map_eq_some_iff.mp h
    cases he
    have hs := secondRoute_eq_some hf
    exact ⟨hs.1.symm, hs.2⟩

theorem ask_route {hk : Hickory} {request : Message} {exchange : Route → Exchange} {route : Route}
    {answer : UpstreamAnswer} (h : ask hk request exchange route = some answer) :
    answer.route = route.key :=
  (AttemptResult.answer_eq_some h).2.2

section Independence

variable (hk : Hickory) (cfg : DnssecConfig) (group : UpstreamGroup) (st : RankState)
  (request : Message) (seed : UInt64)

/-- Whatever the upstreams do, an answer served unproved was compared between two independent
authorities. -/
def FallbackIndependent : Prop :=
  ∀ slice exchange msg, unprovedFallback hk group st request slice seed exchange = some msg →
    ∃ a b, resolvePair hk group st request slice seed exchange = some (a, b) ∧
      IndependentPair a.route b.route

/-- Whatever the upstreams do, an NXDOMAIN of this route is called corroborated only when it and
the second route are independent authorities. -/
def CorroborationIndependent (first : RouteKey) : Prop :=
  ∀ remaining exchange response status,
    (corroborateNegative hk cfg group st request response status (some first) remaining seed
      exchange).2.2 = .corroborated →
    ∃ b, corroborate hk group st request (remaining / 2) (corroborationSeed seed)
        first.authority exchange = some b ∧ IndependentPair first b.route

theorem fallbackIndependent_iff :
    FallbackIndependent hk group st request seed ↔
      ∀ first second, pairRoutes (rank group st seed) = some (first, second) →
        first.key.role.isIndependent = true := by
  constructor
  · intro h first second hp
    -- Both routes send the same acceptable reply, so the pair agrees and is served.
    obtain ⟨a, b, hab, hi⟩ := h _ _ _ (unprovedFallback_echoing hk request false hp)
    rw [resolvePair_echoing hk request false hp (by decide)] at hab
    cases hab
    exact hi.2.1
  · intro h slice exchange msg hs
    obtain ⟨a, b, hab, _⟩ := unprovedFallback_eq_some hs
    obtain ⟨first, second, hp, hfirst, hsecond⟩ := resolvePair_eq_some hab
    have hne := pairRoutes_eq_some hp
    refine ⟨a, b, hab, ?_⟩
    rw [IndependentPair, ask_route hfirst, ask_route hsecond]
    exact ⟨hne.1, h first second hp, hne.2⟩

theorem corroborationIndependent_iff (first : RouteKey) :
    CorroborationIndependent hk cfg group st request seed first ↔
      (cfg.corroborateNegative = true →
        (secondRoute (rank group st (corroborationSeed seed)) first.authority).isSome = true →
        first.role.isIndependent = true) := by
  constructor
  · intro h hc hs
    obtain ⟨route, hr⟩ := Option.isSome_iff_exists.mp hs
    have hask := corroborate_echoing hk request false (.inr rfl) hr (by decide : 2 / 2 ≠ 0)
    obtain ⟨b, hb, hi⟩ := h 2 (echoing request false .nxDomain)
      (echoReply request .nxDomain false).message .indeterminate (by
        simp [corroborateNegative, hc, hask, echoAnswer, echoReply])
    exact hi.2.1
  · intro h remaining exchange response status hev
    simp only [corroborateNegative] at hev
    split at hev
    · cases hev
    · split at hev
      · cases hev
      · split at hev
        · cases hev
        · rename_i hc
          split at hev
          · cases hev
          · rename_i b hb
            obtain ⟨route, hr, hask⟩ := corroborate_eq_some hb
            have hs := secondRoute_eq_some hr
            refine ⟨b, hb, ?_⟩
            rw [IndependentPair, ask_route hask]
            refine ⟨hs.1.symm, h (by simpa using hc) ?_, hs.2⟩
            rw [hr]
            rfl

/-- A second opinion is a pair of independent authorities exactly when the route asked first is
independent itself: only the second one is ever checked. -/
theorem second_opinion_independent_iff (first : RouteKey) :
    (FallbackIndependent hk group st request seed ∧
      CorroborationIndependent hk cfg group st request seed first) ↔
    (∀ top second, pairRoutes (rank group st seed) = some (top, second) →
      top.key.role.isIndependent = true) ∧
    (cfg.corroborateNegative = true →
      (secondRoute (rank group st (corroborationSeed seed)) first.authority).isSome = true →
      first.role.isIndependent = true) := by
  rw [fallbackIndependent_iff, corroborationIndependent_iff]

end Independence

/-- The home gateway ranks first, a public resolver agrees with it, and the answer is served. -/
theorem fallback_served_on_gateway_word :
    unprovedFallback .sample (plainGroup [gateway, quad9]) coldState addressQuery
        minRevalidationBudget 0 (echoing addressQuery false .noError) =
      some (echoReply addressQuery .noError false) ∧
    pairRoutes (rank (plainGroup [gateway, quad9]) coldState 0) = some (gateway, quad9) ∧
    ¬IndependentPair gateway.key quad9.key := by
  have hp : pairRoutes (rank (plainGroup [gateway, quad9]) coldState 0) =
      some (gateway, quad9) := by decide +kernel
  refine ⟨unprovedFallback_echoing _ _ _ hp, hp, ?_⟩
  intro h
  exact absurd h.2.1 (by decide)

section Truncation

variable (hk : Hickory) (group : UpstreamGroup) (st : RankState) (request : Message)
  (seed : UInt64)

def ResolveComplete : Prop :=
  ∀ hedgeAdmitted capacity retryOpen retryState retry turns answer,
    ResolveCtx.resolve { hk, group, request, state := st, seed, hedgeAdmitted, capacity, retryOpen
                         retryState, retry } turns = some (.ok answer) → answer.Complete

def PairComplete : Prop :=
  ∀ slice exchange a b, resolvePair hk group st request slice seed exchange = some (a, b) →
    a.Complete ∧ b.Complete

def CorroborateComplete (exclude : String) : Prop :=
  ∀ budget exchange a,
    corroborate hk group st request budget (corroborationSeed seed) exclude exchange = some a →
    a.Complete

theorem complete_of_isStream {exchange : Route → Exchange} {route : Route}
    {answer : UpstreamAnswer} (h : ask hk request exchange route = some answer)
    (hs : route.key.transport.isStream = true) : answer.Complete := by
  intro _
  rw [ask_route h]
  exact hs

theorem pairComplete_iff :
    PairComplete hk group st request seed ↔
      ∀ first second, pairRoutes (rank group st seed) = some (first, second) →
        first.key.transport.isStream = true ∧ second.key.transport.isStream = true := by
  constructor
  · intro h first second hp
    -- Both routes reply with the TC bit set.
    have hc := h 1 _ _ _ (resolvePair_echoing hk request true hp (by decide))
    exact ⟨hc.1 rfl, hc.2 rfl⟩
  · intro h slice exchange a b hab
    obtain ⟨first, second, hp, hfirst, hsecond⟩ := resolvePair_eq_some hab
    have hs := h first second hp
    exact ⟨complete_of_isStream hk request hfirst hs.1,
      complete_of_isStream hk request hsecond hs.2⟩

theorem corroborateComplete_iff (exclude : String) :
    CorroborateComplete hk group st request seed exclude ↔
      ∀ route, secondRoute (rank group st (corroborationSeed seed)) exclude = some route →
        route.key.transport.isStream = true := by
  constructor
  · intro h route hr
    exact h 1 _ _ (corroborate_echoing hk request true (.inl rfl) hr (by decide)) rfl
  · intro h budget exchange a ha
    obtain ⟨route, hr, hask⟩ := corroborate_eq_some ha
    exact complete_of_isStream hk request hask (h route hr)

/-- The racing loop never uses a truncated datagram; the second opinions avoid one exactly when
the routes they pick are streams. -/
theorem truncated_datagram_unused_iff (exclude : String) :
    (ResolveComplete hk group st request seed ∧ PairComplete hk group st request seed ∧
      CorroborateComplete hk group st request seed exclude) ↔
    (∀ first second, pairRoutes (rank group st seed) = some (first, second) →
      first.key.transport.isStream = true ∧ second.key.transport.isStream = true) ∧
    (∀ route, secondRoute (rank group st (corroborationSeed seed)) exclude = some route →
      route.key.transport.isStream = true) := by
  rw [pairComplete_iff, corroborateComplete_iff]
  constructor
  · intro h
    exact h.2
  · intro h
    refine ⟨?_, h⟩
    intro hedgeAdmitted capacity retryOpen retryState retry turns answer hr
    exact ResolveCtx.resolve_complete hr

/-- Two public resolvers send the same truncated datagram and it is served as the answer. -/
theorem fallback_serves_truncated_datagram :
    unprovedFallback .sample (plainGroup [quad9, quad1]) coldState addressQuery
        minRevalidationBudget 0 (echoing addressQuery true .noError) =
      some (echoReply addressQuery .noError true) ∧
    (echoReply addressQuery .noError true).message.metadata.truncation = true ∧
    pairRoutes (rank (plainGroup [quad9, quad1]) coldState 0) = some (quad9, quad1) ∧
    quad9.key.transport.isStream = false := by
  have hp : pairRoutes (rank (plainGroup [quad9, quad1]) coldState 0) = some (quad9, quad1) := by
    decide +kernel
  exact ⟨unprovedFallback_echoing _ _ _ hp, rfl, hp, rfl⟩

end Truncation

end EgressDns
