import EgressDns.Upstream.Accounting
import EgressDns.Upstream.Pricing

/-!
# Where a truncated answer is asked again

`Scheduler::stream_retry` ranks the whole group again, companions included, and takes the first
stream routes of the ranking.
-/

namespace EgressDns

structure SameServer (r udp : Route) : Prop where
  server : r.key.server = udp.key.server
  addr : r.key.addr = udp.key.addr

/-- Whatever the retry of a truncated answer of `udp` tries first belongs to the server and the
address of `udp`. -/
def ResolveCtx.RetriesAt (ctx : ResolveCtx) (udp : Route) : Prop :=
  ∀ s answer result s', answer.route = udp.key →
    answer.message.message.metadata.truncation = true →
    ctx.accept s answer = .stop result s' → ∀ first ∈ s'.retried.head?, SameServer first.1 udp

section Retried

variable {ctx : ResolveCtx} {first : Route × Option AttemptOutcome}

theorem retryOver_head {routes : List Route} (h : first ∈ (ctx.retryOver routes).2.head?) :
    first.1 ∈ routes.head? := by
  cases routes with
  | nil => cases h
  | cons route routes =>
    unfold ResolveCtx.retryOver at h
    split at h
    · cases h
    · dsimp only at h
      split at h
      · cases h
        rfl
      · cases h
        rfl

theorem mem_of_mem_rankInner {group : UpstreamGroup} {st : RankState} {seed : UInt64}
    {companions : Bool} {route : Route} (h : route ∈ rankInner group st seed companions) :
    route ∈ group.routes := by
  have hmem : some route ∈ (rankInner group st seed companions).map some :=
    List.mem_map_of_mem h
  rw [rankInner_eq_explored] at hmem
  obtain ⟨i, -, hi⟩ := List.mem_map.mp hmem
  exact List.mem_of_getElem? hi

theorem accept_truncated (ctx : ResolveCtx) (s : ResolveState) (answer : UpstreamAnswer)
    (htruncated : answer.message.message.metadata.truncation = true)
    (hudp : answer.route.transport = .udp) :
    ∃ result, ctx.accept s answer = .stop result { s with retried := ctx.streamRetry.2 } := by
  have hretry : (answer.message.message.metadata.truncation &&
      !answer.route.transport.isStream) = true := by
    rw [htruncated, hudp]
    rfl
  unfold ResolveCtx.accept
  rw [if_pos hretry]
  cases hanswer : ctx.streamRetry.1 with
  | none | some retried => exact ⟨_, rfl⟩

theorem first_retried (h : first ∈ ctx.streamRetry.2.head?) :
    first.1 ∈ ((rankInner ctx.group ctx.retryState ctx.seed true).filter
      fun r => r.key.transport.isStream).head? := by
  unfold ResolveCtx.streamRetry at h
  split at h
  · have hhead := retryOver_head h
    rw [List.head?_take] at hhead
    simpa using hhead
  · cases h

theorem retriesAt_of_all_same {udp : Route} (hudp : udp.key.transport = .udp)
    (hall : ∀ r ∈ ctx.group.routes, r.key.transport.isStream = true → SameServer r udp) :
    ctx.RetriesAt udp := by
  intro s answer result s' hroute htruncated haccept first hfirst
  have hdatagram : answer.route.transport = .udp := by rw [hroute, hudp]
  obtain ⟨result', hstop⟩ := accept_truncated ctx s answer htruncated hdatagram
  rw [hstop] at haccept
  cases haccept
  have hmem := List.mem_of_mem_head? (first_retried hfirst)
  obtain ⟨hranked, hstream⟩ := List.mem_filter.mp hmem
  exact hall first.1 (mem_of_mem_rankInner hranked) hstream

end Retried

/-! A state in which two given routes lead the ranking. -/

section Race

def raceLatency (first second i : Nat) : Nat :=
  if i = first then 0 else if i = second then 1000 else 2000

def raceHistories (first second i : Nat) : List HealthEvent :=
  answeredIn (raceLatency first second i)

variable (math : FloatMath)

theorem answeredIn_health (ms : Nat) :
    healthAfter math (answeredIn ms) =
      { RouteHealth.new with
        success := 1, ewmaMs := ms, window := [(ms : ℚ)], windowPos := 1
        lastUpdate := some 0 } := by
  have hms : millis (ms * 1000000) = ms := by
    unfold millis
    push_cast
    exact mul_div_cancel_right₀ _ (by norm_num)
  change (RouteHealth.new.record math .success (some (ms * 10 ^ 6)) 0 breaker) = _
  simp [RouteHealth.record, RouteHealth.decay, RouteHealth.new, RouteHealth.tally,
    RouteHealth.sample, RouteHealth.updateCircuit, RouteHealth.windowSize, hms]

theorem answeredIn_score (ms weight : Nat) :
    (healthAfter math (answeredIn ms)).score math weight =
      13 / 10 * ms + 200 + math.sqrt (2 / 27) * 40 + weightBias weight := by
  rw [answeredIn_health]
  simp [RouteHealth.score, RouteHealth.p95Ms, RouteHealth.percentile, RouteHealth.new,
    RouteHealth.successProbability, RouteHealth.total, RouteHealth.streak,
    RouteHealth.uncertainty]
  norm_num
  ring

theorem weightBias_le (weight : Nat) : weightBias weight ≤ 100 := by
  have hone : (1 : ℚ) ≤ max (weight : ℚ) 1 := le_max_right _ _
  exact div_le_self (by norm_num) (by exact_mod_cast hone)

theorem proxyPenalty_bounds (route : Route) : 0 ≤ proxyPenalty route ∧ proxyPenalty route ≤ 120 := by
  unfold proxyPenalty
  split <;> norm_num

variable {math} {group : UpstreamGroup} {cfg : CircuitConfig} {now : Nat} {seed : UInt64}
  {first second : Nat}

def raceState (math : FloatMath) (group : UpstreamGroup) (cfg : CircuitConfig) (now : Nat)
    (seed : UInt64) (first second : Nat) : RankState :=
  rankedAfter math group cfg (raceHistories first second) bothFamilies now seed

theorem race_ready {i : Nat} (hi : i < group.routes.length) :
    Ready (group.pool true) (raceState math group cfg now seed first second) i := by
  have hlisted : listedAt (group.pool true) i =
      some { group.routes[i] with streamCompanion := false } := by
    apply listedAt_eq_some.mpr
    refine ⟨?_, rfl⟩
    change (group.routes.map _)[i]? = _
    rw [List.getElem?_map, List.getElem?_eq_getElem hi]
    rfl
  refine ⟨⟨_, hlisted, ?_⟩, ?_⟩
  · unfold familyOk
    split <;> rfl
  · have hclosed : (healthAfter math (raceHistories first second i)).circuit = .closed := by
      unfold raceHistories
      rw [answeredIn_health]
      rfl
    unfold raceState rankedAfter rankState
    dsimp only
    rw [tick_of_not_opened (by rw [hclosed]; decide)]
    unfold RouteHealth.isUsable
    rw [hclosed]

theorem race_price {i : Nat} (hi : i < group.routes.length) :
    ∃ route : Route, price (group.pool true) (raceState math group cfg now seed first second) i =
      13 / 10 * raceLatency first second i + 200 + math.sqrt (2 / 27) * 40 +
        weightBias route.weight + proxyPenalty route := by
  have hready : Ready (group.pool true) (raceState math group cfg now seed first second) i :=
    race_ready hi
  obtain ⟨⟨route, hl, -⟩, -⟩ := hready
  have hm : (healthAfter math (raceHistories first second i)).isMeasured = true := by
    unfold raceHistories
    rw [answeredIn_health]
    rfl
  refine ⟨route, ?_⟩
  unfold raceState rankedAfter
  rw [← rankState_pool math cfg _ bothFamilies now seed true, ← answeredIn_score]
  exact price_of_isMeasured (b := (route, i)) hl hm

theorem race_cheaper {i j : Nat} (hi : i < group.routes.length) (hj : j < group.routes.length)
    (hfaster : raceLatency first second i + 1000 ≤ raceLatency first second j) :
    Cheaper (group.pool true) (raceState math group cfg now seed first second) i j := by
  obtain ⟨ri, hpi⟩ : ∃ route : Route,
      price (group.pool true) (raceState math group cfg now seed first second) i = _ :=
    race_price hi
  obtain ⟨rj, hpj⟩ : ∃ route : Route,
      price (group.pool true) (raceState math group cfg now seed first second) j = _ :=
    race_price hj
  have hlatency : (raceLatency first second i : ℚ) + 1000 ≤ raceLatency first second j := by
    exact_mod_cast hfaster
  have hbias := weightBias_le ri.weight
  have hbias' := weightBias_pos rj.weight
  have hpenalty := (proxyPenalty_bounds ri).2
  have hpenalty' := (proxyPenalty_bounds rj).1
  apply Or.inl
  rw [hpi, hpj]
  linarith

theorem race_order (hfirst : first < group.routes.length) (hsecond : second < group.routes.length)
    (hne : first ≠ second) :
    ∃ rest, orderOf (group.pool true) (raceState math group cfg now seed first second) =
      first :: second :: rest := by
  have hs : (orderOf (group.pool true) (raceState math group cfg now seed first second)).Pairwise
      (Cheaper (group.pool true) (raceState math group cfg now seed first second)) :=
    orderOf_pairwise
  have hzero : raceLatency first second first = 0 := if_pos rfl
  have hthousand : raceLatency first second second = 1000 := by
    unfold raceLatency
    rw [if_neg hne.symm, if_pos rfl]
  have hasymm := cheaper_asymm (group.pool true) (raceState math group cfg now seed first second)
  obtain ⟨rest, hrest⟩ := Lib.eq_cons_of_least hasymm hs (ready_mem (race_ready hfirst)) (by
    intro i hi hif
    apply race_cheaper hfirst (lt_of_mem_orderOf hi)
    rw [hzero, raceLatency, if_neg hif]
    split <;> omega)
  have hmem : second ∈ rest := by
    have hin : second ∈ orderOf (group.pool true)
        (raceState math group cfg now seed first second) := ready_mem (race_ready hsecond)
    rw [hrest] at hin
    rcases List.mem_cons.mp hin with heq | hin
    · exact absurd heq.symm hne
    · exact hin
  have hnodup : (first :: rest).Nodup := hrest ▸ orderOf_nodup
  rw [hrest] at hs
  obtain ⟨rest', hrest'⟩ := Lib.eq_cons_of_least hasymm (List.pairwise_cons.mp hs).2 hmem (by
    intro i hi his
    have hif : i ≠ first := by
      rintro rfl
      exact (List.nodup_cons.mp hnodup).1 hi
    have hin : i ∈ orderOf (group.pool true) (raceState math group cfg now seed first second) := by
      rw [hrest]
      exact List.mem_cons_of_mem _ hi
    apply race_cheaper hsecond (lt_of_mem_orderOf hin)
    rw [hthousand, raceLatency, if_neg hif, if_neg his])
  exact ⟨rest', by rw [hrest, hrest']⟩

theorem exists_race (math : FloatMath) (cfg : CircuitConfig) (now : Nat) (seed : UInt64)
    {o c : Nat} (ho : o < group.routes.length) (hc : c < group.routes.length) (hne : o ≠ c) :
    ∃ first second rest, rankInner group (raceState math group cfg now seed first second) seed true =
      group.routes[o] :: rest := by
  have hhead (st : RankState) (is : List Nat)
      (h : explored group st seed (orderOf (group.pool true) st) = o :: is) :
      ∃ rest, rankInner group st seed true = group.routes[o] :: rest := by
    have hmap : (rankInner group st seed true).map some = _ := rankInner_eq_explored seed true
    rw [h, List.map_cons, List.getElem?_eq_getElem ho] at hmap
    obtain ⟨route, rest, heq, hroute, -⟩ := List.map_eq_cons_iff.mp hmap
    exact ⟨rest, by rw [heq, Option.some.inj hroute]⟩
  have hrate (first second : Nat) : exploreRate group
      (raceState math group cfg now seed first second) = group.scheduler.exploreRate :=
    if_neg Bool.false_ne_true
  by_cases hswap : 0 < group.scheduler.exploreRate ∧
      unitFromSeed seed < group.scheduler.exploreRate
  · obtain ⟨is, his⟩ : ∃ rest, orderOf (group.pool true)
        (raceState math group cfg now seed c o) = c :: o :: rest := race_order hc ho hne.symm
    obtain ⟨rest, hrest⟩ := hhead (raceState math group cfg now seed c o) (c :: is) (by
      rw [his, explored, hrate, if_pos ⟨by simp, hswap⟩]
      rfl)
    exact ⟨c, o, rest, hrest⟩
  · obtain ⟨is, his⟩ : ∃ rest, orderOf (group.pool true)
        (raceState math group cfg now seed o c) = o :: c :: rest := race_order ho hc hne
    obtain ⟨rest, hrest⟩ := hhead (raceState math group cfg now seed o c) (c :: is) (by
      rw [his, explored, hrate, if_neg fun h => hswap h.2])
    exact ⟨o, c, rest, hrest⟩

end Race

def truncatedReply : WireMessage where
  message :=
    { addressQuery with
      metadata := { addressQuery.metadata with messageType := .response, truncation := true } }
  unvalidated := by decide

/-- A retry whose exchanges time out. -/
def retryCtx (group : UpstreamGroup) (st : RankState) (seed : UInt64) : ResolveCtx :=
  { ResolveCtx.twoRoutes with
    group := group, state := st, seed := seed, retryOpen := true, retryState := st
    retry := fun _ => some (.failed true "timed out") }

theorem retryCtx_first {group : UpstreamGroup} {st : RankState} {seed : UInt64} {route : Route}
    {rest : List Route} (hstream : route.key.transport.isStream = true)
    (hrank : rankInner group st seed true = route :: rest) :
    ∃ tried, (retryCtx group st seed).streamRetry.2 = (route, some .timeout) :: tried := by
  have hranked : rankInner (retryCtx group st seed).group (retryCtx group st seed).retryState
      (retryCtx group st seed).seed true = route :: rest := hrank
  unfold ResolveCtx.streamRetry
  rw [hranked, List.filter_cons, if_pos hstream, List.take_succ_cons]
  exact ⟨_, rfl⟩

/-- A datagram route of the group and a stream route to the same server and address. -/
structure Truncating (group : UpstreamGroup) (udp : Route) : Prop where
  mem : udp ∈ group.routes
  datagram : udp.key.transport = .udp
  stream : ∃ r ∈ group.routes, r.key.transport.isStream = true ∧ SameServer r udp

def StreamUsable (group : UpstreamGroup) (st : RankState) (udp : Route) : Prop :=
  ∃ i r, group.routes[i]? = some r ∧ r.key.transport.isStream = true ∧ SameServer r udp ∧
    (st.health i).usable = true

/-- Truncated answers of a route go back to its server in every state just when the group has no
stream route to another server or address. -/
theorem retried_at_truncating_server_iff (math : FloatMath) (group : UpstreamGroup)
    (cfg : CircuitConfig) (seed : UInt64) (udp : Route) (h : Truncating group udp) :
    (∀ (ctx : ResolveCtx) histories net now, ctx.group = group → ctx.seed = seed →
      ctx.retryState = rankedAfter math group cfg histories net now seed →
      StreamUsable group ctx.retryState udp → ctx.RetriesAt udp) ↔
    ∀ r ∈ group.routes, r.key.transport.isStream = true → SameServer r udp := by
  constructor
  · intro hall r hr hstream
    by_contra hother
    obtain ⟨c, hc, hcstream, hcsame⟩ := h.stream
    obtain ⟨o, ho, rfl⟩ := List.getElem_of_mem hr
    obtain ⟨j, hj, rfl⟩ := List.getElem_of_mem hc
    have hne : o ≠ j := by
      rintro rfl
      exact hother hcsame
    obtain ⟨first, second, rest, hrank⟩ := exists_race math cfg 0 seed ho hj hne
    have hretries := hall (retryCtx group (raceState math group cfg 0 seed first second) seed)
      (raceHistories first second) bothFamilies 0 rfl rfl rfl
      ⟨j, group.routes[j], List.getElem?_eq_getElem hj, hcstream, hcsame, (race_ready hj).2⟩
    -- The truncated answer of `udp` comes back while the other route leads the ranking.
    obtain ⟨result, hstop⟩ := accept_truncated
      (retryCtx group (raceState math group cfg 0 seed first second) seed)
      ((retryCtx group (raceState math group cfg 0 seed first second) seed).initial udp)
      ⟨truncatedReply, udp.key, 0, false, false⟩ rfl h.datagram
    obtain ⟨tried, htried⟩ := retryCtx_first hstream hrank
    refine hother (hretries _ _ _ _ rfl rfl hstop (group.routes[o], some .timeout) ?_)
    rw [htried]
    rfl
  · rintro hall ctx histories net now rfl rfl - -
    exact retriesAt_of_all_same h.datagram hall

def companionOf (udp : Route) : Route :=
  { udp with key := { udp.key with transport := .tcp }, streamCompanion := true }

def retryHistories (i : Nat) : List HealthEvent :=
  if i = 1 then [] else answeredIn 20

def retryState (group : UpstreamGroup) : RankState :=
  rankedAfter .rounded group breaker retryHistories bothFamilies 0 0

def udpAlone : UpstreamGroup := plainGroup [quad9, companionOf quad9]

/-- The companion of one server beside a TCP route to another. -/
def udpAndTcp : UpstreamGroup := plainGroup [quad9, companionOf quad9, overTcp quad1]

theorem sameServer_companionOf (udp : Route) : SameServer (companionOf udp) udp := ⟨rfl, rfl⟩

theorem retried_at_truncating_server_alone :
    (retryCtx udpAlone (retryState udpAlone) 0).streamRetry.2.head? =
        some (companionOf quad9, some .timeout) ∧
    SameServer (companionOf quad9) quad9 := by
  have hhead : (retryCtx udpAlone (retryState udpAlone) 0).streamRetry.2.head? =
      some (companionOf quad9, some .timeout) := by decide +kernel
  have htruncating : Truncating udpAlone quad9 :=
    ⟨List.mem_cons_self, rfl, companionOf quad9, by simp [udpAlone, plainGroup], rfl,
      sameServer_companionOf quad9⟩
  have hall : ∀ r ∈ udpAlone.routes, r.key.transport.isStream = true → SameServer r quad9 := by
    intro r hr hstream
    rcases List.mem_cons.mp hr with rfl | hr
    · cases hstream
    · rw [List.mem_singleton.mp hr]
      exact sameServer_companionOf quad9
  obtain ⟨result, hstop⟩ := accept_truncated (retryCtx udpAlone (retryState udpAlone) 0)
    ((retryCtx udpAlone (retryState udpAlone) 0).initial quad9)
    ⟨truncatedReply, quad9.key, 0, false, false⟩ rfl rfl
  refine ⟨hhead, ?_⟩
  exact (retried_at_truncating_server_iff .rounded udpAlone breaker 0 quad9 htruncating).mpr hall
    (retryCtx udpAlone (retryState udpAlone) 0) retryHistories bothFamilies 0 rfl rfl rfl
    ⟨1, companionOf quad9, rfl, rfl, sameServer_companionOf quad9, by decide⟩
    _ _ _ _ rfl rfl hstop _ hhead

/-- The UDP route answers with a truncated message and the retry goes to another server first,
although the companion is usable. -/
theorem retried_at_other_server :
    ((retryCtx udpAndTcp (retryState udpAndTcp) 0).run
      [.finished 0 (.replied truncatedReply 5) none]).map (fun p => p.2.retried.map fun r => r.1.key) =
        some [(overTcp quad1).key, (companionOf quad9).key] ∧
    (rank udpAndTcp (retryState udpAndTcp) 0).head? = some quad9 ∧
    ((retryState udpAndTcp).health 1).usable = true ∧
    (overTcp quad1).key.server ≠ quad9.key.server := by
  decide +kernel

end EgressDns
