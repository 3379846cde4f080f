import EgressDns.Upstream.Ranking

/-!
# Measured against unmeasured routes

A route that nobody has measured is priced at the median of the measured ones, those set aside
included, and its own score and its path no longer count. Whether a measured route stays ahead of
an unmeasured one is then a matter of how many measured routes are cheaper by more than the bias
of the weight.
-/

namespace EgressDns

section Pool

/-- The group as a ranking sees it: one that takes companions along treats them as any route. -/
def UpstreamGroup.pool (group : UpstreamGroup) (companions : Bool) : UpstreamGroup :=
  if companions then
    { group with routes := group.routes.map fun r => { r with streamCompanion := false } }
  else group

def Candidate.listed (c : Candidate) : Candidate :=
  { c with route := { c.route with streamCompanion := false } }

variable {group : UpstreamGroup} {st : RankState}

theorem candidates_pool :
    candidates (group.pool true) st false = (candidates group st true).map Candidate.listed := by
  have hroutes : (group.pool true).routes =
      group.routes.map fun r => { r with streamCompanion := false } := rfl
  unfold candidates
  rw [hroutes, List.zipIdx_map, List.filterMap_map, List.map_filterMap]
  apply List.filterMap_congr
  intro p _
  simp only [Function.comp_apply, Bool.not_true, Bool.and_false]
  rfl

variable (cs : List Candidate)

theorem measuredScores_listed : measuredScores (cs.map Candidate.listed) = measuredScores cs := by
  unfold measuredScores
  rw [List.filter_map, List.map_map]
  rfl

theorem reprice_listed : reprice (cs.map Candidate.listed) = (reprice cs).map Candidate.listed := by
  rw [reprice_eq_map, reprice_eq_map, List.map_map, List.map_map]
  apply List.map_congr_left
  intro c _
  have hmedian : median (cs.map Candidate.listed) = median cs := by
    unfold median
    rw [measuredScores_listed]
  simp only [Function.comp_apply, repriced, hmedian]
  cases median cs with
  | none => rfl
  | some middle =>
    cases hm : c.measured <;> simp [Candidate.listed, hm]

theorem inBucket_listed (b : Bucket) :
    inBucket (cs.map Candidate.listed) b = (inBucket cs b).map Candidate.listed := by
  unfold inBucket
  rw [List.filter_map]
  rfl

theorem offered_listed : offered (cs.map Candidate.listed) = (offered cs).map Candidate.listed := by
  unfold offered
  simp only [inBucket_listed, List.isEmpty_map]
  split <;> split <;> simp_all

theorem orderOf_pool (companions : Bool) :
    orderOf (group.pool companions) st =
      ((offered (reprice (candidates group st companions))).insertionSort scoreLe).map
        Candidate.idx := by
  cases companions with
  | false => rfl
  | true =>
    have hsort := List.map_insertionSort scoreLe scoreLe Candidate.listed
      (offered (reprice (candidates group st true))) (fun _ _ _ _ => Iff.rfl)
    unfold orderOf
    rw [candidates_pool, reprice_listed, offered_listed, ← hsort, List.map_map]
    rfl

variable {companions : Bool} {c : Candidate}

theorem route_of_mem_candidates (hc : c ∈ candidates group st companions) :
    group.routes[c.idx]? = some c.route := by
  obtain ⟨p, hp, hc⟩ := List.mem_filterMap.mp hc
  split at hc
  · cases hc
  · cases hc
    exact List.mem_zipIdx_iff_getElem?.mp hp

theorem route_of_mem_offered (hc : c ∈ offered (reprice (candidates group st companions))) :
    group.routes[c.idx]? = some c.route := by
  have hmem := (offered_sublist _).subset hc
  rw [reprice_eq_map] at hmem
  obtain ⟨c₀, hc₀, rfl⟩ := List.mem_map.mp hmem
  obtain ⟨hidx, hroute, -⟩ := repriced_fields (candidates group st companions) c₀
  rw [hidx, hroute]
  exact route_of_mem_candidates hc₀

theorem lt_of_mem_orderOf {i : Nat} (h : i ∈ orderOf (group.pool companions) st) :
    i < group.routes.length := by
  rw [orderOf_pool] at h
  obtain ⟨c, hc, rfl⟩ := List.mem_map.mp h
  have hroute := route_of_mem_offered ((List.mem_insertionSort scoreLe).mp hc)
  exact (List.getElem?_eq_some_iff.mp hroute).1

theorem rankInner_eq_explored (seed : UInt64) (companions : Bool) :
    (rankInner group st seed companions).map some =
      (explored group st seed (orderOf (group.pool companions) st)).map
        fun i => group.routes[i]? := by
  have hroutes : (orderOf (group.pool companions) st).map (fun i => group.routes[i]?) =
      (((offered (reprice (candidates group st companions))).insertionSort scoreLe).map
        Candidate.route).map some := by
    rw [orderOf_pool, List.map_map, List.map_map]
    apply List.map_congr_left
    intro c hc
    exact route_of_mem_offered ((List.mem_insertionSort scoreLe).mp hc)
  have hlength : (((offered (reprice (candidates group st companions))).insertionSort
      scoreLe).map Candidate.route).length = (orderOf (group.pool companions) st).length := by
    rw [orderOf_pool, List.length_map, List.length_map]
  unfold rankInner explored
  simp only [hlength]
  split
  · rw [← swapFirst_map, ← swapFirst_map, hroutes]
  · exact hroutes.symm

theorem rankState_pool (math : FloatMath) (cfg : CircuitConfig) (health : Nat → RouteHealth)
    (net : NetworkView) (now : Nat) (seed : UInt64) (companions : Bool) :
    rankState math (group.pool companions) cfg health net now seed =
      rankState math group cfg health net now seed := by
  cases companions with
  | false => rfl
  | true =>
    have hweight (i : Nat) : ((group.pool true).routes[i]?).map Route.weight =
        (group.routes[i]?).map Route.weight := by
      change ((group.routes.map _)[i]?).map Route.weight = _
      rw [List.getElem?_map, Option.map_map]
      rfl
    unfold rankState
    simp only [hweight]

end Pool

section Costs

theorem tick_score (math : FloatMath) (h : RouteHealth) (now : Nat) (cfg : CircuitConfig)
    (seed : UInt64) (weight : Nat) :
    (h.tick now cfg seed).score math weight = h.score math weight ∧
      (h.tick now cfg seed).isMeasured = h.isMeasured := by
  unfold RouteHealth.tick
  split
  · exact ⟨rfl, rfl⟩
  · split
    · exact ⟨rfl, rfl⟩
    · split <;> exact ⟨rfl, rfl⟩

/-- The cost that the health of a route gives it, its path included. -/
def routeCost (math : FloatMath) (health : Nat → RouteHealth) (r : Route × Nat) : ℚ :=
  (health r.2).score math r.1.weight + proxyPenalty r.1

def measuredRoutes (group : UpstreamGroup) (health : Nat → RouteHealth) : List (Route × Nat) :=
  group.routes.zipIdx.filter fun r => !r.1.streamCompanion && (health r.2).isMeasured

/-- At the neutral price `x` the unmeasured route `u` would come before `b`. -/
def Undercuts (math : FloatMath) (health : Nat → RouteHealth) (b u : Route × Nat) (x : ℚ) : Prop :=
  x + weightBias u.1.weight < routeCost math health b ∨
    x + weightBias u.1.weight = routeCost math health b ∧ u.2 < b.2

instance (math : FloatMath) (health : Nat → RouteHealth) (b u : Route × Nat) (x : ℚ) :
    Decidable (Undercuts math health b u x) :=
  inferInstanceAs (Decidable (_ ∨ _))

variable {math : FloatMath} {group : UpstreamGroup} {cfg : CircuitConfig}
  {health : Nat → RouteHealth} {net : NetworkView} {now : Nat} {seed : UInt64}

theorem candidates_eq_map (st : RankState) :
    candidates group st false =
      (group.routes.zipIdx.filter fun r => !r.1.streamCompanion).map
        fun r => candidate st r.1 r.2 := by
  unfold candidates
  induction group.routes.zipIdx with
  | nil => rfl
  | cons r rest ih =>
    rw [List.filterMap_cons, ih]
    cases hs : r.1.streamCompanion <;> simp [hs]

theorem candidate_cost {r : Route × Nat} (hr : group.routes[r.2]? = some r.1) :
    (candidate (rankState math group cfg health net now seed) r.1 r.2).score =
      routeCost math health r := by
  simp only [candidate, rankState, hr, Option.map_some, Option.getD_some]
  rw [(tick_score math _ _ _ _ _).1]
  rfl

theorem candidate_isMeasured (r : Route × Nat) :
    (candidate (rankState math group cfg health net now seed) r.1 r.2).measured =
      (health r.2).isMeasured :=
  (tick_score math _ _ _ _ 0).2

theorem measuredScores_eq :
    measuredScores (candidates group (rankState math group cfg health net now seed) false) =
      ((measuredRoutes group health).map (routeCost math health)).insertionSort (· ≤ ·) := by
  unfold measuredScores measuredRoutes
  rw [candidates_eq_map, List.filter_map, List.filter_filter, List.map_map]
  congr 1
  have hfilter : (group.routes.zipIdx.filter fun r =>
        (Candidate.measured ∘ fun r : Route × Nat =>
          candidate (rankState math group cfg health net now seed) r.1 r.2) r &&
          !r.1.streamCompanion) =
      group.routes.zipIdx.filter fun r => !r.1.streamCompanion && (health r.2).isMeasured := by
    apply List.filter_congr
    intro r _
    rw [Function.comp_apply, candidate_isMeasured, Bool.and_comm]
  rw [hfilter]
  apply List.map_congr_left
  intro r hr
  have hmem := List.mem_of_mem_filter hr
  exact candidate_cost (List.mem_zipIdx_iff_getElem?.mp hmem)

variable {b : Route × Nat} {middle : ℚ}

theorem Undercuts.of_le {u : Route × Nat} {x y : ℚ} (hle : x ≤ y)
    (h : Undercuts math health b u y) : Undercuts math health b u x := by
  rcases h with hlt | ⟨heq, hi⟩
  · exact .inl (by linarith)
  · rcases hle.lt_or_eq with hlt | hsame
    · exact .inl (by linarith)
    · exact .inr ⟨by rw [hsame, heq], hi⟩

theorem price_of_isMeasured (hb : listedAt group b.2 = some b.1)
    (hmb : (health b.2).isMeasured = true) :
    price group (rankState math group cfg health net now seed) b.2 = routeCost math health b := by
  have hm : (candidate (rankState math group cfg health net now seed) b.1 b.2).measured = true :=
    (candidate_isMeasured b).trans hmb
  have hcost : (candidate (rankState math group cfg health net now seed) b.1 b.2).score =
      routeCost math health b := candidate_cost (listedAt_eq_some.mp hb).1
  unfold price
  rw [hb, ← hcost]
  simp only [repriced, hm, if_true]
  split <;> rfl

theorem price_of_not_isMeasured {u : Route × Nat} (hu : listedAt group u.2 = some u.1)
    (hmu : (health u.2).isMeasured = false)
    (hmedian : median (candidates group (rankState math group cfg health net now seed) false) =
      some middle) :
    price group (rankState math group cfg health net now seed) u.2 =
      middle + weightBias u.1.weight := by
  have hm : (candidate (rankState math group cfg health net now seed) u.1 u.2).measured = false :=
    (candidate_isMeasured u).trans hmu
  unfold price
  rw [hu]
  simp only [repriced, hmedian, hm]
  rfl

theorem exists_median (hb : listedAt group b.2 = some b.1) (hmb : (health b.2).isMeasured = true) :
    ∃ middle, median (candidates group (rankState math group cfg health net now seed) false) =
      some middle := by
  apply Option.ne_none_iff_exists'.mp
  intro hnone
  have hfalse := median_eq_none_iff.mp hnone
    (candidate (rankState math group cfg health net now seed) b.1 b.2)
    (mem_candidates.mpr ⟨b.1, hb, rfl⟩)
  rw [candidate_isMeasured, hmb] at hfalse
  cases hfalse

theorem not_undercuts_median_iff {u : Route × Nat}
    (hmedian : median (candidates group (rankState math group cfg health net now seed) false) =
      some middle) :
    ¬ Undercuts math health b u middle ↔
      (measuredRoutes group health).countP
          (fun k => Undercuts math health b u (routeCost math health k)) ≤
        (measuredRoutes group health).length / 2 := by
  unfold median at hmedian
  rw [measuredScores_eq, List.length_insertionSort, List.length_map] at hmedian
  have hcount := Lib.countP_insertionSort_le_iff
    (p := fun x => decide (Undercuts math health b u x))
    (fun x y hle hy => decide_eq_true (Undercuts.of_le hle (of_decide_eq_true hy))) hmedian
  rw [List.countP_map] at hcount
  rw [← decide_eq_false_iff_not, ← hcount]
  rfl

/-- A measured route stays ahead of an unmeasured one as long as no more than half of the measured
routes undercut it. -/
theorem measured_ahead_iff {u : Route × Nat} (hb : listedAt group b.2 = some b.1)
    (hu : listedAt group u.2 = some u.1)
    (hrb : Ready group (rankState math group cfg health net now seed) b.2)
    (hru : Ready group (rankState math group cfg health net now seed) u.2)
    (hmb : (health b.2).isMeasured = true) (hmu : (health u.2).isMeasured = false) :
    [b.2, u.2].Sublist (orderOf group (rankState math group cfg health net now seed)) ↔
      (measuredRoutes group health).countP
          (fun k => Undercuts math health b u (routeCost math health k)) ≤
        (measuredRoutes group health).length / 2 := by
  have hne : b.2 ≠ u.2 := by
    intro heq
    rw [heq, hmu] at hmb
    cases hmb
  obtain ⟨middle, hmedian⟩ : ∃ middle, median (candidates group
      (rankState math group cfg health net now seed) false) = some middle := exists_median hb hmb
  rw [Lib.pair_sublist_iff (cheaper_asymm group _) orderOf_pairwise (ready_mem hrb)
    (ready_mem hru) hne, ← not_undercuts_median_iff hmedian]
  unfold Cheaper Undercuts
  rw [price_of_isMeasured hb hmb, price_of_not_isMeasured hu hmu hmedian]
  constructor
  · rintro (hlt | ⟨heq, hi⟩) (hlt' | ⟨heq', hi'⟩)
    · exact lt_asymm hlt hlt'
    · exact ne_of_gt hlt heq'
    · exact ne_of_lt hlt' heq.symm
    · exact Nat.lt_asymm hi hi'
  · intro hnot
    obtain ⟨hge, htie⟩ := not_or.mp hnot
    rcases (not_lt.mp hge).lt_or_eq with hlt | heq
    · exact .inl hlt
    · refine .inr ⟨heq, ?_⟩
      exact lt_of_le_of_ne (not_lt.mp fun hi => htie ⟨heq.symm, hi⟩) hne

end Costs

section Pairs

instance (group : UpstreamGroup) (st : RankState) (i : Nat) : Decidable (Ready group st i) :=
  decidable_of_iff ((listedAt group i).any (familyOk st) = true ∧ (st.health i).usable = true) <|
    and_congr_left fun _ => by
      rw [FamilyUsable, Option.any_eq_true_iff_get]
      cases listedAt group i <;> simp

theorem weightBias_pos (weight : Nat) : 0 < weightBias weight := by
  unfold weightBias
  positivity

variable (math : FloatMath) (group : UpstreamGroup) (cfg : CircuitConfig) (net : NetworkView)
  (now : Nat) (seed : UInt64) (companions : Bool)

/-- The cheapest measured ready route stays ahead of an unmeasured ready one just when no more than
half of the measured routes are set aside and undercut it. -/
theorem best_proven_ahead_iff (health : Nat → RouteHealth) (b u : Route × Nat)
    (hb : listedAt (group.pool companions) b.2 = some b.1)
    (hu : listedAt (group.pool companions) u.2 = some u.1)
    (hrb : Ready (group.pool companions) (rankState math group cfg health net now seed) b.2)
    (hru : Ready (group.pool companions) (rankState math group cfg health net now seed) u.2)
    (hmb : (health b.2).isMeasured = true) (hmu : (health u.2).isMeasured = false)
    (hbest : ∀ k : Route × Nat, listedAt (group.pool companions) k.2 = some k.1 →
      Ready (group.pool companions) (rankState math group cfg health net now seed) k.2 →
      (health k.2).isMeasured = true → routeCost math health b ≤ routeCost math health k) :
    [b.2, u.2].Sublist
        (orderOf (group.pool companions) (rankState math group cfg health net now seed)) ↔
      (measuredRoutes (group.pool companions) health).countP
          (fun k =>
            ¬ Ready (group.pool companions) (rankState math group cfg health net now seed) k.2 ∧
              Undercuts math health b u (routeCost math health k)) ≤
        (measuredRoutes (group.pool companions) health).length / 2 := by
  rw [← rankState_pool math cfg health net now seed companions] at hrb hru hbest ⊢
  rw [measured_ahead_iff hb hu hrb hru hmb hmu]
  apply Iff.of_eq
  congr 1
  apply List.countP_congr
  intro k hk
  obtain ⟨hmem, hmeasured⟩ := List.mem_filter.mp hk
  obtain ⟨hlisted, hmeasured⟩ := Bool.and_eq_true_iff.mp hmeasured
  have hl : listedAt (group.pool companions) k.2 = some k.1 :=
    listedAt_eq_some.mpr ⟨List.mem_zipIdx_iff_getElem?.mp hmem, by simpa using hlisted⟩
  simp only [decide_eq_true_eq]
  refine (and_iff_right_of_imp fun hcut hready => ?_).symm
  -- A ready route costs no less than the cheapest one, and the bias comes on top.
  have hle := hbest k hl hready hmeasured
  have hbias := weightBias_pos u.1.weight
  rcases hcut with hlt | ⟨heq, -⟩ <;> linarith

/-- A direct route that has answered and never failed, and an unused proxied route to the same
server and address, both ready. -/
structure DirectAndProxied (histories : Nat → List HealthEvent) (d p : Route × Nat) : Prop where
  direct_at : listedAt (group.pool companions) d.2 = some d.1
  proxied_at : listedAt (group.pool companions) p.2 = some p.1
  direct_ready :
    Ready (group.pool companions) (rankedAfter math group cfg histories net now seed) d.2
  proxied_ready :
    Ready (group.pool companions) (rankedAfter math group cfg histories net now seed) p.2
  leaves_directly : d.1.egress = .direct
  leaves_proxied : p.1.egress ≠ .direct
  server : p.1.key.server = d.1.key.server
  addr : p.1.key.addr = d.1.key.addr
  answered : (histories d.2).any HealthEvent.isSuccess = true
  unfailed : ∀ e ∈ histories d.2, e.isFailure = false
  unused : NeverTried (histories p.2)

theorem healthAfter_isMeasured (history : List HealthEvent) :
    (healthAfter math history).isMeasured = history.any HealthEvent.isSuccess :=
  (learnt_healthAfter math history).measured

/-- The direct route stays ahead of the proxied one just when no more than half of the measured
routes undercut it: the median takes the place of the score and of the penalty of the path. -/
theorem direct_ahead_of_proxied_iff (histories : Nat → List HealthEvent) (d p : Route × Nat)
    (h : DirectAndProxied math group cfg net now seed companions histories d p) :
    [d.2, p.2].Sublist
        (orderOf (group.pool companions) (rankedAfter math group cfg histories net now seed)) ↔
      (measuredRoutes (group.pool companions) fun i => healthAfter math (histories i)).countP
          (fun k => Undercuts math (fun i => healthAfter math (histories i)) d p
            (routeCost math (fun i => healthAfter math (histories i)) k)) ≤
        (measuredRoutes (group.pool companions) fun i =>
          healthAfter math (histories i)).length / 2 := by
  have hrd := h.direct_ready
  have hrp := h.proxied_ready
  unfold rankedAfter at hrd hrp ⊢
  rw [← rankState_pool math cfg _ net now seed companions] at hrd hrp ⊢
  apply measured_ahead_iff h.direct_at h.proxied_at hrd hrp
  · rw [healthAfter_isMeasured]
    exact h.answered
  · rw [healthAfter_isMeasured]
    exact h.unused.no_success

end Pairs

/-! Two slow answers and two fast ones: the fast routes set the neutral price. -/

section Samples

def answeredIn (ms : Nat) : List HealthEvent :=
  [.record ⟨.success, some (ms * 10 ^ 6), nofun⟩ 0 breaker]

def bothFamilies : NetworkView where
  v4 := .usable
  v6 := .usable
  inRelearnWindow := false

def onlyV4 : NetworkView := { bothFamilies with v6 := .unusable }

variable (route : Route)

def overV6 : Route := { route with key := { route.key with addr := .v6 1 } }

def overTcp : Route := { route with key := { route.key with transport := .tcp } }

def throughProxy : Route :=
  { route with
    key := { route.key with path := "socks5://10.0.0.1:1080" }
    egress := .proxy "socks5://10.0.0.1:1080" }

/-- A slow route, an untried one and two fast ones. -/
def unevenHistories (i : Nat) : List HealthEvent :=
  match i with
  | 0 => answeredIn 500
  | 1 => []
  | _ => answeredIn 20

def mixedFamilies : UpstreamGroup := plainGroup [quad9, quad1, overV6 quad9, overV6 quad1]

def mixedPaths : UpstreamGroup :=
  plainGroup [overTcp quad9, throughProxy (overTcp quad9), quad1, gateway]

def unevenHealth (i : Nat) : RouteHealth := healthAfter .rounded (unevenHistories i)

theorem best_proven_ahead_two_routes :
    [0, 1].Sublist (orderOf ((plainGroup [quad9, quad1]).pool false)
      (rankState .rounded (plainGroup [quad9, quad1]) breaker unevenHealth bothFamilies 0 0)) := by
  refine (best_proven_ahead_iff .rounded (plainGroup [quad9, quad1]) breaker bothFamilies 0 0 false
    unevenHealth (quad9, 0) (quad1, 1) rfl rfl (by decide) (by decide)
    (by decide) (by decide) ?_).mpr (by decide)
  rintro ⟨route, k⟩ hl _ hm
  obtain ⟨hk, -⟩ := listedAt_eq_some.mp hl
  match k with
  | 0 =>
    cases hk
    exact le_rfl
  | 1 =>
    have hunmeasured : (unevenHealth 1).isMeasured = false := by decide
    exact absurd (hunmeasured.symm.trans hm) Bool.false_ne_true
  | k + 2 => cases hk

/-- IPv6 is gone, but its two fast routes make the neutral price: the untried route goes before the
only one that is proven and ready. -/
theorem untried_ahead_of_best_proven :
    let st := rankState .rounded mixedFamilies breaker unevenHealth onlyV4 0 0
    (∀ i, i < 4 → (Ready (mixedFamilies.pool false) st i ↔ i < 2)) ∧
    (∀ i, i < 4 → ((unevenHealth i).isMeasured = true ↔ i ≠ 1)) ∧
    quad1.weight = quad9.weight ∧ orderOf (mixedFamilies.pool false) st = [1, 0] := by
  decide +kernel

theorem direct_ahead_of_proxied_two_routes :
    [0, 1].Sublist (orderOf
      ((plainGroup [overTcp quad9, throughProxy (overTcp quad9)]).pool false)
      (rankedAfter .rounded (plainGroup [overTcp quad9, throughProxy (overTcp quad9)]) breaker
        unevenHistories bothFamilies 0 0)) := by
  refine (direct_ahead_of_proxied_iff .rounded
    (plainGroup [overTcp quad9, throughProxy (overTcp quad9)]) breaker bothFamilies 0 0 false
    unevenHistories (overTcp quad9, 0) (throughProxy (overTcp quad9), 1) ?_).mpr
    (by decide +kernel)
  refine ⟨rfl, rfl, by decide, by decide, rfl, ?_, rfl, rfl, rfl, by decide, ?_⟩
  · intro h
    cases h
  · exact List.forall_mem_nil _

theorem proxied_ahead_of_direct :
    (∃ d p, DirectAndProxied .rounded mixedPaths breaker bothFamilies 0 0 false unevenHistories
      (d, 0) (p, 1)) ∧
    orderOf (mixedPaths.pool false)
      (rankedAfter .rounded mixedPaths breaker unevenHistories bothFamilies 0 0) = [2, 3, 1, 0] := by
  refine ⟨⟨overTcp quad9, throughProxy (overTcp quad9), ?_⟩, by decide +kernel⟩
  refine ⟨rfl, rfl, by decide, by decide, rfl, ?_, rfl, rfl, rfl, by decide, ?_⟩
  · intro h
    cases h
  · exact List.forall_mem_nil _

end Samples

end EgressDns
