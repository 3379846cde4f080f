import Mathlib.Data.List.Sigma
import Mathlib.Data.Prod.Lex
import EgressDns.Lib.ListFacts
import EgressDns.Upstream.Health

/-!
# What ranking offers, and in which order

The buckets of `Scheduler::rank_inner` decide which positions of the group are offered, the prices
in which order. Positions stand for the shared pointers of the source: two positions may hold
equal routes, but no position is offered twice.
-/

namespace EgressDns

/-- What `rank` reads of the network: the two families and the relearn window. -/
structure NetworkView where
  v4 : FamilyState
  v6 : FamilyState
  inRelearnWindow : Bool

/-- The health of every route after its tick, as `rank` reads it under the route's lock. -/
def rankState (math : FloatMath) (group : UpstreamGroup) (cfg : CircuitConfig)
    (health : Nat → RouteHealth) (net : NetworkView) (now : Nat) (seed : UInt64) : RankState where
  v4 := net.v4
  v6 := net.v6
  inRelearnWindow := net.inRelearnWindow
  health idx :=
    let h := (health idx).tick now cfg (seed ^^^ idx.toUInt64)
    { usable := h.isUsable
      score := h.score math (((group.routes[idx]?).map Route.weight).getD 0)
      measured := h.isMeasured }

section Prices

variable (group : UpstreamGroup) (st : RankState) (cs : List Candidate)

def median : Option ℚ :=
  (measuredScores cs)[(measuredScores cs).length / 2]?

def repriced (c : Candidate) : Candidate :=
  match median cs with
  | none => c
  | some middle =>
    if c.measured then c else { c with score := middle + weightBias c.route.weight }

theorem reprice_eq_map : reprice cs = cs.map (repriced cs) := by
  unfold repriced
  cases hm : median cs with
  | none =>
    rw [List.map_id']
    unfold median at hm
    simp only [reprice, hm]
  | some middle =>
    unfold median at hm
    simp only [reprice, hm]

theorem repriced_fields (c : Candidate) :
    (repriced cs c).idx = c.idx ∧ (repriced cs c).route = c.route ∧
      (repriced cs c).bucket = c.bucket := by
  unfold repriced
  split
  · exact ⟨rfl, rfl, rfl⟩
  · split <;> exact ⟨rfl, rfl, rfl⟩

/-- The route at a position that ordinary ranking looks at: companions only serve retries. -/
def listedAt (i : Nat) : Option Route :=
  match group.routes[i]? with
  | some route => if route.streamCompanion then none else some route
  | none => none

def price (i : Nat) : ℚ :=
  match listedAt group i with
  | some route => (repriced (candidates group st false) (candidate st route i)).score
  | none => 0

variable {group st}

theorem listedAt_eq_some {i : Nat} {route : Route} :
    listedAt group i = some route ↔
      group.routes[i]? = some route ∧ route.streamCompanion = false := by
  unfold listedAt
  cases group.routes[i]? with
  | none => simp
  | some r =>
    simp only [Option.ite_none_left_eq_some, Option.some.injEq, Bool.not_eq_true]
    constructor
    · rintro ⟨hc, rfl⟩
      exact ⟨rfl, hc⟩
    · rintro ⟨rfl, hc⟩
      exact ⟨hc, rfl⟩

theorem mem_candidates {c : Candidate} :
    c ∈ candidates group st false ↔
      ∃ route, listedAt group c.idx = some route ∧ c = candidate st route c.idx := by
  unfold candidates
  simp only [List.mem_filterMap, Bool.not_false, Bool.and_true, List.mem_zipIdx_iff_getElem?]
  constructor
  · rintro ⟨⟨route, i⟩, hr, hc⟩
    cases hs : route.streamCompanion
    · rw [hs] at hc
      cases hc
      exact ⟨route, listedAt_eq_some.mpr ⟨hr, hs⟩, rfl⟩
    · rw [hs] at hc
      cases hc
  · rintro ⟨route, hl, hc⟩
    obtain ⟨hr, hs⟩ := listedAt_eq_some.mp hl
    exact ⟨(route, c.idx), hr, by rw [hs, hc]; rfl⟩

theorem candidates_nodup : ((candidates group st false).map Candidate.idx).Nodup := by
  have hsub : ((candidates group st false).map Candidate.idx).Sublist
      (group.routes.zipIdx.map Prod.snd) := by
    unfold candidates
    rw [List.map_filterMap]
    generalize group.routes.zipIdx = entries
    induction entries with
    | nil => exact List.Sublist.refl _
    | cons p entries ih =>
      rw [List.filterMap_cons, List.map_cons]
      cases p.1.streamCompanion
      · exact ih.cons_cons _
      · exact ih.cons _
  exact (List.nodup_zipIdx_map_snd group.routes).sublist hsub

end Prices

section Buckets

variable (group : UpstreamGroup) (st : RankState)

def Listed (i : Nat) : Prop := ∃ route, listedAt group i = some route

def FamilyUsable (i : Nat) : Prop := ∃ route, listedAt group i = some route ∧ familyOk st route

def Ready (i : Nat) : Prop := FamilyUsable group st i ∧ (st.health i).usable = true

/-- Which positions are offered: the ready ones, else those of a usable family, else all. -/
structure Offers (positions : List Nat) : Prop where
  ready : (∃ i, Ready group st i) → ∀ i, i ∈ positions ↔ Ready group st i
  degraded : (¬ ∃ i, Ready group st i) → (∃ i, FamilyUsable group st i) →
    ∀ i, i ∈ positions ↔ FamilyUsable group st i
  excluded : (¬ ∃ i, FamilyUsable group st i) → ∀ i, i ∈ positions ↔ Listed group i
  empty : positions = [] ↔ ¬ ∃ i, Listed group i

/-- `i` comes before `j`: a lower price, or the same one and earlier in the configuration. -/
def Cheaper (i j : Nat) : Prop :=
  price group st i < price group st j ∨ price group st i = price group st j ∧ i < j

def orderOf : List Nat :=
  ((offered (reprice (candidates group st false))).insertionSort scoreLe).map Candidate.idx

variable {group st} {i : Nat} {cs : List Candidate}

theorem candidate_bucket {route : Route} (hl : listedAt group i = some route) :
    ((candidate st route i).bucket = .ready ↔ Ready group st i) ∧
    ((candidate st route i).bucket = .degraded ↔
      FamilyUsable group st i ∧ ¬ Ready group st i) ∧
    ((candidate st route i).bucket = .familyExcluded ↔ ¬ FamilyUsable group st i) := by
  have hfamily : FamilyUsable group st i ↔ familyOk st route = true := by
    constructor
    · rintro ⟨route', hl', hf⟩
      rw [hl] at hl'
      cases hl'
      exact hf
    · intro hf
      exact ⟨route, hl, hf⟩
  simp only [Ready, hfamily, candidate]
  cases familyOk st route <;> cases (st.health i).usable <;> simp

theorem mem_inBucket {b : Bucket} :
    i ∈ (inBucket (reprice (candidates group st false)) b).map Candidate.idx ↔
      ∃ route, listedAt group i = some route ∧ (candidate st route i).bucket = b := by
  rw [reprice_eq_map, inBucket]
  constructor
  · intro h
    obtain ⟨c, hc, rfl⟩ := List.mem_map.mp h
    obtain ⟨hmem, hb⟩ := List.mem_filter.mp hc
    obtain ⟨c₀, hc₀, rfl⟩ := List.mem_map.mp hmem
    obtain ⟨hidx, -, hbucket⟩ := repriced_fields (candidates group st false) c₀
    obtain ⟨route, hl, heq⟩ := mem_candidates.mp hc₀
    rw [hidx]
    refine ⟨route, hl, ?_⟩
    rw [← heq, ← hbucket]
    exact of_decide_eq_true hb
  · rintro ⟨route, hl, hb⟩
    obtain ⟨hidx, -, hbucket⟩ := repriced_fields (candidates group st false) (candidate st route i)
    refine List.mem_map.mpr ⟨repriced (candidates group st false) (candidate st route i),
      List.mem_filter.mpr ⟨List.mem_map.mpr ⟨_, mem_candidates.mpr ⟨route, hl, rfl⟩, rfl⟩, ?_⟩, hidx⟩
    exact decide_eq_true (hbucket.trans hb)

theorem mem_ready :
    i ∈ (inBucket (reprice (candidates group st false)) .ready).map Candidate.idx ↔
      Ready group st i := by
  rw [mem_inBucket]
  constructor
  · rintro ⟨route, hl, hb⟩
    exact (candidate_bucket hl).1.mp hb
  · intro h
    obtain ⟨route, hl, _⟩ := h.1
    exact ⟨route, hl, (candidate_bucket hl).1.mpr h⟩

theorem mem_degraded :
    i ∈ (inBucket (reprice (candidates group st false)) .degraded).map Candidate.idx ↔
      FamilyUsable group st i ∧ ¬ Ready group st i := by
  rw [mem_inBucket]
  constructor
  · rintro ⟨route, hl, hb⟩
    exact (candidate_bucket hl).2.1.mp hb
  · intro h
    obtain ⟨route, hl, _⟩ := h.1
    exact ⟨route, hl, (candidate_bucket hl).2.1.mpr h⟩

theorem mem_familyExcluded :
    i ∈ (inBucket (reprice (candidates group st false)) .familyExcluded).map Candidate.idx ↔
      Listed group i ∧ ¬ FamilyUsable group st i := by
  rw [mem_inBucket]
  constructor
  · rintro ⟨route, hl, hb⟩
    exact ⟨⟨route, hl⟩, (candidate_bucket hl).2.2.mp hb⟩
  · rintro ⟨⟨route, hl⟩, h⟩
    exact ⟨route, hl, (candidate_bucket hl).2.2.mpr h⟩

/-- The offer is one bucket: the first of the three that holds a route. -/
theorem offered_cases (cs : List Candidate) :
    (offered cs = inBucket cs .ready ∧ inBucket cs .ready ≠ []) ∨
    (offered cs = inBucket cs .degraded ∧ inBucket cs .ready = [] ∧
      inBucket cs .degraded ≠ []) ∨
    (offered cs = inBucket cs .familyExcluded ∧ inBucket cs .ready = [] ∧
      inBucket cs .degraded = []) := by
  unfold offered
  cases hr : inBucket cs .ready with
  | cons c rest => simp
  | nil =>
    cases hd : inBucket cs .degraded with
    | cons c rest | nil => simp

theorem mem_orderOf :
    i ∈ orderOf group st ↔
      i ∈ (offered (reprice (candidates group st false))).map Candidate.idx :=
  ((List.perm_insertionSort scoreLe _).map Candidate.idx).mem_iff

theorem FamilyUsable.listed (h : FamilyUsable group st i) : Listed group i := by
  obtain ⟨route, hl, -⟩ := h
  exact ⟨route, hl⟩

theorem exists_idx_of_ne_nil (h : cs ≠ []) : ∃ i, i ∈ cs.map Candidate.idx := by
  obtain ⟨c, hc⟩ := List.exists_mem_of_ne_nil cs h
  exact ⟨c.idx, List.mem_map_of_mem hc⟩

theorem eq_nil_of_no_idx (h : cs = []) (i : Nat) : i ∉ cs.map Candidate.idx := by
  subst h
  exact List.not_mem_nil

theorem offers_orderOf : Offers group st (orderOf group st) := by
  rcases offered_cases (reprice (candidates group st false)) with
    ⟨ho, hne⟩ | ⟨ho, hready, hne⟩ | ⟨ho, hready, hdegraded⟩
  · have hmem (i : Nat) : i ∈ orderOf group st ↔ Ready group st i := by
      rw [mem_orderOf, ho, mem_ready]
    obtain ⟨i, hi⟩ := exists_idx_of_ne_nil hne
    have hi := mem_ready.mp hi
    refine ⟨fun _ => hmem, fun h => absurd ⟨i, hi⟩ h, fun h => absurd ⟨i, hi.1⟩ h, ?_⟩
    constructor
    · intro hnil
      exact absurd ((hmem i).mpr hi) (hnil ▸ List.not_mem_nil)
    · intro h
      exact absurd ⟨i, hi.1.listed⟩ h
  · have hno : ¬ ∃ i, Ready group st i := by
      rintro ⟨i, hi⟩
      exact eq_nil_of_no_idx hready i (mem_ready.mpr hi)
    have hmem (i : Nat) : i ∈ orderOf group st ↔ FamilyUsable group st i := by
      rw [mem_orderOf, ho, mem_degraded]
      exact and_iff_left fun hi => hno ⟨i, hi⟩
    obtain ⟨i, hi⟩ := exists_idx_of_ne_nil hne
    have hi := (mem_degraded.mp hi).1
    refine ⟨fun h => absurd h hno, fun _ _ => hmem, fun h => absurd ⟨i, hi⟩ h, ?_⟩
    constructor
    · intro hnil
      exact absurd ((hmem i).mpr hi) (hnil ▸ List.not_mem_nil)
    · intro h
      exact absurd ⟨i, hi.listed⟩ h
  · have hno : ¬ ∃ i, FamilyUsable group st i := by
      rintro ⟨i, hi⟩
      by_cases hr : Ready group st i
      · exact eq_nil_of_no_idx hready i (mem_ready.mpr hr)
      · exact eq_nil_of_no_idx hdegraded i (mem_degraded.mpr ⟨hi, hr⟩)
    have hmem (i : Nat) : i ∈ orderOf group st ↔ Listed group i := by
      rw [mem_orderOf, ho, mem_familyExcluded]
      exact and_iff_left fun hi => hno ⟨i, hi⟩
    refine ⟨fun ⟨i, hi⟩ => absurd ⟨i, hi.1⟩ hno, fun _ h => absurd h hno, fun _ => hmem, ?_⟩
    rw [List.eq_nil_iff_forall_not_mem]
    simp only [hmem, not_exists]

end Buckets

section Order

theorem scoreLe_iff {a b : Candidate} :
    scoreLe a b ↔ toLex (a.score, a.idx) ≤ toLex (b.score, b.idx) := by
  rw [scoreLe, Prod.Lex.toLex_le_toLex]

instance : Std.Total scoreLe where
  total a b := by
    simp only [scoreLe_iff]
    exact le_total _ _

instance : IsTrans Candidate scoreLe where
  trans a b c := by
    simp only [scoreLe_iff]
    exact le_trans

variable {group : UpstreamGroup} {st : RankState}

theorem offered_sublist (cs : List Candidate) : (offered cs).Sublist cs := by
  rcases offered_cases cs with ⟨h, -⟩ | ⟨h, -, -⟩ | ⟨h, -, -⟩
  all_goals
    rw [h]
    exact List.filter_sublist

theorem reprice_idx (cs : List Candidate) :
    (reprice cs).map Candidate.idx = cs.map Candidate.idx := by
  rw [reprice_eq_map, List.map_map]
  apply List.map_congr_left
  intro c _
  exact (repriced_fields cs c).1

theorem orderOf_nodup : (orderOf group st).Nodup := by
  have hperm := (List.perm_insertionSort scoreLe
    (offered (reprice (candidates group st false)))).map Candidate.idx
  have hsub := (offered_sublist (reprice (candidates group st false))).map Candidate.idx
  rw [reprice_idx] at hsub
  exact hperm.nodup_iff.mpr (candidates_nodup.sublist hsub)

theorem price_of_mem {c : Candidate} (hc : c ∈ offered (reprice (candidates group st false))) :
    listedAt group c.idx = some c.route ∧ c.score = price group st c.idx := by
  have hmem := (offered_sublist _).subset hc
  rw [reprice_eq_map] at hmem
  obtain ⟨c₀, hc₀, rfl⟩ := List.mem_map.mp hmem
  obtain ⟨hidx, hroute, -⟩ := repriced_fields (candidates group st false) c₀
  obtain ⟨route, hl, heq⟩ := mem_candidates.mp hc₀
  have hr : c₀.route = route := by rw [heq]; rfl
  rw [hidx, hroute, hr]
  refine ⟨hl, ?_⟩
  unfold price
  rw [hl]
  simp only
  rw [← heq]

theorem orderOf_pairwise : (orderOf group st).Pairwise (Cheaper group st) := by
  unfold orderOf
  rw [List.pairwise_map]
  have hsorted := List.pairwise_insertionSort scoreLe
    (offered (reprice (candidates group st false)))
  have hnodup : (orderOf group st).Nodup := orderOf_nodup
  have hdistinct := List.pairwise_map.mp hnodup
  refine (hsorted.and hdistinct).imp_of_mem ?_
  intro a b ha hb ⟨hle, hne⟩
  have ha := (price_of_mem ((List.mem_insertionSort scoreLe).mp ha)).2
  have hb := (price_of_mem ((List.mem_insertionSort scoreLe).mp hb)).2
  unfold Cheaper
  rw [← ha, ← hb]
  rcases hle with hlt | ⟨heq, hi⟩
  · exact .inl hlt
  · exact .inr ⟨heq, lt_of_le_of_ne hi hne⟩

/-- The exploration: the first two positions change places at the group's rate. -/
def explored (group : UpstreamGroup) (st : RankState) (seed : UInt64) (positions : List Nat) :
    List Nat :=
  if 1 < positions.length ∧ 0 < exploreRate group st ∧ unitFromSeed seed < exploreRate group st then
    swapFirst positions
  else positions

theorem swapFirst_map {A B : Type} (f : A → B) (as : List A) :
    swapFirst (as.map f) = (swapFirst as).map f := by
  match as with
  | [] => rfl
  | [_] => rfl
  | _ :: _ :: _ => rfl

theorem orderOf_routes :
    (orderOf group st).map (listedAt group) =
      (((offered (reprice (candidates group st false))).insertionSort scoreLe).map
        Candidate.route).map some := by
  unfold orderOf
  rw [List.map_map, List.map_map]
  apply List.map_congr_left
  intro c hc
  exact (price_of_mem ((List.mem_insertionSort scoreLe).mp hc)).1

theorem rank_eq_explored (seed : UInt64) :
    (rank group st seed).map some =
      (explored group st seed (orderOf group st)).map (listedAt group) := by
  have hlength : (((offered (reprice (candidates group st false))).insertionSort scoreLe).map
      Candidate.route).length = (orderOf group st).length := by
    simp [orderOf]
  unfold rank rankInner explored
  simp only [hlength]
  split
  · rw [← swapFirst_map, ← swapFirst_map, orderOf_routes]
  · exact orderOf_routes.symm

/-- Ranking offers every ready route; with none, every route of a usable family; with none, all:
each position once, by price and then configuration order, up to the exploration swap. -/
theorem rank_never_an_outage (math : FloatMath) (group : UpstreamGroup) (cfg : CircuitConfig)
    (health : Nat → RouteHealth) (net : NetworkView) (now : Nat) (seed : UInt64) :
    let st := rankState math group cfg health net now seed
    (rank group st seed).map some =
      (explored group st seed (orderOf group st)).map (listedAt group) ∧
    (orderOf group st).Nodup ∧ Offers group st (orderOf group st) ∧
    (orderOf group st).Pairwise (Cheaper group st) ∧
    ∀ i, (st.health i).usable = !circuitExcludes (health i) now cfg (seed ^^^ i.toUInt64) := by
  intro st
  refine ⟨rank_eq_explored seed, orderOf_nodup, offers_orderOf, orderOf_pairwise, ?_⟩
  intro i
  exact isUsable_tick _ _ _ _

end Order

section Untried

theorem cheaper_asymm (group : UpstreamGroup) (st : RankState) (i j : Nat)
    (h : Cheaper group st i j) : ¬ Cheaper group st j i := by
  rintro (h' | ⟨heq', hlt'⟩)
  · rcases h with h | ⟨heq, -⟩
    · exact absurd h (lt_asymm h')
    · exact absurd heq (ne_of_gt h')
  · rcases h with h | ⟨-, hlt⟩
    · exact absurd heq' (ne_of_gt h)
    · exact Nat.lt_asymm hlt hlt'

theorem median_eq_none_iff {cs : List Candidate} :
    median cs = none ↔ ∀ c ∈ cs, c.measured = false := by
  have hlength : (measuredScores cs).length = (cs.filter Candidate.measured).length := by
    unfold measuredScores
    rw [List.length_insertionSort, List.length_map]
  unfold median
  rw [List.getElem?_eq_none_iff, hlength]
  constructor
  · intro hle c hc
    have hzero : (cs.filter Candidate.measured).length = 0 := by omega
    have hnil := List.filter_eq_nil_iff.mp (List.length_eq_zero_iff.mp hzero) c hc
    simpa using hnil
  · intro h
    have hnil : cs.filter Candidate.measured = [] := by
      apply List.filter_eq_nil_iff.mpr
      intro c hc
      simp [h c hc]
    simp [hnil]

variable {math : FloatMath} {group : UpstreamGroup} {cfg : CircuitConfig}
  {histories : Nat → List HealthEvent} {net : NetworkView} {now : Nat} {seed : UInt64}

/-- The state that `rank` reads when each route has its history behind it. -/
def rankedAfter (math : FloatMath) (group : UpstreamGroup) (cfg : CircuitConfig)
    (histories : Nat → List HealthEvent) (net : NetworkView) (now : Nat) (seed : UInt64) :
    RankState :=
  rankState math group cfg (fun i => healthAfter math (histories i)) net now seed

theorem candidate_measured (route : Route) (i : Nat) :
    (candidate (rankedAfter math group cfg histories net now seed) route i).measured =
      (histories i).any HealthEvent.isSuccess :=
  ((learnt_healthAfter math (histories i)).tick now cfg (seed ^^^ i.toUInt64)).measured

variable {route : Route} {i : Nat}

theorem rankedAfter_score (hl : listedAt group i = some route) :
    ((rankedAfter math group cfg histories net now seed).health i).score =
      ((healthAfter math (histories i)).tick now cfg (seed ^^^ i.toUInt64)).score math
        route.weight := by
  have hr := (listedAt_eq_some.mp hl).1
  simp only [rankedAfter, rankState, hr, Option.map_some, Option.getD_some]

theorem price_of_unmeasured (hnone : ∀ k route, listedAt group k = some route →
      (histories k).any HealthEvent.isSuccess = false) (hl : listedAt group i = some route) :
    price group (rankedAfter math group cfg histories net now seed) i =
      ((healthAfter math (histories i)).tick now cfg (seed ^^^ i.toUInt64)).score math
        route.weight + proxyPenalty route := by
  have hmedian : median (candidates group (rankedAfter math group cfg histories net now seed)
      false) = none := by
    apply median_eq_none_iff.mpr
    intro c hc
    obtain ⟨route', hl', heq⟩ := mem_candidates.mp hc
    rw [heq, candidate_measured]
    exact hnone c.idx route' hl'
  unfold price
  rw [hl]
  simp only [repriced, hmedian]
  rw [← rankedAfter_score hl]
  rfl

theorem price_of_measured {k : Nat} {measured : Route} (hk : listedAt group k = some measured)
    (hsome : (histories k).any HealthEvent.isSuccess = true) :
    ∃ middle : ℚ, ∀ i route, listedAt group i = some route →
      (histories i).any HealthEvent.isSuccess = false →
      price group (rankedAfter math group cfg histories net now seed) i =
        middle + weightBias route.weight := by
  cases hm : median (candidates group (rankedAfter math group cfg histories net now seed)
      false) with
  | none =>
    have hfalse := median_eq_none_iff.mp hm
      (candidate (rankedAfter math group cfg histories net now seed) measured k)
      (mem_candidates.mpr ⟨measured, hk, rfl⟩)
    rw [candidate_measured, hsome] at hfalse
    cases hfalse
  | some middle =>
    refine ⟨middle, ?_⟩
    intro i route hl hunmeasured
    have hu : (candidate (rankedAfter math group cfg histories net now seed) route i).measured =
        false := by
      rw [candidate_measured]
      exact hunmeasured
    unfold price
    rw [hl]
    simp only [repriced, hm, hu]
    rfl

theorem ready_mem {st : RankState} (h : Ready group st i) : i ∈ orderOf group st :=
  (offers_orderOf.ready ⟨i, h⟩ i).mpr h

theorem NeverTried.no_success {history : List HealthEvent} (h : NeverTried history) :
    history.any HealthEvent.isSuccess = false := by
  apply List.any_eq_false.mpr
  intro e he
  obtain ⟨now, cfg, seed, rfl⟩ := h e he
  simp [HealthEvent.isSuccess]

/-- Of two ready routes of one weight and kind of egress, one untried and one that has only failed,
the untried one is ahead just when nothing ranked has been measured or it is configured first. -/
theorem untried_ahead_of_failing_iff {i j : Nat} {untried failing : Route}
    (hi : listedAt group i = some untried) (hj : listedAt group j = some failing)
    (hri : Ready group (rankedAfter math group cfg histories net now seed) i)
    (hrj : Ready group (rankedAfter math group cfg histories net now seed) j)
    (hweight : untried.weight = failing.weight)
    (hegress : untried.egress = .direct ↔ failing.egress = .direct)
    (hnever : NeverTried (histories i))
    (hmeasured : (histories j).any HealthEvent.isSuccess = false)
    (hfailed : failedSinceSuccess (histories j) = true) :
    [i, j].Sublist (orderOf group (rankedAfter math group cfg histories net now seed)) ↔
      (∀ k route, listedAt group k = some route →
        (histories k).any HealthEvent.isSuccess = false) ∨ i < j := by
  have hne : i ≠ j := by
    rintro rfl
    have hnew := (learnt_healthAfter math (histories i)).failing.mpr hfailed
    rw [healthAfter_of_neverTried hnever] at hnew
    exact absurd hnew (Nat.lt_irrefl 0)
  rw [Lib.pair_sublist_iff (cheaper_asymm group _) orderOf_pairwise (ready_mem hri)
    (ready_mem hrj) hne]
  by_cases hall : ∀ k route, listedAt group k = some route →
      (histories k).any HealthEvent.isSuccess = false
  · refine iff_of_true (.inl ?_) (.inl hall)
    rw [price_of_unmeasured hall hi, price_of_unmeasured hall hj, hweight]
    have hpenalty : proxyPenalty untried = proxyPenalty failing := by
      unfold proxyPenalty
      cases hu : untried.egress with
      | direct => rw [hegress.mp hu]
      | proxy p =>
        cases hf : failing.egress with
        | direct => rw [hegress.mpr hf] at hu; cases hu
        | proxy q => rfl
    have hlearnt := (learnt_healthAfter math (histories j)).tick now cfg
      (seed ^^^ j.toUInt64)
    rw [hmeasured, hfailed] at hlearnt
    rw [hpenalty, healthAfter_of_neverTried hnever, tick_of_not_opened (by decide)]
    exact add_lt_add_left (score_new_lt hlearnt failing.weight) _
  · push Not at hall
    obtain ⟨k, measured, hk, hsome⟩ := hall
    rw [ne_eq, Bool.not_eq_false] at hsome
    obtain ⟨middle, hprice⟩ := @price_of_measured math group cfg histories net now seed
      k measured hk hsome
    have heq : price group (rankedAfter math group cfg histories net now seed) i =
        price group (rankedAfter math group cfg histories net now seed) j := by
      rw [hprice i untried hi hnever.no_success, hprice j failing hj hmeasured, hweight]
    constructor
    · rintro (hlt | ⟨-, hlt⟩)
      · exact absurd heq (ne_of_lt hlt)
      · exact .inr hlt
    · rintro (hnone | hlt)
      · exact absurd (hnone k measured hk) (by rw [hsome]; decide)
      · exact .inr ⟨heq, hlt⟩

/-! Three routes: one has timed out once, one has never been tried, one has answered. -/

def breaker : CircuitConfig where
  failureThreshold := 5
  openDuration := 20 * 10 ^ 9
  halfOpenSuccesses := 2

def timedOutOnce : List HealthEvent := [.record .timedOut 0 breaker]

def answeredOnce : List HealthEvent := [.record ⟨.success, some (20 * 10 ^ 6), nofun⟩ 0 breaker]

def mixedHistories (failing untried : Nat) (i : Nat) : List HealthEvent :=
  if i = failing then timedOutOnce else if i = untried then [] else answeredOnce

def mixedState (failing untried : Nat) : RankState :=
  rankedAfter .rounded (plainGroup [quad9, quad1, gateway]) breaker
    (mixedHistories failing untried) { v4 := .usable, v6 := .usable, inRelearnWindow := false } 0 0

theorem untried_ahead_of_failing_first :
    [0, 1].Sublist (orderOf (plainGroup [quad9, quad1, gateway]) (mixedState 1 0)) := by
  have huntried : listedAt (plainGroup [quad9, quad1, gateway]) 0 = some quad9 := rfl
  have hfailing : listedAt (plainGroup [quad9, quad1, gateway]) 1 = some quad1 := rfl
  refine (untried_ahead_of_failing_iff huntried hfailing ⟨⟨quad9, huntried, rfl⟩, rfl⟩
    ⟨⟨quad1, hfailing, rfl⟩, rfl⟩ rfl Iff.rfl ?_ rfl rfl).mpr (.inr Nat.zero_lt_one)
  exact List.forall_mem_nil _

/-- The route that timed out stays ahead of the untried one: both are repriced to the median. -/
theorem failing_ahead_of_untried :
    failedSinceSuccess (mixedHistories 0 1 0) = true ∧ mixedHistories 0 1 1 = [] ∧
    orderOf (plainGroup [quad9, quad1, gateway]) (mixedState 0 1) = [2, 0, 1] := by
  refine ⟨rfl, rfl, ?_⟩
  decide +kernel

end Untried

end EgressDns
