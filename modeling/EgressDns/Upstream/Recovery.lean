import EgressDns.Lib.Runs
import EgressDns.Upstream.Breaker
import EgressDns.Upstream.Pricing

/-!
# Half-open reservations

An attempt on a half-open route holds a `HalfOpenSlot` from its reservation until it is dropped,
whether it completes or is cancelled. Ranking reads one route after another under each route's own
lock, and the attempts of a resolution reserve later, so both are steps of their own.
-/

namespace EgressDns

open Lib

section OneRoute

/-- A route and its attempts in flight. An attempt that took a half-open slot keeps the number of
the period it did so in; `reserved` counts the reservations made so far. -/
structure ProbedRoute where
  health : RouteHealth
  period : Nat
  slots : List (Nat × Option Nat)
  reserved : Nat

def ProbedRoute.fresh : ProbedRoute where
  health := .new
  period := 0
  slots := []
  reserved := 0

inductive RouteLabel where
  | tick (now : Nat) (seed : UInt64)
  | reserve (attempt : Nat)
  | drop (attempt : Nat)
  | record (recorded : Recorded) (now : Nat)
  | connect (cost : Nat)

namespace ProbedRoute

variable (r : ProbedRoute)

def recovers (now : Nat) (cfg : CircuitConfig) (seed : UInt64) : Bool :=
  decide (r.health.circuit = .opened ∧ (r.health.tick now cfg seed).circuit = .halfOpen)

def tick (now : Nat) (cfg : CircuitConfig) (seed : UInt64) : ProbedRoute :=
  { r with
    health := r.health.tick now cfg seed
    period := if r.recovers now cfg seed then r.period + 1 else r.period }

def reserve (attempt : Nat) : ProbedRoute :=
  { r with
    health := r.health.beginAttempt
    slots := (attempt, if r.health.circuit = .halfOpen then some r.period else none) :: r.slots
    reserved := r.reserved + 1 }

/-- The drop of a `HalfOpenSlot`, which releases what was taken. -/
def drop (slot : Nat × Option Nat) : ProbedRoute :=
  { r with
    health := if slot.2.isSome then r.health.releaseAttempt else r.health
    slots := r.slots.erase slot }

def live : Nat := r.slots.countP fun slot => slot.2.isSome

def step (math : FloatMath) (cfg : CircuitConfig) (r : ProbedRoute) :
    RouteLabel → Option ProbedRoute
  | .tick now seed => some (r.tick now cfg seed)
  | .reserve attempt => if r.slots.any (·.1 == attempt) then none else some (r.reserve attempt)
  | .drop attempt => (r.slots.find? (·.1 == attempt)).map r.drop
  | .record recorded now =>
    some { r with health := r.health.record math recorded.outcome recorded.latency now cfg }
  | .connect cost => some { r with health := r.health.recordConnect cost }

end ProbedRoute

variable {math : FloatMath} {cfg : CircuitConfig} {r r' : ProbedRoute} (h : RouteHealth)

theorem tick_inflight (now : Nat) (cfg : CircuitConfig) (seed : UInt64) :
    (h.tick now cfg seed).halfOpenInflight ≤ h.halfOpenInflight := by
  unfold RouteHealth.tick
  split
  · exact Nat.le_refl _
  · split
    · exact Nat.le_refl _
    · split
      · exact Nat.zero_le _
      · exact Nat.le_refl _

theorem decay_inflight (now : Nat) : (h.decay math now).halfOpenInflight = h.halfOpenInflight := by
  unfold RouteHealth.decay
  split
  · rfl
  · split <;> rfl

theorem tally_inflight (outcome : AttemptOutcome) (latency : Option Nat) :
    (h.tally outcome latency).halfOpenInflight = h.halfOpenInflight := by
  cases outcome with
  | success => cases latency <;> rfl
  | timeout | serverFailure | malformed | transportError => rfl

theorem updateCircuit_inflight (outcome : AttemptOutcome) (now : Nat) (cfg : CircuitConfig) :
    (h.updateCircuit outcome now cfg).halfOpenInflight = h.halfOpenInflight ∨
      (h.updateCircuit outcome now cfg).halfOpenInflight = 0 ∧
        (h.updateCircuit outcome now cfg).circuit = .opened := by
  unfold RouteHealth.updateCircuit
  split
  · split_ifs <;> simp
  · split_ifs <;> simp
  · exact .inl rfl
  · split_ifs
    · exact .inl rfl
    · dsimp only
      split <;> exact .inl rfl

theorem record_inflight (recorded : Recorded) (now : Nat) :
    (h.record math recorded.outcome recorded.latency now cfg).halfOpenInflight =
        h.halfOpenInflight ∨
      (h.record math recorded.outcome recorded.latency now cfg).halfOpenInflight = 0 ∧
        (h.record math recorded.outcome recorded.latency now cfg).circuit = .opened := by
  have hsame : { (h.decay math now).tally recorded.outcome recorded.latency with
      lastUpdate := some now }.halfOpenInflight = h.halfOpenInflight :=
    (tally_inflight _ _ _).trans (decay_inflight h now)
  rw [← hsame]
  exact updateCircuit_inflight _ _ _ _

theorem live_drop {slot : Nat × Option Nat} (h : slot ∈ r.slots) :
    (r.drop slot).live = if slot.2.isSome then r.live - 1 else r.live := by
  have hcount := List.countP_erase (fun s : Nat × Option Nat => s.2.isSome) r.slots slot
  unfold ProbedRoute.live ProbedRoute.drop
  rw [hcount]
  cases slot.2.isSome <;> simp [h]

theorem inflight_le_live_step {l : RouteLabel} (hle : r.health.halfOpenInflight ≤ r.live)
    (h : r.step math cfg l = some r') : r'.health.halfOpenInflight ≤ r'.live := by
  cases l with
  | tick now seed =>
    cases h
    exact (tick_inflight _ _ _ _).trans hle
  | reserve attempt =>
    obtain ⟨-, heq⟩ := Option.ite_none_left_eq_some.mp h
    cases heq
    unfold ProbedRoute.reserve ProbedRoute.live RouteHealth.beginAttempt
    by_cases hc : r.health.circuit = .halfOpen
    · have hsat : satSucc r.health.halfOpenInflight ≤ r.health.halfOpenInflight + 1 :=
        Nat.min_le_left _ _
      have hlive : r.slots.countP (fun slot => slot.2.isSome) = r.live := rfl
      simp only [hc, if_true, Option.isSome_some, List.countP_cons_of_pos, hlive]
      omega
    · simpa [hc, ProbedRoute.live] using hle
  | drop attempt =>
    obtain ⟨slot, hfind, rfl⟩ := Option.map_eq_some_iff.mp h
    rw [live_drop (List.mem_of_find?_eq_some hfind)]
    unfold ProbedRoute.drop
    split
    · exact Nat.sub_le_sub_right hle 1
    · exact hle
  | record recorded now =>
    cases h
    rcases record_inflight r.health recorded now with hsame | ⟨hzero, -⟩
    · exact hsame.le.trans hle
    · exact hzero.le.trans (Nat.zero_le _)
  | connect cost =>
    cases h
    exact hle

/-- Reservations never leak: the counter never exceeds the live ones, so that without one a
half-open route is usable. -/
theorem reservations_never_leak (math : FloatMath) (cfg : CircuitConfig) (labels : List RouteLabel)
    (r : ProbedRoute) (h : run (ProbedRoute.step math cfg) .fresh labels = some r) :
    r.health.halfOpenInflight ≤ r.live ∧
    (r.live = 0 → r.health.halfOpenInflight = 0 ∧
      (r.health.circuit = .halfOpen → r.health.isUsable = true)) := by
  have hstart : ProbedRoute.fresh.health.halfOpenInflight ≤ ProbedRoute.fresh.live := Nat.le_refl 0
  have hle : r.health.halfOpenInflight ≤ r.live :=
    @invariant_of_free_run _ _ _ _ (fun r => r.health.halfOpenInflight ≤ r.live)
      (fun hle hs => inflight_le_live_step hle hs) _ _ hstart h
  refine ⟨hle, ?_⟩
  intro hnone
  have hzero : r.health.halfOpenInflight = 0 := by omega
  refine ⟨hzero, ?_⟩
  intro hc
  simp [RouteHealth.isUsable, hc, hzero]

def oneStrike : CircuitConfig where
  failureThreshold := 1
  openDuration := 10 ^ 9
  halfOpenSuccesses := 1

def cancelledProbe : List RouteLabel :=
  [.record .timedOut 0, .tick (2 * 10 ^ 9) 0, .reserve 0,
    .record .timedOut (2 * 10 ^ 9), .tick (4 * 10 ^ 9) 0, .drop 0]

theorem reservations_never_leak_cancelled :
    ∃ r, run (ProbedRoute.step .rounded oneStrike) .fresh cancelledProbe = some r ∧
      r.health.circuit = .halfOpen ∧ r.live = 0 ∧ r.health.isUsable = true := by
  refine exists_imp_of_any (P := fun r => r.health.circuit = .halfOpen ∧ r.live = 0)
    (by decide +kernel) fun r hr h => ⟨h.1, h.2, ?_⟩
  exact ((reservations_never_leak .rounded oneStrike cancelledProbe r hr).2 h.2).2 h.1

end OneRoute

/-- What a ranking read of a route, and how many reservations the route had had by then. -/
structure RouteReading where
  health : HealthReading
  reserved : Nat

/-- A resolution: the routes it has read so far, and the positions it may attempt once it has
ranked them. -/
structure Resolution where
  companions : Bool
  net : NetworkView
  now : Nat
  seed : UInt64
  readings : List RouteReading
  positions : List Nat

def Resolution.rankState (q : Resolution) : RankState where
  v4 := q.net.v4
  v6 := q.net.v6
  inRelearnWindow := q.net.inRelearnWindow
  health i :=
    match q.readings[i]? with
    | some reading => reading.health
    | none => ⟨false, 0, false⟩

def Resolution.note (q : Resolution) (health : HealthReading) (reserved : Nat) : Resolution :=
  { q with readings := q.readings ++ [⟨health, reserved⟩] }

structure Recovering where
  routes : Nat → ProbedRoute
  resolutions : Nat → Option Resolution

inductive RecoveryLabel where
  | begin (id : Nat) (companions : Bool) (net : NetworkView) (now : Nat) (seed : UInt64)
  | read (id : Nat)
  | rank (id : Nat)
  | reserve (id i attempt : Nat)
  | drop (i attempt : Nat)
  | record (i : Nat) (recorded : Recorded) (now : Nat)
  | connect (i cost : Nat)

namespace Recovering

def fresh : Recovering where
  routes _ := .fresh
  resolutions _ := none

def setRoute (p : Recovering) (i : Nat) (r : ProbedRoute) : Recovering :=
  { p with routes := Function.update p.routes i r }

def setResolution (p : Recovering) (id : Nat) (q : Resolution) : Recovering :=
  { p with resolutions := Function.update p.resolutions id (some q) }

variable (math : FloatMath) (group : UpstreamGroup) (cfg : CircuitConfig)

/-- The route a resolution reads next, as its tick leaves it. -/
def ticked (p : Recovering) (q : Resolution) : ProbedRoute :=
  (p.routes q.readings.length).tick q.now cfg (q.seed ^^^ q.readings.length.toUInt64)

/-- One turn of the loop of `rank_inner`: companions that do not serve are passed by. -/
def read (p : Recovering) (id : Nat) (q : Resolution) : Recovering :=
  match listedAt (group.pool q.companions) q.readings.length with
  | none => p.setResolution id (q.note ⟨false, 0, false⟩ (p.routes q.readings.length).reserved)
  | some route =>
    let r := p.ticked cfg q
    (p.setRoute q.readings.length r).setResolution id
      (q.note ⟨r.health.isUsable, r.health.score math route.weight, r.health.isMeasured⟩
        r.reserved)

def ranked (q : Resolution) : Resolution :=
  { q with
    positions :=
      explored group q.rankState q.seed (orderOf (group.pool q.companions) q.rankState) }

def step (p : Recovering) : RecoveryLabel → Option Recovering
  | .begin id companions net now seed =>
    some (p.setResolution id ⟨companions, net, now, seed, [], []⟩)
  | .read id =>
    match p.resolutions id with
    | none => none
    | some q =>
      if q.readings.length < group.routes.length then some (p.read math group cfg id q) else none
  | .rank id =>
    match p.resolutions id with
    | none => none
    | some q =>
      if q.readings.length = group.routes.length then some (p.setResolution id (ranked group q))
      else none
  | .reserve id i attempt =>
    match p.resolutions id with
    | none => none
    | some q =>
      if i ∈ q.positions then
        ((p.routes i).step math cfg (.reserve attempt)).map (p.setRoute i)
      else none
  | .drop i attempt => ((p.routes i).step math cfg (.drop attempt)).map (p.setRoute i)
  | .record i recorded now =>
    ((p.routes i).step math cfg (.record recorded now)).map (p.setRoute i)
  | .connect i cost => ((p.routes i).step math cfg (.connect cost)).map (p.setRoute i)

end Recovering

section OneProbe

variable {math : FloatMath} {cfg : CircuitConfig} {r : ProbedRoute}

/-- What a half-open route keeps while its probes take turns: the counter is exact, and the slots
in flight are of this period. -/
structure Exact (r : ProbedRoute) : Prop where
  current : ∀ slot ∈ r.slots, ∀ k, slot.2 = some k → k = r.period
  counted : r.health.halfOpenInflight = r.live
  single : r.live ≤ 1

def OneProbe (r : ProbedRoute) : Prop := r.health.circuit = .halfOpen → Exact r

def Idle (r : ProbedRoute) : Prop := r.health.circuit = .halfOpen → r.live = 0

/-- A reading that showed the route usable is true of it until the next reservation. -/
def Fresh (reading : RouteReading) (r : ProbedRoute) : Prop :=
  reading.reserved ≤ r.reserved ∧
    (reading.health.usable = true → reading.reserved = r.reserved → Idle r)

/-- What a step of a route has to respect. -/
def KeepsTurn (r r' : ProbedRoute) : Prop :=
  OneProbe r' ∧ ∀ reading, Fresh reading r → Fresh reading r'

theorem KeepsTurn.of_same {r' : ProbedRoute} (hprobe : OneProbe r')
    (hidle : Idle r → Idle r') (hreserved : r'.reserved = r.reserved) : KeepsTurn r r' := by
  refine ⟨hprobe, ?_⟩
  intro reading hfresh
  refine ⟨hfresh.1.trans hreserved.ge, ?_⟩
  intro husable heq
  exact hidle (hfresh.2 husable (heq.trans hreserved))

variable {slot : Nat × Option Nat} {h : RouteHealth} {now : Nat}

theorem not_taken_of_live_eq_zero (h : r.live = 0) (hs : slot ∈ r.slots) {k : Nat} :
    slot.2 ≠ some k := by
  intro hk
  have hnone := List.countP_eq_zero.mp h slot hs
  simp [hk] at hnone

theorem tick_inflight_of_recovers {seed : UInt64} (hopened : h.circuit = .opened)
    (hc : (h.tick now cfg seed).circuit = .halfOpen) :
    (h.tick now cfg seed).halfOpenInflight = 0 := by
  unfold RouteHealth.tick at hc ⊢
  rw [if_neg (not_not_intro hopened)] at hc ⊢
  cases hchanged : h.circuitChangedAt with
  | none => simp [hchanged, hopened] at hc
  | some changed =>
    simp only [hchanged] at hc ⊢
    split
    · rfl
    · rename_i hearly
      simp [hearly, hopened] at hc

theorem keeps_tick (h : OneProbe r) (now : Nat) (seed : UInt64)
    (hturn : r.recovers now cfg seed = true → r.live = 0) : KeepsTurn r (r.tick now cfg seed) := by
  have hreserved : (r.tick now cfg seed).reserved = r.reserved := rfl
  by_cases hrec : r.recovers now cfg seed = true
  · -- The counter starts at zero, which is exact because nothing is in flight.
    have hlive := hturn hrec
    obtain ⟨hopened, hc⟩ := of_decide_eq_true hrec
    refine KeepsTurn.of_same (fun _ => ⟨?_, ?_, ?_⟩) (fun _ _ => hlive) hreserved
    · intro slot hs k hk
      exact absurd hk (not_taken_of_live_eq_zero hlive hs)
    · exact (tick_inflight_of_recovers hopened hc).trans hlive.symm
    · exact hlive.le.trans (Nat.zero_le 1)
  · by_cases hopened : r.health.circuit = .opened
    · have hnot : (r.tick now cfg seed).health.circuit ≠ .halfOpen := by
        intro hc
        exact hrec (decide_eq_true ⟨hopened, hc⟩)
      exact KeepsTurn.of_same (fun hc => absurd hc hnot) (fun _ hc => absurd hc hnot) hreserved
    · have hsame : r.tick now cfg seed = r := by
        unfold ProbedRoute.tick
        rw [tick_of_not_opened hopened, if_neg hrec]
      rw [hsame]
      exact KeepsTurn.of_same h id rfl

theorem live_reserve (hc : r.health.circuit = .halfOpen) (attempt : Nat) :
    (r.reserve attempt).live = r.live + 1 := by
  unfold ProbedRoute.live ProbedRoute.reserve
  simp [hc]

theorem reserve_circuit (attempt : Nat) :
    (r.reserve attempt).health.circuit = r.health.circuit := by
  unfold ProbedRoute.reserve RouteHealth.beginAttempt
  split <;> rfl

theorem keeps_reserve (h : OneProbe r) (hidle : Idle r) (attempt : Nat) :
    KeepsTurn r (r.reserve attempt) := by
  constructor
  · intro hc
    rw [reserve_circuit] at hc
    have hnone := hidle hc
    have hlive : (r.reserve attempt).live = 1 := by
      rw [live_reserve hc, hnone]
    have hzero : r.health.halfOpenInflight = 0 := (h hc).counted.trans hnone
    refine ⟨?_, ?_, hlive.le⟩
    · intro slot hs k hk
      rcases List.mem_cons.mp hs with rfl | hold
      · simp only [hc, if_true, Option.some.injEq] at hk
        exact hk.symm
      · exact (h hc).current slot hold k hk
    · rw [hlive]
      simp [ProbedRoute.reserve, RouteHealth.beginAttempt, hc, hzero, satSucc]
  · -- A reservation makes every reading out of date.
    intro reading hfresh
    refine ⟨hfresh.1.trans (Nat.le_succ _), ?_⟩
    intro _ heq
    have hlt : reading.reserved < (r.reserve attempt).reserved := Nat.lt_succ_of_le hfresh.1
    exact absurd heq hlt.ne

theorem drop_circuit (slot : Nat × Option Nat) :
    (r.drop slot).health.circuit = r.health.circuit := by
  unfold ProbedRoute.drop RouteHealth.releaseAttempt
  split <;> rfl

theorem keeps_drop (h : OneProbe r) (hs : slot ∈ r.slots) : KeepsTurn r (r.drop slot) := by
  have hle : (r.drop slot).live ≤ r.live := by
    rw [live_drop hs]
    split <;> omega
  refine KeepsTurn.of_same ?_ ?_ rfl
  · intro hc
    rw [drop_circuit] at hc
    obtain ⟨hcurrent, hcounted, hsingle⟩ := h hc
    refine ⟨?_, ?_, hle.trans hsingle⟩
    · intro other hother k hk
      exact hcurrent other (List.mem_of_mem_erase hother) k hk
    · rw [live_drop hs, ← hcounted]
      unfold ProbedRoute.drop RouteHealth.releaseAttempt
      split <;> rfl
  · intro hidle hc
    rw [drop_circuit] at hc
    have hzero := hidle hc
    omega

theorem Breaker.halfOpen_of_succeed {b : Breaker} (h : (b.succeed now cfg).circuit = .halfOpen) :
    b.circuit = .halfOpen := by
  unfold Breaker.succeed at h
  split at h
  · cases h
  · cases h
  · exact h
  · assumption

theorem Breaker.not_halfOpen_of_fail (b : Breaker) (now : Nat) :
    (b.fail now cfg).circuit ≠ .halfOpen := by
  unfold Breaker.fail
  split
  · split <;> nofun
  · split <;> nofun
  · simp [*]
  · nofun

theorem halfOpen_of_record {recorded : Recorded}
    (hc : (h.record math recorded.outcome recorded.latency now cfg).circuit = .halfOpen) :
    h.circuit = .halfOpen ∧
      (h.record math recorded.outcome recorded.latency now cfg).halfOpenInflight =
        h.halfOpenInflight := by
  have hmove := congrArg Breaker.circuit (apply_breaker math h (.record recorded now cfg))
  have hbefore : h.circuit = .halfOpen := by
    have hafter : (if recorded.outcome = .success then h.breaker.succeed now cfg
        else h.breaker.fail now cfg).circuit = .halfOpen := hmove.symm.trans hc
    split at hafter
    · exact Breaker.halfOpen_of_succeed hafter
    · exact absurd hafter (Breaker.not_halfOpen_of_fail _ _)
  refine ⟨hbefore, ?_⟩
  rcases record_inflight h recorded now with hsame | ⟨-, hopened⟩
  · exact hsame
  · rw [hc] at hopened
    cases hopened

theorem keeps_record (h : OneProbe r) (recorded : Recorded) (now : Nat) :
    KeepsTurn r { r with
      health := r.health.record math recorded.outcome recorded.latency now cfg } := by
  refine KeepsTurn.of_same ?_ ?_ rfl
  · intro hc
    obtain ⟨hbefore, hsame⟩ := halfOpen_of_record hc
    obtain ⟨hcurrent, hcounted, hsingle⟩ := h hbefore
    exact ⟨hcurrent, hsame.trans hcounted, hsingle⟩
  · intro hidle hc
    exact hidle (halfOpen_of_record hc).1

theorem keeps_connect (h : OneProbe r) (cost : Nat) :
    KeepsTurn r { r with health := r.health.recordConnect cost } :=
  KeepsTurn.of_same (fun hc => ⟨(h hc).current, (h hc).counted, (h hc).single⟩) (fun hidle => hidle) rfl

end OneProbe

section Turns

variable (group : UpstreamGroup) (cfg : CircuitConfig) (i : Nat)

/-- At every ranking some route other than `i` is ready, so that the last resort is not taken. -/
def OtherReady (p : Recovering) : RecoveryLabel → Prop
  | .rank id => ∀ q ∈ p.resolutions id, ∃ j ∈ List.range group.routes.length,
      j ≠ i ∧ Ready (group.pool q.companions) q.rankState j
  | _ => True

/-- The probes of route `i` take turns: a resolution attempts the half-open route only if nobody
has reserved it since its ranking read it, and a period starts only once the probes of the last
one have ended. -/
def ProbesInTurn (p : Recovering) : RecoveryLabel → Prop
  | .read id => ∀ q ∈ p.resolutions id, q.readings.length = i →
      (p.routes i).recovers q.now cfg (q.seed ^^^ i.toUInt64) = true → (p.routes i).live = 0
  | .reserve id j _ => ∀ q ∈ p.resolutions id, j = i → (p.routes i).health.circuit = .halfOpen →
      (q.readings[i]?).map RouteReading.reserved = some (p.routes i).reserved
  | _ => True

instance (p : Recovering) : ∀ l, Decidable (OtherReady group i p l)
  | .rank id => inferInstanceAs (Decidable (∀ q ∈ p.resolutions id, _))
  | .begin .. | .read .. | .reserve .. | .drop .. | .record .. | .connect .. => isTrue trivial

instance (p : Recovering) : ∀ l, Decidable (ProbesInTurn cfg i p l)
  | .read id => inferInstanceAs (Decidable (∀ q ∈ p.resolutions id, _))
  | .reserve id _ _ => inferInstanceAs (Decidable (∀ q ∈ p.resolutions id, _))
  | .begin .. | .rank .. | .drop .. | .record .. | .connect .. => isTrue trivial

/-- Route `i` is probed by one attempt at a time, and whoever may attempt it has seen it usable. -/
structure OneByOne (p : Recovering) : Prop where
  probes : OneProbe (p.routes i)
  fresh : ∀ id q, p.resolutions id = some q →
    ∀ reading, q.readings[i]? = some reading → Fresh reading (p.routes i)
  seen : ∀ id q, p.resolutions id = some q → i ∈ q.positions →
    ∃ reading, q.readings[i]? = some reading ∧ reading.health.usable = true

variable {group cfg i} {math : FloatMath} {p : Recovering} {r : ProbedRoute} {j id : Nat}
  {q : Resolution} {reading : RouteReading}

theorem OneByOne.setRoute (h : OneByOne i p) (hkeeps : j = i → KeepsTurn (p.routes i) r) :
    OneByOne i (p.setRoute j r) := by
  by_cases hj : j = i
  · subst hj
    have hroute : (p.setRoute j r).routes j = r := Function.update_self ..
    obtain ⟨hprobe, hfresh⟩ := hkeeps rfl
    refine ⟨?_, ?_, h.seen⟩
    · rw [hroute]
      exact hprobe
    · intro id q hq reading hreading
      rw [hroute]
      exact hfresh reading (h.fresh id q hq reading hreading)
  · have hroute : (p.setRoute j r).routes i = p.routes i :=
      Function.update_of_ne (fun heq => hj heq.symm) ..
    refine ⟨hroute ▸ h.probes, ?_, h.seen⟩
    rw [hroute]
    exact h.fresh

theorem OneByOne.setResolution (h : OneByOne i p)
    (hfresh : ∀ reading, q.readings[i]? = some reading → Fresh reading (p.routes i))
    (hseen : i ∈ q.positions →
      ∃ reading, q.readings[i]? = some reading ∧ reading.health.usable = true) :
    OneByOne i (p.setResolution id q) := by
  have hcases : ∀ id' q', (p.setResolution id q).resolutions id' = some q' →
      q' = q ∨ p.resolutions id' = some q' := by
    intro id' q' hq'
    by_cases hid : id' = id
    · subst hid
      left
      simpa [Recovering.setResolution, eq_comm] using hq'
    · right
      simpa [Recovering.setResolution, Function.update_of_ne hid] using hq'
  refine ⟨h.probes, ?_, ?_⟩
  · intro id' q' hq'
    rcases hcases id' q' hq' with rfl | hold
    · exact hfresh
    · exact h.fresh id' q' hold
  · intro id' q' hq'
    rcases hcases id' q' hq' with rfl | hold
    · exact hseen
    · exact h.seen id' q' hold

/-- A reading appended for another route leaves what was read of route `i`. -/
theorem note_cases {health : HealthReading} {reserved : Nat}
    (h : (q.note health reserved).readings[i]? = some reading) :
    q.readings[i]? = some reading ∨
      q.readings.length = i ∧ reading = ⟨health, reserved⟩ := by
  rcases Nat.lt_trichotomy i q.readings.length with hlt | heq | hgt
  · left
    rwa [Resolution.note, List.getElem?_append_left hlt] at h
  · right
    subst heq
    simp only [Resolution.note, List.getElem?_concat_length, Option.some.injEq] at h
    exact ⟨rfl, h.symm⟩
  · rw [Resolution.note, List.getElem?_eq_none] at h
    · cases h
    · rw [List.length_append, List.length_singleton]
      exact hgt

theorem note_seen (health : HealthReading) (reserved : Nat) (h : q.readings[i]? = some reading) :
    (q.note health reserved).readings[i]? = some reading := by
  have hlt := (List.getElem?_eq_some_iff.mp h).1
  rwa [Resolution.note, List.getElem?_append_left hlt]

theorem fresh_of_read (h : OneProbe r) (score : ℚ) (measured : Bool) :
    Fresh ⟨⟨r.health.isUsable, score, measured⟩, r.reserved⟩ r := by
  refine ⟨Nat.le_refl _, ?_⟩
  intro husable _ hc
  have hzero : r.health.halfOpenInflight = 0 := by
    simpa [RouteHealth.isUsable, hc] using husable
  exact (h hc).counted.symm.trans hzero

theorem oneByOne_read (h : OneByOne i p) (hq : p.resolutions id = some q)
    (hturn : q.readings.length = i →
      (p.routes i).recovers q.now cfg (q.seed ^^^ i.toUInt64) = true → (p.routes i).live = 0) :
    OneByOne i (p.read math group cfg id q) := by
  unfold Recovering.read
  cases listedAt (group.pool q.companions) q.readings.length with
  | none =>
    dsimp only
    refine h.setResolution ?_ ?_
    · intro reading hreading
      rcases note_cases hreading with hold | ⟨hi, rfl⟩
      · exact h.fresh id q hq reading hold
      · subst hi
        exact ⟨Nat.le_refl _, nofun⟩
    · intro hi
      obtain ⟨reading, hold, husable⟩ := h.seen id q hq hi
      exact ⟨reading, note_seen _ _ hold, husable⟩
  | some route =>
    have hkeeps : q.readings.length = i → KeepsTurn (p.routes i) (p.ticked cfg q) := by
      intro hi
      subst hi
      exact keeps_tick h.probes _ _ (hturn rfl)
    have hread := h.setRoute hkeeps
    dsimp only
    refine hread.setResolution ?_ ?_
    · intro reading hreading
      rcases note_cases hreading with hold | ⟨hi, rfl⟩
      · exact hread.fresh id q hq reading hold
      · subst hi
        have hroute : (p.setRoute q.readings.length (p.ticked cfg q)).routes q.readings.length =
            p.ticked cfg q := Function.update_self ..
        rw [hroute]
        exact fresh_of_read (hkeeps rfl).1 _ _
    · intro hi
      obtain ⟨reading, hold, husable⟩ := h.seen id q hq hi
      exact ⟨reading, note_seen _ _ hold, husable⟩

theorem mem_explored {st : RankState} {seed : UInt64} {positions : List Nat} :
    j ∈ explored group st seed positions ↔ j ∈ positions := by
  unfold explored
  split
  · match positions with
    | [] => rfl
    | [_] => rfl
    | _ :: _ :: _ =>
      simp only [swapFirst, List.mem_cons]
      tauto
  · rfl

theorem ranked_readings (q : Resolution) :
    (Recovering.ranked group q).readings = q.readings := by
  unfold Recovering.ranked
  dsimp only

theorem mem_ranked :
    j ∈ (Recovering.ranked group q).positions ↔
      j ∈ orderOf (group.pool q.companions) q.rankState := by
  unfold Recovering.ranked
  dsimp only
  exact mem_explored

theorem oneByOne_rank (h : OneByOne i p) (hq : p.resolutions id = some q)
    (hready : ∃ j, Ready (group.pool q.companions) q.rankState j) :
    OneByOne i (p.setResolution id (Recovering.ranked group q)) := by
  refine h.setResolution ?_ ?_ <;> rw [ranked_readings]
  · exact h.fresh id q hq
  intro hi
  -- With a ready route at hand only ready ones are offered, and those were read as usable.
  have hoffered : i ∈ orderOf (group.pool q.companions) q.rankState := mem_ranked.mp hi
  have husable := ((offers_orderOf.ready hready i).mp hoffered).2
  cases hreading : q.readings[i]? with
  | none => simp [Resolution.rankState, hreading] at husable
  | some reading =>
    refine ⟨reading, rfl, ?_⟩
    simpa [Resolution.rankState, hreading] using husable

theorem oneByOne_step {l : RecoveryLabel} {p' : Recovering} (h : OneByOne i p)
    (hok : OtherReady group i p l ∧ ProbesInTurn cfg i p l)
    (hs : p.step math group cfg l = some p') : OneByOne i p' := by
  obtain ⟨hready, hturn⟩ := hok
  cases l with
  | begin id companions net now seed =>
    cases hs
    exact h.setResolution nofun nofun
  | read id =>
    unfold Recovering.step at hs
    cases hq : p.resolutions id with
    | none => simp [hq] at hs
    | some q =>
      simp only [hq, Option.ite_none_right_eq_some, Option.some.injEq] at hs
      obtain ⟨-, rfl⟩ := hs
      exact oneByOne_read h hq (hturn q hq)
  | rank id =>
    unfold Recovering.step at hs
    cases hq : p.resolutions id with
    | none => simp [hq] at hs
    | some q =>
      simp only [hq, Option.ite_none_right_eq_some, Option.some.injEq] at hs
      obtain ⟨-, rfl⟩ := hs
      obtain ⟨j, -, -, hj⟩ := hready q hq
      exact oneByOne_rank h hq ⟨j, hj⟩
  | reserve id j attempt =>
    unfold Recovering.step at hs
    cases hq : p.resolutions id with
    | none => simp [hq] at hs
    | some q =>
      simp only [hq, Option.ite_none_right_eq_some, Option.map_eq_some_iff] at hs
      obtain ⟨hmem, r, hr, rfl⟩ := hs
      obtain ⟨-, heq⟩ := Option.ite_none_left_eq_some.mp hr
      cases heq
      refine h.setRoute ?_
      rintro rfl
      refine keeps_reserve h.probes ?_ attempt
      intro hc
      -- Whoever attempts the route saw it usable, and nobody has reserved it since.
      obtain ⟨reading, hreading, husable⟩ := h.seen id q hq hmem
      have hmark := hturn q hq rfl hc
      rw [hreading, Option.map_some, Option.some.injEq] at hmark
      exact (h.fresh id q hq reading hreading).2 husable hmark hc
  | drop j attempt =>
    change ((p.routes j).step math cfg (.drop attempt)).map (p.setRoute j) = some p' at hs
    obtain ⟨r, hr, rfl⟩ := Option.map_eq_some_iff.mp hs
    refine h.setRoute ?_
    rintro rfl
    obtain ⟨slot, hfind, rfl⟩ := Option.map_eq_some_iff.mp hr
    exact keeps_drop h.probes (List.mem_of_find?_eq_some hfind)
  | record j recorded now =>
    change ((p.routes j).step math cfg (.record recorded now)).map (p.setRoute j) = some p' at hs
    obtain ⟨r, hr, rfl⟩ := Option.map_eq_some_iff.mp hs
    refine h.setRoute ?_
    rintro rfl
    cases hr
    exact keeps_record h.probes recorded now
  | connect j cost =>
    change ((p.routes j).step math cfg (.connect cost)).map (p.setRoute j) = some p' at hs
    obtain ⟨r, hr, rfl⟩ := Option.map_eq_some_iff.mp hs
    refine h.setRoute ?_
    rintro rfl
    cases hr
    exact keeps_connect h.probes cost

theorem oneByOne_fresh : OneByOne i .fresh where
  probes := nofun
  fresh id q hq := by cases hq
  seen id q hq := by cases hq

/-- The attempts in flight that were started in the half-open period the route is in. -/
def ProbedRoute.probing (r : ProbedRoute) : Nat :=
  r.slots.countP fun slot => slot.2 == some r.period

/-- Recovery is probed by one query at a time, in every run in which the probes take turns. -/
theorem one_probe_at_a_time (math : FloatMath) (group : UpstreamGroup) (cfg : CircuitConfig)
    (i : Nat) (labels : List RecoveryLabel) (p : Recovering)
    (hok : Guarded (Recovering.step math group cfg)
      (fun p l => OtherReady group i p l ∧ ProbesInTurn cfg i p l) .fresh labels)
    (hrun : run (Recovering.step math group cfg) .fresh labels = some p)
    (hc : (p.routes i).health.circuit = .halfOpen) : (p.routes i).probing ≤ 1 := by
  have h : OneByOne i p := invariant_of_run oneByOne_step oneByOne_fresh hok hrun
  calc (p.routes i).probing ≤ (p.routes i).live := by
        apply List.countP_mono_left
        intro slot _ hslot
        simp [eq_of_beq hslot]
    _ ≤ 1 := (h.probes hc).single

def twoServers : UpstreamGroup := plainGroup [quad9, quad1]

def ranking (id now : Nat) : List RecoveryLabel :=
  [.begin id false bothFamilies now 0, .read id, .read id, .rank id]

def secondTrips : List RecoveryLabel :=
  ranking 0 0 ++ ([.reserve 0 1 0, .drop 1 0, .record 1 .timedOut 0] : List RecoveryLabel)

theorem one_probe_at_a_time_alone :
    ∃ p, run (Recovering.step .rounded twoServers oneStrike) .fresh
        (secondTrips ++ ranking 1 (2 * 10 ^ 9) ++ ([.reserve 1 1 1] : List RecoveryLabel)) = some p ∧
      (p.routes 1).health.circuit = .halfOpen ∧ (p.routes 1).probing ≤ 1 :=
  exists_imp_of_any (by decide +kernel) fun p hp hc =>
    ⟨hc, one_probe_at_a_time .rounded twoServers oneStrike 1 _ p (by decide +kernel) hp hc⟩

/-- Two queries rank while the recovering route is free, and both go on to probe it. -/
theorem two_probes_at_once :
    Guarded (Recovering.step .rounded twoServers oneStrike) (OtherReady twoServers 1) .fresh
      (secondTrips ++ ranking 1 (2 * 10 ^ 9) ++ ranking 2 (2 * 10 ^ 9) ++
        ([.reserve 1 1 1, .reserve 2 1 2] : List RecoveryLabel)) ∧
    (run (Recovering.step .rounded twoServers oneStrike) .fresh
      (secondTrips ++ ranking 1 (2 * 10 ^ 9) ++ ranking 2 (2 * 10 ^ 9) ++
        ([.reserve 1 1 1, .reserve 2 1 2] : List RecoveryLabel))).map
      (fun p => ((p.routes 1).health.circuit, (p.routes 1).probing)) = some (.halfOpen, 2) := by
  decide +kernel

end Turns

end EgressDns
