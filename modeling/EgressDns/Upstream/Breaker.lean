import EgressDns.Lib.Runs
import EgressDns.Upstream.Health

/-!
# The circuit breaker of a route

The four fields of `RouteHealth` that make up the breaker move on their own: what an event does to
them depends on nothing else in the health of the route.
-/

namespace EgressDns

open Lib

structure Breaker where
  circuit : CircuitState
  changedAt : Option Nat
  failures : Nat
  successes : Nat
  deriving DecidableEq

def RouteHealth.breaker (h : RouteHealth) : Breaker where
  circuit := h.circuit
  changedAt := h.circuitChangedAt
  failures := h.consecutiveFailures
  successes := h.halfOpenSuccesses

namespace Breaker

def succeed (b : Breaker) (now : Nat) (cfg : CircuitConfig) : Breaker :=
  match b.circuit with
  | .closed | .suspect => { b with circuit := .closed, failures := 0 }
  | .opened => { b with failures := 0 }
  | .halfOpen =>
    if cfg.halfOpenSuccesses ≤ satSucc b.successes then
      { circuit := .closed, changedAt := some now, failures := 0, successes := satSucc b.successes }
    else { b with failures := 0, successes := satSucc b.successes }

def fail (b : Breaker) (now : Nat) (cfg : CircuitConfig) : Breaker :=
  match b.circuit with
  | .closed | .suspect =>
    if cfg.failureThreshold ≤ satSucc b.failures then
      { circuit := .opened, changedAt := some now, failures := satSucc b.failures, successes := 0 }
    else { b with circuit := .suspect, failures := satSucc b.failures }
  | .opened => { b with failures := satSucc b.failures }
  | .halfOpen =>
    { circuit := .opened, changedAt := some now, failures := satSucc b.failures, successes := 0 }

def tick (b : Breaker) (now : Nat) (cfg : CircuitConfig) (seed : UInt64) : Breaker :=
  match b.circuit, b.changedAt with
  | .opened, none => { b with changedAt := some now }
  | .opened, some changed =>
    if RouteHealth.openWait cfg seed ≤ (now - changed : Nat) then
      { b with circuit := .halfOpen, changedAt := some now, successes := 0 }
    else b
  | _, _ => b

variable (b : Breaker) (now : Nat) (cfg : CircuitConfig)

theorem failures_succeed : (b.succeed now cfg).failures = 0 := by
  unfold succeed
  split
  · rfl
  · rfl
  · rfl
  · split <;> rfl

theorem failures_fail : (b.fail now cfg).failures = satSucc b.failures := by
  unfold fail
  split
  · split <;> rfl
  · split <;> rfl
  · rfl
  · rfl

variable {b}

theorem succeed_not_opened (h : b.circuit ≠ .opened) : (b.succeed now cfg).circuit ≠ .opened := by
  unfold succeed
  split
  · simp
  · simp
  · contradiction
  · split <;> simp [*]

theorem tick_of_not_opened (h : b.circuit ≠ .opened) (seed : UInt64) : b.tick now cfg seed = b := by
  unfold tick
  split
  · contradiction
  · contradiction
  · rfl

end Breaker

def HealthEvent.move (b : Breaker) : HealthEvent → Breaker
  | .record recorded now cfg =>
    if recorded.outcome = .success then b.succeed now cfg else b.fail now cfg
  | .tick now cfg seed => b.tick now cfg seed
  | _ => b

section Projection

variable (math : FloatMath) (h : RouteHealth)

theorem decay_breaker (now : Nat) : (h.decay math now).breaker = h.breaker := by
  unfold RouteHealth.decay
  split
  · rfl
  · split <;> rfl

theorem tally_failure_breaker {outcome : AttemptOutcome} (hf : outcome ≠ .success)
    (latency : Option Nat) : (h.tally outcome latency).breaker =
      { h.breaker with failures := satSucc h.breaker.failures } := by
  cases outcome with
  | success => exact absurd rfl hf
  | timeout | serverFailure | malformed | transportError => rfl

theorem updateCircuit_success_breaker {b : Breaker} (hb : h.breaker = { b with failures := 0 })
    (now : Nat) (cfg : CircuitConfig) :
    (h.updateCircuit .success now cfg).breaker = b.succeed now cfg := by
  obtain ⟨circuit, changedAt, failures, successes⟩ := b
  simp only [RouteHealth.breaker, Breaker.mk.injEq] at hb
  obtain ⟨hcircuit, hchanged, hfailures, hsuccesses⟩ := hb
  cases circuit <;>
    simp only [RouteHealth.updateCircuit, hcircuit, Breaker.succeed, RouteHealth.breaker, hchanged,
      hfailures, hsuccesses, ne_eq, not_true_eq_false, if_false]
  split <;> rfl

theorem updateCircuit_failure_breaker {b : Breaker} {outcome : AttemptOutcome}
    (hf : outcome ≠ .success) (hb : h.breaker = { b with failures := satSucc b.failures })
    (now : Nat) (cfg : CircuitConfig) :
    (h.updateCircuit outcome now cfg).breaker = b.fail now cfg := by
  obtain ⟨circuit, changedAt, failures, successes⟩ := b
  simp only [RouteHealth.breaker, Breaker.mk.injEq] at hb
  obtain ⟨hcircuit, hchanged, hfailures, hsuccesses⟩ := hb
  have hpos := satSucc_pos failures
  cases circuit <;>
    simp only [RouteHealth.updateCircuit, hcircuit, Breaker.fail, RouteHealth.breaker, hchanged,
      hfailures, hsuccesses, ne_eq, hf, not_false_eq_true, if_true]
  all_goals split <;> rfl

theorem tick_breaker (now : Nat) (cfg : CircuitConfig) (seed : UInt64) :
    (h.tick now cfg seed).breaker = h.breaker.tick now cfg seed := by
  unfold RouteHealth.tick Breaker.tick
  cases hc : h.circuit <;> simp only [RouteHealth.breaker, hc, ne_eq, not_true_eq_false,
    reduceCtorEq, not_false_eq_true, if_true, if_false]
  cases ht : h.circuitChangedAt with
  | none => simp
  | some changed =>
    dsimp only
    split <;> simp [hc, ht]

theorem apply_breaker (e : HealthEvent) : (e.apply math h).breaker = e.move h.breaker := by
  cases e with
  | record recorded now cfg =>
    simp only [HealthEvent.apply, HealthEvent.move, RouteHealth.record]
    split
    · rename_i hs
      rw [hs]
      apply updateCircuit_success_breaker
      change ((h.decay math now).tally .success recorded.latency).breaker = _
      rw [← decay_breaker math h now]
      cases recorded.latency <;> rfl
    · rename_i hf
      apply updateCircuit_failure_breaker _ hf
      change ((h.decay math now).tally recorded.outcome recorded.latency).breaker = _
      rw [tally_failure_breaker _ hf, decay_breaker]
  | connect cost => rfl
  | tick now cfg seed => exact tick_breaker h now cfg seed
  | begun =>
    simp only [HealthEvent.apply, HealthEvent.move, RouteHealth.beginAttempt]
    split <;> rfl
  | released => rfl

end Projection

/-- What validation asks of the settings, which are 32-bit numbers. -/
structure CircuitConfig.Valid (cfg : CircuitConfig) : Prop where
  threshold_pos : 0 < cfg.failureThreshold
  threshold_lt : cfg.failureThreshold < 2 ^ 32
  successes_pos : 0 < cfg.halfOpenSuccesses
  successes_lt : cfg.halfOpenSuccesses < 2 ^ 32

def HealthEvent.Uses (cfg : CircuitConfig) : HealthEvent → Prop
  | .record _ _ c => c = cfg
  | .tick _ c _ => c = cfg
  | _ => True

def failuresInARow (history : List HealthEvent) : Nat :=
  history.foldl (fun n e => if e.isSuccess then 0 else if e.isFailure then n + 1 else n) 0

def breakerAfter (history : List HealthEvent) : Breaker :=
  history.foldl HealthEvent.move RouteHealth.new.breaker

def circuitIs (s : CircuitState) (history : List HealthEvent) : Prop :=
  (breakerAfter history).circuit = s

section Histories

variable {history : List HealthEvent} {e : HealthEvent}

theorem breakerAfter_concat : breakerAfter (history ++ [e]) = e.move (breakerAfter history) := by
  simp [breakerAfter]

theorem healthAfter_breaker (math : FloatMath) (history : List HealthEvent) :
    (healthAfter math history).breaker = breakerAfter history := by
  induction history using List.reverseRecOn with
  | nil => rfl
  | append_singleton history e ih =>
    have happly : healthAfter math (history ++ [e]) = e.apply math (healthAfter math history) := by
      simp [healthAfter]
    rw [happly, apply_breaker, ih, breakerAfter_concat]

theorem failuresInARow_concat : failuresInARow (history ++ [e]) =
    if e.isSuccess then 0 else if e.isFailure then failuresInARow history + 1
    else failuresInARow history := by
  simp [failuresInARow]

variable {cfg : CircuitConfig} {recorded : Recorded} {now : Nat}

theorem breakerAfter_success (hs : recorded.outcome = .success) :
    breakerAfter (history ++ [.record recorded now cfg]) =
      (breakerAfter history).succeed now cfg := by
  rw [breakerAfter_concat, HealthEvent.move, if_pos hs]

theorem breakerAfter_failure (hf : recorded.outcome ≠ .success) :
    breakerAfter (history ++ [.record recorded now cfg]) = (breakerAfter history).fail now cfg := by
  rw [breakerAfter_concat, HealthEvent.move, if_neg hf]

theorem failuresInARow_failure (hf : recorded.outcome ≠ .success) :
    failuresInARow (history ++ [.record recorded now cfg]) = failuresInARow history + 1 := by
  rw [failuresInARow_concat]
  simp [HealthEvent.isSuccess, HealthEvent.isFailure, hf]

/-- The circuit opened when this failure was recorded and has been open since. -/
def OpenedSince (cfg : CircuitConfig) (history : List HealthEvent) : Prop :=
  ∃ before recorded t after, history = before ++ .record recorded t cfg :: after ∧
    Since (circuitIs .opened) before (.record recorded t cfg) after ∧
    (breakerAfter history).changedAt = some t

/-- The circuit became half open at some entry and has been since; successes are counted. -/
def HalfOpenSince (cfg : CircuitConfig) (history : List HealthEvent) : Prop :=
  ∃ before entry after, history = before ++ entry :: after ∧
    Since (circuitIs .halfOpen) before entry after ∧
    (breakerAfter history).successes = after.countP HealthEvent.isSuccess ∧
    (breakerAfter history).successes < cfg.halfOpenSuccesses

/-- What each state of the circuit says about the history. -/
def Known (cfg : CircuitConfig) (history : List HealthEvent) : CircuitState → Prop
  | .closed => failuresInARow history = 0
  | .suspect => 0 < failuresInARow history ∧ failuresInARow history < cfg.failureThreshold
  | .opened => OpenedSince cfg history
  | .halfOpen => HalfOpenSince cfg history

structure Tracked (cfg : CircuitConfig) (history : List HealthEvent) : Prop where
  streak : (breakerAfter history).failures = min (failuresInARow history) (2 ^ 32 - 1)
  known : Known cfg history (breakerAfter history).circuit

theorem Tracked.knows (ht : Tracked cfg history) {c : CircuitState} (hc : circuitIs c history) :
    Known cfg history c := hc ▸ ht.known

theorem tracked_nil (cfg : CircuitConfig) : Tracked cfg [] := ⟨rfl, rfl⟩

theorem OpenedSince.extend (h : OpenedSince cfg history) (hnow : circuitIs .opened (history ++ [e]))
    (hsame : (breakerAfter (history ++ [e])).changedAt = (breakerAfter history).changedAt) :
    OpenedSince cfg (history ++ [e]) := by
  obtain ⟨before, recorded, t, after, hsplit, hsince, hchanged⟩ := h
  have hlonger : history ++ [e] = before ++ .record recorded t cfg :: (after ++ [e]) := by
    rw [hsplit]
    simp
  refine ⟨before, recorded, t, after ++ [e], hlonger, hsince.extend ?_, hsame.trans hchanged⟩
  rwa [← hlonger]

theorem HalfOpenSince.extend (h : HalfOpenSince cfg history)
    (hnow : circuitIs .halfOpen (history ++ [e]))
    (hcount : (breakerAfter (history ++ [e])).successes =
      (breakerAfter history).successes + [e].countP HealthEvent.isSuccess)
    (hlt : (breakerAfter (history ++ [e])).successes < cfg.halfOpenSuccesses) :
    HalfOpenSince cfg (history ++ [e]) := by
  obtain ⟨before, entry, after, hsplit, hsince, hsuccesses, -⟩ := h
  have hlonger : history ++ [e] = before ++ entry :: (after ++ [e]) := by
    rw [hsplit]
    simp
  refine ⟨before, entry, after ++ [e], hlonger, hsince.extend ?_, ?_, hlt⟩
  · rwa [← hlonger]
  · rw [hcount, hsuccesses, List.countP_append]

theorem openedSince_start
    (hnot : ¬ circuitIs .opened history)
    (hnow : circuitIs .opened (history ++ [HealthEvent.record recorded now cfg]))
    (hchanged : (breakerAfter (history ++ [HealthEvent.record recorded now cfg])).changedAt = some now) :
    OpenedSince cfg (history ++ [HealthEvent.record recorded now cfg]) :=
  ⟨history, recorded, now, [], rfl, Since.start hnot hnow, hchanged⟩

theorem halfOpenSince_start (hnot : ¬ circuitIs .halfOpen history)
    (hnow : circuitIs .halfOpen (history ++ [e]))
    (hzero : (breakerAfter (history ++ [e])).successes = 0) (hpos : 0 < cfg.halfOpenSuccesses) :
    HalfOpenSince cfg (history ++ [e]) :=
  ⟨history, e, [], rfl, Since.start hnot hnow, hzero, hzero ▸ hpos⟩

theorem Tracked.quiet (ht : Tracked cfg history)
    (hsame : breakerAfter (history ++ [e]) = breakerAfter history)
    (hrow : failuresInARow (history ++ [e]) = failuresInARow history)
    (hcount : [e].countP HealthEvent.isSuccess = 0) : Tracked cfg (history ++ [e]) := by
  refine ⟨by rw [hsame, hrow, ht.streak], ?_⟩
  have hstate (c : CircuitState) (hc : (breakerAfter history).circuit = c) :
      circuitIs c (history ++ [e]) := by rw [circuitIs, hsame, hc]
  rw [hsame]
  cases hc : (breakerAfter history).circuit with
  | closed => exact hrow.trans (ht.knows hc)
  | suspect =>
    have hknown := ht.knows hc
    unfold Known at hknown ⊢
    rwa [hrow]
  | opened => exact OpenedSince.extend (ht.knows hc) (hstate _ hc) (by rw [hsame])
  | halfOpen =>
    obtain ⟨_, _, _, -, -, -, hlt⟩ := ht.knows hc
    exact HalfOpenSince.extend (ht.knows hc) (hstate _ hc) (by rw [hsame, hcount]; rfl)
      (by rwa [hsame])

theorem satSucc_eq {n : Nat} (h : n + 1 < 2 ^ 32) : satSucc n = n + 1 := by
  unfold satSucc
  omega

theorem Tracked.succeed (ht : Tracked cfg history) (hcfg : cfg.Valid)
    (hs : recorded.outcome = .success) :
    Tracked cfg (history ++ [HealthEvent.record recorded now cfg]) := by
  have hmove := @breakerAfter_success history cfg recorded now hs
  have hrow : failuresInARow (history ++ [HealthEvent.record recorded now cfg]) = 0 := by
    rw [failuresInARow_concat]
    simp [HealthEvent.isSuccess, hs]
  refine ⟨by rw [hmove, hrow, Breaker.failures_succeed]; rfl, ?_⟩
  cases hc : (breakerAfter history).circuit with
  | closed | suspect =>
    have hclosed : ((breakerAfter history).succeed now cfg).circuit = .closed := by
      simp [Breaker.succeed, hc]
    rw [hmove, hclosed]
    exact hrow
  | opened =>
    have hopened : ((breakerAfter history).succeed now cfg).circuit = .opened := by
      simp [Breaker.succeed, hc]
    rw [hmove, hopened]
    refine OpenedSince.extend (ht.knows hc) (by rw [circuitIs, hmove, hopened]) ?_
    rw [hmove]
    simp [Breaker.succeed, hc]
  | halfOpen =>
    obtain ⟨_, _, _, -, -, -, hlt⟩ := ht.knows hc
    have hnext : satSucc (breakerAfter history).successes = (breakerAfter history).successes + 1 :=
      satSucc_eq (by have := hcfg.successes_lt; omega)
    by_cases hdone : cfg.halfOpenSuccesses ≤ (breakerAfter history).successes + 1
    · have hclosed : ((breakerAfter history).succeed now cfg).circuit = .closed := by
        simp [Breaker.succeed, hc, hnext, hdone]
      rw [hmove, hclosed]
      exact hrow
    · have hhalf : (breakerAfter history).succeed now cfg = { breakerAfter history with
          failures := 0, successes := (breakerAfter history).successes + 1 } := by
        simp only [Breaker.succeed, hc, hnext, if_neg hdone]
      rw [hmove, hhalf, hc]
      refine HalfOpenSince.extend (ht.knows hc) (by rw [circuitIs, hmove, hhalf, hc]) ?_ ?_
      · rw [hmove, hhalf]
        simp [HealthEvent.isSuccess, hs]
      · rw [hmove, hhalf]
        change (breakerAfter history).successes + 1 < _
        omega

theorem Tracked.fail (ht : Tracked cfg history) (hcfg : cfg.Valid)
    (hf : recorded.outcome ≠ .success) :
    Tracked cfg (history ++ [HealthEvent.record recorded now cfg]) := by
  have hmove := @breakerAfter_failure history cfg recorded now hf
  have hrow := @failuresInARow_failure history cfg recorded now hf
  have hstreak := ht.streak
  have hthreshold := hcfg.threshold_lt
  refine ⟨?_, ?_⟩
  · rw [hmove, hrow, Breaker.failures_fail, hstreak, satSucc]
    omega
  cases hc : (breakerAfter history).circuit with
  | closed | suspect =>
    -- The streak decides.
    by_cases hreached : cfg.failureThreshold ≤ satSucc (breakerAfter history).failures
    · have hopened : ((breakerAfter history).fail now cfg).circuit = .opened := by
        simp [Breaker.fail, hc, hreached]
      rw [hmove, hopened]
      refine openedSince_start (by simp [circuitIs, hc]) (by rw [circuitIs, hmove, hopened]) ?_
      rw [hmove]
      simp [Breaker.fail, hc, hreached]
    · have hsuspect : ((breakerAfter history).fail now cfg).circuit = .suspect := by
        simp [Breaker.fail, hc, hreached]
      rw [hmove, hsuspect]
      rw [hstreak, satSucc] at hreached
      refine ⟨?_, ?_⟩
      · omega
      · omega
  | opened =>
    have hopened : ((breakerAfter history).fail now cfg).circuit = .opened := by
      simp [Breaker.fail, hc]
    rw [hmove, hopened]
    refine OpenedSince.extend (ht.knows hc) (by rw [circuitIs, hmove, hopened]) ?_
    rw [hmove]
    simp [Breaker.fail, hc]
  | halfOpen =>
    have hopened : ((breakerAfter history).fail now cfg).circuit = .opened := by
      simp [Breaker.fail, hc]
    rw [hmove, hopened]
    refine openedSince_start (by simp [circuitIs, hc]) (by rw [circuitIs, hmove, hopened]) ?_
    rw [hmove]
    simp [Breaker.fail, hc]

theorem Tracked.tick (ht : Tracked cfg history) (hcfg : cfg.Valid) (now : Nat) (seed : UInt64) :
    Tracked cfg (history ++ [HealthEvent.tick now cfg seed]) := by
  have hmove : breakerAfter (history ++ [HealthEvent.tick now cfg seed]) =
      (breakerAfter history).tick now cfg seed := breakerAfter_concat
  have hrow : failuresInARow (history ++ [HealthEvent.tick now cfg seed]) = failuresInARow history := by
    rw [failuresInARow_concat]
    rfl
  have hquiet (h : (breakerAfter history).tick now cfg seed = breakerAfter history) :
      Tracked cfg (history ++ [HealthEvent.tick now cfg seed]) :=
    ht.quiet (hmove.trans h) hrow rfl
  by_cases hc : (breakerAfter history).circuit = .opened
  · obtain ⟨_, _, t, _, -, -, hchanged⟩ := ht.knows hc
    by_cases hwait : RouteHealth.openWait cfg seed ≤ (now - t : Nat)
    · have htick : (breakerAfter history).tick now cfg seed =
          { breakerAfter history with
            circuit := .halfOpen, changedAt := some now, successes := 0 } := by
        simp only [Breaker.tick, hc, hchanged, if_pos hwait]
      refine ⟨?_, ?_⟩
      · rw [hmove, htick, hrow]
        exact ht.streak
      · rw [hmove, htick]
        refine halfOpenSince_start ?_ ?_ ?_ hcfg.successes_pos
        · simp [circuitIs, hc]
        · rw [circuitIs, hmove, htick]
        · rw [hmove, htick]
    · exact hquiet (by simp only [Breaker.tick, hc, hchanged, if_neg hwait])
  · exact hquiet (Breaker.tick_of_not_opened now cfg hc seed)

theorem tracked (hcfg : cfg.Valid) (history : List HealthEvent) (huses : ∀ e ∈ history, e.Uses cfg) :
    Tracked cfg history := by
  induction history using List.reverseRecOn with
  | nil => exact tracked_nil cfg
  | append_singleton history e ih =>
    have ht := ih fun e' he => huses e' (List.mem_append_left _ he)
    have hself := huses e (by simp)
    cases e with
    | record recorded now c =>
      obtain rfl : c = cfg := hself
      by_cases hs : recorded.outcome = .success
      · exact ht.succeed hcfg hs
      · exact ht.fail hcfg hs
    | tick now c seed =>
      obtain rfl : c = cfg := hself
      exact ht.tick hcfg now seed
    | connect cost | begun
    | released => exact ht.quiet breakerAfter_concat (by rw [failuresInARow_concat]; rfl) rfl

end Histories

section Laws

variable (math : FloatMath) (cfg : CircuitConfig) (history : List HealthEvent) (e : HealthEvent)

def circuitAfter (s : CircuitState) (history : List HealthEvent) : Prop :=
  (healthAfter math history).circuit = s

/-- What the breaker does at one event of a history. -/
structure BreakerLaws : Prop where
  closed : circuitAfter math .closed history → (healthAfter math history).consecutiveFailures = 0
  suspect : circuitAfter math .suspect history →
    0 < (healthAfter math history).consecutiveFailures ∧
      (healthAfter math history).consecutiveFailures < cfg.failureThreshold
  opens : ¬ circuitAfter math .opened history → (circuitAfter math .opened (history ++ [e]) ↔
    e.isFailure = true ∧ (circuitAfter math .halfOpen history ∨
      failuresInARow (history ++ [e]) = cfg.failureThreshold))
  leaves : circuitAfter math .opened history → ¬ circuitAfter math .opened (history ++ [e]) →
    circuitAfter math .halfOpen (history ++ [e]) ∧
    ∃ now seed before recorded t after, e = .tick now cfg seed ∧
      history = before ++ .record recorded t cfg :: after ∧
      Since (circuitAfter math .opened) before (.record recorded t cfg) after ∧
      t + max (100 * 10 ^ 6) cfg.openDuration ≤ now
  closes : circuitAfter math .halfOpen history → ∃ before entry after,
    history = before ++ entry :: after ∧
    Since (circuitAfter math .halfOpen) before entry after ∧
    (circuitAfter math .closed (history ++ [e]) ↔ e.isSuccess = true ∧
      (after ++ [e]).countP HealthEvent.isSuccess = cfg.halfOpenSuccesses)

variable {math cfg history e}

theorem circuitAfter_eq (s : CircuitState) : circuitAfter math s = circuitIs s := by
  funext history
  unfold circuitAfter circuitIs
  rw [← healthAfter_breaker math history]
  rfl

theorem openWait_ge (cfg : CircuitConfig) (seed : UInt64) :
    (max (100 * 10 ^ 6) cfg.openDuration : Nat) ≤ RouteHealth.openWait cfg seed := by
  have hunit : 0 ≤ unitFromSeed seed := by
    unfold unitFromSeed
    positivity
  have hduration : (0 : ℚ) ≤ cfg.openDuration := by positivity
  have hjitter : (cfg.openDuration : ℚ) ≤ cfg.openDuration * (1 + unitFromSeed seed * (1 / 2)) := by
    nlinarith
  unfold RouteHealth.openWait
  push_cast
  rw [max_comm]
  exact max_le_max hjitter (by norm_num)

theorem opens_of_tracked (ht : Tracked cfg history) (hcfg : cfg.Valid) (huses : e.Uses cfg)
    (hnot : ¬ circuitIs .opened history) : circuitIs .opened (history ++ [e]) ↔
      e.isFailure = true ∧ (circuitIs .halfOpen history ∨
        failuresInARow (history ++ [e]) = cfg.failureThreshold) := by
  cases e with
  | record recorded now c =>
    obtain rfl : c = cfg := huses
    by_cases hs : recorded.outcome = .success
    · refine iff_of_false ?_ (by simp [HealthEvent.isFailure, hs])
      rw [circuitIs, breakerAfter_success hs]
      exact Breaker.succeed_not_opened now c hnot
    · have hf : (HealthEvent.record recorded now c).isFailure = true := by
        simp [HealthEvent.isFailure, hs]
      have hstreak := ht.streak
      have hlt := hcfg.threshold_lt
      have hpos := hcfg.threshold_pos
      rw [hf, failuresInARow_failure hs, circuitIs, circuitIs, breakerAfter_failure hs]
      cases hc : (breakerAfter history).circuit with
      | opened => exact absurd hc hnot
      | halfOpen => simp [Breaker.fail, hc]
      | closed | suspect =>
        have hknown := ht.knows hc
        unfold Known at hknown
        -- Before the threshold is reached the streak is the whole streak.
        have hiff : c.failureThreshold ≤ satSucc (breakerAfter history).failures ↔
            failuresInARow history + 1 = c.failureThreshold := by
          rw [hstreak, satSucc]
          omega
        by_cases hreached : c.failureThreshold ≤ satSucc (breakerAfter history).failures
        · simp [Breaker.fail, hc, hreached, hiff.mp hreached]
        · simp [Breaker.fail, hc, hreached, mt hiff.mpr hreached]
  | tick now c seed =>
    refine iff_of_false ?_ (by simp [HealthEvent.isFailure])
    rwa [circuitIs, breakerAfter_concat, HealthEvent.move, Breaker.tick_of_not_opened now c hnot]
  | connect cost | begun | released =>
    refine iff_of_false ?_ (by simp [HealthEvent.isFailure])
    rwa [circuitIs, breakerAfter_concat]

theorem leaves_of_tracked (ht : Tracked cfg history) (huses : e.Uses cfg)
    (hopened : circuitIs .opened history) (hleaves : ¬ circuitIs .opened (history ++ [e])) :
    circuitIs .halfOpen (history ++ [e]) ∧
    ∃ now seed before recorded t after, e = .tick now cfg seed ∧
      history = before ++ .record recorded t cfg :: after ∧
      Since (circuitIs .opened) before (.record recorded t cfg) after ∧
      t + max (100 * 10 ^ 6) cfg.openDuration ≤ now := by
  have hc : (breakerAfter history).circuit = .opened := hopened
  obtain ⟨before, recorded, t, after, hsplit, hsince, hchanged⟩ := ht.knows hc
  have hstays (hsame : (breakerAfter (history ++ [e])).circuit = (breakerAfter history).circuit) :
      False := hleaves (hsame.trans hc)
  cases e with
  | record recorded' now c =>
    refine (hstays ?_).elim
    rw [breakerAfter_concat, HealthEvent.move]
    split <;> simp [Breaker.succeed, Breaker.fail, hc]
  | tick now c seed =>
    obtain rfl : c = cfg := huses
    by_cases hwait : RouteHealth.openWait c seed ≤ (now - t : Nat)
    · refine ⟨?_, now, seed, before, recorded, t, after, rfl, hsplit, hsince, ?_⟩
      · rw [circuitIs, breakerAfter_concat, HealthEvent.move]
        simp [Breaker.tick, hc, hchanged, hwait]
      · have hle : max (100 * 10 ^ 6) c.openDuration ≤ now - t := by
          exact_mod_cast (openWait_ge c seed).trans hwait
        have hpos : 100 * 10 ^ 6 ≤ max (100 * 10 ^ 6) c.openDuration := le_max_left _ _
        omega
    · refine (hstays ?_).elim
      rw [breakerAfter_concat, HealthEvent.move]
      simp [Breaker.tick, hc, hchanged, hwait]
  | connect cost | begun | released => exact (hstays (by rw [breakerAfter_concat]; rfl)).elim

theorem closes_of_tracked (ht : Tracked cfg history) (hcfg : cfg.Valid) (huses : e.Uses cfg)
    (hhalf : circuitIs .halfOpen history) : ∃ before entry after,
      history = before ++ entry :: after ∧ Since (circuitIs .halfOpen) before entry after ∧
      (circuitIs .closed (history ++ [e]) ↔ e.isSuccess = true ∧
        (after ++ [e]).countP HealthEvent.isSuccess = cfg.halfOpenSuccesses) := by
  have hc : (breakerAfter history).circuit = .halfOpen := hhalf
  obtain ⟨before, entry, after, hsplit, hsince, hcount, hlt⟩ := ht.knows hc
  refine ⟨before, entry, after, hsplit, hsince, ?_⟩
  rw [List.countP_append, circuitIs, breakerAfter_concat]
  cases e with
  | record recorded now c =>
    obtain rfl : c = cfg := huses
    by_cases hs : recorded.outcome = .success
    · have hsuccess : (HealthEvent.record recorded now c).isSuccess = true := by
        simp [HealthEvent.isSuccess, hs]
      have hone : [HealthEvent.record recorded now c].countP HealthEvent.isSuccess = 1 := by
        simp [hsuccess]
      have hnext : satSucc (breakerAfter history).successes =
          (breakerAfter history).successes + 1 :=
        satSucc_eq (by have := hcfg.successes_lt; omega)
      rw [hone, ← hcount, hsuccess, HealthEvent.move, if_pos hs]
      by_cases hdone : c.halfOpenSuccesses ≤ satSucc (breakerAfter history).successes
      · have hequal : (breakerAfter history).successes + 1 = c.halfOpenSuccesses := by omega
        simp [Breaker.succeed, hc, hdone, hequal]
      · have hless : (breakerAfter history).successes + 1 ≠ c.halfOpenSuccesses := by omega
        simp [Breaker.succeed, hc, hdone, hless]
    · refine iff_of_false ?_ (by simp [HealthEvent.isSuccess, hs])
      simp [HealthEvent.move, hs, Breaker.fail, hc]
  | tick now c seed =>
    exact iff_of_false (by simp [HealthEvent.move, Breaker.tick, hc]) (by simp [HealthEvent.isSuccess])
  | connect cost | begun | released =>
    exact iff_of_false (by simp [HealthEvent.move, hc]) (by simp [HealthEvent.isSuccess])

/-- The breaker is the state machine it is meant to be, at every event of every history of records
and ticks with validated settings. -/
theorem circuit_state_machine (math : FloatMath) (cfg : CircuitConfig) (hcfg : cfg.Valid)
    (history : List HealthEvent) (e : HealthEvent) (huses : ∀ e' ∈ history ++ [e], e'.Uses cfg) :
    BreakerLaws math cfg history e := by
  have ht : Tracked cfg history :=
    tracked hcfg history fun e' he => huses e' (List.mem_append_left _ he)
  have hself : e.Uses cfg := huses e (by simp)
  have hfailures : (healthAfter math history).consecutiveFailures =
      (breakerAfter history).failures := by
    rw [← healthAfter_breaker math history]
    rfl
  have hlt := hcfg.threshold_lt
  refine ⟨?_, ?_, ?_, ?_, ?_⟩
  · rw [circuitAfter_eq]
    intro hc
    rw [hfailures, ht.streak, show failuresInARow history = 0 from ht.knows hc]
    rfl
  · rw [circuitAfter_eq]
    intro hc
    obtain ⟨hpos, hbelow⟩ := ht.knows hc
    rw [hfailures, ht.streak]
    omega
  · simp only [circuitAfter_eq]
    exact opens_of_tracked ht hcfg hself
  · simp only [circuitAfter_eq]
    exact leaves_of_tracked ht hself
  · simp only [circuitAfter_eq]
    exact closes_of_tracked ht hcfg hself

def twoStrikes : CircuitConfig where
  failureThreshold := 2
  openDuration := 10 ^ 9
  halfOpenSuccesses := 1

def timedOutAt (now : Nat) : HealthEvent := .record .timedOut now twoStrikes

theorem circuit_state_machine_two_strikes :
    (healthAfter .rounded [timedOutAt 0, timedOutAt 5]).circuit = .opened ∧
    (healthAfter .rounded [timedOutAt 0, timedOutAt 5, .tick (2 * 10 ^ 9) twoStrikes 0]).circuit =
      .halfOpen ∧
    BreakerLaws .rounded twoStrikes [timedOutAt 0, timedOutAt 5]
      (.tick (2 * 10 ^ 9) twoStrikes 0) := by
  refine ⟨by decide +kernel, by decide +kernel, ?_⟩
  apply circuit_state_machine .rounded twoStrikes ⟨by decide, by decide, by decide, by decide⟩
  intro e he
  simp only [List.cons_append, List.nil_append, List.mem_cons, List.not_mem_nil, or_false] at he
  rcases he with rfl | rfl | rfl <;> rfl

end Laws

end EgressDns
