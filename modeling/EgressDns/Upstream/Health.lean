import Mathlib.Data.Rat.Floor
import Mathlib.Tactic.Linarith
import Mathlib.Tactic.Positivity
import EgressDns.Upstream.Rank

/-!
# Route health and its circuit breaker

`upstream/health.rs`. The decayed counters, the latency window and the score are exact rationals;
the two functions of `f64` that leave the rationals are given with the laws the ranking needs.
Instants and durations are nanoseconds.
-/

namespace EgressDns

structure FloatMath where
  pow : ℚ → ℚ → ℚ
  sqrt : ℚ → ℚ
  pow_nonneg : ∀ x y, 0 ≤ x → 0 ≤ pow x y
  one_le_pow : ∀ x y, 1 ≤ x → 0 ≤ y → 1 ≤ pow x y
  sqrt_nonneg : ∀ x, 0 ≤ sqrt x
  sqrt_le_one : ∀ x, x ≤ 1 → sqrt x ≤ 1

/-- Powers to whole exponents and roots to three places. -/
def FloatMath.rounded : FloatMath where
  pow x y := x ^ ⌊y⌋₊
  sqrt x := Nat.sqrt ⌊x * 1000000⌋₊ / 1000
  pow_nonneg x y hx := by positivity
  one_le_pow x y hx _ := one_le_pow₀ hx
  sqrt_nonneg x := by positivity
  sqrt_le_one x hx := by
    have hfloor : ⌊x * 1000000⌋₊ ≤ 1000 * 1000 := by
      apply Nat.floor_le_of_le
      norm_num
      linarith
    have hroot : Nat.sqrt ⌊x * 1000000⌋₊ ≤ 1000 := by
      calc Nat.sqrt ⌊x * 1000000⌋₊ ≤ Nat.sqrt (1000 * 1000) := Nat.sqrt_le_sqrt hfloor
        _ = 1000 := Nat.sqrt_eq 1000
    rw [div_le_one (by norm_num)]
    exact_mod_cast hroot

inductive CircuitState where
  | closed | suspect | opened | halfOpen
  deriving DecidableEq, Repr

structure CircuitConfig where
  failureThreshold : Nat
  openDuration : Nat
  halfOpenSuccesses : Nat
  deriving DecidableEq, Repr

structure RouteHealth where
  success : ℚ
  timeout : ℚ
  serverFailure : ℚ
  malformed : ℚ
  transportError : ℚ
  ewmaMs : ℚ
  jitterMs : ℚ
  window : List ℚ
  windowPos : Nat
  connectCostMs : ℚ
  consecutiveFailures : Nat
  lastUpdate : Option Nat
  circuit : CircuitState
  circuitChangedAt : Option Nat
  halfOpenSuccesses : Nat
  halfOpenInflight : Nat
  deriving DecidableEq

/-- What one attempt leaves behind; a success always comes with its latency. -/
structure Recorded where
  outcome : AttemptOutcome
  latency : Option Nat
  timed : outcome = .success → latency ≠ none

def Recorded.timedOut : Recorded := ⟨.timeout, none, fun h => absurd h (by decide)⟩

def satSucc (n : Nat) : Nat := min (n + 1) (2 ^ 32 - 1)

theorem satSucc_pos (n : Nat) : 0 < satSucc n := by
  unfold satSucc
  omega

def millis (nanos : Nat) : ℚ := nanos / 1000000

namespace RouteHealth

def windowSize : Nat := 32

def halfLife : Nat := 120 * 10 ^ 9

def new : RouteHealth where
  success := 0
  timeout := 0
  serverFailure := 0
  malformed := 0
  transportError := 0
  ewmaMs := 0
  jitterMs := 0
  window := []
  windowPos := 0
  connectCostMs := 0
  consecutiveFailures := 0
  lastUpdate := none
  circuit := .closed
  circuitChangedAt := none
  halfOpenSuccesses := 0
  halfOpenInflight := 0

variable (h : RouteHealth)

def scale (factor : ℚ) : RouteHealth :=
  { h with
    success := h.success * factor
    timeout := h.timeout * factor
    serverFailure := h.serverFailure * factor
    malformed := h.malformed * factor
    transportError := h.transportError * factor }

variable (math : FloatMath)

def decay (h : RouteHealth) (now : Nat) : RouteHealth :=
  match h.lastUpdate with
  | none => h
  | some last =>
    if now - last = 0 then h else h.scale (math.pow (1 / 2) ((now - last : Nat) / halfLife))

def recordConnect (cost : Nat) : RouteHealth :=
  { h with
    connectCostMs :=
      if h.connectCostMs = 0 then millis cost
      else 7 / 10 * h.connectCostMs + 3 / 10 * millis cost }

/-- The latency of a success: the averages, and the ring of the last samples. -/
def sample (ms : ℚ) : RouteHealth :=
  { h with
    jitterMs :=
      if h.window = [] then h.jitterMs else 3 / 4 * h.jitterMs + 1 / 4 * |ms - h.ewmaMs|
    ewmaMs := if h.window = [] then ms else 3 / 4 * h.ewmaMs + 1 / 4 * ms
    window :=
      if h.windowPos < h.window.length then h.window.set h.windowPos ms else h.window ++ [ms]
    windowPos := (h.windowPos + 1) % windowSize }

def tally (outcome : AttemptOutcome) (latency : Option Nat) : RouteHealth :=
  match outcome with
  | .success =>
    let h := { h with success := h.success + 1, consecutiveFailures := 0 }
    match latency with
    | some d => h.sample (millis d)
    | none => h
  | .timeout =>
    { h with timeout := h.timeout + 1, consecutiveFailures := satSucc h.consecutiveFailures }
  | .serverFailure =>
    { h with
      serverFailure := h.serverFailure + 1
      consecutiveFailures := satSucc h.consecutiveFailures }
  | .malformed =>
    { h with malformed := h.malformed + 1, consecutiveFailures := satSucc h.consecutiveFailures }
  | .transportError =>
    { h with
      transportError := h.transportError + 1
      consecutiveFailures := satSucc h.consecutiveFailures }

def updateCircuit (outcome : AttemptOutcome) (now : Nat) (cfg : CircuitConfig) : RouteHealth :=
  match h.circuit with
  | .closed | .suspect =>
    if outcome ≠ .success then
      if cfg.failureThreshold ≤ h.consecutiveFailures then
        { h with
          circuit := .opened, circuitChangedAt := some now
          halfOpenSuccesses := 0, halfOpenInflight := 0 }
      else if 0 < h.consecutiveFailures then { h with circuit := .suspect }
      else h
    else { h with circuit := .closed }
  | .opened => h
  | .halfOpen =>
    if outcome ≠ .success then
      { h with circuit := .opened, circuitChangedAt := some now, halfOpenSuccesses := 0 }
    else
      let h := { h with halfOpenSuccesses := satSucc h.halfOpenSuccesses }
      if cfg.halfOpenSuccesses ≤ h.halfOpenSuccesses then
        { h with circuit := .closed, circuitChangedAt := some now, consecutiveFailures := 0 }
      else h

def record (h : RouteHealth) (outcome : AttemptOutcome) (latency : Option Nat) (now : Nat)
    (cfg : CircuitConfig) : RouteHealth :=
  let h := (h.decay math now).tally outcome latency
  { h with lastUpdate := some now }.updateCircuit outcome now cfg

/-- How long an open circuit waits, with the jitter derived from the seed. -/
def openWait (cfg : CircuitConfig) (seed : UInt64) : ℚ :=
  max (cfg.openDuration * (1 + unitFromSeed seed * (1 / 2))) (100 * 10 ^ 6)

def tick (now : Nat) (cfg : CircuitConfig) (seed : UInt64) : RouteHealth :=
  if h.circuit ≠ .opened then h
  else
    match h.circuitChangedAt with
    | none => { h with circuitChangedAt := some now }
    | some changed =>
      if openWait cfg seed ≤ (now - changed : Nat) then
        { h with
          circuit := .halfOpen, circuitChangedAt := some now
          halfOpenSuccesses := 0, halfOpenInflight := 0 }
      else h

def isUsable : Bool :=
  match h.circuit with
  | .closed | .suspect => true
  | .halfOpen => decide (h.halfOpenInflight = 0)
  | .opened => false

def beginAttempt : RouteHealth :=
  if h.circuit = .halfOpen then { h with halfOpenInflight := satSucc h.halfOpenInflight } else h

def releaseAttempt : RouteHealth :=
  { h with halfOpenInflight := h.halfOpenInflight - 1 }

def total : ℚ :=
  h.success + h.timeout + h.serverFailure + h.malformed + h.transportError

def successProbability : ℚ :=
  if h.total ≤ 0 then 1 / 2 else (h.success + 1) / (h.total + 2)

def uncertainty (h : RouteHealth) : ℚ :=
  math.sqrt (h.successProbability * (1 - h.successProbability) / (h.total + 2))

def percentile (q : ℚ) : ℚ :=
  if h.window = [] then 0
  else
    let v := h.window.insertionSort (· ≤ ·)
    v.getD (min (max ⌈q * v.length⌉₊ 1) v.length - 1) 0

def p95Ms : ℚ := h.percentile (95 / 100)

def isMeasured : Bool := decide (h.window ≠ [])

def streak (h : RouteHealth) : ℚ :=
  if h.consecutiveFailures = 0 then 0
  else 50 * math.pow (min h.consecutiveFailures 8 : Nat) (8 / 5)

def score (h : RouteHealth) (weight : Nat) : ℚ :=
  (if h.window = [] then 50 else h.ewmaMs) + 3 / 10 * h.p95Ms + 2 / 10 * h.jitterMs +
    (1 - h.successProbability) * 600 + h.streak math + h.uncertainty math * 40 +
    (if h.window = [] then h.connectCostMs * (1 / 2) else 0) + weightBias weight

end RouteHealth

/-! What happens to the health of a route over its life. -/

inductive HealthEvent where
  | record (recorded : Recorded) (now : Nat) (cfg : CircuitConfig)
  | connect (cost : Nat)
  | tick (now : Nat) (cfg : CircuitConfig) (seed : UInt64)
  | begun
  | released

def HealthEvent.apply (math : FloatMath) (h : RouteHealth) : HealthEvent → RouteHealth
  | .record recorded now cfg => h.record math recorded.outcome recorded.latency now cfg
  | .connect cost => h.recordConnect cost
  | .tick now cfg seed => h.tick now cfg seed
  | .begun => h.beginAttempt
  | .released => h.releaseAttempt

def healthAfter (math : FloatMath) (history : List HealthEvent) : RouteHealth :=
  history.foldl (HealthEvent.apply math) .new

def HealthEvent.isSuccess : HealthEvent → Bool
  | .record recorded _ _ => decide (recorded.outcome = .success)
  | _ => false

def HealthEvent.isFailure : HealthEvent → Bool
  | .record recorded _ _ => decide (recorded.outcome ≠ .success)
  | _ => false

/-- Some attempt failed and none has succeeded since. -/
def failedSinceSuccess (history : List HealthEvent) : Bool :=
  history.foldl (fun failed e => !e.isSuccess && (failed || e.isFailure)) false

def NeverTried (history : List HealthEvent) : Prop :=
  ∀ e ∈ history, ∃ now cfg seed, e = .tick now cfg seed

section Learning

/-- What the health of a route knows, given whether an attempt has ever succeeded and whether one
has failed since the last success. -/
structure Learnt (succeeded failing : Bool) (h : RouteHealth) : Prop where
  measured : h.isMeasured = succeeded
  success : h.window = [] → h.success = 0
  jitter : h.window = [] → h.jitterMs = 0
  total : 0 ≤ h.total
  connect : 0 ≤ h.connectCostMs
  failing : 0 < h.consecutiveFailures ↔ failing = true

theorem learnt_new : Learnt false false .new where
  measured := rfl
  success _ := rfl
  jitter _ := rfl
  total := by simp [RouteHealth.total, RouteHealth.new]
  connect := le_rfl
  failing := by simp [RouteHealth.new]

variable {math : FloatMath} {succeeded failing : Bool} {h h' : RouteHealth}

theorem Learnt.congr (hl : Learnt succeeded failing h) (hsuccess : h'.success = h.success)
    (htotal : h'.total = h.total) (hjitter : h'.jitterMs = h.jitterMs)
    (hwindow : h'.window = h.window) (hconnect : h'.connectCostMs = h.connectCostMs)
    (hfailures : h'.consecutiveFailures = h.consecutiveFailures) :
    Learnt succeeded failing h' where
  measured := by
    unfold RouteHealth.isMeasured
    rw [hwindow]
    exact hl.measured
  success := by rw [hwindow, hsuccess]; exact hl.success
  jitter := by rw [hwindow, hjitter]; exact hl.jitter
  total := by rw [htotal]; exact hl.total
  connect := by rw [hconnect]; exact hl.connect
  failing := by rw [hfailures]; exact hl.failing

theorem scale_total (h : RouteHealth) (factor : ℚ) : (h.scale factor).total = h.total * factor := by
  simp only [RouteHealth.scale, RouteHealth.total]
  ring

theorem Learnt.decay (hl : Learnt succeeded failing h) (now : Nat) :
    Learnt succeeded failing (h.decay math now) := by
  unfold RouteHealth.decay
  split
  · exact hl
  · split
    · exact hl
    · refine ⟨hl.measured, ?_, hl.jitter, ?_, hl.connect, hl.failing⟩
      · intro hw
        change h.success * _ = 0
        rw [hl.success hw, zero_mul]
      · rw [scale_total]
        exact mul_nonneg hl.total (math.pow_nonneg _ _ (by norm_num))

theorem Learnt.recordConnect (hl : Learnt succeeded failing h) (cost : Nat) :
    Learnt succeeded failing (h.recordConnect cost) := by
  refine ⟨hl.measured, hl.success, hl.jitter, hl.total, ?_, hl.failing⟩
  have hcost : 0 ≤ millis cost := by
    unfold millis
    positivity
  have hconnect := hl.connect
  change 0 ≤ ite _ _ _
  split
  · exact hcost
  · positivity

theorem sample_window_ne (h : RouteHealth) (ms : ℚ) : (h.sample ms).window ≠ [] := by
  change ite _ _ _ ≠ []
  split
  · rename_i hpos
    intro hnil
    rw [List.set_eq_nil_iff] at hnil
    rw [hnil] at hpos
    exact absurd hpos (Nat.not_lt_zero _)
  · simp

section

variable (hl : Learnt succeeded failing h)
include hl

theorem Learnt.tally (recorded : Recorded) :
    Learnt (succeeded || decide (recorded.outcome = .success))
      (!decide (recorded.outcome = .success) && (failing || decide (recorded.outcome ≠ .success)))
      (h.tally recorded.outcome recorded.latency) := by
  obtain ⟨outcome, latency, htimed⟩ := recorded
  -- A failure adds one to a counter of its own and to the streak.
  have hfailed (h' : RouteHealth) (hsuccess : h'.success = h.success)
      (hjitter : h'.jitterMs = h.jitterMs) (hwindow : h'.window = h.window)
      (hconnect : h'.connectCostMs = h.connectCostMs)
      (htotal : h'.total = h.total + 1)
      (hstreak : h'.consecutiveFailures = satSucc h.consecutiveFailures) :
      Learnt succeeded true h' := by
    refine ⟨?_, ?_, ?_, ?_, ?_, ?_⟩
    · unfold RouteHealth.isMeasured
      rw [hwindow]
      exact hl.measured
    · rw [hwindow, hsuccess]
      exact hl.success
    · rw [hwindow, hjitter]
      exact hl.jitter
    · rw [htotal]
      linarith [hl.total]
    · rw [hconnect]
      exact hl.connect
    · rw [hstreak]
      simp [satSucc_pos]
  cases outcome with
  | success =>
    cases latency with
    | none => exact absurd rfl (htimed rfl)
    | some d =>
      have hne := sample_window_ne { h with success := h.success + 1, consecutiveFailures := 0 }
        (millis d)
      refine ⟨?_, fun hw => absurd hw hne, fun hw => absurd hw hne, ?_, hl.connect, ?_⟩
      · rw [decide_eq_true rfl, Bool.or_true]
        exact decide_eq_true hne
      · have htotal := hl.total
        simp only [RouteHealth.total] at htotal
        change 0 ≤ h.success + 1 + h.timeout + h.serverFailure + h.malformed + h.transportError
        linarith
      · simp [RouteHealth.tally, RouteHealth.sample]
  | timeout | serverFailure | malformed | transportError =>
    simpa using hfailed (h.tally _ latency) rfl rfl rfl rfl
      (by simp only [RouteHealth.tally, RouteHealth.total]; ring) rfl

theorem Learnt.updateCircuit {outcome : AttemptOutcome}
    (hsuccess : outcome = .success → h.consecutiveFailures = 0) (now : Nat) (cfg : CircuitConfig) :
    Learnt succeeded failing (h.updateCircuit outcome now cfg) := by
  unfold RouteHealth.updateCircuit
  split
  · split_ifs <;> exact hl.congr rfl rfl rfl rfl rfl rfl
  · split_ifs <;> exact hl.congr rfl rfl rfl rfl rfl rfl
  · exact hl
  · by_cases ho : outcome = .success
    · simp only [ho, ne_eq, not_true_eq_false, if_false]
      split
      · exact hl.congr rfl rfl rfl rfl rfl (hsuccess ho).symm
      · exact hl.congr rfl rfl rfl rfl rfl rfl
    · rw [if_pos ho]
      exact hl.congr rfl rfl rfl rfl rfl rfl

theorem Learnt.tick (now : Nat) (cfg : CircuitConfig) (seed : UInt64) :
    Learnt succeeded failing (h.tick now cfg seed) := by
  unfold RouteHealth.tick
  split
  · exact hl
  · split
    · exact hl.congr rfl rfl rfl rfl rfl rfl
    · split <;> exact hl.congr rfl rfl rfl rfl rfl rfl

theorem Learnt.apply (e : HealthEvent) :
    Learnt (succeeded || e.isSuccess) (!e.isSuccess && (failing || e.isFailure))
      (e.apply math h) := by
  cases e with
  | record recorded now cfg =>
    have hdecay : Learnt succeeded failing (h.decay math now) := hl.decay now
    have htally := hdecay.tally recorded
    have hstamped : Learnt _ _ { (h.decay math now).tally recorded.outcome recorded.latency with
        lastUpdate := some now } := htally.congr rfl rfl rfl rfl rfl rfl
    apply hstamped.updateCircuit
    intro ho
    rw [ho]
    cases recorded.latency <;> rfl
  | connect cost =>
    simpa [HealthEvent.apply, HealthEvent.isSuccess, HealthEvent.isFailure] using hl.recordConnect cost
  | tick now cfg seed =>
    simpa [HealthEvent.apply, HealthEvent.isSuccess, HealthEvent.isFailure] using hl.tick now cfg seed
  | begun =>
    have hb : Learnt succeeded failing h.beginAttempt := by
      unfold RouteHealth.beginAttempt
      split
      · exact hl.congr rfl rfl rfl rfl rfl rfl
      · exact hl
    simpa [HealthEvent.apply, HealthEvent.isSuccess, HealthEvent.isFailure] using hb
  | released =>
    have hr : Learnt succeeded failing h.releaseAttempt := hl.congr rfl rfl rfl rfl rfl rfl
    simpa [HealthEvent.apply, HealthEvent.isSuccess, HealthEvent.isFailure] using hr

end

theorem Learnt.foldl (history : List HealthEvent) (hl : Learnt succeeded failing h) :
    Learnt (succeeded || history.any HealthEvent.isSuccess)
      (history.foldl (fun failed e => !e.isSuccess && (failed || e.isFailure)) failing)
      (history.foldl (HealthEvent.apply math) h) := by
  induction history generalizing succeeded failing h with
  | nil => simpa using hl
  | cons e history ih =>
    rw [List.any_cons, ← Bool.or_assoc]
    exact ih (hl.apply e)

theorem learnt_healthAfter (math : FloatMath) (history : List HealthEvent) :
    Learnt (history.any HealthEvent.isSuccess) (failedSinceSuccess history)
      (healthAfter math history) := by
  simpa [failedSinceSuccess, healthAfter] using Learnt.foldl (h := .new) history learnt_new

theorem tick_of_not_opened {h : RouteHealth} (hc : h.circuit ≠ .opened) (now : Nat)
    (cfg : CircuitConfig) (seed : UInt64) : h.tick now cfg seed = h :=
  if_pos hc

theorem healthAfter_of_neverTried {history : List HealthEvent} (hn : NeverTried history) :
    healthAfter math history = .new := by
  induction history with
  | nil => rfl
  | cons e history ih =>
    obtain ⟨now, cfg, seed, rfl⟩ := hn e List.mem_cons_self
    have hnew : HealthEvent.apply math .new (.tick now cfg seed) = .new :=
      tick_of_not_opened (by decide) now cfg seed
    change history.foldl _ (HealthEvent.apply math .new (.tick now cfg seed)) = _
    rw [hnew]
    exact ih fun e he => hn e (List.mem_cons_of_mem _ he)

/-- Left to its own score, a route that has only failed costs more than an untried one: one
failure adds 50 to the score, and the uncertainty of an untried route is below 40. -/
theorem score_new_lt (hl : Learnt false true h) (weight : Nat) :
    RouteHealth.new.score math weight < h.score math weight := by
  have hwindow : h.window = [] := by
    simpa [RouteHealth.isMeasured] using hl.measured
  have htotal := hl.total
  have hhalf : h.successProbability ≤ 1 / 2 := by
    unfold RouteHealth.successProbability
    split
    · exact le_rfl
    · rw [hl.success hwindow, zero_add]
      exact one_div_le_one_div_of_le (by norm_num) (by linarith)
  have hstreak : 50 ≤ h.streak math := by
    have hpos := hl.failing.mpr rfl
    unfold RouteHealth.streak
    rw [if_neg (Nat.pos_iff_ne_zero.mp hpos)]
    have hpow := math.one_le_pow (min h.consecutiveFailures 8 : Nat) (8 / 5)
      (by exact_mod_cast Nat.le_min.mpr ⟨hpos, by norm_num⟩) (by norm_num)
    linarith
  have hunc : 0 ≤ h.uncertainty math := math.sqrt_nonneg _
  have hnew : RouteHealth.new.uncertainty math ≤ 1 := by
    apply math.sqrt_le_one
    simp [RouteHealth.successProbability, RouteHealth.total, RouteHealth.new]
    norm_num
  have hscore : RouteHealth.new.score math weight =
      50 + 300 + RouteHealth.new.uncertainty math * 40 + weightBias weight := by
    simp [RouteHealth.score, RouteHealth.p95Ms, RouteHealth.percentile, RouteHealth.streak,
      RouteHealth.successProbability, RouteHealth.total, RouteHealth.new]
    norm_num
  have hscore' : h.score math weight = 50 + (1 - h.successProbability) * 600 + h.streak math +
      h.uncertainty math * 40 + h.connectCostMs * (1 / 2) + weightBias weight := by
    simp [RouteHealth.score, RouteHealth.p95Ms, RouteHealth.percentile, hwindow,
      hl.jitter hwindow]
  rw [hscore, hscore']
  linarith [hl.connect]

end Learning

/-- The breaker keeps a route out: its circuit is open and the wait is not over, or it is half open
and the one probe it allows is out. -/
def circuitExcludes (h : RouteHealth) (now : Nat) (cfg : CircuitConfig) (seed : UInt64) : Bool :=
  match h.circuit with
  | .closed | .suspect => false
  | .halfOpen => decide (h.halfOpenInflight ≠ 0)
  | .opened =>
    match h.circuitChangedAt with
    | none => true
    | some changed => decide ((now - changed : Nat) < RouteHealth.openWait cfg seed)

theorem isUsable_tick (h : RouteHealth) (now : Nat) (cfg : CircuitConfig) (seed : UInt64) :
    (h.tick now cfg seed).isUsable = !circuitExcludes h now cfg seed := by
  cases hc : h.circuit with
  | closed | suspect | halfOpen =>
    rw [tick_of_not_opened (by rw [hc]; decide)]
    simp [RouteHealth.isUsable, circuitExcludes, hc]
  | opened =>
    cases ht : h.circuitChangedAt with
    | none => simp [RouteHealth.tick, RouteHealth.isUsable, circuitExcludes, hc, ht]
    | some changed =>
      by_cases hw : RouteHealth.openWait cfg seed ≤ (now - changed : Nat)
      · simp [RouteHealth.tick, RouteHealth.isUsable, circuitExcludes, hc, ht, hw]
      · simp [RouteHealth.tick, RouteHealth.isUsable, circuitExcludes, hc, ht, hw, not_le.mp hw]

end EgressDns
