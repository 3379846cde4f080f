import EgressDns.Lib.Maps
import EgressDns.Probe.Health
import EgressDns.Ranking.Order
import EgressDns.Upstream.Health

/-!
# Quality statistics and their store

`ranking/model.rs` and `ranking/store.rs`, with exact rationals for `f64`. A series also carries
the probes whose observations it has taken in since it was last demoted, as values of an arbitrary
type; the code keeps nothing of the kind, and nothing is decided by it.
-/

namespace EgressDns

open Lib

/-- What the statistics read of `[ranking]`; durations are nanoseconds. -/
structure EvidenceConfig extends RankingConfig where
  evidenceHalfLife : Nat
  sampleMaxAge : Nat
  tailWeight : ℚ
  jitterWeight : ℚ
  failurePenaltyMs : ℚ
  consecutiveFailureBase : ℚ
  uncertaintyPenaltyMs : ℚ
  staleSamplePenaltyMs : ℚ

def EvidenceConfig.shipped : EvidenceConfig where
  enabled := true
  neutralCostMs := 120
  hysteresis := 12 / 100
  minSuccessesToLead := 3
  explorationRate := 2 / 100
  evidenceHalfLife := 3600 * 10 ^ 9
  sampleMaxAge := 1800 * 10 ^ 9
  tailWeight := 35 / 100
  jitterWeight := 25 / 100
  failurePenaltyMs := 400
  consecutiveFailureBase := 18 / 10
  uncertaintyPenaltyMs := 60
  staleSamplePenaltyMs := 40

structure QualityStats (P : Type) where
  alpha : ℚ
  beta : ℚ
  ewmaMs : ℚ
  jitterMs : ℚ
  window : List ℚ
  windowPos : Nat
  consecutiveFailures : Nat
  samples : Nat
  successes : Nat
  lastUpdate : Option Nat
  lastSuccess : Option Nat
  generation : Nat
  evidence : List P
  deriving DecidableEq

namespace QualityStats

variable {P : Type}

def windowSize : Nat := 16

def new (generation : Nat) : QualityStats P where
  alpha := 1
  beta := 1
  ewmaMs := 0
  jitterMs := 0
  window := []
  windowPos := 0
  consecutiveFailures := 0
  samples := 0
  successes := 0
  lastUpdate := none
  lastSuccess := none
  generation := generation
  evidence := []

variable (math : FloatMath) (cfg : EvidenceConfig) (s : QualityStats P)

def hasApplicableEvidence : Bool :=
  decide (0 < s.samples) && (decide (0 < s.successes) || decide (0 < s.consecutiveFailures))

def percentile (q : ℚ) : ℚ :=
  let sorted := s.window.insertionSort (· ≤ ·)
  sorted.getD (min (max ⌈q * sorted.length⌉₊ 1) sorted.length - 1) 0

def weaken (factor : ℚ) : QualityStats P :=
  { s with alpha := 1 + (s.alpha - 1) * factor, beta := 1 + (s.beta - 1) * factor }

variable (cls : ObservationClass) (now : Nat)

def decay : QualityStats P :=
  match s.lastUpdate with
  | none => s
  | some last =>
    if now - last = 0 then s
    else s.weaken (math.pow (1 / 2)
      (((now - last : Nat) : ℚ) / (max cfg.evidenceHalfLife (10 ^ 9) : Nat)))

def recordSuccess (latency : Nat) (now : Nat) : QualityStats P :=
  let s := s.decay math cfg now
  let ms := millis latency
  { s with
    jitterMs :=
      if s.window = [] then s.jitterMs else 3 / 4 * s.jitterMs + 1 / 4 * |ms - s.ewmaMs|
    ewmaMs := if s.window = [] then ms else 3 / 4 * s.ewmaMs + 1 / 4 * ms
    window :=
      if s.windowPos < s.window.length then s.window.set s.windowPos ms else s.window ++ [ms]
    windowPos := (s.windowPos + 1) % windowSize
    alpha := s.alpha + 1
    samples := satSucc s.samples
    successes := satSucc s.successes
    consecutiveFailures := 0
    lastUpdate := some now
    lastSuccess := some now }

def recordFailure : QualityStats P :=
  let s := s.decay math cfg now
  { s with
    samples := satSucc s.samples
    beta := if cls.isPenalising then s.beta + 1 else s.beta
    consecutiveFailures :=
      if cls.isPenalising then satSucc s.consecutiveFailures else s.consecutiveFailures
    lastUpdate := some now }

def record (latency : Option Nat) (now : Nat) (by_ : P) : QualityStats P :=
  let s := if cls = .success then s.recordSuccess math cfg (latency.getD 0) now
    else s.recordFailure math cfg cls now
  { s with evidence := by_ :: s.evidence }

def successProbabilityLowerBound : ℚ :=
  let n := s.alpha + s.beta
  min (max (s.alpha / n - math.sqrt (s.alpha * s.beta / (n * n * (n + 1)))) 0) 1

def uncertainty : ℚ :=
  let n := s.alpha + s.beta
  min (max (math.sqrt (s.alpha * s.beta / (n * n * (n + 1)))) 0) 1

def expectedCost : ℚ :=
  if s.samples = 0 then cfg.neutralCostMs
  else
    let base := if s.successes = 0 then cfg.neutralCostMs else s.ewmaMs
    let tail := cfg.tailWeight * s.percentile (95 / 100)
    let jitter := cfg.jitterWeight * s.jitterMs
    let failure := (1 - s.successProbabilityLowerBound math) * cfg.failurePenaltyMs
    let streak :=
      if s.consecutiveFailures = 0 then 0
      else cfg.failurePenaltyMs * cfg.consecutiveFailureBase ^ min s.consecutiveFailures 8 / 8
    let unsure := s.uncertainty math * cfg.uncertaintyPenaltyMs
    let stale :=
      match s.lastUpdate with
      | some t => if cfg.sampleMaxAge < now - t then cfg.staleSamplePenaltyMs else 0
      | none => 0
    base + tail + jitter + failure + streak + unsure + stale

def reading :
    QualityReading where
  applicable := s.hasApplicableEvidence
  expectedCost := s.expectedCost math cfg now
  successes := s.successes

/-- Another network: what was learnt stays as a weak prior only. The latency window stays too. -/
def demoteToPrior (newGeneration : Nat) (factor : ℚ) : QualityStats P :=
  let f := min (max factor 0) 1
  { s.weaken f with
    consecutiveFailures := 0
    samples := ⌊s.samples * f⌋₊
    successes := ⌊s.successes * f⌋₊
    generation := newGeneration
    evidence := [] }

theorem decay_frame :
    (s.decay math cfg now).generation = s.generation ∧
      (s.decay math cfg now).evidence = s.evidence := by
  unfold decay
  split
  · exact ⟨rfl, rfl⟩
  · split_ifs
    · exact ⟨rfl, rfl⟩
    · exact ⟨rfl, rfl⟩

theorem record_frame (latency : Option Nat) (now : Nat) (p : P) :
    (s.record math cfg cls latency now p).generation = s.generation ∧
      (s.record math cfg cls latency now p).evidence = p :: s.evidence := by
  obtain ⟨hgeneration, hevidence⟩ := decay_frame math cfg s now
  rw [← hgeneration, ← hevidence]
  unfold record
  by_cases h : cls = .success
  · simp only [if_pos h]
    exact ⟨rfl, rfl⟩
  · simp only [if_neg h]
    exact ⟨rfl, rfl⟩

end QualityStats

inductive ProbeProfile where
  | https (hostname : List UInt8)
  | generic
  | quic
  deriving DecidableEq, Repr

structure ProbeKey where
  addr : IpAddr
  port : UInt16
  profile : ProbeProfile
  deriving DecidableEq

variable (addr : IpAddr) (port : UInt16)

def ProbeKey.https (hostname : List UInt8) : ProbeKey :=
  { addr, port, profile := .https (trimEndDots hostname) }

def ProbeKey.generic : ProbeKey :=
  { addr, port, profile := .generic }

def ProbeKey.quic : ProbeKey :=
  { addr, port, profile := .quic }

/-- The order of the entries is the order the map is iterated in. -/
structure QualityStore (P : Type) where
  entries : Map ProbeKey (QualityStats P)
  capacity : Nat

namespace QualityStore

variable {P : Type}

def new (capacity : Nat) : QualityStore P where
  entries := ∅
  capacity := max capacity 1

def evict (entries : Map ProbeKey (QualityStats P)) (count : Nat) :
    Map ProbeKey (QualityStats P) :=
  let victims := (entries.entries.insertionSort fun a b => a.2.samples ≤ b.2.samples).take count
  entries.eraseAll (victims.map Sigma.fst)

variable (st : QualityStore P)

def makeRoom (key : ProbeKey) : Map ProbeKey (QualityStats P) :=
  if decide (st.capacity ≤ st.entries.entries.length) && !decide (key ∈ st.entries) then
    evict st.entries (st.capacity / 16 + 1)
  else st.entries

def seriesFor (cfg : EvidenceConfig) (entries : Map ProbeKey (QualityStats P))
    (key : ProbeKey) (generation : Nat) : QualityStats P :=
  let entry := (entries.lookup key).getD (.new generation)
  if entry.generation ≠ generation then
    entry.demoteToPrior generation (min cfg.neutralCostMs 1)
  else entry

def record (math : FloatMath) (cfg : EvidenceConfig) (st : QualityStore P) (key : ProbeKey)
    (cls : ObservationClass) (latency : Option Nat) (generation now : Nat) (by_ : P) :
    QualityStore P :=
  let entries := st.makeRoom key
  { st with
    entries := entries.insert key
      ((seriesFor cfg entries key generation).record math cfg cls latency now by_) }

/-- The statistics an answer is ordered by: those of the host, or else the generic ones. -/
def snapshotFor (port : UInt16) (hostname : List UInt8) (addr : IpAddr) : Option (QualityStats P) :=
  match st.entries.lookup (ProbeKey.https addr port hostname) with
  | some s => some s
  | none => st.entries.lookup (ProbeKey.generic addr port)

def onGenerationChange (generation : Nat) (factor : ℚ) : QualityStore P :=
  { st with entries := st.entries.mapValues fun s => s.demoteToPrior generation factor }

section Members

variable {φ : QualityStats P → Prop} {entries : Map ProbeKey (QualityStats P)} {st : QualityStore P}

theorem each_makeRoom (h : st.entries.Each φ) (key : ProbeKey) : (st.makeRoom key).Each φ := by
  unfold makeRoom
  split_ifs
  · exact Map.each_eraseAll h _
  · exact h

theorem seriesFor_spec (cfg : EvidenceConfig) (h : entries.Each φ) (key : ProbeKey) (generation : Nat) :
    (seriesFor cfg entries key generation).generation = generation ∧
      (φ (seriesFor cfg entries key generation) ∨
        (seriesFor cfg entries key generation).evidence = []) := by
  simp only [seriesFor]
  split_ifs with hgen
  · exact ⟨rfl, .inr rfl⟩
  · refine ⟨not_not.mp hgen, ?_⟩
    cases hl : entries.lookup key with
    | none => exact .inr rfl
    | some s => exact .inl (h key s hl)

end Members

end QualityStore

end EgressDns
