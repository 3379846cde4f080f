import Mathlib.Algebra.Order.Group.Nat
import Mathlib.Data.List.Count

/-!
# Probe outcomes and the health of the probe subsystem

How an HTTPS probe can end (`probe/http.rs` under the deadline of `run_https`), and the counter of
`SubsystemHealth` that decides whether a failure is held against the address.
-/

namespace EgressDns

inductive ProbeError where
  | policyBlocked (reason : String)
  | connect (detail : String)
  | tls (detail : String)
  | http (detail : String)
  | quic (detail : String)
  | timeout
  | unsupported (what : String)
  deriving DecidableEq, Repr

inductive ObservationClass where
  | success | applicableFailure | ambiguousFailure | unsupported | timeout | policyBlocked
  deriving DecidableEq, Repr

def ObservationClass.isPenalising (c : ObservationClass) : Bool :=
  decide (c = .applicableFailure ∨ c = .timeout)

structure HttpProbeOutcome where
  tcp : Nat
  tls : Nat
  ttfb : Nat
  status : Nat
  alpn : Option String
  headers : List (String × String)
  body : List UInt8
  deriving DecidableEq, Repr

inductive StageEnd where
  | done
  | timedOut
  | failed (detail : String)
  deriving DecidableEq, Repr

def StageEnd.result (error : String → ProbeError) : StageEnd → Except ProbeError Unit
  | .done => .ok ()
  | .timedOut => .error .timeout
  | .failed detail => .error (error detail)

/-- What each stage of one probe ends in; `overran` if the overall deadline cuts it off. -/
structure Pipeline where
  overran : Bool
  tcp : StageEnd
  tls : StageEnd
  request : StageEnd
  handshake : StageEnd
  exchange : StageEnd
  outcome : HttpProbeOutcome

def Pipeline.probe (p : Pipeline) : Except ProbeError HttpProbeOutcome := do
  p.tcp.result .connect
  p.tls.result .tls
  p.request.result .http
  p.handshake.result .http
  p.exchange.result .http
  .ok p.outcome

def Pipeline.run (p : Pipeline) : Except ProbeError HttpProbeOutcome :=
  if p.overran then .error (.connect "probe deadline exceeded") else p.probe

structure SubsystemHealth where
  healthy : Bool
  consecutiveFailures : Nat
  threshold : Nat
  deriving DecidableEq, Repr

namespace SubsystemHealth

def new (threshold : Nat) : SubsystemHealth where
  healthy := true
  consecutiveFailures := 0
  threshold := max threshold 4

def recordSuccess (h : SubsystemHealth) : SubsystemHealth :=
  { h with healthy := true, consecutiveFailures := 0 }

def recordFailure (h : SubsystemHealth) : SubsystemHealth :=
  { h with
    consecutiveFailures := h.consecutiveFailures + 1
    healthy := h.healthy && decide (h.consecutiveFailures + 1 < h.threshold) }

def classify (h : SubsystemHealth) (error : ProbeError) : ObservationClass :=
  if !h.healthy then .ambiguousFailure
  else
    match error with
    | .policyBlocked _ => .policyBlocked
    | .unsupported _ => .unsupported
    | .timeout => .timeout
    | .connect _ | .tls _ | .http _ => .applicableFailure
    | .quic _ => .unsupported

/-- The end of `run_https`: the class recorded for the HTTPS series, and the health afterwards.
Any answer counts as a success of the subsystem, whether the profile accepts it or not. -/
def judge (accepts : HttpProbeOutcome → Bool) (h : SubsystemHealth) :
    Except ProbeError HttpProbeOutcome → SubsystemHealth × ObservationClass
  | .ok outcome =>
    (h.recordSuccess, if accepts outcome then .success else .applicableFailure)
  | .error error =>
    let cls := h.classify error
    (if cls = .applicableFailure then h.recordFailure else h, cls)

def after (accepts : HttpProbeOutcome → Bool) (h : SubsystemHealth)
    (results : List (Except ProbeError HttpProbeOutcome)) : SubsystemHealth :=
  results.foldl (fun h r => (h.judge accepts r).1) h

def recorded (accepts : HttpProbeOutcome → Bool) (h : SubsystemHealth) :
    List (Except ProbeError HttpProbeOutcome) → List ObservationClass
  | [] => []
  | r :: rs => (h.judge accepts r).2 :: recorded accepts (h.judge accepts r).1 rs

end SubsystemHealth

/-- A failure for transport reasons: connect, TLS or HTTP, or a timeout at any stage. -/
def ProbeError.isTransport : ProbeError → Bool
  | .connect _ | .tls _ | .http _ | .timeout => true
  | _ => false

def ProbeError.isRefusal : ProbeError → Bool
  | .connect _ | .tls _ | .http _ => true
  | _ => false

section Poisoning

variable {accepts : HttpProbeOutcome → Bool} {h : SubsystemHealth}

theorem classify_applicable_iff {error : ProbeError} :
    h.classify error = .applicableFailure ↔ h.healthy = true ∧ error.isRefusal = true := by
  unfold SubsystemHealth.classify
  cases h.healthy <;> cases error <;> simp [ProbeError.isRefusal]

theorem judge_error (error : ProbeError) :
    (h.judge accepts (.error error)).1 =
      if h.healthy = true ∧ error.isRefusal = true then h.recordFailure else h := by
  change (if h.classify error = .applicableFailure then _ else _) = _
  simp only [classify_applicable_iff]

theorem after_cons (r : Except ProbeError HttpProbeOutcome)
    (rs : List (Except ProbeError HttpProbeOutcome)) :
    h.after accepts (r :: rs) = (h.judge accepts r).1.after accepts rs := rfl

theorem after_unhealthy (hh : h.healthy = false) (failures : List ProbeError) :
    h.after accepts (failures.map Except.error) = h := by
  induction failures with
  | nil => rfl
  | cons error failures ih =>
    have hstep : (h.judge accepts (.error error)).1 = h := by
      rw [judge_error, if_neg (by simp [hh])]
    rw [List.map_cons, after_cons, hstep]
    exact ih

theorem recorded_unhealthy (hh : h.healthy = false) (failures : List ProbeError) :
    ∀ c ∈ h.recorded accepts (failures.map Except.error), c.isPenalising = false := by
  induction failures with
  | nil => nofun
  | cons error failures ih =>
    have hstep : (h.judge accepts (.error error)).1 = h := by
      rw [judge_error, if_neg (by simp [hh])]
    have hclass : (h.judge accepts (.error error)).2 = .ambiguousFailure := by
      simp [SubsystemHealth.judge, SubsystemHealth.classify, hh]
    intro c hc
    rw [List.map_cons, SubsystemHealth.recorded, hstep, hclass] at hc
    rcases List.mem_cons.mp hc with rfl | hc
    · rfl
    · exact ih c hc

/-- Along failures alone the subsystem stays healthy as long as the refusals are below the
threshold. -/
theorem after_failures {threshold count : Nat} (failures : List ProbeError)
    (hcount : count < threshold) :
    (SubsystemHealth.after accepts
      { healthy := true, consecutiveFailures := count, threshold }
      (failures.map Except.error)).healthy =
      decide (count + failures.countP ProbeError.isRefusal < threshold) := by
  induction failures generalizing count with
  | nil => simpa [SubsystemHealth.after] using hcount
  | cons error failures ih =>
    rw [List.map_cons, after_cons, judge_error, List.countP_cons]
    cases hr : error.isRefusal
    · simpa using ih hcount
    · by_cases hnext : count + 1 < threshold
      · simpa [SubsystemHealth.recordFailure, hnext, Nat.add_assoc, Nat.add_comm 1] using ih hnext
      · have hfailed : (SubsystemHealth.after accepts
            { healthy := false, consecutiveFailures := count + 1, threshold }
            (failures.map Except.error)).healthy = false := by
          rw [after_unhealthy rfl]
        have hover : ¬ count + (failures.countP ProbeError.isRefusal + 1) < threshold := by
          omega
        simpa [SubsystemHealth.recordFailure, hnext, hover] using hfailed

theorem after_append (results more : List (Except ProbeError HttpProbeOutcome)) :
    h.after accepts (results ++ more) = (h.after accepts results).after accepts more :=
  List.foldl_append

theorem after_threshold (results : List (Except ProbeError HttpProbeOutcome)) :
    (h.after accepts results).threshold = h.threshold := by
  induction results generalizing h with
  | nil => rfl
  | cons r results ih =>
    rw [after_cons, ih]
    cases r with
    | ok outcome => rfl
    | error error =>
      rw [judge_error]
      split <;> rfl

theorem after_fresh {threshold : Nat} {before : List (Except ProbeError HttpProbeOutcome)}
    (hb : before = [] ∨ ∃ earlier outcome, before = earlier ++ [.ok outcome]) :
    (SubsystemHealth.new threshold).after accepts before = .new threshold := by
  rcases hb with rfl | ⟨earlier, outcome, rfl⟩
  · rfl
  · have ht : ((SubsystemHealth.new threshold).after accepts earlier).threshold =
        max threshold 4 := after_threshold earlier
    rw [after_append]
    change ((SubsystemHealth.new threshold).after accepts earlier).recordSuccess = _
    unfold SubsystemHealth.recordSuccess
    rw [ht]
    rfl

/-- After any results up to a success and then failures only, the subsystem is unhealthy and holds
no further failure against an address just when enough of the failures were refusals. -/
theorem broken_path_unpoisoned_iff (accepts : HttpProbeOutcome → Bool) (threshold : Nat)
    {before : List (Except ProbeError HttpProbeOutcome)}
    (hb : before = [] ∨ ∃ earlier outcome, before = earlier ++ [.ok outcome])
    (failures : List ProbeError) :
    (((SubsystemHealth.new threshold).after accepts
        (before ++ failures.map Except.error)).healthy = false ∧
      ∀ further : List ProbeError, ∀ c ∈ ((SubsystemHealth.new threshold).after accepts
        (before ++ failures.map Except.error)).recorded accepts (further.map Except.error),
        c.isPenalising = false) ↔
    max threshold 4 ≤ failures.countP ProbeError.isRefusal := by
  rw [after_append, after_fresh hb]
  have hhealthy : ((SubsystemHealth.new threshold).after accepts
      (failures.map Except.error)).healthy =
      decide (0 + failures.countP ProbeError.isRefusal < max threshold 4) :=
    after_failures failures (by omega)
  constructor
  · rintro ⟨hun, -⟩
    rw [hhealthy] at hun
    simpa using hun
  · intro hle
    have hun : ((SubsystemHealth.new threshold).after accepts
        (failures.map Except.error)).healthy = false := by
      rw [hhealthy]
      simpa using hle
    exact ⟨hun, fun further => recorded_unhealthy hun further⟩

end Poisoning

/-! A path on which every connection attempt times out, and one on which every one is refused. -/

def plainOutcome : HttpProbeOutcome where
  tcp := 0
  tls := 0
  ttfb := 0
  status := 200
  alpn := some "h2"
  headers := []
  body := []

def silentPath : Pipeline where
  overran := false
  tcp := .timedOut
  tls := .done
  request := .done
  handshake := .done
  exchange := .done
  outcome := plainOutcome

theorem broken_path_unpoisoned_refused :
    ((SubsystemHealth.new 8).after (fun _ => true)
      ([] ++ (List.replicate 8 (ProbeError.connect "refused")).map Except.error)).healthy = false ∧
    ∀ further : List ProbeError, ∀ c ∈ ((SubsystemHealth.new 8).after (fun _ => true)
      ([] ++ (List.replicate 8 (ProbeError.connect "refused")).map Except.error)).recorded
        (fun _ => true) (further.map Except.error), c.isPenalising = false :=
  (broken_path_unpoisoned_iff (fun _ => true) 8 (.inl rfl)
    (List.replicate 8 (.connect "refused"))).mpr (by decide)

/-- Twenty timeouts in a row under the shipped threshold of eight: the subsystem is still healthy,
and each timeout is held against its address. -/
theorem silent_path_poisons :
    silentPath.run = .error .timeout ∧ ProbeError.timeout.isTransport = true ∧
    ((SubsystemHealth.new 8).after (fun _ => true)
      (List.replicate 20 silentPath.run)).healthy = true ∧
    ∀ c ∈ (SubsystemHealth.new 8).recorded (fun _ => true) (List.replicate 20 silentPath.run),
      c.isPenalising = true := by
  refine ⟨rfl, rfl, ?_, ?_⟩ <;> decide +kernel

end EgressDns
