import EgressDns.Probe.Engine

/-!
# What a result changes

From the judgement of an outcome to the last write of `run_https`, taken by itself: what it does to
the candidates, to the domain validations and to the baseline of the host, and what a sequence of
results makes of a baseline.
-/

namespace EgressDns

/-- A worker takes its steps to the end while nothing else happens. -/
inductive Completes (math : FloatMath) (w : Worker) :
    EngineState → List WorkerStep → EngineState → Prop where
  | done (s : EngineState) : Completes math w s [] s
  | step {s t : EngineState} {step : WorkerStep} {input : WorkerInput}
      {r : EngineState × List WorkerStep} {rest : List WorkerStep}
      (hstep : perform math s w step input = some r)
      (hrest : Completes math w r.1 (r.2 ++ rest) t) : Completes math w s (step :: rest) t

def WorkerStep.waits : WorkerStep → Bool
  | .exchange _ _ _ _ | .handshake _ _ _ _ _ => true
  | _ => false

theorem perform_unprompted {math : FloatMath} {s : EngineState} {w : Worker} {step : WorkerStep}
    {input : WorkerInput} {r : EngineState × List WorkerStep} (hwaits : step.waits = false)
    (h : perform math s w step input = some r) : input = .go := by
  cases input with
  | go => rfl
  | answered outcome | handshaken latency | abort =>
    cases step <;> first | (cases h; done) | cases hwaits

def EngineState.noted (math : FloatMath) (s : EngineState) (now : Nat) (key : ProbeKey)
    (cls : ObservationClass) (latency : Option Nat) (span : Span) : EngineState :=
  match s.config with
  | none => s
  | some cfg =>
    { s with
      quality := s.quality.record math cfg.evidence key cls latency s.generation now span }

section Effects

variable {math : FloatMath} {w : Worker} {s t : EngineState} {rest : List WorkerStep}
  {key : ProbeKey} {cls : ObservationClass} {latency : Option Nat} {span : Span}

@[simp] theorem noted_pool : (s.noted math w.now key cls latency span).pool = s.pool := by
  unfold EngineState.noted
  cases s.config <;> rfl

@[simp] theorem noted_validations :
    (s.noted math w.now key cls latency span).validations = s.validations := by
  unfold EngineState.noted
  cases s.config <;> rfl

@[simp] theorem noted_nowUnix :
    (s.noted math w.now key cls latency span).nowUnix = s.nowUnix := by
  unfold EngineState.noted
  cases s.config <;> rfl

@[simp] theorem completes_nil : Completes math w s [] t ↔ t = s := by
  constructor
  · intro h
    cases h
    rfl
  · rintro rfl
    exact .done t

theorem completes_cons {step : WorkerStep} (r : EngineState × List WorkerStep)
    (hwaits : step.waits = false) (hgo : perform math s w step .go = some r) :
    Completes math w s (step :: rest) t ↔ Completes math w r.1 (r.2 ++ rest) t := by
  constructor
  · intro h
    cases h with
    | @step _ _ _ input _ _ hstep hrest =>
      cases perform_unprompted hwaits hstep
      cases hgo.symm.trans hstep
      exact hrest
  · exact fun h => .step hgo h

@[simp] theorem completes_store {cfg : EvidenceConfig} {generation : Nat} :
    Completes math w s (.store cfg generation key cls latency span :: rest) t ↔
      Completes math w
        { s with
          quality := s.quality.record math cfg key cls latency generation w.now span } rest t :=
  completes_cons (_, []) rfl rfl

@[simp] theorem completes_observe :
    Completes math w s (.observe key cls latency span :: rest) t ↔
      Completes math w (s.noted math w.now key cls latency span) rest t := by
  rw [completes_cons (s.observe key cls latency span) rfl rfl]
  cases hconfig : s.config with
  | none =>
    simp only [EngineState.observe, EngineState.noted, hconfig, List.nil_append]
  | some cfg =>
    simp only [EngineState.observe, EngineState.noted, hconfig, List.cons_append,
      List.nil_append, completes_store]

@[simp] theorem completes_setBaseline {host : List UInt8} {accepted : Bool} :
    Completes math w s (.setBaseline host accepted span :: rest) t ↔
      Completes math w
        { s with
          validations := s.validations.setBaseline host accepted s.nowUnix span } rest t :=
  completes_cons (_, []) rfl rfl

@[simp] theorem completes_recordValidation {host : List UInt8} {accepted : Bool} :
    Completes math w s (.recordValidation host accepted span :: rest) t ↔
      Completes math w
        { s with
          validations :=
            s.validations.recordValidation host w.job.addr accepted w.now span } rest t :=
  completes_cons (_, []) rfl rfl

@[simp] theorem completes_recordStage {stage : CandidateStage} {accepted : Bool} :
    Completes math w s (.recordStage stage accepted span :: rest) t ↔
      Completes math w
        { s with pool := s.pool.recordStage w.job.addr stage accepted w.now span } rest t :=
  completes_cons (_, []) rfl rfl

variable {cfg : EngineConfig} {host : List UInt8}

theorem completes_judge {outcome : Except ProbeError HttpProbeOutcome} :
    Completes math w s [.judge cfg host span outcome] t ↔
      Completes math w (s.judge w cfg host span outcome).1
        (s.judge w cfg host span outcome).2 t := by
  rw [completes_cons (s.judge w cfg host span outcome) rfl rfl, List.append_nil]

theorem exists_completes {todo : List WorkerStep} (hwrites : ∀ step ∈ todo,
    (∃ key cls latency span, step = .observe key cls latency span) ∨
    (∃ host accepted span, step = .setBaseline host accepted span) ∨
    (∃ host accepted span, step = .recordValidation host accepted span) ∨
    ∃ stage accepted span, step = .recordStage stage accepted span) :
    ∃ t, Completes math w s todo t := by
  induction todo generalizing s with
  | nil => exact ⟨s, .done s⟩
  | cons step rest ih =>
    have hrest := fun s => ih (s := s) fun step' h => hwrites step' (List.mem_cons_of_mem _ h)
    rcases hwrites step List.mem_cons_self with
      ⟨_, _, _, _, rfl⟩ | ⟨_, _, _, rfl⟩ | ⟨_, _, _, rfl⟩ | ⟨_, _, _, rfl⟩
    · simp only [completes_observe]
      exact hrest _
    · simp only [completes_setBaseline]
      exact hrest _
    · simp only [completes_recordValidation]
      exact hrest _
    · simp only [completes_recordStage]
      exact hrest _

theorem exists_completes_judge (outcome : Except ProbeError HttpProbeOutcome) :
    ∃ t, Completes math w s [.judge cfg host span outcome] t := by
  simp only [completes_judge]
  refine exists_completes (forall_judge ?_ ?_ ?_ ?_)
  · intro key cls latency
    exact .inl ⟨_, _, _, _, rfl⟩
  · intro accepted
    exact .inr (.inl ⟨_, _, _, rfl⟩)
  · intro accepted
    exact .inr (.inr (.inl ⟨_, _, _, rfl⟩))
  · intro stage accepted
    exact .inr (.inr (.inr ⟨_, _, _, rfl⟩))

theorem completes_observed {notes : List WorkerStep}
    (hnotes : ∀ step ∈ notes, ∃ key cls latency, step = .observe key cls latency span)
    (h : Completes math w s (notes ++ rest) t) :
    ∃ s', Completes math w s' rest t ∧ s'.pool = s.pool ∧ s'.validations = s.validations := by
  induction notes generalizing s with
  | nil => exact ⟨s, h, rfl, rfl⟩
  | cons step notes ih =>
    obtain ⟨key, cls, latency, rfl⟩ := hnotes step List.mem_cons_self
    rw [List.cons_append, completes_observe] at h
    obtain ⟨s', hrest, hpool, hvalidations⟩ :=
      ih (fun step' hstep => hnotes step' (List.mem_cons_of_mem _ hstep)) h
    exact ⟨s', hrest, hpool.trans noted_pool, hvalidations.trans noted_validations⟩

/-- What a failure does outside of the series: the streak always ends, and a validation counts it
only if it is applicable. -/
theorem completes_failed {error : ProbeError}
    (h : Completes math w s [.judge cfg host span (.error error)] t) :
    t.pool = s.pool.recordStage w.job.addr .new false w.now span ∧
    t.validations =
      if w.job.kind.intent = .validate ∧ s.health.classify error = .applicableFailure then
        s.validations.recordValidation host w.job.addr false w.now span
      else s.validations := by
  rw [completes_judge] at h
  change Completes math w _
    (EngineState.failedSteps w host error (s.health.classify error) span) t at h
  unfold EngineState.failedSteps at h
  rw [List.append_assoc _ _ [WorkerStep.recordStage .new false span]] at h
  obtain ⟨s', hrest, hpool, hvalidations⟩ := completes_observed (by
    intro step hstep
    rcases List.mem_append.mp hstep with hstep | hstep
    · exact ⟨_, _, _, List.mem_singleton.mp hstep⟩
    · split at hstep
      · exact ⟨_, _, _, List.mem_singleton.mp hstep⟩
      · exact ⟨_, _, _, List.mem_singleton.mp hstep⟩
      · cases hstep) h
  change s'.pool = s.pool at hpool
  change s'.validations = s.validations at hvalidations
  split at hrest
  · rename_i hcounts
    rw [List.cons_append, List.nil_append, completes_recordValidation, completes_recordStage,
      completes_nil] at hrest
    subst hrest
    rw [if_pos hcounts, ← hpool, ← hvalidations]
    exact ⟨rfl, rfl⟩
  · rename_i hcounts
    rw [List.nil_append, completes_recordStage, completes_nil] at hrest
    subst hrest
    rw [if_neg hcounts, ← hpool, ← hvalidations]
    exact ⟨rfl, rfl⟩

theorem completes_answered {o : HttpProbeOutcome} (hintent : w.job.kind.intent = .baseline)
    (h : Completes math w s [.judge cfg host span (.ok o)] t) :
    t.validations = s.validations.setBaseline host (cfg.accepts host o) s.nowUnix span := by
  rw [completes_judge] at h
  simp only [EngineState.judge, EngineState.answeredSteps, hintent,
    List.cons_append, List.nil_append, completes_observe, completes_setBaseline,
    completes_recordStage, completes_nil] at h
  subst h
  simp

end Effects

/-! A failure that is not held against the address. -/

def PoolCandidate.isEligible {P : Type} (c : PoolCandidate P) (minSuccesses : Nat) : Bool :=
  decide (c.stage = .httpOk) && decide (minSuccesses ≤ c.consecutiveSuccesses)

section Standing

variable {P : Type}

structure PoolCandidate.SameStanding (c d : PoolCandidate P) : Prop where
  stage : d.stage = c.stage
  streak : d.consecutiveSuccesses = c.consecutiveSuccesses
  eligible : ∀ minSuccesses, d.isEligible minSuccesses = c.isEligible minSuccesses

def CandidatePool.SameStanding (pool pool' : CandidatePool P) : Prop :=
  ∀ addr,
    Option.Rel PoolCandidate.SameStanding (pool.v4.lookup addr) (pool'.v4.lookup addr) ∧
    Option.Rel PoolCandidate.SameStanding (pool.v6.lookup addr) (pool'.v6.lookup addr)

theorem rel_refl (x : Option (PoolCandidate P)) : Option.Rel PoolCandidate.SameStanding x x := by
  cases x with
  | none => exact .none
  | some c => exact .some ⟨rfl, rfl, fun _ => rfl⟩

theorem rel_insert {m : Lib.Map IpAddr (PoolCandidate P)} {addr : IpAddr} {c d : PoolCandidate P}
    (hc : m.lookup addr = some c) (h : c.SameStanding d) (a : IpAddr) :
    Option.Rel PoolCandidate.SameStanding (m.lookup a) ((m.insert addr d).lookup a) := by
  by_cases ha : a = addr
  · rw [ha, hc, AList.lookup_insert]
    exact .some h
  · rw [AList.lookup_insert_ne ha]
    exact rel_refl _

theorem lookup_family_of_sameStanding {pool pool' : CandidatePool P}
    (h : pool.SameStanding pool') (addr : IpAddr) :
    Option.Rel PoolCandidate.SameStanding ((pool.family addr).lookup addr)
      ((pool'.family addr).lookup addr) := by
  unfold CandidatePool.family
  split_ifs
  · exact (h addr).1
  · exact (h addr).2

theorem sameStanding_recordStage_iff (pool : CandidatePool P) (addr : IpAddr)
    (stage : CandidateStage) (now : Nat) (p : P) :
    pool.SameStanding (pool.recordStage addr stage false now p) ↔
      ∀ c, (pool.family addr).lookup addr = some c → c.consecutiveSuccesses = 0 := by
  unfold CandidatePool.recordStage
  cases hc : (pool.family addr).lookup addr with
  | none =>
    simp only
    exact iff_of_true (fun a => ⟨rel_refl _, rel_refl _⟩) fun c h => nomatch h
  | some c =>
    simp only [Bool.false_eq_true, if_false, Option.some.injEq, forall_eq']
    constructor
    · intro hsame
      have hrel := lookup_family_of_sameStanding hsame addr
      rw [hc, CandidatePool.family_setFamily, AList.lookup_insert] at hrel
      cases hrel with
      | some h => exact h.streak.symm
    · intro hzero
      have hd : c.SameStanding
          { c with lastProbe := some now, evidence := p :: c.evidence, consecutiveSuccesses := 0 } :=
        ⟨rfl, hzero.symm, fun _ => by simp [PoolCandidate.isEligible, hzero]⟩
      unfold CandidatePool.setFamily CandidatePool.family at *
      intro a
      split_ifs at hc ⊢
      · exact ⟨rel_insert hc hd a, rel_refl _⟩
      · exact ⟨rel_refl _, rel_insert hc hd a⟩

end Standing

def ObservationClass.excuses (c : ObservationClass) : Bool :=
  decide (c = .policyBlocked ∨ c = .unsupported ∨ c = .ambiguousFailure)

/-- An observation by itself leaves candidates and validations alone; that is all that is left of a
probe the guard has refused, and of one over QUIC. A failed probe of an excused class always runs
to its end, and then the standing of every candidate and every validation is as before just if the
candidate at the address had no streak to lose. -/
theorem excused_unchanged_iff (math : FloatMath) (s : EngineState) (w : Worker)
    (cfg : EngineConfig) (host : List UInt8) (span : Span) (error : ProbeError)
    (hcls : (s.health.classify error).excuses = true) :
    (∀ key cls latency t, Completes math w s [.observe key cls latency span] t →
      s.pool.SameStanding t.pool ∧ t.validations = s.validations) ∧
    (∃ t, Completes math w s [.judge cfg host span (.error error)] t) ∧
    ∀ t, Completes math w s [.judge cfg host span (.error error)] t →
      (s.pool.SameStanding t.pool ∧ t.validations = s.validations ↔
        ∀ c, (s.pool.family w.job.addr).lookup w.job.addr = some c →
          c.consecutiveSuccesses = 0) := by
  refine ⟨?_, exists_completes_judge _, ?_⟩
  · intro key cls latency t h
    rw [completes_observe, completes_nil] at h
    subst h
    rw [noted_pool, noted_validations]
    exact ⟨fun a => ⟨rel_refl _, rel_refl _⟩, rfl⟩
  · intro t h
    obtain ⟨hpool, hvalidations⟩ := completes_failed h
    have hexcused : s.health.classify error ≠ .applicableFailure := by
      intro happlicable
      rw [happlicable] at hcls
      exact absurd hcls (by decide)
    rw [if_neg fun hc => hexcused hc.2] at hvalidations
    rw [hpool, and_iff_left hvalidations]
    exact sameStanding_recordStage_iff _ _ _ _ _

/-- 104.16.0.1 has passed a probe and 104.16.0.2 none yet; the subsystem has since been found
unhealthy. -/
def strandedState : EngineState :=
  { (edgeEngine .shipped).shared with
    health := { healthy := false, consecutiveFailures := 8, threshold := 8 }
    pool := (((CandidatePool.new 16).admission edgeAddr .dnsAnswer (some edgePrefixes) 1 0
      none).1.admission (.v4 0x68100002) .dnsAnswer (some edgePrefixes) 1 0
      none).1.recordStage edgeAddr .httpOk true 0 ⟨1, 1⟩ }

def strandedWorker (addr : IpAddr) : Worker :=
  { job := { kind := .candidate, addr, port := 443, generation := 1 }, now := 1, todo := [] }

/-- The connection to the second address fails. Its own streak was empty, and that of the first one
is left as it was. -/
theorem excused_unchanged_unproven :
    (strandedState.pool.v4.lookup (.v4 0x68100002)).map (·.consecutiveSuccesses) = some 0 ∧
    (strandedState.pool.v4.lookup edgeAddr).map (·.consecutiveSuccesses) = some 1 ∧
    ∃ t, Completes .rounded (strandedWorker (.v4 0x68100002)) strandedState
        [.judge .shipped (ascii "a.example") ⟨1, 1⟩ (.error (.connect "refused"))] t ∧
      strandedState.pool.SameStanding t.pool ∧ t.validations = strandedState.validations := by
  have hzero : ∀ c ∈ (strandedState.pool.family (.v4 0x68100002)).lookup (.v4 0x68100002),
      c.consecutiveSuccesses = 0 := by
    decide
  obtain ⟨-, ⟨t, ht⟩, hiff⟩ := excused_unchanged_iff .rounded strandedState
    (strandedWorker (.v4 0x68100002)) .shipped (ascii "a.example") ⟨1, 1⟩ (.connect "refused") rfl
  exact ⟨by decide, by decide, t, ht, (hiff t ht).mpr hzero⟩

/-- The failure is ambiguous, since the subsystem is unhealthy, and still the candidate is no
longer eligible. -/
theorem ambiguous_failure_counts :
    strandedState.health.classify (.connect "refused") = .ambiguousFailure ∧
    (strandedState.pool.v4.lookup edgeAddr).map (·.isEligible 1) = some true ∧
    ∃ t, Completes .rounded (strandedWorker edgeAddr) strandedState
        [.judge .shipped (ascii "a.example") ⟨1, 1⟩ (.error (.connect "refused"))] t ∧
      (t.pool.v4.lookup edgeAddr).map (·.isEligible 1) = some false := by
  refine ⟨rfl, by decide, (exists_completes_judge _).imp fun t ht => ⟨ht, ?_⟩⟩
  rw [(completes_failed ht).1]
  decide

/-! The baseline of a host along a sequence of results. -/

structure BaselineResult where
  worker : Worker
  cfg : EngineConfig
  host : List UInt8
  span : Span
  outcome : Except ProbeError HttpProbeOutcome
  original : worker.job.kind.intent = .baseline

namespace BaselineResult

/-- The two steps of TLS and HTTP were completed; whether the profile accepts the answer. -/
def verdict (r : BaselineResult) : Option Bool :=
  match r.outcome with
  | .ok o => some (r.cfg.accepts r.host o)
  | .error _ => none

def Accepted (host : List UInt8) (r : BaselineResult) : Prop :=
  trimEndDots r.host = trimEndDots host ∧ r.verdict = some true

def Rejected (host : List UInt8) (r : BaselineResult) : Prop :=
  trimEndDots r.host = trimEndDots host ∧ r.verdict = some false

end BaselineResult

/-- The results come in one after the other. Meanwhile anything may happen that leaves the
baselines alone, and no answer finds a table that it would empty. -/
inductive Arrives (math : FloatMath) : EngineState → List BaselineResult → EngineState → Prop where
  | done (s : EngineState) : Arrives math s [] s
  | other {s s' t : EngineState} {rs : List BaselineResult}
      (hbaselines : s'.validations.baselines = s.validations.baselines)
      (hrest : Arrives math s' rs t) : Arrives math s rs t
  | result {s s' t : EngineState} {r : BaselineResult} {rs : List BaselineResult}
      (hroom : r.verdict.isSome →
        s.validations.baselines.entries.length ≤ s.validations.maxEntries)
      (hresult : Completes math r.worker s [.judge r.cfg r.host r.span r.outcome] s')
      (hrest : Arrives math s' rs t) : Arrives math s (r :: rs) t

/-- Some answer for the host was accepted and none that came after it was rejected. -/
def StillAccepted (host : List UInt8) (rs : List BaselineResult) : Prop :=
  ∃ before r after, rs = before ++ r :: after ∧ r.Accepted host ∧
    ∀ r' ∈ after, ¬ r'.Rejected host

section Baselines

variable {math : FloatMath} {s t : EngineState} {host : List UInt8} {r : BaselineResult}
  {rs : List BaselineResult}

theorem baseline_setBaseline {P : Type} {v : Validations P}
    (hroom : v.baselines.entries.length ≤ v.maxEntries) (named : List UInt8) (validated : Bool)
    (nowUnix : Nat) (p : P) :
    (v.setBaseline named validated nowUnix p).baseline host =
      if trimEndDots named = trimEndDots host then validated else v.baseline host := by
  unfold Validations.baseline Validations.setBaseline
  simp only [if_neg (Nat.not_lt.mpr hroom)]
  by_cases hname : trimEndDots named = trimEndDots host
  · rw [if_pos hname, ← hname, AList.lookup_insert]
    rfl
  · rw [if_neg hname, AList.lookup_insert_ne (Ne.symm hname)]

theorem baseline_result
    (hroom : r.verdict.isSome → s.validations.baselines.entries.length ≤ s.validations.maxEntries)
    (h : Completes math r.worker s [.judge r.cfg r.host r.span r.outcome] t) :
    t.validations.baseline host = true ↔
      r.Accepted host ∨ (¬ r.Rejected host ∧ s.validations.baseline host = true) := by
  cases hout : r.outcome with
  | error error =>
    rw [hout] at h
    have hverdict : r.verdict = none := by
      simp only [BaselineResult.verdict, hout]
    have hsame : t.validations = s.validations := by
      rw [(completes_failed h).2, r.original]
      exact if_neg fun hc => nomatch hc.1
    rw [hsame]
    simp [BaselineResult.Accepted, BaselineResult.Rejected, hverdict]
  | ok o =>
    rw [hout] at h
    have hverdict : r.verdict = some (r.cfg.accepts r.host o) := by
      simp only [BaselineResult.verdict, hout]
    rw [completes_answered r.original h,
      baseline_setBaseline (hroom (by rw [hverdict]; rfl))]
    by_cases hname : trimEndDots r.host = trimEndDots host
    · cases ha : r.cfg.accepts r.host o <;>
        simp [BaselineResult.Accepted, BaselineResult.Rejected, hverdict, hname, ha]
    · simp [BaselineResult.Accepted, BaselineResult.Rejected, hname]

theorem stillAccepted_cons :
    StillAccepted host (r :: rs) ↔
      StillAccepted host rs ∨ (r.Accepted host ∧ ∀ r' ∈ rs, ¬ r'.Rejected host) := by
  constructor
  · rintro ⟨before, r₀, after, hsplit, hacc, hlater⟩
    cases before with
    | nil =>
      cases hsplit
      exact .inr ⟨hacc, hlater⟩
    | cons b before =>
      cases hsplit
      exact .inl ⟨before, r₀, after, rfl, hacc, hlater⟩
  · rintro (⟨before, r₀, after, rfl, hacc, hlater⟩ | ⟨hacc, hlater⟩)
    · exact ⟨r :: before, r₀, after, rfl, hacc, hlater⟩
    · exact ⟨[], r, rs, rfl, hacc, hlater⟩

theorem not_rejected_last (h : StillAccepted host (rs ++ [r])) : ¬ r.Rejected host := by
  obtain ⟨before, r₀, after, hsplit, hacc, hlater⟩ := h
  have hlast : (r₀ :: after).getLast? = some r := by
    have hends := congrArg List.getLast? hsplit
    simpa using hends.symm
  rcases List.mem_cons.mp (List.mem_of_getLast? hlast) with rfl | hmem
  · intro hrej
    cases hacc.2.symm.trans hrej.2
  · exact hlater r hmem

theorem baseline_arrives (h : Arrives math s rs t) :
    t.validations.baseline host = true ↔
      StillAccepted host rs ∨
        (s.validations.baseline host = true ∧ ∀ r ∈ rs, ¬ r.Rejected host) := by
  induction h with
  | done s =>
    have hnone : ¬ StillAccepted host [] := by
      rintro ⟨before, r, after, hsplit, -⟩
      exact absurd hsplit (by simp)
    simp [hnone]
  | @other s s' t rs hbaselines _ ih =>
    have hsame : s'.validations.baseline host = s.validations.baseline host := by
      unfold Validations.baseline
      rw [hbaselines]
    rw [ih, hsame]
  | @result s s' t r rs hroom hresult _ ih =>
    rw [ih, baseline_result hroom hresult, stillAccepted_cons, List.forall_mem_cons]
    tauto

theorem exists_accepted_of_still (h : StillAccepted host rs) : ∃ r ∈ rs, r.Accepted host := by
  obtain ⟨before, r, after, rfl, hacc, -⟩ := h
  exact ⟨r, by simp, hacc⟩

theorem exists_arrives (math : FloatMath) (rs : List BaselineResult)
    (hroom : s.validations.baselines.entries.length + rs.length ≤ s.validations.maxEntries) :
    ∃ t, Arrives math s rs t := by
  induction rs generalizing s with
  | nil => exact ⟨s, .done s⟩
  | cons r rs ih =>
    rw [List.length_cons] at hroom
    have hends : ∃ s', Completes math r.worker s [.judge r.cfg r.host r.span r.outcome] s' :=
      exists_completes_judge _
    obtain ⟨s', hs'⟩ := hends
    have hgrows : s'.validations.maxEntries = s.validations.maxEntries ∧
        s'.validations.baselines.entries.length ≤
          s.validations.baselines.entries.length + 1 := by
      cases hout : r.outcome with
      | error error =>
        rw [hout] at hs'
        have hsame : s'.validations = s.validations := by
          rw [(completes_failed hs').2, r.original]
          exact if_neg fun hc => nomatch hc.1
        rw [hsame]
        exact ⟨rfl, Nat.le_succ _⟩
      | ok o =>
        rw [hout] at hs'
        rw [completes_answered r.original hs']
        unfold Validations.setBaseline
        simp only [if_neg (Nat.not_lt.mpr (by omega :
          s.validations.baselines.entries.length ≤ s.validations.maxEntries))]
        exact ⟨trivial, Lib.Map.length_insert_le _ _ _⟩
    obtain ⟨t, ht⟩ := ih (s := s') (by omega)
    exact ⟨t, .result (fun _ => by omega) hs' ht⟩

end Baselines

/-- From a table without the host on, the flag says whether an answer for it was accepted just if
no rejected answer follows the last accepted one. -/
theorem baseline_meaning_iff (math : FloatMath) (s t : EngineState) (host : List UInt8)
    (rs : List BaselineResult) (hnew : trimEndDots host ∉ s.validations.baselines)
    (h : Arrives math s rs t) :
    (t.validations.baseline host = true ↔ ∃ r ∈ rs, r.Accepted host) ↔
      ((∃ r ∈ rs, r.Accepted host) → StillAccepted host rs) := by
  have hbefore : s.validations.baseline host = false := by
    unfold Validations.baseline
    rw [AList.lookup_eq_none.mpr hnew]
    rfl
  have hflag : t.validations.baseline host = true ↔ StillAccepted host rs := by
    rw [baseline_arrives h, hbefore]
    simp
  rw [hflag]
  exact ⟨fun hiff hacc => hiff.mpr hacc, fun himp => ⟨exists_accepted_of_still, himp⟩⟩

def originalAnswer (addr : IpAddr) (status : Nat) : BaselineResult where
  worker :=
    { job := { kind := .baseline (ascii "a.example"), addr, port := 443, generation := 1 }
      now := 1, todo := [] }
  cfg := .shipped
  host := ascii "a.example"
  span := ⟨1, 1⟩
  outcome := .ok { plainOutcome with status }
  original := rfl

theorem baseline_meaning_rising :
    ∃ t, Arrives .rounded (edgeEngine .shipped).shared
        [originalAnswer (.v4 0x68100002) 421, originalAnswer edgeAddr 200] t ∧
      (t.validations.baseline (ascii "a.example") = true ↔
        ∃ r ∈ [originalAnswer (.v4 0x68100002) 421, originalAnswer edgeAddr 200],
          r.Accepted (ascii "a.example")) := by
  obtain ⟨t, ht⟩ := exists_arrives (s := (edgeEngine .shipped).shared) .rounded
    [originalAnswer (.v4 0x68100002) 421, originalAnswer edgeAddr 200] (by decide)
  refine ⟨t, ht, (baseline_meaning_iff .rounded _ t (ascii "a.example") _ ?_ ht).mpr ?_⟩
  · exact AList.notMem_empty _
  · intro _
    exact ⟨[originalAnswer (.v4 0x68100002) 421], originalAnswer edgeAddr 200, [], rfl,
      ⟨rfl, rfl⟩, fun r' hr' => nomatch hr'⟩

/-- One of the two addresses works and the other one does not. The flag depends on which of them
answers first. -/
theorem baseline_depends_on_order :
    (originalAnswer edgeAddr 200).Accepted (ascii "a.example") ∧
    (∃ t, Arrives .rounded (edgeEngine .shipped).shared
        [originalAnswer (.v4 0x68100002) 421, originalAnswer edgeAddr 200] t ∧
      t.validations.baseline (ascii "a.example") = true) ∧
    ∃ t, Arrives .rounded (edgeEngine .shipped).shared
        [originalAnswer edgeAddr 200, originalAnswer (.v4 0x68100002) 421] t ∧
      t.validations.baseline (ascii "a.example") = false := by
  obtain ⟨t, ht⟩ := exists_arrives (s := (edgeEngine .shipped).shared) .rounded
    [originalAnswer (.v4 0x68100002) 421, originalAnswer edgeAddr 200] (by decide)
  obtain ⟨u, hu⟩ := exists_arrives (s := (edgeEngine .shipped).shared) .rounded
    [originalAnswer edgeAddr 200, originalAnswer (.v4 0x68100002) 421] (by decide)
  refine ⟨⟨rfl, rfl⟩, ⟨t, ht, ?_⟩, ⟨u, hu, ?_⟩⟩
  · rw [baseline_arrives ht]
    exact .inl ⟨[originalAnswer (.v4 0x68100002) 421], originalAnswer edgeAddr 200, [], rfl,
      ⟨rfl, rfl⟩, fun r' hr' => nomatch hr'⟩
  · have hrejected : (originalAnswer (.v4 0x68100002) 421).Rejected (ascii "a.example") :=
      ⟨rfl, rfl⟩
    rw [← Bool.not_eq_true, baseline_arrives hu]
    rintro (hstill | ⟨-, hnone⟩)
    · exact not_rejected_last (List.singleton_append ▸ hstill) hrejected
    · exact hnone _ (by simp) hrejected

end EgressDns
