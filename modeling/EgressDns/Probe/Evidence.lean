import EgressDns.Probe.Engine

/-!
# Evidence and the network it was measured on

What the stores hold comes from exchanges that began and ended in the generation it is kept under,
as long as no generation is published while a probe is measuring or writing.
-/

namespace EgressDns

open Lib

/-- The generation never goes down, so an exchange that began and ended in one ran in it throughout. -/
def Span.Within (e : Span) (generation : Nat) : Prop := e.first = generation ∧ e.last = generation

def FromGeneration (generation : Nat) (evidence : List Span) : Prop :=
  ∀ e ∈ evidence, e.Within generation

def WorkerStep.measuring : WorkerStep → Bool
  | .check | .join _ | .chooseHost | .configure _ | .limit _ _ | .admission _ _
  | .connect _ _ _ => false
  | _ => true

/-- A generation is published only while no probe is measuring or writing. -/
def PublishedQuietly (p : Engine) : EngineLabel → Prop
  | .env .publish => ∀ id w, p.tasks id = some w → ∀ step ∈ w.todo, step.measuring = false
  | _ => True

def Measured (generation : Nat) (evidence : List Span) : Prop :=
  evidence ≠ [] ∧ FromGeneration generation evidence

/-- A stage or a streak is there only by evidence, and all of it comes from the generation. -/
def CandidateMeasured (generation : Nat) (c : PoolCandidate Span) : Prop :=
  (c.stage ≠ .new ∨ c.consecutiveSuccesses ≠ 0 → c.evidence ≠ []) ∧
    FromGeneration generation c.evidence

/-- What a store holds is measured in the generation it is kept under: the series each in its own,
the rest in the current one once the reset for it has been made. -/
structure EvidenceSound (s : EngineState) : Prop where
  quality : s.quality.entries.Each fun q => FromGeneration q.generation q.evidence
  pool : s.monitor ≠ .published → s.monitor ≠ .demoted →
    s.pool.Each (CandidateMeasured s.generation)
  domains : s.monitor ≠ .published → s.monitor ≠ .demoted → s.monitor ≠ .poolReset →
    s.validations.domains.Each fun d => Measured s.generation d.evidence
  baselines : s.monitor = .idle →
    s.validations.baselines.Each fun b => Measured s.generation b.evidence

/-- What a step of a worker carries was measured in the current generation so far. -/
def StepCurrent (generation : Nat) : WorkerStep → Prop
  | .exchange _ _ _ first => first = generation
  | .charge _ _ _ span _ | .follow _ _ span _ | .dial _ _ span _ | .judge _ _ span _
  | .observe _ _ _ span | .setBaseline _ _ span | .recordValidation _ _ span
  | .recordStage _ _ span => span.Within generation
  | .handshake _ _ span _ first => span.Within generation ∧ first = generation
  | .store _ under _ _ _ span => under = generation ∧ span.Within generation
  | _ => True

def WorkerCurrent (s : EngineState) (w : Worker) : Prop :=
  ∀ step ∈ w.todo, StepCurrent s.generation step

section Lists

theorem FromGeneration.nil (generation : Nat) : FromGeneration generation [] := nofun

variable {evidence : List Span} {generation : Nat}

theorem FromGeneration.cons {e : Span} (he : e.Within generation)
    (h : FromGeneration generation evidence) : FromGeneration generation (e :: evidence) := by
  intro f hf
  rcases List.mem_cons.mp hf with rfl | hf
  · exact he
  · exact h f hf

theorem Measured.cons {e : Span} (he : e.Within generation)
    (h : Measured generation evidence ∨ evidence = []) : Measured generation (e :: evidence) := by
  refine ⟨List.cons_ne_nil _ _, FromGeneration.cons he ?_⟩
  rcases h with h | rfl
  · exact h.2
  · exact FromGeneration.nil _

theorem stepCurrent_of_quiet {step : WorkerStep} (h : step.measuring = false)
    (generation : Nat) : StepCurrent generation step := by
  cases step
  all_goals first
    | exact trivial
    | cases h

end Lists

section Steps

variable {math : FloatMath} {s : EngineState} {w : Worker}

structure SameEvidence (s t : EngineState) : Prop where
  generation : t.generation = s.generation
  monitor : t.monitor = s.monitor
  quality : t.quality = s.quality
  pool : t.pool = s.pool
  validations : t.validations = s.validations

theorem SameEvidence.refl (s : EngineState) : SameEvidence s s := ⟨rfl, rfl, rfl, rfl, rfl⟩

variable {t : EngineState} {outcome : Except ProbeError HttpProbeOutcome} {span : Span}
  {cfg : EngineConfig} {host : List UInt8} {cls : ObservationClass} {latency : Option Nat}
  {key : ProbeKey} {r : EngineState × List WorkerStep} {e : OutsideEvent}

theorem SameEvidence.sound (h : SameEvidence s t) (hi : EvidenceSound s) : EvidenceSound t := by
  obtain ⟨hg, hm, hq, hp, hv⟩ := h
  refine ⟨?_, ?_, ?_, ?_⟩
  · rw [hq]
    exact hi.quality
  · rw [hg, hm, hp]
    exact hi.pool
  · rw [hg, hm, hv]
    exact hi.domains
  · rw [hg, hm, hv]
    exact hi.baselines

/-- A step that writes to no store, and goes on with what is current. -/
def Quiet (s : EngineState) (r : EngineState × List WorkerStep) : Prop :=
  SameEvidence s r.1 ∧ ∀ next ∈ r.2, StepCurrent s.generation next

theorem check_quiet : Quiet s (s.check w) := by
  unfold EngineState.check
  split
  · exact ⟨.refl s, List.forall_mem_nil _⟩
  · refine ⟨.refl s, ?_⟩
    split
    all_goals simp [StepCurrent]

theorem configure_quiet (host : List UInt8) : Quiet s (s.configure host) := by
  unfold EngineState.configure
  split
  · exact ⟨.refl s, List.forall_mem_nil _⟩
  · refine ⟨.refl s, ?_⟩
    split
    all_goals simp [StepCurrent]

theorem admission_quiet (cfg : EngineConfig) (host : List UInt8) :
    Quiet s (s.admission w cfg host) := by
  unfold EngineState.admission
  split
  · exact ⟨.refl s, List.forall_mem_nil _⟩
  · simp only
    split
    · refine ⟨⟨rfl, rfl, rfl, rfl, rfl⟩, ?_⟩
      simp [StepCurrent]
    · refine ⟨⟨rfl, rfl, rfl, rfl, rfl⟩, ?_⟩
      split
      all_goals simp [StepCurrent, Span.Within]

section

variable (hspan : span.Within s.generation)
include hspan

theorem follow_quiet : Quiet s (s.follow cfg host span outcome) := by
  refine ⟨.refl s, ?_⟩
  unfold EngineState.follow
  split
  all_goals simpa [StepCurrent] using hspan

theorem dial_quiet : Quiet s (s.dial cfg host span outcome) := by
  unfold EngineState.dial
  split
  · exact ⟨.refl s, by simpa [StepCurrent] using hspan⟩
  · exact ⟨⟨rfl, rfl, rfl, rfl, rfl⟩, by simpa [StepCurrent] using hspan⟩

theorem judge_quiet : Quiet s (s.judge w cfg host span outcome) := by
  refine ⟨⟨rfl, rfl, rfl, rfl, rfl⟩, ?_⟩
  exact forall_judge (fun _ _ _ => hspan) (fun _ => hspan) (fun _ => hspan) (fun _ _ => hspan)

theorem observe_quiet : Quiet s (s.observe key cls latency span) := by
  unfold EngineState.observe
  split
  · exact ⟨.refl s, List.forall_mem_nil _⟩
  · exact ⟨.refl s, by simpa [StepCurrent] using hspan⟩

end

section

variable (hi : EvidenceSound s)
include hi

theorem pool_admission_sound (addr : IpAddr) (origin : CandidateOrigin)
    (snapshot : Option PrefixSnapshot) (generation now : Nat) (hourlyBudget : Option Nat) :
    EvidenceSound { s with
      pool := (s.pool.admission addr origin snapshot generation now hourlyBudget).1 } where
  quality := hi.quality
  pool hpub hdem := by
    refine CandidatePool.each_admission (hi.pool hpub hdem) ?_ ?_ _ _ _ _ _ _
    · intro origin generation now
      refine ⟨?_, FromGeneration.nil _⟩
      rintro (hstage | hstreak)
      · exact absurd rfl hstage
      · exact absurd rfl hstreak
    · intro c lastSeen origin hc
      exact hc
  domains := hi.domains
  baselines := hi.baselines

theorem store_sound {cfg : EvidenceConfig} {generation : Nat} {now : Nat}
    (hspan : span.Within generation) :
    EvidenceSound { s with
      quality := s.quality.record math cfg key cls latency generation now span } where
  quality := by
    have hroom := QualityStore.each_makeRoom hi.quality key
    refine Map.each_insert hroom ?_
    obtain ⟨hgen, hold⟩ := QualityStore.seriesFor_spec cfg hroom key generation
    generalize QualityStore.seriesFor cfg (s.quality.makeRoom key) key generation = series
      at hgen hold
    obtain ⟨hsame, hevidence⟩ := series.record_frame math cfg cls latency now span
    rw [hsame, hevidence, hgen]
    refine FromGeneration.cons hspan ?_
    rcases hold with hold | hempty
    · rw [← hgen]
      exact hold
    · rw [hempty]
      exact FromGeneration.nil _
  pool := hi.pool
  domains := hi.domains
  baselines := hi.baselines

theorem recordStage_sound (hspan : span.Within s.generation) (addr : IpAddr)
    (stage : CandidateStage) (accepted : Bool) (now : Nat) :
    EvidenceSound { s with pool := s.pool.recordStage addr stage accepted now span } where
  quality := hi.quality
  pool hpub hdem := by
    refine CandidatePool.each_recordStage (hi.pool hpub hdem) _ _ _ _ _ ?_
    intro c d hc hd
    refine ⟨fun _ => ?_, ?_⟩
    · rw [hd]
      exact List.cons_ne_nil _ _
    · rw [hd]
      exact FromGeneration.cons hspan hc.2
  domains := hi.domains
  baselines := hi.baselines

theorem recordValidation_sound (hspan : span.Within s.generation) (host : List UInt8)
    (addr : IpAddr) (accepted : Bool) (now : Nat) :
    EvidenceSound { s with
      validations := s.validations.recordValidation host addr accepted now span } where
  quality := hi.quality
  pool := hi.pool
  domains hpub hdem hreset :=
    Validations.each_recordValidation (hi.domains hpub hdem hreset)
      (fun _ => Measured.cons hspan) host addr accepted now
  baselines := hi.baselines

theorem setBaseline_sound (hspan : span.Within s.generation) (host : List UInt8) (accepted : Bool)
    (nowUnix : Nat) :
    EvidenceSound { s with
      validations := s.validations.setBaseline host accepted nowUnix span } where
  quality := hi.quality
  pool := hi.pool
  domains := hi.domains
  baselines hidle :=
    Validations.each_setBaseline (hi.baselines hidle)
      (fun _ => Measured.cons hspan) host accepted nowUnix

end

def Keeps (s : EngineState) (r : EngineState × List WorkerStep) : Prop :=
  EvidenceSound r.1 ∧ r.1.generation = s.generation ∧ ∀ next ∈ r.2, StepCurrent s.generation next

theorem Quiet.keeps (h : Quiet s r) (hi : EvidenceSound s) : Keeps s r :=
  ⟨h.1.sound hi, h.1.generation, h.2⟩

theorem perform_keeps {step : WorkerStep} {input : WorkerInput} (hi : EvidenceSound s)
    (hc : StepCurrent s.generation step) (h : perform math s w step input = some r) :
    Keeps s r := by
  unfold perform at h
  split at h
  all_goals cases h
  · exact check_quiet.keeps hi
  · exact ⟨pool_admission_sound hi _ _ _ _ _ _, rfl, List.forall_mem_nil _⟩
  · refine Quiet.keeps ⟨.refl s, ?_⟩ hi
    simp [EngineState.chooseHost, StepCurrent]
  · exact (configure_quiet _).keeps hi
  · refine Quiet.keeps ⟨⟨rfl, rfl, rfl, rfl, rfl⟩, ?_⟩ hi
    simp [EngineState.limit, StepCurrent]
  · exact (admission_quiet _ _).keeps hi
  · refine Quiet.keeps ⟨⟨rfl, rfl, rfl, rfl, rfl⟩, ?_⟩ hi
    simp [EngineState.connect, StepCurrent]
  · refine Quiet.keeps ⟨.refl s, ?_⟩ hi
    simpa [StepCurrent, Span.Within] using hc
  · refine Quiet.keeps ⟨⟨rfl, rfl, rfl, rfl, rfl⟩, ?_⟩ hi
    simpa [EngineState.charge, StepCurrent] using hc
  · exact (follow_quiet hc).keeps hi
  · exact (dial_quiet hc).keeps hi
  · refine Quiet.keeps ⟨.refl s, ?_⟩ hi
    simpa [EngineState.handshake, StepCurrent, Span.Within, and_comm] using hc
  · exact (judge_quiet hc).keeps hi
  · exact (observe_quiet hc).keeps hi
  · obtain ⟨hunder, hspan⟩ := hc
    exact ⟨store_sound hi (hunder ▸ hspan), rfl, List.forall_mem_nil _⟩
  · exact ⟨setBaseline_sound hi hc _ _ _, rfl, List.forall_mem_nil _⟩
  · exact ⟨recordValidation_sound hi hc _ _ _ _, rfl, List.forall_mem_nil _⟩
  · exact ⟨recordStage_sound hi hc _ _ _ _, rfl, List.forall_mem_nil _⟩

/-- Until a store is reset, nothing is said of it; the reset leaves it without evidence. -/
theorem engineEnv_sound (hi : EvidenceSound s) (h : engineEnv s e = some t) : EvidenceSound t := by
  cases e with
  | configured cfg | cancel | clock unix | setPrefixes snapshot =>
    cases h
    exact SameEvidence.sound (s := s) ⟨rfl, rfl, rfl, rfl, rfl⟩ hi
  | revalidate snapshot =>
    cases h
    exact ⟨hi.quality, fun hpub hdem => CandidatePool.each_revalidate (hi.pool hpub hdem) snapshot,
      hi.domains, hi.baselines⟩
  | joined addr origin snapshot generation now hourlyBudget =>
    cases h
    exact pool_admission_sound hi _ _ _ _ _ _
  | publish =>
    simp only [engineEnv] at h
    split at h
    · cases h
      exact ⟨hi.quality, fun hpub => absurd rfl hpub, fun hpub => absurd rfl hpub, nofun⟩
    · cases h
  | demote factor =>
    simp only [engineEnv] at h
    split at h
    · cases h
      refine ⟨?_, fun _ hdem => absurd rfl hdem, fun _ hdem => absurd rfl hdem, nofun⟩
      exact Map.each_mapValues fun _ => FromGeneration.nil _
    · cases h
  | resetPool =>
    simp only [engineEnv] at h
    split at h
    · cases h
      refine ⟨hi.quality, fun _ _ => ?_, fun _ _ hreset => absurd rfl hreset, nofun⟩
      refine CandidatePool.each_onGenerationChange fun c => ⟨?_, FromGeneration.nil _⟩
      rintro (hstage | hstreak)
      · exact absurd rfl hstage
      · exact absurd rfl hstreak
    · cases h
  | clearValidations =>
    simp only [engineEnv] at h
    split at h
    · rename_i hm
      cases h
      refine ⟨hi.quality, fun _ _ => ?_, fun _ _ _ => Map.each_empty, nofun⟩
      exact hi.pool (by simp [hm]) (by simp [hm])
    · cases h
  | clearBaselines =>
    simp only [engineEnv] at h
    split at h
    · rename_i hm
      cases h
      refine ⟨hi.quality, fun _ _ => ?_, fun _ _ _ => ?_, fun _ => Map.each_empty⟩
      · exact hi.pool (by simp [hm]) (by simp [hm])
      · exact hi.domains (by simp [hm]) (by simp [hm]) (by simp [hm])
    · cases h

theorem engineEnv_generation (he : e ≠ .publish) (h : engineEnv s e = some t) :
    t.generation = s.generation := by
  cases e
  case publish => exact absurd rfl he
  all_goals
    simp only [engineEnv, Option.ite_none_right_eq_some, Option.some.injEq] at h
  all_goals first
    | exact h ▸ rfl
    | exact h.2 ▸ rfl

end Steps

section Runs

variable {math : FloatMath}

theorem workerAct_kept {s : EngineState} {w : Worker} {input : WorkerInput}
    {e : Effect EngineState Worker} (hi : EvidenceSound s) (hw : WorkerCurrent s w)
    (h : workerAct math s w input = some e) : Kept EvidenceSound WorkerCurrent s e := by
  rcases workerAct_cases h with ⟨_, rfl⟩ | ⟨step, rest, r, htodo, hr, rfl⟩
  · exact .quit hi fun _ ht => ht
  · have hstep : StepCurrent s.generation step := hw step (by simp [htodo])
    obtain ⟨hsound, hgen, hnext⟩ := perform_keeps hi hstep hr
    refine ⟨hsound, ?_, nofun, ?_⟩
    · intro w' hw' next hmem
      obtain ⟨_, rfl⟩ := Worker.next_eq_some hw'
      change StepCurrent r.1.generation next
      rw [hgen]
      rcases List.mem_append.mp hmem with hmem | hmem
      · exact hnext next hmem
      · exact hw next (by simp [htodo, hmem])
    · intro w' hw' next hmem
      change StepCurrent r.1.generation next
      rw [hgen]
      exact hw' next hmem

theorem evidence_step {p q : Engine} {l : EngineLabel}
    (hp : p.Inv EvidenceSound WorkerCurrent) (hok : PublishedQuietly p l)
    (h : (engine math).step p l = some q) : q.Inv EvidenceSound WorkerCurrent := by
  refine Program.inv_step ?_ ?_ ?_ hp hok h
  · intro p e s hp hok he
    refine ⟨engineEnv_sound hp.shared he, ?_⟩
    intro id w hw step hstep
    by_cases hpub : e = .publish
    · subst hpub
      exact stepCurrent_of_quiet (hok id w hw step hstep) _
    · rw [engineEnv_generation hpub he]
      exact hp.tasks hw step hstep
  · intro s b _ step hstep
    cases List.mem_singleton.mp hstep
    exact trivial
  · intro p id w input e hp hw _ he
    exact workerAct_kept hp.shared (hp.tasks hw) he

end Runs

/-- In every run in which each generation is published while no probe is measuring or writing, all
evidence comes from exchanges in the generation it is kept under. -/
theorem evidence_of_its_generation (math : FloatMath) (cfg : Option EngineConfig)
    (guard : GuardConfig) (threshold : Nat) (prefixes : Option PrefixSnapshot)
    (quality : QualityStore Span) (poolCapacity maxValidations : Nat)
    (labels : List EngineLabel) (p : Engine)
    (hrestored : quality.entries.Each fun q => q.evidence = [])
    (hguard : Guarded (engine math).step PublishedQuietly
      (Engine.initial cfg guard threshold prefixes quality poolCapacity maxValidations) labels)
    (hrun : run (engine math).step
      (Engine.initial cfg guard threshold prefixes quality poolCapacity maxValidations) labels =
        some p) :
    EvidenceSound p.shared := by
  have hinit : Pool.Inv EvidenceSound WorkerCurrent
      (Engine.initial cfg guard threshold prefixes quality poolCapacity maxValidations) := by
    refine ⟨⟨?_, ?_, ?_, ?_⟩, nofun⟩
    · intro key q hq
      rw [hrestored key q hq]
      exact FromGeneration.nil _
    · exact fun _ _ => ⟨Map.each_empty, Map.each_empty⟩
    · exact fun _ _ _ => Map.each_empty
    · exact fun _ => Map.each_empty
  exact (invariant_of_run evidence_step hinit hguard hrun).shared

def edgeResets : List EngineLabel :=
  [.env (.demote (1 / 4)), .env .resetPool, .env .clearValidations, .env .clearBaselines]

structure EdgeRecord where
  generation : Nat
  series : Option (Nat × List Span)
  candidate : Option (CandidateStage × Nat × List Span)
  baseline : Option (Bool × List Span)
  deriving DecidableEq

def edgeRecord (p : Engine) : EdgeRecord where
  generation := p.shared.generation
  series :=
    (p.shared.quality.entries.lookup (.https edgeAddr 443 (ascii "a.example"))).map fun q =>
      (q.generation, q.evidence)
  candidate :=
    (p.shared.pool.v4.lookup edgeAddr).map fun c => (c.stage, c.consecutiveSuccesses, c.evidence)
  baseline :=
    (p.shared.validations.baselines.lookup (ascii "a.example")).map fun b =>
      (b.validated, b.evidence)

def publishes : EngineLabel → Bool
  | .env .publish => true
  | _ => false

theorem publishedQuietly_of_other {l : EngineLabel} (h : publishes l = false) (p : Engine) :
    PublishedQuietly p l := by
  unfold publishes at h
  split at h
  · cases h
  · rename_i hother
    unfold PublishedQuietly
    split
    · exact absurd rfl hother
    · exact trivial

def keptFrom (first : Nat) : EdgeRecord where
  generation := 2
  series := some (2, [⟨first, 2⟩])
  candidate := some (.httpOk, 1, [⟨first, 2⟩])
  baseline := some (true, [⟨first, 2⟩])

theorem evidence_of_its_generation_later :
    ∃ p, run (engine .rounded).step (edgeEngine .shipped)
        (.env .publish :: (edgeResets ++ edgeOpening 2 ++ edgeClosing)) = some p ∧
      edgeRecord p = keptFrom 2 ∧ EvidenceSound p.shared := by
  have hlater : ∀ l ∈ edgeResets ++ edgeOpening 2 ++ edgeClosing, publishes l = false := by
    decide
  refine exists_imp_of_any (by decide) fun p hrun hp => ⟨hp, ?_⟩
  refine evidence_of_its_generation .rounded (some .shipped) .shipped 8 (some edgePrefixes)
    (.new 16) 16 16 _ p Map.each_empty ?_ hrun
  refine ⟨nofun, fun t _ => guarded_of_forall ?_ t⟩
  exact fun l hl => publishedQuietly_of_other (hlater l hl)

/-- The network changes while the exchange is under way. Every store has been reset for generation 2
before the answer is written to it, and each of them ends with evidence from an exchange that began
in generation 1. -/
theorem evidence_crosses_generations :
    ∃ p, run (engine .rounded).step (edgeEngine .shipped)
        (edgeOpening 1 ++ .env .publish :: edgeResets ++ edgeClosing) = some p ∧
      p.shared.monitor = .idle ∧ edgeRecord p = keptFrom 1 :=
  exists_of_any (by decide)

end EgressDns
