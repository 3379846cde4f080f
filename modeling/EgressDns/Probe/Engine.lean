import EgressDns.Cloudflare.Pool
import EgressDns.Cloudflare.Validation
import EgressDns.Datasets.Zones
import EgressDns.Lib.Tasks
import EgressDns.Probe.Safety
import EgressDns.Ranking.Quality

/-!
# The probe engine

`execute` and `run_https` of `probe/engine.rs`, one step for every load, lock or await, next to the
network task of `tasks/network.rs`, which publishes a generation and then resets the stores one by
one. Two things are carried along that the code does not have: the generations in which each
exchange began and ended, and a ledger of the admissions, connections and charges.
-/

namespace EgressDns

open Lib

/-- What a probe reads of the configuration; `accepts` is the profile of the host. -/
structure EngineConfig where
  enabled : Bool
  enableHttp3 : Bool
  guard : GuardConfig
  evidence : EvidenceConfig
  accepts : List UInt8 → HttpProbeOutcome → Bool
  probeHost : IpAddr → List UInt8

def EngineConfig.shipped : EngineConfig where
  enabled := true
  enableHttp3 := true
  guard := .shipped
  evidence := .shipped
  accepts _ o := decide (o.status ≠ 421) && decide (100 ≤ o.status ∧ o.status < 600)
  probeHost _ := ascii "speed.cloudflare.com"

inductive JobKind where
  | observed (hostname : List UInt8) (cloudflare : Bool)
  | baseline (hostname : List UInt8)
  | validate (hostname : List UInt8)
  | candidate
  deriving DecidableEq, Repr

structure ProbeJob where
  kind : JobKind
  addr : IpAddr
  port : UInt16
  generation : Nat
  deriving DecidableEq

inductive ProbeIntent where
  | baseline | validate | candidate
  deriving DecidableEq, Repr

def JobKind.intent : JobKind → ProbeIntent
  | .observed _ _ | .baseline _ => .baseline
  | .validate _ => .validate
  | .candidate => .candidate

/-- The generations current when an exchange began and when it ended. -/
structure Span where
  first : Nat
  last : Nat
  deriving DecidableEq, Repr

inductive WorkerStep where
  | check
  | join (generation : Nat)
  | chooseHost
  | configure (host : List UInt8)
  | limit (cfg : EngineConfig) (host : List UInt8)
  | admission (cfg : EngineConfig) (host : List UInt8)
  | connect (cfg : EngineConfig) (host : List UInt8) (ticket : Nat)
  | exchange (cfg : EngineConfig) (host : List UInt8) (ticket first : Nat)
  | charge (cfg : EngineConfig) (host : List UInt8) (ticket : Nat) (span : Span)
      (outcome : Except ProbeError HttpProbeOutcome)
  | follow (cfg : EngineConfig) (host : List UInt8) (span : Span)
      (outcome : Except ProbeError HttpProbeOutcome)
  | dial (cfg : EngineConfig) (host : List UInt8) (span : Span)
      (outcome : Except ProbeError HttpProbeOutcome)
  | handshake (cfg : EngineConfig) (host : List UInt8) (span : Span)
      (outcome : Except ProbeError HttpProbeOutcome) (first : Nat)
  | judge (cfg : EngineConfig) (host : List UInt8) (span : Span)
      (outcome : Except ProbeError HttpProbeOutcome)
  | observe (key : ProbeKey) (cls : ObservationClass) (latency : Option Nat) (span : Span)
  | store (cfg : EvidenceConfig) (generation : Nat) (key : ProbeKey) (cls : ObservationClass)
      (latency : Option Nat) (span : Span)
  | setBaseline (host : List UInt8) (accepted : Bool) (span : Span)
  | recordValidation (host : List UInt8) (accepted : Bool) (span : Span)
  | recordStage (stage : CandidateStage) (accepted : Bool) (span : Span)

/-- `now` is the instant the job was started at, and is passed to the guard and to every store. -/
structure Worker where
  job : ProbeJob
  now : Nat
  todo : List WorkerStep

inductive Monitor where
  | idle | published | demoted | poolReset | validationsCleared
  deriving DecidableEq, Repr

/-- Admissions are numbered. A connection is listed with the number of the admission made for it,
those of the current window apart from the earlier ones. -/
structure ProbeLedger where
  issued : Nat
  windowFirst : Nat
  current : List (Option Nat)
  earlier : List (Option Nat)
  charged : List Nat
  deriving DecidableEq

def ProbeLedger.opened (l : ProbeLedger) : List (Option Nat) := l.current ++ l.earlier

/-- The guard has been asked: a new window sets the connections so far aside. -/
def ProbeLedger.asked (l : ProbeLedger) (windowOpened admitted : Bool) : ProbeLedger where
  issued := l.issued + if admitted then 1 else 0
  windowFirst := if windowOpened then l.issued else l.windowFirst
  current := if windowOpened then [] else l.current
  earlier := if windowOpened then l.opened else l.earlier
  charged := l.charged

structure EngineState where
  generation : Nat
  monitor : Monitor
  config : Option EngineConfig
  cancelled : Bool
  prefixes : Option PrefixSnapshot
  nowUnix : Nat
  log : GuardLog
  health : SubsystemHealth
  quality : QualityStore Span
  pool : CandidatePool Span
  validations : Validations Span
  ledger : ProbeLedger

/-- What a worker waits for besides its turn: the end of an exchange, or of a QUIC handshake with
its duration if it succeeded. `abort` is the end of the drain at shutdown. -/
inductive WorkerInput where
  | go
  | answered (outcome : Except ProbeError HttpProbeOutcome)
  | handshaken (latency : Option Nat)
  | abort

inductive OutsideEvent where
  | configured (cfg : Option EngineConfig)
  | cancel
  | clock (unix : Nat)
  | revalidate (snapshot : PrefixSnapshot)
  | setPrefixes (snapshot : PrefixSnapshot)
  | joined (addr : IpAddr) (origin : CandidateOrigin) (snapshot : Option PrefixSnapshot)
      (generation now : Nat) (hourlyBudget : Option Nat)
  | publish
  | demote (factor : ℚ)
  | resetPool
  | clearValidations
  | clearBaselines

def HttpProbeOutcome.header (o : HttpProbeOutcome) (name : String) : Option String :=
  (o.headers.find? fun p => p.1.toLower == name.toLower).map Prod.snd

def estimatedProbeBytes : Except ProbeError HttpProbeOutcome → Nat
  | .ok o => 6000 + o.body.length +
      (o.headers.map fun p => p.1.utf8ByteSize + p.2.utf8ByteSize + 4).sum
  | .error _ => 6000 / 2

/-- The answer came over `h2`, or advertises other services. -/
def offersHttp3 : Except ProbeError HttpProbeOutcome → Bool
  | .ok o => decide (o.alpn = some "h2") || (o.header "alt-svc").isSome
  | .error _ => false

namespace EngineState

variable (s : EngineState) (w : Worker)

def check : EngineState × List WorkerStep :=
  if w.job.generation ≠ s.generation then (s, [])
  else
    (s,
      match w.job.kind with
      | .observed host true => [.join s.generation, .configure host]
      | .observed host false | .baseline host | .validate host => [.configure host]
      | .candidate => [.chooseHost])

def join (generation : Nat) : EngineState × List WorkerStep :=
  ({ s with
      pool := (s.pool.admission w.job.addr .dnsAnswer s.prefixes generation w.now none).1 }, [])

def chooseHost : EngineState × List WorkerStep :=
  (s, [.configure (match s.config with
    | none => ascii "speed.cloudflare.com"
    | some cfg => cfg.probeHost w.job.addr)])

variable (cfg : EngineConfig) (host : List UInt8)

def configure : EngineState × List WorkerStep :=
  match s.config with
  | none => (s, [])
  | some cfg => (s, if cfg.enabled then [.limit cfg host] else [])

def limit : EngineState × List WorkerStep :=
  ({ s with log := s.log.after (.update cfg.guard) }, [.admission cfg host])

def asked : GuardCall :=
  .admission w.job.addr w.job.port false (some host) w.now

def admissionLedger (next : GuardLog) (admitted : Bool) : ProbeLedger :=
  s.ledger.asked
    (decide (next.guard.state.windowStart ≠ s.log.guard.state.windowStart)) admitted

def admission : EngineState × List WorkerStep :=
  if s.config.isNone then (s, [])
  else
    let host := trimEndDots host
    let next := s.log.after (asked w host)
    match (s.log.guard.admission w.job.addr w.job.port false (some host) w.now).2 with
    | .ok () =>
      ({ s with log := next, ledger := s.admissionLedger next true },
        [.connect cfg host s.ledger.issued])
    | .error r =>
      ({ s with log := next, ledger := s.admissionLedger next false },
        if r.isCooldown then []
        else [.observe (.https w.job.addr w.job.port host) .policyBlocked none
          ⟨s.generation, s.generation⟩])

def openConnection (ticket : Option Nat) : EngineState :=
  { s with ledger := { s.ledger with current := ticket :: s.ledger.current } }

def connect (ticket : Nat) : EngineState × List WorkerStep :=
  (s.openConnection (some ticket), [.exchange cfg host ticket s.generation])

def charge (ticket : Nat) (span : Span) (outcome : Except ProbeError HttpProbeOutcome) :
    EngineState × List WorkerStep :=
  ({ s with
      log := s.log.after (.consume (estimatedProbeBytes outcome) w.now)
      ledger := { s.ledger with charged := ticket :: s.ledger.charged } },
    [.follow cfg host span outcome])

variable (span : Span) (outcome : Except ProbeError HttpProbeOutcome)

def follow : EngineState × List WorkerStep :=
  (s,
    if cfg.enableHttp3 && !s.cancelled && offersHttp3 outcome then [.dial cfg host span outcome]
    else [.judge cfg host span outcome])

/-- `probe_http3`: a QUIC connection is opened, without asking the guard. -/
def dial : EngineState × List WorkerStep :=
  if s.config.isNone then (s, [.judge cfg host span outcome])
  else (s.openConnection none, [.handshake cfg host span outcome s.generation])

def handshake (first : Nat) (latency : Option Nat) : EngineState × List WorkerStep :=
  (s,
    [.observe (.quic w.job.addr w.job.port) (if latency.isSome then .success else .unsupported)
        latency ⟨first, s.generation⟩,
      .judge cfg host span outcome])

def answeredSteps (accepted : Bool) (o : HttpProbeOutcome) (span : Span) : List WorkerStep :=
  let cls := if accepted then .success else .applicableFailure
  ([.observe (.https w.job.addr w.job.port host) cls (some (o.tcp + o.tls + o.ttfb)) span,
    .observe (.generic w.job.addr w.job.port) cls (some o.tcp) span] : List WorkerStep) ++
  (match w.job.kind.intent with
    | .baseline => [.setBaseline host accepted span]
    | .validate => [.recordValidation host accepted span]
    | .candidate => [] : List WorkerStep) ++
  ([.recordStage (if accepted then .httpOk else .tlsOk) accepted span] : List WorkerStep)

def failedSteps (error : ProbeError) (cls : ObservationClass) (span : Span) : List WorkerStep :=
  ([.observe (.https w.job.addr w.job.port host) cls none span] : List WorkerStep) ++
  (match error with
    | .connect _ | .timeout => [.observe (.generic w.job.addr w.job.port) cls none span]
    | _ => [] : List WorkerStep) ++
  (if w.job.kind.intent = .validate ∧ cls = .applicableFailure then
    [.recordValidation host false span] else [] : List WorkerStep) ++
  ([.recordStage .new false span] : List WorkerStep)

def judge : EngineState × List WorkerStep :=
  let judged := s.health.judge (cfg.accepts host) outcome
  ({ s with health := judged.1 },
    match outcome with
    | .ok o => answeredSteps w host (cfg.accepts host o) o span
    | .error error => failedSteps w host error judged.2 span)

/-- `record` reads the configuration and the generation before it locks the store. -/
def observe (key : ProbeKey) (cls : ObservationClass) (latency : Option Nat) (span : Span) :
    EngineState × List WorkerStep :=
  match s.config with
  | none => (s, [])
  | some cfg => (s, [.store cfg.evidence s.generation key cls latency span])

end EngineState

variable (math : FloatMath) (s : EngineState) (w : Worker)

/-- One step of a worker: the state afterwards, and the steps that take the place of this one. -/
def perform :
    WorkerStep → WorkerInput → Option (EngineState × List WorkerStep)
  | .check, .go => some (s.check w)
  | .join generation, .go => some (s.join w generation)
  | .chooseHost, .go => some (s.chooseHost w)
  | .configure host, .go => some (s.configure host)
  | .limit cfg host, .go => some (s.limit cfg host)
  | .admission cfg host, .go => some (s.admission w cfg host)
  | .connect cfg host ticket, .go => some (s.connect cfg host ticket)
  | .exchange cfg host ticket first, .answered outcome =>
    some (s, [.charge cfg host ticket ⟨first, s.generation⟩ outcome])
  | .charge cfg host ticket span outcome, .go => some (s.charge w cfg host ticket span outcome)
  | .follow cfg host span outcome, .go => some (s.follow cfg host span outcome)
  | .dial cfg host span outcome, .go => some (s.dial cfg host span outcome)
  | .handshake cfg host span outcome first, .handshaken latency =>
    some (s.handshake w cfg host span outcome first latency)
  | .judge cfg host span outcome, .go => some (s.judge w cfg host span outcome)
  | .observe key cls latency span, .go => some (s.observe key cls latency span)
  | .store cfg generation key cls latency span, .go =>
    some ({ s with
      quality := s.quality.record math cfg key cls latency generation w.now span }, [])
  | .setBaseline host accepted span, .go =>
    some ({ s with
      validations := s.validations.setBaseline host accepted s.nowUnix span }, [])
  | .recordValidation host accepted span, .go =>
    some ({ s with
      validations := s.validations.recordValidation host w.job.addr accepted w.now span }, [])
  | .recordStage stage accepted span, .go =>
    some ({ s with pool := s.pool.recordStage w.job.addr stage accepted w.now span }, [])
  | _, _ => none

def Worker.next : List WorkerStep → Option Worker
  | [] => none
  | todo => some { w with todo }

def workerAct :
    WorkerInput → Option (Effect EngineState Worker)
  | .abort => some (.stay s none)
  | input =>
    match w.todo with
    | [] => none
    | step :: rest =>
      (perform math s w step input).map fun r => .stay r.1 (w.next (r.2 ++ rest))

section Acting

variable {math : FloatMath} {s : EngineState} {w : Worker}

theorem forall_judge {φ : WorkerStep → Prop} {cfg : EngineConfig} {host : List UInt8} {span : Span}
    {outcome : Except ProbeError HttpProbeOutcome}
    (hobserve : ∀ key cls latency, φ (.observe key cls latency span))
    (hbaseline : ∀ accepted, φ (.setBaseline host accepted span))
    (hvalidation : ∀ accepted, φ (.recordValidation host accepted span))
    (hstage : ∀ stage accepted, φ (.recordStage stage accepted span)) :
    ∀ next ∈ (s.judge w cfg host span outcome).2, φ next := by
  intro next hnext
  cases outcome with
  | ok o =>
    simp only [EngineState.judge, EngineState.answeredSteps, List.mem_append, List.mem_cons,
      List.not_mem_nil, or_false] at hnext
    rcases hnext with ((rfl | rfl) | hnext) | rfl
    · exact hobserve _ _ _
    · exact hobserve _ _ _
    · split at hnext
      · cases List.mem_singleton.mp hnext
        exact hbaseline _
      · cases List.mem_singleton.mp hnext
        exact hvalidation _
      · cases hnext
    · exact hstage _ _
  | error error =>
    simp only [EngineState.judge, EngineState.failedSteps, List.mem_append, List.mem_cons,
      List.not_mem_nil, or_false] at hnext
    rcases hnext with ((rfl | hnext) | hnext) | rfl
    · exact hobserve _ _ _
    · split at hnext
      · cases List.mem_singleton.mp hnext
        exact hobserve _ _ _
      · cases List.mem_singleton.mp hnext
        exact hobserve _ _ _
      · cases hnext
    · split at hnext
      · cases List.mem_singleton.mp hnext
        exact hvalidation _
      · cases hnext
    · exact hstage _ _

theorem Worker.next_eq_some {todo : List WorkerStep} {w' : Worker} (h : w.next todo = some w') :
    todo ≠ [] ∧ w' = { w with todo } := by
  cases todo with
  | nil => cases h
  | cons step rest =>
    cases h
    exact ⟨List.cons_ne_nil _ _, rfl⟩

theorem workerAct_cases {input : WorkerInput} {e : Effect EngineState Worker}
    (h : workerAct math s w input = some e) :
    (input = .abort ∧ e = .stay s none) ∨
    ∃ step rest r, w.todo = step :: rest ∧ perform math s w step input = some r ∧
      e = .stay r.1 (w.next (r.2 ++ rest)) := by
  cases input with
  | abort =>
    cases h
    exact .inl ⟨rfl, rfl⟩
  | go | answered outcome | handshaken latency =>
    refine .inr ?_
    cases htodo : w.todo with
    | nil =>
      simp only [workerAct, htodo] at h
      cases h
    | cons step rest =>
      simp only [workerAct, htodo] at h
      obtain ⟨r, hr, he⟩ := Option.map_eq_some_iff.mp h
      exact ⟨step, rest, r, rfl, hr, he.symm⟩

end Acting

def engineEnv : OutsideEvent → Option EngineState
  | .configured cfg => some { s with config := cfg }
  | .cancel => some { s with cancelled := true }
  | .clock unix => some { s with nowUnix := unix }
  | .revalidate snapshot => some { s with pool := s.pool.revalidate snapshot }
  | .setPrefixes snapshot => some { s with prefixes := some snapshot }
  | .joined addr origin snapshot generation now hourlyBudget =>
    some { s with
      pool := (s.pool.admission addr origin snapshot generation now hourlyBudget).1 }
  | .publish =>
    if s.monitor = .idle then
      some { s with generation := s.generation + 1, monitor := .published }
    else none
  | .demote factor =>
    if s.monitor = .published then
      some { s with
        quality := s.quality.onGenerationChange s.generation factor, monitor := .demoted }
    else none
  | .resetPool =>
    if s.monitor = .demoted then
      some { s with pool := s.pool.onGenerationChange s.generation, monitor := .poolReset }
    else none
  | .clearValidations =>
    if s.monitor = .poolReset then
      some { s with
        validations := { s.validations with domains := ∅ }, monitor := .validationsCleared }
    else none
  | .clearBaselines =>
    if s.monitor = .validationsCleared then
      some { s with validations := { s.validations with baselines := ∅ }, monitor := .idle }
    else none

def engine :
    Program EngineState Worker OutsideEvent (ProbeJob × Nat) WorkerInput where
  env := engineEnv
  start _ b := { job := b.1, now := b.2, todo := [.check] }
  act := workerAct math

abbrev Engine := Pool EngineState Worker

abbrev EngineLabel := TaskLabel OutsideEvent (ProbeJob × Nat) WorkerInput

/-- The engine as it is built. The quality store may have been restored from disk. -/
def Engine.initial (cfg : Option EngineConfig) (guard : GuardConfig) (threshold : Nat)
    (prefixes : Option PrefixSnapshot) (quality : QualityStore Span)
    (poolCapacity maxValidations : Nat) : Engine where
  shared :=
    { generation := 1, monitor := .idle, config := cfg, cancelled := false, prefixes, nowUnix := 0
      log := .new guard, health := .new threshold, quality
      pool := .new poolCapacity, validations := .new maxValidations
      ledger := { issued := 0, windowFirst := 0, current := [], earlier := [], charged := [] } }
  tasks _ := none

/-! An answer for `a.example` has brought up 104.16.0.1, which is then probed under the shipped
settings. -/

def edgeAddr : IpAddr := .v4 0x68100001

def edgePrefixes : PrefixSnapshot := { v4Masks := [(0x68100000, 0xfff80000)], v6Masks := [] }

def edgeAnswer (alpn : String) : Except ProbeError HttpProbeOutcome :=
  .ok { tcp := 10 ^ 7, tls := 10 ^ 7, ttfb := 10 ^ 7, status := 200, alpn := some alpn
        headers := [], body := [] }

def edgeOpening (generation : Nat) : List EngineLabel :=
  .start 0 ({ kind := .observed (ascii "a.example") true, addr := edgeAddr, port := 443
              generation }, 0) :: List.replicate 6 (.act 0 .go)

def edgeClosing : List EngineLabel :=
  .act 0 (.answered (edgeAnswer "http/1.1")) :: List.replicate 9 (.act 0 .go)

def edgeEngine (guard : GuardConfig) : Engine :=
  .initial (some { EngineConfig.shipped with guard }) guard 8 (some edgePrefixes) (.new 16) 16 16

end EgressDns
