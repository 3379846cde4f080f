import EgressDns.Lib.Tasks
import EgressDns.Probe.Engine

/-!
# Connections, admissions and charges

Every connection a probe opens should have its own admission, count towards the rate limit and be
charged. The QUIC connection of `probe_http3` has no admission and is never charged.
-/

namespace EgressDns

open Lib

namespace WorkerStep

def ticket : WorkerStep → Option Nat
  | .connect _ _ t | .exchange _ _ t _ | .charge _ _ t _ _ => some t
  | _ => none

def connects : WorkerStep → Bool
  | .connect _ _ _ => true
  | _ => false

def HoldsOpen (t : Nat) : WorkerStep → Prop
  | .exchange _ _ u _ | .charge _ _ u _ _ => u = t
  | _ => False

def OpensWindow (s : EngineState) (w : Worker) : WorkerStep → Prop
  | .admission _ _ => elapsed s.log.guard.state.windowStart w.now oneSecond = true
  | _ => False

/-- What must hold in the state a step is taken from: HTTP/3 is off when a job reads the
configuration, and no window begins while an admitted probe has yet to connect. -/
def Admitted (p : Engine) (w : Worker) : WorkerStep → Prop
  | .configure _ => ∀ cfg, p.shared.config = some cfg → cfg.enableHttp3 = false
  | .admission cfg host => OpensWindow p.shared w (.admission cfg host) →
      ∀ i v, p.tasks i = some v → ∀ step ∈ v.todo, step.connects = false
  | _ => True

end WorkerStep

/-- The steps of workers meet their condition, and none is aborted with an open connection. -/
def AdmittedOnly (p : Engine) : EngineLabel → Prop
  | .act id .abort => ∀ w, p.tasks id = some w → ∀ step ∈ w.todo, ∀ t, ¬ step.HoldsOpen t
  | .act id _ => ∀ w, p.tasks id = some w → ∀ step ∈ w.todo.head?, step.Admitted p w
  | _ => True

/-- The ledger of a state: connections have an admission each, and those of the current window one
of the window. -/
structure LedgerSound (s : EngineState) : Prop where
  log : s.log.Agrees
  count : s.ledger.windowFirst + s.log.admitted = s.ledger.issued
  issued : ∀ c ∈ s.ledger.opened, ∃ t, c = some t ∧ t < s.ledger.issued
  nodup : s.ledger.opened.Nodup
  current : ∀ t, some t ∈ s.ledger.current → s.ledger.windowFirst ≤ t

def StepFair (l : ProbeLedger) : WorkerStep → Prop
  | .limit cfg _ | .admission cfg _ | .follow cfg _ _ _ => cfg.enableHttp3 = false
  | .connect cfg _ t =>
    cfg.enableHttp3 = false ∧ l.windowFirst ≤ t ∧ t < l.issued ∧ some t ∉ l.opened
  | .exchange cfg _ t _ | .charge cfg _ t _ _ => cfg.enableHttp3 = false ∧ t < l.issued
  | .dial _ _ _ _ | .handshake _ _ _ _ _ => False
  | _ => True

structure WorkerFair (s : EngineState) (w : Worker) : Prop where
  fair : ∀ step ∈ w.todo, StepFair s.ledger step
  single : ∀ step ∈ w.todo.tail, step.ticket = none

def Worker.ticket (w : Worker) : Option Nat := w.todo.head?.bind WorkerStep.ticket

section Steps

variable {math : FloatMath} {s : EngineState} {w : Worker}

/-- What one step does to the ledger, seen from the step itself and from any other worker's. -/
structure LedgerKept (s : EngineState) (w : Worker) (step : WorkerStep)
    (r : EngineState × List WorkerStep) : Prop where
  sound : LedgerSound r.1
  next : ∀ x ∈ r.2, StepFair r.1.ledger x
  others : ∀ x, StepFair s.ledger x → (∀ t, step.ticket = some t → x.ticket ≠ some t) →
    (step.OpensWindow s w → x.connects = false) → StepFair r.1.ledger x

variable {t : EngineState} {r : EngineState × List WorkerStep} {step : WorkerStep}
  {cfg : EngineConfig} {host : List UInt8} {ticket : Nat} {admitted : Bool} {input : WorkerInput}

section

variable (hi : LedgerSound s)
include hi

theorem LedgerSound.congr (hlog : t.log = s.log) (hledger : t.ledger = s.ledger) :
    LedgerSound t := by
  refine ⟨?_, ?_, ?_, ?_, ?_⟩
  · rw [hlog]
    exact hi.log
  · rw [hlog, hledger]
    exact hi.count
  · rw [hledger]
    exact hi.issued
  · rw [hledger]
    exact hi.nodup
  · rw [hledger]
    exact hi.current

theorem LedgerKept.same (hlog : r.1.log = s.log) (hledger : r.1.ledger = s.ledger)
    (hnext : ∀ x ∈ r.2, StepFair s.ledger x) :
    LedgerKept s w step r where
  sound := hi.congr hlog hledger
  next := by
    rw [hledger]
    exact hnext
  others x hx _ _ := by
    rw [hledger]
    exact hx

theorem limit_kept (hf : cfg.enableHttp3 = false) :
    LedgerKept s w (.limit cfg host) (s.limit cfg host) where
  sound := ⟨GuardLog.agrees_update hi.log cfg.guard, hi.count, hi.issued, hi.nodup, hi.current⟩
  next x hx := by
    cases List.mem_singleton.mp hx
    exact hf
  others _ hx _ _ := hx

theorem connect_kept (hf : StepFair s.ledger (.connect cfg host ticket)) :
    LedgerKept s w (.connect cfg host ticket) (s.connect cfg host ticket) := by
  obtain ⟨hoff, hfirst, hissued, hfresh⟩ := hf
  refine ⟨⟨hi.log, hi.count, ?_, ?_, ?_⟩, ?_, ?_⟩
  · intro c hc
    rcases List.mem_cons.mp hc with rfl | hc
    · exact ⟨ticket, rfl, hissued⟩
    · exact hi.issued c hc
  · exact List.nodup_cons.mpr ⟨hfresh, hi.nodup⟩
  · intro t ht
    rcases List.mem_cons.mp ht with heq | ht
    · cases heq
      exact hfirst
    · exact hi.current t ht
  · intro x hx
    cases List.mem_singleton.mp hx
    exact ⟨hoff, hissued⟩
  · intro x hx hother _
    cases x
    case connect cfg' host' t =>
      obtain ⟨hoff', hfirst', hissued', hfresh'⟩ := hx
      refine ⟨hoff', hfirst', hissued', ?_⟩
      intro hmem
      rcases List.mem_cons.mp hmem with heq | hmem
      · cases heq
        exact hother ticket rfl rfl
      · exact hfresh' hmem
    all_goals exact hx

theorem charge_kept {span : Span} {outcome : Except ProbeError HttpProbeOutcome}
    (hf : cfg.enableHttp3 = false) :
    LedgerKept s w (.charge cfg host ticket span outcome)
      (s.charge w cfg host ticket span outcome) where
  sound := ⟨GuardLog.agrees_consume hi.log _ _, hi.count, hi.issued, hi.nodup, hi.current⟩
  next x hx := by
    cases List.mem_singleton.mp hx
    exact hf
  others x hx _ _ := by
    cases x
    all_goals exact hx

end

theorem admissionLedger_opened (next : GuardLog) (admitted : Bool) :
    (s.admissionLedger next admitted).opened = s.ledger.opened := by
  unfold EngineState.admissionLedger ProbeLedger.asked ProbeLedger.opened
  cases decide (next.guard.state.windowStart ≠ s.log.guard.state.windowStart)
  all_goals rfl

theorem admissionLedger_window (next : GuardLog) (admitted : Bool) :
    (next.guard.state.windowStart ≠ s.log.guard.state.windowStart ∧
      (s.admissionLedger next admitted).windowFirst = s.ledger.issued ∧
      (s.admissionLedger next admitted).current = []) ∨
    (next.guard.state.windowStart = s.log.guard.state.windowStart ∧
      (s.admissionLedger next admitted).windowFirst = s.ledger.windowFirst ∧
      (s.admissionLedger next admitted).current = s.ledger.current) := by
  unfold EngineState.admissionLedger ProbeLedger.asked
  by_cases hopened : next.guard.state.windowStart ≠ s.log.guard.state.windowStart
  · refine .inl ⟨hopened, ?_⟩
    rw [decide_eq_true hopened]
    exact ⟨rfl, rfl⟩
  · refine .inr ⟨not_not.mp hopened, ?_⟩
    rw [decide_eq_false hopened]
    exact ⟨rfl, rfl⟩

theorem admission_ledger_sound (hi : LedgerSound s) (host : List UInt8)
    (hgranted : (s.log.guard.admission w.job.addr w.job.port false (some host) w.now).2 = .ok () ↔
      admitted = true) :
    LedgerSound { s with
      log := s.log.after (EngineState.asked w host)
      ledger := s.admissionLedger (s.log.after (EngineState.asked w host)) admitted } := by
  have hcount := hi.count
  have hlog := GuardLog.agrees_admission hi.log w.job.addr w.job.port false (some host) w.now
  have hadmitted : (s.log.after (EngineState.asked w host)).admitted =
      (if (s.log.after (EngineState.asked w host)).guard.state.windowStart ≠
        s.log.guard.state.windowStart then 0 else s.log.admitted) +
      (if admitted = true then 1 else 0) := by
    simp only [← hgranted]
    rfl
  refine ⟨hlog, ?_, ?_, ?_, ?_⟩
  · change (s.admissionLedger _ admitted).windowFirst + (s.log.after _).admitted =
      (s.admissionLedger _ admitted).issued
    rw [hadmitted]
    change _ = s.ledger.issued + if admitted = true then 1 else 0
    rcases admissionLedger_window (s.log.after (EngineState.asked w host)) admitted with
      ⟨hnew, hfirst, _⟩ | ⟨hold, hfirst, _⟩
    · rw [hfirst, if_pos hnew]
      omega
    · rw [hfirst, if_neg (not_not.mpr hold)]
      omega
  · change ∀ c ∈ (s.admissionLedger _ admitted).opened, _
    rw [admissionLedger_opened]
    intro c hc
    obtain ⟨t, rfl, ht⟩ := hi.issued c hc
    exact ⟨t, rfl, Nat.lt_add_right _ ht⟩
  · change (s.admissionLedger _ admitted).opened.Nodup
    rw [admissionLedger_opened]
    exact hi.nodup
  · change ∀ t, some t ∈ (s.admissionLedger _ admitted).current →
      (s.admissionLedger _ admitted).windowFirst ≤ t
    rcases admissionLedger_window (s.log.after (EngineState.asked w host)) admitted with
      ⟨_, _, hnone⟩ | ⟨_, hfirst, hsame⟩
    · rw [hnone]
      intro t ht
      cases ht
    · rw [hfirst, hsame]
      exact hi.current

theorem admission_others {x : WorkerStep} (hx : StepFair s.ledger x)
    (hwindow : (WorkerStep.admission cfg host).OpensWindow s w → x.connects = false) :
    StepFair (s.admissionLedger (s.log.after (EngineState.asked w (trimEndDots host))) admitted)
      x := by
  cases x
  case connect cfg' host' t =>
    obtain ⟨hoff, hfirst, ht, hfresh⟩ := hx
    have hopen : elapsed s.log.guard.state.windowStart w.now oneSecond = false := by
      rw [Bool.eq_false_iff]
      intro hover
      exact absurd (hwindow hover) (by simp [WorkerStep.connects])
    have hstart := windowStart_of_open w.job.addr w.job.port false (some (trimEndDots host)) hopen
    rcases admissionLedger_window (s.log.after (EngineState.asked w (trimEndDots host))) admitted
      with ⟨hnew, _, _⟩ | ⟨_, hsame, _⟩
    · exact absurd hstart hnew
    · refine ⟨hoff, ?_, ?_, ?_⟩
      · rw [hsame]
        exact hfirst
      · exact Nat.lt_add_right _ ht
      · rw [admissionLedger_opened]
        exact hfresh
  case exchange cfg' host' t first =>
    exact ⟨hx.1, Nat.lt_add_right _ hx.2⟩
  case charge cfg' host' t span outcome =>
    exact ⟨hx.1, Nat.lt_add_right _ hx.2⟩
  all_goals exact hx

theorem granted_fair (hi : LedgerSound s) {next : GuardLog} (hf : cfg.enableHttp3 = false) :
    StepFair (s.admissionLedger next true) (.connect cfg host s.ledger.issued) := by
  refine ⟨hf, ?_, Nat.lt_succ_self _, ?_⟩
  · have hcount := hi.count
    rcases admissionLedger_window next true with ⟨_, hfirst, _⟩ | ⟨_, hfirst, _⟩
    · exact Nat.le_of_eq hfirst
    · rw [hfirst]
      omega
  · rw [admissionLedger_opened]
    intro hmem
    obtain ⟨t, heq, ht⟩ := hi.issued _ hmem
    cases heq
    exact absurd ht (Nat.lt_irrefl _)

/-- How a step hands its admission on: the next one has it, or the connection has been charged. -/
structure Traced (s : EngineState) (step : WorkerStep) (r : EngineState × List WorkerStep) :
    Prop where
  tickets : ∀ x ∈ r.2, ∀ t, x.ticket = some t → step.ticket = some t ∨ t = s.ledger.issued
  single : ∀ x ∈ r.2.tail, x.ticket = none
  charged : ∀ t ∈ s.ledger.charged, t ∈ r.1.ledger.charged
  opened : ∀ t, some t ∈ r.1.ledger.opened →
    some t ∈ s.ledger.opened ∨ ∃ x ∈ r.2.head?, x.HoldsOpen t
  held : ∀ t, step.HoldsOpen t → t ∈ r.1.ledger.charged ∨ ∃ x ∈ r.2.head?, x.HoldsOpen t

/-- A step that touches neither the guard nor the ledger, and goes on without an admission. -/
theorem plain_spec (hi : LedgerSound s) (hstep : ∀ t, ¬ step.HoldsOpen t) (hlog : r.1.log = s.log)
    (hledger : r.1.ledger = s.ledger) (hconfig : r.1.config = s.config)
    (hnext : ∀ x ∈ r.2, StepFair s.ledger x ∧ x.ticket = none) :
    LedgerKept s w step r ∧ Traced s step r ∧ r.1.config = s.config := by
  refine ⟨.same hi hlog hledger fun x hx => (hnext x hx).1, ⟨?_, ?_, ?_, ?_, ?_⟩, hconfig⟩
  · intro x hx t ht
    rw [(hnext x hx).2] at ht
    cases ht
  · intro x hx
    exact (hnext x (List.mem_of_mem_tail hx)).2
  · rw [hledger]
    exact fun _ ht => ht
  · rw [hledger]
    exact fun _ ht => .inl ht
  · intro t ht
    exact absurd ht (hstep t)

theorem admission_spec (hi : LedgerSound s) (hf : cfg.enableHttp3 = false) :
    LedgerKept s w (.admission cfg host) (s.admission w cfg host) ∧
    Traced s (.admission cfg host) (s.admission w cfg host) ∧
    (s.admission w cfg host).1.config = s.config := by
  unfold EngineState.admission
  split
  · exact plain_spec hi (fun _ h => h) rfl rfl rfl (List.forall_mem_nil _)
  · simp only
    split
    · rename_i hok
      refine ⟨⟨admission_ledger_sound hi _ (by simp [hok]), ?_, ?_⟩,
        ⟨?_, List.forall_mem_nil _, fun _ ht => ht, ?_, nofun⟩, rfl⟩
      · intro x hx
        cases List.mem_singleton.mp hx
        exact granted_fair hi hf
      · intro x hx _ hwindow
        exact admission_others hx hwindow
      · intro x hx t ht
        cases List.mem_singleton.mp hx
        exact .inr (Option.some.inj ht).symm
      · intro t ht
        exact .inl (admissionLedger_opened _ true ▸ ht)
    · rename_i r herr
      refine ⟨⟨admission_ledger_sound hi _ (by simp [herr]), ?_, ?_⟩,
        ⟨?_, ?_, fun _ ht => ht, ?_, nofun⟩, rfl⟩
      · split
        all_goals simp [StepFair]
      · intro x hx _ hwindow
        exact admission_others hx hwindow
      · split
        all_goals simp [WorkerStep.ticket]
      · split
        all_goals exact List.forall_mem_nil _
      · intro t ht
        exact .inl (admissionLedger_opened _ false ▸ ht)

theorem connect_traced (cfg : EngineConfig) (host : List UInt8) (ticket : Nat) :
    Traced s (.connect cfg host ticket) (s.connect cfg host ticket) := by
  refine ⟨?_, List.forall_mem_nil _, fun _ ht => ht, ?_, nofun⟩
  · intro x hx t ht
    cases List.mem_singleton.mp hx
    exact .inl ht
  · intro t ht
    rcases List.mem_cons.mp ht with heq | ht
    · exact .inr ⟨_, rfl, (Option.some.inj heq).symm⟩
    · exact .inl ht

theorem perform_spec (hi : LedgerSound s) (hf : StepFair s.ledger step)
    (hconfigure : ∀ host, step = .configure host →
      ∀ cfg, s.config = some cfg → cfg.enableHttp3 = false)
    (h : perform math s w step input = some r) :
    LedgerKept s w step r ∧ Traced s step r ∧ r.1.config = s.config := by
  unfold perform at h
  split at h
  all_goals cases h
  · unfold EngineState.check
    split
    · exact plain_spec hi (fun _ h => h) rfl rfl rfl (List.forall_mem_nil _)
    · refine plain_spec hi (fun _ h => h) rfl rfl rfl ?_
      simp only
      split
      all_goals simp [StepFair, WorkerStep.ticket]
  · exact plain_spec hi (fun _ h => h) rfl rfl rfl (List.forall_mem_nil _)
  · refine plain_spec hi (fun _ h => h) rfl rfl rfl ?_
    simp [EngineState.chooseHost, StepFair, WorkerStep.ticket]
  · rename_i host _
    unfold EngineState.configure
    split
    · exact plain_spec hi (fun _ h => h) rfl rfl rfl (List.forall_mem_nil _)
    · rename_i cfg hcfg
      refine plain_spec hi (fun _ h => h) rfl rfl rfl ?_
      have hoff := hconfigure _ rfl cfg hcfg
      split
      all_goals simp [StepFair, WorkerStep.ticket, hoff]
  · refine ⟨limit_kept hi hf, ⟨?_, List.forall_mem_nil _, fun _ ht => ht, fun _ ht => .inl ht,
      nofun⟩, rfl⟩
    simp [EngineState.limit, WorkerStep.ticket]
  · exact admission_spec hi hf
  · exact ⟨connect_kept hi hf, connect_traced _ _ _, rfl⟩
  · refine ⟨.same hi rfl rfl (List.forall_mem_singleton.mpr hf),
      ⟨?_, List.forall_mem_nil _, fun _ ht => ht, fun _ ht => .inl ht, ?_⟩, rfl⟩
    · exact List.forall_mem_singleton.mpr fun _ ht => .inl ht
    · exact fun t ht => .inr ⟨_, rfl, ht⟩
  · refine ⟨charge_kept hi hf.1, ⟨?_, List.forall_mem_nil _, ?_, fun _ ht => .inl ht, ?_⟩, rfl⟩
    · exact List.forall_mem_singleton.mpr nofun
    · exact fun t ht => List.mem_cons_of_mem _ ht
    · rintro t rfl
      exact .inl List.mem_cons_self
  · refine plain_spec hi (fun _ h => h) rfl rfl rfl ?_
    simp only [StepFair] at hf
    simp [EngineState.follow, hf, StepFair, WorkerStep.ticket]
  · exact hf.elim
  · exact hf.elim
  · refine plain_spec hi (fun _ h => h) rfl rfl rfl ?_
    exact forall_judge (fun _ _ _ => ⟨trivial, rfl⟩) (fun _ => ⟨trivial, rfl⟩)
      (fun _ => ⟨trivial, rfl⟩) (fun _ _ => ⟨trivial, rfl⟩)
  · unfold EngineState.observe
    split
    · exact plain_spec hi (fun _ h => h) rfl rfl rfl (List.forall_mem_nil _)
    · refine plain_spec hi (fun _ h => h) rfl rfl rfl ?_
      simp [StepFair, WorkerStep.ticket]
  all_goals exact plain_spec hi (fun _ h => h) rfl rfl rfl (List.forall_mem_nil _)

theorem engineEnv_ledger {e : OutsideEvent} (h : engineEnv s e = some t) :
    t.log = s.log ∧ t.ledger = s.ledger := by
  cases e
  all_goals
    simp only [engineEnv, Option.ite_none_right_eq_some, Option.some.injEq] at h
  all_goals first
    | exact h ▸ ⟨rfl, rfl⟩
    | exact h.2 ▸ ⟨rfl, rfl⟩

end Steps

section Runs

variable {math : FloatMath} {p q : Engine}

/-- An opened connection has been charged, or a worker is there that will charge it. -/
def ChargesFollow (p : Engine) : Prop :=
  ∀ t, some t ∈ p.shared.ledger.opened → t ∈ p.shared.ledger.charged ∨
    ∃ id w, p.tasks id = some w ∧ ∃ step ∈ w.todo.head?, step.HoldsOpen t

structure EngineFair (p : Engine) : Prop where
  inv : p.Inv LedgerSound WorkerFair
  own : p.Exclusive Worker.ticket
  charges : ChargesFollow p

theorem ticket_of_mem {s : EngineState} {w : Worker} (hw : WorkerFair s w) {step : WorkerStep}
    (hmem : step ∈ w.todo) {t : Nat} (ht : step.ticket = some t) : w.ticket = some t := by
  unfold Worker.ticket
  cases htodo : w.todo with
  | nil =>
    rw [htodo] at hmem
    cases hmem
  | cons first rest =>
    rw [htodo] at hmem
    rcases List.mem_cons.mp hmem with rfl | hmem
    · exact ht
    · have hnone := hw.single step (by rw [htodo]; exact hmem)
      rw [hnone] at ht
      cases ht

theorem connects_ticket {x : WorkerStep} (h : x.ticket = none) : x.connects = false := by
  cases x
  case connect => cases h
  all_goals rfl

section Turn

variable {id : Nat} {w : Worker} {step : WorkerStep} {rest : List WorkerStep}
  {r : EngineState × List WorkerStep}

/-- One turn of a worker: its own steps stay fair, and so do those of the others, since nobody else
has its admission. -/
theorem turn_inv (hp : EngineFair p) (hw : p.tasks id = some w) (htodo : w.todo = step :: rest)
    (hkept : LedgerKept p.shared w step r) (htraced : Traced p.shared step r)
    (hok : step.Admitted p w) :
    KeptIn LedgerSound WorkerFair p id (.stay r.1 (w.next (r.2 ++ rest))) := by
  have hfair := hp.inv.tasks hw
  have hmem : step ∈ w.todo := by simp [htodo]
  have hrest : ∀ x ∈ rest, x.ticket = none := by
    intro x hx
    exact hfair.single x (by rw [htodo]; exact hx)
  refine .stay hkept.sound ?_ ?_
  · intro w' hw'
    obtain ⟨_, rfl⟩ := Worker.next_eq_some hw'
    constructor
    · intro x hx
      rcases List.mem_append.mp hx with hx | hx
      · exact hkept.next x hx
      · refine hkept.others x (hfair.fair x (by simp [htodo, hx])) ?_ ?_
        · intro t _
          rw [hrest x hx]
          exact nofun
        · intro _
          exact connects_ticket (hrest x hx)
    · intro x hx
      cases hlist : r.2 with
      | nil =>
        rw [hlist] at hx
        exact hrest x (List.mem_of_mem_tail hx)
      | cons first more =>
        rw [hlist] at hx
        rcases List.mem_append.mp hx with hx | hx
        · exact htraced.single x (by rw [hlist]; exact hx)
        · exact hrest x hx
  · intro i v hne hv
    have hv' := hp.inv.tasks hv
    refine ⟨?_, hv'.single⟩
    intro x hx
    refine hkept.others x (hv'.fair x hx) ?_ ?_
    · intro t hstep hxt
      have hown : w.ticket = some t := ticket_of_mem hfair hmem hstep
      exact hne (hp.own hv hw (ticket_of_mem hv' hx hxt) hown)
    · intro hopens
      cases step
      case admission cfg host => exact hok hopens i v hv x hx
      all_goals exact hopens.elim

theorem turn_takesFree (hp : EngineFair p) (hw : p.tasks id = some w)
    (htodo : w.todo = step :: rest) (htraced : Traced p.shared step r) :
    TakesFree Worker.ticket p w (.stay r.1 (w.next (r.2 ++ rest))) := by
  have hfair := hp.inv.tasks hw
  refine ⟨?_, nofun, fun _ => rfl⟩
  intro w' t hw' ht
  obtain ⟨_, rfl⟩ := Worker.next_eq_some hw'
  cases hlist : r.2 with
  | nil =>
    rw [hlist] at ht
    obtain ⟨x, hx, hxt⟩ := Option.bind_eq_some_iff.mp ht
    have hnone := hfair.single x (by rw [htodo]; exact List.mem_of_mem_head? hx)
    rw [hnone] at hxt
    cases hxt
  | cons first more =>
    rw [hlist] at ht
    rcases htraced.tickets first (by simp [hlist]) t ht with hsame | hnew
    · exact .inl (ticket_of_mem hfair (by simp [htodo]) hsame)
    · refine .inr ?_
      intro i v hv hvt
      obtain ⟨x, hx, hxt⟩ := Option.bind_eq_some_iff.mp hvt
      have hxfair := (hp.inv.tasks hv).fair x (List.mem_of_mem_head? hx)
      have hlt : t < p.shared.ledger.issued := by
        cases x
        case connect => exact Option.some.inj hxt ▸ hxfair.2.2.1
        case exchange => exact Option.some.inj hxt ▸ hxfair.2
        case charge => exact Option.some.inj hxt ▸ hxfair.2
        all_goals cases hxt
      omega

theorem turn_charges (hp : EngineFair p) (hw : p.tasks id = some w) (htodo : w.todo = step :: rest)
    (htraced : Traced p.shared step r)
    (happly : p.apply id (.stay r.1 (w.next (r.2 ++ rest))) = some q) : ChargesFollow q := by
  have ha := Pool.applied_of_apply happly
  have hshared : q.shared = r.1 := ha.shared
  -- A connection that the next step of the worker holds is held in the new pool.
  have hown {t : Nat} (h : ∃ x ∈ r.2.head?, x.HoldsOpen t) :
      ∃ i v, q.tasks i = some v ∧ ∃ x ∈ v.todo.head?, x.HoldsOpen t := by
    obtain ⟨x, hx, hholds⟩ := h
    obtain ⟨more, hmore⟩ : ∃ more, r.2 = x :: more := by
      cases hlist : r.2 with
      | nil =>
        rw [hlist] at hx
        cases hx
      | cons first more =>
        rw [hlist] at hx
        cases hx
        exact ⟨more, rfl⟩
    refine ⟨id, { w with todo := r.2 ++ rest }, ?_, x, by simp [hmore], hholds⟩
    rw [ha.own, hmore]
    rfl
  intro t ht
  rw [hshared] at ht ⊢
  rcases htraced.opened t ht with hold | hnew
  · rcases hp.charges t hold with hcharged | ⟨i, v, hv, x, hx, hholds⟩
    · exact .inl (htraced.charged t hcharged)
    · by_cases hid : i = id
      · subst hid
        cases hw.symm.trans hv
        rw [htodo] at hx
        cases hx
        exact (htraced.held t hholds).imp (fun h => h) hown
      · exact .inr ⟨i, v, ha.woken hid hv, x, hx, hholds⟩
  · exact .inr (hown hnew)

end Turn

theorem fair_abort {id : Nat} {w : Worker} (hp : EngineFair p) (hw : p.tasks id = some w)
    (hok : ∀ step ∈ w.todo, ∀ t, ¬ step.HoldsOpen t)
    (happly : p.apply id (.stay p.shared none) = some q) : EngineFair q := by
  have ha := Pool.applied_of_apply happly
  refine ⟨?_, ?_, ?_⟩
  · refine Pool.apply_inv happly (.stay hp.inv.shared nofun ?_)
    intro i v _ hv
    exact hp.inv.tasks hv
  · exact Pool.Exclusive.apply hp.own hw .quit happly
  · intro t ht
    have hshared : q.shared = p.shared := ha.shared
    rw [hshared] at ht ⊢
    rcases hp.charges t ht with hcharged | ⟨i, v, hv, x, hx, hholds⟩
    · exact .inl hcharged
    · refine .inr ⟨i, v, ha.woken ?_ hv, x, hx, hholds⟩
      rintro rfl
      cases hw.symm.trans hv
      exact hok x (List.mem_of_mem_head? hx) t hholds

theorem engineFair_step {l : EngineLabel} (hp : EngineFair p) (hok : AdmittedOnly p l)
    (h : (engine math).step p l = some q) : EngineFair q := by
  cases Program.stepped h with
  | @env e s hs =>
    obtain ⟨hlog, hledger⟩ := engineEnv_ledger hs
    refine ⟨⟨?_, ?_⟩, hp.own, ?_⟩
    · exact hp.inv.shared.congr hlog hledger
    · intro i v hv
      have hfair := hp.inv.tasks hv
      refine ⟨?_, hfair.single⟩
      rw [hledger]
      exact hfair.fair
    · intro t ht
      rw [hledger] at ht ⊢
      exact hp.charges t ht
  | @start id b q hspawn =>
    refine ⟨?_, ?_, ?_⟩
    · refine Pool.spawn_inv hspawn hp.inv ⟨?_, List.forall_mem_nil _⟩
      intro step hstep
      cases List.mem_singleton.mp hstep
      exact trivial
    · exact Pool.Exclusive.spawn hp.own rfl hspawn
    · obtain ⟨hfree, rfl⟩ := Pool.spawn_eq_some hspawn
      intro t ht
      refine (hp.charges t ht).imp (fun h => h) ?_
      rintro ⟨i, v, hv, hholds⟩
      refine ⟨i, v, ?_, hholds⟩
      have hne : i ≠ id := by
        rintro rfl
        rw [hfree] at hv
        cases hv
      simpa only [ne_eq, hne, not_false_eq_true, Function.update_of_ne] using hv
  | @act id w input e q hw he happly =>
    rcases workerAct_cases he with ⟨rfl, rfl⟩ | ⟨step, rest, r, htodo, hr, rfl⟩
    · exact fair_abort hp hw (hok w hw) happly
    · have hadmitted : step.Admitted p w := by
        have hhead : step ∈ w.todo.head? := by simp [htodo]
        cases input
        case abort => cases step <;> cases hr
        all_goals exact hok w hw step hhead
      obtain ⟨hkept, htraced, -⟩ := perform_spec hp.inv.shared
        ((hp.inv.tasks hw).fair step (by simp [htodo])) (fun _ heq => by subst heq; exact hadmitted) hr
      exact ⟨Pool.apply_inv happly (turn_inv hp hw htodo hkept htraced hadmitted),
        Pool.Exclusive.apply hp.own hw (turn_takesFree hp hw htodo htraced) happly,
        turn_charges hp hw htodo htraced happly⟩

end Runs

section Alone

variable {math : FloatMath}

structure Alone (p : Engine) : Prop where
  fair : EngineFair p
  only : ∀ i, i ≠ 0 → p.tasks i = none
  off : ∀ cfg, p.shared.config = some cfg → cfg.enableHttp3 = false

def solo : EngineLabel → Bool
  | .start 0 _ | .act 0 .go | .act 0 (.answered _) => true
  | _ => false

variable {l : EngineLabel} {p : Engine}

theorem Alone.admittedOnly (hp : Alone p) (hl : solo l = true) : AdmittedOnly p l := by
  have hturn {w : Worker} (hw : p.tasks 0 = some w) {step : WorkerStep}
      (hstep : step ∈ w.todo.head?) : step.Admitted p w := by
    cases step
    case configure => exact hp.off
    case admission cfg host =>
      intro _ i v hv x hx
      by_cases hi : i = 0
      · subst hi
        cases hw.symm.trans hv
        cases htodo : w.todo with
        | nil =>
          rw [htodo] at hx
          cases hx
        | cons first rest =>
          rw [htodo] at hstep hx
          cases hstep
          rcases List.mem_cons.mp hx with rfl | hx
          · rfl
          · exact connects_ticket ((hp.fair.inv.tasks hw).single x (by rw [htodo]; exact hx))
      · rw [hp.only i hi] at hv
        cases hv
    all_goals exact trivial
  unfold solo at hl
  split at hl
  · exact trivial
  · intro w hw step hstep
    exact hturn hw hstep
  · intro w hw step hstep
    exact hturn hw hstep
  · cases hl

theorem Alone.step {q : Engine} (hp : Alone p) (hl : solo l = true)
    (h : (engine math).step p l = some q) : Alone q := by
  have hfair := engineFair_step hp.fair (hp.admittedOnly hl) h
  cases Program.stepped h with
  | env _ => cases hl
  | @start id b q hspawn =>
    cases id with
    | succ n => cases hl
    | zero =>
      obtain ⟨_, rfl⟩ := Pool.spawn_eq_some hspawn
      refine ⟨hfair, ?_, hp.off⟩
      intro i hi
      simpa only [ne_eq, hi, not_false_eq_true, Function.update_of_ne] using hp.only i hi
  | @act id w input e q hw he happly =>
    cases id with
    | succ n => cases hl
    | zero =>
      have ha := Pool.applied_of_apply happly
      have hcfg : e.shared.config = p.shared.config := by
        rcases workerAct_cases he with ⟨_, rfl⟩ | ⟨step, rest, r, htodo, hr, rfl⟩
        · rfl
        · exact (perform_spec hp.fair.inv.shared
            ((hp.fair.inv.tasks hw).fair step (by simp [htodo])) (fun _ _ => hp.off) hr).2.2
      have hquiet : e.spawned = none := by
        rcases workerAct_cases he with ⟨_, rfl⟩ | ⟨step, rest, r, _, _, rfl⟩
        · rfl
        · rfl
      refine ⟨hfair, ?_, ?_⟩
      · intro i hi
        cases hq : q.tasks i with
        | none => rfl
        | some v =>
          rcases ha.other hi hq with ⟨u, hu, _⟩ | hspawned
          · rw [hp.only i hi] at hu
            cases hu
          · rw [hquiet] at hspawned
            cases hspawned
      · rw [ha.shared, hcfg]
        exact hp.off

end Alone

end EgressDns
