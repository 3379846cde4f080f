import EgressDns.Cloudflare.Validation
import EgressDns.Lib.Tasks
import EgressDns.Ranking.Classifier
import EgressDns.Ranking.Quality
import EgressDns.Resolver.Spelling
import EgressDns.Resolver.Transitions

/-!
# The service, from the query to its answer

Queries pass the first half of the resolver and then become tasks of the running one; responses
are shaped by the quality store, the validations and the service classifier. Those learn from the
probes of what was fetched, under the name of the cache key. Two runs of it whose queries differ in
the case of the names only are compared through a view that forgets the case of questions and
owners.
-/

namespace EgressDns

namespace System

open Lib

variable {hk : Hickory}

/-! ## Tasks up to the spelling of their question -/

def Asker.asked (asker : Asker) : Asker := { asker with request := asker.request.asked }

def Role.asked : Role → Role
  | .client asker => .client asker.asked
  | .refresh waiting => .refresh (waiting.map fun w => (w.1.asked, w.2))
  | .validation => .validation

def Task.asked (t : Task hk) : Task hk := { t with role := t.role.asked }

def Response.plain (response : Response) : Response :=
  { response with answer := response.answer.plain }

def Shared.plain (s : Shared hk) : Shared hk := { s with responses := s.responses.map Response.plain }

@[simp] theorem Response.plain_plain (response : Response) :
    response.plain.plain = response.plain := by
  simp only [Response.plain, Answer.plain, Message.plain_plain]

@[simp] theorem Shared.plain_plain (s : Shared hk) : s.plain.plain = s.plain := by
  simp only [Shared.plain, List.map_map]
  congr 1
  exact List.map_congr_left fun response _ => response.plain_plain

@[simp] theorem Role.asked_asked (role : Role) : role.asked.asked = role.asked := by
  cases role with
  | client asker => simp only [Role.asked, Asker.asked, Message.asked_asked]
  | refresh waiting =>
    cases waiting with
    | none => rfl
    | some w => simp only [Role.asked, Asker.asked, Option.map_some, Message.asked_asked]
  | validation => rfl

@[simp] theorem Task.asked_asked (t : Task hk) : t.asked.asked = t.asked := by
  simp only [Task.asked, Role.asked_asked]

variable (s : Shared hk) (t : Task hk)

theorem shed_asked : t.asked.shed = t.shed.asked := by
  obtain ⟨_, _, _, _ | _ | _, _⟩ := t <;> rfl

theorem conclude_asked (outcome : Except ResolveError Stored) :
    t.asked.conclude outcome = (t.conclude outcome).asked := by
  obtain ⟨_, _, _, _ | _ | _, _⟩ := t <;> rfl

theorem cancelled_asked : t.asked.cancelled = t.cancelled.map Task.asked := by
  obtain ⟨_, _, _, _ | _ | _, _⟩ := t <;> rfl

theorem ledBy_asked : t.asked.ledBy = t.ledBy := by
  obtain ⟨_, _, _, _ | _ | _, _⟩ := t <;> rfl

theorem hear_asked (key : CacheKey) (flight : Except FlightError Stored) :
    (t.hear key flight).asked = t.asked.hear key flight := by
  have hkey : t.asked.key = t.key := rfl
  unfold Task.hear
  rw [hkey]
  split
  · obtain ⟨resolver, key, bars, role, stage⟩ := t
    cases role <;> cases stage <;> rfl
  · rfl

theorem insert_plain (key : CacheKey) (stored : Stored) :
    s.plain.insert key stored = (s.insert key stored).plain := by
  unfold Shared.insert
  split <;> rfl

def Action.usesRequest : Action → Bool
  | .respond _ _ => true
  | _ => false

theorem join_asked (saturated : Bool) :
    join s.plain t.asked saturated =
      (join s t saturated).map (Effect.map Shared.plain Task.asked) := by
  have hfly : s.plain.inFlight t.asked.key = s.inFlight t.key := rfl
  have hstage : t.asked.stage = t.stage := rfl
  unfold join
  rw [hfly, hstage]
  split
  · split_ifs
    · rfl
    · rw [shed_asked]
      rfl
    · rfl
  · rfl

theorem receive_asked (env : FetchEnv) (permit : Option Nat) :
    receive s.plain t.asked env permit =
      (receive s t env permit).map (Effect.map Shared.plain Task.asked) := by
  have hreceive : t.asked.resolver.receive t.asked.key env = t.resolver.receive t.key env := rfl
  have hstage : t.asked.stage = t.stage := rfl
  unfold receive
  rw [hstage, hreceive]
  split
  · split
    · rfl
    · rfl
    · have hcond : (t.asked.resolver.validatesInBackground t.asked.key &&
          !t.asked.resolver.validators.isEmpty) =
          (t.resolver.validatesInBackground t.key && !t.resolver.validators.isEmpty) := rfl
      rw [hcond]
      split
      · cases permit <;> rfl
      · rfl
  · rfl

theorem publishFlight_asked :
    publishFlight s.plain t.asked =
      (publishFlight s t).map (Effect.map Shared.plain Task.asked) := by
  have hstage : t.asked.stage = t.stage := rfl
  unfold publishFlight
  rw [hstage]
  split
  · rw [conclude_asked, ledBy_asked]
    rfl
  · rfl

theorem cancel_asked :
    cancel s.plain t.asked = (cancel s t).map (Effect.map Shared.plain Task.asked) := by
  have hstage : t.asked.stage = t.stage := rfl
  unfold cancel
  rw [hstage]
  split
  · rw [cancelled_asked]
    rfl
  · rfl

theorem verdict_asked (run : ValidatorRun) :
    verdict s.plain t.asked run =
      (verdict s t run).map (Effect.map Shared.plain Task.asked) := by
  have hstage : t.asked.stage = t.stage := rfl
  have hcfg : t.asked.resolver = t.resolver := rfl
  unfold verdict
  rw [hstage, hcfg]
  split
  · split
    · split <;> rfl
    · rfl
    · rfl
    · rfl
  · rfl

theorem readCache_asked :
    readCache s.plain t.asked = (readCache s t).map (Effect.map Shared.plain Task.asked) := by
  have hstage : t.asked.stage = t.stage := rfl
  have hheld : s.plain.cache.answers t.asked.key = s.cache.answers t.key := rfl
  unfold readCache
  rw [hstage, hheld]
  split
  · split <;> rfl
  · split <;> rfl
  · rfl

theorem act_asked {a : Action} (ha : a.usesRequest = false) :
    act s.plain t.asked a = (act s t a).map (Effect.map Shared.plain Task.asked) := by
  obtain ⟨resolver, key, bars, role, stage⟩ := t
  cases a with
  | checkFailure now =>
    cases role with
    | client asker =>
      cases stage with
      | asked =>
        simp only [act, checkFailure, Task.asked, Role.asked, Shared.plain]
        cases s.cache.failure key now with
        | mk found cache => cases found <;> rfl
      | _ => rfl
    | _ => rfl
  | lookup now allowed =>
    cases role with
    | client asker =>
      cases stage with
      | checked =>
        simp only [act, lookup, Task.asked, Role.asked, Shared.plain]
        cases s.cache.get key now with
        | stale entry staleness => cases allowed <;> rfl
        | _ => rfl
      | _ => rfl
    | _ => rfl
  | join saturated => exact join_asked s _ saturated
  | receive env permit => exact receive_asked s _ env permit
  | make | write => cases stage <;> rfl
  | insert =>
    cases stage with
    | made stored => exact congrArg (fun s' => some (Effect.stay s' _)) (insert_plain s key stored)
    | _ => rfl
  | publish => exact publishFlight_asked s _
  | cancel => exact cancel_asked s _
  | timeout => cases role <;> cases stage <;> rfl
  | takeRefresh =>
    cases role with
    | refresh waiting =>
      cases waiting with
      | some w =>
        cases stage with
        | refreshed outcome => cases outcome <;> rfl
        | _ => rfl
      | none => rfl
    | _ => rfl
  | goStale child =>
    cases role with
    | refresh waiting => cases waiting <;> rfl
    | _ => rfl
  | readStreak =>
    cases role with
    | client asker =>
      cases stage with
      | ended outcome =>
        cases outcome with
        | error report =>
          simp only [act, readStreak, Task.asked, Role.asked]
          split <;> rfl
        | ok stored => rfl
      | _ => rfl
    | _ => rfl
  | respond now env => cases ha
  | verdict run => exact verdict_asked s _ run
  | read => exact readCache_asked s _

variable {s t}

theorem wake_asked {a : Action} {e : Effect (Shared hk) (Task hk)} (h : act s t a = some e)
    (u : Task hk) : (e.wake u).asked = e.wake u.asked := by
  cases act_takes h with
  | published _ | cancelled _ => exact hear_asked u _ _
  | _ => rfl

variable (s t)

theorem send_plain (source : Option Stored) {answer answer' : Answer}
    (h : answer'.plain = answer.plain) :
    (send s.plain t.asked source answer').map (Effect.map Shared.plain Task.asked) =
      (send s t source answer).map (Effect.map Shared.plain Task.asked) := by
  have hlast : ({ key := t.key, bars := t.bars, source, answer := answer'
                  strict := s.current.cfg.dnssec.mode == .strict } : Response).plain =
      ({ key := t.key, bars := t.bars, source, answer
         strict := s.current.cfg.dnssec.mode == .strict } : Response).plain := by
    simp only [Response.plain, h]
  have hearlier : (s.responses.map Response.plain).map Response.plain =
      s.responses.map Response.plain := congrArg Shared.responses s.plain_plain
  refine congrArg (fun responses => some (Effect.stay { s with responses } none)) ?_
  exact congrArg₂ List.cons hlast hearlier

theorem respond_asked (hb : hk.CaseBlind)
    (halike : ∀ asker, t.role = .client asker → hk.ShowsAlike asker.request) (now : Nat)
    (env : ResponseEnv) :
    (respond s.plain t.asked now env).map (Effect.map Shared.plain Task.asked) =
      (respond s t now env).map (Effect.map Shared.plain Task.asked) := by
  obtain ⟨resolver, key, bars, role, stage⟩ := t
  cases role with
  | client asker =>
    have h := halike asker rfl
    cases stage with
    | refused failure =>
      exact send_plain s _ none (failureAnswer_plain resolver (asker.client now env) failure)
    | answering stored remaining stale =>
      refine send_plain s _ (some stored) ?_
      cases stale with
      | true => exact staleAnswer_plain resolver (asker.client now env) hb h stored.entry
      | false => exact hitAnswer_plain resolver (asker.client now env) hb h stored.entry remaining
    | ended outcome =>
      simp only [respond, Task.asked, Role.asked]
      split
      · rfl
      · exact send_plain s { resolver, key, bars, role := .client asker, stage := .ended outcome } _
          (settle_plain resolver (asker.client now env) hb h key s.cache _)
    | recording report streak =>
      exact send_plain (s.recordFailure key (resolver.backoff streak now)) _ none
        (settle_plain resolver (asker.client now env) hb h key s.cache _)
    | _ => rfl
  | _ => rfl

/-! ## Steps -/

variable (p : State hk)

def plainState : State hk := p.map Shared.plain Task.asked

def innerLabel : Label hk → Bool
  | .env (.reload _) => false
  | .env _ => true
  | .start _ (.arrive _ _) => false
  | .start _ (.prefetch _) => true
  | .act _ a => !a.usesRequest

theorem step_plain {l : Label hk} (hl : innerLabel l = true) :
    (program hk).step (plainState p) l = ((program hk).step p l).map plainState := by
  cases l with
  | env e =>
    cases e with
    | reload r => cases hl
    | drop key | dropFailure key => rfl
  | start id b =>
    cases b with
    | arrive asker view => cases hl
    | prefetch key =>
      exact Pool.spawn_map (f := Shared.plain) (g := Task.asked) (p := p) id
        (start p.shared (.prefetch key))
  | act id a =>
    have ha : a.usesRequest = false := by simpa [innerLabel] using hl
    have htasks : (plainState p).tasks id = (p.tasks id).map Task.asked := rfl
    simp only [Program.step]
    rw [htasks]
    cases ht : p.tasks id with
    | none => rfl
    | some t =>
      dsimp only [Option.map_some]
      have hact : (program hk).act (plainState p).shared t.asked a =
          ((program hk).act p.shared t a).map (Effect.map Shared.plain Task.asked) :=
        act_asked p.shared t ha
      rw [hact]
      cases he : (program hk).act p.shared t a with
      | none => rfl
      | some e => exact Pool.apply_map id (wake_asked he)

@[simp] theorem plainState_plainState : plainState (plainState p) = plainState p := by
  simp only [plainState, Pool.map, Shared.plain_plain, Pool.mk.injEq, true_and]
  funext i
  rw [Option.map_map]
  congr 1
  funext t
  exact t.asked_asked

theorem step_respond_plain (hb : hk.CaseBlind) (p : State hk) {id : Nat}
    (halike : ∀ t asker, p.tasks id = some t → t.role = .client asker →
      hk.ShowsAlike asker.request) (now : Nat) (env : ResponseEnv) :
    ((program hk).step (plainState p) (.act id (.respond now env))).map plainState =
      ((program hk).step p (.act id (.respond now env))).map plainState := by
  have htasks : (plainState p).tasks id = (p.tasks id).map Task.asked := rfl
  simp only [Program.step]
  rw [htasks]
  cases ht : p.tasks id with
  | none => rfl
  | some t =>
    dsimp only [Option.map_some]
    have hact : ((program hk).act (plainState p).shared t.asked (.respond now env)).map
          (Effect.map Shared.plain Task.asked) =
        ((program hk).act p.shared t (.respond now env)).map
          (Effect.map Shared.plain Task.asked) :=
      respond_asked p.shared t hb (halike t · ht) now env
    cases he : (program hk).act p.shared t (.respond now env) with
    | none =>
      rw [he] at hact
      rw [Option.map_eq_none_iff.mp hact]
      rfl
    | some e =>
      rw [he] at hact
      obtain ⟨e', he', hmap⟩ := Option.map_eq_some_iff.mp hact
      have hwake : ∀ u, (e'.wake u).asked = e'.wake u.asked :=
        wake_asked (a := .respond now env) he'
      rw [he']
      -- Both effects have the same view, and so has what they are applied to.
      have hleft := Pool.apply_map (f := Shared.plain) (g := Task.asked) (p := plainState p) id
        hwake
      have hright := Pool.apply_map (f := Shared.plain) (g := Task.asked) (p := p) id
        (wake_asked (a := .respond now env) he)
      change (plainState (plainState p)).apply id _ = _ at hleft
      rw [plainState_plainState, hmap] at hleft
      exact hleft.symm.trans hright

end System

/-! ## What responses are shaped by -/

/-- The tables that are asked by name. -/
structure Stores (P : Type) where
  quality : QualityStore P
  validations : Validations P
  services : ServiceClassifier

/-- What else `build_response` reads at that moment, with the settings the statistics are read
by. -/
structure Moment where
  now : Nat
  nowUnix : Nat
  snapshot : Option PrefixSnapshot
  modeOverride : Option CloudflareMode
  recentChange : Bool
  exploreSeed : UInt64
  evidence : EvidenceConfig
  validationTtl : Nat

namespace Stores

variable {P : Type} (math : FloatMath) (st : Stores P)

def isWebService (name : Text) : Bool := st.services.classify name = .https

def cost (name : Text) (m : Moment) (addr : IpAddr) : ℚ × Nat :=
  match st.quality.entries.lookup (ProbeKey.https addr 443 name) with
  | some s => (s.expectedCost math m.evidence m.now, s.samples)
  | none => (m.evidence.neutralCostMs, 0)

/-- The stores are asked with the name as the client spelled it. -/
def responseEnv (hk : Hickory) (cfg : Config) (request : Message) (m : Moment) : ResponseEnv :=
  let qname := queryName hk request
  { now := m.now
    nowUnix := m.nowUnix
    isWebService := st.isWebService qname
    quality := fun addr =>
      (st.quality.snapshotFor 443 qname addr).map fun s => s.reading math m.evidence m.now
    snapshot := m.snapshot
    modeOverride := m.modeOverride
    verified := st.validations.verifiedFor qname ((questionOf request).qtype = .a)
      cfg.augment.minValidations m.validationTtl m.now (st.cost math qname m)
    baselineValidated := st.validations.baseline qname
    recentChange := m.recentChange
    exploreSeed := m.exploreSeed }

/-- Nothing is recorded for this name. -/
structure Silent (name : Text) : Prop where
  quality : ∀ e ∈ st.quality.entries.entries, e.1.profile ≠ .https (trimEndDots name)
  domains : ∀ e ∈ st.validations.domains.entries, e.1.1 ≠ trimEndDots name
  baselines : ∀ e ∈ st.validations.baselines.entries, e.1 ≠ trimEndDots name

variable {st} {name : Text}

theorem Silent.lookup (h : st.Silent name) (addr : IpAddr) (port : UInt16) :
    st.quality.entries.lookup (ProbeKey.https addr port name) = none :=
  Lib.Map.lookup_eq_none fun e he hkey => h.quality e he (congrArg ProbeKey.profile hkey)

theorem Silent.snapshotFor (h : st.Silent name) (port : UInt16) (addr : IpAddr) :
    st.quality.snapshotFor port name addr =
      st.quality.entries.lookup (ProbeKey.generic addr port) := by
  rw [QualityStore.snapshotFor, h.lookup addr port]

theorem Silent.verifiedFor (h : st.Silent name) (ipv4 : Bool) (minValidations ttl now : Nat)
    (cost : IpAddr → ℚ × Nat) :
    st.validations.verifiedFor name ipv4 minValidations ttl now cost = [] := by
  have hkept : st.validations.domains.entries.filter (fun e =>
      decide (e.1.1 = trimEndDots name) && (e.1.2.isIpv4 == ipv4) &&
        decide (minValidations ≤ e.2.successes)) = [] := by
    refine List.filter_eq_nil_iff.mpr fun e he => ?_
    rw [decide_eq_false (h.domains e he)]
    simp
  simp only [Validations.verifiedFor, hkept, List.map_nil, List.insertionSort_nil]

theorem Silent.baseline (h : st.Silent name) : st.validations.baseline name = false := by
  rw [Validations.baseline, Lib.Map.lookup_eq_none h.baselines]
  rfl

/-- The request is in lower case, or its name is shown alike and unknown to the stores, as it is
spelled and in lower case. -/
def Understood (st : Stores P) (hk : Hickory) (request : Message) : Prop :=
  queryName hk request.asked = queryName hk request ∨
    hk.ShowsAlike request ∧ st.Silent (queryName hk request) ∧ st.Silent (queryName hk request.asked)

theorem Understood.showsAlike {hk : Hickory} {request : Message} (h : st.Understood hk request) :
    hk.ShowsAlike request := by
  rcases h with hsame | h
  · unfold queryName at hsame
    rw [questionOf_asked] at hsame
    exact congrArg lower hsame
  · exact h.1

theorem responseEnv_asked {hk : Hickory} {request : Message} (h : st.Understood hk request)
    (cfg : Config) (m : Moment) :
    st.responseEnv math hk cfg request.asked m = st.responseEnv math hk cfg request m := by
  have hweb : st.isWebService (queryName hk request.asked) =
      st.isWebService (queryName hk request) := by
    unfold isWebService ServiceClassifier.classify ServiceClassifier.normalise
    rw [lower_trimEndDots_congr (lower_queryName_asked h.showsAlike)]
  unfold responseEnv
  rcases h with hsame | ⟨-, hsilent, hasked⟩
  · rw [hsame, qtype_asked]
  · dsimp only
    simp only [hweb, hasked.snapshotFor, hsilent.snapshotFor, hasked.verifiedFor,
      hsilent.verifiedFor, hasked.baseline, hsilent.baseline]

/-- One call of the probe engine to a store, about a probe of port 443. -/
inductive ProbeCall (P : Type) where
  | https (cls : ObservationClass) (latency : Option Nat) (generation now : Nat) (probe : P)
  | generic (cls : ObservationClass) (latency : Option Nat) (generation now : Nat) (probe : P)
  | baseline (validated : Bool) (nowUnix : Nat) (probe : P)
  | validation (success : Bool) (now : Nat) (probe : P)

/-- The engine passes the name on that the address was offered under. -/
def learn (cfg : EvidenceConfig) (st : Stores P) (host : Text) (addr : IpAddr) :
    ProbeCall P → Stores P
  | .https cls latency generation now probe =>
    { st with quality := st.quality.record math cfg (.https addr 443 host) cls latency generation
                now probe }
  | .generic cls latency generation now probe =>
    { st with quality := st.quality.record math cfg (.generic addr 443) cls latency generation
                now probe }
  | .baseline validated nowUnix probe =>
    { st with validations := st.validations.setBaseline host validated nowUnix probe }
  | .validation success now probe =>
    { st with validations := st.validations.recordValidation host addr success now probe }

end Stores

/-- An address offered to the probe engine, with the name it is probed for. -/
structure Offered where
  hostname : Text
  addr : IpAddr
  deriving DecidableEq

/-- The offers of `schedule_probes`: ordinary addresses of a known service, those the gate lets pass
(by their place in the answer), at most `limit` of them. -/
def offersOf (key : CacheKey) (entry : CacheEntry) (limit : Nat) (gate : Nat → Bool) :
    List Offered :=
  let passed := entry.message.answers.zipIdx.filterMap fun r =>
    (recordAddress r.1).filter fun addr => (classifyAddr addr).isNone && gate r.2
  (passed.take limit).map fun addr => { hostname := key.name, addr }

def Stores.scheduleProbes {P : Type} (st : Stores P) (key : CacheKey) (entry : CacheEntry)
    (limit : Nat) (gate : Nat → Bool) : Stores P × List Offered :=
  if entry.kind ≠ .positive then (st, [])
  else
    let st :=
      if (key.qtype = .https ∨ key.qtype = .svcb) ∧ entry.message.answers ≠ [] then
        { st with services := st.services.noteHttps key.name }
      else st
    if (key.qtype = .a ∨ key.qtype = .aaaa) ∧ st.isWebService key.name = true then
      (st, offersOf key entry limit gate)
    else (st, [])

/-! ## The service -/

/-- A query in the first half of the resolver, with the resolver it was given when it came. -/
structure FrontTask (hk : Hickory) where
  config : FrontConfig
  resolver : Resolver hk
  request : Message
  transport : ClientTransport
  stage : FrontStage

structure Service (hk : Hickory) (P : Type) where
  front : FrontConfig
  datasets : DatasetSnapshot
  stores : Stores P
  offered : List Offered
  queries : Nat → Option (FrontTask hk)
  system : System.State hk
  answered : List FrontAnswer

/-- What the datasets and the operator do, any other change of the stores, the offers a fetch makes
once its answer is stored, a call of the probe engine about one of the offers, the arrival of a
query, its progress through the first half, a step of the running resolver, and a response of one of
its tasks. -/
inductive ServiceLabel (hk : Hickory) (P : Type) where
  | publish (d : DatasetSnapshot)
  | change (f : Stores P → Stores P)
  | offer (id limit : Nat) (gate : Nat → Bool)
  | probe (i : Nat) (cfg : EvidenceConfig) (call : Stores.ProbeCall P)
  | reload (fc : FrontConfig) (r : Resolver hk)
  | arrive (id : Nat) (request : Message) (transport : ClientTransport)
  | advance (id : Nat)
  | system (l : System.Label hk)
  | respond (id now : Nat) (m : Moment)

def FrontTask.asker {hk : Hickory} (q : FrontTask hk) : System.Asker where
  request := q.request
  maxSize := maxResponseSize q.config q.request q.transport

def FrontTask.task {hk : Hickory} (q : FrontTask hk) (key : CacheKey) (s : System.Shared hk) :
    System.Task hk where
  resolver := q.resolver
  key := key
  bars := s.condemned
  role := .client q.asker
  stage := .asked

namespace Service

variable {hk : Hickory} {P : Type} (math : FloatMath) (p : Service hk P) (id : Nat)

def setQuery (query : Option (FrontTask hk)) : Service hk P :=
  { p with queries := Function.update p.queries id query }

def withSystem (system : Option (System.State hk)) : Option (Service hk P) :=
  system.map fun system => { p with system }

/-- Where a query stands after a step: answered, forwarded, or still on its way. -/
def place (q : FrontTask hk) : FrontStage → Option (Service hk P)
  | .done (.answered answer) =>
    some { p.setQuery id none with answered := answer :: p.answered }
  | .done (.forwarded key) =>
    (p.setQuery id none).withSystem (p.system.spawn id (q.task key p.system.shared))
  | stage => some (p.setQuery id (some { q with stage }))

def advance : Option (Service hk P) :=
  match p.queries id with
  | none => none
  | some q =>
    match advanceFront hk q.config q.request q.transport p.datasets q.stage with
    | none => none
    | some stage => p.place id q stage

/-- A task of a client builds its response from what the stores hold under its spelling. -/
def respond (now : Nat) (m : Moment) : Option (Service hk P) :=
  match p.system.tasks id with
  | none => none
  | some t =>
    match t.role with
    | .client asker =>
      p.withSystem ((System.program hk).step p.system (.act id (.respond now
        (p.stores.responseEnv math hk t.resolver.cfg asker.request m))))
    | _ => none

/-- `fetch` offers the addresses of the entry between the insertion and the publication. -/
def offer (limit : Nat) (gate : Nat → Bool) : Option (Service hk P) :=
  match p.system.tasks id with
  | none => none
  | some t =>
    match t.stage with
    | .publishing (.ok stored) =>
      let (stores, offers) := p.stores.scheduleProbes t.key stored.entry limit gate
      some { p with stores, offered := p.offered ++ offers }
    | _ => none

def step : ServiceLabel hk P → Option (Service hk P)
  | .publish d => some { p with datasets := d }
  | .change f => some { p with stores := f p.stores }
  | .offer id limit gate => p.offer id limit gate
  | .probe i cfg call =>
    p.offered[i]?.map fun o => { p with stores := p.stores.learn math cfg o.hostname o.addr call }
  | .reload fc r =>
    some { p with
      front := fc
      system := { p.system with shared := { p.system.shared with current := r } } }
  | .arrive id request transport =>
    if (p.queries id).isSome || (p.system.tasks id).isSome then none
    else
      some (p.setQuery id (some
        { config := p.front, resolver := p.system.shared.current, request, transport
          stage := .arrived }))
  | .advance id => p.advance id
  | .system l =>
    if System.innerLabel l then p.withSystem ((System.program hk).step p.system l) else none
  | .respond id now m => p.respond math id now m

end Service

/-! ## The service up to the spelling of names -/

section View

variable {hk : Hickory} {P : Type}

@[simp] theorem FrontAnswer.plain_plain (answer : FrontAnswer) :
    answer.plain.plain = answer.plain := by
  simp only [FrontAnswer.plain, Message.plain_plain]

@[simp] theorem FrontStage.plain_plain (stage : FrontStage) : stage.plain.plain = stage.plain := by
  cases stage with
  | done outcome =>
    cases outcome with
    | answered answer => simp only [FrontStage.plain, FrontOutcome.plain, FrontAnswer.plain_plain]
    | forwarded key => rfl
  | _ => rfl

def FrontTask.plain (q : FrontTask hk) : FrontTask hk :=
  { q with request := q.request.asked, stage := q.stage.plain }

@[simp] theorem FrontTask.plain_plain (q : FrontTask hk) : q.plain.plain = q.plain := by
  simp only [FrontTask.plain, Message.asked_asked, FrontStage.plain_plain]

theorem map_idem {A : Type} {f : A → A} (h : ∀ a, f (f a) = f a) (x : Option A) :
    (x.map f).map f = x.map f := by
  cases x with
  | none => rfl
  | some a => exact congrArg some (h a)

variable (p : Service hk P)

def Service.plain : Service hk P :=
  { p with
    queries := fun i => (p.queries i).map FrontTask.plain
    system := System.plainState p.system
    answered := p.answered.map FrontAnswer.plain }

@[simp] theorem Service.plain_plain : p.plain.plain = p.plain := by
  have hqueries : (fun i => ((p.queries i).map FrontTask.plain).map FrontTask.plain) =
      fun i => (p.queries i).map FrontTask.plain := by
    funext i
    exact map_idem FrontTask.plain_plain _
  have hanswered : (p.answered.map FrontAnswer.plain).map FrontAnswer.plain =
      p.answered.map FrontAnswer.plain := by
    rw [List.map_map]
    exact List.map_congr_left fun answer _ => answer.plain_plain
  simp only [Service.plain, hqueries, hanswered, System.plainState_plainState]

def ServiceLabel.plain : ServiceLabel hk P → ServiceLabel hk P
  | .arrive id request transport => .arrive id request.asked transport
  | l => l

/-- Whoever asks asks for a name that is shown alike in lower case, and whoever is answered from the
stores asked in lower case, or for a name they do not know. -/
def SpellingGuard : ServiceLabel hk P → Prop
  | .advance id => ∀ q, p.queries id = some q → hk.ShowsAlike q.request
  | .respond id _ _ => ∀ t asker, p.system.tasks id = some t → t.role = .client asker →
      p.stores.Understood hk asker.request
  | _ => True

namespace Service

variable (math : FloatMath) (p : Service hk P) (id : Nat)

theorem setQuery_plain (query : Option (FrontTask hk)) :
    p.plain.setQuery id (query.map FrontTask.plain) = (p.setQuery id query).plain := by
  simp only [setQuery, plain, Service.mk.injEq, true_and, and_true]
  funext i
  by_cases hi : i = id
  · subst hi
    simp only [Function.update_self]
  · simp only [Function.update_of_ne hi]

theorem withSystem_plain (system : Option (System.State hk)) :
    p.plain.withSystem (system.map System.plainState) = (p.withSystem system).map plain := by
  cases system <;> rfl

theorem map_plain_of_eq {p' : Option (Service hk P)} {q : Option (Service hk P)}
    (h : p' = q.map plain) : p'.map plain = q.map plain := by
  rw [h]
  exact map_idem plain_plain q

variable (q : FrontTask hk)

theorem place_waiting (stage : FrontStage) :
    (some (p.plain.setQuery id (some { q.plain with stage := stage.plain }))).map plain =
      (some (p.setQuery id (some { q with stage }))).map plain :=
  map_plain_of_eq (congrArg some (p.setQuery_plain id (some { q with stage })))

theorem answer_plain {answer answer' : FrontAnswer} (h : answer'.plain = answer.plain)
    (earlier : List FrontAnswer) :
    ({ p.plain with answered := answer' :: earlier.map FrontAnswer.plain } : Service hk P).plain =
      ({ p with answered := answer :: earlier } : Service hk P).plain := by
  have hqueries := congrArg Service.queries p.plain_plain
  have hsystem := congrArg Service.system p.plain_plain
  have hearlier : (earlier.map FrontAnswer.plain).map FrontAnswer.plain =
      earlier.map FrontAnswer.plain := by
    rw [List.map_map]
    exact List.map_congr_left fun held _ => held.plain_plain
  simp only [plain] at hqueries hsystem
  simp only [plain, List.map_cons, h, hearlier, hqueries, hsystem]

theorem place_plain {stage stage' : FrontStage} (h : stage'.plain = stage.plain) :
    (p.plain.place id q.plain stage').map plain = (p.place id q stage).map plain := by
  cases stage with
  | done outcome =>
    cases stage' with
    | done outcome' =>
      cases outcome with
      | answered answer =>
        cases outcome' with
        | answered answer' =>
          have hanswer : answer'.plain = answer.plain := by
            simpa [FrontStage.plain, FrontOutcome.plain] using h
          have hquery : p.plain.setQuery id none = (p.setQuery id none).plain :=
            p.setQuery_plain id none
          simp only [place, Option.map_some, hquery]
          exact congrArg some ((p.setQuery id none).answer_plain hanswer p.answered)
        | forwarded key => cases h
      | forwarded key =>
        cases outcome' with
        | answered answer' => cases h
        | forwarded key' =>
          cases h
          refine map_plain_of_eq ?_
          have hspawn := Lib.Pool.spawn_map (f := System.Shared.plain) (g := System.Task.asked)
            (p := p.system) id (q.task key p.system.shared)
          have hquery : p.plain.setQuery id none = (p.setQuery id none).plain :=
            p.setQuery_plain id none
          simp only [place, hquery]
          exact (congrArg _ hspawn).trans ((p.setQuery id none).withSystem_plain _)
    | _ => cases h
  | arrived =>
    cases stage' with
    | arrived => exact p.place_waiting id q .arrived
    | _ => cases h
  | notLocal =>
    cases stage' with
    | notLocal => exact p.place_waiting id q .notLocal
    | _ => cases h
  | notSpecial =>
    cases stage' with
    | notSpecial => exact p.place_waiting id q .notSpecial
    | _ => cases h

theorem withSystem_congr {system system' : Option (System.State hk)}
    (h : system'.map System.plainState = system.map System.plainState) :
    (p.plain.withSystem system').map plain = (p.withSystem system).map plain := by
  have hplain : (p.plain.withSystem system').map plain =
      (p.plain.withSystem (system'.map System.plainState)).map plain := by
    cases system' with
    | none => rfl
    | some next => simp only [withSystem, plain, Option.map_some, System.plainState_plainState]
  rw [hplain, h]
  exact map_plain_of_eq (p.withSystem_plain system)

theorem advance_plain {id : Nat} (hg : SpellingGuard p (.advance id)) :
    (p.plain.advance id).map plain = (p.advance id).map plain := by
  have hqueries : p.plain.queries id = (p.queries id).map FrontTask.plain := rfl
  unfold advance
  rw [hqueries]
  cases hq : p.queries id with
  | none => rfl
  | some q =>
    dsimp only [Option.map_some]
    have hfront := @advanceFront_plain hk q.config q.request (hg q hq) q.transport p.datasets q.stage
    change (match advanceFront hk q.config q.request.asked q.transport p.datasets q.stage.plain with
      | none => none
      | some stage => p.plain.place id q.plain stage).map plain = _
    cases hnext : advanceFront hk q.config q.request q.transport p.datasets q.stage with
    | none =>
      rw [hnext] at hfront
      rw [Option.map_eq_none_iff.mp hfront]
    | some stage =>
      rw [hnext] at hfront
      obtain ⟨stage', hnext', hplain⟩ := Option.map_eq_some_iff.mp hfront
      rw [hnext']
      exact p.place_plain id q hplain

theorem respond_plain (hb : hk.CaseBlind) {id now : Nat} {m : Moment}
    (hg : SpellingGuard p (.respond id now m)) :
    (p.plain.respond math id now m).map plain = (p.respond math id now m).map plain := by
  have htasks : p.plain.system.tasks id = (p.system.tasks id).map System.Task.asked := rfl
  unfold respond
  rw [htasks]
  cases ht : p.system.tasks id with
  | none => rfl
  | some t =>
    dsimp only [Option.map_some]
    have hrole : t.asked.role = t.role.asked := rfl
    rw [hrole]
    cases hclient : t.role with
    | client asker =>
      have henv : p.plain.stores.responseEnv math hk t.asked.resolver.cfg asker.asked.request m =
          p.stores.responseEnv math hk t.resolver.cfg asker.request m :=
        Stores.responseEnv_asked math (hg t asker ht hclient) t.resolver.cfg m
      simp only [System.Role.asked]
      rw [henv]
      have halike : ∀ t asker, p.system.tasks id = some t → t.role = .client asker →
          hk.ShowsAlike asker.request := fun t asker ht hrole => (hg t asker ht hrole).showsAlike
      exact p.withSystem_congr (System.step_respond_plain hb p.system halike now _)
    | refresh waiting | validation => rfl

/-- The key of a task and what it has stored do not depend on the spelling. -/
theorem offer_plain (limit : Nat) (gate : Nat → Bool) :
    p.plain.offer id limit gate = (p.offer id limit gate).map plain := by
  have htasks : p.plain.system.tasks id = (p.system.tasks id).map System.Task.asked := rfl
  unfold offer
  rw [htasks]
  cases p.system.tasks id with
  | none => rfl
  | some t =>
    dsimp only [Option.map_some]
    have hstage : t.asked.stage = t.stage := rfl
    rw [hstage]
    split <;> rfl

theorem step_plain (hb : hk.CaseBlind) {l : ServiceLabel hk P} (hg : SpellingGuard p l) :
    (p.plain.step math l.plain).map plain = (p.step math l).map plain := by
  cases l with
  | publish d | change f | reload fc r => exact map_plain_of_eq rfl
  | offer id limit gate => exact map_plain_of_eq (p.offer_plain id limit gate)
  | probe i cfg call =>
    have hoffered : p.plain.offered[i]? = p.offered[i]? := rfl
    refine map_plain_of_eq ?_
    simp only [step, ServiceLabel.plain, hoffered]
    cases p.offered[i]? <;> rfl
  | arrive id request transport =>
    have hfree : ((p.plain.queries id).isSome || (p.plain.system.tasks id).isSome) =
        ((p.queries id).isSome || (p.system.tasks id).isSome) :=
      congrArg₂ or Option.isSome_map Option.isSome_map
    simp only [step, ServiceLabel.plain]
    rw [hfree]
    split
    · rfl
    · exact map_plain_of_eq (congrArg some (p.setQuery_plain id (some
        { config := p.front, resolver := p.system.shared.current, request, transport
          stage := .arrived })))
  | advance id => exact p.advance_plain hg
  | system l =>
    simp only [step, ServiceLabel.plain]
    split
    · rename_i hinner
      have hstep : (System.program hk).step p.plain.system l =
          ((System.program hk).step p.system l).map System.plainState :=
        System.step_plain p.system hinner
      rw [hstep]
      exact map_plain_of_eq (p.withSystem_plain _)
    · rfl
  | respond id now m => exact p.respond_plain math hb hg

def seen : List FrontAnswer × List Answer :=
  (p.answered.map FrontAnswer.plain,
    p.system.shared.responses.map fun response => response.answer.plain)

theorem seen_plain : p.plain.seen = p.seen := by
  have hanswered := congrArg Service.answered p.plain_plain
  have hresponses : (p.system.shared.responses.map System.Response.plain).map
      (fun response => response.answer.plain) =
      p.system.shared.responses.map fun response => response.answer.plain := by
    rw [List.map_map]
    refine List.map_congr_left fun response _ => ?_
    simp only [Function.comp_apply, System.Response.plain, Answer.plain, Message.plain_plain]
  exact congrArg₂ Prod.mk hanswered hresponses

end Service

/-- Two runs from one state whose queries differ in the case of their names only, in which all names
are shown alike in lower case and whoever is answered from the stores asked in lower case or for a
name they do not know, get equally far and give the same answers up to the case of questions and
owners. -/
theorem names_case_insensitive (hb : hk.CaseBlind) (math : FloatMath) (p : Service hk P)
    (labels labels' : List (ServiceLabel hk P))
    (hsame : List.Forall₂ (fun l l' => l.plain = l'.plain) labels labels')
    (hguard : Lib.Guarded (Service.step math) SpellingGuard p labels)
    (hguard' : Lib.Guarded (Service.step math) SpellingGuard p labels') :
    (Lib.run (Service.step math) p labels).map Service.seen =
      (Lib.run (Service.step math) p labels').map Service.seen := by
  have hstep : ∀ {s s' : Service hk P} {l l'}, s.plain = s'.plain → l.plain = l'.plain →
      SpellingGuard s l → SpellingGuard s' l' →
      (s.step math l).map Service.plain = (s'.step math l').map Service.plain := by
    intro s s' l l' hview hl hg hg'
    rw [← s.step_plain math hb hg, ← s'.step_plain math hb hg', hview, hl]
  have hview : (Lib.run (Service.step math) p labels).map Service.plain =
      (Lib.run (Service.step math) p labels').map Service.plain :=
    Lib.view_run (fun {s s' l l'} => @hstep s s' l l') rfl hsame hguard hguard'
  have hseen := congrArg (Option.map Service.seen) hview
  have hforget : Service.seen ∘ Service.plain = (Service.seen : Service hk P → _) :=
    funext Service.seen_plain
  rwa [Option.map_map, Option.map_map, hforget] at hseen

instance (st : Stores P) (name : Text) : Decidable (st.Silent name) :=
  decidable_of_iff
    ((∀ e ∈ st.quality.entries.entries, e.1.profile ≠ .https (trimEndDots name)) ∧
      (∀ e ∈ st.validations.domains.entries, e.1.1 ≠ trimEndDots name) ∧
      ∀ e ∈ st.validations.baselines.entries, e.1 ≠ trimEndDots name)
    ⟨fun h => ⟨h.1, h.2.1, h.2.2⟩, fun h => ⟨h.quality, h.domains, h.baselines⟩⟩

instance (st : Stores P) (request : Message) : Decidable (st.Understood hk request) :=
  inferInstanceAs (Decidable (_ ∨ _))

def askerOf (p : Service hk P) (id : Nat) : Option System.Asker :=
  (p.system.tasks id).bind fun t =>
    match t.role with
    | .client asker => some asker
    | _ => none

theorem askerOf_eq_some {p : Service hk P} {id : Nat} {asker : System.Asker} :
    askerOf p id = some asker ↔ ∃ t, p.system.tasks id = some t ∧ t.role = .client asker := by
  rw [askerOf, Option.bind_eq_some_iff]
  refine exists_congr fun t => and_congr_right fun _ => ?_
  cases t.role <;> simp

instance decidableSpellingGuard (p : Service hk P) :
    (l : ServiceLabel hk P) → Decidable (SpellingGuard p l)
  | .respond id _ _ =>
    decidable_of_iff (∀ asker ∈ askerOf p id, p.stores.Understood hk asker.request)
      ⟨fun h t asker ht hrole => h asker (askerOf_eq_some.mpr ⟨t, ht, hrole⟩),
        fun h asker hasker => by
          obtain ⟨t, ht, hrole⟩ := askerOf_eq_some.mp hasker
          exact h t asker ht hrole⟩
  | .advance id => inferInstanceAs (Decidable (∀ q ∈ p.queries id, hk.ShowsAlike q.request))
  | .publish _ => isTrue trivial
  | .change _ => isTrue trivial
  | .offer _ _ _ => isTrue trivial
  | .probe _ _ _ => isTrue trivial
  | .reload _ _ => isTrue trivial
  | .arrive _ _ _ => isTrue trivial
  | .system _ => isTrue trivial

end View

def shoutedQuery : Message :=
  { addressQuery with queries := [⟨⟨[[65]]⟩, .a, classIn⟩] }

def pairAnswer : CacheEntry where
  message := { addressQuery with answers := [hostRecord 97 0x68100001, hostRecord 97 0x68100002] }
  receivedAt := 0
  receivedUnix := 0
  ttl := 300
  kind := .positive
  dnssec := .insecure
  source := { server := "quad9", transport := .udp }
  fingerprint := 0
  rrsigExpiryUnix := none

def emptyStores : Stores Unit where
  quality := .new 16
  validations := .new 16
  services := { known := [[97]], capacity := 16 }

def measuredStores : Stores Unit :=
  { emptyStores with
    quality :=
      { entries := (∅ : Lib.Map ProbeKey (QualityStats Unit)).insert
          (ProbeKey.https (.v4 0x68100002) 443 [97])
          { QualityStats.new 1 with
            alpha := 11, ewmaMs := 10, window := [10], windowPos := 1, samples := 10
            successes := 10, lastUpdate := some 0, lastSuccess := some 0 }
        capacity := 16 } }

def cachedService (st : Stores Unit) : Service .sample Unit where
  front := frontConfig
  datasets := .empty
  stores := st
  offered := []
  queries _ := none
  system :=
    let p := System.initial (singleResolver .off) System.defaultStale 86400
    { p with shared := { p.shared with
        cache := p.shared.cache.setAnswer (frontKey .sample frontConfig addressQuery "default")
          (some pairAnswer) } }
  answered := []

def quietMoment : Moment where
  now := 0
  nowUnix := 0
  snapshot := none
  modeOverride := none
  recentChange := false
  exploreSeed := 99
  evidence := .shipped
  validationTtl := 0

def askAndAnswer (request : Message) : List (ServiceLabel .sample Unit) :=
  [.arrive 0 request .udp, .advance 0, .advance 0, .advance 0, .system (.act 0 (.checkFailure 0)),
   .system (.act 0 (.lookup 0 false)), .respond 0 0 quietMoment]

def sentAddresses (st : Stores Unit) (request : Message) : Option (List (List (Option IpAddr))) :=
  (Lib.run (Service.step .rounded) (cachedService st) (askAndAnswer request)).map fun p =>
    p.system.shared.responses.map fun response => response.answer.message.answers.map recordAddress

theorem askAndAnswer_same :
    List.Forall₂ (fun l l' => l.plain = l'.plain) (askAndAnswer addressQuery)
      (askAndAnswer shoutedQuery) := by
  have hquery : addressQuery.asked = shoutedQuery.asked := by decide +kernel
  refine .cons ?_ (.cons rfl (.cons rfl (.cons rfl (.cons rfl (.cons rfl (.cons rfl .nil))))))
  simp only [ServiceLabel.plain, hquery]

theorem names_case_insensitive_unmeasured :
    sentAddresses emptyStores addressQuery =
        some [[some (.v4 0x68100001), some (.v4 0x68100002)]] ∧
    (Lib.run (Service.step .rounded) (cachedService emptyStores)
        (askAndAnswer addressQuery)).map Service.seen =
      (Lib.run (Service.step .rounded) (cachedService emptyStores)
        (askAndAnswer shoutedQuery)).map Service.seen := by
  refine ⟨by decide +kernel, ?_⟩
  exact names_case_insensitive Hickory.sample_caseBlind _ _ _ _ askAndAnswer_same
    (by decide +kernel) (by decide +kernel)

/-- The measured address leads when the name is asked for in lower case, and comes second when it
is asked for in upper case. -/
theorem spelling_changes_order :
    List.Forall₂ (fun l l' => l.plain = l'.plain) (askAndAnswer addressQuery)
      (askAndAnswer shoutedQuery) ∧
    sentAddresses measuredStores addressQuery =
      some [[some (.v4 0x68100002), some (.v4 0x68100001)]] ∧
    sentAddresses measuredStores shoutedQuery =
      some [[some (.v4 0x68100001), some (.v4 0x68100002)]] :=
  ⟨askAndAnswer_same, by decide +kernel, by decide +kernel⟩

end EgressDns
