import EgressDns.Datasets.Snapshot
import EgressDns.Dns.SpecialUse
import EgressDns.Resolver.System

/-!
# In front of the cache

The first half of `Resolver::handle_inner`: requests that are turned away, local data, special-use
names, and the cache key and group of what is left.
-/

namespace EgressDns

open Lib

inductive ClientTransport where
  | udp | tcp
  deriving DecidableEq, Repr

inductive AnyPolicy where
  | refuse | minimal | forward
  deriving DecidableEq, Repr

inductive SpecialUsePolicy where
  | answer | forward
  deriving DecidableEq, Repr

/-- What the first half reads of the configuration besides the resolver's part of it. -/
structure FrontConfig where
  cfg : Config
  anyPolicy : AnyPolicy
  specialUse : SpecialUsePolicy
  localTtl : Nat
  defaultGroup : String
  ecsIdentity : Option String
  tcpMaxMessageBytes : Nat
  nonEdnsMaxPayload : Nat

inductive FrontOrigin where
  | localData | rejected
  deriving DecidableEq, Repr

structure FrontAnswer where
  message : Message
  origin : FrontOrigin
  maxSize : Nat
  deriving DecidableEq

/-- Answered at once, or looked up in the cache and sent upstream under this key, which names the
group. -/
inductive FrontOutcome where
  | answered (answer : FrontAnswer)
  | forwarded (key : CacheKey)

def responseSkeleton (hk : Hickory) (request : Message) (recursionAvailable : Bool) : Message where
  metadata := { hk.responseFromRequest request.metadata with recursionAvailable }
  queries := request.queries
  answers := []
  authorities := []
  additionals := []
  edns := none

def maxResponseSize (fc : FrontConfig) (request : Message) : ClientTransport → Nat
  | .tcp => fc.tcpMaxMessageBytes
  | .udp =>
    match request.edns with
    | none => fc.nonEdnsMaxPayload
    | some edns => min (max edns.maxPayload 512) fc.cfg.maxPayload

section Front

variable (hk : Hickory) (fc : FrontConfig) (request : Message) (maxSize : Nat)

def queryName : Text := hk.nameText (questionOf request).name

def rejectWith (code : ResponseCode) : FrontAnswer where
  message := attachResponseEdns fc.cfg request (errorResponse hk request code true)
  origin := .rejected
  maxSize := maxSize

def localRecords (records : List Record) : FrontAnswer where
  message :=
    let msg := responseSkeleton hk request true
    attachResponseEdns fc.cfg request
      { msg with metadata := { msg.metadata with authoritative := true }, answers := records }
  origin := .localData
  maxSize := maxSize

def localNxDomain : FrontAnswer where
  message :=
    let msg := errorResponse hk request .nxDomain true
    { msg with metadata := { msg.metadata with authoritative := true } }
  origin := .localData
  maxSize := maxSize

def addrData : IpAddr → RData
  | .v4 v4 => .a v4
  | .v6 v6 => .aaaa v6

def hostsAnswer (d : DatasetSnapshot) : Option FrontAnswer :=
  let qtype := (questionOf request).qtype
  let qname := queryName hk request
  if qtype = .a ∨ qtype = .aaaa then
    let addrs := d.hosts.getFamily qname (qtype = .a)
    if addrs ≠ [] then
      some (localRecords hk fc request maxSize (addrs.map fun addr =>
        Record.fromRdata (questionOf request).name fc.localTtl (addrData addr)))
    else if (d.hosts.get qname).isSome then some (localRecords hk fc request maxSize [])
    else none
  else none

/-- `local_answer`: a hosts entry for the other family is NODATA, not a fall-through. -/
def localAnswer (d : DatasetSnapshot) : Option FrontAnswer :=
  match hostsAnswer hk fc request maxSize d with
  | some answer => some answer
  | none =>
    match d.zones.lookup (queryName hk request) (questionOf request).qtype with
    | .records records => some (localRecords hk fc request maxSize records)
    | .noData => some (localRecords hk fc request maxSize [])
    | .nxDomain => some (localNxDomain hk request maxSize)
    | .notInZone => none

def registryAnswer : SpecialName.Disposition → Option FrontAnswer
  | .forward => none
  | .nxDomain =>
    let msg := errorResponse hk request .nxDomain true
    some
      { message := attachResponseEdns fc.cfg request
          { msg with metadata := { msg.metadata with authoritative := true } }
        origin := .localData
        maxSize }
  | .loopMarker =>
    some (localRecords hk fc request maxSize
      ((SpecialName.loopMarkerRdata (questionOf request).qtype).toList.map
        fun data => Record.fromRdata (questionOf request).name 0 data))
  | .loopback =>
    some (localRecords hk fc request maxSize
      ((SpecialName.loopbackRdata (questionOf request).qtype).toList.map
        fun data => Record.fromRdata (questionOf request).name fc.localTtl data))

def specialUseAnswer (d : DatasetSnapshot) : Option FrontAnswer :=
  match SpecialName.classify (queryName hk request) with
  | none => none
  | some (_, disposition) =>
    if (d.groupFor (queryName hk request)).isSome then none
    else registryAnswer hk fc request maxSize disposition

def frontKey (group : String) : CacheKey :=
  let question := questionOf request
  CacheKey.new (hk.nameText question.name) question.qtype question.qclass
    { group, ecsIdentity := fc.ecsIdentity }
    { dnssecOk := fc.cfg.dnssec.mode.wantsDnssecRecords || System.clientDo request
      checkingDisabled := request.metadata.checkingDisabled }

def forwardKey (d : DatasetSnapshot) : CacheKey :=
  frontKey hk fc request ((d.groupFor (queryName hk request)).getD fc.defaultGroup)

def earlyAnswer : Option FrontAnswer :=
  if request.metadata.opCode ≠ .query then some (rejectWith hk fc request maxSize .notImp)
  else if request.queries.length ≠ 1 then some (rejectWith hk fc request maxSize .formErr)
  else if (request.edns.map Edns.version).any (0 < ·) then
    some { message := errorResponse hk request .badVers true, origin := .rejected, maxSize }
  else if (questionOf request).qclass ≠ 1 ∧ (questionOf request).qclass ≠ 3 then
    some (rejectWith hk fc request maxSize .refused)
  else if (questionOf request).qtype = .any then
    match fc.anyPolicy with
    | .refuse => some (rejectWith hk fc request maxSize .refused)
    | .minimal =>
      let msg := responseSkeleton hk request true
      let hinfo : RData := .other .hinfo (7 :: ascii "RFC8482" ++ [0])
      some
        { message := attachResponseEdns fc.cfg request
            { msg with answers :=
                [Record.fromRdata (questionOf request).name fc.cfg.ttl.capDefault hinfo] }
          origin := .localData
          maxSize }
    | .forward => none
  else none

end Front

/-! ## One query between publications -/

inductive FrontStage where
  | arrived
  | notLocal
  | notSpecial
  | done (outcome : FrontOutcome)

/-- The published snapshot, those that were current since the query arrived, and how far it is. -/
structure FrontRun where
  current : DatasetSnapshot
  seen : List DatasetSnapshot
  stage : FrontStage

inductive FrontLabel where
  | publish (d : DatasetSnapshot)
  | advance

section Run

variable (hk : Hickory) (fc : FrontConfig) (request : Message) (transport : ClientTransport)

def advanceFront (d : DatasetSnapshot) : FrontStage → Option FrontStage
  | .arrived =>
    let maxSize := maxResponseSize fc request transport
    match earlyAnswer hk fc request maxSize with
    | some answer => some (.done (.answered answer))
    | none =>
      match localAnswer hk fc request maxSize d with
      | some answer => some (.done (.answered answer))
      | none => some .notLocal
  | .notLocal =>
    match fc.specialUse with
    | .forward => some .notSpecial
    | .answer =>
      match specialUseAnswer hk fc request (maxResponseSize fc request transport) d with
      | some answer => some (.done (.answered answer))
      | none => some .notSpecial
  | .notSpecial => some (.done (.forwarded (forwardKey hk fc request d)))
  | .done _ => none

def FrontRun.start (d : DatasetSnapshot) : FrontRun where
  current := d
  seen := [d]
  stage := .arrived

def FrontRun.step (s : FrontRun) : FrontLabel → Option FrontRun
  | .publish d => some { s with current := d, seen := d :: s.seen }
  | .advance =>
    (advanceFront hk fc request transport s.current s.stage).map fun stage => { s with stage }

def frontOf (d : DatasetSnapshot) : FrontOutcome :=
  let maxSize := maxResponseSize fc request transport
  match earlyAnswer hk fc request maxSize with
  | some answer => .answered answer
  | none =>
    match localAnswer hk fc request maxSize d with
    | some answer => .answered answer
    | none =>
      match fc.specialUse with
      | .forward => .forwarded (forwardKey hk fc request d)
      | .answer =>
        match specialUseAnswer hk fc request maxSize d with
        | some answer => .answered answer
        | none => .forwarded (forwardKey hk fc request d)

/-- Both snapshots have the same local answer and the same group for the request. -/
def Agrees (d d' : DatasetSnapshot) : Prop :=
  localAnswer hk fc request (maxResponseSize fc request transport) d =
      localAnswer hk fc request (maxResponseSize fc request transport) d' ∧
    d.groupFor (queryName hk request) = d'.groupFor (queryName hk request)

instance (d d' : DatasetSnapshot) : Decidable (Agrees hk fc request transport d d') :=
  inferInstanceAs (Decidable (_ ∧ _))

/-- What is published between the loads of the query agrees with what it replaces. -/
def SnapshotGuard (s : FrontRun) : FrontLabel → Prop
  | .publish d =>
    match s.stage with
    | .notLocal | .notSpecial => Agrees hk fc request transport d s.current
    | .arrived | .done _ => True
  | .advance => True

instance (s : FrontRun) (l : FrontLabel) :
    Decidable (SnapshotGuard hk fc request transport s l) := by
  unfold SnapshotGuard
  split
  · split <;> infer_instance
  · infer_instance

variable {hk fc request transport} {d : DatasetSnapshot} {s : FrontRun}

theorem specialUseAnswer_congr {d' : DatasetSnapshot} {maxSize : Nat}
    (h : d.groupFor (queryName hk request) = d'.groupFor (queryName hk request)) :
    specialUseAnswer hk fc request maxSize d = specialUseAnswer hk fc request maxSize d' := by
  unfold specialUseAnswer
  rw [h]

variable (hk fc request transport)

structure PastLocal (d : DatasetSnapshot) : Prop where
  early : earlyAnswer hk fc request (maxResponseSize fc request transport) = none
  notLocal : localAnswer hk fc request (maxResponseSize fc request transport) d = none

def PastSpecial (d : DatasetSnapshot) : Prop :=
  fc.specialUse = .forward ∨
    specialUseAnswer hk fc request (maxResponseSize fc request transport) d = none

def Single (s : FrontRun) : Prop :=
  match s.stage with
  | .arrived => True
  | .notLocal => PastLocal hk fc request transport s.current
  | .notSpecial => PastLocal hk fc request transport s.current ∧
      PastSpecial hk fc request transport s.current
  | .done outcome => ∃ d ∈ s.seen, outcome = frontOf hk fc request transport d

variable {hk fc request transport}

theorem PastLocal.of_agrees {d' : DatasetSnapshot} (h : PastLocal hk fc request transport d)
    (ha : Agrees hk fc request transport d' d) : PastLocal hk fc request transport d' :=
  ⟨h.early, ha.1.trans h.notLocal⟩

theorem PastSpecial.of_agrees {d' : DatasetSnapshot} (h : PastSpecial hk fc request transport d)
    (ha : Agrees hk fc request transport d' d) : PastSpecial hk fc request transport d' :=
  h.imp id fun hnone => (specialUseAnswer_congr ha.2).trans hnone

theorem frontOf_of_past (h : PastLocal hk fc request transport d)
    (hs : PastSpecial hk fc request transport d) :
    frontOf hk fc request transport d = .forwarded (forwardKey hk fc request d) := by
  simp only [frontOf, h.early, h.notLocal]
  cases hpolicy : fc.specialUse with
  | forward => rfl
  | answer =>
    rcases hs with hf | hnone
    · rw [hpolicy] at hf
      cases hf
    · rw [hnone]

theorem single_advance {stage : FrontStage} (hcur : s.current ∈ s.seen)
    (h : Single hk fc request transport s)
    (he : advanceFront hk fc request transport s.current s.stage = some stage) :
    Single hk fc request transport { s with stage } := by
  cases hstage : s.stage with
  | arrived =>
    simp only [hstage, advanceFront] at he
    split at he
    · rename_i answer hearly
      cases he
      exact ⟨s.current, hcur, by simp only [frontOf, hearly]⟩
    · rename_i hearly
      split at he
      · rename_i answer hlocal
        cases he
        exact ⟨s.current, hcur, by simp only [frontOf, hearly, hlocal]⟩
      · rename_i hlocal
        cases he
        exact ⟨hearly, hlocal⟩
  | notLocal =>
    simp only [Single, hstage] at h
    simp only [hstage, advanceFront] at he
    split at he
    · rename_i hpolicy
      cases he
      exact ⟨h, .inl hpolicy⟩
    · rename_i hpolicy
      split at he
      · rename_i answer hspecial
        cases he
        exact ⟨s.current, hcur, by simp only [frontOf, h.early, h.notLocal, hpolicy, hspecial]⟩
      · rename_i hspecial
        cases he
        exact ⟨h, .inr hspecial⟩
  | notSpecial =>
    simp only [Single, hstage] at h
    simp only [hstage, advanceFront] at he
    cases he
    exact ⟨s.current, hcur, (frontOf_of_past h.1 h.2).symm⟩
  | done outcome =>
    simp only [hstage, advanceFront] at he
    cases he

theorem single_publish (h : Single hk fc request transport s)
    (hg : SnapshotGuard hk fc request transport s (.publish d)) :
    Single hk fc request transport { s with current := d, seen := d :: s.seen } := by
  unfold Single at h ⊢
  unfold SnapshotGuard at hg
  cases hstage : s.stage with
  | arrived => exact trivial
  | notLocal =>
    simp only [hstage] at h hg
    exact h.of_agrees hg
  | notSpecial =>
    simp only [hstage] at h hg
    exact ⟨h.1.of_agrees hg, h.2.of_agrees hg⟩
  | done outcome =>
    simp only [hstage] at h
    obtain ⟨d', hd', he⟩ := h
    exact ⟨d', List.mem_cons_of_mem _ hd', he⟩

theorem single_step {t : FrontRun} {l : FrontLabel}
    (h : s.current ∈ s.seen ∧ Single hk fc request transport s)
    (hg : SnapshotGuard hk fc request transport s l)
    (he : s.step hk fc request transport l = some t) :
    t.current ∈ t.seen ∧ Single hk fc request transport t := by
  cases l with
  | publish d =>
    cases he
    exact ⟨List.mem_cons_self, single_publish h.2 hg⟩
  | advance =>
    obtain ⟨stage, hstage, rfl⟩ := Option.map_eq_some_iff.mp he
    exact ⟨h.1, single_advance h.1 h.2 hstage⟩

end Run

/-- If what is published between the loads of a query agrees with what it replaces, the outcome is
that of a single snapshot that was current while the query ran. -/
theorem query_sees_one_snapshot (hk : Hickory) (fc : FrontConfig) (request : Message)
    (transport : ClientTransport) (d : DatasetSnapshot) (labels : List FrontLabel) (s : FrontRun)
    (hguard : Guarded (FrontRun.step hk fc request transport)
      (SnapshotGuard hk fc request transport) (.start d) labels)
    (hrun : run (FrontRun.step hk fc request transport) (.start d) labels = some s)
    (outcome : FrontOutcome) (hdone : s.stage = .done outcome) :
    ∃ d ∈ s.seen, outcome = frontOf hk fc request transport d := by
  have hstart : (FrontRun.start d).current ∈ (FrontRun.start d).seen ∧
      Single hk fc request transport (.start d) :=
    ⟨List.mem_singleton_self d, trivial⟩
  have hsingle := (invariant_of_run single_step hstart hguard hrun).2
  simpa only [Single, hdone] using hsingle

def nasQuery : Message :=
  { addressQuery with
    queries := [{ name := ⟨[ascii "nas", ascii "home", ascii "arpa"]⟩, qtype := .a
                  qclass := classIn }] }

def frontConfig : FrontConfig where
  cfg := defaultConfig .off
  anyPolicy := .minimal
  specialUse := .answer
  localTtl := 60
  defaultGroup := "default"
  ecsIdentity := none
  tcpMaxMessageBytes := 65535
  nonEdnsMaxPayload := 512

def homeSnapshot : DatasetSnapshot :=
  { DatasetSnapshot.empty with
    hosts := HostsTable.empty.insert (ascii "nas.home.arpa") [.v4 0x0a000005]
    suffixRules := [(ascii "home.arpa", "default")] }

def FrontOutcome.isForwarded : FrontOutcome → Bool
  | answered _ => false
  | forwarded _ => true

def FrontStage.forwards : FrontStage → Option Bool
  | done outcome => some outcome.isForwarded
  | _ => none

def otherSnapshot : DatasetSnapshot :=
  { DatasetSnapshot.empty with
    hosts := HostsTable.empty.insert (ascii "printer.lan") [.v4 0x0a000006]
    suffixRules := [(ascii "lan", "lan")] }

theorem query_sees_one_snapshot_republished :
    ∃ s outcome, run (FrontRun.step .sample frontConfig nasQuery .udp) (.start .empty)
        [.advance, .publish otherSnapshot, .advance] = some s ∧ s.stage = .done outcome ∧
      ∃ d ∈ s.seen, outcome = frontOf .sample frontConfig nasQuery .udp d := by
  have heval : (run (FrontRun.step .sample frontConfig nasQuery .udp) (.start .empty)
      [.advance, .publish otherSnapshot, .advance]).map (fun s => s.stage.forwards) =
        some (some false) := by
    decide
  obtain ⟨s, hrun, hstage⟩ := Option.map_eq_some_iff.mp heval
  cases hdone : s.stage with
  | done outcome =>
    exact ⟨s, outcome, hrun, hdone,
      query_sees_one_snapshot _ _ _ _ _ _ _ (by decide) hrun outcome hdone⟩
  | _ =>
    rw [hdone] at hstage
    cases hstage

/-- A rule and a host are published together while a query for the host is between its loads. With
either snapshot alone it would be answered locally; it is sent upstream. -/
theorem query_mixes_snapshots :
    (run (FrontRun.step .sample frontConfig nasQuery .udp) (.start .empty)
        [.advance, .publish homeSnapshot, .advance, .advance]).map
        (fun s => (s.stage.forwards,
          s.seen.map fun d => (frontOf .sample frontConfig nasQuery .udp d).isForwarded)) =
      some (some true, [false, false]) := by
  decide

end EgressDns
