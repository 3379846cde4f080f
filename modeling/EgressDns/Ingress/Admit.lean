import EgressDns.Probe.Safety
import EgressDns.Resolver.Miss

/-!
# Admitting a client

The access list of `dns/acl.rs`, the inbound rate limiter of `dns/ratelimit.rs` and the check that
`Ingress::admit` makes of both. The token buckets are those of the `governor` crate. `Acl::evaluate`
is compared with what the lists say once an IPv4 address and its IPv4-mapped form count as one.
-/

namespace EgressDns

inductive Network where
  | v4 (net : IpNet 32)
  | v6 (net : IpNet 128)
  deriving DecidableEq, Repr

structure Acl where
  allow : List Network
  deny : List Network
  deriving DecidableEq, Repr

inductive AclDecision where
  | allow | denied | notAllowed
  deriving DecidableEq, Repr

namespace Acl

def normalise : IpAddr → IpAddr
  | .v6 v6 =>
    match toIpv4Mapped v6 with
    | some v4 => .v4 v4
    | none => .v6 v6
  | other => other

def contains : Network → IpAddr → Bool
  | .v4 n, .v4 a => n.contains a
  | .v6 n, .v6 a => n.contains a
  | _, _ => false

def evaluate (acl : Acl) (addr : IpAddr) : AclDecision :=
  let addr := normalise addr
  if acl.deny.any fun n => contains n addr then .denied
  else if acl.allow.any fun n => contains n addr then .allow
  else .notAllowed

end Acl

structure Quota where
  perSecond : Nat
  burst : Nat

/-- One direct limiter: a bucket of a quota, and a check that takes a token at a time of the
clock. -/
structure Governor where
  Bucket : Type
  direct : Quota → Bucket
  check : Bucket → Nat → Bool × Bucket

structure RateLimitConfig where
  enabled : Bool
  perClientQps : Nat
  perClientBurst : Nat
  globalQps : Nat
  globalBurst : Nat
  clientTableSize : Nat

inductive RateDecision where
  | allow | clientLimited | globalLimited
  deriving DecidableEq, Repr

structure ClientTable (gov : Governor) where
  quota : Quota
  capacity : Nat
  current : AList (fun _ : IpAddr => gov.Bucket)
  previous : AList (fun _ : IpAddr => gov.Bucket)

structure InboundLimiter (gov : Governor) where
  enabled : Bool
  global : Option gov.Bucket
  perClient : Option (ClientTable gov)

def quotaOf (qps burst : Nat) : Option Quota :=
  if qps = 0 then none else some { perSecond := qps, burst := max burst qps }

section Limiter

variable {gov : Governor}

def ClientTable.limiterFor (table : ClientTable gov) (client : IpAddr) :
    gov.Bucket × ClientTable gov :=
  match table.current.lookup client with
  | some l => (l, table)
  | none =>
    match table.previous.lookup client with
    | some l => (l, { table with current := table.current.insert client l })
    | none =>
      let limiter := gov.direct table.quota
      if table.capacity ≤ table.current.entries.length then
        (limiter,
          { table with current := AList.singleton client limiter, previous := table.current })
      else (limiter, { table with current := table.current.insert client limiter })

namespace InboundLimiter

def new (gov : Governor) (cfg : RateLimitConfig) : InboundLimiter gov :=
  if !cfg.enabled then { enabled := false, global := none, perClient := none }
  else
    { enabled := true
      global := (quotaOf cfg.globalQps cfg.globalBurst).map gov.direct
      perClient := (quotaOf cfg.perClientQps cfg.perClientBurst).map fun quota =>
        { quota, capacity := max cfg.clientTableSize 1, current := ∅, previous := ∅ } }

def checkGlobal (l : InboundLimiter gov) (now : Nat) : RateDecision × InboundLimiter gov :=
  match l.global with
  | none => (.allow, l)
  | some global =>
    let (free, global) := gov.check global now
    (if free then .allow else .globalLimited, { l with global := some global })

/-- The limiter a client was found in is the one in `current`, so its bucket is written there. -/
def check (l : InboundLimiter gov) (client : IpAddr) (now : Nat) :
    RateDecision × InboundLimiter gov :=
  if !l.enabled then (.allow, l)
  else
    match l.perClient with
    | none => l.checkGlobal now
    | some table =>
      let (bucket, table) := table.limiterFor client
      let (free, bucket) := gov.check bucket now
      let table := { table with current := table.current.insert client bucket }
      let l := { l with perClient := some table }
      if free then l.checkGlobal now else (.clientLimited, l)

end InboundLimiter

end Limiter

structure TcpConfig where
  maxConnections : Nat
  maxConnectionsPerClient : Nat
  maxPipelinedQueries : Nat
  maxMessageBytes : Nat
  deriving DecidableEq, Repr

/-- What the listeners read of a configuration; `allow` is its effective allow list. -/
structure IngressConfig where
  allow : List Network
  deny : List Network
  rateLimit : RateLimitConfig
  tcp : TcpConfig

/-- What the listeners read of a runtime state. The limiter changes with every check. -/
structure IngressState (gov : Governor) where
  acl : Acl
  limiter : InboundLimiter gov
  tcp : TcpConfig

def IngressState.build (gov : Governor) (cfg : IngressConfig) : IngressState gov where
  acl := { allow := cfg.allow, deny := cfg.deny }
  limiter := .new gov cfg.rateLimit
  tcp := cfg.tcp

inductive Rejection where
  | aclDenied | aclNotAllowed | rateLimitedClient | rateLimitedGlobal
  deriving DecidableEq, Repr

def Rejection.reason : Rejection → String
  | aclDenied => "acl_denied"
  | aclNotAllowed => "acl_not_allowed"
  | rateLimitedClient => "rate_limited_client"
  | rateLimitedGlobal => "rate_limited_global"

namespace IngressState

variable {gov : Governor} (state : IngressState gov) (client : IpAddr) (now : Nat)

def limit : Option Rejection × IngressState gov :=
  let (decision, limiter) := state.limiter.check client now
  let state := { state with limiter }
  match decision with
  | .allow => (none, state)
  | .clientLimited => (some .rateLimitedClient, state)
  | .globalLimited => (some .rateLimitedGlobal, state)

def admitClient : Option Rejection × IngressState gov :=
  match state.acl.evaluate client with
  | .denied => (some .aclDenied, state)
  | .notAllowed => (some .aclNotAllowed, state)
  | .allow => state.limit client now

theorem limit_tcp : (state.limit client now).2.tcp = state.tcp := by
  unfold limit
  dsimp only
  split <;> rfl

theorem admitClient_tcp : (state.admitClient client now).2.tcp = state.tcp := by
  unfold admitClient
  split
  · rfl
  · rfl
  · exact state.limit_tcp client now

end IngressState

/-- What is sent back to a client that is turned away: a REFUSED to a query that parses, nothing
to one over its budget. -/
def refuse (hk : Hickory) (request : Option Message) (rejection : Rejection) : Option Message :=
  if rejection.reason.startsWith "rate_limited" then none
  else
    match request with
    | none => none
    | some request =>
      if request.metadata.messageType ≠ .query ∨ request.metadata.opCode ≠ .query then none
      else some (errorResponse hk request .refused false)

/-- Without `allow_from` the loopback networks are let in; an empty list lets nobody in. -/
structure AccessConfig where
  allowFrom : Option (List Network)
  denyFrom : List Network

def loopbackNetworks : List Network := [.v4 ⟨0x7f000000, 8⟩, .v6 ⟨1, 128⟩]

def AccessConfig.effectiveAllowFrom (cfg : AccessConfig) : List Network :=
  cfg.allowFrom.getD loopbackNetworks

def AccessConfig.acl (cfg : AccessConfig) : Acl where
  allow := cfg.effectiveAllowFrom
  deny := cfg.denyFrom

def SameClient (a b : IpAddr) : Prop := Acl.normalise a = Acl.normalise b

def Network.Holds (net : Network) (addr : IpAddr) : Prop :=
  ∃ form, SameClient form addr ∧ Acl.contains net form = true

variable (nets : List Network) (addr : IpAddr)

def InList : Prop := ∃ net ∈ nets, net.Holds addr

def Matched : Prop :=
  ∃ net ∈ nets, Acl.contains net (Acl.normalise addr) = true

/-- Denied if the lists deny it, and otherwise let in just if they let it in. -/
structure FollowsLists (cfg : AccessConfig) (addr : IpAddr) (decision : AclDecision) : Prop where
  denied : InList cfg.denyFrom addr → decision = .denied
  allowed : ¬ InList cfg.denyFrom addr →
    (decision = .allow ↔ InList cfg.effectiveAllowFrom addr)

def ListedAsMapped : Prop :=
  ∃ net v4 v6, Network.v6 net ∈ nets ∧ Acl.normalise addr = .v4 v4 ∧ Mapped v6 v4 ∧
    net.contains v6 = true

section Forms

variable {nets : List Network} {addr : IpAddr}

@[simp] theorem normalise_normalise : Acl.normalise (Acl.normalise addr) = Acl.normalise addr := by
  cases addr with
  | v4 a => rfl
  | v6 a =>
    unfold Acl.normalise
    cases h : toIpv4Mapped a <;> simp [h]

theorem sameClient_iff {form : IpAddr} : SameClient form addr ↔ form = Acl.normalise addr ∨
    ∃ v4 v6, Acl.normalise addr = .v4 v4 ∧ form = .v6 v6 ∧ Mapped v6 v4 := by
  unfold SameClient
  constructor
  · intro h
    cases form with
    | v4 a => exact .inl h
    | v6 a =>
      cases hm : toIpv4Mapped a with
      | none =>
        rw [Acl.normalise, hm] at h
        exact .inl h
      | some v4 =>
        rw [Acl.normalise, hm] at h
        exact .inr ⟨v4, a, h.symm, rfl, toIpv4Mapped_eq_some.mp hm⟩
  · rintro (rfl | ⟨v4, v6, haddr, rfl, hm⟩)
    · exact normalise_normalise
    · rw [haddr, Acl.normalise, toIpv4Mapped_eq_some.mpr hm]

theorem listed_iff : InList nets addr ↔ Matched nets addr ∨ ListedAsMapped nets addr := by
  unfold InList Network.Holds Matched ListedAsMapped
  simp only [sameClient_iff]
  constructor
  · rintro ⟨net, hnet, form, rfl | ⟨v4, v6, haddr, rfl, hm⟩, hin⟩
    · exact .inl ⟨net, hnet, hin⟩
    · cases net with
      | v4 net => cases hin
      | v6 net => exact .inr ⟨net, v4, v6, hnet, haddr, hm, hin⟩
  · rintro (⟨net, hnet, hin⟩ | ⟨net, v4, v6, hnet, haddr, hm, hin⟩)
    · exact ⟨net, hnet, _, .inl rfl, hin⟩
    · exact ⟨.v6 net, hnet, .v6 v6, .inr ⟨v4, v6, haddr, rfl, hm⟩, hin⟩

theorem evaluate_cases (acl : Acl) (addr : IpAddr) :
    (Matched acl.deny addr ∧ acl.evaluate addr = .denied) ∨
    (¬ Matched acl.deny addr ∧ Matched acl.allow addr ∧ acl.evaluate addr = .allow) ∨
    (¬ Matched acl.deny addr ∧ ¬ Matched acl.allow addr ∧ acl.evaluate addr = .notAllowed) := by
  unfold Acl.evaluate Matched
  simp only [← List.any_eq_true]
  split_ifs with hdeny hallow
  · exact .inl ⟨hdeny, rfl⟩
  · exact .inr (.inl ⟨hdeny, hallow, rfl⟩)
  · exact .inr (.inr ⟨hdeny, hallow, rfl⟩)

end Forms

/-- The decision follows the lists just if an IPv6 network that has the mapped form of the client is
never the only one to have it: in `deny_from`, and for clients not matched there in
`allow_from`. -/
theorem deny_wins_iff (cfg : AccessConfig) (addr : IpAddr) :
    FollowsLists cfg addr (cfg.acl.evaluate addr) ↔
      (ListedAsMapped cfg.denyFrom addr → Matched cfg.denyFrom addr) ∧
      (¬ Matched cfg.denyFrom addr → ListedAsMapped cfg.effectiveAllowFrom addr →
        Matched cfg.effectiveAllowFrom addr) := by
  have hcases := evaluate_cases cfg.acl addr
  constructor
  · rintro ⟨hdenied, hallowed⟩
    rw [listed_iff] at hdenied hallowed
    rw [listed_iff] at hallowed
    rcases hcases with ⟨hdeny, he⟩ | ⟨hdeny, hallow, he⟩ | ⟨hdeny, hallow, he⟩
    · exact ⟨fun _ => hdeny, fun hno => absurd hdeny hno⟩
    · rw [he] at hdenied
      exact ⟨fun hm => (nomatch hdenied (.inr hm)), fun _ _ => hallow⟩
    · rw [he] at hdenied hallowed
      have hmapped : ¬ ListedAsMapped cfg.denyFrom addr := fun hm => nomatch hdenied (.inr hm)
      refine ⟨fun hm => absurd hm hmapped, fun _ hm => ?_⟩
      have hnot : ¬ (Matched cfg.denyFrom addr ∨ ListedAsMapped cfg.denyFrom addr) := by tauto
      cases (hallowed hnot).mpr (.inr hm)
  · rintro ⟨hdenied, hallowed⟩
    refine ⟨?_, ?_⟩
    · rw [listed_iff]
      intro hlisted
      have hdeny : Matched cfg.denyFrom addr := hlisted.elim id hdenied
      rcases hcases with ⟨-, he⟩ | ⟨hno, -⟩ | ⟨hno, -⟩
      · exact he
      · exact absurd hdeny hno
      · exact absurd hdeny hno
    · rw [listed_iff, listed_iff]
      intro hno
      rcases hcases with ⟨hdeny, -⟩ | ⟨-, hallow, he⟩ | ⟨hdeny, hallow, he⟩
      · exact absurd (.inl hdeny) hno
      · exact iff_of_true he (.inl hallow)
      · rw [he]
        refine iff_of_false (fun h => nomatch h) ?_
        rintro (hm | hm)
        · exact hallow hm
        · exact hallow (hallowed hdeny hm)

/-- 10.0.0.0/8 is let in but for ::ffff:10.0.0.0/120, and 10.0.0.1 gets in, in either form. -/
theorem mapped_deny_ignored :
    InList [.v6 ⟨0xffff0a000000, 120⟩] (.v4 0x0a000001) ∧
    (AccessConfig.mk (some [.v4 ⟨0x0a000000, 8⟩]) [.v6 ⟨0xffff0a000000, 120⟩]).acl.evaluate
      (.v4 0x0a000001) = .allow ∧
    (AccessConfig.mk (some [.v4 ⟨0x0a000000, 8⟩]) [.v6 ⟨0xffff0a000000, 120⟩]).acl.evaluate
      (.v6 0xffff0a000001) = .allow := by
  refine ⟨⟨_, List.mem_singleton_self _, .v6 0xffff0a000001, rfl, by decide⟩, ?_, ?_⟩
  · decide
  · decide

end EgressDns
