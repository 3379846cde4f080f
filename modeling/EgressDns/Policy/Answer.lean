import EgressDns.Policy.Cloudflare
import EgressDns.Policy.Ttl
import EgressDns.Ranking.Order

/-!
# Answer policy

`policy/answer.rs`: reordering inside each address RRset, verified augmentation of the last one,
and the cap on every TTL.
-/

namespace EgressDns

open Lib

structure VerifiedCandidate where
  addr : IpAddr
  successes : Nat
  costMs : ℚ
  samples : Nat
  fresh : Bool

structure AugmentConfig where
  maxAdded : Nat
  minValidations : Nat
  minAdvantage : ℚ
  minSamples : Nat

structure AnswerContext where
  qtype : RecordType
  dnssec : DnssecStatus
  cloudflareEnabled : Bool
  cloudflareMode : CloudflareMode
  snapshot : Option PrefixSnapshot
  domainExcluded : Bool
  baselineValidated : Bool
  verified : List VerifiedCandidate
  canValidateEch : Bool
  quality : IpAddr → Option QualityReading
  ranking : RankingConfig
  augment : AugmentConfig
  ttl : TtlConfig
  remainingAuthoritative : Nat
  remainingSignature : Option Nat
  isStale : Bool
  recentNetworkChange : Bool
  exploreSeed : UInt64

structure AnswerOutcome where
  cloudflareApplied : Eligibility
  fallback : Option FallbackReason
  order : OrderDecision
  added : Nat
  clientTtl : Nat
  ttlReason : TtlReason
  modified : Bool
  deriving DecidableEq, Repr

def recordAddress (r : Record) : Option IpAddr :=
  match r.data with
  | .a addr => some (.v4 addr)
  | .aaaa addr => some (.v6 addr)
  | _ => none

structure RrsetGroup where
  owner : Name
  indices : List Nat
  deriving DecidableEq, Repr

def addToGroups (owner : Name) (i : Nat) : List RrsetGroup → List RrsetGroup
  | [] => [{ owner, indices := [i] }]
  | g :: gs =>
    if g.owner.same owner then { g with indices := g.indices ++ [i] } :: gs
    else g :: addToGroups owner i gs

variable (answers : List Record)

def rrsetGroups (rtype : RecordType) : List RrsetGroup :=
  answers.zipIdx.foldl (fun groups p =>
    if p.1.recordType = rtype then addToGroups p.1.name p.2 groups else groups) []

variable (indices : List Nat)

def addressesOf : List IpAddr :=
  (gather answers indices).filterMap recordAddress

def groupTtl : Nat :=
  (((gather answers indices).map Record.ttl).min?).getD 0

def takeAddress (want : IpAddr) : List Record → Option (Record × List Record)
  | [] => none
  | r :: rs =>
    if recordAddress r = some want then some (r, rs)
    else (takeAddress want rs).map fun p => (p.1, r :: p.2)

def placeAddresses : List IpAddr → List Record → List Record
  | [], taken => taken
  | want :: desired, taken =>
    match takeAddress want taken with
    | some (r, rest) => r :: placeAddresses desired rest
    | none => placeAddresses desired taken

def reorderInPlace (desired : List IpAddr) : List Record :=
  scatter answers indices (placeAddresses desired (gather answers indices))

def newRecord (owner : Name) (ttl : Nat) (rtype : RecordType) (addr : IpAddr) : Option Record :=
  match addr, rtype with
  | .v4 v4, .a => some (Record.fromRdata owner ttl (.a v4))
  | .v6 v6, .aaaa => some (Record.fromRdata owner ttl (.aaaa v6))
  | _, _ => none

def prependAddresses (g : RrsetGroup) (ttl : Nat) (addrs : List IpAddr) (rtype : RecordType) :
    List Record :=
  match g.indices.head? with
  | none => answers
  | some first =>
    answers.take first ++ addrs.filterMap (newRecord g.owner ttl rtype) ++ answers.drop first

section Policy

variable (ctx : AnswerContext)

def reorderGroup (state : List Record × Bool × OrderDecision) (g : RrsetGroup) :
    List Record × Bool × OrderDecision :=
  let original := addressesOf state.1 g.indices
  if original.length < 2 then state
  else
    let ordering := orderAddresses original ctx.quality ctx.ranking ctx.exploreSeed
    if ordering.1 ≠ original then (reorderInPlace state.1 g.indices ordering.1, true, ordering.2)
    else (state.1, state.2.1, ordering.2)

def bestOriginalCost (existing : List IpAddr) : Option ℚ :=
  ((existing.filterMap ctx.quality).map QualityReading.expectedCost).min?

def admits (rtype : RecordType) (existing added : List IpAddr) (v : VerifiedCandidate) : Bool :=
  v.fresh && decide (ctx.augment.minValidations ≤ v.successes) &&
    decide (ctx.augment.minSamples ≤ v.samples) &&
    (match v.addr with
      | .v4 _ => decide (rtype = .a)
      | .v6 _ => decide (rtype ≠ .a)) &&
    ((ctx.snapshot.map fun s => s.contains v.addr).getD false) &&
    (classifyAddr v.addr).isNone &&
    decide (v.addr ∉ existing) && decide (v.addr ∉ added) &&
    (match bestOriginalCost ctx existing with
      | none => true
      | some best => decide (ctx.augment.minAdvantage ≤ (best - v.costMs) / max best 1))

def chooseAdded (rtype : RecordType) (existing : List IpAddr) : List VerifiedCandidate →
    List IpAddr → List IpAddr
  | [], added => added
  | v :: vs, added =>
    if ctx.augment.maxAdded ≤ added.length then added
    else if admits ctx rtype existing added v then chooseAdded rtype existing vs (added ++ [v.addr])
    else chooseAdded rtype existing vs added

def ttlInputs (augmented preserved optimized : Bool) : TtlInputs where
  remainingAuthoritative := ctx.remainingAuthoritative
  remainingSignature := ctx.remainingSignature
  isStale := ctx.isStale
  recentNetworkChange := ctx.recentNetworkChange
  cloudflareAugmented := augmented
  cloudflarePreserved := preserved
  optimizedMulti := optimized

variable (msg : Message)

def finishTtl (outcome : AnswerOutcome) (augmented preserved optimized : Bool) :
    Message × AnswerOutcome :=
  let result := effectiveClientTtl ctx.ttl (ttlInputs ctx augmented preserved optimized)
  (capTtls result.1 msg, { outcome with clientTtl := result.1, ttlReason := result.2 })

def untouchedOutcome : AnswerOutcome where
  cloudflareApplied := .off
  fallback := none
  order := .disabled
  added := 0
  clientTtl := 0
  ttlReason := .default
  modified := false

def eligibilityInputs (groups : List RrsetGroup) (final : RrsetGroup) :
    EligibilityInputs where
  mode := ctx.cloudflareMode
  enabled := ctx.cloudflareEnabled
  qtype := ctx.qtype
  dnssec := ctx.dnssec
  snapshot := ctx.snapshot
  original := addressesOf msg.answers final.indices
  singleRrset := decide (groups.length = 1)
  excluded := ctx.domainExcluded
  publishesEch := publishesEch msg
  canValidateEch := ctx.canValidateEch
  baselineValidated := ctx.baselineValidated
  hasVerifiedCandidate :=
    ctx.verified.any fun v => v.fresh && decide (ctx.augment.minValidations ≤ v.successes)

def toAdd (eligibility : Eligibility) (answers : List Record) (rtype : RecordType)
    (final : RrsetGroup) : List IpAddr :=
  if eligibility = .augment then
    chooseAdded ctx rtype (addressesOf answers final.indices) ctx.verified []
  else []

def augmentAnswers (answers : List Record) (rtype : RecordType) (final : RrsetGroup)
    (addrs : List IpAddr) : List Record :=
  if addrs = [] then answers
  else prependAddresses answers final (groupTtl answers final.indices) addrs rtype

/-- The policy on an answer whose last RRset of the queried type is `final`. -/
def applyToRrsets (rtype : RecordType) (groups : List RrsetGroup) (final : RrsetGroup) :
    Message × AnswerOutcome :=
  let (eligibility, fallback) := evaluate (eligibilityInputs ctx msg groups final)
  let (answers, anyReorder, order) :=
    groups.foldl (reorderGroup ctx) (msg.answers, false, .disabled)
  let added := toAdd ctx eligibility answers rtype final
  let augmented := decide (added ≠ [])
  let applied := if eligibility = .augment ∧ added = [] then .preserve else eligibility
  let fallback :=
    if eligibility = .augment ∧ added = [] then some .noVerifiedCandidate else fallback
  let touched := decide (applied = .preserve ∨ applied = .augment) && (anyReorder || augmented)
  finishTtl ctx { msg with answers := augmentAnswers answers rtype final added }
    { cloudflareApplied := applied, fallback, order, added := added.length, clientTtl := 0
      ttlReason := .default, modified := augmented }
    augmented (touched && !augmented) (anyReorder && !touched)

def applyAnswerPolicy : Message × AnswerOutcome :=
  if ctx.qtype = .a ∨ ctx.qtype = .aaaa then
    let groups := rrsetGroups msg.answers ctx.qtype
    match groups.getLast? with
    | none => finishTtl ctx msg untouchedOutcome false false false
    | some final => applyToRrsets ctx msg ctx.qtype groups final
  else finishTtl ctx msg untouchedOutcome false false false

end Policy

end EgressDns
