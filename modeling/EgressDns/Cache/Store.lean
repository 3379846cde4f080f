import Mathlib.Logic.Function.Basic
import EgressDns.Policy.Dnssec
import EgressDns.Upstream.Rank

/-!
# The answer, failure and variant caches

`cache/mod.rs`. Instants are nanoseconds of a monotonic clock, lifetimes are whole seconds where
the source stores seconds. What the memory bound of the underlying map drops is not modelled
here: a dropped entry is an absent one.
-/

namespace EgressDns

inductive EntryKind where
  | positive | noData | nxDomain
  deriving DecidableEq, Repr

structure PolicyView where
  group : String
  ecsIdentity : Option String
  deriving DecidableEq, Repr

structure KeyMode where
  dnssecOk : Bool
  checkingDisabled : Bool
  deriving DecidableEq, Repr

structure CacheKey where
  name : List UInt8
  qtype : RecordType
  qclass : UInt16
  view : PolicyView
  mode : KeyMode
  deriving DecidableEq, Repr

def normalizeName (name : List UInt8) : List UInt8 :=
  let s := lower name
  if s.getLast? = some 46 then s else s ++ [46]

def CacheKey.new (name : List UInt8) (qtype : RecordType) (qclass : UInt16) (view : PolicyView)
    (mode : KeyMode) : CacheKey :=
  { name := normalizeName name, qtype, qclass, view, mode }

structure AnswerSource where
  server : String
  transport : TransportKind
  deriving DecidableEq, Repr

structure CacheEntry where
  message : Message
  receivedAt : Nat
  receivedUnix : Nat
  ttl : Nat
  kind : EntryKind
  dnssec : DnssecStatus
  source : AnswerSource
  fingerprint : UInt64
  rrsigExpiryUnix : Option Nat
  deriving DecidableEq, Repr

def nanosPerSec : Nat := 1000000000

namespace CacheEntry

variable (entry : CacheEntry)

def ageSecs (now : Nat) : Nat := (now - entry.receivedAt) / nanosPerSec % 2 ^ 32

def remainingTtl (now : Nat) : Nat := entry.ttl - entry.ageSecs now

def stalenessSecs (now : Nat) : Nat := entry.ageSecs now - entry.ttl

def remainingSignatureSecs (nowUnix : Nat) : Option Nat :=
  entry.rrsigExpiryUnix.map fun exp => min (exp - nowUnix) (2 ^ 32 - 1)

end CacheEntry

inductive Lookup where
  | fresh (entry : CacheEntry) (remaining : Nat)
  | stale (entry : CacheEntry) (staleness : Nat)
  | miss
  deriving DecidableEq

structure FailureEntry where
  recordedAt : Nat
  -- In nanoseconds.
  ttl : Nat
  rcode : ResponseCode
  reason : String
  consecutive : Nat
  deriving DecidableEq, Repr

def FailureEntry.isActive (f : FailureEntry) (now : Nat) : Bool :=
  decide (now - f.recordedAt < f.ttl)

structure VariantRecord where
  fingerprint : UInt64
  message : Message
  source : AnswerSource
  observedAt : Nat
  ttl : Nat
  dnssec : DnssecStatus
  deriving DecidableEq, Repr

def VariantRecord.isValid (v : VariantRecord) (now : Nat) : Bool :=
  decide ((now - v.observedAt) / nanosPerSec < v.ttl)

structure ServeStaleConfig where
  enabled : Bool
  maxStaleSecs : Nat
  deriving DecidableEq, Repr

structure DnsCache where
  answers : CacheKey → Option CacheEntry
  failures : CacheKey → Option FailureEntry
  variants : CacheKey → List VariantRecord
  serveStale : ServeStaleConfig
  internalMaxTtl : Nat

def maxVariantsPerKey : Nat := 4

namespace DnsCache

def new (serveStale : ServeStaleConfig) (internalMaxTtl : Nat) : DnsCache where
  answers _ := none
  failures _ := none
  variants _ := []
  serveStale := serveStale
  internalMaxTtl := internalMaxTtl

def fresh : DnsCache := new { enabled := true, maxStaleSecs := 86400 } 86400

variable (c : DnsCache)

def judge (entry : Option CacheEntry) (now : Nat) : Lookup :=
  match entry with
  | none => .miss
  | some entry =>
    if 0 < entry.remainingTtl now then .fresh entry (entry.remainingTtl now)
    else if !c.serveStale.enabled then .miss
    else if c.serveStale.maxStaleSecs < entry.stalenessSecs now then .miss
    else if entry.dnssec = .bogus then .miss
    else .stale entry (entry.stalenessSecs now)

variable (key : CacheKey)

def get (now : Nat) : Lookup := c.judge (c.answers key) now

def setAnswer (entry : Option CacheEntry) : DnsCache :=
  { c with answers := Function.update c.answers key entry }

def insert (entry : CacheEntry) : DnsCache :=
  if entry.dnssec = .bogus then c else c.setAnswer key (some entry)

def invalidate : DnsCache := c.setAnswer key none

def setFailure (entry : Option FailureEntry) : DnsCache :=
  { c with failures := Function.update c.failures key entry }

def recordFailure (entry : FailureEntry) : DnsCache :=
  c.setFailure key (some entry)

def clearFailure : DnsCache := c.setFailure key none

def failure (now : Nat) : Option FailureEntry × DnsCache :=
  match c.failures key with
  | none => (none, c)
  | some f => if f.isActive now then (some f, c) else (none, c.clearFailure key)

def failureStreak : Nat := ((c.failures key).map FailureEntry.consecutive).getD 0

def recordVariant (record : VariantRecord) (now : Nat) : DnsCache × Bool :=
  let known := c.variants key
  let isNew := !(known.any fun v => v.fingerprint = record.fingerprint)
  let kept := known.filter fun v => v.fingerprint ≠ record.fingerprint ∧ v.isValid now
  let set := kept ++ [record]
  let set :=
    if maxVariantsPerKey < set.length then
      (set.insertionSort (fun a b => a.observedAt ≤ b.observedAt)).drop
        (set.length - maxVariantsPerKey)
    else set
  ({ c with variants := Function.update c.variants key set }, isNew)

def promoted (existing : Option CacheEntry) (fingerprint : UInt64) (status : DnssecStatus) :
    Option CacheEntry :=
  match existing with
  | none => none
  | some existing =>
    if existing.fingerprint ≠ fingerprint then none
    else if existing.dnssec = status then none
    else some { existing with dnssec := status }

def promote (fingerprint : UInt64) (status : DnssecStatus) : DnsCache × Bool :=
  match promoted (c.answers key) fingerprint status with
  | none => (c, false)
  | some updated => (c.setAnswer key (some updated), true)

def condemned (existing : Option CacheEntry) (fingerprint : UInt64) : Bool :=
  match existing with
  | none => false
  | some existing => decide (existing.fingerprint = fingerprint)

def evictVariant (fingerprint : UInt64) : DnsCache × Bool :=
  if condemned (c.answers key) fingerprint then (c.invalidate key, true) else (c, false)

/-- Few enough, and no two with the same fingerprint. -/
def Bounded (variants : List VariantRecord) : Prop :=
  variants.length ≤ maxVariantsPerKey ∧ (variants.map VariantRecord.fingerprint).Nodup

theorem bounded_recordVariant (h : ∀ key, Bounded (c.variants key)) (record : VariantRecord)
    (now : Nat) : ∀ other, Bounded ((c.recordVariant key record now).1.variants other) := by
  refine (Function.forall_update_iff _ fun _ => Bounded).mpr ⟨?_, fun other _ => h other⟩
  let keeps (v : VariantRecord) : Bool := v.fingerprint ≠ record.fingerprint ∧ v.isValid now
  have hset : ((c.variants key).filter keeps ++ [record] |>.map (·.fingerprint)).Nodup := by
    have hkept := (h key).2.sublist ((List.filter_sublist (p := keeps)).map _)
    simp only [List.map_append, List.nodup_append]
    grind
  split
  · refine ⟨by simp [maxVariantsPerKey]; omega, ?_⟩
    exact (((List.perm_insertionSort ..).map _).nodup_iff.mpr hset).sublist
      ((List.drop_sublist ..).map _)
  · rename_i hle
    exact ⟨not_lt.mp hle, hset⟩

/-- Whatever is recorded, in whatever order and at whatever times. -/
theorem variants_bounded (serveStale : ServeStaleConfig) (internalMaxTtl : Nat)
    (records : List (CacheKey × VariantRecord × Nat)) :
    ∀ key, Bounded ((records.foldl (fun c r => (c.recordVariant r.1 r.2.1 r.2.2).1)
      (new serveStale internalMaxTtl)).variants key) :=
  List.foldlRecOn (motive := fun c : DnsCache => ∀ key, Bounded (c.variants key)) records _
    (fun _ => ⟨Nat.zero_le _, List.nodup_nil⟩) fun c h r _ => bounded_recordVariant c r.1 h _ _

end DnsCache

end EgressDns
