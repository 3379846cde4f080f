import EgressDns.Cache.Store
import EgressDns.Dns.Fingerprint

/-!
# What a verdict may touch

A background verdict about one message promotes or evicts whatever the cache holds under the same
fingerprint. Here the guard is compared with what it stands for.
-/

namespace EgressDns

/-- Same owner, type, class and data; the TTL and the proof mark are not part of a record. -/
def SameRecord (a b : Record) : Prop :=
  a.name.same b.name = true ∧ a.recordType = b.recordType ∧ a.dnsClass = b.dnsClass ∧
    a.data = b.data

instance (a b : Record) : Decidable (SameRecord a b) :=
  inferInstanceAs (Decidable (_ ∧ _))

def SameRecords (as bs : List Record) : Prop :=
  (∀ a ∈ as, ∃ b ∈ bs, SameRecord a b) ∧ ∀ b ∈ bs, ∃ a ∈ as, SameRecord a b

instance (as bs : List Record) : Decidable (SameRecords as bs) :=
  inferInstanceAs (Decidable (_ ∧ _))

def denialRecords (msg : Message) : List Record :=
  msg.authorities.filter fun r =>
    r.recordType = .soa ∨ r.recordType = .nsec ∨ r.recordType = .nsec3

def SameAnswer (a b : Message) : Prop :=
  a.metadata.responseCode = b.metadata.responseCode ∧ SameRecords a.answers b.answers ∧
    SameRecords (denialRecords a) (denialRecords b)

instance (a b : Message) : Decidable (SameAnswer a b) := inferInstanceAs (Decidable (_ ∧ _))

section Guard

variable (hk : Hickory)

/-- Owners count by their text up to letter case, as the fingerprint has them. -/
def Record.identity (r : Record) : List UInt8 × UInt16 × RData :=
  (lower (hk.nameText r.name), r.dnsClass, r.data)

def SameVariant (a b : Message) : Prop :=
  (a.answers.map (Record.identity hk)).Perm (b.answers.map (Record.identity hk))

instance (a b : Message) : Decidable (SameVariant hk a b) :=
  inferInstanceAs (Decidable (List.Perm _ _))

/-- An entry whose fingerprint is the one of its own message, as every stored entry's is. -/
def CacheEntry.Fingerprinted (entry : CacheEntry) : Prop :=
  entry.fingerprint = answerFingerprint hk entry.message

def SameCanonical (a b : Message) : Prop :=
  (a.answers.map (canonical hk)).Perm (b.answers.map (canonical hk))

variable {hk}

theorem canonical_of_identity {a b : Record} (h : a.identity hk = b.identity hk) :
    canonical hk a = canonical hk b := by
  obtain ⟨hname, hrest⟩ := Prod.mk.inj h
  obtain ⟨hclass, hdata⟩ := Prod.mk.inj hrest
  simp [canonical, hname, hclass, hdata, Record.recordType]

theorem SameVariant.fingerprint {a b : Message} (h : SameVariant hk a b) :
    answerFingerprint hk a = answerFingerprint hk b := by
  have hcanon : SameCanonical hk a b :=
    haveI : Nonempty CanonicalRecord := ⟨⟨[], .a, 0, [], List.not_mem_nil, List.not_mem_nil⟩⟩
    Lib.perm_map_of_determined (fun _ _ => canonical_of_identity) h
  rw [answerFingerprint, (fingerprintBytes_eq_iff hk a b).mpr hcanon, answerFingerprint]

variable {c : DnsCache} {key : CacheKey} {entry : CacheEntry} {fingerprint : UInt64}

theorem evictVariant_answers_of_eq (h : c.answers key = some entry)
    (he : entry.fingerprint = fingerprint) :
    (c.evictVariant key fingerprint).1.answers key = none := by
  simp [DnsCache.evictVariant, DnsCache.condemned, DnsCache.invalidate, DnsCache.setAnswer, h, he]

/-- A verdict about `validated` changes what is cached under the key only if that is the message
it examined. -/
def VerdictExamined (hk : Hickory) (c : DnsCache) (key : CacheKey) (cached validated : Message) :
    Prop :=
  (∀ status, (c.promote key (answerFingerprint hk validated) status).1.answers key ≠
    c.answers key → SameAnswer cached validated) ∧
  ((c.evictVariant key (answerFingerprint hk validated)).1.answers key ≠ c.answers key →
    SameAnswer cached validated)

/-- Up to a collision of the hash, the guard separates two answers exactly when agreement of the
lower-cased answer sections implies agreement of response code, exact data and denial. -/
theorem verdict_examined_iff (hk : Hickory) (c : DnsCache) (key : CacheKey) (entry : CacheEntry)
    (validated : Message) (hcached : c.answers key = some entry)
    (hstored : entry.Fingerprinted hk)
    (hcollision : answerFingerprint hk entry.message = answerFingerprint hk validated →
      fingerprintBytes hk entry.message = fingerprintBytes hk validated) :
    VerdictExamined hk c key entry.message validated ↔
      (SameCanonical hk entry.message validated → SameAnswer entry.message validated) := by
  constructor
  · intro h hcanon
    have hbytes := (fingerprintBytes_eq_iff hk _ _).mpr hcanon
    have hfp : entry.fingerprint = answerFingerprint hk validated := by
      rw [hstored, answerFingerprint, hbytes, answerFingerprint]
    refine h.2 ?_
    rw [evictVariant_answers_of_eq hcached hfp, hcached]
    exact nofun
  · intro h
    have hguard (hfp : entry.fingerprint = answerFingerprint hk validated) :
        SameAnswer entry.message validated := by
      rw [hstored] at hfp
      exact h ((fingerprintBytes_eq_iff hk _ _).mp (hcollision hfp))
    constructor
    · intro status hchange
      by_contra hdiff
      exact hchange (by simp [DnsCache.promote, DnsCache.promoted, hcached, mt hguard hdiff])
    · intro hchange
      by_contra hdiff
      exact hchange (by simp [DnsCache.evictVariant, DnsCache.condemned, hcached, mt hguard hdiff])

end Guard

def addressKey : CacheKey :=
  CacheKey.new [97] .a classIn { group := "default", ecsIdentity := none }
    { dnssecOk := true, checkingDisabled := false }

def emptyAnswer (code : ResponseCode) : Message :=
  { addressQuery with
    metadata := { addressQuery.metadata with messageType := .response, responseCode := code } }

def emptyEntry : CacheEntry where
  message := emptyAnswer .noError
  receivedAt := 0
  receivedUnix := 0
  ttl := 60
  kind := .noData
  dnssec := .indeterminate
  source := { server := "quad9", transport := .udp }
  fingerprint := answerFingerprint .sample (emptyAnswer .noError)
  rrsigExpiryUnix := none

def emptyEntryCache : DnsCache := DnsCache.fresh.insert addressKey emptyEntry

def positiveAnswer (answers : List Record) : Message := { emptyAnswer .noError with answers }

def pairEntry : CacheEntry :=
  let message := positiveAnswer [.fromRdata ⟨[[97]]⟩ 60 (.a 1), .fromRdata ⟨[[97]]⟩ 60 (.a 2)]
  { emptyEntry with message, kind := .positive, fingerprint := answerFingerprint .sample message }

theorem verdict_examined_reordered :
    VerdictExamined .sample (DnsCache.fresh.insert addressKey pairEntry) addressKey
      pairEntry.message
      (positiveAnswer [.fromRdata ⟨[[65]]⟩ 30 (.a 2), .fromRdata ⟨[[97]]⟩ 60 (.a 1)]) :=
  (verdict_examined_iff .sample _ addressKey pairEntry _ (by rfl) rfl
    (fun _ => (fingerprintBytes_eq_iff _ _ _).mpr (by decide))).mpr (fun _ => by decide)

/-- A verdict about an NXDOMAIN evicts or promotes a cached NODATA: both hash the empty string. -/
theorem nodata_evicted_by_nxdomain_verdict :
    (emptyEntryCache.evictVariant addressKey
      (answerFingerprint .sample (emptyAnswer .nxDomain))).1.answers addressKey = none ∧
    (emptyEntryCache.promote addressKey
      (answerFingerprint .sample (emptyAnswer .nxDomain)) .secure).1.answers addressKey =
        some { emptyEntry with dnssec := .secure } ∧
    emptyEntryCache.answers addressKey = some emptyEntry ∧
    ¬SameAnswer (emptyAnswer .noError) (emptyAnswer .nxDomain) := by
  have hcached : emptyEntryCache.answers addressKey = some emptyEntry := by rfl
  exact ⟨evictVariant_answers_of_eq hcached rfl, by rfl, hcached, by decide⟩

end EgressDns
