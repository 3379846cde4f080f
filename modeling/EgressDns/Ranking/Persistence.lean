import EgressDns.Lib.Framing
import EgressDns.Ranking.Quality
import Mathlib.Data.Nat.Digits.Lemmas

/-!
# Quality statistics across a restart

What a flush of `tasks/maintenance.rs` writes of the store, the `ip_quality` table of
`storage/schema.rs`, and what the next start reads back. The database returns what was written; an
address is written as text.
-/

namespace EgressDns

open Lib

structure AddrText where
  text : IpAddr → List UInt8
  parse : List UInt8 → Option IpAddr
  parse_text : ∀ a, parse (text a) = some a

/-- The generation is unsigned in memory and signed in the database. -/
structure PersistedQuality (G : Type) where
  alpha : ℚ
  beta : ℚ
  ewmaMs : ℚ
  p95Ms : ℚ
  jitterMs : ℚ
  samples : Nat
  successes : Nat
  generation : G
  deriving DecidableEq

def asI64 (n : Nat) : Int := Int.bmod n (2 ^ 64)

def asU64 (i : Int) : Nat := (i % 2 ^ 64).toNat

theorem asU64_asI64 {n : Nat} (h : n < 2 ^ 64) : asU64 (asI64 n) = n := by
  change (Int.bmod n (2 ^ 64) % ((2 ^ 64 : Nat) : Int)).toNat = n
  rw [Int.bmod_emod]
  omega

namespace QualityStats

variable {P : Type}

def toPersisted (s : QualityStats P) : PersistedQuality Nat where
  alpha := s.alpha
  beta := s.beta
  ewmaMs := s.ewmaMs
  p95Ms := s.percentile (95 / 100)
  jitterMs := s.jitterMs
  samples := s.samples
  successes := s.successes
  generation := s.generation

def fromPersisted (p : PersistedQuality Nat) : QualityStats P :=
  { new p.generation with
    alpha := max p.alpha 1
    beta := max p.beta 1
    ewmaMs := max p.ewmaMs 0
    jitterMs := max p.jitterMs 0
    samples := p.samples
    successes := p.successes
    window := if 0 < p.ewmaMs then [p.ewmaMs, max p.p95Ms p.ewmaMs] else []
    windowPos := if 0 < p.ewmaMs then 2 % windowSize else 0 }

/-- The same generation and counts, and the same say in the ordering of answers. -/
structure SameEvidence (s s' : QualityStats P) : Prop where
  generation : s'.generation = s.generation
  samples : s'.samples = s.samples
  successes : s'.successes = s.successes
  applicable : s'.hasApplicableEvidence = s.hasApplicableEvidence

/-- Nothing but failures is known of the series, and they are what makes it count. -/
def FailuresOnly (s : QualityStats P) : Prop :=
  0 < s.samples ∧ s.successes = 0 ∧ 0 < s.consecutiveFailures

theorem sameEvidence_fromPersisted_iff (s : QualityStats P) :
    SameEvidence s (fromPersisted s.toPersisted) ↔ ¬s.FailuresOnly := by
  have happlicable : (fromPersisted s.toPersisted : QualityStats P).hasApplicableEvidence =
      s.hasApplicableEvidence ↔ ¬s.FailuresOnly := by
    unfold hasApplicableEvidence FailuresOnly fromPersisted toPersisted new
    rw [← Bool.coe_iff_coe]
    simp only [Bool.and_eq_true, Bool.or_eq_true, decide_eq_true_eq]
    omega
  exact ⟨fun h => happlicable.mp h.applicable,
    fun h => ⟨rfl, rfl, rfl, happlicable.mpr h⟩⟩

end QualityStats

structure StoredQuality where
  quality : PersistedQuality Int
  updated : Int

structure QualityRow where
  addr : List UInt8
  profile : ProbeProfile
  port : UInt16
  quality : PersistedQuality Nat
  updatedUnix : Nat

abbrev QualityTable := Map (List UInt8 × ProbeProfile × UInt16) StoredQuality

namespace QualityTable

def stored (r : QualityRow) : StoredQuality where
  quality := { r.quality with generation := asI64 r.quality.generation }
  updated := asI64 r.updatedUnix

/-- `INSERT ... ON CONFLICT(addr, profile, port) DO UPDATE` for each row. -/
def apply (table : QualityTable) (rows : List QualityRow) : QualityTable :=
  Map.insertAll table (rows.map fun r => ((r.addr, r.profile, r.port), stored r))

def loadQuality (table : QualityTable) (limit : Nat) : List QualityRow :=
  ((table.entries.insertionSort fun a b => b.2.updated ≤ a.2.updated).take limit).map fun e =>
    { addr := e.1.1
      profile := e.1.2.1
      port := e.1.2.2
      quality := { e.2.quality with generation := asU64 e.2.quality.generation }
      updatedUnix := asU64 e.2.updated }

end QualityTable

namespace QualityStore

variable {P : Type} (lib : AddrText)

def exported (st : QualityStore P) : List (ProbeKey × PersistedQuality Nat) :=
  Map.rows QualityStats.toPersisted st.entries

def flush (maxRows now : Nat) (st : QualityStore P) : List QualityRow :=
  (st.exported.take maxRows).map fun e =>
    { addr := lib.text e.1.addr
      profile := e.1.profile
      port := e.1.port
      quality := e.2
      updatedUnix := now }

def importRows (capacity : Nat) : Map ProbeKey (QualityStats P) →
    List (ProbeKey × PersistedQuality Nat) → Map ProbeKey (QualityStats P)
  | entries, [] => entries
  | entries, (key, p) :: rows =>
    if capacity ≤ entries.entries.length then entries
    else importRows capacity (entries.insert key (.fromPersisted p)) rows

/-- `restore_persisted_state`; a row whose address does not parse is left out. -/
def restore (rows : List QualityRow) : List (ProbeKey × PersistedQuality Nat) :=
  rows.filterMap fun r =>
    (lib.parse r.addr).map fun addr => ({ addr, port := r.port, profile := r.profile }, r.quality)

def restarted (maxRows now : Nat) (st : QualityStore P) : QualityStore P :=
  let table := QualityTable.apply ∅ (st.flush lib maxRows now)
  let store : QualityStore P := .new st.capacity
  { store with
    entries := importRows store.capacity store.entries
      (restore lib (table.loadQuality st.capacity)) }

def Kept (st st' : QualityStore P) : Prop :=
  ∀ key, Option.Rel QualityStats.SameEvidence (st.entries.lookup key) (st'.entries.lookup key)

section Rows

variable {lib} {st : QualityStore P} {maxRows now : Nat}

theorem nodup_keys_exported : (st.exported.map Prod.fst).Nodup := by
  unfold exported Map.rows
  rw [List.map_map]
  exact st.entries.nodupKeys

/-- What is written of an entry, with its key in the table. -/
def tableRow (lib : AddrText) (now : Nat) (e : ProbeKey × PersistedQuality Nat) :
    (List UInt8 × ProbeProfile × UInt16) × StoredQuality :=
  ((lib.text e.1.addr, e.1.profile, e.1.port),
    { quality := { e.2 with generation := asI64 e.2.generation }, updated := asI64 now })

theorem tableRow_key_injective (lib : AddrText) : Function.Injective fun key : ProbeKey =>
    (lib.text key.addr, key.profile, key.port) := by
  rintro ⟨a, port, profile⟩ ⟨a', port', profile'⟩ h
  obtain ⟨haddr, hprofile, hport⟩ := Prod.mk.inj h |>.imp id Prod.mk.inj
  have hparse := congrArg lib.parse haddr
  rw [lib.parse_text, lib.parse_text] at hparse
  rw [ProbeKey.mk.injEq]
  exact ⟨Option.some.inj hparse, hport, hprofile⟩

/-- What one row of the table becomes on the way back. -/
def restoredRow (lib : AddrText) (e : (List UInt8 × ProbeProfile × UInt16) × StoredQuality) :
    Option (ProbeKey × PersistedQuality Nat) :=
  (lib.parse e.1.1).map fun addr => ({ addr, port := e.1.2.2, profile := e.1.2.1 },
    { e.2.quality with generation := asU64 e.2.quality.generation })

theorem restoredRow_tableRow {e : ProbeKey × PersistedQuality Nat}
    (h : e.2.generation < 2 ^ 64) : restoredRow lib (tableRow lib now e) = some e := by
  unfold restoredRow tableRow
  rw [lib.parse_text, asU64_asI64 h]
  rfl

variable (lib maxRows now)

theorem perm_restore (hgen : ∀ e ∈ st.exported, e.2.generation < 2 ^ 64) {limit : Nat}
    (hlimit : st.exported.length ≤ limit) :
    (restore lib (QualityTable.loadQuality (.apply ∅ (st.flush lib maxRows now)) limit)).Perm
      (st.exported.take maxRows) := by
  have hkeys : (((st.exported.take maxRows).map (tableRow lib now)).map Prod.fst).Nodup := by
    have hsub : ((st.exported.take maxRows).map Prod.fst).Nodup :=
      nodup_keys_exported.sublist ((List.take_sublist _ _).map _)
    have hmap := hsub.map (tableRow_key_injective lib)
    rwa [List.map_map] at hmap ⊢
  have hrows : ((st.flush lib maxRows now).map fun r =>
      ((r.addr, r.profile, r.port), QualityTable.stored r)) =
        (st.exported.take maxRows).map (tableRow lib now) := by
    unfold flush
    rw [List.map_map]
    rfl
  have htable := Map.perm_rows_insertAll hkeys
  rw [← hrows] at htable
  set table := QualityTable.apply ∅ (st.flush lib maxRows now) with htabledef
  set sorted := table.entries.insertionSort fun a b => b.2.updated ≤ a.2.updated with hsorted
  have hperm : (sorted.map fun e => (e.1, e.2)).Perm
      ((st.exported.take maxRows).map (tableRow lib now)) := by
    rw [← hrows]
    exact ((List.perm_insertionSort _ _).map _).trans htable
  have hall : sorted.take limit = sorted := by
    apply List.take_of_length_le
    have hlen := hperm.length_eq
    rw [List.length_map, List.length_map, List.length_take] at hlen
    omega
  have hload : restore lib (table.loadQuality limit) =
      (sorted.map fun e => (e.1, e.2)).filterMap (restoredRow lib) := by
    unfold restore QualityTable.loadQuality
    rw [← hsorted, hall, List.filterMap_map, List.filterMap_map]
    rfl
  rw [hload]
  refine (hperm.filterMap _).trans (List.Perm.of_eq ?_)
  rw [List.filterMap_map]
  refine (List.filterMap_congr fun e he => ?_).trans List.filterMap_some
  exact restoredRow_tableRow (hgen e (List.mem_of_mem_take he))

theorem importRows_eq {capacity : Nat} {entries : Map ProbeKey (QualityStats P)}
    {rows : List (ProbeKey × PersistedQuality Nat)}
    (h : entries.entries.length + rows.length ≤ capacity) :
    importRows capacity entries rows =
      Map.insertAll entries (rows.map fun row => (row.1, .fromPersisted row.2)) := by
  induction rows generalizing entries with
  | nil => rfl
  | cons row rows ih =>
    rw [List.length_cons] at h
    unfold importRows
    rw [if_neg (by omega), ih]
    · rfl
    · have hlen := Map.length_insert_le entries row.1 (.fromPersisted row.2)
      omega

section

variable (hgen : ∀ e ∈ st.exported, e.2.generation < 2 ^ 64)
include hgen

theorem perm_rows_restarted (hsize : st.entries.entries.length ≤ st.capacity) :
    (Map.rows id (st.restarted lib maxRows now).entries).Perm
      ((st.exported.take maxRows).map fun row => (row.1, .fromPersisted row.2)) := by
  have hlen : st.exported.length = st.entries.entries.length := List.length_map _
  have hperm := perm_restore lib maxRows now hgen (hlen.trans_le hsize)
  have hnodup : (((st.exported.take maxRows).map fun row : ProbeKey × PersistedQuality Nat =>
      (row.1, (QualityStats.fromPersisted row.2 : QualityStats P))).map Prod.fst).Nodup := by
    rw [List.map_map]
    exact nodup_keys_exported.sublist ((List.take_sublist _ _).map _)
  have hmap := hperm.map fun row : ProbeKey × PersistedQuality Nat =>
    (row.1, (QualityStats.fromPersisted row.2 : QualityStats P))
  unfold restarted new
  dsimp only
  rw [importRows_eq]
  · exact (Map.perm_rows_insertAll ((hmap.map _).nodup_iff.mpr hnodup)).trans hmap
  · rw [hperm.length_eq, List.length_take, AList.empty_entries, List.length_nil]
    omega

theorem length_restarted_le (hsize : st.entries.entries.length ≤ st.capacity) :
    (st.restarted lib maxRows now).entries.entries.length ≤ maxRows := by
  have hlen := (perm_rows_restarted lib maxRows now hgen hsize).length_eq
  unfold Map.rows at hlen
  rw [List.length_map, List.length_map, List.length_take] at hlen
  omega

theorem lookup_restarted (hsize : st.entries.entries.length ≤ st.capacity)
    (hmax : st.entries.entries.length ≤ maxRows) (key : ProbeKey) :
    (st.restarted lib maxRows now).entries.lookup key =
      (st.entries.lookup key).map fun s => .fromPersisted s.toPersisted := by
  have hperm := perm_rows_restarted lib maxRows now hgen hsize
  have hlen : st.exported.length = st.entries.entries.length := List.length_map _
  rw [List.take_of_length_le (hlen.trans_le hmax)] at hperm
  apply Option.ext
  intro s
  have hmem := Map.mem_rows_iff (m := (st.restarted lib maxRows now).entries) (f := id)
    (k := key) (w := s)
  rw [Option.map_id_fun, id_eq] at hmem
  rw [← hmem, hperm.mem_iff]
  unfold exported Map.rows
  rw [List.map_map]
  exact Map.mem_rows_iff
    (f := fun s : QualityStats P => QualityStats.fromPersisted s.toPersisted)

end

/-- Every series keeps its evidence across a restart just when all of them are written and none of
them counts for its failures alone. -/
theorem evidence_kept_iff (hsize : st.entries.entries.length ≤ st.capacity)
    (hgen : ∀ key s, st.entries.lookup key = some s → s.generation < 2 ^ 64) :
    Kept st (st.restarted lib maxRows now) ↔ st.entries.entries.length ≤ maxRows ∧
      ∀ key s, st.entries.lookup key = some s → ¬s.FailuresOnly := by
  have hgen : ∀ e ∈ st.exported, e.2.generation < 2 ^ 64 := by
    rintro ⟨key, p⟩ he
    obtain ⟨s, hs, rfl⟩ := Option.map_eq_some_iff.mp (Map.mem_rows_iff.mp he)
    exact hgen key s hs
  constructor
  · intro hkept
    have hmax : st.entries.entries.length ≤ maxRows := by
      refine le_trans (Map.length_le_of_keys fun key hkey => ?_)
        (length_restarted_le lib maxRows now hgen hsize)
      have hrel := hkept key
      rw [← AList.lookup_isSome] at hkey ⊢
      cases hrel' : (st.restarted lib maxRows now).entries.lookup key with
      | none =>
        rw [hrel'] at hrel
        cases hs : st.entries.lookup key with
        | none =>
          rw [hs] at hkey
          cases hkey
        | some s =>
          rw [hs] at hrel
          cases hrel
      | some s => rfl
    refine ⟨hmax, fun key s hs => ?_⟩
    have hrel := hkept key
    rw [lookup_restarted lib maxRows now hgen hsize hmax, hs] at hrel
    cases hrel with
    | some hsame => exact (QualityStats.sameEvidence_fromPersisted_iff s).mp hsame
  · rintro ⟨hmax, hnone⟩ key
    rw [lookup_restarted lib maxRows now hgen hsize hmax]
    cases hs : st.entries.lookup key with
    | none => exact .none
    | some s =>
      exact .some ((QualityStats.sameEvidence_fromPersisted_iff s).mpr (hnone key s hs))

end Rows

def octetText (n : Nat) : List UInt8 := (Nat.digits 256 n).map UInt8.ofNat

def octetNumber (octets : List UInt8) : Nat := Nat.ofDigits 256 (octets.map UInt8.toNat)

theorem octetNumber_octetText (n : Nat) : octetNumber (octetText n) = n := by
  unfold octetNumber octetText
  rw [List.map_map]
  have hdigits : (Nat.digits 256 n).map (UInt8.toNat ∘ UInt8.ofNat) = Nat.digits 256 n := by
    refine (List.map_congr_left fun d hd => ?_).trans (List.map_id _)
    have hlt : d < 256 := Nat.digits_lt_base (by decide) hd
    exact Nat.mod_eq_of_lt hlt
  rw [hdigits, Nat.ofDigits_digits]

def addrSample : AddrText where
  text
    | .v4 a => 4 :: octetText a.toNat
    | .v6 a => 6 :: octetText a.toNat
  parse
    | 4 :: octets => some (.v4 (BitVec.ofNat 32 (octetNumber octets)))
    | 6 :: octets => some (.v6 (BitVec.ofNat 128 (octetNumber octets)))
    | _ => none
  parse_text a := by
    cases a with
    | v4 a | v6 a => simp only [octetNumber_octetText, BitVec.ofNat_toNat, BitVec.setWidth_eq]

def sampleKey : ProbeKey := .generic (.v4 0x68100001) 443

def only (s : QualityStats Unit) : QualityStore Unit where
  entries := AList.singleton sampleKey s
  capacity := 4

theorem eq_of_lookup_only {s s' : QualityStats Unit} {key : ProbeKey}
    (h : (only s).entries.lookup key = some s') : s' = s := by
  have hmem := AList.mem_lookup_iff.mp h
  cases List.mem_singleton.mp hmem
  rfl

def reachable : QualityStats Unit := { QualityStats.new 7 with samples := 3, successes := 2 }

def unreachable : QualityStats Unit :=
  { QualityStats.new 7 with samples := 3, consecutiveFailures := 3 }

theorem evidence_kept_reachable :
    Kept (only reachable) ((only reachable).restarted addrSample 10 0) := by
  refine (evidence_kept_iff addrSample 10 0 (by decide) ?_).mpr ⟨by decide, ?_⟩
  · intro key s hs
    rw [eq_of_lookup_only hs]
    decide
  · rintro key s hs ⟨-, hsuccesses, -⟩
    rw [eq_of_lookup_only hs] at hsuccesses
    cases hsuccesses

/-- Three failures in a row say nothing any more after a restart. -/
theorem evidence_lost :
    ((only unreachable).entries.lookup sampleKey).map QualityStats.hasApplicableEvidence =
        some true ∧
      (((only unreachable).restarted addrSample 10 0).entries.lookup sampleKey).map
        QualityStats.hasApplicableEvidence = some false := by
  refine ⟨by decide, ?_⟩
  rw [lookup_restarted addrSample 10 0 ?_ (by decide) (by decide)]
  · rfl
  · intro e he
    cases List.mem_singleton.mp he
    decide

end QualityStore

end EgressDns
