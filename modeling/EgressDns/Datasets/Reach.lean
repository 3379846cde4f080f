import EgressDns.Datasets.Zones
import EgressDns.Dns.Spelling
import EgressDns.Lib.Outcome

/-!
# What the zones of a configuration answer

`LocalZoneSet::lookup` read back in terms of the `[[local.zones]]` entries: the entry with the
longest apex decides, the first of several with the same one, and it knows only the records that
stand in it.
-/

namespace EgressDns

open Lib

def LocalZone.apex (zone : LocalZone) : Text := lower (trimEndDots zone.name)

def decidingZone (zones : List LocalZone) (name : Text) : Option LocalZone :=
  firstLongest (fun z => z.apex.length) (fun z => isUnder (lower (trimEndDots name)) z.apex)
    zones

def queryKey (name : Text) : Text := normalizeName (lower (trimEndDots name))

section Entries

variable (lib : TextLib) (defaultTtl : Nat)

def LocalRecord.build (rec : LocalRecord) (apex : Text) : Except Text Record :=
  match lib.nameFromStr (rec.owner apex) with
  | .ok name => buildRecord lib name (rec.ttl.getD defaultTtl) rec.rtype rec.value
  | .error e =>
    .error (ascii "invalid owner name " ++ quoted (rec.owner apex) ++ ascii ": " ++ e)

def LocalRecord.key (rec : LocalRecord) (apex : Text) : Text := normalizeName (rec.owner apex)

def Configured (zones : List LocalZone) (record : Record) : Prop :=
  ∃ zone ∈ zones, ∃ rec ∈ zone.records, rec.build lib defaultTtl zone.apex = .ok record

def ownedBy (apex key : Text) (records : List LocalRecord) : List Record :=
  records.filterMap fun rec =>
    if rec.key apex = key then (rec.build lib defaultTtl apex).toOption else none

def addConfigured (apex : Text) (records : AList fun _ : Text => List Record) (rec : LocalRecord) :
    Except Text (AList fun _ : Text => List Record) :=
  (rec.build lib defaultTtl apex).map (addRecord records (rec.owner apex))

variable {lib defaultTtl} {zone : LocalZone} {z : Zone}

theorem buildZone_eq_ok (h : buildZone lib defaultTtl zone = .ok z) :
    z.apex = zone.apex ∧ z.authoritative = zone.authoritative ∧
      zone.records.foldlM (addConfigured lib defaultTtl zone.apex) ∅ = .ok z.records := by
  have hstep : ∀ (records : AList fun _ : Text => List Record) (rec : LocalRecord),
      (do
        let name ← match lib.nameFromStr (rec.owner zone.apex) with
          | .ok name => pure name
          | .error e =>
            throw (ascii "invalid owner name " ++ quoted (rec.owner zone.apex) ++ ascii ": " ++ e)
        let record ← buildRecord lib name (rec.ttl.getD defaultTtl) rec.rtype rec.value
        pure (addRecord records (rec.owner zone.apex) record) : Except Text _) =
      addConfigured lib defaultTtl zone.apex records rec := by
    intro records rec
    unfold addConfigured LocalRecord.build
    cases lib.nameFromStr (rec.owner zone.apex) with
    | error e => rfl
    | ok name =>
      simp only [pure_bind]
      cases buildRecord lib name (rec.ttl.getD defaultTtl) rec.rtype rec.value <;> rfl
  change (if zone.apex = [] then _ else _) = _ at h
  split at h
  · cases h
  · obtain ⟨records, hrecords, heq⟩ := bind_eq_ok_iff.mp h
    cases heq
    refine ⟨rfl, rfl, ?_⟩
    have hfold := congrArg (fun f => List.foldlM f ∅ zone.records)
      (funext fun records => funext (hstep records))
    exact hfold.symm.trans hrecords

variable {records : List LocalRecord} {rec : LocalRecord} {apex : Text} {record : Record}

theorem foldlM_addConfigured_cons {start out : AList fun _ : Text => List Record}
    (h : (rec :: records).foldlM (addConfigured lib defaultTtl apex) start = .ok out) :
    ∃ record, rec.build lib defaultTtl apex = .ok record ∧
      records.foldlM (addConfigured lib defaultTtl apex)
        (addRecord start (rec.owner apex) record) = .ok out := by
  obtain ⟨next, hnext, hrest⟩ := bind_eq_ok_iff.mp h
  obtain ⟨record, hrecord, rfl⟩ := map_eq_ok_iff.mp hnext
  exact ⟨record, hrecord, hrest⟩

theorem exists_record_of_foldlM {start out : AList fun _ : Text => List Record}
    (h : records.foldlM (addConfigured lib defaultTtl apex) start = .ok out)
    (hrec : rec ∈ records) : ∃ record, rec.build lib defaultTtl apex = .ok record := by
  induction records generalizing start with
  | nil => cases hrec
  | cons first records ih =>
    obtain ⟨record, hrecord, hrest⟩ := foldlM_addConfigured_cons h
    rcases List.mem_cons.mp hrec with rfl | hrec
    · exact ⟨record, hrecord⟩
    · exact ih hrest hrec

theorem lookup_addRecord (records : AList fun _ : Text => List Record) (rec : LocalRecord)
    (apex : Text) (record : Record) (key : Text) :
    (addRecord records (rec.owner apex) record).lookup key =
      if rec.key apex = key then some ((records.lookup key).getD [] ++ [record])
      else records.lookup key := by
  unfold addRecord LocalRecord.key
  split
  · rename_i heq
    rw [heq, AList.lookup_insert]
  · rename_i hne
    exact AList.lookup_insert_ne (Ne.symm hne)

theorem ownedBy_cons {key : Text} (h : rec.build lib defaultTtl apex = .ok record)
    (records : List LocalRecord) :
    ownedBy lib defaultTtl apex key (rec :: records) =
      if rec.key apex = key then record :: ownedBy lib defaultTtl apex key records
      else ownedBy lib defaultTtl apex key records := by
  unfold ownedBy
  rw [List.filterMap_cons, h]
  split <;> simp_all [Except.toOption]

theorem lookup_of_foldlM {start out : AList fun _ : Text => List Record} (key : Text)
    (h : records.foldlM (addConfigured lib defaultTtl apex) start = .ok out) :
    (out.lookup key).getD [] =
        (start.lookup key).getD [] ++ ownedBy lib defaultTtl apex key records ∧
      (start.lookup key ≠ some [] → out.lookup key ≠ some []) := by
  induction records generalizing start with
  | nil =>
    cases h
    exact ⟨(List.append_nil _).symm, id⟩
  | cons rec records ih =>
    obtain ⟨record, hrecord, hrest⟩ := foldlM_addConfigured_cons h
    obtain ⟨hvalue, hfull⟩ := ih hrest
    rw [lookup_addRecord] at hvalue hfull
    rw [ownedBy_cons hrecord]
    by_cases hkey : rec.key apex = key
    · rw [if_pos hkey] at hvalue hfull ⊢
      refine ⟨?_, fun _ => hfull (by simp)⟩
      rw [hvalue, Option.getD_some, List.append_assoc, List.singleton_append]
    · rw [if_neg hkey] at hvalue hfull ⊢
      exact ⟨hvalue, hfull⟩

theorem lookup_buildZone (h : buildZone lib defaultTtl zone = .ok z) (key : Text) :
    z.records.lookup key =
      if ownedBy lib defaultTtl zone.apex key zone.records = [] then none
      else some (ownedBy lib defaultTtl zone.apex key zone.records) := by
  obtain ⟨-, -, hfold⟩ := buildZone_eq_ok h
  obtain ⟨hvalue, hfull⟩ := lookup_of_foldlM key hfold
  rw [AList.lookup_empty, Option.getD_none, List.nil_append] at hvalue
  have hfull := hfull (by simp)
  rw [← hvalue]
  cases hlookup : z.records.lookup key with
  | none => rfl
  | some records =>
    have hne : records ≠ [] := fun hnil => hfull (by rw [hlookup, hnil])
    exact (if_neg hne).symm

theorem mem_ownedBy {key : Text} :
    record ∈ ownedBy lib defaultTtl apex key records ↔
      ∃ rec ∈ records, rec.key apex = key ∧ rec.build lib defaultTtl apex = .ok record := by
  unfold ownedBy
  rw [List.mem_filterMap]
  apply exists_congr
  intro rec
  apply and_congr_right
  intro _
  split
  · rename_i hkey
    rw [and_iff_right hkey]
    cases rec.build lib defaultTtl apex <;> simp [Except.toOption]
  · rename_i hkey
    simp [hkey]

variable (lib defaultTtl)

def LocalZone.answer (zone : LocalZone) (name : Text) (qtype : RecordType) : ZoneAnswer :=
  let records := ownedBy lib defaultTtl zone.apex (queryKey name) zone.records
  let matching := records.filter fun r => r.recordType = qtype ∨ r.recordType = .cname
  if records = [] then if zone.authoritative then .nxDomain else .notInZone
  else if matching = [] then .noData else .records matching

variable {lib defaultTtl}

theorem answer_buildZone (h : buildZone lib defaultTtl zone = .ok z) (name : Text)
    (qtype : RecordType) :
    z.answer (lower (trimEndDots name)) qtype = zone.answer lib defaultTtl name qtype := by
  obtain ⟨-, hauth, -⟩ := buildZone_eq_ok h
  unfold Zone.answer LocalZone.answer queryKey
  rw [lookup_buildZone h, hauth]
  by_cases hnil :
      ownedBy lib defaultTtl zone.apex (normalizeName (lower (trimEndDots name))) zone.records = []
  · rw [if_pos hnil, if_pos hnil]
  · rw [if_neg hnil, if_neg hnil]

end Entries

section Lookup

variable {lib : TextLib} {defaultTtl : Nat} {zones : List LocalZone} {set : LocalZoneSet}

theorem build_eq_ok (h : LocalZoneSet.build lib zones defaultTtl = .ok set) :
    ∃ out, List.Forall₂ (fun zone z => buildZone lib defaultTtl zone = .ok z) zones out ∧
      set.zones = out.insertionSort fun a b => b.apex.length ≤ a.apex.length := by
  obtain ⟨out, hmap, heq⟩ := bind_eq_ok_iff.mp h
  cases heq
  exact ⟨out, mapM_eq_ok_iff.mp hmap, rfl⟩

theorem lookup_build (h : LocalZoneSet.build lib zones defaultTtl = .ok set) (name : Text)
    (qtype : RecordType) :
    set.lookup name qtype =
      match decidingZone zones name with
      | some zone => zone.answer lib defaultTtl name qtype
      | none => .notInZone := by
  obtain ⟨out, hall, hzones⟩ := build_eq_ok h
  have hrel : Option.Rel (fun zone z => buildZone lib defaultTtl zone = .ok z)
      (decidingZone zones name) (firstLongest (fun z => z.apex.length)
        (fun z => isUnder (lower (trimEndDots name)) z.apex) out) := by
    apply firstLongest_rel _ hall
    intro zone z hz
    rw [(buildZone_eq_ok hz).1]
    exact ⟨rfl, rfl⟩
  unfold LocalZoneSet.lookup
  dsimp only
  rw [hzones, find?_insertionSort]
  generalize decidingZone zones name = decided at hrel
  generalize firstLongest _ _ out = found at hrel
  cases hrel with
  | none => rfl
  | some hz => exact answer_buildZone hz name qtype

variable {zone : LocalZone} {name : Text}

theorem exists_record_of_build (h : LocalZoneSet.build lib zones defaultTtl = .ok set)
    (hzone : zone ∈ zones) {rec : LocalRecord} (hrec : rec ∈ zone.records) :
    ∃ record, rec.build lib defaultTtl zone.apex = .ok record := by
  obtain ⟨out, hall, -⟩ := build_eq_ok h
  obtain ⟨z, -, hz⟩ := exists_of_mem_left hall hzone
  exact exists_record_of_foldlM (buildZone_eq_ok hz).2.2 hrec

theorem mem_of_decidingZone (h : decidingZone zones name = some zone) : zone ∈ zones :=
  (mem_of_firstLongest h).1

theorem answer_eq_nxDomain_iff (h : LocalZoneSet.build lib zones defaultTtl = .ok set)
    (hzone : zone ∈ zones) (name : Text) (qtype : RecordType) :
    zone.answer lib defaultTtl name qtype = .nxDomain ↔
      zone.authoritative = true ∧ ¬∃ rec ∈ zone.records, rec.key zone.apex = queryKey name := by
  have howned : ownedBy lib defaultTtl zone.apex (queryKey name) zone.records = [] ↔
      ¬∃ rec ∈ zone.records, rec.key zone.apex = queryKey name := by
    rw [List.eq_nil_iff_forall_not_mem]
    constructor
    · rintro hnone ⟨rec, hrec, hkey⟩
      obtain ⟨record, hrecord⟩ := exists_record_of_build h hzone hrec
      exact hnone record (mem_ownedBy.mpr ⟨rec, hrec, hkey, hrecord⟩)
    · intro hnone record hmem
      obtain ⟨rec, hrec, hkey, -⟩ := mem_ownedBy.mp hmem
      exact hnone ⟨rec, hrec, hkey⟩
  rw [← howned]
  unfold LocalZone.answer
  dsimp only
  split_ifs <;> simp_all

def AtOrAbove (q n : Name) : Prop := q.labels.map lower <:+ n.labels.map lower

instance decidableAtOrAbove (q n : Name) : Decidable (AtOrAbove q n) :=
  inferInstanceAs (Decidable (_ <:+ _))

/-- Zones deny only names without a configured record at or beneath them just when every name at or
above the owner of a record owns a record in the entry that decides about it, unless that entry is
not authoritative. -/
theorem denies_only_missing_iff (hk : Hickory)
    (h : LocalZoneSet.build lib zones defaultTtl = .ok set) :
    (∀ q qtype, set.lookup (hk.nameText q) qtype = .nxDomain →
      ∀ record, Configured lib defaultTtl zones record → ¬AtOrAbove q record.name) ↔
    ∀ record, Configured lib defaultTtl zones record → ∀ q, AtOrAbove q record.name →
      ∀ zone, decidingZone zones (hk.nameText q) = some zone → zone.authoritative = true →
        ∃ rec ∈ zone.records, rec.key zone.apex = queryKey (hk.nameText q) := by
  constructor
  · intro hdenies record hrecord q habove zone hzone hauth
    by_contra hnone
    have hlookup : set.lookup (hk.nameText q) .a = .nxDomain := by
      rw [lookup_build h, hzone]
      exact (answer_eq_nxDomain_iff h (mem_of_decidingZone hzone) _ _).mpr ⟨hauth, hnone⟩
    exact hdenies q .a hlookup record hrecord habove
  · intro howns q qtype hlookup record hrecord habove
    rw [lookup_build h] at hlookup
    cases hzone : decidingZone zones (hk.nameText q) with
    | none =>
      rw [hzone] at hlookup
      cases hlookup
    | some zone =>
      rw [hzone] at hlookup
      obtain ⟨hauth, hnone⟩ :=
        (answer_eq_nxDomain_iff h (mem_of_decidingZone hzone) _ _).mp hlookup
      exact hnone (howns record hrecord q habove zone hzone hauth)

theorem mem_answer_iff {record : Record} :
    (∃ records, zone.answer lib defaultTtl name record.recordType = .records records ∧
      record ∈ records) ↔
    ∃ rec ∈ zone.records, rec.key zone.apex = queryKey name ∧
      rec.build lib defaultTtl zone.apex = .ok record := by
  rw [← mem_ownedBy]
  unfold LocalZone.answer
  dsimp only
  constructor
  · rintro ⟨records, hanswer, hmem⟩
    split_ifs at hanswer
    cases hanswer
    exact (List.mem_filter.mp hmem).1
  · intro hmem
    have hmatch : record ∈ (ownedBy lib defaultTtl zone.apex (queryKey name) zone.records).filter
        (fun r => r.recordType = record.recordType ∨ r.recordType = .cname) :=
      List.mem_filter.mpr ⟨hmem, by simp⟩
    rw [if_neg (List.ne_nil_of_mem hmem), if_neg (List.ne_nil_of_mem hmatch)]
    exact ⟨_, rfl, hmatch⟩

/-- A query for the owner of a record and its type is answered with the record among others. -/
def Reachable (set : LocalZoneSet) (owner : Text) (record : Record) : Prop :=
  ∃ records, set.lookup owner record.recordType = .records records ∧ record ∈ records

/-- Every record is reachable just when the entry that decides about its owner has the same
record. -/
theorem every_record_reachable_iff (h : LocalZoneSet.build lib zones defaultTtl = .ok set) :
    (∀ zone ∈ zones, ∀ rec ∈ zone.records, ∀ record,
      rec.build lib defaultTtl zone.apex = .ok record →
        Reachable set (rec.owner zone.apex) record) ↔
    ∀ zone ∈ zones, ∀ rec ∈ zone.records, ∀ record,
      rec.build lib defaultTtl zone.apex = .ok record →
        ∃ z, decidingZone zones (rec.owner zone.apex) = some z ∧ ∃ r ∈ z.records,
          r.key z.apex = queryKey (rec.owner zone.apex) ∧
            r.build lib defaultTtl z.apex = .ok record := by
  have hone : ∀ owner record, Reachable set owner record ↔
      ∃ z, decidingZone zones owner = some z ∧ ∃ r ∈ z.records,
        r.key z.apex = queryKey owner ∧ r.build lib defaultTtl z.apex = .ok record := by
    intro owner record
    unfold Reachable
    rw [lookup_build h]
    cases decidingZone zones owner with
    | none => simp
    | some z => simp only [mem_answer_iff, Option.some.injEq, exists_eq_left']
  simp only [hone]

end Lookup

def TextLib.dotted : TextLib where
  trim text := text
  lines text := [text]
  splitWhitespace text := [text]
  splitOnceWhitespace _ := none
  parseV4 text := if text = ascii "10.0.0.1" then some 0x0a000001 else none
  parseV6 _ := none
  parseU16 _ := none
  nameFromStr text := .ok ⟨(text.splitOn 46).filter (· ≠ [])⟩

def addressRecord (name : String) : LocalRecord :=
  { name := ascii name, rtype := ascii "A", value := ascii "10.0.0.1", ttl := none }

def zoneEntry (name : String) (authoritative : Bool) (records : List String) : LocalZone :=
  { name := ascii name, authoritative, records := records.map addressRecord }

def hostName (labels : List String) : Name := ⟨labels.map ascii⟩

/-- Two entries with one apex, the record in the second; and an empty non-terminal. -/
theorem denies_configured_record :
    (∃ set, LocalZoneSet.build TextLib.dotted
        [zoneEntry "lan" true [], zoneEntry "lan" true ["gw"]] 60 = .ok set ∧
      set.lookup (Hickory.sample.nameText (hostName ["gw", "lan"])) .a = .nxDomain ∧
      ∃ record, Configured TextLib.dotted 60
          [zoneEntry "lan" true [], zoneEntry "lan" true ["gw"]] record ∧
        AtOrAbove (hostName ["gw", "lan"]) record.name) ∧
    ∃ set, LocalZoneSet.build TextLib.dotted [zoneEntry "lan" true ["s.t"]] 60 = .ok set ∧
      set.lookup (Hickory.sample.nameText (hostName ["t", "lan"])) .a = .nxDomain ∧
      ∃ record, Configured TextLib.dotted 60 [zoneEntry "lan" true ["s.t"]] record ∧
        AtOrAbove (hostName ["t", "lan"]) record.name := by
  constructor
  · exact ⟨_, rfl, rfl, _, ⟨_, List.mem_cons_of_mem _ List.mem_cons_self, _, List.mem_cons_self,
      rfl⟩, by decide⟩
  · exact ⟨_, rfl, rfl, _, ⟨_, List.mem_cons_self, _, List.mem_cons_self, rfl⟩, by decide⟩

theorem Hickory.lower_escapeOctet (b : UInt8) :
    lower (escapeOctet (asciiLower b)) = lower (escapeOctet b) := by
  have hall : ∀ n < 256, lower (escapeOctet (asciiLower (UInt8.ofNat n))) =
      lower (escapeOctet (UInt8.ofNat n)) := by decide +kernel
  have hb := hall b.toNat b.toNat_lt
  rwa [UInt8.ofNat_toNat] at hb

theorem Hickory.lower_presentName_plain (n : Name) :
    lower (presentName n.plain) = lower (presentName n) := by
  have hoctet := lower_escapeOctet
  unfold presentName Name.plain
  unfold lower at hoctet ⊢
  by_cases hn : n.labels = []
  · simp [hn]
  · simp [hn, escape, List.map_flatMap, List.flatMap_map, hoctet]

theorem denies_only_missing_host :
    ∃ set, LocalZoneSet.build TextLib.dotted [zoneEntry "lan" true ["@", "gw"]] 60 = .ok set ∧
      ∀ q qtype, set.lookup (Hickory.sample.nameText q) qtype = .nxDomain → ∀ record,
        Configured TextLib.dotted 60 [zoneEntry "lan" true ["@", "gw"]] record →
          ¬AtOrAbove q record.name := by
  refine ⟨_, rfl, (denies_only_missing_iff Hickory.sample rfl).mpr ?_⟩
  rintro record ⟨zone, hzone, rec, hrec, hrecord⟩ q habove z hz -
  obtain rfl := List.mem_singleton.mp hzone
  obtain rfl := List.mem_singleton.mp (mem_of_decidingZone hz)
  have hsuffix : q.labels.map lower <:+ [ascii "gw", ascii "lan"] := by
    rcases List.mem_pair.mp hrec with rfl | rfl
    · cases hrecord
      exact habove.trans (by decide)
    · cases hrecord
      exact habove
  have hspell : lower (trimEndDots (Hickory.sample.nameText q)) =
      lower (trimEndDots (Hickory.sample.nameText q.plain)) :=
    lower_trimEndDots_congr (Hickory.lower_presentName_plain q).symm
  unfold queryKey
  unfold decidingZone at hz
  rw [hspell] at hz ⊢
  unfold Name.plain at hz ⊢
  generalize q.labels.map lower = labels at hsuffix hz ⊢
  rcases List.suffix_cons_iff.mp hsuffix with rfl | hsuffix
  · exact ⟨_, List.mem_cons_of_mem _ List.mem_cons_self, by decide⟩
  · rcases List.suffix_cons_iff.mp hsuffix with rfl | hsuffix
    · exact ⟨_, List.mem_cons_self, by decide⟩
    · -- The root is in no zone.
      rw [List.suffix_nil.mp hsuffix] at hz
      cases hz

theorem every_record_reachable_host :
    ∃ set, LocalZoneSet.build TextLib.dotted [zoneEntry "lan" true ["@", "gw"]] 60 = .ok set ∧
      ∀ zone ∈ [zoneEntry "lan" true ["@", "gw"]], ∀ rec ∈ zone.records, ∀ record,
        rec.build TextLib.dotted 60 zone.apex = .ok record →
          Reachable set (rec.owner zone.apex) record := by
  refine ⟨_, rfl, (every_record_reachable_iff rfl).mpr ?_⟩
  intro zone hzone rec hrec record hrecord
  obtain rfl := List.mem_singleton.mp hzone
  refine ⟨_, ?_, rec, hrec, ?_, hrecord⟩
  · rcases List.mem_pair.mp hrec with rfl | rfl <;> rfl
  · rcases List.mem_pair.mp hrec with rfl | rfl <;> rfl

/-- A record in the second of two entries with one apex, a record with an absolute owner outside its
zone, and a record beneath a more specific entry. -/
theorem records_unreachable :
    (∃ set, LocalZoneSet.build TextLib.dotted
        [zoneEntry "lan" true [], zoneEntry "lan" true ["gw"]] 60 = .ok set ∧
      ∃ record, (addressRecord "gw").build TextLib.dotted 60 (ascii "lan") = .ok record ∧
        ¬Reachable set (ascii "gw.lan.") record) ∧
    (∃ set, LocalZoneSet.build TextLib.dotted [zoneEntry "lan" true ["gw.net."]] 60 = .ok set ∧
      ∃ record, (addressRecord "gw.net.").build TextLib.dotted 60 (ascii "lan") = .ok record ∧
        ¬Reachable set (ascii "gw.net.") record) ∧
    ∃ set, LocalZoneSet.build TextLib.dotted
        [zoneEntry "lan" true ["gw.lab"], zoneEntry "lab.lan" false []] 60 = .ok set ∧
      ∃ record, (addressRecord "gw.lab").build TextLib.dotted 60 (ascii "lan") = .ok record ∧
        ¬Reachable set (ascii "gw.lab.lan.") record := by
  refine ⟨⟨_, rfl, _, rfl, ?_⟩, ⟨_, rfl, _, rfl, ?_⟩, ⟨_, rfl, _, rfl, ?_⟩⟩
  · rintro ⟨records, hlookup, -⟩
    cases (show ZoneAnswer.nxDomain = .records records from hlookup)
  · rintro ⟨records, hlookup, -⟩
    cases (show ZoneAnswer.notInZone = .records records from hlookup)
  · rintro ⟨records, hlookup, -⟩
    cases (show ZoneAnswer.notInZone = .records records from hlookup)

end EgressDns
