import EgressDns.Datasets.Reach
import EgressDns.Lib.Framing
import EgressDns.Runtime.App

/-!
# Which changes of the datasets are noticed

`content_digest` decides whether a rebuilt snapshot is published. The hash function is a parameter:
what is modelled is the sequence of values it is fed with, and what that sequence tells apart. So is
the text that `Debug` prints of the data of a record.
-/

namespace EgressDns

open Lib

/-- The values that are hashed, in the order of the calls. Of the data of a record it is what
`Debug` prints. -/
inductive HashItem where
  | text (t : Text)
  | string (s : String)
  | address (a : IpAddr)
  | flag (b : Bool)
  | size (n : Nat)
  | seconds (n : Nat)
  | data (t : Text)
  | word (w : UInt64)
  deriving DecidableEq

def textLe (a b : Text) : Prop := ¬b < a

instance decidableTextLe (a b : Text) : Decidable (textLe a b) :=
  inferInstanceAs (Decidable (¬_))

instance textLe_total : Std.Total textLe := ⟨fun a b => List.le_total a b⟩

instance textLe_trans : IsTrans Text textLe := ⟨fun _ _ _ hab hbc => List.le_trans hab hbc⟩

theorem textLe_antisymm (a b : Text) (hab : textLe a b) (hba : textLe b a) : a = b :=
  List.le_antisymm hab hba

def HostsTable.digestItems (t : HostsTable) : List HashItem :=
  (Map.sortedEntries textLe t.map).flatMap fun e => .text e.1 :: e.2.map .address

section Items

variable (debug : RData → Text)

def Zone.ownerItems (z : Zone) (name : Text) : List HashItem :=
  .text name :: match z.records.lookup name with
    | some records =>
      .size records.length :: records.flatMap fun r => [.data (debug r.data), .seconds r.ttl]
    | none => []

def Zone.digestItems (z : Zone) : List HashItem :=
  .text z.apex :: .flag z.authoritative ::
    (z.records.keys.insertionSort textLe).flatMap (z.ownerItems debug)

def LocalZoneSet.digestItems (set : LocalZoneSet) : List HashItem :=
  set.zones.flatMap (Zone.digestItems debug)

end Items

def pairLe (a b : Text × Nat) : Prop := textLe a.1 b.1 ∧ (a.1 = b.1 → a.2 ≤ b.2)

instance decidablePairLe (a b : Text × Nat) : Decidable (pairLe a b) :=
  inferInstanceAs (Decidable (_ ∧ _))

namespace DatasetSnapshot

variable (debug : RData → Text) (hash : List HashItem → UInt64) (s : DatasetSnapshot)

def suffixItems : List HashItem :=
  .size s.suffixRules.length :: s.suffixRules.flatMap fun rule => [.text rule.1, .string rule.2]

def categoryItems : List HashItem :=
  let categories := (Map.rows List.length s.categories).insertionSort pairLe
  .size categories.length :: categories.flatMap fun c => [.text c.1, .size c.2]

def contentItems : List HashItem :=
  [.word (hash s.hosts.digestItems), .word (hash (s.zones.digestItems debug))] ++
    s.suffixItems ++ s.categoryItems ++ [.flag s.geoip, .flag s.asn, .size s.stats.hostEntries,
      .size s.stats.zoneRecords, .size s.stats.categoryEntries]

def contentDigest : UInt64 := hash (s.contentItems debug hash)

def categoriesOf (name : Text) : List Text :=
  let n := lower (trimEndDots name)
  ((s.categories.entries.filter fun e => e.2.any (isUnder n)).map Sigma.fst).insertionSort textLe

/-- Some query of local data is answered differently. -/
def Differs (a b : DatasetSnapshot) : Prop :=
  (∃ name, a.hosts.get name ≠ b.hosts.get name) ∨
    (∃ name qtype, a.zones.lookup name qtype ≠ b.zones.lookup name qtype) ∨
    (∃ name, a.groupFor name ≠ b.groupFor name) ∨
    ∃ name, a.categoriesOf name ≠ b.categoriesOf name

def Loaded (lib : TextLib) (s : DatasetSnapshot) : Prop :=
  s = empty ∨ ∃ datasets localCfg disk now, build lib datasets localCfg disk now = .ok s

end DatasetSnapshot

theorem HostsTable.digestItems_eq (t : HostsTable) :
    t.digestItems = (Map.sortedRows textLe id t.map).flatMap fun row =>
      .text row.1 :: row.2.map .address := by
  unfold digestItems Map.sortedRows
  rw [List.flatMap_map]
  rfl

theorem addresses_append_inj {as bs : List IpAddr} {rest rest' : List HashItem}
    (hr : ∀ a more, rest ≠ .address a :: more) (hr' : ∀ a more, rest' ≠ .address a :: more)
    (he : as.map HashItem.address ++ rest = bs.map HashItem.address ++ rest') :
    as = bs ∧ rest = rest' := by
  rw [← List.flatMap_pure_eq_map, ← List.flatMap_pure_eq_map] at he
  refine flatMap_append_inj (E := fun rest => ∀ a more, rest ≠ .address a :: more) ?_ ?_ hr
    hr' he
  · intro a a' rest rest' _ _ heq
    obtain ⟨hhead, htail⟩ := List.cons.inj heq
    exact ⟨HashItem.address.inj hhead, htail⟩
  · intro a more hend
    exact hend a more rfl

theorem HostsTable.digestItems_eq_iff {t t' : HostsTable} :
    t.digestItems = t'.digestItems ↔ ∀ key, t.map.lookup key = t'.map.lookup key := by
  have hrows : Map.sortedRows textLe id t.map = Map.sortedRows textLe id t'.map ↔ _ :=
    Map.sortedRows_eq_iff textLe_antisymm
  simp only [Option.map_id_fun, id_eq] at hrows
  rw [← hrows, digestItems_eq, digestItems_eq]
  constructor
  · intro h
    refine (flatMap_append_inj (E := fun rest => rest = []) ?_ ?_ rfl rfl
      (by rw [h])).1
    · have hnext : ∀ rest : List HashItem, Follows
          (fun row : Text × List IpAddr => .text row.1 :: row.2.map .address) (· = []) rest →
          ∀ a more, rest ≠ .address a :: more := by
        rintro rest (rfl | ⟨row, tail, rfl⟩) a more heq
        · cases heq
        · cases heq
      rintro ⟨name, as⟩ ⟨name', as'⟩ rest rest' hr hr' he
      obtain ⟨hname, htail⟩ := List.cons.inj he
      obtain ⟨has, hrest⟩ := addresses_append_inj (hnext rest hr) (hnext rest' hr') htail
      exact ⟨Prod.ext (HashItem.text.inj hname) has, hrest⟩
    · intro row more hend
      cases hend
  · intro h
    rw [h]

/-- The data of the records, as `f` shows them, with the lifetimes. -/
def hashed {D : Type} (f : RData → D) (records : List Record) : List (D × Nat) :=
  records.map fun r => (f r.data, r.ttl)

def hashedItems (records : List (Text × Nat)) : List HashItem :=
  .size records.length :: records.flatMap fun r => [.data r.1, .seconds r.2]

theorem hashedItems_delimited : SelfDelimiting hashedItems := by
  refine selfDelimiting_counted ?_ fun _ _ h => HashItem.size.inj h
  rintro ⟨d, n⟩ ⟨d', n'⟩ rest rest' he
  obtain ⟨hd, he⟩ := List.cons.inj he
  obtain ⟨hn, he⟩ := List.cons.inj he
  exact ⟨Prod.ext (HashItem.data.inj hd) (HashItem.seconds.inj hn), he⟩

def ownerFrame (row : Text × List (Text × Nat)) : List HashItem :=
  .text row.1 :: hashedItems row.2

theorem ownerFrame_delimited : SelfDelimiting ownerFrame := by
  rintro ⟨name, records⟩ ⟨name', records'⟩ rest rest' he
  obtain ⟨hname, he⟩ := List.cons.inj he
  obtain ⟨hrecords, hrest⟩ := hashedItems_delimited _ _ _ _ he
  exact ⟨Prod.ext (HashItem.text.inj hname) hrecords, hrest⟩

def zoneFrame (zone : (Text × Bool) × List (Text × List (Text × Nat))) : List HashItem :=
  .text zone.1.1 :: .flag zone.1.2 :: zone.2.flatMap ownerFrame

def Zone.hashed (debug : RData → Text) (z : Zone) :
    (Text × Bool) × List (Text × List (Text × Nat)) :=
  ((z.apex, z.authoritative), Map.sortedRows textLe (EgressDns.hashed debug) z.records)

theorem Zone.digestItems_eq (debug : RData → Text) (z : Zone) :
    z.digestItems debug = zoneFrame (z.hashed debug) := by
  have hkeys : z.records.keys.insertionSort textLe =
      (Map.sortedEntries textLe z.records).map Sigma.fst :=
    (List.map_insertionSort (fun a b : Sigma fun _ : Text => List Record => textLe a.1 b.1) textLe
      Sigma.fst _ fun _ _ _ _ => Iff.rfl).symm
  unfold digestItems zoneFrame hashed Map.sortedRows
  rw [hkeys, List.flatMap_map, List.flatMap_map]
  congr 2
  apply List.flatMap_congr
  intro e he
  have hlookup : z.records.lookup e.1 = some e.2 := by
    apply AList.mem_lookup_iff.mpr
    exact (List.mem_insertionSort _).mp he
  unfold ownerItems ownerFrame hashedItems EgressDns.hashed
  rw [hlookup, List.length_map, List.flatMap_map]

/-- A zone ends where the next one starts, with a name and a flag behind it. -/
def ZoneEnd (rest : List HashItem) : Prop :=
  rest = [] ∨ ∃ apex flag more, rest = .text apex :: .flag flag :: more

theorem zoneFrames_inj {zones zones' : List ((Text × Bool) × List (Text × List (Text × Nat)))}
    (h : zones.flatMap zoneFrame = zones'.flatMap zoneFrame) : zones = zones' := by
  refine (flatMap_append_inj (E := fun rest => rest = []) ?_ ?_ rfl rfl (by rw [h])).1
  · have hnext : ∀ rest, Follows zoneFrame (· = []) rest → ZoneEnd rest := by
      rintro rest (rfl | ⟨zone, more, rfl⟩)
      · exact .inl rfl
      · exact .inr ⟨_, _, _, rfl⟩
    have hstop : ∀ row more, ¬ZoneEnd (ownerFrame row ++ more) := by
      rintro row more (hnil | ⟨_, _, _, heq⟩)
      · cases hnil
      · cases (List.cons.inj (List.cons.inj heq).2).1
    rintro ⟨⟨apex, flag⟩, rows⟩ ⟨⟨apex', flag'⟩, rows'⟩ rest rest' hr hr' he
    obtain ⟨hapex, he⟩ := List.cons.inj he
    obtain ⟨hflag, he⟩ := List.cons.inj he
    obtain ⟨hrows, hrest⟩ := flatMap_append_inj
      (fun a a' rest rest' _ _ => ownerFrame_delimited a a' rest rest') hstop (hnext rest hr)
      (hnext rest' hr') he
    exact ⟨Prod.ext (Prod.ext (HashItem.text.inj hapex) (HashItem.flag.inj hflag)) hrows, hrest⟩
  · intro zone more hend
    cases hend

def Zone.SameRecords {D : Type} (f : RData → D) (z z' : Zone) : Prop :=
  z.apex = z'.apex ∧ z.authoritative = z'.authoritative ∧
    ∀ key, (z.records.lookup key).map (EgressDns.hashed f) =
      (z'.records.lookup key).map (EgressDns.hashed f)

section Shown

variable {debug : RData → Text}

theorem Zone.hashed_eq_iff {z z' : Zone} :
    z.hashed debug = z'.hashed debug ↔ z.SameRecords debug z' := by
  unfold hashed SameRecords
  rw [Prod.mk.injEq, Prod.mk.injEq, Map.sortedRows_eq_iff textLe_antisymm, and_assoc]

theorem LocalZoneSet.digestItems_eq_iff {set set' : LocalZoneSet} :
    set.digestItems debug = set'.digestItems debug ↔
      List.Forall₂ (Zone.SameRecords debug) set.zones set'.zones := by
  have hitems : ∀ set : LocalZoneSet,
      set.digestItems debug = (set.zones.map (Zone.hashed debug)).flatMap zoneFrame := by
    intro set
    rw [List.flatMap_map]
    exact List.flatMap_congr fun z _ => z.digestItems_eq debug
  have hsame : List.Forall₂ (Zone.SameRecords debug) set.zones set'.zones ↔
      set.zones.map (Zone.hashed debug) = set'.zones.map (Zone.hashed debug) := by
    rw [← List.forall₂_eq_eq_eq, List.forall₂_map_left_iff, List.forall₂_map_right_iff]
    simp only [Zone.hashed_eq_iff]
  rw [hitems, hitems, hsame]
  exact ⟨zoneFrames_inj, fun h => by rw [h]⟩

/-- Different data of records of the two zones are printed differently. -/
def Zone.ToldApart (debug : RData → Text) (z z' : Zone) : Prop :=
  ∀ key, ∀ records ∈ z.records.lookup key, ∀ records' ∈ z'.records.lookup key,
    ∀ r ∈ records, ∀ r' ∈ records', debug r.data = debug r'.data → r.data = r'.data

theorem Zone.sameRecords_debug_iff {z z' : Zone} (h : z.ToldApart debug z') :
    z.SameRecords debug z' ↔ z.SameRecords id z' := by
  refine and_congr_right' (and_congr_right' (forall_congr' fun key => ?_))
  cases hl : z.records.lookup key <;> cases hl' : z'.records.lookup key
  case some.some records records' =>
    rw [Option.map_some, Option.map_some, Option.map_some, Option.map_some, Option.some_inj,
      Option.some_inj, List.ext_getElem_iff, List.ext_getElem_iff]
    simp only [EgressDns.hashed, List.length_map, List.getElem_map, Prod.mk.injEq]
    refine and_congr_right' (forall₃_congr fun i hi hi' => and_congr_left' ?_)
    exact ⟨h key _ hl _ hl' _ (List.getElem_mem hi) _ (List.getElem_mem hi'), congrArg debug⟩
  all_goals simp

end Shown

instance pairLe_total : Std.Total pairLe where
  total a b := by
    by_cases heq : a.1 = b.1
    · rcases Nat.le_total a.2 b.2 with hle | hle
      · exact .inl ⟨heq ▸ (textLe_total.total a.1 a.1).elim id id, fun _ => hle⟩
      · exact .inr ⟨heq ▸ (textLe_total.total a.1 a.1).elim id id, fun _ => hle⟩
    · rcases textLe_total.total a.1 b.1 with hle | hle
      · exact .inl ⟨hle, fun h => absurd h heq⟩
      · exact .inr ⟨hle, fun h => absurd h.symm heq⟩

instance pairLe_trans : IsTrans (Text × Nat) pairLe where
  trans a b c := by
    rintro ⟨hab, hnab⟩ ⟨hbc, hnbc⟩
    refine ⟨textLe_trans.trans _ _ _ hab hbc, fun hac => ?_⟩
    have heq : a.1 = b.1 := textLe_antisymm _ _ hab (by rw [hac]; exact hbc)
    exact (hnab heq).trans (hnbc (heq.symm.trans hac))

theorem pairLe_antisymm (a b : Text × Nat) (hab : pairLe a b) (hba : pairLe b a) : a = b := by
  have heq := textLe_antisymm _ _ hab.1 hba.1
  exact Prod.ext heq (le_antisymm (hab.2 heq) (hba.2 heq.symm))

namespace DatasetSnapshot

/-- The same hosts, zones, rules and counts, and the same categories with as many domains each. -/
structure SameButDomains (a b : DatasetSnapshot) : Prop where
  hosts : ∀ key, a.hosts.map.lookup key = b.hosts.map.lookup key
  zones : List.Forall₂ (Zone.SameRecords id) a.zones.zones b.zones.zones
  suffixRules : a.suffixRules = b.suffixRules
  categories : ∀ c,
    (a.categories.lookup c).map List.length = (b.categories.lookup c).map List.length
  geoip : a.geoip = b.geoip
  asn : a.asn = b.asn
  hostEntries : a.stats.hostEntries = b.stats.hostEntries
  zoneRecords : a.stats.zoneRecords = b.stats.zoneRecords
  categoryEntries : a.stats.categoryEntries = b.stats.categoryEntries

/-- The three hashes tell the snapshots apart as far as what is hashed does, and what `Debug` prints
tells the data of their records apart. -/
structure NoCollision (debug : RData → Text) (hash : List HashItem → UInt64)
    (a b : DatasetSnapshot) : Prop where
  hosts : hash a.hosts.digestItems = hash b.hosts.digestItems →
    a.hosts.digestItems = b.hosts.digestItems
  zones : hash (a.zones.digestItems debug) = hash (b.zones.digestItems debug) →
    a.zones.digestItems debug = b.zones.digestItems debug
  content : a.contentDigest debug hash = b.contentDigest debug hash →
    a.contentItems debug hash = b.contentItems debug hash
  data : ∀ z ∈ a.zones.zones, ∀ z' ∈ b.zones.zones, z.ToldApart debug z'

variable {debug : RData → Text} {hash : List HashItem → UInt64} {a b : DatasetSnapshot}

theorem ruleItems_delimited : SelfDelimiting fun rules : List (Text × String) =>
    HashItem.size rules.length :: rules.flatMap fun rule => [.text rule.1, .string rule.2] := by
  refine selfDelimiting_counted ?_ fun _ _ h => HashItem.size.inj h
  rintro ⟨t, g⟩ ⟨t', g'⟩ rest rest' he
  obtain ⟨ht, he⟩ := List.cons.inj he
  obtain ⟨hg, he⟩ := List.cons.inj he
  exact ⟨Prod.ext (HashItem.text.inj ht) (HashItem.string.inj hg), he⟩

theorem sizeItems_delimited : SelfDelimiting fun categories : List (Text × Nat) =>
    HashItem.size categories.length :: categories.flatMap fun c => [.text c.1, .size c.2] := by
  refine selfDelimiting_counted ?_ fun _ _ h => HashItem.size.inj h
  rintro ⟨t, n⟩ ⟨t', n'⟩ rest rest' he
  obtain ⟨ht, he⟩ := List.cons.inj he
  obtain ⟨hn, he⟩ := List.cons.inj he
  exact ⟨Prod.ext (HashItem.text.inj ht) (HashItem.size.inj hn), he⟩

theorem sortedSizes_eq_iff : (Map.rows List.length a.categories).insertionSort pairLe =
      (Map.rows List.length b.categories).insertionSort pairLe ↔
    ∀ c, (a.categories.lookup c).map List.length = (b.categories.lookup c).map List.length := by
  rw [insertionSort_eq_iff_perm pairLe pairLe_antisymm, Map.perm_rows_iff]

theorem contentItems_eq_iff : a.contentItems debug hash = b.contentItems debug hash ↔
    hash a.hosts.digestItems = hash b.hosts.digestItems ∧
    hash (a.zones.digestItems debug) = hash (b.zones.digestItems debug) ∧
    a.suffixRules = b.suffixRules ∧
    (∀ c, (a.categories.lookup c).map List.length = (b.categories.lookup c).map List.length) ∧
    a.geoip = b.geoip ∧ a.asn = b.asn ∧ a.stats.hostEntries = b.stats.hostEntries ∧
    a.stats.zoneRecords = b.stats.zoneRecords ∧
    a.stats.categoryEntries = b.stats.categoryEntries := by
  rw [← sortedSizes_eq_iff]
  unfold contentItems
  constructor
  · intro h
    rw [List.append_assoc, List.append_assoc, List.append_assoc, List.append_assoc] at h
    obtain ⟨hhosts, h⟩ := List.cons.inj h
    obtain ⟨hzones, h⟩ := List.cons.inj h
    obtain ⟨hrules, h⟩ := ruleItems_delimited _ _ _ _ h
    obtain ⟨hcategories, h⟩ := sizeItems_delimited _ _ _ _ h
    simp only [List.cons.injEq, HashItem.flag.injEq, HashItem.size.injEq] at h
    exact ⟨HashItem.word.inj hhosts, HashItem.word.inj hzones, hrules, hcategories, h.1, h.2.1,
      h.2.2.1, h.2.2.2.1, h.2.2.2.2.1⟩
  · rintro ⟨hhosts, hzones, hrules, hcategories, hgeoip, hasn, hh, hz, hc⟩
    unfold suffixItems categoryItems
    rw [hhosts, hzones, hrules, hcategories, hgeoip, hasn, hh, hz, hc]

theorem contentDigest_eq_iff (hno : NoCollision debug hash a b) :
    a.contentDigest debug hash = b.contentDigest debug hash ↔ SameButDomains a b := by
  have hzones_iff : a.zones.digestItems debug = b.zones.digestItems debug ↔
      List.Forall₂ (Zone.SameRecords id) a.zones.zones b.zones.zones := by
    rw [LocalZoneSet.digestItems_eq_iff, List.forall₂_iff_get, List.forall₂_iff_get]
    refine and_congr_right' (forall₃_congr fun i hi hi' => ?_)
    exact Zone.sameRecords_debug_iff (hno.data _ (List.get_mem ..) _ (List.get_mem ..))
  constructor
  · intro h
    obtain ⟨hhosts, hzones, hrules, hcategories, hgeoip, hasn, hh, hz, hc⟩ :=
      contentItems_eq_iff.mp (hno.content h)
    exact ⟨HostsTable.digestItems_eq_iff.mp (hno.hosts hhosts),
      hzones_iff.mp (hno.zones hzones), hrules, hcategories, hgeoip, hasn, hh, hz, hc⟩
  · intro h
    unfold contentDigest
    rw [contentItems_eq_iff.mpr]
    exact ⟨by rw [HostsTable.digestItems_eq_iff.mpr h.hosts], by rw [hzones_iff.mpr h.zones],
      h.suffixRules, h.categories, h.geoip, h.asn, h.hostEntries, h.zoneRecords,
      h.categoryEntries⟩

section Answers

variable {lib : TextLib}

def Named (lib : TextLib) (z : Zone) : Prop :=
  ∀ key records, z.records.lookup key = some records → ∀ r ∈ records,
    ∃ name, lib.nameFromStr key = .ok name ∧ r = Record.fromRdata name r.ttl r.data

theorem key_eq_owner (rec : LocalRecord) (zone : LocalZone) :
    rec.key zone.apex = rec.owner zone.apex := by
  have hlower : lower (rec.owner zone.apex) = rec.owner zone.apex := by
    have happend : ∀ x y : Text, lower (x ++ y) = lower x ++ lower y := fun _ _ => List.map_append
    have hapex : lower zone.apex = zone.apex := lower_lower _
    have hdot : lower [46] = [46] := rfl
    unfold LocalRecord.owner
    split_ifs
    · rw [happend, hapex, hdot]
    · exact lower_lower _
    · rw [happend, happend, happend, hapex, hdot, lower_lower]
  have hlast : (rec.owner zone.apex).getLast? = some 46 := by
    unfold LocalRecord.owner
    split_ifs with hname hdot
    · exact List.getLast?_concat ..
    · unfold endsWithDot at hdot
      rw [beq_iff_eq] at hdot
      unfold lower
      rw [List.getLast?_map, hdot]
      rfl
    · exact List.getLast?_concat ..
  unfold LocalRecord.key normalizeName
  rw [hlower, if_pos hlast]

theorem named_buildZone {ttl : Nat} {zone : LocalZone} {z : Zone}
    (h : buildZone lib ttl zone = .ok z) : Named lib z := by
  intro key records hlookup r hr
  rw [lookup_buildZone h] at hlookup
  split_ifs at hlookup
  cases hlookup
  obtain ⟨rec, -, hkey, hbuild⟩ := mem_ownedBy.mp hr
  rw [key_eq_owner] at hkey
  unfold LocalRecord.build at hbuild
  rw [hkey] at hbuild
  cases hname : lib.nameFromStr key with
  | error e =>
    rw [hname] at hbuild
    cases hbuild
  | ok name =>
    rw [hname] at hbuild
    obtain ⟨data, -, rfl⟩ := map_eq_ok_iff.mp hbuild
    exact ⟨name, rfl, rfl⟩

theorem named_of_loaded {s : DatasetSnapshot} (h : Loaded lib s) :
    ∀ z ∈ s.zones.zones, Named lib z := by
  rcases h with rfl | ⟨datasets, localCfg, disk, now, h⟩
  · intro z hz
    cases hz
  · unfold build at h
    cases hzones : LocalZoneSet.build lib localCfg.zones localCfg.localTtl with
    | error e =>
      rw [hzones] at h
      cases h
    | ok zones =>
      rw [hzones] at h
      cases h
      obtain ⟨out, hall, hsorted⟩ := build_eq_ok hzones
      intro z hz
      rw [hsorted, List.mem_insertionSort] at hz
      obtain ⟨zone, -, hzone⟩ := exists_of_mem_right hall hz
      exact named_buildZone hzone

theorem lookup_eq_of_sameRecords {z z' : Zone} (hz : Named lib z) (hz' : Named lib z')
    (h : z.SameRecords id z') (key : Text) : z.records.lookup key = z'.records.lookup key := by
  -- The name of the owner is all that is not hashed of a record, and it is read from the key.
  have hback : ∀ {z : Zone}, Named lib z → z.records.lookup key =
      ((z.records.lookup key).map (hashed id)).map fun rows => rows.filterMap fun row =>
        (lib.nameFromStr key).toOption.map (Record.fromRdata · row.2 row.1) := by
    intro z hz
    rw [Option.map_map]
    cases hl : z.records.lookup key with
    | none => rfl
    | some records =>
      refine congrArg some (Eq.trans ?_ List.filterMap_map.symm)
      refine List.filterMap_some.symm.trans (List.filterMap_congr fun r hr => ?_)
      obtain ⟨name, hname, hrecord⟩ := hz key records hl r hr
      simp [hname, Except.toOption, ← hrecord]
  rw [hback hz, hback hz', h.2.2 key]

theorem lookup_zones_eq {zones zones' : List Zone}
    (h : List.Forall₂ (Zone.SameRecords id) zones zones') (hz : ∀ z ∈ zones, Named lib z)
    (hz' : ∀ z ∈ zones', Named lib z) (name : Text) (qtype : RecordType) :
    (LocalZoneSet.mk zones).lookup name qtype = (LocalZoneSet.mk zones').lookup name qtype := by
  unfold LocalZoneSet.lookup
  dsimp only
  induction h with
  | nil => rfl
  | @cons z z' zones zones' hsame _ ih =>
    rw [List.find?_cons, List.find?_cons, ← hsame.1]
    cases isUnder (lower (trimEndDots name)) z.apex with
    | true =>
      have hlookup := lookup_eq_of_sameRecords (hz z List.mem_cons_self) (hz' z' List.mem_cons_self)
        hsame
      dsimp only
      unfold Zone.answer
      rw [hlookup, hsame.2.1]
    | false =>
      exact ih (fun z h => hz z (List.mem_cons_of_mem _ h))
        fun z h => hz' z (List.mem_cons_of_mem _ h)

theorem differs_of_same (ha : Loaded lib a) (hb : Loaded lib b) (h : SameButDomains a b)
    (hd : Differs a b) : ∃ name, a.categoriesOf name ≠ b.categoriesOf name := by
  rcases hd with ⟨name, hne⟩ | ⟨name, qtype, hne⟩ | ⟨name, hne⟩ | hne
  · exact absurd (h.hosts _) hne
  · exact absurd (lookup_zones_eq h.zones (named_of_loaded ha) (named_of_loaded hb) name qtype) hne
  · refine absurd ?_ hne
    unfold groupFor
    rw [h.suffixRules]
  · exact hne

end Answers

variable {lib : TextLib}

/-- A rebuilt snapshot that answers some query differently is published, just when it is not only
the domains of categories of unchanged size that make the difference. -/
theorem changes_published_iff (ha : Loaded lib a) (hb : Loaded lib b)
    (hno : NoCollision debug hash a b) (s : App) (hs : s.snapshot = a) (generation : Nat) :
    (Differs a b →
      s.publishIfChanged (contentDigest debug hash) generation b = s.publish generation b) ↔
    (∀ name, a.categoriesOf name = b.categoriesOf name) ∨ ¬SameButDomains a b := by
  have hpublished : s.publishIfChanged (contentDigest debug hash) generation b =
      s.publish generation b ↔ ¬SameButDomains a b := by
    unfold App.publishIfChanged
    rw [hs, ← contentDigest_eq_iff hno]
    split
    · rename_i heq
      refine ⟨fun h => ?_, fun h => absurd heq h⟩
      have hlen := congrArg (fun t : App => t.published.length) h
      exact absurd hlen (Nat.succ_ne_self _).symm
    · rename_i hne
      exact ⟨fun _ => hne, fun _ => rfl⟩
  rw [hpublished]
  constructor
  · intro h
    by_cases hsame : SameButDomains a b
    · refine .inl fun name => ?_
      by_contra hne
      exact h (.inr (.inr (.inr ⟨name, hne⟩))) hsame
    · exact .inr hsame
  · rintro (hcategories | hnot) hd
    · intro hsame
      obtain ⟨name, hne⟩ := differs_of_same ha hb hsame hd
      exact hne (hcategories name)
    · exact hnot

def categoryDisk (text : String) : Disk where
  text _ := some (ascii text)
  opens _ := false

def categoryFile : DatasetsConfig :=
  { DatasetsConfig.fileless with
    domainCategoryFiles := ["categories"], maxFileBytes := 100, maxRecords := 100 }

def onlyHosts (hosts : List HostEntry) : LocalConfig where
  hosts := hosts
  zones := []
  suffixRules := []
  localTtl := 60

def hostsConfig (hosts : List HostEntry) : AppConfig where
  fixed _ := 0
  probeEnabled := false
  prefetchEnabled := false
  cloudflareEnabled := false
  cloudflareMode := .off
  datasets := categoryFile
  localData := onlyHosts hosts

def tallyHash (items : List HashItem) : UInt64 :=
  items.foldl (fun h item => match item with
    | .text t => h * 31 + UInt64.ofNat t.length
    | .size n => h * 31 + UInt64.ofNat n
    | .word w => h * 31 + w
    | _ => h * 31 + 1) 7

/-- A host that is added to an empty configuration. -/
theorem changes_published_host :
    ∃ b, (hostsConfig [⟨ascii "gw.lan", [.v4 0x0a000001]⟩]).buildSnapshot TextLib.dotted
        (categoryDisk "") 1 = .ok b ∧
      (App.boot TextLib.dotted (hostsConfig []) (categoryDisk "") 0).publishIfChanged
          (contentDigest (fun _ => []) tallyHash) 1 b =
        (App.boot TextLib.dotted (hostsConfig []) (categoryDisk "") 0).publish 1 b := by
  have hloaded : ∀ hosts now, Loaded TextLib.dotted
      (App.boot TextLib.dotted (hostsConfig hosts) (categoryDisk "") now).snapshot :=
    fun hosts now => .inr ⟨categoryFile, onlyHosts hosts, categoryDisk "", now, rfl⟩
  refine ⟨_, rfl, (changes_published_iff (hloaded [] 0)
    (hloaded [⟨ascii "gw.lan", [.v4 0x0a000001]⟩] 1) ⟨by decide, by decide, by decide, nofun⟩ _ rfl
    1).mpr (.inr ?_) ?_⟩
  · intro hsame
    exact absurd hsame.hostEntries (by decide)
  · exact .inl ⟨ascii "gw.lan", by decide⟩

/-- `ads` has the domain `a.test` and then `b.test` in its place. -/
theorem changes_unnoticed :
    ∃ a b, build TextLib.dotted categoryFile (onlyHosts []) (categoryDisk "ads:a.test") 0 = .ok a ∧
      build TextLib.dotted categoryFile (onlyHosts []) (categoryDisk "ads:b.test") 1 = .ok b ∧
      a.categoriesOf (ascii "a.test.") = [ascii "ads"] ∧ b.categoriesOf (ascii "a.test.") = [] ∧
      ∀ debug hash (s : App), s.snapshot = a →
        s.publishIfChanged (contentDigest debug hash) 1 b = s := by
  refine ⟨_, _, rfl, rfl, by decide, by decide, fun debug hash s hs => ?_⟩
  unfold App.publishIfChanged
  rw [hs, if_pos]
  refine congrArg hash (contentItems_eq_iff.mpr ⟨rfl, rfl, rfl, ?_, rfl, rfl, rfl, rfl, by decide⟩)
  rw [← Map.perm_rows_iff]
  apply List.Perm.of_eq
  decide

end DatasetSnapshot

end EgressDns
