import EgressDns.Datasets.Zones

/-!
# Dataset snapshots

`datasets/hosts.rs` and `datasets/mod.rs`: what a snapshot holds, how it is built from a
configuration and the files it names, and how it is published.
-/

namespace EgressDns

structure HostsTable where
  map : AList (fun _ : Text => List IpAddr)

namespace HostsTable

def empty : HostsTable := ⟨∅⟩

variable (t : HostsTable) (name : Text)

def insert (addresses : List IpAddr) : HostsTable :=
  let key := normalizeName name
  let entry := addresses.foldl (fun entry a => if a ∈ entry then entry else entry ++ [a])
    ((t.map.lookup key).getD [])
  ⟨t.map.insert key entry⟩

def get : Option (List IpAddr) := t.map.lookup (normalizeName name)

def isIpv4 : IpAddr → Bool
  | .v4 _ => true
  | .v6 _ => false

def getFamily (ipv4 : Bool) : List IpAddr :=
  ((t.get name).getD []).filter fun a => isIpv4 a = ipv4

def len : Nat := t.map.entries.length

end HostsTable

variable (lib : TextLib)

def TextLib.parseAddr (text : Text) : Option IpAddr :=
  match lib.parseV4 text with
  | some a => some (.v4 a)
  | none => (lib.parseV6 text).map .v6

def addHosts (maxRecords : Nat) (addr : IpAddr) :
    HostsTable × Nat × Bool → List Text → HostsTable × Nat × Bool
  | acc, [] => acc
  | (t, dropped, any), name :: rest =>
    if maxRecords ≤ t.len then (t, dropped + 1, any)
    else if 253 < name.length then addHosts maxRecords addr (t, dropped + 1, any) rest
    else addHosts maxRecords addr (t.insert name [addr], dropped, true) rest

def loadHostsLine (maxRecords : Nat) (acc : HostsTable × Nat) (line : Text) : HostsTable × Nat :=
  let line := lib.trim (match splitOnce 35 line with
    | some (before, _) => before
    | none => line)
  match lib.splitWhitespace line with
  | [] => acc
  | addrText :: names =>
    match lib.parseAddr addrText with
    | none => (acc.1, acc.2 + 1)
    | some addr =>
      let (t, dropped, any) := addHosts maxRecords addr (acc.1, acc.2, false) names
      (t, if any then dropped else dropped + 1)

def HostsTable.loadHostsFormat (t : HostsTable) (text : Text) (maxRecords : Nat) :
    HostsTable × Nat :=
  (lib.lines text).foldl (loadHostsLine lib maxRecords) (t, 0)

structure HostEntry where
  name : Text
  addresses : List IpAddr

structure SuffixRule where
  suffix : Text
  group : String

structure LocalConfig where
  hosts : List HostEntry
  zones : List LocalZone
  suffixRules : List SuffixRule
  localTtl : Nat

structure DatasetsConfig where
  hostsFiles : List String
  domainCategoryFiles : List String
  geoipMmdb : Option String
  asnMmdb : Option String
  maxFileBytes : Nat
  maxRecords : Nat
  -- In nanoseconds; zero turns the periodic rebuild off.
  reloadInterval : Nat

def DatasetsConfig.fileless : DatasetsConfig where
  hostsFiles := []
  domainCategoryFiles := []
  geoipMmdb := none
  asnMmdb := none
  maxFileBytes := 0
  maxRecords := 0
  reloadInterval := 0

structure DatasetStats where
  hostEntries : Nat
  zoneRecords : Nat
  suffixRules : Nat
  categoryEntries : Nat
  skippedFiles : Nat
  droppedRecords : Nat
  loadedUnix : Nat

structure DatasetSnapshot where
  hosts : HostsTable
  zones : LocalZoneSet
  suffixRules : List (Text × String)
  categories : AList (fun _ : Text => List Text)
  geoip : Bool
  asn : Bool
  stats : DatasetStats

def DatasetSnapshot.empty : DatasetSnapshot where
  hosts := .empty
  zones := ⟨[]⟩
  suffixRules := []
  categories := ∅
  geoip := false
  asn := false
  stats :=
    { hostEntries := 0, zoneRecords := 0, suffixRules := 0, categoryEntries := 0
      skippedFiles := 0, droppedRecords := 0, loadedUnix := 0 }

/-- What is on disk while a snapshot is built: the text of a file that can be read, and whether a
database opens. -/
structure Disk where
  text : String → Option Text
  opens : String → Bool

variable (disk : Disk)

def readBounded (path : String) (maxBytes : Nat) : Option Text :=
  (disk.text path).filter fun text => text.length ≤ maxBytes

def trimStartDots (text : Text) : Text := text.dropWhile (· = 46)

def SuffixRule.entry (rule : SuffixRule) : Text × String :=
  (lower (trimStartDots (trimEndDots rule.suffix)), rule.group)

/-- Longer suffixes come first, equally long ones in the order of their octets. -/
def suffixBefore (a b : Text × String) : Prop :=
  b.1.length < a.1.length ∨ a.1.length = b.1.length ∧ ¬b.1 < a.1

instance (a b : Text × String) : Decidable (suffixBefore a b) :=
  inferInstanceAs (Decidable (_ ∨ _))

structure CategoryLoad where
  categories : AList (fun _ : Text => List Text)
  entries : Nat
  dropped : Nat

def loadCategoryLine (maxRecords : Nat) (acc : CategoryLoad) (line : Text) : CategoryLoad :=
  if maxRecords ≤ acc.entries then { acc with dropped := acc.dropped + 1 }
  else
    let line := lib.trim line
    if line = [] ∨ line.head? = some 35 then acc
    else
      match splitOnce 58 line with
      | none => acc
      | some (category, domain) =>
        let category := lower (lib.trim category)
        let domain := lower (trimEndDots (lib.trim domain))
        if category = [] ∨ domain = [] ∨ 253 < domain.length then acc
        else
          { acc with
            categories :=
              acc.categories.insert category ((acc.categories.lookup category).getD [] ++ [domain])
            entries := acc.entries + 1 }

def overFiles {A : Type} (disk : Disk) (maxBytes : Nat) (f : A → Text → A) (start : A × Nat)
    (paths : List String) : A × Nat :=
  paths.foldl (fun (acc, skipped) path =>
    match readBounded disk path maxBytes with
    | some text => (f acc text, skipped)
    | none => (acc, skipped + 1)) start

def openMmdb (path : Option String) (skipped : Nat) : Bool × Nat :=
  match path with
  | none => (false, skipped)
  | some path => if disk.opens path then (true, skipped) else (false, skipped + 1)

/-- A file that cannot be read is skipped; only the zones of the configuration can make a build
fail. -/
def DatasetSnapshot.build (datasets : DatasetsConfig) (localCfg : LocalConfig) (disk : Disk)
    (nowUnix : Nat) : Except Text DatasetSnapshot := do
  let hosts := localCfg.hosts.foldl (fun t entry => t.insert entry.name entry.addresses) .empty
  let ((hosts, dropped), skipped) := overFiles disk datasets.maxFileBytes
    (fun (t, dropped) text =>
      let (t, more) := t.loadHostsFormat lib text datasets.maxRecords
      (t, dropped + more)) ((hosts, 0), 0) datasets.hostsFiles
  let zones ← LocalZoneSet.build lib localCfg.zones localCfg.localTtl
  let suffixRules := (localCfg.suffixRules.map SuffixRule.entry).insertionSort suffixBefore
  let (load, skipped) := overFiles disk datasets.maxFileBytes
    (fun acc text => (lib.lines text).foldl (loadCategoryLine lib datasets.maxRecords) acc)
    ({ categories := ∅, entries := 0, dropped }, skipped) datasets.domainCategoryFiles
  let (geoip, skipped) := openMmdb disk datasets.geoipMmdb skipped
  let (asn, skipped) := openMmdb disk datasets.asnMmdb skipped
  pure
    { hosts, zones, suffixRules, categories := load.categories, geoip, asn
      stats :=
        { hostEntries := hosts.len, zoneRecords := zones.recordCount
          suffixRules := suffixRules.length, categoryEntries := load.entries
          skippedFiles := skipped, droppedRecords := load.dropped, loadedUnix := nowUnix } }

def DatasetSnapshot.groupFor (snapshot : DatasetSnapshot) (name : Text) : Option String :=
  let n := lower (trimEndDots name)
  (snapshot.suffixRules.find? fun rule => isUnder n rule.1).map Prod.snd

theorem DatasetSnapshot.build_isOk_iff (datasets : DatasetsConfig) (localCfg : LocalConfig)
    (disk : Disk) (nowUnix : Nat) :
    (∃ snapshot, build lib datasets localCfg disk nowUnix = .ok snapshot) ↔
      ∃ zones, LocalZoneSet.build lib localCfg.zones localCfg.localTtl = .ok zones := by
  unfold build
  cases LocalZoneSet.build lib localCfg.zones localCfg.localTtl with
  | error e => exact ⟨nofun, nofun⟩
  | ok zones => exact ⟨fun _ => ⟨zones, rfl⟩, fun _ => ⟨_, rfl⟩⟩

end EgressDns
