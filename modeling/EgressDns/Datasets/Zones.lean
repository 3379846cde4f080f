import EgressDns.Cache.Store
import EgressDns.Dns.Fingerprint
import Mathlib.Data.List.AList

/-!
# Internal zones

`datasets/zones.rs`: zones served from the configuration. What the standard library and
`hickory-proto` make of a text is a parameter.
-/

namespace EgressDns

abbrev Text := List UInt8

/-- A text of the source, which is ASCII throughout. -/
def ascii (s : String) : Text := s.toList.map fun c => UInt8.ofNat c.toNat

def quoted (text : Text) : Text := [96] ++ text ++ [96]

/-- The functions of `str` and the parsers of addresses, numbers and names; an error of
`Name::from_str` is its text. -/
structure TextLib where
  trim : Text → Text
  lines : Text → List Text
  splitWhitespace : Text → List Text
  splitOnceWhitespace : Text → Option (Text × Text)
  parseV4 : Text → Option (BitVec 32)
  parseV6 : Text → Option (BitVec 128)
  parseU16 : Text → Option UInt16
  nameFromStr : Text → Except Text Name

def asciiUpper (b : UInt8) : UInt8 := if 97 ≤ b ∧ b ≤ 122 then b - 32 else b

def upper (text : Text) : Text := text.map asciiUpper

def endsWithDot (text : Text) : Bool := text.getLast? == some 46

def Name.encode (n : Name) : List UInt8 :=
  n.labels.flatMap (fun label => UInt8.ofNat label.length :: label) ++ [0]

structure LocalRecord where
  name : Text
  rtype : Text
  value : Text
  ttl : Option Nat

structure LocalZone where
  name : Text
  authoritative : Bool
  records : List LocalRecord

structure Zone where
  apex : Text
  authoritative : Bool
  records : AList (fun _ : Text => List Record)

inductive ZoneAnswer where
  | records (records : List Record)
  | noData
  | nxDomain
  | notInZone

def splitOnce (sep : UInt8) (text : Text) : Option (Text × Text) :=
  if sep ∈ text then some (text.takeWhile (· ≠ sep), (text.dropWhile (· ≠ sep)).tail) else none

section Build

variable (lib : TextLib)

def parseName (value : Text) : Except Text Name :=
  let text := if endsWithDot value then value else value ++ [46]
  match lib.nameFromStr text with
  | .ok name => .ok name
  | .error e => .error (ascii "invalid name " ++ quoted value ++ ascii ": " ++ e)

def orError {A : Type} (value : Option A) (text : Text) : Except Text A :=
  match value with
  | some a => .ok a
  | none => .error text

def localData (rtype value : Text) : Except Text RData :=
  let rtype := upper rtype
  if rtype = ascii "A" then
    (orError (lib.parseV4 value) (ascii "invalid IPv4 address " ++ quoted value)).map RData.a
  else if rtype = ascii "AAAA" then
    (orError (lib.parseV6 value) (ascii "invalid IPv6 address " ++ quoted value)).map RData.aaaa
  else if rtype = ascii "CNAME" then (parseName lib value).map RData.cname
  else if rtype = ascii "NS" then (parseName lib value).map fun n => .other .ns n.encode
  else if rtype = ascii "PTR" then (parseName lib value).map fun n => .other (.ofCode 12) n.encode
  else if rtype = ascii "TXT" then .ok (.other .txt (UInt8.ofNat value.length :: value))
  else if rtype = ascii "MX" then do
    let (pref, host) ← orError (lib.splitOnceWhitespace value)
      (ascii "MX value " ++ quoted value ++ ascii " must be `<preference> <host>`")
    let number ← orError (lib.parseU16 (lib.trim pref))
      (ascii "invalid MX preference " ++ quoted pref)
    let host ← parseName lib (lib.trim host)
    pure (.other .mx (be16 number ++ host.encode))
  else if rtype = ascii "SRV" then
    match lib.splitWhitespace value with
    | [priority, weight, port, target] => do
      let priority ← orError (lib.parseU16 priority) (ascii "invalid SRV priority")
      let weight ← orError (lib.parseU16 weight) (ascii "invalid SRV weight")
      let port ← orError (lib.parseU16 port) (ascii "invalid SRV port")
      let target ← parseName lib target
      pure (.other .srv (be16 priority ++ be16 weight ++ be16 port ++ target.encode))
    | _ =>
      .error (ascii "SRV value " ++ quoted value ++
        ascii " must be `<priority> <weight> <port> <target>`")
  else .error (ascii "unsupported local record type " ++ quoted rtype)

def buildRecord (name : Name) (ttl : Nat) (rtype value : Text) : Except Text Record :=
  (localData lib rtype (lib.trim value)).map fun data => Record.fromRdata name ttl data

def LocalRecord.owner (rec : LocalRecord) (apex : Text) : Text :=
  if rec.name = [64] ∨ rec.name = [] then apex ++ [46]
  else if endsWithDot rec.name then lower rec.name
  else lower rec.name ++ [46] ++ apex ++ [46]

def addRecord (records : AList (fun _ : Text => List Record)) (owner : Text) (record : Record) :
    AList (fun _ : Text => List Record) :=
  let key := normalizeName owner
  records.insert key ((records.lookup key).getD [] ++ [record])

def buildZone (defaultTtl : Nat) (zone : LocalZone) : Except Text Zone := do
  let apex := lower (trimEndDots zone.name)
  if apex = [] then throw (ascii "zone name must not be empty")
  let records ← zone.records.foldlM (fun records rec => do
    let owner := rec.owner apex
    let name ← match lib.nameFromStr owner with
      | .ok name => pure name
      | .error e => throw (ascii "invalid owner name " ++ quoted owner ++ ascii ": " ++ e)
    let record ← buildRecord lib name (rec.ttl.getD defaultTtl) rec.rtype rec.value
    pure (addRecord records owner record)) ∅
  pure { apex, authoritative := zone.authoritative, records }

structure LocalZoneSet where
  zones : List Zone

def LocalZoneSet.build (zones : List LocalZone) (defaultTtl : Nat) : Except Text LocalZoneSet := do
  let out ← zones.mapM (buildZone lib defaultTtl)
  pure { zones := out.insertionSort fun a b => b.apex.length ≤ a.apex.length }

end Build

def LocalZoneSet.recordCount (set : LocalZoneSet) : Nat :=
  (set.zones.map fun z => (z.records.entries.map fun e => e.2.length).sum).sum

/-- `name` is `suffix` itself or ends in it after a dot. -/
def isUnder (name suffix : Text) : Bool := name == suffix || ([46] ++ suffix).isSuffixOf name

def Zone.answer (zone : Zone) (name : Text) (qtype : RecordType) : ZoneAnswer :=
  match zone.records.lookup (normalizeName name) with
  | some records =>
    let matching := records.filter fun r => r.recordType = qtype ∨ r.recordType = .cname
    if matching = [] then .noData else .records matching
  | none => if zone.authoritative then .nxDomain else .notInZone

def LocalZoneSet.lookup (set : LocalZoneSet) (name : Text) (qtype : RecordType) : ZoneAnswer :=
  let n := lower (trimEndDots name)
  match set.zones.find? fun z => isUnder n z.apex with
  | some zone => zone.answer n qtype
  | none => .notInZone

end EgressDns
