import EgressDns.Datasets.Zones
import EgressDns.Lib.Octets
import EgressDns.Lib.Outcome
import EgressDns.Policy.Cloudflare

/-!
# Prefix lists

`cloudflare/prefixes.rs`: the lists of the API and of the text endpoints, the check of each prefix,
and which addresses the snapshot made of them contains. How JSON, UTF-8 and a prefix in CIDR
notation are read is a parameter.
-/

namespace EgressDns

open Lib

/-- `Ipv4Net` and `Ipv6Net`: an address, not necessarily the first of its network. -/
structure Cidr (w : Nat) where
  addr : BitVec w
  prefixLen : Nat
  bound : prefixLen ≤ w
  deriving DecidableEq

namespace Cidr

variable {w : Nat} (net : Cidr w)

def netmask : BitVec w := leadingMask w net.prefixLen

def network : BitVec w := net.addr &&& net.netmask

def trunc : Cidr w := { net with addr := net.network }

def le (a b : Cidr w) : Prop := a.addr < b.addr ∨ a.addr = b.addr ∧ a.prefixLen ≤ b.prefixLen

instance decidableLe (a b : Cidr w) : Decidable (le a b) := inferInstanceAs (Decidable (_ ∨ _))

end Cidr

/-- An octet that does not start a character. -/
def isContinuation (b : UInt8) : Bool := 128 ≤ b && b < 192

def charCount (text : Text) : Nat := text.countP fun b => !isContinuation b

def takeChars : Nat → Text → Text
  | _, [] => []
  | n, b :: rest =>
    if isContinuation b then b :: takeChars n rest
    else match n with
      | 0 => []
      | n + 1 => b :: takeChars n rest

def Text.bounded (text : Text) (limit : Nat) : Text :=
  if charCount text ≤ limit then text else takeChars limit text ++ [0xe2, 0x80, 0xa6]

structure ApiResult where
  ipv4Cidrs : List Text
  ipv6Cidrs : List Text

structure ApiEnvelope where
  result : Option ApiResult
  success : Option Bool

structure PrefixLib where
  trim : Text → Text
  trimStart : Text → Text
  lines : Text → List Text
  validUtf8 : Text → Bool
  json : Text → Except Text ApiEnvelope
  parseV4 : Text → Option (Cidr 32)
  parseV6 : Text → Option (Cidr 128)
  showV4 : Cidr 32 → Text
  showV6 : Cidr 128 → Text

structure CidrFamily (w : Nat) where
  name : String
  shortest : Nat
  longest : Nat
  classify : BitVec w → Option SpecialUse

def ipv4Family : CidrFamily 32 where
  name := "IPv4"
  shortest := 8
  longest := 24
  classify := classifyV4

def ipv6Family : CidrFamily 128 where
  name := "IPv6"
  shortest := 16
  longest := 64
  classify := classifyV6

section Parsing

variable {w : Nat} (family : CidrFamily w) (lib : PrefixLib)

def checkCidr (parse : Text → Option (Cidr w)) (shown : Cidr w → Text) (item : Text) :
    Except Text (Cidr w) :=
  match parse (lib.trim item) with
  | none =>
    .error (ascii "invalid " ++ ascii family.name ++ ascii " CIDR " ++ quoted (Text.bounded item 48))
  | some net =>
    if net.prefixLen < family.shortest ∨ family.longest < net.prefixLen then
      .error (ascii family.name ++ ascii " prefix length " ++ decimal net.prefixLen ++
        ascii " outside the plausible range " ++ decimal family.shortest ++ ascii "..=" ++
        decimal family.longest)
    else if (family.classify net.network).isSome then
      .error (ascii family.name ++ ascii " prefix " ++ shown net ++
        ascii " is special-use and cannot belong to Cloudflare")
    else .ok net.trunc

def parseCidrListV4 (items : List Text) : Except Text (List (Cidr 32)) :=
  items.mapM (checkCidr ipv4Family lib lib.parseV4 lib.showV4)

def parseCidrListV6 (items : List Text) : Except Text (List (Cidr 128)) :=
  items.mapM (checkCidr ipv6Family lib lib.parseV6 lib.showV6)

/-- Sorted, so that equal prefixes are neighbours when they are removed. -/
def PrefixSnapshot.new (v4 : List (Cidr 32)) (v6 : List (Cidr 128)) : PrefixSnapshot where
  v4Masks := (v4.insertionSort Cidr.le).dedup.map fun n => (n.network, n.netmask)
  v6Masks := (v6.insertionSort Cidr.le).dedup.map fun n => (n.network, n.netmask)

def parseApiJson (body : Text) : Except Text PrefixSnapshot :=
  match lib.json body with
  | .error e => .error (Text.bounded e 160)
  | .ok envelope =>
    if envelope.success = some false then .error (ascii "API reported success=false")
    else
      match envelope.result with
      | none => .error (ascii "API response had no result object")
      | some result => do
        let v4 ← parseCidrListV4 lib result.ipv4Cidrs
        let v6 ← parseCidrListV6 lib result.ipv6Cidrs
        pure (.new v4 v6)

def collectLines : List Text → List Text → Except Text (List Text)
  | out, [] => .ok out
  | out, line :: rest =>
    let line := lib.trim line
    if line = [] ∨ line.head? = some 35 then collectLines out rest
    else if 4096 ≤ out.length then .error (ascii "prefix list had too many lines")
    else collectLines (out ++ [line]) rest

def parseTextList (body : Text) : Except Text (List Text) :=
  if !lib.validUtf8 body then .error (ascii "prefix list was not valid UTF-8")
  else if (lib.trimStart body).head? = some 60 then
    .error (ascii "prefix list returned HTML instead of CIDRs")
  else collectLines lib [] (lib.lines body)

def parseTextLists (body4 body6 : Text) : Except Text PrefixSnapshot := do
  let v4 ← parseCidrListV4 lib (← parseTextList lib body4)
  let v6 ← parseCidrListV6 lib (← parseTextList lib body6)
  pure (.new v4 v6)

inductive PrefixSource where
  | api (body : Text)
  | texts (body4 body6 : Text)

def PrefixSource.parse : PrefixSource → Except Text PrefixSnapshot
  | .api body => parseApiJson lib body
  | .texts body4 body6 => parseTextLists lib body4 body6

/-- The items of the two lists. -/
def PrefixSource.items : PrefixSource → List Text × List Text
  | .api body =>
    match lib.json body with
    | .ok ⟨some result, _⟩ => (result.ipv4Cidrs, result.ipv6Cidrs)
    | _ => ([], [])
  | .texts body4 body6 =>
    ((parseTextList lib body4).toOption.getD [], (parseTextList lib body6).toOption.getD [])

def PrefixSource.listedV4 (source : PrefixSource) : List (Cidr 32) :=
  (source.items lib).1.filterMap fun item => lib.parseV4 (lib.trim item)

def PrefixSource.listedV6 (source : PrefixSource) : List (Cidr 128) :=
  (source.items lib).2.filterMap fun item => lib.parseV6 (lib.trim item)

end Parsing

section Checked

variable {w : Nat} {family : CidrFamily w} {lib : PrefixLib}

structure Checked (family : CidrFamily w) (net : Cidr w) : Prop where
  truncated : net.network = net.addr
  short : family.shortest ≤ net.prefixLen
  long : net.prefixLen ≤ family.longest
  ordinary : family.classify net.addr = none

theorem network_trunc (net : Cidr w) : net.trunc.network = net.network := by
  unfold Cidr.trunc Cidr.network Cidr.netmask
  rw [BitVec.and_assoc, BitVec.and_self]

variable {parse : Text → Option (Cidr w)} {shown : Cidr w → Text}

theorem exists_of_checkCidr {item : Text} {net : Cidr w}
    (h : checkCidr family lib parse shown item = .ok net) :
    ∃ parsed, parse (lib.trim item) = some parsed ∧ net = parsed.trunc ∧ Checked family net := by
  unfold checkCidr at h
  cases hparse : parse (lib.trim item) with
  | none =>
    rw [hparse] at h
    cases h
  | some parsed =>
    rw [hparse] at h
    dsimp only at h
    split_ifs at h with hlen hspecial
    cases h
    rw [not_or, Nat.not_lt, Nat.not_lt] at hlen
    exact ⟨parsed, rfl, rfl, network_trunc parsed, hlen.1, hlen.2,
      Option.not_isSome_iff_eq_none.mp hspecial⟩

theorem listed_of_mapM {items : List Text} {nets : List (Cidr w)}
    (h : items.mapM (checkCidr family lib parse shown) = .ok nets) :
    nets = (items.filterMap fun item => parse (lib.trim item)).map Cidr.trunc ∧
      ∀ net ∈ nets, Checked family net := by
  have hall := mapM_eq_ok_iff.mp h
  clear h
  induction hall with
  | nil => exact ⟨rfl, List.forall_mem_nil _⟩
  | cons hitem _ ih =>
    obtain ⟨parsed, hparsed, rfl, hchecked⟩ := exists_of_checkCidr hitem
    refine ⟨?_, List.forall_mem_cons.mpr ⟨hchecked, ih.2⟩⟩
    simp only [List.filterMap_cons, hparsed, List.map_cons]
    rw [← ih.1]

theorem listed_of_parse {source : PrefixSource} {snapshot : PrefixSnapshot}
    (h : source.parse lib = .ok snapshot) :
    snapshot = .new ((source.listedV4 lib).map .trunc) ((source.listedV6 lib).map .trunc) ∧
      (∀ net ∈ (source.listedV4 lib).map .trunc, Checked ipv4Family net) ∧
      ∀ net ∈ (source.listedV6 lib).map .trunc, Checked ipv6Family net := by
  unfold PrefixSource.listedV4 PrefixSource.listedV6
  cases source with
  | api body =>
    change parseApiJson lib body = .ok snapshot at h
    unfold parseApiJson at h
    cases hjson : lib.json body with
    | error e =>
      rw [hjson] at h
      cases h
    | ok envelope =>
      rw [hjson] at h
      obtain ⟨result, success⟩ := envelope
      dsimp only at h
      split_ifs at h with hsuccess
      cases result with
      | none => cases h
      | some result =>
        obtain ⟨v4, hv4, h⟩ := bind_eq_ok_iff.mp h
        obtain ⟨v6, hv6, h⟩ := bind_eq_ok_iff.mp h
        cases h
        obtain ⟨rfl, hchecked4⟩ := listed_of_mapM hv4
        obtain ⟨rfl, hchecked6⟩ := listed_of_mapM hv6
        simp only [PrefixSource.items, hjson]
        exact ⟨trivial, hchecked4, hchecked6⟩
  | texts body4 body6 =>
    obtain ⟨lines4, hlines4, h⟩ := bind_eq_ok_iff.mp h
    obtain ⟨v4, hv4, h⟩ := bind_eq_ok_iff.mp h
    obtain ⟨lines6, hlines6, h⟩ := bind_eq_ok_iff.mp h
    obtain ⟨v6, hv6, h⟩ := bind_eq_ok_iff.mp h
    cases h
    obtain ⟨rfl, hchecked4⟩ := listed_of_mapM hv4
    obtain ⟨rfl, hchecked6⟩ := listed_of_mapM hv6
    simp only [PrefixSource.items, hlines4, hlines6]
    exact ⟨rfl, hchecked4, hchecked6⟩

end Checked

section Contents

variable {w : Nat}

theorem agree_trunc (net : Cidr w) : Agree net.prefixLen net.trunc.addr net.addr :=
  and_leadingMask_eq_iff.mp (network_trunc net)

theorem any_masks_iff (nets : List (Cidr w)) (addr : BitVec w) :
    ((((nets.map .trunc).insertionSort Cidr.le).dedup.map fun n => (n.network, n.netmask)).any
      fun p => addr &&& p.2 == p.1) = true ↔
    ∃ net ∈ nets, Agree net.prefixLen addr net.addr := by
  rw [List.any_map, List.any_eq_true]
  constructor
  · rintro ⟨net, hnet, heq⟩
    rw [List.mem_dedup, List.mem_insertionSort] at hnet
    obtain ⟨net, hmem, rfl⟩ := List.mem_map.mp hnet
    exact ⟨net, hmem, (and_leadingMask_eq_iff.mp (beq_iff_eq.mp heq)).trans (agree_trunc net)⟩
  · rintro ⟨net, hnet, hagree⟩
    refine ⟨net.trunc, ?_,
      beq_iff_eq.mpr (and_leadingMask_eq_iff.mpr (hagree.trans (agree_trunc net).symm))⟩
    rw [List.mem_dedup, List.mem_insertionSort]
    exact List.mem_map_of_mem hnet

variable {v6 : List (Cidr 128)} {v4 : List (Cidr 32)}

theorem contains_new_v4 {addr : BitVec 32} :
    (PrefixSnapshot.new (v4.map .trunc) v6).contains (.v4 addr) = true ↔
      ∃ net ∈ v4, Agree net.prefixLen addr net.addr :=
  any_masks_iff v4 addr

theorem contains_new_v6 {v4 : List (Cidr 32)} {addr : BitVec 128} :
    (PrefixSnapshot.new v4 (v6.map .trunc)).contains (.v6 addr) = true ↔
      toIpv4Mapped addr = none ∧ ∃ net ∈ v6, Agree net.prefixLen addr net.addr := by
  rw [← any_masks_iff v6 addr, ← Option.not_isSome_iff_eq_none]
  unfold PrefixSnapshot.contains
  dsimp only
  split_ifs with hmapped
  · simp [hmapped]
  · simp only [hmapped, not_false_eq_true, true_and, Bool.false_eq_true]
    rfl

end Contents

section SpecialUse

variable {w : Nat}

theorem lookupNet_isSome_iff {table : List (IpNet w × SpecialUse)} {addr : BitVec w} :
    (lookupNet table addr).isSome = true ↔
      ∃ s ∈ table.map Prod.fst, Agree s.length addr s.network := by
  unfold lookupNet
  rw [Option.isSome_map, List.find?_isSome]
  constructor
  · rintro ⟨p, hp, hin⟩
    exact ⟨p.1, List.mem_map_of_mem hp, beq_iff_eq.mp hin⟩
  · rintro ⟨s, hs, hagree⟩
    obtain ⟨p, hp, rfl⟩ := List.mem_map.mp hs
    exact ⟨p, hp, beq_iff_eq.mpr hagree⟩

theorem agree_all_iff {a b : BitVec w} : Agree w a b ↔ a = b := by
  unfold Agree
  rw [Nat.sub_self]
  rfl

/-- The networks of special-use addresses; a single address is one of full length. -/
def specialV4 : List (IpNet 32) :=
  v4Table.map Prod.fst ++ (0xffffffff :: metadataV4).map fun a => ⟨a, 32⟩

def specialV6 : List (IpNet 128) :=
  v6Table.map Prod.fst ++ [⟨0xfd000ec2000000000000000000000254, 128⟩]

theorem classifyV4_isSome_iff {addr : BitVec 32} :
    (classifyV4 addr).isSome = true ↔
      ∃ s ∈ specialV4, Agree s.length addr s.network := by
  have hsingle : (∃ s ∈ (0xffffffff :: metadataV4).map fun a => (⟨a, 32⟩ : IpNet 32),
      Agree s.length addr s.network) ↔ addr = 0xffffffff ∨ addr ∈ metadataV4 := by
    rw [← List.mem_cons]
    constructor
    · rintro ⟨s, hs, hagree⟩
      obtain ⟨a, ha, rfl⟩ := List.mem_map.mp hs
      rw [agree_all_iff.mp hagree]
      exact ha
    · intro hmem
      exact ⟨⟨addr, 32⟩, List.mem_map_of_mem hmem, Agree.refl 32 addr⟩
  unfold specialV4
  simp only [List.mem_append, or_and_right, exists_or]
  rw [hsingle, ← lookupNet_isSome_iff]
  unfold classifyV4
  split_ifs with hmeta hbroadcast
  · exact iff_of_true rfl (.inr (.inr hmeta))
  · exact iff_of_true rfl (.inr (.inl hbroadcast))
  · rw [or_iff_left (not_or.mpr ⟨hbroadcast, hmeta⟩)]

variable {addr : BitVec 128}

theorem classifyV6_isSome_iff (h : toIpv4Mapped addr = none) :
    (classifyV6 addr).isSome = true ↔
      ∃ s ∈ specialV6, Agree s.length addr s.network := by
  have hsingle : (∃ s ∈ [(⟨0xfd000ec2000000000000000000000254, 128⟩ : IpNet 128)],
      Agree s.length addr s.network) ↔ addr = 0xfd000ec2000000000000000000000254 := by
    simp only [List.mem_singleton, exists_eq_left]
    exact agree_all_iff
  unfold specialV6
  simp only [List.mem_append, or_and_right, exists_or]
  rw [hsingle, ← lookupNet_isSome_iff]
  unfold classifyV6
  rw [h]
  split_ifs with hmeta
  · exact iff_of_true rfl (.inr hmeta)
  · rw [or_iff_left hmeta]

theorem not_mapped_of_classifyV6 (h : classifyV6 addr = none) : toIpv4Mapped addr = none := by
  unfold classifyV6 at h
  split_ifs at h with hmeta
  cases hmapped : toIpv4Mapped addr with
  | none => rfl
  | some mapped =>
    rw [hmapped] at h
    cases h

/-- Where a prefix meets a network that its first address is not in, the network starts in the
prefix. -/
theorem first_of_meet {net : Cidr w} {s : IpNet w} {addr : BitVec w}
    (hfirst : ¬Agree s.length net.addr s.network)
    (hnet : Agree net.prefixLen addr net.addr) (hs : Agree s.length addr s.network) :
    Agree net.prefixLen s.network net.addr := by
  rcases Nat.le_total s.length net.prefixLen with hle | hle
  · exact absurd ((hnet.mono hle).symm.trans hs) hfirst
  · exact (hs.mono hle).symm.trans hnet

theorem not_mapped_of_agree {s : IpNet 128} (hs : s ∈ specialV6) (haddr : toIpv4Mapped addr = none)
    (hin : Agree s.length addr s.network) : toIpv4Mapped s.network = none := by
  have hall : ∀ s ∈ specialV6, toIpv4Mapped s.network = none ∨
      s = ⟨0x00000000000000000000ffff00000000, 96⟩ := by
    decide
  rcases hall s hs with hnone | rfl
  · exact hnone
  · have hmapped : addr >>> 32 = 0xffff := Eq.trans hin (by decide)
    rw [toIpv4Mapped, if_pos hmapped] at haddr
    cases haddr

/-- The first address of the network is in the prefix. -/
def Cidr.ReachesInto (net : Cidr w) (s : IpNet w) : Prop := Agree net.prefixLen s.network net.addr

instance (net : Cidr w) (s : IpNet w) : Decidable (net.ReachesInto s) :=
  inferInstanceAs (Decidable (_ = _))

theorem reaches_of_special_v4 {net : Cidr 32} (hnet : classifyV4 net.trunc.addr = none)
    {addr : BitVec 32} (hagree : Agree net.prefixLen addr net.addr)
    (hspecial : (classifyV4 addr).isSome = true) : ∃ s ∈ specialV4, net.ReachesInto s := by
  obtain ⟨s, hs, hin⟩ := classifyV4_isSome_iff.mp hspecial
  have hfirst : ¬Agree s.length net.trunc.addr s.network := by
    intro hfirst
    have hsome := classifyV4_isSome_iff.mpr ⟨s, hs, hfirst⟩
    rw [hnet] at hsome
    cases hsome
  have hmeet := first_of_meet hfirst (hagree.trans (agree_trunc net).symm) hin
  exact ⟨s, hs, hmeet.trans (agree_trunc net)⟩

theorem reaches_of_special_v6 {net : Cidr 128} (hnet : classifyV6 net.trunc.addr = none)
    (hmapped : toIpv4Mapped addr = none) (hagree : Agree net.prefixLen addr net.addr)
    (hspecial : (classifyV6 addr).isSome = true) :
    ∃ s ∈ specialV6, toIpv4Mapped s.network = none ∧ net.ReachesInto s := by
  obtain ⟨s, hs, hin⟩ := (classifyV6_isSome_iff hmapped).mp hspecial
  have hfirst : ¬Agree s.length net.trunc.addr s.network := by
    intro hfirst
    have hsome := (classifyV6_isSome_iff (not_mapped_of_classifyV6 hnet)).mpr ⟨s, hs, hfirst⟩
    rw [hnet] at hsome
    cases hsome
  have hmeet := first_of_meet hfirst (hagree.trans (agree_trunc net).symm) hin
  exact ⟨s, hs, not_mapped_of_agree hs hmapped hin, hmeet.trans (agree_trunc net)⟩

/-- The snapshot has no special-use address just when no network that is listed has the first
address of a special-use network in it; IPv4-mapped addresses are in no snapshot. -/
theorem prefixes_ordinary_iff {lib : PrefixLib} {source : PrefixSource} {snapshot : PrefixSnapshot}
    (h : source.parse lib = .ok snapshot) :
    (∀ addr, snapshot.contains addr = true → classifyAddr addr = none) ↔
      (∀ net ∈ source.listedV4 lib, ∀ s ∈ specialV4, ¬net.ReachesInto s) ∧
        ∀ net ∈ source.listedV6 lib, ∀ s ∈ specialV6, toIpv4Mapped s.network = none →
          ¬net.ReachesInto s := by
  obtain ⟨rfl, hv4, hv6⟩ := listed_of_parse h
  constructor
  · intro hordinary
    constructor
    · intro net hnet s hs hin
      have hspecial : ∀ s ∈ specialV4, (classifyAddr (.v4 s.network)).isSome = true := by decide
      have hsome := hspecial s hs
      rw [hordinary (.v4 s.network) (contains_new_v4.mpr ⟨net, hnet, hin⟩)] at hsome
      cases hsome
    · intro net hnet s hs hmapped hin
      have hspecial : ∀ s ∈ specialV6, (classifyAddr (.v6 s.network)).isSome = true := by decide
      have hsome := hspecial s hs
      rw [hordinary (.v6 s.network) (contains_new_v6.mpr ⟨hmapped, net, hnet, hin⟩)] at hsome
      cases hsome
  · rintro ⟨h4, h6⟩ addr hcontains
    rw [← Option.not_isSome_iff_eq_none]
    intro hspecial
    cases addr with
    | v4 addr =>
      obtain ⟨net, hnet, hagree⟩ := contains_new_v4.mp hcontains
      have hchecked := (hv4 _ (List.mem_map_of_mem hnet)).ordinary
      obtain ⟨s, hs, hin⟩ := reaches_of_special_v4 hchecked hagree hspecial
      exact h4 net hnet s hs hin
    | v6 addr =>
      obtain ⟨hmapped, net, hnet, hagree⟩ := contains_new_v6.mp hcontains
      have hchecked := (hv6 _ (List.mem_map_of_mem hnet)).ordinary
      obtain ⟨s, hs, hs', hin⟩ := reaches_of_special_v6 hchecked hmapped hagree hspecial
      exact h6 net hnet s hs hs' hin

def PrefixLib.sample : PrefixLib where
  trim text := text
  trimStart text := text
  lines text := [text]
  validUtf8 _ := true
  json _ := .error (ascii "expected value at line 1 column 1")
  parseV4 text :=
    if text = ascii "100.0.0.0/8" then some ⟨0x64000000, 8, by decide⟩
    else if text = ascii "104.16.0.0/13" then some ⟨0x68100000, 13, by decide⟩
    else none
  parseV6 _ := none
  showV4 _ := []
  showV6 _ := []

theorem prefixes_ordinary_one :
    ∃ snapshot,
      (PrefixSource.texts (ascii "104.16.0.0/13") []).parse PrefixLib.sample = .ok snapshot ∧
      snapshot.contains (.v4 0x68100001) = true ∧
      ∀ addr, snapshot.contains addr = true → classifyAddr addr = none := by
  have hparse : (PrefixSource.texts (ascii "104.16.0.0/13") []).parse PrefixLib.sample =
      .ok (.new [⟨0x68100000, 13, by decide⟩] []) :=
    rfl
  exact ⟨_, hparse, by decide, (prefixes_ordinary_iff hparse).mpr (by decide)⟩

/-- `100.0.0.0/8` has the shared address space in it. -/
theorem prefixes_not_ordinary :
    ∃ snapshot,
      (PrefixSource.texts (ascii "100.0.0.0/8") []).parse PrefixLib.sample = .ok snapshot ∧
      snapshot.contains (.v4 0x64400001) = true ∧
      classifyAddr (.v4 0x64400001) = some .sharedAddressSpace :=
  ⟨_, rfl, by decide, by decide⟩

end SpecialUse

end EgressDns
