import EgressDns.Dns.Message

/-!
# Special-use addresses

`util/ipclass.rs`, after the IANA special-purpose registries. A network is its first address and
a prefix length.
-/

namespace EgressDns

def IpAddr.isIpv4 : IpAddr → Bool
  | .v4 _ => true
  | .v6 _ => false

inductive SpecialUse where
  | unspecified | loopback | privateUse | sharedAddressSpace | linkLocal | cloudMetadata
  | documentation | benchmarking | protocolAssignment | multicast | reserved | translation
  deriving DecidableEq, Repr

structure IpNet (w : Nat) where
  network : BitVec w
  length : Nat
  deriving DecidableEq, Repr

def IpNet.contains {w : Nat} (net : IpNet w) (addr : BitVec w) : Bool :=
  addr >>> (w - net.length) == net.network >>> (w - net.length)

theorem IpNet.contains_iff {w : Nat} {net : IpNet w} {addr : BitVec w} :
    net.contains addr = true ↔
      addr.toNat / 2 ^ (w - net.length) = net.network.toNat / 2 ^ (w - net.length) := by
  unfold IpNet.contains
  rw [beq_iff_eq, ← BitVec.toNat_inj, BitVec.toNat_ushiftRight, BitVec.toNat_ushiftRight,
    Nat.shiftRight_eq_div_pow, Nat.shiftRight_eq_div_pow]

def v4Table : List (IpNet 32 × SpecialUse) :=
  [(⟨0x00000000, 8⟩, .unspecified), (⟨0x0a000000, 8⟩, .privateUse),
   (⟨0x64400000, 10⟩, .sharedAddressSpace), (⟨0x7f000000, 8⟩, .loopback),
   (⟨0xa9fe0000, 16⟩, .linkLocal), (⟨0xac100000, 12⟩, .privateUse),
   (⟨0xc0000000, 24⟩, .protocolAssignment), (⟨0xc0000200, 24⟩, .documentation),
   (⟨0xc0586300, 24⟩, .translation), (⟨0xc0a80000, 16⟩, .privateUse),
   (⟨0xc6120000, 15⟩, .benchmarking), (⟨0xc6336400, 24⟩, .documentation),
   (⟨0xcb007100, 24⟩, .documentation), (⟨0xe0000000, 4⟩, .multicast),
   (⟨0xf0000000, 4⟩, .reserved)]

def v6Table : List (IpNet 128 × SpecialUse) :=
  [(⟨0, 128⟩, .unspecified), (⟨1, 128⟩, .loopback),
   (⟨0x00000000000000000000ffff00000000, 96⟩, .translation),
   (⟨0x0064ff9b000000000000000000000000, 96⟩, .translation),
   (⟨0x0064ff9b000100000000000000000000, 48⟩, .translation),
   (⟨0x01000000000000000000000000000000, 64⟩, .reserved),
   (⟨0x20010002000000000000000000000000, 48⟩, .benchmarking),
   (⟨0x20010db8000000000000000000000000, 32⟩, .documentation),
   (⟨0x20010000000000000000000000000000, 23⟩, .protocolAssignment),
   (⟨0x20020000000000000000000000000000, 16⟩, .translation),
   (⟨0xfc000000000000000000000000000000, 7⟩, .privateUse),
   (⟨0xfe800000000000000000000000000000, 10⟩, .linkLocal),
   (⟨0xff000000000000000000000000000000, 8⟩, .multicast)]

def metadataV4 : List (BitVec 32) := [0xa9fea9fe, 0xa9feaa02, 0x646464c8, 0xc00000c0]

def lookupNet {w : Nat} (table : List (IpNet w × SpecialUse)) (addr : BitVec w) :
    Option SpecialUse :=
  (table.find? fun p => p.1.contains addr).map Prod.snd

def classifyV4 (addr : BitVec 32) : Option SpecialUse :=
  if addr ∈ metadataV4 then some .cloudMetadata
  else if addr = 0xffffffff then some .reserved
  else lookupNet v4Table addr

def toIpv4Mapped (addr : BitVec 128) : Option (BitVec 32) :=
  if addr >>> 32 = 0xffff then some (addr.truncate 32) else none

def classifyV6 (addr : BitVec 128) : Option SpecialUse :=
  if addr = 0xfd000ec2000000000000000000000254 then some .cloudMetadata
  else
    match toIpv4Mapped addr with
    | some mapped => some ((classifyV4 mapped).getD .translation)
    | none => lookupNet v6Table addr

def classifyAddr : IpAddr → Option SpecialUse
  | .v4 addr => classifyV4 addr
  | .v6 addr => classifyV6 addr

end EgressDns
