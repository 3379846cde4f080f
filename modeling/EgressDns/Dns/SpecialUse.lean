import EgressDns.Datasets.Zones

/-!
# Special-use names

`dns/specialuse.rs`: names that are answered locally and never sent to an upstream.
-/

namespace EgressDns

namespace SpecialName

inductive Disposition where
  | forward | loopback | nxDomain | loopMarker
  deriving DecidableEq, Repr

inductive Registry where
  | localhost | invalid | test | multicastDns | homeArpa | onion | privateReverse
  deriving DecidableEq, Repr

def nxdomainSuffixes : List (Text × Registry) :=
  [(ascii "invalid.", .invalid), (ascii "local.", .multicastDns), (ascii "home.arpa.", .homeArpa),
   (ascii "onion.", .onion), (ascii "10.in-addr.arpa.", .privateReverse),
   (ascii "16.172.in-addr.arpa.", .privateReverse),
   (ascii "17.172.in-addr.arpa.", .privateReverse),
   (ascii "18.172.in-addr.arpa.", .privateReverse),
   (ascii "19.172.in-addr.arpa.", .privateReverse),
   (ascii "20.172.in-addr.arpa.", .privateReverse),
   (ascii "21.172.in-addr.arpa.", .privateReverse),
   (ascii "22.172.in-addr.arpa.", .privateReverse),
   (ascii "23.172.in-addr.arpa.", .privateReverse),
   (ascii "24.172.in-addr.arpa.", .privateReverse),
   (ascii "25.172.in-addr.arpa.", .privateReverse),
   (ascii "26.172.in-addr.arpa.", .privateReverse),
   (ascii "27.172.in-addr.arpa.", .privateReverse),
   (ascii "28.172.in-addr.arpa.", .privateReverse),
   (ascii "29.172.in-addr.arpa.", .privateReverse),
   (ascii "30.172.in-addr.arpa.", .privateReverse),
   (ascii "31.172.in-addr.arpa.", .privateReverse),
   (ascii "168.192.in-addr.arpa.", .privateReverse),
   (ascii "254.169.in-addr.arpa.", .privateReverse), (ascii "8.e.f.ip6.arpa.", .privateReverse),
   (ascii "9.e.f.ip6.arpa.", .privateReverse), (ascii "a.e.f.ip6.arpa.", .privateReverse),
   (ascii "b.e.f.ip6.arpa.", .privateReverse), (ascii "c.f.ip6.arpa.", .privateReverse),
   (ascii "d.f.ip6.arpa.", .privateReverse)]

def suffixMatches (name suffix : Text) : Bool :=
  name == suffix ||
    (suffix.length + 2 ≤ name.length && suffix.isSuffixOf name &&
      name[name.length - suffix.length - 1]? == some 46)

def loopMarkerSuffix : Text := ascii "loop-probe.egressdns.invalid"

def isLoopMarker (name : Text) : Bool :=
  loopMarkerSuffix.isSuffixOf (lower (trimEndDots name))

def classify (qname : Text) : Option (Registry × Disposition) :=
  let name := normalizeName qname
  if suffixMatches name (ascii "localhost.") then some (.localhost, .loopback)
  else if isLoopMarker name then some (.invalid, .loopMarker)
  else
    (nxdomainSuffixes.find? fun e => suffixMatches name e.1).map fun e => (e.2, .nxDomain)

def loopMarkerRdata : RecordType → Option RData
  | .a => some (.a 0xc0000235)
  | _ => none

def loopbackRdata : RecordType → Option RData
  | .a => some (.a 0x7f000001)
  | .aaaa => some (.aaaa 1)
  | _ => none

end SpecialName

end EgressDns
