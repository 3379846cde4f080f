import EgressDns.Datasets.Zones
import EgressDns.Lib.Octets

/-!
# The built-in resolver catalog

`config/builtins.rs`: the public resolvers that may be named by an alias, and the profiles of
`builtin:`. What an entry says only to a reader is left out.
-/

namespace EgressDns.Builtins

structure Provider where
  id : Text
  aliases : List Text
  addresses : List Text
  doh : Option Text
  dot : Option Text
  doq : Option Text

def entry (id : String) (aliases addresses : List String) (doh dot doq : Option String) :
    Provider where
  id := ascii id
  aliases := aliases.map ascii
  addresses := addresses.map ascii
  doh := doh.map ascii
  dot := dot.map ascii
  doq := doq.map ascii

def catalog : List Provider :=
  [ entry "cloudflare" ["cloudflare", "cloudflare-dns.com", "one.one.one.one"]
      ["1.1.1.1", "1.0.0.1", "2606:4700:4700::1111", "2606:4700:4700::1001"]
      (some "https://cloudflare-dns.com/dns-query") (some "cloudflare-dns.com") none,
    entry "google" ["google", "dns.google"]
      ["8.8.8.8", "8.8.4.4", "2001:4860:4860::8888", "2001:4860:4860::8844"]
      (some "https://dns.google/dns-query") (some "dns.google") none,
    entry "quad9" ["quad9", "dns.quad9.net"]
      ["9.9.9.9", "149.112.112.112", "2620:fe::fe", "2620:fe::9"]
      (some "https://dns.quad9.net/dns-query") (some "dns.quad9.net") none,
    entry "quad9-unfiltered" ["quad9-unfiltered", "dns10.quad9.net"]
      ["9.9.9.10", "149.112.112.10", "2620:fe::10", "2620:fe::fe:10"]
      (some "https://dns10.quad9.net/dns-query") (some "dns10.quad9.net") none,
    entry "dnssb" ["dnssb", "dns.sb", "doh.dns.sb"]
      ["185.222.222.222", "45.11.45.11", "2a09::", "2a11::"]
      (some "https://doh.dns.sb/dns-query") (some "dot.sb") none,
    entry "mullvad" ["mullvad", "dns.mullvad.net"]
      ["194.242.2.2", "2a07:e340::2"]
      (some "https://dns.mullvad.net/dns-query") (some "dns.mullvad.net") none,
    entry "dns0" ["dns0", "dns0.eu"]
      ["193.110.81.0", "185.253.5.0", "2a0f:fc80::", "2a0f:fc81::"]
      (some "https://dns0.eu/") (some "dns0.eu") none,
    entry "dns0-open" ["dns0-open", "open.dns0.eu"]
      ["193.110.81.9", "185.253.5.9", "2a0f:fc80::9", "2a0f:fc81::9"]
      (some "https://open.dns0.eu/") (some "open.dns0.eu") none,
    entry "adguard" ["adguard", "dns.adguard-dns.com"]
      ["94.140.14.14", "94.140.15.15", "2a10:50c0::ad1:ff", "2a10:50c0::ad2:ff"]
      (some "https://dns.adguard-dns.com/dns-query") (some "dns.adguard-dns.com")
        (some "dns.adguard-dns.com"),
    entry "adguard-unfiltered" ["adguard-unfiltered", "unfiltered.adguard-dns.com"]
      ["94.140.14.140", "94.140.14.141", "2a10:50c0::1:ff", "2a10:50c0::2:ff"]
      (some "https://unfiltered.adguard-dns.com/dns-query") (some "unfiltered.adguard-dns.com")
        (some "unfiltered.adguard-dns.com"),
    entry "opendns" ["opendns", "dns.opendns.com"]
      ["208.67.222.222", "208.67.220.220", "2620:119:35::35", "2620:119:53::53"]
      (some "https://doh.opendns.com/dns-query") none none,
    entry "alidns" ["alidns", "dns.alidns.com"]
      ["223.5.5.5", "223.6.6.6", "2400:3200::1", "2400:3200:baba::1"]
      (some "https://dns.alidns.com/dns-query") (some "dns.alidns.com") none,
    entry "dnspod" ["dnspod", "doh.pub"]
      ["119.29.29.29", "119.28.28.28"]
      (some "https://doh.pub/dns-query") (some "dot.pub") none ]

def profiles : List (String × List String) :=
  [ ("recommended", ["cloudflare", "google", "quad9-unfiltered", "dnssb", "mullvad"]),
    ("global", ["cloudflare", "google", "quad9-unfiltered", "dnssb", "mullvad", "dns0-open",
      "adguard-unfiltered"]),
    ("china", ["alidns", "dnspod", "cloudflare"]),
    ("privacy", ["mullvad", "dnssb", "quad9-unfiltered", "dns0-open"]),
    ("security-filtered", ["quad9", "dns0", "cloudflare"]),
    ("ad-blocking", ["adguard", "mullvad"]) ]

def trimStartMatches (pattern : Text) : Nat → Text → Text
  | 0, t => t
  | n + 1, t =>
    if pattern.isPrefixOf t then trimStartMatches pattern n (t.drop pattern.length) else t

def withoutScheme (uri : Text) : Text := trimStartMatches (ascii "https://") uri.length uri

def dohHost (uri : Text) : Text := (withoutScheme uri).takeWhile (· ≠ 47)

def Provider.endpointHosts (p : Provider) : List Text :=
  (p.doh.map dohHost).toList ++ p.dot.toList ++ p.doq.toList

def nameKey (name : Text) : Text := lower (trimEndDots name)

def provider (name : Text) : Option Provider :=
  let key := nameKey name
  catalog.find? fun p =>
    p.id == key || p.aliases.contains key || p.addresses.contains key ||
      p.endpointHosts.any fun h => lower h == lower key

def isBareAlias (name : Text) : Bool :=
  let key := nameKey name
  match provider key with
  | none => false
  | some p =>
    !(p.endpointHosts.any fun h => lower h == lower key) && (p.id == key || p.aliases.contains key)

inductive Transport where
  | doh | dot | doq
  deriving DecidableEq, Repr

def aliasEndpointHost (name : Text) (transport : Transport) : Option Text :=
  (provider name).bind fun p =>
    let doh := p.doh.map dohHost
    match transport with
    | .doh => (doh <|> p.dot) <|> p.doq
    | .dot => (p.dot <|> doh) <|> p.doq
    | .doq => (p.doq <|> p.dot) <|> doh

def profile (name : Text) : Option (List String) :=
  (profiles.find? fun p => ascii p.1 == lower (Lib.trim name)).map (·.2)

/-- A Do53 seed of each member, then its encrypted endpoint. -/
def expand (name : Text) : Option (List Text) :=
  (profile name).map fun members => members.flatMap fun id =>
    match provider (ascii id) with
    | none => []
    | some p =>
      p.addresses.head?.toList ++
        match p.doh, p.dot with
        | some doh, _ => [doh]
        | none, some dot => [ascii "tls://" ++ dot]
        | none, none => []

def profileNames : List Text := profiles.map fun p => ascii p.1

end EgressDns.Builtins
