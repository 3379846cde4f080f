import EgressDns.Config.Builtins
import EgressDns.Lib.Url

/-!
# Upstream entries

`config/endpoint.rs` and the expansion of `config/auto.rs`: what an entry of `upstreams` stands
for, and the tree of groups and servers that the list is turned into.
-/

namespace EgressDns

open Lib

open Lib (decimal)

def dotted (bits : BitVec 32) : Text :=
  decimal (bits.toNat / 2 ^ 24) ++ 46 :: (decimal (bits.toNat / 2 ^ 16 % 256) ++
    46 :: (decimal (bits.toNat / 2 ^ 8 % 256) ++ 46 :: decimal (bits.toNat % 256)))

def ipOctet (b : UInt8) : Bool := (hexDigit b).isSome || b == 46 || b == 58

/-- What reading a configuration takes from the `url` crate and from `std`. -/
structure ConfigLib where
  url : Url.Grammar
  utf8Lossy : Text → Text
  parseIp : Text → Option IpAddr
  parseSocket : Text → Option (IpAddr × Nat)
  v6Text : BitVec 128 → Text
  utf8_lossy : ∀ t, IsUtf8 (utf8Lossy t)
  lossy_utf8 : ∀ {t}, IsUtf8 t → utf8Lossy t = t
  parse_v4 : ∀ bits, parseIp (dotted bits) = some (.v4 bits)
  parse_v6 : ∀ bits, parseIp (v6Text bits) = some (.v6 bits)
  v6_octets : ∀ bits, v6Text bits ≠ [] ∧
    ∀ b ∈ v6Text bits, (Url.ipv6Octet b || b == 46) = true
  parse_octets : ∀ {t a}, parseIp t = some a → ∀ b ∈ t, ipOctet b = true

def ConfigLib.ipText (lib : ConfigLib) : IpAddr → Text
  | .v4 bits => dotted bits
  | .v6 bits => lib.v6Text bits

def ConfigLib.socketText (lib : ConfigLib) (addr : IpAddr) (port : Nat) : Text :=
  match addr with
  | .v4 bits => dotted bits ++ 58 :: decimal port
  | .v6 bits => 91 :: lib.v6Text bits ++ ascii "]:" ++ decimal port

def TransportKind.label : TransportKind → Text
  | .udp => ascii "udp"
  | .tcp => ascii "tcp"
  | .dot => ascii "dot"
  | .doh2 => ascii "doh2"
  | .doh3 => ascii "doh3"
  | .doq => ascii "doq"

def TransportKind.isEncrypted : TransportKind → Bool
  | .dot | .doh2 | .doh3 | .doq => true
  | .udp | .tcp => false

def TransportKind.defaultPort : TransportKind → Nat
  | .udp | .tcp => 53
  | .dot | .doq => 853
  | .doh2 | .doh3 => 443

inductive EndpointHost where
  | addr (a : IpAddr)
  | name (n : Text)

structure Endpoint where
  transport : TransportKind
  host : EndpointHost
  port : Nat
  path : Option Text
  hints : List IpAddr

structure ServerConfig where
  name : Text
  role : ResolverRole
  transport : TransportKind
  addresses : List IpAddr
  port : Option Nat
  serverName : Option Text
  path : Option Text
  weight : Nat
  enabled : Bool
  enableCookies : Option Bool
  trustAd : Bool

structure GroupConfig where
  name : Text
  servers : List ServerConfig

structure UpstreamConfig where
  defaultGroup : Text
  groups : List GroupConfig

inductive GatewayRejection where
  | noGateway | notAResolver | isOurself | forwardsToUs
  deriving DecidableEq, Repr

inductive GatewayProbe where
  | usable (addr : IpAddr) (udp tcp : Bool)
  | rejected (why : GatewayRejection)

def GatewayProbe.address : GatewayProbe → Option IpAddr
  | .usable addr _ _ => some addr
  | .rejected _ => none

inductive Region where
  | china | global
  deriving DecidableEq, Repr

def Region.entries : Region → List Text
  | .china =>
    [ ascii "223.5.5.5", ascii "223.6.6.6", ascii "119.29.29.29",
      ascii "https://dns.alidns.com/dns-query?addr=223.5.5.5&addr=223.6.6.6",
      ascii "https://doh.pub/dns-query?addr=1.12.12.21&addr=120.53.53.53",
      ascii "https://cloudflare-dns.com/dns-query?addr=1.1.1.1&addr=1.0.0.1" ]
  | .global =>
    [ ascii "1.1.1.1", ascii "8.8.8.8", ascii "9.9.9.10",
      ascii "https://cloudflare-dns.com/dns-query?addr=1.1.1.1&addr=1.0.0.1",
      ascii "https://dns.google/dns-query?addr=8.8.8.8&addr=8.8.4.4",
      ascii "https://dns10.quad9.net/dns-query?addr=9.9.9.10&addr=149.112.112.10" ]

def autoExpand (lib : ConfigLib) (gateway : GatewayProbe) (region : Region) : List Text :=
  (gateway.address.map lib.ipText).toList ++ region.entries

def hasInfix (pattern t : Text) : Bool := t.tails.any pattern.isPrefixOf

/-- `Url` keeps the brackets of an IPv6 literal. -/
def trimBrackets (host : Text) : Text := (host.dropWhile (· = 91)).rdropWhile (· = 93)

theorem trimBrackets_of_notMem {t : Text} (h : ∀ b ∈ t, b ≠ 91 ∧ b ≠ 93) : trimBrackets t = t := by
  have hstart : (t.dropWhile fun b => decide (b = 91)) = t := by
    cases t with
    | nil => rfl
    | cons b rest => simp [(h b List.mem_cons_self).1]
  rw [trimBrackets, hstart]
  apply List.rdropWhile_eq_self_iff.mpr
  intro hl
  simp [(h _ (List.getLast_mem hl)).2]

namespace Endpoint

open Builtins

variable (lib : ConfigLib)

/-- One DoH endpoint becomes an HTTP/3 candidate and an HTTP/2 candidate. -/
def dohCandidates (host : EndpointHost) (port : Nat) (path : Text) (hints : List IpAddr) :
    List Endpoint :=
  [{ transport := .doh3, host, port, path := some path, hints },
    { transport := .doh2, host, port, path := some path, hints }]

def bare (addr : IpAddr) (port : Nat) : Endpoint where
  transport := .udp
  host := .addr addr
  port := port
  path := none
  hints := []

variable (entry : Text)

def parseBare : Option Endpoint :=
  if hasInfix (ascii "://") entry then none
  else match lib.parseIp entry, lib.parseSocket entry with
    | some addr, _ => some (bare addr 53)
    | none, some (addr, port) => some (bare addr port)
    | none, none =>
      if entry.head? = some 91 ∧ entry.tail.getLast? = some 93 then
        (lib.parseIp entry.tail.dropLast).map fun addr => bare addr 53
      else none

/-- A bare alias is mapped to the hostname its certificate carries. -/
def aliasCandidates (p : Provider) : List Endpoint :=
  let host := (aliasEndpointHost entry .doh).getD p.id
  let path := ((p.doh.bind fun d => splitOnce 47 (withoutScheme d)).map fun r => 47 :: r.2).getD
    (ascii "/dns-query")
  dohCandidates (.name host) 443 path []

def plusToSpace (t : Text) : Text := t.map fun b => if b = 43 then 32 else b

def queryPairs (query : Option Text) : List (Text × Text) :=
  let decode := fun t => lib.utf8Lossy (percentDecode hexPair (plusToSpace t))
  (((query.getD []).splitOn 38).filter (· ≠ [])).map fun pair =>
    let (key, value) := (splitOnce 61 pair).getD (pair, [])
    (decode key, decode value)

def hintsOf (entry : Text) : List (Text × Text) → Except Text (List IpAddr)
  | [] => .ok []
  | (key, value) :: rest =>
    if key = ascii "addr" then
      match lib.parseIp value with
      | some addr => (hintsOf entry rest).map (addr :: ·)
      | none => .error (quoted entry ++ ascii " has an `addr` hint that is not an IP address: " ++
          quoted value)
    else .error (quoted entry ++ ascii " has the unsupported query parameter " ++ quoted key ++
      ascii "; only `addr` is understood")

def canonicalName (host : Text) : Text := lower (trimEndDots host)

def hostOf (scheme hostStr : Text) : EndpointHost :=
  let transport : Transport :=
    if scheme = ascii "tls" then .dot else if scheme = ascii "quic" then .doq else .doh
  match lib.parseIp hostStr with
  | some addr => .addr addr
  | none =>
    if isBareAlias hostStr then .name ((aliasEndpointHost hostStr transport).getD hostStr)
    else .name (canonicalName hostStr)

def plain (transport : TransportKind) (host : EndpointHost) (port : Nat) (hints : List IpAddr) :
    List Endpoint :=
  [{ transport, host, port, path := none, hints }]

def candidates (url : Url.Address) (host : EndpointHost) (hints : List IpAddr) :
    Except Text (List Endpoint) :=
  let scheme := url.scheme
  if scheme = ascii "https" then
    let path := if url.path = [] ∨ url.path = [47] then ascii "/dns-query" else url.path
    .ok (dohCandidates host (url.port.getD 443) path hints)
  else if scheme = ascii "tls" then .ok (plain .dot host (url.port.getD 853) hints)
  else if scheme = ascii "quic" then .ok (plain .doq host (url.port.getD 853) hints)
  else if scheme = ascii "udp" ∨ scheme = ascii "dns" then
    .ok (plain .udp host (url.port.getD 53) hints)
  else if scheme = ascii "tcp" then .ok (plain .tcp host (url.port.getD 53) hints)
  else if scheme = ascii "http" then
    .error (quoted entry ++ ascii " uses plaintext HTTP, which authenticates nothing; use " ++
      ascii "`https://` for DoH, or a bare address for Do53")
  else
    .error (quoted entry ++ ascii " uses the unsupported scheme " ++ quoted scheme ++
      ascii "; supported schemes are https, tls, quic, udp and tcp")

def parseUri : Except Text (List Endpoint) :=
  match Url.parse lib.url entry with
  | .error e => .error (quoted entry ++ ascii " is not a valid URI: " ++ e)
  | .ok url => do
    let hints ← hintsOf lib entry (queryPairs lib url.query)
    match url.host with
    | none => .error (quoted entry ++ ascii " has no host")
    | some host => candidates entry url (hostOf lib url.scheme (trimBrackets host.text)) hints

def parse : Except Text (List Endpoint) :=
  let entry := trim entry
  if entry = [] then .error (ascii "empty upstream entry")
  else match parseBare lib entry with
    | some endpoint => .ok [endpoint]
    | none =>
      if hasInfix (ascii "://") entry then parseUri lib entry
      else match provider entry with
        | some p => .ok (aliasCandidates entry p)
        | none =>
          .error (quoted entry ++ ascii " is neither an IP address, a known provider alias, nor " ++
            ascii "a URI with a scheme; write an address like `1.1.1.1`, or a URI like " ++
            ascii "`https://dns.example.net/dns-query`, `tls://dns.example.net` or " ++
            ascii "`quic://dns.example.net`")

end Endpoint

section Desugar

variable (lib : ConfigLib) (index : Nat) (entry : Text)

def isAuto : Bool := trim entry == ascii "auto"

def joinComma : List Text → Text
  | [] => []
  | [t] => t
  | t :: rest => t ++ ascii ", " ++ joinComma rest

/-- Before the start-up probes `auto` stands for the list that works from anywhere. -/
def expandEntry : Except Text (List Text) :=
  if isAuto entry then .ok (autoExpand lib (.rejected .noGateway) .global)
  else if (ascii "builtin:").isPrefixOf (trim entry) then
    match Builtins.expand ((trim entry).drop 8) with
    | some uris => .ok uris
    | none => .error (quoted entry ++ ascii " names an unknown built-in profile; available " ++
        ascii "profiles are " ++ joinComma Builtins.profileNames)
  else .ok [entry]

def bootstrapAddresses (name : Text) : List IpAddr :=
  match Builtins.provider name with
  | some p => p.addresses.filterMap lib.parseIp
  | none => []

def serverName (transport : TransportKind) : Text :=
  117 :: (decimal index ++ 45 :: transport.label)

def serverOf (candidate : Endpoint) : Except Text ServerConfig :=
  let server (addresses : List IpAddr) (name : Option Text) : ServerConfig :=
    { name := serverName index candidate.transport
      role := .authority
      transport := candidate.transport
      addresses
      port := some candidate.port
      serverName := name
      path := candidate.path
      weight := 100
      enabled := true
      enableCookies := none
      trustAd := false }
  match candidate.host with
  | .addr addr =>
    if candidate.transport.isEncrypted then
      .error (quoted entry ++ ascii " uses an encrypted transport with a literal address, so " ++
        ascii "there is no identity to authenticate; write the resolver's name instead, for " ++
        ascii "example `tls://dns.quad9.net`")
    else .ok (server [addr] none)
  | .name name =>
    .ok (server (if candidate.hints = [] then bootstrapAddresses lib name else candidate.hints)
      (some name))

def serversOf : Except Text (List ServerConfig) := do
  let found ← Endpoint.parse lib entry
  found.mapM (serverOf lib index entry)

def serversFrom : Nat → List Text → Except Text (List ServerConfig)
  | _, [] => .ok []
  | index, entry :: rest => do
    let servers ← serversOf lib index entry
    let more ← serversFrom (index + 1) rest
    pure (servers ++ more)

def desugar (upstreams : List Text) : Except Text (List ServerConfig) := do
  let expanded ← upstreams.mapM (expandEntry lib)
  let out ← serversFrom lib 0 expanded.flatten
  if out = [] then
    .error (ascii "`upstreams` is empty; a forwarder with no upstream can answer nothing")
  else pure out

def buildUpstreams (upstreams : List Text) : Except Text UpstreamConfig :=
  (desugar lib upstreams).map fun servers =>
    { defaultGroup := ascii "default"
      groups := [{ name := ascii "default", servers }] }

end Desugar

def readV4 (t : Text) : Option IpAddr :=
  match t.splitOn 46 with
  | [a, b, c, d] =>
    if [a, b, c, d].all (fun part => part.all digit && part ≠ []) then
      some (.v4 (BitVec.ofNat 32 (readDecimal a * 2 ^ 24 + readDecimal b * 2 ^ 16 +
        readDecimal c * 2 ^ 8 + readDecimal d)))
    else none
  | _ => none

theorem dot_notMem_decimal (n : Nat) : 46 ∉ decimal n := by
  intro h
  exact absurd (digit_of_mem_decimal h) (by decide)

theorem readV4_dotted (bits : BitVec 32) : readV4 (dotted bits) = some (.v4 bits) := by
  have hsplit : (dotted bits).splitOn 46 = [decimal (bits.toNat / 2 ^ 24),
      decimal (bits.toNat / 2 ^ 16 % 256), decimal (bits.toNat / 2 ^ 8 % 256),
      decimal (bits.toNat % 256)] := by
    rw [dotted, List.splitOn_append_cons_self_of_not_mem (dot_notMem_decimal _),
      List.splitOn_append_cons_self_of_not_mem (dot_notMem_decimal _),
      List.splitOn_append_cons_self_of_not_mem (dot_notMem_decimal _),
      List.splitOn_eq_singleton (dot_notMem_decimal _)]
  have hpart : ∀ n, ((decimal n).all digit && decide (decimal n ≠ [])) = true := by
    intro n
    simp only [Bool.and_eq_true, List.all_eq_true, decide_eq_true_eq]
    exact ⟨fun b hb => digit_of_mem_decimal hb, decimal_ne_nil n⟩
  have hvalue : BitVec.ofNat 32 (bits.toNat / 2 ^ 24 * 2 ^ 24 +
      bits.toNat / 2 ^ 16 % 256 * 2 ^ 16 + bits.toNat / 2 ^ 8 % 256 * 2 ^ 8 +
      bits.toNat % 256) = bits := by
    have hsum : bits.toNat / 2 ^ 24 * 2 ^ 24 + bits.toNat / 2 ^ 16 % 256 * 2 ^ 16 +
        bits.toNat / 2 ^ 8 % 256 * 2 ^ 8 + bits.toNat % 256 = bits.toNat := by omega
    rw [hsum, BitVec.ofNat_toNat, BitVec.setWidth_eq]
  simp only [readV4, hsplit, List.all_cons, List.all_nil, hpart, Bool.and_true, if_true,
    readDecimal_decimal, hvalue]

theorem ipOctet_iff {b : UInt8} : ipOctet b = true ↔ digit b = true ∨
    (97 ≤ b ∧ b ≤ 102) ∨ (65 ≤ b ∧ b ≤ 70) ∨ b = 46 ∨ b = 58 := by
  have hhex : (hexDigit b).isSome = true ↔
      digit b = true ∨ (97 ≤ b ∧ b ≤ 102) ∨ (65 ≤ b ∧ b ≤ 70) := by
    unfold hexDigit
    split_ifs <;> simp_all
  simp [ipOctet, hhex, or_assoc]

theorem ipOctet_of_digit {b : UInt8} (h : digit b = true) : ipOctet b = true :=
  ipOctet_iff.mpr (.inl h)

theorem ipOctet_of_mem_dotted {bits : BitVec 32} {b : UInt8} (h : b ∈ dotted bits) :
    ipOctet b = true := by
  simp only [dotted, List.mem_append, List.mem_cons] at h
  rcases h with h | rfl | h | rfl | h | rfl | h
  any_goals exact ipOctet_of_digit (digit_of_mem_decimal h)
  all_goals decide

def ConfigLib.sample : ConfigLib where
  url := .sample
  utf8Lossy t :=
    if t.all (· < 128) || t.toByteArray.validateUTF8 then t else [0xef, 0xbf, 0xbd]
  parseIp t :=
    if t.all ipOctet then
      if t.head? = some 58 then some (.v6 (BitVec.ofNat 128 (readDecimal t.tail))) else readV4 t
    else none
  parseSocket _ := none
  v6Text bits := 58 :: decimal bits.toNat
  utf8_lossy := by
    intro t
    split_ifs with h
    · rcases Bool.or_eq_true_iff.mp h with hascii | hvalid
      · exact isUtf8_of_ascii (by simpa using hascii)
      · exact isUtf8_iff.mpr hvalid
    · exact ⟨[Char.ofNat 0xfffd], by decide⟩
  lossy_utf8 h := by
    rw [if_pos (Bool.or_eq_true_iff.mpr (.inr (isUtf8_iff.mp h)))]
  parse_v4 := by
    intro bits
    have hhead : (dotted bits).head? ≠ some 58 := by
      cases hd : decimal (bits.toNat / 2 ^ 24) with
      | nil => exact absurd hd (decimal_ne_nil _)
      | cons b rest =>
        have hb : digit b = true := digit_of_mem_decimal (hd ▸ List.mem_cons_self)
        simp only [dotted, hd, List.cons_append, List.head?_cons, ne_eq, Option.some.injEq]
        rintro rfl
        exact absurd hb (by decide)
    rw [if_pos (List.all_eq_true.mpr fun _ hb => ipOctet_of_mem_dotted hb), if_neg hhead,
      readV4_dotted]
  parse_v6 := by
    intro bits
    have hall : (58 :: decimal bits.toNat).all ipOctet = true := by
      rw [List.all_cons, Bool.and_eq_true, List.all_eq_true]
      exact ⟨by decide, fun b hb => ipOctet_of_digit (digit_of_mem_decimal hb)⟩
    rw [if_pos hall, if_pos List.head?_cons, List.tail_cons, readDecimal_decimal,
      BitVec.ofNat_toNat, BitVec.setWidth_eq]
  v6_octets := by
    intro bits
    refine ⟨by simp, ?_⟩
    intro b hb
    rcases List.mem_cons.mp hb with rfl | hb
    · decide
    · simp [Url.ipv6Octet, digit_of_mem_decimal hb]
  parse_octets := by
    intro t a h
    split at h
    · exact List.all_eq_true.mp ‹_›
    · cases h

end EgressDns
