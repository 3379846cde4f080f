import EgressDns.Dns.Message

/-!
# The parts of the DNS library the resolver relies on

`hickory-proto` is not part of the source. What the resolver calls there and cannot see into
is a parameter, together with the few facts the code relies on.
-/

namespace EgressDns

/-- The texts of names, data, questions and codes are those of `to_string`; the rest is
`is_dnssec`, `response_from_request` and `maybe_strip_dnssec_records(false)`. Presentation format
escapes control octets and is UTF-8, which has no octet 0xff. Stripping removes records and changes
nothing else. -/
structure Hickory where
  nameText : Name → List UInt8
  rdataText : RData → List UInt8
  queryText : Query → String
  rcodeText : ResponseCode → String
  isDnssec : RecordType → Bool
  responseFromRequest : Metadata → Metadata
  stripDnssec : Message → Message
  nameText_nul : ∀ n, (0 : UInt8) ∉ nameText n
  rdataText_utf8 : ∀ d, (0xff : UInt8) ∉ rdataText d
  stripDnssec_answers : ∀ msg, (stripDnssec msg).answers.Sublist msg.answers
  stripDnssec_authorities : ∀ msg, (stripDnssec msg).authorities.Sublist msg.authorities
  stripDnssec_additionals : ∀ msg, (stripDnssec msg).additionals.Sublist msg.additionals

namespace Hickory

variable (n : Nat)

def digit : UInt8 := UInt8.ofNat (48 + n % 10)

def decimal : List UInt8 :=
  if n < 10 then [digit n]
  else if n < 100 then [digit (n / 10), digit n]
  else [digit (n / 100), digit (n / 10), digit n]

def escapeOctet (b : UInt8) : List UInt8 :=
  if 33 ≤ b ∧ b ≤ 126 ∧ b ≠ 46 ∧ b ≠ 92 then [b]
  else [92, digit (b.toNat / 64), digit (b.toNat / 8 % 8), digit (b.toNat % 8)]

variable (octets : List UInt8)

def escape : List UInt8 := octets.flatMap escapeOctet

def presentName (n : Name) : List UInt8 :=
  if n.labels = [] then [46] else n.labels.flatMap (fun label => escape label ++ [46])

def presentAddr (addr : BitVec 32) : List UInt8 :=
  decimal (addr.toNat / 16777216) ++ [46] ++ decimal (addr.toNat / 65536 % 256) ++ [46] ++
    decimal (addr.toNat / 256 % 256) ++ [46] ++ decimal (addr.toNat % 256)

def presentData : RData → List UInt8
  | .a addr => presentAddr addr
  | .aaaa addr =>
    (List.range 16).flatMap (fun i => decimal (addr.toNat / 2 ^ (8 * i) % 256) ++ [58])
  | .cname target => presentName target
  | .soa minimum rest => escape rest ++ [32] ++ decimal (minimum % 1000)
  | .rrsig expiration rest => decimal (expiration % 1000) ++ [32] ++ escape rest
  | .svcb params rest => escape rest ++ params.flatMap (fun p => [32] ++ escape p.2)
  | .https params rest => escape rest ++ params.flatMap (fun p => [32] ++ escape p.2)
  | .other _ octets => escape octets

theorem nul_notMem_escapeOctet (b : UInt8) : (0 : UInt8) ∉ escapeOctet b := by
  have hdigit : ∀ n, (0 : UInt8) ≠ digit n := by
    intro n h
    have hnat := congrArg UInt8.toNat h
    rw [digit, UInt8.toNat_ofNat'] at hnat
    change 0 = (48 + n % 10) % 256 at hnat
    omega
  unfold escapeOctet
  split
  · rename_i h
    rintro hmem
    rw [← List.mem_singleton.mp hmem] at h
    exact absurd h.1 (by decide)
  · simp [hdigit]

theorem nul_notMem_presentName (n : Name) : (0 : UInt8) ∉ presentName n := by
  unfold presentName
  split
  · decide
  · simp [escape, nul_notMem_escapeOctet]

def dnssecTypes : RecordType → Bool
  | .rrsig | .nsec | .nsec3 | .ds | .dnskey => true
  | _ => false

def presentResponse (request : Metadata) : Metadata :=
  { request with
    messageType := .response, authoritative := false, truncation := false
    recursionAvailable := false, authenticData := false, responseCode := .noError }

def presentStrip (msg : Message) : Message :=
  { msg with
    answers := msg.answers.filter (fun r => !dnssecTypes r.recordType)
    authorities := msg.authorities.filter (fun r => !dnssecTypes r.recordType)
    additionals := msg.additionals.filter (fun r => !dnssecTypes r.recordType) }

def sample : Hickory where
  nameText := presentName
  rdataText d := (presentData d).filter (· != 0xff)
  queryText _ := "question"
  rcodeText _ := "code"
  isDnssec := dnssecTypes
  responseFromRequest := presentResponse
  stripDnssec := presentStrip
  nameText_nul := nul_notMem_presentName
  rdataText_utf8 _ := by simp
  stripDnssec_answers _ := List.filter_sublist
  stripDnssec_authorities _ := List.filter_sublist
  stripDnssec_additionals _ := List.filter_sublist

end Hickory

def addressQuery : Message where
  metadata :=
    { id := 1, messageType := .query, opCode := .query, authoritative := false
      truncation := false, recursionDesired := true, recursionAvailable := false
      authenticData := false, checkingDisabled := false, responseCode := .noError }
  queries := [⟨⟨[[97]]⟩, .a, classIn⟩]
  answers := []
  authorities := []
  additionals := []
  edns := none

end EgressDns
