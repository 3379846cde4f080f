import Mathlib.Algebra.Ring.Nat
import Mathlib.Data.List.Infix
import Mathlib.Data.List.Sort

/-!
# DNS messages

The message type of `hickory-proto`, restricted to the fields the resolver reads, and the
helpers of `dns/message.rs` on it. A record's type is derived from its data, and a record
carries the proof mark the validator left on it.
-/

namespace EgressDns

inductive IpAddr where
  | v4 (bits : BitVec 32)
  | v6 (bits : BitVec 128)
  deriving DecidableEq, Repr

def isKnownCode (code : UInt16) : Bool :=
  [1, 2, 5, 6, 13, 15, 16, 28, 33, 41, 43, 46, 47, 48, 50, 64, 65, 255].contains code

/-- Record types by name where the resolver or DNSSEC names them; every other code is `other`. -/
inductive RecordType where
  | a | ns | cname | soa | hinfo | mx | txt | aaaa | srv | opt | ds | rrsig | nsec | dnskey
  | nsec3 | svcb | https | any
  | other (code : UInt16) (fresh : isKnownCode code = false)
  deriving DecidableEq, Repr

def RecordType.code : RecordType → UInt16
  | a => 1 | ns => 2 | cname => 5 | soa => 6 | hinfo => 13 | mx => 15 | txt => 16 | aaaa => 28
  | srv => 33 | opt => 41 | ds => 43 | rrsig => 46 | nsec => 47 | dnskey => 48 | nsec3 => 50
  | svcb => 64 | https => 65 | any => 255
  | other code _ => code

def RecordType.ofCode (code : UInt16) : RecordType :=
  if fresh : isKnownCode code = false then .other code fresh else
  if code = 1 then .a else if code = 2 then .ns else if code = 5 then .cname else
  if code = 6 then .soa else if code = 13 then .hinfo else if code = 15 then .mx else
  if code = 16 then .txt else if code = 28 then .aaaa else if code = 33 then .srv else
  if code = 41 then .opt else if code = 43 then .ds else if code = 46 then .rrsig else
  if code = 47 then .nsec else if code = 48 then .dnskey else if code = 50 then .nsec3 else
  if code = 64 then .svcb else if code = 65 then .https else .any

theorem RecordType.ofCode_code (t : RecordType) : ofCode t.code = t := by
  cases t with
  | other code fresh => exact dif_pos fresh
  | _ => rfl

theorem RecordType.code_injective : Function.Injective RecordType.code :=
  Function.LeftInverse.injective ofCode_code

/-- The four proof marks, ordered as `hickory` orders them. -/
inductive Proof where
  | indeterminate | bogus | insecure | secure
  deriving DecidableEq, Repr

def Proof.rank : Proof → Nat
  | indeterminate => 0 | bogus => 1 | insecure => 2 | secure => 3

theorem Proof.rank_injective : Function.Injective Proof.rank := by
  intro a b h
  cases a <;> cases b <;> first | rfl | cases h

instance : LinearOrder Proof := LinearOrder.lift' Proof.rank Proof.rank_injective

structure Name where
  labels : List (List UInt8)
  deriving DecidableEq, Repr

def asciiLower (b : UInt8) : UInt8 := if 65 ≤ b ∧ b ≤ 90 then b + 32 else b

def lower (bytes : List UInt8) : List UInt8 := bytes.map asciiLower

def trimEndDots (text : List UInt8) : List UInt8 :=
  (text.reverse.dropWhile (· = 46)).reverse

def Name.same (a b : Name) : Bool := a.labels.map lower == b.labels.map lower

/-- Record data. The fields the resolver never reads are kept as encoded octets. -/
inductive RData where
  | a (addr : BitVec 32)
  | aaaa (addr : BitVec 128)
  | cname (target : Name)
  | soa (minimum : Nat) (rest : List UInt8)
  | rrsig (expiration : Nat) (rest : List UInt8)
  | svcb (params : List (UInt16 × List UInt8)) (rest : List UInt8)
  | https (params : List (UInt16 × List UInt8)) (rest : List UInt8)
  | other (rtype : RecordType) (octets : List UInt8)
  deriving DecidableEq, Repr

def RData.recordType : RData → RecordType
  | a _ => .a
  | aaaa _ => .aaaa
  | cname _ => .cname
  | soa _ _ => .soa
  | rrsig _ _ => .rrsig
  | svcb _ _ => .svcb
  | https _ _ => .https
  | other rtype _ => rtype

structure Record where
  name : Name
  ttl : Nat
  dnsClass : UInt16
  data : RData
  proof : Proof
  deriving DecidableEq, Repr

def Record.recordType (r : Record) : RecordType := r.data.recordType

def classIn : UInt16 := 1

def Record.fromRdata (name : Name) (ttl : Nat) (data : RData) : Record :=
  { name, ttl, dnsClass := classIn, data, proof := .indeterminate }

structure Query where
  name : Name
  qtype : RecordType
  qclass : UInt16
  deriving DecidableEq, Repr

inductive MessageType where
  | query | response
  deriving DecidableEq, Repr

inductive OpCode where
  | query | status | notify | update | other (code : Nat)
  deriving DecidableEq, Repr

inductive ResponseCode where
  | noError | formErr | servFail | nxDomain | notImp | refused | badVers | other (code : Nat)
  deriving DecidableEq, Repr

structure Metadata where
  id : UInt16
  messageType : MessageType
  opCode : OpCode
  authoritative : Bool
  truncation : Bool
  recursionDesired : Bool
  recursionAvailable : Bool
  authenticData : Bool
  checkingDisabled : Bool
  responseCode : ResponseCode
  deriving DecidableEq, Repr

inductive EdnsOption where
  | subnet (addr : IpAddr) (sourcePrefix scopePrefix : Nat)
  | unknown (code : UInt16) (octets : List UInt8)
  deriving DecidableEq, Repr

structure Edns where
  maxPayload : Nat
  version : Nat
  dnssecOk : Bool
  options : List EdnsOption
  deriving DecidableEq, Repr

structure Message where
  metadata : Metadata
  queries : List Query
  answers : List Record
  authorities : List Record
  additionals : List Record
  edns : Option Edns
  deriving DecidableEq, Repr

def Message.records (msg : Message) : List Record :=
  msg.answers ++ msg.authorities ++ msg.additionals

/-- A message as decoded from the wire: decoding leaves every mark at its default. -/
def Message.Unvalidated (msg : Message) : Prop := ∀ r ∈ msg.records, r.proof = .indeterminate

instance (msg : Message) : Decidable msg.Unvalidated :=
  inferInstanceAs (Decidable (∀ r ∈ msg.records, r.proof = .indeterminate))

def Record.mapTtl (f : Nat → Nat) (r : Record) : Record := { r with ttl := f r.ttl }

def mapTtls (f : Nat → Nat) (msg : Message) : Message :=
  { msg with
    answers := msg.answers.map (Record.mapTtl f)
    authorities := msg.authorities.map (Record.mapTtl f)
    additionals := msg.additionals.map (Record.mapTtl f) }

def capTtls (cap : Nat) (msg : Message) : Message := mapTtls (fun ttl => min ttl cap) msg

def ageTtls (elapsed : Nat) (msg : Message) : Message := mapTtls (fun ttl => ttl - elapsed) msg

def minTtl (msg : Message) : Option Nat :=
  ((msg.records.filter (fun r => r.recordType ≠ .opt)).map Record.ttl).min?

end EgressDns
