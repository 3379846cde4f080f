import EgressDns.Probe.Engine
import EgressDns.Util.Der

/-!
# Probe profiles

What a probe profile demands of an answer and of the certificate behind it. The digest, the reading
of the issuer's name and the verifier of certificates are parameters.
-/

namespace EgressDns.Profile

open Der

structure RequiredHeader where
  name : String
  value : Option String

structure ProbeProfile where
  allowedStatus : List Nat
  requiredHeader : Option RequiredHeader
  bodySha256 : Option String
  spkiSha256 : List String
  requiredIssuerCn : Option String

/-- The facts of a verified leaf certificate. -/
structure CapturedLeaf where
  spkiSha256 : Option (List UInt8)
  issuerCn : Option String

def hexEncode (octets : List UInt8) : String :=
  String.ofList (octets.flatMap fun b =>
    [Nat.digitChar (b.toNat / 16), Nat.digitChar (b.toNat % 16)])

def ProbeProfile.pinned (profile : ProbeProfile) (leaf : Option CapturedLeaf) : Bool :=
  profile.spkiSha256.isEmpty || (leaf.bind CapturedLeaf.spkiSha256).any fun spki =>
    profile.spkiSha256.any fun pin => pin.toLower == hexEncode spki

section Judging

variable (sha256 : List UInt8 → List UInt8) (issuerCommonName : List UInt8 → Option String)

def verifyServerCert {V E : Type} (verified : Except E V) (endEntity : List UInt8)
    (captured : Option CapturedLeaf) : Except E V × Option CapturedLeaf :=
  match verified with
  | .error e => (.error e, captured)
  | .ok v =>
    (.ok v, some ⟨Der.spkiSha256 sha256 endEntity, issuerCommonName endEntity⟩)

def accepts (profile : Option ProbeProfile) (outcome : HttpProbeOutcome)
    (leaf : Option CapturedLeaf) : Bool :=
  outcome.status != 421 &&
    match profile with
    | none => decide (100 ≤ outcome.status ∧ outcome.status < 600)
    | some profile =>
      profile.allowedStatus.contains outcome.status &&
        (profile.requiredHeader.all fun required => (outcome.header required.name).any fun value =>
          required.value.all fun expected => value.toLower == expected.toLower) &&
        (profile.bodySha256.all fun expected =>
          hexEncode (sha256 outcome.body) == expected.toLower) &&
        profile.pinned leaf &&
        (profile.requiredIssuerCn.all fun expected =>
          (leaf.bind CapturedLeaf.issuerCn).any fun cn => decide (expected.toList <:+: cn.toList))

end Judging

variable {sha256 : List UInt8 → List UInt8} {issuerCommonName : List UInt8 → Option String}

theorem accepts_and_pinned (profile : ProbeProfile) (outcome : HttpProbeOutcome)
    (leaf : Option CapturedLeaf) :
    accepts sha256 (some profile) outcome leaf =
      (accepts sha256 (some { profile with spkiSha256 := [] }) outcome leaf &&
        profile.pinned leaf) := by
  have hnone : ProbeProfile.pinned { profile with spkiSha256 := [] } leaf = true := rfl
  simp only [accepts, hnone, Bool.and_true, Bool.and_assoc]
  rw [Bool.and_comm (profile.pinned leaf)]

/-- With pins, a probe succeeds exactly if it would without them, the certificate was verified and
the digest of its public key is pinned, however the pin is spelt. -/
theorem judge_pinned {V E : Type} (h : SubsystemHealth) (verified : Except E V) (c : Certificate)
    (hc : c.encode.length < 2 ^ 32) (profile : ProbeProfile) (hpins : profile.spkiSha256 ≠ [])
    (outcome : HttpProbeOutcome) (rest : List UInt8) :
    let leaf := (verifyServerCert sha256 issuerCommonName verified (c.encode ++ rest) none).2
    (h.judge (accepts sha256 (some profile) · leaf) (.ok outcome)).2 = .success ↔
      accepts sha256 (some { profile with spkiSha256 := [] }) outcome leaf = true ∧
        verified.isOk = true ∧ ∃ pin ∈ profile.spkiSha256,
          pin.toLower = hexEncode (sha256 (sequence c.publicKey).encode) := by
  intro leaf
  have hsome : profile.spkiSha256.isEmpty = false := List.isEmpty_eq_false_iff.mpr hpins
  have hjudge : (h.judge (accepts sha256 (some profile) · leaf) (.ok outcome)).2 = .success ↔
      accepts sha256 (some profile) outcome leaf = true := by simp [SubsystemHealth.judge]
  rw [hjudge, accepts_and_pinned, Bool.and_eq_true]
  refine and_congr_right fun _ => ?_
  cases verified with
  | error e => simp [leaf, verifyServerCert, ProbeProfile.pinned, hsome, Except.isOk, Except.toBool]
  | ok v =>
    have hspki := spkiSha256_encode sha256 c hc rest
    simp [leaf, verifyServerCert, ProbeProfile.pinned, hsome, hspki, Except.isOk, Except.toBool]

def pinningProfile : ProbeProfile := ⟨[200], none, none, ["AB"], none⟩

def smallCertificate : Certificate := ⟨none, [1], [], [], [], [], [7], [], []⟩

theorem judge_pinned_upper_case :
    (SubsystemHealth.judge (accepts (fun _ => [0xab]) (some pinningProfile) ·
      (verifyServerCert (fun _ => [0xab]) (fun _ => none) (.ok () : Except Empty Unit)
        (smallCertificate.encode ++ []) none).2)
      (.new 4) (.ok ⟨0, 0, 0, 200, none, [], []⟩)).2 = .success :=
  (judge_pinned _ (.ok ()) smallCertificate (by decide) pinningProfile (by decide) _ []).mpr
    ⟨by decide, rfl, "AB", by decide, String.toList_inj.mp (String.toList_map.trans (by decide))⟩

end EgressDns.Profile
