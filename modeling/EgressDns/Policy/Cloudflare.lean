import EgressDns.Policy.Dnssec
import EgressDns.Util.IpClass

/-!
# Cloudflare eligibility

`policy/cloudflare.rs` and the membership test of `cloudflare/prefixes.rs`.
-/

namespace EgressDns

structure PrefixSnapshot where
  v4Masks : List (BitVec 32 × BitVec 32)
  v6Masks : List (BitVec 128 × BitVec 128)
  deriving DecidableEq, Repr

def PrefixSnapshot.contains (snapshot : PrefixSnapshot) : IpAddr → Bool
  | .v4 addr => snapshot.v4Masks.any fun p => addr &&& p.2 == p.1
  | .v6 addr =>
    if (toIpv4Mapped addr).isSome then false
    else snapshot.v6Masks.any fun p => addr &&& p.2 == p.1

inductive CloudflareMode where
  | off | preserve | verifiedAugment
  deriving DecidableEq, Repr

inductive Eligibility where
  | off | preserve | augment
  deriving DecidableEq, Repr

inductive FallbackReason where
  | disabled | notCloudflare | recordType | domainExcluded | dnssecSecure | dnssecUnknown
  | echUnvalidatable | noBaseline | noVerifiedCandidate | complexAnswer | modeIsPreserve
  deriving DecidableEq, Repr

structure EligibilityInputs where
  mode : CloudflareMode
  enabled : Bool
  qtype : RecordType
  dnssec : DnssecStatus
  snapshot : Option PrefixSnapshot
  original : List IpAddr
  singleRrset : Bool
  excluded : Bool
  publishesEch : Bool
  canValidateEch : Bool
  baselineValidated : Bool
  hasVerifiedCandidate : Bool

def evaluate (inputs : EligibilityInputs) : Eligibility × Option FallbackReason :=
  if !inputs.enabled || inputs.mode == .off then (.off, some .disabled)
  else if inputs.qtype ≠ .a ∧ inputs.qtype ≠ .aaaa then (.off, some .recordType)
  else if inputs.excluded then (.off, some .domainExcluded)
  else
    match inputs.snapshot with
    | none => (.off, some .notCloudflare)
    | some snapshot =>
      if !(inputs.original.any snapshot.contains) then (.off, some .notCloudflare)
      else if inputs.mode = .preserve then (.preserve, some .modeIsPreserve)
      else if !inputs.singleRrset then (.preserve, some .complexAnswer)
      else
        match inputs.dnssec with
        | .secure => (.preserve, some .dnssecSecure)
        | .indeterminate | .bogus => (.preserve, some .dnssecUnknown)
        | .insecure =>
          if inputs.publishesEch && !inputs.canValidateEch then (.preserve, some .echUnvalidatable)
          else if !inputs.baselineValidated then (.preserve, some .noBaseline)
          else if !inputs.hasVerifiedCandidate then (.preserve, some .noVerifiedCandidate)
          else (.augment, none)

structure Augmentable (inputs : EligibilityInputs) : Prop where
  enabled : inputs.enabled = true
  mode : inputs.mode = .verifiedAugment
  allowed : inputs.excluded = false
  owned : ∃ snapshot, inputs.snapshot = some snapshot ∧
    ∃ addr ∈ inputs.original, snapshot.contains addr = true
  single : inputs.singleRrset = true
  insecure : inputs.dnssec = .insecure
  ech : inputs.publishesEch = true → inputs.canValidateEch = true
  baseline : inputs.baselineValidated = true

theorem passed_of_ite {A B : Type} {failed : Prop} [Decidable failed] {x y : A} {reason : B}
    {rest : A × B} (h : (if failed then (x, reason) else rest).1 = y) (hne : x ≠ y) :
    ¬failed ∧ rest.1 = y := by
  by_cases hf : failed
  · rw [if_pos hf] at h
    exact absurd h hne
  · rw [if_neg hf] at h
    exact ⟨hf, h⟩

theorem augmentable_of_evaluate {inputs : EligibilityInputs}
    (h : (evaluate inputs).1 = .augment) : Augmentable inputs := by
  obtain ⟨hon, h⟩ := passed_of_ite h nofun
  obtain ⟨_, h⟩ := passed_of_ite h nofun
  obtain ⟨hallowed, h⟩ := passed_of_ite h nofun
  obtain ⟨snapshot, hsnapshot⟩ : ∃ snapshot, inputs.snapshot = some snapshot := by
    cases hs : inputs.snapshot with
    | none =>
      rw [hs] at h
      cases h
    | some snapshot => exact ⟨snapshot, rfl⟩
  rw [hsnapshot] at h
  obtain ⟨howned, h⟩ := passed_of_ite h nofun
  obtain ⟨hpreserve, h⟩ := passed_of_ite h nofun
  obtain ⟨hsingle, h⟩ := passed_of_ite h nofun
  have hinsecure : inputs.dnssec = .insecure := by
    cases hd : inputs.dnssec with
    | insecure => rfl
    | _ =>
      rw [hd] at h
      cases h
  rw [hinsecure] at h
  obtain ⟨hech, h⟩ := passed_of_ite h nofun
  obtain ⟨hbaseline, _⟩ := passed_of_ite h nofun
  have hmode : inputs.mode = .verifiedAugment := by
    cases hm : inputs.mode with
    | off => simp [hm] at hon
    | preserve => exact absurd hm hpreserve
    | verifiedAugment => rfl
  have hany : ∃ addr ∈ inputs.original, snapshot.contains addr = true := by
    simpa using howned
  exact
    { enabled := by simpa [hmode] using hon
      mode := hmode
      allowed := by simpa using hallowed
      owned := ⟨snapshot, hsnapshot, hany⟩
      single := by simpa using hsingle
      insecure := hinsecure
      ech := by simpa using hech
      baseline := by simpa using hbaseline }

def echParamKey : UInt16 := 5

def publishesEch (msg : Message) : Bool :=
  (msg.answers ++ msg.additionals ++ msg.authorities).any fun r =>
    match r.data with
    | .https params _ | .svcb params _ => params.any fun p => p.1 = echParamKey
    | _ => false

/-- A pattern with a leading dot covers the domain and everything beneath it. -/
def matchesDomain (name pattern : List UInt8) : Bool :=
  match lower (trimEndDots pattern) with
  | [] => false
  | 46 :: suffix => decide (name = suffix) || (46 :: suffix).isSuffixOf name
  | p => decide (name = p)

def isExcluded (name : List UInt8) (allow deny : List (List UInt8)) : Bool :=
  let n := lower (trimEndDots name)
  if deny.any (matchesDomain n) then true
  else if allow.isEmpty then false
  else !(allow.any (matchesDomain n))

def CloudflareMode.rank : CloudflareMode → Nat
  | off => 0
  | preserve => 1
  | verifiedAugment => 2

/-- A live override may only weaken the configured mode. -/
def effectiveMode (modeOverride : Option CloudflareMode) (configured : CloudflareMode) :
    CloudflareMode :=
  match modeOverride with
  | some mode => if mode.rank ≤ configured.rank then mode else configured
  | none => configured

end EgressDns
