import EgressDns.Dns.Message

/-!
# Client-facing TTL policy

`policy/ttl.rs`: every branch takes a minimum, so no configuration extends upstream data.
-/

namespace EgressDns

structure TtlConfig where
  capDefault : Nat
  capOptimizedMulti : Nat
  capCloudflarePreserve : Nat
  capCloudflareAugment : Nat
  capNetworkChange : Nat
  capServeStale : Nat
  deriving DecidableEq, Repr

inductive TtlReason where
  | serveStale | networkChange | cloudflareAugment | cloudflarePreserve | optimizedMulti | default
  deriving DecidableEq, Repr

structure TtlInputs where
  remainingAuthoritative : Nat
  remainingSignature : Option Nat
  isStale : Bool
  recentNetworkChange : Bool
  cloudflareAugmented : Bool
  cloudflarePreserved : Bool
  optimizedMulti : Bool
  deriving DecidableEq, Repr

variable (cfg : TtlConfig) (inputs : TtlInputs)

def ttlReason : TtlReason :=
  if inputs.isStale then .serveStale
  else if inputs.cloudflareAugmented then .cloudflareAugment
  else if inputs.recentNetworkChange then .networkChange
  else if inputs.cloudflarePreserved then .cloudflarePreserve
  else if inputs.optimizedMulti then .optimizedMulti
  else .default

def TtlConfig.cap : TtlReason → Nat
  | .serveStale => cfg.capServeStale
  | .networkChange => cfg.capNetworkChange
  | .cloudflareAugment => cfg.capCloudflareAugment
  | .cloudflarePreserve => cfg.capCloudflarePreserve
  | .optimizedMulti => cfg.capOptimizedMulti
  | .default => cfg.capDefault

/-- The cap the policy selects; a recent network change also bounds every other reason. -/
def policyCap : Nat :=
  let cap := cfg.cap (ttlReason inputs)
  if inputs.recentNetworkChange then min cap cfg.capNetworkChange else cap

def effectiveClientTtl : Nat × TtlReason :=
  let ttl := min inputs.remainingAuthoritative (policyCap cfg inputs)
  let ttl :=
    match inputs.remainingSignature with
    | some sig => min ttl sig
    | none => ttl
  (ttl, ttlReason inputs)

section Bounds

variable (cfg : TtlConfig) (inputs : TtlInputs)

theorem effectiveClientTtl_le_cap :
    (effectiveClientTtl cfg inputs).1 ≤
      min inputs.remainingAuthoritative (policyCap cfg inputs) := by
  unfold effectiveClientTtl
  cases inputs.remainingSignature with
  | none => exact le_rfl
  | some sig => exact min_le_left _ _

theorem effectiveClientTtl_le_signature {sig : Nat} (h : inputs.remainingSignature = some sig) :
    (effectiveClientTtl cfg inputs).1 ≤ sig := by
  simp only [effectiveClientTtl, h]
  exact min_le_right _ _

theorem policyCap_le_reason : policyCap cfg inputs ≤ cfg.cap (ttlReason inputs) := by
  unfold policyCap
  simp only
  split
  · exact min_le_left _ _
  · exact le_rfl

end Bounds

/-- The caps under the names `validate` reports them with, in the order it checks them. -/
def TtlConfig.named (t : TtlConfig) : List (String × Nat) :=
  [("ttl.cap_default", t.capDefault), ("ttl.cap_optimized_multi", t.capOptimizedMulti),
    ("ttl.cap_cloudflare_preserve", t.capCloudflarePreserve),
    ("ttl.cap_cloudflare_augment", t.capCloudflareAugment),
    ("ttl.cap_network_change", t.capNetworkChange), ("ttl.cap_serve_stale", t.capServeStale)]

def validateCap (entry : String × Nat) : Except (String × String) Unit :=
  if entry.2 = 0 then
    .error (entry.1,
      "must be greater than zero; a zero TTL cap defeats client caching entirely")
  else if entry.2 > 86400 then .error (entry.1, "must not exceed 86400 seconds")
  else .ok ()

def TtlConfig.validate (t : TtlConfig) : Except (String × String) Unit := do
  t.named.forM validateCap
  if t.capCloudflareAugment > 60 then
    .error ("ttl.cap_cloudflare_augment",
      "augmented answers must expire quickly; the cap must not exceed 60 seconds")
  else .ok ()

def TtlConfig.shipped : TtlConfig where
  capDefault := 300
  capOptimizedMulti := 90
  capCloudflarePreserve := 60
  capCloudflareAugment := 25
  capNetworkChange := 15
  capServeStale := 30

section Strongest

/-- Which reasons apply to an answer; the default one is for answers nothing was optimized in. -/
def TtlInputs.applies (inputs : TtlInputs) : TtlReason → Bool
  | .serveStale => inputs.isStale
  | .networkChange => inputs.recentNetworkChange
  | .cloudflareAugment => inputs.cloudflareAugmented
  | .cloudflarePreserve => inputs.cloudflarePreserved
  | .optimizedMulti => inputs.optimizedMulti
  | .default =>
    !(inputs.cloudflareAugmented || inputs.cloudflarePreserved || inputs.optimizedMulti)

structure StrongestWins (cfg : TtlConfig) (inputs : TtlInputs) : Prop where
  ttl : ∀ reason, inputs.applies reason = true →
    (effectiveClientTtl cfg inputs).1 ≤ cfg.cap reason
  applies : inputs.applies (effectiveClientTtl cfg inputs).2 = true
  reason : ∀ reason, inputs.applies reason = true →
    cfg.cap (effectiveClientTtl cfg inputs).2 ≤ cfg.cap reason

/-- Of the reasons that apply, none has a smaller cap than the one the chain asks for first. -/
structure CapsFollowChain (cfg : TtlConfig) (inputs : TtlInputs) : Prop where
  stale : inputs.isStale = true → ∀ later, inputs.applies later = true →
    cfg.capServeStale ≤ cfg.cap later
  augmented : inputs.isStale = false → inputs.cloudflareAugmented = true →
    ∀ later ∈ [TtlReason.networkChange, .cloudflarePreserve, .optimizedMulti],
      inputs.applies later = true → cfg.capCloudflareAugment ≤ cfg.cap later
  network : inputs.isStale = false → inputs.cloudflareAugmented = false →
    inputs.recentNetworkChange = true →
      ∀ later ∈ [TtlReason.cloudflarePreserve, .optimizedMulti, .default],
        inputs.applies later = true → cfg.capNetworkChange ≤ cfg.cap later
  preserved : inputs.isStale = false → inputs.cloudflareAugmented = false →
    inputs.recentNetworkChange = false → inputs.cloudflarePreserved = true →
      inputs.optimizedMulti = true → cfg.capCloudflarePreserve ≤ cfg.capOptimizedMulti

variable (cfg : TtlConfig) (inputs : TtlInputs)

theorem applies_ttlReason : inputs.applies (ttlReason inputs) = true := by
  unfold ttlReason
  split_ifs with hstale haug hnet hpres hopt
  · exact hstale
  · exact haug
  · exact hnet
  · exact hpres
  · exact hopt
  · simp [TtlInputs.applies, haug, hpres, hopt]

theorem strongestWins_iff_reason :
    StrongestWins cfg inputs ↔
      ∀ reason, inputs.applies reason = true → cfg.cap (ttlReason inputs) ≤ cfg.cap reason := by
  constructor
  · intro h
    exact h.reason
  · intro h
    refine ⟨?_, applies_ttlReason inputs, h⟩
    intro reason ha
    calc (effectiveClientTtl cfg inputs).1
        ≤ policyCap cfg inputs := (effectiveClientTtl_le_cap cfg inputs).trans (min_le_right _ _)
      _ ≤ cfg.cap (ttlReason inputs) := policyCap_le_reason cfg inputs
      _ ≤ cfg.cap reason := h reason ha

theorem strongest_cap_wins_iff : StrongestWins cfg inputs ↔ CapsFollowChain cfg inputs := by
  rw [strongestWins_iff_reason]
  constructor
  · intro h
    refine ⟨?_, ?_, ?_, ?_⟩
    · intro hstale later hl
      have hr : ttlReason inputs = .serveStale := by simp [ttlReason, hstale]
      rw [hr] at h
      exact h later hl
    · intro hstale haug later _ hl
      have hr : ttlReason inputs = .cloudflareAugment := by simp [ttlReason, hstale, haug]
      rw [hr] at h
      exact h later hl
    · intro hstale haug hnet later _ hl
      have hr : ttlReason inputs = .networkChange := by simp [ttlReason, hstale, haug, hnet]
      rw [hr] at h
      exact h later hl
    · intro hstale haug hnet hpres hopt
      have hr : ttlReason inputs = .cloudflarePreserve := by
        simp [ttlReason, hstale, haug, hnet, hpres]
      rw [hr] at h
      exact h .optimizedMulti hopt
  · intro h reason ha
    -- One case for each arm of the chain; what stands before it in the chain does not apply.
    unfold ttlReason
    split_ifs with hstale haug hnet hpres hopt
    · exact h.stale hstale reason ha
    · cases reason with
      | serveStale => exact absurd ha hstale
      | cloudflareAugment => exact le_rfl
      | default => simp [TtlInputs.applies, haug] at ha
      | networkChange | cloudflarePreserve
      | optimizedMulti => exact h.augmented (by simpa using hstale) haug _ (by simp) ha
    · have hnetwork := h.network (by simpa using hstale) (by simpa using haug) hnet
      cases reason with
      | networkChange => exact le_rfl
      | serveStale | cloudflareAugment => exact absurd ha (by assumption)
      | cloudflarePreserve | optimizedMulti | default => exact hnetwork _ (by simp) ha
    · cases reason with
      | cloudflarePreserve => exact le_rfl
      | optimizedMulti =>
        exact h.preserved (by simpa using hstale) (by simpa using haug) (by simpa using hnet)
          hpres ha
      | default => simp [TtlInputs.applies, hpres] at ha
      | _ => exact absurd ha (by assumption)
    · cases reason with
      | optimizedMulti => exact le_rfl
      | default => simp [TtlInputs.applies, hopt] at ha
      | _ => exact absurd ha (by assumption)
    · cases reason with
      | default => exact le_rfl
      | _ => exact absurd ha (by assumption)

end Strongest

end EgressDns
