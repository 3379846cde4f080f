import EgressDns.Dns.Message
import EgressDns.Lib.ListFacts

/-!
# DNSSEC state and the AD bit

`policy/dnssec.rs`: the state of a validated answer is the weakest proof mark on its data,
and the outcome of a validation is that state read together with what the transport saw.
-/

namespace EgressDns

inductive DnssecStatus where
  | secure | insecure | bogus | indeterminate
  deriving DecidableEq, Repr

def DnssecStatus.isAuthentic (status : DnssecStatus) : Bool := status == .secure

inductive DnssecMode where
  | off | background | strict
  deriving DecidableEq, Repr

def DnssecMode.blocksTheClient (mode : DnssecMode) : Bool := mode == .strict

def DnssecMode.wantsDnssecRecords (mode : DnssecMode) : Bool :=
  mode == .background || mode == .strict

structure DnssecConfig where
  mode : DnssecMode
  trustUpstreamAd : Bool
  corroborateNegative : Bool
  extendedErrors : Bool
  deriving DecidableEq, Repr

/-- Why an auxiliary lookup of a validation failed, in the order `observe` ranks them. -/
inductive ProofFailure where
  | none | deadline | transport | refused
  deriving DecidableEq, Repr

inductive ValidationOutcome where
  | secure | provenInsecure | bogus | incompleteProof | transportFailure | timeout | indeterminate
  deriving DecidableEq, Repr

def ValidationOutcome.label : ValidationOutcome → String
  | secure => "secure"
  | provenInsecure => "proven_insecure"
  | bogus => "bogus"
  | incompleteProof => "incomplete_proof"
  | transportFailure => "transport_failure"
  | timeout => "timeout"
  | indeterminate => "indeterminate"

def ValidationOutcome.isRetryable : ValidationOutcome → Bool
  | incompleteProof | transportFailure | timeout => true
  | _ => false

def ValidationOutcome.IsUnfinished (outcome : ValidationOutcome) : Prop :=
  outcome = .timeout ∨ outcome = .transportFailure ∨ outcome = .incompleteProof ∨
    outcome = .indeterminate

instance (outcome : ValidationOutcome) : Decidable outcome.IsUnfinished :=
  inferInstanceAs (Decidable (_ ∨ _))

variable (msg : Message)

/-- The records whose marks count: answers and authorities, OPT left out. -/
def dataRecords : List Record :=
  (msg.answers ++ msg.authorities).filter (fun r => r.recordType ≠ .opt)

variable (records : List Record)

def worstProof : Proof :=
  records.foldl (fun worst r => if r.proof < worst then r.proof else worst) .secure

def dnssecStatus (cfg : DnssecConfig) (upstreamTrustedAd : Bool) : DnssecStatus :=
  if cfg.mode = .off then
    if cfg.trustUpstreamAd && upstreamTrustedAd && msg.metadata.authenticData then .secure
    else .indeterminate
  else if (dataRecords msg).isEmpty then .indeterminate
  else
    match worstProof (dataRecords msg) with
    | .secure => .secure
    | .insecure => .insecure
    | .bogus => .bogus
    | .indeterminate => .indeterminate

/-- The classifier of `policy/dnssec.rs`: a Bogus mark is about the data only when nothing
failed on our side. -/
def classifyOutcome (cfg : DnssecConfig) (upstreamTrustedAd : Bool) (observed : ProofFailure) :
    ValidationOutcome :=
  match dnssecStatus msg cfg upstreamTrustedAd with
  | .secure => .secure
  | .insecure => .provenInsecure
  | .indeterminate => .indeterminate
  | .bogus =>
    match observed with
    | .none => .bogus
    | .deadline => .timeout
    | .transport => .transportFailure
    | .refused => .incompleteProof

def earliestRrsigExpiry : Option Nat :=
  msg.records.foldl (fun earliest r =>
    match r.data with
    | .rrsig expiration _ => some (match earliest with
      | some e => min e expiration
      | none => expiration)
    | _ => earliest) none

def maySetAd (status : DnssecStatus) (clientAsked modified : Bool) : Bool :=
  clientAsked && status.isAuthentic && !modified

theorem worstProof_foldl (start : Proof) :
    records.foldl (fun worst r => if r.proof < worst then r.proof else worst) start =
      (records.map Record.proof).foldl min start := by
  induction records generalizing start with
  | nil => rfl
  | cons r records ih =>
    have hmin : (if r.proof < start then r.proof else start) = min start r.proof := by
      rcases lt_or_ge r.proof start with hlt | hge
      · rw [if_pos hlt, min_eq_right hlt.le]
      · rw [if_neg (not_lt.mpr hge), min_eq_left hge]
    simp only [List.foldl_cons, List.map_cons, hmin, ih]

theorem worstProof_le_iff (bound : Proof) (h : bound ≠ .secure) :
    worstProof records ≤ bound ↔ ∃ r ∈ records, r.proof ≤ bound := by
  unfold worstProof
  rw [worstProof_foldl, Lib.foldl_min_le_iff]
  have hs : ¬Proof.secure ≤ bound := by cases bound <;> first | decide | exact absurd rfl h
  simp [hs]

theorem worstProof_eq_indeterminate_iff :
    worstProof records = .indeterminate ↔ ∃ r ∈ records, r.proof = .indeterminate := by
  have hbot (p : Proof) : p ≤ .indeterminate ↔ p = .indeterminate := by cases p <;> decide
  rw [← hbot, worstProof_le_iff records .indeterminate (by decide)]
  simp only [hbot]

theorem worstProof_eq_bogus_iff :
    worstProof records = .bogus ↔
      (∃ r ∈ records, r.proof = .bogus) ∧ ∀ r ∈ records, r.proof ≠ .indeterminate := by
  have hle (p : Proof) : p = .bogus ↔ p ≤ .bogus ∧ p ≠ .indeterminate := by cases p <;> decide
  rw [hle, worstProof_le_iff records .bogus (by decide), ne_eq, worstProof_eq_indeterminate_iff]
  constructor
  · rintro ⟨⟨r, hr, hb⟩, hn⟩
    have hall : ∀ r ∈ records, r.proof ≠ .indeterminate := fun r hr hi => hn ⟨r, hr, hi⟩
    exact ⟨⟨r, hr, (hle _).mpr ⟨hb, hall r hr⟩⟩, hall⟩
  · rintro ⟨⟨r, hr, hb⟩, hall⟩
    exact ⟨⟨r, hr, hb.le⟩, fun ⟨r, hr, hi⟩ => hall r hr hi⟩

section Status

variable {msg : Message} {cfg : DnssecConfig} {trusted : Bool}

theorem dnssecStatus_of_validating (h : cfg.mode ≠ .off) (hne : dataRecords msg ≠ []) :
    dnssecStatus msg cfg trusted =
      match worstProof (dataRecords msg) with
      | .secure => .secure
      | .insecure => .insecure
      | .bogus => .bogus
      | .indeterminate => .indeterminate := by
  unfold dnssecStatus
  rw [if_neg h, if_neg (by simpa using hne)]

/-- An answer is Bogus exactly when the weakest mark on it is: one Indeterminate mark hides
every Bogus one. -/
theorem dnssecStatus_eq_bogus_iff (msg : Message) (cfg : DnssecConfig) (trusted : Bool)
    (h : cfg.mode ≠ .off) :
    dnssecStatus msg cfg trusted = .bogus ↔
      (∃ r ∈ dataRecords msg, r.proof = .bogus) ∧
        ∀ r ∈ dataRecords msg, r.proof ≠ .indeterminate := by
  by_cases hne : dataRecords msg = []
  · simp [dnssecStatus, h, hne]
  · rw [dnssecStatus_of_validating h hne, ← worstProof_eq_bogus_iff]
    cases worstProof (dataRecords msg) <;> simp

theorem dnssecStatus_eq_indeterminate_of_mark (h : cfg.mode ≠ .off) {r : Record}
    (hr : r ∈ dataRecords msg) (hi : r.proof = .indeterminate) :
    dnssecStatus msg cfg trusted = .indeterminate := by
  have hw := (worstProof_eq_indeterminate_iff (dataRecords msg)).mpr ⟨r, hr, hi⟩
  rw [dnssecStatus_of_validating h (List.ne_nil_of_mem hr), hw]

theorem dnssecStatus_of_unvalidated (cfg : DnssecConfig) (trusted : Bool) (h : cfg.mode ≠ .off)
    (hu : msg.Unvalidated) :
    dnssecStatus msg cfg trusted = .indeterminate := by
  by_cases hne : dataRecords msg = []
  · simp [dnssecStatus, h, hne]
  · obtain ⟨r, hr⟩ := List.exists_mem_of_ne_nil _ hne
    refine dnssecStatus_eq_indeterminate_of_mark h hr (hu r ?_)
    exact List.mem_append_left _ (List.mem_of_mem_filter hr)

theorem classifyOutcome_eq_bogus_iff {observed : ProofFailure} :
    classifyOutcome msg cfg trusted observed = .bogus ↔
      dnssecStatus msg cfg trusted = .bogus ∧ observed = .none := by
  unfold classifyOutcome
  cases dnssecStatus msg cfg trusted <;> cases observed <;> simp

end Status

end EgressDns
