import EgressDns.Lib.Runs
import EgressDns.Ranking.Quality

/-!
# Evidence from another network generation

A series is demoted when an observation of another generation reaches it, and every series is when
the generation changes. The factor of the first is `neutral_cost_ms`, cut off at one.
-/

namespace EgressDns

open Lib

structure Observation (P : Type) where
  key : ProbeKey
  cls : ObservationClass
  latency : Option Nat
  generation : Nat
  now : Nat
  probe : P

inductive QualityEvent (P : Type) where
  | record (o : Observation P)
  | change (generation : Nat) (factor : ℚ)

namespace QualityStore

variable {P : Type} (math : FloatMath) (cfg : EvidenceConfig) (st : QualityStore P)

def observe (o : Observation P) : QualityStore P :=
  st.record math cfg o.key o.cls o.latency o.generation o.now o.probe

def apply :
    QualityEvent P → QualityStore P
  | .record o => st.observe math cfg o
  | .change generation factor => st.onGenerationChange generation factor

def step (e : QualityEvent P) : Option (QualityStore P) :=
  some (st.apply math cfg e)

def target (o : Observation P) : QualityStats P :=
  seriesFor cfg (st.makeRoom o.key) o.key o.generation

end QualityStore

section Demotion

variable {P : Type}

/-- The counts of `d` are those of `s` times the factor, the whole ones rounded down. -/
structure ScaledBy (f : ℚ) (s d : QualityStats P) : Prop where
  alpha : d.alpha - 1 = f * (s.alpha - 1)
  beta : d.beta - 1 = f * (s.beta - 1)
  samples : d.samples = ⌊f * s.samples⌋₊
  successes : d.successes = ⌊f * s.successes⌋₊

def WeakPrior (s d : QualityStats P) : Prop := ∃ f, 0 ≤ f ∧ f < 1 ∧ ScaledBy f s d

/-- No entry that the step leaves in the store goes back to an older generation. -/
def Forward (st st' : QualityStore P) : Prop :=
  ∀ key s s', st.entries.lookup key = some s → st'.entries.lookup key = some s' →
    s.generation ≤ s'.generation

def PriorOnly (math : FloatMath) (cfg : EvidenceConfig) (st : QualityStore P) :
    QualityEvent P → Prop
  | .record o =>
    (∀ s ∈ st.entries.lookup o.key, s.generation ≠ o.generation → WeakPrior s (st.target cfg o)) ∧
      Forward st (st.observe math cfg o)
  | .change generation factor => Forward st (st.onGenerationChange generation factor)

structure Untaught (s : QualityStats P) : Prop where
  alpha : s.alpha = 1
  beta : s.beta = 1
  samples : s.samples = 0
  successes : s.successes = 0

/-- The factor is below one where there is something to weaken, and no generation is older than
that of the entries it reaches. -/
def InOrder (cfg : EvidenceConfig) (st : QualityStore P) : QualityEvent P → Prop
  | .record o => ∀ s ∈ st.entries.lookup o.key, s.generation ≠ o.generation →
      (cfg.neutralCostMs < 1 ∨ Untaught s) ∧ s.generation < o.generation
  | .change generation _ => ∀ key, ∀ s ∈ st.entries.lookup key, s.generation ≤ generation

variable {math : FloatMath} {cfg : EvidenceConfig} {st : QualityStore P} {o : Observation P}
  {s : QualityStats P} {key : ProbeKey} {f : ℚ} {generation : Nat}

theorem makeRoom_of_mem (h : st.entries.lookup key = some s) : st.makeRoom key = st.entries := by
  have hmem : key ∈ st.entries := AList.lookup_isSome.mp (by rw [h]; rfl)
  unfold QualityStore.makeRoom
  simp [hmem]

theorem target_eq (h : st.entries.lookup o.key = some s) (hne : s.generation ≠ o.generation) :
    st.target cfg o = s.demoteToPrior o.generation (min cfg.neutralCostMs 1) := by
  unfold QualityStore.target QualityStore.seriesFor
  rw [makeRoom_of_mem h, h, Option.getD_some, if_pos hne]

theorem demoteToPrior_scaledBy (s : QualityStats P) (generation : Nat) (h0 : 0 ≤ f) (h1 : f ≤ 1) :
    ScaledBy f s (s.demoteToPrior generation f) := by
  have hclamp : min (max f 0) 1 = f := by
    rw [max_eq_left h0, min_eq_left h1]
  unfold QualityStats.demoteToPrior
  rw [hclamp]
  constructor
  · simp only [QualityStats.weaken]
    ring
  · simp only [QualityStats.weaken]
    ring
  · dsimp only
    rw [mul_comm]
  · dsimp only
    rw [mul_comm]

theorem eq_zero_of_floor_eq (h1 : f < 1) {n : Nat} (h : n = ⌊f * n⌋₊) : n = 0 := by
  by_contra hne
  have hpos : (0 : ℚ) < n := by exact_mod_cast Nat.pos_of_ne_zero hne
  have hle : (n : ℚ) ≤ f * n := by
    have hfloor := (Nat.le_floor_iff' hne).mp h.le
    exact hfloor
  nlinarith

theorem untaught_of_scaledBy (h1 : f < 1) (h : ScaledBy f s (s.demoteToPrior generation 1)) :
    Untaught s := by
  have hone := demoteToPrior_scaledBy s generation zero_le_one le_rfl
  have hcount : ∀ x : ℚ, 1 * x = f * x → x = 0 := by
    intro x hx
    have hzero : (1 - f) * x = 0 := by linarith
    rcases mul_eq_zero.mp hzero with hf | hx
    · linarith
    · exact hx
  have hwhole : ∀ n : Nat, ⌊(1 : ℚ) * n⌋₊ = n := by
    intro n
    rw [one_mul, Nat.floor_natCast]
  constructor
  · have hx := hcount _ (hone.alpha.symm.trans h.alpha)
    linarith
  · have hx := hcount _ (hone.beta.symm.trans h.beta)
    linarith
  · apply eq_zero_of_floor_eq h1
    rw [← h.samples, hone.samples, hwhole]
  · apply eq_zero_of_floor_eq h1
    rw [← h.successes, hone.successes, hwhole]

theorem scaledBy_of_untaught (h : Untaught s) (generation : Nat) (f g : ℚ) :
    ScaledBy f s (s.demoteToPrior generation g) := by
  obtain ⟨halpha, hbeta, hsamples, hsuccesses⟩ := h
  constructor <;>
    simp [QualityStats.demoteToPrior, QualityStats.weaken, halpha, hbeta, hsamples, hsuccesses]

theorem weakPrior_iff (h : st.entries.lookup o.key = some s) (hne : s.generation ≠ o.generation) :
    WeakPrior s (st.target cfg o) ↔ cfg.neutralCostMs < 1 ∨ Untaught s := by
  rw [target_eq h hne]
  constructor
  · rintro ⟨f, -, h1, hscaled⟩
    by_cases hn : cfg.neutralCostMs < 1
    · exact .inl hn
    · right
      rw [min_eq_right (not_lt.mp hn)] at hscaled
      exact untaught_of_scaledBy h1 hscaled
  · rintro (hn | huntaught)
    · rw [min_eq_left hn.le]
      by_cases h0 : 0 ≤ cfg.neutralCostMs
      · exact ⟨_, h0, hn, demoteToPrior_scaledBy s _ h0 hn.le⟩
      · -- A cost below zero is cut off at zero.
        have hzero : s.demoteToPrior o.generation cfg.neutralCostMs =
            s.demoteToPrior o.generation 0 := by
          unfold QualityStats.demoteToPrior
          rw [max_eq_right (not_le.mp h0).le, max_self]
        rw [hzero]
        exact ⟨0, le_rfl, zero_lt_one, demoteToPrior_scaledBy s _ le_rfl zero_le_one⟩
    · exact ⟨0, le_rfl, zero_lt_one, scaledBy_of_untaught huntaught _ _ _⟩

theorem lookup_observe_self : (st.observe math cfg o).entries.lookup o.key =
    some ((st.target cfg o).record math cfg o.cls o.latency o.now o.probe) :=
  AList.lookup_insert _

theorem lookup_of_observe_ne (hne : key ≠ o.key)
    (h : (st.observe math cfg o).entries.lookup key = some s) : st.entries.lookup key = some s := by
  have hroom : (st.makeRoom o.key).lookup key = some s := (AList.lookup_insert_ne hne).symm.trans h
  unfold QualityStore.makeRoom at hroom
  split at hroom
  · exact Map.lookup_of_eraseAll hroom
  · exact hroom

theorem target_generation : (st.target cfg o).generation = o.generation :=
  (QualityStore.seriesFor_spec (φ := fun _ => True) cfg (fun _ _ _ => trivial) _ _).1

theorem forward_observe_iff : Forward st (st.observe math cfg o) ↔
    ∀ s ∈ st.entries.lookup o.key, s.generation ≤ o.generation := by
  have hgeneration : ((st.target cfg o).record math cfg o.cls o.latency o.now o.probe).generation =
      o.generation := (QualityStats.record_frame ..).1.trans target_generation
  constructor
  · intro h s hs
    have hle := h o.key s _ hs lookup_observe_self
    rwa [hgeneration] at hle
  · intro h key s s' hs hs'
    by_cases hkey : key = o.key
    · rw [hkey] at hs hs'
      cases (lookup_observe_self.symm.trans hs')
      rw [hgeneration]
      exact h s hs
    · have hsame := hs.symm.trans (lookup_of_observe_ne hkey hs')
      cases hsame
      exact Nat.le_refl _

theorem forward_change_iff {factor : ℚ} :
    Forward st (st.onGenerationChange generation factor) ↔
      ∀ key, ∀ s ∈ st.entries.lookup key, s.generation ≤ generation := by
  have hlookup (key : ProbeKey) : (st.onGenerationChange generation factor).entries.lookup key =
      (st.entries.lookup key).map fun s => s.demoteToPrior generation factor :=
    Map.lookup_mapValues _ _ _
  constructor
  · intro h key s hs
    have hafter : (st.onGenerationChange generation factor).entries.lookup key =
        some (s.demoteToPrior generation factor) := by
      rw [hlookup, hs]
      rfl
    exact h key s _ hs hafter
  · intro h key s s' hs hs'
    rw [hlookup, hs, Option.map_some, Option.some.injEq] at hs'
    subst hs'
    exact h key s hs

theorem priorOnly_iff (e : QualityEvent P) : PriorOnly math cfg st e ↔ InOrder cfg st e := by
  cases e with
  | change generation factor => exact forward_change_iff
  | record o =>
    unfold PriorOnly InOrder
    dsimp only
    rw [forward_observe_iff]
    constructor
    · rintro ⟨hweak, hforward⟩ s hs hne
      exact ⟨(weakPrior_iff hs hne).mp (hweak s hs hne), lt_of_le_of_ne (hforward s hs) hne⟩
    · intro h
      refine ⟨?_, ?_⟩
      · intro s hs hne
        exact (weakPrior_iff hs hne).mpr (h s hs hne).1
      · intro s hs
        by_cases hne : s.generation = o.generation
        · exact hne.le
        · exact (h s hs hne).2.le

/-- Evidence of another generation stays a weak prior, along any calls, just when the neutral cost
is below one millisecond and the calls come in the order of their generations. -/
theorem weak_prior_iff (math : FloatMath) (cfg : EvidenceConfig) (st : QualityStore P)
    (events : List (QualityEvent P)) :
    Guarded (QualityStore.step math cfg) (PriorOnly math cfg) st events ↔
      Guarded (QualityStore.step math cfg) (InOrder cfg) st events :=
  guarded_congr (fun _ e => priorOnly_iff e) st events

def probed (cls : ObservationClass) (generation : Nat) : Observation Unit where
  key := .generic (.v4 0x68100001) 443
  cls := cls
  latency := some (10 * 10 ^ 6)
  generation := generation
  now := 0
  probe := ()

def measuredOnce : QualityStore Unit :=
  (QualityStore.new 16).observe .rounded .shipped (probed .success 2)

/-- A late observation of the first generation weakens nothing and takes the entry back. -/
theorem late_observation_takes_over :
    (∃ s ∈ measuredOnce.entries.lookup (probed .ambiguousFailure 1).key,
      s.generation ≠ 1 ∧ ¬ WeakPrior s (measuredOnce.target .shipped (probed .ambiguousFailure 1))) ∧
    ¬ Forward measuredOnce
      (measuredOnce.observe .rounded .shipped (probed .ambiguousFailure 1)) := by
  obtain ⟨s, hs, hgeneration, halpha⟩ :
      ∃ s, measuredOnce.entries.lookup (probed .ambiguousFailure 1).key = some s ∧
        s.generation = 2 ∧ s.alpha = 2 := by
    refine ⟨_, lookup_observe_self (o := probed .success 2), ?_⟩
    decide +kernel
  have hne : s.generation ≠ 1 := by
    rw [hgeneration]
    decide
  refine ⟨⟨s, hs, hne, ?_⟩, ?_⟩
  · rw [weakPrior_iff hs hne]
    rintro (hn | huntaught)
    · exact absurd hn (by decide +kernel)
    · have hone := huntaught.alpha
      rw [halpha] at hone
      exact absurd hone (by decide)
  · rw [forward_observe_iff]
    intro h
    have hle : s.generation ≤ 1 := h s hs
    omega

end Demotion

end EgressDns
