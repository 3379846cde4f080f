import EgressDns.Lib.ListFacts
import EgressDns.Probe.Safety

/-!
# The ceiling of the cooldown tables

`truncate_oldest` cuts by the instant of the entry at the ceiling. Entries of that very instant all
stay, however many there are.
-/

namespace EgressDns

section Tables

variable {K : Type} (seen : Cooldowns K) (limit : Nat)

/-- With the limit zero the index is out of bounds, and the call panics. -/
def truncateOldest? : Option (Cooldowns K) :=
  if seen.entries.length ≤ limit then some seen
  else
    let times := (seen.entries.map Sigma.snd).insertionSort (· ≤ ·)
    times[seen.entries.length - limit]?.map fun cutoff =>
      seen.retain fun _ t => decide (cutoff ≤ t)

/-- What the cut is for: no more than the limit is left, nothing is dropped in favour of an older
entry, and nothing at all as long as there is room. -/
structure Truncated (kept : Cooldowns K) : Prop where
  few : kept.entries.length ≤ limit
  oldest : ∀ e ∈ seen.entries, e ∉ kept.entries → ∀ e' ∈ kept.entries, ¬e'.2 < e.2
  room : seen.entries.length ≤ limit → kept = seen

/-- Where there are too many entries, some instant has just as many at or after it as may stay. -/
def CutsApart : Prop :=
  limit < seen.entries.length →
    limit ≠ 0 ∧ ∃ instant, seen.entries.countP (fun e => instant ≤ e.2) = limit

variable {seen limit} {kept : Cooldowns K}

theorem truncateOldest?_eq_some (h : truncateOldest? seen limit = some kept)
    (hover : limit < seen.entries.length) :
    limit ≠ 0 ∧ ∃ cutoff, ((seen.entries.map Sigma.snd).insertionSort (· ≤ ·))[
        seen.entries.length - limit]? = some cutoff ∧
      kept = seen.retain fun _ t => decide (cutoff ≤ t) := by
  rw [truncateOldest?, if_neg (not_le.mpr hover)] at h
  obtain ⟨cutoff, hcutoff, rfl⟩ := Option.map_eq_some_iff.mp h
  refine ⟨?_, cutoff, hcutoff, rfl⟩
  rintro rfl
  have hlt := (List.getElem?_eq_some_iff.mp hcutoff).1
  rw [List.length_insertionSort, List.length_map] at hlt
  omega

theorem truncateOldest?_of_ne_zero (hlimit : limit ≠ 0) :
    truncateOldest? seen limit = some (truncateOldest seen limit) := by
  unfold truncateOldest? truncateOldest
  split
  · rfl
  · have hlt : seen.entries.length - limit <
        ((seen.entries.map Sigma.snd).insertionSort (· ≤ ·)).length := by
      rw [List.length_insertionSort, List.length_map]
      omega
    dsimp only
    rw [List.getD_eq_getElem?_getD, List.getElem?_eq_getElem hlt]
    rfl

theorem length_le_iff_cutsApart (h : truncateOldest? seen limit = some kept) :
    kept.entries.length ≤ limit ↔ CutsApart seen limit := by
  by_cases hroom : seen.entries.length ≤ limit
  · rw [truncateOldest?, if_pos hroom] at h
    cases h
    exact ⟨fun _ hover => absurd hover (not_lt.mpr hroom), fun _ => hroom⟩
  · have hover := not_le.mp hroom
    obtain ⟨hlimit, cutoff, hcutoff, rfl⟩ := truncateOldest?_eq_some h hover
    have hlen : (seen.retain fun _ t => decide (cutoff ≤ t)).entries.length =
        seen.entries.countP (fun e => cutoff ≤ e.2) := List.countP_eq_length_filter.symm
    have hsplit : ∀ instant, seen.entries.countP (fun e => instant ≤ e.2) +
        (seen.entries.map Sigma.snd).countP (fun t => decide (t < instant)) =
        seen.entries.length := by
      intro instant
      have hall := List.length_eq_countP_add_countP (l := seen.entries) (fun e => instant ≤ e.2)
      simp only [decide_eq_true_eq, not_le] at hall
      rw [List.countP_map]
      exact hall.symm
    -- the cutoff is not before an instant just when at most the older ones are before that
    have hrank : ∀ instant, (seen.entries.map Sigma.snd).countP (fun t => decide (t < instant)) ≤
        seen.entries.length - limit ↔ decide (cutoff < instant) = false := by
      intro instant
      apply Lib.countP_insertionSort_le_iff _ hcutoff
      intro a b hab hb
      exact decide_eq_true (hab.trans_lt (of_decide_eq_true hb))
    have hown := hsplit cutoff
    have hleast := (hrank cutoff).mpr (decide_eq_false (lt_irrefl cutoff))
    rw [hlen]
    constructor
    · intro hfew _
      exact ⟨hlimit, cutoff, by omega⟩
    · intro hcut
      obtain ⟨-, instant, hcount⟩ := hcut hover
      have hother := hsplit instant
      have hle := not_lt.mp (of_decide_eq_false ((hrank instant).mp (by omega)))
      have hmono : seen.entries.countP (fun e => cutoff ≤ e.2) ≤
          seen.entries.countP (fun e => instant ≤ e.2) := by
        apply List.countP_mono_left
        intro e _ he
        exact decide_eq_true (hle.trans (of_decide_eq_true he))
      omega

theorem truncated_of_length_le (h : truncateOldest? seen limit = some kept)
    (hfew : kept.entries.length ≤ limit) : Truncated seen limit kept where
  few := hfew
  oldest e he hnot e' he' := by
    by_cases hroom : seen.entries.length ≤ limit
    · rw [truncateOldest?, if_pos hroom] at h
      cases h
      exact absurd he hnot
    · obtain ⟨-, cutoff, -, rfl⟩ := truncateOldest?_eq_some h (not_le.mp hroom)
      have hyoung := of_decide_eq_true (List.mem_filter.mp he').2
      have hold : ¬cutoff ≤ e.2 := fun hle =>
        hnot (List.mem_filter.mpr ⟨he, decide_eq_true hle⟩)
      omega
  room hroom := by
    rw [truncateOldest?, if_pos hroom] at h
    exact (Option.some.inj h).symm

end Tables

namespace GuardState

variable (s : GuardState) (now horizon : Nat)

def Sweeps : Prop :=
  elapsed s.lastPrune now sweepInterval = true ∨ maxEntries < s.ipSeen.entries.length ∨
    maxEntries < s.prefixSeen.entries.length ∨ maxEntries < s.domainSeen.entries.length

def WithinCeiling : Prop :=
  s.ipSeen.entries.length ≤ maxEntries ∧ s.prefixSeen.entries.length ≤ maxEntries ∧
    s.domainSeen.entries.length ≤ maxEntries

/-- The entries that the horizon spares can be cut in each table. -/
def SweepCutsApart : Prop :=
  CutsApart (s.ipSeen.retain fun _ t => decide (now - t < horizon)) maxEntries ∧
    CutsApart (s.prefixSeen.retain fun _ t => decide (now - t < horizon)) maxEntries ∧
    CutsApart (s.domainSeen.retain fun _ t => decide (now - t < horizon)) maxEntries

theorem withinCeiling_prune_iff (hsweeps : s.Sweeps now) :
    (s.prune now horizon).WithinCeiling ↔ s.SweepCutsApart now horizon := by
  have htable : ∀ {K : Type} (seen : Cooldowns K),
      (sweep now horizon seen).entries.length ≤ maxEntries ↔
        CutsApart (seen.retain fun _ t => decide (now - t < horizon)) maxEntries :=
    fun seen => length_le_iff_cutsApart (truncateOldest?_of_ne_zero (by decide))
  have hruns : ¬((!elapsed s.lastPrune now sweepInterval &&
      !(decide (maxEntries < s.ipSeen.entries.length) ||
        decide (maxEntries < s.prefixSeen.entries.length) ||
        decide (maxEntries < s.domainSeen.entries.length))) = true) := by
    simpa [Sweeps, or_assoc, imp_iff_not_or] using hsweeps
  rw [prune, if_neg hruns]
  exact and_congr (htable _) (and_congr (htable _) (htable _))

end GuardState

/-- A cut leaves no more than its limit, and a sweep no table over its ceiling, just when some
instant separates the entries that may stay from the older ones. -/
theorem cooldown_tables_bounded_iff {K : Type} (seen : Cooldowns K) (limit : Nat) (s : GuardState)
    (now horizon : Nat) :
    ((∃ kept, truncateOldest? seen limit = some kept ∧ Truncated seen limit kept) ↔
      CutsApart seen limit) ∧
    (s.Sweeps now → ((s.prune now horizon).WithinCeiling ↔ s.SweepCutsApart now horizon)) := by
  refine ⟨⟨?_, ?_⟩, s.withinCeiling_prune_iff now horizon⟩
  · rintro ⟨kept, h, htruncated⟩
    exact (length_le_iff_cutsApart h).mp htruncated.few
  · intro hcut
    obtain ⟨kept, h⟩ : ∃ kept, truncateOldest? seen limit = some kept := by
      by_cases hroom : seen.entries.length ≤ limit
      · exact ⟨seen, if_pos hroom⟩
      · exact ⟨_, truncateOldest?_of_ne_zero (hcut (not_le.mp hroom)).1⟩
    exact ⟨kept, h, truncated_of_length_le h ((length_le_iff_cutsApart h).mpr hcut)⟩

def twins : Cooldowns Bool := ((∅ : Cooldowns Bool).insert false 7).insert true 7

theorem twins_exceed_ceiling :
    (truncateOldest? twins 1).map (fun kept => kept.entries.length) = some 2 ∧
      truncateOldest? twins 0 = none := by
  decide

end EgressDns
