import Mathlib.Data.Prod.Lex
import EgressDns.Lib.ListFacts
import EgressDns.Ranking.Quality

/-!
# What the ordering of an RRset may do

An ordering is a permutation that is either the order of the upstream or stable by cost, and that
gives the lead away only for a real advantage.
-/

namespace EgressDns

section Readings

variable {original : List IpAddr} {stats : IpAddr → Option QualityReading} {cfg : RankingConfig}

def readingCost (stats : IpAddr → Option QualityReading) (cfg : RankingConfig) (addr : IpAddr) : ℚ :=
  ((applicableStats stats addr).map QualityReading.expectedCost).getD cfg.neutralCostMs

def sortedAddrs (original : List IpAddr) (stats : IpAddr → Option QualityReading)
    (cfg : RankingConfig) : List ScoredAddr :=
  (scoredAddrs original stats cfg).insertionSort ScoredAddr.le

theorem scoredAddr_le_iff {a b : ScoredAddr} :
    ScoredAddr.le a b ↔ toLex (a.cost, a.idx) ≤ toLex (b.cost, b.idx) := by
  rw [ScoredAddr.le, Prod.Lex.toLex_le_toLex]

instance : Std.Total ScoredAddr.le where
  total a b := by
    simp only [scoredAddr_le_iff]
    exact le_total _ _

instance : IsTrans ScoredAddr ScoredAddr.le where
  trans a b c := by
    simp only [scoredAddr_le_iff]
    exact le_trans

theorem scoredAddrs_addr : (scoredAddrs original stats cfg).map ScoredAddr.addr = original := by
  unfold scoredAddrs
  rw [List.map_map]
  exact List.zipIdx_map_fst 0 original

theorem scoredAddrs_idx :
    (scoredAddrs original stats cfg).Pairwise fun a b => a.idx < b.idx := by
  unfold scoredAddrs
  rw [List.pairwise_map]
  have hidx : (original.zipIdx.map Prod.snd).Pairwise (· < ·) := by
    rw [List.zipIdx_map_snd]
    exact List.pairwise_lt_range'
  exact List.pairwise_map.mp hidx

variable {s : ScoredAddr}

theorem cost_of_mem (h : s ∈ scoredAddrs original stats cfg) :
    s.cost = readingCost stats cfg s.addr := by
  obtain ⟨p, -, rfl⟩ := List.mem_map.mp h
  rfl

theorem addr_of_idx_zero (h : s ∈ scoredAddrs original stats cfg) (hidx : s.idx = 0) :
    original.head? = some s.addr := by
  obtain ⟨p, hp, rfl⟩ := List.mem_map.mp h
  have hget := List.mem_zipIdx_iff_getElem?.mp hp
  rw [List.head?_eq_getElem?, ← hget]
  exact congrArg _ hidx.symm

theorem sortedAddrs_perm : (sortedAddrs original stats cfg).Perm (scoredAddrs original stats cfg) :=
  List.perm_insertionSort ..

theorem sortedAddrs_pairwise : (sortedAddrs original stats cfg).Pairwise ScoredAddr.le :=
  List.pairwise_insertionSort ..

theorem mem_sortedAddrs : s ∈ sortedAddrs original stats cfg ↔ s ∈ scoredAddrs original stats cfg :=
  sortedAddrs_perm.mem_iff

theorem sorted_perm : ((sortedAddrs original stats cfg).map ScoredAddr.addr).Perm original := by
  have hperm : ((sortedAddrs original stats cfg).map ScoredAddr.addr).Perm
      ((scoredAddrs original stats cfg).map ScoredAddr.addr) := sortedAddrs_perm.map _
  rwa [scoredAddrs_addr] at hperm

theorem sorted_by_cost : ((sortedAddrs original stats cfg).map ScoredAddr.addr).Pairwise
    fun a b => readingCost stats cfg a ≤ readingCost stats cfg b := by
  rw [List.pairwise_map]
  apply sortedAddrs_pairwise.imp_of_mem
  intro a b ha hb hab
  rw [← cost_of_mem (mem_sortedAddrs.mp ha), ← cost_of_mem (mem_sortedAddrs.mp hb)]
  rcases hab with hlt | ⟨heq, -⟩
  · exact hlt.le
  · exact heq.le

theorem filter_addr (ss : List ScoredAddr) (hss : ∀ s ∈ ss, s.cost = readingCost stats cfg s.addr)
    (c : ℚ) : (ss.map ScoredAddr.addr).filter (fun a => decide (readingCost stats cfg a = c)) =
      (ss.filter fun s => decide (s.cost = c)).map ScoredAddr.addr := by
  rw [List.filter_map]
  congr 1
  apply List.filter_congr
  intro s hs
  simp only [Function.comp_apply, hss s hs]

theorem sorted_stable (c : ℚ) :
    ((sortedAddrs original stats cfg).map ScoredAddr.addr).filter
        (fun a => decide (readingCost stats cfg a = c)) =
      original.filter fun a => decide (readingCost stats cfg a = c) := by
  have hout := filter_addr (sortedAddrs original stats cfg)
    (fun s hs => cost_of_mem (mem_sortedAddrs.mp hs)) c
  have hin := filter_addr (scoredAddrs original stats cfg) (fun _ hs => cost_of_mem hs) c
  rw [scoredAddrs_addr] at hin
  rw [hout, hin, Lib.filter_eq_of_sorted sortedAddrs_perm scoredAddrs_idx sortedAddrs_pairwise c]

/-- The ways an ordering can end: as the upstream had it, or sorted under a leader that may lead. -/
inductive Arranged (original : List IpAddr) (stats : IpAddr → Option QualityReading)
    (cfg : RankingConfig) : List IpAddr → Prop where
  | kept : Arranged original stats cfg original
  | sorted {incumbent challenger : ScoredAddr}
      (hincumbent : (scoredAddrs original stats cfg).head? = some incumbent)
      (hchallenger : (sortedAddrs original stats cfg).head? = some challenger)
      (hlead : mayLead stats cfg incumbent challenger = true) :
      Arranged original stats cfg ((sortedAddrs original stats cfg).map ScoredAddr.addr)

theorem arranged (seed : UInt64) :
    Arranged original stats cfg (orderAddresses original stats cfg seed).1 := by
  unfold orderAddresses
  dsimp only
  split
  · exact .kept
  · split
    · exact .kept
    · split
      · exact .kept
      · split
        · rename_i incumbent challenger hincumbent hchallenger
          cases hlead : mayLead stats cfg incumbent challenger with
          | true => exact .sorted hincumbent hchallenger hlead
          | false => exact .kept
        · exact .kept

variable {out : List IpAddr}

theorem Arranged.perm (h : Arranged original stats cfg out) : out.Perm original := by
  cases h with
  | kept => exact List.Perm.refl _
  | sorted => exact sorted_perm

theorem Arranged.by_cost (h : Arranged original stats cfg out) (hne : out ≠ original) :
    out.Pairwise fun a b => readingCost stats cfg a ≤ readingCost stats cfg b := by
  cases h with
  | kept => exact absurd rfl hne
  | sorted => exact sorted_by_cost

theorem Arranged.stable (h : Arranged original stats cfg out) (c : ℚ) :
    out.filter (fun a => decide (readingCost stats cfg a = c)) =
      original.filter fun a => decide (readingCost stats cfg a = c) := by
  cases h with
  | kept => rfl
  | sorted => exact sorted_stable c

theorem head_addr (h : (scoredAddrs original stats cfg).head? = some s) :
    original.head? = some s.addr := by
  have hhead : ((scoredAddrs original stats cfg).map ScoredAddr.addr).head? = some s.addr := by
    rw [List.head?_map, h]
    rfl
  rwa [scoredAddrs_addr] at hhead

theorem Arranged.lead (h : Arranged original stats cfg out) {a b : IpAddr}
    (ha : original.head? = some a) (hb : out.head? = some b) (hne : b ≠ a) :
    cfg.hysteresis ≤ (readingCost stats cfg a - readingCost stats cfg b) /
        max (readingCost stats cfg a) 1 ∧
      cfg.minSuccessesToLead ≤ ((stats b).map QualityReading.successes).getD 0 := by
  cases h with
  | kept =>
    rw [ha, Option.some.injEq] at hb
    exact absurd hb.symm hne
  | @sorted incumbent challenger hincumbent hchallenger hlead =>
    rw [List.head?_map, hchallenger, Option.map_some, Option.some.injEq] at hb
    have hmem := mem_sortedAddrs.mp (List.mem_of_head? hchallenger)
    have hsame : incumbent.addr = a := Option.some.inj ((head_addr hincumbent).symm.trans ha)
    have hmoved : challenger.idx ≠ 0 := by
      intro hzero
      have hfirst := (addr_of_idx_zero hmem hzero).symm.trans ha
      rw [hb, Option.some.injEq] at hfirst
      exact hne hfirst
    unfold mayLead at hlead
    simp only [hmoved, decide_false, Bool.false_or, Bool.and_eq_true, decide_eq_true_eq] at hlead
    rw [cost_of_mem (List.mem_of_head? hincumbent), cost_of_mem hmem, hsame, hb] at hlead
    exact hlead

theorem kept_without_evidence (h : ∀ a ∈ original, applicableStats stats a = none)
    (seed : UInt64) : (orderAddresses original stats cfg seed).1 = original := by
  have hany : (original.any fun a => (applicableStats stats a).isSome) = false := by
    apply List.any_eq_false.mpr
    intro a ha
    simp [h a ha]
  unfold orderAddresses
  split
  · rfl
  · rw [hany]
    rfl

theorem kept_when_exploring {seed : UInt64} (hrate : 0 < cfg.explorationRate)
    (hdraw : unitFromSeed seed < cfg.explorationRate) :
    (orderAddresses original stats cfg seed).1 = original := by
  unfold orderAddresses
  split
  · rfl
  · split
    · rfl
    · rw [if_pos ⟨hrate, hdraw⟩]

end Readings

section Statistics

variable {P : Type} (math : FloatMath) (cfg : EvidenceConfig) (now : Nat)

def readingsOf (stats : IpAddr → Option (QualityStats P)) (addr : IpAddr) : Option QualityReading :=
  (stats addr).map fun s => s.reading math cfg now

/-- What an address is ordered by: its expected cost if it has applicable evidence, or else the
neutral cost. -/
def orderingCost (stats : IpAddr → Option (QualityStats P)) (addr : IpAddr) : ℚ :=
  match stats addr with
  | some s => if s.hasApplicableEvidence then s.expectedCost math cfg now else cfg.neutralCostMs
  | none => cfg.neutralCostMs

structure OrderLaws (stats : IpAddr → Option (QualityStats P)) (seed : UInt64)
    (original out : List IpAddr) : Prop where
  perm : out.Perm original
  sorted : out ≠ original →
    out.Pairwise fun a b => orderingCost math cfg now stats a ≤ orderingCost math cfg now stats b
  stable : out ≠ original → ∀ c,
    out.filter (fun a => decide (orderingCost math cfg now stats a = c)) =
      original.filter fun a => decide (orderingCost math cfg now stats a = c)
  lead : ∀ a b, original.head? = some a → out.head? = some b → b ≠ a →
    cfg.hysteresis ≤ (orderingCost math cfg now stats a - orderingCost math cfg now stats b) /
        max (orderingCost math cfg now stats a) 1 ∧
      cfg.minSuccessesToLead ≤ ((stats b).map QualityStats.successes).getD 0
  silent : (∀ a ∈ original, ∀ s ∈ stats a, s.hasApplicableEvidence = false) → out = original
  exploring : 0 < cfg.explorationRate → unitFromSeed seed < cfg.explorationRate → out = original

variable {math cfg now} {stats : IpAddr → Option (QualityStats P)}

theorem readingCost_eq (addr : IpAddr) :
    readingCost (readingsOf math cfg now stats) cfg.toRankingConfig addr =
      orderingCost math cfg now stats addr := by
  unfold readingCost applicableStats readingsOf orderingCost
  cases stats addr with
  | none => rfl
  | some s =>
    cases hs : s.hasApplicableEvidence <;> simp [QualityStats.reading, hs, Option.filter_some]

/-- The ordering of any list of addresses by any statistics keeps the contract. -/
theorem order_addresses_lawful (math : FloatMath) (cfg : EvidenceConfig) (now : Nat)
    (stats : IpAddr → Option (QualityStats P)) (seed : UInt64) (original : List IpAddr) :
    OrderLaws math cfg now stats seed original
      (orderAddresses original (readingsOf math cfg now stats) cfg.toRankingConfig seed).1 := by
  have harranged : Arranged original (readingsOf math cfg now stats) cfg.toRankingConfig
      (orderAddresses original (readingsOf math cfg now stats) cfg.toRankingConfig seed).1 :=
    arranged seed
  have hcost : orderingCost math cfg now stats =
      readingCost (readingsOf math cfg now stats) cfg.toRankingConfig := by
    funext addr
    exact (readingCost_eq addr).symm
  refine ⟨harranged.perm, ?_, ?_, ?_, ?_, kept_when_exploring⟩
  · intro hne
    rw [hcost]
    exact harranged.by_cost hne
  · intro _ c
    rw [hcost]
    exact harranged.stable c
  · intro a b ha hb hne
    have hlead := harranged.lead ha hb hne
    rw [hcost]
    refine ⟨hlead.1, ?_⟩
    have hcount : ((readingsOf math cfg now stats b).map QualityReading.successes).getD 0 =
        ((stats b).map QualityStats.successes).getD 0 := by
      unfold readingsOf
      rw [Option.map_map]
      rfl
    rw [← hcount]
    exact hlead.2
  · intro hsilent
    apply kept_without_evidence
    intro a ha
    unfold applicableStats readingsOf
    cases hs : stats a with
    | none => rfl
    | some s => simp [QualityStats.reading, hsilent a ha s hs, Option.filter_some]

end Statistics

end EgressDns
