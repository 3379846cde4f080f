import EgressDns.Upstream.Rank

/-!
# Ordering the addresses of one RRset

`ranking/mod.rs`. What the ordering reads of an address's statistics is an input.
-/

namespace EgressDns

structure RankingConfig where
  enabled : Bool
  neutralCostMs : ℚ
  hysteresis : ℚ
  minSuccessesToLead : Nat
  explorationRate : ℚ

structure QualityReading where
  applicable : Bool
  expectedCost : ℚ
  successes : Nat

inductive OrderDecision where
  | disabled | noEvidence | belowHysteresis | exploration | reordered | unchanged
  deriving DecidableEq, Repr

structure ScoredAddr where
  idx : Nat
  addr : IpAddr
  cost : ℚ

def ScoredAddr.le (a b : ScoredAddr) : Prop := a.cost < b.cost ∨ a.cost = b.cost ∧ a.idx ≤ b.idx

instance : DecidableRel ScoredAddr.le := fun a b =>
  inferInstanceAs (Decidable (a.cost < b.cost ∨ a.cost = b.cost ∧ a.idx ≤ b.idx))

section Order

variable (original : List IpAddr) (stats : IpAddr → Option QualityReading) (cfg : RankingConfig)

def applicableStats (addr : IpAddr) : Option QualityReading :=
  (stats addr).filter QualityReading.applicable

def scoredAddrs : List ScoredAddr :=
  original.zipIdx.map fun p =>
    { idx := p.2, addr := p.1
      cost := ((applicableStats stats p.1).map QualityReading.expectedCost).getD cfg.neutralCostMs }

/-- The best-scored address may take the lead only on a real advantage and enough successes. -/
def mayLead (incumbent challenger : ScoredAddr) : Bool :=
  decide (challenger.idx = 0) ||
    (decide (cfg.hysteresis ≤ (incumbent.cost - challenger.cost) / max incumbent.cost 1) &&
      decide (cfg.minSuccessesToLead ≤
        ((stats challenger.addr).map QualityReading.successes).getD 0))

def orderAddresses (exploreSeed : UInt64) : List IpAddr × OrderDecision :=
  let scored := scoredAddrs original stats cfg
  let sorted := scored.insertionSort ScoredAddr.le
  if !cfg.enabled || decide (original.length < 2) then (original, .disabled)
  else if !(original.any fun a => (applicableStats stats a).isSome) then (original, .noEvidence)
  else if 0 < cfg.explorationRate ∧ unitFromSeed exploreSeed < cfg.explorationRate then
    (original, .exploration)
  else
    match scored.head?, sorted.head? with
    | some incumbent, some challenger =>
      if !mayLead stats cfg incumbent challenger then (original, .belowHysteresis)
      else
        let addresses := sorted.map ScoredAddr.addr
        (addresses, if addresses = original then .unchanged else .reordered)
    | _, _ => (original, .unchanged)

end Order

end EgressDns
