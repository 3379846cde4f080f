import Mathlib.Algebra.Order.Field.Rat
import Mathlib.Tactic.Linarith
import EgressDns.Lib.Tasks
import EgressDns.Upstream.Rank

/-!
# The hedge budget

The two counters of `HedgeBudget` and the resolutions of one group that share them. A resolution
records its query, reads the counters one after the other, and if they allow it queues a hedge; the
hedge is charged when it fires, after its delay, the permit and the deadline.
-/

namespace EgressDns

open Lib

structure HedgeBudget where
  queries : Nat
  hedges : Nat
  deriving DecidableEq, Repr

def HedgeBudget.recordQuery (b : HedgeBudget) : HedgeBudget := { b with queries := b.queries + 1 }

def HedgeBudget.recordHedge (b : HedgeBudget) : HedgeBudget := { b with hedges := b.hedges + 1 }

/-- `allows`, on the two numbers it loaded. -/
def hedgeAllowed (fraction : ℚ) (queries hedges : Nat) : Bool :=
  if fraction ≤ 0 then false
  else if 1 ≤ fraction then true
  else decide ((hedges : ℚ) / (max queries 1 : Nat) < fraction)

structure HedgeConfig where
  enabled : Bool
  maxFraction : ℚ
  deriving DecidableEq

/-- Where a resolution stands with its hedge; `ranked` is the number of routes it has. -/
inductive Hedger where
  | entered (ranked : Nat)
  | recorded
  | loaded (queries : Nat)
  | queued
  deriving DecidableEq, Repr

inductive HedgeAction where
  | recordQuery
  | loadQueries
  | judge (delayFits : Bool)
  | fire
  | abandon
  deriving DecidableEq, Repr

variable (cfg : HedgeConfig)

def hedgeAct (b : HedgeBudget) : Hedger → HedgeAction → Option (Effect HedgeBudget Hedger)
  | .entered ranked, .recordQuery =>
    some (.stay b.recordQuery (if cfg.enabled && decide (1 < ranked) then some .recorded else none))
  | .recorded, .loadQueries => some (.stay b (some (.loaded b.queries)))
  | .loaded queries, .judge delayFits =>
    some (.stay b
      (if hedgeAllowed cfg.maxFraction queries b.hedges && delayFits then some .queued else none))
  | .queued, .fire => some (.stay b.recordHedge none)
  -- The resolution is over, or the hedge ran past the deadline or found no permit.
  | _, .abandon => some (.stay b none)
  | _, _ => none

def hedging : Program HedgeBudget Hedger Empty Nat HedgeAction where
  env _ e := e.elim
  start _ ranked := .entered ranked
  act := hedgeAct cfg

abbrev Hedges := Pool HedgeBudget Hedger

def Hedges.initial : Hedges where
  shared := { queries := 0, hedges := 0 }
  tasks _ := none

/-- A hedge is queued only while no other one of the group is waiting to fire. -/
def QueuesAlone (p : Hedges) : TaskLabel Empty Nat HedgeAction → Prop
  | .act id (.judge delayFits) =>
    ∀ queries, p.tasks id = some (.loaded queries) →
      hedgeAllowed cfg.maxFraction queries p.shared.hedges = true → delayFits = true →
        ∀ i, p.tasks i ≠ some .queued
  | _ => True

section Budget

def WithinFraction (b : HedgeBudget) : Prop := (b.hedges : ℚ) ≤ cfg.maxFraction * b.queries + 1

/-- What a resolution knows of the counters: the queries it loaded were there, its own among them,
and a queued hedge still has room. -/
def HedgerFair (b : HedgeBudget) : Hedger → Prop
  | .entered _ => True
  | .recorded => 1 ≤ b.queries
  | .loaded queries => 1 ≤ queries ∧ queries ≤ b.queries
  | .queued => (b.hedges : ℚ) < cfg.maxFraction * b.queries

def waitingSlot : Hedger → Option Unit
  | .queued => some ()
  | _ => none

structure HedgesFair (p : Hedges) : Prop where
  inv : p.Inv (WithinFraction cfg) (HedgerFair cfg)
  alone : p.Exclusive waitingSlot

variable {cfg}

theorem hedgesFair_initial : HedgesFair cfg Hedges.initial where
  inv := by
    refine ⟨?_, nofun⟩
    simp [WithinFraction, Hedges.initial]
  alone := nofun

variable {b : HedgeBudget} {t : Hedger} {e : Effect HedgeBudget Hedger} {a : HedgeAction}
  {p : Hedges}

theorem recordQuery_fair (hf : 0 ≤ cfg.maxFraction) (h : HedgerFair cfg b t) :
    HedgerFair cfg b.recordQuery t := by
  cases t with
  | entered ranked => exact trivial
  | recorded => exact Nat.le_succ_of_le h
  | loaded queries => exact ⟨h.1, Nat.le_succ_of_le h.2⟩
  | queued =>
    simp only [HedgerFair, HedgeBudget.recordQuery, Nat.cast_add, Nat.cast_one] at h ⊢
    linarith

theorem recordQuery_within (hf : 0 ≤ cfg.maxFraction) (h : WithinFraction cfg b) :
    WithinFraction cfg b.recordQuery := by
  simp only [WithinFraction, HedgeBudget.recordQuery, Nat.cast_add, Nat.cast_one] at h ⊢
  linarith

theorem room_of_allowed {queries : Nat} (hone : cfg.maxFraction < 1) (hf : 0 ≤ cfg.maxFraction)
    (hq : 1 ≤ queries ∧ queries ≤ b.queries)
    (h : hedgeAllowed cfg.maxFraction queries b.hedges = true) :
    (b.hedges : ℚ) < cfg.maxFraction * b.queries := by
  unfold hedgeAllowed at h
  split at h
  · cases h
  · rw [if_neg (not_le.mpr hone), decide_eq_true_eq, max_eq_left hq.1] at h
    have hpos : (0 : ℚ) < queries := by exact_mod_cast hq.1
    have hle : (queries : ℚ) ≤ b.queries := by exact_mod_cast hq.2
    calc (b.hedges : ℚ) < cfg.maxFraction * queries := (div_lt_iff₀ hpos).mp h
      _ ≤ cfg.maxFraction * b.queries := mul_le_mul_of_nonneg_left hle hf

theorem fire_within (h : HedgerFair cfg b .queued) : WithinFraction cfg b.recordHedge := by
  simp only [HedgerFair, WithinFraction, HedgeBudget.recordHedge, Nat.cast_add,
    Nat.cast_one] at h ⊢
  linarith

/-- Firing takes the room of the one hedge that waited, and every other resolution keeps what it
knows. -/
theorem recordHedge_fair (ht : t ≠ .queued) (h : HedgerFair cfg b t) :
    HedgerFair cfg b.recordHedge t := by
  cases t with
  | entered ranked => exact trivial
  | recorded | loaded queries => exact h
  | queued => exact absurd rfl ht

theorem hedgeAct_kept (hf : 0 ≤ cfg.maxFraction) (hone : cfg.maxFraction < 1)
    (hp : HedgesFair cfg p) {id : Nat} (ht : p.tasks id = some t)
    (ha : hedgeAct cfg p.shared t a = some e) :
    KeptIn (WithinFraction cfg) (HedgerFair cfg) p id e := by
  have hown := hp.inv.tasks ht
  unfold hedgeAct at ha
  split at ha
  · rename_i ranked
    cases ha
    apply KeptIn.stay (recordQuery_within hf hp.inv.shared)
    · intro t' hnext
      split at hnext
      · cases hnext
        exact Nat.succ_le_succ (Nat.zero_le _)
      · cases hnext
    · intro i u _ hi
      exact recordQuery_fair hf (hp.inv.tasks hi)
  · cases ha
    apply KeptIn.stay hp.inv.shared
    · intro t' hnext
      cases hnext
      exact ⟨hown, le_rfl⟩
    · intro i u _ hi
      exact hp.inv.tasks hi
  · rename_i queries delayFits
    cases ha
    apply KeptIn.stay hp.inv.shared
    · intro t' hnext
      split at hnext
      · rename_i hallowed
        cases hnext
        exact room_of_allowed hone hf hown (Bool.and_eq_true_iff.mp hallowed).1
      · cases hnext
    · intro i u _ hi
      exact hp.inv.tasks hi
  · cases ha
    apply KeptIn.stay (fire_within hown)
    · nofun
    · intro i u hne hi
      apply recordHedge_fair _ (hp.inv.tasks hi)
      rintro rfl
      exact hne (hp.alone hi ht rfl rfl)
  · cases ha
    apply KeptIn.stay hp.inv.shared
    · nofun
    · intro i u _ hi
      exact hp.inv.tasks hi
  · cases ha

theorem hedgeAct_alone {id : Nat} (ht : p.tasks id = some t)
    (ha : hedgeAct cfg p.shared t a = some e) (hok : QueuesAlone cfg p (.act id a)) :
    TakesFree waitingSlot p t e := by
  unfold hedgeAct at ha
  split at ha
  · cases ha
    split
    · exact .stay nofun
    · exact .quit
  · cases ha
    exact .stay nofun
  · rename_i queries delayFits
    cases ha
    split
    · rename_i hallowed
      obtain ⟨hbudget, hfits⟩ := Bool.and_eq_true_iff.mp hallowed
      apply TakesFree.take
      intro r _ i u hi hu
      have hnone := hok queries ht hbudget hfits i
      cases u with
      | queued => exact hnone hi
      | entered ranked | recorded | loaded q => cases hu
    · exact .quit
  · cases ha
    exact .quit
  · cases ha
    exact .quit
  · cases ha

theorem hedgesFair_step (hf : 0 ≤ cfg.maxFraction) (hone : cfg.maxFraction < 1) {q : Hedges}
    {l : TaskLabel Empty Nat HedgeAction} (hp : HedgesFair cfg p) (hok : QueuesAlone cfg p l)
    (hs : (hedging cfg).step p l = some q) : HedgesFair cfg q := by
  refine ⟨?_, ?_⟩
  · refine Program.inv_step_in hp.inv hs (fun {e _} _ _ => e.elim) (fun _ => trivial) ?_
    intro id t a e _ ht ha
    exact hedgeAct_kept hf hone hp ht ha
  · cases Program.stepped hs with
    | @env e s h => exact e.elim
    | start hspawn => exact Pool.Exclusive.spawn hp.alone rfl hspawn
    | act ht ha happly => exact Pool.Exclusive.apply hp.alone ht (hedgeAct_alone ht ha hok) happly

/-- Over every interleaving in which no hedge is queued next to a waiting one, the hedges fired are
at most the configured fraction of the queries, plus one. -/
theorem hedges_within_fraction (hf : 0 < cfg.maxFraction) (hone : cfg.maxFraction < 1)
    {labels : List (TaskLabel Empty Nat HedgeAction)} {p : Hedges}
    (hg : Guarded (hedging cfg).step (QueuesAlone cfg) Hedges.initial labels)
    (hr : run (hedging cfg).step Hedges.initial labels = some p) :
    (p.shared.hedges : ℚ) ≤ cfg.maxFraction * p.shared.queries + 1 :=
  (invariant_of_run (fun hp hok hs => hedgesFair_step hf.le hone hp hok hs)
    hedgesFair_initial hg hr).inv.shared

end Budget

/-! Runs of resolutions with two routes each, under the shipped fraction. -/

def shippedHedging : HedgeConfig where
  enabled := true
  maxFraction := 15 / 100

/-- Resolution `id` up to the moment its hedge is queued. -/
def queueHedge (id : Nat) : List (TaskLabel Empty Nat HedgeAction) :=
  [.start id 2, .act id .recordQuery, .act id .loadQueries, .act id (.judge true)]

theorem hedges_within_fraction_once :
    ∃ p, run (hedging shippedHedging).step Hedges.initial
        (queueHedge 0 ++ ([.act 0 .fire] : List (TaskLabel Empty Nat HedgeAction))) = some p ∧
      p.shared.hedges = 1 ∧
      (p.shared.hedges : ℚ) ≤ shippedHedging.maxFraction * p.shared.queries + 1 := by
  have hguarded : Guarded (hedging shippedHedging).step (QueuesAlone shippedHedging)
      Hedges.initial
      (queueHedge 0 ++ ([.act 0 .fire] : List (TaskLabel Empty Nat HedgeAction))) := by
    refine ⟨trivial, ?_⟩
    rintro _ ⟨⟩
    refine ⟨trivial, ?_⟩
    rintro _ ⟨⟩
    refine ⟨trivial, ?_⟩
    rintro _ ⟨⟩
    refine ⟨?_, ?_⟩
    · intro queries _ _ _ i hi
      by_cases hzero : i = 0
      · subst hzero
        cases hi
      · simp [Pool.move, Effect.stay, Hedges.initial, hzero] at hi
    · rintro _ ⟨⟩
      exact ⟨trivial, fun _ _ => trivial⟩
  refine exists_imp_of_any (by decide +kernel) fun p hrun hone => ⟨hone, ?_⟩
  exact hedges_within_fraction (by norm_num [shippedHedging]) (by norm_num [shippedHedging])
    hguarded hrun

/-- Three resolutions queue their hedges before the first of them fires. -/
theorem hedges_exceed_fraction :
    ∃ p, run (hedging shippedHedging).step Hedges.initial
        (queueHedge 0 ++ queueHedge 1 ++ queueHedge 2 ++
          ([.act 0 .fire, .act 1 .fire, .act 2 .fire] :
            List (TaskLabel Empty Nat HedgeAction))) = some p ∧
      shippedHedging.maxFraction * p.shared.queries + 1 < (p.shared.hedges : ℚ) :=
  exists_of_any (by decide +kernel)

end EgressDns
