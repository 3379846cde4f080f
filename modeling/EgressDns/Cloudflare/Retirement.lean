import EgressDns.Cloudflare.Eviction
import EgressDns.Lib.Tasks

/-!
# Retired prefixes and the pool

`set_prefixes` of `cloudflare/state.rs` next to admissions: the one revalidates the pool and then
publishes its snapshot, the others load the published snapshot and then take the lock of the pool.
-/

namespace EgressDns

open Lib

structure PrefixState where
  published : Option PrefixSnapshot
  pool : CandidatePool Unit

inductive PrefixTask where
  | admitting (bid : Bid)
  | replacing (snapshot : PrefixSnapshot)
  | publishing (snapshot : PrefixSnapshot)

inductive PrefixCall where
  | admission (bid : Bid)
  | setPrefixes (snapshot : PrefixSnapshot)

inductive PoolEvent where
  | recordStage (addr : IpAddr) (stage : CandidateStage) (success : Bool) (now : Nat)
  | onGenerationChange (generation : Nat)

def PoolEvent.op : PoolEvent → PoolOp Unit
  | .recordStage addr stage success now => .recordStage addr stage success now ()
  | .onGenerationChange generation => .onGenerationChange generation

def PrefixTask.begin (s : PrefixState) : PrefixCall → PrefixTask
  | .admission bid => .admitting { bid with snapshot := s.published }
  | .setPrefixes snapshot => .replacing snapshot

def PrefixTask.act (s : PrefixState) (t : PrefixTask) (_ : Unit) :
    Option (Effect PrefixState PrefixTask) :=
  match t with
  | .admitting bid => some (.stay { s with pool := s.pool.after (.admission bid) } none)
  | .replacing snapshot =>
    some (.stay { s with pool := s.pool.after (.revalidate snapshot) } (some (.publishing snapshot)))
  | .publishing snapshot => some (.stay { s with published := some snapshot } none)

def prefixProgram : Program PrefixState PrefixTask PoolEvent PrefixCall Unit where
  env s e := some { s with pool := s.pool.after e.op }
  start := PrefixTask.begin
  act := PrefixTask.act

abbrev PrefixRun := Pool PrefixState PrefixTask

def PrefixRun.initial (capacity : Nat) : PrefixRun where
  shared := { published := none, pool := .new capacity }
  tasks _ := none

/-- When a newcomer is let in, the published snapshot has its address, and so has every snapshot the
pool was revalidated with that is not published yet. -/
def AdmitsCurrent (p : PrefixRun) : TaskLabel PoolEvent PrefixCall Unit → Prop
  | .act id _ => ∀ bid, p.tasks id = some (.admitting bid) →
      p.shared.pool.member bid.addr = none →
      (∃ snapshot, p.shared.published = some snapshot ∧ snapshot.contains bid.addr = true) ∧
      ∀ other snapshot, p.tasks other = some (.publishing snapshot) →
        snapshot.contains bid.addr = true
  | _ => True

structure Official (s : PrefixState) : Prop where
  keyed : s.pool.Keyed
  inside : ∀ a c, s.pool.member a = some c →
    ∃ snapshot, s.published = some snapshot ∧ snapshot.contains a = true

def Prepared (s : PrefixState) : PrefixTask → Prop
  | .publishing snapshot => ∀ a c, s.pool.member a = some c → snapshot.contains a = true
  | _ => True

section Steps

variable {s : PrefixState} {pool : CandidatePool Unit} {p q : PrefixRun}

theorem Official.shrink (h : Official s) (hkeyed : pool.Keyed)
    (hold : ∀ a c, pool.member a = some c → ∃ c', s.pool.member a = some c') :
    Official { s with pool } where
  keyed := hkeyed
  inside a c hc := by
    obtain ⟨c', hc'⟩ := hold a c hc
    exact h.inside a c' hc'

theorem Prepared.shrink {t : PrefixTask} (h : Prepared s t)
    (hold : ∀ a c, pool.member a = some c → ∃ c', s.pool.member a = some c') :
    Prepared { s with pool } t := by
  cases t with
  | publishing snapshot =>
    intro a c hc
    obtain ⟨c', hc'⟩ := hold a c hc
    exact h a c' hc'
  | admitting bid | replacing snapshot => exact trivial

theorem members_of_event (h : s.pool.Keyed) {op : PoolOp Unit}
    (hop : ∀ bid, op ≠ .admission bid) (a : IpAddr) (c : PoolCandidate Unit)
    (hc : (s.pool.after op).member a = some c) : ∃ c', s.pool.member a = some c' := by
  rcases (CandidatePool.step_after h op).members a c hc with hold | ⟨bid, hadm, -⟩
  · exact hold
  · exact absurd hadm (hop bid)

theorem official_step (hp : p.Inv Official Prepared)
    {l : TaskLabel PoolEvent PrefixCall Unit} (hok : AdmitsCurrent p l)
    (h : prefixProgram.step p l = some q) : q.Inv Official Prepared := by
  refine Program.inv_step_in hp h ?_ ?_ ?_
  · rintro e s rfl hs
    cases hs
    have hop : ∀ bid, e.op ≠ .admission bid := by
      intro bid hadm
      cases e <;> cases hadm
    have hold := members_of_event hp.shared.keyed hop
    exact ⟨hp.shared.shrink (CandidatePool.step_after hp.shared.keyed _).keyed hold,
      fun ht => (hp.tasks ht).shrink hold⟩
  · intro b
    cases b <;> exact trivial
  · rintro id t a e rfl ht he
    cases t with
    | admitting bid =>
      cases he
      have hstep := CandidatePool.step_after hp.shared.keyed (.admission bid)
      -- a member afterwards was one before, or is the newcomer the condition speaks of
      have hwho : ∀ a c, (p.shared.pool.after (.admission bid)).member a = some c →
          (∃ c', p.shared.pool.member a = some c') ∨
            (bid.addr = a ∧ p.shared.pool.member bid.addr = none) := by
        intro a c hc
        cases hbefore : p.shared.pool.member a with
        | some c' => exact .inl ⟨c', rfl⟩
        | none =>
          rcases hstep.members a c hc with ⟨c', hc'⟩ | ⟨bid', hadm, rfl, -⟩
          · cases hbefore.symm.trans hc'
          · cases hadm
            exact .inr ⟨rfl, hbefore⟩
      refine KeptIn.stay ⟨hstep.keyed, ?_⟩ (fun t ht => nomatch ht) ?_
      · intro a c hc
        rcases hwho a c hc with ⟨c', hc'⟩ | ⟨rfl, hnew⟩
        · exact hp.shared.inside a c' hc'
        · exact (hok _ ht hnew).1
      · intro i t _ hi
        cases t with
        | publishing snapshot =>
          intro a c hc
          rcases hwho a c hc with ⟨c', hc'⟩ | ⟨rfl, hnew⟩
          · exact hp.tasks hi a c' hc'
          · exact (hok _ ht hnew).2 i snapshot hi
        | admitting bid | replacing snapshot => exact trivial
    | replacing snapshot =>
      cases he
      have hold : ∀ a c, (p.shared.pool.after (.revalidate snapshot)).member a = some c →
          ∃ c', p.shared.pool.member a = some c' :=
        members_of_event hp.shared.keyed fun _ => nofun
      refine KeptIn.stay (hp.shared.shrink
        (CandidatePool.step_after hp.shared.keyed (.revalidate snapshot)).keyed hold) ?_
        fun _ hi => (hp.tasks hi).shrink hold
      intro t ht
      cases ht
      intro a c hc
      change (p.shared.pool.revalidate snapshot).member a = some c at hc
      rw [CandidatePool.member_revalidate] at hc
      exact (Option.filter_eq_some_iff.mp hc).2
    | publishing snapshot =>
      cases he
      refine KeptIn.stay ⟨hp.shared.keyed, ?_⟩ (fun t ht => nomatch ht) ?_
      · intro a c hc
        exact ⟨snapshot, rfl, hp.tasks ht a c hc⟩
      · intro i t _ hi
        have hgood := hp.tasks hi
        cases t with
        | publishing other => exact hgood
        | admitting bid | replacing snapshot => exact trivial

theorem official_initial (capacity : Nat) :
    (PrefixRun.initial capacity).Inv Official Prepared := by
  refine ⟨⟨⟨?_, ?_⟩, ?_⟩, fun ht => nomatch ht⟩
  · exact fun a ha => (AList.notMem_empty a ha).elim
  · exact fun a ha => (AList.notMem_empty a ha).elim
  · intro a c hc
    have hreplayed := (CandidatePool.replayed capacity []).vouched a c hc
    obtain ⟨before, _, _, hnil, -⟩ := hreplayed
    exact absurd hnil (by simp)

end Steps

/-- In every run in which each newcomer is let in under the current snapshots, all members lie in
the published snapshot, in every state and so whenever no call is in progress. -/
theorem members_inside_published (capacity : Nat)
    (labels : List (TaskLabel PoolEvent PrefixCall Unit)) (p : PrefixRun)
    (hguard : Guarded prefixProgram.step AdmitsCurrent (PrefixRun.initial capacity) labels)
    (hrun : run prefixProgram.step (PrefixRun.initial capacity) labels = some p) :
    ∀ a c, p.shared.pool.member a = some c →
      ∃ snapshot, p.shared.published = some snapshot ∧ snapshot.contains a = true :=
  (invariant_of_run (fun hp hok h => official_step hp hok h) (official_initial capacity) hguard
    hrun).shared.inside

def otherBlock : PrefixSnapshot := { v4Masks := [(0xac400000, 0xfff80000)], v6Masks := [] }

/-- 104.16.0.0/13 is published, and an admission of 104.16.0.1 begins. -/
def loadFirst : List (TaskLabel PoolEvent PrefixCall Unit) :=
  [.start 0 (.setPrefixes CandidatePool.oneBlock), .act 0 (), .act 0 (),
    .start 1 (.admission ⟨.v4 0x68100001, .dnsAnswer, none, 1, 0, none⟩)]

theorem members_inside_published_one :
    ∃ p, run prefixProgram.step (PrefixRun.initial 4) (loadFirst ++ [.act 1 ()]) = some p ∧
      (p.shared.pool.member (.v4 0x68100001)).isSome = true ∧
      ∀ a c, p.shared.pool.member a = some c →
        ∃ snapshot, p.shared.published = some snapshot ∧ snapshot.contains a = true := by
  refine ⟨_, rfl, by decide, members_inside_published 4 (loadFirst ++ [.act 1 ()]) _ ?_ rfl⟩
  refine ⟨trivial, ?_⟩
  rintro _ ⟨⟩
  refine ⟨by rintro _ ⟨⟩, ?_⟩
  rintro _ ⟨⟩
  refine ⟨by rintro _ ⟨⟩, ?_⟩
  rintro _ ⟨⟩
  refine ⟨trivial, ?_⟩
  rintro _ ⟨⟩
  refine ⟨?_, fun _ _ => trivial⟩
  rintro bid ⟨⟩ -
  refine ⟨⟨CandidatePool.oneBlock, rfl, by decide⟩, ?_⟩
  rintro (_ | _ | other) snapshot ⟨⟩

/-- The snapshot is loaded before the block is retired, and the address taken in afterwards. -/
theorem retired_address_admitted :
    ∃ p, run prefixProgram.step (PrefixRun.initial 4)
        (loadFirst ++ [.start 2 (.setPrefixes otherBlock), .act 2 (), .act 2 (), .act 1 ()]) =
          some p ∧
      (∀ id, p.tasks id = none) ∧ p.shared.published = some otherBlock ∧
      (p.shared.pool.member (.v4 0x68100001)).isSome = true ∧
      otherBlock.contains (.v4 0x68100001) = false := by
  refine ⟨_, rfl, ?_, rfl, by decide, by decide⟩
  rintro (_ | _ | _ | id)
  all_goals rfl

end EgressDns
