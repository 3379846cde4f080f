import EgressDns.Lib.Maps
import EgressDns.Policy.Cloudflare
import EgressDns.Upstream.Health

/-!
# The candidate pool

`cloudflare/candidates.rs`. A candidate also carries the probes that have written its stage or its
streak since it was last reset; nothing is decided by them.
-/

namespace EgressDns

open Lib

inductive CandidateOrigin where
  | dnsAnswer | seed | sampling | config | persisted
  deriving DecidableEq, Repr

/-- Lower is stronger. -/
def CandidateOrigin.priority : CandidateOrigin → Nat
  | .dnsAnswer => 0
  | .config => 1
  | .persisted => 2
  | .seed => 3
  | .sampling => 4

inductive CandidateStage where
  | new | tcpOk | tlsOk | httpOk
  deriving DecidableEq, Repr

def CandidateStage.rank : CandidateStage → Nat
  | .new => 0
  | .tcpOk => 1
  | .tlsOk => 2
  | .httpOk => 3

inductive RejectReason where
  | notOfficialPrefix | specialUse | noSnapshot | poolFull | budgetExhausted
  deriving DecidableEq, Repr

inductive PoolAdmission where
  | added
  | refreshed
  | rejected (reason : RejectReason)
  deriving DecidableEq, Repr

structure PoolCandidate (P : Type) where
  origin : CandidateOrigin
  firstSeen : Nat
  lastSeen : Nat
  lastProbe : Option Nat
  stage : CandidateStage
  consecutiveSuccesses : Nat
  generation : Nat
  evidence : List P
  deriving DecidableEq

def PoolCandidate.new {P : Type} (origin : CandidateOrigin) (generation now : Nat) :
    PoolCandidate P where
  origin := origin
  firstSeen := now
  lastSeen := now
  lastProbe := none
  stage := .new
  consecutiveSuccesses := 0
  generation := generation
  evidence := []

def PoolCandidate.reset {P : Type} (c : PoolCandidate P) (generation : Nat) : PoolCandidate P :=
  { c with
    generation, consecutiveSuccesses := 0, stage := .new, lastProbe := none, evidence := [] }

structure CandidatePool (P : Type) where
  v4 : Map IpAddr (PoolCandidate P)
  v6 : Map IpAddr (PoolCandidate P)
  admittedThisHour : Nat
  hourStarted : Option Nat
  capacity : Nat

namespace CandidatePool

variable {P : Type}

def new (capacity : Nat) : CandidatePool P where
  v4 := ∅
  v6 := ∅
  admittedThisHour := 0
  hourStarted := none
  capacity := max capacity 1

variable (pool : CandidatePool P) (addr : IpAddr)

def family : Map IpAddr (PoolCandidate P) :=
  if addr.isIpv4 then pool.v4 else pool.v6

def setFamily (m : Map IpAddr (PoolCandidate P)) : CandidatePool P :=
  if addr.isIpv4 then { pool with v4 := m } else { pool with v6 := m }

@[simp] theorem family_setFamily (m : Map IpAddr (PoolCandidate P)) :
    (pool.setFamily addr m).family addr = m := by
  unfold family setFamily
  split_ifs <;> rfl

/-- The weakest candidate, and among equals the one not seen for longest. Only candidates that were
never probed, or that are weaker than the newcomer, may go. -/
def victim (incoming : CandidateOrigin) : Option (IpAddr × Nat × Nat) :=
  (pool.v4.entries ++ pool.v6.entries).foldl (fun best e =>
    if e.2.origin.priority ≤ incoming.priority ∧ e.2.stage ≠ .new then best
    else
      match best with
      | none => some (e.1, e.2.origin.priority, e.2.lastSeen)
      | some (_, priority, seen) =>
        if priority < e.2.origin.priority ∨
            (e.2.origin.priority = priority ∧ e.2.lastSeen < seen) then
          some (e.1, e.2.origin.priority, e.2.lastSeen)
        else best) none

def evictOne (incoming : CandidateOrigin) : Option (CandidatePool P) :=
  (pool.victim incoming).map fun v => pool.setFamily v.1 ((pool.family v.1).erase v.1)

def seat (origin : CandidateOrigin) (generation now : Nat) : CandidatePool P :=
  let pool := pool.setFamily addr ((pool.family addr).insert addr (.new origin generation now))
  { pool with admittedThisHour := pool.admittedThisHour + 1 }

def hourOver (now : Nat) : Bool :=
  match pool.hourStarted with
  | none => true
  | some start => decide (3600 ≤ (now - start) / 10 ^ 9)

def openHour (now : Nat) : CandidatePool P :=
  if pool.hourOver now then { pool with hourStarted := some now, admittedThisHour := 0 } else pool

def admission (origin : CandidateOrigin) (snapshot : Option PrefixSnapshot) (generation now : Nat)
    (hourlyBudget : Option Nat) : CandidatePool P × PoolAdmission :=
  if (classifyAddr addr).isSome then (pool, .rejected .specialUse)
  else
    match snapshot with
    | none => (pool, .rejected .noSnapshot)
    | some snapshot =>
      if !snapshot.contains addr then (pool, .rejected .notOfficialPrefix)
      else
        match (pool.family addr).lookup addr with
        | some existing =>
          let origin :=
            if origin.priority < existing.origin.priority then origin else existing.origin
          (pool.setFamily addr
            ((pool.family addr).insert addr { existing with lastSeen := now, origin }), .refreshed)
        | none =>
          let pool := if hourlyBudget.isSome then pool.openHour now else pool
          if hourlyBudget.any fun budget => decide (budget ≤ pool.admittedThisHour) then
            (pool, .rejected .budgetExhausted)
          else if pool.v4.entries.length + pool.v6.entries.length < pool.capacity then
            (pool.seat addr origin generation now, .added)
          else
            match pool.evictOne origin with
            | none => (pool, .rejected .poolFull)
            | some pool => (pool.seat addr origin generation now, .added)

/-- The outcome of a probe. Only success moves the stage, and only upwards. -/
def recordStage (stage : CandidateStage) (success : Bool) (now : Nat) (by_ : P) : CandidatePool P :=
  match (pool.family addr).lookup addr with
  | none => pool
  | some c =>
    let c := { c with lastProbe := some now, evidence := by_ :: c.evidence }
    let c :=
      if success then
        { c with
          stage := if c.stage.rank < stage.rank then stage else c.stage
          consecutiveSuccesses := satSucc c.consecutiveSuccesses }
      else { c with consecutiveSuccesses := 0 }
    pool.setFamily addr ((pool.family addr).insert addr c)

def revalidate (snapshot : PrefixSnapshot) : CandidatePool P :=
  { pool with
    v4 := pool.v4.retain fun addr _ => snapshot.contains addr
    v6 := pool.v6.retain fun addr _ => snapshot.contains addr }

def onGenerationChange (generation : Nat) : CandidatePool P :=
  { pool with
    v4 := pool.v4.mapValues fun c => c.reset generation
    v6 := pool.v6.mapValues fun c => c.reset generation }

section Members

variable {pool : CandidatePool P} {φ : PoolCandidate P → Prop}

def Each (φ : PoolCandidate P → Prop) (pool : CandidatePool P) : Prop :=
  pool.v4.Each φ ∧ pool.v6.Each φ

section

variable (h : pool.Each φ)
include h

theorem each_family (addr : IpAddr) : (pool.family addr).Each φ := by
  unfold family
  split_ifs
  · exact h.1
  · exact h.2

theorem each_setFamily (addr : IpAddr) {m : Map IpAddr (PoolCandidate P)} (hm : m.Each φ) :
    (pool.setFamily addr m).Each φ := by
  unfold setFamily
  split_ifs
  · exact ⟨hm, h.2⟩
  · exact ⟨h.1, hm⟩

theorem each_seat (hnew : ∀ origin generation now, φ (.new origin generation now)) (addr : IpAddr)
    (origin : CandidateOrigin) (generation now : Nat) :
    (pool.seat addr origin generation now).Each φ :=
  each_setFamily h addr (Map.each_insert (each_family h addr) (hnew origin generation now))

theorem each_evictOne {origin : CandidateOrigin} {left : CandidatePool P}
    (he : pool.evictOne origin = some left) : left.Each φ := by
  obtain ⟨v, _, rfl⟩ := Option.map_eq_some_iff.mp he
  exact each_setFamily h v.1 (Map.each_erase (each_family h v.1) v.1)

theorem each_admission (hnew : ∀ origin generation now, φ (.new origin generation now))
    (hseen : ∀ c lastSeen origin, φ c → φ { c with lastSeen, origin }) (addr : IpAddr)
    (origin : CandidateOrigin) (snapshot : Option PrefixSnapshot) (generation now : Nat)
    (hourlyBudget : Option Nat) :
    (pool.admission addr origin snapshot generation now hourlyBudget).1.Each φ := by
  unfold admission
  split
  · exact h
  · split
    · exact h
    · split
      · exact h
      · split
        · rename_i existing hl
          have hold := each_family h addr addr existing hl
          exact each_setFamily h addr
            (Map.each_insert (each_family h addr) (hseen existing _ _ hold))
        · have hopened : (if hourlyBudget.isSome then pool.openHour now else pool).Each φ := by
            unfold openHour
            split_ifs
            all_goals exact h
          generalize (if hourlyBudget.isSome then pool.openHour now else pool) = opened at hopened
          simp only
          split
          · exact hopened
          · split
            · exact each_seat hopened hnew _ _ _ _
            · split
              · exact hopened
              · rename_i left he
                exact each_seat (each_evictOne hopened he) hnew _ _ _ _

theorem each_recordStage (addr : IpAddr) (stage : CandidateStage) (success : Bool) (now : Nat)
    (p : P) (hnew : ∀ c d : PoolCandidate P, φ c → d.evidence = p :: c.evidence → φ d) :
    (pool.recordStage addr stage success now p).Each φ := by
  unfold recordStage
  split
  · exact h
  · rename_i c hl
    have hold := each_family h addr addr c hl
    refine each_setFamily h addr (Map.each_insert (each_family h addr) (hnew c _ hold ?_))
    split
    · rfl
    · rfl

theorem each_revalidate (snapshot : PrefixSnapshot) : (pool.revalidate snapshot).Each φ :=
  ⟨Map.each_retain h.1 _, Map.each_retain h.2 _⟩

end

theorem each_onGenerationChange {generation : Nat}
    (h : ∀ c : PoolCandidate P, φ (c.reset generation)) :
    (pool.onGenerationChange generation).Each φ :=
  ⟨Map.each_mapValues h, Map.each_mapValues h⟩

end Members

end CandidatePool

end EgressDns
