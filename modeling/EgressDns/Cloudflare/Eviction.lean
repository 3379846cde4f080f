import EgressDns.Cloudflare.Pool

/-!
# Who is in the pool, and who has to leave

The members of the candidate pool along any sequence of its operations: how many there are, which
admission each of them owes its place to, and whom a newcomer puts out when the pool is full.
-/

namespace EgressDns

open Lib

structure Bid where
  addr : IpAddr
  origin : CandidateOrigin
  snapshot : Option PrefixSnapshot
  generation : Nat
  now : Nat
  hourlyBudget : Option Nat

def Bid.Proper (bid : Bid) : Prop :=
  classifyAddr bid.addr = none ∧ ∃ s, bid.snapshot = some s ∧ s.contains bid.addr = true

inductive PoolOp (P : Type) where
  | admission (bid : Bid)
  | recordStage (addr : IpAddr) (stage : CandidateStage) (success : Bool) (now : Nat) (by_ : P)
  | revalidate (snapshot : PrefixSnapshot)
  | onGenerationChange (generation : Nat)

namespace CandidatePool

variable {P : Type} (pool : CandidatePool P)

def ask (bid : Bid) : CandidatePool P × PoolAdmission :=
  pool.admission bid.addr bid.origin bid.snapshot bid.generation bid.now bid.hourlyBudget

def after : PoolOp P → CandidatePool P
  | .admission bid => (pool.ask bid).1
  | .recordStage addr stage success now by_ => pool.recordStage addr stage success now by_
  | .revalidate snapshot => pool.revalidate snapshot
  | .onGenerationChange generation => pool.onGenerationChange generation

def replay (capacity : Nat) (ops : List (PoolOp P)) : CandidatePool P :=
  ops.foldl after (.new capacity)

def member (addr : IpAddr) : Option (PoolCandidate P) :=
  (pool.family addr).lookup addr

def total : Nat := pool.v4.entries.length + pool.v6.entries.length

structure Keyed (pool : CandidatePool P) : Prop where
  v4 : ∀ addr ∈ pool.v4, addr.isIpv4 = true
  v6 : ∀ addr ∈ pool.v6, addr.isIpv4 = false

section Members

variable {pool : CandidatePool P} {addr : IpAddr} {m : Map IpAddr (PoolCandidate P)}

theorem member_setFamily (pool : CandidatePool P) {a : IpAddr}
    (hm : a ≠ addr → m.lookup a = (pool.family addr).lookup a) :
    (pool.setFamily addr m).member a = if a = addr then m.lookup addr else pool.member a := by
  by_cases ha : a = addr
  · subst ha
    rw [if_pos rfl, member, family_setFamily]
  · have hsame := hm ha
    rw [if_neg ha]
    unfold member
    unfold family setFamily at *
    split_ifs at hsame ⊢
    all_goals first | rfl | exact hsame

theorem member_insert (pool : CandidatePool P) (addr a : IpAddr) (c : PoolCandidate P) :
    (pool.setFamily addr ((pool.family addr).insert addr c)).member a =
      if a = addr then some c else pool.member a := by
  rw [member_setFamily pool AList.lookup_insert_ne, AList.lookup_insert]

theorem member_erase (pool : CandidatePool P) (addr a : IpAddr) :
    (pool.setFamily addr ((pool.family addr).erase addr)).member a =
      if a = addr then none else pool.member a := by
  rw [member_setFamily pool AList.lookup_erase_ne, AList.lookup_erase]

theorem total_setFamily (pool : CandidatePool P) (addr : IpAddr)
    (m : Map IpAddr (PoolCandidate P)) :
    (pool.setFamily addr m).total + (pool.family addr).entries.length =
      pool.total + m.entries.length := by
  unfold total family setFamily
  split_ifs
  all_goals
    simp only
    omega

@[simp] theorem capacity_setFamily (pool : CandidatePool P) (addr : IpAddr)
    (m : Map IpAddr (PoolCandidate P)) :
    (pool.setFamily addr m).capacity = pool.capacity := by
  unfold setFamily
  split_ifs <;> rfl

theorem Keyed.setFamily (h : pool.Keyed) (addr : IpAddr)
    (hm : ∀ a ∈ m, a = addr ∨ a ∈ pool.family addr) : (pool.setFamily addr m).Keyed := by
  unfold CandidatePool.setFamily
  unfold family at hm
  split_ifs at hm ⊢ with hfamily
  · refine ⟨?_, h.v6⟩
    intro a ha
    rcases hm a ha with rfl | hold
    · exact hfamily
    · exact h.v4 a hold
  · refine ⟨h.v4, ?_⟩
    intro a ha
    rcases hm a ha with rfl | hold
    · exact Bool.eq_false_iff.mpr hfamily
    · exact h.v6 a hold

theorem Keyed.insert (h : pool.Keyed) (addr : IpAddr) (c : PoolCandidate P) :
    (pool.setFamily addr ((pool.family addr).insert addr c)).Keyed :=
  h.setFamily addr fun _ ha => (AList.mem_insert _).mp ha

theorem Keyed.erase (h : pool.Keyed) (addr : IpAddr) :
    (pool.setFamily addr ((pool.family addr).erase addr)).Keyed :=
  h.setFamily addr fun _ ha => .inr (AList.mem_erase.mp ha).2

theorem mem_entries_iff (h : pool.Keyed) (addr : IpAddr) (c : PoolCandidate P) :
    (⟨addr, c⟩ : Sigma fun _ : IpAddr => PoolCandidate P) ∈ pool.v4.entries ++ pool.v6.entries ↔
      pool.member addr = some c := by
  have h4 : ⟨addr, c⟩ ∈ pool.v4.entries ↔ pool.v4.lookup addr = some c :=
    AList.mem_lookup_iff.symm
  have h6 : ⟨addr, c⟩ ∈ pool.v6.entries ↔ pool.v6.lookup addr = some c :=
    AList.mem_lookup_iff.symm
  rw [List.mem_append, h4, h6]
  unfold member family
  split_ifs with hfamily
  · rw [or_iff_left]
    intro hlookup
    have hmem : addr ∈ pool.v6 := AList.lookup_isSome.mp (by rw [hlookup]; rfl)
    exact absurd (h.v6 addr hmem) (by simp [hfamily])
  · rw [or_iff_right]
    intro hlookup
    have hmem : addr ∈ pool.v4 := AList.lookup_isSome.mp (by rw [hlookup]; rfl)
    exact absurd (h.v4 addr hmem) (by simp [hfamily])

end Members

section Victim

def Spared (incoming : CandidateOrigin) (c : PoolCandidate P) : Prop :=
  c.origin.priority ≤ incoming.priority ∧ c.stage ≠ .new

variable {pool : CandidatePool P} {incoming : CandidateOrigin}

def victimStep (incoming : CandidateOrigin) (best : Option (IpAddr × Nat × Nat))
    (e : Sigma fun _ : IpAddr => PoolCandidate P) : Option (IpAddr × Nat × Nat) :=
  if e.2.origin.priority ≤ incoming.priority ∧ e.2.stage ≠ .new then best
  else
    match best with
    | none => some (e.1, e.2.origin.priority, e.2.lastSeen)
    | some (_, priority, seen) =>
      if priority < e.2.origin.priority ∨
          (e.2.origin.priority = priority ∧ e.2.lastSeen < seen) then
        some (e.1, e.2.origin.priority, e.2.lastSeen)
      else best

theorem victimStep_spec (best : Option (IpAddr × Nat × Nat))
    (e : Sigma fun _ : IpAddr => PoolCandidate P) :
    (victimStep incoming best e = best ∧
      (Spared incoming e.2 ∨ ∃ v, best = some v ∧ e.2.origin.priority ≤ v.2.1)) ∨
    (victimStep incoming best e = some (e.1, e.2.origin.priority, e.2.lastSeen) ∧
      ¬ Spared incoming e.2 ∧ ∀ v, best = some v → v.2.1 ≤ e.2.origin.priority) := by
  unfold victimStep
  by_cases hspared : e.2.origin.priority ≤ incoming.priority ∧ e.2.stage ≠ .new
  · exact .inl ⟨if_pos hspared, .inl hspared⟩
  · rw [if_neg hspared]
    cases best with
    | none => exact .inr ⟨rfl, hspared, fun v hv => nomatch hv⟩
    | some v =>
      obtain ⟨a, priority, seen⟩ := v
      simp only
      split_ifs with hbetter
      · refine .inr ⟨rfl, hspared, ?_⟩
        intro v hv
        cases hv
        change priority ≤ _
        omega
      · refine .inl ⟨rfl, .inr ⟨_, rfl, ?_⟩⟩
        change _ ≤ priority
        omega

theorem foldl_victimStep (entries : List (Sigma fun _ : IpAddr => PoolCandidate P))
    (best : Option (IpAddr × Nat × Nat)) :
    (entries.foldl (victimStep incoming) best = none →
      best = none ∧ ∀ e ∈ entries, Spared incoming e.2) ∧
    ∀ v, entries.foldl (victimStep incoming) best = some v →
      (best = some v ∨ ∃ e ∈ entries, ¬ Spared incoming e.2 ∧ e.1 = v.1 ∧
        e.2.origin.priority = v.2.1) ∧
      (∀ b, best = some b → b.2.1 ≤ v.2.1) ∧
      ∀ e ∈ entries, Spared incoming e.2 ∨ e.2.origin.priority ≤ v.2.1 := by
  induction entries generalizing best with
  | nil =>
    refine ⟨fun hnone => ⟨hnone, fun e he => (List.not_mem_nil he).elim⟩, ?_⟩
    intro v hv
    refine ⟨.inl hv, ?_, fun e he => (List.not_mem_nil he).elim⟩
    intro b hb
    cases hb.symm.trans hv
    exact Nat.le_refl _
  | cons e entries ih =>
    rw [List.foldl_cons]
    obtain ⟨hnone, hsome⟩ := ih (victimStep incoming best e)
    constructor
    · intro h
      obtain ⟨hbest, hall⟩ := hnone h
      rcases victimStep_spec best e with ⟨hkept, hwhy⟩ | ⟨htaken, -, -⟩
      · rw [hkept] at hbest
        refine ⟨hbest, List.forall_mem_cons.mpr ⟨?_, hall⟩⟩
        rcases hwhy with hspared | ⟨v, hv, -⟩
        · exact hspared
        · cases hbest.symm.trans hv
      · cases htaken.symm.trans hbest
    · intro v hv
      obtain ⟨hfrom, habove, hall⟩ := hsome v hv
      rcases victimStep_spec best e with ⟨hkept, hwhy⟩ | ⟨htaken, hup, hweaker⟩
      · rw [hkept] at hfrom habove
        refine ⟨?_, habove, List.forall_mem_cons.mpr ⟨?_, hall⟩⟩
        · rcases hfrom with hbest | ⟨e', he', h'⟩
          · exact .inl hbest
          · exact .inr ⟨e', List.mem_cons_of_mem _ he', h'⟩
        · rcases hwhy with hspared | ⟨b, hb, hle⟩
          · exact .inl hspared
          · exact .inr (hle.trans (habove b hb))
      · have hself : e.2.origin.priority ≤ v.2.1 := habove _ htaken
        refine ⟨?_, ?_, List.forall_mem_cons.mpr ⟨.inr hself, hall⟩⟩
        · rcases hfrom with hbest | ⟨e', he', h'⟩
          · cases htaken.symm.trans hbest
            exact .inr ⟨e, List.mem_cons_self, hup, rfl, rfl⟩
          · exact .inr ⟨e', List.mem_cons_of_mem _ he', h'⟩
        · intro b hb
          exact (hweaker b hb).trans hself

/-- Nobody can go, or one goes that is up for eviction and than whom none of those is weaker. -/
theorem evictOne_cases (h : pool.Keyed) (incoming : CandidateOrigin) :
    (pool.evictOne incoming = none ∧ ∀ a c, pool.member a = some c → Spared incoming c) ∨
    ∃ a c, pool.member a = some c ∧ ¬ Spared incoming c ∧
      (∀ b d, pool.member b = some d → Spared incoming d ∨ d.origin.priority ≤ c.origin.priority) ∧
      pool.evictOne incoming = some (pool.setFamily a ((pool.family a).erase a)) := by
  have hscan : pool.victim incoming =
      (pool.v4.entries ++ pool.v6.entries).foldl (victimStep incoming) none := rfl
  obtain ⟨hnone, hsome⟩ := foldl_victimStep
    (pool.v4.entries ++ pool.v6.entries) none
  cases hv : pool.victim incoming with
  | none =>
    refine .inl ⟨by rw [evictOne, hv]; rfl, ?_⟩
    intro a c hc
    exact (hnone hv).2 ⟨a, c⟩ ((mem_entries_iff h a c).mpr hc)
  | some v =>
    obtain ⟨hfrom, -, hall⟩ := hsome v hv
    rcases hfrom with hbest | ⟨⟨a, c⟩, he, hup, ha, hpriority⟩
    · cases hbest
    · refine .inr ⟨a, c, (mem_entries_iff h a c).mp he, hup, ?_, ?_⟩
      · intro b d hd
        have hd' := hall ⟨b, d⟩ ((mem_entries_iff h b d).mpr hd)
        rwa [← hpriority] at hd'
      · rw [evictOne, hv, Option.map_some, ← ha]

end Victim

section Admission

variable {pool : CandidatePool P} {bid : Bid}

def opened (pool : CandidatePool P) (bid : Bid) : CandidatePool P :=
  if bid.hourlyBudget.isSome then pool.openHour bid.now else pool

def seated (pool : CandidatePool P) (bid : Bid) : CandidatePool P :=
  pool.seat bid.addr bid.origin bid.generation bid.now

theorem opened_eq (pool : CandidatePool P) (bid : Bid) :
    pool.opened bid =
      { pool with
        hourStarted := (pool.opened bid).hourStarted
        admittedThisHour := (pool.opened bid).admittedThisHour } := by
  unfold opened openHour
  split_ifs <;> rfl

@[simp] theorem opened_v4 : (pool.opened bid).v4 = pool.v4 := by rw [opened_eq]

@[simp] theorem opened_v6 : (pool.opened bid).v6 = pool.v6 := by rw [opened_eq]

@[simp] theorem opened_capacity : (pool.opened bid).capacity = pool.capacity := by
  rw [opened_eq]

structure Newcomer (pool : CandidatePool P) (bid : Bid) : Prop where
  proper : bid.Proper
  fresh : pool.member bid.addr = none
  budget : (bid.hourlyBudget.any fun budget =>
    decide (budget ≤ (pool.opened bid).admittedThisHour)) = false

structure SameMembers (pool left : CandidatePool P) : Prop where
  v4 : left.v4 = pool.v4
  v6 : left.v6 = pool.v6
  capacity : left.capacity = pool.capacity

namespace SameMembers

variable {left : CandidatePool P} (h : pool.SameMembers left)
include h

theorem member (a : IpAddr) : left.member a = pool.member a := by
  unfold CandidatePool.member family
  rw [h.v4, h.v6]

theorem total : left.total = pool.total := by
  unfold CandidatePool.total
  rw [h.v4, h.v6]

theorem keyed (hkeyed : pool.Keyed) : left.Keyed :=
  ⟨by rw [h.v4]; exact hkeyed.v4, by rw [h.v6]; exact hkeyed.v6⟩

end SameMembers

theorem sameMembers_opened : pool.SameMembers (pool.opened bid) :=
  ⟨opened_v4, opened_v6, opened_capacity⟩

@[simp] theorem opened_member (a : IpAddr) : (pool.opened bid).member a = pool.member a :=
  sameMembers_opened.member a

@[simp] theorem opened_total : (pool.opened bid).total = pool.total := sameMembers_opened.total

theorem ask_cases (pool : CandidatePool P) (bid : Bid) :
    (∃ reason left, pool.ask bid = (left, .rejected reason) ∧ reason ≠ .poolFull ∧
      pool.SameMembers left ∧ ¬ pool.Newcomer bid) ∨
    (∃ c c', pool.member bid.addr = some c ∧ pool.ask bid =
      (pool.setFamily bid.addr ((pool.family bid.addr).insert bid.addr c'), .refreshed)) ∨
    (pool.Newcomer bid ∧
      ((pool.total < pool.capacity ∧ pool.ask bid = ((pool.opened bid).seated bid, .added)) ∨
      (pool.capacity ≤ pool.total ∧ (pool.opened bid).evictOne bid.origin = none ∧
        pool.ask bid = (pool.opened bid, .rejected .poolFull)) ∨
      ∃ left, pool.capacity ≤ pool.total ∧ (pool.opened bid).evictOne bid.origin = some left ∧
        pool.ask bid = (left.seated bid, .added))) := by
  have hopened : (if bid.hourlyBudget.isSome then pool.openHour bid.now else pool) =
      pool.opened bid := rfl
  unfold ask admission
  cases hclass : classifyAddr bid.addr with
  | some cls =>
    refine .inl ⟨.specialUse, pool, rfl, by decide, ⟨rfl, rfl, rfl⟩, ?_⟩
    intro hn
    cases hn.proper.1.symm.trans hclass
  | none =>
    cases hsnapshot : bid.snapshot with
    | none =>
      refine .inl ⟨.noSnapshot, pool, rfl, by decide, ⟨rfl, rfl, rfl⟩, ?_⟩
      rintro ⟨⟨-, s, hs, -⟩, -, -⟩
      cases hsnapshot.symm.trans hs
    | some s =>
      cases hin : s.contains bid.addr with
      | false =>
        refine .inl ⟨.notOfficialPrefix, pool, by simp [hin], by decide, ⟨rfl, rfl, rfl⟩, ?_⟩
        rintro ⟨⟨-, s', hs, hin'⟩, -, -⟩
        cases hsnapshot.symm.trans hs
        cases hin.symm.trans hin'
      | true =>
        cases hmember : (pool.family bid.addr).lookup bid.addr with
        | some c =>
          refine .inr (.inl ⟨c,
            { c with
              lastSeen := bid.now
              origin := if bid.origin.priority < c.origin.priority then bid.origin
                else c.origin },
            hmember, ?_⟩)
          simp [hin]
        | none =>
          simp only [Option.isSome_none, Bool.false_eq_true, if_false, hin, Bool.not_true,
            hopened]
          cases hbudget : bid.hourlyBudget.any fun budget =>
              decide (budget ≤ (pool.opened bid).admittedThisHour) with
          | true =>
            refine .inl ⟨.budgetExhausted, _, rfl, by decide, sameMembers_opened, ?_⟩
            intro hn
            cases hn.budget.symm.trans hbudget
          | false =>
            refine .inr (.inr ⟨⟨⟨hclass, s, hsnapshot, hin⟩, hmember, hbudget⟩, ?_⟩)
            simp only [Bool.false_eq_true, if_false, opened_v4, opened_v6, opened_capacity]
            by_cases hroom : pool.v4.entries.length + pool.v6.entries.length < pool.capacity
            · exact .inl ⟨hroom, if_pos hroom⟩
            · have hfull : pool.capacity ≤ pool.total := Nat.le_of_not_lt hroom
              rw [if_neg hroom]
              cases hevict : (pool.opened bid).evictOne bid.origin with
              | none => exact .inr (.inl ⟨hfull, rfl, rfl⟩)
              | some left => exact .inr (.inr ⟨left, hfull, rfl, rfl⟩)

end Admission

section Operations

variable {pool left : CandidatePool P} {addr : IpAddr} {bid : Bid}

theorem member_seated (pool : CandidatePool P) (bid : Bid) (a : IpAddr) :
    (pool.seated bid).member a =
      if a = bid.addr then some (.new bid.origin bid.generation bid.now) else pool.member a :=
  member_insert pool bid.addr a _

theorem total_seated_le (pool : CandidatePool P) (bid : Bid) :
    (pool.seated bid).total ≤ pool.total + 1 := by
  have hgrow := Map.length_insert_le (pool.family bid.addr) bid.addr
    (.new bid.origin bid.generation bid.now : PoolCandidate P)
  have htotal := pool.total_setFamily bid.addr
    ((pool.family bid.addr).insert bid.addr (.new bid.origin bid.generation bid.now))
  change (pool.setFamily bid.addr _).total ≤ _
  omega

variable {c : PoolCandidate P} {op : PoolOp P}

theorem total_insert (h : pool.member addr = some c) (c' : PoolCandidate P) :
    (pool.setFamily addr ((pool.family addr).insert addr c')).total = pool.total := by
  have hmem : addr ∈ pool.family addr := AList.lookup_isSome.mp (by rw [← member, h]; rfl)
  have htotal := pool.total_setFamily addr ((pool.family addr).insert addr c')
  have hsame := Map.length_insert_of_mem hmem c'
  omega

theorem total_erase_lt (h : pool.member addr = some c) :
    (pool.setFamily addr ((pool.family addr).erase addr)).total < pool.total := by
  have hmem : addr ∈ pool.family addr := AList.lookup_isSome.mp (by rw [← member, h]; rfl)
  have htotal := pool.total_setFamily addr ((pool.family addr).erase addr)
  have hless := Map.length_erase_lt hmem
  omega

theorem recordStage_cases (pool : CandidatePool P) (addr : IpAddr) (stage : CandidateStage)
    (success : Bool) (now : Nat) (p : P) :
    pool.recordStage addr stage success now p = pool ∨
    ∃ c c', pool.member addr = some c ∧ pool.recordStage addr stage success now p =
      pool.setFamily addr ((pool.family addr).insert addr c') := by
  unfold recordStage
  cases hc : (pool.family addr).lookup addr with
  | none => exact .inl rfl
  | some c => exact .inr ⟨c, _, hc, rfl⟩

theorem member_revalidate (pool : CandidatePool P) (snapshot : PrefixSnapshot) (a : IpAddr) :
    (pool.revalidate snapshot).member a =
      (pool.member a).filter fun _ => snapshot.contains a := by
  unfold member family revalidate
  split_ifs
  all_goals exact Map.lookup_retain _ _ a

theorem member_onGenerationChange (pool : CandidatePool P) (generation : Nat) (a : IpAddr) :
    (pool.onGenerationChange generation).member a =
      (pool.member a).map fun c => c.reset generation := by
  unfold member family onGenerationChange
  split_ifs
  all_goals exact Map.lookup_mapValues _ _ a

/-- Every operation keeps the capacity and the families, and only an admission adds a member. -/
structure Step (pool : CandidatePool P) (op : PoolOp P) (next : CandidatePool P) : Prop where
  capacity : next.capacity = pool.capacity
  keyed : next.Keyed
  within : pool.total ≤ pool.capacity → next.total ≤ pool.capacity
  members : ∀ a c, next.member a = some c → (∃ c', pool.member a = some c') ∨
    ∃ bid, op = .admission bid ∧ bid.addr = a ∧ (pool.ask bid).2 = .added ∧ bid.Proper

theorem step_insert (h : pool.Keyed) (hc : pool.member addr = some c) (c' : PoolCandidate P) :
    Step pool op (pool.setFamily addr ((pool.family addr).insert addr c')) where
  capacity := capacity_setFamily pool addr _
  keyed := h.insert addr c'
  within hle := (total_insert hc c').symm ▸ hle
  members a d hd := by
    rw [member_insert] at hd
    split_ifs at hd with ha
    · exact .inl ⟨c, ha ▸ hc⟩
    · exact .inl ⟨d, hd⟩

theorem step_same (h : pool.Keyed) (hsame : pool.SameMembers left) :
    Step pool op left where
  capacity := hsame.capacity
  keyed := hsame.keyed h
  within hle := hsame.total.trans_le hle
  members a c hc := .inl ⟨c, (hsame.member a).symm.trans hc⟩

theorem step_seated (hkeyed : left.Keyed) (hcapacity : left.capacity = pool.capacity)
    (hroom : pool.total ≤ pool.capacity → left.total < pool.capacity)
    (hold : ∀ a c, left.member a = some c → pool.member a = some c)
    (hnew : pool.Newcomer bid) (hadded : (pool.ask bid).2 = .added) :
    Step pool (.admission bid) (left.seated bid) where
  capacity := (capacity_setFamily left bid.addr _).trans hcapacity
  keyed := ⟨(hkeyed.insert bid.addr _).v4, (hkeyed.insert bid.addr _).v6⟩
  within hle := (total_seated_le left bid).trans (hroom hle)
  members a c hc := by
    rw [member_seated] at hc
    split_ifs at hc with ha
    · exact .inr ⟨bid, rfl, ha.symm, hadded, hnew.proper⟩
    · exact .inl ⟨c, hold a c hc⟩

theorem step_after (h : pool.Keyed) (op : PoolOp P) : Step pool op (pool.after op) := by
  cases op with
  | admission bid =>
    change Step pool _ (pool.ask bid).1
    have hopened : (pool.opened bid).Keyed := sameMembers_opened.keyed h
    rcases pool.ask_cases bid with
      ⟨reason, left, hr, -, hsame, -⟩ | ⟨c, c', hc, hr⟩ |
        ⟨hnew, ⟨hroom, hr⟩ | ⟨-, -, hr⟩ | ⟨left, hfull, hevict, hr⟩⟩
    · rw [hr]
      exact step_same h hsame
    · rw [hr]
      exact step_insert h hc c'
    · have hadded := congrArg Prod.snd hr
      rw [hr]
      exact step_seated hopened opened_capacity (fun _ => by rwa [opened_total])
        (fun a c hc => (opened_member a).symm.trans hc) hnew hadded
    · rw [hr]
      exact step_same h sameMembers_opened
    · have hadded := congrArg Prod.snd hr
      rw [hr]
      rcases evictOne_cases hopened bid.origin with ⟨hnone, -⟩ | ⟨a, c, hc, -, -, hleft⟩
      · cases hnone.symm.trans hevict
      · cases hleft.symm.trans hevict
        refine step_seated (hopened.erase a) ?_ ?_ ?_ hnew hadded
        · rw [capacity_setFamily, opened_capacity]
        · intro hle
          have hless := total_erase_lt hc
          rw [opened_total] at hless
          omega
        · intro b d hd
          rw [member_erase] at hd
          split_ifs at hd
          rwa [opened_member] at hd
  | recordStage addr stage success now p =>
    change Step pool _ (pool.recordStage addr stage success now p)
    rcases pool.recordStage_cases addr stage success now p with hr | ⟨c, c', hc, hr⟩
    · rw [hr]
      exact step_same h ⟨rfl, rfl, rfl⟩
    · rw [hr]
      exact step_insert h hc c'
  | revalidate snapshot =>
    refine ⟨rfl, ⟨?_, ?_⟩, ?_, ?_⟩
    · intro a ha
      exact h.v4 a (Map.mem_of_mem_retain ha)
    · intro a ha
      exact h.v6 a (Map.mem_of_mem_retain ha)
    · intro hle
      have h4 := Map.length_retain_le (fun a _ => snapshot.contains a) pool.v4
      have h6 := Map.length_retain_le (fun a _ => snapshot.contains a) pool.v6
      exact (Nat.add_le_add h4 h6).trans hle
    · intro a c hc
      change (pool.revalidate snapshot).member a = some c at hc
      rw [member_revalidate] at hc
      exact .inl ⟨c, (Option.filter_eq_some_iff.mp hc).1⟩
  | onGenerationChange generation =>
    refine ⟨rfl, ⟨?_, ?_⟩, ?_, ?_⟩
    · intro a ha
      exact h.v4 a (Map.mem_mapValues.mp ha)
    · intro a ha
      exact h.v6 a (Map.mem_mapValues.mp ha)
    · intro hle
      change (pool.v4.mapValues _).entries.length + (pool.v6.mapValues _).entries.length ≤ _
      rw [Map.length_mapValues, Map.length_mapValues]
      exact hle
    · intro a c hc
      change (pool.onGenerationChange generation).member a = some c at hc
      rw [member_onGenerationChange] at hc
      obtain ⟨c', hc', -⟩ := Option.map_eq_some_iff.mp hc
      exact .inl ⟨c', hc'⟩

end Operations

/-- An earlier operation has added the address, which was in its snapshot and not special-use. -/
def Vouched (capacity : Nat) (ops : List (PoolOp P)) (addr : IpAddr) : Prop :=
  ∃ before bid after, ops = before ++ .admission bid :: after ∧ bid.addr = addr ∧
    ((replay capacity before).ask bid).2 = .added ∧ bid.Proper

structure Replayed (capacity : Nat) (ops : List (PoolOp P)) : Prop where
  size : (replay capacity ops).capacity = max capacity 1
  keyed : (replay capacity ops).Keyed
  within : (replay capacity ops).total ≤ max capacity 1
  vouched : ∀ a c, (replay capacity ops).member a = some c → Vouched capacity ops a

theorem replayed (capacity : Nat) (ops : List (PoolOp P)) : Replayed capacity ops := by
  induction ops using List.reverseRecOn with
  | nil =>
    refine ⟨rfl, ⟨?_, ?_⟩, Nat.zero_le _, ?_⟩
    · exact fun a ha => (AList.notMem_empty a ha).elim
    · exact fun a ha => (AList.notMem_empty a ha).elim
    · intro a c hc
      unfold member family at hc
      split_ifs at hc <;> cases hc
  | append_singleton ops op ih =>
    have hnext : replay capacity (ops ++ [op]) = (replay capacity ops).after op :=
      List.foldl_concat _ _ _ _
    have hstep := step_after ih.keyed op
    rw [← hnext] at hstep
    refine ⟨hstep.capacity.trans ih.size, hstep.keyed, ?_, ?_⟩
    · have hle := hstep.within (ih.size.symm ▸ ih.within)
      rwa [ih.size] at hle
    · intro a c hc
      rcases hstep.members a c hc with ⟨c', hc'⟩ | ⟨bid, rfl, hadded⟩
      · obtain ⟨before, bid, after, rfl, h⟩ := ih.vouched a c' hc'
        exact ⟨before, bid, after ++ [op], by simp, h⟩
      · exact ⟨ops, bid, [], rfl, hadded⟩

/-- What admission does to the members of a pool, as the documents have it: only a member weaker
than the newcomer is put out, and none that stays is weaker still; without such a member a newcomer
to a full pool is refused, and a refusal changes nothing. -/
structure EvictsByPriority (pool : CandidatePool P) (bid : Bid)
    (r : CandidatePool P × PoolAdmission) : Prop where
  weaker : ∀ a c, pool.member a = some c → r.1.member a = none →
    bid.origin.priority < c.origin.priority ∧
      ∀ b d, b ≠ bid.addr → r.1.member b = some d → d.origin.priority ≤ c.origin.priority
  otherwise : pool.Newcomer bid → pool.capacity ≤ pool.total →
    (∀ a c, pool.member a = some c → c.origin.priority ≤ bid.origin.priority) →
      r.2 = .rejected .poolFull
  refused : r.2 = .rejected .poolFull → pool.SameMembers r.1

section Priority

variable {pool : CandidatePool P} {bid : Bid}

/-- The pool is full, nobody in it is weaker than the newcomer, and somebody was never probed. -/
structure Cornered (pool : CandidatePool P) (bid : Bid) : Prop where
  newcomer : pool.Newcomer bid
  full : pool.capacity ≤ pool.total
  none_weaker : ∀ a c, pool.member a = some c → c.origin.priority ≤ bid.origin.priority
  unprobed : ∃ a c, pool.member a = some c ∧ c.stage = .new

theorem evictsByPriority_of_grown {left : CandidatePool P} {outcome : PoolAdmission}
    (hr : pool.ask bid = (left, outcome)) (houtcome : outcome ≠ .rejected .poolFull)
    (hkept : ∀ a c, pool.member a = some c → left.member a ≠ none)
    (hfree : pool.Newcomer bid → ¬ pool.capacity ≤ pool.total) :
    EvictsByPriority pool bid (pool.ask bid) ↔ ¬ pool.Cornered bid := by
  rw [hr]
  refine iff_of_true ⟨?_, ?_, ?_⟩ fun hcorner => hfree hcorner.newcomer hcorner.full
  · intro a c hc hgone
    exact absurd hgone (hkept a c hc)
  · intro hn hf _
    exact absurd hf (hfree hn)
  · intro hfull
    exact absurd hfull houtcome

theorem weaker_of_not_cornered {c : PoolCandidate P} {a : IpAddr}
    (hnew : pool.Newcomer bid) (hfull : pool.capacity ≤ pool.total)
    (hc : pool.member a = some c) (hup : ¬ Spared bid.origin c)
    (hall : ∀ b d, pool.member b = some d →
      Spared bid.origin d ∨ d.origin.priority ≤ c.origin.priority)
    (hfree : ¬ pool.Cornered bid) :
    bid.origin.priority < c.origin.priority := by
  by_contra hle
  have hstage : c.stage = .new := by
    by_contra hstage
    exact hup ⟨Nat.le_of_not_lt hle, hstage⟩
  refine hfree ⟨hnew, hfull, ?_, a, c, hc, hstage⟩
  intro b d hd
  rcases hall b d hd with hspared | hbelow
  · exact hspared.1
  · exact hbelow.trans (Nat.le_of_not_lt hle)

/-- The three promises are kept unless the newcomer has to push out somebody of its own rank or
above, and then the first two are broken. -/
theorem evictsByPriority_ask_iff (h : pool.Keyed) :
    EvictsByPriority pool bid (pool.ask bid) ↔ ¬ pool.Cornered bid := by
  have hopened : (pool.opened bid).Keyed := sameMembers_opened.keyed h
  rcases pool.ask_cases bid with
    ⟨reason, left, hr, hreason, hsame, hnot⟩ | ⟨c, c', hc, hr⟩ |
      ⟨hnew, ⟨hroom, hr⟩ | ⟨hfull, hevict, hr⟩ | ⟨left, hfull, hevict, hr⟩⟩
  · refine evictsByPriority_of_grown hr ?_ ?_ fun hn => absurd hn hnot
    · intro hfull
      cases hfull
      exact absurd rfl hreason
    · intro a d hd
      rw [hsame.member, hd]
      exact Option.some_ne_none d
  · refine evictsByPriority_of_grown hr nofun ?_ fun hn => by cases hn.fresh.symm.trans hc
    intro a d hd
    rw [member_insert]
    split_ifs
    · exact Option.some_ne_none _
    · rw [hd]
      exact Option.some_ne_none d
  · refine evictsByPriority_of_grown hr nofun ?_ fun _ => Nat.not_le_of_lt hroom
    intro a d hd
    rw [member_seated]
    split_ifs
    · exact Option.some_ne_none _
    · rw [opened_member, hd]
      exact Option.some_ne_none d
  · rcases evictOne_cases hopened bid.origin with ⟨-, hspared⟩ | ⟨a, c, -, -, -, hsome⟩
    · rw [hr]
      refine iff_of_true ⟨?_, fun _ _ _ => rfl, fun _ => sameMembers_opened⟩ ?_
      · intro a d hd hgone
        rw [opened_member, hd] at hgone
        cases hgone
      · rintro ⟨-, -, -, a, c, hc, hstage⟩
        exact (hspared a c ((opened_member a).trans hc)).2 hstage
    · cases hevict.symm.trans hsome
  · rcases evictOne_cases hopened bid.origin with ⟨hnone, -⟩ | ⟨a, c, hc, hup, hall, hsome⟩
    · cases hnone.symm.trans hevict
    · cases hsome.symm.trans hevict
      rw [opened_member] at hc
      have hall' : ∀ b d, pool.member b = some d →
          Spared bid.origin d ∨ d.origin.priority ≤ c.origin.priority := fun b d hd =>
        hall b d ((opened_member b).trans hd)
      rw [hr]
      constructor
      · intro hevicts hcorner
        cases hevicts.otherwise hnew hfull hcorner.none_weaker
      · intro hfree
        have hweaker := weaker_of_not_cornered hnew hfull hc hup hall' hfree
        refine ⟨?_, ?_, fun hrefused => by cases hrefused⟩
        · intro b d hd hgone
          rw [member_seated, member_erase, opened_member] at hgone
          have hb : b = a := by
            by_contra hb
            rw [if_neg hb, hd] at hgone
            split_ifs at hgone
          subst hb
          cases hc.symm.trans hd
          refine ⟨hweaker, ?_⟩
          intro b' d' hb' hd'
          rw [member_seated, if_neg hb', member_erase, opened_member] at hd'
          split_ifs at hd'
          rcases hall' b' d' hd' with hspared | hle
          · exact hspared.1.trans (Nat.le_of_lt hweaker)
          · exact hle
        · intro _ _ hnone
          exact absurd (hnone a c hc) (Nat.not_le_of_lt hweaker)

end Priority

/-- After any operations the pool is within its capacity and everybody in it has been vouched for.
The next admission evicts by priority unless the pool is full, nobody in it is weaker than the
newcomer and somebody in it was never probed. -/
theorem evicts_by_priority_iff (capacity : Nat) (ops : List (PoolOp P)) (bid : Bid) :
    (replay capacity ops).total ≤ max capacity 1 ∧
    (∀ a c, (replay capacity ops).member a = some c → Vouched capacity ops a) ∧
    (EvictsByPriority (replay capacity ops) bid ((replay capacity ops).ask bid) ↔
      ¬ (replay capacity ops).Cornered bid) :=
  have hreplayed := replayed capacity ops
  ⟨hreplayed.within, hreplayed.vouched, evictsByPriority_ask_iff hreplayed.keyed⟩

def oneBlock : PrefixSnapshot := { v4Masks := [(0x68100000, 0xfff80000)], v6Masks := [] }

def onePlace : CandidatePool Unit :=
  replay 1 [.admission ⟨.v4 0x68100001, .dnsAnswer, some oneBlock, 1, 0, none⟩]

/-- The address out of an answer is put out by a sampled one. -/
theorem answer_evicted_by_sample :
    onePlace.member (.v4 0x68100001) = some (.new .dnsAnswer 1 0) ∧
    (onePlace.ask ⟨.v4 0x68100002, .sampling, some oneBlock, 1, 1, none⟩).2 = .added ∧
    (onePlace.ask ⟨.v4 0x68100002, .sampling, some oneBlock, 1, 1, none⟩).1.member
      (.v4 0x68100001) = none ∧
    CandidateOrigin.dnsAnswer.priority < CandidateOrigin.sampling.priority := by
  decide

end CandidatePool

end EgressDns
