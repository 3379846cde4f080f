import EgressDns.Resolver.Watch

/-!
# When an expired answer is served

A client that is denied a refresh is answered with the expired entry at once. If the refresh that
suppresses its own was started after the entry expired, no operation of the key has succeeded since
and the client response timer has run, then that refresh has failed or is still going, and the
client could not have been served better.
-/

namespace EgressDns.System

open Lib

variable {hk : Hickory}

section Attempts

def SucceededSince (g : Watch) (key : CacheKey) (since : Nat) : Prop :=
  ∃ last, g.succeeded key = some last ∧ since ≤ last

def ExpiredAt (entry : CacheEntry) (time : Nat) : Prop :=
  entry.receivedAt ≤ time ∧ entry.remainingTtl time = 0

def Task.refreshing (t : Task hk) : Bool :=
  match t.role with
  | .refresh _ => t.stage.hasFailed || t.stage.isPending
  | _ => false

/-- Nothing that is recorded lies in the future. -/
structure Clocked (s : Shared hk × Watch) : Prop where
  succeeded : ∀ {key last}, s.2.succeeded key = some last → last ≤ s.2.clock
  received : ∀ {key entry}, s.1.cache.answers key = some entry → entry.receivedAt ≤ s.2.clock

/-- A client waits with an entry that had expired when the refresh was started, and the refresh is
under way unless some operation of the key has succeeded. -/
structure Attempting (s : Shared hk × Watch) (x : Task hk × Watched) : Prop where
  writes : ∀ stored ∈ x.1.stage.writes, stored.entry.receivedAt ≤ s.2.clock
  waiting : ∀ {asker stored}, x.1.role = .refresh (some (asker, stored)) →
    ∃ since, x.2.attempt = some since ∧ ExpiredAt stored.entry since
  started : ∀ {since}, x.2.attempt = some since →
    (x.1.key, since) ∈ s.2.refreshes ∧ since ≤ s.2.clock
  going : ∀ {since}, x.2.attempt = some since →
    x.1.refreshing = true ∨ SucceededSince s.2 x.1.key since

/-- What a table notes was attempted by some task, unless some operation of the key has
succeeded. -/
def Backed (p : WatchState hk) : Prop :=
  ∀ {i key last}, (p.shared.2.tables i).lookup key = some last →
    (∃ j x, p.tasks j = some x ∧ x.1.key = key ∧ x.2.attempt = some last) ∨
      SucceededSince p.shared.2 key last

structure Later (g g' : Watch) : Prop where
  clock : g.clock ≤ g'.clock
  refreshes : g.refreshes ⊆ g'.refreshes
  succeeded : ∀ {key since}, SucceededSince g key since → SucceededSince g' key since

variable {x : Task hk × Watched} {s' : Shared hk × Watch} {t' u : Task hk} {stored : Stored}
  {key : CacheKey}

theorem Attempting.later {s : Shared hk × Watch} (hx : Attempting s x) (hl : Later s.2 s'.2) :
    Attempting s' x where
  writes stored hmem := (hx.writes stored hmem).trans hl.clock
  waiting hrole := hx.waiting hrole
  started ha := ⟨hl.refreshes (hx.started ha).1, (hx.started ha).2.trans hl.clock⟩
  going ha := (hx.going ha).imp_right hl.succeeded

variable {s : Shared hk} {t : Task hk} {now : Nat} {a : Action} {g : Watch} {h : Watched}
  {n : Noted (Task hk) Watch Watched} {e : Effect (Shared hk) (Task hk)}

theorem later_of_watches (hw : Watches s t now a { g with clock := now } h n)
    (hnow : g.clock ≤ now) (hpast : ∀ {key last}, g.succeeded key = some last → last ≤ g.clock) :
    Later g n.record where
  clock := hnow.trans hw.clock.ge
  refreshes := hw.refreshes
  succeeded {key since} hs := by
    obtain ⟨last, hlast, hsince⟩ := hs
    by_cases hsucceed : Succeeds t a
    · rw [SucceededSince, hw.succeeded hsucceed]
      by_cases hk : key = t.key
      · subst hk
        exact ⟨now, Function.update_self .., hsince.trans ((hpast hlast).trans hnow)⟩
      · exact ⟨last, (Function.update_of_ne hk ..).trans hlast, hsince⟩
    · rw [SucceededSince, hw.unsucceeded hsucceed]
      exact ⟨last, hlast, hsince⟩

theorem clocked_takes (hc : Clocked (s, g)) (hx : Attempting (s, g) (t, h))
    (hnow : g.clock ≤ now) (hw : Watches s t now a { g with clock := now } h n)
    (htakes : Takes s t a e) : Clocked (e.shared, n.record) where
  succeeded {key last} hlast := by
    rw [hw.clock]
    by_cases hsucceed : Succeeds t a
    · rw [hw.succeeded hsucceed] at hlast
      rcases update_eq_some hlast with ⟨_, hnew⟩ | ⟨_, hold⟩
      · exact (Option.some.inj hnew).ge
      · exact (hc.succeeded hold).trans hnow
    · rw [hw.unsucceeded hsucceed] at hlast
      exact (hc.succeeded hlast).trans hnow
  received {key entry} hentry := by
    rw [hw.clock]
    rcases htakes.answers hentry with hold | ⟨stored, hmem, rfl⟩
    · exact (hc.received hold).trans hnow
    · exact (hx.writes stored hmem).trans hnow

theorem refreshing_iff : t.refreshing = true ↔
    (∃ waiting, t.role = .refresh waiting) ∧
      (t.stage.hasFailed = true ∨ t.stage.isPending = true) := by
  unfold Task.refreshing
  split
  · rename_i waiting hrole
    simp only [hrole, Bool.or_eq_true, Role.refresh.injEq, exists_eq', true_and]
  · rename_i hrole
    simp only [Bool.false_eq_true, false_iff, not_and]
    rintro ⟨waiting, hw⟩
    exact absurd hw (hrole waiting)

theorem Takes.refreshing (htakes : Takes s t a e) (hr : t.refreshing = true) :
    ∃ t', e.next = some t' ∧ t'.key = t.key ∧ (t'.refreshing = true ∨ Succeeds t a) := by
  obtain ⟨⟨waiting, hrefresh⟩, hgoing⟩ := refreshing_iff.mp hr
  have hclient {P : Prop} {asker : Asker} (hrole : t.role = .client asker) : P := by
    cases hrefresh.symm.trans hrole
  have hpast {P : Prop} {stage : Stage} (hstage : t.stage = stage)
      (hf : stage.hasFailed = false) (hp : stage.isPending = false) : P := by
    rw [hstage, hf, hp] at hgoing
    exact (hgoing.elim nofun nofun : False).elim
  have hgoto {stage : Stage} (hstage : stage.hasFailed = true ∨ stage.isPending = true) :
      ∃ t', some (t.goto stage) = some t' ∧ t'.key = t.key ∧
        (t'.refreshing = true ∨ Succeeds t a) :=
    ⟨_, rfl, rfl, .inl (refreshing_iff.mpr ⟨⟨waiting, hrefresh⟩, hstage⟩)⟩
  cases htakes with
  | refused hrole _ _ _ | unrefused hrole _ _ | hit hrole _ _ | stale hrole _ _
  | expired hrole _ _ | missed hrole _ _ | timedOut hrole _ | streakRead hrole _ _
  | sentFailure _ _ hrole | sentEntry _ _ hrole | settled _ _ _ hrole | recorded _ _ hrole =>
    exact hclient hrole
  | followed _ _ | led _ _ | failed _ _ | received _ _ _ | made _ _ | inserted _ =>
    exact hgoto (.inr rfl)
  | shed _ _ =>
    simp only [Task.shed, hrefresh]
    exact hgoto (.inl rfl)
  | @published outcome hstage =>
    simp only [Task.conclude, hrefresh]
    cases outcome with
    | ok stored => exact ⟨_, rfl, rfl, .inr ⟨rfl, stored, hstage⟩⟩
    | error err => exact hgoto (.inl rfl)
  | cancelled _ =>
    simp only [Task.cancelled, hrefresh]
    exact hgoto (.inl rfl)
  | tookRefresh _ hstage | condemned _ hstage | judged _ _ hstage | unproved hstage
  | promoting hstage _ | unmatched hstage | evicting hstage | passedOver hstage _
  | rewritten hstage | evicted hstage => exact hpast hstage rfl rfl
  | wentStale _ =>
    exact ⟨_, rfl, rfl, .inl (refreshing_iff.mpr ⟨⟨none, rfl⟩, hgoing⟩)⟩

theorem Takes.next_writes (htakes : Takes s t a e) (ht' : e.next = some t')
    (hmem : stored ∈ t'.stage.writes) :
    stored ∈ t.stage.writes ∨ (∃ entry, s.cache.answers t.key = some entry ∧
        stored.entry.receivedAt = entry.receivedAt) ∨
      timeRead t a = some stored.entry.receivedAt := by
  cases htakes with
  | shed _ _ =>
    cases ht'
    unfold Task.shed at hmem
    split at hmem <;> cases hmem
  | @made got env vetting entry hstage hentry =>
    cases ht'
    obtain rfl := List.mem_singleton.mp hmem
    refine .inr (.inr ?_)
    simp only [timeRead, hstage, hentry]
    rfl
  | published _ =>
    cases ht'
    unfold Task.conclude at hmem
    split at hmem <;> cases hmem
  | cancelled _ =>
    unfold Effect.broadcast Task.cancelled at ht'
    split at ht' <;> cases ht'
    cases hmem
  | wentStale _ =>
    cases ht'
    exact .inl hmem
  | @promoting _ _ existing _ held =>
    cases ht'
    obtain rfl := List.mem_singleton.mp hmem
    exact .inr (.inl ⟨existing, held, rfl⟩)
  | _ => cases ht' <;> cases hmem

theorem Takes.starts (htakes : Takes s t a e) (hs : Starts s t now a) :
    ∃ asker entry staleness, s.cache.get t.key now = .stale entry staleness ∧
      t.role = .client asker ∧
      e = .stay s (some { t with role := .refresh (some (asker, s.tagged t.key entry))
                                 stage := .joining }) := by
  obtain ⟨rfl, entry, staleness, hget⟩ := hs
  cases htakes with
  | hit _ _ hfresh => cases hget.symm.trans hfresh
  | expired hrole _ hget => exact ⟨_, _, _, hget, hrole, rfl⟩
  | missed _ _ hmiss => cases hget.symm.trans hmiss

theorem Takes.next_waiting (htakes : Takes s t a e) (ht' : e.next = some t')
    {waiting : Asker × Stored} (hw : t'.role = .refresh (some waiting)) :
    t.role = .refresh (some waiting) ∨ ∃ read entry staleness, a = .lookup read true ∧
      s.cache.get t.key read = .stale entry staleness ∧ waiting.2 = s.tagged t.key entry := by
  cases htakes with
  | expired _ _ hget =>
    cases ht'
    cases hw
    exact .inr ⟨_, _, _, rfl, hget, rfl⟩
  | shed _ _ =>
    cases ht'
    unfold Task.shed at hw
    split at hw <;> exact .inl hw
  | published _ =>
    cases ht'
    unfold Task.conclude at hw
    split at hw <;> exact .inl hw
  | cancelled _ =>
    unfold Effect.broadcast Task.cancelled at ht'
    split at ht' <;> cases ht'
    exact .inl hw
  | tookRefresh _ _ | wentStale _ =>
    cases ht'
    cases hw
  | _ => cases ht' <;> exact .inl hw

theorem expiredAt_of_stale {c : DnsCache} {entry : CacheEntry} {staleness : Nat}
    (hget : c.get key now = .stale entry staleness) (hreceived : entry.receivedAt ≤ now) :
    ExpiredAt entry now := by
  refine ⟨hreceived, ?_⟩
  unfold DnsCache.get DnsCache.judge at hget
  split at hget
  · cases hget
  · split_ifs at hget with hfresh
    cases hget
    exact Nat.eq_zero_of_not_pos hfresh

theorem attempting_next (hc : Clocked (s, g)) (hx : Attempting (s, g) (t, h)) (hnow : g.clock ≤ now)
    (htime : ∀ read ∈ timeRead t a, read = now) (hw : Watches s t now a { g with clock := now } h n)
    (htakes : Takes s t a e) (ht' : e.next = some t') :
    Attempting (e.shared, n.record) (t', n.own) := by
  have hlater : Later g n.record := later_of_watches hw hnow hc.succeeded
  have hclock : n.record.clock = now := hw.clock
  have hkey : t'.key = t.key := (htakes.next_keeps ht').2
  refine ⟨?_, ?_, ?_, ?_⟩
  · intro stored hmem
    rw [hclock]
    rcases htakes.next_writes ht' hmem with hold | ⟨entry, held, hsame⟩ | hread
    · exact (hx.writes stored hold).trans hnow
    · exact hsame.trans_le ((hc.received held).trans hnow)
    · exact (htime _ hread).le
  · intro asker stored hrole
    rcases htakes.next_waiting ht' hrole with hold | ⟨read, entry, staleness, rfl, hget, hstored⟩
    · -- Only a client starts a refresh, so the note is the one made when the wait began.
      have hstart : ¬Starts s t now a := by
        intro hs
        obtain ⟨_, _, _, _, hclient, _⟩ := htakes.starts hs
        cases hold.symm.trans hclient
      rw [hw.kept hstart]
      exact hx.waiting hold
    · obtain rfl := htime read rfl
      obtain rfl : stored = s.tagged t.key entry := hstored
      refine ⟨_, (hw.started ⟨rfl, entry, staleness, hget⟩).1, expiredAt_of_stale hget ?_⟩
      exact (hc.received (answers_of_found (.inr hget))).trans hnow
  · intro since hattempt
    rw [hkey]
    by_cases hstart : Starts s t now a
    · obtain ⟨hown, hmem⟩ := hw.started hstart
      obtain rfl := Option.some.inj (hown.symm.trans hattempt)
      exact ⟨hmem, hclock.ge⟩
    · rw [hw.kept hstart] at hattempt
      have hbefore := hx.started hattempt
      exact ⟨hlater.refreshes hbefore.1, hbefore.2.trans hlater.clock⟩
  · intro since hattempt
    by_cases hstart : Starts s t now a
    · obtain ⟨_, _, _, _, _, rfl⟩ := htakes.starts hstart
      cases ht'
      exact .inl rfl
    · rw [hw.kept hstart] at hattempt
      rw [hkey]
      rcases hx.going hattempt with hgoing | hsucceeded
      · obtain ⟨t'', ht'', _, hgoing' | hsucceed⟩ := htakes.refreshing hgoing
        · cases ht'.symm.trans ht''
          exact .inl hgoing'
        · refine .inr ⟨now, ?_, (hx.started hattempt).2.trans hnow⟩
          rw [hw.succeeded hsucceed]
          exact Function.update_self ..
      · exact .inr (hlater.succeeded hsucceeded)

theorem attempting_of_none {s : Shared hk × Watch} (hattempt : x.2.attempt = none)
    (hwrites : x.1.stage.writes = []) (hrole : ∀ waiting, x.1.role ≠ .refresh (some waiting)) :
    Attempting s x where
  writes stored hmem := by
    rw [hwrites] at hmem
    cases hmem
  waiting hw := absurd hw (hrole _)
  started ha := by cases hattempt.symm.trans ha
  going ha := by cases hattempt.symm.trans ha

theorem attempting_spawned (hw : Watches s t now a { g with clock := now } h n)
    (htakes : Takes s t a e) {child : Nat} (ht' : e.spawned = some (child, t')) :
    Attempting s' (t', n.spawned) := by
  cases htakes with
  | received permit _ _ =>
    obtain ⟨_, _, hchild⟩ := Option.map_eq_some_iff.mp ht'
    cases hchild
    apply attempting_of_none hw.spawned rfl
    intro _ hrole
    cases hrole
  | wentStale _ =>
    cases ht'
    apply attempting_of_none hw.spawned rfl
    intro _ hrole
    cases hrole
  | _ => cases ht'

theorem Takes.wakes (htakes : Takes s t a e) :
    e.wake = id ∨ ∃ flight, e.wake = (fun u => u.hear t.key flight) ∧
      ∀ stored, flight = .ok stored → Succeeds t a := by
  cases htakes with
  | @published outcome hstage =>
    refine .inr ⟨_, rfl, ?_⟩
    intro stored hflight
    cases outcome with
    | ok stored' => exact ⟨rfl, stored', hstage⟩
    | error err => cases hled : t.ledBy <;> rw [hled] at hflight <;> cases hflight
  | cancelled _ =>
    refine .inr ⟨_, rfl, ?_⟩
    intro stored hflight
    cases hflight
  | _ => exact .inl rfl

theorem hear_writes {flight : Except FlightError Stored}
    (hmem : stored ∈ (u.hear key flight).stage.writes) : stored ∈ u.stage.writes := by
  cases hf : u.follows key with
  | false => rwa [hear_of_not_follows hf] at hmem
  | true => obtain ⟨_, he | he⟩ := hear_of_follows hf flight <;> rw [he] at hmem <;> cases hmem

theorem hear_refreshing (flight : Except FlightError Stored) (hu : u.refreshing = true) :
    (u.hear key flight).refreshing = true ∨ u.key = key ∧ ∃ stored, flight = .ok stored := by
  obtain ⟨⟨waiting, hrole⟩, _⟩ := refreshing_iff.mp hu
  unfold Task.hear
  split
  · rename_i hkey
    split
    · cases flight with
      | ok stored => exact .inr ⟨hkey, stored, rfl⟩
      | error err => exact .inl (refreshing_iff.mpr ⟨⟨waiting, hrole⟩, .inl rfl⟩)
    · rename_i hother
      exact absurd hrole (hother waiting)
    · exact .inl hu
  · exact .inl hu

theorem attempting_other (hc : Clocked (s, g)) (hnow : g.clock ≤ now)
    (hw : Watches s t now a { g with clock := now } h n) (htakes : Takes s t a e) {k : Watched}
    (hu : Attempting (s, g) (u, k)) : Attempting (e.shared, n.record) (e.wake u, n.wake u k) := by
  have hlater : Later g n.record := later_of_watches hw hnow hc.succeeded
  have hu' : Attempting (e.shared, n.record) (u, k) := hu.later hlater
  rw [hw.wake]
  rcases htakes.wakes with hid | ⟨flight, hhear, hok⟩
  · rw [hid]
    exact hu'
  · obtain ⟨hkey, hrole⟩ := hear_key u t.key flight
    rw [hhear]
    refine ⟨?_, ?_, ?_, ?_⟩
    · intro stored hmem
      exact hu'.writes stored (hear_writes hmem)
    · intro asker stored hwaiting
      exact hu'.waiting (hrole.symm.trans hwaiting)
    · intro since hattempt
      rw [hkey]
      exact hu'.started hattempt
    · intro since hattempt
      rw [hkey]
      rcases hu'.going hattempt with hgoing | hsucceeded
      · rcases hear_refreshing flight hgoing with hgoing' | ⟨hsame, stored, hflight⟩
        · exact .inl hgoing'
        · -- The follower hears a success, which the publication has just recorded.
          refine .inr ⟨now, ?_, (hu.started hattempt).2.trans hnow⟩
          rw [hw.succeeded (hok stored hflight), hsame]
          exact Function.update_self ..
      · exact .inr hsucceeded

variable {p q : WatchState hk} {id : Nat}

theorem attempt_stays (hp : p.Inv Clocked Attempting) (ht : p.tasks id = some (t, h))
    (hnow : p.shared.2.clock ≤ now)
    (hw : Watches p.shared.1 t now a { p.shared.2 with clock := now } h n)
    (htakes : Takes p.shared.1 t a e) (happly : p.Applied id (e.noted n) q) {j : Nat} {since : Nat}
    (hj : p.tasks j = some x) (hattempt : x.2.attempt = some since) :
    (∃ x', q.tasks j = some x' ∧ x'.1.key = x.1.key ∧ x'.2.attempt = some since) ∨
      SucceededSince n.record x.1.key since := by
  by_cases hid : j = id
  · subst hid
    cases ht.symm.trans hj
    rcases (hp.tasks ht).going hattempt with hgoing | hsucceeded
    · have hstart : ¬Starts p.shared.1 t now a := by
        intro hs
        obtain ⟨_, _, _, _, hclient, _⟩ := htakes.starts hs
        obtain ⟨⟨_, hrole⟩, _⟩ := refreshing_iff.mp hgoing
        cases hrole.symm.trans hclient
      obtain ⟨t', ht', hkey, _⟩ := htakes.refreshing hgoing
      refine .inl ⟨(t', n.own), ?_, hkey, ?_⟩
      · rw [happly.own]
        simp only [Effect.noted, ht', Option.map_some]
      · rw [hw.kept hstart]
        exact hattempt
    · exact .inr ((later_of_watches hw hnow hp.shared.succeeded).succeeded hsucceeded)
  · refine .inl ⟨_, happly.woken hid hj, ?_, ?_⟩
    · rcases htakes.wakes with he | ⟨flight, he, _⟩
      · simp only [Effect.noted, he, id_eq]
      · simp only [Effect.noted, he]
        exact (hear_key x.1 t.key flight).1
    · simp only [Effect.noted, hw.wake]
      exact hattempt

theorem backed_act (hp : p.Inv Clocked Attempting) (hb : Backed p) (ht : p.tasks id = some (t, h))
    (hnow : p.shared.2.clock ≤ now)
    (hw : Watches p.shared.1 t now a { p.shared.2 with clock := now } h n)
    (htakes : Takes p.shared.1 t a e) (happly : p.Applied id (e.noted n) q) : Backed q := by
  intro i key last hlast
  rw [happly.shared] at hlast ⊢
  rcases hw.tables hlast with hold | ⟨hstart, rfl, rfl⟩
  · rcases hb hold with ⟨j, x, hj, rfl, hattempt⟩ | hsucceeded
    · rcases attempt_stays hp ht hnow hw htakes happly hj hattempt with ⟨x', hx', hk, ha⟩ | hdone
      · exact .inl ⟨j, x', hx', hk, ha⟩
      · exact .inr hdone
    · exact .inr ((later_of_watches hw hnow hp.shared.succeeded).succeeded hsucceeded)
  · obtain ⟨asker, entry, _, _, _, rfl⟩ := htakes.starts hstart
    exact .inl ⟨id, _, happly.own, rfl, (hw.started hstart).1⟩

structure Accounted (p : WatchState hk) : Prop where
  inv : p.Inv Clocked Attempting
  backed : Backed p

theorem accounted_env (hp : Accounted p) {ev : Nat × Event hk}
    (hs : (watchProgram hk).env p.shared ev = some s') : Accounted { p with shared := s' } := by
  obtain ⟨hevent, hnow, hwatch⟩ := watch_env hs
  obtain ⟨hclock, htables, hrefreshes, hsucceeded⟩ := watchEvent_keeps ev.1 ev.2 p.shared.2
  have hsame : s'.2.succeeded = p.shared.2.succeeded := by rw [hwatch, hsucceeded]
  have hlater : Later p.shared.2 s'.2 := by
    refine ⟨?_, ?_, ?_⟩
    · rw [hwatch, hclock]
      exact hnow
    · rw [hwatch, hrefreshes]
      exact List.Subset.refl _
    · intro key since hs
      rwa [SucceededSince, hsame]
  refine ⟨⟨⟨?_, ?_⟩, ?_⟩, ?_⟩
  · intro key last hlast
    rw [hsame] at hlast
    exact (hp.inv.shared.succeeded hlast).trans hlater.clock
  · intro key entry hentry
    exact (hp.inv.shared.received (event_answers hevent hentry)).trans hlater.clock
  · intro i x hi
    exact (hp.inv.tasks hi).later hlater
  · intro i key last hlast
    rw [hwatch, htables] at hlast
    exact (hp.backed hlast).imp_right hlater.succeeded

theorem accounted_start (hp : Accounted p) {b : Start}
    (hspawn : p.spawn id ((watchProgram hk).start p.shared b) = some q) : Accounted q := by
  have hgood : Attempting p.shared ((watchProgram hk).start p.shared b) := by
    cases b with
    | arrive asker view | prefetch key =>
      apply attempting_of_none rfl rfl
      intro _ hrole
      cases hrole
  refine ⟨Pool.spawn_inv hspawn hp.inv hgood, ?_⟩
  obtain ⟨hfree, rfl⟩ := Pool.spawn_eq_some hspawn
  intro i key last hlast
  rcases hp.backed hlast with ⟨j, x, hj, hx⟩ | hsucceeded
  · have hne : j ≠ id := by
      rintro rfl
      cases hfree.symm.trans hj
    exact .inl ⟨j, x, (Function.update_of_ne hne ..).trans hj, hx⟩
  · exact .inr hsucceeded

theorem accounted_step {l : WatchLabel hk} (hp : Accounted p)
    (hstep : (watchProgram hk).step p l = some q) : Accounted q := by
  cases Program.stepped hstep with
  | env hs => exact accounted_env hp hs
  | start hspawn => exact accounted_start hp hspawn
  | @act id x a e q ht he happly =>
    obtain ⟨t, h⟩ := x
    obtain ⟨n, e', htakes, rfl, hnow, htime, hw⟩ := watch_act he
    have hx := hp.inv.tasks ht
    refine ⟨Pool.apply_inv happly (Layer.keptIn_noted ?_ ?_ ?_ ?_), ?_⟩
    · exact clocked_takes hp.inv.shared hx hnow hw htakes
    · intro t' ht'
      exact attempting_next hp.inv.shared hx hnow htime hw htakes ht'
    · intro child t' ht'
      exact attempting_spawned hw htakes ht'
    · intro i u k _ hu
      exact attempting_other hp.inv.shared hnow hw htakes (hp.inv.tasks hu)
    · exact backed_act hp.inv hp.backed ht hnow hw htakes (Pool.applied_of_apply happly)

end Attempts

section Serving

/-- The refresh of the key that was started at `since` has failed, or has not finished although the
client response timer has run. -/
def Unfinished (p : WatchState hk) (key : CacheKey) (since timeout : Nat) : Prop :=
  ∃ i x, p.tasks i = some x ∧ x.1.key = key ∧ x.2.attempt = some since ∧
    (x.1.stage.hasFailed = true ∨
      x.1.stage.isPending = true ∧ since + timeout ≤ p.shared.2.clock)

/-- A refresh was started after the entry expired, in vain so far. -/
def Tried (p : WatchState hk) (key : CacheKey) (entry : CacheEntry) (timeout : Nat) : Prop :=
  ∃ since, (key, since) ∈ p.shared.2.refreshes ∧ ExpiredAt entry since ∧
    since ≤ p.shared.2.clock ∧ Unfinished p key since timeout

def Stage.servesStale : Stage → Option CacheEntry
  | .answering stored _ true => some stored.entry
  | _ => none

/-- In the step from `p` to `q`, an expired entry is given to a client only after a refresh was
tried, and no refresh is suppressed by one that has succeeded. -/
structure ServedAfterTrying (p : WatchState hk) (l : WatchLabel hk) (q : WatchState hk) : Prop where
  tried : ∀ {i x entry}, q.tasks i = some x → p.tasks i ≠ some x →
    x.1.stage.servesStale = some entry →
      Tried q x.1.key entry x.1.resolver.cfg.staleClientTimeout
  suppressed : ∀ {id now read x entry staleness since j y},
    l = .act id (now, .lookup read false) → p.tasks id = some x →
      p.shared.1.cache.get x.1.key now = .stale entry staleness →
      (p.shared.2.tables x.2.generation).lookup x.1.key = some since →
      p.tasks j = some y → y.1.key = x.1.key → y.2.attempt = some since → y.1.refreshing = true

instance decidableExpiredAt (entry : CacheEntry) (time : Nat) : Decidable (ExpiredAt entry time) :=
  inferInstanceAs (Decidable (_ ∧ _))

/-- A refresh is suppressed only by one that was started after the entry expired, if no operation of
the key has succeeded since, and it has failed or the client response timer has run. -/
def Awaited (p : WatchState hk) : WatchLabel hk → Prop
  | .act id (now, .lookup _ false) => ∀ x entry staleness since, p.tasks id = some x →
      p.shared.1.cache.get x.1.key now = .stale entry staleness →
      (p.shared.2.tables x.2.generation).lookup x.1.key = some since →
      ExpiredAt entry since ∧ ¬SucceededSince p.shared.2 x.1.key since ∧
        (since + x.1.resolver.cfg.staleClientTimeout ≤ now ∨
          ∃ j y, p.tasks j = some y ∧ y.1.key = x.1.key ∧ y.2.attempt = some since ∧
            y.1.stage.hasFailed = true)
  | _ => True

variable {p q : WatchState hk} {x : Task hk × Watched} {id now read since : Nat}
  {entry : CacheEntry} {staleness : Nat}

variable {t : Task hk} {a : Action} {h : Watched} {n : Noted (Task hk) Watch Watched}
  {e : Effect (Shared hk) (Task hk)}

theorem failed_stays (ht : p.tasks id = some (t, h))
    (hw : Watches p.shared.1 t now (.lookup now false) { p.shared.2 with clock := now } h n)
    (htakes : Takes p.shared.1 t (.lookup now false) e) (happly : p.Applied id (e.noted n) q)
    {j : Nat} (hj : p.tasks j = some x) (hfailed : x.1.stage.hasFailed = true) :
    q.tasks j = some x := by
  have hlookup : t.stage = .checked ∧ ∀ u, e.wake u = u := by
    cases htakes <;> exact ⟨‹_›, fun _ => rfl⟩
  have hid : j ≠ id := by
    rintro rfl
    cases ht.symm.trans hj
    rw [hlookup.1] at hfailed
    cases hfailed
  simpa only [Effect.noted, hlookup.2, hw.wake] using happly.woken hid hj

theorem tried_of_denied (hp : Accounted p) (hq : Accounted q) (ht : p.tasks id = some (t, h))
    (hnow : p.shared.2.clock ≤ now)
    (hw : Watches p.shared.1 t now (.lookup now false) { p.shared.2 with clock := now } h n)
    (htakes : Takes p.shared.1 t (.lookup now false) e) (happly : p.Applied id (e.noted n) q)
    (hok : Awaited p (.act id (now, .lookup now false)))
    (hget : p.shared.1.cache.get t.key now = .stale entry staleness) :
    Tried q t.key entry t.resolver.cfg.staleClientTimeout := by
  have hshared : q.shared.2 = n.record := congrArg Prod.snd happly.shared
  obtain ⟨since, hlast⟩ := hw.denied rfl hget
  obtain ⟨hexpired, hvain, hover⟩ := hok _ _ _ _ ht hget hlast
  have hunfinished : Unfinished q t.key since t.resolver.cfg.staleClientTimeout := by
    rcases hover with htimer | ⟨j, y, hj, hkey, hattempt, hfailed⟩
    · -- A lookup publishes nothing, so there is no success after the step either.
      have hsame : n.record.succeeded = p.shared.2.succeeded :=
        hw.unsucceeded fun hs => nomatch hs.1
      have hvain' : ¬SucceededSince n.record t.key since := by
        rwa [SucceededSince, hsame]
      obtain ⟨j, y, hj, hykey, hattempt⟩ := (hp.backed hlast).resolve_right hvain
      have hstays := attempt_stays hp.inv ht hnow hw htakes happly hj hattempt
      rw [hykey] at hstays
      obtain ⟨y', hy', hkey, hattempt'⟩ := hstays.resolve_right hvain'
      have hgoing := (hq.inv.tasks hy').going hattempt'
      rw [hkey, hshared] at hgoing
      refine ⟨j, y', hy', hkey, hattempt', ?_⟩
      refine (refreshing_iff.mp (hgoing.resolve_right hvain')).2.imp_right fun hpending => ?_
      rw [hshared, hw.clock]
      exact ⟨hpending, htimer⟩
    · exact ⟨j, y, failed_stays ht hw htakes happly hj hfailed, hkey, hattempt, .inl hfailed⟩
  have ⟨j, y, hj, hkey, hattempt, _⟩ := hunfinished
  obtain ⟨hmem, hpast⟩ := (hq.inv.tasks hj).started hattempt
  exact ⟨since, hkey ▸ hmem, hexpired, hpast, hunfinished⟩

theorem tried_of_waited (hq : Accounted q) (hx : Attempting p.shared (t, h)) {child : Nat}
    {asker : Asker} {stored : Stored}
    (hw : Watches p.shared.1 t now (.goStale child) { p.shared.2 with clock := now } h n)
    (hrole : t.role = .refresh (some (asker, stored)))
    (hown : q.tasks id = some ({ t with role := .refresh none }, n.own))
    (hshared : q.shared.2 = n.record) :
    Tried q t.key stored.entry t.resolver.cfg.staleClientTimeout := by
  obtain ⟨since, hattempt, hexpired⟩ := hx.waiting hrole
  have hkept : n.own = h := hw.kept fun hs => nomatch hs.1
  rw [hkept] at hown
  obtain ⟨hmem, hpast⟩ := (hq.inv.tasks hown).started hattempt
  refine ⟨since, hmem, hexpired, hpast, id, _, hown, rfl, hattempt, ?_⟩
  have hmay := hw.patient rfl
  simp only [mayGoStale, show h.attempt = some since from hattempt, Option.any_some,
    Bool.or_eq_true, Bool.and_eq_true, decide_eq_true_eq] at hmay
  rw [hshared, hw.clock]
  exact hmay

theorem Takes.next_servesStale {s : Shared hk} (htakes : Takes s t a e) {t' : Task hk}
    (ht' : e.next = some t') (hserves : t'.stage.servesStale = some entry) :
    (∃ read staleness, a = .lookup read false ∧
        s.cache.get t.key read = .stale entry staleness) ∨
      ∃ child, a = .goStale child ∧ t.stage.servesStale = some entry := by
  cases htakes with
  | stale _ _ hget =>
    cases ht'
    cases hserves
    exact .inl ⟨_, _, rfl, hget⟩
  | shed _ _ =>
    cases ht'
    unfold Task.shed at hserves
    split at hserves <;> cases hserves
  | published _ =>
    cases ht'
    unfold Task.conclude at hserves
    split at hserves <;> cases hserves
  | cancelled _ =>
    unfold Effect.broadcast Task.cancelled at ht'
    split at ht' <;> cases ht'
    cases hserves
  | wentStale _ =>
    cases ht'
    exact .inr ⟨_, rfl, hserves⟩
  | _ => cases ht' <;> cases hserves

theorem hear_of_servesStale {u : Task hk} {key : CacheKey} {flight : Except FlightError Stored}
    (h : (u.hear key flight).stage.servesStale = some entry) : u.hear key flight = u := by
  cases hf : u.follows key with
  | false => exact hear_of_not_follows hf flight
  | true => obtain ⟨_, he | he⟩ := hear_of_follows hf flight <;> rw [he] at h <;> cases h

theorem not_servesStale_of_mayGoStale (hmay : mayGoStale t now h = true) :
    t.stage.servesStale = none := by
  unfold mayGoStale at hmay
  cases hstage : t.stage with
  | answering stored remaining stale =>
    rw [hstage] at hmay
    cases hmay
  | _ => rfl

theorem tried_act (hp : Accounted p) (hq : Accounted q) (ht : p.tasks id = some (t, h))
    (hnow : p.shared.2.clock ≤ now) (htime : ∀ read ∈ timeRead t a, read = now)
    (hw : Watches p.shared.1 t now a { p.shared.2 with clock := now } h n)
    (htakes : Takes p.shared.1 t a e) (happly : p.Applied id (e.noted n) q)
    (hok : Awaited p (.act id (now, a))) {i : Nat} (hi : q.tasks i = some x)
    (hnew : p.tasks i ≠ some x) (hserves : x.1.stage.servesStale = some entry) :
    Tried q x.1.key entry x.1.resolver.cfg.staleClientTimeout := by
  by_cases hid : i = id
  · subst hid
    obtain ⟨t', ht', rfl⟩ := Option.map_eq_some_iff.mp (happly.own.symm.trans hi)
    have hkey : t'.key = t.key := (htakes.next_keeps ht').2
    rcases htakes.next_servesStale ht' hserves with
      ⟨read, staleness, rfl, hget⟩ | ⟨child, rfl, hbefore⟩
    · obtain rfl := htime read rfl
      have hresolver : t'.resolver = t.resolver := (htakes.next_keeps ht').1
      rw [hkey, hresolver]
      exact tried_of_denied hp hq ht hnow hw htakes happly hok hget
    · have hnone := not_servesStale_of_mayGoStale (hw.patient rfl)
      cases hnone.symm.trans hbefore
  · rcases happly.other hid hi with ⟨u, hu, rfl⟩ | hspawned
    · -- A task that only hears of the step has been serving the entry before.
      refine absurd ?_ hnew
      have hsame : e.wake u.1 = u.1 := by
        rcases htakes.wakes with he | ⟨flight, he, _⟩
        · rw [he]
          rfl
        · simp only [Effect.noted, he] at hserves ⊢
          exact hear_of_servesStale hserves
      simp only [Effect.noted, hsame, hw.wake]
      exact hu
    · obtain ⟨⟨child, t'⟩, ht', hx⟩ := Option.map_eq_some_iff.mp hspawned
      cases hx
      cases htakes with
      | received permit _ _ =>
        obtain ⟨_, _, hchild⟩ := Option.map_eq_some_iff.mp ht'
        cases hchild
        cases hserves
      | @wentStale asker stale child hrole =>
        cases ht'
        cases hserves
        exact tried_of_waited hq (hp.inv.tasks ht) hw hrole happly.own
          (congrArg Prod.snd happly.shared)
      | _ => cases ht'

theorem tried_step {l : WatchLabel hk} (hp : Accounted p) (hok : Awaited p l)
    (hstep : (watchProgram hk).step p l = some q) {i : Nat} (hi : q.tasks i = some x)
    (hnew : p.tasks i ≠ some x) (hserves : x.1.stage.servesStale = some entry) :
    Tried q x.1.key entry x.1.resolver.cfg.staleClientTimeout := by
  have hq := accounted_step hp hstep
  cases Program.stepped hstep with
  | env _ => exact absurd hi hnew
  | @start id b q hspawn =>
    obtain ⟨_, rfl⟩ := Pool.spawn_eq_some hspawn
    rcases update_eq_some hi with ⟨_, hstart⟩ | ⟨_, hold⟩
    · cases hstart
      cases b <;> cases hserves
    · exact absurd hold hnew
  | @act id y a e q ht he happly =>
    obtain ⟨t, h⟩ := y
    obtain ⟨n, e', htakes, rfl, hnow, htime, hw⟩ := watch_act he
    exact tried_act hp hq ht hnow htime hw htakes (Pool.applied_of_apply happly)
      hok hi hnew hserves

/-- In a run in which a refresh is suppressed only by one that was started after the entry expired,
with no success since, and that has failed or outlasted the client response timer, expired entries
are served only after a refresh was tried. -/
theorem stale_served_after_refresh (r : Resolver hk) (serveStale : ServeStaleConfig)
    (internalMaxTtl : Nat) (labels : List (WatchLabel hk)) (l : WatchLabel hk)
    (p q : WatchState hk)
    (hg : Guarded (watchProgram hk).step Awaited (watchInitial r serveStale internalMaxTtl)
      (labels ++ [l]))
    (hr : run (watchProgram hk).step (watchInitial r serveStale internalMaxTtl) labels = some p)
    (hstep : (watchProgram hk).step p l = some q) : ServedAfterTrying p l q := by
  have hinit : Accounted (watchInitial r serveStale internalMaxTtl) := by
    refine ⟨⟨⟨?_, ?_⟩, ?_⟩, ?_⟩
    · intro key last hlast
      cases hlast
    · intro key entry hentry
      cases hentry
    · intro i x hi
      cases hi
    · intro i key last hlast
      cases hlast
  have hp : Accounted p := invariant_of_free_run accounted_step hinit hr
  have hok : Awaited p l := ((guarded_append.mp hg).2 _ hr).1
  refine ⟨tried_step hp hok hstep, ?_⟩
  rintro id now read x entry staleness since j y rfl ht hget hlast hj hkey hattempt
  obtain ⟨_, hvain, _⟩ := hok x _ _ _ ht hget hlast
  rw [← hkey] at hvain
  exact ((hp.inv.tasks hj).going hattempt).resolve_right hvain

/-- No answer is kept for more than ten seconds; refreshes are 30 s apart. -/
def watchSample : WatchState .sample := watchInitial (singleResolver .background) defaultStale 10

def askAt (id now : Nat) (allowed : Bool) : List (WatchLabel .sample) :=
  [.start id (.arrive addressAsker addressView), .act id (now, .checkFailure now),
    .act id (now, .lookup now allowed)]

def fetchAt (id now : Nat) : List (WatchLabel .sample) :=
  let env := { upstreamReplies (echoReply addressQuery .noError false) with now := now }
  [.act id (now, .join false), .act id (now, .receive env none), .act id (now, .make),
    .act id (now, .insert), .act id (now, .publish)]

def answerAt (id now : Nat) : List (WatchLabel .sample) :=
  [.act id (now, .respond now quietEnv)]

def lookupDenied (id now : Nat) : WatchLabel .sample := .act id (now, .lookup now false)

/-- The first client's answer expires after 10 s. The refresh that the second one starts at 20 s
fails, and the third one comes at 22 s. -/
def failedRefreshRun : List (WatchLabel .sample) :=
  askAt 0 0 true ++ fetchAt 0 0 ++ answerAt 0 0 ++ askAt 1 (20 * nanosPerSec) true ++
    ([.act 1 (20 * nanosPerSec, .join false),
      .act 1 (20 * nanosPerSec, .receive upstreamRefuses none),
      .act 1 (20 * nanosPerSec, .publish), .act 1 (20 * nanosPerSec, .goStale 2)] :
      List (WatchLabel .sample)) ++
    answerAt 2 (20 * nanosPerSec) ++
    ([.start 3 (.arrive addressAsker addressView),
      .act 3 (22 * nanosPerSec, .checkFailure (22 * nanosPerSec))] : List (WatchLabel .sample))

theorem stale_served_after_refresh_failed :
    ∃ p q x entry,
      run (watchProgram .sample).step watchSample failedRefreshRun = some p ∧
      (watchProgram .sample).step p (lookupDenied 3 (22 * nanosPerSec)) = some q ∧
      q.tasks 3 = some x ∧ x.1.stage.servesStale = some entry ∧
      Tried q x.1.key entry x.1.resolver.cfg.staleClientTimeout := by
  have heval : ((run (watchProgram .sample).step watchSample failedRefreshRun).bind fun p =>
      ((watchProgram .sample).step p (lookupDenied 3 (22 * nanosPerSec))).map fun q =>
        ((p.tasks 3).any (fun x => x.1.stage.servesStale.isNone),
          (q.tasks 3).any (fun x => x.1.stage.servesStale.isSome))) = some (true, true) := by
    decide
  obtain ⟨p, hrun, hp⟩ := Option.bind_eq_some_iff.mp heval
  obtain ⟨q, hstep, hq⟩ := Option.map_eq_some_iff.mp hp
  simp only [Prod.mk.injEq, Option.any_eq_true] at hq
  obtain ⟨⟨y, hy, hnone⟩, x, hx, hsome⟩ := hq
  obtain ⟨entry, hentry⟩ := Option.isSome_iff_exists.mp hsome
  have hg : Guarded (watchProgram .sample).step Awaited watchSample
      (failedRefreshRun ++ [lookupDenied 3 (22 * nanosPerSec)]) := by
    refine guarded_append.mpr ⟨guarded_of_forall ?_ _, fun p hp => ⟨?_, fun _ _ => trivial⟩⟩
    · simp [failedRefreshRun, askAt, fetchAt, answerAt, Awaited]
    · intro x entry staleness since hx hget hlast
      have hfacts : (run (watchProgram .sample).step watchSample failedRefreshRun).all (fun p =>
          (p.tasks 3).all fun x =>
            (p.shared.1.cache.answers x.1.key).all
              (fun entry => decide (ExpiredAt entry (20 * nanosPerSec))) &&
            decide (p.shared.2.succeeded x.1.key = some 0 ∧
              (p.shared.2.tables x.2.generation).lookup x.1.key = some (20 * nanosPerSec) ∧
              x.1.resolver.cfg.staleClientTimeout ≤ 2 * nanosPerSec)) = true := by
        decide
      simp only [hp, Option.all_some, hx, answers_of_found (.inr hget), Bool.and_eq_true,
        decide_eq_true_eq] at hfacts
      obtain ⟨hexpired, hfirst, htable, htimeout⟩ := hfacts
      cases hlast.symm.trans htable
      refine ⟨hexpired, ?_, .inl ((Nat.add_le_add_left htimeout _).trans (by decide))⟩
      rintro ⟨last, hlast, hle⟩
      cases hfirst.symm.trans hlast
      exact absurd hle (by decide)
  have hserved := stale_served_after_refresh _ _ _ _ _ p q hg hrun hstep
  refine ⟨p, q, x, entry, hrun, hstep, hx, hentry, hserved.tried hx ?_ hentry⟩
  intro hsame
  cases hy.symm.trans hsame
  rw [hentry] at hnone
  cases hnone

/-- The refresh that the second client starts at 20 s succeeds, and its answer expires at 30 s. The
third client comes at 40 s. -/
def succeededRefreshRun : List (WatchLabel .sample) :=
  askAt 0 0 false ++ fetchAt 0 0 ++ answerAt 0 0 ++ askAt 1 (20 * nanosPerSec) true ++
    fetchAt 1 (20 * nanosPerSec) ++
    ([.act 1 (20 * nanosPerSec, .takeRefresh)] : List (WatchLabel .sample)) ++
    answerAt 1 (20 * nanosPerSec) ++
    ([.start 2 (.arrive addressAsker addressView),
      .act 2 (40 * nanosPerSec, .checkFailure (40 * nanosPerSec))] : List (WatchLabel .sample))

/-- The one refresh so far made the entry, and yet it suppresses the refresh of the entry. -/
theorem successful_refresh_suppresses_next :
    ∃ p q, run (watchProgram .sample).step watchSample succeededRefreshRun = some p ∧
      (watchProgram .sample).step p (lookupDenied 2 (40 * nanosPerSec)) = some q ∧
      (∃ x entry, q.tasks 2 = some x ∧ x.1.stage.servesStale = some entry ∧
        entry.receivedAt = 20 * nanosPerSec ∧
        q.shared.2.refreshes = [(x.1.key, 20 * nanosPerSec)]) ∧
      ¬ServedAfterTrying p (lookupDenied 2 (40 * nanosPerSec)) q := by
  have heval : ((run (watchProgram .sample).step watchSample succeededRefreshRun).bind fun p =>
      ((watchProgram .sample).step p (lookupDenied 2 (40 * nanosPerSec))).map fun q =>
        ((p.tasks 2).any (fun x => x.1.stage.servesStale.isNone),
          (q.tasks 2).any (fun x => x.1.stage.servesStale.any (fun entry =>
            decide (entry.receivedAt = 20 * nanosPerSec) &&
              decide (q.shared.2.refreshes = [(x.1.key, 20 * nanosPerSec)]) &&
              !decide (ExpiredAt entry (20 * nanosPerSec)))))) = some (true, true) := by
    decide
  obtain ⟨p, hrun, hp⟩ := Option.bind_eq_some_iff.mp heval
  obtain ⟨q, hstep, hq⟩ := Option.map_eq_some_iff.mp hp
  simp only [Prod.mk.injEq, Option.any_eq_true, Bool.and_eq_true, decide_eq_true_eq,
    Bool.not_eq_true', decide_eq_false_iff_not] at hq
  obtain ⟨⟨y, hy, hnone⟩, x, hx, entry, hentry, ⟨hreceived, hrefreshes⟩, hfresh⟩ := hq
  refine ⟨p, q, hrun, hstep, ⟨x, entry, hx, hentry, hreceived, hrefreshes⟩, ?_⟩
  intro hserved
  have hnew : p.tasks 2 ≠ some x := by
    intro hsame
    cases hy.symm.trans hsame
    rw [hentry] at hnone
    cases hnone
  obtain ⟨since, hmem, hexpired, _⟩ := hserved.tried hx hnew hentry
  rw [hrefreshes] at hmem
  cases List.mem_singleton.mp hmem
  exact hfresh hexpired

end Serving

end EgressDns.System
