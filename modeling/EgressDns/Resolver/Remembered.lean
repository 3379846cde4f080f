import EgressDns.Resolver.Ledger

/-!
# What the failure cache remembers

A remembered failure should be that of an upstream operation of its key, and the backoff should
count such operations. Neither holds of the code as it stands: a client that is turned away or that
waited too long is remembered as a failed upstream, the streak is lost when an expired entry is
looked up, and every client that waited for a failed operation counts it again.
-/

namespace EgressDns

def ResolveError.isOverload : ResolveError → Bool
  | overloaded _ => true
  | _ => false

def ResolveError.aboutUpstream (e : ResolveError) : Bool := !e.isTransient && !e.isOverload

namespace System

open Lib

variable {hk : Hickory}

section Causes

/-- The task's operation failed, and at an upstream. -/
def Blames (g : Ledger) (key : CacheKey) (h : Note) : Prop :=
  ∃ e, h.cause = some e ∧ (key, h.op, e) ∈ g.failed ∧ e.aboutUpstream = true

/-- Every remembered failure is that of an operation of its key that failed at an upstream. -/
def RemembersUpstream (s : Shared hk × Ledger) : Prop :=
  ∀ key failure, s.1.cache.failures key = some failure →
    ∃ e, (key, s.2.blamed key, e) ∈ s.2.failed ∧ e.aboutUpstream = true

/-- What a task that is going to remember a failure, or to publish one, knows of its cause. -/
def Caused (s : Shared hk × Ledger) (t : Task hk × Note) : Prop :=
  match t.1.stage with
  | .publishing (.error e) =>
    t.2.cause = some e ∧ (t.1.key, t.2.op, e) ∈ s.2.failed ∧ e.isOverload = false ∧
      (t.1.ledBy = .refresh → e.isTransient = false)
  | .ended (.error report) => report.remember = true → Blames s.2 t.1.key t.2
  | .recording _ _ => Blames s.2 t.1.key t.2
  | _ => True

def Stage.blameless : Stage → Bool
  | .publishing (.error _) | .ended (.error _) | .recording _ _ => false
  | _ => true

variable {s s' : Shared hk × Ledger} {t : Task hk} {h : Note}

theorem caused_of_blameless (hb : t.stage.blameless = true) : Caused s (t, h) := by
  unfold Caused
  split
  · rename_i hstage
    rw [hstage] at hb
    cases hb
  · rename_i hstage
    rw [hstage] at hb
    cases hb
  · rename_i hstage
    rw [hstage] at hb
    cases hb
  · exact trivial

variable {key : CacheKey} {outcome : Except ResolveError Stored} {u : Task hk} {k : Note}

theorem Blames.mono {g g' : Ledger} (hb : Blames g key h) (hsub : g.failed ⊆ g'.failed) :
    Blames g' key h := by
  obtain ⟨e, hcause, hfailed, hupstream⟩ := hb
  exact ⟨e, hcause, hsub hfailed, hupstream⟩

theorem Caused.mono (hc : Caused s (t, h)) (hsub : s.2.failed ⊆ s'.2.failed) :
    Caused s' (t, h) := by
  unfold Caused at hc ⊢
  split at hc
  · exact ⟨hc.1, hsub hc.2.1, hc.2.2⟩
  · exact fun hr => (hc hr).mono hsub
  · exact hc.mono hsub
  · exact trivial

theorem RemembersUpstream.forget (hr : RemembersUpstream s) (hf : Forgets s.1 s'.1)
    (hb : s'.2.blamed = s.2.blamed) (hsub : s.2.failed ⊆ s'.2.failed) : RemembersUpstream s' := by
  intro key failure hk
  obtain ⟨e, hfailed, hupstream⟩ := hr key failure (hf key failure hk)
  exact ⟨e, hb ▸ hsub hfailed, hupstream⟩

theorem blames_of_publishing {e : ResolveError} (hc : Caused s (t, h))
    (hstage : t.stage = .publishing (.error e)) (ht : e.isTransient = false) :
    Blames s.2 t.key h := by
  simp only [Caused, hstage] at hc
  obtain ⟨hcause, hfailed, hload, _⟩ := hc
  exact ⟨e, hcause, hfailed, by simp [ResolveError.aboutUpstream, ht, hload]⟩

theorem caused_ended {report : FailureReport}
    (hb : report.remember = true → Blames s.2 t.key h) :
    Caused s (t.goto (.ended (.error report)), h) := hb

theorem caused_conclude (hc : Caused s (t, h)) (hstage : t.stage = .publishing outcome) :
    Caused s (t.conclude outcome, h) := by
  unfold Task.conclude
  split
  · exact caused_of_blameless rfl
  · cases outcome with
    | ok stored => exact caused_of_blameless rfl
    | error e =>
      refine caused_ended fun hremember => ?_
      exact blames_of_publishing hc hstage (by simpa [FailureReport.fromError] using hremember)

theorem publish_error (led : LedBy) (e : ResolveError) :
    ∃ flight, publish led (.error e : Except ResolveError Stored) = .error flight ∧
      (flight.isCacheable = true → led = .miss → e.isTransient = false) := by
  cases led with
  | refresh => exact ⟨_, rfl, nofun⟩
  | miss =>
    cases ht : e.isTransient with
    | true => exact ⟨.transient e.text, by simp [publish, ht], nofun⟩
    | false => exact ⟨.failed e.text, by simp [publish, ht], fun _ _ => rfl⟩

theorem caused_followed (hc : Caused s (t, h)) (hstage : t.stage = .publishing outcome)
    (hkey : u.key = t.key) (k : Note) :
    Caused s (u.goto (.ended (followed (some (publish t.ledBy outcome)))),
      { k with op := h.op, cause := h.cause }) := by
  cases outcome with
  | ok stored => exact caused_of_blameless rfl
  | error e =>
    obtain ⟨flight, hflight, hcacheable⟩ := publish_error t.ledBy e
    rw [hflight]
    refine caused_ended fun hremember => ?_
    have ht : e.isTransient = false := by
      cases hled : t.ledBy with
      | refresh =>
        simp only [Caused, hstage] at hc
        exact hc.2.2.2 hled
      | miss => exact hcacheable hremember hled
    have hb := blames_of_publishing hc hstage ht
    rw [← hkey] at hb
    exact hb

theorem caused_hear (hc : Caused s (t, h)) (hstage : t.stage = .publishing outcome)
    (hu : Caused s (u, k)) :
    Caused s (u.hear t.key (publish t.ledBy outcome),
      if u.follows t.key then { k with op := h.op, cause := h.cause } else k) := by
  cases hf : u.follows t.key with
  | false =>
    rw [hear_of_not_follows hf, if_neg Bool.false_ne_true]
    exact hu
  | true =>
    rw [if_pos rfl]
    obtain ⟨hkey, he | he⟩ := hear_of_follows hf (publish t.ledBy outcome)
    · rw [he]
      exact caused_of_blameless rfl
    · rw [he]
      exact caused_followed hc hstage hkey k

theorem caused_deserted (hu : Caused s (u, k)) : Caused s (u.hear key (.error .leaderGone), k) := by
  cases hf : u.follows key with
  | false =>
    rw [hear_of_not_follows hf]
    exact hu
  | true =>
    obtain ⟨_, he | he⟩ := hear_of_follows hf (.error .leaderGone)
    · rw [he]
      exact caused_of_blameless rfl
    · rw [he]
      intro hremember
      cases hremember

/-- The steps after which a failure is not remembered wrongly: no client is turned away, none waits
too long, and no operation fails for want of a permit or, led by a refresh, for want of a proof. -/
def heedsUpstream (s : Shared hk) (t : Task hk) : Action → Bool
  | .join saturated => !saturated || s.inFlight t.key || t.ledBy == .refresh
  | .timeout => false
  | .receive env _ =>
    match t.resolver.receive t.key env with
    | some (.error e) => !e.isOverload && (t.ledBy == .miss || !e.isTransient)
    | _ => true
  | _ => true

def UpstreamOnly (p : Account hk) : Label hk → Prop
  | .act id a => ∀ x ∈ p.tasks id, heedsUpstream p.shared.1 x.1 a = true
  | _ => True

variable {p q : Account hk} {id : Nat} {a : Action} {e : Effect (Shared hk) (Task hk)}

theorem remembersUpstream_takes (hp : p.Inv RemembersUpstream Caused)
    (ht : p.tasks id = some (t, h)) (htakes : Takes p.shared.1 t a e) :
    RemembersUpstream (e.shared, (note p.shared.1 t a p.shared.2 h).record) := by
  by_cases hrec : Records t a
  · obtain ⟨now, env, report, streak, rfl, hstage⟩ := hrec
    have hc := hp.tasks ht
    simp only [Caused, hstage] at hc
    obtain ⟨err, _, hfailed, hupstream⟩ := hc
    cases htakes with
    | sentFailure _ hother _ | sentEntry _ hother _
    | settled _ hother _ _ => cases hstage.symm.trans hother
    | recorded _ _ _ =>
      rw [note_recorded _ _ _ _ _ _ hstage]
      intro key failure hk
      rcases update_eq_some hk with ⟨rfl, _⟩ | ⟨hne, hold⟩
      · refine ⟨err, ?_, hupstream⟩
        simpa only [Noted.keep, Ledger.record, Function.update_self] using hfailed
      · obtain ⟨err', hfailed', hupstream'⟩ := hp.shared key failure hold
        refine ⟨err', ?_, hupstream'⟩
        simpa only [Noted.keep, Ledger.record, Function.update_of_ne hne] using hfailed'
  · have hn := note_notes p.shared.1 t p.shared.2 h a
    exact hp.shared.forget (htakes.forgets hrec) (hn.remembered hrec).1 hn.failed_subset

theorem caused_next (hp : p.Inv RemembersUpstream Caused) (ht : p.tasks id = some (t, h))
    (hok : heedsUpstream p.shared.1 t a = true) (htakes : Takes p.shared.1 t a e) :
    ∀ t', e.next = some t' → Caused (e.shared, (note p.shared.1 t a p.shared.2 h).record)
      (t', (note p.shared.1 t a p.shared.2 h).own) := by
  have hc := hp.tasks ht
  cases htakes with
  | shed hstage hfree =>
    rintro _ ⟨⟩
    unfold Task.shed
    split
    · exact caused_of_blameless rfl
    · rename_i hrole
      have hled : t.ledBy = .miss := by
        unfold Task.ledBy
        split
        · rename_i waiting hrefresh
          exact absurd hrefresh (hrole waiting)
        · rfl
      simp [heedsUpstream, hfree, hled] at hok
  | @failed env permit err hstage herror =>
    rintro _ ⟨⟩
    simp only [heedsUpstream, herror, Bool.and_eq_true, Bool.not_eq_true', Bool.or_eq_true,
      beq_iff_eq] at hok
    rw [note_receive_error _ _ _ _ _ herror]
    refine ⟨rfl, List.mem_cons_self, hok.1, ?_⟩
    intro hled
    rcases hok.2 with hmiss | htransient
    · cases hmiss.symm.trans hled
    · exact htransient
  | published hstage =>
    rintro _ ⟨⟩
    exact caused_conclude hc hstage
  | cancelled _ =>
    intro t' ht'
    unfold Effect.broadcast Task.cancelled at ht'
    split at ht'
    · cases ht'
      exact caused_of_blameless rfl
    · cases ht'
  | timedOut _ _ => cases hok
  | wentStale hrole =>
    rintro _ ⟨⟩
    unfold Caused at hc ⊢
    simp only [Task.ledBy, hrole] at hc ⊢
    exact hc
  | streakRead _ hstage hremember =>
    rintro _ ⟨⟩
    simp only [Caused, hstage] at hc
    exact hc hremember
  | _ =>
    rintro _ ⟨⟩ <;> exact caused_of_blameless rfl

theorem caused_spawned (htakes : Takes p.shared.1 t a e) :
    ∀ child t', e.spawned = some (child, t') →
      Caused (e.shared, (note p.shared.1 t a p.shared.2 h).record)
        (t', (note p.shared.1 t a p.shared.2 h).spawned) := by
  cases htakes with
  | received permit _ _ =>
    intro child t' ht'
    obtain ⟨_, _, hchild⟩ := Option.map_eq_some_iff.mp ht'
    cases hchild
    exact caused_of_blameless rfl
  | wentStale _ =>
    rintro _ _ ⟨⟩
    exact caused_of_blameless rfl
  | _ => rintro _ _ ⟨⟩

theorem caused_others (hp : p.Inv RemembersUpstream Caused) (ht : p.tasks id = some (t, h))
    (htakes : Takes p.shared.1 t a e) (hu : Caused p.shared (u, k)) :
    Caused (e.shared, (note p.shared.1 t a p.shared.2 h).record)
      (e.wake u, (note p.shared.1 t a p.shared.2 h).wake u k) := by
  have hn := note_notes p.shared.1 t p.shared.2 h a
  have hmono : Caused (e.shared, (note p.shared.1 t a p.shared.2 h).record) (u, k) :=
    hu.mono hn.failed_subset
  cases htakes with
  | published hstage =>
    have hc : Caused (p.shared.1.setFlight t.key false, p.shared.2) (t, h) := hp.tasks ht
    exact caused_hear hc hstage hmono
  | cancelled _ =>
    rw [hn.wake_eq (by intro hne; cases hne)]
    exact caused_deserted hmono
  | _ =>
    rw [hn.wake_eq (by intro hne; cases hne)]
    exact hmono

theorem upstream_step {l : Label hk} (hp : p.Inv RemembersUpstream Caused)
    (hok : UpstreamOnly p l) (hstep : (account hk).step p l = some q) :
    q.Inv RemembersUpstream Caused := by
  refine Program.inv_step_in hp hstep ?_ ?_ ?_
  · intro ev s' _ hs'
    obtain ⟨hevent, hledger⟩ := account_env hs'
    refine ⟨hp.shared.forget (event_forgets hevent) (by rw [hledger]) (by rw [hledger]; simp), ?_⟩
    intro i x hi
    exact (hp.tasks hi).mono (by rw [hledger]; simp)
  · intro b
    cases b <;> exact caused_of_blameless rfl
  · rintro id ⟨t, h⟩ a e' rfl ht he
    obtain ⟨e, htakes, rfl⟩ := account_act he
    have hheeds := hok (t, h) ht
    exact Layer.keptIn_noted (remembersUpstream_takes hp ht htakes)
      (caused_next hp ht hheeds htakes) (caused_spawned htakes)
      (fun _ hi => caused_others hp ht htakes (hp.tasks hi))

/-- As long as no client is turned away or waits too long, and no operation fails for want of a
permit or, led by a refresh, of a proof, only upstream failures are remembered. -/
theorem only_upstream_failures_remembered (r : Resolver hk) (serveStale : ServeStaleConfig)
    (internalMaxTtl : Nat) (labels : List (Label hk)) (p : Account hk)
    (hg : Guarded (account hk).step UpstreamOnly (opening r serveStale internalMaxTtl) labels)
    (hr : run (account hk).step (opening r serveStale internalMaxTtl) labels = some p) :
    RemembersUpstream p.shared := by
  have hinit : (opening r serveStale internalMaxTtl).Inv RemembersUpstream Caused := by
    refine ⟨?_, ?_⟩
    · intro key failure hk
      cases hk
    · intro i x hi
      cases hi
  exact (invariant_of_run upstream_step hinit hg hr).shared

instance decidableUpstreamOnly (p : Account hk) : (l : Label hk) → Decidable (UpstreamOnly p l)
  | .act id a => inferInstanceAs (Decidable (∀ x ∈ p.tasks id, heedsUpstream _ x.1 a = true))
  | .env _ => isTrue trivial
  | .start _ _ => isTrue trivial

def openingSample : Account .sample := opening (singleResolver .background) defaultStale 86400

def refusedRun : List (Label .sample) :=
  ask .sample 0 ++
    ([.act 0 (.join false), .act 0 (.receive upstreamRefuses none), .act 0 .publish,
      .act 0 .readStreak, .act 0 (.respond 0 quietEnv)] : List (Label .sample))

theorem only_upstream_failures_remembered_refused :
    ∃ p, run (account .sample).step openingSample refusedRun = some p ∧
      (p.shared.1.cache.failures sampleKey).isSome = true ∧ RemembersUpstream p.shared :=
  exists_imp_of_any (by decide) fun p hrun hsome =>
    ⟨hsome, only_upstream_failures_remembered _ _ _ _ p (by decide) hrun⟩

def turnedAwayRun : List (Label .sample) :=
  ask .sample 0 ++
    ([.act 0 (.join true), .act 0 .readStreak, .act 0 (.respond 0 quietEnv)] :
      List (Label .sample))

theorem turned_away_client_remembered :
    ∃ p, run (account .sample).step openingSample turnedAwayRun = some p ∧
      p.shared.2.failed = [] ∧ ¬RemembersUpstream p.shared := by
  refine exists_imp_of_any (P := fun p =>
    (p.shared.1.cache.failures sampleKey).isSome = true ∧ p.shared.2.failed = []) (by decide) ?_
  rintro p - ⟨hsome, hnone⟩
  refine ⟨hnone, fun hremembers => ?_⟩
  obtain ⟨failure, hfailure⟩ := Option.isSome_iff_exists.mp hsome
  obtain ⟨e, hfailed, _⟩ := hremembers sampleKey failure hfailure
  rw [hnone] at hfailed
  cases hfailed

end Causes

section Backoff

/-- The entry after `n` operations failed and were remembered, none having succeeded since. The
counter is a 32-bit one that saturates. -/
def BackedOff (n : Nat) (limits : Nat × Nat) : Option FailureEntry → Prop
  | none => n = 0
  | some failure =>
    0 < n ∧ failure.consecutive = min n (2 ^ 32 - 1) ∧
      failure.ttl = min (limits.1 * 2 ^ min n 6) limits.2

def BackoffExact (s : Shared hk × Ledger) : Prop :=
  ∀ key, BackedOff (s.2.counted key).length (s.2.limits key) (s.1.cache.failures key)

theorem backedOff_backoff (r : Resolver hk) {c : DnsCache} {key : CacheKey} {n : Nat}
    {limits : Nat × Nat} (h : BackedOff n limits (c.failures key)) (now : Nat) :
    BackedOff (n + 1) (r.cfg.failureMinTtl, r.cfg.failureMaxTtl)
      (some (r.backoff (c.failureStreak key) now)) := by
  have hstreak : c.failureStreak key = min n (2 ^ 32 - 1) := by
    unfold DnsCache.failureStreak
    cases hf : c.failures key with
    | none =>
      rw [hf] at h
      rw [show n = 0 from h]
      rfl
    | some failure =>
      rw [hf] at h
      exact h.2.1
  have hcount : min (c.failureStreak key + 1) (2 ^ 32 - 1) = min (n + 1) (2 ^ 32 - 1) := by
    rw [hstreak]
    omega
  have hdoubled : min (min (n + 1) (2 ^ 32 - 1)) 6 = min (n + 1) 6 := by omega
  refine ⟨Nat.succ_pos n, hcount, ?_⟩
  simp only [Resolver.backoff, hcount, hdoubled]

variable {p q : Account hk} {id : Nat} {a : Action} {t : Task hk} {h : Note}
  {e : Effect (Shared hk) (Task hk)}

/-- The steps that keep the streak: no lookup finds the entry expired, and a task remembers a
failure only if its own operation failed, has not been counted yet, and nobody has remembered or
forgotten one of the key since the streak was read. -/
def heedsStreak (s : Shared hk × Ledger) (t : Task hk × Note) : Action → Bool
  | .checkFailure now => (s.1.cache.failures t.1.key).all fun failure => failure.isActive now
  | .respond _ _ =>
    match t.1.stage with
    | .recording _ streak =>
      t.2.cause.isSome && decide (t.2.op ∉ s.2.counted t.1.key) &&
        streak == s.1.cache.failureStreak t.1.key
    | _ => true
  | _ => true

def StreakKept (p : Account hk) : Label hk → Prop
  | .act id a => ∀ x ∈ p.tasks id, heedsStreak p.shared x a = true
  | .env (.dropFailure key) => p.shared.1.cache.failures key = none
  | _ => True

theorem backoffExact_of_eq {s s' : Shared hk × Ledger} (hs : BackoffExact s)
    (hf : s'.1.cache.failures = s.1.cache.failures) (hc : s'.2.counted = s.2.counted)
    (hl : s'.2.limits = s.2.limits) : BackoffExact s' := by
  intro key
  rw [hf, hc, hl]
  exact hs key

theorem backoffExact_succeed {s s' : Shared hk × Ledger} {key : CacheKey} {op : Nat}
    (hs : BackoffExact s) (hf : s'.1.cache.failures = Function.update s.1.cache.failures key none)
    (hl : s'.2 = s.2.succeed key op) : BackoffExact s' := by
  intro k
  rw [hf, hl]
  by_cases hkey : k = key
  · subst hkey
    simp only [Ledger.succeed, Function.update_self, List.length_nil, BackedOff]
  · simpa only [Ledger.succeed, Function.update_of_ne hkey] using hs k

theorem backoffExact_recorded {report : FailureReport} {streak now : Nat} {answer : Answer}
    (hp : BackoffExact p.shared) (hok : heedsStreak p.shared (t, h) a = true) {env : ResponseEnv}
    (ha : a = .respond now env) (hstage : t.stage = .recording report streak) :
    BackoffExact
      ((p.shared.1.recordFailure t.key (t.resolver.backoff streak now)).sent t none answer,
        (note p.shared.1 t a p.shared.2 h).record) := by
  subst ha
  simp only [heedsStreak, hstage, Bool.and_eq_true, decide_eq_true_eq, beq_iff_eq] at hok
  obtain ⟨⟨_, hnew⟩, rfl⟩ := hok
  rw [note_recorded _ _ _ _ _ _ hstage]
  intro key
  by_cases hkey : key = t.key
  · subst hkey
    have hcounted := backedOff_backoff t.resolver (hp t.key) now
    simpa only [Noted.keep, Ledger.record, Function.update_self, if_neg hnew, List.length_cons,
      Shared.sent, Shared.recordFailure, DnsCache.recordFailure, DnsCache.setFailure]
      using hcounted
  · simpa only [Noted.keep, Ledger.record, Function.update_of_ne hkey, Shared.sent,
      Shared.recordFailure, DnsCache.recordFailure, DnsCache.setFailure] using hp key

theorem backoffExact_takes (hp : BackoffExact p.shared)
    (hok : heedsStreak p.shared (t, h) a = true) (htakes : Takes p.shared.1 t a e) :
    BackoffExact (e.shared, (note p.shared.1 t a p.shared.2 h).record) := by
  have hkeep (hnot : ¬Records t a) (hmake : a ≠ .make)
      (hf : e.shared.cache.failures = p.shared.1.cache.failures) :
      BackoffExact (e.shared, (note p.shared.1 t a p.shared.2 h).record) := by
    obtain ⟨_, hlimits, hcounted⟩ := (note_notes p.shared.1 t p.shared.2 h a).remembered hnot
    exact backoffExact_of_eq hp hf (hcounted hmake) hlimits
  cases htakes with
  | unrefused _ _ hinactive =>
    apply hkeep (by rintro ⟨_, _, _, _, ha, _⟩; cases ha) nofun
    -- The guard leaves no entry to find expired.
    have hnone : p.shared.1.cache.failures t.key = none := by
      cases hf : p.shared.1.cache.failures t.key with
      | none => rfl
      | some failure =>
        simp only [heedsStreak, hf, Option.all_some] at hok
        rw [hinactive failure hf] at hok
        cases hok
    exact (congrArg _ hnone.symm).trans (Function.update_eq_self ..)
  | made _ _ => exact backoffExact_succeed hp (DnsCache.remember_failures ..) rfl
  | inserted _ =>
    exact hkeep (by rintro ⟨_, _, _, _, ha, _⟩; cases ha) nofun (insert_failures ..)
  | recorded _ hstage _ => exact backoffExact_recorded hp hok rfl hstage
  | sentFailure _ hstage _ | sentEntry _ hstage _ | settled _ hstage _ _ =>
    refine hkeep ?_ nofun rfl
    rintro ⟨_, _, _, _, _, hother⟩
    cases hstage.symm.trans hother
  | _ => exact hkeep (by rintro ⟨_, _, _, _, ha, _⟩; cases ha) nofun rfl

theorem backoffExact_event {s s' : Shared hk × Ledger} {ev : Event hk} (hs : BackoffExact s)
    (hok : ∀ key, ev = .dropFailure key → s.1.cache.failures key = none)
    (hstep : (account hk).env s ev = some s') : BackoffExact s' := by
  obtain ⟨hevent, hledger⟩ := account_env hstep
  refine backoffExact_of_eq hs ?_ (by rw [hledger]) (by rw [hledger])
  cases ev with
  | reload r =>
    rw [← Option.some.inj hevent]
  | drop key =>
    rw [← Option.some.inj hevent]
    rfl
  | dropFailure key =>
    rw [← Option.some.inj hevent]
    exact (congrArg _ (hok key rfl).symm).trans (Function.update_eq_self ..)

theorem streak_step {l : Label hk} (hp : p.Inv BackoffExact fun _ _ => True)
    (hok : StreakKept p l) (hstep : (account hk).step p l = some q) :
    q.Inv BackoffExact fun _ _ => True := by
  refine Program.inv_step_in hp hstep ?_ (fun _ => trivial) ?_
  · rintro ev s' rfl hs'
    refine ⟨backoffExact_event hp.shared ?_ hs', fun _ => trivial⟩
    rintro key rfl
    exact hok
  · rintro id ⟨t, h⟩ a e' rfl ht he
    obtain ⟨e, htakes, rfl⟩ := account_act he
    exact Layer.keptIn_noted (backoffExact_takes hp.shared (hok (t, h) ht) htakes)
      (fun _ _ => trivial) (fun _ _ _ => trivial) (fun _ _ => trivial)

/-- As long as every step keeps the streak, the entry counts the failed operations. -/
theorem backoff_counts_operations (r : Resolver hk) (serveStale : ServeStaleConfig)
    (internalMaxTtl : Nat) (labels : List (Label hk)) (p : Account hk)
    (hg : Guarded (account hk).step StreakKept (opening r serveStale internalMaxTtl) labels)
    (hr : run (account hk).step (opening r serveStale internalMaxTtl) labels = some p) :
    BackoffExact p.shared := by
  have hinit : (opening r serveStale internalMaxTtl).Inv BackoffExact fun _ _ => True :=
    ⟨fun _ => rfl, fun _ => trivial⟩
  exact (invariant_of_run streak_step hinit hg hr).shared

instance decidableStreakKept (p : Account hk) : (l : Label hk) → Decidable (StreakKept p l)
  | .act id a => inferInstanceAs (Decidable (∀ x ∈ p.tasks id, heedsStreak p.shared x a = true))
  | .env (.dropFailure key) => inferInstanceAs (Decidable (p.shared.1.cache.failures key = none))
  | .env (.reload _) => isTrue trivial
  | .env (.drop _) => isTrue trivial
  | .start _ _ => isTrue trivial

def failingClient (id now : Nat) : List (Label .sample) :=
  [.start id (.arrive addressAsker addressView), .act id (.checkFailure now),
    .act id (.lookup now false), .act id (.join false), .act id (.receive upstreamRefuses none),
    .act id .publish, .act id .readStreak, .act id (.respond now quietEnv)]

/-- Two clients miss together; the second leads once the first has failed. -/
def twoOperationsRun : List (Label .sample) :=
  ([.start 1 (.arrive addressAsker addressView), .act 1 (.checkFailure 0),
    .act 1 (.lookup 0 false)] : List (Label .sample)) ++ failingClient 0 0 ++
  ([.act 1 (.join false), .act 1 (.receive upstreamRefuses none), .act 1 .publish,
    .act 1 .readStreak, .act 1 (.respond 0 quietEnv)] : List (Label .sample))

theorem backoff_counts_operations_two :
    ∃ p, run (account .sample).step openingSample twoOperationsRun = some p ∧
      (p.shared.1.cache.failures sampleKey).map FailureEntry.consecutive = some 2 ∧
      BackoffExact p.shared :=
  exists_imp_of_any (by decide) fun p hrun htwo =>
    ⟨htwo, backoff_counts_operations _ _ _ _ p (by decide) hrun⟩

def expiredStreakRun : List (Label .sample) :=
  failingClient 0 0 ++ failingClient 1 (3 * nanosPerSec)

theorem expired_streak_starts_again :
    ∃ p, run (account .sample).step openingSample expiredStreakRun = some p ∧
      (p.shared.2.counted sampleKey).length = 2 ∧
      (p.shared.1.cache.failures sampleKey).map FailureEntry.consecutive = some 1 ∧
      ¬BackoffExact p.shared := by
  refine exists_imp_of_any (P := fun p => (p.shared.2.counted sampleKey).length = 2 ∧
    (p.shared.1.cache.failures sampleKey).map FailureEntry.consecutive = some 1) (by decide) ?_
  rintro p - ⟨hcounted, hentry⟩
  refine ⟨hcounted, hentry, fun hexact => ?_⟩
  obtain ⟨failure, hfailure, hone⟩ := Option.map_eq_some_iff.mp hentry
  have hkey := hexact sampleKey
  rw [hcounted, hfailure] at hkey
  rw [hkey.2.1] at hone
  exact absurd hone (by decide)

end Backoff

end System

end EgressDns
