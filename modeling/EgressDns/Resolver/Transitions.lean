import EgressDns.Resolver.System

/-!
# The transitions of the running resolver

`Takes` lists every step a task can take, with what it was before the step and the whole effect.
-/

namespace EgressDns.System

open Lib

variable {hk : Hickory} {key : CacheKey} {c : DnsCache} {now : Nat}

theorem failure_of_inactive
    (h : ∀ failure, c.failures key = some failure → failure.isActive now = false) :
    c.failure key now = (none, c.clearFailure key) := by
  unfold DnsCache.failure
  split
  · rename_i hnone
    have hself : Function.update c.failures key none = c.failures := by
      rw [← hnone]
      exact Function.update_eq_self ..
    simp only [DnsCache.clearFailure, DnsCache.setFailure, hself]
  · rename_i failure hfailure
    rw [if_neg (Bool.eq_false_iff.mp (h failure hfailure))]

def Shared.sent (s : Shared hk) (t : Task hk) (source : Option Stored) (answer : Answer) :
    Shared hk :=
  { s with
    responses :=
      { key := t.key, bars := t.bars, source, answer
        strict := s.current.cfg.dnssec.mode == .strict } :: s.responses }

inductive Takes (s : Shared hk) (t : Task hk) : Action → Effect (Shared hk) (Task hk) → Prop where
  | refused {now : Nat} {asker : Asker} {failure : FailureEntry} (hrole : t.role = .client asker)
      (hstage : t.stage = .asked) (hfailure : s.cache.failures t.key = some failure)
      (hactive : failure.isActive now = true) :
      Takes s t (.checkFailure now) (.stay s (some (t.goto (.refused failure))))
  | unrefused {now : Nat} {asker : Asker} (hrole : t.role = .client asker)
      (hstage : t.stage = .asked)
      (hinactive : ∀ failure, s.cache.failures t.key = some failure →
        failure.isActive now = false) :
      Takes s t (.checkFailure now)
        (.stay { s with cache := s.cache.clearFailure t.key } (some (t.goto .checked)))
  | hit {now : Nat} {allowed : Bool} {asker : Asker} {entry : CacheEntry} {remaining : Nat}
      (hrole : t.role = .client asker) (hstage : t.stage = .checked)
      (hget : s.cache.get t.key now = .fresh entry remaining) :
      Takes s t (.lookup now allowed)
        (.stay s (some (t.goto (.answering (s.tagged t.key entry) remaining false))))
  | stale {now : Nat} {asker : Asker} {entry : CacheEntry} {staleness : Nat}
      (hrole : t.role = .client asker) (hstage : t.stage = .checked)
      (hget : s.cache.get t.key now = .stale entry staleness) :
      Takes s t (.lookup now false)
        (.stay s (some (t.goto (.answering (s.tagged t.key entry) 0 true))))
  | expired {now : Nat} {asker : Asker} {entry : CacheEntry} {staleness : Nat}
      (hrole : t.role = .client asker) (hstage : t.stage = .checked)
      (hget : s.cache.get t.key now = .stale entry staleness) :
      Takes s t (.lookup now true)
        (.stay s (some { t with role := .refresh (some (asker, s.tagged t.key entry))
                                stage := .joining }))
  | missed {now : Nat} {allowed : Bool} {asker : Asker} (hrole : t.role = .client asker)
      (hstage : t.stage = .checked) (hget : s.cache.get t.key now = .miss) :
      Takes s t (.lookup now allowed) (.stay s (some (t.goto .joining)))
  | followed {saturated : Bool} (hstage : t.stage = .joining)
      (hfly : s.inFlight t.key = true) :
      Takes s t (.join saturated) (.stay s (some (t.goto .following)))
  | shed (hstage : t.stage = .joining) (hfree : s.inFlight t.key = false) :
      Takes s t (.join true) (.stay s (some t.shed))
  | led (hstage : t.stage = .joining) (hfree : s.inFlight t.key = false) :
      Takes s t (.join false) (.stay (s.setFlight t.key true) (some (t.goto .leading)))
  | failed {env : FetchEnv} {permit : Option Nat} {e : ResolveError}
      (hstage : t.stage = .leading) (herror : t.resolver.receive t.key env = some (.error e)) :
      Takes s t (.receive env permit) (.stay s (some (t.goto (.publishing (.error e)))))
  | received {env : FetchEnv} {permit : Option Nat} {got : Resolver.Received}
      (child : Option Nat) (hstage : t.stage = .leading)
      (hgot : t.resolver.receive t.key env = some (.ok got)) :
      Takes s t (.receive env permit)
        (.fork s (t.goto (.received got env (vettingOf t.resolver t.key env)))
          (child.map fun id => (id, validationOf t)))
  | made {got : Resolver.Received} {env : FetchEnv} {vetting : Vetting} {entry : CacheEntry}
      (hstage : t.stage = .received got env vetting)
      (hentry : entry = t.resolver.entryOf got env s.cache.internalMaxTtl) :
      Takes s t .make
        (.stay { s with cache := s.cache.remember t.key entry }
          (some (t.goto (.made { entry, vetting }))))
  | inserted {stored : Stored} (hstage : t.stage = .made stored) :
      Takes s t .insert (.stay (s.insert t.key stored) (some (t.goto (.publishing (.ok stored)))))
  | published {outcome : Except ResolveError Stored} (hstage : t.stage = .publishing outcome) :
      Takes s t .publish
        (.broadcast (s.setFlight t.key false) (some (t.conclude outcome))
          fun other => other.hear t.key (publish t.ledBy outcome))
  | cancelled (hstage : t.stage.canCancel = true) :
      Takes s t .cancel
        (.broadcast (s.setFlight t.key false) t.cancelled
          fun other => other.hear t.key (.error .leaderGone))
  | timedOut {asker : Asker} (hrole : t.role = .client asker) (hstage : t.stage = .following) :
      Takes s t .timeout (.stay s (some (t.goto (.ended (followed none)))))
  | tookRefresh {asker : Asker} {stale stored : Stored}
      (hrole : t.role = .refresh (some (asker, stale)))
      (hstage : t.stage = .refreshed (.ok stored)) :
      Takes s t .takeRefresh
        (.stay s (some { t with role := .client asker, stage := .ended (.ok stored) }))
  | wentStale {asker : Asker} {stale : Stored} {child : Nat}
      (hrole : t.role = .refresh (some (asker, stale))) :
      Takes s t (.goStale child)
        (.fork s { t with role := .refresh none }
          (some (child, { t with role := .client asker, stage := .answering stale 0 true })))
  | streakRead {asker : Asker} {report : FailureReport} (hrole : t.role = .client asker)
      (hstage : t.stage = .ended (.error report)) (hremember : report.remember = true) :
      Takes s t .readStreak
        (.stay s (some (t.goto (.recording report (s.cache.failureStreak t.key)))))
  | sentFailure {now : Nat} {env : ResponseEnv} {asker : Asker} {failure : FailureEntry}
      (answer : Answer) (hstage : t.stage = .refused failure) (hrole : t.role = .client asker) :
      Takes s t (.respond now env) (.stay (s.sent t none answer) none)
  | sentEntry {now : Nat} {env : ResponseEnv} {asker : Asker} {stored : Stored} {remaining : Nat}
      {stale : Bool} (answer : Answer) (hstage : t.stage = .answering stored remaining stale)
      (hrole : t.role = .client asker) :
      Takes s t (.respond now env) (.stay (s.sent t (some stored) answer) none)
  | settled {now : Nat} {env : ResponseEnv} {asker : Asker}
      {outcome : Except FailureReport Stored} (answer : Answer)
      (hstage : t.stage = .ended outcome) (hremember : mustRecord outcome = false)
      (hrole : t.role = .client asker) :
      Takes s t (.respond now env) (.stay (s.sent t outcome.toOption answer) none)
  | recorded {now : Nat} {env : ResponseEnv} {asker : Asker} {report : FailureReport}
      {streak : Nat} (answer : Answer) (hstage : t.stage = .recording report streak)
      (hrole : t.role = .client asker) :
      Takes s t (.respond now env)
        (.stay ((s.recordFailure t.key (t.resolver.backoff streak now)).sent t none answer) none)
  | condemned {run : ValidatorRun} (msg : Message) (hstage : t.stage = .validating) :
      Takes s t (.verdict run) (.stay (s.condemn t.key msg) (some (t.goto (.judging msg none))))
  | judged {run : ValidatorRun} (msg : Message) (status : DnssecStatus)
      (hstage : t.stage = .validating) :
      Takes s t (.verdict run) (.stay s (some (t.goto (.judging msg (some status)))))
  | unproved {run : ValidatorRun} (hstage : t.stage = .validating) :
      Takes s t (.verdict run) (.stay s none)
  | promoting {msg : Message} {status : DnssecStatus} {existing : CacheEntry}
      (hstage : t.stage = .judging msg (some status))
      (held : s.cache.answers t.key = some existing) :
      Takes s t .read
        (.stay s (some (t.goto (.promoting
          (s.tagged t.key { existing with dnssec := status })))))
  | unmatched {msg : Message} {status : DnssecStatus}
      (hstage : t.stage = .judging msg (some status)) : Takes s t .read (.stay s none)
  | evicting {msg : Message} (hstage : t.stage = .judging msg none) :
      Takes s t .read (.stay s (some (t.goto (.evicting msg))))
  | passedOver {msg : Message} (hstage : t.stage = .judging msg none)
      (hother : DnsCache.condemned (s.cache.answers t.key) (answerFingerprint hk msg) = false) :
      Takes s t .read (.stay (s.evict t.key msg) none)
  | rewritten {stored : Stored} (hstage : t.stage = .promoting stored) :
      Takes s t .write (.stay (s.rewrite t.key stored) none)
  | evicted {msg : Message} (hstage : t.stage = .evicting msg) :
      Takes s t .write
        (.stay ({ s with cache := s.cache.invalidate t.key }.evict t.key msg) none)

theorem promoted_eq_some {held : Option CacheEntry} {entry : CacheEntry} {fingerprint : UInt64}
    {status : DnssecStatus} (h : DnsCache.promoted held fingerprint status = some entry) :
    ∃ existing, held = some existing ∧ entry = { existing with dnssec := status } := by
  unfold DnsCache.promoted at h
  split at h
  · cases h
  · rename_i existing
    split_ifs at h
    cases h
    exact ⟨existing, rfl, rfl⟩

section Actions

variable {s : Shared hk} {t : Task hk} {e : Effect (Shared hk) (Task hk)}

theorem checkFailure_takes {now : Nat} (h : checkFailure s t now = some e) :
    Takes s t (.checkFailure now) e := by
  unfold checkFailure at h
  split at h
  · rename_i asker hrole hstage
    by_cases hactive : ∃ failure, s.cache.failures t.key = some failure ∧
        failure.isActive now = true
    · obtain ⟨failure, hfailure, hactive⟩ := hactive
      simp only [DnsCache.failure, hfailure, if_pos hactive] at h
      cases h
      exact .refused hrole hstage hfailure hactive
    · have hinactive : ∀ failure, s.cache.failures t.key = some failure →
          failure.isActive now = false := by
        intro failure hfailure
        by_contra hne
        exact hactive ⟨failure, hfailure, Bool.not_eq_false _ ▸ hne⟩
      rw [failure_of_inactive hinactive] at h
      cases h
      exact .unrefused hrole hstage hinactive
  · cases h

theorem lookup_takes {now : Nat} {allowed : Bool} (h : lookup s t now allowed = some e) :
    Takes s t (.lookup now allowed) e := by
  unfold lookup at h
  split at h
  · rename_i asker hrole hstage
    split at h
    · rename_i entry remaining hget
      cases h
      exact .hit hrole hstage hget
    · rename_i entry staleness hget
      cases allowed with
      | true =>
        cases h
        exact .expired hrole hstage hget
      | false =>
        cases h
        exact .stale hrole hstage hget
    · rename_i hget
      cases h
      exact .missed hrole hstage hget
  · cases h

theorem join_takes {saturated : Bool} (h : join s t saturated = some e) :
    Takes s t (.join saturated) e := by
  unfold join at h
  split at h
  · rename_i hstage
    split at h
    · rename_i hfly
      cases h
      exact .followed hstage hfly
    · rename_i hfree
      cases saturated with
      | true =>
        cases h
        exact .shed hstage (Bool.eq_false_iff.mpr hfree)
      | false =>
        cases h
        exact .led hstage (Bool.eq_false_iff.mpr hfree)
  · cases h

theorem receive_takes {env : FetchEnv} {permit : Option Nat}
    (h : receive s t env permit = some e) : Takes s t (.receive env permit) e := by
  unfold receive at h
  split at h
  · rename_i hstage
    split at h
    · cases h
    · rename_i err herror
      cases h
      exact .failed hstage herror
    · rename_i got hgot
      cases h
      split
      · exact .received permit hstage hgot
      · exact .received none hstage hgot
  · cases h

theorem make_takes (h : make s t = some e) : Takes s t .make e := by
  unfold make at h
  split at h
  · rename_i got env vetting hstage
    cases h
    exact .made hstage rfl
  · cases h

theorem insertEntry_takes (h : insertEntry s t = some e) : Takes s t .insert e := by
  unfold insertEntry at h
  split at h
  · rename_i stored hstage
    cases h
    exact .inserted hstage
  · cases h

theorem publishFlight_takes (h : publishFlight s t = some e) : Takes s t .publish e := by
  unfold publishFlight at h
  split at h
  · rename_i outcome hstage
    cases h
    exact .published hstage
  · cases h

theorem cancel_takes (h : cancel s t = some e) : Takes s t .cancel e := by
  unfold cancel at h
  split at h
  · rename_i hstage
    cases h
    exact .cancelled hstage
  · cases h

theorem timeout_takes (h : timeout s t = some e) : Takes s t .timeout e := by
  unfold timeout at h
  split at h
  · rename_i asker hrole hstage
    cases h
    exact .timedOut hrole hstage
  · cases h

theorem takeRefresh_takes (h : takeRefresh s t = some e) : Takes s t .takeRefresh e := by
  unfold takeRefresh at h
  split at h
  · rename_i asker stale stored hrole hstage
    cases h
    exact .tookRefresh hrole hstage
  · cases h

theorem goStale_takes {child : Nat} (h : goStale s t child = some e) :
    Takes s t (.goStale child) e := by
  unfold goStale at h
  split at h
  · rename_i asker stale hrole
    cases h
    exact .wentStale hrole
  · cases h

theorem readStreak_takes (h : readStreak s t = some e) : Takes s t .readStreak e := by
  unfold readStreak at h
  split at h
  · rename_i asker report hrole hstage
    split at h
    · rename_i hremember
      cases h
      exact .streakRead hrole hstage hremember
    · cases h
  · cases h

theorem respond_takes {now : Nat} {env : ResponseEnv} (h : respond s t now env = some e) :
    Takes s t (.respond now env) e := by
  unfold respond at h
  split at h
  · rename_i asker hrole
    split at h
    · rename_i failure hstage
      cases h
      exact .sentFailure _ hstage hrole
    · rename_i stored remaining stale hstage
      cases h
      exact .sentEntry _ hstage hrole
    · rename_i outcome hstage
      split at h
      · cases h
      · rename_i hremember
        cases h
        exact .settled _ hstage (Bool.eq_false_iff.mpr hremember) hrole
    · rename_i report streak hstage
      cases h
      exact .recorded _ hstage hrole
    · cases h
  · cases h

theorem verdict_takes {run : ValidatorRun} (h : verdict s t run = some e) :
    Takes s t (.verdict run) e := by
  unfold verdict at h
  split at h
  · rename_i hstage
    split at h
    · rename_i msg _ _
      split at h
      · cases h
        exact .condemned msg hstage
      · cases h
        exact .unproved hstage
    · rename_i msg _ _
      cases h
      exact .judged msg .secure hstage
    · rename_i msg _ _
      cases h
      exact .judged msg .insecure hstage
    · cases h
      exact .unproved hstage
  · cases h

theorem readCache_takes (h : readCache s t = some e) : Takes s t .read e := by
  unfold readCache at h
  split at h
  · rename_i msg status hstage
    split at h
    · rename_i updated hupdated
      obtain ⟨existing, held, rfl⟩ := promoted_eq_some hupdated
      cases h
      exact .promoting hstage held
    · cases h
      exact .unmatched hstage
  · rename_i msg hstage
    split at h
    · cases h
      exact .evicting hstage
    · rename_i hother
      cases h
      exact .passedOver hstage (Bool.eq_false_iff.mpr hother)
  · cases h

theorem writeCache_takes (h : writeCache s t = some e) : Takes s t .write e := by
  unfold writeCache at h
  split at h
  · rename_i stored hstage
    cases h
    exact .rewritten hstage
  · rename_i msg hstage
    cases h
    exact .evicted hstage
  · cases h

theorem act_takes {a : Action} (h : act s t a = some e) : Takes s t a e := by
  cases a with
  | checkFailure now => exact checkFailure_takes h
  | lookup now allowed => exact lookup_takes h
  | join saturated => exact join_takes h
  | receive env permit => exact receive_takes h
  | make => exact make_takes h
  | insert => exact insertEntry_takes h
  | publish => exact publishFlight_takes h
  | cancel => exact cancel_takes h
  | timeout => exact timeout_takes h
  | takeRefresh => exact takeRefresh_takes h
  | goStale child => exact goStale_takes h
  | readStreak => exact readStreak_takes h
  | respond now env => exact respond_takes h
  | verdict run => exact verdict_takes h
  | read => exact readCache_takes h
  | write => exact writeCache_takes h

end Actions

def Task.follows (t : Task hk) (key : CacheKey) : Bool :=
  match t.stage with
  | .following => t.key = key
  | _ => false

section Hearing

variable {u : Task hk} {key : CacheKey}

theorem hear_of_not_follows (h : u.follows key = false) (flight : Except FlightError Stored) :
    u.hear key flight = u := by
  unfold Task.hear
  split
  · rename_i hkey
    split
    · rename_i hstage
      simp [Task.follows, hstage, hkey] at h
    · rename_i hstage _
      simp [Task.follows, hstage, hkey] at h
    · rfl
  · rfl

theorem hear_of_follows (h : u.follows key = true) (flight : Except FlightError Stored) :
    u.key = key ∧
      (u.hear key flight = u.goto (.refreshed (flight.mapError fun _ =>
          .allFailed "coalesced refresh failed")) ∨
        u.hear key flight = u.goto (.ended (followed (some flight)))) := by
  unfold Task.follows at h
  split at h
  · rename_i hstage
    have hkey : u.key = key := of_decide_eq_true h
    refine ⟨hkey, ?_⟩
    cases hrole : u.role with
    | refresh waiting | client asker | validation => simp [Task.hear, hkey, hrole, hstage]
  · cases h

theorem hear_key (u : Task hk) (key : CacheKey) (flight : Except FlightError Stored) :
    (u.hear key flight).key = u.key ∧ (u.hear key flight).role = u.role := by
  cases hf : u.follows key with
  | false =>
    rw [hear_of_not_follows hf]
    exact ⟨rfl, rfl⟩
  | true => obtain ⟨_, he | he⟩ := hear_of_follows hf flight <;> rw [he] <;> exact ⟨rfl, rfl⟩

end Hearing

theorem Takes.next_keeps {s : Shared hk} {t t' : Task hk} {a : Action}
    {e : Effect (Shared hk) (Task hk)} (h : Takes s t a e) (ht' : e.next = some t') :
    t'.resolver = t.resolver ∧ t'.key = t.key := by
  cases h with
  | shed _ _ =>
    cases ht'
    unfold Task.shed
    split <;> exact ⟨rfl, rfl⟩
  | published _ =>
    cases ht'
    unfold Task.conclude
    split <;> exact ⟨rfl, rfl⟩
  | cancelled _ =>
    unfold Effect.broadcast Task.cancelled at ht'
    split at ht' <;> cases ht'
    exact ⟨rfl, rfl⟩
  | _ => cases ht' <;> exact ⟨rfl, rfl⟩

end EgressDns.System
