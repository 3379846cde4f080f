import EgressDns.Resolver.Transitions

/-!
# What a step of the running resolver does

Every invariant of the system is proved from the relation `Does`: one case for each way a step can
change the shared state or what a task carries.
-/

namespace EgressDns.System

open Lib

variable {hk : Hickory}

/-- The cached answers, their history and the records of the run are the same. -/
structure Untouched (s s' : Shared hk) : Prop where
  current : s'.current = s.current
  answers : s'.cache.answers = s.cache.answers
  tags : s'.tags = s.tags
  condemned : s'.condemned = s.condemned
  evicted : s'.evicted = s.evicted
  responses : s'.responses = s.responses

namespace Untouched

variable (s : Shared hk)

theorem refl : Untouched s s := ⟨rfl, rfl, rfl, rfl, rfl, rfl⟩

theorem setFlight (key : CacheKey) (flying : Bool) : Untouched s (s.setFlight key flying) :=
  ⟨rfl, rfl, rfl, rfl, rfl, rfl⟩

theorem setFailure (key : CacheKey) (entry : Option FailureEntry) :
    Untouched s { s with cache := s.cache.setFailure key entry } :=
  ⟨rfl, rfl, rfl, rfl, rfl, rfl⟩

theorem remember (key : CacheKey) (entry : CacheEntry) :
    Untouched s { s with cache := s.cache.remember key entry } :=
  ⟨rfl, DnsCache.remember_answers .., rfl, rfl, rfl, rfl⟩

end Untouched

section Lookup

variable {c : DnsCache} {key : CacheKey} {now : Nat} {entry : CacheEntry}

theorem answers_of_found {age : Nat}
    (h : c.get key now = .fresh entry age ∨ c.get key now = .stale entry age) :
    c.answers key = some entry := by
  unfold DnsCache.get DnsCache.judge at h
  split at h
  · simp at h
  · rename_i held hheld
    split_ifs at h <;> simp_all

end Lookup

/-- The task may yet fetch with its own resolver. -/
def Stage.willFetch : Stage → Bool
  | .asked | .checked | .joining | .leading => true
  | _ => false

def Stage.idle : Stage → Bool
  | .received _ _ _ | .made _ | .promoting _ | .evicting _ | .answering _ _ _ => false
  | .judging _ none | .publishing (.ok _) | .ended (.ok _) | .refreshed (.ok _) => false
  | _ => true

variable {stage : Stage} {e : Effect (Shared hk) (Task hk)} {s : Shared hk} {t : Task hk}
  {a : Action} {entry : CacheEntry} {key : CacheKey}

theorem Stage.serves_of_idle (h : stage.idle = true) : stage.serves = [] := by
  cases stage with
  | publishing outcome | ended outcome
  | refreshed outcome => cases outcome <;> first | rfl | cases h
  | answering stored remaining stale => cases h
  | _ => rfl

theorem Stage.writes_of_idle (h : stage.idle = true) : stage.writes = [] := by
  unfold Stage.writes
  split
  · cases h
  · cases h
  · rfl

/-- What a step of a task does, with what the task was before it. -/
inductive Does (s : Shared hk) (t : Task hk) : Action → Effect (Shared hk) (Task hk) → Prop where
  | idle {a : Action} {s' : Shared hk} {stage : Stage} (hu : Untouched s s')
      (hidle : stage.idle = true) (hf : stage.willFetch = true → t.stage.willFetch = true) :
      Does s t a (.stay s' (some (t.goto stage)))
  | finished {a : Action} : Does s t a (.stay s none)
  | hit {now : Nat} {refreshAllowed : Bool} {entry : CacheEntry} (remaining : Nat) (stale : Bool)
      (held : s.cache.answers t.key = some entry) :
      Does s t (.lookup now refreshAllowed)
        (.stay s (some (t.goto (.answering (s.tagged t.key entry) remaining stale))))
  | expired {now : Nat} {refreshAllowed : Bool} {entry : CacheEntry} (asker : Asker)
      (held : s.cache.answers t.key = some entry) (hstage : t.stage = .checked) :
      Does s t (.lookup now refreshAllowed)
        (.stay s (some { t with role := .refresh (some (asker, s.tagged t.key entry))
                                stage := .joining }))
  | received {env : FetchEnv} {permit : Option Nat} (got : Resolver.Received)
      (child : Option Nat) (hstage : t.stage = .leading) :
      Does s t (.receive env permit)
        (.fork s (t.goto (.received got env (vettingOf t.resolver t.key env)))
          (child.map fun id => (id, validationOf t)))
  | made {s' : Shared hk} (got : Resolver.Received) (env : FetchEnv) (vetting : Vetting)
      (hstage : t.stage = .received got env vetting) (hu : Untouched s s') :
      Does s t .make
        (.stay s' (some (t.goto (.made
          { entry := t.resolver.entryOf got env s.cache.internalMaxTtl, vetting }))))
  | inserted (stored : Stored) (hstage : t.stage = .made stored) :
      Does s t .insert (.stay (s.insert t.key stored) (some (t.goto (.publishing (.ok stored)))))
  | published (outcome : Except ResolveError Stored) (hstage : t.stage = .publishing outcome) :
      Does s t .publish
        (.broadcast (s.setFlight t.key false) (some (t.conclude outcome))
          fun other => other.hear t.key (publish t.ledBy outcome))
  | cancelled :
      Does s t .cancel
        (.broadcast (s.setFlight t.key false) t.cancelled
          fun other => other.hear t.key (.error .leaderGone))
  | tookRefresh {asker : Asker} {stale stored : Stored}
      (hstage : t.stage = .refreshed (.ok stored))
      (hrole : t.role = .refresh (some (asker, stale))) :
      Does s t .takeRefresh
        (.stay s (some { t with role := .client asker, stage := .ended (.ok stored) }))
  | wentStale {asker : Asker} {stale : Stored} (child : Nat)
      (hrole : t.role = .refresh (some (asker, stale))) :
      Does s t (.goStale child)
        (.fork s { t with role := .refresh none }
          (some (child, { t with role := .client asker, stage := .answering stale 0 true })))
  | sent {now : Nat} {env : ResponseEnv} {s' : Shared hk} (source : Option Stored)
      (answer : Answer) (hu : Untouched s s')
      (hsource : ∀ stored, source = some stored → stored ∈ t.stage.serves) :
      Does s t (.respond now env)
        (.stay { s' with responses :=
          { key := t.key, bars := t.bars, source, answer
            strict := s'.current.cfg.dnssec.mode == .strict } :: s'.responses } none)
  | condemned {run : ValidatorRun} (msg : Message) :
      Does s t (.verdict run)
        (.stay (s.condemn t.key msg) (some (t.goto (.judging msg none))))
  | promoting {existing : CacheEntry} (status : DnssecStatus)
      (held : s.cache.answers t.key = some existing) :
      Does s t .read
        (.stay s (some (t.goto (.promoting
          (s.tagged t.key { existing with dnssec := status })))))
  | evicting (msg : Message) (hstage : t.stage = .judging msg none) :
      Does s t .read (.stay s (some (t.goto (.evicting msg))))
  | passedOver (msg : Message) (hstage : t.stage = .judging msg none)
      (hother : DnsCache.condemned (s.cache.answers t.key) (answerFingerprint hk msg) = false) :
      Does s t .read (.stay (s.evict t.key msg) none)
  | rewritten (stored : Stored) (hstage : t.stage = .promoting stored) :
      Does s t .write (.stay (s.rewrite t.key stored) none)
  | evicted (msg : Message) (hstage : t.stage = .evicting msg) :
      Does s t .write
        (.stay ({ s with cache := s.cache.invalidate t.key }.evict t.key msg) none)

theorem Takes.does (h : Takes s t a e) : Does s t a e := by
  cases h with
  | refused _ _ _ _ | followed _ _ | failed _ _ | timedOut _ _ | streakRead _ _ _ | judged _ _ _ =>
    exact .idle (.refl s) rfl nofun
  | unrefused _ hstage _ =>
    refine .idle (.setFailure s _ _) rfl fun _ => ?_
    rw [hstage]
    rfl
  | hit _ _ hget => exact .hit _ false (answers_of_found (.inl hget))
  | stale _ _ hget => exact .hit 0 true (answers_of_found (.inr hget))
  | expired _ hstage hget => exact .expired _ (answers_of_found (.inr hget)) hstage
  | missed _ hstage _ =>
    refine .idle (.refl s) rfl fun _ => ?_
    rw [hstage]
    rfl
  | shed _ _ =>
    unfold Task.shed
    split <;> exact .idle (.refl s) rfl nofun
  | led hstage _ =>
    refine .idle (.setFlight s _ _) rfl fun _ => ?_
    rw [hstage]
    rfl
  | received child hstage _ => exact .received _ child hstage
  | made hstage hentry =>
    subst hentry
    exact .made _ _ _ hstage (.remember s _ _)
  | inserted hstage => exact .inserted _ hstage
  | published hstage => exact .published _ hstage
  | cancelled _ => exact .cancelled
  | tookRefresh hrole hstage => exact .tookRefresh hstage hrole
  | wentStale hrole => exact .wentStale _ hrole
  | sentFailure answer _ _ =>
    refine .sent none answer (.refl s) ?_
    intro stored he
    cases he
  | sentEntry answer hstage _ =>
    refine .sent _ answer (.refl s) ?_
    rw [hstage]
    intro stored he
    cases he
    exact List.mem_singleton_self _
  | @settled _ _ _ outcome answer hstage _ _ =>
    refine .sent _ answer (.refl s) ?_
    rw [hstage]
    intro stored he
    cases outcome with
    | ok stored =>
      cases he
      exact List.mem_singleton_self _
    | error report => cases he
  | recorded answer _ _ =>
    refine .sent none answer (.setFailure s _ _) ?_
    intro stored he
    cases he
  | condemned msg _ => exact .condemned msg
  | unproved _ | unmatched _ => exact .finished
  | promoting _ held => exact .promoting _ held
  | evicting hstage => exact .evicting _ hstage
  | passedOver hstage hother => exact .passedOver _ hstage hother
  | rewritten hstage => exact .rewritten _ hstage
  | evicted hstage => exact .evicted _ hstage

theorem act_does (h : act s t a = some e) : Does s t a e := (act_takes h).does

theorem Takes.answers (htakes : Takes s t a e) (hentry : e.shared.cache.answers key = some entry) :
    s.cache.answers key = some entry ∨ ∃ stored ∈ t.stage.writes, entry = stored.entry := by
  have hwrite {stored : Stored} (hmem : stored ∈ t.stage.writes)
      (hset : Function.update s.cache.answers t.key (some stored.entry) key = some entry) :
      s.cache.answers key = some entry ∨ ∃ stored ∈ t.stage.writes, entry = stored.entry := by
    rcases update_eq_some hset with ⟨_, hnew⟩ | ⟨_, hold⟩
    · exact .inr ⟨stored, hmem, (Option.some.inj hnew).symm⟩
    · exact .inl hold
  cases htakes with
  | made _ _ =>
    simp only [Effect.stay, DnsCache.remember_answers] at hentry
    exact .inl hentry
  | @inserted stored hstage =>
    simp only [Effect.stay, Shared.insert, DnsCache.insert] at hentry
    split at hentry
    · exact .inl hentry
    · exact hwrite (by simp only [hstage, Stage.writes, List.mem_singleton]) hentry
  | rewritten hstage =>
    exact hwrite (by simp only [hstage, Stage.writes, List.mem_singleton]) hentry
  | evicted _ =>
    rcases update_eq_some hentry with ⟨_, hnone⟩ | ⟨_, hold⟩
    · cases hnone
    · exact .inl hold
  | _ => exact .inl hentry

theorem event_answers {s' : Shared hk} {ev : Event hk} (h : event s ev = some s')
    (hentry : s'.cache.answers key = some entry) : s.cache.answers key = some entry := by
  cases ev with
  | reload r | dropFailure k =>
    cases h
    exact hentry
  | drop k =>
    cases h
    rcases update_eq_some hentry with ⟨_, hnone⟩ | ⟨_, hold⟩
    · cases hnone
    · exact hold

end EgressDns.System
