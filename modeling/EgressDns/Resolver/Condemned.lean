import EgressDns.Resolver.Steps
import EgressDns.Resolver.Strict

/-!
# Answers a verdict has condemned

A Bogus verdict with a failed signature evicts the answer it examined from the cache. Nothing
remembers the answer beyond that. The invariant says which responses the eviction alone rules out:
all of those that begin after the verdict, as long as nobody stores or publishes the answer again
and nobody looks it up before it is gone.
-/

namespace EgressDns.System

open Lib

variable {hk : Hickory}

variable (hk) in
def Barred (bars : List (CacheKey × Message)) (key : CacheKey) (msg : Message) : Prop :=
  ∃ b ∈ bars, b.1 = key ∧ SameVariant hk msg b.2

instance (bars : List (CacheKey × Message)) (key : CacheKey) (msg : Message) :
    Decidable (Barred hk bars key msg) :=
  inferInstanceAs (Decidable (∃ b ∈ bars, b.1 = key ∧ SameVariant hk msg b.2))

/-- No response was built from an answer found forged before the response began. -/
def Shared.ResponsesUnbarred (s : Shared hk) : Prop :=
  ∀ x ∈ s.responses, ∀ stored, x.source = some stored → ¬Barred hk x.bars x.key stored.entry.message

def Action.hands (a : Action) (stage : Stage) : List Stored :=
  match a with
  | .insert => stage.writes
  | .write => stage.writes
  | .publish => stage.serves
  | _ => []

def Action.isLookup : Action → Bool
  | .lookup _ _ => true
  | _ => false

def Task.Avoids (s : Shared hk) (t : Task hk) (a : Action) : Prop :=
  (∀ stored ∈ a.hands t.stage, ¬Barred hk s.condemned t.key stored.entry.message) ∧
    (a.isLookup = true → ∀ b ∈ t.bars, b.1 = t.key → b ∈ s.evicted)

instance (s : Shared hk) (t : Task hk) (a : Action) : Decidable (t.Avoids s a) :=
  inferInstanceAs (Decidable (_ ∧ _))

/-- The side condition of a run: once an answer is found forged, no fetch inserts it, no promotion
rewrites it and no leader publishes it, and no client that comes later looks up its key before it
is evicted. -/
def NotStoredAgain (p : State hk) : Label hk → Prop
  | .act id a => ∀ t ∈ p.tasks id, t.Avoids p.shared a
  | _ => True

instance (p : State hk) : ∀ l, Decidable (NotStoredAgain p l)
  | .act id a => inferInstanceAs (Decidable (∀ t ∈ p.tasks id, t.Avoids p.shared a))
  | .env _ => isTrue trivial
  | .start _ _ => isTrue trivial

def Stage.condemns : Stage → List Message
  | .judging msg none => [msg]
  | .evicting msg => [msg]
  | _ => []

structure EvictSound (s : Shared hk) : Prop where
  evicted : ∀ b ∈ s.evicted, b ∈ s.condemned
  fingerprinted : ∀ key entry, s.cache.answers key = some entry → entry.Fingerprinted hk
  unbarred : ∀ key entry, s.cache.answers key = some entry →
    ¬Barred hk s.evicted key entry.message
  responses : s.ResponsesUnbarred

structure EvictGood (s : Shared hk) (t : Task hk) : Prop where
  bars : ∀ b ∈ t.bars, b ∈ s.condemned
  role : ∀ stored ∈ t.role.serves, ¬Barred hk t.bars t.key stored.entry.message
  stage : ∀ stored ∈ t.stage.serves, ¬Barred hk t.bars t.key stored.entry.message
  writes : ∀ stored ∈ t.stage.writes, stored.entry.Fingerprinted hk
  condemns : ∀ msg ∈ t.stage.condemns, (t.key, msg) ∈ s.condemned

theorem Barred.mono {bars bars' : List (CacheKey × Message)} {key : CacheKey} {msg : Message}
    (h : Barred hk bars key msg) (hsub : ∀ b ∈ bars, b ∈ bars') : Barred hk bars' key msg := by
  obtain ⟨b, hb, hsame⟩ := h
  exact ⟨b, hsub b hb, hsame⟩

theorem Stage.condemns_of_idle {stage : Stage} (h : stage.idle = true) : stage.condemns = [] := by
  unfold Stage.condemns
  split
  · cases h
  · cases h
  · rfl

section Keeps

variable {s s' : Shared hk} {t : Task hk}

theorem EvictSound.untouched (h : EvictSound s) (hu : Untouched s s') : EvictSound s' where
  evicted := by
    rw [hu.evicted, hu.condemned]
    exact h.evicted
  fingerprinted := by
    rw [hu.answers]
    exact h.fingerprinted
  unbarred := by
    rw [hu.answers, hu.evicted]
    exact h.unbarred
  responses := by
    unfold Shared.ResponsesUnbarred
    rw [hu.responses]
    exact h.responses

theorem EvictGood.mono (h : EvictGood s t) (hc : ∀ b ∈ s.condemned, b ∈ s'.condemned) :
    EvictGood s' t where
  bars b hb := hc b (h.bars b hb)
  role := h.role
  stage := h.stage
  writes := h.writes
  condemns msg hm := hc _ (h.condemns msg hm)

theorem EvictGood.condemned (h : EvictGood s t) (hc : s'.condemned = s.condemned) :
    EvictGood s' t := by
  refine h.mono ?_
  rw [hc]
  exact fun _ hb => hb

theorem EvictGood.clear (ht : EvictGood s t) {key : CacheKey} {msg : Message}
    (h : ¬Barred hk s.condemned key msg) : ¬Barred hk t.bars key msg :=
  fun hb => h (hb.mono ht.bars)

theorem not_barred_of_cached (hs : EvictSound s) {entry : CacheEntry}
    (h : s.cache.answers t.key = some entry)
    (hevicted : ∀ b ∈ t.bars, b.1 = t.key → b ∈ s.evicted) :
    ¬Barred hk t.bars t.key entry.message := by
  rintro ⟨b, hb, hkey, hsame⟩
  exact hs.unbarred t.key entry h ⟨b, hevicted b hb hkey, hkey, hsame⟩

variable {stage : Stage}

theorem EvictGood.goto (h : EvictGood s t)
    (hserves : ∀ stored ∈ stage.serves, ¬Barred hk t.bars t.key stored.entry.message)
    (hwrites : ∀ stored ∈ stage.writes, stored.entry.Fingerprinted hk)
    (hcond : ∀ msg ∈ stage.condemns, (t.key, msg) ∈ s.condemned) :
    EvictGood s (t.goto stage) where
  bars := h.bars
  role := h.role
  stage := hserves
  writes := hwrites
  condemns := hcond

theorem EvictGood.idle (h : EvictGood s t) (hidle : stage.idle = true) :
    EvictGood s (t.goto stage) := by
  refine h.goto ?_ ?_ ?_
  · rw [Stage.serves_of_idle hidle]
    exact List.forall_mem_nil _
  · rw [Stage.writes_of_idle hidle]
    exact List.forall_mem_nil _
  · rw [Stage.condemns_of_idle hidle]
    exact List.forall_mem_nil _

theorem EvictGood.serve (h : EvictGood s t) (entries : List Stored)
    (hserves : stage.serves = entries) (hwrites : stage.writes = []) (hcond : stage.condemns = [])
    (he : ∀ stored ∈ entries, ¬Barred hk t.bars t.key stored.entry.message) :
    EvictGood s (t.goto stage) := by
  refine h.goto ?_ ?_ ?_
  · rw [hserves]
    exact he
  · rw [hwrites]
    exact List.forall_mem_nil _
  · rw [hcond]
    exact List.forall_mem_nil _

theorem EvictGood.withRole (h : EvictGood s t) (role : Role)
    (hserves : ∀ stored ∈ role.serves, ¬Barred hk t.bars t.key stored.entry.message) :
    EvictGood s { t with role } where
  bars := h.bars
  role := hserves
  stage := h.stage
  writes := h.writes
  condemns := h.condemns

theorem kept_stay_evict {t' : Task hk} (h : EvictSound s) (hu : Untouched s s')
    (ht : EvictGood s t') : Kept EvictSound EvictGood s (.stay s' (some t')) :=
  .stay (h.untouched hu) (ht.condemned hu.condemned) fun _ h₁ => h₁.condemned hu.condemned

theorem kept_quit_evict (h : EvictSound s') (hc : s'.condemned = s.condemned) :
    Kept EvictSound EvictGood s (.stay s' none) :=
  .quit h fun _ h₁ => h₁.condemned hc

end Keeps

section Actions

variable {s : Shared hk} {t : Task hk} {e : Effect (Shared hk) (Task hk)} {key : CacheKey}
  {entry : CacheEntry} {msg : Message}

theorem EvictSound.write {s' : Shared hk} (hs : EvictSound s)
    (hanswers : s'.cache.answers = Function.update s.cache.answers key (some entry))
    (hcondemned : s'.condemned = s.condemned) (hevicted : s'.evicted = s.evicted)
    (hresponses : s'.responses = s.responses) (hfp : entry.Fingerprinted hk)
    (hclear : ¬Barred hk s.condemned key entry.message) : EvictSound s' where
  evicted := by
    rw [hcondemned, hevicted]
    exact hs.evicted
  fingerprinted k e he := by
    rw [hanswers] at he
    rcases update_eq_some he with ⟨rfl, hnew⟩ | ⟨_, hold⟩
    · cases hnew
      exact hfp
    · exact hs.fingerprinted k e hold
  unbarred k e he := by
    rw [hevicted]
    rw [hanswers] at he
    rcases update_eq_some he with ⟨rfl, hnew⟩ | ⟨_, hold⟩
    · cases hnew
      exact fun hb => hclear (hb.mono hs.evicted)
    · exact hs.unbarred k e hold
  responses := by
    unfold Shared.ResponsesUnbarred
    rw [hresponses]
    exact hs.responses

theorem EvictSound.respond (hs : EvictSound s) (x : Response)
    (hx : ∀ stored, x.source = some stored → ¬Barred hk x.bars x.key stored.entry.message) :
    EvictSound { s with responses := x :: s.responses } where
  evicted := hs.evicted
  fingerprinted := hs.fingerprinted
  unbarred := hs.unbarred
  responses y hy := by
    rcases List.mem_cons.mp hy with rfl | hold
    · exact hx
    · exact hs.responses y hold

theorem EvictSound.condemn (hs : EvictSound s) (key : CacheKey) (msg : Message) :
    EvictSound (s.condemn key msg) where
  evicted b hb := List.mem_cons_of_mem _ (hs.evicted b hb)
  fingerprinted := hs.fingerprinted
  unbarred := hs.unbarred
  responses := hs.responses

theorem EvictGood.condemn (ht : EvictGood s t) (key : CacheKey) (msg : Message) :
    EvictGood (s.condemn key msg) t :=
  ht.mono fun _ hb => List.mem_cons_of_mem _ hb

section

variable (hs : EvictSound s)
include hs

/-- An eviction is complete: the cache holds nothing like the message it was about. -/
theorem EvictSound.evict (hj : (key, msg) ∈ s.condemned)
    (hc : ∀ entry, s.cache.answers key = some entry → ¬SameVariant hk entry.message msg) :
    EvictSound (s.evict key msg) where
  evicted b hb := by
    rcases List.mem_cons.mp hb with rfl | hold
    · exact hj
    · exact hs.evicted b hold
  fingerprinted := hs.fingerprinted
  unbarred k entry he := by
    rintro ⟨b, hb, rfl, hsame⟩
    rcases List.mem_cons.mp hb with rfl | hold
    · exact hc entry he hsame
    · exact hs.unbarred b.1 entry he ⟨b, hold, rfl, hsame⟩
  responses := hs.responses

theorem EvictSound.invalidate (key : CacheKey) :
    EvictSound { s with cache := s.cache.invalidate key } where
  evicted := hs.evicted
  fingerprinted k entry he := by
    rcases update_eq_some he with ⟨_, hnew⟩ | ⟨_, hold⟩
    · cases hnew
    · exact hs.fingerprinted k entry hold
  unbarred k entry he := by
    rcases update_eq_some he with ⟨_, hnew⟩ | ⟨_, hold⟩
    · cases hnew
    · exact hs.unbarred k entry hold
  responses := hs.responses

theorem not_sameVariant_of_not_condemned
    (h : DnsCache.condemned (s.cache.answers key) (answerFingerprint hk msg) = false)
    (he : s.cache.answers key = some entry) : ¬SameVariant hk entry.message msg := by
  intro hsame
  have hfp : entry.fingerprint = answerFingerprint hk msg :=
    (hs.fingerprinted key entry he).trans hsame.fingerprint
  simp [DnsCache.condemned, he, hfp] at h

theorem tagged_clear (held : s.cache.answers t.key = some entry)
    (hevicted : ∀ b ∈ t.bars, b.1 = t.key → b ∈ s.evicted) :
    ∀ stored ∈ [s.tagged t.key entry], ¬Barred hk t.bars t.key stored.entry.message := by
  intro stored hm
  rw [List.mem_singleton.mp hm]
  exact not_barred_of_cached hs held hevicted

theorem received_evict (ht : EvictGood s t) {env : FetchEnv} (got : Resolver.Received)
    (child : Option Nat) :
    Kept EvictSound EvictGood s
      (.fork s (t.goto (.received got env (vettingOf t.resolver t.key env)))
        (child.map fun id => (id, validationOf t))) := by
  refine .fork hs (ht.serve [] rfl rfl rfl (List.forall_mem_nil _)) ?_
  intro id t' he
  obtain ⟨_, _, heq⟩ := Option.map_eq_some_iff.mp he
  obtain ⟨rfl, rfl⟩ := Prod.mk.inj heq
  have hvalidating : EvictGood s (t.goto .validating) := ht.idle rfl
  exact hvalidating.withRole .validation (List.forall_mem_nil _)

theorem inserted_evict (ht : EvictGood s t) (stored : Stored) (hstage : t.stage = .made stored)
    (hclear : ¬Barred hk s.condemned t.key stored.entry.message) :
    Kept EvictSound EvictGood s
      (.stay (s.insert t.key stored) (some (t.goto (.publishing (.ok stored))))) := by
  have hfp : stored.entry.Fingerprinted hk := by
    refine ht.writes stored ?_
    rw [hstage]
    exact List.mem_singleton_self _
  have hnext : EvictGood s (t.goto (.publishing (.ok stored))) := by
    refine ht.serve [stored] rfl rfl rfl ?_
    intro got hm
    rw [List.mem_singleton.mp hm]
    exact ht.clear hclear
  unfold Shared.insert
  split
  · exact kept_stay_evict hs (.refl s) hnext
  · rename_i hne
    refine .stay (hs.write ?_ rfl rfl rfl hfp hclear) (hnext.condemned rfl)
      fun _ h₁ => h₁.condemned rfl
    rw [DnsCache.insert, if_neg hne]
    rfl

end

theorem hear_evict (ht : EvictGood s t) {flight : Except FlightError Stored}
    (he : ∀ stored ∈ outcomeEntry flight, ¬Barred hk t.bars key stored.entry.message) :
    EvictGood s (t.hear key flight) := by
  unfold Task.hear
  split
  · rename_i hkey
    subst hkey
    split
    · exact ht.serve (outcomeEntry flight) (outcomeEntry_mapError _ _) rfl rfl he
    · exact ht.serve (outcomeEntry flight) (outcomeEntry_followed _) rfl rfl he
    · exact ht
  · exact ht

theorem published_evict (hs : EvictSound s) (ht : EvictGood s t)
    (outcome : Except ResolveError Stored) (hstage : t.stage = .publishing outcome)
    (hclear : ∀ stored ∈ outcomeEntry outcome, ¬Barred hk s.condemned t.key stored.entry.message) :
    Kept EvictSound EvictGood s
      (.broadcast (s.setFlight t.key false) (some (t.conclude outcome))
        fun other => other.hear t.key (publish t.ledBy outcome)) := by
  have hserves := ht.stage
  rw [hstage] at hserves
  have hu := Untouched.setFlight s t.key false
  refine .broadcast (hs.untouched hu) ?_ ?_
  · intro t' he
    cases he
    refine EvictGood.condemned ?_ hu.condemned
    unfold Task.conclude
    split
    · exact ht.serve (outcomeEntry outcome) rfl rfl rfl hserves
    · exact ht.serve (outcomeEntry outcome) (outcomeEntry_mapError _ _) rfl rfl hserves
  · intro t' h₁
    refine (hear_evict h₁ ?_).condemned hu.condemned
    rw [outcomeEntry_publish]
    exact fun stored hm => h₁.clear (hclear stored hm)

theorem cancelled_evict (hs : EvictSound s) (ht : EvictGood s t) :
    Kept EvictSound EvictGood s
      (.broadcast (s.setFlight t.key false) t.cancelled
        fun other => other.hear t.key (.error .leaderGone)) := by
  have hu := Untouched.setFlight s t.key false
  refine .broadcast (hs.untouched hu) ?_ ?_
  · intro t' he
    unfold Task.cancelled at he
    split at he
    · cases he
      have hnext : EvictGood s (t.goto (.refreshed (.error .shuttingDown))) := ht.idle rfl
      exact hnext.condemned hu.condemned
    · cases he
  · intro t' h₁
    exact (hear_evict h₁ (List.forall_mem_nil _)).condemned hu.condemned

theorem wentStale_evict (hs : EvictSound s) (ht : EvictGood s t) {asker : Asker}
    {stale : Stored} (child : Nat) (hrole : t.role = .refresh (some (asker, stale))) :
    Kept EvictSound EvictGood s
      (.fork s { t with role := .refresh none }
        (some (child, { t with role := .client asker, stage := .answering stale 0 true }))) := by
  have hserves := ht.role
  rw [hrole] at hserves
  refine .fork hs (ht.withRole _ (List.forall_mem_nil _)) ?_
  intro child' t' he
  obtain ⟨rfl, rfl⟩ := Prod.mk.inj (Option.some.inj he)
  have hanswer : EvictGood s (t.goto (.answering stale 0 true)) := ht.serve _ rfl rfl rfl hserves
  exact hanswer.withRole _ (List.forall_mem_nil _)

theorem does_evict (hs : EvictSound s) (ht : EvictGood s t) {a : Action} (hok : t.Avoids s a)
    (h : Does s t a e) : Kept EvictSound EvictGood s e := by
  cases h with
  | idle hu hidle hf => exact kept_stay_evict hs hu (ht.idle hidle)
  | finished => exact kept_quit_evict hs rfl
  | hit remaining stale held =>
    exact kept_stay_evict hs (.refl s)
      (ht.serve _ rfl rfl rfl (tagged_clear hs held (hok.2 rfl)))
  | expired asker held hstage =>
    have hjoin : EvictGood s (t.goto .joining) := ht.idle rfl
    exact kept_stay_evict hs (.refl s)
      (hjoin.withRole _ (tagged_clear hs held (hok.2 rfl)))
  | received got child hstage => exact received_evict hs ht got child
  | made got env vetting hstage hu =>
    have hfp : (t.resolver.entryOf got env s.cache.internalMaxTtl).Fingerprinted hk := rfl
    exact kept_stay_evict hs hu
      (ht.goto (List.forall_mem_nil _) (List.forall_mem_singleton.mpr hfp) (List.forall_mem_nil _))
  | inserted stored hstage =>
    refine inserted_evict hs ht stored hstage (hok.1 stored ?_)
    rw [hstage]
    exact List.mem_singleton_self _
  | published outcome hstage =>
    refine published_evict hs ht outcome hstage ?_
    have hclear := hok.1
    rw [hstage] at hclear
    exact hclear
  | cancelled => exact cancelled_evict hs ht
  | tookRefresh hstage hrole =>
    have hserves := ht.stage
    rw [hstage] at hserves
    have hended : EvictGood s (t.goto (.ended (.ok _))) := ht.serve _ rfl rfl rfl hserves
    exact kept_stay_evict hs (.refl s)
      (hended.withRole _ (List.forall_mem_nil _))
  | wentStale child hrole => exact wentStale_evict hs ht child hrole
  | sent source answer hu hsource =>
    refine kept_quit_evict ((hs.untouched hu).respond _ ?_) hu.condemned
    exact fun stored he => ht.stage stored (hsource stored he)
  | condemned msg =>
    refine .stay (hs.condemn t.key msg) ?_ fun _ h₁ => h₁.condemn t.key msg
    exact (ht.condemn t.key msg).goto (List.forall_mem_nil _) (List.forall_mem_nil _)
      (List.forall_mem_singleton.mpr List.mem_cons_self)
  | promoting status held =>
    have hfp := hs.fingerprinted t.key _ held
    exact kept_stay_evict hs (.refl s)
      (ht.goto (List.forall_mem_nil _) (List.forall_mem_singleton.mpr hfp) (List.forall_mem_nil _))
  | evicting msg hstage =>
    have hcond := ht.condemns
    rw [hstage] at hcond
    exact kept_stay_evict hs (.refl s)
      (ht.goto (List.forall_mem_nil _) (List.forall_mem_nil _) hcond)
  | passedOver msg hstage hother =>
    refine kept_quit_evict (hs.evict (ht.condemns msg ?_) fun _ he => ?_) rfl
    · rw [hstage]
      exact List.mem_singleton_self _
    · exact not_sameVariant_of_not_condemned hs hother he
  | rewritten stored hstage =>
    have hmem : stored ∈ t.stage.writes := by
      rw [hstage]
      exact List.mem_singleton_self _
    exact kept_quit_evict
      (hs.write rfl rfl rfl rfl (ht.writes stored hmem) (hok.1 stored hmem)) rfl
  | evicted msg hstage =>
    refine kept_quit_evict ((hs.invalidate t.key).evict (ht.condemns msg ?_) fun _ he => ?_) rfl
    · rw [hstage]
      exact List.mem_singleton_self _
    · rcases update_eq_some he with ⟨_, hnew⟩ | ⟨hne, _⟩
      · cases hnew
      · exact absurd rfl hne

end Actions

theorem start_evict {s : Shared hk} (b : Start) : EvictGood s (start s b) := by
  cases b <;> refine ⟨fun _ hb => hb, ?_, ?_, ?_, ?_⟩ <;> intro x hx <;> cases hx

theorem event_evict {p : State hk} {s : Shared hk} {l : Event hk}
    (hp : p.Inv EvictSound EvictGood) (h : event p.shared l = some s) :
    Pool.Inv EvictSound EvictGood { p with shared := s } := by
  have hsound := hp.shared
  cases l with
  | reload r | dropFailure key =>
    cases h
    exact ⟨⟨hsound.evicted, hsound.fingerprinted, hsound.unbarred, hsound.responses⟩,
      fun ht => (hp.tasks ht).condemned rfl⟩
  | drop key =>
    cases h
    exact ⟨hsound.invalidate key, fun ht => (hp.tasks ht).condemned rfl⟩

theorem evict_step {p q : State hk} {l : Label hk} (hp : p.Inv EvictSound EvictGood)
    (hok : NotStoredAgain p l) (h : (program hk).step p l = some q) :
    q.Inv EvictSound EvictGood :=
  Program.inv_step (fun hp _ he => event_evict hp he) (fun b _ => start_evict b)
    (fun hp ht hok ha => does_evict hp.shared (hp.tasks ht) (hok _ ht) (act_does ha)) hp hok h

/-- In every run in which a forged answer is not stored or published after its verdict, nor looked
up again before it is evicted, no response that begins after the verdict is built from it. -/
theorem condemned_not_served_again (r : Resolver hk) (serveStale : ServeStaleConfig)
    (internalMaxTtl : Nat) (labels : List (Label hk)) (t : State hk)
    (hstored : Guarded (program hk).step NotStoredAgain
      (initial r serveStale internalMaxTtl) labels)
    (hrun : run (program hk).step (initial r serveStale internalMaxTtl) labels = some t) :
    t.shared.ResponsesUnbarred := by
  have hinit : (initial r serveStale internalMaxTtl).Inv EvictSound EvictGood := by
    refine ⟨⟨?_, ?_, ?_, ?_⟩, ?_⟩
    · intro b hb
      cases hb
    · intro key entry he
      cases he
    · intro key entry he
      cases he
    · intro x hx
      cases hx
    · intro id task he
      cases he
  exact (invariant_of_run evict_step hinit hstored hrun).shared.responses

def signedReply : WireMessage where
  message := markedAnswer .indeterminate .indeterminate
  unvalidated := by decide

/-- Client 0 is answered with a signed address, and its background validation finds the signature
forged and evicts it. -/
def condemnedPrefix : List (Label .sample) :=
  ask .sample 0 ++ fetchAndAnswer .sample 0 (upstreamReplies signedReply) (some 1) ++
    ([.act 1 (.verdict { result := .answered (markedAnswer .bogus .bogus), observed := .none
                         deadlineLeft := false }),
      .act 1 .read, .act 1 .write] : List (Label .sample))

def replacedRun : List (Label .sample) :=
  condemnedPrefix ++ ask .sample 2 ++
    fetchAndAnswer .sample 2 (upstreamReplies (echoReply addressQuery .noError false)) none

theorem condemned_not_served_again_replaced :
    ∃ t, run (program .sample).step (initial (singleResolver .background) defaultStale 86400)
        replacedRun = some t ∧
      t.shared.responses.length = 2 ∧ t.shared.evicted.length = 1 ∧
      t.shared.ResponsesUnbarred :=
  exists_imp_of_any (P := fun t : State .sample =>
      t.shared.responses.length = 2 ∧ t.shared.evicted.length = 1) (by decide)
    fun t hrun h => ⟨h.1, h.2, condemned_not_served_again _ _ _ _ t (by decide) hrun⟩

def refetchedRun : List (Label .sample) :=
  condemnedPrefix ++ ask .sample 2 ++ fetchAndAnswer .sample 2 (upstreamReplies signedReply) none

theorem condemned_answer_served_again :
    ∃ t, run (program .sample).step (initial (singleResolver .background) defaultStale 86400)
        refetchedRun = some t ∧ ¬t.shared.ResponsesUnbarred := by
  refine exists_imp_of_any (P := fun t : State .sample => ∃ x ∈ t.shared.responses,
    ∃ stored ∈ x.source, Barred .sample x.bars x.key stored.entry.message) (by decide) ?_
  rintro t - ⟨x, hx, stored, hsource, hbarred⟩ hclear
  exact hclear x hx stored hsource hbarred

end EgressDns.System
