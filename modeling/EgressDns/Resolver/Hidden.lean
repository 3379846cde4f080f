import EgressDns.Resolver.Remembered

/-!
# Failures that hide answers

A leader publishes its failure, and frees the key, before anyone remembers the failure. In the gap a
later operation can succeed, clear the failures of the key and insert its answer, and the failure
remembered after that hides it. If no operation of the key has succeeded since the failed one
started when a failure is remembered, no answer inserted since then is ever hidden.
-/

namespace EgressDns.System

open Lib

variable {hk : Hickory}

/-- A client is refused although an answer is fresh that was inserted after the failed operation
started. -/
def HidesAnswer (s : Shared hk × Ledger) (key : CacheKey) (now : Nat) : Prop :=
  (∃ failure, s.1.cache.failures key = some failure ∧ failure.isActive now = true) ∧
    (∃ entry remaining, s.1.cache.get key now = .fresh entry remaining) ∧
    s.2.blamed key ≤ s.2.inserted key

def Stage.leads : Stage → Bool
  | .leading | .received _ _ _ | .made _ | .publishing _ => true
  | _ => false

def leadKey (t : Task hk × Note) : Option CacheKey := if t.1.stage.leads then some t.1.key else none

/-- An answer is inserted by an operation that has cleared the failures; a failure is remembered of
one that started later. -/
structure Ordered (s : Shared hk × Ledger) : Prop where
  succeeded : ∀ key, s.2.succeeded key ≤ s.2.started key
  inserted : ∀ key, s.2.inserted key ≤ s.2.succeeded key
  blamed : ∀ key failure, s.1.cache.failures key = some failure →
    s.2.succeeded key < s.2.blamed key

/-- A leader's operation is the last one started; a verdict has read an answer inserted before the
last success. -/
structure Timely (s : Shared hk × Ledger) (t : Task hk × Note) : Prop where
  flying : t.1.stage.leads = true → s.1.inFlight t.1.key = true
  last : t.1.stage.leads = true → t.2.op = s.2.started t.1.key
  made : ∀ stored, t.1.stage = .made stored → s.2.succeeded t.1.key = t.2.op
  read : ∀ stored, t.1.stage = .promoting stored → t.2.inserted ≤ s.2.succeeded t.1.key

theorem not_hidesAnswer {s : Shared hk × Ledger} (h : Ordered s) (key : CacheKey) (now : Nat) :
    ¬HidesAnswer s key now := by
  rintro ⟨⟨failure, hfailure, _⟩, _, hafter⟩
  have hblamed := h.blamed key failure hfailure
  have hinserted := h.inserted key
  omega

variable {s s' : Shared hk × Ledger} {t : Task hk} {h : Note}

def Stage.untimed : Stage → Bool
  | .promoting _ => false
  | stage => !stage.leads

theorem timely_of_untimed (hu : t.stage.untimed = true) : Timely s (t, h) := by
  have hleads : t.stage.leads = false := by
    cases hstage : t.stage <;> rw [hstage] at hu <;> first | rfl | cases hu
  refine ⟨?_, ?_, ?_, ?_⟩
  · intro hl
    rw [hleads] at hl
    cases hl
  · intro hl
    rw [hleads] at hl
    cases hl
  · intro stored hstage
    rw [hstage] at hleads
    cases hleads
  · intro stored hstage
    rw [hstage] at hu
    cases hu

theorem Ordered.keep (ho : Ordered s) (hf : Forgets s.1 s'.1) (hl : s'.2 = s.2) : Ordered s' where
  succeeded key := hl ▸ ho.succeeded key
  inserted key := hl ▸ ho.inserted key
  blamed key failure hk := hl ▸ ho.blamed key failure (hf key failure hk)

variable {key : CacheKey} {op : Nat} {u : Task hk} {k : Note}

theorem Ordered.start (ho : Ordered s) (hf : Forgets s.1 s'.1) (hl : s'.2 = s.2.start key) :
    Ordered s' where
  succeeded k := by
    rw [hl]
    by_cases hk : k = key
    · subst hk
      simp only [Ledger.start, Function.update_self]
      exact Nat.le_succ_of_le (ho.succeeded k)
    · simp only [Ledger.start, Function.update_of_ne hk]
      exact ho.succeeded k
  inserted k := hl ▸ ho.inserted k
  blamed k failure hk := hl ▸ ho.blamed k failure (hf k failure hk)

theorem Ordered.fail {e : ResolveError} (ho : Ordered s) (hf : Forgets s.1 s'.1)
    (hl : s'.2 = s.2.fail key op e) : Ordered s' where
  succeeded k := hl ▸ ho.succeeded k
  inserted k := hl ▸ ho.inserted k
  blamed k failure hk := hl ▸ ho.blamed k failure (hf k failure hk)

theorem Ordered.insert {started : Nat} (ho : Ordered s) (hf : Forgets s.1 s'.1)
    (hl : s'.2 = s.2.insert key started) (hle : started ≤ s.2.succeeded key) : Ordered s' where
  succeeded k := hl ▸ ho.succeeded k
  inserted k := by
    rw [hl]
    by_cases hk : k = key
    · subst hk
      simpa only [Ledger.insert, Function.update_self] using hle
    · simpa only [Ledger.insert, Function.update_of_ne hk] using ho.inserted k
  blamed k failure hk := hl ▸ ho.blamed k failure (hf k failure hk)

theorem Ordered.succeed (ho : Ordered s)
    (hf : s'.1.cache.failures = Function.update s.1.cache.failures key none)
    (hl : s'.2 = s.2.succeed key op) (hop : op = s.2.started key) : Ordered s' where
  succeeded k := by
    rw [hl]
    by_cases hk : k = key
    · subst hk
      simp only [Ledger.succeed, Function.update_self, hop, Nat.le_refl]
    · simpa only [Ledger.succeed, Function.update_of_ne hk] using ho.succeeded k
  inserted k := by
    rw [hl]
    by_cases hk : k = key
    · subst hk
      simp only [Ledger.succeed, Function.update_self, hop]
      exact (ho.inserted k).trans (ho.succeeded k)
    · simpa only [Ledger.succeed, Function.update_of_ne hk] using ho.inserted k
  blamed k failure hfailure := by
    rw [hf] at hfailure
    rw [hl]
    rcases update_eq_some hfailure with ⟨_, hnone⟩ | ⟨hk, hold⟩
    · cases hnone
    · simpa only [Ledger.succeed, Function.update_of_ne hk] using ho.blamed k failure hold

theorem Ordered.record {limits : Nat × Nat} {entry : FailureEntry} (ho : Ordered s)
    (hf : s'.1.cache.failures = Function.update s.1.cache.failures key (some entry))
    (hl : s'.2 = s.2.record key op limits) (hop : s.2.succeeded key < op) : Ordered s' where
  succeeded k := hl ▸ ho.succeeded k
  inserted k := hl ▸ ho.inserted k
  blamed k failure hfailure := by
    rw [hf] at hfailure
    rw [hl]
    rcases update_eq_some hfailure with ⟨rfl, _⟩ | ⟨hk, hold⟩
    · simpa only [Ledger.record, Function.update_self] using hop
    · simpa only [Ledger.record, Function.update_of_ne hk] using ho.blamed k failure hold

/-- A failure is remembered only if no operation of the key has succeeded since the failed one
started. -/
def heedsSuccess (s : Shared hk × Ledger) (t : Task hk × Note) : Action → Bool
  | .respond _ _ =>
    match t.1.stage with
    | .recording _ _ => decide (s.2.succeeded t.1.key < t.2.op)
    | _ => true
  | _ => true

def NotSince (p : Account hk) : Label hk → Prop
  | .act id a => ∀ x ∈ p.tasks id, heedsSuccess p.shared x a = true
  | _ => True

variable {p q : Account hk} {id : Nat} {a : Action} {e : Effect (Shared hk) (Task hk)}

theorem ordered_takes (ho : Ordered p.shared) (ht : Timely p.shared (t, h))
    (hok : heedsSuccess p.shared (t, h) a = true) (htakes : Takes p.shared.1 t a e) :
    Ordered (e.shared, (note p.shared.1 t a p.shared.2 h).record) := by
  cases htakes with
  | unrefused _ _ _ => exact ho.keep (forgets_setFailure_none rfl) rfl
  | followed _ hfly =>
    rw [note_followed _ _ _ _ _ hfly]
    exact ho.keep (fun _ _ hk => hk) rfl
  | shed _ hfree | led _ hfree =>
    rw [note_joined _ _ _ _ _ hfree]
    exact ho.start (fun _ _ hk => hk) rfl
  | failed _ herror =>
    rw [note_receive_error _ _ _ _ _ herror]
    exact ho.fail (fun _ _ hk => hk) rfl
  | received _ _ hgot =>
    rw [note_receive_ok _ _ _ _ _ hgot]
    exact ho.keep (fun _ _ hk => hk) rfl
  | made hstage _ =>
    refine ho.succeed (DnsCache.remember_failures ..) rfl (ht.last ?_)
    simp only [hstage, Stage.leads]
  | @inserted stored hstage =>
    have hf : Forgets p.shared.1 (p.shared.1.insert t.key stored) := by
      intro key failure hk
      rwa [insert_failures] at hk
    rcases note_inserted p.shared.1 t p.shared.2 h hstage with hn | hn
    · rw [hn]
      exact ho.keep hf rfl
    · rw [hn]
      refine ho.insert hf rfl ?_
      rw [ht.made _ hstage, ← ht.last (by simp only [hstage, Stage.leads])]
  | sentFailure _ hstage _ | sentEntry _ hstage _ | settled _ hstage _ _ =>
    rw [note_respond _ _ _ _ _ _ (by simp [hstage])]
    exact ho.keep (fun _ _ hk => hk) rfl
  | recorded _ hstage _ =>
    rw [note_recorded _ _ _ _ _ _ hstage]
    simp only [heedsSuccess, hstage, decide_eq_true_eq] at hok
    exact ho.record rfl rfl hok
  | rewritten hstage =>
    rw [note_rewritten _ _ _ _ hstage]
    exact ho.insert (fun _ _ hk => hk) rfl (ht.read _ hstage)
  | evicted hstage =>
    rw [note_evicted _ _ _ _ hstage]
    exact ho.keep (fun _ _ hk => hk) rfl
  | _ => exact ho.keep (fun _ _ hk => hk) rfl

theorem Timely.lead {stage : Stage} {h' : Note} (ht : Timely s (t, h))
    (hleads : t.stage.leads = true) (hfly : s'.1.inFlight t.key = s.1.inFlight t.key)
    (hop : h'.op = h.op) (hstart : s'.2.started t.key = s.2.started t.key)
    (hstage : stage.leads = true)
    (hmade : ∀ stored, stage = .made stored → s'.2.succeeded t.key = h.op) :
    Timely s' (t.goto stage, h') where
  flying _ := hfly.trans (ht.flying hleads)
  last _ := by
    rw [hop]
    exact (ht.last hleads).trans hstart.symm
  made stored he := by
    rw [hop]
    exact hmade stored he
  read stored he := by
    rw [show stage = .promoting stored from he] at hstage
    cases hstage

theorem timely_next (ho : Ordered p.shared) (ht : Timely p.shared (t, h))
    (htakes : Takes p.shared.1 t a e) :
    ∀ t', e.next = some t' → Timely (e.shared, (note p.shared.1 t a p.shared.2 h).record)
      (t', (note p.shared.1 t a p.shared.2 h).own) := by
  cases htakes with
  | shed _ _ =>
    rintro _ ⟨⟩
    unfold Task.shed
    split <;> exact timely_of_untimed rfl
  | led _ hfree =>
    rintro _ ⟨⟩
    rw [note_joined _ _ _ _ _ hfree]
    refine ⟨?_, ?_, ?_, ?_⟩
    · intro _
      exact Function.update_self ..
    · intro _
      exact (Function.update_self t.key _ p.shared.2.started).symm
    · intro _ he
      cases he
    · intro _ he
      cases he
  | failed hstage herror =>
    rintro _ ⟨⟩
    rw [note_receive_error _ _ _ _ _ herror]
    refine ht.lead (by simp only [hstage, Stage.leads]) rfl rfl rfl rfl ?_
    intro _ he
    cases he
  | received _ hstage hgot =>
    rintro _ ⟨⟩
    rw [note_receive_ok _ _ _ _ _ hgot]
    refine ht.lead (by simp only [hstage, Stage.leads]) rfl rfl rfl rfl ?_
    intro _ he
    cases he
  | made hstage _ =>
    rintro _ ⟨⟩
    refine ht.lead (by simp only [hstage, Stage.leads]) rfl rfl rfl rfl ?_
    intro _ _
    exact Function.update_self t.key h.op p.shared.2.succeeded
  | @inserted stored hstage =>
    rintro _ ⟨⟩
    have hfly : (p.shared.1.insert t.key stored).inFlight = p.shared.1.inFlight := by
      unfold Shared.insert
      split <;> rfl
    have hleads : t.stage.leads = true := by simp only [hstage, Stage.leads]
    have hmade : ∀ stored', Stage.publishing (.ok stored) = .made stored' →
        p.shared.2.succeeded t.key = h.op := by
      intro _ he
      cases he
    rcases note_inserted p.shared.1 t p.shared.2 h hstage with hn | hn <;> rw [hn] <;>
      exact ht.lead hleads (congrFun hfly _) rfl rfl rfl hmade
  | published _ =>
    rintro _ ⟨⟩
    unfold Task.conclude
    split <;> exact timely_of_untimed rfl
  | cancelled _ =>
    intro t' ht'
    unfold Effect.broadcast Task.cancelled at ht'
    split at ht'
    · cases ht'
      exact timely_of_untimed rfl
    · cases ht'
  | wentStale _ =>
    rintro _ ⟨⟩
    exact ⟨ht.flying, ht.last, ht.made, ht.read⟩
  | promoting _ _ =>
    rintro _ ⟨⟩
    refine ⟨?_, ?_, ?_, fun _ _ => ho.inserted t.key⟩
    · intro hl
      cases hl
    · intro hl
      cases hl
    · intro _ he
      cases he
  | _ => rintro _ ⟨⟩ <;> exact timely_of_untimed rfl

theorem timely_spawned (htakes : Takes p.shared.1 t a e) :
    ∀ child t', e.spawned = some (child, t') →
      Timely (e.shared, (note p.shared.1 t a p.shared.2 h).record)
        (t', (note p.shared.1 t a p.shared.2 h).spawned) := by
  cases htakes with
  | received permit _ _ =>
    intro child t' ht'
    obtain ⟨_, _, hchild⟩ := Option.map_eq_some_iff.mp ht'
    cases hchild
    exact timely_of_untimed rfl
  | wentStale _ =>
    rintro _ _ ⟨⟩
    exact timely_of_untimed rfl
  | _ => rintro _ _ ⟨⟩

theorem leadKey_eq_some {x : Task hk × Note} :
    leadKey x = some key ↔ x.1.stage.leads = true ∧ x.1.key = key := by
  unfold leadKey
  split
  · rename_i hleads
    simp only [hleads, Option.some.injEq, true_and]
  · rename_i hleads
    simp only [hleads, reduceCtorEq, false_and, Bool.false_eq_true]

theorem leads_hear (u : Task hk) (key : CacheKey) (flight : Except FlightError Stored) :
    (u.hear key flight).stage.leads = u.stage.leads ∧ (u.hear key flight).key = u.key := by
  cases hf : u.follows key with
  | false =>
    rw [hear_of_not_follows hf]
    exact ⟨rfl, rfl⟩
  | true =>
    have hstage : u.stage = .following := by
      unfold Task.follows at hf
      split at hf
      · assumption
      · cases hf
    obtain ⟨_, he | he⟩ := hear_of_follows hf flight <;> rw [he, hstage] <;> exact ⟨rfl, rfl⟩

theorem leadKey_hear (u : Task hk) (k k' : Note) (key : CacheKey)
    (flight : Except FlightError Stored) : leadKey (u.hear key flight, k') = leadKey (u, k) := by
  obtain ⟨hleads, hkey⟩ := leads_hear u key flight
  simp only [leadKey, hleads, hkey]

/-- A task that leads nothing of the key: what the flight of the key and its operations become does
not concern it. -/
theorem Timely.other (hu : Timely s (u, k))
    (hsame : u.stage.leads = true → s'.1.inFlight u.key = s.1.inFlight u.key ∧
      s'.2.started u.key = s.2.started u.key ∧ s'.2.succeeded u.key = s.2.succeeded u.key)
    (hmono : s.2.succeeded u.key ≤ s'.2.succeeded u.key) : Timely s' (u, k) where
  flying hl := (hsame hl).1.trans (hu.flying hl)
  last hl := (hu.last hl).trans (hsame hl).2.1.symm
  made stored hstage := by
    have hl : u.stage.leads = true := by
      rw [show u.stage = .made stored from hstage]
      rfl
    exact (hsame hl).2.2.trans (hu.made stored hstage)
  read stored hstage := (hu.read stored hstage).trans hmono

theorem Timely.hear {k' : Note} {flight : Except FlightError Stored} (hu : Timely s (u, k))
    (hk' : u.follows key = false → k' = k) : Timely s (u.hear key flight, k') := by
  cases hf : u.follows key with
  | false =>
    rw [hear_of_not_follows hf, hk' hf]
    exact hu
  | true => obtain ⟨_, he | he⟩ := hear_of_follows hf flight <;> rw [he] <;>
      exact timely_of_untimed rfl

theorem timely_freed (hu : Timely s (u, k)) (hother : leadKey (u, k) ≠ some key) :
    Timely (s.1.setFlight key false, s.2) (u, k) := by
  refine hu.other ?_ (Nat.le_refl _)
  intro hl
  have hne : u.key ≠ key := fun he => hother (leadKey_eq_some.mpr ⟨hl, he⟩)
  exact ⟨Function.update_of_ne hne .., rfl, rfl⟩

theorem timely_joined {flying : Bool} (hu : Timely s (u, k)) (hfree : s.1.inFlight key = false)
    (hfly : s'.1.inFlight = Function.update s.1.inFlight key flying) (hl : s'.2 = s.2.start key) :
    Timely s' (u, k) := by
  refine hu.other ?_ (by rw [hl]; exact Nat.le_refl _)
  intro hleads
  have hne : u.key ≠ key := by
    rintro rfl
    cases hfree.symm.trans (hu.flying hleads)
  refine ⟨?_, ?_, by rw [hl]; rfl⟩
  · rw [hfly]
    exact Function.update_of_ne hne ..
  · rw [hl]
    exact Function.update_of_ne hne ..

theorem timely_succeeded (ho : Ordered s) (hu : Timely s (u, k))
    (hother : leadKey (u, k) ≠ some key) (hop : op = s.2.started key)
    (hfly : s'.1.inFlight = s.1.inFlight) (hl : s'.2 = s.2.succeed key op) : Timely s' (u, k) := by
  refine hu.other ?_ ?_
  · intro hleads
    have hne : u.key ≠ key := fun he => hother (leadKey_eq_some.mpr ⟨hleads, he⟩)
    refine ⟨by rw [hfly], by rw [hl]; rfl, ?_⟩
    rw [hl]
    exact Function.update_of_ne hne ..
  · rw [hl]
    by_cases hkey : u.key = key
    · simp only [Ledger.succeed, hkey, Function.update_self, hop]
      exact ho.succeeded key
    · simp only [Ledger.succeed, Function.update_of_ne hkey, Nat.le_refl]

theorem timely_others (ho : Ordered p.shared) (ht : Timely p.shared (t, h))
    (htakes : Takes p.shared.1 t a e) (hu : Timely p.shared (u, k))
    (hother : t.stage.leads = true → leadKey (u, k) ≠ some t.key) :
    Timely (e.shared, (note p.shared.1 t a p.shared.2 h).record)
      (e.wake u, (note p.shared.1 t a p.shared.2 h).wake u k) := by
  cases htakes with
  | followed _ hfly =>
    rw [note_followed _ _ _ _ _ hfly]
    exact hu
  | shed _ hfree =>
    rw [note_joined _ _ _ _ _ hfree]
    exact timely_joined hu hfree (Function.update_eq_self ..).symm rfl
  | led _ hfree =>
    rw [note_joined _ _ _ _ _ hfree]
    exact timely_joined hu hfree rfl rfl
  | failed _ herror =>
    rw [note_receive_error _ _ _ _ _ herror]
    exact hu.other (fun _ => ⟨rfl, rfl, rfl⟩) (Nat.le_refl _)
  | received _ _ hgot =>
    rw [note_receive_ok _ _ _ _ _ hgot]
    exact hu
  | made hstage _ =>
    have hleads : t.stage.leads = true := by simp only [hstage, Stage.leads]
    exact timely_succeeded ho hu (hother hleads) (ht.last hleads) rfl rfl
  | @inserted stored hstage =>
    have hfly : (p.shared.1.insert t.key stored).inFlight = p.shared.1.inFlight := by
      unfold Shared.insert
      split <;> rfl
    rcases note_inserted p.shared.1 t p.shared.2 h hstage with hn | hn <;> rw [hn] <;>
      exact hu.other (fun _ => ⟨congrFun hfly _, rfl, rfl⟩) (Nat.le_refl _)
  | published hstage =>
    have hleads : t.stage.leads = true := by simp only [hstage, Stage.leads]
    refine (timely_freed hu (hother hleads)).hear ?_
    intro hf
    exact if_neg (Bool.eq_false_iff.mp hf)
  | cancelled hstage =>
    -- Both stages in which a leader can be cancelled lead.
    have hleads : t.stage.leads = true := by
      cases hs : t.stage <;> rw [hs] at hstage <;> first | rfl | cases hstage
    exact (timely_freed hu (hother hleads)).hear fun _ => rfl
  | sentFailure _ hstage _ | sentEntry _ hstage _ | settled _ hstage _ _ =>
    rw [note_respond _ _ _ _ _ _ (by simp [hstage])]
    exact hu.other (fun _ => ⟨rfl, rfl, rfl⟩) (Nat.le_refl _)
  | recorded _ hstage _ =>
    rw [note_recorded _ _ _ _ _ _ hstage]
    exact hu.other (fun _ => ⟨rfl, rfl, rfl⟩) (Nat.le_refl _)
  | rewritten hstage =>
    rw [note_rewritten _ _ _ _ hstage]
    exact hu.other (fun _ => ⟨rfl, rfl, rfl⟩) (Nat.le_refl _)
  | evicted hstage =>
    rw [note_evicted _ _ _ _ hstage]
    exact hu.other (fun _ => ⟨rfl, rfl, rfl⟩) (Nat.le_refl _)
  | _ => exact hu.other (fun _ => ⟨rfl, rfl, rfl⟩) (Nat.le_refl _)

theorem takesFree_takes (hp : p.Inv Ordered Timely) (htakes : Takes p.shared.1 t a e) :
    TakesFree leadKey p (t, h) (e.noted (note p.shared.1 t a p.shared.2 h)) := by
  have hstays {stage : Stage} (hstage : t.stage = stage) (hleads : stage.leads = true)
      {key : CacheKey} (hkey : t.key = key) :
      leadKey (t, h) = some key ∨ p.Free leadKey key :=
    .inl (leadKey_eq_some.mpr ⟨hstage ▸ hleads, hkey⟩)
  refine Layer.takesFree_noted ?_ ?_ ?_
  · intro t' key hnext hlead
    obtain ⟨hleads, hkey⟩ := leadKey_eq_some.mp hlead
    cases htakes with
    | led _ hfree =>
      cases hnext
      refine .inr ?_
      intro i u hi hu
      obtain ⟨hu, huk⟩ := leadKey_eq_some.mp hu
      have hfly := (hp.tasks hi).flying hu
      rw [huk, ← hkey] at hfly
      cases hfree.symm.trans hfly
    | failed hstage _ | received _ hstage _ | made hstage _ | inserted hstage =>
      cases hnext
      exact hstays hstage rfl hkey
    | wentStale _ =>
      cases hnext
      exact hstays rfl hleads hkey
    | shed _ _ =>
      cases hnext
      unfold Task.shed at hleads
      split at hleads <;> cases hleads
    | published _ =>
      cases hnext
      unfold Task.conclude at hleads
      split at hleads <;> cases hleads
    | cancelled _ =>
      unfold Effect.broadcast Task.cancelled at hnext
      split at hnext
      · cases hnext
        cases hleads
      · cases hnext
    | _ => cases hnext <;> cases hleads
  · cases htakes with
    | received permit _ _ =>
      intro child t' ht'
      obtain ⟨_, _, hchild⟩ := Option.map_eq_some_iff.mp ht'
      cases hchild
      rfl
    | wentStale _ =>
      rintro _ _ ⟨⟩
      rfl
    | _ => rintro _ _ ⟨⟩
  · intro u k
    cases htakes with
    | published _ | cancelled _ => exact leadKey_hear ..
    | _ => rfl

structure InOrder (p : Account hk) : Prop where
  inv : p.Inv Ordered Timely
  exclusive : p.Exclusive leadKey

theorem order_step {l : Label hk} (hp : InOrder p) (hok : NotSince p l)
    (hstep : (account hk).step p l = some q) : InOrder q where
  inv := by
    refine Program.inv_step_in hp.inv hstep ?_ ?_ ?_
    · intro ev s' _ hs'
      obtain ⟨hevent, hledger⟩ := account_env hs'
      refine ⟨hp.inv.shared.keep (event_forgets hevent) hledger, ?_⟩
      intro i x hi
      have hfly : s'.1.inFlight = p.shared.1.inFlight := by
        cases ev <;> rw [← Option.some.inj hevent]
      exact (hp.inv.tasks hi).other
        (fun _ => ⟨congrFun hfly _, by rw [hledger], by rw [hledger]⟩) (by rw [hledger])
    · intro b
      cases b <;> exact timely_of_untimed rfl
    · rintro id ⟨t, h⟩ a e' rfl ht he
      obtain ⟨e, htakes, rfl⟩ := account_act he
      have htimely := hp.inv.tasks ht
      refine Layer.keptIn_noted (ordered_takes hp.inv.shared htimely (hok (t, h) ht) htakes)
        (timely_next hp.inv.shared htimely htakes) (timely_spawned htakes) ?_
      intro i u k hne hi
      refine timely_others hp.inv.shared htimely htakes (hp.inv.tasks hi) ?_
      intro hleads hu
      exact hne (hp.exclusive hi ht hu (leadKey_eq_some.mpr ⟨hleads, rfl⟩))
  exclusive := by
    refine Program.exclusive_step ?_ ?_ hp.exclusive hstep
    · intro s b
      cases b <;> rfl
    · rintro id ⟨t, h⟩ a e' _ he
      obtain ⟨e, htakes, rfl⟩ := account_act he
      exact takesFree_takes hp.inv htakes

/-- As long as a failure is remembered only if no operation of the key has succeeded since the
failed one started, no answer inserted since then is hidden by it. -/
theorem failure_hides_no_answer (r : Resolver hk) (serveStale : ServeStaleConfig)
    (internalMaxTtl : Nat) (labels : List (Label hk)) (p : Account hk)
    (hg : Guarded (account hk).step NotSince (opening r serveStale internalMaxTtl) labels)
    (hr : run (account hk).step (opening r serveStale internalMaxTtl) labels = some p)
    (key : CacheKey) (now : Nat) : ¬HidesAnswer p.shared key now := by
  have hinit : InOrder (opening r serveStale internalMaxTtl) := by
    refine ⟨⟨⟨fun _ => Nat.le_refl _, fun _ => Nat.le_refl _, ?_⟩, ?_⟩, ?_⟩
    · intro key failure hk
      cases hk
    · intro i x hi
      cases hi
    · intro i j x y key hi
      cases hi
  exact not_hidesAnswer (invariant_of_run order_step hinit hg hr).inv.shared key now

instance decidableNotSince (p : Account hk) : (l : Label hk) → Decidable (NotSince p l)
  | .act id a => inferInstanceAs (Decidable (∀ x ∈ p.tasks id, heedsSuccess p.shared x a = true))
  | .env _ => isTrue trivial
  | .start _ _ => isTrue trivial

def droppedThenFailedRun : List (Label .sample) :=
  ask .sample 0 ++
    fetchAndAnswer .sample 0 (upstreamReplies (echoReply addressQuery .noError false)) none ++
    .env (.drop sampleKey) :: failingClient 1 0

theorem failure_hides_no_answer_dropped :
    ∃ p, run (account .sample).step openingSample droppedThenFailedRun = some p ∧
      (p.shared.1.cache.failures sampleKey).isSome = true ∧
      ¬HidesAnswer p.shared sampleKey 0 :=
  exists_imp_of_any (by decide) fun p hrun hsome =>
    ⟨hsome, failure_hides_no_answer _ _ _ _ p (by decide) hrun sampleKey 0⟩

def Lookup.isFresh : Lookup → Bool
  | .fresh _ _ => true
  | _ => false

theorem Lookup.isFresh_iff {lookup : Lookup} :
    Lookup.isFresh lookup = true ↔ ∃ entry remaining, lookup = .fresh entry remaining := by
  cases lookup <;> simp [Lookup.isFresh]

def Stage.isRefused : Stage → Bool
  | .refused _ => true
  | _ => false

/-- Two clients miss together. The first one's operation fails; before it remembers that, the
second one's succeeds. A third client comes when the failure has been remembered. -/
def overtakenFailureRun : List (Label .sample) :=
  ask .sample 0 ++ ask .sample 1 ++
    ([.act 0 (.join false), .act 0 (.receive upstreamRefuses none), .act 0 .publish] :
      List (Label .sample)) ++
    fetchAndAnswer .sample 1 (upstreamReplies (echoReply addressQuery .noError false)) none ++
    ([.act 0 .readStreak, .act 0 (.respond 0 quietEnv),
      .start 2 (.arrive addressAsker addressView), .act 2 (.checkFailure 0)] :
      List (Label .sample))

theorem overtaken_failure_hides_answer :
    ∃ p, run (account .sample).step openingSample overtakenFailureRun = some p ∧
      (∃ x, p.tasks 2 = some x ∧ x.1.key = sampleKey ∧ x.1.stage.isRefused = true) ∧
      HidesAnswer p.shared sampleKey 0 := by
  refine exists_imp_of_any (P := fun p =>
    ((p.tasks 2).any (fun x => decide (x.1.key = sampleKey) && x.1.stage.isRefused) = true ∧
      (p.shared.1.cache.failures sampleKey).any (fun failure => failure.isActive 0) = true ∧
      Lookup.isFresh (p.shared.1.cache.get sampleKey 0) = true) ∧
      p.shared.2.blamed sampleKey ≤ p.shared.2.inserted sampleKey) (by decide) ?_
  rintro p - ⟨hall, hafter⟩
  simp only [Option.any_eq_true, Bool.and_eq_true, decide_eq_true_eq] at hall
  exact ⟨hall.1, hall.2.1, Lookup.isFresh_iff.mp hall.2.2, hafter⟩

end EgressDns.System
