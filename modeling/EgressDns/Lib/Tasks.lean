import EgressDns.Lib.Runs
import Mathlib.Data.List.Forall2

/-!
# Tasks over shared state

Concurrent tasks whose steps are atomic: one step of one task rewrites the shared state, moves the
task on or ends it, may start another task and may wake the rest. Besides the tasks, the
environment changes the shared state and starts tasks of its own. An invariant has a part about
the shared state and a part about each task next to it, and holds over whole runs once every kind
of step keeps both. Two runs whose labels correspond are compared through a view that forgets where
their states may differ. Resources that a step takes only if no task holds them are held by one
task at a time.
-/

namespace EgressDns.Lib

universe u v w

structure Pool (S : Type u) (T : Type v) where
  shared : S
  tasks : Nat → Option T

/-- What one step of a task does: the task afterwards, if it goes on, a task it starts, and what
every other task notices. -/
structure Effect (S : Type u) (T : Type v) where
  shared : S
  next : Option T
  spawned : Option (Nat × T)
  wake : T → T

/-- `E` are the steps of the environment, `B` what it starts tasks with, `A` the steps of a task. -/
inductive TaskLabel (E B A : Type w) where
  | env (e : E)
  | start (id : Nat) (b : B)
  | act (id : Nat) (a : A)

structure Program (S : Type u) (T : Type v) (E B A : Type w) where
  env : S → E → Option S
  start : S → B → T
  act : S → T → A → Option (Effect S T)

theorem update_eq_some {I : Type u} [DecidableEq I] {V : Type v} {f : I → Option V} {i j : I}
    {x : Option V} {y : V} (h : Function.update f i x j = some y) :
    (j = i ∧ x = some y) ∨ (j ≠ i ∧ f j = some y) := by
  by_cases heq : j = i
  · subst heq
    rw [Function.update_self] at h
    exact .inl ⟨rfl, h⟩
  · rw [Function.update_of_ne heq] at h
    exact .inr ⟨heq, h⟩

section Pool

variable {S : Type u} {T : Type v}

def Effect.stay (shared : S) (next : Option T) : Effect S T where
  shared := shared
  next := next
  spawned := none
  wake := id

def Effect.fork (shared : S) (next : T) (spawned : Option (Nat × T)) : Effect S T where
  shared := shared
  next := some next
  spawned := spawned
  wake := id

def Effect.broadcast (shared : S) (next : Option T) (wake : T → T) : Effect S T where
  shared := shared
  next := next
  spawned := none
  wake := wake

namespace Pool

variable (p : Pool S T)

def spawn (id : Nat) (t : T) : Option (Pool S T) :=
  if (p.tasks id).isSome then none
  else some { p with tasks := Function.update p.tasks id (some t) }

def move (id : Nat) (e : Effect S T) : Pool S T where
  shared := e.shared
  tasks := Function.update (fun i => (p.tasks i).map e.wake) id e.next

/-- A step of task `id`; the name of a spawned task must be unused and not its own. -/
def apply (id : Nat) (e : Effect S T) : Option (Pool S T) :=
  match e.spawned with
  | none => some (p.move id e)
  | some (child, t) => if child = id then none else (p.move id e).spawn child t

structure Inv (Sound : S → Prop) (Good : S → T → Prop) (p : Pool S T) : Prop where
  shared : Sound p.shared
  tasks : ∀ {id t}, p.tasks id = some t → Good p.shared t

end Pool

structure Kept (Sound : S → Prop) (Good : S → T → Prop) (s : S) (e : Effect S T) : Prop where
  shared : Sound e.shared
  next : ∀ t, e.next = some t → Good e.shared t
  spawned : ∀ child t, e.spawned = some (child, t) → Good e.shared t
  others : ∀ t, Good s t → Good e.shared (e.wake t)

variable {Sound : S → Prop} {Good : S → T → Prop} {p q : Pool S T} {t : T} {s : S} {next : Option T}
  {id : Nat} {e : Effect S T}

theorem Kept.stay {s' : S} (hs : Sound s') (ht : Good s' t) (ho : ∀ t, Good s t → Good s' t) :
    Kept Sound Good s (.stay s' (some t)) where
  shared := hs
  next t' he := by
    cases he
    exact ht
  spawned := nofun
  others := ho

theorem Kept.quit {s' : S} (hs : Sound s') (ho : ∀ t, Good s t → Good s' t) :
    Kept Sound Good s (.stay s' none) where
  shared := hs
  next := nofun
  spawned := nofun
  others := ho

theorem Kept.fork {spawned : Option (Nat × T)} (hs : Sound s) (ht : Good s t)
    (hc : ∀ child t', spawned = some (child, t') → Good s t') :
    Kept Sound Good s (.fork s t spawned) where
  shared := hs
  next t' he := by
    cases he
    exact ht
  spawned := hc
  others _ h := h

theorem Kept.broadcast {s' : S} {wake : T → T} (hs : Sound s') (hn : ∀ t, next = some t → Good s' t)
    (ho : ∀ t, Good s t → Good s' (wake t)) :
    Kept Sound Good s (.broadcast s' next wake) where
  shared := hs
  next := hn
  spawned := nofun
  others := ho

/-- What a step of task `id` leaves of the pool: its own task afterwards, the others woken, and
possibly one more. -/
structure Pool.Applied (p : Pool S T) (id : Nat) (e : Effect S T) (q : Pool S T) : Prop where
  shared : q.shared = e.shared
  own : q.tasks id = e.next
  woken : ∀ {i t}, i ≠ id → p.tasks i = some t → q.tasks i = some (e.wake t)
  other : ∀ {i t}, i ≠ id → q.tasks i = some t →
    (∃ u, p.tasks i = some u ∧ t = e.wake u) ∨ e.spawned = some (i, t)

theorem Pool.move_own (p : Pool S T) (id : Nat) (e : Effect S T) :
    (p.move id e).tasks id = e.next := by
  simp only [Pool.move, Function.update_self]

theorem Pool.move_other (p : Pool S T) {i : Nat} (e : Effect S T) (h : i ≠ id) :
    (p.move id e).tasks i = (p.tasks i).map e.wake := by
  simp only [Pool.move, ne_eq, h, not_false_eq_true, Function.update_of_ne]

theorem Pool.move_applied (p : Pool S T) (id : Nat) (e : Effect S T) :
    p.Applied id e (p.move id e) where
  shared := rfl
  own := p.move_own id e
  woken {i t} hne hi := by
    rw [p.move_other e hne, hi]
    rfl
  other {i t} hne hi := by
    rw [p.move_other e hne] at hi
    obtain ⟨u, hu, rfl⟩ := Option.map_eq_some_iff.mp hi
    exact .inl ⟨u, hu, rfl⟩

theorem Pool.spawn_eq_some (h : p.spawn id t = some q) :
    p.tasks id = none ∧ q = { p with tasks := Function.update p.tasks id (some t) } := by
  unfold Pool.spawn at h
  split at h
  · cases h
  · rename_i hfree
    cases h
    exact ⟨Option.not_isSome_iff_eq_none.mp hfree, rfl⟩

theorem Pool.applied_of_apply (h : p.apply id e = some q) : p.Applied id e q := by
  have hmove := p.move_applied id e
  unfold Pool.apply at h
  split at h
  · cases h
    exact hmove
  · rename_i child t hspawned
    split at h
    · cases h
    · rename_i hchild
      obtain ⟨hfree, rfl⟩ := Pool.spawn_eq_some h
      refine ⟨rfl, ?_, ?_, ?_⟩
      · simp only [ne_eq, Ne.symm hchild, not_false_eq_true, Function.update_of_ne]
        exact hmove.own
      · intro i u hne hi
        have hi' := hmove.woken hne hi
        by_cases hic : i = child
        · rw [hic, hfree] at hi'
          cases hi'
        · simpa only [ne_eq, hic, not_false_eq_true, Function.update_of_ne] using hi'
      · intro i u hne hi
        rcases update_eq_some hi with ⟨rfl, hnew⟩ | ⟨_, hold⟩
        · cases hnew
          exact .inr hspawned
        · exact hmove.other hne hold

structure KeptIn (Sound : S → Prop) (Good : S → T → Prop) (p : Pool S T) (id : Nat)
    (e : Effect S T) : Prop where
  shared : Sound e.shared
  next : ∀ t, e.next = some t → Good e.shared t
  spawned : ∀ child t, e.spawned = some (child, t) → Good e.shared t
  others : ∀ {i t}, i ≠ id → p.tasks i = some t → Good e.shared (e.wake t)

theorem Kept.inPool (h : Kept Sound Good p.shared e) (hp : p.Inv Sound Good) :
    KeptIn Sound Good p id e where
  shared := h.shared
  next := h.next
  spawned := h.spawned
  others _ hi := h.others _ (hp.tasks hi)

theorem KeptIn.stay (hs : Sound s) (hn : ∀ t, next = some t → Good s t)
    (ho : ∀ {i t}, i ≠ id → p.tasks i = some t → Good s t) :
    KeptIn Sound Good p id (.stay s next) where
  shared := hs
  next := hn
  spawned := nofun
  others := ho

theorem Pool.spawn_inv (h : p.spawn id t = some q) (hp : p.Inv Sound Good) (ht : Good p.shared t) :
    q.Inv Sound Good := by
  obtain ⟨_, rfl⟩ := Pool.spawn_eq_some h
  refine ⟨hp.shared, ?_⟩
  intro i u hi
  rcases update_eq_some hi with ⟨_, hnew⟩ | ⟨_, hold⟩
  · cases hnew
    exact ht
  · exact hp.tasks hold

theorem Pool.apply_inv (h : p.apply id e = some q) (hk : KeptIn Sound Good p id e) :
    q.Inv Sound Good := by
  have ha := Pool.applied_of_apply h
  refine ⟨ha.shared ▸ hk.shared, ?_⟩
  intro i t hi
  rw [ha.shared]
  by_cases hid : i = id
  · rw [hid, ha.own] at hi
    exact hk.next t hi
  · rcases ha.other hid hi with ⟨u, hu, rfl⟩ | hspawned
    · exact hk.others hid hu
    · exact hk.spawned i t hspawned

end Pool

namespace Program

variable {S : Type u} {T : Type v} {E B A : Type w} (P : Program S T E B A)

def step (p : Pool S T) : TaskLabel E B A → Option (Pool S T)
  | .env e => (P.env p.shared e).map fun s => { p with shared := s }
  | .start id b => p.spawn id (P.start p.shared b)
  | .act id a =>
    match p.tasks id with
    | none => none
    | some t => (P.act p.shared t a).bind (p.apply id)

variable {P} {Sound : S → Prop} {Good : S → T → Prop} {ok : Pool S T → TaskLabel E B A → Prop}

inductive Stepped (P : Program S T E B A) (p : Pool S T) : TaskLabel E B A → Pool S T → Prop where
  | env {e s} : P.env p.shared e = some s → Stepped P p (.env e) { p with shared := s }
  | start {id b q} : p.spawn id (P.start p.shared b) = some q → Stepped P p (.start id b) q
  | act {id t a e q} : p.tasks id = some t → P.act p.shared t a = some e →
      p.apply id e = some q → Stepped P p (.act id a) q

variable {l : TaskLabel E B A}

theorem stepped {p q : Pool S T} (h : P.step p l = some q) : Stepped P p l q := by
  cases l with
  | env e =>
    obtain ⟨s, hs, rfl⟩ := Option.map_eq_some_iff.mp h
    exact .env hs
  | start id b => exact .start h
  | act id a =>
    simp only [step] at h
    split at h
    · cases h
    · rename_i t ht
      obtain ⟨e, he, happly⟩ := Option.bind_eq_some_iff.mp h
      exact .act ht he happly

/-- A task of a kind that acting and waking keep is still there after the step. -/
theorem kind_step {p q : Pool S T} (Kind : T → Prop)
    (hact : ∀ {id t a e}, p.tasks id = some t → P.act p.shared t a = some e →
      (Kind t → ∃ t', e.next = some t' ∧ Kind t') ∧ ∀ u, Kind u → Kind (e.wake u))
    (h : P.step p l = some q) {i : Nat} {u : T} (hi : p.tasks i = some u) (hu : Kind u) :
    ∃ u', q.tasks i = some u' ∧ Kind u' := by
  cases stepped h with
  | env _ => exact ⟨u, hi, hu⟩
  | @start id b q hspawn =>
    obtain ⟨hfree, rfl⟩ := Pool.spawn_eq_some hspawn
    have hne : i ≠ id := by
      rintro rfl
      rw [hfree] at hi
      cases hi
    exact ⟨u, by simpa only [ne_eq, hne, not_false_eq_true, Function.update_of_ne] using hi, hu⟩
  | @act id t a e q ht he happly =>
    have ha := Pool.applied_of_apply happly
    obtain ⟨hown, hwake⟩ := hact ht he
    by_cases hid : i = id
    · subst hid
      cases ht.symm.trans hi
      obtain ⟨t', ht', hk⟩ := hown hu
      exact ⟨t', ha.own.trans ht', hk⟩
    · exact ⟨e.wake u, ha.woken hid hi, hwake u hu⟩

theorem inv_step_in {p q : Pool S T} (hp : p.Inv Sound Good) (h : P.step p l = some q)
    (henv : ∀ {e s}, l = .env e → P.env p.shared e = some s →
      Pool.Inv Sound Good { p with shared := s }) (hstart : ∀ b, Good p.shared (P.start p.shared b))
    (hact : ∀ {id t a e}, l = .act id a → p.tasks id = some t → P.act p.shared t a = some e →
      KeptIn Sound Good p id e) : q.Inv Sound Good := by
  cases stepped h with
  | env hs => exact henv rfl hs
  | start hspawn => exact Pool.spawn_inv hspawn hp (hstart _)
  | act ht he happly => exact Pool.apply_inv happly (hact rfl ht he)

/-- The rule for steps: what the environment, a start and an act keep, every step keeps. -/
theorem inv_step (henv : ∀ {p e s}, p.Inv Sound Good → ok p (.env e) → P.env p.shared e = some s →
      Pool.Inv Sound Good { p with shared := s }) (hstart : ∀ {s} b, Sound s → Good s (P.start s b))
    (hact : ∀ {p id t a e}, p.Inv Sound Good → p.tasks id = some t → ok p (.act id a) →
      P.act p.shared t a = some e → Kept Sound Good p.shared e) {p q : Pool S T}
    (hp : p.Inv Sound Good) (hok : ok p l) (h : P.step p l = some q) : q.Inv Sound Good := by
  refine inv_step_in hp h ?_ (fun b => hstart b hp.shared) ?_
  · rintro e s rfl hs
    exact henv hp hok hs
  · rintro id t a e rfl ht he
    exact (hact hp ht hok he).inPool hp

end Program

section Runs

variable {S : Type u} {L : Type v} {C : Type w} {step : S → L → Option S} {view : S → C}
  {Same : L → L → Prop} {ok : S → L → Prop}

/-- Both runs get equally far, and to states with the same view. -/
theorem view_run
    (hstep : ∀ {s s' l l'}, view s = view s' → Same l l' → ok s l → ok s' l' →
      (step s l).map view = (step s' l').map view)
    {s s' : S} {ls ls' : List L} (hview : view s = view s') (hsame : List.Forall₂ Same ls ls')
    (hg : Guarded step ok s ls) (hg' : Guarded step ok s' ls') :
    (run step s ls).map view = (run step s' ls').map view := by
  induction hsame generalizing s s' with
  | nil => exact congrArg some hview
  | @cons l l' ls ls' hl _ ih =>
    have hnext := hstep hview hl hg.1 hg'.1
    unfold run
    cases hs : step s l with
    | none =>
      rw [hs] at hnext
      rw [Option.map_eq_none_iff.mp hnext.symm]
    | some t =>
      rw [hs] at hnext
      obtain ⟨t', ht', hview'⟩ := Option.map_eq_some_iff.mp hnext.symm
      rw [ht']
      exact ih hview'.symm (hg.2 t hs) (hg'.2 t' ht')

end Runs

section Tasks

variable {S : Type u} {T : Type v} (f : S → S) (g : T → T)

def Effect.map (e : Effect S T) : Effect S T where
  shared := f e.shared
  next := e.next.map g
  spawned := e.spawned.map fun child => (child.1, g child.2)
  wake := e.wake

def Pool.map (p : Pool S T) : Pool S T where
  shared := f p.shared
  tasks i := (p.tasks i).map g

variable {f g} {p : Pool S T}

theorem Pool.spawn_map (id : Nat) (t : T) :
    (p.map f g).spawn id (g t) = (p.spawn id t).map (Pool.map f g) := by
  have hfree : ((p.map f g).tasks id).isSome = (p.tasks id).isSome := Option.isSome_map
  unfold Pool.spawn
  rw [hfree]
  split
  · rfl
  · refine congrArg some ?_
    simp only [Pool.map, Pool.mk.injEq, true_and]
    funext i
    by_cases hi : i = id
    · subst hi
      simp only [Function.update_self, Option.map_some]
    · simp only [Function.update_of_ne hi]

theorem Pool.move_map (id : Nat) {e : Effect S T} (hwake : ∀ t, g (e.wake t) = e.wake (g t)) :
    (p.map f g).move id (e.map f g) = (p.move id e).map f g := by
  simp only [Pool.map, Pool.move, Effect.map, Pool.mk.injEq, true_and]
  funext i
  by_cases hi : i = id
  · subst hi
    simp only [Function.update_self]
  · simp only [Function.update_of_ne hi, Option.map_map]
    congr 1
    funext t
    exact (hwake t).symm

theorem Pool.apply_map (id : Nat) {e : Effect S T} (hwake : ∀ t, g (e.wake t) = e.wake (g t)) :
    (p.map f g).apply id (e.map f g) = (p.apply id e).map (Pool.map f g) := by
  unfold Pool.apply
  cases hspawned : e.spawned with
  | none =>
    have hmap : (e.map f g).spawned = none := by rw [Effect.map, hspawned]; rfl
    rw [hmap]
    exact congrArg some (Pool.move_map id hwake)
  | some child =>
    have hmap : (e.map f g).spawned = some (child.1, g child.2) := by
      rw [Effect.map, hspawned]
      rfl
    rw [hmap]
    dsimp only
    split
    · rfl
    · rw [Pool.move_map id hwake]
      exact Pool.spawn_map _ _

end Tasks

section Exclusive

variable {S : Type u} {T : Type v} {R : Type*} (holds : T → Option R)

def Pool.Exclusive (p : Pool S T) : Prop :=
  ∀ {i j t u r}, p.tasks i = some t → p.tasks j = some u → holds t = some r → holds u = some r →
    i = j

def Pool.Free (p : Pool S T) (r : R) : Prop := ∀ {i t}, p.tasks i = some t → holds t ≠ some r

structure TakesFree (p : Pool S T) (t : T) (e : Effect S T) : Prop where
  next : ∀ {t' r}, e.next = some t' → holds t' = some r → holds t = some r ∨ p.Free holds r
  spawned : ∀ {child t'}, e.spawned = some (child, t') → holds t' = none
  wake : ∀ u, holds (e.wake u) = holds u

variable {holds} {p q : Pool S T}

theorem TakesFree.stay {t t' : T} {s : S} (h : ∀ r, holds t' = some r → holds t = some r) :
    TakesFree holds p t (.stay s (some t')) where
  next he hr := by
    cases he
    exact .inl (h _ hr)
  spawned := nofun
  wake _ := rfl

theorem TakesFree.take {t t' : T} {s : S} (h : ∀ r, holds t' = some r → p.Free holds r) :
    TakesFree holds p t (.stay s (some t')) where
  next he hr := by
    cases he
    exact .inr (h _ hr)
  spawned := nofun
  wake _ := rfl

theorem TakesFree.quit {t : T} {s : S} : TakesFree holds p t (.stay s none) where
  next := nofun
  spawned := nofun
  wake _ := rfl

theorem Pool.Exclusive.apply {id : Nat} {t : T} {e : Effect S T} (hx : p.Exclusive holds)
    (ht : p.tasks id = some t) (hf : TakesFree holds p t e) (h : p.apply id e = some q) :
    q.Exclusive holds := by
  have ha := Pool.applied_of_apply h
  -- What a task other than `id` holds afterwards, it held before.
  have hother {i u r} (hne : i ≠ id) (hi : q.tasks i = some u) (hr : holds u = some r) :
      ∃ u₀, p.tasks i = some u₀ ∧ holds u₀ = some r := by
    rcases ha.other hne hi with ⟨u₀, hu₀, rfl⟩ | hspawned
    · exact ⟨u₀, hu₀, (hf.wake u₀) ▸ hr⟩
    · rw [hf.spawned hspawned] at hr
      cases hr
  -- What the task itself holds afterwards, nobody else held before.
  have hown {u r i u'} (hu : q.tasks id = some u) (hr : holds u = some r) (hne : i ≠ id)
      (hi : p.tasks i = some u') (hr' : holds u' = some r) : False := by
    rw [ha.own] at hu
    rcases hf.next hu hr with hold | hfree
    · exact hne (hx hi ht hr' hold)
    · exact hfree hi hr'
  intro i j u u' r hi hj hr hr'
  by_cases hid : i = id
  · by_cases hjd : j = id
    · rw [hid, hjd]
    · obtain ⟨u₀, hu₀, hr₀⟩ := hother hjd hj hr'
      exact (hown (hid ▸ hi) hr hjd hu₀ hr₀).elim
  · obtain ⟨u₀, hu₀, hr₀⟩ := hother hid hi hr
    by_cases hjd : j = id
    · exact (hown (hjd ▸ hj) hr' hid hu₀ hr₀).elim
    · obtain ⟨u₁, hu₁, hr₁⟩ := hother hjd hj hr'
      exact hx hu₀ hu₁ hr₀ hr₁

theorem Pool.Exclusive.spawn {id : Nat} {t : T} (hx : p.Exclusive holds) (ht : holds t = none)
    (h : p.spawn id t = some q) : q.Exclusive holds := by
  obtain ⟨_, rfl⟩ := Pool.spawn_eq_some h
  have hold {i u r} (hi : Function.update p.tasks id (some t) i = some u)
      (hr : holds u = some r) : p.tasks i = some u := by
    rcases update_eq_some hi with ⟨_, hnew⟩ | ⟨_, hi⟩
    · cases hnew
      rw [ht] at hr
      cases hr
    · exact hi
  intro i j u u' r hi hj hr hr'
  exact hx (hold hi hr) (hold hj hr') hr hr'

variable {E B A : Type w} {P : Program S T E B A}

theorem Program.exclusive_step (hstart : ∀ s b, holds (P.start s b) = none)
    (hact : ∀ {id t a e}, p.tasks id = some t → P.act p.shared t a = some e →
      TakesFree holds p t e)
    {l : TaskLabel E B A} (hx : p.Exclusive holds) (h : P.step p l = some q) :
    q.Exclusive holds := by
  cases Program.stepped h with
  | env _ => exact hx
  | start hspawn => exact hx.spawn (hstart p.shared _) hspawn
  | act ht he happly => exact hx.apply ht (hact ht he) happly

end Exclusive

end EgressDns.Lib
