import EgressDns.Lib.Tasks

/-!
# Records beside a program

A layer keeps a record beside the shared state and a note beside each task, without touching
either. Its labels may say more than those of the program, and it may refuse a step. Its runs are
runs of the program once the records are erased, and a layer that refuses nothing has a run for
every run of the program.
-/

namespace EgressDns.Lib

universe u v w x y

variable {S : Type u} {T : Type v} {E B A : Type w} {G : Type x} {H : Type y} {E' A' : Type w}

def TaskLabel.map (f : E' → E) (g : A' → A) : TaskLabel E' B A' → TaskLabel E B A
  | .env e => .env (f e)
  | .start id b => .start id b
  | .act id a => .act id (g a)

/-- The record after a step of a task, its own note, that of a task it starts and those of the
others. -/
structure Noted (T : Type v) (G : Type x) (H : Type y) where
  record : G
  own : H
  spawned : H
  wake : T → H → H

def Noted.keep (record : G) (own : H) : Noted T G H where
  record := record
  own := own
  spawned := own
  wake _ note := note

structure Layer (S : Type u) (T : Type v) (E B A : Type w) (G : Type x) (H : Type y)
    (E' A' : Type w) where
  toEnv : E' → E
  toAct : A' → A
  env : S → G → E' → Option G
  start : S → G → B → H
  act : S → T → A' → G → H → Option (Noted T G H)

def Effect.noted (e : Effect S T) (n : Noted T G H) : Effect (S × G) (T × H) where
  shared := (e.shared, n.record)
  next := e.next.map fun t => (t, n.own)
  spawned := e.spawned.map fun c => (c.1, (c.2, n.spawned))
  wake u := (e.wake u.1, n.wake u.1 u.2)

namespace Layer

variable (L : Layer S T E B A G H E' A') (P : Program S T E B A)

def program : Program (S × G) (T × H) E' B A' where
  env p e := (L.env p.1 p.2 e).bind fun g => (P.env p.1 (L.toEnv e)).map fun s => (s, g)
  start p b := (P.start p.1 b, L.start p.1 p.2 b)
  act p t a := (L.act p.1 t.1 a p.2 t.2).bind fun n =>
    (P.act p.1 t.1 (L.toAct a)).map fun e => e.noted n

structure Total : Prop where
  env : ∀ s g e, (L.env s g e).isSome = true
  act : ∀ s t a g h, (L.act s t a g h).isSome = true

end Layer

variable (p : Pool (S × G) (T × H))

def Pool.erase : Pool S T where
  shared := p.shared.1
  tasks i := (p.tasks i).map Prod.fst

theorem Pool.erase_tasks_eq_some {p : Pool (S × G) (T × H)} {i : Nat} {t : T}
    (h : p.erase.tasks i = some t) : ∃ note, p.tasks i = some (t, note) := by
  obtain ⟨⟨t', note⟩, ht, rfl⟩ := Option.map_eq_some_iff.mp h
  exact ⟨note, ht⟩

theorem Pool.erase_spawn (id : Nat) (t : T) (note : H) :
    p.erase.spawn id t = (p.spawn id (t, note)).map Pool.erase := by
  have hsome : (p.erase.tasks id).isSome = (p.tasks id).isSome := Option.isSome_map
  have htasks : Function.update p.erase.tasks id (some t) =
      fun i => (Function.update p.tasks id (some (t, note)) i).map Prod.fst := by
    funext i
    by_cases hi : i = id
    · subst hi
      simp only [Function.update_self, Option.map_some]
    · simp only [ne_eq, hi, not_false_eq_true, Function.update_of_ne, Pool.erase]
  unfold Pool.spawn
  rw [hsome, htasks]
  split <;> rfl

theorem Pool.erase_move (id : Nat) (e : Effect S T) (n : Noted T G H) :
    (p.move id (e.noted n)).erase = p.erase.move id e := by
  have htasks : (p.move id (e.noted n)).erase.tasks = (p.erase.move id e).tasks := by
    funext i
    change ((p.move id (e.noted n)).tasks i).map Prod.fst = _
    by_cases hi : i = id
    · subst hi
      rw [Pool.move_own, Pool.move_own]
      simp [Effect.noted, Function.comp_def]
    · rw [Pool.move_other _ _ hi, Pool.move_other _ _ hi]
      simp [Effect.noted, Pool.erase, Function.comp_def]
  simp only [Pool.erase, Pool.move, Effect.noted, Pool.mk.injEq, true_and] at htasks ⊢
  exact htasks

theorem Pool.erase_apply (id : Nat) (e : Effect S T) (n : Noted T G H) :
    p.erase.apply id e = (p.apply id (e.noted n)).map Pool.erase := by
  unfold Pool.apply
  cases hs : e.spawned with
  | none => simp [Effect.noted, hs, ← Pool.erase_move p id e n]
  | some c =>
    obtain ⟨child, t⟩ := c
    simp only [Effect.noted, hs, Option.map_some]
    split
    · rfl
    · rw [← Pool.erase_move p id e n, Pool.erase_spawn _ child t n.spawned]
      rfl

namespace Layer

variable {L : Layer S T E B A G H E' A'} {P : Program S T E B A} {p : Pool (S × G) (T × H)}
  {l : TaskLabel E' B A'} {ls : List (TaskLabel E' B A')} {q : Pool S T}

theorem step_erase {q : Pool (S × G) (T × H)} (h : (L.program P).step p l = some q) :
    P.step p.erase (l.map L.toEnv L.toAct) = some q.erase := by
  cases Program.stepped h with
  | @env e s hs =>
    obtain ⟨g, _, hs⟩ := Option.bind_eq_some_iff.mp hs
    obtain ⟨s', hs', rfl⟩ := Option.map_eq_some_iff.mp hs
    change (P.env p.shared.1 (L.toEnv e)).map _ = _
    rw [hs']
    rfl
  | @start id b q hspawn =>
    change p.erase.spawn id (P.start p.shared.1 b) = _
    rw [Pool.erase_spawn p id _ (L.start p.shared.1 p.shared.2 b)]
    exact congrArg (Option.map Pool.erase) hspawn
  | @act id t a e q ht he happly =>
    obtain ⟨n, _, he⟩ := Option.bind_eq_some_iff.mp he
    obtain ⟨e', he', rfl⟩ := Option.map_eq_some_iff.mp he
    have ht' : p.erase.tasks id = some t.1 := congrArg (Option.map Prod.fst) ht
    change P.step p.erase (.act id (L.toAct a)) = _
    simp only [Program.step, ht']
    change (P.act p.shared.1 t.1 (L.toAct a)).bind _ = _
    rw [he', Option.bind_some, Pool.erase_apply p id e' n, happly]
    rfl

theorem run_erase {q : Pool (S × G) (T × H)} (h : run (L.program P).step p ls = some q) :
    run P.step p.erase (ls.map (TaskLabel.map L.toEnv L.toAct)) = some q.erase := by
  induction ls generalizing p with
  | nil =>
    cases h
    rfl
  | cons l ls ih =>
    obtain ⟨m, hm, hrest⟩ := run_cons h
    simp only [List.map_cons, run, step_erase hm]
    exact ih hrest

theorem step_lift (hL : L.Total) (h : P.step p.erase (l.map L.toEnv L.toAct) = some q) :
    ∃ q', (L.program P).step p l = some q' ∧ q'.erase = q := by
  cases l with
  | env e =>
    obtain ⟨g, hg⟩ := Option.isSome_iff_exists.mp (hL.env p.shared.1 p.shared.2 e)
    obtain ⟨s, hs, rfl⟩ := Option.map_eq_some_iff.mp h
    change P.env p.shared.1 (L.toEnv e) = some s at hs
    refine ⟨{ p with shared := (s, g) }, ?_, rfl⟩
    simp only [Program.step, program, hg, hs, Option.bind_some, Option.map_some]
  | start id b =>
    change p.erase.spawn id (P.start p.shared.1 b) = some q at h
    rw [Pool.erase_spawn p id _ (L.start p.shared.1 p.shared.2 b)] at h
    exact Option.map_eq_some_iff.mp h
  | act id a =>
    cases Program.stepped h with
    | @act _ t _ e _ ht he happly =>
      obtain ⟨note, ht'⟩ := Pool.erase_tasks_eq_some ht
      obtain ⟨n, hn⟩ := Option.isSome_iff_exists.mp (hL.act p.shared.1 t a p.shared.2 note)
      change P.act p.shared.1 t (L.toAct a) = some e at he
      rw [Pool.erase_apply p id e n] at happly
      obtain ⟨q', hq', rfl⟩ := Option.map_eq_some_iff.mp happly
      refine ⟨q', ?_, rfl⟩
      simp only [Program.step, ht', program, hn, he, Option.bind_some, Option.map_some, hq']

theorem run_lift (hL : L.Total)
    (h : run P.step p.erase (ls.map (TaskLabel.map L.toEnv L.toAct)) = some q) :
    ∃ q', run (L.program P).step p ls = some q' ∧ q'.erase = q := by
  induction ls generalizing p with
  | nil =>
    cases h
    exact ⟨p, rfl, rfl⟩
  | cons l ls ih =>
    obtain ⟨m, hm, hrest⟩ := run_cons h
    obtain ⟨m', hm', rfl⟩ := step_lift hL hm
    obtain ⟨q', hq', he⟩ := ih hrest
    refine ⟨q', ?_, he⟩
    simp only [run, hm', hq']

section Rules

variable {Sound : S × G → Prop} {Good : S × G → T × H → Prop} {p : Pool (S × G) (T × H)}
  {e : Effect S T} {n : Noted T G H}

theorem keptIn_noted {id : Nat} (hs : Sound (e.shared, n.record))
    (hn : ∀ t, e.next = some t → Good (e.shared, n.record) (t, n.own))
    (hc : ∀ child t, e.spawned = some (child, t) → Good (e.shared, n.record) (t, n.spawned))
    (ho : ∀ {i t note}, i ≠ id → p.tasks i = some (t, note) →
      Good (e.shared, n.record) (e.wake t, n.wake t note)) :
    KeptIn Sound Good p id (e.noted n) where
  shared := hs
  next t ht := by
    obtain ⟨t', ht', rfl⟩ := Option.map_eq_some_iff.mp ht
    exact hn t' ht'
  spawned child t ht := by
    obtain ⟨⟨child', t'⟩, ht', he⟩ := Option.map_eq_some_iff.mp ht
    cases he
    exact hc _ t' ht'
  others hne hi := ho hne hi

theorem takesFree_noted {R : Type*} {holds : T × H → Option R} {t : T × H}
    (hn : ∀ t' r, e.next = some t' → holds (t', n.own) = some r →
      holds t = some r ∨ p.Free holds r)
    (hc : ∀ child t', e.spawned = some (child, t') → holds (t', n.spawned) = none)
    (hw : ∀ u note, holds (e.wake u, n.wake u note) = holds (u, note)) :
    TakesFree holds p t (e.noted n) where
  next ht hr := by
    obtain ⟨t', ht', rfl⟩ := Option.map_eq_some_iff.mp ht
    exact hn t' _ ht' hr
  spawned ht := by
    obtain ⟨⟨child', t'⟩, ht', he⟩ := Option.map_eq_some_iff.mp ht
    cases he
    exact hc child' t' ht'
  wake u := hw u.1 u.2

end Rules

theorem env_eq_some {s s' : S × G} {e : E'} (h : (L.program P).env s e = some s') :
    P.env s.1 (L.toEnv e) = some s'.1 ∧ L.env s.1 s.2 e = some s'.2 := by
  obtain ⟨g, hg, he⟩ := Option.bind_eq_some_iff.mp h
  obtain ⟨s₁, hs₁, rfl⟩ := Option.map_eq_some_iff.mp he
  exact ⟨hs₁, hg⟩

theorem act_eq_some {s : S × G} {t : T × H} {a : A'} {e : Effect (S × G) (T × H)}
    (h : (L.program P).act s t a = some e) :
    ∃ n e', L.act s.1 t.1 a s.2 t.2 = some n ∧ P.act s.1 t.1 (L.toAct a) = some e' ∧
      e = e'.noted n := by
  obtain ⟨n, hn, he⟩ := Option.bind_eq_some_iff.mp h
  obtain ⟨e', he', rfl⟩ := Option.map_eq_some_iff.mp he
  exact ⟨n, e', hn, he', rfl⟩

end Layer

end EgressDns.Lib
