import EgressDns.Lib.Layer
import EgressDns.Resolver.Steps

/-!
# Time, and when a refresh is allowed

`Resolver::stale_refresh_allowed` with its table and the client response timer of `serve_stale`,
kept beside the running resolver together with the time. A refresh that was started for an expired
entry suppresses the next one for a while, whatever became of it.
-/

namespace EgressDns

abbrev RefreshTable := AList fun _ : CacheKey => Nat

namespace RefreshTable

variable (table : RefreshTable)

def maxTracked : Nat := 8192

def retain (now interval : Nat) : RefreshTable where
  entries := table.entries.filter fun last => now - last.2 < interval
  nodupKeys := table.nodupKeys.sublist List.filter_sublist

/-- `stale_refresh_allowed`. A table that stays full when it is swept allows the refresh and does
not note it. -/
def staleRefreshAllowed (key : CacheKey) (now interval : Nat) : Bool × RefreshTable :=
  if interval = 0 then (true, table)
  else if (table.lookup key).any fun last => now - last < interval then (false, table)
  -- The table is swept only once it is full.
  else if table.entries.length < maxTracked then (true, table.insert key now)
  else if (table.retain now interval).entries.length < maxTracked then
    (true, (table.retain now interval).insert key now)
  else (true, table.retain now interval)

variable {table} {key k : CacheKey} {now interval last : Nat}

theorem lookup_retain (h : (table.retain now interval).lookup k = some last) :
    table.lookup k = some last := by
  have hmem := AList.mem_lookup_iff.mp (Option.mem_def.mpr h)
  exact AList.mem_lookup_iff.mpr (List.mem_of_mem_filter hmem)

theorem lookup_insert_cases (h : (table.insert key now).lookup k = some last) :
    (k = key ∧ last = now) ∨ table.lookup k = some last := by
  by_cases hk : k = key
  · subst hk
    rw [AList.lookup_insert] at h
    exact .inl ⟨rfl, (Option.some.inj h).symm⟩
  · rw [AList.lookup_insert_ne hk] at h
    exact .inr h

theorem lookup_allowed
    (h : (table.staleRefreshAllowed key now interval).2.lookup k = some last) :
    (k = key ∧ last = now ∧ (table.staleRefreshAllowed key now interval).1 = true) ∨
      table.lookup k = some last := by
  unfold staleRefreshAllowed at h ⊢
  split at h
  · exact .inr h
  · split at h
    · exact .inr h
    · rename_i hinterval hrecent
      simp only [if_neg hinterval, if_neg hrecent]
      split at h
      · rename_i hroom
        simp only [if_pos hroom]
        rcases lookup_insert_cases h with ⟨hk, hlast⟩ | hold
        · exact .inl ⟨hk, hlast, trivial⟩
        · exact .inr hold
      · rename_i hfull
        simp only [if_neg hfull]
        split at h
        · rename_i hswept
          simp only [if_pos hswept]
          rcases lookup_insert_cases h with ⟨hk, hlast⟩ | hold
          · exact .inl ⟨hk, hlast, trivial⟩
          · exact .inr (lookup_retain hold)
        · exact .inr (lookup_retain h)

theorem lookup_of_denied (h : (table.staleRefreshAllowed key now interval).1 = false) :
    ∃ last, table.lookup key = some last ∧ now - last < interval := by
  unfold staleRefreshAllowed at h
  split at h
  · cases h
  · split at h
    · rename_i hrecent
      obtain ⟨last, hlast, hless⟩ := Option.any_eq_true _ _ |>.mp hrecent
      exact ⟨last, hlast, of_decide_eq_true hless⟩
    · split at h
      · cases h
      · split at h <;> cases h

end RefreshTable

namespace System

open Lib

variable {hk : Hickory}

/-- The time, the resolvers started so far and their tables, the refreshes started for expired
entries, and when an operation of a key last succeeded. -/
structure Watch where
  clock : Nat
  generation : Nat
  tables : Nat → RefreshTable
  refreshes : List (CacheKey × Nat)
  succeeded : CacheKey → Option Nat

/-- Which resolver the task belongs to and, for a refresh of an expired entry, when it started. -/
structure Watched where
  generation : Nat
  attempt : Option Nat

def Stage.hasFailed : Stage → Bool
  | .refreshed (.error _) => true
  | _ => false

def Stage.isPending : Stage → Bool
  | .joining | .leading | .received _ _ _ | .made _ | .publishing _ | .following => true
  | _ => false

def watched (g : Watch) (h : Watched) : Noted (Task hk) Watch Watched where
  record := g
  own := h
  spawned := { h with attempt := none }
  wake _ k := k

/-- A lookup that finds an expired entry asks the resolver's table. -/
def watchLookup (s : Shared hk) (t : Task hk) (now : Nat) (allowed : Bool) (g : Watch)
    (h : Watched) : Option (Noted (Task hk) Watch Watched) :=
  match s.cache.get t.key now with
  | .stale _ _ =>
    let asked := (g.tables h.generation).staleRefreshAllowed t.key now
      t.resolver.cfg.staleRetryInterval
    if asked.1 = allowed then
      let g := { g with tables := Function.update g.tables h.generation asked.2 }
      if allowed then
        some (watched { g with refreshes := (t.key, now) :: g.refreshes }
          { h with attempt := some now })
      else some (watched g h)
    else none
  | _ => some (watched g h)

def watchPublish (t : Task hk) (now : Nat) (g : Watch) (h : Watched) :
    Noted (Task hk) Watch Watched :=
  match t.stage with
  | .publishing (.ok _) =>
    watched { g with succeeded := Function.update g.succeeded t.key (some now) } h
  | _ => watched g h

/-- The client stops waiting when the refresh has failed, or when it has not finished by the end of
the client response timer. -/
def mayGoStale (t : Task hk) (now : Nat) (h : Watched) : Bool :=
  t.stage.hasFailed ||
    t.stage.isPending && h.attempt.any fun started =>
      decide (started + t.resolver.cfg.staleClientTimeout ≤ now)

def timeRead (t : Task hk) : Action → Option Nat
  | .checkFailure now => some now
  | .lookup now _ => some now
  | .respond now _ => some now
  -- The entry carries the time it was made at.
  | .make =>
    match t.stage with
    | .received _ env _ => some env.now
    | _ => none
  | _ => none

def watchAct (s : Shared hk) (t : Task hk) (now : Nat) (a : Action) (g : Watch) (h : Watched) :
    Option (Noted (Task hk) Watch Watched) :=
  match a with
  | .lookup _ allowed => watchLookup s t now allowed g h
  | .publish => some (watchPublish t now g h)
  | .goStale _ => if mayGoStale t now h then some (watched g h) else none
  | _ => some (watched g h)

def watchEvent (now : Nat) (e : Event hk) (g : Watch) : Watch :=
  match e with
  -- A new resolver has a table of its own, an empty one.
  | .reload _ => { g with clock := now, generation := g.generation + 1 }
  | _ => { g with clock := now }

/-- Every event and every act has its time, and time does not go back. -/
def watch (hk : Hickory) : Layer (Shared hk) (Task hk) (Event hk) Start Action Watch Watched
    (Nat × Event hk) (Nat × Action) where
  toEnv := Prod.snd
  toAct := Prod.snd
  env _ g e := if g.clock ≤ e.1 then some (watchEvent e.1 e.2 g) else none
  start _ g _ := { generation := g.generation, attempt := none }
  act s t a g h :=
    if g.clock ≤ a.1 ∧ ∀ read ∈ timeRead t a.2, read = a.1 then
      watchAct s t a.1 a.2 { g with clock := a.1 } h
    else none

abbrev WatchState (hk : Hickory) := Pool (Shared hk × Watch) (Task hk × Watched)

abbrev WatchLabel (hk : Hickory) := TaskLabel (Nat × Event hk) Start (Nat × Action)

def watchProgram (hk : Hickory) :
    Program (Shared hk × Watch) (Task hk × Watched) (Nat × Event hk) Start (Nat × Action) :=
  (watch hk).program (program hk)

def watchInitial (r : Resolver hk) (serveStale : ServeStaleConfig) (internalMaxTtl : Nat) :
    WatchState hk where
  shared :=
    ((initial r serveStale internalMaxTtl).shared,
      { clock := 0, generation := 0, tables := fun _ => ∅, refreshes := []
        succeeded := fun _ => none })
  tasks _ := none

theorem run_of_watched {r : Resolver hk} {serveStale : ServeStaleConfig} {internalMaxTtl : Nat}
    {labels : List (WatchLabel hk)} {p : WatchState hk}
    (h : run (watchProgram hk).step (watchInitial r serveStale internalMaxTtl) labels = some p) :
    run (program hk).step (initial r serveStale internalMaxTtl)
      (labels.map (TaskLabel.map Prod.snd Prod.snd)) = some p.erase :=
  Layer.run_erase h

section Watching

def Starts (s : Shared hk) (t : Task hk) (now : Nat) (a : Action) : Prop :=
  a = .lookup now true ∧ ∃ entry staleness, s.cache.get t.key now = .stale entry staleness

def Succeeds (t : Task hk) (a : Action) : Prop :=
  a = .publish ∧ ∃ stored, t.stage = .publishing (.ok stored)

/-- What a step leaves of the watch. -/
structure Watches (s : Shared hk) (t : Task hk) (now : Nat) (a : Action) (g : Watch) (h : Watched)
    (n : Noted (Task hk) Watch Watched) : Prop where
  clock : n.record.clock = g.clock
  wake : ∀ u k, n.wake u k = k
  spawned : n.spawned.attempt = none
  refreshes : g.refreshes ⊆ n.record.refreshes
  kept : ¬Starts s t now a → n.own = h
  started : Starts s t now a → n.own.attempt = some now ∧ (t.key, now) ∈ n.record.refreshes
  succeeded : Succeeds t a → n.record.succeeded = Function.update g.succeeded t.key (some now)
  unsucceeded : ¬Succeeds t a → n.record.succeeded = g.succeeded
  tables : ∀ {i key last}, (n.record.tables i).lookup key = some last →
    (g.tables i).lookup key = some last ∨ Starts s t now a ∧ key = t.key ∧ last = now
  patient : ∀ {child}, a = .goStale child → mayGoStale t now h = true
  denied : ∀ {entry staleness}, a = .lookup now false →
    s.cache.get t.key now = .stale entry staleness →
      ∃ last, (g.tables h.generation).lookup t.key = some last

variable {s : Shared hk} {t : Task hk} {now : Nat} {a : Action} {g : Watch} {h : Watched}
  {n : Noted (Task hk) Watch Watched}

theorem watches_quiet (hstart : ¬Starts s t now a) (hsucceed : ¬Succeeds t a)
    (hpatient : ∀ {child}, a = .goStale child → mayGoStale t now h = true)
    (hdenied : ∀ {entry staleness}, a = .lookup now false →
      s.cache.get t.key now ≠ .stale entry staleness) : Watches s t now a g h (watched g h) where
  clock := rfl
  wake _ _ := rfl
  spawned := rfl
  refreshes := List.Subset.refl _
  kept _ := rfl
  started hs := absurd hs hstart
  succeeded hs := absurd hs hsucceed
  unsucceeded _ := rfl
  tables hl := .inl hl
  patient := hpatient
  denied ha hget := absurd hget (hdenied ha)

theorem lookup_tables {tables : Nat → RefreshTable} {gen i interval last : Nat}
    {key k : CacheKey}
    (hl : ((Function.update tables gen
      ((tables gen).staleRefreshAllowed key now interval).2) i).lookup k = some last) :
    (tables i).lookup k = some last ∨
      (((tables gen).staleRefreshAllowed key now interval).1 = true ∧ k = key ∧ last = now) := by
  by_cases hi : i = gen
  · subst hi
    rw [Function.update_self] at hl
    rcases RefreshTable.lookup_allowed hl with ⟨hk, hlast, hallowed⟩ | hold
    · exact .inr ⟨hallowed, hk, hlast⟩
    · exact .inl hold
  · rw [Function.update_of_ne hi] at hl
    exact .inl hl

theorem watchLookup_watches {allowed : Bool} (hn : watchLookup s t now allowed g h = some n) :
    Watches s t now (.lookup now allowed) g h n := by
  have hsucceed : ¬Succeeds t (.lookup now allowed) := by
    rintro ⟨ha, _⟩
    cases ha
  unfold watchLookup at hn
  split at hn
  · rename_i entry staleness hget
    dsimp only at hn
    split at hn
    · rename_i hasked
      have hstale : ∃ entry staleness, s.cache.get t.key now = .stale entry staleness :=
        ⟨entry, staleness, hget⟩
      cases allowed with
      | true =>
        cases hn
        have hstart : Starts s t now (.lookup now true) := ⟨rfl, hstale⟩
        refine ⟨rfl, fun _ _ => rfl, rfl, ?_, fun hs => absurd hstart hs, fun _ => ?_,
          fun hs => absurd hs hsucceed, fun _ => rfl, ?_, nofun, nofun⟩
        · exact List.subset_cons_self _ _
        · exact ⟨rfl, List.mem_cons_self⟩
        · intro i key last hl
          rcases lookup_tables hl with hold | ⟨_, hk, hlast⟩
          · exact .inl hold
          · exact .inr ⟨hstart, hk, hlast⟩
      | false =>
        cases hn
        have hstart : ¬Starts s t now (.lookup now false) := by
          rintro ⟨ha, _⟩
          cases ha
        refine ⟨rfl, fun _ _ => rfl, rfl, List.Subset.refl _, fun _ => rfl,
          fun hs => absurd hs hstart, fun hs => absurd hs hsucceed, fun _ => rfl, ?_, nofun, ?_⟩
        · intro i key last hl
          rcases lookup_tables hl with hold | ⟨htrue, _⟩
          · exact .inl hold
          · cases htrue.symm.trans hasked
        · intro _ _ _ _
          obtain ⟨last, hlast, _⟩ := RefreshTable.lookup_of_denied hasked
          exact ⟨last, hlast⟩
    · cases hn
  · rename_i hget
    cases hn
    refine watches_quiet ?_ hsucceed nofun ?_
    · rintro ⟨_, entry, staleness, hstale⟩
      exact hget entry staleness hstale
    · intro entry staleness _
      exact hget entry staleness

theorem watchPublish_watches : Watches s t now .publish g h (watchPublish t now g h) := by
  have hstart : ¬Starts s t now .publish := by
    rintro ⟨ha, _⟩
    cases ha
  unfold watchPublish
  split
  · rename_i stored hstage
    have hsucceed : Succeeds t .publish := ⟨rfl, stored, hstage⟩
    exact ⟨rfl, fun _ _ => rfl, rfl, List.Subset.refl _, fun _ => rfl,
      fun hs => absurd hs hstart, fun _ => rfl, fun hs => absurd hsucceed hs, .inl, nofun, nofun⟩
  · rename_i hstage
    refine watches_quiet hstart ?_ nofun nofun
    rintro ⟨_, stored, hok⟩
    exact hstage stored hok

theorem watchAct_watches (htime : ∀ read ∈ timeRead t a, read = now)
    (hn : watchAct s t now a g h = some n) : Watches s t now a g h n := by
  unfold watchAct at hn
  split at hn
  · rename_i read allowed
    obtain rfl := htime read rfl
    exact watchLookup_watches hn
  · cases hn
    exact watchPublish_watches
  · split at hn
    · rename_i hmay
      cases hn
      refine watches_quiet ?_ ?_ (fun _ => hmay) nofun
      · rintro ⟨ha, _⟩
        cases ha
      · rintro ⟨ha, _⟩
        cases ha
    · cases hn
  · rename_i hlookup hpublish hstale
    cases hn
    refine watches_quiet ?_ ?_ ?_ ?_
    · rintro ⟨ha, _⟩
      exact hlookup now true ha
    · rintro ⟨ha, _⟩
      exact hpublish ha
    · intro child ha
      exact absurd ha (hstale child)
    · intro _ _ ha
      exact absurd ha (hlookup now false)

theorem watch_act {s : Shared hk × Watch} {t : Task hk × Watched} {a : Nat × Action}
    {e : Effect (Shared hk × Watch) (Task hk × Watched)}
    (h : (watchProgram hk).act s t a = some e) :
    ∃ n e', Takes s.1 t.1 a.2 e' ∧ e = e'.noted n ∧ s.2.clock ≤ a.1 ∧
      (∀ read ∈ timeRead t.1 a.2, read = a.1) ∧
      Watches s.1 t.1 a.1 a.2 { s.2 with clock := a.1 } t.2 n := by
  obtain ⟨n, e', hn, he, rfl⟩ := Layer.act_eq_some h
  simp only [watch] at hn
  split at hn
  · rename_i htime
    exact ⟨n, e', act_takes he, rfl, htime.1, htime.2, watchAct_watches htime.2 hn⟩
  · cases hn

theorem watch_env {s s' : Shared hk × Watch} {ev : Nat × Event hk}
    (h : (watchProgram hk).env s ev = some s') :
    event s.1 ev.2 = some s'.1 ∧ s.2.clock ≤ ev.1 ∧ s'.2 = watchEvent ev.1 ev.2 s.2 := by
  obtain ⟨hevent, hrecord⟩ := Layer.env_eq_some h
  simp only [watch] at hrecord
  split at hrecord
  · rename_i hnow
    exact ⟨hevent, hnow, (Option.some.inj hrecord).symm⟩
  · cases hrecord

theorem watchEvent_keeps (now : Nat) (ev : Event hk) (g : Watch) :
    (watchEvent now ev g).clock = now ∧ (watchEvent now ev g).tables = g.tables ∧
      (watchEvent now ev g).refreshes = g.refreshes ∧
      (watchEvent now ev g).succeeded = g.succeeded := by
  cases ev <;> exact ⟨rfl, rfl, rfl, rfl⟩

end Watching

end System

end EgressDns
