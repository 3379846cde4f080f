import EgressDns.Lib.Layer
import EgressDns.Resolver.Transitions

/-!
# The ledger of upstream operations

What the failure cache is about, kept beside the running resolver: which upstream operations of a
key were started, failed and succeeded, and for which of them a failure was remembered. The
operations of a key are numbered as they start; a join that is turned away counts as one.
-/

namespace EgressDns.System

open Lib

variable {hk : Hickory}

/-- By key: the operations started so far and the last one that succeeded, how many had been started
when the cached answer was inserted, the one whose failure is remembered, those whose failure was
remembered since the last success, and the limits of the backoff used last. The failed operations
are listed with their errors. -/
structure Ledger where
  started : CacheKey → Nat
  succeeded : CacheKey → Nat
  inserted : CacheKey → Nat
  blamed : CacheKey → Nat
  counted : CacheKey → List Nat
  limits : CacheKey → Nat × Nat
  failed : List (CacheKey × Nat × ResolveError)

namespace Ledger

variable (g : Ledger) (key : CacheKey)

def start : Ledger :=
  { g with started := Function.update g.started key (g.started key + 1) }

def fail (op : Nat) (e : ResolveError) : Ledger :=
  { g with failed := (key, op, e) :: g.failed }

def succeed (op : Nat) : Ledger :=
  { g with succeeded := Function.update g.succeeded key op
           counted := Function.update g.counted key [] }

def insert (started : Nat) : Ledger :=
  { g with inserted := Function.update g.inserted key started }

def record (op : Nat) (limits : Nat × Nat) : Ledger :=
  { g with blamed := Function.update g.blamed key op
           counted := Function.update g.counted key
             (if op ∈ g.counted key then g.counted key else op :: g.counted key)
           limits := Function.update g.limits key limits }

end Ledger

/-- A task's operation: the one it leads or heard the outcome of, and how that failed. A verdict
notes when the answer it read was inserted. -/
structure Note where
  op : Nat
  cause : Option ResolveError
  inserted : Nat

def noteJoin (s : Shared hk) (t : Task hk) (g : Ledger) (h : Note) :
    Noted (Task hk) Ledger Note :=
  if s.inFlight t.key then .keep g { h with op := g.started t.key }
  else .keep (g.start t.key) { h with op := g.started t.key + 1 }

variable (t : Task hk)

def noteReceive (env : FetchEnv) (g : Ledger) (h : Note) : Noted (Task hk) Ledger Note :=
  match t.resolver.receive t.key env with
  | some (.error e) => .keep (g.fail t.key h.op e) { h with cause := some e }
  | _ => .keep g h

variable (g : Ledger)

def noteInsert (h : Note) : Noted (Task hk) Ledger Note :=
  match t.stage with
  | .made stored =>
    if stored.entry.dnssec = .bogus then .keep g h
    else .keep (g.insert t.key (g.started t.key)) h
  | _ => .keep g h

def noteWrite (h : Note) : Noted (Task hk) Ledger Note :=
  match t.stage with
  | .promoting _ => .keep (g.insert t.key h.inserted) h
  | _ => .keep g h

def noteRespond (h : Note) : Noted (Task hk) Ledger Note :=
  match t.stage with
  | .recording _ _ =>
    .keep (g.record t.key h.op (t.resolver.cfg.failureMinTtl, t.resolver.cfg.failureMaxTtl)) h
  | _ => .keep g h

def note (s : Shared hk) (t : Task hk) (a : Action) (g : Ledger) (h : Note) :
    Noted (Task hk) Ledger Note :=
  match a with
  | .join _ => noteJoin s t g h
  | .receive env _ => noteReceive t env g h
  | .make => .keep (g.succeed t.key h.op) h
  | .insert => noteInsert t g h
  | .publish =>
    { record := g, own := h, spawned := h
      wake := fun other k =>
        if other.follows t.key then { k with op := h.op, cause := h.cause } else k }
  | .read => .keep g { h with inserted := g.inserted t.key }
  | .write => noteWrite t g h
  | .respond _ _ => noteRespond t g h
  | _ => .keep g h

def ledger (hk : Hickory) :
    Layer (Shared hk) (Task hk) (Event hk) Start Action Ledger Note (Event hk) Action where
  toEnv e := e
  toAct a := a
  env _ g _ := some g
  start _ _ _ := { op := 0, cause := none, inserted := 0 }
  act s t a g h := some (note s t a g h)

abbrev Account (hk : Hickory) := Pool (Shared hk × Ledger) (Task hk × Note)

def account (hk : Hickory) :
    Program (Shared hk × Ledger) (Task hk × Note) (Event hk) Start Action :=
  (ledger hk).program (program hk)

def opening (r : Resolver hk) (serveStale : ServeStaleConfig) (internalMaxTtl : Nat) :
    Account hk where
  shared :=
    ((initial r serveStale internalMaxTtl).shared,
      { started := fun _ => 0, succeeded := fun _ => 0, inserted := fun _ => 0
        blamed := fun _ => 0, counted := fun _ => [], limits := fun _ => (0, 0), failed := [] })
  tasks _ := none

theorem ledger_total : (ledger hk).Total where
  env _ _ _ := rfl
  act _ _ _ _ _ := rfl

theorem map_label_self (l : Label hk) : l.map (fun e => e) (fun a => a) = l := by
  cases l <;> rfl

theorem run_accounted {r : Resolver hk} {serveStale : ServeStaleConfig} {internalMaxTtl : Nat}
    {labels : List (Label hk)} {p : State hk}
    (h : run (program hk).step (initial r serveStale internalMaxTtl) labels = some p) :
    ∃ q, run (account hk).step (opening r serveStale internalMaxTtl) labels = some q ∧
      q.erase = p := by
  apply Layer.run_lift ledger_total
  have hlabels : labels.map (TaskLabel.map (ledger hk).toEnv (ledger hk).toAct) = labels :=
    (List.map_congr_left fun l _ => map_label_self l).trans (List.map_id labels)
  rw [hlabels]
  exact h

theorem account_act {s : Shared hk × Ledger} {t : Task hk × Note} {a : Action}
    {e : Effect (Shared hk × Ledger) (Task hk × Note)} (h : (account hk).act s t a = some e) :
    ∃ e', Takes s.1 t.1 a e' ∧ e = e'.noted (note s.1 t.1 a s.2 t.2) := by
  obtain ⟨n, e', hn, he, rfl⟩ := Layer.act_eq_some h
  cases hn
  exact ⟨e', act_takes he, rfl⟩

theorem account_env {s s' : Shared hk × Ledger} {e : Event hk}
    (h : (account hk).env s e = some s') : event s.1 e = some s'.1 ∧ s'.2 = s.2 := by
  obtain ⟨hevent, hrecord⟩ := Layer.env_eq_some h
  exact ⟨hevent, (Option.some.inj hrecord).symm⟩

def Forgets (s s' : Shared hk) : Prop :=
  ∀ key failure, s'.cache.failures key = some failure → s.cache.failures key = some failure

theorem forgets_setFailure_none {s s' : Shared hk} {key : CacheKey}
    (h : s'.cache.failures = Function.update s.cache.failures key none) : Forgets s s' := by
  intro k failure hk
  rw [h] at hk
  rcases update_eq_some hk with ⟨_, hnone⟩ | ⟨_, hold⟩
  · cases hnone
  · exact hold

theorem insert_failures (s : Shared hk) (key : CacheKey) (stored : Stored) :
    (s.insert key stored).cache.failures = s.cache.failures := by
  unfold Shared.insert
  split
  · rfl
  · simp only [DnsCache.insert]
    split <;> rfl

/-- The step in which a failure is remembered: the response of a task that has read its streak. -/
def Records (t : Task hk) (a : Action) : Prop :=
  ∃ now env report streak, a = .respond now env ∧ t.stage = .recording report streak

theorem Takes.forgets {s : Shared hk} {t : Task hk} {a : Action}
    {e : Effect (Shared hk) (Task hk)} (h : Takes s t a e) (hnot : ¬Records t a) :
    Forgets s e.shared := by
  cases h with
  | recorded _ hrecording _ => exact absurd ⟨_, _, _, _, rfl, hrecording⟩ hnot
  | unrefused _ _ _ => exact forgets_setFailure_none rfl
  | made _ _ => exact forgets_setFailure_none (DnsCache.remember_failures ..)
  | inserted _ =>
    intro key failure hk
    exact insert_failures s t.key _ ▸ hk
  | _ => exact fun _ _ hk => hk

theorem event_forgets {s s' : Shared hk} {e : Event hk} (h : event s e = some s') :
    Forgets s s' := by
  cases e with
  | reload r | drop key =>
    cases h
    exact fun _ _ hk => hk
  | dropFailure key =>
    cases h
    exact forgets_setFailure_none rfl

section Notes

variable (s : Shared hk) (t : Task hk) (g : Ledger) (h : Note)

theorem note_followed (saturated : Bool) (hfly : s.inFlight t.key = true) :
    note s t (.join saturated) g h = .keep g { h with op := g.started t.key } := if_pos hfly

theorem note_joined (saturated : Bool) (hfree : s.inFlight t.key = false) :
    note s t (.join saturated) g h =
      .keep (g.start t.key) { h with op := g.started t.key + 1 } :=
  if_neg (Bool.eq_false_iff.mp hfree)

theorem note_receive_error {env : FetchEnv} {e : ResolveError} (permit : Option Nat)
    (herror : t.resolver.receive t.key env = some (.error e)) :
    note s t (.receive env permit) g h =
      .keep (g.fail t.key h.op e) { h with cause := some e } := by
  change noteReceive t env g h = _
  rw [noteReceive, herror]

theorem note_receive_ok {env : FetchEnv} {got : Resolver.Received} (permit : Option Nat)
    (hgot : t.resolver.receive t.key env = some (.ok got)) :
    note s t (.receive env permit) g h = .keep g h := by
  change noteReceive t env g h = _
  rw [noteReceive, hgot]

theorem note_respond (now : Nat) (env : ResponseEnv)
    (hstage : ∀ report streak, t.stage ≠ .recording report streak) :
    note s t (.respond now env) g h = .keep g h := by
  change noteRespond t g h = _
  unfold noteRespond
  split
  · rename_i report streak hrecording
    exact absurd hrecording (hstage report streak)
  · rfl

theorem note_recorded {report : FailureReport} {streak : Nat} (now : Nat) (env : ResponseEnv)
    (hstage : t.stage = .recording report streak) :
    note s t (.respond now env) g h =
      .keep (g.record t.key h.op
        (t.resolver.cfg.failureMinTtl, t.resolver.cfg.failureMaxTtl)) h := by
  change noteRespond t g h = _
  rw [noteRespond, hstage]

theorem note_rewritten {stored : Stored} (hstage : t.stage = .promoting stored) :
    note s t .write g h = .keep (g.insert t.key h.inserted) h := by
  change noteWrite t g h = _
  rw [noteWrite, hstage]

theorem note_evicted {msg : Message} (hstage : t.stage = .evicting msg) :
    note s t .write g h = .keep g h := by
  change noteWrite t g h = _
  rw [noteWrite, hstage]

theorem note_inserted {stored : Stored} (hstage : t.stage = .made stored) :
    note s t .insert g h = .keep g h ∨
      note s t .insert g h = .keep (g.insert t.key (g.started t.key)) h := by
  change noteInsert t g h = _ ∨ noteInsert t g h = _
  rw [noteInsert, hstage]
  exact ite_eq_or_eq ..

/-- What a step leaves of the ledger: one case for each way it can change. -/
inductive Notes : Action → Noted (Task hk) Ledger Note → Prop where
  | kept {a : Action} (own : Note) : Notes a (.keep g own)
  | started {saturated : Bool} (own : Note) : Notes (.join saturated) (.keep (g.start t.key) own)
  | failed {env : FetchEnv} {permit : Option Nat} (e : ResolveError) (own : Note) :
      Notes (.receive env permit) (.keep (g.fail t.key h.op e) own)
  | succeeded : Notes .make (.keep (g.succeed t.key h.op) h)
  | inserted {a : Action} (started : Nat) : Notes a (.keep (g.insert t.key started) h)
  | recorded {now : Nat} {env : ResponseEnv} {report : FailureReport} {streak : Nat}
      (limits : Nat × Nat) (hstage : t.stage = .recording report streak) :
      Notes (.respond now env) (.keep (g.record t.key h.op limits) h)
  | published (wake : Task hk → Note → Note) :
      Notes .publish { record := g, own := h, spawned := h, wake }

theorem note_notes (a : Action) : Notes t g h a (note s t a g h) := by
  cases a with
  | join saturated =>
    change Notes t g h _ (noteJoin s t g h)
    unfold noteJoin
    split
    · exact .kept _
    · exact .started _
  | receive env permit =>
    change Notes t g h _ (noteReceive t env g h)
    unfold noteReceive
    split
    · exact .failed _ _
    · exact .kept _
  | make => exact .succeeded
  | insert =>
    change Notes t g h _ (noteInsert t g h)
    unfold noteInsert
    split
    · split
      · exact .kept _
      · exact .inserted _
    · exact .kept _
  | publish => exact .published _
  | write =>
    change Notes t g h _ (noteWrite t g h)
    unfold noteWrite
    split
    · exact .inserted _
    · exact .kept _
  | respond now env =>
    change Notes t g h _ (noteRespond t g h)
    unfold noteRespond
    split
    · rename_i hstage
      exact .recorded _ hstage
    · exact .kept _
  | _ => exact .kept _

variable {t g h} {a : Action} {n : Noted (Task hk) Ledger Note}

theorem Notes.failed_subset (hn : Notes t g h a n) : g.failed ⊆ n.record.failed := by
  cases hn with
  | failed e own => exact List.subset_cons_self _ _
  | _ => exact List.Subset.refl _

theorem Notes.remembered (hn : Notes t g h a n) (hnot : ¬Records t a) :
    n.record.blamed = g.blamed ∧ n.record.limits = g.limits ∧
      (a ≠ .make → n.record.counted = g.counted) := by
  cases hn with
  | succeeded => exact ⟨rfl, rfl, fun hne => absurd rfl hne⟩
  | recorded limits hstage => exact absurd ⟨_, _, _, _, rfl, hstage⟩ hnot
  | _ => exact ⟨rfl, rfl, fun _ => rfl⟩

theorem Notes.wake_eq (hn : Notes t g h a n) (hnot : a ≠ .publish) (u : Task hk) (k : Note) :
    n.wake u k = k := by
  cases hn with
  | published wake => exact absurd rfl hnot
  | _ => rfl

end Notes

end EgressDns.System
