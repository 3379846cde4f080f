import EgressDns.Cache.Verdict
import EgressDns.Lib.Runs

/-!
# Verdicts against concurrent inserts

`promote` and `evict_variant` read the map, decide, and write. Each map operation is one atomic
step; a call stays pending between its read and its write, and anything may happen in between.
-/

namespace EgressDns.Interleaving

open Lib

/-- What the map holds under the key, with the stamp of its write and whether a fetch wrote it. -/
structure Stored where
  entry : CacheEntry
  stamp : Nat
  byFetch : Bool

inductive Pending where
  | promote (fingerprint : UInt64) (read : Nat) (updated : CacheEntry)
  | evict (fingerprint : UInt64) (read : Nat)

structure State where
  slot : Option Stored
  clock : Nat
  calls : Nat → Option Pending

/-- `insert` is a fetch's, `drop` a flush, an expiry or the memory bound. -/
inductive Label where
  | insert (entry : CacheEntry)
  | promoteRead (call : Nat) (fingerprint : UInt64) (status : DnssecStatus)
  | promoteWrite (call : Nat)
  | evictRead (call : Nat) (fingerprint : UInt64)
  | evictWrite (call : Nat)
  | drop

namespace State

variable (s : State)

def entry : Option CacheEntry := s.slot.map Stored.entry

def write (entry : CacheEntry) (byFetch : Bool) : State :=
  { s with slot := some { entry, stamp := s.clock, byFetch }, clock := s.clock + 1 }

def setCall (call : Nat) (p : Option Pending) : State :=
  { s with calls := Function.update s.calls call p }

end State

def step (s : State) : Label → Option State
  | .insert entry => some (if entry.dnssec = .bogus then s else s.write entry true)
  | .promoteRead call fingerprint status =>
    match s.calls call, s.slot with
    | some _, _ => none
    | none, none => some s
    | none, some stored =>
      match DnsCache.promoted (some stored.entry) fingerprint status with
      | none => some s
      | some updated => some (s.setCall call (some (.promote fingerprint stored.stamp updated)))
  | .promoteWrite call =>
    match s.calls call with
    | some (.promote _ _ updated) => some ((s.write updated false).setCall call none)
    | _ => none
  | .evictRead call fingerprint =>
    match s.calls call, s.slot with
    | some _, _ => none
    | none, none => some s
    | none, some stored =>
      if DnsCache.condemned (some stored.entry) fingerprint then
        some (s.setCall call (some (.evict fingerprint stored.stamp)))
      else some s
  | .evictWrite call =>
    match s.calls call with
    | some (.evict _ _) => some ({ s with slot := none }.setCall call none)
    | _ => none
  | .drop => some { s with slot := none }

def start (slot : Option CacheEntry) : State where
  slot := slot.map fun entry => { entry, stamp := 0, byFetch := true }
  clock := 1
  calls _ := none

/-- No call loses an answer a fetch inserted after the call's read, unless it is the answer the
call was given; and no promote writes over a slot that changed since its read. -/
def KeepsNewer (s : State) : Label → Prop
  | .promoteWrite call =>
    ∀ fingerprint read updated, s.calls call = some (.promote fingerprint read updated) →
      (∀ stored, s.slot = some stored → stored.byFetch = true → read < stored.stamp →
        stored.entry.fingerprint = fingerprint) ∧
      ∃ stored, s.slot = some stored ∧ stored.stamp = read
  | .evictWrite call =>
    ∀ fingerprint read, s.calls call = some (.evict fingerprint read) →
      ∀ stored, s.slot = some stored → stored.byFetch = true → read < stored.stamp →
        stored.entry.fingerprint = fingerprint
  | _ => True

def NoPromotePending (s : State) : Prop :=
  ∀ call fingerprint read updated, s.calls call ≠ some (.promote fingerprint read updated)

/-- Nothing else writes the key while a promote is between its read and its write, and no fetch
inserts another answer while an eviction is. -/
def Undisturbed (s : State) : Label → Prop
  | .insert entry => entry.dnssec = .bogus ∨ (NoPromotePending s ∧
      ∀ call fingerprint read, s.calls call = some (.evict fingerprint read) →
        entry.fingerprint = fingerprint)
  | .promoteWrite call => ∀ other fingerprint read updated, other ≠ call →
      s.calls other ≠ some (.promote fingerprint read updated)
  | .evictWrite _ | .drop => NoPromotePending s
  | _ => True

/-- A pending promote has read what the slot holds, and only the answer it was given replaced what
a pending eviction has read. -/
def Current (s : State) : Pending → Prop
  | .promote _ read _ => ∃ stored, s.slot = some stored ∧ stored.stamp = read
  | .evict fingerprint read => ∀ stored, s.slot = some stored → stored.byFetch = true →
      read < stored.stamp → stored.entry.fingerprint = fingerprint

def Inv (s : State) : Prop := ∀ call q, s.calls call = some q → Current s q

theorem setCall_cases {s : State} {call other : Nat} {p : Option Pending} {q : Pending}
    (h : (s.setCall call p).calls other = some q) :
    (other = call ∧ p = some q) ∨ (other ≠ call ∧ s.calls other = some q) := by
  by_cases he : other = call
  · subst he
    exact .inl ⟨rfl, by simpa [State.setCall] using h⟩
  · exact .inr ⟨he, by simpa [State.setCall, he] using h⟩

theorem inv_start (slot : Option CacheEntry) : Inv (start slot) := by
  intro call q h
  cases h

section Steps

variable {s : State} {call : Nat}

theorem inv_write_fetched {entry : CacheEntry} (hp : NoPromotePending s)
    (he : ∀ call fingerprint read, s.calls call = some (.evict fingerprint read) →
      entry.fingerprint = fingerprint) : Inv (s.write entry true) := by
  intro call q h
  cases q with
  | promote fingerprint read updated => exact absurd h (hp call fingerprint read updated)
  | evict fingerprint read =>
    intro stored hs _ _
    cases hs
    exact he call fingerprint read h

theorem inv_setCall {p : Option Pending} (hi : Inv s) (hp : ∀ q, p = some q → Current s q) :
    Inv (s.setCall call p) := by
  intro other q h
  rcases setCall_cases h with ⟨_, hq⟩ | ⟨_, hq⟩
  · exact hp q hq
  · exact hi other q hq

theorem inv_promoteWrite {updated : CacheEntry} (hu : Undisturbed s (.promoteWrite call)) :
    Inv ((s.write updated false).setCall call none) := by
  intro other q h
  rcases setCall_cases h with ⟨_, hq⟩ | ⟨hne, hq⟩
  · cases hq
  · cases q with
    | promote fingerprint read updated => exact absurd hq (hu other fingerprint read updated hne)
    | evict fingerprint read =>
      intro stored hs hf
      cases hs
      cases hf

theorem inv_clear (hp : NoPromotePending s) : Inv { s with slot := none } := by
  intro call q h
  cases q with
  | promote fingerprint read updated => exact absurd h (hp call fingerprint read updated)
  | evict fingerprint read => exact fun _ hs => nomatch hs

theorem inv_step {t : State} {l : Label} (hi : Inv s) (hu : Undisturbed s l)
    (h : step s l = some t) : Inv t := by
  cases l with
  | insert entry =>
    simp only [step, Option.some.injEq] at h
    subst h
    split
    · exact hi
    · rename_i hb
      obtain ⟨hp, he⟩ := hu.resolve_left hb
      exact inv_write_fetched hp he
  | promoteRead call fingerprint status =>
    simp only [step] at h
    split at h
    · cases h
    · cases h
      exact hi
    · rename_i stored _ hs
      split at h
      · cases h
        exact hi
      · cases h
        refine inv_setCall hi ?_
        rintro q ⟨⟩
        exact ⟨stored, hs, rfl⟩
  | promoteWrite call =>
    simp only [step] at h
    split at h
    · cases h
      exact inv_promoteWrite hu
    · cases h
  | evictRead call fingerprint =>
    simp only [step] at h
    split at h
    · cases h
    · cases h
      exact hi
    · rename_i stored _ hs
      split at h
      · cases h
        refine inv_setCall hi ?_
        rintro q ⟨⟩ newer hn - hlt
        -- The slot is the one just read, so nothing in it is newer.
        cases hs.symm.trans hn
        exact absurd hlt (lt_irrefl _)
      · cases h
        exact hi
  | evictWrite call =>
    simp only [step] at h
    split at h
    · cases h
      exact inv_setCall (inv_clear hu) fun _ => nofun
    · cases h
  | drop =>
    cases h
    exact inv_clear hu

theorem keepsNewer_of_inv (hi : Inv s) (l : Label) : KeepsNewer s l := by
  cases l with
  | promoteWrite call =>
    intro fingerprint read updated hc
    obtain ⟨current, hs, hstamp⟩ := hi call _ hc
    refine ⟨?_, current, hs, hstamp⟩
    intro stored hs' _ hlt
    have hsame : current = stored := Option.some.inj (hs.symm.trans hs')
    subst hsame
    omega
  | evictWrite call =>
    intro fingerprint read hc
    exact hi call _ hc
  | _ => trivial

end Steps

/-- In every run that leaves pending calls undisturbed, no verdict loses a newer answer and no
promote brings back a replaced one. -/
theorem verdicts_keep_newer (slot : Option CacheEntry) (labels : List Label) (s : State)
    (l : Label) (hg : Guarded step Undisturbed (start slot) labels)
    (hr : run step (start slot) labels = some s) : KeepsNewer s l :=
  keepsNewer_of_inv (invariant_of_run inv_step (inv_start slot) hg hr) l

def addressAnswer : CacheEntry :=
  let message := { emptyAnswer .noError with
    answers := [Record.fromRdata ⟨[[97]]⟩ 300 (.a 0x5db8d822)] }
  { emptyEntry with message, kind := .positive, fingerprint := answerFingerprint .sample message }

def pendingPromote (old : CacheEntry) : State where
  slot := some { entry := old, stamp := 1, byFetch := true }
  clock := 2
  calls := Function.update (fun _ => none) 0
    (some (.promote old.fingerprint 1 { old with dnssec := .secure }))

theorem run_pendingPromote {old : CacheEntry} (hb : old.dnssec = .indeterminate) :
    run step (start none) [.insert old, .promoteRead 0 old.fingerprint .secure] =
      some (pendingPromote old) := by
  simp [run, step, start, DnsCache.promoted, hb, State.setCall, State.write, pendingPromote]

theorem guarded_pendingPromote (old : CacheEntry) :
    Guarded step Undisturbed (start none)
      [.insert old, .promoteRead 0 old.fingerprint .secure] := by
  refine ⟨.inr ⟨?_, ?_⟩, fun _ _ => ⟨trivial, fun _ _ => trivial⟩⟩
  · intro call fingerprint read updated h
    cases h
  · intro call fingerprint read h
    cases h

theorem verdicts_keep_newer_undisturbed :
    KeepsNewer (pendingPromote emptyEntry) (.promoteWrite 0) :=
  verdicts_keep_newer none [.insert emptyEntry, .promoteRead 0 emptyEntry.fingerprint .secure] _ _
    (guarded_pendingPromote emptyEntry) (run_pendingPromote rfl)

def overtaken (old new : CacheEntry) : State where
  slot := some { entry := new, stamp := 1, byFetch := true }
  clock := 2
  calls := Function.update (fun _ => none) 0
    (some (.promote old.fingerprint 0 { old with dnssec := .secure }))

theorem run_overtaken {old new : CacheEntry} (hold : old.dnssec ≠ .secure)
    (hnew : new.dnssec ≠ .bogus) :
    run step (start (some old)) [.promoteRead 0 old.fingerprint .secure, .insert new] =
      some (overtaken old new) := by
  simp [run, step, start, DnsCache.promoted, hold, hnew, State.setCall, State.write, overtaken]

/-- A fetch inserts a new answer between the read and the write of a promote, and the promote
puts the old answer back. -/
theorem promote_overwrites_newer_answer :
    run step (start (some emptyEntry)) [.promoteRead 0 emptyEntry.fingerprint .secure,
        .insert addressAnswer] = some (overtaken emptyEntry addressAnswer) ∧
    ¬KeepsNewer (overtaken emptyEntry addressAnswer) (.promoteWrite 0) ∧
    (step (overtaken emptyEntry addressAnswer) (.promoteWrite 0)).bind State.entry =
      some { emptyEntry with dnssec := .secure } := by
  refine ⟨run_overtaken (by decide) (by decide), ?_, rfl⟩
  intro h
  obtain ⟨_, stored, hs, hstamp⟩ := h _ _ _ rfl
  cases hs
  cases hstamp

section Sequential

variable {c : DnsCache} {key : CacheKey} {s : State} {call : Nat}

/-- Without interference, a read and its write are `DnsCache.promote`. -/
theorem promote_refines (hs : s.entry = c.answers key) (hfree : s.calls call = none)
    (fingerprint : UInt64) (status : DnssecStatus) :
    ∃ labels t, (labels = [] ∨ labels = [.promoteWrite call]) ∧
      run step s (.promoteRead call fingerprint status :: labels) = some t ∧
      t.entry = (c.promote key fingerprint status).1.answers key := by
  cases hslot : s.slot with
  | none =>
    refine ⟨[], s, .inl rfl, by simp [run, step, hfree, hslot], ?_⟩
    simp [DnsCache.promote, DnsCache.promoted, ← hs, State.entry, hslot]
  | some stored =>
    cases hp : DnsCache.promoted (some stored.entry) fingerprint status with
    | none =>
      refine ⟨[], s, .inl rfl, by simp [run, step, hfree, hslot, hp], ?_⟩
      simp [DnsCache.promote, ← hs, State.entry, hslot, hp]
    | some updated =>
      refine ⟨[.promoteWrite call], _, .inr rfl,
        by simp [run, step, hfree, hslot, hp, State.setCall]; rfl, ?_⟩
      simp [DnsCache.promote, ← hs, hslot, hp, State.entry, State.write, DnsCache.setAnswer]

theorem evictVariant_refines (hs : s.entry = c.answers key) (hfree : s.calls call = none)
    (fingerprint : UInt64) :
    ∃ labels t, (labels = [] ∨ labels = [.evictWrite call]) ∧
      run step s (.evictRead call fingerprint :: labels) = some t ∧
      t.entry = (c.evictVariant key fingerprint).1.answers key := by
  cases hslot : s.slot with
  | none =>
    refine ⟨[], s, .inl rfl, by simp [run, step, hfree, hslot], ?_⟩
    simp [DnsCache.evictVariant, DnsCache.condemned, ← hs, State.entry, hslot]
  | some stored =>
    cases hc : DnsCache.condemned (some stored.entry) fingerprint with
    | false =>
      refine ⟨[], s, .inl rfl, by simp [run, step, hfree, hslot, hc], ?_⟩
      simp [DnsCache.evictVariant, ← hs, State.entry, hslot, hc]
    | true =>
      refine ⟨[.evictWrite call], _, .inr rfl,
        by simp [run, step, hfree, hslot, hc, State.setCall]; rfl, ?_⟩
      simp [DnsCache.evictVariant, ← hs, hslot, hc, State.entry, DnsCache.invalidate,
        DnsCache.setAnswer]

end Sequential

end EgressDns.Interleaving
