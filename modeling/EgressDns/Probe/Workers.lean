import Mathlib.Algebra.Order.Group.Nat
import Mathlib.Data.List.Basic
import EgressDns.Lib.Runs

/-!
# The worker ceiling of the probe engine

The loop of `ProbeEngine::run` and `worker_slots`. Each pass looks up the semaphore, waits for one
of its permits, then for a job, and starts a worker that takes the permit with it. A changed
setting replaces the semaphore; permits of an earlier one stay with whoever holds them.
-/

namespace EgressDns

open Lib

/-- A live worker: the semaphore its permit is of, and the largest setting in force since it was
started. -/
structure ProbeWorker where
  slot : Nat
  peak : Nat
  deriving DecidableEq, Repr

def ProbeWorker.see (concurrency : Nat) (w : ProbeWorker) : ProbeWorker :=
  { w with peak := max w.peak concurrency }

/-- Where the loop is: at its top, waiting for a permit, waiting for a job with one, or left. -/
inductive EngineLoop where
  | top
  | waiting (slot : Nat)
  | holding (slot : Nat)
  | stopped
  deriving DecidableEq, Repr

/-- `size` is that of the current semaphore, `earlier` are those of the replaced ones. -/
structure WorkerPool where
  setting : Nat
  earlier : List Nat
  size : Nat
  loop : EngineLoop
  live : List ProbeWorker
  deriving DecidableEq, Repr

namespace WorkerPool

def current (s : WorkerPool) : Nat := s.earlier.length

def sizeOf (s : WorkerPool) (slot : Nat) : Nat := (s.earlier ++ [s.size]).getD slot 0

def taken (s : WorkerPool) (slot : Nat) : Nat := s.live.countP fun w => w.slot = slot

def want (s : WorkerPool) : Nat := max s.setting 1

/-- `worker_slots`: a setting other than the one the semaphore was made for replaces it. -/
def workerSlots (s : WorkerPool) : WorkerPool :=
  if s.size = s.want then s
  else { s with earlier := s.earlier ++ [s.size], size := s.want }

end WorkerPool

inductive EngineEvent where
  | reload (concurrency : Nat)
  | lookUp
  | acquire
  | job
  | finish (worker : Nat)
  | cancel
  deriving DecidableEq, Repr

def WorkerPool.step (s : WorkerPool) : EngineEvent → Option WorkerPool
  | .reload concurrency =>
    some { s with setting := concurrency, live := s.live.map (ProbeWorker.see concurrency) }
  | .lookUp =>
    match s.loop with
    | .top => some { s.workerSlots with loop := .waiting s.workerSlots.current }
    | _ => none
  | .acquire =>
    match s.loop with
    | .waiting slot =>
      if s.taken slot < s.sizeOf slot then some { s with loop := .holding slot } else none
    | _ => none
  | .job =>
    match s.loop with
    | .holding slot =>
      some { s with loop := .top, live := s.live ++ [{ slot, peak := s.setting }] }
    | _ => none
  | .finish worker =>
    if worker < s.live.length then some { s with live := s.live.eraseIdx worker } else none
  -- Shutdown drains or aborts the workers; the loop starts no more of them.
  | .cancel => some { s with loop := .stopped }

def WorkerPool.initial (concurrency : Nat) : WorkerPool where
  setting := concurrency
  earlier := []
  size := 0
  loop := .top
  live := []

/-- Every setting is at least one, as validation asks while probing is on, and the semaphore is
replaced only while no worker is live. -/
def ReplacedIdle (s : WorkerPool) : EngineEvent → Prop
  | .reload concurrency => 1 ≤ concurrency
  | .lookUp => s.size ≠ s.want → s.live = []
  | _ => True

instance (s : WorkerPool) (e : EngineEvent) : Decidable (ReplacedIdle s e) := by
  cases e <;> unfold ReplacedIdle <;> infer_instance

section Ceiling

def EngineLoop.Holds : EngineLoop → Nat
  | .holding _ => 1
  | _ => 0

def EngineLoop.LookedUp : EngineLoop → Prop
  | .waiting _ => True
  | .holding _ => True
  | _ => False

/-- Every permit is of the current semaphore, and all live workers but the newest were there when
its size was last seen to be the setting. -/
structure Pooled (s : WorkerPool) : Prop where
  setting : 1 ≤ s.setting
  started : ∀ w ∈ s.live, 1 ≤ w.peak ∧ s.setting ≤ w.peak
  slots : ∀ w ∈ s.live, w.slot = s.current
  loop : ∀ slot, s.loop = .waiting slot ∨ s.loop = .holding slot → slot = s.current
  room : s.live.length + s.loop.Holds ≤ s.size
  seen : ∃ older newest, s.live = older ++ newest ∧ newest.length ≤ 1 ∧
    (s.loop.LookedUp → newest = []) ∧ ∀ w ∈ older, s.size ≤ w.peak

variable {s t : WorkerPool} {concurrency slot : Nat}

theorem pooled_initial (h : 1 ≤ concurrency) :
    Pooled (.initial concurrency) where
  setting := h
  started := nofun
  slots := nofun
  loop := nofun
  room := le_rfl
  seen := ⟨[], [], rfl, Nat.zero_le 1, fun _ => rfl, nofun⟩

section

variable (hp : Pooled s)
include hp

theorem pooled_reload (h : 1 ≤ concurrency) :
    Pooled { s with setting := concurrency, live := s.live.map (ProbeWorker.see concurrency) } := by
  refine ⟨h, ?_, ?_, hp.loop, ?_, ?_⟩
  · intro w hw
    obtain ⟨w₀, hw₀, rfl⟩ := List.mem_map.mp hw
    exact ⟨(hp.started w₀ hw₀).1.trans (le_max_left _ _), le_max_right _ _⟩
  · intro w hw
    obtain ⟨w₀, hw₀, rfl⟩ := List.mem_map.mp hw
    exact hp.slots w₀ hw₀
  · simpa using hp.room
  · obtain ⟨older, newest, hlive, hlength, hlooked, hpeak⟩ := hp.seen
    refine ⟨older.map (ProbeWorker.see concurrency), newest.map (ProbeWorker.see concurrency),
      ?_, ?_, ?_, ?_⟩
    · rw [hlive, List.map_append]
    · simpa using hlength
    · intro hl
      rw [hlooked hl, List.map_nil]
    · intro w hw
      obtain ⟨w₀, hw₀, rfl⟩ := List.mem_map.mp hw
      exact (hpeak w₀ hw₀).trans (le_max_left _ _)

/-- At the top of the loop the semaphore comes to have the size of the setting, and every live
worker has seen that setting. -/
theorem pooled_lookUp (hok : s.size ≠ s.want → s.live = []) :
    Pooled { s.workerSlots with loop := .waiting s.workerSlots.current } := by
  have hwant : s.want = s.setting := max_eq_left hp.setting
  by_cases hsize : s.size = s.want
  · have hsame : s.workerSlots = s := if_pos hsize
    rw [hsame]
    refine ⟨hp.setting, hp.started, hp.slots, ?_, ?_, ?_⟩
    · rintro slot (h | h) <;> cases h
      rfl
    · exact (Nat.le_add_right _ _).trans hp.room
    · refine ⟨s.live, [], (List.append_nil _).symm, Nat.zero_le 1, fun _ => rfl, ?_⟩
      intro w hw
      rw [show s.size = s.setting from hsize.trans hwant]
      exact (hp.started w hw).2
  · have hnone := hok hsize
    have hnew : s.workerSlots = { s with earlier := s.earlier ++ [s.size], size := s.want } :=
      if_neg hsize
    rw [hnew]
    refine ⟨hp.setting, ?_, ?_, ?_, ?_, ?_⟩
    · rw [hnone]
      nofun
    · rw [hnone]
      nofun
    · rintro slot (h | h) <;> cases h
      rfl
    · change s.live.length + 0 ≤ s.want
      rw [hnone]
      exact Nat.zero_le _
    · exact ⟨[], [], hnone, Nat.zero_le 1, fun _ => rfl, nofun⟩

theorem pooled_acquire (hloop : s.loop = .waiting slot) (hroom : s.taken slot < s.sizeOf slot) :
    Pooled { s with loop := .holding slot } := by
  have hslot := hp.loop slot (.inl hloop)
  have hall : s.taken slot = s.live.length := by
    apply List.countP_eq_length.mpr
    intro w hw
    rw [hp.slots w hw, hslot]
    exact decide_eq_true rfl
  have hsize : s.sizeOf slot = s.size := by
    rw [hslot]
    simp [WorkerPool.sizeOf, WorkerPool.current]
  rw [hall, hsize] at hroom
  obtain ⟨older, newest, hlive, hlength, hlooked, hpeak⟩ := hp.seen
  have hnewest : newest = [] := hlooked (by rw [hloop]; exact trivial)
  refine ⟨hp.setting, hp.started, hp.slots, ?_, hroom, ?_⟩
  · rintro k (h | h) <;> cases h
    exact hslot
  · exact ⟨older, newest, hlive, hlength, fun _ => hnewest, hpeak⟩

theorem pooled_job (hloop : s.loop = .holding slot) :
    Pooled { s with loop := .top, live := s.live ++ [{ slot, peak := s.setting }] } := by
  have hslot := hp.loop slot (.inr hloop)
  obtain ⟨older, newest, hlive, hlength, hlooked, hpeak⟩ := hp.seen
  have hnewest : newest = [] := hlooked (by rw [hloop]; exact trivial)
  rw [hnewest, List.append_nil] at hlive
  refine ⟨hp.setting, ?_, ?_, nofun, ?_, ?_⟩
  · intro w hw
    rcases List.mem_append.mp hw with hw | hw
    · exact hp.started w hw
    · cases List.mem_singleton.mp hw
      exact ⟨hp.setting, le_rfl⟩
  · intro w hw
    rcases List.mem_append.mp hw with hw | hw
    · exact hp.slots w hw
    · cases List.mem_singleton.mp hw
      exact hslot
  · have hroom := hp.room
    rw [hloop] at hroom
    rw [List.length_append]
    exact hroom
  · exact ⟨older, [{ slot, peak := s.setting }], by rw [hlive], le_rfl, False.elim, hpeak⟩

theorem pooled_finish (worker : Nat) : Pooled { s with live := s.live.eraseIdx worker } := by
  have hsub : (s.live.eraseIdx worker).Sublist s.live := List.eraseIdx_sublist s.live worker
  refine ⟨hp.setting, ?_, ?_, hp.loop, ?_, ?_⟩
  · intro w hw
    exact hp.started w (hsub.subset hw)
  · intro w hw
    exact hp.slots w (hsub.subset hw)
  · exact (Nat.add_le_add_right hsub.length_le _).trans hp.room
  · obtain ⟨older, newest, hlive, hlength, hlooked, hpeak⟩ := hp.seen
    obtain ⟨older', newest', hlive', holder, hnewest⟩ :=
      List.sublist_append_iff.mp (hlive ▸ hsub : (s.live.eraseIdx worker).Sublist (older ++ newest))
    refine ⟨older', newest', hlive', hnewest.length_le.trans hlength, ?_, ?_⟩
    · intro hl
      rw [hlooked hl] at hnewest
      exact List.sublist_nil.mp hnewest
    · intro w hw
      exact hpeak w (holder.subset hw)

theorem pooled_cancel : Pooled { s with loop := .stopped } := by
  obtain ⟨older, newest, hlive, hlength, -, hpeak⟩ := hp.seen
  refine ⟨hp.setting, hp.started, hp.slots, nofun, ?_, ?_⟩
  · exact (Nat.le_add_right _ _).trans hp.room
  · exact ⟨older, newest, hlive, hlength, False.elim, hpeak⟩

theorem pooled_step {e : EngineEvent} (hok : ReplacedIdle s e) (hs : s.step e = some t) :
    Pooled t := by
  cases e with
  | reload concurrency =>
    cases hs
    exact pooled_reload hp hok
  | lookUp =>
    simp only [WorkerPool.step] at hs
    split at hs
    · cases hs
      exact pooled_lookUp hp hok
    · cases hs
  | acquire =>
    simp only [WorkerPool.step] at hs
    split at hs
    · rename_i slot hloop
      split at hs
      · rename_i hroom
        cases hs
        exact pooled_acquire hp hloop hroom
      · cases hs
    · cases hs
  | job =>
    simp only [WorkerPool.step] at hs
    split at hs
    · rename_i slot hloop
      cases hs
      exact pooled_job hp hloop
    · cases hs
  | finish worker =>
    simp only [WorkerPool.step] at hs
    split at hs
    · cases hs
      exact pooled_finish hp worker
    · cases hs
  | cancel =>
    cases hs
    exact pooled_cancel hp

/-- With two or more workers live, the oldest was there when the size of the semaphore was in
force, and no more permits than that are out. -/
theorem Pooled.live_le {oldest : ProbeWorker} {rest : List ProbeWorker}
    (hlive : s.live = oldest :: rest) : s.live.length ≤ oldest.peak := by
  obtain ⟨older, newest, happend, hlength, -, hpeak⟩ := hp.seen
  cases older with
  | nil =>
    have hmem : oldest ∈ s.live := by
      rw [hlive]
      exact List.mem_cons_self
    rw [happend, List.nil_append]
    exact hlength.trans (hp.started oldest hmem).1
  | cons w older =>
    rw [hlive, List.cons_append] at happend
    have hhead : oldest = w := (List.cons.inj happend).1
    rw [hhead]
    calc s.live.length ≤ s.size := (Nat.le_add_right _ _).trans hp.room
      _ ≤ w.peak := hpeak w List.mem_cons_self

end

/-- Over every run in which the semaphore is replaced only while no worker is live, the live
workers are at most the largest setting in force since the oldest of them was started. -/
theorem live_workers_within_ceiling {concurrency : Nat} (hc : 1 ≤ concurrency)
    {events : List EngineEvent}
    (hg : Guarded WorkerPool.step ReplacedIdle (.initial concurrency) events)
    (hr : run WorkerPool.step (.initial concurrency) events = some s) :
    ∀ oldest rest, s.live = oldest :: rest → s.live.length ≤ oldest.peak := by
  intro oldest rest hlive
  have hp : Pooled s :=
    invariant_of_run (fun hp hok hs => pooled_step hp hok hs) (pooled_initial hc) hg hr
  exact hp.live_le hlive

end Ceiling

def onePass : List EngineEvent := [.lookUp, .acquire, .job]

def oneReplaced : List EngineEvent :=
  onePass ++ ([.finish 0, .reload 2] : List EngineEvent) ++ onePass ++ onePass

theorem live_workers_within_ceiling_idle :
    ∃ s, run WorkerPool.step (.initial 1) oneReplaced = some s ∧
      s.live = [{ slot := 2, peak := 2 }, { slot := 2, peak := 2 }] ∧ s.live.length ≤ 2 :=
  exists_imp_of_any (by decide) fun _ hrun hlive =>
    ⟨hlive, live_workers_within_ceiling (Nat.le_refl 1) (by decide) hrun _ _ hlive⟩

/-- Two workers are live when the setting goes from 2 to 3: the new semaphore admits three more,
and none of the five has seen a setting above 3. -/
theorem live_workers_exceed_ceiling :
    ∃ s, run WorkerPool.step (.initial 2)
        (onePass ++ onePass ++ ([.reload 3] : List EngineEvent) ++ onePass ++ onePass ++ onePass) =
        some s ∧
      s.live.length = 5 ∧ ∀ w ∈ s.live, w.peak = 3 :=
  exists_of_any (by decide)

end EgressDns
