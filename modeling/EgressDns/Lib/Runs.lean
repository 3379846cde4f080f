import Mathlib.Data.List.Dedup
import Mathlib.Logic.Function.Basic

/-!
# Runs and histories

A system is a partial step function: `none` means the label cannot happen in the state. A run is a
list of labels, and a guarded run meets a side condition at every step. What one guarded step
preserves, every guarded run preserves. A list from which a member is taken out and put back in
front, cut to a bound, holds the last distinct members of a history; and a property of histories may
have come with one entry and have held after every entry since.
-/

namespace EgressDns.Lib

universe u v

section Runs

variable {S : Type u} {L : Type v} (step : S → L → Option S)

def run : S → List L → Option S
  | s, [] => some s
  | s, l :: ls =>
    match step s l with
    | none => none
    | some t => run t ls

/-- Every step of the run meets the condition in the state it is taken from. -/
def Guarded (ok : S → L → Prop) : S → List L → Prop
  | _, [] => True
  | s, l :: ls => ok s l ∧ ∀ t, step s l = some t → Guarded ok t ls

instance decidableGuarded (ok : S → L → Prop) [∀ s l, Decidable (ok s l)] :
    ∀ s ls, Decidable (Guarded step ok s ls)
  | _, [] => isTrue trivial
  | s, l :: ls =>
    have : Decidable (∀ t, step s l = some t → Guarded step ok t ls) :=
      match step s l with
      | none => isTrue nofun
      | some t =>
        match decidableGuarded ok t ls with
        | isTrue hg => isTrue fun _ he => Option.some.inj he ▸ hg
        | isFalse hg => isFalse fun hall => hg (hall t rfl)
    inferInstanceAs (Decidable (ok s l ∧ _))

variable {step} {ls : List L} {ok : S → L → Prop} {inv : S → Prop}

theorem run_cons {s t : S} {l : L} (h : run step s (l :: ls) = some t) :
    ∃ m, step s l = some m ∧ run step m ls = some t := by
  unfold run at h
  cases hs : step s l with
  | none => simp [hs] at h
  | some m => exact ⟨m, rfl, by simpa [hs] using h⟩

theorem guarded_of_forall (h : ∀ l ∈ ls, ∀ s, ok s l) (s : S) : Guarded step ok s ls := by
  induction ls generalizing s with
  | nil => exact trivial
  | cons l ls ih =>
    refine ⟨h l List.mem_cons_self s, ?_⟩
    intro t _
    exact ih (fun l hl => h l (List.mem_cons_of_mem _ hl)) t

theorem invariant_of_run (hstep : ∀ {s l t}, inv s → ok s l → step s l = some t → inv t) {s t : S}
    (hi : inv s) (hg : Guarded step ok s ls) (hr : run step s ls = some t) : inv t := by
  induction ls generalizing s with
  | nil =>
    cases hr
    exact hi
  | cons l ls ih =>
    obtain ⟨m, hm, hrest⟩ := run_cons hr
    exact ih (hstep hi hg.1 hm) (hg.2 m hm) hrest

theorem invariant_of_free_run (hstep : ∀ {s l t}, inv s → step s l = some t → inv t) {s t : S}
    (hi : inv s) (hr : run step s ls = some t) : inv t :=
  have hfree : Guarded step (fun _ _ => True) s ls :=
    guarded_of_forall (fun _ _ _ => trivial) s
  invariant_of_run (fun hi _ hs => hstep hi hs) hi hfree hr

theorem guarded_congr {ok' : S → L → Prop} (h : ∀ s l, ok s l ↔ ok' s l) (s : S) (ls : List L) :
    Guarded step ok s ls ↔ Guarded step ok' s ls := by
  induction ls generalizing s with
  | nil => exact Iff.rfl
  | cons l ls ih =>
    apply and_congr (h s l)
    constructor
    · intro hg t ht
      exact (ih t).mp (hg t ht)
    · intro hg t ht
      exact (ih t).mpr (hg t ht)

theorem guarded_append {s : S} {ls' : List L} : Guarded step ok s (ls ++ ls') ↔
    Guarded step ok s ls ∧ ∀ t, run step s ls = some t → Guarded step ok t ls' := by
  induction ls generalizing s with
  | nil => simp [Guarded, run]
  | cons l ls ih =>
    constructor
    · rintro ⟨hok, hg⟩
      refine ⟨⟨hok, fun m hm => (ih.mp (hg m hm)).1⟩, fun t ht => ?_⟩
      obtain ⟨m, hm, hrest⟩ := run_cons ht
      exact (ih.mp (hg m hm)).2 t hrest
    · rintro ⟨⟨hok, hg⟩, hafter⟩
      refine ⟨hok, fun m hm => ih.mpr ⟨hg m hm, fun t ht => hafter t ?_⟩⟩
      rw [run, hm]
      exact ht

end Runs

section Evaluated

variable {A : Type u} {x : Option A} {P Q : A → Prop} [DecidablePred P]

theorem exists_of_any (h : x.any (fun a => decide (P a)) = true) : ∃ a, x = some a ∧ P a := by
  obtain ⟨a, ha, hp⟩ := (Option.any_eq_true _ _).mp h
  exact ⟨a, ha, of_decide_eq_true hp⟩

/-- What is decided of a result, and what follows from it. -/
theorem exists_imp_of_any (h : x.any (fun a => decide (P a)) = true)
    (himp : ∀ a, x = some a → P a → Q a) : ∃ a, x = some a ∧ Q a := by
  obtain ⟨a, ha, hp⟩ := exists_of_any h
  exact ⟨a, ha, himp a ha hp⟩

end Evaluated

variable {A : Type u}

section Latest

variable [DecidableEq A] (history : List A)

def latest : List A := history.dedup.reverse

theorem mem_latest {history : List A} {a : A} : a ∈ latest history ↔ a ∈ history := by
  rw [latest, List.mem_reverse, List.mem_dedup]

theorem nodup_latest : (latest history).Nodup :=
  List.nodup_reverse.mpr (List.nodup_dedup history)

variable [BEq A] [LawfulBEq A]

theorem dedup_concat (a : A) : (history ++ [a]).dedup = history.dedup.erase a ++ [a] := by
  induction history with
  | nil => simp
  | cons b history ih =>
    by_cases hab : b = a
    · subst hab
      rw [List.cons_append, List.dedup_cons_of_mem (by simp), ih]
      by_cases hb : b ∈ history
      · rw [List.dedup_cons_of_mem hb]
      · rw [List.dedup_cons_of_notMem hb, List.erase_cons_head,
          List.erase_of_not_mem (by simpa using hb)]
    · by_cases hb : b ∈ history
      · rw [List.cons_append, List.dedup_cons_of_mem (by simp [hb]), ih, List.dedup_cons_of_mem hb]
      · rw [List.cons_append, List.dedup_cons_of_notMem (by simp [hb, hab]), ih,
          List.dedup_cons_of_notMem hb, List.erase_cons_tail (by simpa using hab),
          List.cons_append]

theorem latest_concat (a : A) : latest (history ++ [a]) = a :: (latest history).erase a := by
  have hnodup := List.nodup_dedup history
  rw [latest, dedup_concat, List.reverse_append, List.reverse_singleton, List.singleton_append,
    (nodup_latest history).erase_eq_filter, hnodup.erase_eq_filter, ← List.filter_reverse, latest]

end Latest

theorem take_erase_take [BEq A] [LawfulBEq A] (a : A) (n : Nat) (xs : List A) :
    ((xs.take (n + 1)).erase a).take n = (xs.erase a).take n := by
  induction xs generalizing n with
  | nil => rfl
  | cons x xs ih =>
    by_cases hx : x = a
    · subst hx
      rw [List.take_succ_cons, List.erase_cons_head, List.erase_cons_head, List.take_take,
        Nat.min_self]
    · rw [List.take_succ_cons, List.erase_cons_tail (by simpa using hx),
        List.erase_cons_tail (by simpa using hx)]
      cases n with
      | zero => rfl
      | succ n => rw [List.take_succ_cons, List.take_succ_cons, ih]

structure Since (P : List A → Prop) (before : List A) (e : A) (after : List A) : Prop where
  fresh : ¬ P before
  holds : ∀ p, p <+: after → P (before ++ e :: p)

namespace Since

variable {P : List A → Prop} {before after : List A} {e e' : A}

theorem start (hnot : ¬ P before) (h : P (before ++ [e])) : Since P before e [] where
  fresh := hnot
  holds p hp := by
    rw [List.prefix_nil.mp hp]
    exact h

theorem extend (h : Since P before e after) (hnow : P (before ++ e :: (after ++ [e']))) :
    Since P before e (after ++ [e']) where
  fresh := h.fresh
  holds p hp := by
    rcases List.prefix_concat_iff.mp hp with rfl | hp
    · exact hnow
    · exact h.holds p hp

end Since

end EgressDns.Lib
