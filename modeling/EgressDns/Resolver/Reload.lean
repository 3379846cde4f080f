import EgressDns.Resolver.Steps
import EgressDns.Resolver.Strict

/-!
# Strict mode across reloads

A reload replaces the resolver and keeps the caches, the flights and the tasks in progress. The
invariant says that nothing left over from another mode reaches a client once Strict mode is in
force, provided nothing was left over when it came into force.
-/

namespace EgressDns.System

open Lib

variable {hk : Hickory}

def Shared.Strict (s : Shared hk) : Prop := s.current.cfg.dnssec.mode = .strict

def Stage.vettings : Stage → List Vetting
  | .received _ _ vetting => [vetting]
  | stage => (stage.writes ++ stage.serves).map Stored.vetting

def Role.vettings (role : Role) : List Vetting := role.serves.map Stored.vetting

/-- A task fit for Strict mode: what it carries was vetted, and so will be what it fetches. -/
structure Task.Fit (t : Task hk) : Prop where
  resolver : t.stage.willFetch = true → t.resolver.cfg.dnssec.mode = .strict
  role : ∀ v ∈ t.role.vettings, v ≠ .unvetted
  stage : ∀ v ∈ t.stage.vettings, v ≠ .unvetted

/-- Every cached answer a client may get with checking enabled was vetted. -/
def Shared.CacheFit (s : Shared hk) : Prop :=
  ∀ key entry, key.mode.checkingDisabled = false → s.cache.answers key = some entry →
    s.tags key ≠ .unvetted

/-- No response with checking enabled was built from an unvetted answer while Strict mode was in
force. -/
def Shared.ResponsesFit (s : Shared hk) : Prop :=
  ∀ x ∈ s.responses, x.strict = true → x.key.mode.checkingDisabled = false →
    ∀ stored, x.source = some stored → stored.vetting ≠ .unvetted

structure StrictSound (s : Shared hk) : Prop where
  cache : s.Strict → s.CacheFit
  responses : s.ResponsesFit

def StrictGood (s : Shared hk) (t : Task hk) : Prop :=
  s.Strict → t.key.mode.checkingDisabled = false → t.Fit

theorem Task.Fit.serves {t : Task hk} (h : t.Fit) (stored : Stored) (hm : stored ∈ t.stage.serves) :
    stored.vetting ≠ .unvetted := by
  refine h.stage _ ?_
  unfold Stage.vettings
  split
  · rename_i hstage
    rw [hstage] at hm
    cases hm
  · exact List.mem_map_of_mem (List.mem_append_right _ hm)

section Keeps

variable {s s' : Shared hk} {t : Task hk}

theorem StrictSound.untouched (h : StrictSound s) (hu : Untouched s s') : StrictSound s' where
  cache hs := by
    intro key entry hcd he
    unfold Shared.Strict at hs
    rw [hu.current] at hs
    rw [hu.answers] at he
    rw [hu.tags]
    exact h.cache hs key entry hcd he
  responses := by
    unfold Shared.ResponsesFit
    rw [hu.responses]
    exact h.responses

theorem StrictGood.current (h : StrictGood s t) (hc : s'.current = s.current) :
    StrictGood s' t := by
  intro hs
  unfold Shared.Strict at hs
  rw [hc] at hs
  exact h hs

variable {stage : Stage}

theorem StrictGood.goto (h : StrictGood s t)
    (hf : stage.willFetch = true → t.stage.willFetch = true)
    (hv : s.Strict → t.key.mode.checkingDisabled = false → ∀ v ∈ stage.vettings, v ≠ .unvetted) :
    StrictGood s (t.goto stage) := fun hs hcd =>
  { resolver := fun hw => (h hs hcd).resolver (hf hw), role := (h hs hcd).role
    stage := hv hs hcd }

theorem Stage.vettings_of_idle (h : stage.idle = true) : stage.vettings = [] := by
  unfold Stage.vettings
  split
  · cases h
  · rw [Stage.writes_of_idle h, Stage.serves_of_idle h]
    rfl

theorem StrictGood.idle (h : StrictGood s t) (hidle : stage.idle = true)
    (hf : stage.willFetch = true → t.stage.willFetch = true) : StrictGood s (t.goto stage) := by
  refine h.goto hf ?_
  rw [Stage.vettings_of_idle hidle]
  intro _ _ v hv
  cases hv

end Keeps

section Actions

variable {s : Shared hk} {t : Task hk} {e : Effect (Shared hk) (Task hk)} {key : CacheKey}
  {entry : CacheEntry} {env : FetchEnv} {stored : Stored}

theorem StrictGood.outcome (ht : StrictGood s t) {E : Type} (outcome : Except E Stored)
    {stage : Stage} (hf : stage.willFetch = false)
    (hstage : stage.vettings = (outcomeEntry outcome).map Stored.vetting)
    (hv : s.Strict → t.key.mode.checkingDisabled = false →
      ∀ stored ∈ outcomeEntry outcome, stored.vetting ≠ .unvetted) :
    StrictGood s (t.goto stage) := by
  refine ht.goto (by simp [hf]) fun hstrict hcd v hm => ?_
  rw [hstage] at hm
  obtain ⟨stored, hmem, rfl⟩ := List.mem_map.mp hm
  exact hv hstrict hcd stored hmem

theorem StrictSound.respond (hs : StrictSound s) (x : Response)
    (hv : x.strict = true → x.key.mode.checkingDisabled = false →
      ∀ stored, x.source = some stored → stored.vetting ≠ .unvetted) :
    StrictSound { s with responses := x :: s.responses } where
  cache := hs.cache
  responses y hy := by
    rcases List.mem_cons.mp hy with rfl | hold
    · exact hv
    · exact hs.responses y hold

end Actions

end EgressDns.System
