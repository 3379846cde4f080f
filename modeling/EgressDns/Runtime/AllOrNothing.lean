import EgressDns.Runtime.App

/-!
# All or nothing

When the callers of `reload` do not overlap, and every configuration that is let through has
datasets that can be built, the stores of a reload and the build it left behind end up with one
configuration.

A snapshot is published without asking which configuration the current one was built from. The
generations of the published snapshots go up as long as no reload is applied between the moment a
build takes its configuration and the moment it publishes.
-/

namespace EgressDns

open Lib

def AppConfig.buildable (cfg : AppConfig) (lib : TextLib) : Bool :=
  match LocalZoneSet.build lib cfg.localData.zones cfg.localData.localTtl with
  | .ok _ => true
  | .error _ => false

theorem AppConfig.buildSnapshot_of_buildable {cfg : AppConfig} {lib : TextLib}
    (h : cfg.buildable lib = true) (disk : Disk) (now : Nat) :
    ∃ snapshot, cfg.buildSnapshot lib disk now = .ok snapshot := by
  apply (DatasetSnapshot.build_isOk_iff lib cfg.datasets cfg.localData disk now).mpr
  unfold AppConfig.buildable at h
  split at h
  · rename_i zones hzones
    exact ⟨zones, hzones⟩
  · cases h

namespace App

variable {lib : TextLib} {digest : DatasetSnapshot → UInt64} {boot : AppConfig} {s t : App}

def Set (s : App) (cfg : AppConfig) : Toggle → Prop
  | .probes => s.probes = cfg.probeEnabled
  | .prefetch => s.prefetch = cfg.prefetchEnabled
  | .cloudflareEnabled => s.cloudflareEnabled = cfg.cloudflareEnabled
  | .cloudflareMode => s.cloudflareMode = cfg.cloudflareMode
  | .cloudflareOverride => True

/-- The runtime state and every switch are those of one configuration. -/
structure Installed (s : App) (cfg : AppConfig) : Prop where
  config : s.config = cfg
  toggles : ∀ toggle, s.Set cfg toggle

def Serves (lib : TextLib) (s : App) (cfg : AppConfig) : Prop :=
  ∃ disk now, cfg.buildSnapshot lib disk now = .ok s.snapshot

/-- Once nothing is under way, everything is that of the last reload that returned Ok, and every
reload that returned Ok has datasets that can be built. -/
structure AllOrNothing (lib : TextLib) (s : App) : Prop where
  settled : s.calls = [] → s.builds = [] → ∀ cfg, s.lastOk = some cfg →
    s.Installed cfg ∧ s.Serves lib cfg
  accepted : ∀ cfg ∈ s.accepted, cfg.buildable lib = true

/-- A call begins only when no other call and no build is under way, a file that loads has datasets
that can be built, and the periodic task publishes only if no swap has come since it read the
configuration. -/
def ReloadGuard (lib : TextLib) (s : App) : AppLabel → Prop
  | .call => s.calls.isEmpty = true ∧ s.builds.isEmpty = true
  | .load _ (.ok cfg) => cfg.buildable lib = true
  | .periodicBuilt .. => s.periodic.all (fun b => b.generation = s.generation) = true
  | _ => True

instance (s : App) (l : AppLabel) : Decidable (ReloadGuard lib s l) := by
  unfold ReloadGuard
  split <;> infer_instance

/-- Stages before the swap, with a candidate whose datasets can be built. -/
def Early (lib : TextLib) : ReloadStage → Prop
  | .loading => True
  | .loaded cfg | .cleared cfg | .built cfg => cfg.buildable lib = true
  | .toggling .. | .spawned .. => False

/-- Nothing of the last reload has been touched yet. -/
structure Standing (lib : TextLib) (boot : AppConfig) (s : App) : Prop where
  installed : s.Installed (s.lastOk.getD boot)
  serves : ∀ cfg, s.lastOk = some cfg → s.Serves lib cfg

/-- The only reload under way, if any, and how far it is. -/
inductive Phase (lib : TextLib) (boot : AppConfig) (s : App) : Prop where
  | idle (hcalls : s.calls = []) (hbuilds : s.builds = []) (hs : s.Standing lib boot)
  | early (stage : ReloadStage) (hcalls : s.calls = [stage]) (hbuilds : s.builds = [])
      (hs : s.Standing lib boot) (hstage : Early lib stage)
  | toggling (cfg : AppConfig) (generation : Nat) (rest : List Toggle)
      (hcalls : s.calls = [.toggling cfg generation rest]) (hbuilds : s.builds = [])
      (hb : cfg.buildable lib = true) (hconfig : s.config = cfg)
      (hset : ∀ toggle, toggle ∉ rest → s.Set cfg toggle)
  | spawned (cfg : AppConfig) (hcalls : s.calls = [.spawned cfg]) (hs : s.Installed cfg)
      (hb : cfg.buildable lib = true)
      (hbuilds : (s.builds = [] ∧ s.Serves lib cfg) ∨ ∃ b, s.builds = [b] ∧ b.cfg = cfg)
  | building (b : DatasetBuild) (hcalls : s.calls = []) (hbuilds : s.builds = [b])
      (hok : s.lastOk = some b.cfg) (hs : s.Installed b.cfg) (hb : b.cfg.buildable lib = true)

structure Orderly (lib : TextLib) (boot : AppConfig) (s : App) : Prop where
  phase : s.Phase lib boot
  accepted : ∀ cfg ∈ s.accepted, cfg.buildable lib = true
  periodic : ∀ b, s.periodic = some b → b.generation ≤ s.generation ∧
    (b.generation = s.generation → b.cfg = s.config)

theorem Orderly.allOrNothing (h : s.Orderly lib boot) : s.AllOrNothing lib where
  settled hcalls hbuilds cfg hok := by
    cases h.phase with
    | idle _ _ hs =>
      have hinstalled := hs.installed
      rw [hok] at hinstalled
      exact ⟨hinstalled, hs.serves cfg hok⟩
    | early stage hc | toggling _ _ _ hc
    | spawned _ hc => exact absurd (hcalls.symm.trans hc) (List.cons_ne_nil _ _).symm
    | building b _ hb => exact absurd (hbuilds.symm.trans hb) (List.cons_ne_nil _ _).symm
  accepted := h.accepted

variable {i k now : Nat} {stage : ReloadStage} {disk : Disk}

theorem single_call {stage' : ReloadStage} (h : s.calls = [stage'])
    (hi : s.calls[i]? = some stage) : i = 0 ∧ stage' = stage := by
  rw [h] at hi
  cases i with
  | zero => exact ⟨rfl, Option.some.inj hi⟩
  | succ i => cases hi

theorem no_call (h : s.calls = []) (hi : s.calls[i]? = some stage) : False := by
  rw [h] at hi
  cases hi

theorem Phase.at_call (h : s.Phase lib boot) (hi : s.calls[i]? = some stage) :
    i = 0 ∧ s.calls = [stage] ∧
      (s.builds = [] ∧ s.Standing lib boot ∧ Early lib stage ∨
      (∃ cfg generation rest, stage = .toggling cfg generation rest ∧ s.builds = [] ∧
        cfg.buildable lib = true ∧ s.config = cfg ∧
        ∀ toggle, toggle ∉ rest → s.Set cfg toggle) ∨
      ∃ cfg, stage = .spawned cfg ∧ s.Installed cfg ∧ cfg.buildable lib = true ∧
        ((s.builds = [] ∧ s.Serves lib cfg) ∨ ∃ b, s.builds = [b] ∧ b.cfg = cfg)) := by
  cases h with
  | idle hcalls | building b hcalls => exact (no_call hcalls hi).elim
  | early stage' hcalls hbuilds hs hstage =>
    obtain ⟨hz, rfl⟩ := single_call hcalls hi
    exact ⟨hz, hcalls, .inl ⟨hbuilds, hs, hstage⟩⟩
  | toggling cfg generation rest hcalls hbuilds hb hconfig hset =>
    obtain ⟨hz, rfl⟩ := single_call hcalls hi
    exact ⟨hz, hcalls, .inr (.inl ⟨cfg, generation, rest, rfl, hbuilds, hb, hconfig, hset⟩)⟩
  | spawned cfg hcalls hs hb hbuilds =>
    obtain ⟨hz, rfl⟩ := single_call hcalls hi
    exact ⟨hz, hcalls, .inr (.inr ⟨cfg, rfl, hs, hb, hbuilds⟩)⟩

def beforeSwap : ReloadStage → Bool
  | .loading | .loaded _ | .cleared _ | .built _ => true
  | .toggling .. | .spawned .. => false

theorem Phase.early_call (h : s.Phase lib boot) (hi : s.calls[i]? = some stage)
    (hbefore : beforeSwap stage = true) :
    i = 0 ∧ s.calls = [stage] ∧ s.builds = [] ∧ s.Standing lib boot ∧ Early lib stage := by
  obtain ⟨hz, hcalls, hearly | ⟨cfg, generation, rest, rfl, _⟩ | ⟨cfg, rfl, _⟩⟩ := h.at_call hi
  · exact ⟨hz, hcalls, hearly⟩
  · cases hbefore
  · cases hbefore

theorem Standing.of_same (h : s.Standing lib boot) (calls : List ReloadStage)
    (lastReloadError : Option ReloadError) :
    { s with calls, lastReloadError }.Standing lib boot where
  installed := ⟨h.installed.config, h.installed.toggles⟩
  serves := h.serves

section

variable (h : s.Orderly lib boot)
include h

theorem Orderly.fail (hcalls : s.calls = [stage]) (hi : i = 0) (hbuilds : s.builds = [])
    (hs : s.Standing lib boot) (e : ReloadError) :
    (s.fail i e).Orderly lib boot where
  phase := by
    refine .idle ?_ hbuilds (hs.of_same _ _)
    simp [App.fail, hcalls, hi]
  accepted := h.accepted
  periodic := h.periodic

theorem Orderly.setCall {stage' : ReloadStage} (hcalls : s.calls = [stage]) (hi : i = 0)
    (hbuilds : s.builds = []) (hs : s.Standing lib boot) (hstage : Early lib stage') :
    (s.setCall i stage').Orderly lib boot where
  phase := by
    refine .early stage' ?_ hbuilds (hs.of_same _ s.lastReloadError) hstage
    simp [App.setCall, hcalls, hi]
  accepted := h.accepted
  periodic := h.periodic

theorem Orderly.load {result : Except Text AppConfig} (hg : ReloadGuard lib s (.load i result))
    (he : s.load i result = some t) : t.Orderly lib boot := by
  unfold App.load at he
  split at he
  · rename_i hi
    obtain ⟨hz, hcalls, hbuilds, hs, _⟩ := h.phase.early_call hi rfl
    split at he
    · cases he
      exact h.setCall hcalls hz hbuilds hs hg
    · cases he
      exact h.fail hcalls hz hbuilds hs _
  · cases he

theorem Orderly.check (he : s.check i = some t) : t.Orderly lib boot := by
  unfold App.check at he
  split at he
  · rename_i cfg hi
    obtain ⟨hz, hcalls, hbuilds, hs, hstage⟩ := h.phase.early_call hi rfl
    split at he
    · cases he
      exact h.setCall hcalls hz hbuilds hs hstage
    · cases he
      exact h.fail hcalls hz hbuilds hs _
  · cases he

theorem Orderly.buildState {result : Except Text Unit} (he : s.buildState i result = some t) :
    t.Orderly lib boot := by
  unfold App.buildState at he
  split at he
  · rename_i cfg hi
    obtain ⟨hz, hcalls, hbuilds, hs, hstage⟩ := h.phase.early_call hi rfl
    split at he
    · cases he
      exact h.setCall hcalls hz hbuilds hs hstage
    · cases he
      exact h.fail hcalls hz hbuilds hs _
  · cases he

end

theorem Toggle.mem_order (toggle : Toggle) : toggle ∈ Toggle.order := by
  cases toggle <;> decide

theorem Orderly.swap (h : s.Orderly lib boot) (he : s.swap i = some t) : t.Orderly lib boot := by
  unfold App.swap at he
  split at he
  · rename_i cfg hi
    obtain ⟨hz, hcalls, hbuilds, _, hstage⟩ := h.phase.early_call hi rfl
    cases he
    refine ⟨.toggling cfg (s.generation + 1) Toggle.order ?_ hbuilds hstage rfl ?_, h.accepted, ?_⟩
    · simp [App.setCall, hcalls, hz]
    · intro toggle hnot
      exact absurd (Toggle.mem_order toggle) hnot
    · intro b hb
      have hle := (h.periodic b hb).1
      refine ⟨Nat.le_succ_of_le hle, ?_⟩
      intro heq
      dsimp only at heq
      omega
  · cases he

theorem set_store (cfg : AppConfig) (toggle : Toggle) : (s.store cfg toggle).Set cfg toggle := by
  cases toggle <;> first | rfl | exact trivial

theorem Set.store {cfg : AppConfig} {toggle : Toggle} (h : s.Set cfg toggle) (other : Toggle) :
    (s.store cfg other).Set cfg toggle := by
  cases other <;> cases toggle <;> first | exact h | rfl

theorem store_calls (cfg : AppConfig) (toggle : Toggle) : (s.store cfg toggle).calls = s.calls := by
  cases toggle <;> rfl

theorem store_builds (cfg : AppConfig) (toggle : Toggle) :
    (s.store cfg toggle).builds = s.builds := by
  cases toggle <;> rfl

theorem store_config (cfg : AppConfig) (toggle : Toggle) :
    (s.store cfg toggle).config = s.config := by
  cases toggle <;> rfl

theorem Orderly.store (h : s.Orderly lib boot) (cfg : AppConfig) (toggle : Toggle) :
    (∀ cfg' ∈ (s.store cfg toggle).accepted, cfg'.buildable lib = true) ∧
      ∀ b, (s.store cfg toggle).periodic = some b →
        b.generation ≤ (s.store cfg toggle).generation ∧
          (b.generation = (s.store cfg toggle).generation →
            b.cfg = (s.store cfg toggle).config) := by
  cases toggle <;> exact ⟨h.accepted, h.periodic⟩

theorem Orderly.toggle (h : s.Orderly lib boot) (he : s.toggle i = some t) :
    t.Orderly lib boot := by
  unfold App.toggle at he
  split at he
  · rename_i cfg generation head rest hi
    cases he
    obtain ⟨hz, hcalls, hearly | ⟨cfg', generation', rest', heq, hbuilds, hb, hconfig, hset⟩ |
      ⟨cfg', heq, _⟩⟩ := h.phase.at_call hi
    · exact absurd hearly.2.2 id
    · cases heq
      refine ⟨.toggling cfg generation rest ?_ ?_ hb ?_ ?_, (h.store cfg head).1,
        (h.store cfg head).2⟩
      · simp [App.setCall, store_calls, hcalls, hz]
      · rw [App.setCall, store_builds]
        exact hbuilds
      · rw [App.setCall, store_config]
        exact hconfig
      · intro toggle hnot
        by_cases heq : toggle = head
        · subst heq
          exact set_store cfg toggle
        · exact (hset toggle (by simp [heq, hnot])).store head
    · cases heq
  · cases he

theorem Orderly.spawn (h : s.Orderly lib boot) (he : s.spawn i = some t) : t.Orderly lib boot := by
  unfold App.spawn at he
  split at he
  · rename_i cfg generation hi
    cases he
    obtain ⟨hz, hcalls, hearly | ⟨cfg', generation', rest', heq, hbuilds, hb, hconfig, hset⟩ |
      ⟨cfg', heq, _⟩⟩ := h.phase.at_call hi
    · exact absurd hearly.2.2 id
    · cases heq
      refine ⟨.spawned cfg ?_ ⟨hconfig, fun toggle => hset toggle (List.not_mem_nil)⟩ hb
        (.inr ⟨{ cfg, generation }, ?_, rfl⟩), h.accepted, h.periodic⟩
      · simp [App.setCall, hcalls, hz]
      · simp [hbuilds]
    · cases heq
  · cases he

theorem Orderly.finish (h : s.Orderly lib boot) (he : s.finish i = some t) :
    t.Orderly lib boot := by
  unfold App.finish at he
  split at he
  · rename_i cfg hi
    cases he
    obtain ⟨hz, hcalls, hearly | ⟨cfg', _, _, heq, _⟩ | ⟨cfg', heq, hs, hb, hbuilds⟩⟩ :=
      h.phase.at_call hi
    · exact absurd hearly.2.2 id
    · cases heq
    · cases heq
      refine ⟨?_, ?_, h.periodic⟩
      · have hnone : s.calls.eraseIdx i = [] := by simp [hcalls, hz]
        rcases hbuilds with ⟨hnil, hserves⟩ | ⟨b, hone, rfl⟩
        · refine .idle hnone hnil ⟨⟨hs.config, hs.toggles⟩, ?_⟩
          intro cfg' hok
          cases hok
          exact hserves
        · exact .building b hnone hone rfl ⟨hs.config, hs.toggles⟩ hb
      · intro cfg' hmem
        rcases List.mem_cons.mp hmem with rfl | hmem
        · exact hb
        · exact h.accepted cfg' hmem
  · cases he

theorem single_build {b b' : DatasetBuild} (h : s.builds = [b']) (hk : s.builds[k]? = some b) :
    k = 0 ∧ b' = b := by
  rw [h] at hk
  cases k with
  | zero => exact ⟨rfl, Option.some.inj hk⟩
  | succ k => cases hk

theorem no_build {b : DatasetBuild} (h : s.builds = []) (hk : s.builds[k]? = some b) : False := by
  rw [h] at hk
  cases hk

theorem Orderly.datasetBuilt (h : s.Orderly lib boot)
    (he : s.datasetBuilt lib k disk now = some t) : t.Orderly lib boot := by
  obtain ⟨b, hk, rfl⟩ := Option.map_eq_some_iff.mp he
  -- Both phases with a build under way have it ready to publish.
  have hpublish : b.cfg.buildable lib = true →
      ∃ snapshot, b.cfg.buildSnapshot lib disk now = .ok snapshot :=
    fun hb => AppConfig.buildSnapshot_of_buildable hb disk now
  cases h.phase with
  | idle _ hbuilds | early _ _ hbuilds
  | toggling _ _ _ _ hbuilds => exact (no_build hbuilds hk).elim
  | spawned cfg hcalls hs hb hbuilds =>
    rcases hbuilds with ⟨hnil, _⟩ | ⟨b', hone, rfl⟩
    · exact (no_build hnil hk).elim
    · obtain ⟨hz, rfl⟩ := single_build hone hk
      obtain ⟨snapshot, hsnapshot⟩ := hpublish hb
      rw [hsnapshot]
      refine ⟨.spawned b'.cfg hcalls ⟨hs.config, hs.toggles⟩ hb
        (.inl ⟨?_, disk, now, hsnapshot⟩), h.accepted, h.periodic⟩
      simp [App.publish, hone, hz]
  | building b' hcalls hone hok hs hb =>
    obtain ⟨hz, rfl⟩ := single_build hone hk
    obtain ⟨snapshot, hsnapshot⟩ := hpublish hb
    rw [hsnapshot]
    refine ⟨.idle hcalls ?_ ⟨?_, ?_⟩, h.accepted, h.periodic⟩
    · simp [App.publish, hone, hz]
    · change ({ s with builds := _ }.publish _ _).Installed (s.lastOk.getD boot)
      rw [hok]
      exact ⟨hs.config, hs.toggles⟩
    · intro cfg hcfg
      cases hok.symm.trans hcfg
      exact ⟨disk, now, hsnapshot⟩

theorem Phase.publish (h : s.Phase lib boot) (generation : Nat) {snapshot : DatasetSnapshot}
    (hb : s.config.buildSnapshot lib disk now = .ok snapshot) :
    (s.publish generation snapshot).Phase lib boot := by
  have hserves {cfg : AppConfig} (hs : s.Installed cfg) :
      (s.publish generation snapshot).Serves lib cfg :=
    ⟨disk, now, hs.config ▸ hb⟩
  have hstanding (hs : s.Standing lib boot) :
      (s.publish generation snapshot).Standing lib boot := by
    refine ⟨⟨hs.installed.config, hs.installed.toggles⟩, ?_⟩
    intro cfg hok
    have hinstalled := hs.installed
    rw [show s.lastOk = some cfg from hok] at hinstalled
    exact hserves hinstalled
  cases h with
  | idle hcalls hbuilds hs => exact .idle hcalls hbuilds (hstanding hs)
  | early stage hcalls hbuilds hs hstage =>
    exact .early stage hcalls hbuilds (hstanding hs) hstage
  | toggling cfg generation' rest hcalls hbuilds hb hconfig hset =>
    exact .toggling cfg generation' rest hcalls hbuilds hb hconfig hset
  | spawned cfg hcalls hs hb hbuilds =>
    refine .spawned cfg hcalls ⟨hs.config, hs.toggles⟩ hb ?_
    rcases hbuilds with ⟨hnil, _⟩ | hone
    · exact .inl ⟨hnil, hserves hs⟩
    · exact .inr hone
  | building b hcalls hbuilds hok hs hb =>
    exact .building b hcalls hbuilds hok ⟨hs.config, hs.toggles⟩ hb

theorem Phase.setPeriodic (h : s.Phase lib boot) (periodic : Option DatasetBuild) :
    { s with periodic }.Phase lib boot := by
  cases h with
  | idle hcalls hbuilds hs =>
    exact .idle hcalls hbuilds ⟨⟨hs.installed.config, hs.installed.toggles⟩, hs.serves⟩
  | early stage hcalls hbuilds hs hstage =>
    exact .early stage hcalls hbuilds
      ⟨⟨hs.installed.config, hs.installed.toggles⟩, hs.serves⟩ hstage
  | toggling cfg generation rest hcalls hbuilds hb hconfig hset =>
    exact .toggling cfg generation rest hcalls hbuilds hb hconfig hset
  | spawned cfg hcalls hs hb hbuilds =>
    exact .spawned cfg hcalls ⟨hs.config, hs.toggles⟩ hb hbuilds
  | building b hcalls hbuilds hok hs hb =>
    exact .building b hcalls hbuilds hok ⟨hs.config, hs.toggles⟩ hb

theorem Orderly.periodicBuilt (h : s.Orderly lib boot)
    (hg : ReloadGuard lib s (.periodicBuilt disk now))
    (he : s.periodicBuilt lib digest disk now = some t) : t.Orderly lib boot := by
  obtain ⟨b, hb, rfl⟩ := Option.map_eq_some_iff.mp he
  have hcfg : b.cfg = s.config := by
    apply (h.periodic b hb).2
    simpa [ReloadGuard, hb] using hg
  have hphase := h.phase.setPeriodic none
  have hnone : ∀ b' : DatasetBuild, none = some b' → b'.generation ≤ s.generation ∧
      (b'.generation = s.generation → b'.cfg = s.config) := by
    intro b' hb'
    cases hb'
  dsimp only
  split
  · rename_i snapshot hsnapshot
    rw [hcfg] at hsnapshot
    unfold publishIfChanged
    split
    · exact ⟨hphase, h.accepted, hnone⟩
    · exact ⟨hphase.publish b.generation hsnapshot, h.accepted, hnone⟩
  · exact ⟨hphase, h.accepted, hnone⟩

theorem orderly_step {l : AppLabel} (h : s.Orderly lib boot) (hg : ReloadGuard lib s l)
    (he : s.step lib digest l = some t) : t.Orderly lib boot := by
  cases l with
  | call =>
    cases he
    have hcalls : s.calls = [] := List.isEmpty_iff.mp hg.1
    have hbuilds : s.builds = [] := List.isEmpty_iff.mp hg.2
    cases h.phase with
    | idle _ _ hs =>
      refine ⟨.early .loading ?_ hbuilds (hs.of_same _ s.lastReloadError) trivial,
        h.accepted, h.periodic⟩
      simp [hcalls]
    | building b _ hone => exact absurd (hbuilds.symm.trans hone) (List.cons_ne_nil _ _).symm
    | early _ hc | toggling _ _ _ hc
    | spawned _ hc => exact absurd (hcalls.symm.trans hc) (List.cons_ne_nil _ _).symm
  | load i result => exact h.load hg he
  | check i => exact h.check he
  | build i result => exact h.buildState he
  | swap i => exact h.swap he
  | toggle i => exact h.toggle he
  | spawn i => exact h.spawn he
  | finish i => exact h.finish he
  | datasetBuilt k disk now => exact h.datasetBuilt he
  | periodicRead =>
    simp only [App.step, periodicRead] at he
    split at he
    · cases he
    · split at he
      · cases he
        exact h
      · cases he
        refine ⟨h.phase.setPeriodic _, h.accepted, ?_⟩
        intro b hb
        cases hb
        exact ⟨le_refl _, fun _ => rfl⟩
  | periodicBuilt disk now => exact h.periodicBuilt hg he

theorem orderly_boot (lib : TextLib) (cfg : AppConfig) (disk : Disk) (now : Nat) :
    (App.boot lib cfg disk now).Orderly lib cfg where
  phase := by
    refine .idle rfl rfl ⟨⟨rfl, ?_⟩, ?_⟩
    · intro toggle
      cases toggle <;> first | rfl | exact trivial
    · intro cfg' hcfg'
      cases hcfg'
  accepted := List.forall_mem_nil _
  periodic := by
    intro b hb
    cases hb

end App

/-- Reloads that do not overlap, of files whose datasets can be built, are all or nothing: once
nothing is under way, the runtime state, every switch and the served datasets are those of the last
reload that returned Ok. -/
theorem reload_all_or_nothing (lib : TextLib) (digest : DatasetSnapshot → UInt64)
    (cfg : AppConfig) (disk : Disk) (now : Nat) (labels : List AppLabel) (s : App)
    (hguard : Guarded (App.step lib digest) (App.ReloadGuard lib)
      (App.boot lib cfg disk now) labels)
    (hrun : run (App.step lib digest) (App.boot lib cfg disk now) labels = some s) :
    s.AllOrNothing lib :=
  (invariant_of_run App.orderly_step (App.orderly_boot lib cfg disk now) hguard
    hrun).allOrNothing

def isSpace (b : UInt8) : Bool := b = 32 || b = 9 || b = 10 || b = 13

def dropSpaces (text : Text) : Text := text.dropWhile isSpace

def TextLib.sample : TextLib where
  trim text := (dropSpaces (dropSpaces text).reverse).reverse
  lines text := text.splitOn 10
  splitWhitespace text := (text.splitOn 32).filter (· ≠ [])
  splitOnceWhitespace text := splitOnce 32 text
  parseV4 text := if text = ascii "10.0.0.1" then some 0x0a000001 else none
  parseV6 _ := none
  parseU16 _ := none
  nameFromStr text := .ok ⟨[text]⟩

/-- A configuration with every switch at `on` and one zone with this address in it. -/
def switchConfig (on : Bool) (address : String) : AppConfig where
  fixed _ := 0
  probeEnabled := on
  prefetchEnabled := on
  cloudflareEnabled := on
  cloudflareMode := .preserve
  datasets := noDatasets
  localData :=
    { hosts := [], suffixRules := [], localTtl := 60
      zones := [{ name := ascii "lan", authoritative := true
                  records := [{ name := ascii "gw", rtype := ascii "A", value := ascii address
                                ttl := none }] }] }

def emptyDisk : Disk := ⟨fun _ => none, fun _ => false⟩

def snapshotDigest (snapshot : DatasetSnapshot) : UInt64 := UInt64.ofNat snapshot.stats.hostEntries

def reloadUpToSwap (i : Nat) (cfg : AppConfig) : List AppLabel :=
  [.load i (.ok cfg), .check i, .build i (.ok ()), .swap i]

def toggles (i : Nat) : List AppLabel := List.replicate 5 (.toggle i)

def reloadAlone (cfg : AppConfig) : List AppLabel :=
  .call :: reloadUpToSwap 0 cfg ++ toggles 0 ++
    ([.spawn 0, .finish 0] : List AppLabel)

theorem reload_all_or_nothing_alone :
    ∃ s, run (App.step .sample snapshotDigest)
        (App.boot .sample (switchConfig false "10.0.0.1") emptyDisk 0)
        (reloadAlone (switchConfig true "10.0.0.1") ++ [.datasetBuilt 0 emptyDisk 1]) = some s ∧
      (s.calls.length, s.builds.length, s.accepted.length, s.lastOk.map AppConfig.probeEnabled) =
        (0, 0, 1, some true) ∧
      s.AllOrNothing .sample :=
  exists_imp_of_any (by decide) fun _ hrun hs =>
    ⟨hs, reload_all_or_nothing _ _ _ _ _ _ _ (by decide) hrun⟩

/-- Two reloads at once: the second swaps last and returns last, but the switches are those of the
first. And a reload of a zone with a malformed address returns Ok. -/
theorem reload_mixes_configurations :
    (run (App.step .sample snapshotDigest)
        (App.boot .sample (switchConfig false "10.0.0.1") emptyDisk 0)
        (([.call, .call] : List AppLabel) ++ reloadUpToSwap 0 (switchConfig true "10.0.0.1") ++
          reloadUpToSwap 1 (switchConfig false "10.0.0.1") ++ toggles 1 ++ toggles 0 ++
          ([.spawn 0, .spawn 1, .finish 0, .finish 0, .datasetBuilt 0 emptyDisk 1,
            .datasetBuilt 0 emptyDisk 1] : List AppLabel))).map
        (fun s => (s.calls.length, s.builds.length, s.lastOk.map AppConfig.probeEnabled,
          s.config.probeEnabled, s.probes)) =
      some (0, 0, some false, false, true) ∧
    (run (App.step .sample snapshotDigest)
        (App.boot .sample (switchConfig false "10.0.0.1") emptyDisk 0)
        (reloadAlone (switchConfig false "10.0.0") ++
          ([.datasetBuilt 0 emptyDisk 1] : List AppLabel))).map
        (fun s => (s.accepted.map fun cfg => cfg.buildable .sample, s.published)) =
      some ([false], [0]) := by
  decide

namespace App

variable {lib : TextLib} {digest : DatasetSnapshot → UInt64} {s t : App}

/-- No swap has come since the configuration of this build was read. -/
def PublishGuard (s : App) : AppLabel → Prop
  | .datasetBuilt k .. => (s.builds[k]?).all (fun b => b.generation = s.generation) = true
  | .periodicBuilt .. => s.periodic.all (fun b => b.generation = s.generation) = true
  | _ => True

instance (s : App) : (l : AppLabel) → Decidable (PublishGuard s l)
  | .datasetBuilt .. | .periodicBuilt .. => instDecidableEqBool _ _
  | .call | .load .. | .check _ | .build .. | .swap _ | .toggle _ | .spawn _ | .finish _
  | .periodicRead => instDecidableTrue

/-- The latest publication first: none is of an earlier configuration than one before it. -/
def NeverBackwards (s : App) : Prop := s.published.Pairwise (· ≥ ·)

structure Ascending (s : App) : Prop where
  never : s.NeverBackwards
  bounded : ∀ generation ∈ s.published, generation ≤ s.generation

theorem Ascending.publish (h : s.Ascending) (snapshot : DatasetSnapshot) :
    (s.publish s.generation snapshot).Ascending where
  never := List.pairwise_cons.mpr ⟨h.bounded, h.never⟩
  bounded generation hg := by
    rcases List.mem_cons.mp hg with rfl | hg
    · exact le_refl _
    · exact h.bounded generation hg

theorem Ascending.of_le (h : s.Ascending) (hp : t.published = s.published)
    (hg : s.generation ≤ t.generation) : t.Ascending where
  never := by
    unfold NeverBackwards
    rw [hp]
    exact h.never
  bounded generation hmem := by
    rw [hp] at hmem
    exact (h.bounded generation hmem).trans hg

/-- What is not a publication leaves the record alone. -/
theorem quiet_step {l : AppLabel} (he : s.step lib digest l = some t) :
    (∃ k disk now, l = .datasetBuilt k disk now) ∨ (∃ disk now, l = .periodicBuilt disk now) ∨
      (t.published = s.published ∧ s.generation ≤ t.generation) := by
  cases l with
  | datasetBuilt k disk now => exact .inl ⟨k, disk, now, rfl⟩
  | periodicBuilt disk now => exact .inr (.inl ⟨disk, now, rfl⟩)
  | call =>
    cases he
    exact .inr (.inr ⟨rfl, le_refl _⟩)
  | load i result =>
    simp only [App.step, load] at he
    split at he
    · split at he <;> cases he <;> exact .inr (.inr ⟨rfl, le_refl _⟩)
    · cases he
  | check i =>
    simp only [App.step, check] at he
    split at he
    · split at he <;> cases he <;> exact .inr (.inr ⟨rfl, le_refl _⟩)
    · cases he
  | build i result =>
    simp only [App.step, buildState] at he
    split at he
    · split at he <;> cases he <;> exact .inr (.inr ⟨rfl, le_refl _⟩)
    · cases he
  | swap i =>
    simp only [App.step, swap] at he
    split at he <;> cases he
    exact .inr (.inr ⟨rfl, Nat.le_succ _⟩)
  | toggle i =>
    simp only [App.step, toggle] at he
    split at he <;> cases he
    rename_i cfg _ head _ _
    refine .inr (.inr ?_)
    cases head <;> exact ⟨rfl, le_refl _⟩
  | spawn i =>
    simp only [App.step, spawn] at he
    split at he <;> cases he
    exact .inr (.inr ⟨rfl, le_refl _⟩)
  | finish i =>
    simp only [App.step, finish] at he
    split at he <;> cases he
    exact .inr (.inr ⟨rfl, le_refl _⟩)
  | periodicRead =>
    simp only [App.step, periodicRead] at he
    split at he
    · cases he
    · split at he <;> cases he <;> exact .inr (.inr ⟨rfl, le_refl _⟩)

theorem ascending_step {l : AppLabel} (h : s.Ascending) (hg : PublishGuard s l)
    (he : s.step lib digest l = some t) : t.Ascending := by
  rcases quiet_step he with ⟨k, disk, now, rfl⟩ | ⟨disk, now, rfl⟩ | ⟨hp, hle⟩
  · obtain ⟨b, hb, rfl⟩ := Option.map_eq_some_iff.mp he
    have hgen : b.generation = s.generation := by simpa [PublishGuard, hb] using hg
    have hsame : { s with builds := s.builds.eraseIdx k }.Ascending := h.of_le rfl (le_refl _)
    split
    · rw [hgen]
      exact hsame.publish _
    · exact hsame
  · obtain ⟨b, hb, rfl⟩ := Option.map_eq_some_iff.mp he
    have hgen : b.generation = s.generation := by simpa [PublishGuard, hb] using hg
    have hsame : { s with periodic := none }.Ascending := h.of_le rfl (le_refl _)
    dsimp only
    split
    · unfold publishIfChanged
      split
      · exact hsame
      · rw [hgen]
        exact hsame.publish _
    · exact hsame
  · exact h.of_le hp hle

end App

/-- As long as no reload is applied between the moment a build reads its configuration and the
moment it publishes, no snapshot is published after one of a newer configuration. -/
theorem publication_never_backwards (lib : TextLib) (digest : DatasetSnapshot → UInt64)
    (cfg : AppConfig) (disk : Disk) (now : Nat) (labels : List AppLabel) (s : App)
    (hguard : Guarded (App.step lib digest) App.PublishGuard
      (App.boot lib cfg disk now) labels)
    (hrun : run (App.step lib digest) (App.boot lib cfg disk now) labels = some s) :
    s.NeverBackwards := by
  have hboot : (App.boot lib cfg disk now).Ascending := by
    refine ⟨List.pairwise_singleton _ _, ?_⟩
    intro generation hmem
    exact (List.mem_singleton.mp hmem).le
  exact (invariant_of_run App.ascending_step hboot hguard hrun).never

def hostsConfig (names : List String) : AppConfig :=
  { switchConfig true "10.0.0.1" with
    localData := { (switchConfig true "10.0.0.1").localData with
      hosts := names.map fun name => ⟨ascii name, [.v4 0x0a000001]⟩ } }

theorem publication_never_backwards_alone :
    ∃ s, run (App.step .sample snapshotDigest) (App.boot .sample (hostsConfig []) emptyDisk 0)
        (reloadAlone (hostsConfig ["nas"]) ++
          ([.datasetBuilt 0 emptyDisk 1, .periodicRead, .periodicBuilt emptyDisk 2] :
            List AppLabel)) = some s ∧
      s.published = [1, 0] ∧ s.NeverBackwards :=
  exists_imp_of_any (by decide) fun _ hrun hs =>
    ⟨hs, publication_never_backwards _ _ _ _ _ _ _ (by decide) hrun⟩

/-- The periodic task read the configuration before a reload that adds a host, and publishes after
it: the host is gone again. And of two reloads, the build of the second is published first. -/
theorem publication_goes_backwards :
    (run (App.step .sample snapshotDigest) (App.boot .sample (hostsConfig []) emptyDisk 0)
        (.periodicRead :: reloadAlone (hostsConfig ["nas"]) ++
          ([.datasetBuilt 0 emptyDisk 1, .periodicBuilt emptyDisk 2] : List AppLabel))).map
        (fun s => (s.published, s.config.localData.hosts.length, s.snapshot.hosts.get (ascii "nas"))) =
      some ([0, 1, 0], 1, none) ∧
    (run (App.step .sample snapshotDigest) (App.boot .sample (hostsConfig []) emptyDisk 0)
        (reloadAlone (hostsConfig []) ++ reloadAlone (hostsConfig ["nas"]) ++
          ([.datasetBuilt 1 emptyDisk 1, .datasetBuilt 0 emptyDisk 1] : List AppLabel))).map
        (fun s => (s.published, s.config.localData.hosts.length, s.snapshot.hosts.get (ascii "nas"))) =
      some ([1, 2, 0], 1, none) := by
  decide

end EgressDns
