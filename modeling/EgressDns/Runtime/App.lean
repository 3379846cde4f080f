import EgressDns.Datasets.Snapshot
import EgressDns.Lib.Runs
import EgressDns.Policy.Cloudflare

/-!
# Reloading

`App::reload` and `run_datasets` as a state machine. Nothing serialises the callers of `reload`:
each works through its steps on its own, and the stores, the builds it left behind and the periodic
rebuild fall between each other in any order. What a file holds, whether a runtime state can be
built and what is on disk is in the labels.
-/

namespace EgressDns

/-- The groups of fields `restart_required` compares. -/
inductive RestartField where
  | udpListen | tcpListen | reusePort | workersPerSocket | recvBufferBytes | sendBufferBytes
  | metrics | admin | workerThreads | maxBlockingThreads | maxInflightQueries
  | maxInflightUpstream | systemdWatchdog | cacheCapacity | qualityMaxEntries | cacheRetention
  | hotSet | probeQueueSize | maxConcurrentValidations | candidatePoolMax | sampling | storage
  | logging
  deriving DecidableEq, Repr

def RestartField.all : List RestartField :=
  [udpListen, tcpListen, reusePort, workersPerSocket, recvBufferBytes, sendBufferBytes, metrics,
    admin, workerThreads, maxBlockingThreads, maxInflightQueries, maxInflightUpstream,
    systemdWatchdog, cacheCapacity, qualityMaxEntries, cacheRetention, hotSet, probeQueueSize,
    maxConcurrentValidations, candidatePoolMax, sampling, storage, logging]

/-- What a reload reads of a configuration; a restart-required group is a value that is only
compared. -/
structure AppConfig where
  fixed : RestartField → Nat
  probeEnabled : Bool
  prefetchEnabled : Bool
  cloudflareEnabled : Bool
  cloudflareMode : CloudflareMode
  datasets : DatasetsConfig
  localData : LocalConfig

def restartRequired (old new : AppConfig) : List RestartField :=
  RestartField.all.filter fun field => old.fixed field ≠ new.fixed field

inductive ReloadError where
  | invalid (text : Text)
  | restartRequired (fields : List RestartField)
  | buildFailed (text : Text)

/-- The stores of a reload outside the runtime state, in their order. -/
inductive Toggle where
  | probes | prefetch | cloudflareEnabled | cloudflareMode | cloudflareOverride
  deriving DecidableEq, Repr

def Toggle.order : List Toggle :=
  [probes, prefetch, cloudflareEnabled, cloudflareMode, cloudflareOverride]

/-- Where a call of `reload` is; a generation counts the swaps before. -/
inductive ReloadStage where
  | loading
  | loaded (cfg : AppConfig)
  | cleared (cfg : AppConfig)
  | built (cfg : AppConfig)
  | toggling (cfg : AppConfig) (generation : Nat) (rest : List Toggle)
  | spawned (cfg : AppConfig)

/-- A dataset build under way, or a configuration the periodic task has read. -/
structure DatasetBuild where
  cfg : AppConfig
  generation : Nat

/-- `lastOk` and `accepted` are the configurations of the reloads that returned Ok, `published` the
generations of the snapshots published, the latest first. -/
structure App where
  config : AppConfig
  generation : Nat
  probes : Bool
  prefetch : Bool
  cloudflareEnabled : Bool
  cloudflareMode : CloudflareMode
  cloudflareOverride : Option CloudflareMode
  snapshot : DatasetSnapshot
  calls : List ReloadStage
  builds : List DatasetBuild
  periodic : Option DatasetBuild
  reloads : Nat
  lastReloadError : Option ReloadError
  lastOk : Option AppConfig
  accepted : List AppConfig
  published : List Nat

inductive AppLabel where
  | call
  | load (i : Nat) (result : Except Text AppConfig)
  | check (i : Nat)
  | build (i : Nat) (result : Except Text Unit)
  | swap (i : Nat)
  | toggle (i : Nat)
  | spawn (i : Nat)
  | finish (i : Nat)
  | datasetBuilt (k : Nat) (disk : Disk) (now : Nat)
  | periodicRead
  | periodicBuilt (disk : Disk) (now : Nat)

def modeRank : CloudflareMode → Nat
  | .off => 0
  | .preserve => 1
  | .verifiedAugment => 2

def AppConfig.buildSnapshot (cfg : AppConfig) (lib : TextLib) (disk : Disk) (now : Nat) :
    Except Text DatasetSnapshot :=
  DatasetSnapshot.build lib cfg.datasets cfg.localData disk now

def noDatasets : DatasetsConfig := { DatasetsConfig.fileless with reloadInterval := 1 }

namespace App

/-- `from_config`: a snapshot that cannot be built leaves the empty one. -/
def boot (lib : TextLib) (cfg : AppConfig) (disk : Disk) (now : Nat) : App where
  config := cfg
  generation := 0
  probes := cfg.probeEnabled
  prefetch := cfg.prefetchEnabled
  cloudflareEnabled := cfg.cloudflareEnabled
  cloudflareMode := cfg.cloudflareMode
  cloudflareOverride := none
  snapshot := match cfg.buildSnapshot lib disk now with
    | .ok snapshot => snapshot
    | .error _ => .empty
  calls := []
  builds := []
  periodic := none
  reloads := 0
  lastReloadError := none
  lastOk := none
  accepted := []
  published := [0]

variable (lib : TextLib) (digest : DatasetSnapshot → UInt64) (s : App) (i : Nat)

def setCall (stage : ReloadStage) : App := { s with calls := s.calls.set i stage }

def fail (e : ReloadError) : App :=
  { s with calls := s.calls.eraseIdx i, lastReloadError := some e }

def load (result : Except Text AppConfig) : Option App :=
  match s.calls[i]? with
  | some .loading =>
    match result with
    | .ok cfg => some (s.setCall i (.loaded cfg))
    | .error text => some (s.fail i (.invalid text))
  | _ => none

def check : Option App :=
  match s.calls[i]? with
  | some (.loaded cfg) =>
    match restartRequired s.config cfg with
    | [] => some (s.setCall i (.cleared cfg))
    | fields => some (s.fail i (.restartRequired fields))
  | _ => none

def buildState (result : Except Text Unit) : Option App :=
  match s.calls[i]? with
  | some (.cleared cfg) =>
    match result with
    | .ok _ => some (s.setCall i (.built cfg))
    | .error text => some (s.fail i (.buildFailed text))
  | _ => none

def swap : Option App :=
  match s.calls[i]? with
  | some (.built cfg) =>
    some { s.setCall i (.toggling cfg (s.generation + 1) Toggle.order) with
      config := cfg, generation := s.generation + 1 }
  | _ => none

/-- One store. A mode override stronger than the configured mode is cleared. -/
def store (cfg : AppConfig) : Toggle → App
  | .probes => { s with probes := cfg.probeEnabled }
  | .prefetch => { s with prefetch := cfg.prefetchEnabled }
  | .cloudflareEnabled => { s with cloudflareEnabled := cfg.cloudflareEnabled }
  | .cloudflareMode => { s with cloudflareMode := cfg.cloudflareMode }
  | .cloudflareOverride =>
    { s with cloudflareOverride := s.cloudflareOverride.filter fun mode =>
        modeRank mode ≤ modeRank cfg.cloudflareMode }

def toggle : Option App :=
  match s.calls[i]? with
  | some (.toggling cfg generation (t :: rest)) =>
    some ((s.store cfg t).setCall i (.toggling cfg generation rest))
  | _ => none

/-- The rebuild of the datasets is left to a blocking thread. -/
def spawn : Option App :=
  match s.calls[i]? with
  | some (.toggling cfg generation []) =>
    some { s.setCall i (.spawned cfg) with
      builds := s.builds ++ [{ cfg, generation }]
      reloads := s.reloads + 1
      lastReloadError := none }
  | _ => none

def finish : Option App :=
  match s.calls[i]? with
  | some (.spawned cfg) =>
    some { s with
      calls := s.calls.eraseIdx i
      lastOk := some cfg
      accepted := cfg :: s.accepted }
  | _ => none

def publish (generation : Nat) (snapshot : DatasetSnapshot) : App :=
  { s with snapshot, published := generation :: s.published }

def publishIfChanged (generation : Nat) (snapshot : DatasetSnapshot) : App :=
  if digest s.snapshot = digest snapshot then s else s.publish generation snapshot

/-- The background build of a reload; when it fails the previous snapshot stays. -/
def datasetBuilt (k : Nat) (disk : Disk) (now : Nat) : Option App :=
  (s.builds[k]?).map fun b =>
    let s := { s with builds := s.builds.eraseIdx k }
    match b.cfg.buildSnapshot lib disk now with
    | .ok snapshot => s.publish b.generation snapshot
    | .error _ => s

/-- The top of the loop of `run_datasets`: the configuration is read before the wait. -/
def periodicRead : Option App :=
  match s.periodic with
  | some _ => none
  | none =>
    if s.config.datasets.reloadInterval = 0 then some s
    else some { s with periodic := some { cfg := s.config, generation := s.generation } }

def periodicBuilt (disk : Disk) (now : Nat) : Option App :=
  s.periodic.map fun b =>
    let s := { s with periodic := none }
    match b.cfg.buildSnapshot lib disk now with
    | .ok snapshot => s.publishIfChanged digest b.generation snapshot
    | .error _ => s

def step : AppLabel → Option App
  | .call => some { s with calls := s.calls ++ [.loading] }
  | .load i result => s.load i result
  | .check i => s.check i
  | .build i result => s.buildState i result
  | .swap i => s.swap i
  | .toggle i => s.toggle i
  | .spawn i => s.spawn i
  | .finish i => s.finish i
  | .datasetBuilt k disk now => s.datasetBuilt lib k disk now
  | .periodicRead => s.periodicRead
  | .periodicBuilt disk now => s.periodicBuilt lib digest disk now

end App

end EgressDns
