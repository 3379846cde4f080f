import Mathlib.Data.List.Dedup
import Mathlib.Tactic.FinCases
import EgressDns.Lib.Maps
import EgressDns.Util.IpClass

/-!
# What may be probed, and how often

`probe/safety.rs`: the guard in front of every probe. Instants and durations are nanoseconds.
The replay of a sequence of calls carries along what was admitted in the current window, the
largest rate in force during it, and the bytes charged since the current day began.
-/

namespace EgressDns

inductive Refusal where
  | specialUse | portNotAllowed | addressCooldown | prefixCooldown | domainCooldown | rateLimited
  | bandwidthBudget
  deriving DecidableEq, Repr

def Refusal.isCooldown (r : Refusal) : Bool :=
  decide (r = .addressCooldown ∨ r = .prefixCooldown ∨ r = .domainCooldown)

inductive AnyNet where
  | v4 (net : IpNet 32)
  | v6 (net : IpNet 128)
  deriving DecidableEq, Repr

def AnyNet.contains : AnyNet → IpAddr → Bool
  | .v4 net, .v4 addr => net.contains addr
  | .v6 net, .v6 addr => net.contains addr
  | _, _ => false

structure GuardConfig where
  allowSpecialUseTargets : List AnyNet
  extraPorts : List UInt16
  perIpCooldown : Nat
  perPrefixCooldown : Nat
  perDomainCooldown : Nat
  globalConnectionsPerSecond : Nat
  dailyBandwidthBudgetBytes : UInt64
  deriving DecidableEq, Repr

def GuardConfig.shipped : GuardConfig where
  allowSpecialUseTargets := []
  extraPorts := [443]
  perIpCooldown := 300 * 10 ^ 9
  perPrefixCooldown := 30 * 10 ^ 9
  perDomainCooldown := 600 * 10 ^ 9
  globalConnectionsPerSecond := 64
  dailyBandwidthBudgetBytes := 64 * 1024 * 1024

structure GuardLimits where
  allowSpecial : List AnyNet
  allowedPorts : List UInt16
  perIp : Nat
  perPrefix : Nat
  perDomain : Nat
  connectionsPerSecond : Nat
  dailyBandwidth : UInt64
  deriving DecidableEq, Repr

variable (cfg : GuardConfig)

def GuardLimits.fromConfig : GuardLimits where
  allowSpecial := cfg.allowSpecialUseTargets
  allowedPorts := (cfg.extraPorts.insertionSort (· ≤ ·)).dedup
  perIp := cfg.perIpCooldown
  perPrefix := cfg.perPrefixCooldown
  perDomain := cfg.perDomainCooldown
  connectionsPerSecond := cfg.globalConnectionsPerSecond
  dailyBandwidth := cfg.dailyBandwidthBudgetBytes

abbrev Cooldowns (K : Type) := Lib.Map K Nat

structure GuardState where
  ipSeen : Cooldowns IpAddr
  prefixSeen : Cooldowns (IpAddr × Nat)
  domainSeen : Cooldowns (List UInt8 × IpAddr)
  windowStart : Option Nat
  windowCount : Nat
  bandwidthDay : Option Nat
  bandwidthUsed : Nat
  lastPrune : Option Nat

structure ProbeGuard where
  limits : GuardLimits
  state : GuardState

def ProbeGuard.new : ProbeGuard where
  limits := .fromConfig cfg
  state :=
    { ipSeen := ∅, prefixSeen := ∅, domainSeen := ∅, windowStart := none, windowCount := 0
      bandwidthDay := none, bandwidthUsed := 0, lastPrune := none }

variable (g : ProbeGuard)

def ProbeGuard.updateLimits (cfg : GuardConfig) : ProbeGuard :=
  { g with limits := .fromConfig cfg }

def SpecialUse.neverProbed (c : SpecialUse) : Bool :=
  decide (c = .linkLocal ∨ c = .cloudMetadata ∨ c = .loopback ∨ c = .multicast ∨ c = .unspecified)

def GuardLimits.addressAllowed (limits : GuardLimits) (addr : IpAddr) : Bool :=
  match classifyAddr addr with
  | none => true
  | some c => if c.neverProbed then false else limits.allowSpecial.any fun n => n.contains addr

def GuardLimits.portAllowed (limits : GuardLimits) (port : UInt16) (declared : Bool) : Bool :=
  decide (port ≠ 0) && (declared || decide (port ∈ limits.allowedPorts))

def oneSecond : Nat := 10 ^ 9

def oneDay : Nat := 86400 * oneSecond

/-- Nothing has begun yet, or what began has lasted for `span`. -/
def elapsed (began : Option Nat) (now span : Nat) : Bool :=
  match began with
  | none => true
  | some start => decide (span ≤ now - start)

/-- /24 for IPv4, /48 for IPv6. -/
def coveringPrefix : IpAddr → IpAddr × Nat
  | .v4 addr => (.v4 (addr &&& 0xffffff00), 24)
  | .v6 addr => (.v6 (addr &&& 0xffffffffffff00000000000000000000), 48)

def cooling {K : Type} [DecidableEq K] (seen : Cooldowns K) (key : K) (now cooldown : Nat) : Bool :=
  match seen.lookup key with
  | none => false
  | some last => decide (now - last < cooldown)

section Prune

variable {K : Type}

def truncateOldest (seen : Cooldowns K) (limit : Nat) : Cooldowns K :=
  if seen.entries.length ≤ limit then seen
  else
    let times := (seen.entries.map Sigma.snd).insertionSort (· ≤ ·)
    let cutoff := times.getD (seen.entries.length - limit) 0
    seen.retain fun _ t => decide (cutoff ≤ t)

def maxEntries : Nat := 50000

def sweepInterval : Nat := 30 * oneSecond

def sweep (now horizon : Nat) (seen : Cooldowns K) : Cooldowns K :=
  truncateOldest (seen.retain fun _ t => decide (now - t < horizon)) maxEntries

end Prune

namespace GuardState

variable (s : GuardState)

def prune (now horizon : Nat) : GuardState :=
  let full := decide (maxEntries < s.ipSeen.entries.length) ||
    decide (maxEntries < s.prefixSeen.entries.length) ||
    decide (maxEntries < s.domainSeen.entries.length)
  if !elapsed s.lastPrune now sweepInterval && !full then s
  else
    { s with
      lastPrune := some now
      ipSeen := sweep now horizon s.ipSeen
      prefixSeen := sweep now horizon s.prefixSeen
      domainSeen := sweep now horizon s.domainSeen }

def openDay (limits : GuardLimits) (now : Nat) : Option GuardState :=
  if limits.dailyBandwidth.toNat ≤ s.bandwidthUsed then
    if elapsed s.bandwidthDay now oneDay then
      some { s with bandwidthDay := some now, bandwidthUsed := 0 }
    else none
  else some s

def openWindow (now : Nat) : GuardState :=
  if elapsed s.windowStart now oneSecond then { s with windowStart := some now, windowCount := 0 }
  else s

/-- The rate limit and the cooldowns, in the order they are asked. -/
def refusal (limits : GuardLimits) (addr : IpAddr) (host : Option (List UInt8)) (now : Nat) :
    Option Refusal :=
  if limits.connectionsPerSecond ≤ s.windowCount then some .rateLimited
  else if cooling s.ipSeen addr now limits.perIp then some .addressCooldown
  else if cooling s.prefixSeen (coveringPrefix addr) now limits.perPrefix then
    some .prefixCooldown
  else
    match host with
    | none => none
    | some host =>
      if cooling s.domainSeen (host, addr) now limits.perDomain then some .domainCooldown else none

def note (addr : IpAddr) (host : Option (List UInt8)) (now : Nat) : GuardState :=
  { s with
    windowCount := s.windowCount + 1
    ipSeen := s.ipSeen.insert addr now
    prefixSeen := s.prefixSeen.insert (coveringPrefix addr) now
    domainSeen :=
      match host with
      | none => s.domainSeen
      | some host => s.domainSeen.insert (host, addr) now }

def consume (bytes now : Nat) : GuardState :=
  let s := if elapsed s.bandwidthDay now oneDay then
    { s with bandwidthDay := some now, bandwidthUsed := 0 } else s
  { s with bandwidthUsed := min (s.bandwidthUsed + bytes) (2 ^ 64 - 1) }

end GuardState

def ProbeGuard.admission (addr : IpAddr) (port : UInt16) (declaredPort : Bool)
    (host : Option (List UInt8)) (now : Nat) : ProbeGuard × Except Refusal Unit :=
  if !g.limits.addressAllowed addr then (g, .error .specialUse)
  else if !g.limits.portAllowed port declaredPort then (g, .error .portNotAllowed)
  else
    match g.state.openDay g.limits now with
    | none => (g, .error .bandwidthBudget)
    | some day =>
      let state := day.openWindow now
      match state.refusal g.limits addr host now with
      | some r => ({ g with state }, .error r)
      | none =>
        ({ g with
            state := (state.note addr host now).prune now (max g.limits.perIp g.limits.perDomain) },
          .ok ())

def ProbeGuard.consumeBandwidth (bytes now : Nat) : ProbeGuard :=
  { g with state := g.state.consume bytes now }

/-! Which addresses no probe may target, and which need an exception. -/

/-- `addr` is the IPv4-mapped form of `mapped`. -/
def Mapped (addr : BitVec 128) (mapped : BitVec 32) : Prop :=
  addr.toNat = 0xffff * 2 ^ 32 + mapped.toNat

section Classes

variable {addr : BitVec 128} {mapped : BitVec 32}

theorem toIpv4Mapped_eq_some : toIpv4Mapped addr = some mapped ↔ Mapped addr mapped := by
  have hhigh : addr >>> 32 = 0xffff ↔ addr.toNat / 2 ^ 32 = 0xffff := by
    rw [← BitVec.toNat_inj, BitVec.toNat_ushiftRight, Nat.shiftRight_eq_div_pow]
    rfl
  have hlow : (addr.truncate 32).toNat = addr.toNat % 2 ^ 32 := BitVec.toNat_setWidth 32 addr
  have hm := mapped.isLt
  unfold toIpv4Mapped Mapped
  constructor
  · intro h
    split at h
    · rename_i hprefix
      cases h
      rw [hlow]
      have hdiv := hhigh.mp hprefix
      omega
    · cases h
  · intro h
    have hdiv : addr.toNat / 2 ^ 32 = 0xffff := by omega
    rw [if_pos (hhigh.mpr hdiv), Option.some.injEq]
    apply BitVec.eq_of_toNat_eq
    rw [hlow]
    omega

end Classes

/-! ## Replaying calls -/

inductive GuardCall where
  | admission (addr : IpAddr) (port : UInt16) (declaredPort : Bool) (host : Option (List UInt8))
      (now : Nat)
  | consume (bytes now : Nat)
  | update (cfg : GuardConfig)

def GuardCall.clock : GuardCall → Option Nat
  | .admission _ _ _ _ now => some now
  | .consume _ now => some now
  | .update _ => none

structure GuardLog where
  guard : ProbeGuard
  /-- The configuration in force. -/
  config : GuardConfig
  /-- Probes admitted since the window opened. -/
  admitted : Nat
  /-- The largest rate in force since the window opened. -/
  peak : Nat
  /-- Bytes charged since the day began. -/
  charged : Nat

def GuardLog.new : GuardLog where
  guard := .new cfg
  config := cfg
  admitted := 0
  peak := cfg.globalConnectionsPerSecond
  charged := 0

def GuardLog.after (l : GuardLog) : GuardCall → GuardLog
  | .admission addr port declaredPort host now =>
    let next := l.guard.admission addr port declaredPort host now
    let opened := next.1.state.windowStart ≠ l.guard.state.windowStart
    let begun := next.1.state.bandwidthDay ≠ l.guard.state.bandwidthDay
    { l with
      guard := next.1
      admitted := (if opened then 0 else l.admitted) + (if next.2 = .ok () then 1 else 0)
      peak := if opened then l.config.globalConnectionsPerSecond else l.peak
      charged := if begun then 0 else l.charged }
  | .consume bytes now =>
    let next := l.guard.consumeBandwidth bytes now
    let begun := next.state.bandwidthDay ≠ l.guard.state.bandwidthDay
    { l with
      guard := next
      charged := (if begun then 0 else l.charged) + bytes }
  | .update cfg =>
    { l with
      guard := l.guard.updateLimits cfg
      config := cfg
      peak := max l.peak cfg.globalConnectionsPerSecond }

def replay (calls : List GuardCall) : GuardLog :=
  calls.foldl GuardLog.after (.new cfg)

section Admission

variable {g : ProbeGuard} {addr : IpAddr} {host : Option (List UInt8)} {now : Nat}

/-- The budget gate lets a call at `now` through and the rate limit then meets `state`. -/
def Opens (g : ProbeGuard) (now : Nat) (state : GuardState) : Prop :=
  ∃ day, g.state.openDay g.limits now = some day ∧ state = day.openWindow now

theorem admission_cases (g : ProbeGuard) (addr : IpAddr) (port : UInt16) (declaredPort : Bool)
    (host : Option (List UInt8)) (now : Nat) :
    (∃ r, g.admission addr port declaredPort host now = (g, .error r)) ∨
    (∃ state r, Opens g now state ∧
      g.admission addr port declaredPort host now = ({ g with state }, .error r)) ∨
    (∃ state, Opens g now state ∧ g.limits.addressAllowed addr = true ∧
      g.limits.portAllowed port declaredPort = true ∧
      state.refusal g.limits addr host now = none ∧
      g.admission addr port declaredPort host now =
        ({ g with
            state := (state.note addr host now).prune now (max g.limits.perIp g.limits.perDomain) },
          .ok ())) := by
  unfold ProbeGuard.admission
  cases ha : g.limits.addressAllowed addr with
  | false => exact .inl ⟨_, rfl⟩
  | true =>
    cases hp : g.limits.portAllowed port declaredPort with
    | false => exact .inl ⟨_, rfl⟩
    | true =>
      cases hd : g.state.openDay g.limits now with
      | none => exact .inl ⟨_, rfl⟩
      | some day =>
        cases hr : (day.openWindow now).refusal g.limits addr host now with
        | some r => exact .inr (.inl ⟨_, r, ⟨day, hd, rfl⟩, by simp [hr]⟩)
        | none =>
          refine .inr (.inr ⟨_, ⟨day, hd, rfl⟩, rfl, rfl, hr, ?_⟩)
          simp [hr]

theorem some_ne_of_elapsed {began : Option Nat} {span : Nat} (hspan : 0 < span)
    (h : elapsed began now span = true) : some now ≠ began := by
  rintro rfl
  have hlong := of_decide_eq_true h
  omega

variable (s : GuardState)

/-- Opening the window leaves the cooldowns and the day alone, and restarts the count exactly when
it moves the start. -/
theorem openWindow_spec (now : Nat) :
    (s.openWindow now).windowCount =
      (if (s.openWindow now).windowStart ≠ s.windowStart then 0 else s.windowCount) ∧
    s.openWindow now = { s with
      windowStart := (s.openWindow now).windowStart
      windowCount := (s.openWindow now).windowCount } := by
  unfold GuardState.openWindow
  split_ifs with he hmoved hmoved
  · exact ⟨rfl, rfl⟩
  · exact absurd (some_ne_of_elapsed (by decide) he) hmoved
  · exact absurd rfl hmoved
  · exact ⟨rfl, rfl⟩

theorem openDay_spec {s day : GuardState} {limits : GuardLimits}
    (h : s.openDay limits now = some day) :
    day.bandwidthUsed = (if day.bandwidthDay ≠ s.bandwidthDay then 0 else s.bandwidthUsed) ∧
    (elapsed s.bandwidthDay now oneDay = false →
      s.bandwidthUsed < limits.dailyBandwidth.toNat) ∧
    day = { s with bandwidthDay := day.bandwidthDay, bandwidthUsed := day.bandwidthUsed } := by
  unfold GuardState.openDay at h
  split_ifs at h with hspent he
  · cases h
    refine ⟨?_, ?_, rfl⟩
    · rw [if_pos (some_ne_of_elapsed (by decide) he)]
    · intro hopen
      exact absurd (he.symm.trans hopen) (by decide)
  · cases h
    refine ⟨?_, ?_, rfl⟩
    · rw [if_neg (fun hmoved => hmoved rfl)]
    · intro _
      omega

namespace Opens

variable {state : GuardState}

theorem windowCount (h : Opens g now state) :
    state.windowCount =
      if state.windowStart ≠ g.state.windowStart then 0 else g.state.windowCount := by
  obtain ⟨day, hd, rfl⟩ := h
  have hcount := (openWindow_spec day now).1
  rw [(openDay_spec hd).2.2] at hcount
  rw [(openDay_spec hd).2.2]
  exact hcount

theorem bandwidthUsed (h : Opens g now state) :
    state.bandwidthUsed =
      if state.bandwidthDay ≠ g.state.bandwidthDay then 0 else g.state.bandwidthUsed := by
  obtain ⟨day, hd, rfl⟩ := h
  rw [(openWindow_spec day now).2]
  exact (openDay_spec hd).1

theorem cooldowns (h : Opens g now state) :
    state.ipSeen = g.state.ipSeen ∧ state.prefixSeen = g.state.prefixSeen ∧
      state.domainSeen = g.state.domainSeen := by
  obtain ⟨day, hd, rfl⟩ := h
  rw [(openWindow_spec day now).2, (openDay_spec hd).2.2]
  exact ⟨rfl, rfl, rfl⟩

end Opens

/-- Noting an admission and pruning touch neither the window's start nor the day. -/
theorem prune_note_spec (addr : IpAddr) (host : Option (List UInt8)) (now horizon : Nat) :
    ((s.note addr host now).prune now horizon).windowStart = s.windowStart ∧
      ((s.note addr host now).prune now horizon).windowCount = s.windowCount + 1 ∧
      ((s.note addr host now).prune now horizon).bandwidthDay = s.bandwidthDay ∧
      ((s.note addr host now).prune now horizon).bandwidthUsed = s.bandwidthUsed := by
  rw [GuardState.prune]
  split
  · exact ⟨rfl, rfl, rfl, rfl⟩
  · exact ⟨rfl, rfl, rfl, rfl⟩

theorem consume_spec (bytes now : Nat) :
    (s.consume bytes now).bandwidthUsed =
      min ((if (s.consume bytes now).bandwidthDay ≠ s.bandwidthDay then 0 else s.bandwidthUsed) +
        bytes) (2 ^ 64 - 1) ∧
    s.consume bytes now = { s with
      bandwidthDay := (s.consume bytes now).bandwidthDay
      bandwidthUsed := (s.consume bytes now).bandwidthUsed } := by
  unfold GuardState.consume
  by_cases he : elapsed s.bandwidthDay now oneDay = true
  · simp only [if_pos he]
    rw [if_pos (some_ne_of_elapsed (by decide) he)]
    exact ⟨rfl, trivial⟩
  · simp only [if_neg he]
    rw [if_neg (fun hmoved => hmoved rfl)]
    exact ⟨rfl, trivial⟩

/-- What began stays, or begins anew at the instant of the call after it has lasted for `span`. -/
def Restarted (clock : Option Nat) (span : Nat) (before after : Option Nat) : Prop :=
  after = before ∨ ∃ now ∈ clock, after = some now ∧ ∀ start ∈ before, start + span ≤ now

/-- A window lasts a second at least, and a day a day. -/
def GuardState.Restarts (s : GuardState) (clock : Option Nat) (s' : GuardState) : Prop :=
  Restarted clock oneSecond s.windowStart s'.windowStart ∧
    Restarted clock oneDay s.bandwidthDay s'.bandwidthDay

theorem restarted_of_elapsed {began : Option Nat} {span : Nat} (hspan : 0 < span)
    (h : elapsed began now span = true) : Restarted (some now) span began (some now) := by
  refine .inr ⟨now, rfl, rfl, ?_⟩
  rintro start rfl
  have hlong : span ≤ now - start := of_decide_eq_true h
  omega

theorem Opens.restarted {state : GuardState} (h : Opens g now state) :
    g.state.Restarts (some now) state := by
  obtain ⟨day, hd, rfl⟩ := h
  have hwindow : day.windowStart = g.state.windowStart := by rw [(openDay_spec hd).2.2]
  constructor
  · rw [← hwindow, GuardState.openWindow]
    split_ifs with he
    · exact restarted_of_elapsed (by decide) he
    · exact .inl rfl
  · rw [(openWindow_spec day now).2]
    unfold GuardState.openDay at hd
    split_ifs at hd with hspent he
    · cases hd
      exact restarted_of_elapsed (by decide) he
    · cases hd
      exact .inl rfl

theorem admission_restarted (g : ProbeGuard) (addr : IpAddr) (port : UInt16) (declaredPort : Bool)
    (host : Option (List UInt8)) (now : Nat) :
    g.state.Restarts (some now) (g.admission addr port declaredPort host now).1.state := by
  rcases admission_cases g addr port declaredPort host now with
    ⟨r, h⟩ | ⟨state, r, hopens, h⟩ | ⟨state, hopens, _, _, _, h⟩
  · rw [h]
    exact ⟨.inl rfl, .inl rfl⟩
  · rw [h]
    exact hopens.restarted
  · obtain ⟨hstart, -, hday, -⟩ := prune_note_spec state addr host now
      (max g.limits.perIp g.limits.perDomain)
    rw [h, GuardState.Restarts, hstart, hday]
    exact hopens.restarted

theorem windowStart_of_open (addr : IpAddr) (port : UInt16) (declaredPort : Bool)
    (host : Option (List UInt8)) (hopen : elapsed g.state.windowStart now oneSecond = false) :
    (g.admission addr port declaredPort host now).1.state.windowStart = g.state.windowStart := by
  refine (admission_restarted g addr port declaredPort host now).1.resolve_right ?_
  rintro ⟨_, ⟨⟩, -, hlong⟩
  cases hstart : g.state.windowStart with
  | none =>
    rw [hstart] at hopen
    cases hopen
  | some start =>
    rw [hstart] at hopen hlong
    have hlate := hlong start rfl
    have hearly : ¬oneSecond ≤ now - start := of_decide_eq_false hopen
    omega

theorem lt_of_no_refusal {s : GuardState} {limits : GuardLimits}
    (h : s.refusal limits addr host now = none) : s.windowCount < limits.connectionsPerSecond := by
  unfold GuardState.refusal at h
  split_ifs at h with hrate
  all_goals omega

end Admission

structure GuardLog.Agrees (l : GuardLog) : Prop where
  limits : l.guard.limits = .fromConfig l.config
  admitted : l.admitted = l.guard.state.windowCount
  rate : l.config.globalConnectionsPerSecond ≤ l.peak
  within : l.admitted ≤ l.peak
  charged : l.guard.state.bandwidthUsed = min l.charged (2 ^ 64 - 1)

namespace GuardLog

variable {l : GuardLog}

theorem agrees_update (hi : l.Agrees) (cfg : GuardConfig) : (l.after (.update cfg)).Agrees where
  limits := rfl
  admitted := hi.admitted
  rate := le_max_right _ _
  within := hi.within.trans (le_max_left _ _)
  charged := hi.charged

theorem agrees_consume (hi : l.Agrees) (bytes now : Nat) :
    (l.after (.consume bytes now)).Agrees := by
  obtain ⟨hused, hframe⟩ := consume_spec l.guard.state bytes now
  refine ⟨hi.limits, ?_, hi.rate, hi.within, ?_⟩
  · change l.admitted = (l.guard.state.consume bytes now).windowCount
    rw [hframe]
    exact hi.admitted
  · have hcharged := hi.charged
    change (l.guard.state.consume bytes now).bandwidthUsed = min ((if
      (l.guard.state.consume bytes now).bandwidthDay ≠ l.guard.state.bandwidthDay then 0
      else l.charged) + bytes) (2 ^ 64 - 1)
    rw [hused]
    split_ifs
    · rfl
    · omega

theorem agrees_admission (hi : l.Agrees) (addr : IpAddr) (port : UInt16) (declaredPort : Bool)
    (host : Option (List UInt8)) (now : Nat) :
    (l.after (.admission addr port declaredPort host now)).Agrees := by
  have hadmitted := hi.admitted
  have hrate := hi.rate
  have hwithin := hi.within
  have hcharged := hi.charged
  unfold GuardLog.after
  rcases admission_cases l.guard addr port declaredPort host now with
    ⟨r, h⟩ | ⟨state, r, hopens, h⟩ | ⟨state, hopens, _, _, hno, h⟩
  · simp only [h]
    refine ⟨hi.limits, ?_, ?_, ?_, ?_⟩
    all_goals
      simp only [ne_eq, not_true_eq_false, reduceCtorEq, if_false, Nat.add_zero]
      assumption
  · have hcount := hopens.windowCount
    have hused := hopens.bandwidthUsed
    simp only [h]
    refine ⟨hi.limits, ?_, ?_, ?_, ?_⟩
    all_goals
      simp only [reduceCtorEq, if_false, Nat.add_zero]
      split_ifs at *
      all_goals omega
  · have hcount := hopens.windowCount
    have hused := hopens.bandwidthUsed
    have hroom := lt_of_no_refusal hno
    obtain ⟨hstart, hnext, hday, hsame⟩ := prune_note_spec state addr host now
      (max l.guard.limits.perIp l.guard.limits.perDomain)
    rw [hi.limits] at hroom
    change state.windowCount < l.config.globalConnectionsPerSecond at hroom
    simp only [h]
    refine ⟨hi.limits, ?_, ?_, ?_, ?_⟩
    all_goals
      simp only [hstart, hnext, hday, hsame, if_true]
      split_ifs at *
      all_goals omega

end GuardLog

end EgressDns
