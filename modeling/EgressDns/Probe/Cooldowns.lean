import EgressDns.Lib.Runs
import EgressDns.Probe.Safety

/-!
# Cooldowns over whole runs

The guard under one configuration, asked again and again as time goes by. A cooldown is honoured as
long as its table remembers what was admitted; `prune` forgets by the longer of the cooldowns for
addresses and for domains, in all three tables.
-/

namespace EgressDns

open Lib

def AnyNet.addr : AnyNet → IpAddr
  | .v4 net => .v4 net.network
  | .v6 net => .v6 net.network

/-- What `validate_probe` asks of the settings the guard is built from: the path of the setting and
what is wrong with it. -/
def GuardConfig.validate (cfg : GuardConfig) : Except (String × String) Unit := do
  if cfg.globalConnectionsPerSecond = 0 ∨ 10000 < cfg.globalConnectionsPerSecond then
    throw ("probe.global_connections_per_second", "must be between 1 and 10000")
  if 0 ∈ cfg.extraPorts then
    throw ("probe.extra_ports", "port 0 is not valid")
  if 8 < cfg.extraPorts.length then
    throw ("probe.extra_ports",
      "at most 8 extra ports may be configured; this is not a port scanner")
  for (net, i) in cfg.allowSpecialUseTargets.zipIdx do
    let path := "probe.allow_special_use_targets[" ++ toString i ++ "]"
    match classifyAddr net.addr with
    | none =>
      throw (path, "entry is already global unicast and does not need an exception")
    | some cls =>
      if cls = .cloudMetadata ∨ cls = .linkLocal then
        throw (path, "link-local and cloud metadata ranges can never be probe targets")

structure AdmittedProbe where
  addr : IpAddr
  host : Option (List UInt8)
  at_ : Nat
  deriving DecidableEq

structure CooldownLog where
  guard : ProbeGuard
  clock : Nat
  admitted : List AdmittedProbe

def CooldownLog.new (cfg : GuardConfig) : CooldownLog where
  guard := .new cfg
  clock := 0
  admitted := []

/-- Time does not go back, and the configuration stays. -/
def CooldownLog.step (l : CooldownLog) : GuardCall → Option CooldownLog
  | .admission addr port declaredPort host now =>
    if l.clock ≤ now then
      let next := l.guard.admission addr port declaredPort host now
      some
        { guard := next.1
          clock := now
          admitted := if next.2 = .ok () then ⟨addr, host, now⟩ :: l.admitted else l.admitted }
    else none
  | .consume bytes now => some { l with guard := l.guard.consumeBandwidth bytes now }
  | .update _ => none

/-- No table exceeds its ceiling when the probe is noted. -/
def UnderCeiling (l : CooldownLog) : GuardCall → Prop
  | .admission addr port declaredPort host now =>
    (l.guard.admission addr port declaredPort host now).2 = .ok () →
      (l.guard.state.note addr host now).ipSeen.entries.length ≤ maxEntries ∧
      (l.guard.state.note addr host now).prefixSeen.entries.length ≤ maxEntries ∧
      (l.guard.state.note addr host now).domainSeen.entries.length ≤ maxEntries
  | _ => True

instance decidableUnderCeiling : ∀ l call, Decidable (UnderCeiling l call)
  | _, .admission _ _ _ _ _ => inferInstanceAs (Decidable (_ → _))
  | _, .consume _ _ | _, .update _ => isTrue trivial

/-- The second probe keeps every cooldown that the first one has begun. -/
structure SpacedOut (cfg : GuardConfig) (later earlier : AdmittedProbe) : Prop where
  address : later.addr = earlier.addr → earlier.at_ + cfg.perIpCooldown ≤ later.at_
  covering : coveringPrefix later.addr = coveringPrefix earlier.addr →
    earlier.at_ + cfg.perPrefixCooldown ≤ later.at_
  domain : ∀ host, later.host = some host → earlier.host = some host →
    later.addr = earlier.addr → earlier.at_ + cfg.perDomainCooldown ≤ later.at_

section Tables

variable {K : Type} [DecidableEq K] {seen : Cooldowns K} {key : K}
  {since cooldown clock now : Nat}

/-- The table still refuses on behalf of what was admitted at `since`, or has no more need to. -/
def Remembers (seen : Cooldowns K) (key : K) (since cooldown clock : Nat) : Prop :=
  (∃ last, seen.lookup key = some last ∧ since ≤ last) ∨ since + cooldown ≤ clock

theorem Remembers.later (h : Remembers seen key since cooldown clock) (hle : clock ≤ now) :
    Remembers seen key since cooldown now := by
  rcases h with hlast | hover
  · exact .inl hlast
  · exact .inr (hover.trans hle)

theorem Remembers.insert (h : Remembers seen key since cooldown clock) (hle : since ≤ now)
    (other : K) : Remembers (seen.insert other now) key since cooldown clock := by
  rcases h with ⟨last, hlast, hsince⟩ | hover
  · by_cases hkey : key = other
    · exact .inl ⟨now, hkey ▸ AList.lookup_insert seen, hle⟩
    · exact .inl ⟨last, (AList.lookup_insert_ne hkey).trans hlast, hsince⟩
  · exact .inr hover

theorem Remembers.sweep {horizon : Nat} (h : Remembers seen key since cooldown now)
    (hsmall : seen.entries.length ≤ maxEntries) (hhorizon : cooldown ≤ horizon)
    (hle : since ≤ now) : Remembers (sweep now horizon seen) key since cooldown now := by
  have hkept : EgressDns.sweep now horizon seen =
      seen.retain fun _ t => decide (now - t < horizon) :=
    if_pos ((Map.length_retain_le _ seen).trans hsmall)
  rw [hkept]
  rcases h with ⟨last, hlast, hsince⟩ | hover
  · by_cases hfresh : now - last < horizon
    · refine .inl ⟨last, ?_, hsince⟩
      rw [Map.lookup_retain, hlast]
      exact Option.filter_some_pos (decide_eq_true hfresh)
    · exact .inr (by omega)
  · exact .inr hover

theorem Remembers.of_not_cooling (h : Remembers seen key since cooldown clock)
    (hcool : cooling seen key now cooldown = false) (hclock : clock ≤ now) (hle : since ≤ now) :
    since + cooldown ≤ now := by
  rcases h with ⟨last, hlast, hsince⟩ | hover
  · unfold cooling at hcool
    rw [hlast] at hcool
    have hlong := of_decide_eq_false hcool
    omega
  · exact hover.trans hclock

end Tables

structure Recalled (cfg : GuardConfig) (s : GuardState) (clock : Nat) (p : AdmittedProbe) :
    Prop where
  past : p.at_ ≤ clock
  address : Remembers s.ipSeen p.addr p.at_ cfg.perIpCooldown clock
  covering : Remembers s.prefixSeen (coveringPrefix p.addr) p.at_ cfg.perPrefixCooldown clock
  domain : ∀ host, p.host = some host →
    Remembers s.domainSeen (host, p.addr) p.at_ cfg.perDomainCooldown clock

structure CooldownInv (cfg : GuardConfig) (l : CooldownLog) : Prop where
  limits : l.guard.limits = .fromConfig cfg
  recalled : ∀ p ∈ l.admitted, Recalled cfg l.guard.state l.clock p
  apart : l.admitted.Pairwise (SpacedOut cfg)

section Steps

variable {cfg : GuardConfig} {s s' : GuardState} {clock now : Nat} {p : AdmittedProbe}
  {addr : IpAddr} {host : Option (List UInt8)}

theorem Recalled.congr (h : Recalled cfg s clock p) (hip : s'.ipSeen = s.ipSeen)
    (hnet : s'.prefixSeen = s.prefixSeen) (hdomain : s'.domainSeen = s.domainSeen)
    (hle : clock ≤ now) : Recalled cfg s' now p where
  past := h.past.trans hle
  address := hip ▸ h.address.later hle
  covering := hnet ▸ h.covering.later hle
  domain host hhost := hdomain ▸ (h.domain host hhost).later hle

theorem Recalled.note (h : Recalled cfg s now p) (addr : IpAddr) (host : Option (List UInt8)) :
    Recalled cfg (s.note addr host now) now p where
  past := h.past
  address := h.address.insert h.past addr
  covering := h.covering.insert h.past (coveringPrefix addr)
  domain named hnamed := by
    cases host with
    | none => exact h.domain named hnamed
    | some host => exact (h.domain named hnamed).insert h.past (host, addr)

theorem recalled_noted : Recalled cfg (s.note addr host now) now ⟨addr, host, now⟩ where
  past := Nat.le_refl now
  address := .inl ⟨now, AList.lookup_insert _, Nat.le_refl now⟩
  covering := .inl ⟨now, AList.lookup_insert _, Nat.le_refl now⟩
  domain named hnamed := by
    cases hnamed
    exact .inl ⟨now, AList.lookup_insert _, Nat.le_refl now⟩

theorem Recalled.prune {horizon : Nat} (h : Recalled cfg s now p)
    (hip : s.ipSeen.entries.length ≤ maxEntries)
    (hnet : s.prefixSeen.entries.length ≤ maxEntries)
    (hdomain : s.domainSeen.entries.length ≤ maxEntries)
    (hcovers : cfg.perIpCooldown ≤ horizon ∧ cfg.perPrefixCooldown ≤ horizon ∧
      cfg.perDomainCooldown ≤ horizon) : Recalled cfg (s.prune now horizon) now p := by
  rw [GuardState.prune]
  split
  · exact h
  · exact
      { past := h.past
        address := h.address.sweep hip hcovers.1 h.past
        covering := h.covering.sweep hnet hcovers.2.1 h.past
        domain := fun host hhost => (h.domain host hhost).sweep hdomain hcovers.2.2 h.past }

theorem apart_of_no_refusal (h : Recalled cfg s clock p) (hclock : clock ≤ now)
    (hno : s.refusal (.fromConfig cfg) addr host now = none) :
    SpacedOut cfg ⟨addr, host, now⟩ p := by
  have hpast : p.at_ ≤ now := h.past.trans hclock
  unfold GuardState.refusal at hno
  split_ifs at hno with hrate hip hnet
  refine ⟨?_, ?_, ?_⟩
  · intro haddr
    exact h.address.of_not_cooling (haddr ▸ Bool.not_eq_true _ ▸ hip) hclock hpast
  · intro hcovering
    exact h.covering.of_not_cooling (hcovering ▸ Bool.not_eq_true _ ▸ hnet) hclock hpast
  · intro named hnamed hearlier haddr
    subst hnamed
    simp only at hno
    split_ifs at hno with hdomain
    exact (h.domain named hearlier).of_not_cooling (haddr ▸ Bool.not_eq_true _ ▸ hdomain) hclock
      hpast

end Steps

section Runs

variable {cfg : GuardConfig} {l l' : CooldownLog}

theorem cooldownInv_new (cfg : GuardConfig) : CooldownInv cfg (.new cfg) :=
  ⟨rfl, fun _ hp => (List.not_mem_nil hp).elim, List.Pairwise.nil⟩

theorem cooldownInv_admission
    (hcovers : cfg.perPrefixCooldown ≤ max cfg.perIpCooldown cfg.perDomainCooldown)
    (hi : CooldownInv cfg l) (addr : IpAddr) (port : UInt16) (declaredPort : Bool)
    (host : Option (List UInt8)) (now : Nat)
    (hsmall : UnderCeiling l (.admission addr port declaredPort host now))
    (h : l.step (.admission addr port declaredPort host now) = some l') :
    CooldownInv cfg l' := by
  obtain ⟨hclock, h⟩ := Option.ite_none_right_eq_some.mp h
  rcases admission_cases l.guard addr port declaredPort host now with
    ⟨r, hcall⟩ | ⟨state, r, hopens, hcall⟩ | ⟨state, hopens, -, -, hno, hcall⟩
  · rw [hcall] at h
    cases h
    exact ⟨hi.limits, fun p hp => (hi.recalled p hp).congr rfl rfl rfl hclock, hi.apart⟩
  · rw [hcall] at h
    cases h
    obtain ⟨hip, hnet, hdomain⟩ := hopens.cooldowns
    exact ⟨hi.limits, fun p hp => (hi.recalled p hp).congr hip hnet hdomain hclock, hi.apart⟩
  · have hroom := hsmall (by rw [hcall])
    rw [hcall] at h
    cases h
    obtain ⟨hip, hnet, hdomain⟩ := hopens.cooldowns
    -- the tables that the call meets are those of the guard before it
    have hmet : ∀ p ∈ l.admitted, Recalled cfg state now p := fun p hp =>
      (hi.recalled p hp).congr hip hnet hdomain hclock
    have hpruned : ∀ p, Recalled cfg (state.note addr host now) now p →
        Recalled cfg ((state.note addr host now).prune now
          (max l.guard.limits.perIp l.guard.limits.perDomain)) now p := by
      intro p hp
      rw [hi.limits]
      have hsame : (state.note addr host now).ipSeen = (l.guard.state.note addr host now).ipSeen ∧
          (state.note addr host now).prefixSeen = (l.guard.state.note addr host now).prefixSeen ∧
          (state.note addr host now).domainSeen =
            (l.guard.state.note addr host now).domainSeen := by
        simp only [GuardState.note, hip, hnet, hdomain, and_self]
      exact hp.prune (hsame.1 ▸ hroom.1) (hsame.2.1 ▸ hroom.2.1) (hsame.2.2 ▸ hroom.2.2)
        ⟨le_max_left _ _, hcovers, le_max_right _ _⟩
    refine ⟨hi.limits, ?_, ?_⟩
    · intro p hp
      rcases List.mem_cons.mp hp with rfl | hold
      · exact hpruned _ recalled_noted
      · exact hpruned p ((hmet p hold).note addr host)
    · refine List.Pairwise.cons ?_ hi.apart
      intro p hp
      rw [hi.limits] at hno
      exact apart_of_no_refusal (hmet p hp) (Nat.le_refl now) hno

theorem cooldownInv_step
    (hcovers : cfg.perPrefixCooldown ≤ max cfg.perIpCooldown cfg.perDomainCooldown)
    {call : GuardCall} (hi : CooldownInv cfg l) (hsmall : UnderCeiling l call)
    (h : l.step call = some l') : CooldownInv cfg l' := by
  cases call with
  | admission addr port declaredPort host now =>
    exact cooldownInv_admission hcovers hi addr port declaredPort host now hsmall h
  | consume bytes now =>
    cases h
    have hframe := (consume_spec l.guard.state bytes now).2
    refine ⟨hi.limits, ?_, hi.apart⟩
    intro p hp
    change Recalled cfg (l.guard.state.consume bytes now) l.clock p
    rw [hframe]
    exact (hi.recalled p hp).congr rfl rfl rfl (Nat.le_refl _)
  | update cfg' => cases h

/-- If the cooldown for prefixes is no longer than the other two, then every run that keeps the
tables under their ceiling honours all three. -/
theorem cooldowns_honoured (cfg : GuardConfig)
    (hcovers : cfg.perPrefixCooldown ≤ max cfg.perIpCooldown cfg.perDomainCooldown)
    (calls : List GuardCall) (l : CooldownLog)
    (hsmall : Guarded CooldownLog.step UnderCeiling (.new cfg) calls)
    (hrun : run CooldownLog.step (.new cfg) calls = some l) :
    l.admitted.Pairwise (SpacedOut cfg) :=
  (invariant_of_run (cooldownInv_step hcovers) (cooldownInv_new cfg) hsmall hrun).apart

end Runs

def longPrefixes : GuardConfig :=
  { GuardConfig.shipped with
    perIpCooldown := oneSecond, perDomainCooldown := oneSecond, perPrefixCooldown := 60 * oneSecond }

def neighbourCalls : List GuardCall :=
  [.admission (.v4 0x68100001) 443 false none 0,
    .admission (.v4 0x01000001) 443 false none (30 * oneSecond),
    .admission (.v4 0x68100002) 443 false none (30 * oneSecond)]

theorem cooldowns_honoured_shipped :
    ∃ l, run CooldownLog.step (.new .shipped) neighbourCalls = some l ∧
      l.admitted.length = 3 ∧ l.admitted.Pairwise (SpacedOut .shipped) :=
  exists_imp_of_any (by decide) fun l hl hcount =>
    ⟨hcount, cooldowns_honoured .shipped (by decide) neighbourCalls l (by decide) hl⟩

theorem prefix_cooldown_forgotten :
    longPrefixes.validate = .ok () ∧
    (run CooldownLog.step (.new longPrefixes) neighbourCalls).map CooldownLog.admitted =
      some [⟨.v4 0x68100002, none, 30 * oneSecond⟩, ⟨.v4 0x01000001, none, 30 * oneSecond⟩,
        ⟨.v4 0x68100001, none, 0⟩] ∧
    coveringPrefix (.v4 0x68100002) = coveringPrefix (.v4 0x68100001) ∧
    30 * oneSecond < longPrefixes.perPrefixCooldown := by
  refine ⟨rfl, by rfl, by decide, by decide⟩

end EgressDns
