import EgressDns.Ingress.Admit
import EgressDns.Upstream.Bootstrap

/-!
# Upstreams that are this resolver

`detect_cycles` of `upstream/bootstrap.rs` next to what it is for: which upstream addresses are
served by one of the configured listeners, with IPv4-mapped addresses read as IPv4.
-/

namespace EgressDns

open Acl (normalise)

/-- The addresses `detect_cycles` looks at, in order. -/
def enabledAddresses (tree : UpstreamConfig) : List (ServerConfig × IpAddr) :=
  tree.groups.flatMap fun g => (g.servers.filter (·.enabled)).flatMap fun s =>
    s.addresses.map fun addr => (s, addr)

namespace Surroundings

variable (env : Surroundings) (addr : IpAddr) (port : Nat)

/-- The address is one of this host. -/
def Owned : Prop :=
  isLoopback (normalise addr) = true ∨ ∃ a ∈ env.localAddresses, normalise a = normalise addr

/-- A listener has the address and the port, or it has the port on every address of the family and
the address is one of this host. -/
def Serves : Prop :=
  ∃ l ∈ env.listeners, l.2 = port ∧ (normalise l.1 = normalise addr ∨
    (isUnspecified (normalise l.1) = true ∧
      (normalise l.1).isIpv4 = (normalise addr).isIpv4 ∧ env.Owned addr))

def StubOf (addr : IpAddr) : Prop := isKnownStub addr = true ∧ ∃ l ∈ env.listeners, l.2 = 53

/-- The address as it is written is one of this host. -/
def Here : Prop := isLoopback addr = true ∨ addr ∈ env.localAddresses

def Wildcard : Prop := ∃ l ∈ env.listeners, isUnspecified l.1 = true ∧ l.2 = port

/-- The wildcard listeners on the port of an address of this host are all of the other family. -/
structure WrongFamily : Prop where
  here : env.Here addr
  wildcard : env.Wildcard port
  family : ∀ l ∈ env.listeners, l.2 = port → isUnspecified (normalise l.1) = true →
    (normalise l.1).isIpv4 ≠ (normalise addr).isIpv4
  unlisted : ∀ l ∈ env.listeners, l.2 = port → normalise l.1 ≠ normalise addr
  noStub : ¬ env.StubOf (normalise addr)

/-- If a wildcard listener has the port, one of the family of the address has it. -/
def FamilyListens : Prop :=
  env.Wildcard port → ∃ l ∈ env.listeners, isUnspecified (normalise l.1) = true ∧ l.2 = port ∧
    (normalise l.1).isIpv4 = (normalise addr).isIpv4

/-- What leads back to this resolver and is written in another form: a listener at the address, a
wildcard listener or the address of this host that it reaches, a stub. -/
inductive Respelled : Prop
  | listener {l : Socket} : l ∈ env.listeners → l.2 = port → l.1 ≠ addr →
      normalise l.1 = normalise addr → Respelled
  | wildcard {l : Socket} : l ∈ env.listeners → l.2 = port →
      isUnspecified (normalise l.1) = true →
      (normalise l.1).isIpv4 = (normalise addr).isIpv4 →
      env.Owned addr → normalise l.1 ≠ l.1 ∨ ¬ env.Here addr → Respelled
  | stub : normalise addr ≠ addr → env.StubOf (normalise addr) → Respelled

/-- Only another form shows that the upstream is this resolver. -/
structure Hidden : Prop where
  respelled : env.Respelled addr port
  unlisted : (addr, port) ∉ env.listeners
  unreached : env.Wildcard port → ¬ env.Here addr
  noStub : ¬ env.StubOf addr

/-- An address is written in the IPv4-mapped form. -/
def AnyMapped : Prop :=
  normalise addr ≠ addr ∨ (∃ l ∈ env.listeners, normalise l.1 ≠ l.1) ∨
    ∃ a ∈ env.localAddresses, normalise a ≠ a

end Surroundings

section Cycles

open Surroundings

variable {env : Surroundings} {addr : IpAddr} {port : Nat}

theorem detectCycles_eq (lib : ConfigLib) (env : Surroundings) (tree : UpstreamConfig) :
    detectCycles lib env tree =
      (enabledAddresses tree).filterMap fun p => cycleAt lib env p.1 p.2 := by
  simp only [detectCycles, enabledAddresses, List.filterMap_flatMap, List.filterMap_map]
  rfl

theorem isSome_cycleAt (lib : ConfigLib) (s : ServerConfig) :
    (cycleAt lib env s addr).isSome = true ↔
      (addr, s.effectivePort) ∈ env.listeners ∨
      (env.Wildcard s.effectivePort ∧ env.Here addr) ∨
      env.StubOf addr := by
  unfold cycleAt Wildcard Here StubOf
  simp only
  rw [← or_assoc]
  split_ifs with hserved hstub
  · exact iff_of_true rfl (.inl hserved)
  · exact iff_of_true rfl (.inr hstub)
  · exact iff_of_false Bool.false_ne_true fun h => h.elim hserved hstub

theorem normalise_stub (h : isKnownStub addr = true) : normalise addr = addr := by
  cases addr with
  | v4 a => rfl
  | v6 a => simp [isKnownStub] at h

theorem normalise_loopback (h : isLoopback addr = true) : normalise addr = addr := by
  cases addr with
  | v4 a => rfl
  | v6 a =>
    rw [eq_of_beq h]
    rfl

theorem Surroundings.Here.owned (h : env.Here addr) : env.Owned addr := by
  rcases h with hloop | hlocal
  · exact .inl (by rwa [normalise_loopback hloop])
  · exact .inr ⟨addr, hlocal, rfl⟩

theorem Surroundings.WrongFamily.unlistening (h : env.WrongFamily addr port) :
    ¬ env.FamilyListens addr port := by
  intro hlistens
  obtain ⟨l, hl, hany, hport, hfamily⟩ := hlistens h.wildcard
  exact h.family l hl hport hany hfamily

theorem Surroundings.Respelled.served (h : env.Respelled addr port) :
    env.Serves addr port ∨ env.StubOf (normalise addr) := by
  cases h with
  | listener hl hport _ heq => exact .inl ⟨_, hl, hport, .inl heq⟩
  | wildcard hl hport hany hfamily howned _ =>
    exact .inl ⟨_, hl, hport, .inr ⟨hany, hfamily, howned⟩⟩
  | stub _ hstub => exact .inr hstub

theorem Surroundings.Hidden.anyMapped (h : env.Hidden addr port) : env.AnyMapped addr := by
  by_cases haddr : normalise addr = addr
  · refine .inr ?_
    cases h.respelled with
    | @listener l hl _ hne heq =>
      exact .inl ⟨l, hl, fun hplain => hne (hplain.symm.trans (heq.trans haddr))⟩
    | @wildcard l hl _ _ _ howned hform =>
      rcases hform with hmapped | hhere
      · exact .inl ⟨l, hl, hmapped⟩
      · rw [Owned, haddr] at howned
        rcases howned with hloop | ⟨a, ha, heq⟩
        · exact absurd (.inl hloop) hhere
        · refine .inr ⟨a, ha, fun hplain => hhere (.inr ?_)⟩
          rwa [← heq, hplain]
    | stub hmapped _ => exact absurd haddr hmapped
  · exact .inl haddr

variable (lib : ConfigLib) (s : ServerConfig)

theorem cycleAt_sound_iff : ((cycleAt lib env s addr).isSome = true →
    env.Serves addr s.effectivePort ∨ env.StubOf (normalise addr)) ↔
      ¬ env.WrongFamily addr s.effectivePort := by
  rw [isSome_cycleAt]
  constructor
  · intro hsound hwrong
    rcases hsound (.inr (.inl ⟨hwrong.wildcard, hwrong.here⟩)) with ⟨l, hl, hport, hmatch⟩ | hstub
    · rcases hmatch with heq | ⟨hany, hfamily, -⟩
      · exact hwrong.unlisted l hl hport heq
      · exact hwrong.family l hl hport hany hfamily
    · exact hwrong.noStub hstub
  · rintro hfamily (hdirect | ⟨hany, hhere⟩ | hstub)
    · exact .inl ⟨_, hdirect, rfl, .inl rfl⟩
    · by_contra hno
      rw [not_or] at hno
      refine hfamily ⟨hhere, hany, fun l hl hport hwild heq => hno.1 ?_, fun l hl hport heq =>
        hno.1 ⟨l, hl, hport, .inl heq⟩, hno.2⟩
      exact ⟨l, hl, hport, .inr ⟨hwild, heq, hhere.owned⟩⟩
    · exact .inr ((normalise_stub hstub.1).symm ▸ hstub)

theorem cycleAt_complete_iff : (env.Serves addr s.effectivePort ∨ env.StubOf (normalise addr) →
    (cycleAt lib env s addr).isSome = true) ↔ ¬ env.Hidden addr s.effectivePort := by
  rw [isSome_cycleAt]
  constructor
  · intro hcomplete hhidden
    rcases hcomplete hhidden.respelled.served with hdirect | ⟨hany, hhere⟩ | hstub
    · exact hhidden.unlisted hdirect
    · exact hhidden.unreached hany hhere
    · exact hhidden.noStub hstub
  · intro hhidden hserved
    by_contra hno
    rw [not_or, not_or, not_and] at hno
    obtain ⟨hunlisted, hunreached, hstub⟩ := hno
    refine hhidden ⟨?_, hunlisted, hunreached, hstub⟩
    rcases hserved with ⟨l, hl, hport, heq | ⟨hany, hfamily, howned⟩⟩ | hknown
    · refine .listener hl hport (fun hsame => hunlisted ?_) heq
      rwa [← hsame, ← hport]
    · refine .wildcard hl hport hany hfamily howned (or_iff_not_imp_left.mpr fun hplain => ?_)
      rw [not_not.mp hplain] at hany
      exact hunreached ⟨l, hl, hany, hport⟩
    · refine .stub (fun hplain => hstub ?_) hknown
      rwa [hplain] at hknown

end Cycles

/-- The reports are those of the enabled addresses. An address is reported exactly when it is
served or a stub, just if no wildcard listener of the other family speaks for it and no other form
of an address hides it. So it is when wildcard listeners are there for its family and no address is
IPv4-mapped. -/
theorem detect_cycles_exact_iff (lib : ConfigLib) (env : Surroundings) (tree : UpstreamConfig) :
    detectCycles lib env tree =
      (enabledAddresses tree).filterMap (fun p => cycleAt lib env p.1 p.2) ∧
    ∀ s addr,
      (((cycleAt lib env s addr).isSome = true ↔
        env.Serves addr s.effectivePort ∨ env.StubOf (normalise addr)) ↔
      ¬ env.WrongFamily addr s.effectivePort ∧ ¬ env.Hidden addr s.effectivePort) ∧
      (env.WrongFamily addr s.effectivePort → ¬ env.FamilyListens addr s.effectivePort) ∧
      (env.Hidden addr s.effectivePort → env.AnyMapped addr) := by
  refine ⟨detectCycles_eq lib env tree, fun s addr =>
    ⟨?_, fun h => h.unlistening, fun h => h.anyMapped⟩⟩
  exact iff_iff_implies_and_implies.trans
    (and_congr (cycleAt_sound_iff lib s) (cycleAt_complete_iff lib s))

def loopingAt (addr : IpAddr) : ServerConfig where
  name := ascii "u0-udp"
  role := .authority
  transport := .udp
  addresses := [addr]
  port := some 53
  serverName := none
  path := none
  weight := 100
  enabled := true
  enableCookies := none
  trustAd := false

/-- With one listener at [::]:53, an upstream at 127.0.0.1 is reported, though the listener is of
the other family; with one at 127.0.0.1:53, an upstream at ::ffff:127.0.0.1 is not. -/
theorem detect_cycles_errs :
    ((cycleAt .sample ⟨[(.v6 0, 53)], [], []⟩ (loopingAt (.v4 0x7f000001))
        (.v4 0x7f000001)).isSome = true ∧
      ¬ Surroundings.Serves ⟨[(.v6 0, 53)], [], []⟩ (.v4 0x7f000001) 53 ∧
      ¬ Surroundings.StubOf ⟨[(.v6 0, 53)], [], []⟩ (normalise (.v4 0x7f000001))) ∧
    (cycleAt .sample ⟨[(.v4 0x7f000001, 53)], [], []⟩ (loopingAt (.v6 0xffff7f000001))
        (.v6 0xffff7f000001)).isSome = false ∧
      Surroundings.Serves ⟨[(.v4 0x7f000001, 53)], [], []⟩ (.v6 0xffff7f000001) 53 := by
  refine ⟨⟨by decide, ?_, fun h => absurd h.1 (by decide)⟩, by decide, ?_⟩
  · rintro ⟨l, hl, -, hmatch⟩
    cases List.mem_singleton.mp hl
    rcases hmatch with h | ⟨-, h, -⟩
    · exact absurd h (by decide)
    · exact absurd h (by decide)
  · exact ⟨_, List.mem_singleton_self _, rfl, .inl (by decide)⟩

end EgressDns
