import EgressDns.Ingress.Admission

/-!
# The connection ceilings

Each listener keeps its own books with the settings it started with, so the ceilings of the process
are those of the configuration only with a single listener, and only while no reload lowers them.
-/

namespace EgressDns

open Lib

namespace Accounts

variable {a b : Accounts}

theorem cfg_accept {action : AcceptAction} (h : a.accept action = some b) : b.cfg = a.cfg := by
  cases action with
  | accept serial peer =>
    simp only [accept] at h
    split at h
    · split at h <;> cases h <;> rfl
    · cases h
  | load state =>
    simp only [accept] at h
    split at h <;> cases h
    rfl
  | decide admitted =>
    simp only [accept] at h
    split at h <;> cases h
    cases admitted <;> rfl
  | connect =>
    simp only [accept] at h
    split at h <;> cases h
    unfold connect
    dsimp only
    split <;> rfl

variable {serial : Nat}

theorem cfg_serve {action : StreamAction} (h : a.serve serial action = some b) : b.cfg = a.cfg := by
  obtain ⟨st, _, hnext⟩ := Option.bind_eq_some_iff.mp h
  obtain ⟨phase, _, rfl⟩ := Option.map_eq_some_iff.mp hnext
  rfl

theorem cfg_discount (h : a.discount serial = some b) : b.cfg = a.cfg := by
  obtain ⟨st, _, hstep⟩ := Option.bind_eq_some_iff.mp h
  split at hstep <;> cases hstep
  rfl

theorem cfg_release (h : a.release serial = some b) : b.cfg = a.cfg := by
  obtain ⟨st, _, hstep⟩ := Option.bind_eq_some_iff.mp h
  split at hstep <;> cases hstep
  rfl

end Accounts

def TcpConfig.AtMost (cfg limits : TcpConfig) : Prop :=
  cfg.maxConnections ≤ limits.maxConnections ∧
    cfg.maxConnectionsPerClient ≤ limits.maxConnectionsPerClient

instance (cfg limits : TcpConfig) : Decidable (cfg.AtMost limits) :=
  inferInstanceAs (Decidable (_ ∧ _))

def Acceptance.Within (a : Acceptance) : Prop :=
  a.live ≤ a.limits.maxConnections ∧ a.liveFromClient ≤ a.limits.maxConnectionsPerClient

namespace Ingress

variable {gov : Governor} {hk : Hickory} {decode : List UInt8 → Option Message}
variable {s t : Ingress gov}

def tcps (s : Ingress gov) : List TcpConfig := s.states.map IngressState.tcp

def cfgs (s : Ingress gov) : List TcpConfig := s.listeners.map fun l => l.cfg

/-- A step that touches neither the settings, nor the listeners' copies of them, nor the record of
accepted connections. -/
structure SameBooks (s t : Ingress gov) : Prop where
  tcps : t.tcps = s.tcps
  cfgs : t.cfgs = s.cfgs
  accepts : t.accepts = s.accepts

theorem SameBooks.of_eq (ht : t.states = s.states) (hl : t.listeners = s.listeners)
    (ha : t.accepts = s.accepts) : s.SameBooks t :=
  ⟨congrArg (List.map IngressState.tcp) ht, congrArg (List.map fun l : Listener => l.cfg) hl, ha⟩

theorem SameBooks.trans {u : Ingress gov} (h : s.SameBooks t) (h' : t.SameBooks u) :
    s.SameBooks u :=
  ⟨h'.tcps.trans h.tcps, h'.cfgs.trans h.cfgs, h'.accepts.trans h.accepts⟩

variable {i : Nat} {l : IngressLabel}

theorem set_eq_self {A : Type} {as : List A} {a : A} (h : as[i]? = some a) : as.set i a = as := by
  apply List.ext_getElem?
  intro j
  rw [List.getElem?_set]
  split
  · rename_i hij
    subst hij
    rw [h, if_pos (List.getElem?_eq_some_iff.mp h).1]
  · rfl

theorem SameBooks.withListener {f : Listener → Option Listener} (h : s.withListener i f = some t)
    (hf : ∀ {l l'}, f l = some l' → l'.cfg = l.cfg) : s.SameBooks t := by
  obtain ⟨l, l', hl, hl', rfl⟩ := withListener_eq_some h
  refine ⟨rfl, ?_, rfl⟩
  have hcfg : s.cfgs[i]? = some l'.cfg := by
    rw [Ingress.cfgs, List.getElem?_map, hl, Option.map_some, hf hl']
  rw [Ingress.cfgs, List.map_set]
  exact set_eq_self hcfg

theorem SameBooks.serve {stream : Nat} {action : StreamAction}
    (h : (s.withListener i fun l => l.serve stream action) = some t) : s.SameBooks t :=
  .withListener h fun hl => Accounts.cfg_serve (Listener.lift_eq_some hl)

theorem SameBooks.accept {action : AcceptAction}
    (h : (s.withListener i fun l => l.accept action) = some t) : s.SameBooks t :=
  .withListener h fun hl => Accounts.cfg_accept (Listener.lift_eq_some hl)

theorem SameBooks.setQuery (n : Nat) (q : Option ClientQuery) : s.SameBooks (s.setQuery n q) :=
  .of_eq rfl rfl rfl

theorem SameBooks.counters (inflight serial : Nat) : s.SameBooks { s with inflight, serial } :=
  .of_eq rfl rfl rfl

theorem SameBooks.leave (n : Nat) (q : ClientQuery) : s.SameBooks (s.leave n q) := by
  unfold Ingress.leave
  dsimp only
  split
  · exact .of_eq rfl rfl rfl
  · rename_i i stream _
    cases h : (s.setQuery n none).withListener i fun l => l.serve stream .answered with
    | none => exact .of_eq rfl rfl rfl
    | some t => exact (SameBooks.setQuery n none).trans (.serve h)

theorem SameBooks.admitClient {subject v now : Nat} {client : IpAddr} {rejection : Option Rejection}
    (h : s.admitClient subject client v now = some (rejection, t)) : s.SameBooks t := by
  obtain ⟨state, hstate, _, rfl⟩ := admitClient_eq_some h
  refine ⟨?_, rfl, rfl⟩
  have htcp : s.tcps[v]? = some (state.admitClient client now).2.tcp := by
    rw [Ingress.tcps, List.getElem?_map, hstate, Option.map_some, IngressState.admitClient_tcp]
  rw [Ingress.tcps, List.map_set]
  exact set_eq_self htcp

theorem SameBooks.respond (n : Nat) (q : ClientQuery) :
    s.SameBooks (s.respond decode n q) := by
  unfold Ingress.respond
  split
  · exact (SameBooks.leave n q).trans (.of_eq rfl rfl rfl)
  · split
    · exact .of_eq rfl rfl rfl
    · exact (SameBooks.leave n q).trans (.of_eq rfl rfl rfl)

/-- A reload, a new listener and an accepted connection change the books; nothing else does. -/
theorem sameBooks_step (h : s.step hk decode l = some t) :
    (∃ cfg, l = .reload cfg) ∨ l = .listen ∨ (∃ i, l = .connect i) ∨ s.SameBooks t := by
  cases l with
  | reload cfg => exact .inl ⟨cfg, rfl⟩
  | listen => exact .inr (.inl rfl)
  | connect i => exact .inr (.inr (.inl ⟨i, rfl⟩))
  | receive peer bytes =>
    cases h
    refine .inr (.inr (.inr ?_))
    unfold receive
    split <;> exact .of_eq rfl rfl rfl
  | load n =>
    obtain ⟨q, _, hstep⟩ := Option.bind_eq_some_iff.mp h
    split at hstep <;> cases hstep
    exact .inr (.inr (.inr (.of_eq rfl rfl rfl)))
  | check n now =>
    obtain ⟨q, _, hstep⟩ := Option.bind_eq_some_iff.mp h
    split at hstep
    · obtain ⟨⟨rejection, m⟩, hchecked, rfl⟩ := Option.map_eq_some_iff.mp hstep
      have hm := SameBooks.admitClient hchecked
      refine .inr (.inr (.inr (hm.trans ?_)))
      cases rejection with
      | none => exact .of_eq rfl rfl rfl
      | some rejection => exact (SameBooks.leave n q).trans (.of_eq rfl rfl rfl)
    · cases hstep
  | hand n =>
    obtain ⟨q, _, hstep⟩ := Option.bind_eq_some_iff.mp h
    refine .inr (.inr (.inr ?_))
    split at hstep
    · cases hstep
      exact .respond n q
    · split at hstep <;> cases hstep
      · exact .leave n q
      · exact (SameBooks.counters (s.inflight - 1) s.serial).trans (.respond n q)
    · cases hstep
  | finish n =>
    obtain ⟨q, _, hstep⟩ := Option.bind_eq_some_iff.mp h
    split at hstep <;> cases hstep
    exact .inr (.inr (.inr ((SameBooks.leave n q).trans (.of_eq rfl rfl rfl))))
  | accept i peer =>
    have hserial : s.SameBooks _ := .counters s.inflight (s.serial + 1)
    exact .inr (.inr (.inr (hserial.trans (.accept h))))
  | acceptLoad i => exact .inr (.inr (.inr (.accept h)))
  | acceptCheck i now =>
    obtain ⟨l, _, hstep⟩ := Option.bind_eq_some_iff.mp h
    split at hstep
    · obtain ⟨⟨rejection, m⟩, hchecked, hdecide⟩ := Option.bind_eq_some_iff.mp hstep
      exact .inr (.inr (.inr ((SameBooks.admitClient hchecked).trans (.accept hdecide))))
    · cases hstep
  | start i stream =>
    obtain ⟨state, _, hstep⟩ := Option.bind_eq_some_iff.mp h
    exact .inr (.inr (.inr (.serve hstep)))
  | dispatch i stream =>
    obtain ⟨l, _, hstep⟩ := Option.bind_eq_some_iff.mp h
    obtain ⟨st, _, hstep⟩ := Option.bind_eq_some_iff.mp hstep
    split at hstep
    · obtain ⟨m, hm, rfl⟩ := Option.map_eq_some_iff.mp hstep
      exact .inr (.inr (.inr ((SameBooks.serve hm).trans (.of_eq rfl rfl rfl))))
    · cases hstep
  | read i stream bytes | hangUp i stream => exact .inr (.inr (.inr (.serve h)))
  | discount i stream =>
    exact .inr (.inr (.inr (.withListener h fun hl =>
      Accounts.cfg_discount (Listener.lift_eq_some hl))))
  | release i stream =>
    exact .inr (.inr (.inr (.withListener h fun hl =>
      Accounts.cfg_release (Listener.lift_eq_some hl))))

/-- There is one listener at most, and a reload does not go below the ceilings it started with. -/
def CeilingGuard (s : Ingress gov) : IngressLabel → Prop
  | .listen => s.cfgs = []
  | .reload cfg => ∀ own ∈ s.cfgs, own.AtMost cfg.tcp
  | _ => True

instance (s : Ingress gov) : (l : IngressLabel) → Decidable (CeilingGuard s l)
  | .listen => decidable_of_iff _ List.isEmpty_iff
  | .reload _ => List.decidableBAll _ _
  | .receive .. | .load _ | .check .. | .hand _ | .finish _ | .accept .. | .acceptLoad _
  | .acceptCheck .. | .connect _ | .start .. | .read .. | .dispatch .. | .hangUp .. | .discount ..
  | .release .. => instDecidableTrue

structure Capped (s : Ingress gov) : Prop where
  single : s.cfgs.length ≤ 1
  atMost : ∀ own ∈ s.cfgs, ∀ limits ∈ s.tcps.getLast?, own.AtMost limits
  within : ∀ a ∈ s.accepts, a.Within

theorem Capped.sameBooks (h : s.Capped) (hst : s.SameBooks t) : t.Capped where
  single := by
    rw [hst.cfgs]
    exact h.single
  atMost := by
    rw [hst.cfgs, hst.tcps]
    exact h.atMost
  within := by
    rw [hst.accepts]
    exact h.within

theorem sum_le_of_single {as : List Listener} (hone : as.length ≤ 1) {f : Listener → Nat}
    {bound : Nat} (h : ∀ l ∈ as, f l ≤ bound) : (as.map f).sum ≤ bound := by
  match as with
  | [] => exact Nat.zero_le _
  | [l] => simpa using h l List.mem_cons_self
  | _ :: _ :: _ => simp at hone

theorem Capped.noteAccept (h : s.Capped) (peer : IpAddr) {limits : TcpConfig}
    (hlimits : s.tcps.getLast? = some limits) : (s.noteAccept peer limits).Capped := by
  have hone : s.listeners.length ≤ 1 := by simpa [cfgs] using h.single
  have hmost (l : Listener) (hl : l ∈ s.listeners) : l.cfg.AtMost limits :=
    h.atMost l.cfg (List.mem_map_of_mem hl) limits hlimits
  refine ⟨h.single, h.atMost, ?_⟩
  intro a ha
  rcases List.mem_cons.mp ha with rfl | ha
  · constructor
    · apply sum_le_of_single hone
      intro l hl
      exact l.live_le.trans (hmost l hl).1
    · apply sum_le_of_single hone
      intro l hl
      exact (l.liveFrom_le peer).trans (hmost l hl).2
  · exact h.within a ha

theorem capped_step (h : s.Capped) (hg : CeilingGuard s l) (he : s.step hk decode l = some t) :
    t.Capped := by
  rcases sameBooks_step he with ⟨cfg, rfl⟩ | rfl | ⟨i, rfl⟩ | hsame
  · cases he
    refine ⟨h.single, ?_, h.within⟩
    intro own hown limits hlimits
    have hlast : limits = cfg.tcp := by
      simpa [tcps, IngressState.build] using hlimits.symm
    rw [hlast]
    exact hg own hown
  · obtain ⟨state, hstate, rfl⟩ := Option.map_eq_some_iff.mp he
    have hnone : s.listeners = [] := by simpa [CeilingGuard, cfgs] using hg
    have hown : ({ s with listeners := s.listeners ++ [.listen state.tcp] } : Ingress gov).cfgs =
        [state.tcp] := by
      simp [cfgs, hnone, Listener.listen, Accounts.listen]
    refine ⟨?_, ?_, h.within⟩
    · rw [hown]
      exact le_refl 1
    · intro own hmem limits hlimits
      rw [hown] at hmem
      have hlast : s.tcps.getLast? = some state.tcp := by
        rw [tcps, List.getLast?_map, hstate, Option.map_some]
      have hsame : limits = state.tcp := Option.some.inj (hlimits.symm.trans hlast)
      rw [List.mem_singleton.mp hmem, hsame]
      exact ⟨le_refl _, le_refl _⟩
  · obtain ⟨l, _, hstep⟩ := Option.bind_eq_some_iff.mp he
    obtain ⟨state, hstate, hstep⟩ := Option.bind_eq_some_iff.mp hstep
    split at hstep
    · obtain ⟨m, hm, rfl⟩ := Option.map_eq_some_iff.mp hstep
      have hbooks := SameBooks.accept hm
      have hcapped := h.sameBooks hbooks
      split
      · apply hcapped.noteAccept
        rw [hbooks.tcps, tcps, List.getLast?_map, hstate, Option.map_some]
      · exact hcapped
    · cases hstep
  · exact h.sameBooks hsame

end Ingress

/-- With a single TCP listener, and as long as no reload goes below the ceilings it started with,
the ceilings in force hold right after every accept. -/
theorem connections_within_ceilings {gov : Governor} (hk : Hickory)
    (decode : List UInt8 → Option Message) (cfg : IngressConfig) (maxInflight : Nat)
    (labels : List IngressLabel) (s : Ingress gov)
    (hguard : Guarded (Ingress.step hk decode) Ingress.CeilingGuard
      (Ingress.boot gov cfg maxInflight) labels)
    (hrun : run (Ingress.step hk decode) (Ingress.boot gov cfg maxInflight) labels = some s) :
    ∀ a ∈ s.accepts, a.Within := by
  have hboot : (Ingress.boot gov cfg maxInflight).Capped :=
    ⟨Nat.zero_le 1, List.forall_mem_nil _, List.forall_mem_nil _⟩
  exact (invariant_of_run Ingress.capped_step hboot hguard hrun).within

/-- No rate limit, and these ceilings both for all connections and for those of one client. -/
def ceilingConfig (ceiling : Nat) : IngressConfig :=
  { lanConfig with
    rateLimit := { lanConfig.rateLimit with enabled := false }
    tcp := { lanConfig.tcp with maxConnections := ceiling, maxConnectionsPerClient := ceiling } }

def connectAt (listener : Nat) : List IngressLabel :=
  [.accept listener lanClient, .acceptLoad listener, .acceptCheck listener 0, .connect listener]

theorem connections_within_ceilings_single :
    ∃ s, run (Ingress.step .sample decodeSample) (Ingress.boot .sample (ceilingConfig 1) 8)
        (.listen :: .reload (ceilingConfig 2) :: connectAt 0 ++ [.accept 0 lanClient]) = some s ∧
      s.accepts.length = 1 ∧ ∀ a ∈ s.accepts, a.Within :=
  exists_imp_of_any (by decide) fun _ hrun haccepts =>
    ⟨haccepts, connections_within_ceilings _ _ _ _ _ _ (by decide) hrun⟩

/-- Two listeners let in twice the ceiling, and a listener that started with a higher ceiling goes
on letting in after a reload has lowered it with no connection open. -/
theorem connections_beyond_ceilings :
    (run (Ingress.step .sample decodeSample) (Ingress.boot .sample (ceilingConfig 1) 8)
        (.listen :: .listen :: connectAt 0 ++ connectAt 1)).map
        (fun s => (s.accepts.map fun a => (a.live, a.liveFromClient, a.limits.maxConnections,
          a.limits.maxConnectionsPerClient))) = some [(2, 2, 1, 1), (1, 1, 1, 1)] ∧
    (run (Ingress.step .sample decodeSample) (Ingress.boot .sample (ceilingConfig 2) 8)
        (.listen :: .reload (ceilingConfig 1) :: connectAt 0 ++ connectAt 0)).map
        (fun s => (s.accepts.map fun a => (a.live, a.liveFromClient, a.limits.maxConnections,
          a.limits.maxConnectionsPerClient))) = some [(2, 2, 1, 1), (1, 1, 1, 1)] := by
  decide

end EgressDns
