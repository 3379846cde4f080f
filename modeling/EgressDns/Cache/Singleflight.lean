import EgressDns.Lib.Tasks
import Mathlib.Data.List.AList

/-!
# Request coalescing

`cache/singleflight.rs`. Callers of one registry interleave their joins, the two steps of a leader's
`publish` (the key leaves its shard, then the value is sent), the drop of a leader and the waits of
followers. A caller that is done stays in the pool with what it published or received.
-/

namespace EgressDns

open Lib

inductive FlightError where
  | leaderGone
  | failed (detail : String)
  | transient (detail : String)
  deriving DecidableEq, Repr

def FlightError.isCacheable : FlightError → Bool
  | failed _ => true
  | _ => false

def FlightError.detail : FlightError → String
  | leaderGone => "the leading query was cancelled"
  | failed d => d
  | transient d => d

/-- A `tokio::sync::broadcast` channel of capacity one: what was sent, and whether the senders are
gone. -/
structure Channel (V : Type) where
  sent : List V
  closed : Bool

inductive RecvError where
  | closed | lagged

namespace Channel

variable {V : Type}

def quiet : Channel V where
  sent := []
  closed := false

def finish (c : Channel V) (value : V) : Channel V where
  sent := c.sent ++ [value]
  closed := true

/-- `recv` of a receiver that subscribed when `next` values had been sent; `none` while it waits.
A value that another one has replaced in the buffer is lost. -/
def recv (c : Channel V) (next : Nat) : Option (Except RecvError V) :=
  match c.sent.drop next with
  | [] => if c.closed then some (.error .closed) else none
  | [value] => some (.ok value)
  | _ :: _ :: _ => some (.error .lagged)

@[simp] theorem recv_quiet (next : Nat) : (quiet : Channel V).recv next = none := by
  simp [recv, quiet]

@[simp] theorem recv_finish_quiet (value : V) :
    ((quiet : Channel V).finish value).recv 0 = some (.ok value) := rfl

end Channel

structure Receiver where
  channel : Nat
  next : Nat

/-- How a leader ends: one of its three methods, or dropped unpublished. -/
inductive Publication (V : Type) where
  | complete (value : V)
  | fail (reason : String)
  | failUncacheable (reason : String)
  | dropped

def Publication.value {V : Type} : Publication V → Except FlightError V
  | complete value => .ok value
  | fail reason => .error (.failed reason)
  | failUncacheable reason => .error (.transient reason)
  | dropped => .error .leaderGone

/-- `Follower::wait`, given what its receiver returned. -/
def waited {V : Type} : Except RecvError (Except FlightError V) → Except FlightError V
  | .ok result => result
  | .error _ => .error .leaderGone

inductive Caller (K V : Type) where
  | joining (key : K)
  | saturated (key : K)
  | leading (key : K) (tx : Nat)
  | sending (key : K) (tx : Nat) (ended : Publication V)
  | published (key : K) (tx : Nat) (ended : Publication V)
  | following (key : K) (rx : Receiver)
  | received (key : K) (rx : Receiver) (result : Except FlightError V)

def Caller.led {K V : Type} : Caller K V → Option (K × Nat)
  | leading key tx | sending key tx _ | published key tx _ => some (key, tx)
  | _ => none

def Caller.channel {K V : Type} (c : Caller K V) : Option Nat := c.led.map Prod.snd

theorem Caller.channel_of_led {K V : Type} {c : Caller K V} {key : K} {tx : Nat}
    (h : c.led = some (key, tx)) : c.channel = some tx := by
  rw [Caller.channel, h]
  rfl

inductive CallerAction (V : Type) where
  | join
  | publish (ended : Publication V)
  | send
  | recv
  | abandon

/-- What a registry is built with; `hash` is the hasher that is fixed for the process. -/
structure SingleFlight (K : Type) where
  shardCount : Nat
  maxInflightPerShard : Nat
  hash : K → Nat
  nonempty : 0 < shardCount

def SingleFlight.new {K : Type} (shards maxInflightPerShard : Nat) (hash : K → Nat) :
    SingleFlight K where
  shardCount := (max shards 1).nextPowerOfTwo
  maxInflightPerShard := max maxInflightPerShard 1
  hash := hash
  nonempty := Nat.pos_of_isPowerOfTwo (Nat.isPowerOfTwo_nextPowerOfTwo _)

structure Registry (K V : Type) (n : Nat) where
  shards : Fin n → AList fun _ : K => Nat
  channels : Nat → Channel (Except FlightError V)
  opened : Nat

namespace SingleFlight

variable {K V : Type} [DecidableEq K] (sf : SingleFlight K)

def shardIndex (key : K) : Fin sf.shardCount where
  val := sf.hash key &&& (sf.shardCount - 1)
  isLt := Nat.lt_of_le_of_lt Nat.and_le_right (Nat.sub_one_lt_of_lt sf.nonempty)

def empty : Registry K V sf.shardCount where
  shards := fun _ => ∅
  channels := fun _ => .quiet
  opened := 0

variable (reg : Registry K V sf.shardCount)

def inflight (key : K) : Option Nat := (reg.shards (sf.shardIndex key)).lookup key

def insert (key : K) : Registry K V sf.shardCount where
  shards := Function.update reg.shards (sf.shardIndex key)
    ((reg.shards (sf.shardIndex key)).insert key reg.opened)
  channels := reg.channels
  opened := reg.opened + 1

def remove (key : K) : Registry K V sf.shardCount :=
  { reg with
    shards := Function.update reg.shards (sf.shardIndex key)
      ((reg.shards (sf.shardIndex key)).erase key) }

def subscribe (tx : Nat) : Receiver where
  channel := tx
  next := (reg.channels tx).sent.length

def send (tx : Nat) (value : Except FlightError V) : Registry K V sf.shardCount :=
  { reg with channels := Function.update reg.channels tx ((reg.channels tx).finish value) }

def join (key : K) : Registry K V sf.shardCount × Caller K V :=
  match sf.inflight reg key with
  | some tx => (reg, .following key (sf.subscribe reg tx))
  | none =>
    if sf.maxInflightPerShard ≤ (reg.shards (sf.shardIndex key)).entries.length then
      (reg, .saturated key)
    else (sf.insert reg key, .leading key reg.opened)

def act : Caller K V → CallerAction V →
    Option (Effect (Registry K V sf.shardCount) (Caller K V))
  | .joining key, .join => some (.stay (sf.join reg key).1 (some (sf.join reg key).2))
  | .leading key tx, .publish ended =>
    some (.stay (sf.remove reg key) (some (.sending key tx ended)))
  | .sending key tx ended, .send =>
    some (.stay (sf.send reg tx ended.value) (some (.published key tx ended)))
  | .following key rx, .recv =>
    ((reg.channels rx.channel).recv rx.next).map fun result =>
      .stay reg (some (.received key rx (waited result)))
  | .following _ _, .abandon => some (.stay reg none)
  | _, _ => none

def program : Program (Registry K V sf.shardCount) (Caller K V) Empty K (CallerAction V) where
  env _ e := nomatch e
  start _ key := .joining key
  act := sf.act

def initial : Pool (Registry K V sf.shardCount) (Caller K V) where
  shared := sf.empty
  tasks := fun _ => none

inductive Does : Caller K V → CallerAction V → Registry K V sf.shardCount → Option (Caller K V) →
    Prop where
  | followed {key tx} : sf.inflight reg key = some tx →
      Does (.joining key) .join reg (some (.following key (sf.subscribe reg tx)))
  | shed {key} : Does (.joining key) .join reg (some (.saturated key))
  | led {key} : sf.inflight reg key = none →
      (reg.shards (sf.shardIndex key)).entries.length < sf.maxInflightPerShard →
      Does (.joining key) .join (sf.insert reg key) (some (.leading key reg.opened))
  | removed {key tx ended} :
      Does (.leading key tx) (.publish ended) (sf.remove reg key) (some (.sending key tx ended))
  | sent {key tx ended} :
      Does (.sending key tx ended) .send (sf.send reg tx ended.value)
        (some (.published key tx ended))
  | received {key rx result} : (reg.channels rx.channel).recv rx.next = some result →
      Does (.following key rx) .recv reg (some (.received key rx (waited result)))
  | abandoned {key rx} : Does (.following key rx) .abandon reg none

variable {sf reg}

theorem act_does {t : Caller K V} {a : CallerAction V} {e}
    (h : sf.act reg t a = some e) :
    ∃ reg' next, e = .stay reg' next ∧ Does sf reg t a reg' next := by
  cases t <;> cases a <;>
    simp only [act, Option.some.injEq, reduceCtorEq, Option.map_eq_some_iff] at h
  case joining.join key =>
    subst h
    refine ⟨_, _, rfl, ?_⟩
    unfold join
    split
    · rename_i tx htx
      exact .followed htx
    · rename_i hnone
      split
      · exact .shed
      · rename_i hroom
        exact .led hnone (Nat.lt_of_not_le hroom)
  case leading.publish key tx ended =>
    subst h
    exact ⟨_, _, rfl, .removed⟩
  case sending.send key tx ended =>
    subst h
    exact ⟨_, _, rfl, .sent⟩
  case following.recv key rx =>
    obtain ⟨result, hrecv, rfl⟩ := h
    exact ⟨_, _, rfl, .received hrecv⟩
  case following.abandon key rx =>
    subst h
    exact ⟨_, _, rfl, .abandoned⟩

/-! ### The registry -/

def Unlisted (reg : Registry K V sf.shardCount) (tx : Nat) : Prop :=
  ∀ i key, (reg.shards i).lookup key ≠ some tx

structure Sound (sf : SingleFlight K) (reg : Registry K V sf.shardCount) : Prop where
  placed : ∀ {i key tx}, (reg.shards i).lookup key = some tx → i = sf.shardIndex key
  bounded : ∀ i, (reg.shards i).entries.length ≤ sf.maxInflightPerShard
  opened : ∀ {i key tx}, (reg.shards i).lookup key = some tx → tx < reg.opened
  quiet : ∀ {i key tx}, (reg.shards i).lookup key = some tx → reg.channels tx = .quiet
  apart : ∀ {i j key key' tx}, (reg.shards i).lookup key = some tx →
    (reg.shards j).lookup key' = some tx → key = key'
  unused : ∀ {tx}, reg.opened ≤ tx → reg.channels tx = .quiet

def Good (sf : SingleFlight K) (reg : Registry K V sf.shardCount) : Caller K V → Prop
  | .joining _ | .saturated _ | .received _ _ _ => True
  | .leading key tx => sf.inflight reg key = some tx
  | .sending _ tx _ => tx < reg.opened ∧ Unlisted reg tx ∧ reg.channels tx = .quiet
  | .published _ tx ended =>
    tx < reg.opened ∧ Unlisted reg tx ∧ reg.channels tx = Channel.quiet.finish ended.value
  | .following _ rx => rx.channel < reg.opened ∧ rx.next = 0

variable {key : K} {tx : Nat} {i : Fin sf.shardCount} {x : K × Nat} {rx : Receiver} {u : Caller K V}

theorem lookup_insert {k : K} (h : ((sf.insert reg key).shards i).lookup k = some tx) :
    (i = sf.shardIndex key ∧ k = key ∧ tx = reg.opened) ∨ (reg.shards i).lookup k = some tx := by
  by_cases hi : i = sf.shardIndex key
  · subst hi
    by_cases hk : k = key
    · subst hk
      simp only [insert, Function.update_self, AList.lookup_insert, Option.some.injEq] at h
      exact .inl ⟨rfl, rfl, h.symm⟩
    · simp only [insert, Function.update_self, AList.lookup_insert_ne hk] at h
      exact .inr h
  · simp only [insert, Function.update_of_ne hi] at h
    exact .inr h

theorem lookup_remove {k : K} (h : ((sf.remove reg key).shards i).lookup k = some tx) :
    (reg.shards i).lookup k = some tx := by
  by_cases hi : i = sf.shardIndex key
  · subst hi
    by_cases hk : k = key
    · subst hk
      simp [remove] at h
    · simpa only [remove, Function.update_self, AList.lookup_erase_ne hk] using h
  · simpa only [remove, Function.update_of_ne hi] using h

theorem inflight_insert_self (key : K) :
    sf.inflight (sf.insert reg key) key = some reg.opened := by
  simp [inflight, insert]

theorem inflight_insert_of_ne {k : K} (h : k ≠ key) :
    sf.inflight (sf.insert reg key) k = sf.inflight reg k := by
  by_cases hi : sf.shardIndex k = sf.shardIndex key
  · simp only [inflight, insert, hi, Function.update_self, AList.lookup_insert_ne h]
  · simp only [inflight, insert, Function.update_of_ne hi]

theorem inflight_remove_self (key : K) : sf.inflight (sf.remove reg key) key = none := by
  simp [inflight, remove]

theorem inflight_remove_of_ne {k : K} (h : k ≠ key) :
    sf.inflight (sf.remove reg key) k = sf.inflight reg k := by
  by_cases hi : sf.shardIndex k = sf.shardIndex key
  · simp only [inflight, remove, hi, Function.update_self, AList.lookup_erase_ne h]
  · simp only [inflight, remove, Function.update_of_ne hi]

theorem Sound.insert (hs : Sound sf reg) (hnew : sf.inflight reg key = none)
    (hroom : (reg.shards (sf.shardIndex key)).entries.length < sf.maxInflightPerShard) :
    Sound sf (sf.insert reg key) where
  placed h := by
    rcases lookup_insert h with ⟨rfl, rfl, _⟩ | hold
    · rfl
    · exact hs.placed hold
  bounded i := by
    by_cases hi : i = sf.shardIndex key
    · subst hi
      have habsent : key ∉ reg.shards (sf.shardIndex key) := AList.lookup_eq_none.mp hnew
      simp only [SingleFlight.insert, Function.update_self, AList.entries_insert_of_notMem habsent,
        List.length_cons]
      exact hroom
    · simp only [SingleFlight.insert, Function.update_of_ne hi]
      exact hs.bounded i
  opened h := by
    rcases lookup_insert h with ⟨_, _, rfl⟩ | hold
    · exact Nat.lt_succ_self _
    · exact Nat.lt_succ_of_lt (hs.opened hold)
  quiet h := by
    rcases lookup_insert h with ⟨_, _, rfl⟩ | hold
    · exact hs.unused (Nat.le_refl _)
    · exact hs.quiet hold
  apart h h' := by
    rcases lookup_insert h with ⟨_, rfl, rfl⟩ | hold
    · rcases lookup_insert h' with ⟨_, rfl, _⟩ | hold'
      · rfl
      · exact absurd (hs.opened hold') (Nat.lt_irrefl _)
    · rcases lookup_insert h' with ⟨_, _, rfl⟩ | hold'
      · exact absurd (hs.opened hold) (Nat.lt_irrefl _)
      · exact hs.apart hold hold'
  unused h := hs.unused (Nat.le_of_succ_le h)

theorem Sound.remove (key : K) (hs : Sound sf reg) : Sound sf (sf.remove reg key) where
  placed h := hs.placed (lookup_remove h)
  bounded i := by
    by_cases hi : i = sf.shardIndex key
    · subst hi
      simp only [SingleFlight.remove, Function.update_self]
      exact Nat.le_trans (List.kerase_sublist key _).length_le (hs.bounded _)
    · simp only [SingleFlight.remove, Function.update_of_ne hi]
      exact hs.bounded i
  opened h := hs.opened (lookup_remove h)
  quiet h := hs.quiet (lookup_remove h)
  apart h h' := hs.apart (lookup_remove h) (lookup_remove h')
  unused h := hs.unused h

theorem Sound.send (value : Except FlightError V) (hs : Sound sf reg) (hopen : tx < reg.opened)
    (hun : Unlisted reg tx) : Sound sf (sf.send reg tx value) where
  placed h := hs.placed h
  bounded i := hs.bounded i
  opened h := hs.opened h
  quiet {i key tx'} h := by
    have hne : tx' ≠ tx := by
      rintro rfl
      exact hun i key h
    exact (Function.update_of_ne hne ..).trans (hs.quiet h)
  apart h h' := hs.apart h h'
  unused {tx'} h := by
    have hne : tx' ≠ tx := Nat.ne_of_gt (Nat.lt_of_lt_of_le hopen h)
    exact (Function.update_of_ne hne ..).trans (hs.unused h)

/-! ### The callers -/

theorem Good.insert {t : Caller K V} (h : Good sf reg t) (hnew : sf.inflight reg key = none) :
    Good sf (sf.insert reg key) t := by
  have hunlisted {tx} (hopen : tx < reg.opened) (hun : Unlisted reg tx) :
      Unlisted (sf.insert reg key) tx := by
    intro i k hk
    rcases lookup_insert hk with ⟨_, _, rfl⟩ | hold
    · exact Nat.lt_irrefl _ hopen
    · exact hun i k hold
  cases t with
  | joining _ | saturated _ | received _ _ _ => exact trivial
  | leading k tx =>
    have hne : k ≠ key := by
      rintro rfl
      cases hnew.symm.trans h
    exact (inflight_insert_of_ne hne).trans h
  | sending k tx ended =>
    obtain ⟨hopen, hun, hquiet⟩ := h
    exact ⟨Nat.lt_succ_of_lt hopen, hunlisted hopen hun, hquiet⟩
  | published k tx ended =>
    obtain ⟨hopen, hun, hsent⟩ := h
    exact ⟨Nat.lt_succ_of_lt hopen, hunlisted hopen hun, hsent⟩
  | following k rx => exact ⟨Nat.lt_succ_of_lt h.1, h.2⟩

theorem Good.remove {t : Caller K V} (h : Good sf reg t) (hother : ∀ tx, t ≠ .leading key tx) :
    Good sf (sf.remove reg key) t := by
  cases t with
  | joining _ | saturated _ | received _ _ _ => exact trivial
  | leading k tx =>
    have hne : k ≠ key := by
      rintro rfl
      exact hother tx rfl
    exact (inflight_remove_of_ne hne).trans h
  | sending k tx ended =>
    obtain ⟨hopen, hun, hquiet⟩ := h
    exact ⟨hopen, fun i k' hk => hun i k' (lookup_remove hk), hquiet⟩
  | published k tx ended =>
    obtain ⟨hopen, hun, hsent⟩ := h
    exact ⟨hopen, fun i k' hk => hun i k' (lookup_remove hk), hsent⟩
  | following k rx => exact h

theorem Good.send {t : Caller K V} (value : Except FlightError V) (h : Good sf reg t)
    (hother : t.channel ≠ some tx) : Good sf (sf.send reg tx value) t := by
  cases t with
  | joining _ | saturated _ | received _ _ _ => exact trivial
  | leading k tx' | following k rx => exact h
  | sending k tx' ended | published k tx' ended =>
    have hne : tx' ≠ tx := fun he => hother (congrArg some he)
    exact ⟨h.1, h.2.1, (Function.update_of_ne hne ..).trans h.2.2⟩

theorem channel_opened {t : Caller K V} (hs : Sound sf reg) (h : Good sf reg t)
    (hc : t.channel = some tx) : tx < reg.opened := by
  cases t with
  | joining _ | saturated _ | received _ _ _ | following _ _ => cases hc
  | leading k tx' =>
    cases hc
    exact hs.opened h
  | sending k tx' ended | published k tx' ended =>
    cases hc
    exact h.1

variable {p q : Pool (Registry K V sf.shardCount) (Caller K V)} {id : Nat}
  {t : Caller K V} {a : CallerAction V}

theorem unlisted_remove (hs : Sound sf reg) (h : sf.inflight reg key = some tx) :
    Unlisted (sf.remove reg key) tx := by
  intro i k hk
  have hkey : k = key := hs.apart (lookup_remove hk) h
  subst hkey
  have hi : i = sf.shardIndex k := hs.placed (lookup_remove hk)
  subst hi
  rw [show ((sf.remove reg k).shards (sf.shardIndex k)).lookup k = none from
    inflight_remove_self k] at hk
  cases hk

theorem kept_of_act (hp : p.Inv (Sound sf) (Good sf)) (hx : p.Exclusive Caller.channel)
    (ht : p.tasks id = some t) {e} (he : sf.act p.shared t a = some e) :
    KeptIn (Sound sf) (Good sf) p id e := by
  obtain ⟨reg', next, rfl, hdoes⟩ := act_does he
  have hs := hp.shared
  have hgood := hp.tasks ht
  cases hdoes with
  | @followed key tx hfound =>
    refine .stay hs ?_ (fun _ hi => hp.tasks hi)
    rintro _ ⟨⟩
    refine ⟨hs.opened hfound, ?_⟩
    simp only [subscribe, hs.quiet hfound, Channel.quiet, List.length_nil]
  | shed | received _ =>
    refine .stay hs ?_ (fun _ hi => hp.tasks hi)
    rintro _ ⟨⟩
    exact trivial
  | @led key hnew hroom =>
    refine .stay (hs.insert hnew hroom) ?_ (fun _ hi => (hp.tasks hi).insert hnew)
    rintro _ ⟨⟩
    exact inflight_insert_self key
  | @removed key tx ended =>
    refine .stay (hs.remove key) ?_ ?_
    · rintro _ ⟨⟩
      exact ⟨hs.opened hgood, unlisted_remove hs hgood, hs.quiet hgood⟩
    · intro i u hne hi
      refine (hp.tasks hi).remove ?_
      -- Another leader of the key would have the same channel.
      rintro tx' rfl
      have htx : tx' = tx := Option.some.inj ((hp.tasks hi).symm.trans hgood)
      exact hne (hx hi ht (congrArg some htx) rfl)
  | @sent key tx ended =>
    obtain ⟨hopen, hun, hquiet⟩ := hgood
    refine .stay (hs.send _ hopen hun) ?_ ?_
    · rintro _ ⟨⟩
      refine ⟨hopen, hun, ?_⟩
      simp only [send, Function.update_self, hquiet]
    · intro i u hne hi
      exact (hp.tasks hi).send _ fun hc => hne (hx hi ht hc rfl)
  | abandoned =>
    refine .stay hs ?_ (fun _ hi => hp.tasks hi)
    rintro _ ⟨⟩

theorem takesFree_of_act (hp : p.Inv (Sound sf) (Good sf)) {e}
    (he : sf.act p.shared t a = some e) : TakesFree Caller.channel p t e := by
  obtain ⟨reg', next, rfl, hdoes⟩ := act_does he
  cases hdoes with
  | followed _ | shed => exact .stay nofun
  | led _ _ =>
    refine .take ?_
    rintro r ⟨⟩ i u hi hc
    exact Nat.lt_irrefl _ (channel_opened hp.shared (hp.tasks hi) hc)
  | removed | sent => exact .stay fun _ hr => hr
  | received _ => exact .stay nofun
  | abandoned => exact .quit

theorem led_of_act {e} (he : sf.act reg t a = some e) (hled : t.led = some x) :
    ∃ t', e.next = some t' ∧ t'.led = some x := by
  obtain ⟨reg', next, rfl, hdoes⟩ := act_does he
  cases hdoes with
  | removed | sent => exact ⟨_, rfl, hled⟩
  | followed _ | shed | led _ _ | received _ | abandoned => cases hled

/-! ### Whole runs -/

/-- A follower has the leader whose channel it subscribed to, and what it received is what that
leader published. -/
def Anchored (p : Pool (Registry K V sf.shardCount) (Caller K V)) : Caller K V → Prop
  | .following key rx => ∃ j u, p.tasks j = some u ∧ u.led = some (key, rx.channel)
  | .received key rx result =>
    ∃ j ended, p.tasks j = some (.published key rx.channel ended) ∧ result = ended.value
  | _ => True

structure Coherent (sf : SingleFlight K)
    (p : Pool (Registry K V sf.shardCount) (Caller K V)) : Prop where
  inv : p.Inv (Sound sf) (Good sf)
  exclusive : p.Exclusive Caller.channel
  registered : ∀ {key tx}, sf.inflight p.shared key = some tx →
    ∃ i, p.tasks i = some (.leading key tx)
  anchored : ∀ {i t}, p.tasks i = some t → Anchored p t

theorem coherent_initial : Coherent sf (sf.initial : Pool (Registry K V _) _) where
  inv :=
    { shared :=
        { placed := nofun, bounded := fun _ => Nat.zero_le _, opened := nofun, quiet := nofun
          apart := nofun, unused := fun _ => rfl }
      tasks := nofun }
  exclusive := nofun
  registered := nofun
  anchored := nofun

theorem recv_of_published {j : Nat} {ended : Publication V} (h : Coherent sf p)
    (ht : p.tasks id = some (.following key rx))
    (hj : p.tasks j = some (.published key rx.channel ended)) :
    (p.shared.channels rx.channel).recv rx.next = some (.ok ended.value) := by
  obtain ⟨_, hnext⟩ := h.inv.tasks ht
  obtain ⟨_, _, hsent⟩ := h.inv.tasks hj
  rw [hsent, hnext, Channel.recv_finish_quiet]

theorem published_of_recv {result} (h : Coherent sf p) (ht : p.tasks id = some (.following key rx))
    (hrecv : (p.shared.channels rx.channel).recv rx.next = some result) :
    ∃ j ended, p.tasks j = some (.published key rx.channel ended) ∧
      waited result = ended.value := by
  obtain ⟨j, u, hj, hled⟩ := h.anchored ht
  have hwaits (hquiet : p.shared.channels rx.channel = .quiet) : False := by
    rw [hquiet, Channel.recv_quiet] at hrecv
    cases hrecv
  have hgood := h.inv.tasks hj
  cases u with
  | joining _ | saturated _ | received _ _ _ | following _ _ => cases hled
  | leading k tx =>
    cases hled
    exact (hwaits (h.inv.shared.quiet hgood)).elim
  | sending k tx ended =>
    cases hled
    exact (hwaits hgood.2.2).elim
  | published k tx ended =>
    cases hled
    refine ⟨j, ended, hj, ?_⟩
    cases (recv_of_published h ht hj).symm.trans hrecv
    rfl

theorem anchored_of_act (h : Coherent sf p) (ht : p.tasks id = some t) {e}
    (he : sf.act p.shared t a = some e) :
    KeptIn (fun _ => True) (fun _ u => Anchored p u) p id e := by
  obtain ⟨reg', next, rfl, hdoes⟩ := act_does he
  refine .stay trivial ?_ (fun _ hi => h.anchored hi)
  rintro u ⟨⟩
  cases hdoes with
  | followed hfound =>
    obtain ⟨i, hi⟩ := h.registered hfound
    exact ⟨i, _, hi, rfl⟩
  | shed | led _ _ | removed | sent => exact trivial
  | received hrecv => exact published_of_recv h ht hrecv

variable {l : TaskLabel Empty K (CallerAction V)}

theorem wake_of_act {e} (he : sf.act reg t a = some e) (u : Caller K V) : e.wake u = u := by
  obtain ⟨reg', next, rfl, _⟩ := act_does he
  rfl

/-- What a caller is anchored to stays: a leader goes on leading its channel, and what was
published stays published. -/
theorem Anchored.step (hu : Anchored p u) (hstep : sf.program.step p l = some q) :
    Anchored q u := by
  cases u with
  | following key rx =>
    obtain ⟨j, v, hj, hled⟩ := hu
    have hkept {id t a e} (_ : p.tasks id = some t) (he : sf.act p.shared t a = some e) :
        (t.led = some (key, rx.channel) →
            ∃ t', e.next = some t' ∧ t'.led = some (key, rx.channel)) ∧
          ∀ u, u.led = some (key, rx.channel) → (e.wake u).led = some (key, rx.channel) :=
      ⟨led_of_act he, fun u hu => (wake_of_act he u).symm ▸ hu⟩
    obtain ⟨v', hj', hled'⟩ :=
      Program.kind_step (fun v => v.led = some (key, rx.channel)) hkept hstep hj hled
    exact ⟨j, v', hj', hled'⟩
  | received key rx result =>
    obtain ⟨j, ended, hj, hval⟩ := hu
    have hkept {id t a e} (_ : p.tasks id = some t) (he : sf.act p.shared t a = some e) :
        (t = .published key rx.channel ended →
          ∃ t', e.next = some t' ∧ t' = .published key rx.channel ended) ∧
          ∀ u, u = .published key rx.channel ended →
            e.wake u = .published key rx.channel ended := by
      refine ⟨?_, fun u hu => (wake_of_act he u).trans hu⟩
      rintro rfl
      cases he
    obtain ⟨v', hj', rfl⟩ :=
      Program.kind_step (fun v => v = .published key rx.channel ended) hkept hstep hj rfl
    exact ⟨j, ended, hj', hval⟩
  | _ => exact trivial

section

variable (h : Coherent sf p)
include h

theorem Coherent.anchored_step (hstep : sf.program.step p l = some q) {i : Nat}
    (hi : q.tasks i = some u) : Anchored q u := by
  have hold : q.Inv (fun _ => True) (fun _ u => Anchored p u) :=
    Program.inv_step_in ⟨trivial, h.anchored⟩ hstep (fun {e _} _ _ => e.elim)
      (fun _ => trivial) (fun _ ht he => anchored_of_act h ht he)
  exact (hold.tasks hi).step hstep

theorem Coherent.registered_step (hstep : sf.program.step p l = some q)
    (hkey : sf.inflight q.shared key = some tx) : ∃ i, q.tasks i = some (.leading key tx) := by
  cases Program.stepped hstep with
  | @env e s _ => exact e.elim
  | @start id b q hspawn =>
    obtain ⟨hfree, rfl⟩ := Pool.spawn_eq_some hspawn
    obtain ⟨i, hi⟩ := h.registered hkey
    have hne : i ≠ id := by
      rintro rfl
      cases hfree.symm.trans hi
    exact ⟨i, by simpa only [ne_eq, hne, not_false_eq_true, Function.update_of_ne] using hi⟩
  | @act id t a e q ht he happly =>
    have ha := Pool.applied_of_apply happly
    obtain ⟨reg', next, rfl, hdoes⟩ := act_does he
    rw [ha.shared] at hkey
    -- A leader other than the acting task is where it was.
    have hstays (hold : sf.inflight p.shared key = some tx) (hother : t ≠ .leading key tx) :
        ∃ i, q.tasks i = some (.leading key tx) := by
      obtain ⟨i, hi⟩ := h.registered hold
      have hne : i ≠ id := by
        rintro rfl
        exact hother (Option.some.inj (ht.symm.trans hi))
      exact ⟨i, ha.woken hne hi⟩
    cases hdoes with
    | followed _ | shed | sent | received _ | abandoned => exact hstays hkey nofun
    | @led k hnew hroom =>
      by_cases heq : key = k
      · subst heq
        cases (inflight_insert_self key).symm.trans hkey
        exact ⟨id, ha.own⟩
      · exact hstays ((inflight_insert_of_ne heq).symm.trans hkey) nofun
    | @removed k tx' ended =>
      by_cases heq : key = k
      · subst heq
        cases (inflight_remove_self key).symm.trans hkey
      · apply hstays ((inflight_remove_of_ne heq).symm.trans hkey)
        rintro ⟨⟩
        exact heq rfl

theorem coherent_step (hstep : sf.program.step p l = some q) :
    Coherent sf q where
  inv := Program.inv_step_in h.inv hstep (fun {e _} _ _ => e.elim) (fun _ => trivial)
    (fun _ ht he => kept_of_act h.inv h.exclusive ht he)
  exclusive := Program.exclusive_step (fun _ _ => rfl)
    (fun _ he => takesFree_of_act h.inv he) h.exclusive hstep
  registered := h.registered_step hstep
  anchored := h.anchored_step hstep

theorem Coherent.one_leader {i j : Nat} {tx' : Nat} (hi : p.tasks i = some (.leading key tx))
    (hj : p.tasks j = some (.leading key tx')) : i = j := by
  have htx : tx = tx' := Option.some.inj ((h.inv.tasks hi).symm.trans (h.inv.tasks hj))
  exact h.exclusive hi hj (congrArg some htx) rfl

theorem Coherent.mem_shard_iff (i : Fin sf.shardCount) (key : K) :
    key ∈ p.shared.shards i ↔
      i = sf.shardIndex key ∧ ∃ j tx, p.tasks j = some (.leading key tx) := by
  rw [← AList.lookup_isSome]
  constructor
  · intro hmem
    obtain ⟨tx, htx⟩ := Option.isSome_iff_exists.mp hmem
    have hi := h.inv.shared.placed htx
    subst hi
    obtain ⟨j, hj⟩ := h.registered htx
    exact ⟨rfl, j, tx, hj⟩
  · rintro ⟨rfl, j, tx, hj⟩
    exact Option.isSome_iff_exists.mpr ⟨tx, h.inv.tasks hj⟩

theorem Coherent.led_unique {i j : Nat} {v : Caller K V} (hi : p.tasks i = some u)
    (hj : p.tasks j = some v) (hu : u.led = some x) (hv : v.led = some x) : i = j :=
  h.exclusive hi hj (Caller.channel_of_led hu) (Caller.channel_of_led hv)

end

def LeaderOf (p : Pool (Registry K V sf.shardCount) (Caller K V)) (key : K) (rx : Receiver)
    (j : Nat) : Prop :=
  ∃ u, p.tasks j = some u ∧ u.led = some (key, rx.channel)

/-- What coalescing promises of a state: leaders and the keys of the shards match, and a follower
gets what its own leader published, once it has, and nothing else. -/
structure Coalesced (sf : SingleFlight K)
    (p : Pool (Registry K V sf.shardCount) (Caller K V)) : Prop where
  one_leader : ∀ {i j key tx tx'}, p.tasks i = some (.leading key tx) →
    p.tasks j = some (.leading key tx') → i = j
  mem_shard_iff : ∀ i key, key ∈ p.shared.shards i ↔
    i = sf.shardIndex key ∧ ∃ j tx, p.tasks j = some (.leading key tx)
  bounded : ∀ i, (p.shared.shards i).entries.length ≤ sf.maxInflightPerShard
  own_leader : ∀ {i key rx}, p.tasks i = some (.following key rx) → ∃! j, LeaderOf p key rx j
  delivered : ∀ {i j key rx ended}, p.tasks i = some (.following key rx) →
    p.tasks j = some (.published key rx.channel ended) →
    ((p.shared.channels rx.channel).recv rx.next).map waited = some ended.value
  waits : ∀ {i j key rx u}, p.tasks i = some (.following key rx) → LeaderOf p key rx j →
    p.tasks j = some u → (∀ ended, u ≠ .published key rx.channel ended) →
    (p.shared.channels rx.channel).recv rx.next = none
  received : ∀ {i key rx result}, p.tasks i = some (.received key rx result) →
    ∃ j, LeaderOf p key rx j ∧ (∀ j', LeaderOf p key rx j' → j' = j) ∧
      ∃ ended, p.tasks j = some (.published key rx.channel ended) ∧ result = ended.value

theorem Coherent.waits (h : Coherent sf p) {i j : Nat} (hi : p.tasks i = some (.following key rx))
    (hl : LeaderOf p key rx j) (hj : p.tasks j = some u)
    (hu : ∀ ended, u ≠ .published key rx.channel ended) :
    (p.shared.channels rx.channel).recv rx.next = none := by
  by_contra hsome
  obtain ⟨result, hrecv⟩ := Option.ne_none_iff_exists'.mp hsome
  obtain ⟨j', ended, hj', _⟩ := published_of_recv h hi hrecv
  obtain ⟨v, hv, hled⟩ := hl
  have hjj : j = j' := h.led_unique hv hj' hled rfl
  subst hjj
  exact hu ended (Option.some.inj (hj.symm.trans hj'))

theorem Coherent.coalesced (h : Coherent sf p) : Coalesced sf p where
  one_leader := h.one_leader
  mem_shard_iff := h.mem_shard_iff
  bounded := h.inv.shared.bounded
  own_leader hi := by
    obtain ⟨j, u, hj, hled⟩ := h.anchored hi
    refine ⟨j, ⟨u, hj, hled⟩, ?_⟩
    rintro j' ⟨v, hj', hled'⟩
    exact h.led_unique hj' hj hled' hled
  delivered hi hj := by
    rw [recv_of_published h hi hj]
    rfl
  waits := h.waits
  received hi := by
    obtain ⟨j, ended, hj, hval⟩ := h.anchored hi
    refine ⟨j, ⟨_, hj, rfl⟩, ?_, ended, hj, hval⟩
    rintro j' ⟨v, hj', hled'⟩
    exact h.led_unique hj' hj hled' rfl

/-- However joins, publications, drops and waits interleave, coalescing keeps its promise. -/
theorem flights_coalesced {labels : List (TaskLabel Empty K (CallerAction V))}
    (hr : run sf.program.step sf.initial labels = some p) : Coalesced sf p := by
  have hcoherent : Coherent sf p := invariant_of_free_run coherent_step coherent_initial hr
  exact hcoherent.coalesced

def twoShards : SingleFlight Nat where
  shardCount := 2
  maxInflightPerShard := 2
  hash := fun key => key
  nonempty := Nat.two_pos

/-- A third caller takes the lead between the two steps of the first one's publication. -/
def leadTaken : List (TaskLabel Empty Nat (CallerAction Nat)) :=
  [.start 0 5, .start 1 5, .start 2 5, .start 3 5, .act 0 .join, .act 1 .join,
    .act 0 (.publish (.complete 7)), .act 2 .join, .act 3 .join, .act 0 .send, .act 1 .recv,
    .act 2 (.publish .dropped), .act 2 .send, .act 3 .recv]

theorem flights_coalesced_lead_taken :
    ∃ p, run twoShards.program.step twoShards.initial leadTaken = some p ∧
      Coalesced twoShards p := by
  obtain ⟨p, hp⟩ := Option.isSome_iff_exists.mp
    (show (run twoShards.program.step twoShards.initial leadTaken).isSome = true by
      decide)
  exact ⟨p, hp, flights_coalesced hp⟩

end SingleFlight

end EgressDns
