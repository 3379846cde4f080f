import EgressDns.Upstream.Registry

/-!
# Addresses of named upstreams

`upstream/bootstrap.rs`: which names need a lookup before the listeners bind, what the lookups put
into the upstream tree, and which trees make the resolver wait on itself. What a lookup returns, and
whether the time was up before its turn, is an input.
-/

namespace EgressDns

abbrev Socket := IpAddr × Nat

/-- A name that needs addresses before it can be used. -/
structure Pending where
  group : Text
  server : Text
  host : Text

def pendingOf (group : Text) (s : ServerConfig) : Option Pending :=
  if s.addresses = [] then
    s.serverName.map fun host => { group, server := s.name, host }
  else none

def pending (tree : UpstreamConfig) : List Pending :=
  tree.groups.flatMap fun g => (g.servers.filter (·.enabled)).filterMap (pendingOf g.name)

/-- IPv4 before IPv6, then by address and port. -/
def socketLe : Socket → Socket → Bool
  | (.v4 a, p), (.v4 b, q) => a < b || (a == b && p ≤ q)
  | (.v4 _, _), (.v6 _, _) => true
  | (.v6 _, _), (.v4 _, _) => false
  | (.v6 a, p), (.v6 b, q) => a < b || (a == b && p ≤ q)

def seedResolvers (tree : UpstreamConfig) : List Socket :=
  let sockets := tree.groups.flatMap fun g =>
    (g.servers.filter fun s => s.enabled && s.serverName.isNone).flatMap fun s =>
      s.addresses.map fun addr => (addr, s.effectivePort)
  (sockets.mergeSort socketLe).eraseReps

def isUnspecified : IpAddr → Bool
  | .v4 a => a == 0
  | .v6 a => a == 0

def isLoopback : IpAddr → Bool
  | .v4 a => a >>> 24 == 127
  | .v6 a => a == 1

def isKnownStub (a : IpAddr) : Bool := a == .v4 0x7f000035 || a == .v4 0x7f000036

structure Cycle where
  path : List Text

def Cycle.text (c : Cycle) : Text := (ascii " -> ").intercalate c.path

/-- The listeners of a configuration and the addresses of this host. -/
structure Surroundings where
  udpListen : List Socket
  tcpListen : List Socket
  localAddresses : List IpAddr

def Surroundings.listeners (env : Surroundings) : List Socket := env.udpListen ++ env.tcpListen

def cycleAt (lib : ConfigLib) (env : Surroundings) (s : ServerConfig) (addr : IpAddr) :
    Option Cycle :=
  let port := s.effectivePort
  let direct := (addr, port) ∈ env.listeners
  let wildcard := (∃ l ∈ env.listeners, isUnspecified l.1 = true ∧ l.2 = port) ∧
    (isLoopback addr = true ∨ addr ∈ env.localAddresses)
  let upstream := ascii "upstream " ++ quoted s.name ++ ascii " at " ++ lib.socketText addr port
  if direct ∨ wildcard then
    some { path := [ascii "egressdns", upstream, ascii "egressdns"] }
  else if isKnownStub addr = true ∧ ∃ l ∈ env.listeners, l.2 = 53 then
    some { path := [ascii "egressdns", upstream ++ ascii " (local stub resolver)",
      ascii "egressdns"] }
  else none

def detectCycles (lib : ConfigLib) (env : Surroundings) (tree : UpstreamConfig) : List Cycle :=
  tree.groups.flatMap fun g => (g.servers.filter (·.enabled)).flatMap fun s =>
    s.addresses.filterMap (cycleAt lib env s)

section Lookups

/-- What the lookups return, by the place of the name in the list; `none` is a lookup that took
too long. -/
structure Lookups where
  late : Nat → Bool
  viaSeeds : Nat → Text → List Socket → Option (Except Text (List IpAddr))
  viaSystem : Nat → Text → Option (Except Text (List IpAddr))

variable (l : Lookups)

/-- The configured addresses first, then the system resolver. -/
def Lookups.lookup (seeds : List Socket) (i : Nat) (host : Text) : Except Text (List IpAddr) :=
  match if seeds = [] then none else l.viaSeeds i host seeds with
  | some (.ok (a :: rest)) => .ok (a :: rest)
  | _ =>
    match l.viaSystem i host with
    | some result => result
    | none => .error (ascii "timed out")

def Lookups.turn (seeds : List Socket) (i : Nat) (host : Text) : Except Text (List IpAddr) :=
  if l.late i then .error (ascii "the bootstrap phase ran out of time")
  else match l.lookup seeds i host with
    | .ok [] => .error (ascii "no addresses were returned")
    | result => result

structure Report where
  resolved : List (Text × List IpAddr)
  failed : List (Text × Text)

def fill (host : Text) (addrs : List IpAddr) (s : ServerConfig) : ServerConfig :=
  if s.addresses = [] ∧ s.serverName = some host then { s with addresses := addrs } else s

def UpstreamConfig.mapServers (f : ServerConfig → ServerConfig) (tree : UpstreamConfig) :
    UpstreamConfig :=
  { tree with groups := tree.groups.map fun g => { g with servers := g.servers.map f } }

variable (tree : UpstreamConfig)

def applyAddresses (found : Text × List IpAddr) : UpstreamConfig :=
  tree.mapServers (fill found.1 found.2)

def foundIn (turns : List (Text × Except Text (List IpAddr))) : List (Text × List IpAddr) :=
  turns.filterMap fun t => match t.2 with
    | .ok addrs => some (t.1, addrs)
    | .error _ => none

def failedIn (turns : List (Text × Except Text (List IpAddr))) : List (Text × Text) :=
  turns.filterMap fun t => match t.2 with
    | .ok _ => none
    | .error e => some (t.1, e)

def Lookups.turns : List (Text × Except Text (List IpAddr)) :=
  (pending tree).zipIdx.map fun p => (p.1.host, l.turn (seedResolvers tree) p.2 p.1.host)

def resolvePending : UpstreamConfig × Report :=
  let found := foundIn (l.turns tree)
  (found.foldl applyAddresses tree, { resolved := found, failed := failedIn (l.turns tree) })

end Lookups

section Facts

variable {l : Lookups} {tree : UpstreamConfig} {s : ServerConfig}

def Lookups.Silent (l : Lookups) (seeds : List Socket) (i : Nat) (host : Text) : Prop :=
  l.late i = true ∨
  (seeds = [] ∨ ∀ a rest, l.viaSeeds i host seeds ≠ some (.ok (a :: rest))) ∧
    ∀ a rest, l.viaSystem i host ≠ some (.ok (a :: rest))

variable {seeds : List Socket} {host : Text} {i : Nat} {addrs : List IpAddr}
  {found : List (Text × List IpAddr)}

theorem lookup_eq_of_system
    (h : seeds = [] ∨ ∀ a rest, l.viaSeeds i host seeds ≠ some (.ok (a :: rest))) :
    l.lookup seeds i host = (l.viaSystem i host).getD (.error (ascii "timed out")) := by
  unfold Lookups.lookup
  split
  · rename_i a rest hsome
    split at hsome
    · cases hsome
    · rename_i hne
      exact absurd hsome (h.resolve_left hne a rest)
  · cases l.viaSystem i host with
    | none | some result => rfl

theorem turn_ok_iff : (∃ addrs, l.turn seeds i host = .ok addrs) ↔ ¬l.Silent seeds i host := by
  cases hlate : l.late i with
  | true => simp [Lookups.turn, Lookups.Silent, hlate]
  | false =>
    have hturn : (∃ addrs, l.turn seeds i host = .ok addrs) ↔
        ∃ a rest, l.lookup seeds i host = .ok (a :: rest) := by
      simp only [Lookups.turn, hlate]
      cases l.lookup seeds i host with
      | error e => simp
      | ok addrs => cases addrs <;> simp
    rw [hturn]
    by_cases hseeds : seeds = [] ∨ ∀ a rest, l.viaSeeds i host seeds ≠ some (.ok (a :: rest))
    · rw [lookup_eq_of_system hseeds]
      simp only [Lookups.Silent, hlate, hseeds, true_and, false_or, Bool.false_eq_true]
      cases l.viaSystem i host with
      | none | some result => simp
    · have hboth := not_or.mp hseeds
      obtain ⟨a, rest, hfound⟩ : ∃ a rest, l.viaSeeds i host seeds = some (.ok (a :: rest)) := by
        simpa using hboth.2
      simp [Lookups.Silent, Lookups.lookup, hlate, hboth.1, hfound]

theorem turn_ne_nil (h : l.turn seeds i host = .ok addrs) : addrs ≠ [] := by
  unfold Lookups.turn at h
  split at h
  · cases h
  · split at h
    · cases h
    · rename_i hne
      rintro rfl
      exact hne h

theorem mem_foundIn {found : Text × List IpAddr} : found ∈ foundIn (l.turns tree) ↔
    ∃ i p, (pending tree)[i]? = some p ∧ p.host = found.1 ∧
      l.turn (seedResolvers tree) i p.host = .ok found.2 := by
  simp only [foundIn, Lookups.turns, List.mem_filterMap, List.mem_map]
  constructor
  · rintro ⟨turn, ⟨⟨p, i⟩, hp, rfl⟩, heq⟩
    split at heq
    · rename_i addrs hok
      cases heq
      exact ⟨i, p, List.mk_mem_zipIdx_iff_getElem?.mp hp, rfl, hok⟩
    · cases heq
  · rintro ⟨i, p, hp, hhost, hok⟩
    refine ⟨(p.host, l.turn (seedResolvers tree) i p.host), ⟨(p, i), ?_, rfl⟩, ?_⟩
    · exact List.mk_mem_zipIdx_iff_getElem?.mpr hp
    · simp only [hok]
      rw [hhost]

theorem foundIn_eq_nil_iff : foundIn (l.turns tree) = [] ↔
    ∀ i p, (pending tree)[i]? = some p → l.Silent (seedResolvers tree) i p.host := by
  rw [List.eq_nil_iff_forall_not_mem]
  constructor
  · intro h i p hp
    by_contra hsilent
    obtain ⟨addrs, hok⟩ := turn_ok_iff.mpr hsilent
    exact h (p.host, addrs) (mem_foundIn.mpr ⟨i, p, hp, rfl, hok⟩)
  · intro h found hfound
    obtain ⟨i, p, hp, -, hok⟩ := mem_foundIn.mp hfound
    exact turn_ok_iff.mp ⟨_, hok⟩ (h i p hp)

def fillAll (found : List (Text × List IpAddr)) (s : ServerConfig) : ServerConfig :=
  found.foldl (fun s f => fill f.1 f.2 s) s

theorem mapServers_mapServers (f g : ServerConfig → ServerConfig) :
    (tree.mapServers f).mapServers g = tree.mapServers fun s => g (f s) := by
  simp [UpstreamConfig.mapServers, Function.comp_def]

theorem foldl_applyAddresses (found : List (Text × List IpAddr)) :
    found.foldl applyAddresses tree = tree.mapServers (fillAll found) := by
  induction found generalizing tree with
  | nil =>
    have hid : fillAll [] = id := rfl
    simp [UpstreamConfig.mapServers, hid]
  | cons f rest ih =>
    rw [List.foldl_cons, ih, applyAddresses, mapServers_mapServers]
    rfl

theorem fill_of_addresses (h : s.addresses ≠ []) :
    fill host addrs s = s := if_neg fun hs => h hs.1

theorem fillAll_of_addresses (h : s.addresses ≠ []) : fillAll found s = s := by
  induction found with
  | nil => rfl
  | cons f rest ih => rw [fillAll, List.foldl_cons, fill_of_addresses h, ← fillAll, ih]

theorem fillAll_eq (found : List (Text × List IpAddr)) (s : ServerConfig) :
    ∃ addrs, fillAll found s = { s with addresses := addrs } := by
  induction found generalizing s with
  | nil => exact ⟨s.addresses, rfl⟩
  | cons f rest ih =>
    obtain ⟨addrs, h⟩ := ih (fill f.1 f.2 s)
    refine ⟨addrs, ?_⟩
    rw [fillAll, List.foldl_cons, ← fillAll, h, fill]
    split
    · rfl
    · rfl

theorem serverName_fill (host : Text) (addrs : List IpAddr) (s : ServerConfig) :
    (fill host addrs s).serverName = s.serverName := by
  unfold fill
  split
  · rfl
  · rfl

theorem fillAll_addresses_ne_nil {f : Text × List IpAddr} (hmem : f ∈ found)
    (hne : ∀ f ∈ found, f.2 ≠ []) (hname : s.serverName = some f.1) :
    (fillAll found s).addresses ≠ [] := by
  induction found generalizing s with
  | nil => cases hmem
  | cons g rest ih =>
    rw [fillAll, List.foldl_cons, ← fillAll]
    rcases List.mem_cons.mp hmem with rfl | hrest
    · have hfilled : (fill f.1 f.2 s).addresses ≠ [] := by
        by_cases haddr : s.addresses = []
        · rw [fill, if_pos ⟨haddr, hname⟩]
          exact hne f List.mem_cons_self
        · rw [fill_of_addresses haddr]
          exact haddr
      rw [fillAll_of_addresses hfilled]
      exact hfilled
    · apply ih hrest fun h hh => hne h (List.mem_cons_of_mem g hh)
      rw [serverName_fill]
      exact hname

theorem mem_pending {p : Pending} (h : p ∈ pending tree) : ∃ g ∈ tree.groups, ∃ s ∈ g.servers,
    s.enabled = true ∧ s.addresses = [] ∧ s.serverName = some p.host := by
  obtain ⟨g, hg, hp⟩ := List.mem_flatMap.mp h
  obtain ⟨s, hs, hof⟩ := List.mem_filterMap.mp hp
  obtain ⟨hs, henabled⟩ := List.mem_filter.mp hs
  unfold pendingOf at hof
  split at hof
  · rename_i haddr
    obtain ⟨host, hname, rfl⟩ := Option.map_eq_some_iff.mp hof
    exact ⟨g, hg, s, hs, henabled, haddr, hname⟩
  · cases hof

end Facts

end EgressDns
