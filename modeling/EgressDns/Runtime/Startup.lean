import EgressDns.Config.Expansion
import EgressDns.Config.File
import EgressDns.Runtime.App
import EgressDns.Upstream.Bootstrap

/-!
# Starting and reloading

The two ways a configuration becomes routes. At start (`bin/egressdnsd.rs`) it goes through
`expand_auto` and `bootstrap`, a reload (`App::reload`) builds from the file as it is. Whatever else
a runtime state is built from succeeds or fails in the label of the attempt.
-/

namespace EgressDns

open Lib

/-- What start-up finds on the host. `fixed` is what `restart_required` compares. -/
structure Host (R : Type) where
  udpListen : R → List Socket
  tcpListen : R → List Socket
  fixed : R → AppConfig
  localAddresses : List IpAddr
  gateway : GatewayProbe
  region : Region
  lookups : Lookups
  scheduler : SchedulerConfig

/-- A build of the runtime state: the cookies it draws, and how everything else went. -/
structure Attempt where
  cookie : RouteKey → List UInt8
  other : Except Text Unit

inductive StartError where
  | cycle (text : Text)
  | upstream (e : ResolveError)
  | other (text : Text)

inductive ReloadFailure where
  | invalid (e : ConfigError)
  | restartRequired (fields : List RestartField)
  | upstream (e : ResolveError)
  | other (text : Text)

structure Running (R : Type) where
  settings : Settings R
  registry : UpstreamRegistry

section Start

variable {R : Type} (lib : ConfigLib) (host : Host R)

/-- A route that came from the gateway is no second opinion. -/
def markForwarder (gateway : Option IpAddr) (s : ServerConfig) : ServerConfig :=
  match gateway with
  | some a => if a ∈ s.addresses then { s with role := .localForwarder } else s
  | none => s

def expandAuto (cfg : Settings R) : Settings R :=
  if cfg.upstreams.any isAuto then
    let upstreams := measured (autoExpand lib host.gateway host.region) cfg.upstreams
    let cfg := { cfg with upstreams, localForwarder := host.gateway.address }
    match buildUpstreams lib upstreams with
    | .ok tree => { cfg with upstream := tree.mapServers (markForwarder host.gateway.address) }
    | .error _ => cfg
  else cfg

def surroundings (rest : R) : Surroundings where
  udpListen := host.udpListen rest
  tcpListen := host.tcpListen rest
  localAddresses := host.localAddresses

def bootstrap (cfg : Settings R) : Except StartError (Settings R) :=
  let cfg := expandAuto lib host cfg
  let cycles := detectCycles lib (surroundings host cfg.rest) cfg.upstream
  if cycles = [] then
    .ok { cfg with upstream := (resolvePending host.lookups cfg.upstream).1 }
  else .error (.cycle (ascii "the upstream configuration depends on this resolver: " ++
    (ascii "; ").intercalate (cycles.map Cycle.text)))

def start (a : Attempt) (cfg : Settings R) : Except StartError (Running R) := do
  let cfg ← bootstrap lib host cfg
  a.other.mapError StartError.other
  let registry ← (UpstreamRegistry.build lib a.cookie host.scheduler cfg.upstream
    cfg.proxy).mapError StartError.upstream
  pure { settings := cfg, registry }

variable (file : Except ConfigError (Settings R))

/-- A candidate replaces everything or nothing. -/
def candidateState (a : Attempt) (s : Running R) :
    Except ReloadFailure (Running R) := do
  let candidate ← file.mapError ReloadFailure.invalid
  match restartRequired (host.fixed s.settings.rest) (host.fixed candidate.rest) with
  | [] =>
    a.other.mapError ReloadFailure.other
    let registry ← (UpstreamRegistry.build lib a.cookie host.scheduler candidate.upstream
      candidate.proxy).mapError ReloadFailure.upstream
    pure { settings := candidate, registry }
  | fields => .error (.restartRequired fields)

def reload (s : Running R) (a : Attempt) : Running R :=
  match candidateState lib host file a s with
  | .ok s' => s'
  | .error _ => s

def reloads (s : Running R) (attempts : List Attempt) : Running R :=
  attempts.foldl (reload lib host file) s

end Start

def SameRoutes (r r' : UpstreamRegistry) : Prop :=
  ∀ group key, key ∈ r.keys group ↔ key ∈ r'.keys group

section Trees

variable {lib : ConfigLib} {cookie : RouteKey → List UInt8} {scheduler : SchedulerConfig}
  {proxies : List ProxyEndpoint} {servers : List ServerConfig} {r : UpstreamRegistry}

def treeKeys (lib : ConfigLib) (proxies : List ProxyEndpoint) (servers : List ServerConfig) :
    List RouteKey :=
  (servers.filter (·.enabled)).flatMap fun s =>
    s.addresses.flatMap (addressKeys lib (egressPaths proxies) s)

theorem keys_treeOf (h : UpstreamRegistry.build lib cookie scheduler (treeOf servers) proxies = .ok r)
    (group : String) : r.keys group =
      if group = asString (ascii "default") then treeKeys lib proxies servers else [] := by
  obtain ⟨groups, hmap, hr⟩ := bind_eq_ok_iff.mp h
  cases hr
  cases mapM_eq_ok_iff.mp hmap with
  | cons hgroup hnil =>
    cases hnil
    obtain ⟨routes, hroutes, heq⟩ := bind_eq_ok_iff.mp hgroup
    cases heq
    by_cases hname : group = asString (ascii "default")
    · rw [if_pos hname, treeKeys, ← keys_of_group hroutes]
      simp [UpstreamRegistry.keys, insertGroup, hname]
    · rw [if_neg hname]
      simp [UpstreamRegistry.keys, insertGroup, Ne.symm hname]

variable {servers' : List ServerConfig} {s : ServerConfig}

theorem sameRoutes_treeOf {cookie' : RouteKey → List UInt8} {r' : UpstreamRegistry}
    (h : UpstreamRegistry.build lib cookie scheduler (treeOf servers) proxies = .ok r)
    (h' : UpstreamRegistry.build lib cookie' scheduler (treeOf servers') proxies = .ok r') :
    SameRoutes r r' ↔
      ∀ key, key ∈ treeKeys lib proxies servers ↔ key ∈ treeKeys lib proxies servers' := by
  simp only [SameRoutes, keys_treeOf h, keys_treeOf h']
  constructor
  · intro hsame key
    simpa using hsame (asString (ascii "default")) key
  · intro hsame group key
    split
    · exact hsame key
    · exact Iff.rfl

theorem mem_treeKeys {key : RouteKey} (h : key ∈ treeKeys lib proxies servers) :
    ∃ s ∈ servers, ∃ addr ∈ s.addresses, Reaches s addr key := by
  obtain ⟨s, hs, hkey⟩ := List.mem_flatMap.mp h
  obtain ⟨addr, haddr, hkey⟩ := List.mem_flatMap.mp hkey
  exact ⟨s, List.mem_of_mem_filter hs, addr, haddr, reaches_of_mem hkey⟩

theorem not_same_of_server (addr : IpAddr) (hs : s ∈ servers) (henabled : s.enabled = true)
    (haddr : addr ∈ s.addresses)
    (hother : ∀ s' ∈ servers', s'.name = s.name → s'.role = s.role → addr ∉ s'.addresses) :
    ¬∀ key, key ∈ treeKeys lib proxies servers ↔ key ∈ treeKeys lib proxies servers' := by
  intro hsame
  obtain ⟨key, hkey⟩ := exists_mem_addressKeys lib proxies s addr
  have hreach := reaches_of_mem hkey
  have hmem : key ∈ treeKeys lib proxies servers :=
    List.mem_flatMap.mpr ⟨s, List.mem_filter.mpr ⟨hs, henabled⟩,
      List.mem_flatMap.mpr ⟨addr, haddr, hkey⟩⟩
  obtain ⟨s', hs', addr', haddr', hreach'⟩ := mem_treeKeys ((hsame key).mp hmem)
  have hname : s'.name = s.name := asString_injective (hreach'.server.symm.trans hreach.server)
  have hrole : s'.role = s.role := hreach'.role.symm.trans hreach.role
  have heq : addr' = addr := hreach'.addr.symm.trans hreach.addr
  exact hother s' hs' hname hrole (heq ▸ haddr')

theorem exists_pathRoutes {addr : IpAddr} {all paths : List Egress} (h : requireName s = .ok ()) :
    ∃ routes, pathRoutes lib cookie all s addr paths = .ok routes := by
  induction paths with
  | nil => exact ⟨[], rfl⟩
  | cons e rest ih =>
    obtain ⟨more, hmore⟩ := ih
    simp only [pathRoutes, h, hmore, bind, Except.bind, pure, Except.pure]
    split
    · split
      · exact ⟨_, rfl⟩
      · exact ⟨_, rfl⟩
    · exact ⟨more, rfl⟩

theorem exists_build_treeOf (lib : ConfigLib) (cookie : RouteKey → List UInt8)
    (scheduler : SchedulerConfig) (proxies : List ProxyEndpoint)
    (h : ∀ s ∈ servers, s.transport.isEncrypted = true → s.serverName ≠ none) :
    ∃ r, UpstreamRegistry.build lib cookie scheduler (treeOf servers) proxies = .ok r := by
  have hserver : ∀ s ∈ servers.filter (·.enabled),
      ∃ routes, serverRoutes lib cookie (egressPaths proxies) s = .ok routes := by
    intro s hs
    have hname : requireName s = .ok () := by
      apply if_neg
      rintro ⟨hencrypted, hnone⟩
      exact h s (List.mem_of_mem_filter hs) hencrypted hnone
    have hpaths : ∀ addr ∈ s.addresses, ∃ routes,
        pathRoutes lib cookie (egressPaths proxies) s addr (egressPaths proxies) = .ok routes :=
      fun addr _ => exists_pathRoutes hname
    obtain ⟨lists, hlists⟩ := exists_mapM_ok hpaths
    exact ⟨_, map_eq_ok_iff.mpr ⟨lists, hlists, rfl⟩⟩
  obtain ⟨lists, hlists⟩ := exists_mapM_ok hserver
  have hroutes : groupRoutes lib cookie proxies ⟨ascii "default", servers⟩ = .ok lists.flatten :=
    map_eq_ok_iff.mpr ⟨lists, hlists, rfl⟩
  have hmap : List.Forall₂ (fun (g : GroupConfig) (out : UpstreamGroup) =>
      (do
        let routes ← groupRoutes lib cookie proxies g
        pure ({ name := asString g.name, routes, scheduler } : UpstreamGroup)) = .ok out)
      (treeOf servers).groups
      [{ name := asString (ascii "default"), routes := lists.flatten, scheduler }] :=
    .cons (bind_eq_ok_iff.mpr ⟨_, hroutes, rfl⟩) .nil
  exact ⟨_, bind_eq_ok_iff.mpr ⟨_, mapM_eq_ok_iff.mpr hmap, rfl⟩⟩

end Trees

section Compare

variable {R : Type} {lib : ConfigLib} {host : Host R} {cfg : Settings R}

/-- Nothing that start-up finds adds to what the file says. -/
structure Unmeasured (host : Host R) (cfg : Settings R) : Prop where
  auto : (∀ e ∈ cfg.upstreams, isAuto e = false) ∨
    host.gateway.address = none ∧ host.region = .global
  names : ∀ i p, (pending cfg.upstream)[i]? = some p →
    host.lookups.Silent (seedResolvers cfg.upstream) i p.host

theorem expandAuto_of_no_auto (h : ∀ e ∈ cfg.upstreams, isAuto e = false) :
    expandAuto lib host cfg = cfg := by
  have hany : cfg.upstreams.any isAuto = false := by simpa using h
  simp [expandAuto, hany]

theorem expandAuto_of_auto {servers : List ServerConfig} (h : ∃ e ∈ cfg.upstreams, isAuto e = true)
    (hbuild : buildUpstreams lib (measured (autoExpand lib host.gateway host.region)
      cfg.upstreams) = .ok (treeOf servers)) :
    (expandAuto lib host cfg).upstream =
        treeOf (servers.map (markForwarder host.gateway.address)) ∧
      (expandAuto lib host cfg).proxy = cfg.proxy ∧ (expandAuto lib host cfg).rest = cfg.rest := by
  have hany : cfg.upstreams.any isAuto = true := List.any_eq_true.mpr h
  simp only [expandAuto, hany, if_true, hbuild]
  exact ⟨rfl, trivial, trivial⟩

theorem expandAuto_rest : (expandAuto lib host cfg).rest = cfg.rest := by
  simp only [expandAuto]
  split
  · split
    · rfl
    · rfl
  · rfl

theorem bootstrap_eq_ok {cfg' : Settings R} (h : bootstrap lib host cfg = .ok cfg') :
    cfg'.upstream = (expandAuto lib host cfg).upstream.mapServers
        (fillAll (foundIn (host.lookups.turns (expandAuto lib host cfg).upstream))) ∧
      cfg'.proxy = (expandAuto lib host cfg).proxy ∧ cfg'.rest = (expandAuto lib host cfg).rest := by
  simp only [bootstrap] at h
  split at h
  · cases h
    exact ⟨foldl_applyAddresses _, rfl, rfl⟩
  · cases h

theorem markForwarder_none : markForwarder none = id := by
  funext s
  rfl

theorem markForwarder_eq (gateway : Option IpAddr) (s : ServerConfig) :
    ∃ role, markForwarder gateway s = { s with role := role } := by
  cases gateway with
  | none => exact ⟨s.role, rfl⟩
  | some a =>
    simp only [markForwarder]
    split
    · exact ⟨.localForwarder, rfl⟩
    · exact ⟨s.role, rfl⟩

variable {entries : List Text} {servers : List ServerConfig}
  (hof : TreeOf lib (autoExpand lib (.rejected .noGateway) .global) cfg.upstreams entries servers)
include hof

theorem expandAuto_of_unmeasured (htree : cfg.upstream = treeOf servers) (hne : servers ≠ [])
    (h : (∀ e ∈ cfg.upstreams, isAuto e = false) ∨
      host.gateway.address = none ∧ host.region = .global) :
    (expandAuto lib host cfg).upstream = cfg.upstream ∧
      (expandAuto lib host cfg).proxy = cfg.proxy ∧ (expandAuto lib host cfg).rest = cfg.rest := by
  by_cases hauto : ∃ e ∈ cfg.upstreams, isAuto e = true
  · obtain ⟨hgateway, hregion⟩ := h.resolve_left fun hno => by
      obtain ⟨e, he, hyes⟩ := hauto
      rw [hno e he] at hyes
      cases hyes
    have hsame : autoExpand lib host.gateway host.region =
        autoExpand lib (.rejected .noGateway) .global := by
      rw [autoExpand, hgateway, hregion]
      rfl
    have hbuild := hof.buildUpstreams_measured (fun e he => (mem_autoExpand he).2) hne
    rw [← hsame] at hbuild
    obtain ⟨hup, hproxy, hrest⟩ := expandAuto_of_auto hauto hbuild
    refine ⟨?_, hproxy, hrest⟩
    rw [hup, hgateway, markForwarder_none, List.map_id, htree]
  · have hno : ∀ e ∈ cfg.upstreams, isAuto e = false := by simpa using hauto
    rw [expandAuto_of_no_auto hno]
    exact ⟨rfl, rfl, rfl⟩

/-- What was measured shows in the routes: the gateway by its role, another region by the address
that stands in the place of the first one. -/
theorem expandAuto_of_measured (found : List (Text × List IpAddr)) (proxies : List ProxyEndpoint)
    (hauto : ∃ e ∈ cfg.upstreams, isAuto e = true)
    (h : host.gateway.address ≠ none ∨ host.region ≠ .global) :
    ∃ servers₀, (expandAuto lib host cfg).upstream = treeOf servers₀ ∧
      ((expandAuto lib host cfg).proxy = cfg.proxy ∧ (expandAuto lib host cfg).rest = cfg.rest) ∧
      ¬∀ key, key ∈ treeKeys lib proxies (servers₀.map (fillAll found)) ↔
        key ∈ treeKeys lib proxies servers := by
  obtain ⟨entries', servers', hof', hbuild⟩ :=
    exists_measured_tree hof hauto host.gateway host.region
  obtain ⟨hup, hsame⟩ := expandAuto_of_auto hauto hbuild
  refine ⟨_, hup, hsame, ?_⟩
  obtain ⟨before, after, rest, heq, heq'⟩ := hof.at_auto hof' hauto
  obtain ⟨rest₀, hcons⟩ := autoExpand_eq_cons lib (.rejected .noGateway) .global
  have hfrom := hof.servers
  have hfrom' := hof'.servers
  rw [heq, hcons, List.cons_append] at hfrom
  rw [heq'] at hfrom'
  obtain ⟨hserver', -⟩ := server_of_address hfrom'
  obtain ⟨-, hplace⟩ := server_of_address hfrom
  obtain ⟨role, hmark⟩ := markForwarder_eq host.gateway.address
    (addressServer before.length (firstAddress host.gateway host.region))
  have hmem : markForwarder host.gateway.address
      (addressServer before.length (firstAddress host.gateway host.region)) ∈
      (servers'.map (markForwarder host.gateway.address)).map (fillAll found) := by
    refine List.mem_map.mpr ⟨_, List.mem_map.mpr ⟨_, hserver', rfl⟩, fillAll_of_addresses ?_⟩
    rw [hmark]
    simp [addressServer]
  apply not_same_of_server (firstAddress host.gateway host.region) hmem
  · rw [hmark]
    rfl
  · rw [hmark]
    exact List.mem_cons_self
  · intro s hs hname hrole
    cases hgateway : host.gateway.address with
    | some g =>
      -- No server of the file is a forwarder.
      have hauthority : s.role = .authority := by
        obtain ⟨i, e, these, -, hthese, hmem⟩ := exists_entry_of_mem hof.servers hs
        exact ((serversOf_eq_ok hthese).2.1 s hmem).role
      have hfirst : firstAddress host.gateway host.region = g := by
        simp only [firstAddress, hgateway, Option.getD_some]
      have hlisted : g ∈ (addressServer before.length g).addresses := List.mem_cons_self
      rw [hauthority, hgateway, hfirst, markForwarder, if_pos hlisted] at hrole
      cases hrole
    | none =>
      have hchina : host.region = .china := by
        cases hregion : host.region with
        | china => rfl
        | global => simp [hgateway, hregion] at h
      have hfirst : firstAddress host.gateway host.region = .v4 0xDF050505 := by
        simp only [firstAddress, hgateway, hchina, Option.getD_none]
      rw [hgateway, markForwarder_none] at hname
      rw [hplace s hs hname, hfirst]
      decide

theorem not_same_of_found (htree : cfg.upstream = treeOf servers) (proxies : List ProxyEndpoint)
    (h : foundIn (host.lookups.turns cfg.upstream) ≠ []) :
    ¬∀ key, key ∈ treeKeys lib proxies
        (servers.map (fillAll (foundIn (host.lookups.turns cfg.upstream)))) ↔
      key ∈ treeKeys lib proxies servers := by
  obtain ⟨f, hf⟩ := List.exists_mem_of_ne_nil _ h
  have hne : ∀ f ∈ foundIn (host.lookups.turns cfg.upstream), f.2 ≠ [] := by
    intro g hg
    obtain ⟨i, p, -, -, hok⟩ := mem_foundIn.mp hg
    exact turn_ne_nil hok
  obtain ⟨i, p, hp, hhost, -⟩ := mem_foundIn.mp hf
  obtain ⟨g, hg, s, hs, henabled, hempty, hname⟩ := mem_pending (List.mem_of_getElem? hp)
  rw [htree] at hg
  rw [List.mem_singleton.mp hg] at hs
  obtain ⟨addrs, hfill⟩ := fillAll_eq (foundIn (host.lookups.turns cfg.upstream)) s
  have hfilled := fillAll_addresses_ne_nil hf hne (hhost ▸ hname)
  obtain ⟨addr, haddr⟩ := List.exists_mem_of_ne_nil _ hfilled
  apply not_same_of_server addr (List.mem_map.mpr ⟨s, hs, rfl⟩) _ haddr
  · intro s' hs' hsame _ hmem
    rw [hfill] at hsame
    rw [eq_of_serverName_eq hof.servers hs' hs hsame, hempty] at hmem
    cases hmem
  · rw [hfill]
    exact henabled

theorem start_same_iff {cookie cookie' : RouteKey → List UInt8} {cfg' : Settings R}
    {r r' : UpstreamRegistry} (htree : cfg.upstream = treeOf servers) (hne : servers ≠ [])
    (hboot : bootstrap lib host cfg = .ok cfg')
    (hr : UpstreamRegistry.build lib cookie host.scheduler cfg'.upstream cfg'.proxy = .ok r)
    (hr' : UpstreamRegistry.build lib cookie' host.scheduler cfg.upstream cfg.proxy = .ok r') :
    SameRoutes r r' ↔ Unmeasured host cfg := by
  obtain ⟨hup, hproxy, -⟩ := bootstrap_eq_ok hboot
  rw [hup, hproxy] at hr
  rw [htree] at hr'
  by_cases hauto : (∀ e ∈ cfg.upstreams, isAuto e = false) ∨
      host.gateway.address = none ∧ host.region = .global
  · obtain ⟨hsame, hproxy, -⟩ := expandAuto_of_unmeasured hof htree hne hauto
    rw [hsame, hproxy] at hr
    have hmap : cfg.upstream.mapServers (fillAll (foundIn (host.lookups.turns cfg.upstream))) =
        treeOf (servers.map (fillAll (foundIn (host.lookups.turns cfg.upstream)))) := by
      rw [htree]
      rfl
    rw [hmap] at hr
    rw [sameRoutes_treeOf hr hr']
    constructor
    · intro hkeys
      refine ⟨hauto, foundIn_eq_nil_iff.mp ?_⟩
      by_contra hfound
      exact not_same_of_found hof htree cfg.proxy hfound hkeys
    · intro hun key
      have hid : fillAll [] = id := rfl
      rw [foundIn_eq_nil_iff.mpr hun.names, hid, List.map_id]
  · obtain ⟨hexists, hmeasured⟩ := not_or.mp hauto
    obtain ⟨servers₀, hup₀, ⟨hproxy, -⟩, hdiffer⟩ := expandAuto_of_measured hof
      (foundIn (host.lookups.turns (expandAuto lib host cfg).upstream)) cfg.proxy
      (by simpa using hexists) (not_and_or.mp hmeasured)
    rw [hup₀] at hdiffer
    rw [hup₀, hproxy] at hr
    constructor
    · intro hkeys
      exact absurd ((sameRoutes_treeOf hr hr').mp hkeys) hdiffer
    · intro hun
      exact absurd hun.auto hauto

end Compare

section Reloads

variable {R : Type} {lib : ConfigLib} {toml : Toml R}
  {validate : R → UpstreamConfig → Except ConfigError Unit} {host : Host R} {cfg : Settings R}
  {file : Except ConfigError (Settings R)} {s : Running R} {a : Attempt}

theorem restartRequired_self (c : AppConfig) : restartRequired c c = [] := by
  simp [restartRequired]

theorem reload_refused {e : Text} (h : a.other = .error e) : reload lib host file s a = s := by
  unfold reload
  split
  · rename_i s' hs
    obtain ⟨candidate, -, hs⟩ := bind_eq_ok_iff.mp hs
    split at hs
    · obtain ⟨done, hother, -⟩ := bind_eq_ok_iff.mp hs
      rw [h] at hother
      cases hother
    · cases hs
  · rfl

theorem reload_accepted {r : UpstreamRegistry} (hrest : s.settings.rest = cfg.rest)
    (h : a.other = .ok ())
    (hr : UpstreamRegistry.build lib a.cookie host.scheduler cfg.upstream cfg.proxy = .ok r) :
    reload lib host (.ok cfg) s a = { settings := cfg, registry := r } := by
  have hstate : candidateState lib host (.ok cfg) a s =
      .ok { settings := cfg, registry := r } := by
    refine bind_eq_ok_iff.mpr ⟨cfg, rfl, ?_⟩
    rw [hrest, restartRequired_self]
    refine bind_eq_ok_iff.mpr ⟨(), by rw [h]; rfl, ?_⟩
    exact bind_eq_ok_iff.mpr ⟨r, by rw [hr]; rfl, rfl⟩
  rw [reload, hstate]

theorem reloads_concat (attempts : List Attempt) (last : Attempt) :
    reloads lib host file s (attempts ++ [last]) =
      reload lib host file (reloads lib host file s attempts) last := by
  simp [reloads]

/-- What any number of reloads of one file leave: what there was, or what the file says. -/
theorem reloads_cases (lib : ConfigLib) (host : Host R) {servers : List ServerConfig}
    (htree : cfg.upstream = treeOf servers)
    (hnamed : ∀ s ∈ servers, s.transport.isEncrypted = true → s.serverName ≠ none)
    (hrest : s.settings.rest = cfg.rest) (attempts : List Attempt) :
    (∀ a ∈ attempts, ∃ e, a.other = .error e) ∧ reloads lib host (.ok cfg) s attempts = s ∨
    (∃ a ∈ attempts, a.other = .ok ()) ∧ ∃ cookie r,
      UpstreamRegistry.build lib cookie host.scheduler cfg.upstream cfg.proxy = .ok r ∧
      reloads lib host (.ok cfg) s attempts = { settings := cfg, registry := r } := by
  induction attempts using List.reverseRecOn with
  | nil => exact .inl ⟨List.forall_mem_nil _, rfl⟩
  | append_singleton attempts last ih =>
    rw [reloads_concat]
    cases hlast : last.other with
    | error e =>
      rw [reload_refused hlast]
      refine ih.imp (fun ⟨hall, hs⟩ => ⟨?_, hs⟩) fun ⟨⟨a, ha, hok⟩, hs⟩ => ⟨?_, hs⟩
      · intro a ha
        rcases List.mem_append.mp ha with ha | ha
        · exact hall a ha
        · rw [List.mem_singleton.mp ha]
          exact ⟨e, hlast⟩
      · exact ⟨a, List.mem_append_left _ ha, hok⟩
    | ok done =>
      obtain ⟨r, hr⟩ := exists_build_treeOf lib last.cookie host.scheduler cfg.proxy hnamed
      rw [← htree] at hr
      have hrest' : (reloads lib host (.ok cfg) s attempts).settings.rest = cfg.rest := by
        rcases ih with ⟨-, hs⟩ | ⟨-, cookie, r, -, hs⟩
        · rw [hs]
          exact hrest
        · rw [hs]
      refine .inr ⟨⟨last, by simp, hlast⟩, last.cookie, r, hr, ?_⟩
      exact reload_accepted hrest' hlast hr

theorem start_eq_ok (h : start lib host a cfg = .ok s) :
    bootstrap lib host cfg = .ok s.settings ∧ UpstreamRegistry.build lib a.cookie host.scheduler
      s.settings.upstream s.settings.proxy = .ok s.registry := by
  obtain ⟨cfg', hboot, h⟩ := bind_eq_ok_iff.mp h
  obtain ⟨-, -, h⟩ := bind_eq_ok_iff.mp h
  obtain ⟨r, hr, h⟩ := bind_eq_ok_iff.mp h
  cases h
  exact ⟨hboot, mapError_eq_ok_iff.mp hr⟩

/-- A reload of an unchanged file leaves the routes as they were exactly when it is refused, or is
not the first one to be accepted, or start-up found nothing that the file does not say. -/
theorem reload_keeps_routes_iff {text path : Text} (first last : Attempt)
    (attempts : List Attempt) (hload : fromToml lib toml validate text path = .ok cfg)
    (hstart : start lib host first cfg = .ok s) :
    SameRoutes (reloads lib host (fromToml lib toml validate text path) s attempts).registry
        (reloads lib host (fromToml lib toml validate text path) s (attempts ++ [last])).registry ↔
      (∃ e, last.other = .error e) ∨ (∃ a ∈ attempts, a.other = .ok ()) ∨ Unmeasured host cfg := by
  obtain ⟨hup, -⟩ := fromDocument_eq_ok_iff.mp (fromToml_eq_ok hload)
  obtain ⟨entries, servers, htree, hne, hof⟩ := buildUpstreams_eq_ok hup
  have hnamed : ∀ s ∈ servers, s.transport.isEncrypted = true → s.serverName ≠ none := by
    intro s hs
    obtain ⟨i, e, these, -, hthese, hmem⟩ := exists_entry_of_mem hof.servers hs
    exact ((serversOf_eq_ok hthese).2.1 s hmem).identity
  obtain ⟨hboot, hr⟩ := start_eq_ok hstart
  have hrest : s.settings.rest = cfg.rest := (bootstrap_eq_ok hboot).2.2.trans expandAuto_rest
  have hcases := reloads_cases lib host htree hnamed hrest
  rw [hload]
  rcases hcases attempts with ⟨hrefused, hstate⟩ | ⟨haccepted, cookie, r, hbuild, hstate⟩
  · have hnone : ¬∃ a ∈ attempts, a.other = .ok () := by
      rintro ⟨a, ha, hok⟩
      obtain ⟨e, he⟩ := hrefused a ha
      rw [hok] at he
      cases he
    rw [reloads_concat, hstate]
    cases hlast : last.other with
    | error e =>
      rw [reload_refused hlast]
      exact iff_of_true (fun _ _ => Iff.rfl) (.inl ⟨e, rfl⟩)
    | ok done =>
      obtain ⟨r, hbuild⟩ := exists_build_treeOf lib last.cookie host.scheduler cfg.proxy hnamed
      rw [← htree] at hbuild
      rw [reload_accepted hrest hlast hbuild, start_same_iff hof htree hne hboot hr hbuild]
      simp [hnone]
  · -- From the first accepted reload on every state is built from the file.
    rcases hcases (attempts ++ [last]) with ⟨hrefused, -⟩ | ⟨-, cookie', r', hbuild', hstate'⟩
    · obtain ⟨a, ha, hok⟩ := haccepted
      obtain ⟨e, he⟩ := hrefused a (List.mem_append_left _ ha)
      rw [hok] at he
      cases he
    · rw [hstate, hstate']
      rw [htree] at hbuild hbuild'
      exact iff_of_true ((sameRoutes_treeOf hbuild hbuild').mpr fun _ => Iff.rfl)
        (.inr (.inl haccepted))

end Reloads

def namedDocument : Document Unit where
  upstreams := [ascii "1.1.1.1", ascii "tls://dns.example.net"]
  proxies := []
  apiTokenFile := none
  apiTokenEnv := none
  rest := ()

def lookingUp (addrs : List IpAddr) : Host Unit where
  udpListen _ := []
  tcpListen _ := []
  fixed _ :=
    { fixed := fun _ => 0, probeEnabled := false, prefetchEnabled := false
      cloudflareEnabled := false, cloudflareMode := .preserve, datasets := noDatasets
      localData := { hosts := [], zones := [], suffixRules := [], localTtl := 60 } }
  localAddresses := []
  gateway := .rejected .noGateway
  region := .global
  lookups :=
    { late := fun _ => false
      viaSeeds := fun _ _ _ => some (.ok addrs)
      viaSystem := fun _ _ => none }
  scheduler := ⟨false, 0, false, 0⟩

def fineAttempt : Attempt where
  cookie _ := []
  other := .ok ()

def namedKey (addr : IpAddr) : RouteKey :=
  ⟨"u1-dot", .dot, addr, "direct", .authority, "dns.example.net"⟩

/-- What a test of a started system says of the document's system, `false` where it fails. -/
def startedWith (d : Document Unit) (host : Host Unit)
    (test : Settings Unit → Running Unit → Bool) : Bool :=
  match fromDocument .sample noRules d with
  | .ok cfg =>
    match start .sample host fineAttempt cfg with
    | .ok s => test cfg s
    | .error _ => false
  | .error _ => false

theorem exists_started (d : Document Unit) (host : Host Unit)
    (test : Settings Unit → Running Unit → Bool) (h : startedWith d host test = true) :
    ∃ text cfg s, fromToml .sample .sample noRules text [] = .ok cfg ∧ cfg.toDocument = d ∧
      start .sample host fineAttempt cfg = .ok s ∧ test cfg s = true := by
  obtain ⟨text, htext⟩ := exists_file .sample .sample noRules d
  unfold startedWith at h
  split at h
  · rename_i cfg hcfg
    split at h
    · rename_i s hs
      exact ⟨text, cfg, s, (htext []).trans hcfg, (fromDocument_eq_ok_iff.mp hcfg).2.2.2.1, hs, h⟩
    · cases h
  · cases h

theorem reload_keeps_routes_static : ∃ text cfg s,
    fromToml .sample .sample noRules text [] = .ok cfg ∧ cfg.upstreams = namedDocument.upstreams ∧
    start .sample (lookingUp []) fineAttempt cfg = .ok s ∧
    SameRoutes s.registry (reloads .sample (lookingUp [])
      (fromToml .sample .sample noRules text []) s [fineAttempt]).registry := by
  obtain ⟨text, cfg, s, hload, hdoc, hstart, -⟩ := exists_started namedDocument (lookingUp [])
    (fun _ _ => true) (by decide +kernel)
  have hun : Unmeasured (lookingUp []) cfg := by
    refine ⟨.inr ⟨rfl, rfl⟩, ?_⟩
    intro i p _
    exact .inr ⟨.inr fun a rest => by simp [lookingUp], fun a rest => by simp [lookingUp]⟩
  refine ⟨text, cfg, s, hload, by rw [hdoc], hstart, ?_⟩
  exact (reload_keeps_routes_iff fineAttempt fineAttempt [] hload hstart).mpr
    (.inr (.inr hun))

/-- The first reload drops the route of an upstream that was given by name. -/
theorem reload_drops_named_upstream : ∃ text cfg s,
    fromToml .sample .sample noRules text [] = .ok cfg ∧ cfg.upstreams = namedDocument.upstreams ∧
    start .sample (lookingUp [.v4 0x0a000035]) fineAttempt cfg = .ok s ∧
    namedKey (.v4 0x0a000035) ∈ s.registry.keys "default" ∧
    namedKey (.v4 0x0a000035) ∉ (reloads .sample (lookingUp [.v4 0x0a000035])
      (fromToml .sample .sample noRules text []) s [fineAttempt]).registry.keys "default" := by
  obtain ⟨text, cfg, s, hload, hdoc, hstart, htest⟩ := exists_started namedDocument
    (lookingUp [.v4 0x0a000035])
    (fun cfg s => decide (namedKey (.v4 0x0a000035) ∈ s.registry.keys "default" ∧
      namedKey (.v4 0x0a000035) ∉ (reloads .sample (lookingUp [.v4 0x0a000035])
        (.ok cfg) s [fineAttempt]).registry.keys "default"))
    (by decide +kernel)
  obtain ⟨hbefore, hafter⟩ := of_decide_eq_true htest
  rw [← hload] at hafter
  exact ⟨text, cfg, s, hload, by rw [hdoc], hstart, hbefore, hafter⟩

end EgressDns
