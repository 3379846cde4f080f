import EgressDns.Config.Expansion
import EgressDns.Config.File
import EgressDns.Upstream.Registry

/-!
# What tells the routes of a group apart

The routes that `UpstreamRegistry::build` makes of an accepted configuration, with the ports their
connections go to. Server names, transports, addresses and ways out make up a key, so keys differ
as long as no server lists an address twice.
-/

namespace EgressDns

open Lib

/-- A route and the port of its `ConnectionConfig`. -/
structure Built where
  route : Route
  port : Nat

section Build

variable (lib : ConfigLib) (cookie : RouteKey → List UInt8)

def connectionConfigFor (s : ServerConfig) : Except ResolveError Nat := do
  requireName s
  pure s.effectivePort

def companionTo (s : ServerConfig) (addr : IpAddr) (e : Egress) : Built where
  route := routeTo lib cookie s .tcp addr true e
  port := s.effectivePort

def pathBuilt (paths : List Egress) (s : ServerConfig) (addr : IpAddr) :
    List Egress → Except ResolveError (List Built)
  | [] => .ok []
  | e :: rest =>
    if pathSupports e s.transport then do
      let port ← connectionConfigFor s
      let built : Built := ⟨routeTo lib cookie s s.transport addr false e, port⟩
      if s.transport = .udp then pure (built :: paths.map (companionTo lib cookie s addr))
      else
        let more ← pathBuilt paths s addr rest
        pure (built :: more)
    else pathBuilt paths s addr rest

def serverBuilt (paths : List Egress) (s : ServerConfig) : Except ResolveError (List Built) :=
  (s.addresses.mapM fun addr => pathBuilt lib cookie paths s addr paths).map List.flatten

def groupBuilt (proxies : List ProxyEndpoint) (group : GroupConfig) :
    Except ResolveError (List Built) :=
  ((group.servers.filter (·.enabled)).mapM
    (serverBuilt lib cookie (egressPaths proxies))).map List.flatten

end Build

section Shape

variable {lib : ConfigLib} {cookie : RouteKey → List UInt8} {s : ServerConfig} {addr : IpAddr}
  {paths : List Egress}

/-- What one address of a server comes to. -/
def addressBuilt (lib : ConfigLib) (cookie : RouteKey → List UInt8) (paths : List Egress)
    (s : ServerConfig) (addr : IpAddr) : List Built :=
  if s.transport = .udp then
    ⟨routeTo lib cookie s .udp addr false none, s.effectivePort⟩ ::
      paths.map (companionTo lib cookie s addr)
  else paths.map fun e => ⟨routeTo lib cookie s s.transport addr false e, s.effectivePort⟩

theorem pathSupports_of_stream (hs : s.transport ≠ .udp) (e : Egress) :
    pathSupports e s.transport = true := by
  simp [pathSupports, TransportKind.isStream, hs]

variable {built : List Built}

theorem pathBuilt_of_stream {some' : List Egress} (hs : s.transport ≠ .udp)
    (h : pathBuilt lib cookie paths s addr some' = .ok built) :
    built = some'.map fun e =>
      ⟨routeTo lib cookie s s.transport addr false e, s.effectivePort⟩ := by
  induction some' generalizing built with
  | nil =>
    cases h
    rfl
  | cons e rest ih =>
    simp only [pathBuilt, pathSupports_of_stream hs, if_true, hs, if_false] at h
    obtain ⟨port, hport, h⟩ := bind_eq_ok_iff.mp h
    obtain ⟨more, hmore, heq⟩ := bind_eq_ok_iff.mp h
    obtain ⟨-, -, hport⟩ := bind_eq_ok_iff.mp hport
    cases hport
    cases heq
    rw [ih hmore, List.map_cons]

theorem pathBuilt_of_address {rest : List Egress}
    (h : pathBuilt lib cookie paths s addr (none :: rest) = .ok built)
    (hpaths : paths = none :: rest) : built = addressBuilt lib cookie paths s addr := by
  by_cases hs : s.transport = .udp
  · simp only [pathBuilt, if_true, hs] at h
    obtain ⟨port, hport, h⟩ := bind_eq_ok_iff.mp h
    obtain ⟨-, -, hport⟩ := bind_eq_ok_iff.mp hport
    cases hport
    cases h
    rw [addressBuilt, if_pos hs]
  · rw [pathBuilt_of_stream hs h, addressBuilt, if_neg hs, hpaths]

theorem groupBuilt_eq_ok {proxies : List ProxyEndpoint} {group : GroupConfig}
    (h : groupBuilt lib cookie proxies group = .ok built) :
    built = (group.servers.filter (·.enabled)).flatMap fun s =>
      s.addresses.flatMap (addressBuilt lib cookie (egressPaths proxies) s) := by
  rw [← List.map_id built]
  apply map_flatten_of_mapM h
  intro s _ these hthese
  apply map_flatten_of_mapM hthese
  intro addr _ some' hsome
  rw [List.map_id]
  exact pathBuilt_of_address hsome rfl

theorem pathRoutes_eq (some' : List Egress) :
    pathRoutes lib cookie paths s addr some' =
      (pathBuilt lib cookie paths s addr some').map (List.map Built.route) := by
  induction some' with
  | nil => rfl
  | cons e rest ih =>
    simp only [pathRoutes, pathBuilt, connectionConfigFor]
    split
    · cases requireName s with
      | error e => rfl
      | ok named =>
        simp only [bind, Except.bind, pure, Except.pure]
        split
        · simp [Except.map, companionTo, Function.comp_def]
        · rw [ih]
          cases pathBuilt lib cookie paths s addr rest <;> rfl
    · exact ih

theorem flatten_map_routes {A E : Type} (f : A → Except E (List Built)) (as : List A) :
    ((as.mapM fun a => (f a).map (List.map Built.route)).map List.flatten) =
      ((as.mapM f).map List.flatten).map (List.map Built.route) := by
  rw [mapM_map]
  cases as.mapM f with
  | error e => rfl
  | ok lists => simp [Except.map, List.map_flatten]

theorem groupRoutes_eq (proxies : List ProxyEndpoint) (group : GroupConfig) :
    groupRoutes lib cookie proxies group =
      (groupBuilt lib cookie proxies group).map (List.map Built.route) := by
  have hserver : serverRoutes lib cookie (egressPaths proxies) = fun s =>
      (serverBuilt lib cookie (egressPaths proxies) s).map (List.map Built.route) := by
    funext s
    unfold serverRoutes serverBuilt
    rw [← flatten_map_routes]
    simp only [pathRoutes_eq]
  unfold groupRoutes groupBuilt
  rw [hserver, flatten_map_routes]

theorem addressBuilt_keys : (addressBuilt lib cookie paths s addr).map (·.route.key) =
    addressKeys lib paths s addr := by
  unfold addressBuilt addressKeys
  split
  · simp [companionTo, routeTo, Function.comp_def]
  · simp [routeTo, Function.comp_def]

end Shape

section Distinct

variable {lib : ConfigLib}

theorem proxy_id_ne_direct (p : ProxyEndpoint) : p.id ≠ ascii "direct" := by
  intro h
  have hmem : (58 : UInt8) ∈ p.id := by
    exact List.mem_append_right _ List.mem_cons_self
  rw [h] at hmem
  exact absurd hmem (by decide)

variable {proxies : List ProxyEndpoint}

theorem egressPaths_ids_nodup (h : (proxies.map ProxyEndpoint.id).Nodup) :
    ((egressPaths proxies).map fun e => asString e.id).Nodup := by
  have hids : ((egressPaths proxies).map Egress.id).Nodup := by
    unfold egressPaths
    rw [List.map_cons, List.map_map]
    apply List.nodup_cons.mpr
    refine ⟨?_, h⟩
    intro hmem
    obtain ⟨p, -, hp⟩ := List.mem_map.mp hmem
    exact proxy_id_ne_direct p hp
  have hmap := hids.map (f := asString) fun _ _ heq => asString_injective heq
  rwa [List.map_map] at hmap

theorem addressKeys_nodup {paths : List Egress} (h : (paths.map fun e => asString e.id).Nodup)
    (s : ServerConfig) (addr : IpAddr) : (addressKeys lib paths s addr).Nodup := by
  have hmap (t : TransportKind) : (paths.map (routeKey lib s t addr)).Nodup := by
    apply List.Nodup.of_map RouteKey.path
    rw [List.map_map]
    exact h
  unfold addressKeys
  split
  · apply List.nodup_cons.mpr
    refine ⟨?_, hmap .tcp⟩
    intro hmem
    obtain ⟨e, -, he⟩ := List.mem_map.mp hmem
    have ht := congrArg RouteKey.transport he
    cases ht
  · exact hmap s.transport

theorem disjoint_addressKeys_iff (s : ServerConfig) (a b : IpAddr) :
    List.Disjoint (addressKeys lib (egressPaths proxies) s a)
      (addressKeys lib (egressPaths proxies) s b) ↔ a ≠ b := by
  constructor
  · rintro hdisjoint rfl
    obtain ⟨key, hkey⟩ := exists_mem_addressKeys lib proxies s a
    exact hdisjoint hkey hkey
  · intro hne key ha hb
    exact hne ((reaches_of_mem ha).addr.symm.trans (reaches_of_mem hb).addr)

theorem keys_nodup_iff {servers : List ServerConfig}
    (hproxies : (proxies.map ProxyEndpoint.id).Nodup) (hnames : (servers.map (·.name)).Nodup) :
    (servers.flatMap fun s => s.addresses.flatMap (addressKeys lib (egressPaths proxies) s)).Nodup ↔
      ∀ s ∈ servers, s.addresses.Nodup := by
  have hserver (s : ServerConfig) :
      (s.addresses.flatMap (addressKeys lib (egressPaths proxies) s)).Nodup ↔
        s.addresses.Nodup := by
    rw [List.nodup_flatMap]
    constructor
    · rintro ⟨-, hdisjoint⟩
      exact hdisjoint.imp fun hd => (disjoint_addressKeys_iff s _ _).mp hd
    · intro hnodup
      refine ⟨fun a _ => addressKeys_nodup (egressPaths_ids_nodup hproxies) s a, ?_⟩
      exact hnodup.imp fun hne => (disjoint_addressKeys_iff s _ _).mpr hne
  rw [List.nodup_flatMap]
  simp only [hserver]
  apply and_iff_left
  refine (List.pairwise_map.mp hnames).imp ?_
  intro s t hne key hs ht
  obtain ⟨a, -, ha⟩ := List.mem_flatMap.mp hs
  obtain ⟨b, -, hb⟩ := List.mem_flatMap.mp ht
  apply hne
  exact asString_injective ((reaches_of_mem ha).server.symm.trans (reaches_of_mem hb).server)

end Distinct

section Names

variable {lib : ConfigLib}

theorem names_of_entry_nodup {index : Nat} {servers : List ServerConfig}
    (hfrom : ∀ s ∈ servers, FromEntry index s) (h : (servers.map (·.transport)).Nodup) :
    (servers.map (·.name)).Nodup := by
  have hnames : servers.map (·.name) = (servers.map (·.transport)).map (serverName index) := by
    rw [List.map_map]
    exact List.map_congr_left fun s hs => (hfrom s hs).name
  rw [hnames]
  exact h.map fun _ _ heq => (serverName_injective heq).2

variable {out : List ServerConfig} {entries : List Text}

theorem serversFrom_names_nodup {n : Nat} (h : serversFrom lib n entries = .ok out) :
    (out.map (·.name)).Nodup := by
  induction entries generalizing n out with
  | nil =>
    cases h
    exact List.nodup_nil
  | cons e rest ih =>
    obtain ⟨servers, he, hmore⟩ := bind_eq_ok_iff.mp h
    obtain ⟨more, hrest, heq⟩ := bind_eq_ok_iff.mp hmore
    cases heq
    obtain ⟨-, hfrom, htransports⟩ := serversOf_eq_ok he
    rw [List.map_append]
    refine (names_of_entry_nodup hfrom htransports).append (ih hrest) ?_
    intro name hfirst hlater
    obtain ⟨s, hs, rfl⟩ := List.mem_map.mp hfirst
    obtain ⟨t, ht, hname⟩ := List.mem_map.mp hlater
    obtain ⟨i, e', servers', -, hof, hmem⟩ := exists_entry_of_mem hrest ht
    obtain ⟨-, hfrom', -⟩ := serversOf_eq_ok hof
    rw [(hfrom' t hmem).name, (hfrom s hs).name] at hname
    have hindex := (serverName_injective hname).1
    omega

theorem enabled_of_serversFrom {n : Nat} (h : serversFrom lib n entries = .ok out) :
    out.filter (·.enabled) = out := by
  apply List.filter_eq_self.mpr
  intro s hs
  obtain ⟨i, e, servers, -, hof, hmem⟩ := exists_entry_of_mem h hs
  exact ((serversOf_eq_ok hof).2.1 s hmem).enabled

end Names

/-- Do53 over UDP, QUIC and HTTP/3 are carried in datagrams. -/
def TransportKind.needsDatagrams : TransportKind → Bool
  | .udp | .doq | .doh3 => true
  | .tcp | .dot | .doh2 => false

/-- Distinct keys, datagrams only straight out, and a TCP companion for every UDP route on every
way out. -/
structure RoutesSound (paths : List Egress) (built : List Built) : Prop where
  distinct : (built.map (·.route.key)).Nodup
  datagrams : ∀ b ∈ built, b.route.egress ≠ .direct → b.route.key.transport.needsDatagrams = false
  companions : ∀ b ∈ built, b.route.key.transport = .udp → ∀ e ∈ paths, ∃ c ∈ built,
    c.route.key = { b.route.key with transport := .tcp, path := asString e.id } ∧
      c.route.egress = e.path ∧ c.route.streamCompanion = true ∧ c.port = b.port

section Sound

variable {lib : ConfigLib} {cookie : RouteKey → List UInt8} {proxies : List ProxyEndpoint}
  {servers : List ServerConfig}

def serversBuilt (lib : ConfigLib) (cookie : RouteKey → List UInt8) (proxies : List ProxyEndpoint)
    (servers : List ServerConfig) : List Built :=
  servers.flatMap fun s => s.addresses.flatMap (addressBuilt lib cookie (egressPaths proxies) s)

theorem mem_serversBuilt {b : Built} : b ∈ serversBuilt lib cookie proxies servers ↔
    ∃ s ∈ servers, ∃ addr ∈ s.addresses,
      b ∈ addressBuilt lib cookie (egressPaths proxies) s addr := by
  simp only [serversBuilt, List.mem_flatMap]

theorem serversBuilt_keys : (serversBuilt lib cookie proxies servers).map (·.route.key) =
    servers.flatMap fun s => s.addresses.flatMap (addressKeys lib (egressPaths proxies) s) := by
  unfold serversBuilt
  rw [List.map_flatMap]
  simp only [List.map_flatMap, addressBuilt_keys]

theorem datagrams_iff :
    (∀ b ∈ serversBuilt lib cookie proxies servers, b.route.egress ≠ .direct →
      b.route.key.transport.needsDatagrams = false) ↔
    ∀ s ∈ servers, proxies ≠ [] → s.addresses ≠ [] → s.transport ≠ .doq ∧ s.transport ≠ .doh3 := by
  constructor
  · intro h s hs hproxies haddresses
    obtain ⟨p, hp⟩ := List.exists_mem_of_ne_nil proxies hproxies
    obtain ⟨addr, haddr⟩ := List.exists_mem_of_ne_nil s.addresses haddresses
    have hpath : some p ∈ egressPaths proxies := List.mem_cons_of_mem _ (List.mem_map_of_mem hp)
    have hall (hs' : s.transport ≠ .udp) : s.transport.needsDatagrams = false := by
      refine h ⟨routeTo lib cookie s s.transport addr false (some p), s.effectivePort⟩ ?_ ?_
      · refine mem_serversBuilt.mpr ⟨s, hs, addr, haddr, ?_⟩
        rw [addressBuilt, if_neg hs']
        exact List.mem_map_of_mem hpath
      · intro hdirect
        cases hdirect
    constructor
    · intro ht
      rw [ht] at hall
      exact absurd (hall (by decide)) (by decide)
    · intro ht
      rw [ht] at hall
      exact absurd (hall (by decide)) (by decide)
  · intro h b hb hproxied
    obtain ⟨s, hs, addr, haddr, hb⟩ := mem_serversBuilt.mp hb
    unfold addressBuilt at hb
    split at hb
    · rcases List.mem_cons.mp hb with rfl | hb
      · exact absurd rfl hproxied
      · obtain ⟨e, -, rfl⟩ := List.mem_map.mp hb
        rfl
    · rename_i hudp
      obtain ⟨e, he, rfl⟩ := List.mem_map.mp hb
      rcases List.mem_cons.mp he with rfl | he
      · exact absurd rfl hproxied
      · obtain ⟨p, hp, rfl⟩ := List.mem_map.mp he
        obtain ⟨hdoq, hdoh3⟩ := h s hs (List.ne_nil_of_mem hp) (List.ne_nil_of_mem haddr)
        cases ht : s.transport with
        | udp => exact absurd ht hudp
        | doq => exact absurd ht hdoq
        | doh3 => exact absurd ht hdoh3
        | tcp | dot | doh2 => rfl

theorem companions_of_serversBuilt {b : Built} (hb : b ∈ serversBuilt lib cookie proxies servers)
    (hudp : b.route.key.transport = .udp) {e : Egress} (he : e ∈ egressPaths proxies) :
    ∃ c ∈ serversBuilt lib cookie proxies servers,
      c.route.key = { b.route.key with transport := .tcp, path := asString e.id } ∧
        c.route.egress = e.path ∧ c.route.streamCompanion = true ∧ c.port = b.port := by
  obtain ⟨s, hs, addr, haddr, hb⟩ := mem_serversBuilt.mp hb
  unfold addressBuilt at hb
  split at hb
  · rename_i ht
    rcases List.mem_cons.mp hb with rfl | hb
    · refine ⟨companionTo lib cookie s addr e, ?_, rfl, rfl, rfl, rfl⟩
      refine mem_serversBuilt.mpr ⟨s, hs, addr, haddr, ?_⟩
      rw [addressBuilt, if_pos ht]
      exact List.mem_cons_of_mem _ (List.mem_map_of_mem he)
    · obtain ⟨e', -, rfl⟩ := List.mem_map.mp hb
      cases hudp
  · rename_i ht
    obtain ⟨e', -, rfl⟩ := List.mem_map.mp hb
    exact absurd hudp ht

/-- What has to be known of the servers of a group. -/
structure ServersPlain (proxies : List ProxyEndpoint) (servers : List ServerConfig) : Prop where
  addresses : ∀ s ∈ servers, s.addresses.Nodup
  transports : ∀ s ∈ servers, proxies ≠ [] → s.addresses ≠ [] →
    s.transport ≠ .doq ∧ s.transport ≠ .doh3

theorem routesSound_iff (hproxies : (proxies.map ProxyEndpoint.id).Nodup)
    (hnames : (servers.map (·.name)).Nodup) :
    RoutesSound (egressPaths proxies) (serversBuilt lib cookie proxies servers) ↔
      ServersPlain proxies servers := by
  constructor
  · intro h
    refine ⟨?_, datagrams_iff.mp h.datagrams⟩
    have hdistinct := h.distinct
    rw [serversBuilt_keys] at hdistinct
    exact (keys_nodup_iff hproxies hnames).mp hdistinct
  · intro h
    refine ⟨?_, datagrams_iff.mpr h.transports, fun b hb hudp e he =>
      companions_of_serversBuilt hb hudp he⟩
    rw [serversBuilt_keys]
    exact (keys_nodup_iff hproxies hnames).mpr h.addresses

end Sound

section Accepted

variable {R : Type} (lib : ConfigLib) (toml : Toml R)
  (validate : R → UpstreamConfig → Except ConfigError Unit) (cookie : RouteKey → List UInt8)
  (scheduler : SchedulerConfig)

/-- The routes of every accepted configuration are sound just when no server lists an address twice
and none behind a proxy speaks QUIC or HTTP/3. -/
theorem route_identity_iff (text path : Text) (cfg : Settings R) (r : UpstreamRegistry)
    (h : fromToml lib toml validate text path = .ok cfg)
    (hr : UpstreamRegistry.build lib cookie scheduler cfg.upstream cfg.proxy = .ok r) :
    ∃ servers built, cfg.upstream.groups.map (·.servers) = [servers] ∧
      cfg.upstream.groups.mapM (groupBuilt lib cookie cfg.proxy) = .ok [built] ∧
      r.groups.map (·.routes) = [built.map Built.route] ∧
      (RoutesSound (egressPaths cfg.proxy) built ↔ ServersPlain cfg.proxy servers) := by
  obtain ⟨hup, hproxy, -⟩ := fromDocument_eq_ok_iff.mp (fromToml_eq_ok h)
  obtain ⟨entries, servers, htree, -, hservers⟩ := buildUpstreams_eq_ok hup
  have hproxies := (parseProxies_eq_ok_iff.mp hproxy).2
  have hfrom := hservers.servers
  rw [htree] at hr ⊢
  obtain ⟨groups, hmap, hr⟩ := bind_eq_ok_iff.mp hr
  cases hr
  cases mapM_eq_ok_iff.mp hmap with
  | cons hgroup hnil =>
    cases hnil
    obtain ⟨routes, hroutes, heq⟩ := bind_eq_ok_iff.mp hgroup
    cases heq
    rw [groupRoutes_eq] at hroutes
    obtain ⟨built, hbuilt, rfl⟩ := map_eq_ok_iff.mp hroutes
    have hshape := groupBuilt_eq_ok hbuilt
    rw [enabled_of_serversFrom hfrom] at hshape
    refine ⟨servers, built, rfl, ?_, rfl, ?_⟩
    · exact mapM_eq_ok_iff.mpr (.cons hbuilt .nil)
    · rw [hshape]
      exact routesSound_iff hproxies (serversFrom_names_nodup hfrom)

end Accepted

def upstreamDocument (upstreams proxies : List Text) : Document Unit where
  upstreams := upstreams
  proxies := proxies
  apiTokenFile := none
  apiTokenEnv := none
  rest := ()

def noCookie (_ : RouteKey) : List UInt8 := []

def plainScheduler : SchedulerConfig := ⟨false, 0, false, 0⟩

/-- What a test says of the configuration and of its registry, `false` where there is none. -/
def builtWith (d : Document Unit) (test : Settings Unit → UpstreamRegistry → Bool) : Bool :=
  match fromDocument .sample noRules d with
  | .ok cfg =>
    match UpstreamRegistry.build .sample noCookie plainScheduler cfg.upstream cfg.proxy with
    | .ok r => test cfg r
    | .error _ => false
  | .error _ => false

theorem exists_built (d : Document Unit) (test : Settings Unit → UpstreamRegistry → Bool)
    (h : builtWith d test = true) :
    ∃ text cfg r, fromToml .sample .sample noRules text [] = .ok cfg ∧
      UpstreamRegistry.build .sample noCookie plainScheduler cfg.upstream cfg.proxy = .ok r ∧
      test cfg r = true := by
  obtain ⟨text, hfile⟩ := exists_file .sample .sample noRules d
  unfold builtWith at h
  cases hcfg : fromDocument .sample noRules d with
  | error e =>
    rw [hcfg] at h
    cases h
  | ok cfg =>
    cases hr : UpstreamRegistry.build .sample noCookie plainScheduler cfg.upstream cfg.proxy with
    | error e =>
      simp only [hcfg, hr, Bool.false_eq_true] at h
    | ok r =>
      simp only [hcfg, hr] at h
      exact ⟨text, cfg, r, (hfile []).trans hcfg, hr, h⟩

def serversTest (test : List ServerConfig → Bool) (cfg : Settings Unit) (_ : UpstreamRegistry) :
    Bool :=
  decide (cfg.proxy.length = 1) && cfg.upstream.groups.all fun g => test g.servers

theorem route_identity_plain :
    ∃ (cfg : Settings Unit) (built : List Built), cfg.proxy.length = 1 ∧
      cfg.upstream.groups.mapM (groupBuilt .sample noCookie cfg.proxy) = .ok [built] ∧
      RoutesSound (egressPaths cfg.proxy) built := by
  obtain ⟨text, cfg, r, hload, hr, htest⟩ := exists_built
    (upstreamDocument [ascii "1.1.1.1", ascii "tls://one.one.one.one?addr=1.1.1.1&addr=1.0.0.1"]
      [ascii "socks5://10.0.0.1:1080"])
    (serversTest fun servers => servers.all fun s =>
      decide s.addresses.Nodup && decide (s.transport ≠ .doq) && decide (s.transport ≠ .doh3))
    (by decide)
  obtain ⟨hlength, hservers⟩ := Bool.and_eq_true_iff.mp htest
  obtain ⟨servers, built, hgroups, hbuilt, -, hiff⟩ := route_identity_iff .sample .sample noRules
    noCookie plainScheduler text [] cfg r hload hr
  have hplain : ∀ s ∈ servers, (decide s.addresses.Nodup && decide (s.transport ≠ .doq) &&
      decide (s.transport ≠ .doh3)) = true := by
    have hmem : servers ∈ cfg.upstream.groups.map (·.servers) := by
      rw [hgroups]
      exact List.mem_cons_self
    obtain ⟨g, hg, rfl⟩ := List.mem_map.mp hmem
    exact List.all_eq_true.mp (List.all_eq_true.mp hservers g hg)
  simp only [Bool.and_eq_true, decide_eq_true_eq] at hplain
  refine ⟨cfg, built, of_decide_eq_true hlength, hbuilt, hiff.mpr ⟨?_, ?_⟩⟩
  · intro s hs
    exact (hplain s hs).1.1
  · intro s hs _ _
    exact ⟨(hplain s hs).1.2, (hplain s hs).2⟩

def keysOf (r : UpstreamRegistry) : List (List RouteKey) := r.groups.map fun g => g.routes.map (·.key)

/-- One entry that pins an address twice gives one key twice, and one HTTP/3 resolver with one
proxy a datagram route through the proxy. -/
theorem route_identity_fails :
    (∃ text cfg r, fromToml .sample .sample noRules text [] = .ok cfg ∧
      UpstreamRegistry.build .sample noCookie plainScheduler cfg.upstream cfg.proxy = .ok r ∧
      ∃ keys ∈ keysOf r, ¬ keys.Nodup) ∧
    ∃ text cfg r, fromToml .sample .sample noRules text [] = .ok cfg ∧
      UpstreamRegistry.build .sample noCookie plainScheduler cfg.upstream cfg.proxy = .ok r ∧
      ∃ g ∈ r.groups, ∃ route ∈ g.routes,
        route.egress ≠ .direct ∧ route.key.transport.needsDatagrams = true := by
  constructor
  · obtain ⟨text, cfg, r, hload, hr, htest⟩ := exists_built
      (upstreamDocument [ascii "tls://one.one.one.one?addr=1.1.1.1&addr=1.1.1.1"] [])
      (fun _ r => decide (∃ keys ∈ keysOf r, ¬ keys.Nodup)) (by decide)
    exact ⟨text, cfg, r, hload, hr, of_decide_eq_true htest⟩
  · obtain ⟨text, cfg, r, hload, hr, htest⟩ := exists_built
      (upstreamDocument [ascii "https://cloudflare-dns.com/dns-query?addr=1.1.1.1"]
        [ascii "socks5://10.0.0.1:1080"])
      (fun _ r => decide (∃ g ∈ r.groups, ∃ route ∈ g.routes,
        route.egress ≠ .direct ∧ route.key.transport.needsDatagrams = true)) (by decide)
    exact ⟨text, cfg, r, hload, hr, of_decide_eq_true htest⟩

end EgressDns
