import EgressDns.Config.Proxy
import EgressDns.Lib.Outcome
import EgressDns.Upstream.Rank

/-!
# The routes of a configuration

`UpstreamRegistry::build` of `upstream/pool.rs`. The client cookie of a route is random and a
parameter, and so is the scheduling policy, which a file cannot set.
-/

namespace EgressDns

open Lib

/-- The strings of a route key. Every text in one is ASCII. -/
def asString (t : Text) : String := String.ofList (t.map fun b => Char.ofNat b.toNat)

theorem asString_injective {s t : Text} (h : asString s = asString t) : s = t := by
  have hchar : ∀ n < 256, (Char.ofNat n).toNat = n := by decide +kernel
  have hinj : Function.Injective fun b : UInt8 => Char.ofNat b.toNat := by
    intro b c hbc
    have hval := congrArg Char.toNat hbc
    rw [hchar _ b.toNat_lt, hchar _ c.toNat_lt] at hval
    exact UInt8.toNat_inj.mp hval
  exact List.map_injective_iff.mpr hinj (String.ofList_injective h)

namespace ServerConfig

def effectivePort (s : ServerConfig) : Nat := s.port.getD s.transport.defaultPort

/-- An authenticated transport needs no cookies. -/
def cookiesEffective (s : ServerConfig) : Bool :=
  s.enableCookies.getD true && !s.transport.isEncrypted

end ServerConfig

section Build

variable (lib : ConfigLib) (cookie : RouteKey → List UInt8) (scheduler : SchedulerConfig)

/-- An encrypted endpoint is its name, any other its address and port. -/
def authorityOf (s : ServerConfig) (addr : IpAddr) : Text :=
  match s.serverName with
  | some name => lower (trimEndDots name)
  | none => lib.socketText addr s.effectivePort

abbrev Egress := Option ProxyEndpoint

def Egress.path : Egress → EgressPath
  | none => .direct
  | some p => .proxy (asString p.id)

def Egress.id : Egress → Text
  | none => ascii "direct"
  | some p => p.id

def Egress.carriesUdp : Egress → Bool
  | none => true
  | some p => p.kind.carriesUdp

/-- The ways out, the direct one first. -/
def egressPaths (proxies : List ProxyEndpoint) : List Egress := none :: proxies.map some

def pathSupports (e : Egress) (t : TransportKind) : Bool :=
  if t.isStream then true else e.carriesUdp

/-- What `connection_config_for` asks of a server. -/
def requireName (s : ServerConfig) : Except ResolveError Unit :=
  if s.transport.isEncrypted ∧ s.serverName = none then .error (.noRoute (asString s.name))
  else .ok ()

def routeKey (s : ServerConfig) (transport : TransportKind) (addr : IpAddr) (e : Egress) :
    RouteKey where
  server := asString s.name
  transport := transport
  addr := addr
  path := asString e.id
  role := s.role
  authority := asString (authorityOf lib s addr)

def routeTo (s : ServerConfig) (transport : TransportKind) (addr : IpAddr) (companion : Bool)
    (e : Egress) : Route where
  key := routeKey lib s transport addr e
  weight := s.weight
  cookiesEnabled := s.cookiesEffective
  clientCookie := cookie (routeKey lib s transport addr e)
  trustAd := s.trustAd
  egress := e.path
  streamCompanion := companion

/-- A UDP route brings a TCP companion on every way out, and ends the loop. -/
def pathRoutes (paths : List Egress) (s : ServerConfig) (addr : IpAddr) :
    List Egress → Except ResolveError (List Route)
  | [] => .ok []
  | e :: rest =>
    if pathSupports e s.transport then do
      requireName s
      let route := routeTo lib cookie s s.transport addr false e
      if s.transport = .udp then
        pure (route :: paths.map (routeTo lib cookie s .tcp addr true))
      else
        let more ← pathRoutes paths s addr rest
        pure (route :: more)
    else pathRoutes paths s addr rest

def serverRoutes (paths : List Egress) (s : ServerConfig) : Except ResolveError (List Route) :=
  (s.addresses.mapM fun addr => pathRoutes lib cookie paths s addr paths).map List.flatten

def groupRoutes (proxies : List ProxyEndpoint) (group : GroupConfig) :
    Except ResolveError (List Route) :=
  ((group.servers.filter (·.enabled)).mapM
    (serverRoutes lib cookie (egressPaths proxies))).map List.flatten

/-- A later group of the same name replaces an earlier one. -/
def insertGroup (groups : List UpstreamGroup) (g : UpstreamGroup) : List UpstreamGroup :=
  groups.filter (fun h => h.name ≠ g.name) ++ [g]

def UpstreamRegistry.build (cfg : UpstreamConfig) (proxies : List ProxyEndpoint) :
    Except ResolveError UpstreamRegistry := do
  let groups ← cfg.groups.mapM fun g => do
    let routes ← groupRoutes lib cookie proxies g
    pure ({ name := asString g.name, routes, scheduler } : UpstreamGroup)
  pure { groups := groups.foldl insertGroup [], defaultGroup := asString cfg.defaultGroup }

def UpstreamRegistry.keys (r : UpstreamRegistry) (group : String) : List RouteKey :=
  match r.groups.find? fun g => g.name = group with
  | some g => g.routes.map (·.key)
  | none => []

end Build

section Keys

variable {lib : ConfigLib} {cookie : RouteKey → List UInt8} {s : ServerConfig} {addr : IpAddr}
  {paths : List Egress}

def addressKeys (lib : ConfigLib) (paths : List Egress) (s : ServerConfig) (addr : IpAddr) :
    List RouteKey :=
  if s.transport = .udp then
    routeKey lib s .udp addr none :: paths.map (routeKey lib s .tcp addr)
  else paths.map (routeKey lib s s.transport addr)

theorem keys_of_stream {some' : List Egress} {routes : List Route} (hs : s.transport ≠ .udp)
    (h : pathRoutes lib cookie paths s addr some' = .ok routes) :
    routes.map (·.key) = some'.map (routeKey lib s s.transport addr) := by
  have hsupports : ∀ e, pathSupports e s.transport = true := by
    intro e
    simp [pathSupports, TransportKind.isStream, hs]
  induction some' generalizing routes with
  | nil =>
    cases h
    rfl
  | cons e rest ih =>
    simp only [pathRoutes, hsupports, if_true, hs, if_false] at h
    obtain ⟨-, -, h⟩ := bind_eq_ok_iff.mp h
    obtain ⟨more, hmore, heq⟩ := bind_eq_ok_iff.mp h
    cases heq
    rw [List.map_cons, List.map_cons, ih hmore]
    rfl

theorem keys_of_address {rest : List Egress} {routes : List Route}
    (h : pathRoutes lib cookie paths s addr (none :: rest) = .ok routes)
    (hpaths : paths = none :: rest) : routes.map (·.key) = addressKeys lib paths s addr := by
  by_cases hs : s.transport = .udp
  · simp only [pathRoutes, if_true, hs] at h
    obtain ⟨-, -, h⟩ := bind_eq_ok_iff.mp h
    cases h
    simp only [addressKeys, hs, if_true, List.map_cons, List.map_map]
    rfl
  · rw [keys_of_stream hs h, addressKeys, if_neg hs, hpaths]

theorem keys_of_group {proxies : List ProxyEndpoint} {group : GroupConfig} {routes : List Route}
    (h : groupRoutes lib cookie proxies group = .ok routes) :
    routes.map (·.key) = (group.servers.filter (·.enabled)).flatMap fun s =>
      s.addresses.flatMap (addressKeys lib (egressPaths proxies) s) := by
  apply map_flatten_of_mapM h
  intro s _ these hthese
  apply map_flatten_of_mapM hthese
  intro addr _ some' hsome
  exact keys_of_address hsome rfl

structure Reaches (s : ServerConfig) (addr : IpAddr) (key : RouteKey) : Prop where
  server : key.server = asString s.name
  addr : key.addr = addr
  role : key.role = s.role

theorem reaches_of_mem {key : RouteKey} (h : key ∈ addressKeys lib paths s addr) :
    Reaches s addr key := by
  have hkey : ∀ t e, Reaches s addr (routeKey lib s t addr e) := fun t e => ⟨rfl, rfl, rfl⟩
  unfold addressKeys at h
  split at h
  · rcases List.mem_cons.mp h with rfl | h
    · exact hkey _ _
    · obtain ⟨e, -, rfl⟩ := List.mem_map.mp h
      exact hkey _ _
  · obtain ⟨e, -, rfl⟩ := List.mem_map.mp h
    exact hkey _ _

theorem exists_mem_addressKeys (lib : ConfigLib) (proxies : List ProxyEndpoint) (s : ServerConfig)
    (addr : IpAddr) : ∃ key, key ∈ addressKeys lib (egressPaths proxies) s addr := by
  unfold addressKeys
  split
  · exact ⟨_, List.mem_cons_self⟩
  · exact ⟨_, List.mem_cons_self⟩

end Keys

end EgressDns
