import EgressDns.Config.Endpoint
import EgressDns.Lib.UrlFrames

/-!
# Proxy entries

`config/proxy.rs`: what an entry of `proxies` is parsed to, the texts it is shown under, and which
entries the redaction of `Config::to_redacted_toml` rewrites.
-/

namespace EgressDns

open Lib (decimal)

inductive ProxyKind where
  | socks5 | socks5Hostname | httpConnect | httpsConnect
  deriving DecidableEq, Repr

namespace ProxyKind

def label : ProxyKind → Text
  | .socks5 => ascii "socks5"
  | .socks5Hostname => ascii "socks5h"
  | .httpConnect => ascii "http"
  | .httpsConnect => ascii "https"

def debug : ProxyKind → Text
  | .socks5 => ascii "Socks5"
  | .socks5Hostname => ascii "Socks5Hostname"
  | .httpConnect => ascii "HttpConnect"
  | .httpsConnect => ascii "HttpsConnect"

def ofScheme (scheme : Text) : Option ProxyKind :=
  if scheme = ascii "socks5" then some .socks5
  else if scheme = ascii "socks5h" then some .socks5Hostname
  else if scheme = ascii "http" then some .httpConnect
  else if scheme = ascii "https" then some .httpsConnect
  else none

def usualPort : ProxyKind → Nat
  | .socks5 | .socks5Hostname => 1080
  | .httpConnect => 8080
  | .httpsConnect => 8443

def carriesUdp (_ : ProxyKind) : Bool := false

end ProxyKind

structure ProxyCredentials where
  username : Text
  password : Text
  deriving DecidableEq

structure ProxyEndpoint where
  kind : ProxyKind
  host : Text
  port : Nat
  credentials : Option ProxyCredentials
  deriving DecidableEq

namespace ProxyEndpoint

variable (p : ProxyEndpoint)

/-- Also what `Display` writes. -/
def id : Text := p.kind.label ++ ascii "://" ++ p.host ++ 58 :: decimal p.port

def redactedUri : Text :=
  p.kind.label ++ ascii "://<redacted>@" ++ p.host ++ 58 :: decimal p.port

def debugCredentials : Option ProxyCredentials → Text
  | none => ascii "None"
  | some _ => ascii "Some(ProxyCredentials(<redacted>))"

def debug (quote : Text → Text) : Text :=
  ascii "ProxyEndpoint \x7b kind: " ++ p.kind.debug ++ ascii ", host: " ++ quote p.host ++
    ascii ", port: " ++ decimal p.port ++ ascii ", credentials: " ++
    debugCredentials p.credentials ++ ascii " \x7d"

end ProxyEndpoint

/-- `u8::from_str_radix` on two characters: a plus sign may stand for the first digit. -/
def radixPair (b c : UInt8) : Option UInt8 :=
  if b = 43 then (Lib.hexDigit c).map UInt8.ofNat else Lib.hexPair b c

section Parse

variable (lib : ConfigLib)

def percentDecode (input : Text) : Text := lib.utf8Lossy (Lib.percentDecode radixPair input)

def credentialsOf (url : Lib.Url.Address) : Option ProxyCredentials :=
  if url.username = [] then none
  else some { username := percentDecode lib url.username
              password := percentDecode lib (url.password.getD []) }

def proxyOfUrl (entry : Text) (url : Lib.Url.Address) : Except Text ProxyEndpoint :=
  match ProxyKind.ofScheme url.scheme with
  | none =>
    .error (quoted entry ++ ascii " uses the unsupported proxy scheme " ++ quoted url.scheme ++
      ascii "; supported schemes are socks5, socks5h, http and https")
  | some kind =>
    match url.host with
    | none => .error (quoted entry ++ ascii " has no proxy host")
    | some host =>
      if url.path ≠ [] ∧ url.path ≠ [47] then
        .error (quoted entry ++ ascii " has a path, which a proxy URI cannot use; a proxy is " ++
          ascii "addressed as scheme://host:port")
      else
        .ok { kind
              host := trimBrackets host.text
              port := url.port.getD kind.usualPort
              credentials := credentialsOf lib url }

def parseProxy (entry : Text) : Except Text ProxyEndpoint :=
  let entry := Lib.trim entry
  if entry = [] then .error (ascii "empty proxy entry")
  else match Lib.Url.parse lib.url entry with
    | .error e => .error (quoted entry ++ ascii " is not a valid proxy URI: " ++ e)
    | .ok url => proxyOfUrl lib entry url

def addProxy (out : List ProxyEndpoint) (entry : Text) : Except Text (List ProxyEndpoint) := do
  let proxy ← parseProxy lib entry
  if out.any fun p => p.id == proxy.id then
    .error (quoted proxy.id ++ ascii " is listed more than once")
  else pure (out ++ [proxy])

def parseProxies (entries : List Text) : Except Text (List ProxyEndpoint) :=
  entries.foldlM (addProxy lib) []

def redactEntry (entry : Text) : Text :=
  match parseProxy lib entry with
  | .ok p => if p.credentials.isSome then p.redactedUri else entry
  | .error _ => entry

end Parse

section Shape

variable {lib : ConfigLib} {entry : Text}

/-- A URI of a supported scheme with a host and without a path. -/
structure IsProxyUri (lib : ConfigLib) (entry : Text) (url : Lib.Url.Address) : Prop where
  parsed : Lib.Url.parse lib.url (Lib.trim entry) = .ok url
  scheme : ∃ kind, ProxyKind.ofScheme url.scheme = some kind
  host : ∃ host, url.host = some host
  path : url.path = [] ∨ url.path = [47]

def HasCredentials (lib : ConfigLib) (entry : Text) : Prop :=
  ∃ url, IsProxyUri lib entry url ∧ url.username ≠ []

def endpointOf (lib : ConfigLib) (url : Lib.Url.Address) (kind : ProxyKind)
    (host : Lib.Url.Host) : ProxyEndpoint where
  kind := kind
  host := trimBrackets host.text
  port := url.port.getD kind.usualPort
  credentials := credentialsOf lib url

variable {url : Lib.Url.Address} {p : ProxyEndpoint} {entries : List Text}

theorem parseProxy_of_isProxyUri {kind : ProxyKind} {host : Lib.Url.Host}
    (h : IsProxyUri lib entry url) (hk : ProxyKind.ofScheme url.scheme = some kind)
    (hh : url.host = some host) : parseProxy lib entry = .ok (endpointOf lib url kind host) := by
  have hne : Lib.trim entry ≠ [] := by
    intro hnil
    have hparsed := h.parsed
    rw [hnil] at hparsed
    cases hparsed
  have hpath : ¬ (url.path ≠ [] ∧ url.path ≠ [47]) := by
    rcases h.path with hp | hp
    · simp [hp]
    · simp [hp]
  simp only [parseProxy, hne, if_false, h.parsed, proxyOfUrl, hk, hh, hpath]
  rfl

theorem parseProxy_eq_ok (h : parseProxy lib entry = .ok p) :
    ∃ url kind host, IsProxyUri lib entry url ∧ ProxyKind.ofScheme url.scheme = some kind ∧
      url.host = some host ∧ p = endpointOf lib url kind host := by
  simp only [parseProxy] at h
  split at h
  · cases h
  · split at h
    · cases h
    · rename_i url hparsed
      simp only [proxyOfUrl] at h
      split at h
      · cases h
      · rename_i kind hkind
        split at h
        · cases h
        · rename_i host hhost
          split at h
          · cases h
          · rename_i hpath
            have hpath : url.path = [] ∨ url.path = [47] := by
              by_contra hno
              exact hpath (not_or.mp hno)
            refine ⟨url, kind, host, ⟨hparsed, ⟨kind, hkind⟩, ⟨host, hhost⟩, hpath⟩, hkind, hhost, ?_⟩
            exact (Except.ok.inj h).symm

theorem isSome_credentialsOf : (credentialsOf lib url).isSome = true ↔ url.username ≠ [] := by
  by_cases hu : url.username = []
  · simp [credentialsOf, hu]
  · simp [credentialsOf, hu]

theorem hasCredentials_iff : HasCredentials lib entry ↔
    ∃ p, parseProxy lib entry = .ok p ∧ p.credentials.isSome = true := by
  constructor
  · rintro ⟨url, huri, hu⟩
    obtain ⟨kind, hk⟩ := huri.scheme
    obtain ⟨host, hh⟩ := huri.host
    exact ⟨_, parseProxy_of_isProxyUri huri hk hh, isSome_credentialsOf.mpr hu⟩
  · rintro ⟨p, hp, hsome⟩
    obtain ⟨url, kind, host, huri, -, -, rfl⟩ := parseProxy_eq_ok hp
    exact ⟨url, huri, isSome_credentialsOf.mp hsome⟩

theorem redactEntry_of_hasCredentials (hp : parseProxy lib entry = .ok p)
    (hc : p.credentials.isSome = true) : redactEntry lib entry = p.redactedUri := by
  simp [redactEntry, hp, hc]

theorem redactEntry_of_not (h : ¬ HasCredentials lib entry) : redactEntry lib entry = entry := by
  unfold redactEntry
  split
  · rename_i p hp
    rw [if_neg]
    intro hc
    exact h (hasCredentials_iff.mpr ⟨p, hp, hc⟩)
  · rfl

theorem addProxy_eq_ok_iff {out next : List ProxyEndpoint} :
    addProxy lib out entry = .ok next ↔ ∃ p, parseProxy lib entry = .ok p ∧
      p.id ∉ out.map ProxyEndpoint.id ∧ next = out ++ [p] := by
  unfold addProxy
  cases hp : parseProxy lib entry with
  | error e => simp [bind, Except.bind]
  | ok p =>
    have hany : (out.any fun q => q.id == p.id) = true ↔ p.id ∈ out.map ProxyEndpoint.id := by
      rw [List.any_eq_true, List.mem_map]
      simp
    by_cases hmem : p.id ∈ out.map ProxyEndpoint.id
    · simp only [bind, Except.bind, hany.mpr hmem, if_true, Except.ok.injEq]
      constructor
      · intro h
        cases h
      · rintro ⟨q, rfl, hq, -⟩
        exact absurd hmem hq
    · have hfalse : ¬ (out.any fun q => q.id == p.id) = true := by rwa [hany]
      simp only [bind, Except.bind, hfalse, Bool.false_eq_true, if_false, pure, Except.pure,
        Except.ok.injEq]
      constructor
      · rintro rfl
        exact ⟨p, rfl, hmem, rfl⟩
      · rintro ⟨q, rfl, -, rfl⟩
        rfl

theorem foldlM_addProxy_cons {rest : List Text} {out all : List ProxyEndpoint} :
    (entry :: rest).foldlM (addProxy lib) out = .ok all ↔
      ∃ p, parseProxy lib entry = .ok p ∧ p.id ∉ out.map ProxyEndpoint.id ∧
        rest.foldlM (addProxy lib) (out ++ [p]) = .ok all := by
  rw [List.foldlM_cons]
  cases hadd : addProxy lib out entry with
  | error e =>
    simp only [bind, Except.bind, reduceCtorEq, false_iff]
    rintro ⟨p, hp, hnew, -⟩
    rw [addProxy_eq_ok_iff.mpr ⟨p, hp, hnew, rfl⟩] at hadd
    cases hadd
  | ok next =>
    obtain ⟨p, hp, hnew, rfl⟩ := addProxy_eq_ok_iff.mp hadd
    simp only [bind, Except.bind]
    constructor
    · intro h
      exact ⟨p, hp, hnew, h⟩
    · rintro ⟨q, hq, -, h⟩
      rw [hp] at hq
      cases hq
      exact h

theorem foldlM_addProxy_eq_ok_iff {out all : List ProxyEndpoint}
    (hout : (out.map ProxyEndpoint.id).Nodup) :
    entries.foldlM (addProxy lib) out = .ok all ↔ ∃ more, all = out ++ more ∧
      List.Forall₂ (fun e p => parseProxy lib e = .ok p) entries more ∧
      (all.map ProxyEndpoint.id).Nodup := by
  induction entries generalizing out with
  | nil =>
    constructor
    · intro h
      cases h
      exact ⟨[], by simp, List.Forall₂.nil, hout⟩
    · rintro ⟨more, rfl, hmore, -⟩
      cases hmore
      rw [List.append_nil]
      rfl
  | cons e rest ih =>
    rw [foldlM_addProxy_cons]
    constructor
    · rintro ⟨p, hp, hnew, hrest⟩
      have hnext : ((out ++ [p]).map ProxyEndpoint.id).Nodup := by
        rw [List.map_append, List.map_singleton]
        rw [← List.concat_eq_append]
        exact hout.concat hnew
      obtain ⟨more, rfl, hmore, hnodup⟩ := (ih hnext).mp hrest
      exact ⟨p :: more, by simp, List.Forall₂.cons hp hmore, hnodup⟩
    · rintro ⟨more, rfl, hmore, hnodup⟩
      cases hmore with
      | @cons _ p _ more hp hmore =>
        have hsplit : out ++ p :: more = (out ++ [p]) ++ more := by simp
        have hnext : ((out ++ [p]).map ProxyEndpoint.id).Nodup := by
          rw [hsplit, List.map_append] at hnodup
          exact hnodup.of_append_left
        have hnew : p.id ∉ out.map ProxyEndpoint.id := by
          rw [List.map_append, List.map_singleton] at hnext
          exact fun hmem => (List.disjoint_of_nodup_append hnext) hmem (List.mem_singleton_self _)
        exact ⟨p, hp, hnew, (ih hnext).mpr ⟨more, hsplit, hmore, hnodup⟩⟩

theorem parseProxies_eq_ok_iff {all : List ProxyEndpoint} :
    parseProxies lib entries = .ok all ↔
      List.Forall₂ (fun e p => parseProxy lib e = .ok p) entries all ∧
      (all.map ProxyEndpoint.id).Nodup := by
  have hnil : (([] : List ProxyEndpoint).map ProxyEndpoint.id).Nodup := List.nodup_nil
  rw [parseProxies, foldlM_addProxy_eq_ok_iff hnil]
  simp

end Shape

section Rewritten

open Lib.Url (Host hostOctet ipv6Octet plainOctet)

variable {lib : ConfigLib} {entry : Text} {url : Lib.Url.Address} {kind : ProxyKind} {host : Host}

theorem ofScheme_eq_some {scheme : Text} (h : ProxyKind.ofScheme scheme = some kind) :
    scheme = kind.label := by
  unfold ProxyKind.ofScheme at h
  split at h
  · cases h
    assumption
  · split at h
    · cases h
      assumption
    · split at h
      · cases h
        assumption
      · split at h
        · cases h
          assumption
        · cases h

theorem label_scheme (kind : ProxyKind) : Lib.Url.schemeText kind.label = true ∧
    kind.label.map Lib.Url.lowerOctet = kind.label ∧ kind.label ≠ Lib.Url.text "file" ∧
    Lib.Url.defaultPort kind.label ≠ some kind.usualPort ∧ kind.usualPort ≤ 65535 ∧
    ProxyKind.ofScheme kind.label = some kind := by
  cases kind <;> decide

theorem trimBrackets_ipv6 {x : Text} (h : ∀ b ∈ x, ipv6Octet b = true) :
    trimBrackets (Host.ipv6 x).text = x := by
  have hx : ∀ b ∈ x, b ≠ 91 ∧ b ≠ 93 := fun b hb => Lib.Url.not_bracket_of_ipv6Octet (h b hb)
  have hstart : ((Host.ipv6 x).text.dropWhile fun b => decide (b = 91)) = x ++ [93] := by
    cases x with
    | nil => rfl
    | cons b rest => simp [Host.text, (hx b List.mem_cons_self).1]
  rw [trimBrackets, hstart, List.rdropWhile_concat_pos _ _ _ (by decide)]
  apply List.rdropWhile_eq_self_iff.mpr
  intro hl
  simp [(hx _ (List.getLast_mem hl)).2]

theorem hostOctet_plain {b : UInt8} (h : hostOctet b = true) :
    plainOctet b = true ∧ b ∉ [58, 91, 93] := by
  simp [hostOctet, plainOctet, Lib.visible, Lib.Url.delimiter, UInt8.le_iff_toNat_le,
    ← UInt8.toNat_inj] at h ⊢
  omega

/-- Two endpoints that differ in their credentials at most, and not in having any. -/
structure ProxyEndpoint.SameUpToUserinfo (p q : ProxyEndpoint) : Prop where
  kind : p.kind = q.kind
  host : p.host = q.host
  port : p.port = q.port
  credentials : p.credentials.isSome = q.credentials.isSome

theorem redactedUri_eq (p : ProxyEndpoint) : p.redactedUri =
    (Lib.Url.rendered p.kind.label p.host p.port).fill (some (ascii "<redacted>")) := by
  have hmiddle : ascii "://<redacted>@" = 58 :: ([47, 47] ++ (ascii "<redacted>" ++ [64])) := by
    decide
  simp [ProxyEndpoint.redactedUri, Lib.Url.rendered, Lib.Url.Frame.fill, Lib.Url.userinfoText,
    hmiddle]

theorem redacted_plain : ∀ b ∈ ascii "<redacted>", plainOctet b = true :=
  List.all_eq_true.mp (by decide)

theorem visible_redactedUri {p : ProxyEndpoint} (hp : ∀ b ∈ p.host, plainOctet b = true) :
    ∀ b ∈ p.redactedUri, Lib.visible b = true := by
  intro b hb
  have hlabel : ∀ b ∈ p.kind.label ++ ascii "://<redacted>@", Lib.visible b = true := by
    cases p.kind <;> exact List.all_eq_true.mp (by decide)
  rw [ProxyEndpoint.redactedUri, List.append_assoc] at hb
  rcases List.mem_append.mp hb with hb | hb
  · exact hlabel b hb
  · exact (Lib.Url.plainOctet_iff.mp (Lib.Url.plain_rest p.port hp b hb)).1

theorem IsProxyUri.facts (huri : IsProxyUri lib entry url)
    (hk : ProxyKind.ofScheme url.scheme = some kind) (hh : url.host = some host) :
    (∃ name, lib.url.host (Lib.Url.special kind.label) name = .ok host) ∧
    (endpointOf lib url kind host).port ≤ 65535 ∧
    Lib.Url.defaultPort kind.label ≠ some (endpointOf lib url kind host).port := by
  obtain ⟨-, -, hfile, husual, hsmall, -⟩ := label_scheme kind
  have hscheme := ofScheme_eq_some hk
  rw [← hscheme] at hfile husual ⊢
  obtain ⟨hname, hport⟩ := Lib.Url.parse_host_eq_some huri.parsed hfile hh
  refine ⟨hname, ?_⟩
  cases hp : url.port with
  | none => simpa [endpointOf, hp] using ⟨hsmall, husual⟩
  | some n => simpa [endpointOf, hp] using hport n hp

theorem parseProxy_redactedUri (huri : IsProxyUri lib entry url)
    (hk : ProxyKind.ofScheme url.scheme = some kind) (hh : url.host = some host)
    (hu : url.username ≠ []) (h6 : host.isIpv6 = false) :
    ∃ p, parseProxy lib (endpointOf lib url kind host).redactedUri = .ok p ∧
      (endpointOf lib url kind host).SameUpToUserinfo p := by
  obtain ⟨⟨name, hname⟩, hport, husual⟩ := huri.facts hk hh
  obtain ⟨hne, hoctets⟩ := lib.url.host_octets hname h6
  obtain ⟨hscheme, hlower, hfile, -, -, hkind⟩ := label_scheme kind
  have hplain : ∀ b ∈ host.text, plainOctet b = true := fun b hb => (hostOctet_plain (hoctets b hb)).1
  have hout : ∀ b ∈ host.text, b ∉ [58, 91, 93] := fun b hb => (hostOctet_plain (hoctets b hb)).2
  have htrim : trimBrackets host.text = host.text := by
    apply trimBrackets_of_notMem
    intro b hb
    have hb := hout b hb
    simp only [List.mem_cons, List.not_mem_nil, or_false, not_or] at hb
    exact hb.2
  have hhost : (endpointOf lib url kind host).host = host.text := htrim
  have hparse := Lib.Url.parse_rendered_ok hscheme hlower hfile redacted_plain hplain
    (lib.url.host_text hname) hne hout hport husual
  have hclean : Lib.trim (endpointOf lib url kind host).redactedUri =
      (endpointOf lib url kind host).redactedUri :=
    Lib.trim_of_visible (visible_redactedUri (by rwa [hhost]))
  have huri' : IsProxyUri lib (endpointOf lib url kind host).redactedUri
      (Lib.Url.assemble lib.url kind.label (some (ascii "<redacted>")) (some host)
        (some (endpointOf lib url kind host).port) []) := by
    refine ⟨?_, ⟨kind, hkind⟩, ⟨host, rfl⟩, ?_⟩
    · rw [hclean, redactedUri_eq, hhost]
      exact hparse
    · have hpath := lib.url.path_nil (Lib.Url.special kind.label)
      split at hpath
      · exact .inr hpath
      · exact .inl hpath
  have hnew : HasCredentials lib (endpointOf lib url kind host).redactedUri := by
    refine ⟨_, huri', ?_⟩
    change Lib.percentEncode Lib.Url.userinfoEncodes
      (Lib.Url.usernameOf (some (ascii "<redacted>"))) ≠ []
    decide
  obtain ⟨p, hp, hsome⟩ := hasCredentials_iff.mp hnew
  refine ⟨p, hp, ?_⟩
  rw [parseProxy_of_isProxyUri huri' hkind rfl] at hp
  cases hp
  exact ⟨rfl, rfl, rfl, (isSome_credentialsOf.mpr hu).trans hsome.symm⟩

theorem parseProxy_redactedUri_ipv6 {x : Text} (huri : IsProxyUri lib entry url)
    (hk : ProxyKind.ofScheme url.scheme = some kind) (hh : url.host = some (.ipv6 x)) :
    ∃ e, parseProxy lib (endpointOf lib url kind (.ipv6 x)).redactedUri = .error e := by
  obtain ⟨⟨name, hname⟩, -, -⟩ := huri.facts hk hh
  obtain ⟨-, h58, h6⟩ := lib.url.host_ipv6 hname
  obtain ⟨hscheme, hlower, hfile, -, -, -⟩ := label_scheme kind
  have hhost : (endpointOf lib url kind (.ipv6 x)).host = x := trimBrackets_ipv6 h6
  have hplain : ∀ b ∈ x, plainOctet b = true :=
    fun b hb => Lib.Url.plainOctet_of_ipv6Octet (h6 b hb)
  have hclean : Lib.trim (endpointOf lib url kind (.ipv6 x)).redactedUri =
      (endpointOf lib url kind (.ipv6 x)).redactedUri :=
    Lib.trim_of_visible (visible_redactedUri (by rwa [hhost]))
  obtain ⟨e, he⟩ : ∃ e, Lib.Url.parse lib.url (Lib.Url.Frame.fill
      (Lib.Url.rendered kind.label x (endpointOf lib url kind (.ipv6 x)).port)
      (some (ascii "<redacted>"))) = .error e :=
    Lib.Url.parse_rendered_bare_ipv6 hscheme hlower hfile redacted_plain hplain h58 h6
  have hparse : Lib.Url.parse lib.url (endpointOf lib url kind (.ipv6 x)).redactedUri =
      .error e := by
    rw [redactedUri_eq, hhost]
    exact he
  simp only [parseProxy, hclean, hparse]
  split
  · exact ⟨_, rfl⟩
  · exact ⟨_, rfl⟩

end Rewritten

end EgressDns
