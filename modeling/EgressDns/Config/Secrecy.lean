import EgressDns.Config.File

/-!
# What shows of proxy credentials

Everything that a configuration shows of its proxies (the dump, the identities and labels, the
`Debug` of an endpoint, the error texts) is compared for two configurations that differ in the
userinfo of their proxy URIs. It is the same exactly if the entries that differ are proxy URIs with
a username: every error text quotes the entry, and an entry without a username is dumped as it
stands.
-/

namespace EgressDns

open Lib.Url (Frame)

/-- Two entries that are the same but for the userinfo, if any, of their authority. -/
def SameButUserinfo (e e' : Text) : Prop :=
  ∃ (f : Frame) (u u' : Option Text), f.trim.Fits u ∧ f.trim.Fits u' ∧ e = f.fill u ∧ e' = f.fill u'

structure Document.SameButUserinfo {R : Type} (d d' : Document R) : Prop where
  upstreams : d.upstreams = d'.upstreams
  tokenFile : d.apiTokenFile = d'.apiTokenFile
  tokenEnv : d.apiTokenEnv = d'.apiTokenEnv
  rest : d.rest = d'.rest
  proxies : List.Forall₂ EgressDns.SameButUserinfo d.proxies d'.proxies

def ProxyEndpoint.shown (quote : Text → Text) (p : ProxyEndpoint) : Text × Text × Text :=
  (p.id, p.kind.label, p.debug quote)

@[ext] structure Exposure where
  dump : Text
  entries : List (Except Text (Text × Text × Text))
  outcome : Except Text (List (Text × Text × Text))

section Exposure

variable {R : Type} (lib : ConfigLib) (toml : Toml R)
  (validate : R → UpstreamConfig → Except ConfigError Unit) (quote : Text → Text)

def exposure (d : Document R) : Exposure where
  dump := toRedactedToml lib toml d
  entries := d.proxies.map fun e => (parseProxy lib e).map (ProxyEndpoint.shown quote)
  outcome := match fromDocument lib validate d with
    | .ok cfg => .ok (cfg.proxy.map (ProxyEndpoint.shown quote))
    | .error e => .error e.text

end Exposure

section Pairs

variable {R : Type} {lib : ConfigLib} {quote : Text → Text} {e e' : Text}

theorem ProxyEndpoint.SameUpToUserinfo.shown_eq {p q : ProxyEndpoint} (h : p.SameUpToUserinfo q) :
    p.shown quote = q.shown quote := by
  have hcred : ProxyEndpoint.debugCredentials p.credentials =
      ProxyEndpoint.debugCredentials q.credentials := by
    have hsome := h.credentials
    cases hp : p.credentials with
    | none =>
      rw [hp] at hsome
      rw [Option.isSome_eq_false_iff.mp hsome.symm |> Option.isNone_iff_eq_none.mp]
    | some c =>
      rw [hp] at hsome
      obtain ⟨c', hc'⟩ := Option.isSome_iff_exists.mp hsome.symm
      rw [hc']
      rfl
  simp only [ProxyEndpoint.shown, h.id_eq, ProxyEndpoint.debug, h.kind, h.host, h.port, hcred]

theorem scheme_ne_file {url : Lib.Url.Address} (h : IsProxyUri lib e url) :
    url.scheme ≠ Lib.Url.text "file" := by
  obtain ⟨kind, hk⟩ := h.scheme
  rw [ofScheme_eq_some hk]
  exact (label_scheme kind).2.2.1

theorem same_endpoint (h : SameButUserinfo e e') (hc : HasCredentials lib e)
    (hc' : HasCredentials lib e') : ∃ p q, parseProxy lib e = .ok p ∧ parseProxy lib e' = .ok q ∧
      p.SameUpToUserinfo q ∧ p.credentials.isSome = true := by
  obtain ⟨f, u, u', hu, hu', rfl, rfl⟩ := h
  obtain ⟨url, huri, hname⟩ := hc
  obtain ⟨url', huri', hname'⟩ := hc'
  have hparsed := huri.parsed
  have hparsed' := huri'.parsed
  rw [Frame.trim_fill hu] at hparsed
  rw [Frame.trim_fill hu'] at hparsed'
  obtain ⟨hscheme, hhost, hport, -⟩ :=
    Lib.Url.parse_fill_agree hu hu' hparsed hparsed' (scheme_ne_file huri)
  obtain ⟨kind, hk⟩ := huri.scheme
  obtain ⟨host, hh⟩ := huri.host
  refine ⟨_, _, parseProxy_of_isProxyUri huri hk hh,
    parseProxy_of_isProxyUri huri' (hscheme ▸ hk) (hhost ▸ hh), ?_, isSome_credentialsOf.mpr hname⟩
  refine ⟨rfl, rfl, ?_, ?_⟩
  · simp only [endpointOf, hport]
  · exact (isSome_credentialsOf.mpr hname).trans (isSome_credentialsOf.mpr hname').symm

theorem bracket_notMem_redactedUri {p : ProxyEndpoint} (h : 91 ∉ p.host) : 91 ∉ p.redactedUri := by
  have hlabel : 91 ∉ p.kind.label ++ ascii "://<redacted>@" := by
    cases p.kind <;> decide
  have hdigits : 91 ∉ Lib.decimal p.port := by
    intro hmem
    exact absurd (Lib.digit_of_mem_decimal hmem) (by decide)
  intro hmem
  rw [ProxyEndpoint.redactedUri, List.append_assoc] at hmem
  rcases List.mem_append.mp hmem with hmem | hmem
  · exact hlabel hmem
  · rcases List.mem_append.mp hmem with hmem | hmem
    · exact h hmem
    · rcases List.mem_cons.mp hmem with hmem | hmem
      · cases hmem
      · exact hdigits hmem

section

variable (h : SameButUserinfo e e')
include h

theorem redactEntry_ne (hc : HasCredentials lib e) (hc' : ¬ HasCredentials lib e') :
    redactEntry lib e ≠ redactEntry lib e' := by
  obtain ⟨url, huri, hname⟩ := hc
  obtain ⟨kind, hk⟩ := huri.scheme
  obtain ⟨host, hh⟩ := huri.host
  have hp := parseProxy_of_isProxyUri huri hk hh
  rw [redactEntry_of_hasCredentials hp (isSome_credentialsOf.mpr hname), redactEntry_of_not hc']
  intro heq
  cases hsix : host.isIpv6 with
  | false =>
    -- The rewritten entry has credentials itself.
    obtain ⟨q, hq, hsame⟩ := parseProxy_redactedUri huri hk hh hname hsix
    rw [heq] at hq
    have hsome : q.credentials.isSome = true :=
      hsame.credentials ▸ isSome_credentialsOf.mpr hname
    exact hc' (hasCredentials_iff.mpr ⟨q, hq, hsome⟩)
  | true =>
    -- The rewritten entry has lost the brackets, which stand outside the userinfo.
    obtain ⟨x, rfl⟩ : ∃ x, host = .ipv6 x := by
      cases host with
      | domain t | ipv4 t => cases hsix
      | ipv6 x => exact ⟨x, rfl⟩
    obtain ⟨f, u, u', hu, hu', rfl, rfl⟩ := h
    have hparsed := huri.parsed
    rw [Frame.trim_fill hu] at hparsed
    have hbracket : 91 ∈ f.rest := Lib.mem_of_mem_trimEnd
      (Lib.Url.bracket_mem_of_ipv6 hu hparsed (scheme_ne_file huri) hh)
    obtain ⟨⟨name, hname⟩, -⟩ := huri.facts hk hh
    have hoctets := (lib.url.host_ipv6 hname).2.2
    have hhost : (endpointOf lib url kind (.ipv6 x)).host = x := trimBrackets_ipv6 hoctets
    apply bracket_notMem_redactedUri (p := endpointOf lib url kind (.ipv6 x))
    · rw [hhost]
      exact fun hmem => (Lib.Url.not_bracket_of_ipv6Octet (hoctets 91 hmem)).1 rfl
    · rw [heq]
      simp [Frame.fill, hbracket]

theorem redactEntry_eq_of_same (hc : HasCredentials lib e) (hc' : HasCredentials lib e') :
    redactEntry lib e = redactEntry lib e' := by
  obtain ⟨p, q, hp, hq, hsame, hsome⟩ := same_endpoint h hc hc'
  rw [redactEntry_of_hasCredentials hp hsome,
    redactEntry_of_hasCredentials hq (hsame.credentials ▸ hsome)]
  simp only [ProxyEndpoint.redactedUri, hsame.kind, hsame.host, hsame.port]

theorem SameButUserinfo.symm : SameButUserinfo e' e := by
  obtain ⟨f, u, u', hu, hu', he, he'⟩ := h
  exact ⟨f, u', u, hu', hu, he', he⟩

theorem redactEntry_eq_iff :
    redactEntry lib e = redactEntry lib e' ↔
      e = e' ∨ HasCredentials lib e ∧ HasCredentials lib e' := by
  constructor
  · intro heq
    by_cases hc : HasCredentials lib e
    · by_cases hc' : HasCredentials lib e'
      · exact .inr ⟨hc, hc'⟩
      · exact absurd heq (redactEntry_ne h hc hc')
    · by_cases hc' : HasCredentials lib e'
      · exact absurd heq.symm (redactEntry_ne h.symm hc' hc)
      · rw [redactEntry_of_not hc, redactEntry_of_not hc'] at heq
        exact .inl heq
  · rintro (rfl | ⟨hc, hc'⟩)
    · rfl
    · exact redactEntry_eq_of_same h hc hc'

end

end Pairs

section Lists

variable {R : Type} {lib : ConfigLib} {quote : Text → Text} {es es' : List Text}

def Covered (lib : ConfigLib) (e e' : Text) : Prop :=
  e = e' ∨ HasCredentials lib e ∧ HasCredentials lib e'

theorem map_redactEntry_eq_iff (h : List.Forall₂ SameButUserinfo es es') :
    es.map (redactEntry lib) = es'.map (redactEntry lib) ↔ List.Forall₂ (Covered lib) es es' := by
  induction h with
  | nil => simp
  | @cons e e' rest rest' he hrest ih =>
    rw [List.map_cons, List.map_cons, List.cons.injEq, List.forall₂_cons, ih,
      redactEntry_eq_iff he]
    rfl

theorem parse_alike {e e' : Text} (h : SameButUserinfo e e') (hc : Covered lib e e') :
    (∃ err, parseProxy lib e = .error err ∧ parseProxy lib e' = .error err) ∨
    ∃ p q, parseProxy lib e = .ok p ∧ parseProxy lib e' = .ok q ∧ p.SameUpToUserinfo q := by
  rcases hc with rfl | ⟨hc, hc'⟩
  · cases hp : parseProxy lib e with
    | error err => exact .inl ⟨err, rfl, rfl⟩
    | ok p => exact .inr ⟨p, p, rfl, rfl, .refl p⟩
  · obtain ⟨p, q, hp, hq, hsame, -⟩ := same_endpoint h hc hc'
    exact .inr ⟨p, q, hp, hq, hsame⟩

theorem shown_parse_eq {e e' : Text} (h : SameButUserinfo e e') (hc : Covered lib e e') :
    (parseProxy lib e).map (ProxyEndpoint.shown quote) =
      (parseProxy lib e').map (ProxyEndpoint.shown quote) := by
  rcases parse_alike h hc with ⟨err, he, he'⟩ | ⟨p, q, he, he', hsame⟩
  · rw [he, he']
  · rw [he, he']
    exact congrArg Except.ok hsame.shown_eq

/-- Both fail with one text, or both yield the same proxies up to credentials. -/
def Alike (r r' : Except Text (List ProxyEndpoint)) : Prop :=
  (∃ err, r = .error err ∧ r' = .error err) ∨
  ∃ ps qs, r = .ok ps ∧ r' = .ok qs ∧ List.Forall₂ ProxyEndpoint.SameUpToUserinfo ps qs

theorem addProxy_alike {e e' : Text} {out out' : List ProxyEndpoint} (h : SameButUserinfo e e')
    (hc : Covered lib e e') (hout : List.Forall₂ ProxyEndpoint.SameUpToUserinfo out out') :
    Alike (addProxy lib out e) (addProxy lib out' e') := by
  rcases parse_alike h hc with ⟨err, he, he'⟩ | ⟨p, q, he, he', hsame⟩
  · left
    exact ⟨err, by simp [addProxy, he, bind, Except.bind], by simp [addProxy, he', bind, Except.bind]⟩
  · have hany : (out.any fun r => r.id == p.id) = out'.any fun r => r.id == q.id := by
      have hmap : ∀ (ps : List ProxyEndpoint) (x : Text),
          (ps.any fun r => r.id == x) = (ps.map ProxyEndpoint.id).any (· == x) := by
        intro ps x
        rw [List.any_map]
        rfl
      rw [hmap, hmap, map_id_eq hout, hsame.id_eq]
    have hadd : addProxy lib out e = if (out'.any fun r => r.id == q.id) = true then
        .error (quoted q.id ++ ascii " is listed more than once") else .ok (out ++ [p]) := by
      rw [← hany, ← hsame.id_eq]
      simp [addProxy, he, bind, Except.bind, pure, Except.pure]
    have hadd' : addProxy lib out' e' = if (out'.any fun r => r.id == q.id) = true then
        .error (quoted q.id ++ ascii " is listed more than once") else .ok (out' ++ [q]) := by
      simp [addProxy, he', bind, Except.bind, pure, Except.pure]
    rw [hadd, hadd']
    split
    · exact .inl ⟨_, rfl, rfl⟩
    · exact .inr ⟨_, _, rfl, rfl, List.rel_append hout (.cons hsame .nil)⟩

theorem foldlM_addProxy_alike (h : List.Forall₂ SameButUserinfo es es')
    (hc : List.Forall₂ (Covered lib) es es') {out out' : List ProxyEndpoint}
    (hout : List.Forall₂ ProxyEndpoint.SameUpToUserinfo out out') :
    Alike (es.foldlM (addProxy lib) out) (es'.foldlM (addProxy lib) out') := by
  induction h generalizing out out' with
  | nil => exact .inr ⟨out, out', rfl, rfl, hout⟩
  | @cons e e' rest rest' he hrest ih =>
    obtain ⟨hce, hcrest⟩ := List.forall₂_cons.mp hc
    rw [List.foldlM_cons, List.foldlM_cons]
    rcases addProxy_alike he hce hout with ⟨err, ha, ha'⟩ | ⟨ps, qs, ha, ha', hnext⟩
    · rw [ha, ha']
      exact .inl ⟨err, rfl, rfl⟩
    · rw [ha, ha']
      exact ih hcrest hnext

theorem map_shown_eq {ps qs : List ProxyEndpoint}
    (h : List.Forall₂ ProxyEndpoint.SameUpToUserinfo ps qs) :
    ps.map (ProxyEndpoint.shown quote) = qs.map (ProxyEndpoint.shown quote) := by
  induction h with
  | nil => rfl
  | cons hpq _ ih => rw [List.map_cons, List.map_cons, hpq.shown_eq, ih]

theorem entries_shown_eq (h : List.Forall₂ SameButUserinfo es es')
    (hc : List.Forall₂ (Covered lib) es es') :
    (es.map fun e => (parseProxy lib e).map (ProxyEndpoint.shown quote)) =
      es'.map fun e => (parseProxy lib e).map (ProxyEndpoint.shown quote) := by
  induction h with
  | nil => rfl
  | @cons e e' rest rest' he hrest ih =>
    obtain ⟨hce, hcrest⟩ := List.forall₂_cons.mp hc
    rw [List.map_cons, List.map_cons, shown_parse_eq he hce, ih hcrest]

end Lists

section Documents

variable {R : Type} {lib : ConfigLib} {toml : Toml R} {d d' : Document R}

theorem toRedactedToml_eq_iff :
    toRedactedToml lib toml d = toRedactedToml lib toml d' ↔ d.redacted lib = d'.redacted lib := by
  constructor
  · intro h
    obtain ⟨t, _, hw, -, -, hread⟩ := toml.written (d.redacted lib)
    obtain ⟨t', _, hw', -, -, hread'⟩ := toml.written (d'.redacted lib)
    simp only [toRedactedToml, hw, hw'] at h
    rw [h, hread'] at hread
    exact (Except.ok.inj hread).symm
  · intro h
    simp only [toRedactedToml, h]

theorem redacted_eq_iff (h : d.SameButUserinfo d') :
    d.redacted lib = d'.redacted lib ↔ List.Forall₂ (Covered lib) d.proxies d'.proxies := by
  rw [← map_redactEntry_eq_iff h.proxies]
  simp only [Document.redacted, h.upstreams, h.tokenFile, h.rest, Document.mk.injEq, true_and,
    and_true]

theorem outcome_eq (toml : Toml R) (validate : R → UpstreamConfig → Except ConfigError Unit)
    (quote : Text → Text) (h : d.SameButUserinfo d')
    (hc : List.Forall₂ (Covered lib) d.proxies d'.proxies) :
    (exposure lib toml validate quote d).outcome = (exposure lib toml validate quote d').outcome := by
  have hproxies : Alike (parseProxies lib d.proxies) (parseProxies lib d'.proxies) :=
    foldlM_addProxy_alike h.proxies hc .nil
  simp only [exposure, fromDocument, h.upstreams, h.rest]
  cases buildUpstreams lib d'.upstreams with
  | error e => rfl
  | ok upstream =>
    rcases hproxies with ⟨err, hp, hp'⟩ | ⟨ps, qs, hp, hp', hsame⟩
    · rw [hp, hp']
      rfl
    · rw [hp, hp']
      cases hv : validate d'.rest upstream with
      | error e => simp [Except.mapError, bind, Except.bind, hv]
      | ok valid =>
        simp [Except.mapError, bind, Except.bind, hv, pure, Except.pure, map_shown_eq hsame]

end Documents

section Debug

def debugItems (quote : Text → Text) : List Text → Text
  | [] => [93]
  | t :: rest => ascii ", " ++ (quote t ++ debugItems quote rest)

def debugList (quote : Text → Text) : List Text → Text
  | [] => 91 :: [93]
  | t :: rest => 91 :: (quote t ++ debugItems quote rest)

/-- How the derived `Debug` of `Config` writes strings, the local forwarder, and everything after
the field `proxies`. -/
structure DebugLib (R : Type) where
  quote : Text → Text
  forwarder : Option IpAddr → Text
  sections : Settings R → Text
  quote_delimited : Lib.SelfDelimiting quote
  quote_opens : ∀ t, (quote t).head? = some 34

variable {R : Type} (dbg : DebugLib R)

def debugConfig (cfg : Settings R) : Text :=
  ascii "Config \x7b upstreams: " ++ debugList dbg.quote cfg.upstreams ++
    ascii ", local_forwarder: " ++ dbg.forwarder cfg.localForwarder ++ ascii ", proxies: " ++
    (debugList dbg.quote cfg.proxies ++ dbg.sections cfg)

theorem debugItems_delimited : Lib.SelfDelimiting (debugItems dbg.quote) := by
  intro ts
  induction ts with
  | nil =>
    intro us x y h
    cases us with
    | nil => exact ⟨rfl, List.tail_eq_of_cons_eq h⟩
    | cons u us => exact absurd (List.head_eq_of_cons_eq h) (by decide)
  | cons t ts ih =>
    intro us x y h
    cases us with
    | nil => exact absurd (List.head_eq_of_cons_eq h) (by decide)
    | cons u us =>
      have hrest : dbg.quote t ++ (debugItems dbg.quote ts ++ x) =
          dbg.quote u ++ (debugItems dbg.quote us ++ y) := by
        simpa [debugItems] using h
      obtain ⟨rfl, htail⟩ := dbg.quote_delimited _ _ _ _ hrest
      obtain ⟨rfl, hxy⟩ := ih us x y htail
      exact ⟨rfl, hxy⟩

theorem debugList_delimited : Lib.SelfDelimiting (debugList dbg.quote) := by
  have hopen : ∀ t rest y, 93 :: y ≠ dbg.quote t ++ rest := by
    intro t rest y h
    cases hq : dbg.quote t with
    | nil =>
      have hhead := dbg.quote_opens t
      rw [hq] at hhead
      cases hhead
    | cons b more =>
      have hhead := dbg.quote_opens t
      rw [hq] at h hhead
      cases hhead
      exact absurd (List.head_eq_of_cons_eq h) (by decide)
  intro ts us x y h
  cases ts with
  | nil =>
    cases us with
    | nil => exact ⟨rfl, by simpa [debugList] using h⟩
    | cons u us => exact absurd (by simpa [debugList] using h) (hopen u (debugItems dbg.quote us ++ y) x)
  | cons t ts =>
    cases us with
    | nil =>
      have h' : 93 :: y = dbg.quote t ++ (debugItems dbg.quote ts ++ x) := by
        simpa [debugList] using h.symm
      exact absurd h' (hopen t _ y)
    | cons u us =>
      have hrest : dbg.quote t ++ (debugItems dbg.quote ts ++ x) =
          dbg.quote u ++ (debugItems dbg.quote us ++ y) := by
        simpa [debugList] using h
      obtain ⟨rfl, htail⟩ := dbg.quote_delimited _ _ _ _ hrest
      obtain ⟨rfl, hxy⟩ := debugItems_delimited dbg _ _ _ _ htail
      exact ⟨rfl, hxy⟩

theorem proxies_eq_of_debugConfig_eq {cfg cfg' : Settings R} (hup : cfg.upstreams = cfg'.upstreams)
    (hlocal : cfg.localForwarder = cfg'.localForwarder)
    (h : debugConfig dbg cfg = debugConfig dbg cfg') : cfg.proxies = cfg'.proxies := by
  simp only [debugConfig, hup, hlocal] at h
  exact (debugList_delimited dbg _ _ _ _ (List.append_cancel_left h)).1

end Debug

section Both

variable {R : Type}

/-- What two configurations show that differ in the userinfo of proxy URIs is the same exactly if
the entries that differ are proxy URIs with a username. `Debug` of the configuration is the same
only if no entry differs. -/
theorem proxy_credentials_hidden_iff (lib : ConfigLib) (toml : Toml R)
    (validate : R → UpstreamConfig → Except ConfigError Unit) (dbg : DebugLib R)
    {d d' : Document R} (h : d.SameButUserinfo d') :
    (exposure lib toml validate dbg.quote d = exposure lib toml validate dbg.quote d' ↔
      List.Forall₂ (fun e e' => e = e' ∨ HasCredentials lib e ∧ HasCredentials lib e')
        d.proxies d'.proxies) ∧
    ∀ cfg cfg', fromDocument lib validate d = .ok cfg → fromDocument lib validate d' = .ok cfg' →
      (debugConfig dbg cfg = debugConfig dbg cfg' ↔ d.proxies = d'.proxies) := by
  constructor
  · constructor
    · intro heq
      have hdump := congrArg Exposure.dump heq
      exact (redacted_eq_iff h).mp (toRedactedToml_eq_iff.mp hdump)
    · intro hc
      have hdump : toRedactedToml lib toml d = toRedactedToml lib toml d' :=
        toRedactedToml_eq_iff.mpr ((redacted_eq_iff h).mpr hc)
      exact Exposure.ext hdump (entries_shown_eq h.proxies hc)
        (outcome_eq toml validate dbg.quote h hc)
  · intro cfg cfg' hcfg hcfg'
    obtain ⟨-, -, -, hdoc, hlocal⟩ := fromDocument_eq_ok_iff.mp hcfg
    obtain ⟨-, -, -, hdoc', hlocal'⟩ := fromDocument_eq_ok_iff.mp hcfg'
    constructor
    · intro hdebug
      have hup : cfg.upstreams = cfg'.upstreams := by rw [hdoc, hdoc', h.upstreams]
      have hproxies := proxies_eq_of_debugConfig_eq dbg hup (hlocal.trans hlocal'.symm) hdebug
      rwa [hdoc, hdoc'] at hproxies
    · intro hproxies
      have hsame : d = d' := by
        cases d
        cases d'
        cases h
        simp_all
      subst hsame
      rw [hcfg] at hcfg'
      cases hcfg'
      rfl

end Both

def escapeQuote (b : UInt8) : Text := if b = 34 ∨ b = 92 then [92, b] else [b]

def quoteSample (t : Text) : Text := 34 :: (t.flatMap escapeQuote ++ [34])

theorem quoteSample_delimited : Lib.SelfDelimiting quoteSample := by
  have hbody : ∀ t u x y : Text, t.flatMap escapeQuote ++ 34 :: x = u.flatMap escapeQuote ++ 34 :: y →
      t = u ∧ x = y := by
    intro t
    induction t with
    | nil =>
      intro u x y h
      cases u with
      | nil => exact ⟨rfl, List.tail_eq_of_cons_eq h⟩
      | cons c us =>
        by_cases hc : c = 34 ∨ c = 92
        · simp [escapeQuote, hc] at h
        · simp [escapeQuote, hc] at h
          exact absurd (.inl h.1.symm) hc
    | cons b ts ih =>
      intro u x y h
      cases u with
      | nil =>
        by_cases hb : b = 34 ∨ b = 92
        · simp [escapeQuote, hb] at h
        · simp [escapeQuote, hb] at h
          exact absurd (.inl h.1) hb
      | cons c us =>
        by_cases hb : b = 34 ∨ b = 92
        · by_cases hc : c = 34 ∨ c = 92
          · simp [escapeQuote, hb, hc] at h
            obtain ⟨rfl, hxy⟩ := ih us x y h.2
            exact ⟨by rw [h.1], hxy⟩
          · simp [escapeQuote, hb, hc] at h
            exact absurd (.inr h.1.symm) hc
        · by_cases hc : c = 34 ∨ c = 92
          · simp [escapeQuote, hb, hc] at h
            exact absurd (.inr h.1) hb
          · simp [escapeQuote, hb, hc] at h
            obtain ⟨rfl, hxy⟩ := ih us x y h.2
            exact ⟨by rw [h.1], hxy⟩
  intro t u x y h
  simp only [quoteSample, List.cons_append, List.append_assoc, List.nil_append,
    List.cons.injEq, true_and] at h
  exact hbody t u x y h

def DebugLib.sample : DebugLib Unit where
  quote := quoteSample
  forwarder _ := ascii "None"
  sections _ := []
  quote_delimited := quoteSample_delimited
  quote_opens _ := rfl

def framed (scheme rest userinfo : String) : Document Unit :=
  { proxyDocument "" with
    proxies := [(Frame.mk (ascii scheme) [47, 47] (ascii rest)).fill (some (ascii userinfo))] }

theorem framed_same {scheme rest u v : String}
    (hu : (Frame.mk (ascii scheme) [47, 47] (ascii rest)).trim.Fits (some (ascii u)))
    (hv : (Frame.mk (ascii scheme) [47, 47] (ascii rest)).trim.Fits (some (ascii v))) :
    (framed scheme rest u).SameButUserinfo (framed scheme rest v) :=
  ⟨rfl, rfl, rfl, rfl, .cons ⟨_, _, _, hu, hv, rfl, rfl⟩ .nil⟩

def hasCredentials (lib : ConfigLib) (e : Text) : Bool :=
  match parseProxy lib e with
  | .ok p => p.credentials.isSome
  | .error _ => false

theorem hasCredentials_of {lib : ConfigLib} {e : Text} (h : hasCredentials lib e = true) :
    HasCredentials lib e := by
  unfold hasCredentials at h
  split at h
  · rename_i p hp
    exact hasCredentials_iff.mpr ⟨p, hp, h⟩
  · cases h

theorem proxy_credentials_hidden_named :
    (framed "socks5" "proxy.example:1080" "alice:one").SameButUserinfo
      (framed "socks5" "proxy.example:1080" "bob") ∧
    exposure .sample .sample noRules quoteSample (framed "socks5" "proxy.example:1080" "alice:one") =
      exposure .sample .sample noRules quoteSample (framed "socks5" "proxy.example:1080" "bob") := by
  have hsame : (framed "socks5" "proxy.example:1080" "alice:one").SameButUserinfo
      (framed "socks5" "proxy.example:1080" "bob") := by
    apply framed_same <;>
      exact ⟨by decide +kernel, .inl rfl, by decide +kernel, nofun⟩
  refine ⟨hsame, ?_⟩
  apply (proxy_credentials_hidden_iff .sample .sample noRules .sample hsame).1.mpr
  refine .cons (.inr ⟨?_, ?_⟩) .nil
  · exact hasCredentials_of (by decide)
  · exact hasCredentials_of (by decide)

/-- A refused entry is quoted with its password, and one without a username is dumped with it. -/
theorem proxy_credentials_leak :
    (∃ d d' : Document Unit, d.SameButUserinfo d' ∧
      (exposure .sample .sample noRules quoteSample d).outcome ≠
        (exposure .sample .sample noRules quoteSample d').outcome) ∧
    ∃ d d' : Document Unit, d.SameButUserinfo d' ∧
      (exposure .sample .sample noRules quoteSample d).dump ≠
        (exposure .sample .sample noRules quoteSample d').dump := by
  constructor
  · refine ⟨framed "http" "proxy.example/dns-query" "user:one",
      framed "http" "proxy.example/dns-query" "user:two", ?_, by decide⟩
    apply framed_same <;>
      exact ⟨by decide +kernel, .inl rfl, by decide +kernel, nofun⟩
  · refine ⟨framed "http" "proxy.example" ":one", framed "http" "proxy.example" ":two", ?_, ?_⟩
    · apply framed_same <;>
        exact ⟨by decide +kernel, .inl rfl, by decide +kernel, nofun⟩
    · intro heq
      have hdump : toRedactedToml .sample .sample (framed "http" "proxy.example" ":one") =
          toRedactedToml .sample .sample (framed "http" "proxy.example" ":two") := heq
      have hdoc := toRedactedToml_eq_iff.mp hdump
      exact absurd (congrArg Document.proxies hdoc) (by decide)

end EgressDns
