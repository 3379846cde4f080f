import EgressDns.Upstream.Accounting

/-!
# DNS cookies

The cookie options of `dns/message.rs` and what `Scheduler::attempt` keeps of them on a route: the
server part of an accepted response is sent with the next query.
-/

namespace EgressDns

def encodeClientCookie (client : List UInt8) : EdnsOption := .unknown cookieOptionCode client

def encodeFullCookie (client server : List UInt8) : EdnsOption :=
  .unknown cookieOptionCode (client ++ server.take 32)

def Edns.insert (edns : Edns) (option : EdnsOption) : Edns :=
  { edns with options := edns.options ++ [option] }

namespace Route

def cookieOption (route : Route) : Option (List UInt8) → EdnsOption
  | some server =>
    if server = [] then encodeClientCookie route.clientCookie
    else encodeFullCookie route.clientCookie server
  | none => encodeClientCookie route.clientCookie

/-- What an attempt sends while the route has this server cookie. -/
def outgoing (route : Route) (server : Option (List UInt8)) (message : Message) : Message :=
  if route.cookiesEnabled then
    { message with edns := message.edns.map (·.insert (route.cookieOption server)) }
  else message

/-- The server cookie of the route after a response to what was sent. -/
def learn (hk : Hickory) (route : Route) (server : Option (List UInt8))
    (exchange : Message × Message) : Option (List UInt8) :=
  match validateResponse hk exchange.1 exchange.2 route with
  | .ok _ =>
    if route.cookiesEnabled then
      match extractServerCookie exchange.2 route.clientCookie with
      | some learnt => some learnt
      | none => server
    else server
  | .error _ => server

def serverAfter (hk : Hickory) (route : Route) (exchanges : List (Message × Message)) :
    Option (List UInt8) := exchanges.foldl (route.learn hk) none

end Route

def Message.HasCookie (msg : Message) (octets : List UInt8) : Prop :=
  ∃ edns, msg.edns = some edns ∧ .unknown cookieOptionCode octets ∈ edns.options

def Message.OneCookie (msg : Message) : Prop :=
  ∀ edns, msg.edns = some edns →
    (edns.options.filter fun o => o.code = cookieOptionCode).length ≤ 1

def LegalCookie (server : List UInt8) : Prop :=
  server = [] ∨ (8 ≤ server.length ∧ server.length ≤ 32)

variable {hk : Hickory} {route : Route} {msg : Message} {edns : Edns} {c s : List UInt8}

theorem get_eq_some_iff {o : EdnsOption}
    (hone : (edns.options.filter fun o => o.code = cookieOptionCode).length ≤ 1) :
    edns.get cookieOptionCode = some o ↔ o ∈ edns.options ∧ o.code = cookieOptionCode := by
  unfold Edns.get
  constructor
  · intro h
    exact ⟨List.mem_of_find?_eq_some h, by simpa using List.find?_some h⟩
  · rintro ⟨hmem, hcode⟩
    have hfilter : o ∈ edns.options.filter fun o => o.code = cookieOptionCode :=
      List.mem_filter.mpr ⟨hmem, by simpa using hcode⟩
    obtain ⟨o', hsingle⟩ := List.length_eq_one_iff.mp
      (le_antisymm hone (List.length_pos_of_mem hfilter))
    rw [hsingle] at hfilter
    rw [← List.head?_filter, hsingle, List.mem_singleton.mp hfilter]
    rfl

theorem cookieOctets_iff (hc : c.length = 8) (octets : List UInt8) :
    (if octets.length < 8 ∨ octets.take 8 ≠ c then none
      else if octets.drop 8 = [] then some []
      else if 8 ≤ (octets.drop 8).length ∧ (octets.drop 8).length ≤ 32 then some (octets.drop 8)
      else none) = some s ↔ octets = c ++ s ∧ LegalCookie s := by
  constructor
  · intro h
    split_ifs at h with hbad hnil hlen
    · cases h
      rw [not_or, not_not] at hbad
      exact ⟨by rw [← hbad.2, ← hnil, List.take_append_drop], .inl rfl⟩
    · cases h
      rw [not_or, not_not] at hbad
      exact ⟨by rw [← hbad.2, List.take_append_drop], .inr hlen⟩
  · rintro ⟨rfl, hlegal⟩
    rw [List.take_left' hc, List.drop_left' hc, if_neg (by simp [hc])]
    rcases hlegal with rfl | hlen
    · rfl
    · rw [if_neg (by rintro rfl; simp at hlen), if_pos hlen]

theorem extractServerCookie_eq_some_iff (hc : c.length = 8) (hone : msg.OneCookie) :
    extractServerCookie msg c = some s ↔ msg.HasCookie (c ++ s) ∧ LegalCookie s := by
  unfold extractServerCookie Message.HasCookie
  cases hedns : msg.edns with
  | none => simp
  | some edns =>
    have hget (o : EdnsOption) := get_eq_some_iff (o := o) (hone edns hedns)
    simp only [Option.some.injEq, exists_eq_left']
    cases hopt : edns.get cookieOptionCode with
    | none =>
      refine iff_of_false nofun ?_
      rintro ⟨hmem, -⟩
      cases hopt.symm.trans ((hget _).mpr ⟨hmem, rfl⟩)
    | some o =>
      obtain ⟨hmem, hcode⟩ := (hget o).mp hopt
      have hall : ∀ b, .unknown cookieOptionCode b ∈ edns.options ↔
          o = .unknown cookieOptionCode b := by
        intro b
        constructor
        · intro hb
          exact Option.some.inj (hopt.symm.trans ((hget _).mpr ⟨hb, rfl⟩))
        · rintro rfl
          exact hmem
      rw [hall]
      cases o with
      | subnet => cases hcode
      | unknown code octets =>
        obtain rfl : code = cookieOptionCode := hcode
        simp only [EdnsOption.unknown.injEq, true_and]
        exact cookieOctets_iff hc octets

theorem exists_of_accepted {request : Message} {b : List UInt8}
    (hon : route.cookiesEnabled = true) (hb : msg.HasCookie b)
    (h : validateResponse hk request msg route = .ok ()) :
    ∃ s, extractServerCookie msg route.clientCookie = some s := by
  apply Option.isSome_iff_exists.mp
  apply (checksPassed_of_validateResponse h).cookie hon
  obtain ⟨edns, hedns, hmem⟩ := hb
  rw [hedns, Option.bind_some, Edns.get, List.find?_isSome]
  exact ⟨_, hmem, by rfl⟩

theorem learn_eq_some {server : Option (List UInt8)} {x : Message × Message}
    (h : route.learn hk server x = some s) : server = some s ∨
      (validateResponse hk x.1 x.2 route = .ok () ∧
        extractServerCookie x.2 route.clientCookie = some s) := by
  unfold Route.learn at h
  split at h
  · rename_i hvalid
    split_ifs at h
    · split at h
      · rename_i hlearnt
        exact .inr ⟨hvalid, hlearnt.trans h⟩
      · exact .inl h
    · exact .inl h
  · exact .inl h

/-- Whatever server cookie a route has was received in an accepted response, behind the client
cookie of the route. -/
theorem serverAfter_received (hc : route.clientCookie.length = 8)
    {exchanges : List (Message × Message)} (hone : ∀ x ∈ exchanges, x.2.OneCookie)
    (h : route.serverAfter hk exchanges = some s) : LegalCookie s ∧ ∃ x ∈ exchanges,
      validateResponse hk x.1 x.2 route = .ok () ∧ x.2.HasCookie (route.clientCookie ++ s) := by
  induction exchanges using List.reverseRecOn with
  | nil => cases h
  | append_singleton exchanges x ih =>
    rw [Route.serverAfter, List.foldl_append] at h
    rcases learn_eq_some h with hold | ⟨hvalid, hlearnt⟩
    · obtain ⟨hlegal, y, hy, hreceived⟩ :=
        ih (fun y hy => hone y (List.mem_append_left _ hy)) hold
      exact ⟨hlegal, y, List.mem_append_left _ hy, hreceived⟩
    · have hx : x ∈ exchanges ++ [x] := List.mem_append_right _ List.mem_cons_self
      obtain ⟨hcookie, hlegal⟩ := (extractServerCookie_eq_some_iff hc (hone x hx)).mp hlearnt
      exact ⟨hlegal, x, hx, hvalid, hcookie⟩

/-- Extraction is exact, a full cookie is read back, a route sends on only what came with its own
client cookie, and a response with another one is not accepted. -/
theorem cookies_exact (hk : Hickory) (c : List UInt8) (hc : c.length = 8) :
    (∀ (msg : Message) s, msg.OneCookie →
      (extractServerCookie msg c = some s ↔ msg.HasCookie (c ++ s) ∧ LegalCookie s)) ∧
    (∀ (msg : Message) (edns : Edns) s, msg.edns = some edns → edns.get cookieOptionCode = none →
      8 ≤ s.length → s.length ≤ 32 →
      extractServerCookie { msg with edns := some (edns.insert (encodeFullCookie c s)) } c =
        some s) ∧
    ∀ route : Route, route.clientCookie = c → route.cookiesEnabled = true →
      (∀ exchanges message b, (∀ x ∈ exchanges, Message.OneCookie x.2) →
        (route.outgoing (route.serverAfter hk exchanges) message).HasCookie b →
        message.HasCookie b ∨ b = c ∨ ∃ s, b = c ++ s ∧ ∃ x ∈ exchanges,
          validateResponse hk x.1 x.2 route = .ok () ∧ x.2.HasCookie (c ++ s)) ∧
      ∀ request (response : Message) b, response.OneCookie → response.HasCookie b → b.take 8 ≠ c →
        validateResponse hk request response route ≠ .ok () := by
  refine ⟨fun msg s hone => extractServerCookie_eq_some_iff hc hone, ?_, ?_⟩
  · intro msg edns s hedns hnone hlong hshort
    have hnew : (edns.insert (encodeFullCookie c s)).get cookieOptionCode =
        some (.unknown cookieOptionCode (c ++ s)) := by
      unfold Edns.get at hnone
      rw [Edns.get, Edns.insert, List.find?_append, hnone, encodeFullCookie,
        List.take_of_length_le hshort]
      rfl
    simp only [extractServerCookie, hnew]
    exact (cookieOctets_iff hc _).mpr ⟨rfl, .inr ⟨hlong, hshort⟩⟩
  · rintro route rfl hon
    constructor
    · rintro exchanges message b hone ⟨edns, hedns, hmem⟩
      rw [Route.outgoing, if_pos hon] at hedns
      obtain ⟨before, hbefore, rfl⟩ := Option.map_eq_some_iff.mp hedns
      rcases List.mem_append.mp hmem with hmem | hmem
      · exact .inl ⟨before, hbefore, hmem⟩
      · have hsent := List.mem_singleton.mp hmem
        cases hs : route.serverAfter hk exchanges with
        | none =>
          rw [hs] at hsent
          exact .inr (.inl (EdnsOption.unknown.inj hsent).2)
        | some s =>
          obtain ⟨hlegal, hreceived⟩ := serverAfter_received hc hone hs
          rw [hs, Route.cookieOption] at hsent
          split_ifs at hsent with hnil
          · exact .inr (.inl (EdnsOption.unknown.inj hsent).2)
          · have hlast := (EdnsOption.unknown.inj hsent).2
            rw [List.take_of_length_le (hlegal.resolve_left hnil).2] at hlast
            exact .inr (.inr ⟨s, hlast, hreceived⟩)
    · intro request response b hone hb hother hvalid
      obtain ⟨s, hs⟩ := exists_of_accepted hon hb hvalid
      obtain ⟨⟨edns, hedns, hmem⟩, -⟩ := (extractServerCookie_eq_some_iff hc hone).mp hs
      obtain ⟨edns', hedns', hmem'⟩ := hb
      cases hedns.symm.trans hedns'
      have hfirst := (get_eq_some_iff (hone edns hedns)).mpr ⟨hmem, rfl⟩
      have hsecond := (get_eq_some_iff (hone edns hedns)).mpr ⟨hmem', rfl⟩
      cases hfirst.symm.trans hsecond
      exact hother (by rw [List.take_left' hc])

def cookieMessage (kind : MessageType) (options : List EdnsOption) : Message :=
  { addressQuery with
    metadata := { addressQuery.metadata with messageType := kind }
    edns := some { maxPayload := 1232, version := 0, dnssecOk := false, options } }

def cookieReply (octets : List UInt8) : Message :=
  cookieMessage .response [.unknown cookieOptionCode octets]

def ones (n : Nat) : List UInt8 := List.replicate n 1

def cookieRoute : Route := { quad9 with cookiesEnabled := true, clientCookie := ones 8 }

/-- A server cookie is read from a reply and sent with the next query, and a reply with another
client cookie is refused. -/
theorem cookies_exact_ones :
    extractServerCookie (cookieReply (ones 20)) (ones 8) = some (ones 12) ∧
    (∃ s, ones 20 = ones 8 ++ s ∧ ∃ x ∈ [(addressQuery, cookieReply (ones 20))],
      validateResponse .sample x.1 x.2 cookieRoute = .ok () ∧ x.2.HasCookie (ones 8 ++ s)) ∧
    validateResponse .sample addressQuery (cookieReply (0 :: ones 19)) cookieRoute ≠ .ok () := by
  have hone : ∀ octets, (cookieReply octets).OneCookie := by
    rintro octets _ ⟨⟩
    exact List.length_filter_le _ _
  obtain ⟨hextract, -, hroute⟩ := cookies_exact .sample (ones 8) rfl
  obtain ⟨hsent, hother⟩ := hroute cookieRoute rfl rfl
  refine ⟨?_, ?_, ?_⟩
  · exact (hextract _ _ (hone _)).mpr ⟨⟨_, rfl, List.mem_singleton_self _⟩, .inr (by decide)⟩
  · have hout := hsent [(addressQuery, cookieReply (ones 20))] (cookieMessage .query []) (ones 20)
      (by simp [hone]) ⟨_, rfl, by decide⟩
    refine (hout.resolve_left ?_).resolve_left (by decide)
    rintro ⟨_, ⟨⟩, hmem⟩
    cases hmem
  · exact hother _ _ _ (hone _) ⟨_, rfl, List.mem_singleton_self _⟩ (by decide)

end EgressDns
