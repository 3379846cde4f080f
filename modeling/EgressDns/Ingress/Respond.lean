import EgressDns.Dns.Wire
import EgressDns.Resolver.Brief
import EgressDns.Resolver.Front

/-!
# The frame of a response

`Ingress::respond`: what `Resolver::handle` comes to for a request, the keep-alive option, and the
encoding within the client's limit. Every way to an answer keeps the request's id, questions and
EDNS support; the encoding loses the OPT record of a request whose questions nearly fill the limit.
-/

namespace EgressDns

open Lib

structure Hickory.Frames (hk : Hickory) : Prop where
  id : ∀ m, (hk.responseFromRequest m).id = m.id
  response : ∀ m, (hk.responseFromRequest m).messageType = .response
  whole : ∀ m, (hk.responseFromRequest m).truncation = false
  stripMetadata : ∀ msg, (hk.stripDnssec msg).metadata = msg.metadata
  stripQueries : ∀ msg, (hk.stripDnssec msg).queries = msg.queries

theorem Hickory.sample_frames : Hickory.sample.Frames :=
  ⟨fun _ => rfl, fun _ => rfl, fun _ => rfl, fun _ => rfl, fun _ => rfl⟩

/-- What `respond` reads of the configuration, with the sizes that `validate` lets through. -/
structure RespondConfig where
  front : FrontConfig
  advertiseEdnsKeepalive : Bool
  -- In milliseconds.
  idleTimeout : Nat
  maxPayload : 512 ≤ front.cfg.maxPayload ∧ front.cfg.maxPayload ≤ 4096
  nonEdnsMaxPayload : front.nonEdnsMaxPayload = 512
  tcpMaxMessageBytes : 512 ≤ front.tcpMaxMessageBytes ∧ front.tcpMaxMessageBytes ≤ 65535

theorem RespondConfig.limit_range (rc : RespondConfig) (request : Message)
    (transport : ClientTransport) :
    512 ≤ maxResponseSize rc.front request transport ∧
      maxResponseSize rc.front request transport ≤ 65535 := by
  have hudp := rc.maxPayload
  have hplain := rc.nonEdnsMaxPayload
  cases transport with
  | tcp => exact rc.tcpMaxMessageBytes
  | udp =>
    simp only [maxResponseSize]
    cases request.edns with
    | none =>
      change 512 ≤ rc.front.nonEdnsMaxPayload ∧ rc.front.nonEdnsMaxPayload ≤ 65535
      omega
    | some edns =>
      change 512 ≤ min (max edns.maxPayload 512) rc.front.cfg.maxPayload ∧
        min (max edns.maxPayload 512) rc.front.cfg.maxPayload ≤ 65535
      omega

def keepaliveOptionCode : UInt16 := 11

def encodeTcpKeepalive (idle : Nat) : EdnsOption :=
  .unknown keepaliveOptionCode (be16 (.ofNat (min (idle / 100) 65535)))

def ecsOptionCode : UInt16 := 8

structure Framed (request message : Message) : Prop where
  id : message.metadata.id = request.metadata.id
  response : message.metadata.messageType = .response
  queries : message.queries = request.queries
  opt : message.edns.isSome = request.edns.isSome
  ecs : ∀ edns, message.edns = some edns → ∀ option ∈ edns.options, option.code ≠ ecsOptionCode

/-- A framed message as it is handed to the encoder, with so many octets of OPT record. -/
structure Sendable (octets : Nat) (request message : Message) : Prop
    extends Framed request message where
  whole : message.metadata.truncation = false
  short : optOctets message.edns ≤ octets

section Paths

variable {hk : Hickory} {request message : Message} {octets : Nat}

theorem Sendable.mono (h : Sendable octets request message) {more : Nat} (hle : octets ≤ more) :
    Sendable more request message :=
  { h with short := h.short.trans hle }

theorem Sendable.addOption (h : Sendable octets request message) {added : EdnsOption}
    (hcode : added.code ≠ ecsOptionCode) :
    Sendable (octets + added.octets) request
      { message with edns := message.edns.map fun edns =>
          { edns with options := edns.options ++ [added] } } where
  id := h.id
  response := h.response
  queries := h.queries
  opt := by rw [Option.isSome_map, h.opt]
  ecs := by
    intro edns he option ho
    obtain ⟨before, hbefore, rfl⟩ := Option.map_eq_some_iff.mp he
    rcases List.mem_append.mp ho with hold | hnew
    · exact h.ecs before hbefore option hold
    · rw [List.mem_singleton.mp hnew]
      exact hcode
  whole := h.whole
  short := by
    have hshort := h.short
    cases hedns : message.edns with
    | none => simp [optOctets]
    | some edns =>
      rw [hedns, optOctets_some, Edns.octets] at hshort
      simp only [Option.map_some, optOctets_some, Edns.octets, List.map_append, List.map_cons,
        List.map_nil, List.sum_append, List.sum_cons, List.sum_nil]
      omega

theorem Sendable.attachEde (h : Sendable octets request message) (err : ExtendedError)
    {text : String} (hb : Brief text) :
    Sendable (octets + 183) request (attachEde message err text) := by
  have hcode : (encodeEde err text).code ≠ ecsOptionCode := by
    change edeOptionCode ≠ ecsOptionCode
    decide
  refine (h.addOption hcode).mono ?_
  have hlen : (be16 err.code).length = 2 := rfl
  simp only [encodeEde, EdnsOption.octets, List.length_append, length_toUTF8, hlen]
  have : (bounded text 60).utf8ByteSize ≤ 177 := hb
  omega

theorem sendable_errorResponse (hf : hk.Frames) (code : ResponseCode) (recursion : Bool) :
    Sendable 11 request (errorResponse hk request code recursion) where
  id := hf.id _
  response := hf.response _
  queries := rfl
  opt := by simp [errorResponse]
  ecs := by
    intro edns he
    obtain ⟨_, _, rfl⟩ := Option.map_eq_some_iff.mp he
    exact List.forall_mem_nil _
  whole := hf.whole _
  short := by
    simp only [errorResponse]
    cases request.edns with
    | none => exact Nat.zero_le _
    | some edns => exact Nat.le_refl _

/-- The header and the questions of a message, whatever OPT record it has so far. -/
structure Headed (request message : Message) : Prop where
  id : message.metadata.id = request.metadata.id
  response : message.metadata.messageType = .response
  whole : message.metadata.truncation = false
  queries : message.queries = request.queries

theorem Headed.attachResponseEdns (h : Headed request message) (cfg : Config) :
    Sendable 11 request (attachResponseEdns cfg request message) := by
  unfold EgressDns.attachResponseEdns
  split
  · rename_i hnone
    exact ⟨⟨h.id, h.response, h.queries, by simp [hnone], nofun⟩, h.whole, Nat.zero_le _⟩
  · rename_i edns hsome
    refine ⟨⟨h.id, h.response, h.queries, by simp [hsome], ?_⟩, h.whole, Nat.le_refl _⟩
    rintro _ ⟨⟩
    exact List.forall_mem_nil _

theorem headed_skeleton (hf : hk.Frames) {authoritative recursion authentic : Bool}
    {code : ResponseCode} {answers authorities additionals : List Record} {edns : Option Edns} :
    Headed request
      { metadata :=
          { hk.responseFromRequest request.metadata with
            authoritative, recursionAvailable := recursion, authenticData := authentic
            responseCode := code }
        queries := request.queries, answers, authorities, additionals, edns } :=
  ⟨hf.id _, hf.response _, hf.whole _, rfl⟩

theorem sendable_buildResponse (hf : hk.Frames) (cfg : Config) (env : ResponseEnv)
    (entry : CacheEntry) (remaining : Nat) (isStale clientDo : Bool) :
    Sendable 11 request
      (buildResponse hk cfg env request entry remaining isStale clientDo) := by
  have hshaped : Headed request (shapedAnswer hk cfg env request entry remaining isStale).1 := by
    obtain ⟨_, heffect⟩ := applyAnswerPolicy_effect
      (answerContext hk cfg env request entry remaining isStale)
      (agedMessage hk env request entry)
    have hmetadata := heffect.metadata
    unfold shapedAnswer
    refine ⟨?_, ?_, ?_, applyAnswerPolicy_queries _ _⟩
    · rw [hmetadata]
      exact hf.id _
    · rw [hmetadata]
      exact hf.response _
    · rw [hmetadata]
      exact hf.whole _
  refine Headed.attachResponseEdns ?_ cfg
  cases clientDo with
  | true => exact ⟨hshaped.id, hshaped.response, hshaped.whole, hshaped.queries⟩
  | false =>
    have hmetadata := hf.stripMetadata (shapedAnswer hk cfg env request entry remaining isStale).1
    have hqueries := hf.stripQueries (shapedAnswer hk cfg env request entry remaining isStale).1
    simp only [Bool.false_eq_true, if_false]
    refine ⟨?_, ?_, ?_, hqueries.trans hshaped.queries⟩
    · rw [hmetadata]
      exact hshaped.id
    · rw [hmetadata]
      exact hshaped.response
    · rw [hmetadata]
      exact hshaped.whole

end Paths

section Front

variable {hk : Hickory} {fc : FrontConfig} {request : Message} {maxSize : Nat}

/-- An answer of the first half of the resolver, for a client with this limit. -/
structure Answered (request : Message) (maxSize : Nat) (answer : FrontAnswer) : Prop where
  sendable : Sendable 11 request answer.message
  maxSize : answer.maxSize = maxSize

theorem answered_rejectWith (hf : hk.Frames) (code : ResponseCode) :
    Answered request maxSize (rejectWith hk fc request maxSize code) :=
  ⟨(headed_skeleton hf).attachResponseEdns _, rfl⟩

theorem answered_localRecords (hf : hk.Frames) (records : List Record) :
    Answered request maxSize (localRecords hk fc request maxSize records) :=
  ⟨(headed_skeleton hf).attachResponseEdns _, rfl⟩

theorem answered_localNxDomain (hf : hk.Frames) :
    Answered request maxSize (localNxDomain hk request maxSize) := by
  have h : Sendable 11 request (errorResponse hk request .nxDomain true) :=
    sendable_errorResponse hf .nxDomain true
  exact ⟨⟨⟨h.id, h.response, h.queries, h.opt, h.ecs⟩, h.whole, h.short⟩, rfl⟩

variable {answer : FrontAnswer} {d : DatasetSnapshot} {s : FrontRun}

theorem answered_registryAnswer (hf : hk.Frames) {disposition : SpecialName.Disposition}
    (h : registryAnswer hk fc request maxSize disposition = some answer) :
    Answered request maxSize answer := by
  cases disposition with
  | forward => cases h
  | nxDomain =>
    cases h
    exact ⟨(headed_skeleton hf).attachResponseEdns _, rfl⟩
  | loopMarker | loopback =>
    cases h
    exact answered_localRecords hf _

theorem answered_specialUseAnswer (hf : hk.Frames)
    (h : specialUseAnswer hk fc request maxSize d = some answer) :
    Answered request maxSize answer := by
  unfold specialUseAnswer at h
  split at h
  · cases h
  · split at h
    · cases h
    · exact answered_registryAnswer hf h

theorem answered_hostsAnswer (hf : hk.Frames)
    (h : hostsAnswer hk fc request maxSize d = some answer) : Answered request maxSize answer := by
  simp only [hostsAnswer] at h
  split_ifs at h
  · cases h
    exact answered_localRecords hf _
  · cases h
    exact answered_localRecords hf _

theorem answered_localAnswer (hf : hk.Frames)
    (h : localAnswer hk fc request maxSize d = some answer) : Answered request maxSize answer := by
  unfold localAnswer at h
  split at h
  · rename_i held hhosts
    cases h
    exact answered_hostsAnswer hf hhosts
  · split at h
    · cases h
      exact answered_localRecords hf _
    · cases h
      exact answered_localRecords hf _
    · cases h
      exact answered_localNxDomain hf
    · cases h

/-- Turned away with some code, as every request without exactly one question is. -/
def TurnedAway (hk : Hickory) (cfg : Config) (request message : Message) : Prop :=
  ∃ code, message = attachResponseEdns cfg request (errorResponse hk request code true)

theorem answered_earlyAnswer (hf : hk.Frames)
    (h : earlyAnswer hk fc request maxSize = some answer) :
    Answered request maxSize answer ∧
      (request.queries.length ≠ 1 → TurnedAway hk fc.cfg request answer.message) := by
  unfold earlyAnswer at h
  split_ifs at h with hop hcount hversion hclass hany
  · cases h
    exact ⟨answered_rejectWith hf _, fun _ => ⟨_, rfl⟩⟩
  · cases h
    exact ⟨answered_rejectWith hf _, fun _ => ⟨_, rfl⟩⟩
  · cases h
    exact ⟨⟨sendable_errorResponse hf _ _, rfl⟩, fun hne => absurd hne hcount⟩
  · cases h
    exact ⟨answered_rejectWith hf _, fun hne => absurd hne hcount⟩
  · refine ⟨?_, fun hne => absurd hne hcount⟩
    split at h
    · cases h
      exact answered_rejectWith hf _
    · cases h
      exact ⟨(headed_skeleton hf).attachResponseEdns _, rfl⟩
    · cases h

theorem one_question_of_early (h : earlyAnswer hk fc request maxSize = none) :
    request.queries.length = 1 := by
  by_contra hne
  unfold earlyAnswer at h
  split_ifs at h

variable (hk fc request) (transport : ClientTransport)

def FrontFramed (s : FrontRun) : Prop :=
  match s.stage with
  | .arrived => True
  | .done (.answered answer) =>
    Answered request (maxResponseSize fc request transport) answer ∧
      (request.queries.length ≠ 1 → TurnedAway hk fc.cfg request answer.message)
  | _ => request.queries.length = 1

variable {hk fc request transport}

theorem frontFramed_advance (hf : hk.Frames) {stage : FrontStage}
    (hs : FrontFramed hk fc request transport s)
    (h : advanceFront hk fc request transport d s.stage = some stage) :
    FrontFramed hk fc request transport { s with stage } := by
  unfold FrontFramed at hs
  cases hstage : s.stage with
  | arrived =>
    rw [hstage] at h
    simp only [advanceFront] at h
    split at h
    · rename_i answer hearly
      cases h
      exact answered_earlyAnswer hf hearly
    · rename_i hearly
      have hone := one_question_of_early hearly
      split at h
      · rename_i answer hlocal
        cases h
        exact ⟨answered_localAnswer hf hlocal, fun hne => absurd hone hne⟩
      · cases h
        exact hone
  | notLocal =>
    rw [hstage] at h hs
    simp only [advanceFront] at h
    split at h
    · cases h
      exact hs
    · split at h
      · rename_i answer hspecial
        cases h
        exact ⟨answered_specialUseAnswer hf hspecial, fun hne => absurd hs hne⟩
      · cases h
        exact hs
  | notSpecial =>
    rw [hstage] at h hs
    cases h
    exact hs
  | done outcome =>
    rw [hstage] at h
    cases h

theorem frontFramed_of_run (hf : hk.Frames) {labels : List FrontLabel}
    (h : run (FrontRun.step hk fc request transport) (.start d) labels = some s) :
    FrontFramed hk fc request transport s := by
  have hstart : FrontFramed hk fc request transport (.start d) := trivial
  refine invariant_of_free_run ?_ hstart h
  intro s l t hs he
  cases l with
  | publish d =>
    cases he
    exact hs
  | advance =>
    obtain ⟨stage, hstage, rfl⟩ := Option.map_eq_some_iff.mp he
    exact frontFramed_advance hf hs hstage

end Front

namespace System

variable {hk : Hickory} {s : Shared hk} {t : Task hk} {asker : Asker} {now : Nat}
  {env : ResponseEnv}

theorem sendable_failure (hf : hk.Frames) {request : Message} {text : String} (hb : Brief text)
    (code : ResponseCode) (err : ExtendedError) (extendedErrors : Bool) :
    Sendable 194 request
      (if extendedErrors then attachEde (errorResponse hk request code true) err text
      else errorResponse hk request code true) := by
  have h : Sendable 11 request (errorResponse hk request code true) :=
    sendable_errorResponse hf code true
  split
  · exact h.attachEde err hb
  · exact h.mono (by decide)

theorem sendable_staleAnswer (hf : hk.Frames) (r : Resolver hk) (client : Client)
    (entry : CacheEntry) : Sendable 194 client.request (r.staleAnswer client entry).message := by
  have h : Sendable 11 client.request
      (buildResponse hk r.cfg client.env client.request entry 0 true client.clientDo) :=
    sendable_buildResponse hf _ _ _ _ _ _
  simp only [Resolver.staleAnswer]
  split
  · exact h.attachEde _ (brief_of_short (by decide))
  · exact h.mono (by decide)

theorem sendable_settle (hf : hk.Frames) (r : Resolver hk) (key : CacheKey) (client : Client)
    (c : DnsCache) {outcome : Except FailureReport CacheEntry}
    (hb : ∀ report, outcome = .error report → Brief report.detail) :
    Sendable 194 client.request (r.settle key client c outcome).1.message := by
  cases outcome with
  | ok entry => exact (sendable_buildResponse hf _ _ _ _ _ _).mono (by decide)
  | error report => exact sendable_failure hf (hb report rfl) _ _ _

theorem settle_maxSize (r : Resolver hk) (key : CacheKey) (client : Client) (c : DnsCache)
    (outcome : Except FailureReport CacheEntry) :
    (r.settle key client c outcome).1.maxSize = client.maxSize := by
  cases outcome <;> rfl

theorem sendable_respond (hf : hk.Frames) (hrole : t.role = .client asker)
    (hbrief : ∀ text ∈ t.stage.texts, Brief text) {e : Effect (Shared hk) (Task hk)}
    (h : respond s t now env = some e) :
    ∃ sent, e.shared.responses = sent :: s.responses ∧
      Sendable 194 asker.request sent.answer.message ∧ sent.answer.maxSize = asker.maxSize := by
  unfold respond at h
  rw [hrole] at h
  simp only at h
  split at h
  · rename_i failure hstage
    cases h
    refine ⟨_, rfl, sendable_failure hf (hbrief _ ?_) _ _ _, rfl⟩
    rw [hstage]
    exact List.mem_singleton_self _
  · rename_i stored remaining stale hstage
    cases h
    refine ⟨_, rfl, ?_, ?_⟩
    · dsimp only
      split
      · exact sendable_staleAnswer hf _ (asker.client now env) _
      · exact (sendable_buildResponse hf _ _ _ _ _ _).mono (by decide)
    · dsimp only
      split <;> rfl
  · rename_i outcome hstage
    split at h
    · cases h
    · cases h
      refine ⟨_, rfl, sendable_settle hf _ _ (asker.client now env) _ ?_, settle_maxSize ..⟩
      intro report he
      cases outcome with
      | ok stored => cases he
      | error held =>
        cases he
        refine hbrief _ ?_
        rw [hstage]
        exact List.mem_singleton_self _
  · rename_i report streak hstage
    cases h
    refine ⟨_, rfl, sendable_settle hf _ _ (asker.client now env) _ ?_, settle_maxSize ..⟩
    rintro _ ⟨⟩
    refine hbrief _ ?_
    rw [hstage]
    exact List.mem_singleton_self _
  · cases h

end System

section Handle

variable (hk : Hickory) (fc : FrontConfig) (request : Message) (transport : ClientTransport)

/-- What `Resolver::handle` may come to for a request: an answer of its first half, or what a task
of the running resolver sends once the first half has forwarded the request. -/
inductive Handles : Message → Nat → Prop where
  | front {d : DatasetSnapshot} {labels : List FrontLabel} {f : FrontRun} {answer : FrontAnswer}
      (hfront : run (FrontRun.step hk fc request transport) (.start d) labels = some f)
      (hdone : f.stage = .done (.answered answer)) : Handles answer.message answer.maxSize
  | resolver {d : DatasetSnapshot} {frontLabels : List FrontLabel} {f : FrontRun}
      {r : Resolver hk} {serveStale : ServeStaleConfig} {internalMaxTtl : Nat}
      {labels : List (System.Label hk)} {p : System.State hk} {id : Nat} {t : System.Task hk}
      {now : Nat} {env : ResponseEnv} {e : Effect (System.Shared hk) (System.Task hk)}
      {sent : System.Response}
      (hfront : run (FrontRun.step hk fc request transport) (.start d) frontLabels = some f)
      (hforward : f.stage = .done (.forwarded t.key))
      (hrun : run (System.program hk).step (System.initial r serveStale internalMaxTtl)
        labels = some p)
      (htask : p.tasks id = some t)
      (hrole : t.role = .client { request, maxSize := maxResponseSize fc request transport })
      (hact : System.respond p.shared t now env = some e)
      (hsent : e.shared.responses = sent :: p.shared.responses) :
      Handles sent.answer.message sent.answer.maxSize

variable {hk fc request transport} {message : Message} {maxSize : Nat}

theorem Handles.sendable (hf : hk.Frames) (h : Handles hk fc request transport message maxSize) :
    maxSize = maxResponseSize fc request transport ∧ Sendable 194 request message ∧
      (request.queries.length ≠ 1 → TurnedAway hk fc.cfg request message) := by
  cases h with
  | front hfront hdone =>
    have hframed := frontFramed_of_run hf hfront
    rw [FrontFramed, hdone] at hframed
    exact ⟨hframed.1.maxSize, hframed.1.sendable.mono (by decide), hframed.2⟩
  | @resolver _ _ _ _ _ _ _ p _ t _ _ _ sent hfront hforward hrun htask hrole hact hsent =>
    have hone := frontFramed_of_run hf hfront
    rw [FrontFramed, hforward] at hone
    obtain ⟨other, hother, hsendable, hsize⟩ :=
      System.sendable_respond hf hrole ((System.brief_of_run hrun).tasks htask) hact
    obtain rfl : sent = other := (List.cons.inj (hsent.symm.trans hother)).1
    exact ⟨hsize, hsendable, fun hne => absurd hone hne⟩

end Handle

section Respond

variable (enc : Encoder) (hk : Hickory) (rc : RespondConfig) (request : Message)
  (transport : ClientTransport)

def RespondConfig.withKeepalive (message : Message) : Message :=
  if transport = .tcp ∧ rc.advertiseEdnsKeepalive = true then
    { message with edns := message.edns.map fun edns =>
        { edns with options := edns.options ++ [encodeTcpKeepalive rc.idleTimeout] } }
  else message

/-- `respond`, given what `handle` came to. A response is never answered. -/
def RespondConfig.respond (message : Message) (maxSize : Nat) : Option Serialized :=
  if request.metadata.messageType ≠ .query then none
  else
    match serializeLimited enc (rc.withKeepalive transport message) maxSize with
    | some out => some out
    | none => serializeLimited enc (errorResponse hk request .servFail true) maxSize

/-- What a client can rely on, whatever the response says. -/
structure FrameKept (limit : Nat) (message written : Message) : Prop
    extends Framed request written where
  size : enc.size written ≤ limit
  cut : limit < enc.size message →
    written.metadata.truncation = true ∧ written.answers = [] ∧ written.authorities = []

/-- The header, the questions and the OPT record of a request that is turned away. -/
def RespondConfig.frame : Message where
  metadata := request.metadata
  queries := request.queries
  answers := []
  authorities := []
  additionals := []
  edns := request.edns.map fun edns =>
    { maxPayload := rc.front.cfg.maxPayload, version := 0, dnssecOk := edns.dnssecOk
      options :=
        if transport = .tcp ∧ rc.advertiseEdnsKeepalive = true then
          [encodeTcpKeepalive rc.idleTimeout]
        else [] }

/-- One question always fits; more of them fit if they leave room for the OPT record. -/
def FrameFits : Prop :=
  request.queries.length ≤ 1 ∨
    enc.size (rc.frame request transport) ≤ maxResponseSize rc.front request transport

variable {enc hk rc request transport} {message : Message} {maxSize : Nat}

theorem sendable_withKeepalive {octets : Nat} (h : Sendable octets request message) :
    Sendable (octets + 6) request (rc.withKeepalive transport message) := by
  have hcode : (encodeTcpKeepalive rc.idleTimeout).code ≠ ecsOptionCode := by
    change keepaliveOptionCode ≠ ecsOptionCode
    decide
  unfold RespondConfig.withKeepalive
  split
  · exact h.addOption hcode
  · exact h.mono (Nat.le_add_right _ _)

theorem size_turnedAway (h : TurnedAway hk rc.front.cfg request message) :
    enc.size (rc.withKeepalive transport message).truncate =
      enc.size (rc.frame request transport) := by
  obtain ⟨code, rfl⟩ := h
  have hsame : (rc.withKeepalive transport (attachResponseEdns rc.front.cfg request
      (errorResponse hk request code true))).truncate =
      { rc.frame request transport with
        metadata := { hk.responseFromRequest request.metadata with
          responseCode := code, recursionAvailable := true, truncation := true } } := by
    unfold RespondConfig.withKeepalive attachResponseEdns RespondConfig.frame
    cases request.edns <;> split <;> rfl
  rw [hsame]
  exact enc.size_metadata _ _

theorem frameFits_iff (hf : hk.Frames) (hd : request.Decodable)
    (h : Handles hk rc.front request transport message maxSize) :
    FrameFits enc rc request transport ↔
      enc.size (rc.withKeepalive transport message).truncate ≤
        maxResponseSize rc.front request transport := by
  obtain ⟨_, hsendable, hturned⟩ := h.sendable hf
  by_cases hone : request.queries.length ≤ 1
  · have hkept : Sendable 200 request (rc.withKeepalive transport message) :=
      sendable_withKeepalive hsendable
    have hsize := enc.size_frame_le (rc.withKeepalive transport message)
    have hquestions := questionOctets_le hd hone
    rw [hkept.queries] at hsize
    have hopt := hkept.short
    have hlimit := (rc.limit_range request transport).1
    refine ⟨fun _ => ?_, fun _ => .inl hone⟩
    omega
  · rw [FrameFits, or_iff_right hone, size_turnedAway (hturned (by omega))]

theorem respond_eq (hquery : request.metadata.messageType = .query)
    (hrange : 512 ≤ maxSize ∧ maxSize ≤ 65535)
    (hqueries : (rc.withKeepalive transport message).queries = request.queries) :
    rc.respond enc hk request transport message maxSize =
      serializeLimited enc (rc.withKeepalive transport message) maxSize := by
  rw [RespondConfig.respond, if_neg (not_not.mpr hquery)]
  cases hout : serializeLimited enc (rc.withKeepalive transport message) maxSize with
  | some out => rfl
  | none =>
    have hquestions := (serializeLimited_eq_none hrange).mp hout
    have hsame : (errorResponse hk request .servFail true).questionsOnly =
        { (rc.withKeepalive transport message).questionsOnly with
          metadata := (errorResponse hk request .servFail true).metadata } := by
      simp only [Message.questionsOnly, errorResponse, hqueries]
    rw [serializeLimited_eq_none hrange, hsame, enc.size_metadata]
    exact hquestions

theorem query_of_respond {out : Serialized}
    (h : rc.respond enc hk request transport message maxSize = some out) :
    request.metadata.messageType = .query := by
  by_contra hne
  rw [RespondConfig.respond, if_pos hne] at h
  cases h

theorem frameKept_whole {octets limit : Nat} (h : Sendable octets request message)
    (hfits : enc.size message ≤ limit) : FrameKept enc request limit message message :=
  { h.toFramed with
    size := hfits
    cut := fun hlong => absurd hfits hlong.not_ge }

theorem frameKept_truncate {octets limit : Nat} (h : Sendable octets request message)
    (hfits : enc.size message.truncate ≤ limit) :
    FrameKept enc request limit message message.truncate where
  id := h.id
  response := h.response
  queries := h.queries
  opt := h.opt
  ecs := h.ecs
  size := hfits
  cut _ := ⟨rfl, rfl, rfl⟩

/-- The frame of a response. Every query whose frame fits is answered, and a response keeps the
frame exactly if it fits: otherwise the OPT record is lost. -/
theorem response_frame_iff (enc : Encoder) (hk : Hickory) (hf : hk.Frames) (rc : RespondConfig)
    (request : Message) (hd : request.Decodable) (transport : ClientTransport)
    (message : Message) (maxSize : Nat)
    (h : Handles hk rc.front request transport message maxSize) :
    (request.metadata.messageType = .query → FrameFits enc rc request transport →
      ∃ out, rc.respond enc hk request transport message maxSize = some out) ∧
    ∀ out, rc.respond enc hk request transport message maxSize = some out →
      (FrameKept enc request (maxResponseSize rc.front request transport)
          (rc.withKeepalive transport message) out.message ↔
        FrameFits enc rc request transport) := by
  obtain ⟨rfl, hsendable, _⟩ := h.sendable hf
  have hkept : Sendable 200 request (rc.withKeepalive transport message) :=
    sendable_withKeepalive hsendable
  have hrange := rc.limit_range request transport
  rw [frameFits_iff hf hd h]
  constructor
  · intro hquery hfits
    rw [respond_eq hquery hrange hkept.queries]
    refine Option.ne_none_iff_exists'.mp fun hnone => ?_
    have hquestions := (serializeLimited_eq_none hrange).mp hnone
    have hle := enc.size_questions_le (rc.withKeepalive transport message)
    omega
  · intro out hout
    rw [respond_eq (query_of_respond hout) hrange hkept.queries] at hout
    constructor
    · intro hframe
      by_contra hlong
      obtain ⟨hsome, hnone⟩ := opt_lost hrange hkept.whole (Nat.lt_of_not_le hlong) hout
      have hopt := hframe.opt
      rw [hnone, ← hkept.opt, hsome] at hopt
      cases hopt
    · intro hfits
      rcases Nat.lt_or_ge (maxResponseSize rc.front request transport)
          (enc.size (rc.withKeepalive transport message)) with hlong | hwhole
      · rw [serializeLimited_of_frame hrange hkept.whole hfits hlong] at hout
        cases hout
        exact frameKept_truncate hkept hfits
      · rw [serializeLimited_of_fits hrange hkept.whole hwhole] at hout
        cases hout
        exact frameKept_whole hkept hwhole

end Respond

def respondConfig : RespondConfig where
  front := frontConfig
  advertiseEdnsKeepalive := true
  idleTimeout := 10000
  maxPayload := by decide
  nonEdnsMaxPayload := rfl
  tcpMaxMessageBytes := by decide

def FrontStage.answer : FrontStage → Option FrontAnswer
  | done (.answered answer) => some answer
  | _ => none

theorem handles_front {request : Message} {transport : ClientTransport}
    {labels : List FrontLabel} {answer : FrontAnswer}
    (h : (run (FrontRun.step .sample frontConfig request transport) (.start .empty)
      labels).bind (fun f => f.stage.answer) = some answer) :
    Handles .sample frontConfig request transport answer.message answer.maxSize := by
  obtain ⟨f, hf, hanswer⟩ := Option.bind_eq_some_iff.mp h
  cases hstage : f.stage with
  | done outcome =>
    rw [hstage] at hanswer
    cases outcome with
    | answered sent =>
      cases hanswer
      exact .front hf hstage
    | forwarded key => cases hanswer
  | _ =>
    rw [hstage] at hanswer
    cases hanswer

theorem response_frame_iff_special_use :
    ∃ message maxSize out, Handles .sample frontConfig nasQuery .udp message maxSize ∧
      respondConfig.respond .sample .sample nasQuery .udp message maxSize = some out ∧
      FrameKept .sample nasQuery 512 (respondConfig.withKeepalive .udp message) out.message := by
  have hsome : ((run (FrontRun.step .sample frontConfig nasQuery .udp) (.start .empty)
      [.advance, .advance]).bind (fun f => f.stage.answer)).isSome = true := by decide
  obtain ⟨answer, hanswer⟩ := Option.isSome_iff_exists.mp hsome
  have hhandles := handles_front hanswer
  have hframe := response_frame_iff .sample .sample Hickory.sample_frames respondConfig nasQuery
    (by decide) .udp _ _ hhandles
  have hfits : FrameFits .sample respondConfig nasQuery .udp := .inl (by decide)
  obtain ⟨out, hout⟩ := hframe.1 rfl hfits
  exact ⟨_, _, out, hhandles, hout, (hframe.2 out hout).mpr hfits⟩

def longName (letter : UInt8) : Name := ⟨List.replicate 4 (List.replicate 59 letter)⟩

def crowdedQuery : Message :=
  { addressQuery with
    queries := [{ name := longName 97, qtype := .a, qclass := classIn },
      { name := longName 98, qtype := .a, qclass := classIn }]
    edns := some { maxPayload := 512, version := 0, dnssecOk := false, options := [] } }

/-- The reply to two long questions repeats both and has no OPT record, though the query had. -/
theorem two_questions_lose_opt :
    crowdedQuery.Decodable ∧ crowdedQuery.edns.isSome = true ∧
    ∃ message maxSize out, Handles .sample frontConfig crowdedQuery .udp message maxSize ∧
      respondConfig.respond .sample .sample crowdedQuery .udp message maxSize = some out ∧
      out.message.queries = crowdedQuery.queries ∧ out.message.edns = none := by
  refine ⟨by decide, rfl, ?_⟩
  have hanswer : (run (FrontRun.step .sample frontConfig crowdedQuery .udp) (.start .empty)
      [.advance]).bind (fun f => f.stage.answer) =
        some (rejectWith .sample frontConfig crowdedQuery 512 .formErr) := by decide
  have hout : (respondConfig.respond .sample .sample crowdedQuery .udp
      (rejectWith .sample frontConfig crowdedQuery 512 .formErr).message 512).map
        (fun out => (out.message.queries, out.message.edns)) =
      some (crowdedQuery.queries, none) := by decide
  obtain ⟨out, hrespond, hfields⟩ := Option.map_eq_some_iff.mp hout
  obtain ⟨hqueries, hedns⟩ := Prod.mk.inj hfields
  exact ⟨_, _, out, handles_front hanswer, hrespond, hqueries, hedns⟩

end EgressDns
