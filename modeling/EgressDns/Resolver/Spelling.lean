import EgressDns.Dns.Spelling
import EgressDns.Resolver.Front

/-!
# Answers to a name however it is spelled

The first half of the resolver, the cache key, and every response built from the cache give the
same answer, up to the case of questions and owners, to requests that differ in the case of their
questions only, as long as the name is shown alike in both. What a response is shaped by besides the
request is an input here.
-/

namespace EgressDns

/-- Stripping looks at the type of the question, not at its name. -/
structure Hickory.CaseBlind (hk : Hickory) : Prop where
  strip : ∀ (msg : Message) (queries : List Query),
    queries.map Query.plain = msg.queries.map Query.plain →
      hk.stripDnssec { msg with queries } = { hk.stripDnssec msg with queries }

theorem Hickory.CaseBlind.queries {hk : Hickory} (hb : hk.CaseBlind) (msg : Message) :
    (hk.stripDnssec msg).queries = msg.queries := by
  have h := congrArg Message.queries (hb.strip msg msg.queries rfl)
  exact h

theorem Hickory.sample_caseBlind : Hickory.sample.CaseBlind := ⟨fun _ _ _ => rfl⟩

def FrontAnswer.plain (answer : FrontAnswer) : FrontAnswer :=
  { answer with message := answer.message.plain }

def Answer.plain (answer : Answer) : Answer := { answer with message := answer.message.plain }

section Lookups

variable {hk : Hickory} {fc : FrontConfig} {request : Message}

theorem questionOf_asked (request : Message) :
    questionOf request.asked = (questionOf request).plain := by
  cases h : request.queries with
  | nil => simp only [questionOf, Message.asked, h, List.map_nil]; rfl
  | cons q rest => simp only [questionOf, Message.asked, h, List.map_cons, List.headD_cons]

theorem qtype_asked (request : Message) :
    (questionOf request.asked).qtype = (questionOf request).qtype := by
  rw [questionOf_asked]
  rfl

theorem qclass_asked (request : Message) :
    (questionOf request.asked).qclass = (questionOf request).qclass := by
  rw [questionOf_asked]
  rfl

/-- The name asked for is shown alike, up to case, as it is spelled and in lower case. A label that
starts with `xn--` may be shown in Unicode, one that starts with `XN--` is not. -/
def Hickory.ShowsAlike (hk : Hickory) (request : Message) : Prop :=
  lower (hk.nameText (questionOf request).name.plain) = lower (hk.nameText (questionOf request).name)

instance (hk : Hickory) (request : Message) : Decidable (hk.ShowsAlike request) :=
  inferInstanceAs (Decidable (_ = _))

theorem lower_queryName_asked (h : hk.ShowsAlike request) :
    lower (queryName hk request.asked) = lower (queryName hk request) := by
  unfold queryName
  rw [questionOf_asked]
  exact h

theorem HostsTable.get_congr (t : HostsTable) {a b : Text} (h : lower a = lower b) :
    t.get a = t.get b := by
  unfold HostsTable.get
  rw [normalizeName_congr h]

theorem LocalZoneSet.lookup_congr (set : LocalZoneSet) {a b : Text} (h : lower a = lower b)
    (qtype : RecordType) : set.lookup a qtype = set.lookup b qtype := by
  unfold LocalZoneSet.lookup
  rw [lower_trimEndDots_congr h]

theorem DatasetSnapshot.groupFor_congr (d : DatasetSnapshot) {a b : Text} (h : lower a = lower b) :
    d.groupFor a = d.groupFor b := by
  unfold DatasetSnapshot.groupFor
  rw [lower_trimEndDots_congr h]

theorem SpecialName.classify_congr {a b : Text} (h : lower a = lower b) :
    SpecialName.classify a = SpecialName.classify b := by
  unfold SpecialName.classify
  rw [normalizeName_congr h]

theorem isExcluded_congr {a b : List UInt8} (h : lower a = lower b) (allow deny : List (List UInt8)) :
    isExcluded a allow deny = isExcluded b allow deny := by
  unfold isExcluded
  rw [lower_trimEndDots_congr h]

theorem frontKey_asked (h : hk.ShowsAlike request) (group : String) :
    frontKey hk fc request.asked group = frontKey hk fc request group := by
  unfold frontKey CacheKey.new
  rw [questionOf_asked]
  simp only [Query.plain, normalizeName_congr h]
  rfl

theorem forwardKey_asked (h : hk.ShowsAlike request) (d : DatasetSnapshot) :
    forwardKey hk fc request.asked d = forwardKey hk fc request d := by
  unfold forwardKey
  rw [frontKey_asked h, d.groupFor_congr (lower_queryName_asked h)]

end Lookups

section Front

variable {hk : Hickory} {fc : FrontConfig} {request : Message} {maxSize : Nat}

theorem attachResponseEdns_plain (cfg : Config) {msg msg' : Message} (h : msg'.plain = msg.plain) :
    (attachResponseEdns cfg request.asked msg').plain =
      (attachResponseEdns cfg request msg).plain := by
  have hplain : ∀ m : Message, (attachResponseEdns cfg request m).plain =
      attachResponseEdns cfg request m.plain := by
    intro m
    unfold attachResponseEdns
    cases request.edns <;> rfl
  exact (hplain msg').trans ((congrArg _ h).trans (hplain msg).symm)

theorem errorResponse_plain (code : ResponseCode) (recursion : Bool) :
    (errorResponse hk request.asked code recursion).plain =
      (errorResponse hk request code recursion).plain := by
  simp only [errorResponse, Message.plain, Message.asked, map_plain_plain]

theorem rejectWith_plain (code : ResponseCode) :
    (rejectWith hk fc request.asked maxSize code).plain =
      (rejectWith hk fc request maxSize code).plain := by
  unfold rejectWith FrontAnswer.plain
  rw [attachResponseEdns_plain fc.cfg (errorResponse_plain code true)]

theorem localRecords_plain {records records' : List Record}
    (h : records'.map Record.plain = records.map Record.plain) :
    (localRecords hk fc request.asked maxSize records').plain =
      (localRecords hk fc request maxSize records).plain := by
  unfold localRecords FrontAnswer.plain
  rw [attachResponseEdns_plain fc.cfg]
  simp only [Message.plain, responseSkeleton, Message.asked, map_plain_plain, h]

theorem map_fromRdata_plain {A : Type} (xs : List A) (ttl : Nat) (data : A → RData) :
    (xs.map fun x => Record.fromRdata (questionOf request.asked).name ttl (data x)).map
        Record.plain =
      (xs.map fun x => Record.fromRdata (questionOf request).name ttl (data x)).map
        Record.plain := by
  rw [List.map_map, List.map_map, questionOf_asked]
  refine List.map_congr_left fun x _ => ?_
  simp only [Function.comp_apply, Record.plain, Record.fromRdata, Query.plain, Name.plain_plain]

theorem localNxDomain_plain :
    (localNxDomain hk request.asked maxSize).plain = (localNxDomain hk request maxSize).plain := by
  simp only [localNxDomain, FrontAnswer.plain, errorResponse, Message.plain, Message.asked,
    map_plain_plain]

theorem hostsAnswer_plain (h : hk.ShowsAlike request) (d : DatasetSnapshot) :
    (hostsAnswer hk fc request.asked maxSize d).map FrontAnswer.plain =
      (hostsAnswer hk fc request maxSize d).map FrontAnswer.plain := by
  have hget := d.hosts.get_congr (lower_queryName_asked h)
  have hfamily : d.hosts.getFamily (queryName hk request.asked)
        (decide ((questionOf request.asked).qtype = .a)) =
      d.hosts.getFamily (queryName hk request) (decide ((questionOf request).qtype = .a)) := by
    unfold HostsTable.getFamily
    rw [hget, qtype_asked]
  unfold hostsAnswer
  dsimp only
  rw [hfamily, hget, qtype_asked]
  split_ifs
  · exact congrArg some (localRecords_plain (map_fromRdata_plain _ _ _))
  · exact congrArg some (localRecords_plain rfl)
  · rfl
  · rfl

theorem localAnswer_plain (halike : hk.ShowsAlike request) (d : DatasetSnapshot) :
    (localAnswer hk fc request.asked maxSize d).map FrontAnswer.plain =
      (localAnswer hk fc request maxSize d).map FrontAnswer.plain := by
  have hhosts : (hostsAnswer hk fc request.asked maxSize d).map FrontAnswer.plain =
      (hostsAnswer hk fc request maxSize d).map FrontAnswer.plain := hostsAnswer_plain halike d
  have hzones := d.zones.lookup_congr (lower_queryName_asked halike) (questionOf request).qtype
  unfold localAnswer
  -- Either both find a hosts entry or neither does.
  cases hasked : hostsAnswer hk fc request.asked maxSize d with
  | some answer =>
    cases h : hostsAnswer hk fc request maxSize d with
    | some answer' =>
      rw [hasked, h] at hhosts
      exact hhosts
    | none =>
      rw [hasked, h] at hhosts
      cases hhosts
  | none =>
    cases h : hostsAnswer hk fc request maxSize d with
    | some answer' =>
      rw [hasked, h] at hhosts
      cases hhosts
    | none =>
      dsimp only
      rw [qtype_asked, hzones]
      split
      · exact congrArg some (localRecords_plain rfl)
      · exact congrArg some (localRecords_plain rfl)
      · exact congrArg some localNxDomain_plain
      · rfl

theorem registryAnswer_plain (disposition : SpecialName.Disposition) :
    (registryAnswer hk fc request.asked maxSize disposition).map FrontAnswer.plain =
      (registryAnswer hk fc request maxSize disposition).map FrontAnswer.plain := by
  cases disposition with
  | forward => rfl
  | nxDomain =>
    simp only [registryAnswer, Option.map_some, FrontAnswer.plain]
    rw [attachResponseEdns_plain fc.cfg]
    simp only [errorResponse, Message.plain, Message.asked, map_plain_plain]
  | loopMarker | loopback =>
    simp only [registryAnswer, qtype_asked]
    exact congrArg some (localRecords_plain (map_fromRdata_plain _ _ _))

theorem specialUseAnswer_plain (h : hk.ShowsAlike request) (d : DatasetSnapshot) :
    (specialUseAnswer hk fc request.asked maxSize d).map FrontAnswer.plain =
      (specialUseAnswer hk fc request maxSize d).map FrontAnswer.plain := by
  have hname := lower_queryName_asked h
  unfold specialUseAnswer
  rw [SpecialName.classify_congr hname, d.groupFor_congr hname]
  split
  · rfl
  · split
    · rfl
    · exact registryAnswer_plain _

theorem minimalAny_plain (ttl : Nat) (data : RData) :
    (attachResponseEdns fc.cfg request.asked
        { responseSkeleton hk request.asked true with
          answers := [Record.fromRdata (questionOf request.asked).name ttl data] }).plain =
      (attachResponseEdns fc.cfg request
        { responseSkeleton hk request true with
          answers := [Record.fromRdata (questionOf request).name ttl data] }).plain := by
  have hrecord := @map_fromRdata_plain request Unit [()] ttl fun _ => data
  refine attachResponseEdns_plain fc.cfg ?_
  simp only [Message.plain, responseSkeleton, Message.asked, map_plain_plain]
  exact congrArg (fun answers => Message.mk _ _ answers _ _ _) hrecord

theorem earlyAnswer_plain :
    (earlyAnswer hk fc request.asked maxSize).map FrontAnswer.plain =
      (earlyAnswer hk fc request maxSize).map FrontAnswer.plain := by
  have hlength : request.asked.queries.length = request.queries.length := List.length_map _
  have hmetadata : request.asked.metadata = request.metadata := rfl
  have hedns : request.asked.edns = request.edns := rfl
  unfold earlyAnswer
  rw [qtype_asked, qclass_asked, hlength, hmetadata, hedns]
  split_ifs
  · exact congrArg some (rejectWith_plain _)
  · exact congrArg some (rejectWith_plain _)
  · simp only [Option.map_some, FrontAnswer.plain, errorResponse_plain]
  · exact congrArg some (rejectWith_plain _)
  · cases fc.anyPolicy with
    | refuse => exact congrArg some (rejectWith_plain _)
    | minimal =>
      simp only [Option.map_some, FrontAnswer.plain]
      rw [minimalAny_plain]
    | forward => rfl
  · rfl

def FrontOutcome.plain : FrontOutcome → FrontOutcome
  | answered answer => .answered answer.plain
  | forwarded key => .forwarded key

def FrontStage.plain : FrontStage → FrontStage
  | done outcome => .done outcome.plain
  | stage => stage

def answerOr (answer : Option FrontAnswer) (next : Option FrontStage) : Option FrontStage :=
  match answer with
  | some answer => some (.done (.answered answer))
  | none => next

theorem answerOr_plain {answer answer' : Option FrontAnswer} {next next' : Option FrontStage}
    (h : answer'.map FrontAnswer.plain = answer.map FrontAnswer.plain)
    (hnext : next'.map FrontStage.plain = next.map FrontStage.plain) :
    (answerOr answer' next').map FrontStage.plain = (answerOr answer next).map FrontStage.plain := by
  cases answer with
  | some held =>
    obtain ⟨held', rfl, hplain⟩ := Option.map_eq_some_iff.mp h
    exact congrArg (fun a => some (FrontStage.done (.answered a))) hplain
  | none =>
    obtain rfl := Option.map_eq_none_iff.mp h
    exact hnext

theorem advanceFront_plain (h : hk.ShowsAlike request) (transport : ClientTransport)
    (d : DatasetSnapshot) (stage : FrontStage) :
    (advanceFront hk fc request.asked transport d stage.plain).map FrontStage.plain =
      (advanceFront hk fc request transport d stage).map FrontStage.plain := by
  cases stage with
  | arrived =>
    have hlocal : (localAnswer hk fc request.asked (maxResponseSize fc request transport) d).map
          FrontAnswer.plain =
        (localAnswer hk fc request (maxResponseSize fc request transport) d).map
          FrontAnswer.plain := localAnswer_plain h d
    exact answerOr_plain earlyAnswer_plain (answerOr_plain hlocal rfl)
  | notLocal =>
    simp only [FrontStage.plain, advanceFront]
    cases fc.specialUse with
    | forward => rfl
    | answer => exact answerOr_plain (specialUseAnswer_plain h d) rfl
  | notSpecial => simp only [FrontStage.plain, advanceFront, forwardKey_asked h]
  | done outcome => rfl

end Front

section Build

variable {hk : Hickory} {request : Message}

theorem answerContext_asked (h : hk.ShowsAlike request) (cfg : Config) (env : ResponseEnv)
    (entry : CacheEntry) (remaining : Nat) (isStale : Bool) :
    answerContext hk cfg env request.asked entry remaining isStale =
      answerContext hk cfg env request entry remaining isStale := by
  unfold answerContext
  rw [questionOf_asked]
  simp only [Query.plain, isExcluded_congr h]

theorem shapedAnswer_asked (h : hk.ShowsAlike request) (cfg : Config) (env : ResponseEnv)
    (entry : CacheEntry) (remaining : Nat) (isStale : Bool) :
    shapedAnswer hk cfg env request.asked entry remaining isStale =
      ({ (shapedAnswer hk cfg env request entry remaining isStale).1 with
          queries := request.asked.queries },
        (shapedAnswer hk cfg env request entry remaining isStale).2) := by
  have haged : agedMessage hk env request.asked entry =
      { agedMessage hk env request entry with queries := request.asked.queries } := rfl
  unfold shapedAnswer
  rw [answerContext_asked h, haged, applyAnswerPolicy_requeried]

theorem buildResponse_plain (hb : hk.CaseBlind) (h : hk.ShowsAlike request) (cfg : Config)
    (env : ResponseEnv) (entry : CacheEntry) (remaining : Nat) (isStale clientDo : Bool) :
    (buildResponse hk cfg env request.asked entry remaining isStale clientDo).plain =
      (buildResponse hk cfg env request entry remaining isStale clientDo).plain := by
  have hqueries : request.asked.queries.map Query.plain = request.queries.map Query.plain :=
    map_plain_plain _
  have hshaped : (shapedAnswer hk cfg env request entry remaining isStale).1.queries =
      request.queries := applyAnswerPolicy_queries _ _
  unfold buildResponse
  rw [shapedAnswer_asked h]
  refine attachResponseEdns_plain cfg ?_
  cases clientDo with
  | true => exact plain_of_queries rfl (hshaped ▸ hqueries)
  | false =>
    simp only [Bool.false_eq_true, if_false]
    rw [hb.strip _ _ (hshaped ▸ hqueries)]
    refine plain_of_queries rfl ?_
    rw [hb.queries, hshaped]
    exact hqueries

theorem attachEde_plain {msg msg' : Message} (h : msg'.plain = msg.plain) (err : ExtendedError)
    (text : String) : (attachEde msg' err text).plain = (attachEde msg err text).plain :=
  congrArg (attachEde · err text) h

def Client.asked (client : Client) : Client := { client with request := client.request.asked }

variable (r : Resolver hk) (client : Client)

theorem failureAnswer_plain (failure : FailureEntry) :
    (r.failureAnswer client.asked failure).plain = (r.failureAnswer client failure).plain := by
  have herror : (errorResponse hk client.request.asked failure.rcode true).plain =
      (errorResponse hk client.request failure.rcode true).plain := errorResponse_plain _ _
  simp only [Resolver.failureAnswer, Answer.plain, Client.asked]
  split
  · rw [attachEde_plain herror]
  · rw [herror]

section Alike

variable (hb : hk.CaseBlind) (h : hk.ShowsAlike client.request)
include hb h

theorem hitAnswer_plain (entry : CacheEntry) (remaining : Nat) :
    (r.hitAnswer client.asked entry remaining).plain =
      (r.hitAnswer client entry remaining).plain := by
  simp only [Resolver.hitAnswer, Answer.plain, Client.asked]
  rw [buildResponse_plain hb h]

theorem staleAnswer_plain (entry : CacheEntry) :
    (r.staleAnswer client.asked entry).plain = (r.staleAnswer client entry).plain := by
  have hbuilt := @buildResponse_plain hk client.request hb h r.cfg client.env entry 0 true
    client.clientDo
  simp only [Resolver.staleAnswer, Answer.plain, Client.asked]
  split
  · rw [attachEde_plain hbuilt]
  · rw [hbuilt]

theorem settle_plain (key : CacheKey) (c : DnsCache)
    (outcome : Except FailureReport CacheEntry) :
    (r.settle key client.asked c outcome).1.plain = (r.settle key client c outcome).1.plain := by
  cases outcome with
  | ok entry =>
    simp only [Resolver.settle, Answer.plain, Client.asked]
    rw [buildResponse_plain hb h]
  | error report =>
    have herror : (errorResponse hk client.request.asked .servFail true).plain =
        (errorResponse hk client.request .servFail true).plain := errorResponse_plain _ _
    simp only [Resolver.settle, Answer.plain, Client.asked]
    split
    · rw [attachEde_plain herror]
    · rw [herror]

end Alike

end Build

end EgressDns
