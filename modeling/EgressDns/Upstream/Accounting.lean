import EgressDns.Lib.Runs
import EgressDns.Upstream.Resolve

/-!
# What a resolution starts, records and returns

The accounting of `Scheduler::resolve` over every order of completions: which routes were started,
which attempts have finished, and which of them moved a route's health.
-/

namespace EgressDns

/-- The checks a reply has passed before it counts as an answer. -/
structure ChecksPassed (hk : Hickory) (request : Message) (route : Route) (response : Message) :
    Prop where
  question : questionMatches hk request response = true
  reply : response.metadata.messageType = .response
  opCode : response.metadata.opCode = request.metadata.opCode
  cookie : route.cookiesEnabled = true → (response.edns.bind (·.get cookieOptionCode)).isSome →
    (extractServerCookie response route.clientCookie).isSome
  code : response.metadata.responseCode = .noError ∨ response.metadata.responseCode = .nxDomain

variable {request : Message} {route : Route} {hk : Hickory} {answer : UpstreamAnswer}
  {exchange : Exchange} {streamRetry : Bool}

theorem checksPassed_of_validateResponse {response : Message}
    (h : validateResponse hk request response route = .ok ()) :
    ChecksPassed hk request route response := by
  unfold validateResponse at h
  split at h
  · cases h
  rename_i hquestion
  split at h
  · cases h
  rename_i hreply
  split at h
  · cases h
  rename_i hopcode
  split at h
  · cases h
  rename_i hcookie
  refine ⟨by simpa using hquestion, by simpa using hreply, by simpa using hopcode, ?_, ?_⟩
  · intro henabled hsent
    simpa [henabled, hsent, Option.isSome_iff_ne_none] using hcookie
  · split at h
    · rename_i hcode
      exact .inl hcode
    · rename_i hcode
      exact .inr hcode
    · cases h
    · cases h

def Turn.completion : Turn → Option (Nat × Exchange)
  | .finished idx exchange _ => some (idx, exchange)
  | _ => none

def completions (turns : List Turn) : List (Nat × Exchange) := turns.filterMap Turn.completion

theorem completions_append (turns turns' : List Turn) :
    completions (turns ++ turns') = completions turns ++ completions turns' :=
  List.filterMap_append

namespace ResolveCtx

variable (ctx : ResolveCtx)

/-- The health update a completion leads to; none for an attempt that was shed. -/
def healthUpdate (completion : Nat × Exchange) : Option (Nat × AttemptOutcome) :=
  match ctx.ranked[completion.1]? with
  | none => none
  | some route =>
    (attempt ctx.hk ctx.request route completion.2).outcome.map fun outcome =>
      (completion.1, outcome)

def advance (s : ResolveState) (turn : Turn) : Option ResolveState :=
  match ctx.pass s turn with
  | .again s => some s
  | _ => none

/-- At most two stream attempts at routes of the ranking, each with the outcome its exchange led
to. -/
structure Retried (retried : List (Route × Option AttemptOutcome)) : Prop where
  length : retried.length ≤ 2
  each : ∀ p ∈ retried, p.1 ∈ rankInner ctx.group ctx.retryState ctx.seed true ∧
    p.1.key.transport.isStream = true ∧
    ∃ exchange, ctx.retry p.1 = some exchange ∧
      p.2 = (attempt ctx.hk ctx.request p.1 exchange).outcome

/-- The attempts so far: `log` are the completions received, in order. -/
structure Accounted (log : List (Nat × Exchange)) (s : ResolveState) : Prop where
  started : ∃ primary hedge fan : List Nat, s.attempted = primary ++ hedge ++ fan ∧
    primary.length ≤ 1 ∧ hedge.length ≤ 1 ∧
    fan.length ≤ ctx.group.scheduler.emergencyFanoutMax ∧ (s.fannedOut = false → fan = [])
  once : s.attempted.Nodup
  ranked : ∀ idx ∈ s.attempted, idx < ctx.ranked.length
  finished : (s.pending ++ log.map Prod.fst).Perm s.attempted
  recorded : s.recorded.reverse = log.filterMap ctx.healthUpdate
  exchanged : s.anyExchange = true → s.recorded ≠ []
  retried : ctx.Retried s.retried
  truncated : s.retried ≠ [] → ∃ idx reply latency route,
    (idx, Exchange.replied reply latency) ∈ log ∧ ctx.ranked[idx]? = some route ∧
    reply.message.metadata.truncation = true ∧ route.key.transport.isStream = false

variable {ctx} {log : List (Nat × Exchange)} {s s' : ResolveState} {exchange : Exchange} {idx : Nat}
  {route first : Route} {answer got : UpstreamAnswer} {result : Except ResolveError UpstreamAnswer}
  {turn : Turn} {turns : List Turn} {rest : List Route}

theorem healthUpdate_of_route (h : ctx.ranked[idx]? = some route) :
    ctx.healthUpdate (idx, exchange) =
      (attempt ctx.hk ctx.request route exchange).outcome.map fun outcome => (idx, outcome) := by
  simp only [healthUpdate, h]

theorem retryOver_retried (ctx : ResolveCtx) (routes : List Route) :
    (ctx.retryOver routes).2.length ≤ routes.length ∧
      ∀ p ∈ (ctx.retryOver routes).2, p.1 ∈ routes ∧
        ∃ exchange, ctx.retry p.1 = some exchange ∧
          p.2 = (attempt ctx.hk ctx.request p.1 exchange).outcome := by
  induction routes with
  | nil => exact ⟨Nat.le_refl _, List.forall_mem_nil _⟩
  | cons route routes ih =>
    unfold retryOver
    split
    · exact ⟨Nat.zero_le _, List.forall_mem_nil _⟩
    · rename_i exchange hexchange
      simp only
      split
      · refine ⟨by simp, List.forall_mem_singleton.mpr ?_⟩
        exact ⟨List.mem_cons_self, exchange, hexchange, rfl⟩
      · refine ⟨by simpa using ih.1, List.forall_mem_cons.mpr ⟨?_, ?_⟩⟩
        · exact ⟨List.mem_cons_self, exchange, hexchange, rfl⟩
        · intro p hp
          obtain ⟨hm, hrest⟩ := ih.2 p hp
          exact ⟨List.mem_cons_of_mem route hm, hrest⟩

theorem streamRetry_retried : ctx.Retried ctx.streamRetry.2 := by
  unfold streamRetry
  split
  · obtain ⟨hlength, heach⟩ := ctx.retryOver_retried
      (((rankInner ctx.group ctx.retryState ctx.seed true).filter
        (fun r => r.key.transport.isStream)).take 2)
    refine ⟨hlength.trans (List.length_take_le _ _), ?_⟩
    intro p hp
    obtain ⟨hm, hrest⟩ := heach p hp
    have hfilter := List.mem_filter.mp (List.mem_of_mem_take hm)
    exact ⟨hfilter.1, by simpa using hfilter.2, hrest⟩
  · exact ⟨Nat.zero_le _, List.forall_mem_nil _⟩

theorem finished_perm (hm : idx ∈ s.pending)
    (h : (s.pending ++ log.map Prod.fst).Perm s.attempted) :
    (s.pending.erase idx ++ (log ++ [(idx, exchange)]).map Prod.fst).Perm s.attempted := by
  rw [List.map_append, ← List.append_assoc]
  have hlast : (s.pending.erase idx ++ log.map Prod.fst ++ [idx]).Perm
      (idx :: (s.pending.erase idx ++ log.map Prod.fst)) := List.perm_append_singleton _ _
  have hfront : (idx :: (s.pending.erase idx ++ log.map Prod.fst)).Perm
      (s.pending ++ log.map Prod.fst) := (List.perm_cons_erase hm).symm.append_right _
  exact hlast.trans (hfront.trans h)

theorem Accounted.shed (h : ctx.Accounted log s) (hm : idx ∈ s.pending) (detail : String) :
    ctx.Accounted (log ++ [(idx, .shed)])
      { s with pending := s.pending.erase idx, lastDetail := detail } where
  started := h.started
  once := h.once
  ranked := h.ranked
  finished := finished_perm hm h.finished
  recorded := by
    have hnone : ctx.healthUpdate (idx, .shed) = none := by
      unfold healthUpdate
      split <;> rfl
    rw [List.filterMap_append, h.recorded]
    simp [hnone]
  exchanged := h.exchanged
  retried := h.retried
  truncated hne := by
    obtain ⟨i, reply, latency, route, hlog, hrest⟩ := h.truncated hne
    exact ⟨i, reply, latency, route, List.mem_append_left _ hlog, hrest⟩

theorem Accounted.reached {outcome : AttemptOutcome} (h : ctx.Accounted log s)
    (hm : idx ∈ s.pending) (hroute : ctx.ranked[idx]? = some route)
    (ho : (attempt ctx.hk ctx.request route exchange).outcome = some outcome) (detail : String) :
    ctx.Accounted (log ++ [(idx, exchange)])
      { s with pending := s.pending.erase idx, anyExchange := true
               recorded := (idx, outcome) :: s.recorded, lastDetail := detail } where
  started := h.started
  once := h.once
  ranked := h.ranked
  finished := finished_perm hm h.finished
  recorded := by
    have hsome : ctx.healthUpdate (idx, exchange) = some (idx, outcome) := by
      rw [healthUpdate_of_route hroute, ho]
      rfl
    rw [List.filterMap_append, List.reverse_cons, h.recorded]
    simp [hsome]
  exchanged _ := List.cons_ne_nil _ _
  retried := h.retried
  truncated hne := by
    obtain ⟨i, reply, latency, route, hlog, hrest⟩ := h.truncated hne
    exact ⟨i, reply, latency, route, List.mem_append_left _ hlog, hrest⟩

theorem Accounted.retry {reply : WireMessage} {latency : Nat} (h : ctx.Accounted log s)
    (hlog : (idx, Exchange.replied reply latency) ∈ log) (hroute : ctx.ranked[idx]? = some route)
    (ht : reply.message.metadata.truncation = true) (hs : route.key.transport.isStream = false) :
    ctx.Accounted log { s with retried := ctx.streamRetry.2 } where
  started := h.started
  once := h.once
  ranked := h.ranked
  finished := h.finished
  recorded := h.recorded
  exchanged := h.exchanged
  retried := streamRetry_retried
  truncated _ := ⟨idx, reply, latency, route, hlog, hroute, ht, hs⟩

theorem mem_fanOut (h : idx ∈ ctx.fanOut s) : idx < ctx.ranked.length ∧ idx ∉ s.attempted := by
  unfold fanOut at h
  split at h
  · obtain ⟨hrange, hnew⟩ := List.mem_filter.mp (List.mem_of_mem_take h)
    exact ⟨List.mem_range.mp hrange, of_decide_eq_true hnew⟩
  · cases h

theorem fanOut_nodup : (ctx.fanOut s).Nodup := by
  unfold fanOut
  split
  · exact ((List.take_sublist _ _).trans List.filter_sublist).nodup List.nodup_range
  · exact List.nodup_nil

theorem fanOut_length : (ctx.fanOut s).length ≤ ctx.group.scheduler.emergencyFanoutMax := by
  unfold fanOut
  split
  · exact List.length_take_le _ _
  · exact Nat.zero_le _

theorem Accounted.fanOut (h : ctx.Accounted log s) (hdrained : s.pending = [])
    (hfresh : s.fannedOut = false) :
    ctx.Accounted log
      { s with fannedOut := true, attempted := s.attempted ++ ctx.fanOut s
               pending := ctx.fanOut s } where
  started := by
    obtain ⟨primary, hedge, fan, hattempted, hp, hh, _, hnone⟩ := h.started
    rw [hnone hfresh, List.append_nil] at hattempted
    exact ⟨primary, hedge, ctx.fanOut s, by rw [hattempted], hp, hh, fanOut_length, nofun⟩
  once := by
    refine List.nodup_append.mpr ⟨h.once, fanOut_nodup, ?_⟩
    intro a ha b hb he
    exact (mem_fanOut hb).2 (he ▸ ha)
  ranked idx hm := by
    rcases List.mem_append.mp hm with hm | hm
    · exact h.ranked idx hm
    · exact (mem_fanOut hm).1
  finished := by
    have hlog := h.finished
    rw [hdrained, List.nil_append] at hlog
    exact List.perm_append_comm.trans (hlog.append_right _)
  recorded := h.recorded
  exchanged := h.exchanged
  retried := h.retried
  truncated := h.truncated

/-- The answer passed the checks of a route that the run has tried, one of its ranking or of a
retry. -/
def Checked (ctx : ResolveCtx) (s : ResolveState) (answer : UpstreamAnswer) : Prop :=
  ∃ route, ((∃ idx ∈ s.attempted, ctx.ranked[idx]? = some route) ∨
      route ∈ s.retried.map Prod.fst) ∧
    answer.route = route.key ∧ ChecksPassed ctx.hk ctx.request route answer.message.message

structure Returned (ctx : ResolveCtx) (log : List (Nat × Exchange))
    (result : Except ResolveError UpstreamAnswer) (s : ResolveState) : Prop where
  accounted : ctx.Accounted log s
  checked : ∀ answer, result = .ok answer → ctx.Checked s answer
  allFailed : ∀ detail, result = .error (.allFailed detail) →
    s.recorded ≠ [] ∧ s.pending = []

theorem not_accepts_again : ¬ctx.Accepts s got (.again s') := nofun

theorem finishes_again (h : ctx.Accounted log s) (hm : idx ∈ s.pending)
    (hroute : ctx.ranked[idx]? = some route)
    (hfinishes : ctx.Finishes s idx route exchange (.again s')) :
    ctx.Accounted (log ++ [(idx, exchange)]) s' := by
  cases hfinishes with
  | shed detail hshed _ =>
    subst hshed
    exact h.shed hm detail
  | failed detail houtcome => exact h.reached hm hroute houtcome detail
  | answered _ _ haccepts => exact absurd haccepts not_accepts_again

theorem fannedOut_of_fanOut (h : ctx.fanOut s ≠ []) : s.fannedOut = false := by
  unfold ResolveCtx.fanOut at h
  split at h
  · rename_i hon
    simpa using (Bool.and_eq_true_iff.mp hon).2
  · exact absurd rfl h

theorem pass_again (h : ctx.Accounted log s) (hp : ctx.pass s turn = .again s') :
    ctx.Accounted (log ++ completions [turn]) s' := by
  cases passes_of_pass hp nofun with
  | finished hroute hm hfinishes => exact finishes_again h hm hroute hfinishes
  | drained hdrained hdrains =>
    rw [show completions [.drained] = [] from rfl, List.append_nil]
    cases hdrains with
    | fannedOut hfan => exact h.fanOut hdrained (fannedOut_of_fanOut hfan)

theorem advance_eq_some (h : ctx.advance s turn = some s') : ctx.pass s turn = .again s' := by
  unfold advance at h
  split at h
  · rename_i hp
    cases h
    exact hp
  · cases h

theorem run_accounted (h : ctx.Accounted log s) (hr : Lib.run ctx.advance s turns = some s') :
    ctx.Accounted (log ++ completions turns) s' := by
  induction turns generalizing log s with
  | nil =>
    cases hr
    rw [show completions [] = [] from rfl, List.append_nil]
    exact h
  | cons turn turns ih =>
    obtain ⟨m, hm, hrest⟩ := Lib.run_cons hr
    have hlater := ih (pass_again h (advance_eq_some hm)) hrest
    rwa [List.append_assoc, ← completions_append, List.singleton_append] at hlater

theorem hedgeIdx_spec (hr : ctx.ranked = first :: rest) (hl : 1 < ctx.ranked.length) :
    ctx.hedgeIdx first ≠ 0 ∧ ctx.hedgeIdx first < ctx.ranked.length := by
  unfold hedgeIdx
  cases hidx : ctx.ranked.findIdx? (fun r => r.key.authority ≠ first.key.authority) with
  | none => exact ⟨Nat.one_ne_zero, hl⟩
  | some idx =>
    obtain ⟨hlt, hp, _⟩ := List.findIdx?_eq_some_iff_getElem.mp hidx
    refine ⟨?_, hlt⟩
    rintro rfl
    simp [hr] at hp

theorem initial_accounted (hr : ctx.ranked = first :: rest) :
    ctx.Accounted [] (ctx.initial first) := by
  have hzero : 0 < ctx.ranked.length := by simp [hr]
  unfold initial
  simp only
  split
  · rename_i hhedge
    have hl : 1 < ctx.ranked.length := by
      simp only [Bool.and_eq_true, decide_eq_true_eq] at hhedge
      exact hhedge.1.2
    obtain ⟨hne, hlt⟩ := hedgeIdx_spec hr hl
    exact
      { started := ⟨[0], [ctx.hedgeIdx first], [], rfl, by simp, by simp, by simp, fun _ => rfl⟩
        once := by simpa using hne.symm
        ranked := by simpa using ⟨hzero, hlt⟩
        finished := by simp
        recorded := rfl
        exchanged := nofun
        retried := ⟨Nat.zero_le _, List.forall_mem_nil _⟩
        truncated := fun h => absurd rfl h }
  · exact
      { started := ⟨[0], [], [], rfl, by simp, by simp, by simp, fun _ => rfl⟩
        once := List.nodup_singleton _
        ranked := by simpa using hzero
        finished := by simp
        recorded := rfl
        exchanged := nofun
        retried := ⟨Nat.zero_le _, List.forall_mem_nil _⟩
        truncated := fun h => absurd rfl h }

theorem mem_attempted_of_log (h : ctx.Accounted log s) (hm : idx ∈ log.map Prod.fst) :
    idx ∈ s.attempted :=
  h.finished.mem_iff.mp (List.mem_append_right _ hm)

theorem fst_of_healthUpdate {completion : Nat × Exchange} {update : Nat × AttemptOutcome}
    (h : ctx.healthUpdate completion = some update) :
    update.1 = completion.1 ∧ completion.2 ≠ .shed := by
  unfold healthUpdate at h
  split at h
  · cases h
  · obtain ⟨outcome, ho, rfl⟩ := Option.map_eq_some_iff.mp h
    refine ⟨rfl, ?_⟩
    intro hshed
    rw [hshed] at ho
    cases ho

def twoRoutes : ResolveCtx where
  hk := .sample
  group := plainGroup [quad9, quad1]
  request := addressQuery
  state := coldState
  seed := 0
  hedgeAdmitted := true
  capacity := 256
  retryOpen := false
  retryState := coldState
  retry _ := none

end ResolveCtx

end EgressDns
