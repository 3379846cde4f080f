import EgressDns.Upstream.Rank

/-!
# Racing, truncation retries and second opinions

`Scheduler::resolve` is a loop over the attempts still pending. One `Turn` is what one pass of
the loop waited for, so a list of turns is one order of completions, timeouts and fallbacks.
-/

namespace EgressDns

def bounded (s : String) (max : Nat) : String :=
  if s.length ≤ max then s else String.ofList (s.toList.take max) ++ "…"

/-- What a resolution reads besides its turns. A truncation retry ranks in the state of its own
moment; `retry` is the exchange a stream route ends in then, `none` once the deadline has passed. -/
structure ResolveCtx where
  hk : Hickory
  group : UpstreamGroup
  request : Message
  state : RankState
  seed : UInt64
  hedgeAdmitted : Bool
  capacity : Nat
  retryOpen : Bool
  retryState : RankState
  retry : Route → Option Exchange

/-- One pass of the loop: the deadline is over, the attempt at a rank finished (`late` is the time
elapsed once the deadline has passed), or nothing is pending. -/
inductive Turn where
  | expired (elapsedMs : Nat)
  | finished (idx : Nat) (exchange : Exchange) (late : Option Nat)
  | drained

structure ResolveState where
  attempted : List Nat
  pending : List Nat
  fannedOut : Bool
  anyExchange : Bool
  lastDetail : String
  recorded : List (Nat × AttemptOutcome)
  retried : List (Route × Option AttemptOutcome)

/-- The result of one turn. A turn that cannot happen in the state is `impossible`. -/
inductive Pass where
  | stop (result : Except ResolveError UpstreamAnswer) (s : ResolveState)
  | again (s : ResolveState)
  | impossible

namespace ResolveCtx

variable (ctx : ResolveCtx)

def ranked : List Route := rank ctx.group ctx.state ctx.seed

def hedgeIdx (first : Route) : Nat :=
  (ctx.ranked.findIdx? (fun r => r.key.authority ≠ first.key.authority)).getD 1

def initial (first : Route) : ResolveState :=
  let started :=
    if ctx.group.scheduler.hedgeEnabled && decide (1 < ctx.ranked.length) && ctx.hedgeAdmitted
    then [0, ctx.hedgeIdx first] else [0]
  { attempted := started, pending := started, fannedOut := false, anyExchange := false
    lastDetail := "no attempt completed", recorded := [], retried := [] }

def retryOver : List Route → Option UpstreamAnswer × List (Route × Option AttemptOutcome)
  | [] => (none, [])
  | route :: routes =>
    match ctx.retry route with
    | none => (none, [])
    | some exchange =>
      let result := attempt ctx.hk ctx.request route exchange
      match result.answer route true with
      | some answer => (some answer, [(route, result.outcome)])
      | none => ((retryOver routes).1, (route, result.outcome) :: (retryOver routes).2)

/-- At most two stream routes, companions included, against the same deadline. -/
def streamRetry : Option UpstreamAnswer × List (Route × Option AttemptOutcome) :=
  if ctx.retryOpen then
    ctx.retryOver (((rankInner ctx.group ctx.retryState ctx.seed true).filter
      (fun r => r.key.transport.isStream)).take 2)
  else (none, [])

variable (s : ResolveState)

def accept (answer : UpstreamAnswer) : Pass :=
  if answer.message.message.metadata.truncation && !answer.route.transport.isStream then
    let s := { s with retried := ctx.streamRetry.2 }
    match ctx.streamRetry.1 with
    | some retried => .stop (.ok retried) s
    | none => .stop (.error (.invalidResponse
        "truncated UDP answer could not be retried over a stream transport")) s
  else .stop (.ok answer) s

def finish (idx : Nat) (route : Route) (exchange : Exchange) (late : Option Nat) : Pass :=
  let result := attempt ctx.hk ctx.request route exchange
  let s := { s with pending := s.pending.erase idx }
  match result.outcome with
  | none =>
    if idx = 0 then
      match late with
      | some elapsedMs => .stop (.error (.timeout elapsedMs)) s
      | none => .stop (.error (.overloaded ctx.capacity)) s
    else .again { s with lastDetail := result.detail }
  | some outcome =>
    let s := { s with anyExchange := true, recorded := (idx, outcome) :: s.recorded }
    match result.answer route false with
    | some answer => ctx.accept s answer
    | none => .again { s with lastDetail := result.detail }

/-- The emergency fan-out, once: the routes never started, in rank order, up to the configured
number. -/
def fanOut : List Nat :=
  if ctx.group.scheduler.emergencyFanout && !s.fannedOut then
    ((List.range ctx.ranked.length).filter (fun idx => idx ∉ s.attempted)).take
      ctx.group.scheduler.emergencyFanoutMax
  else []

def drain : Pass :=
  if ctx.fanOut s ≠ [] then
    .again { s with
      fannedOut := true, attempted := s.attempted ++ ctx.fanOut s, pending := ctx.fanOut s }
  else if !s.anyExchange then .stop (.error (.overloaded ctx.capacity)) s
  else .stop (.error (.allFailed (bounded s.lastDetail 160))) s

def pass : Turn → Pass
  | .expired elapsedMs => .stop (.error (.timeout elapsedMs)) s
  | .finished idx exchange late =>
    match ctx.ranked[idx]? with
    | some route => if idx ∈ s.pending then ctx.finish s idx route exchange late else .impossible
    | none => .impossible
  | .drained => if s.pending = [] then ctx.drain s else .impossible

/-- The loop over one order of turns; `none` when the turns end first or cannot happen. -/
def loop : ResolveState → List Turn →
    Option (Except ResolveError UpstreamAnswer × ResolveState)
  | _, [] => none
  | s, turn :: turns =>
    match ctx.pass s turn with
    | .stop result s => some (result, s)
    | .again s => loop s turns
    | .impossible => none

def run (turns : List Turn) : Option (Except ResolveError UpstreamAnswer × ResolveState) :=
  match ctx.ranked with
  | [] => some (.error (.noRoute ctx.group.name),
      { attempted := [], pending := [], fannedOut := false, anyExchange := false
        lastDetail := "", recorded := [], retried := [] })
  | first :: _ => ctx.loop (ctx.initial first) turns

def resolve (turns : List Turn) : Option (Except ResolveError UpstreamAnswer) :=
  (ctx.run turns).map Prod.fst

end ResolveCtx

variable (hk : Hickory)

/-- One attempt, no hedge and no fallback. -/
def ask (request : Message) (exchange : Route → Exchange) (route : Route) : Option UpstreamAnswer :=
  (attempt hk request route (exchange route)).answer route false

/-- Somebody else's opinion: another authority, in an independent role. -/
def secondRoute (ranked : List Route) (exclude : String) : Option Route :=
  ranked.find? fun r => decide (r.key.authority ≠ exclude) && r.key.role.isIndependent

def pairRoutes (ranked : List Route) : Option (Route × Route) :=
  match ranked with
  | [] => none
  | first :: _ => (secondRoute ranked first.key.authority).map fun second => (first, second)

def resolvePair (group : UpstreamGroup) (st : RankState) (request : Message) (budget : Nat)
    (seed : UInt64) (exchange : Route → Exchange) : Option (UpstreamAnswer × UpstreamAnswer) :=
  if budget = 0 then none
  else
    match pairRoutes (rank group st seed) with
    | none => none
    | some (first, second) =>
      match ask hk request exchange first, ask hk request exchange second with
      | some a, some b => some (a, b)
      | _, _ => none

def corroborate (group : UpstreamGroup) (st : RankState) (request : Message) (budget : Nat)
    (seed : UInt64) (exclude : String) (exchange : Route → Exchange) : Option UpstreamAnswer :=
  if budget = 0 then none
  else
    match secondRoute (rank group st seed) exclude with
    | none => none
    | some route => ask hk request exchange route

/-- An answer that may be taken as complete: a datagram without the TC bit, or a stream. -/
def UpstreamAnswer.Complete (answer : UpstreamAnswer) : Prop :=
  answer.message.message.metadata.truncation = true → answer.route.transport.isStream = true

namespace ResolveCtx

variable {ctx : ResolveCtx} {answer : UpstreamAnswer} {turn : Turn} {turns : List Turn}

theorem retryOver_route {routes : List Route} (h : (ctx.retryOver routes).1 = some answer) :
    ∃ route ∈ routes, answer.route = route.key := by
  induction routes with
  | nil => cases h
  | cons route routes ih =>
    unfold retryOver at h
    split at h
    · cases h
    · rename_i exchange _
      simp only at h
      split at h
      · rename_i got hgot
        cases h
        exact ⟨route, List.mem_cons_self, (AttemptResult.answer_eq_some hgot).2.2⟩
      · obtain ⟨found, hm, he⟩ := ih h
        exact ⟨found, List.mem_cons_of_mem route hm, he⟩

theorem streamRetry_isStream (h : ctx.streamRetry.1 = some answer) :
    answer.route.transport.isStream = true := by
  unfold streamRetry at h
  split at h
  · obtain ⟨route, hm, he⟩ := retryOver_route h
    have hf := List.mem_of_mem_take hm
    rw [he]
    exact of_decide_eq_true (by simpa using (List.mem_filter.mp hf).2)
  · cases h

/-- What becomes of an answer: a truncated datagram is asked for again over a stream. -/
inductive Accepts (ctx : ResolveCtx) (s : ResolveState) (got : UpstreamAnswer) : Pass → Prop where
  | whole (hcomplete : got.Complete) : Accepts ctx s got (.stop (.ok got) s)
  | retried {answer : UpstreamAnswer} (htruncated : got.message.message.metadata.truncation = true)
      (hdatagram : got.route.transport.isStream = false)
      (hretry : ctx.streamRetry.1 = some answer) :
      Accepts ctx s got (.stop (.ok answer) { s with retried := ctx.streamRetry.2 })
  | gaveUp (detail : String) (htruncated : got.message.message.metadata.truncation = true)
      (hdatagram : got.route.transport.isStream = false) :
      Accepts ctx s got
        (.stop (.error (.invalidResponse detail)) { s with retried := ctx.streamRetry.2 })

variable (s : ResolveState)

theorem accept_accepts (got : UpstreamAnswer) : ctx.Accepts s got (ctx.accept s got) := by
  unfold accept
  split
  · rename_i hboth
    simp only [Bool.and_eq_true, Bool.not_eq_true'] at hboth
    split
    · rename_i answer hretry
      exact .retried hboth.1 hboth.2 hretry
    · exact .gaveUp _ hboth.1 hboth.2
  · rename_i hnot
    apply Accepts.whole
    intro htruncated
    simpa [htruncated] using hnot

inductive Finishes (ctx : ResolveCtx) (s : ResolveState) (idx : Nat) (route : Route)
    (exchange : Exchange) : Pass → Prop where
  | refused {e : ResolveError} (hshed : exchange = .shed) (he : ∀ detail, e ≠ .allFailed detail) :
      Finishes ctx s idx route exchange (.stop (.error e) { s with pending := s.pending.erase idx })
  | shed (detail : String) (hshed : exchange = .shed) (hidx : idx ≠ 0) :
      Finishes ctx s idx route exchange
        (.again { s with pending := s.pending.erase idx, lastDetail := detail })
  | failed {outcome : AttemptOutcome} (detail : String)
      (houtcome : (attempt ctx.hk ctx.request route exchange).outcome = some outcome) :
      Finishes ctx s idx route exchange
        (.again { s with pending := s.pending.erase idx, anyExchange := true
                         recorded := (idx, outcome) :: s.recorded, lastDetail := detail })
  | answered {outcome : AttemptOutcome} {got : UpstreamAnswer} {next : Pass}
      (houtcome : (attempt ctx.hk ctx.request route exchange).outcome = some outcome)
      (hgot : (attempt ctx.hk ctx.request route exchange).answer route false = some got)
      (haccepts : ctx.Accepts { s with pending := s.pending.erase idx, anyExchange := true
                                       recorded := (idx, outcome) :: s.recorded } got next) :
      Finishes ctx s idx route exchange next

theorem finish_finishes (idx : Nat) (route : Route) (exchange : Exchange) (late : Option Nat) :
    ctx.Finishes s idx route exchange (ctx.finish s idx route exchange late) := by
  unfold finish
  dsimp only
  split
  · rename_i hnone
    have hshed : exchange = .shed := (attempt_outcome_eq_none_iff ..).mp hnone
    split
    · split
      · exact .refused hshed nofun
      · exact .refused hshed nofun
    · rename_i hidx
      exact .shed _ hshed hidx
  · rename_i outcome houtcome
    split
    · rename_i got hgot
      exact .answered houtcome hgot (accept_accepts _ _)
    · exact .failed _ houtcome

inductive Drains (ctx : ResolveCtx) (s : ResolveState) : Pass → Prop where
  | fannedOut (hfan : ctx.fanOut s ≠ []) :
      Drains ctx s (.again { s with fannedOut := true, attempted := s.attempted ++ ctx.fanOut s
                                    pending := ctx.fanOut s })
  | overloaded : Drains ctx s (.stop (.error (.overloaded ctx.capacity)) s)
  | allFailed (detail : String) (hfan : ctx.fanOut s = []) (hany : s.anyExchange = true) :
      Drains ctx s (.stop (.error (.allFailed detail)) s)

theorem drain_drains : ctx.Drains s (ctx.drain s) := by
  unfold drain
  split
  · rename_i hfan
    exact .fannedOut hfan
  · rename_i hfan
    split
    · exact .overloaded
    · rename_i hany
      exact .allFailed _ (not_not.mp hfan) (by simpa using hany)

/-- Every pass of the loop that can happen. -/
inductive Passes (ctx : ResolveCtx) (s : ResolveState) : Turn → Pass → Prop where
  | expired (elapsedMs : Nat) :
      Passes ctx s (.expired elapsedMs) (.stop (.error (.timeout elapsedMs)) s)
  | finished {idx : Nat} {exchange : Exchange} {late : Option Nat} {route : Route} {next : Pass}
      (hroute : ctx.ranked[idx]? = some route) (hm : idx ∈ s.pending)
      (hfinishes : ctx.Finishes s idx route exchange next) :
      Passes ctx s (.finished idx exchange late) next
  | drained {next : Pass} (hdrained : s.pending = []) (hdrains : ctx.Drains s next) :
      Passes ctx s .drained next

theorem passes_of_pass {s : ResolveState} {next : Pass} (h : ctx.pass s turn = next)
    (hnext : next ≠ .impossible) : ctx.Passes s turn next := by
  cases turn with
  | expired elapsedMs =>
    subst h
    exact .expired elapsedMs
  | finished idx exchange late =>
    simp only [pass] at h
    split at h
    · rename_i route hroute
      split at h
      · rename_i hm
        subst h
        exact .finished hroute hm (finish_finishes ..)
      · exact absurd h.symm hnext
    · exact absurd h.symm hnext
  | drained =>
    simp only [pass] at h
    split at h
    · rename_i hdrained
      subst h
      exact .drained hdrained (drain_drains s)
    · exact absurd h.symm hnext

theorem pass_complete {s s' : ResolveState} (h : ctx.pass s turn = .stop (.ok answer) s') :
    answer.Complete := by
  cases passes_of_pass h nofun with
  | finished _ _ hfinishes =>
    cases hfinishes with
    | answered _ _ haccepts =>
      cases haccepts with
      | whole hcomplete => exact hcomplete
      | retried _ _ hretry => exact fun _ => streamRetry_isStream hretry
  | drained _ hdrains => cases hdrains

theorem loop_complete {s s' : ResolveState} (h : ctx.loop s turns = some (.ok answer, s')) :
    answer.Complete := by
  induction turns generalizing s with
  | nil => cases h
  | cons turn turns ih =>
    unfold loop at h
    split at h
    · rename_i result final hp
      cases h
      exact pass_complete hp
    · exact ih h
    · cases h

theorem resolve_complete (h : ctx.resolve turns = some (.ok answer)) : answer.Complete := by
  obtain ⟨⟨result, s⟩, hrun, he⟩ := Option.map_eq_some_iff.mp h
  subst he
  unfold run at hrun
  split at hrun
  · cases hrun
  · exact loop_complete hrun

end ResolveCtx

end EgressDns
