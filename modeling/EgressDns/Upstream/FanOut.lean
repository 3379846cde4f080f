import EgressDns.Upstream.Accounting

/-!
# The emergency fan-out

It starts the routes that were never started, in rank order. A hedge that was shed before it
reached the wire counts as started, so it is never tried again.
-/

namespace EgressDns.ResolveCtx

variable {ctx : ResolveCtx} {log : List (Nat × Exchange)} {s s' : ResolveState}

section FanOut

variable (ctx)

/-- The ranked routes to which no query has been sent, in rank order. -/
def unsent (s : ResolveState) : List Nat :=
  (List.range ctx.ranked.length).filter fun idx => idx ∉ s.recorded.map Prod.fst

def fanned (first : Route) (s : ResolveState) : List Nat :=
  s.attempted.drop (ctx.initial first).attempted.length

/-- The fan-out starts the routes that were sent nothing, and nothing is given up before it has:
every route was sent the query or was refused a permit in the fan-out. -/
structure FanOutCovers (first : Route) (s : ResolveState) : Prop where
  starts : s.pending = [] → s.fannedOut = false →
    ctx.fanOut s = (ctx.unsent s).take ctx.group.scheduler.emergencyFanoutMax
  allFailed : ∀ turn detail s', ctx.pass s turn = .stop (.error (.allFailed detail)) s' →
    (ctx.fanned first s').length < ctx.group.scheduler.emergencyFanoutMax →
    ∀ idx < ctx.ranked.length,
      idx ∈ s'.recorded.map Prod.fst ∨ idx ∈ ctx.fanned first s'

/-- No attempt is shed before the fan-out, the primary apart: the hedge, if started, is sent. -/
def HedgeSent (s : ResolveState) (turn : Turn) : Prop :=
  ∀ idx late, turn = .finished idx .shed late → idx = 0 ∨ s.fannedOut = true

structure FanInv (first : Route) (s : ResolveState) : Prop where
  before : s.fannedOut = false → s.attempted = (ctx.initial first).attempted
  sent : ∀ idx ∈ (ctx.initial first).attempted,
    (s.fannedOut = false ∧ idx ∈ s.pending) ∨ idx ∈ s.recorded.map Prod.fst
  after : s.fannedOut = true → ∃ fan, s.attempted = (ctx.initial first).attempted ++ fan ∧
    (fan.length < ctx.group.scheduler.emergencyFanoutMax →
      ∀ idx < ctx.ranked.length, idx ∈ s.attempted)

variable {ctx} {first : Route} {idx : Nat} {turn : Turn}

theorem FanInv.finished {exchange : Exchange} {route : Route} {late : Option Nat}
    (h : ctx.FanInv first s) (hok : HedgeSent s (.finished idx exchange late))
    (hfinishes : ctx.Finishes s idx route exchange (.again s')) : ctx.FanInv first s' := by
  cases hfinishes with
  | shed detail hshed hidx =>
    subst hshed
    have hfanned : s.fannedOut = true := (hok idx late rfl).resolve_left hidx
    refine ⟨h.before, ?_, h.after⟩
    intro i hi
    rcases h.sent i hi with ⟨hnot, _⟩ | hrecorded
    · rw [hfanned] at hnot
      cases hnot
    · exact .inr hrecorded
  | failed detail _ =>
    refine ⟨h.before, ?_, h.after⟩
    intro i hi
    rcases h.sent i hi with ⟨hnot, hpending⟩ | hrecorded
    · by_cases heq : i = idx
      · exact .inr (heq ▸ List.mem_cons_self)
      · exact .inl ⟨hnot, (List.mem_erase_of_ne heq).mpr hpending⟩
    · exact .inr (List.mem_cons_of_mem _ hrecorded)
  | answered _ _ haccepts => exact absurd haccepts not_accepts_again

theorem mem_of_fanOut_short (hon : ctx.group.scheduler.emergencyFanout = true)
    (hfresh : s.fannedOut = false)
    (hshort : (ctx.fanOut s).length < ctx.group.scheduler.emergencyFanoutMax)
    (hidx : idx < ctx.ranked.length) : idx ∈ s.attempted ∨ idx ∈ ctx.fanOut s := by
  have hfan : ctx.fanOut s = ((List.range ctx.ranked.length).filter
      (fun idx => idx ∉ s.attempted)).take ctx.group.scheduler.emergencyFanoutMax := by
    rw [fanOut, if_pos (by rw [hon, hfresh]; rfl)]
  rw [hfan] at hshort ⊢
  by_cases hm : idx ∈ s.attempted
  · exact .inl hm
  · right
    rw [List.length_take] at hshort
    rw [List.take_of_length_le (by omega)]
    exact List.mem_filter.mpr ⟨List.mem_range.mpr hidx, by simpa using hm⟩

theorem FanInv.drained (h : ctx.FanInv first s) (hon : ctx.group.scheduler.emergencyFanout = true)
    (hdrained : s.pending = []) (hfan : ctx.fanOut s ≠ []) :
    ctx.FanInv first { s with fannedOut := true, attempted := s.attempted ++ ctx.fanOut s
                              pending := ctx.fanOut s } := by
  have hfresh := fannedOut_of_fanOut hfan
  refine ⟨nofun, ?_, fun _ => ⟨ctx.fanOut s, by rw [h.before hfresh], ?_⟩⟩
  · intro i hi
    rcases h.sent i hi with ⟨_, hpending⟩ | hrecorded
    · rw [hdrained] at hpending
      cases hpending
    · exact .inr hrecorded
  · intro hshort idx hidx
    exact List.mem_append.mpr (mem_of_fanOut_short hon hfresh hshort hidx)

theorem FanInv.step (hon : ctx.group.scheduler.emergencyFanout = true) (h : ctx.FanInv first s)
    (hok : HedgeSent s turn) (hp : ctx.advance s turn = some s') : ctx.FanInv first s' := by
  cases passes_of_pass (advance_eq_some hp) nofun with
  | finished _ _ hfinishes => exact h.finished hok hfinishes
  | drained hdrained hdrains =>
    cases hdrains with
    | fannedOut hfan => exact h.drained hon hdrained hfan

theorem initial_fanInv : ctx.FanInv first (ctx.initial first) where
  before _ := rfl
  sent _ hi := .inl ⟨rfl, hi⟩
  after := nofun

theorem pass_allFailed {detail : String}
    (h : ctx.pass s turn = .stop (.error (.allFailed detail)) s') :
    s' = s ∧ s.pending = [] ∧ ctx.fanOut s = [] := by
  cases passes_of_pass h nofun with
  | finished _ _ hfinishes =>
    cases hfinishes with
    | refused _ he => exact absurd rfl (he detail)
    | answered _ _ haccepts => cases haccepts
  | drained hdrained hdrains =>
    cases hdrains with
    | allFailed _ hfan _ => exact ⟨rfl, hdrained, hfan⟩

theorem recorded_sub_attempted (h : ctx.Accounted log s) (hm : idx ∈ s.recorded.map Prod.fst) :
    idx ∈ s.attempted := by
  obtain ⟨update, hu, rfl⟩ := List.mem_map.mp hm
  rw [← List.mem_reverse, h.recorded] at hu
  obtain ⟨c, hc, hupdate⟩ := List.mem_filterMap.mp hu
  rw [(fst_of_healthUpdate hupdate).1]
  exact mem_attempted_of_log h (List.mem_map_of_mem hc)

theorem fanOutCovers_of_inv (hon : ctx.group.scheduler.emergencyFanout = true)
    (haccounted : ctx.Accounted log s) (h : ctx.FanInv first s) : ctx.FanOutCovers first s where
  starts hdrained hfresh := by
    have hiff (idx : Nat) : idx ∈ s.attempted ↔ idx ∈ s.recorded.map Prod.fst := by
      refine ⟨fun hm => ?_, recorded_sub_attempted haccounted⟩
      rw [h.before hfresh] at hm
      rcases h.sent idx hm with ⟨_, hpending⟩ | hrecorded
      · rw [hdrained] at hpending
        cases hpending
      · exact hrecorded
    rw [fanOut, if_pos (by rw [hon, hfresh]; rfl), unsent]
    simp only [hiff]
  allFailed turn detail s' hp hshort idx hidx := by
    obtain ⟨rfl, hdrained, hnone⟩ := pass_allFailed hp
    have hsent (i : Nat) (hi : i ∈ (ctx.initial first).attempted) :
        i ∈ s'.recorded.map Prod.fst := by
      rcases h.sent i hi with ⟨_, hpending⟩ | hrecorded
      · rw [hdrained] at hpending
        cases hpending
      · exact hrecorded
    cases hfanned : s'.fannedOut with
    | false =>
      left
      have hpos : (ctx.fanOut s').length < ctx.group.scheduler.emergencyFanoutMax := by
        rw [hnone]
        exact Nat.lt_of_le_of_lt (Nat.zero_le _) hshort
      rcases mem_of_fanOut_short hon hfanned hpos hidx with hm | hm
      · exact hsent idx (h.before hfanned ▸ hm)
      · rw [hnone] at hm
        cases hm
    | true =>
      obtain ⟨fan, hattempted, hall⟩ := h.after hfanned
      have hdrop : ctx.fanned first s' = fan := by
        rw [fanned, hattempted, List.drop_left]
      rw [hdrop] at hshort ⊢
      have hm := hall hshort idx hidx
      rw [hattempted] at hm
      exact (List.mem_append.mp hm).imp_left (hsent idx)

/-- As long as no hedge is shed, the fan-out reaches every route that was sent nothing, in every
state of every resolution. -/
theorem fanout_reaches_unsent (ctx : ResolveCtx) (first : Route) (rest : List Route)
    (hr : ctx.ranked = first :: rest) (hon : ctx.group.scheduler.emergencyFanout = true)
    (turns : List Turn) (s : ResolveState)
    (hg : Lib.Guarded ctx.advance HedgeSent (ctx.initial first) turns)
    (hrun : Lib.run ctx.advance (ctx.initial first) turns = some s) : ctx.FanOutCovers first s := by
  have hinv : ctx.FanInv first s :=
    Lib.invariant_of_run (fun h hok hp => h.step hon hok hp) initial_fanInv hg hrun
  exact fanOutCovers_of_inv hon (run_accounted (initial_accounted hr) hrun) hinv

def threeRoutes : ResolveCtx := { twoRoutes with group := plainGroup [quad9, quad1, gateway] }

theorem fanout_reaches_unsent_third_route :
    ∃ s, Lib.run threeRoutes.advance (threeRoutes.initial quad9)
        [.finished 1 (.failed true "timed out") none, .finished 0 (.failed false "refused") none] =
          some s ∧
      threeRoutes.fanOut s = [2] ∧ threeRoutes.FanOutCovers quad9 s := by
  have hranked : threeRoutes.ranked = [quad9, quad1, gateway] := by decide +kernel
  refine Lib.exists_imp_of_any (by decide +kernel) fun s hrun hstarted => ⟨hstarted, ?_⟩
  refine fanout_reaches_unsent threeRoutes quad9 [quad1, gateway] hranked rfl _ s ?_ hrun
  refine Lib.guarded_of_forall ?_ _
  simp [HedgeSent]

/-- The hedge was shed and the primary has failed: the fan-out starts nothing, and the resolution
gives up although the second route was sent nothing. -/
theorem shed_hedge_never_tried_again :
    ∃ s, Lib.run twoRoutes.advance (twoRoutes.initial quad9)
        [.finished 1 .shed none, .finished 0 (.failed false "refused") none] = some s ∧
      twoRoutes.unsent s = [1] ∧ ¬twoRoutes.FanOutCovers quad9 s ∧
      ∃ detail, twoRoutes.pass s .drained = .stop (.error (.allFailed detail)) s := by
  refine Lib.exists_imp_of_any (P := fun s => s.pending = [] ∧ s.fannedOut = false ∧
    s.anyExchange = true ∧ twoRoutes.fanOut s = [] ∧ twoRoutes.unsent s = [1])
    (by decide +kernel) ?_
  rintro s - ⟨hpending, hfresh, hexchange, hfan, hunsent⟩
  refine ⟨hunsent, ?_, bounded s.lastDetail 160, ?_⟩
  · intro hcovers
    have hstarts := hcovers.starts hpending hfresh
    rw [hfan, hunsent] at hstarts
    cases hstarts
  · simp [pass, drain, hpending, hfan, hexchange]

end FanOut

end EgressDns.ResolveCtx
