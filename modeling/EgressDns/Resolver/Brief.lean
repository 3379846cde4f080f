import EgressDns.Lib.Octets
import EgressDns.Resolver.Ledger

/-!
# The extra text of an error stays short

`bounded` counts characters, and an upstream chooses some of them. What a client is told still
takes few octets, because every error begins with words of the resolver's own.
-/

namespace EgressDns

def Brief (detail : String) : Prop := (bounded detail 60).utf8ByteSize ≤ 177

section Bounded

variable {text : String}

theorem utf8ByteSize_le_length (text : String) : text.utf8ByteSize ≤ 4 * text.length := by
  have h := Lib.utf8ByteSize_le text.toList
  rwa [String.ofList_toList, String.length_toList] at h

theorem brief_of_own (own rest : String) (htext : text = own ++ rest)
    (hwords : own.utf8ByteSize = own.length ∧ 22 ≤ own.length ∧ own.length ≤ 60) :
    Brief text := by
  obtain ⟨hown, hmin, hmax⟩ := hwords
  subst htext
  unfold Brief bounded
  split
  · rename_i hshort
    have hrest := utf8ByteSize_le_length rest
    rw [String.length_append] at hshort
    rw [String.utf8ByteSize_append, hown]
    omega
  · have htake : (own ++ rest).toList.take 60 =
        own.toList ++ rest.toList.take (60 - own.length) := by
      rw [String.toList_append, List.take_append, String.length_toList,
        List.take_of_length_le (by rw [String.length_toList]; exact hmax)]
    have hrest := Lib.utf8ByteSize_le (rest.toList.take (60 - own.length))
    have hlen : (rest.toList.take (60 - own.length)).length ≤ 60 - own.length :=
      List.length_take_le _ _
    rw [htake, String.ofList_append, String.ofList_toList, String.utf8ByteSize_append,
      String.utf8ByteSize_append, hown]
    have hellipsis : "…".utf8ByteSize = 3 := by decide
    omega

theorem brief_of_short (h : text.length ≤ 40) : Brief text := by
  unfold Brief bounded
  rw [if_pos (by omega)]
  have := utf8ByteSize_le_length text
  omega

theorem ResolveError.brief_text (e : ResolveError) : Brief e.text := by
  cases e with
  | noRoute group =>
    refine brief_of_own "no upstream route available in group " ("`" ++ (group ++ "`")) ?_
      (by decide)
    change "no upstream route available in group " ++ "`" ++ group ++ "`" = _
    rw [String.append_assoc, String.append_assoc]
  | allFailed detail => exact brief_of_own "all upstreams failed: " detail rfl (by decide)
  | timeout elapsed =>
    refine brief_of_own "foreground budget exceeded after " (toString elapsed ++ " ms") ?_
      (by decide)
    change "foreground budget exceeded after " ++ toString elapsed ++ " ms" = _
    rw [String.append_assoc]
  | invalidResponse reason =>
    exact brief_of_own "upstream response rejected: " reason rfl (by decide)
  | dnssecBogus | shuttingDown => exact brief_of_short (by decide)
  | proofIncomplete outcome =>
    refine brief_of_own "DNSSEC proof could not be completed (" (outcome ++ ")") ?_
      (by decide)
    change "DNSSEC proof could not be completed (" ++ outcome ++ ")" = _
    rw [String.append_assoc]
  | overloaded limit =>
    refine brief_of_own "upstream concurrency ceiling reached ("
      (toString limit ++ " permits configured)") ?_ (by decide)
    change "upstream concurrency ceiling reached (" ++ toString limit ++ " permits configured)" = _
    rw [String.append_assoc]

end Bounded

namespace System

open Lib

variable {hk : Hickory}

def Stage.texts : Stage → List String
  | .refused failure => [failure.reason]
  | .ended (.error report) => [report.detail]
  | .recording report _ => [report.detail]
  | _ => []

def BriefFailures (s : Shared hk) : Prop :=
  ∀ key failure, s.cache.failures key = some failure → Brief failure.reason

def BriefTask (_ : Shared hk) (t : Task hk) : Prop := ∀ text ∈ t.stage.texts, Brief text

section Steps

variable {s s' : Shared hk} {t : Task hk}

theorem BriefFailures.forget (h : BriefFailures s) (hf : Forgets s s') : BriefFailures s' :=
  fun key failure hk => h key failure (hf key failure hk)

theorem briefTask_of_texts {texts : List String} (h : t.stage.texts = texts)
    (hb : ∀ text ∈ texts, Brief text) : BriefTask s t := by
  unfold BriefTask
  rw [h]
  exact hb

theorem briefTask_of_silent (h : t.stage.texts = []) : BriefTask s t :=
  briefTask_of_texts h (List.forall_mem_nil _)

theorem briefTask_of_one {text : String} (h : t.stage.texts = [text]) (hb : Brief text) :
    BriefTask s t :=
  briefTask_of_texts h (List.forall_mem_singleton.mpr hb)

theorem briefTask_conclude (outcome : Except ResolveError Stored) :
    BriefTask s (t.conclude outcome) := by
  unfold Task.conclude
  split
  · exact briefTask_of_silent rfl
  · cases outcome with
    | ok stored => exact briefTask_of_silent rfl
    | error e => exact briefTask_of_one rfl e.brief_text

theorem briefTask_shed : BriefTask s t.shed := by
  unfold Task.shed
  split
  · exact briefTask_of_silent rfl
  · exact briefTask_of_one rfl (brief_of_short (by decide))

theorem briefTask_hear {key : CacheKey} {flight : Except FlightError Stored}
    (hflight : ∀ e, flight = .error e → Brief e.detail) (h : BriefTask s t) :
    BriefTask s' (t.hear key flight) := by
  unfold Task.hear
  split
  · split
    · exact briefTask_of_silent rfl
    · cases flight with
      | ok stored => exact briefTask_of_silent rfl
      | error e => exact briefTask_of_one rfl (hflight e rfl)
    · exact h
  · exact h

theorem brief_publish {led : LedBy} {outcome : Except ResolveError Stored} {e : FlightError}
    (h : publish led outcome = .error e) : Brief e.detail := by
  cases outcome with
  | ok stored => cases h
  | error cause =>
    have hdetail : e.detail = cause.text := by
      cases led with
      | refresh =>
        cases h
        rfl
      | miss =>
        simp only [publish, Except.error.injEq] at h
        subst h
        split <;> rfl
    exact hdetail ▸ cause.brief_text

theorem not_records {a : Action} (h : ∀ report streak, t.stage ≠ .recording report streak) :
    ¬Records t a := by
  rintro ⟨_, _, report, streak, _, hstage⟩
  exact h report streak hstage

theorem takes_brief {a : Action} {e : Effect (Shared hk) (Task hk)} (hs : BriefFailures s)
    (ht : BriefTask s t) (h : Takes s t a e) : Kept BriefFailures BriefTask s e := by
  have hforget (hnot : ¬Records t a) : BriefFailures e.shared := hs.forget (h.forgets hnot)
  cases h with
  | refused _ _ hfailure _ =>
    exact .stay hs (briefTask_of_one rfl (hs _ _ hfailure)) fun _ h => h
  | streakRead _ hstage _ =>
    refine .stay hs (briefTask_of_one rfl (ht _ ?_)) fun _ h => h
    rw [hstage]
    exact List.mem_singleton_self _
  | shed _ _ => exact .stay hs briefTask_shed fun _ h => h
  | timedOut _ _ =>
    exact .stay hs (briefTask_of_one rfl (brief_of_short (by decide))) fun _ h => h
  | published _ =>
    refine .broadcast hs ?_ fun _ h => briefTask_hear (fun _ he => brief_publish he) h
    rintro t' ⟨⟩
    exact briefTask_conclude _
  | cancelled _ =>
    refine .broadcast hs ?_ fun _ h => briefTask_hear ?_ h
    · intro t' he
      unfold Task.cancelled at he
      split at he
      · cases he
        exact briefTask_of_silent rfl
      · cases he
    · rintro e ⟨⟩
      exact brief_of_short (by decide)
  | received child _ _ =>
    refine .fork hs (briefTask_of_silent rfl) ?_
    intro id t' he
    obtain ⟨_, _, hpair⟩ := Option.map_eq_some_iff.mp he
    cases hpair
    exact briefTask_of_silent rfl
  | wentStale _ =>
    refine .fork hs ht ?_
    rintro id t' ⟨⟩
    exact briefTask_of_silent rfl
  | recorded answer _ _ =>
    refine .quit ?_ fun _ h => h
    intro key failure hk
    rcases update_eq_some hk with ⟨_, hnew⟩ | ⟨_, hold⟩
    · cases hnew
      exact brief_of_short (by decide : "upstream resolution failed".length ≤ 40)
    · exact hs key failure hold
  | sentFailure _ hstage _ | sentEntry _ hstage _ | settled _ hstage _ _ =>
    exact .quit (hforget (not_records fun _ _ h => by rw [hstage] at h; cases h)) fun _ h => h
  | unrefused _ hstage _ | made hstage _ | inserted hstage =>
    refine .stay (hforget ?_) (briefTask_of_silent rfl) fun _ h => h
    exact not_records fun _ _ h => by rw [hstage] at h; cases h
  | _ =>
    first
    | exact .stay hs (briefTask_of_silent rfl) fun _ h => h
    | exact .quit hs fun _ h => h

theorem brief_step {p q : State hk} {l : Label hk} (hp : p.Inv BriefFailures BriefTask)
    (h : (program hk).step p l = some q) : q.Inv BriefFailures BriefTask := by
  refine Program.inv_step_in hp h ?_ ?_ ?_
  · intro e s _ he
    exact ⟨hp.shared.forget (event_forgets he), fun hid => hp.tasks hid⟩
  · intro b
    cases b with
    | arrive asker view | prefetch key => exact briefTask_of_silent rfl
  · intro id t a e _ ht he
    exact (takes_brief hp.shared (hp.tasks ht) (act_takes he)).inPool hp

theorem brief_of_run {r : Resolver hk} {serveStale : ServeStaleConfig} {internalMaxTtl : Nat}
    {labels : List (Label hk)} {p : State hk}
    (h : run (program hk).step (initial r serveStale internalMaxTtl) labels = some p) :
    p.Inv BriefFailures BriefTask := by
  refine invariant_of_free_run brief_step ⟨?_, ?_⟩ h
  · intro key failure hk
    cases hk
  · intro id t ht
    cases ht

end Steps

end System

end EgressDns
