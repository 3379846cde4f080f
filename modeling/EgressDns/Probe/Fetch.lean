import Mathlib.Data.List.Basic

/-!
# Reading the body of a download

The end of `fetch_one` in `probe/fetch.rs`: the frames after the response head, read until the body
ends, a frame is an error, the deadline passes or the body grows too long.
-/

namespace EgressDns

/-- What waiting for the next frame ends in; frames without data are trailers. -/
inductive BodyEvent where
  | data (octets : List UInt8)
  | trailers
  | ended
  | failed
  | expired
  deriving DecidableEq, Repr

inductive FetchError where
  | tooLarge (got limit : Nat)
  | fetch (detail : String)
  deriving DecidableEq, Repr

/-- All that comes after the last event is waiting, until the deadline. -/
def readBody (maxBytes : Nat) (body : List UInt8) : List BodyEvent → Except FetchError (List UInt8)
  | .data octets :: events =>
    if maxBytes < body.length + octets.length then .error (.tooLarge body.length maxBytes)
    else readBody maxBytes (body ++ octets) events
  | .trailers :: events => readBody maxBytes body events
  | .ended :: _ | .failed :: _ | .expired :: _ | [] => .ok body

def received : List BodyEvent → List UInt8
  | .data octets :: events => octets ++ received events
  | .trailers :: events => received events
  | _ => []

def Complete : List BodyEvent → Bool
  | .data _ :: events | .trailers :: events => Complete events
  | .ended :: _ => true
  | _ => false

/-- What is accepted is the whole body, within the limit, and everything else is an error. -/
structure WholeOnly (maxBytes : Nat) (events : List BodyEvent)
    (r : Except FetchError (List UInt8)) : Prop where
  whole : ∀ body, r = .ok body →
    Complete events = true ∧ body = received events ∧ body.length ≤ maxBytes
  cut : Complete events = false → ∃ e, r = .error e

variable {maxBytes : Nat}

theorem readBody_cases (body : List UInt8) (events : List BodyEvent)
    (hbody : body.length ≤ maxBytes) :
    ((body ++ received events).length ≤ maxBytes ∧
      readBody maxBytes body events = .ok (body ++ received events)) ∨
    (maxBytes < (body ++ received events).length ∧ ∃ e, readBody maxBytes body events = .error e) := by
  induction events generalizing body with
  | nil => exact .inl ⟨by simpa [received] using hbody, by simp [readBody, received]⟩
  | cons event events ih =>
    cases event with
    | data octets =>
      rw [readBody, received]
      split_ifs with hover
      · refine .inr ⟨?_, _, rfl⟩
        rw [List.length_append, List.length_append]
        omega
      · rw [← List.append_assoc]
        exact ih (body ++ octets) (by rw [List.length_append]; omega)
    | trailers =>
      rw [readBody, received]
      exact ih body hbody
    | ended | failed | expired =>
      exact .inl ⟨by simpa [received] using hbody, by simp [readBody, received]⟩

/-- Only whole bodies are accepted just if the body ends, or is too long before anything else goes
wrong. -/
theorem partial_download_refused_iff (maxBytes : Nat) (events : List BodyEvent) :
    WholeOnly maxBytes events (readBody maxBytes [] events) ↔
      Complete events = true ∨ maxBytes < (received events).length := by
  rcases readBody_cases [] events (Nat.zero_le maxBytes) with ⟨hle, hr⟩ | ⟨hlt, e, hr⟩
  · rw [List.nil_append] at hle hr
    constructor
    · rintro ⟨hwhole, -⟩
      exact .inl (hwhole _ hr).1
    · rintro (hdone | hlt)
      · refine ⟨?_, fun hno => absurd hdone (by simp [hno])⟩
        intro body hbody
        cases hr.symm.trans hbody
        exact ⟨hdone, rfl, hle⟩
      · omega
  · rw [List.nil_append] at hlt
    refine iff_of_true ⟨?_, fun _ => ⟨e, hr⟩⟩ (.inr hlt)
    intro body hbody
    cases hr.symm.trans hbody

/-- One frame, and then an error or silence until the deadline. -/
theorem partial_download_accepted :
    readBody 1024 [] [.data [1, 2, 3], .failed] = .ok [1, 2, 3] ∧
    readBody 1024 [] [.data [1, 2, 3], .expired] = .ok [1, 2, 3] := by
  decide

end EgressDns
