import EgressDns.Dns.Spelling
import EgressDns.Lib.Runs

/-!
# Which names are web services

`ranking/service.rs`: a bounded list of the names an HTTPS or SVCB record was seen for, kept in
order of the last confirmation.
-/

namespace EgressDns

open Lib

inductive ServiceClass where
  | https | unknown
  deriving DecidableEq, Repr

structure ServiceClassifier where
  known : List (List UInt8)
  capacity : Nat

inductive ServiceCall where
  | noteHttps (name : List UInt8)
  | classify (name : List UInt8)

namespace ServiceClassifier

def normalise (name : List UInt8) : List UInt8 := lower (trimEndDots name)

def new (capacity : Nat) : ServiceClassifier where
  known := []
  capacity := max capacity 1

variable (c : ServiceClassifier)

def noteHttps (name : List UInt8) : ServiceClassifier :=
  let key := normalise name
  if key ∈ c.known then { c with known := key :: c.known.eraseIdx (c.known.idxOf key) }
  else
    let known := key :: c.known
    { c with known := if c.capacity < known.length then known.dropLast else known }

def classify (name : List UInt8) : ServiceClass :=
  if normalise name ∈ c.known then .https else .unknown

def step : ServiceCall → ServiceClassifier
  | .noteHttps name => c.noteHttps name
  | .classify _ => c

def after (calls : List ServiceCall) : ServiceClassifier := calls.foldl step c

theorem after_concat (calls : List ServiceCall) (call : ServiceCall) :
    c.after (calls ++ [call]) = (c.after calls).step call := by
  rw [after, List.foldl_append]
  rfl

theorem known_noteHttps (h : c.known.length ≤ c.capacity) (hpos : 0 < c.capacity)
    (name : List UInt8) :
    (c.noteHttps name).known =
      (normalise name :: c.known.erase (normalise name)).take c.capacity := by
  unfold noteHttps
  by_cases hmem : normalise name ∈ c.known
  · have hlength := List.length_erase_of_mem hmem
    rw [if_pos hmem, List.eraseIdx_idxOf_eq_erase, List.take_of_length_le]
    rw [List.length_cons]
    omega
  · rw [if_neg hmem, List.erase_of_not_mem hmem]
    dsimp only
    rw [List.length_cons]
    split
    · -- The list was full, so dropping its last member leaves as many as the bound allows.
      rename_i hfull
      rw [List.dropLast_eq_take, List.length_cons]
      congr 1
      omega
    · rename_i hroom
      rw [List.take_of_length_le]
      rw [List.length_cons]
      omega

theorem capacity_noteHttps (name : List UInt8) : (c.noteHttps name).capacity = c.capacity := by
  unfold noteHttps
  dsimp only
  split <;> rfl

end ServiceClassifier

namespace ServiceCall

def confirmed : ServiceCall → Option (List UInt8)
  | .noteHttps name => some (ServiceClassifier.normalise name)
  | .classify _ => none

end ServiceCall

namespace ServiceClassifier

def recent (capacity : Nat) (calls : List ServiceCall) : List (List UInt8) :=
  (latest (calls.filterMap ServiceCall.confirmed)).take (max capacity 1)

theorem after_eq (capacity : Nat) (calls : List ServiceCall) :
    (new capacity).after calls = ⟨recent capacity calls, max capacity 1⟩ := by
  induction calls using List.reverseRecOn with
  | nil => simp [after, new, recent, latest]
  | append_singleton calls call ih =>
    rw [after_concat, ih]
    cases call with
    | classify name =>
      have hconfirmed : (calls ++ [ServiceCall.classify name]).filterMap ServiceCall.confirmed =
          calls.filterMap ServiceCall.confirmed := by
        rw [List.filterMap_append]
        exact List.append_nil _
      rw [step, recent, recent, hconfirmed]
    | noteHttps name =>
      obtain ⟨n, hn⟩ : ∃ n, max capacity 1 = n + 1 := ⟨max capacity 1 - 1, by omega⟩
      have hlength : (recent capacity calls).length ≤ max capacity 1 := List.length_take_le _ _
      have hknown := known_noteHttps ⟨recent capacity calls, max capacity 1⟩ hlength
        (Nat.lt_of_lt_of_le Nat.zero_lt_one (Nat.le_max_right capacity 1)) name
      have hcapacity := capacity_noteHttps ⟨recent capacity calls, max capacity 1⟩ name
      have hconfirmed : (calls ++ [ServiceCall.noteHttps name]).filterMap ServiceCall.confirmed =
          calls.filterMap ServiceCall.confirmed ++ [normalise name] := by
        rw [List.filterMap_append]
        rfl
      have hnext : (noteHttps ⟨recent capacity calls, max capacity 1⟩ name).known =
          recent capacity (calls ++ [.noteHttps name]) := by
        rw [hknown, recent, recent, hconfirmed, latest_concat]
        rw [hn, List.take_succ_cons, List.take_succ_cons, take_erase_take]
      rw [step, ← hnext]
      exact congrArg (ServiceClassifier.mk _) hcapacity

theorem normalise_normalise (name : List UInt8) : normalise (normalise name) = normalise name := by
  unfold normalise
  rw [← lower_trimEndDots, lower_lower, trimEndDots_trimEndDots]

theorem normalise_eq_iff {name n : List UInt8} (hn : normalise n = n) :
    normalise name = n ↔ ∃ dots, lower name = n ++ List.replicate dots 46 := by
  unfold normalise at *
  rw [lower_trimEndDots]
  constructor
  · intro h
    obtain ⟨k, hk⟩ := exists_trimmed_dots (lower name)
    exact ⟨k, by rw [← h, ← hk]⟩
  · rintro ⟨k, hk⟩
    rw [lower_trimEndDots] at hn
    rw [hk, trimEndDots_append_dots, ← hn, trimEndDots_trimEndDots]

theorem normalise_of_mem_recent {capacity : Nat} {calls : List ServiceCall} {n : List UInt8}
    (h : n ∈ recent capacity calls) : normalise n = n := by
  have hmem := mem_latest.mp (List.mem_of_mem_take h)
  obtain ⟨call, _, hcall⟩ := List.mem_filterMap.mp hmem
  cases call with
  | classify name => cases hcall
  | noteHttps name =>
    cases hcall
    exact normalise_normalise name

end ServiceClassifier

/-- After any calls the classifier holds the last distinct names confirmed, the latest first and no
more than its bound, and the names it knows are those in any letter case and with any dots at the
end. -/
theorem classifier_refines_lru (capacity : Nat) (calls : List ServiceCall) :
    ((ServiceClassifier.new capacity).after calls).known =
        ServiceClassifier.recent capacity calls ∧
      (ServiceClassifier.recent capacity calls).length ≤ max capacity 1 ∧
      ∀ name, ((ServiceClassifier.new capacity).after calls).classify name = .https ↔
        ∃ n ∈ ServiceClassifier.recent capacity calls, ∃ dots,
          lower name = n ++ List.replicate dots 46 := by
  rw [ServiceClassifier.after_eq]
  refine ⟨rfl, List.length_take_le _ _, ?_⟩
  intro name
  unfold ServiceClassifier.classify
  constructor
  · intro h
    by_cases hmem : ServiceClassifier.normalise name ∈ ServiceClassifier.recent capacity calls
    · exact ⟨_, hmem, (ServiceClassifier.normalise_eq_iff
        (ServiceClassifier.normalise_of_mem_recent hmem)).mp rfl⟩
    · rw [if_neg hmem] at h
      cases h
  · rintro ⟨n, hn, hdots⟩
    have hname := (ServiceClassifier.normalise_eq_iff
      (ServiceClassifier.normalise_of_mem_recent hn)).mpr hdots
    rw [if_pos (by rwa [hname])]

end EgressDns
