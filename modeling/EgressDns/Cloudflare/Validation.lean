import EgressDns.Lib.Maps
import EgressDns.Policy.Answer
import EgressDns.Upstream.Health

/-!
# Domain validations and baselines

The two tables of `cloudflare/state.rs` that are keyed by a host name. Names lose their trailing
dots and keep the case of their letters. Records carry the probes that have written them, by which
nothing is decided.
-/

namespace EgressDns

open Lib

structure DomainValidation (P : Type) where
  successes : Nat
  failures : Nat
  lastSuccess : Option Nat
  lastAttempt : Option Nat
  evidence : List P
  deriving DecidableEq

def DomainValidation.new {P : Type} : DomainValidation P where
  successes := 0
  failures := 0
  lastSuccess := none
  lastAttempt := none
  evidence := []

def DomainValidation.isFresh {P : Type} (v : DomainValidation P) (now ttl : Nat) : Bool :=
  match v.lastSuccess with
  | none => false
  | some t => decide (now - t < ttl)

structure BaselineState (P : Type) where
  validated : Bool
  lastSuccessUnix : Nat
  evidence : List P
  deriving DecidableEq

structure Validations (P : Type) where
  domains : Map (List UInt8 × IpAddr) (DomainValidation P)
  baselines : Map (List UInt8) (BaselineState P)
  maxEntries : Nat

namespace Validations

variable {P : Type}

def new (maxEntries : Nat) : Validations P where
  domains := ∅
  baselines := ∅
  maxEntries := maxEntries

def attemptedBefore (a b : Option Nat) : Bool :=
  match a, b with
  | none, _ => true
  | some _, none => false
  | some s, some t => decide (s ≤ t)

variable (v : Validations P)

def makeRoom (key : List UInt8 × IpAddr) : Map (List UInt8 × IpAddr) (DomainValidation P) :=
  if decide (v.maxEntries ≤ v.domains.entries.length) && !decide (key ∈ v.domains) then
    let oldest := v.domains.entries.insertionSort fun a b =>
      attemptedBefore a.2.lastAttempt b.2.lastAttempt
    v.domains.eraseAll ((oldest.take (v.maxEntries / 16 + 1)).map Sigma.fst)
  else v.domains

variable (hostname : List UInt8)

def recordValidation (addr : IpAddr) (success : Bool) (now : Nat) (by_ : P) : Validations P :=
  let key := (trimEndDots hostname, addr)
  let domains := v.makeRoom key
  let entry := (domains.lookup key).getD .new
  let entry := { entry with lastAttempt := some now, evidence := by_ :: entry.evidence }
  let entry :=
    if success then
      { entry with successes := satSucc entry.successes, failures := 0, lastSuccess := some now }
    else { entry with failures := satSucc entry.failures, successes := 0 }
  { v with domains := domains.insert key entry }

def verifiedFor (ipv4 : Bool) (minValidations validationTtl now : Nat) (cost : IpAddr → ℚ × Nat) :
    List VerifiedCandidate :=
  let host := trimEndDots hostname
  let kept := v.domains.entries.filter fun e =>
    decide (e.1.1 = host) && (e.1.2.isIpv4 == ipv4) && decide (minValidations ≤ e.2.successes)
  let found := kept.map fun e =>
    { addr := e.1.2, successes := e.2.successes, costMs := (cost e.1.2).1
      samples := (cost e.1.2).2, fresh := e.2.isFresh now validationTtl : VerifiedCandidate }
  found.insertionSort fun a b => a.costMs ≤ b.costMs

def setBaseline (validated : Bool) (nowUnix : Nat) (by_ : P) : Validations P :=
  let key := trimEndDots hostname
  let table := if v.maxEntries < v.baselines.entries.length then ∅ else v.baselines
  let entry := (table.lookup key).getD { validated := false, lastSuccessUnix := 0, evidence := [] }
  { v with
    baselines := table.insert key
      { validated
        lastSuccessUnix := if validated then nowUnix else entry.lastSuccessUnix
        evidence := by_ :: entry.evidence } }

def baseline : Bool :=
  ((v.baselines.lookup (trimEndDots hostname)).map BaselineState.validated).getD false

section Members

variable {v : Validations P} {φ : List P → Prop}

theorem each_recordValidation (h : v.domains.Each fun d => φ d.evidence) {p : P}
    (hcons : ∀ ps, φ ps ∨ ps = [] → φ (p :: ps)) (hostname : List UInt8) (addr : IpAddr)
    (success : Bool) (now : Nat) :
    (v.recordValidation hostname addr success now p).domains.Each fun d => φ d.evidence := by
  have hroom : (v.makeRoom (trimEndDots hostname, addr)).Each fun d => φ d.evidence := by
    unfold makeRoom
    split_ifs
    · exact Map.each_eraseAll h _
    · exact h
  simp only [recordValidation]
  refine Map.each_insert hroom ?_
  cases hl : (v.makeRoom (trimEndDots hostname, addr)).lookup (trimEndDots hostname, addr) with
  | none =>
    split_ifs
    all_goals exact hcons _ (.inr rfl)
  | some d =>
    split_ifs
    all_goals exact hcons _ (.inl (hroom _ d hl))

theorem each_setBaseline (h : v.baselines.Each fun b => φ b.evidence) {p : P}
    (hcons : ∀ ps, φ ps ∨ ps = [] → φ (p :: ps)) (hostname : List UInt8) (validated : Bool)
    (nowUnix : Nat) :
    (v.setBaseline hostname validated nowUnix p).baselines.Each fun b => φ b.evidence := by
  simp only [setBaseline]
  have htable : (if v.maxEntries < v.baselines.entries.length then ∅ else v.baselines).Each
      fun b => φ b.evidence := by
    split_ifs
    · exact Map.each_empty
    · exact h
  generalize (if v.maxEntries < v.baselines.entries.length then ∅ else v.baselines) = table
    at htable
  refine Map.each_insert htable (hcons _ ?_)
  cases hl : table.lookup (trimEndDots hostname) with
  | none => exact .inr rfl
  | some b => exact .inl (htable _ b hl)

end Members

end Validations

end EgressDns
