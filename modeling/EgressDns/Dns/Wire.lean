import EgressDns.Dns.Message

/-!
# Messages on the wire

`serialize_limited` over the encoder of `hickory-proto`, which is not part of the source. What is
sent is given as the message a reader of the octets gets, with its length.
-/

namespace EgressDns

def Name.octets (n : Name) : Nat := (n.labels.map fun label => label.length + 1).sum + 1

def Query.octets (q : Query) : Nat := q.name.octets + 4

def EdnsOption.octets : EdnsOption → Nat
  | subnet _ sourcePrefix _ => 8 + (sourcePrefix + 7) / 8
  | unknown _ data => 4 + data.length

def Edns.octets (edns : Edns) : Nat := 11 + (edns.options.map EdnsOption.octets).sum

def questionOctets (queries : List Query) : Nat := (queries.map Query.octets).sum

def optOctets (edns : Option Edns) : Nat := (edns.map Edns.octets).getD 0

@[simp] theorem optOctets_some (edns : Edns) : optOctets (some edns) = edns.octets := rfl

/-- What decoding guarantees of a request: no name is longer than a name can be. -/
def Message.Decodable (msg : Message) : Prop := ∀ q ∈ msg.queries, q.name.octets ≤ 255

instance (msg : Message) : Decidable msg.Decodable :=
  inferInstanceAs (Decidable (∀ q ∈ msg.queries, q.name.octets ≤ 255))

theorem questionOctets_le {msg : Message} (hd : msg.Decodable) (h : msg.queries.length ≤ 1) :
    questionOctets msg.queries ≤ 259 := by
  unfold questionOctets
  cases hq : msg.queries with
  | nil => simp
  | cons q rest =>
    have hrest : rest = [] := by
      rw [hq, List.length_cons] at h
      exact List.length_eq_zero_iff.mp (by omega)
    have hname := hd q (hq ▸ List.mem_cons_self)
    subst hrest
    simp only [List.map_cons, List.map_nil, List.sum_cons, List.sum_nil, Query.octets]
    omega

def Message.truncate (msg : Message) : Message :=
  { msg with
    metadata := { msg.metadata with truncation := true }
    answers := [], authorities := [], additionals := [] }

def Message.questionsOnly (msg : Message) : Message :=
  { msg with answers := [], authorities := [], additionals := [], edns := none }

/-- What is written of a message that exceeds the limit: the questions, some records of each
section, and the OPT record if it fits, with TC set. -/
structure Cut (size : Message → Nat) (limit : Nat) (msg written : Message) : Prop where
  metadata : written.metadata = { msg.metadata with truncation := true }
  queries : written.queries = msg.queries
  answers : written.answers.Sublist msg.answers
  authorities : written.authorities.Sublist msg.authorities
  additionals : written.additionals.Sublist msg.additionals
  edns : written.edns = msg.edns ∨ written.edns = none
  size : size written ≤ limit

/-- The encoder under a maximum size; `none` is an error. It writes a message that fits as it is,
fails on questions that do not fit, and otherwise leaves out what does not fit and reports it. The
header has a fixed length, and names are compressed, so that the lengths of questions and OPT
record are bounds. -/
structure Encoder where
  size : Message → Nat
  emit : Nat → Message → Option Message
  emit_fits : ∀ limit msg, size msg ≤ limit → emit limit msg = some msg
  emit_cut : ∀ limit msg written, limit < size msg → emit limit msg = some written →
    Cut size limit msg written
  emit_eq_none : ∀ limit msg, emit limit msg = none ↔ limit < size msg.questionsOnly
  size_metadata : ∀ msg metadata, size { msg with metadata } = size msg
  size_truncate_le : ∀ msg : Message, size msg.truncate ≤ size msg
  size_questions_le : ∀ msg : Message, size msg.questionsOnly ≤ size msg.truncate
  size_frame_le : ∀ msg : Message,
    size msg.truncate ≤ 12 + questionOctets msg.queries + optOctets msg.edns

structure Serialized where
  message : Message
  truncated : Bool
  deriving DecidableEq

section Serialize

variable (enc : Encoder)

/-- `serialize_limited`. What the second encoding reports is not looked at. -/
def serializeLimited (msg : Message) (maxSize : Nat) : Option Serialized :=
  let limit := min (max maxSize 512) 65535
  match enc.emit limit msg with
  | none => none
  | some written =>
    if !written.metadata.truncation || msg.metadata.truncation then
      some { message := written, truncated := written.metadata.truncation }
    else (enc.emit limit msg.truncate).map fun small => { message := small, truncated := true }

variable {enc} {msg : Message} {maxSize : Nat}

section

variable (h : 512 ≤ maxSize ∧ maxSize ≤ 65535)
include h

theorem clamp_eq : min (max maxSize 512) 65535 = maxSize := by
  omega

theorem serializeLimited_of_fits (htc : msg.metadata.truncation = false)
    (hfits : enc.size msg ≤ maxSize) :
    serializeLimited enc msg maxSize = some { message := msg, truncated := false } := by
  simp only [serializeLimited, clamp_eq h, enc.emit_fits _ _ hfits, htc, Bool.not_false,
    Bool.true_or, if_true]

/-- A message that does not fit is cut down to its frame, however much of it the encoder could
have written. -/
theorem serializeLimited_of_exceeds (htc : msg.metadata.truncation = false)
    (hlong : maxSize < enc.size msg) :
    serializeLimited enc msg maxSize =
      (enc.emit maxSize msg.truncate).map fun small => { message := small, truncated := true } := by
  simp only [serializeLimited, clamp_eq h]
  cases hemit : enc.emit maxSize msg with
  | none =>
    have hquestions := (enc.emit_eq_none maxSize msg).mp hemit
    have hnone : enc.emit maxSize msg.truncate = none := by
      rw [enc.emit_eq_none]
      exact (enc.size_metadata msg.questionsOnly _).symm ▸ hquestions
    rw [hnone]
    rfl
  | some written =>
    have hcut := enc.emit_cut _ _ _ hlong hemit
    simp [hcut.metadata, htc]

theorem serializeLimited_of_frame (htc : msg.metadata.truncation = false)
    (hframe : enc.size msg.truncate ≤ maxSize) (hlong : maxSize < enc.size msg) :
    serializeLimited enc msg maxSize = some { message := msg.truncate, truncated := true } := by
  rw [serializeLimited_of_exceeds h htc hlong, enc.emit_fits _ _ hframe]
  rfl

theorem serializeLimited_eq_none :
    serializeLimited enc msg maxSize = none ↔ maxSize < enc.size msg.questionsOnly := by
  have htruncate : enc.size msg.truncate.questionsOnly = enc.size msg.questionsOnly :=
    enc.size_metadata msg.questionsOnly _
  rw [← enc.emit_eq_none]
  simp only [serializeLimited, clamp_eq h]
  cases hemit : enc.emit maxSize msg with
  | none => simp
  | some written =>
    have hsome : enc.emit maxSize msg.truncate ≠ none := by
      rw [Ne, enc.emit_eq_none, htruncate, ← enc.emit_eq_none, hemit]
      exact Option.some_ne_none written
    simp only [reduceCtorEq, iff_false]
    split
    · exact Option.some_ne_none _
    · rw [Option.map_eq_none_iff]
      exact hsome

theorem opt_lost (htc : msg.metadata.truncation = false) (hframe : maxSize < enc.size msg.truncate)
    {out : Serialized} (hout : serializeLimited enc msg maxSize = some out) :
    msg.edns.isSome = true ∧ out.message.edns = none := by
  have hlong := hframe.trans_le (enc.size_truncate_le msg)
  rw [serializeLimited_of_exceeds h htc hlong] at hout
  obtain ⟨small, hsmall, rfl⟩ := Option.map_eq_some_iff.mp hout
  have hcut := enc.emit_cut _ _ _ hframe hsmall
  have hne : small.edns ≠ msg.edns := by
    -- With the same OPT record, what was written would be the frame itself.
    intro hedns
    have hsame : small = { msg.truncate with metadata := small.metadata } := by
      have hanswers := List.sublist_nil.mp hcut.answers
      have hauthorities := List.sublist_nil.mp hcut.authorities
      have hadditionals := List.sublist_nil.mp hcut.additionals
      have hqueries := hcut.queries
      cases small
      simp_all [Message.truncate]
    have hsize := hcut.size
    rw [hsame, enc.size_metadata] at hsize
    omega
  have hnone : small.edns = none := hcut.edns.resolve_left hne
  refine ⟨?_, hnone⟩
  rw [hnone] at hne
  exact Option.isSome_iff_ne_none.mpr hne.symm

end

end Serialize

namespace Encoder

def dataOctets : RData → Nat
  | .a _ => 4
  | .aaaa _ => 16
  | .cname target => target.octets
  | .soa _ rest => 4 + rest.length
  | .rrsig _ rest => 4 + rest.length
  | .svcb params rest => (params.map fun p => 4 + p.2.length).sum + rest.length
  | .https params rest => (params.map fun p => 4 + p.2.length).sum + rest.length
  | .other _ data => data.length

def recordOctets (r : Record) : Nat := r.name.octets + 10 + dataOctets r.data

def sectionOctets (records : List Record) : Nat := (records.map recordOctets).sum

def plainSize (msg : Message) : Nat :=
  12 + questionOctets msg.queries + sectionOctets msg.answers + sectionOctets msg.authorities +
    sectionOctets msg.additionals + optOctets msg.edns

def plainEmit (limit : Nat) (msg : Message) : Option Message :=
  if plainSize msg ≤ limit then some msg
  else if plainSize msg.truncate ≤ limit then some msg.truncate
  else if plainSize msg.questionsOnly ≤ limit then some { msg.truncate with edns := none }
  else none

theorem plainSize_truncate (msg : Message) :
    plainSize msg.truncate = 12 + questionOctets msg.queries + optOctets msg.edns := by
  simp [plainSize, Message.truncate, sectionOctets]

theorem plainSize_questionsOnly (msg : Message) :
    plainSize msg.questionsOnly = 12 + questionOctets msg.queries := by
  simp [plainSize, Message.questionsOnly, sectionOctets, optOctets]

theorem plainEmit_cut {limit : Nat} {msg written : Message} (hlong : limit < plainSize msg)
    (h : plainEmit limit msg = some written) : Cut plainSize limit msg written := by
  rw [plainEmit, if_neg (by omega)] at h
  split_ifs at h with hframe hquestions
  · cases h
    exact ⟨rfl, rfl, List.nil_sublist _, List.nil_sublist _, List.nil_sublist _, .inl rfl, hframe⟩
  · cases h
    refine ⟨rfl, rfl, List.nil_sublist _, List.nil_sublist _, List.nil_sublist _, .inr rfl, ?_⟩
    rw [plainSize_questionsOnly] at hquestions
    simpa [plainSize, Message.truncate, sectionOctets, optOctets] using hquestions

/-- An encoder that does not compress names and leaves out whole sections. -/
def sample : Encoder where
  size := plainSize
  emit := plainEmit
  emit_fits _ _ h := if_pos h
  emit_cut _ _ _ := plainEmit_cut
  emit_eq_none limit msg := by
    have htruncate := plainSize_truncate msg
    have hquestions := plainSize_questionsOnly msg
    have hle : plainSize msg.truncate ≤ plainSize msg := by
      rw [htruncate, plainSize]
      omega
    unfold plainEmit
    split_ifs <;> simp <;> omega
  size_metadata _ _ := rfl
  size_truncate_le msg := by
    rw [plainSize_truncate, plainSize]
    omega
  size_questions_le msg := by
    rw [plainSize_truncate, plainSize_questionsOnly]
    omega
  size_frame_le msg := (plainSize_truncate msg).le

end Encoder

end EgressDns
