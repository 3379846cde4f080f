import EgressDns.Dns.Hickory
import EgressDns.Lib.Framing
import EgressDns.Upstream.Rank

/-!
# The answer fingerprint

`answer_fingerprint` hashes a canonical byte string of the answer section. The string stands for
the answer records up to their order, with the text of owner and data in lower case: nothing else
of the message enters it.
-/

namespace EgressDns

open Lib

def be16 (n : UInt16) : List UInt8 := [(n >>> 8).toUInt8, n.toUInt8]

theorem be16_injective : Function.Injective be16 := by
  intro m n h
  obtain ⟨hhi, hlo⟩ : (m >>> 8).toUInt8 = (n >>> 8).toUInt8 ∧ m.toUInt8 = n.toUInt8 := by
    simpa [be16] using h
  have hhi' := congrArg UInt8.toNat hhi
  have hlo' := congrArg UInt8.toNat hlo
  simp only [UInt16.toNat_toUInt8, UInt16.toNat_shiftRight, Nat.shiftRight_eq_div_pow] at hhi' hlo'
  have hm := m.toNat_lt
  have hn := n.toNat_lt
  apply UInt16.toNat_inj.mp
  change m.toNat / 2 ^ 8 % 2 ^ 8 = n.toNat / 2 ^ 8 % 2 ^ 8 at hhi'
  omega

theorem asciiLower_cases (b : UInt8) :
    asciiLower b = b ∨ (97 ≤ (asciiLower b).toNat ∧ (asciiLower b).toNat ≤ 122) := by
  unfold asciiLower
  split
  · rename_i h
    have hlo := UInt8.le_iff_toNat_le.mp h.1
    have hhi := UInt8.le_iff_toNat_le.mp h.2
    rw [UInt8.toNat_add]
    right
    change 65 ≤ b.toNat at hlo
    change b.toNat ≤ 90 at hhi
    change 97 ≤ (b.toNat + 32) % 2 ^ 8 ∧ (b.toNat + 32) % 2 ^ 8 ≤ 122
    omega
  · exact .inl rfl

theorem notMem_lower {c : UInt8} {octets : List UInt8} (hc : c.toNat < 97 ∨ 122 < c.toNat)
    (h : c ∉ octets) : c ∉ lower octets := by
  intro hm
  obtain ⟨b, hb, he⟩ := List.mem_map.mp hm
  rcases asciiLower_cases b with hsame | hrange
  · rw [hsame] at he
    exact h (he ▸ hb)
  · rw [he] at hrange
    omega

/-- What one answer record contributes: owner text, type, class and data text, texts in lower
case. Owner text has no NUL and data text is UTF-8. -/
structure CanonicalRecord where
  owner : List UInt8
  rtype : RecordType
  dnsClass : UInt16
  data : List UInt8
  owner_nul : (0 : UInt8) ∉ owner
  data_utf8 : (0xff : UInt8) ∉ data
  deriving DecidableEq

namespace CanonicalRecord

def part (c : CanonicalRecord) : List UInt8 :=
  c.owner ++ [0] ++ be16 c.rtype.code ++ be16 c.dnsClass ++ [0] ++ c.data

def frame (c : CanonicalRecord) : List UInt8 := c.part ++ [0xff]

theorem frame_append (c : CanonicalRecord) (rest : List UInt8) :
    c.frame ++ rest =
      c.owner ++ 0 ::
        (be16 c.rtype.code ++ (be16 c.dnsClass ++ 0 :: (c.data ++ 0xff :: rest))) := by
  simp [frame, part]

theorem frame_selfDelimiting : SelfDelimiting frame := by
  intro c d rest rest' h
  rw [frame_append, frame_append] at h
  obtain ⟨howner, h⟩ := append_cons_inj c.owner_nul d.owner_nul h
  obtain ⟨hcode, h⟩ := List.append_inj h rfl
  obtain ⟨hclass, h⟩ := List.append_inj h rfl
  obtain ⟨hdata, hrest⟩ := append_cons_inj c.data_utf8 d.data_utf8 (List.cons.inj h).2
  have htype := RecordType.code_injective (be16_injective hcode)
  cases c
  cases d
  cases howner
  cases htype
  cases be16_injective hclass
  cases hdata
  exact ⟨rfl, hrest⟩

theorem part_injective : Function.Injective part := by
  intro c d h
  have hframe : c.frame ++ [] = d.frame ++ [] := by rw [frame, frame, h]
  exact (frame_selfDelimiting c d _ _ hframe).1

end CanonicalRecord

section Fingerprint

variable (hk : Hickory)

def canonical (r : Record) : CanonicalRecord where
  owner := lower (hk.nameText r.name)
  rtype := r.recordType
  dnsClass := r.dnsClass
  data := lower (hk.rdataText r.data)
  owner_nul := notMem_lower (by decide) (hk.nameText_nul r.name)
  data_utf8 := notMem_lower (by decide) (hk.rdataText_utf8 r.data)

def bytesLe (a b : List UInt8) : Prop := a.map UInt8.toNat ≤ b.map UInt8.toNat

instance : DecidableRel bytesLe := fun a b =>
  inferInstanceAs (Decidable (a.map UInt8.toNat ≤ b.map UInt8.toNat))

/-- The byte string that is hashed: the sorted parts, each ended by 0xff. -/
def fingerprintBytes (msg : Message) : List UInt8 :=
  ((msg.answers.map fun r => (canonical hk r).part).insertionSort bytesLe).flatMap (· ++ [0xff])

def answerFingerprint (msg : Message) : UInt64 := fnv1a64 (fingerprintBytes hk msg)

def partLe (c d : CanonicalRecord) : Prop := bytesLe c.part d.part

instance : DecidableRel partLe := fun c d => inferInstanceAs (Decidable (bytesLe c.part d.part))

instance : Std.Total partLe := ⟨fun c d => le_total (c.part.map _) (d.part.map _)⟩

instance : IsTrans CanonicalRecord partLe := ⟨fun _ _ _ hab hbc => le_trans hab hbc⟩

theorem partLe_antisymm (c d : CanonicalRecord) (hcd : partLe c d) (hdc : partLe d c) : c = d := by
  have h := le_antisymm hcd hdc
  exact CanonicalRecord.part_injective
    (List.map_injective_iff.mpr (fun _ _ => UInt8.toNat_inj.mp) h)

theorem fingerprintBytes_eq (msg : Message) :
    fingerprintBytes hk msg =
      ((msg.answers.map (canonical hk)).insertionSort partLe).flatMap CanonicalRecord.frame := by
  unfold fingerprintBytes
  have hsort := List.map_insertionSort partLe bytesLe CanonicalRecord.part
    (msg.answers.map (canonical hk)) (fun _ _ _ _ => Iff.rfl)
  rw [List.map_map] at hsort
  rw [show (msg.answers.map fun r => (canonical hk r).part) =
    msg.answers.map (CanonicalRecord.part ∘ canonical hk) from rfl, ← hsort, List.flatMap_map]
  rfl

/-- Two messages are hashed as the same string exactly when their answer sections agree as
multisets of canonical records. -/
theorem fingerprintBytes_eq_iff (a b : Message) :
    fingerprintBytes hk a = fingerprintBytes hk b ↔
      (a.answers.map (canonical hk)).Perm (b.answers.map (canonical hk)) := by
  rw [fingerprintBytes_eq, fingerprintBytes_eq,
    ← insertionSort_eq_iff_perm partLe partLe_antisymm]
  constructor
  · intro h
    refine flatMap_injective CanonicalRecord.frame_selfDelimiting ?_ h
    intro c hc
    simp [CanonicalRecord.frame] at hc
  · intro h
    rw [h]

end Fingerprint

end EgressDns
