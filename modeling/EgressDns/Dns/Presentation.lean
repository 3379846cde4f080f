import EgressDns.Dns.Spelling
import EgressDns.Lib.Framing

/-!
# The presentation form of names

`Display` of a `Name` comes from `hickory-proto` and is not part of the source. A name is written
label by label with a dot behind each; how a label is written is a parameter, with what is documented
of it.
-/

namespace EgressDns

open Lib

namespace Presentation

def alphanumeric (b : UInt8) : Bool :=
  (48 ≤ b && b ≤ 57) || (65 ≤ b && b ≤ 90) || (97 ≤ b && b ≤ 122)

def plainOctet (b : UInt8) : Bool := (48 ≤ b && b ≤ 57) || (97 ≤ b && b ≤ 122) || b = 45

def acePrefix : List UInt8 := [120, 110, 45, 45]

/-- A label of a host name in lower case that is not the encoding of a Unicode label. -/
def plain (p : List UInt8) : Bool :=
  p.all plainOctet && p.head? != some 45 && !(acePrefix.isPrefixOf p)

/-- How a label is written. Letters, digits and hyphens behind the first octet stand for themselves,
a dot is escaped with a backslash. A label that starts with `xn--` is shown in Unicode where that is
possible, with an octet outside of ASCII. -/
structure LabelForm where
  label : List UInt8 → List UInt8
  label_plain : ∀ {p}, plain p = true → ∀ l, lower (label l) = p ↔ lower l = p
  label_head : ∀ {l}, l ≠ [] → ∃ c cs, label l = c :: cs ∧ c ≠ 46
  label_dot : ∀ {l}, 46 ∈ label l → 92 ∈ label l ∨ ∃ b ∈ label l, 128 ≤ b

variable (form : LabelForm)

def name (q : Name) : List UInt8 :=
  if q.labels = [] then [46] else close 46 (q.labels.map form.label)

def shown (l : List UInt8) : List UInt8 := lower (form.label l)

section Plain

variable {p l : List UInt8}

theorem octets_of_plain (h : plain p = true) : ∀ b ∈ p, b ≠ 46 ∧ b ≠ 92 ∧ b < 128 := by
  simp only [plain, Bool.and_eq_true, List.all_eq_true] at h
  intro b hb
  have hrange := h.1.1 b hb
  simp [plainOctet, UInt8.le_iff_toNat_le, UInt8.lt_iff_toNat_lt, ← UInt8.toNat_inj] at hrange ⊢
  omega

theorem asciiLower_of_large {b : UInt8} (h : 128 ≤ b) : asciiLower b = b := by
  apply if_neg
  intro hupper
  exact absurd (UInt8.le_trans h hupper.2) (by decide)

end Plain

section Shown

variable {form} {q : Name} {l : List UInt8}

theorem lower_append (a b : List UInt8) : lower (a ++ b) = lower a ++ lower b := List.map_append

theorem lower_close (pieces : List (List UInt8)) :
    lower (close 46 pieces) = close 46 (pieces.map lower) := by
  induction pieces with
  | nil => rfl
  | cons p pieces ih =>
    rw [close_cons, lower_append, List.map_cons, close_cons, ← ih]
    rfl

theorem lower_name (hq : q.labels ≠ []) :
    lower (name form q) = close 46 (q.labels.map (shown form)) := by
  unfold name
  rw [if_neg hq, lower_close, List.map_map]
  rfl

variable (form) in
theorem head_shown (hl : l ≠ []) : ∃ c cs, shown form l = c :: cs ∧ c ≠ 46 := by
  obtain ⟨c, cs, heq, hc⟩ := form.label_head hl
  refine ⟨asciiLower c, lower cs, ?_, fun h => hc ((asciiLower_eq_dot c).mp h)⟩
  unfold shown
  rw [heq]
  rfl

theorem marked_of_dot_shown (h : 46 ∈ shown form l) :
    92 ∈ shown form l ∨ ∃ b ∈ shown form l, 128 ≤ b := by
  obtain ⟨c, hc, hdot⟩ := List.mem_map.mp h
  rw [(asciiLower_eq_dot c).mp hdot] at hc
  rcases form.label_dot hc with hback | ⟨b, hb, hlarge⟩
  · exact .inl (List.mem_map.mpr ⟨92, hback, by decide⟩)
  · exact .inr ⟨b, List.mem_map.mpr ⟨b, hb, asciiLower_of_large hlarge⟩, hlarge⟩

variable (form) in
theorem exists_front {front : List (List UInt8)} (hne : front ≠ []) (hl : ∀ l ∈ front, l ≠ []) :
    ∃ x, x ≠ [] ∧ close 46 (front.map (shown form)) = x ++ [46] := by
  have hpieces : front.map (shown form) ≠ [] := by simpa using hne
  obtain ⟨x, hx⟩ := exists_close_eq 46 hpieces
  refine ⟨x, ?_, hx⟩
  rintro rfl
  cases front with
  | nil => exact hne rfl
  | cons l front =>
    obtain ⟨c, cs, heq, hc⟩ := head_shown form (hl l List.mem_cons_self)
    rw [List.map_cons, close_cons, heq] at hx
    exact hc (List.cons.inj hx).1

end Shown

section Sample

def octet (b : UInt8) : List UInt8 := if alphanumeric b || b = 45 then [b] else [92, b]

variable {l : List UInt8}

theorem octet_cases (b : UInt8) :
    (octet b = [b] ∧ b ≠ 46) ∨ octet b = [92, b] := by
  unfold octet
  split
  · refine .inl ⟨rfl, ?_⟩
    rintro rfl
    rename_i h
    exact absurd h (by decide)
  · exact .inr rfl

theorem flatMap_octet_eq (h : 92 ∉ l.flatMap octet) : l.flatMap octet = l := by
  induction l with
  | nil => rfl
  | cons b l ih =>
    rw [List.flatMap_cons, List.mem_append, not_or] at h
    rw [List.flatMap_cons, ih h.2]
    rcases octet_cases b with ⟨heq, -⟩ | heq
    · rw [heq]
      rfl
    · exact absurd (heq ▸ List.mem_cons_self) h.1

theorem octet_of_plain {p : List UInt8} (hp : plain p = true) (h : lower l = p) :
    l.flatMap octet = l := by
  apply flatMap_octet_eq
  intro hmem
  obtain ⟨b, hb, hback⟩ := List.mem_flatMap.mp hmem
  have hlower : plainOctet (asciiLower b) = true := by
    simp only [plain, Bool.and_eq_true, List.all_eq_true] at hp
    exact hp.1.1 _ (h ▸ List.mem_map_of_mem hb)
  have hsafe : (alphanumeric b || b = 45) = true := by
    grind [plainOctet, asciiLower, alphanumeric]
  have hb : 92 = b := by simpa [octet, hsafe] using hback
  rw [← hb] at hsafe
  exact absurd hsafe (by decide)

/-- Shows no label in Unicode. -/
def asciiOnly : LabelForm where
  label l := l.flatMap octet
  label_plain {p} hp l := by
    constructor
    · intro h
      have hback : 92 ∉ l.flatMap octet := by
        intro hmem
        have hmem : 92 ∈ p := h ▸ List.mem_map.mpr ⟨92, hmem, by decide⟩
        exact (octets_of_plain hp 92 hmem).2.1 rfl
      rwa [flatMap_octet_eq hback] at h
    · intro h
      rwa [octet_of_plain hp h]
  label_head {l} hl := by
    cases l with
    | nil => exact absurd rfl hl
    | cons b l =>
      rcases octet_cases b with ⟨heq, hb⟩ | heq
      · exact ⟨b, l.flatMap octet, by rw [List.flatMap_cons, heq]; rfl, hb⟩
      · exact ⟨92, b :: l.flatMap octet, by rw [List.flatMap_cons, heq]; rfl, by decide⟩
  label_dot {l} h := by
    by_contra hnone
    have hback : 92 ∉ l.flatMap octet := fun hmem => hnone (.inl hmem)
    obtain ⟨b, hb, hdot⟩ := List.mem_flatMap.mp h
    rcases octet_cases b with ⟨heq, hne⟩ | heq
    · rw [heq] at hdot
      exact hne (List.mem_singleton.mp hdot).symm
    · exact hback (List.mem_flatMap.mpr ⟨b, hb, heq ▸ List.mem_cons_self⟩)

end Sample

end Presentation

end EgressDns
