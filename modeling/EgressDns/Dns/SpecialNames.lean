import EgressDns.Dns.Presentation
import EgressDns.Dns.SpecialUse
import EgressDns.Util.IpClass

/-!
# Special-use names, label by label

What `classify` makes of the presentation form of a name, compared with the labels of the name.
-/

namespace EgressDns

open Lib

namespace SpecialName

open Presentation (LabelForm asciiOnly shown)
open Lib (decimal close)

def listed : List Text := ascii "localhost." :: nxdomainSuffixes.map Prod.fst

def nibble (n : Nat) : Text := [UInt8.ofNat (if n < 10 then 48 + n else 87 + n)]

def inAddr (octets : List Nat) : List Text := octets.map decimal ++ [ascii "in-addr", ascii "arpa"]

def ip6 (nibbles : List Nat) : List Text := nibbles.map nibble ++ [ascii "ip6", ascii "arpa"]

def listedLabels : List (List Text) :=
  [[ascii "localhost"], [ascii "invalid"], [ascii "local"], [ascii "home", ascii "arpa"],
    [ascii "onion"], inAddr [10]] ++
  (List.range 16).map (fun i => inAddr [16 + i, 172]) ++ [inAddr [168, 192], inAddr [254, 169]] ++
  [ip6 [8, 14, 15], ip6 [9, 14, 15], ip6 [10, 14, 15], ip6 [11, 14, 15], ip6 [12, 15],
    ip6 [13, 15]]

theorem listed_eq : listed = listedLabels.map (close 46) := by decide +kernel

def plainLabels (labels : List Text) : Bool :=
  labels != [] && labels.all fun p => Presentation.plain p && p != []

theorem plainLabels_of_listed : listedLabels.all plainLabels = true := by decide +kernel

section Names

variable (form : LabelForm)

/-- The name is a listed one or lies beneath it, label by label, or it is a loop marker. -/
def Special (q : Name) : Prop :=
  (∃ labels ∈ listedLabels, labels <:+ q.labels.map lower) ∨
    isLoopMarker (Presentation.name form q) = true

def BehindDot (q : Name) (text : Text) : Prop :=
  ∃ front l rest u v, q.labels = front ++ l :: rest ∧ shown form l = u ++ 46 :: v ∧
    text = v ++ 46 :: close 46 (rest.map (shown form))

variable {form} {q : Name} {text : Text}

theorem suffixMatches_iff {name suffix : Text} :
    suffixMatches name suffix = true ↔
      name = suffix ∨ ∃ x, x ≠ [] ∧ name = x ++ 46 :: suffix := by
  unfold suffixMatches
  simp only [Bool.or_eq_true, beq_iff_eq, Bool.and_eq_true, decide_eq_true_eq]
  apply or_congr_right
  constructor
  · rintro ⟨⟨hlen, hsuffix⟩, hdot⟩
    obtain ⟨y, rfl⟩ := List.isSuffixOf_iff_suffix.mp hsuffix
    rw [List.length_append] at hlen hdot
    obtain ⟨x, c, rfl⟩ :=
      (List.eq_nil_or_concat y).resolve_left (by rintro rfl; rw [List.length_nil] at hlen; omega)
    have hc : c = 46 := by
      simpa using hdot
    subst hc
    refine ⟨x, ?_, by simp⟩
    rintro rfl
    simp at hlen
    omega
  · rintro ⟨x, hx, rfl⟩
    have hpos := List.length_pos_iff.mpr hx
    refine ⟨⟨?_, ?_⟩, ?_⟩
    · rw [List.length_append, List.length_cons]
      omega
    · exact List.isSuffixOf_iff_suffix.mpr ⟨x ++ [46], by simp⟩
    · rw [List.length_append, List.length_cons,
        show x.length + (suffix.length + 1) - suffix.length - 1 = x.length by omega]
      simp

theorem classify_isSome_iff (text : Text) :
    (classify text).isSome = true ↔
      (∃ suffix ∈ listed, suffixMatches (normalizeName text) suffix = true) ∨
        isLoopMarker (normalizeName text) = true := by
  unfold classify listed
  simp only [List.exists_mem_cons_iff]
  split
  · simp_all
  · split
    · simp_all
    · rw [Option.isSome_map, List.find?_isSome]
      simp_all

theorem normalizeName_name (q : Name) :
    normalizeName (Presentation.name form q) = lower (Presentation.name form q) := by
  have hend : (lower (Presentation.name form q)).getLast? = some 46 := by
    by_cases hq : q.labels = []
    · unfold Presentation.name
      rw [if_pos hq]
      rfl
    · rw [Presentation.lower_name hq]
      have hne : q.labels.map (shown form) ≠ [] := by simpa using hq
      obtain ⟨init, hinit⟩ := exists_close_eq 46 hne
      rw [hinit]
      simp
  exact if_pos hend

variable {labels : List Text} {rest : List (List UInt8)}

theorem lower_of_close_eq (hplain : ∀ p ∈ labels, Presentation.plain p = true)
    (h : close 46 (rest.map (shown form)) = close 46 labels) : rest.map lower = labels := by
  have hoctets : ∀ b ∈ close 46 labels, b ≠ 92 ∧ b < 128 := by
    intro b hb
    obtain ⟨p, hp, hbp⟩ := List.mem_flatMap.mp hb
    rcases List.mem_append.mp hbp with hbp | hbp
    · exact (Presentation.octets_of_plain (hplain p hp) b hbp).2
    · rw [List.mem_singleton.mp hbp]
      decide
  have hdot : ∀ piece ∈ rest.map (shown form), 46 ∉ piece := by
    intro piece hpiece hdot
    have hmem : ∀ b ∈ piece, b ∈ close 46 labels := by
      intro b hb
      rw [← h]
      exact List.mem_flatMap.mpr ⟨piece, hpiece, List.mem_append_left _ hb⟩
    obtain ⟨l, -, rfl⟩ := List.mem_map.mp hpiece
    rcases Presentation.marked_of_dot_shown hdot with hback | ⟨b, hb, hlarge⟩
    · exact (hoctets 92 (hmem 92 hback)).1 rfl
    · exact UInt8.not_lt.mpr hlarge (hoctets b (hmem b hb)).2
  have hsame : rest.map (shown form) = labels :=
    close_inj hdot (fun p hp hmem => (Presentation.octets_of_plain (hplain p hp) 46 hmem).1 rfl)
      h
  rw [← hsame]
  apply List.map_congr_left
  intro l hl
  have hp : Presentation.plain (shown form l) = true :=
    hplain _ (hsame ▸ List.mem_map_of_mem hl)
  exact (form.label_plain hp l).mp rfl

theorem shown_of_lower (hplain : ∀ p ∈ labels, Presentation.plain p = true)
    (h : rest.map lower = labels) : rest.map (shown form) = labels := by
  rw [← h]
  apply List.map_congr_left
  intro l hl
  have hp : Presentation.plain (lower l) = true := hplain _ (h ▸ List.mem_map_of_mem hl)
  exact (form.label_plain hp l).mpr rfl

/-- The root is shown as a dot alone, which is shorter than any suffix. -/
theorem not_suffixMatches_root (hroot : q.labels = []) (hne : labels ≠ [])
    (hlabels : ∀ p ∈ labels, p ≠ []) :
    ¬ suffixMatches (lower (Presentation.name form q)) (close 46 labels) = true := by
  have hlong : 2 ≤ (close 46 labels).length := by
    cases labels with
    | nil => exact absurd rfl hne
    | cons p labels =>
      have hpos := List.length_pos_iff.mpr (hlabels p List.mem_cons_self)
      rw [close_cons, List.length_append, List.length_cons]
      omega
  have hname : lower (Presentation.name form q) = [46] := by
    unfold Presentation.name
    rw [if_pos hroot]
    rfl
  rw [suffixMatches_iff, hname]
  rintro (heq | ⟨x, -, heq⟩) <;>
  · have hlen := congrArg List.length heq
    simp only [List.length_append, List.length_cons, List.length_nil] at hlen
    omega

/-- The presentation form of a name ends in a plain suffix just when its labels do, or when the suffix
stands behind a dot inside a label. -/
theorem suffixMatches_name_iff (hq : ∀ l ∈ q.labels, l ≠ []) (hne : labels ≠ [])
    (hlabels : ∀ p ∈ labels, Presentation.plain p = true ∧ p ≠ []) :
    suffixMatches (lower (Presentation.name form q)) (close 46 labels) = true ↔
      labels <:+ q.labels.map lower ∨ BehindDot form q (close 46 labels) := by
  have hplain : ∀ p ∈ labels, Presentation.plain p = true := fun p hp => (hlabels p hp).1
  by_cases hroot : q.labels = []
  · refine iff_of_false (not_suffixMatches_root hroot hne fun p hp => (hlabels p hp).2) ?_
    rintro (hsuffix | ⟨front, l, rest, u, v, heq, -⟩)
    · rw [hroot] at hsuffix
      exact absurd (List.suffix_nil.mp hsuffix) hne
    · rw [hroot] at heq
      simp at heq
  · rw [suffixMatches_iff, Presentation.lower_name hroot]
    constructor
    · rintro (hall | ⟨x, -, hx⟩)
      · exact .inl ⟨[], lower_of_close_eq hplain hall ▸ rfl⟩
      · rcases close_map_eq_append hx with
          ⟨front, rest, heq, hbs⟩ | ⟨front, l, rest, u, v, heq, hl, hy⟩
        · refine .inl ⟨front.map lower, ?_⟩
          rw [heq, List.map_append, lower_of_close_eq hplain hbs]
        · exact .inr ⟨front, l, rest, u, v, heq, hl, hy⟩
    · rintro (⟨front', hfront⟩ | ⟨front, l, rest, u, v, heq, hl, htext⟩)
      · obtain ⟨front, rest, heq, rfl, hrest⟩ := List.map_eq_append_iff.mp hfront.symm
        rw [heq, List.map_append, close_append, shown_of_lower hplain hrest]
        by_cases hfront : front = []
        · exact .inl (by rw [hfront]; rfl)
        · obtain ⟨x, hx, hclose⟩ := Presentation.exists_front form hfront
            fun l hl => hq l (heq ▸ List.mem_append_left _ hl)
          exact .inr ⟨x, hx, by rw [hclose]; simp⟩
      · refine .inr ⟨close 46 (front.map (shown form)) ++ u, ?_, ?_⟩
        · intro hnil
          have hu := (List.append_eq_nil_iff.mp hnil).2
          have hmem : l ∈ q.labels := heq ▸ List.mem_append_right _ List.mem_cons_self
          obtain ⟨c, cs, hshown, hc⟩ := Presentation.head_shown form (hq l hmem)
          rw [hl, hu] at hshown
          exact hc (List.cons.inj hshown).1.symm
        · rw [heq, htext, List.map_append, List.map_cons, hl, close_append, close_cons]
          simp

theorem classify_name_iff (hq : ∀ l ∈ q.labels, l ≠ []) :
    (classify (Presentation.name form q)).isSome = true ↔
      Special form q ∨ ∃ labels ∈ listedLabels, BehindDot form q (close 46 labels) := by
  have hone : ∀ labels ∈ listedLabels,
      (suffixMatches (lower (Presentation.name form q)) (close 46 labels) = true ↔
        labels <:+ q.labels.map lower ∨ BehindDot form q (close 46 labels)) := by
    intro labels hlabels
    have hplain := List.all_eq_true.mp plainLabels_of_listed labels hlabels
    simp only [plainLabels, Bool.and_eq_true, bne_iff_ne, List.all_eq_true] at hplain
    exact suffixMatches_name_iff hq hplain.1 hplain.2
  have hmarker : isLoopMarker (lower (Presentation.name form q)) =
      isLoopMarker (Presentation.name form q) := by
    unfold isLoopMarker
    rw [← lower_trimEndDots, lower_lower]
  rw [classify_isSome_iff, normalizeName_name, listed_eq, hmarker]
  constructor
  · rintro (⟨suffix, hmem, hmatch⟩ | hloop)
    · obtain ⟨labels, hlabels, rfl⟩ := List.mem_map.mp hmem
      rcases (hone labels hlabels).mp hmatch with hbeneath | hbehind
      · exact .inl (.inl ⟨labels, hlabels, hbeneath⟩)
      · exact .inr ⟨labels, hlabels, hbehind⟩
    · exact .inl (.inr hloop)
  · rintro ((⟨labels, hlabels, hbeneath⟩ | hloop) | ⟨labels, hlabels, hbehind⟩)
    · exact .inl ⟨_, List.mem_map_of_mem hlabels, (hone labels hlabels).mpr (.inl hbeneath)⟩
    · exact .inr hloop
    · exact .inl ⟨_, List.mem_map_of_mem hlabels, (hone labels hlabels).mpr (.inr hbehind)⟩

end Names

section Reverse

def reverseLabels : IpAddr → List Text
  | .v4 a => inAddr [a.toNat % 256, a.toNat / 2 ^ 8 % 256, a.toNat / 2 ^ 16 % 256, a.toNat / 2 ^ 24]
  | .v6 a => ip6 ((List.range 32).map fun i => a.toNat / 16 ^ i % 16)

def localNetwork : IpAddr → Bool
  | .v4 a => [(⟨0x0a000000, 8⟩ : IpNet 32), ⟨0xac100000, 12⟩, ⟨0xc0a80000, 16⟩, ⟨0xa9fe0000, 16⟩].any
      (·.contains a)
  | .v6 a => [(⟨0xfe800000000000000000000000000000, 10⟩ : IpNet 128),
      ⟨0xfc000000000000000000000000000000, 7⟩].any (·.contains a)

variable {A : Type} {zone : Text}

theorem append_suffix_append_iff {as bs cs ds : List A} (h : cs.length = ds.length) :
    as ++ cs <:+ bs ++ ds ↔ cs = ds ∧ as <:+ bs := by
  constructor
  · rintro ⟨t, ht⟩
    rw [← List.append_assoc] at ht
    obtain ⟨hfront, hback⟩ := List.append_inj' ht h
    exact ⟨hback, t, hfront⟩
  · rintro ⟨rfl, t, rfl⟩
    exact ⟨t, by simp⟩

theorem map_suffix_map_iff {B : Type} {f : A → B} {as bs : List A}
    (h : ∀ a ∈ as, ∀ b ∈ bs, f a = f b → a = b) : as.map f <:+ bs.map f ↔ as <:+ bs := by
  constructor
  · rintro ⟨t, ht⟩
    obtain ⟨front, rest, rfl, -, hrest⟩ := List.map_eq_append_iff.mp ht.symm
    refine ⟨front, congrArg (front ++ ·) ?_⟩
    have hpair : ∀ (as rest : List A), (∀ a ∈ as, ∀ b ∈ rest, f a = f b → a = b) →
        rest.map f = as.map f → as = rest := by
      intro as
      induction as with
      | nil =>
        intro rest _ hmap
        exact (List.map_eq_nil_iff.mp hmap).symm
      | cons a as ih =>
        intro rest hinj hmap
        obtain ⟨b, rest, rfl, hb, hmap⟩ := List.map_eq_cons_iff.mp hmap
        rw [hinj a List.mem_cons_self b List.mem_cons_self hb.symm, ih rest _ hmap]
        intro a ha b hb
        exact hinj a (List.mem_cons_of_mem _ ha) b (List.mem_cons_of_mem _ hb)
    exact hpair as rest (fun a ha b hb => h a ha b (List.mem_append_right _ hb)) hrest
  · rintro ⟨t, rfl⟩
    exact ⟨t.map f, by simp⟩

theorem inAddr_suffix_iff {as bs : List Nat} : inAddr as <:+ inAddr bs ↔ as <:+ bs := by
  unfold inAddr
  rw [append_suffix_append_iff rfl, and_iff_right rfl]
  exact map_suffix_map_iff fun _ _ _ _ h => decimal_injective h

theorem nibble_inj : ∀ a < 16, ∀ b < 16, nibble a = nibble b → a = b := by decide

theorem ip6_suffix_iff {as bs : List Nat} (has : ∀ a ∈ as, a < 16) (hbs : ∀ b ∈ bs, b < 16) :
    ip6 as <:+ ip6 bs ↔ as <:+ bs := by
  unfold ip6
  rw [append_suffix_append_iff rfl, and_iff_right rfl]
  exact map_suffix_map_iff fun a ha b hb h => nibble_inj a (has a ha) b (hbs b hb) h

theorem listed_suffix_iff {front name : List Text} (hzone : zone ≠ ascii "home")
    (hname : name = front ++ [zone, ascii "arpa"]) :
    (∃ labels ∈ listedLabels, labels <:+ name) ↔
      inAddr [10] <:+ name ∨ (∃ i < 16, inAddr [16 + i, 172] <:+ name) ∨
      inAddr [168, 192] <:+ name ∨ inAddr [254, 169] <:+ name ∨
      (∃ n ∈ [8, 9, 10, 11], ip6 [n, 14, 15] <:+ name) ∨ ∃ n ∈ [12, 13], ip6 [n, 15] <:+ name := by
  have hsingle : ∀ t, t ≠ ascii "arpa" → ¬[t] <:+ name := by
    intro t ht hsuffix
    rw [hname] at hsuffix
    have hlen : [t].length = [ascii "arpa"].length := rfl
    have hlast : [] ++ [t] <:+ (front ++ [zone]) ++ [ascii "arpa"] := by simpa using hsuffix
    exact ht (List.cons.inj ((append_suffix_append_iff hlen).mp hlast).1).1
  have hhome : ¬[ascii "home", ascii "arpa"] <:+ name := by
    intro hsuffix
    rw [hname] at hsuffix
    have hlen : [ascii "home", ascii "arpa"].length = [zone, ascii "arpa"].length := rfl
    have hlast : [] ++ [ascii "home", ascii "arpa"] <:+ front ++ [zone, ascii "arpa"] := hsuffix
    exact hzone (List.cons.inj ((append_suffix_append_iff hlen).mp hlast).1).1.symm
  have hlocalhost := hsingle (ascii "localhost") (by decide)
  have hinvalid := hsingle (ascii "invalid") (by decide)
  have hlocal := hsingle (ascii "local") (by decide)
  have honion := hsingle (ascii "onion") (by decide)
  unfold listedLabels
  have hfamily : (∃ x, (∃ i < 16, inAddr [16 + i, 172] = x) ∧ x <:+ name) ↔
      ∃ i < 16, inAddr [16 + i, 172] <:+ name := by
    constructor
    · rintro ⟨x, ⟨i, hi, rfl⟩, hsuffix⟩
      exact ⟨i, hi, hsuffix⟩
    · rintro ⟨i, hi, hsuffix⟩
      exact ⟨_, ⟨i, hi, rfl⟩, hsuffix⟩
  simp only [List.mem_append, List.mem_cons, List.mem_map, List.mem_range, List.not_mem_nil,
    or_false, or_and_right, exists_or, exists_eq_left, hlocalhost, hinvalid, hlocal, honion, hhome,
    hfamily, false_or, or_assoc]

theorem inAddr_not_suffix_ip6 (as bs : List Nat) : ¬inAddr as <:+ ip6 bs := by
  intro hsuffix
  have hlen : [ascii "in-addr", ascii "arpa"].length = [ascii "ip6", ascii "arpa"].length := rfl
  have hzone := ((append_suffix_append_iff hlen).mp hsuffix).1
  exact absurd hzone (by decide)

theorem ip6_not_suffix_inAddr (as bs : List Nat) : ¬ip6 as <:+ inAddr bs := by
  intro hsuffix
  have hlen : [ascii "ip6", ascii "arpa"].length = [ascii "in-addr", ascii "arpa"].length := rfl
  have hzone := ((append_suffix_append_iff hlen).mp hsuffix).1
  exact absurd hzone (by decide)

theorem suffix_append_iff (bs : List A) {as cs : List A} (h : as.length = cs.length) :
    as <:+ bs ++ cs ↔ as = cs := by
  have hnil : [] ++ as <:+ bs ++ cs ↔ as = cs ∧ [] <:+ bs := append_suffix_append_iff h
  rw [List.nil_append, and_iff_left List.nil_suffix] at hnil
  exact hnil

theorem listed_inAddr_iff {a b c d : Nat} :
    (∃ labels ∈ listedLabels, labels <:+ inAddr [a, b, c, d]) ↔
      d = 10 ∨ (16 ≤ c ∧ c < 32) ∧ d = 172 ∨ c = 168 ∧ d = 192 ∨ c = 254 ∧ d = 169 := by
  have hone : inAddr [10] <:+ inAddr [a, b, c, d] ↔ d = 10 := by
    rw [inAddr_suffix_iff]
    have hlast := suffix_append_iff [a, b, c] (show [10].length = [d].length from rfl)
    exact hlast.trans (by simp [eq_comm])
  have htwo : ∀ x y, inAddr [x, y] <:+ inAddr [a, b, c, d] ↔ c = x ∧ d = y := by
    intro x y
    rw [inAddr_suffix_iff]
    have hlast := suffix_append_iff [a, b] (show [x, y].length = [c, d].length from rfl)
    exact hlast.trans (by simp [eq_comm])
  have hrange : (∃ i < 16, c = 16 + i ∧ d = 172) ↔ (16 ≤ c ∧ c < 32) ∧ d = 172 := by
    constructor
    · rintro ⟨i, hi, rfl, hd⟩
      exact ⟨⟨by omega, by omega⟩, hd⟩
    · rintro ⟨hc, hd⟩
      exact ⟨c - 16, by omega, by omega, hd⟩
  have hname : inAddr [a, b, c, d] = [a, b, c, d].map decimal ++ [ascii "in-addr", ascii "arpa"] :=
    rfl
  rw [listed_suffix_iff (by decide) hname]
  simp only [hone, htwo, hrange, ip6_not_suffix_inAddr, and_false, exists_false, or_false]

theorem listed_ip6_iff {front : List Nat} {a b c : Nat}
    (hlt : ∀ n ∈ front ++ [a, b, c], n < 16) :
    (∃ labels ∈ listedLabels, labels <:+ ip6 (front ++ [a, b, c])) ↔
      (8 ≤ a ∧ a < 12) ∧ b = 14 ∧ c = 15 ∨ (12 ≤ b ∧ b < 14) ∧ c = 15 := by
  have hthree : ∀ n < 16, (ip6 [n, 14, 15] <:+ ip6 (front ++ [a, b, c]) ↔
      a = n ∧ b = 14 ∧ c = 15) := by
    intro n hn
    rw [ip6_suffix_iff (by simpa using hn) hlt,
      suffix_append_iff _ (show [n, 14, 15].length = [a, b, c].length from rfl)]
    simp [eq_comm]
  have htwo : ∀ n < 16, (ip6 [n, 15] <:+ ip6 (front ++ [a, b, c]) ↔ b = n ∧ c = 15) := by
    intro n hn
    rw [ip6_suffix_iff (by simpa using hn) hlt, List.append_cons front a [b, c],
      suffix_append_iff _ (show [n, 15].length = [b, c].length from rfl)]
    simp [eq_comm]
  have hname : ip6 (front ++ [a, b, c]) =
      (front ++ [a, b, c]).map nibble ++ [ascii "ip6", ascii "arpa"] := rfl
  rw [listed_suffix_iff (by decide) hname]
  simp only [inAddr_not_suffix_ip6, and_false, exists_false, false_or, List.mem_cons,
    List.not_mem_nil, or_false, or_and_right, exists_or, exists_eq_left]
  rw [hthree 8 (by decide), hthree 9 (by decide), hthree 10 (by decide), hthree 11 (by decide),
    htwo 12 (by decide), htwo 13 (by decide)]
  omega

theorem listed_reverse_iff (addr : IpAddr) :
    (∃ labels ∈ listedLabels, labels <:+ reverseLabels addr) ↔ localNetwork addr = true := by
  cases addr with
  | v4 a =>
    have hlt := a.isLt
    unfold reverseLabels localNetwork
    rw [listed_inAddr_iff]
    simp only [List.any_cons, List.any_nil, Bool.or_eq_true, Bool.or_false, IpNet.contains_iff,
      BitVec.reduceToNat]
    omega
  | v6 a =>
    have hlt := a.isLt
    have hnibbles : (List.range 32).map (fun i => a.toNat / 16 ^ i % 16) =
        (List.range 29).map (fun i => a.toNat / 16 ^ i % 16) ++
          [a.toNat / 16 ^ 29 % 16, a.toNat / 16 ^ 30 % 16, a.toNat / 16 ^ 31 % 16] := rfl
    unfold reverseLabels localNetwork
    dsimp only
    rw [hnibbles, listed_ip6_iff]
    · simp only [List.any_cons, List.any_nil, Bool.or_eq_true, Bool.or_false, IpNet.contains_iff,
        BitVec.reduceToNat]
      omega
    · rw [← hnibbles]
      intro n hn
      obtain ⟨i, -, rfl⟩ := List.mem_map.mp hn
      exact Nat.mod_lt _ (by decide)

theorem plain_decimal (n : Nat) : Presentation.plain (decimal n) = true := by
  have hdigit : ∀ b ∈ decimal n, 48 ≤ b ∧ b ≤ 57 := by
    intro b hb
    simpa [digit] using digit_of_mem_decimal hb
  unfold Presentation.plain
  simp only [Bool.and_eq_true, List.all_eq_true, bne_iff_ne, Bool.not_eq_true']
  refine ⟨⟨?_, ?_⟩, ?_⟩
  · intro b hb
    simp [Presentation.plainOctet, hdigit b hb]
  · intro hhead
    exact absurd (hdigit 45 (List.mem_of_head? hhead)).1 (by decide)
  · apply Bool.eq_false_iff.mpr
    intro hace
    have hmem := (List.isPrefixOf_iff_prefix.mp hace).subset List.mem_cons_self
    exact absurd (hdigit 120 hmem).2 (by decide)

theorem plain_nibble : ∀ n < 16, Presentation.plain (nibble n) = true := by decide

theorem plain_reverseLabels (addr : IpAddr) {p : Text} (hp : p ∈ reverseLabels addr) :
    Presentation.plain p = true ∧ p ≠ [] := by
  cases addr with
  | v4 a =>
    rcases List.mem_append.mp hp with hp | hp
    · obtain ⟨n, -, rfl⟩ := List.mem_map.mp hp
      exact ⟨plain_decimal n, decimal_ne_nil n⟩
    · rcases List.mem_pair.mp hp with rfl | rfl <;> decide
  | v6 a =>
    rcases List.mem_append.mp hp with hp | hp
    · obtain ⟨n, hn, rfl⟩ := List.mem_map.mp hp
      obtain ⟨i, -, rfl⟩ := List.mem_map.mp hn
      exact ⟨plain_nibble _ (Nat.mod_lt _ (by decide)), List.cons_ne_nil _ _⟩
    · rcases List.mem_pair.mp hp with rfl | rfl <;> decide

theorem not_loopMarker {form : LabelForm} {q : Name} {front : List Text}
    (hq : q.labels.map (shown form) = front ++ [zone, ascii "arpa"]) :
    isLoopMarker (Presentation.name form q) = false := by
  have hne : q.labels ≠ [] := by
    rintro hnil
    rw [hnil] at hq
    simp at hq
  apply Bool.eq_false_iff.mpr
  intro hloop
  unfold isLoopMarker at hloop
  have htrim : trimEndDots (close 46 (front ++ [zone, ascii "arpa"])) =
      close 46 (front ++ [zone]) ++ ascii "arpa" := by
    rw [List.append_cons, close_append, close_cons, close_nil]
    simp [trimEndDots, ascii]
  rw [lower_trimEndDots, Presentation.lower_name hne, hq, htrim] at hloop
  obtain ⟨x, hx⟩ := List.isSuffixOf_iff_suffix.mp hloop
  have hlast := congrArg List.getLast? hx
  rw [List.getLast?_append, List.getLast?_append,
    show loopMarkerSuffix.getLast? = some 100 by decide,
    show (ascii "arpa").getLast? = some 97 by decide] at hlast
  simp at hlast

variable {form : LabelForm} {q : Name}

/-- A reverse name, in whatever case, is answered locally just when its address is in one of the
networks. -/
theorem classify_reverse_iff {addr : IpAddr} (hq : q.labels.map lower = reverseLabels addr) :
    (classify (Presentation.name form q)).isSome = true ↔ localNetwork addr = true := by
  have hplain : ∀ l ∈ q.labels, Presentation.plain (lower l) = true ∧ lower l ≠ [] :=
    fun l hl => plain_reverseLabels addr (hq ▸ List.mem_map_of_mem hl)
  have hne : ∀ l ∈ q.labels, l ≠ [] := by
    rintro l hl rfl
    exact (hplain [] hl).2 rfl
  have hshown : q.labels.map (shown form) = reverseLabels addr :=
    shown_of_lower (fun p hp => (plain_reverseLabels addr hp).1) hq
  have hdot : ∀ text, ¬BehindDot form q text := by
    rintro text ⟨front, l, rest, u, v, heq, hl, -⟩
    have hmem : shown form l ∈ reverseLabels addr := by
      rw [← hshown, heq]
      exact List.mem_map_of_mem (List.mem_append_right _ List.mem_cons_self)
    have hoctets := Presentation.octets_of_plain (plain_reverseLabels addr hmem).1
    exact (hoctets 46 (by rw [hl]; simp)).1 rfl
  have hloop : isLoopMarker (Presentation.name form q) = false := by
    cases addr with
    | v4 a | v6 a => exact not_loopMarker (hshown.trans rfl)
  rw [classify_name_iff hne, ← listed_reverse_iff addr]
  unfold Special
  rw [hloop, hq]
  simp [hdot]

/-- A name is special by its labels just when `classify` says so, unless a listed suffix stands behind
a dot inside a label; and reverse names are answered locally by their networks. -/
theorem special_use_labelwise_iff (hq : ∀ l ∈ q.labels, l ≠ []) :
    (((classify (Presentation.name form q)).isSome = true ↔ Special form q) ↔
      (Special form q ∨ ∀ labels ∈ listedLabels, ¬BehindDot form q (close 46 labels))) ∧
    ∀ addr, q.labels.map lower = reverseLabels addr →
      ((classify (Presentation.name form q)).isSome = true ↔ localNetwork addr = true) := by
  refine ⟨?_, fun addr haddr => classify_reverse_iff haddr⟩
  rw [classify_name_iff hq]
  constructor
  · intro hiff
    by_cases hspecial : Special form q
    · exact .inl hspecial
    · refine .inr fun labels hlabels hbehind => hspecial ?_
      exact hiff.mp (.inr ⟨labels, hlabels, hbehind⟩)
  · rintro (hspecial | hnone)
    · exact ⟨fun _ => hspecial, .inl⟩
    · refine ⟨?_, .inl⟩
      rintro (hspecial | ⟨labels, hlabels, hbehind⟩)
      · exact hspecial
      · exact absurd hbehind (hnone labels hlabels)

instance decidableSpecial (form : LabelForm) (q : Name) : Decidable (Special form q) :=
  inferInstanceAs (Decidable (_ ∨ _))

theorem special_use_plain :
    (classify (Presentation.name asciiOnly ⟨[ascii "www", ascii "local"]⟩)).isSome = true ↔
      Special asciiOnly ⟨[ascii "www", ascii "local"]⟩ :=
  (special_use_labelwise_iff (by decide)).1.mpr (.inl (by decide))

theorem special_use_behind_dot :
    (classify (Presentation.name asciiOnly ⟨[ascii "foo.local"]⟩)).isSome = true ∧
      ¬Special asciiOnly ⟨[ascii "foo.local"]⟩ := by
  decide

end Reverse

end SpecialName

end EgressDns
