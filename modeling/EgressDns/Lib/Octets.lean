import Mathlib.Data.BitVec
import Mathlib.Data.List.DropRight
import Mathlib.Data.UInt

/-!
# Octets and bits

What text handling needs of strings in UTF-8: white space at the ends, numbers in decimal, percent
encoding, and the first and last occurrence of a separator. Networks are sets of bit vectors that
agree on a number of leading bits, tested by a mask or by a shift.
-/

namespace EgressDns.Lib

abbrev Octets := List UInt8

section Split

variable {A : Type} {p : A → Bool} {xs ys : List A} {x : A}

theorem takeWhile_cut (h : ∀ a ∈ xs, p a = true) (hx : p x = false) :
    (xs ++ x :: ys).takeWhile p = xs := by
  rw [List.takeWhile_append_of_pos h, List.takeWhile_cons_of_neg (by simp [hx]), List.append_nil]

theorem dropWhile_cut (h : ∀ a ∈ xs, p a = true) (hx : p x = false) :
    (xs ++ x :: ys).dropWhile p = x :: ys := by
  rw [List.dropWhile_append_of_pos h, List.dropWhile_cons_of_neg (by simp [hx])]

theorem dropWhile_append_cons (hx : p x = false) :
    (xs ++ x :: ys).dropWhile p = xs.dropWhile p ++ x :: ys := by
  induction xs with
  | nil => simp [hx]
  | cons a rest ih =>
    cases ha : p a with
    | false => simp [ha]
    | true => simpa [ha] using ih

theorem rdropWhile_append_cons (hx : p x = false) :
    (xs ++ x :: ys).rdropWhile p = xs ++ x :: ys.rdropWhile p := by
  simp only [List.rdropWhile, List.reverse_append, List.reverse_cons, List.append_assoc,
    List.singleton_append]
  rw [dropWhile_append_cons hx]
  simp

theorem rtakeWhile_append_cons (hx : p x = false) :
    (xs ++ x :: ys).rtakeWhile p = ys.rtakeWhile p := by
  induction ys using List.reverseRecOn with
  | nil => rw [List.rtakeWhile_concat_neg _ _ _ (by simp [hx]), List.rtakeWhile_nil]
  | append_singleton rest a ih =>
    rw [← List.cons_append, ← List.append_assoc]
    cases ha : p a with
    | false => rw [List.rtakeWhile_concat_neg _ _ _ (by simp [ha]),
        List.rtakeWhile_concat_neg _ _ _ (by simp [ha])]
    | true => rw [List.rtakeWhile_concat_pos _ _ _ ha, List.rtakeWhile_concat_pos _ _ _ ha, ih]

end Split

def space1 (a : UInt8) : Bool := (9 ≤ a && a ≤ 13) || a == 32

def space2 (a b : UInt8) : Bool := a == 0xC2 && (b == 0x85 || b == 0xA0)

def space3 (a b c : UInt8) : Bool :=
  (a == 0xE1 && b == 0x9A && c == 0x80) ||
  (a == 0xE2 && b == 0x80 && ((0x80 ≤ c && c ≤ 0x8A) || c == 0xA8 || c == 0xA9 || c == 0xAF)) ||
  (a == 0xE2 && b == 0x81 && c == 0x9F) ||
  (a == 0xE3 && b == 0x80 && c == 0x80)

/-- Drop leading characters, given the white space of two and of three octets. -/
def trimWith (two : UInt8 → UInt8 → Bool) (three : UInt8 → UInt8 → UInt8 → Bool) :
    Octets → Octets
  | a :: b :: c :: rest =>
    if space1 a then trimWith two three (b :: c :: rest)
    else if two a b then trimWith two three (c :: rest)
    else if three a b c then trimWith two three rest
    else a :: b :: c :: rest
  | [a, b] => if space1 a then trimWith two three [b] else if two a b then [] else [a, b]
  | [a] => if space1 a then [] else [a]
  | [] => []

def trimStart (t : Octets) : Octets := trimWith space2 space3 t

def trimEnd (t : Octets) : Octets :=
  (trimWith (fun a b => space2 b a) (fun a b c => space3 c b a) t.reverse).reverse

def trim (t : Octets) : Octets := trimEnd (trimStart t)

theorem trimWith_suffix (two : UInt8 → UInt8 → Bool) (three : UInt8 → UInt8 → UInt8 → Bool)
    (t : Octets) : trimWith two three t <:+ t := by
  induction t using trimWith.induct two three with
  | case1 a b c t ha ih => simpa [trimWith, ha] using ih.trans (List.suffix_cons a _)
  | case2 a b c t ha hab ih =>
    simpa [trimWith, ha, hab] using ih.trans (List.suffix_append [a, b] (c :: t))
  | case3 a b c t ha hab habc ih =>
    simpa [trimWith, ha, hab, habc] using ih.trans (List.suffix_append [a, b, c] t)
  | case4 a b c t ha hab habc => simp [trimWith, ha, hab, habc]
  | case5 a b ha ih => simpa [trimWith, ha] using ih.trans (List.suffix_cons a [b])
  | case6 a b ha hab | case7 a b ha hab => simp [trimWith, ha, hab]
  | case8 a ha | case9 a ha => simp [trimWith, ha]
  | case10 => simp [trimWith]

theorem mem_of_mem_trimEnd {t : Octets} {b : UInt8} (h : b ∈ trimEnd t) : b ∈ t :=
  List.mem_reverse.mp ((trimWith_suffix _ _ t.reverse).subset (List.mem_reverse.mp h))

def visible (v : UInt8) : Bool := 33 ≤ v && v ≤ 126

theorem trimWith_append_cons {two : UInt8 → UInt8 → Bool}
    {three : UInt8 → UInt8 → UInt8 → Bool} {v : UInt8} (h1 : space1 v = false)
    (h2 : ∀ a, two v a = false ∧ two a v = false)
    (h3 : ∀ a b, three v a b = false ∧ three a v b = false ∧ three a b v = false)
    (t rest : Octets) :
    trimWith two three (t ++ v :: rest) = trimWith two three t ++ v :: rest := by
  have hstop : ∀ rest, trimWith two three (v :: rest) = v :: rest := by
    intro rest
    match rest with
    | [] => simp [trimWith, h1]
    | [a] => simp [trimWith, h1, h2]
    | a :: b :: rest => simp [trimWith, h1, h2, h3]
  induction t using trimWith.induct two three with
  | case1 a b c t ha ih | case5 a b ha ih => simpa [trimWith, ha] using ih
  | case2 a b c t ha hab ih => simpa [trimWith, ha, hab] using ih
  | case3 a b c t ha hab habc ih => simpa [trimWith, ha, hab, habc] using ih
  | case4 a b c t ha hab habc => simp [trimWith, ha, hab, habc]
  | case6 a b ha hab => simp [trimWith, ha, hab, hstop]
  | case7 a b ha hab => simp [trimWith, ha, hab, h3]
  | case8 a ha =>
    cases rest with
    | nil => simpa [trimWith, ha] using hstop []
    | cons b rest => simpa [trimWith, ha] using hstop (b :: rest)
  | case9 a ha =>
    cases rest with
    | nil => simp [trimWith, ha, h2]
    | cons b rest => simp [trimWith, ha, h2, h3]
  | case10 => simpa [trimWith] using hstop rest

theorem space2_high {a b : UInt8} (h : space2 a b = true) : 126 < a ∧ 126 < b := by
  simp only [space2, Bool.and_eq_true, Bool.or_eq_true, beq_iff_eq] at h
  rcases h with ⟨rfl, rfl | rfl⟩ <;> decide

theorem space3_high {a b c : UInt8} (h : space3 a b c = true) : 126 < a ∧ 126 < b ∧ 126 < c := by
  simp only [space3, Bool.and_eq_true, Bool.or_eq_true, beq_iff_eq, decide_eq_true_eq] at h
  rcases h with ((⟨⟨rfl, rfl⟩, rfl⟩ | ⟨⟨rfl, rfl⟩, h⟩) | ⟨⟨rfl, rfl⟩, rfl⟩) | ⟨⟨rfl, rfl⟩, rfl⟩
  · decide
  · refine ⟨by decide, by decide, ?_⟩
    rcases h with ((h | rfl) | rfl) | rfl
    · exact UInt8.lt_of_lt_of_le (by decide) h.1
    · decide
    · decide
    · decide
  · decide
  · decide

section Visible

variable {v : UInt8} (hv : visible v = true)
include hv

theorem not_high_of_visible : ¬ 126 < v := by
  simp only [visible, Bool.and_eq_true, decide_eq_true_eq] at hv
  exact UInt8.not_lt.mpr hv.2

theorem space1_of_visible : space1 v = false := by
  simp only [visible, Bool.and_eq_true, decide_eq_true_eq] at hv
  simp only [space1, Bool.or_eq_false_iff, Bool.and_eq_false_iff, decide_eq_false_iff_not,
    beq_eq_false_iff_ne]
  constructor
  · right
    exact UInt8.not_le.mpr (UInt8.lt_of_lt_of_le (by decide) hv.1)
  · rintro rfl
    exact absurd hv.1 (by decide)

theorem space2_of_visible (a : UInt8) : space2 v a = false ∧ space2 a v = false :=
  ⟨Bool.eq_false_iff.mpr fun h => not_high_of_visible hv (space2_high h).1,
    Bool.eq_false_iff.mpr fun h => not_high_of_visible hv (space2_high h).2⟩

theorem space3_of_visible (a b : UInt8) :
    space3 v a b = false ∧ space3 a v b = false ∧ space3 a b v = false :=
  ⟨Bool.eq_false_iff.mpr fun h => not_high_of_visible hv (space3_high h).1,
    Bool.eq_false_iff.mpr fun h => not_high_of_visible hv (space3_high h).2.1,
    Bool.eq_false_iff.mpr fun h => not_high_of_visible hv (space3_high h).2.2⟩

theorem trimStart_append_cons (t rest : Octets) :
    trimStart (t ++ v :: rest) = trimStart t ++ v :: rest :=
  trimWith_append_cons (space1_of_visible hv) (space2_of_visible hv) (space3_of_visible hv) t rest

theorem trimEnd_append_cons (t rest : Octets) :
    trimEnd (t ++ v :: rest) = t ++ v :: trimEnd rest := by
  have h2 := fun a => (space2_of_visible hv a).symm
  have h3 := fun a b => (space3_of_visible hv b a).2.2
  simp only [trimEnd, List.reverse_append, List.reverse_cons, List.append_assoc,
    List.singleton_append]
  rw [trimWith_append_cons (space1_of_visible hv) h2
    fun a b => ⟨h3 a b, (space3_of_visible hv b a).2.1, (space3_of_visible hv b a).1⟩]
  simp

end Visible

theorem trim_of_visible {t : Octets} (h : ∀ b ∈ t, visible b = true) : trim t = t := by
  rcases List.eq_nil_or_concat' t with rfl | ⟨init, x, rfl⟩
  · rfl
  have hstart : trimStart (init ++ [x]) = init ++ [x] := by
    cases init with
    | nil => exact trimStart_append_cons (h x (by simp)) [] []
    | cons v rest => exact trimStart_append_cons (h v (by simp)) [] (rest ++ [x])
  rw [trim, hstart, trimEnd_append_cons (h x (by simp))]
  rfl

def decimal (n : Nat) : Octets := (Nat.toDigits 10 n).map fun c => UInt8.ofNat c.toNat

def digit (b : UInt8) : Bool := 48 ≤ b && b ≤ 57

def readDecimal (t : Octets) : Nat := t.foldl (fun n b => 10 * n + (b.toNat - 48)) 0

theorem decimal_ne_nil (n : Nat) : decimal n ≠ [] := by
  simp [decimal, Nat.toDigits_ne_nil]

theorem toNat_of_isDigit {c : Char} (h : c.isDigit = true) :
    (UInt8.ofNat c.toNat).toNat = c.toNat ∧ 48 ≤ c.toNat ∧ c.toNat ≤ 57 := by
  have hrange : 48 ≤ c.toNat ∧ c.toNat ≤ 57 := by
    simp only [Char.isDigit, Bool.and_eq_true, decide_eq_true_eq] at h
    exact ⟨UInt32.le_iff_toNat_le.mp h.1, UInt32.le_iff_toNat_le.mp h.2⟩
  refine ⟨?_, hrange⟩
  rw [UInt8.toNat_ofNat', Nat.mod_eq_of_lt (by omega)]

theorem digit_of_mem_decimal {n : Nat} {b : UInt8} (h : b ∈ decimal n) : digit b = true := by
  obtain ⟨c, hc, rfl⟩ := List.mem_map.mp h
  obtain ⟨hnat, hlo, hhi⟩ :=
    toNat_of_isDigit (Nat.isDigit_of_mem_toDigits (by decide) (by decide) hc)
  simp only [digit, Bool.and_eq_true, decide_eq_true_eq, UInt8.le_iff_toNat_le, hnat]
  exact ⟨hlo, hhi⟩

theorem readDecimal_decimal (n : Nat) : readDecimal (decimal n) = n := by
  have hfold : ∀ (cs : List Char) (start : Nat), (∀ c ∈ cs, c.isDigit = true) →
      (cs.map fun c => UInt8.ofNat c.toNat).foldl (fun n b => 10 * n + (b.toNat - 48)) start =
        Nat.ofDigitChars 10 cs start := by
    intro cs
    induction cs with
    | nil => simp
    | cons c rest ih =>
      intro start hcs
      have hc := (toNat_of_isDigit (hcs c List.mem_cons_self)).1
      rw [List.map_cons, List.foldl_cons, ih _ fun d hd => hcs d (List.mem_cons_of_mem c hd),
        Nat.ofDigitChars_cons, hc]
      rfl
  rw [readDecimal, decimal,
    hfold _ _ fun c hc => Nat.isDigit_of_mem_toDigits (by decide) (by decide) hc]
  exact Nat.ofDigitChars_ten_toDigits

theorem decimal_injective : Function.Injective decimal :=
  Function.LeftInverse.injective readDecimal_decimal

def hexUpper (n : Nat) : UInt8 := UInt8.ofNat (if n < 10 then 48 + n else 55 + n)

def percentEncode (encodes : UInt8 → Bool) (t : Octets) : Octets :=
  t.flatMap fun b =>
    if encodes b then [37, hexUpper (b.toNat / 16), hexUpper (b.toNat % 16)] else [b]

def hexDigit (b : UInt8) : Option Nat :=
  if digit b then some (b.toNat - 48)
  else if 97 ≤ b ∧ b ≤ 102 then some (b.toNat - 87)
  else if 65 ≤ b ∧ b ≤ 70 then some (b.toNat - 55)
  else none

/-- Percent decoding, given what reads the two characters after the sign. -/
def percentDecode (pair : UInt8 → UInt8 → Option UInt8) : Octets → Octets
  | a :: b :: c :: rest =>
    if a = 37 then
      match pair b c with
      | some x => x :: percentDecode pair rest
      | none => a :: percentDecode pair (b :: c :: rest)
    else a :: percentDecode pair (b :: c :: rest)
  | t => t

def hexPair (b c : UInt8) : Option UInt8 :=
  match hexDigit b, hexDigit c with
  | some high, some low => some (UInt8.ofNat (16 * high + low))
  | _, _ => none

theorem length_toList_loop (bytes : ByteArray) (i : Nat) (seen : List UInt8) :
    (ByteArray.toList.loop bytes i seen).length = seen.length + (bytes.size - i) := by
  induction i, seen using ByteArray.toList.loop.induct bytes with
  | case1 i seen hlt ih =>
    rw [ByteArray.toList.loop, if_pos hlt, ih, List.length_cons]
    omega
  | case2 i seen hge =>
    rw [ByteArray.toList.loop, if_neg hge, List.length_reverse]
    omega

theorem length_toUTF8 (text : String) : text.toUTF8.toList.length = text.utf8ByteSize := by
  have h := length_toList_loop text.toUTF8 0 []
  rw [List.length_nil, Nat.zero_add, Nat.sub_zero] at h
  exact h

theorem utf8ByteSize_le (chars : List Char) :
    (String.ofList chars).utf8ByteSize ≤ 4 * chars.length := by
  induction chars with
  | nil => simp
  | cons c rest ih =>
    rw [String.ofList_cons, String.utf8ByteSize_append, String.utf8ByteSize_singleton,
      List.length_cons]
    have := c.utf8Size_le_four
    omega

section Utf8

variable {p q t : Octets} {a : UInt8}

/-- The octets of some characters. -/
def IsUtf8 (t : Octets) : Prop := ∃ chars : List Char, chars.flatMap String.utf8EncodeChar = t

theorem isUtf8_iff : IsUtf8 t ↔ t.toByteArray.validateUTF8 = true := by
  rw [ByteArray.validateUTF8_eq_true_iff]
  constructor
  · rintro ⟨chars, rfl⟩
    exact ⟨chars, rfl⟩
  · rintro ⟨chars, heq⟩
    refine ⟨chars, ?_⟩
    have hdata := congrArg (fun bytes => bytes.data.toList) heq
    simpa [List.utf8Encode] using hdata.symm

theorem isUtf8_string (s : String) : IsUtf8 s.toUTF8.data.toList :=
  ⟨s.toList, by simp [String.toUTF8, List.utf8Encode, ← String.utf8Encode_toList]⟩

theorem IsUtf8.append (hp : IsUtf8 p) (hq : IsUtf8 q) : IsUtf8 (p ++ q) := by
  obtain ⟨cs, rfl⟩ := hp
  obtain ⟨ds, rfl⟩ := hq
  exact ⟨cs ++ ds, List.flatMap_append⟩

theorem utf8_of_ascii (h : a < 128) : String.utf8EncodeChar (Char.ofNat a.toNat) = [a] := by
  have hall : ∀ n < 128, String.utf8EncodeChar (Char.ofNat n) = [UInt8.ofNat n] := by
    decide +kernel
  have ha := hall a.toNat (UInt8.lt_iff_toNat_lt.mp h)
  rwa [UInt8.ofNat_toNat] at ha

theorem IsUtf8.cons (h : a < 128) (hq : IsUtf8 q) : IsUtf8 (a :: q) := by
  obtain ⟨ds, rfl⟩ := hq
  exact ⟨Char.ofNat a.toNat :: ds, by rw [List.flatMap_cons, utf8_of_ascii h]; rfl⟩

theorem isUtf8_of_ascii (h : ∀ b ∈ t, b < 128) : IsUtf8 t := by
  induction t with
  | nil => exact ⟨[], rfl⟩
  | cons b rest ih =>
    exact .cons (h b List.mem_cons_self) (ih fun c hc => h c (List.mem_cons_of_mem b hc))

/-- An octet below 128 is a character of its own. -/
theorem utf8EncodeChar_of_ascii_mem {c : Char} (ha : a < 128) (h : a ∈ String.utf8EncodeChar c) :
    String.utf8EncodeChar c = [a] := by
  have hhigh : ∀ n, 128 ≤ n → n < 256 → a ≠ UInt8.ofNat n := by
    rintro n hn hlt rfl
    rw [UInt8.lt_iff_toNat_lt, UInt8.toNat_ofNat_of_lt' hlt] at ha
    exact absurd ha (Nat.not_lt.mpr hn)
  unfold String.utf8EncodeChar at h ⊢
  simp only at h ⊢
  split_ifs at h ⊢
  · rw [List.mem_singleton.mp h]
  all_goals
    simp only [List.mem_cons, List.not_mem_nil, or_false] at h
    exfalso
  · rcases h with h | h <;> exact hhigh _ (by omega) (by omega) h
  · rcases h with h | h | h <;> exact hhigh _ (by omega) (by omega) h
  · rcases h with h | h | h | h <;> exact hhigh _ (by omega) (by omega) h

/-- The induction is on the characters: the octet is either among those of the first one, and then
all of them, or it comes later. -/
theorem IsUtf8.split (ha : a < 128) (h : IsUtf8 (p ++ a :: q)) : IsUtf8 p ∧ IsUtf8 q := by
  obtain ⟨chars, heq⟩ := h
  induction chars generalizing p with
  | nil => simp at heq
  | cons c rest ih =>
    rw [List.flatMap_cons, List.append_eq_append_iff] at heq
    rcases heq with ⟨later, rfl, hrest⟩ | ⟨part, hfirst, hcut⟩
    · obtain ⟨hp, hq⟩ := ih hrest
      exact ⟨.append ⟨[c], by simp⟩ hp, hq⟩
    · cases part with
      | nil =>
        obtain ⟨-, hq⟩ := @ih [] hcut.symm
        exact ⟨⟨[c], by simpa using hfirst⟩, hq⟩
      | cons b part =>
        obtain ⟨rfl, rfl⟩ := List.cons.inj hcut
        have hmem : a ∈ String.utf8EncodeChar c := by simp [hfirst]
        have hlength := congrArg List.length hfirst
        simp only [utf8EncodeChar_of_ascii_mem ha hmem, List.length_append, List.length_cons,
          List.length_nil] at hlength
        have hp : p = [] := List.eq_nil_of_length_eq_zero (by omega)
        have hpart : part = [] := List.eq_nil_of_length_eq_zero (by omega)
        subst hp hpart
        exact ⟨⟨[], rfl⟩, rest, rfl⟩

end Utf8
section LeadingBits

variable {w : Nat} {a b c : BitVec w} {m n : Nat}

def leadingMask (w n : Nat) : BitVec w := BitVec.allOnes w <<< (w - n)

def Agree (n : Nat) (a b : BitVec w) : Prop := a >>> (w - n) = b >>> (w - n)

theorem Agree.refl (n : Nat) (a : BitVec w) : Agree n a a := rfl

theorem Agree.symm (h : Agree n a b) : Agree n b a := Eq.symm h

theorem Agree.trans (h : Agree n a b) (h' : Agree n b c) : Agree n a c := Eq.trans h h'

theorem Agree.mono (hmn : m ≤ n) (h : Agree n a b) : Agree m a b := by
  unfold Agree at h ⊢
  have hsplit : w - m = (w - n) + ((w - m) - (w - n)) := by omega
  rw [hsplit, BitVec.shiftRight_add, BitVec.shiftRight_add, h]

theorem and_leadingMask_eq_iff : a &&& leadingMask w n = b &&& leadingMask w n ↔ Agree n a b := by
  unfold leadingMask Agree
  constructor
  · intro h
    ext i hi
    have hbit := congrArg (fun x => x.getLsbD (w - n + i)) h
    simp only [BitVec.getElem_ushiftRight]
    by_cases hin : w - n + i < w
    · simpa [hin, show ¬w - n + i < w - n by omega, show i < w by omega] using hbit
    · rw [BitVec.getLsbD_of_ge _ _ (by omega), BitVec.getLsbD_of_ge _ _ (by omega)]
  · intro h
    ext i hi
    simp only [BitVec.getElem_and, BitVec.getElem_shiftLeft, BitVec.getElem_allOnes]
    by_cases hlow : i < w - n
    · simp [hlow]
    · have hbit := congrArg (fun x => x.getLsbD (i - (w - n))) h
      simp only [BitVec.getLsbD_ushiftRight] at hbit
      rw [Nat.add_sub_cancel' (by omega : w - n ≤ i)] at hbit
      simpa [hlow, BitVec.getLsbD_eq_getElem hi] using hbit

end LeadingBits

end EgressDns.Lib
