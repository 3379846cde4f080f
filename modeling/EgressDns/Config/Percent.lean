import EgressDns.Config.Proxy

/-!
# Percent signs in credentials

`percent_decode` of `config/proxy.rs` next to the exact grammar: a percent sign and two hexadecimal
digits, which is `Lib.percentDecode Lib.hexPair`.
-/

namespace EgressDns

open Lib (IsUtf8)

/-- Somewhere in the text a percent sign is followed by a plus sign and a hexadecimal digit. -/
def HasPlusEscape (t : Text) : Prop := ∃ h, (Lib.hexDigit h).isSome ∧ [37, 43, h] <:+: t

section Decoding

variable {pair : UInt8 → UInt8 → Option UInt8} {a b c x : UInt8} {rest t : Text}

theorem percentDecode_pair (h : pair b c = some x) :
    Lib.percentDecode pair (37 :: b :: c :: rest) = x :: Lib.percentDecode pair rest := by
  rw [Lib.percentDecode, if_pos rfl, h]

theorem percentDecode_of_none (h : pair b c = none) :
    Lib.percentDecode pair (37 :: b :: c :: rest) =
      37 :: Lib.percentDecode pair (b :: c :: rest) := by
  rw [Lib.percentDecode, if_pos rfl, h]

theorem percentDecode_of_ne (h : a ≠ 37) :
    Lib.percentDecode pair (a :: rest) = a :: Lib.percentDecode pair rest := by
  match rest with
  | [] | [b] => rfl
  | b :: c :: rest => rw [Lib.percentDecode, if_neg h]

theorem percentDecode_short (pair : UInt8 → UInt8 → Option UInt8)
    (h : ∀ a b c rest, t = a :: b :: c :: rest → False) : Lib.percentDecode pair t = t := by
  match t, h with
  | [], _ | [a], _ | [a, b], _ => rfl
  | a :: b :: c :: rest, h => exact (h a b c rest rfl).elim

theorem hexDigit_ne (h : (Lib.hexDigit b).isSome) : b ≠ 37 ∧ b ≠ 43 := by
  constructor <;> rintro rfl <;> exact absurd h (by decide)

theorem isSome_of_hexPair (h : Lib.hexPair b c = some x) :
    (Lib.hexDigit b).isSome ∧ (Lib.hexDigit c).isSome := by
  unfold Lib.hexPair at h
  split at h
  · rename_i hb hc
    exact ⟨by rw [hb]; rfl, by rw [hc]; rfl⟩
  · cases h

theorem radixPair_of_hexPair (h : Lib.hexPair b c = some x) : radixPair b c = some x := by
  rw [radixPair, if_neg (hexDigit_ne (isSome_of_hexPair h).1).2, h]

theorem hasPlusEscape_cons : HasPlusEscape (a :: t) ↔
    (a = 37 ∧ ∃ h rest, (Lib.hexDigit h).isSome ∧ t = 43 :: h :: rest) ∨ HasPlusEscape t := by
  constructor
  · rintro ⟨h, hh, hin⟩
    rcases List.infix_cons_iff.mp hin with ⟨rest, hrest⟩ | htail
    · cases hrest
      exact .inl ⟨rfl, h, rest, hh, rfl⟩
    · exact .inr ⟨h, hh, htail⟩
  · rintro (⟨rfl, h, rest, hh, rfl⟩ | ⟨h, hh, htail⟩)
    · exact ⟨h, hh, List.infix_cons_iff.mpr (.inl ⟨rest, rfl⟩)⟩
    · exact ⟨h, hh, List.infix_cons_iff.mpr (.inr htail)⟩

theorem hexDigit_lt {n : Nat} (h : Lib.hexDigit c = some n) : c < 128 ∧ n < 16 := by
  simp only [Lib.hexDigit, Lib.digit, Bool.and_eq_true, decide_eq_true_eq, UInt8.le_iff_toNat_le,
    UInt8.lt_iff_toNat_lt, UInt8.reduceToNat] at h ⊢
  split_ifs at h with hdigit hlower hupper
  all_goals
    cases h
    omega

theorem radixPair_cases (h : radixPair b c = some x) : Lib.hexPair b c = some x ∨
    (b = 43 ∧ (Lib.hexDigit c).isSome ∧ c < 128 ∧ x < 128) := by
  unfold radixPair at h
  split at h
  · rename_i hb
    obtain ⟨n, hn, rfl⟩ := Option.map_eq_some_iff.mp h
    obtain ⟨hc, hlt⟩ := hexDigit_lt hn
    have hx : UInt8.ofNat n < 128 := by
      rw [UInt8.lt_iff_toNat_lt, UInt8.toNat_ofNat_of_lt' (Nat.lt_trans hlt (by decide))]
      exact Nat.lt_trans hlt (by decide)
    exact .inr ⟨hb, by rw [hn]; rfl, hc, hx⟩
  · exact .inl h

/-- The second text is the first with one character for some of its plus escapes. -/
inductive Folded : Text → Text → Prop
  | refl (t : Text) : Folded t t
  | cons {t u : Text} (a : UInt8) : Folded t u → Folded (a :: t) (a :: u)
  | plus {t u : Text} {c x : UInt8} : c < 128 → x < 128 → Folded t u →
      Folded (37 :: 43 :: c :: t) (x :: u)

theorem Folded.length_le {u : Text} (h : Folded t u) : u.length ≤ t.length := by
  induction h with
  | refl t => exact Nat.le_refl _
  | cons a _ ih => exact Nat.succ_le_succ ih
  | plus _ _ _ ih =>
    simp only [List.length_cons]
    omega

theorem Folded.isUtf8 {u : Text} (h : Folded t u) (before : Text) (hutf8 : IsUtf8 (before ++ t)) :
    IsUtf8 (before ++ u) := by
  induction h generalizing before with
  | refl t => exact hutf8
  | cons a _ ih =>
    have hnext := ih (before ++ [a]) (by simpa using hutf8)
    simpa using hnext
  | plus hc hx _ ih =>
    -- The three characters of the escape stand alone, and so does the one that replaces them.
    obtain ⟨hbefore, hrest⟩ := hutf8.split (by decide)
    obtain ⟨-, hdigit⟩ := IsUtf8.split (p := []) (by decide) hrest
    obtain ⟨-, hlater⟩ := IsUtf8.split (p := []) hc hdigit
    exact hbefore.append (.cons hx (ih [] hlater))

theorem percentDecode_plus (h : (Lib.hexDigit c).isSome) :
    Lib.percentDecode Lib.hexPair (37 :: 43 :: c :: rest) =
      37 :: 43 :: c :: Lib.percentDecode Lib.hexPair rest := by
  rw [percentDecode_of_none rfl, percentDecode_of_ne (by decide),
    percentDecode_of_ne (hexDigit_ne h).1]

/-- The induction follows the positions that the code reaches: an escape is two digits, and so no
percent sign is ever passed over. -/
theorem decode_spec (t : Text) :
    Folded (Lib.percentDecode Lib.hexPair t) (Lib.percentDecode radixPair t) ∧
    (Lib.percentDecode radixPair t = Lib.percentDecode Lib.hexPair t ↔ ¬ HasPlusEscape t) := by
  induction t using Lib.percentDecode.induct radixPair with
  | case1 b c rest x hpair ih =>
    rw [percentDecode_pair hpair]
    rcases radixPair_cases hpair with hexact | ⟨rfl, hdigit, hc, hx⟩
    · obtain ⟨hb, hc⟩ := isSome_of_hexPair hexact
      rw [percentDecode_pair hexact, hasPlusEscape_cons, hasPlusEscape_cons, hasPlusEscape_cons]
      refine ⟨.cons _ ih.1, ?_⟩
      simp only [List.cons.injEq, true_and, ih.2, (hexDigit_ne hb).1, (hexDigit_ne hb).2,
        (hexDigit_ne hc).1, false_and, and_false, exists_false, false_or]
    · rw [percentDecode_plus hdigit]
      refine ⟨.plus hc hx ih.1, iff_of_false ?_ ?_⟩
      · intro heq
        have hlength := congrArg List.length heq
        have hle := ih.1.length_le
        simp only [List.length_cons] at hlength
        omega
      · exact fun hno => hno (hasPlusEscape_cons.mpr (.inl ⟨rfl, c, rest, hdigit, rfl⟩))
  | case2 b c rest hpair ih =>
    have hexact : Lib.hexPair b c = none := by
      cases hx : Lib.hexPair b c with
      | none => rfl
      | some x => cases hpair.symm.trans (radixPair_of_hexPair hx)
    rw [percentDecode_of_none hpair, percentDecode_of_none hexact, hasPlusEscape_cons]
    refine ⟨.cons _ ih.1, ?_⟩
    rw [List.cons.injEq, and_iff_right rfl, ih.2, or_iff_right]
    rintro ⟨-, h, rest', hh, heq⟩
    cases heq
    rw [radixPair, if_pos rfl] at hpair
    obtain ⟨n, hn⟩ := Option.isSome_iff_exists.mp hh
    rw [hn] at hpair
    cases hpair
  | case3 a b c rest ha ih =>
    rw [percentDecode_of_ne ha, percentDecode_of_ne ha, hasPlusEscape_cons]
    refine ⟨.cons _ ih.1, ?_⟩
    rw [List.cons.injEq, and_iff_right rfl, ih.2, or_iff_right fun h => ha h.1]
  | case4 t hshort =>
    rw [percentDecode_short _ hshort, percentDecode_short _ hshort]
    refine ⟨.refl t, iff_of_true rfl ?_⟩
    rintro ⟨h, -, hin⟩
    match t, hshort, hin.length_le with
    | a :: b :: c :: rest, hshort, _ => exact absurd rfl (hshort a b c rest)

end Decoding

theorem hexDigit_hexUpper : ∀ n < 16, Lib.hexDigit (Lib.hexUpper n) = some n := by
  decide

theorem hexPair_hexUpper (b : UInt8) :
    Lib.hexPair (Lib.hexUpper (b.toNat / 16)) (Lib.hexUpper (b.toNat % 16)) = some b := by
  have hb := b.toNat_lt
  rw [Lib.hexPair, hexDigit_hexUpper _ (by omega), hexDigit_hexUpper _ (by omega)]
  simp only [Nat.div_add_mod, UInt8.ofNat_toNat]

theorem decode_percentEncode {encodes : UInt8 → Bool} (hsign : encodes 37 = true) (t : Text) :
    Lib.percentDecode radixPair (Lib.percentEncode encodes t) = t := by
  induction t with
  | nil => rfl
  | cons b t ih =>
    unfold Lib.percentEncode at ih ⊢
    rw [List.flatMap_cons]
    split
    · rw [List.cons_append, List.cons_append, List.cons_append, List.nil_append,
        percentDecode_pair (radixPair_of_hexPair (hexPair_hexUpper b)), ih]
    · rename_i hplain
      have hne : b ≠ 37 := by
        rintro rfl
        exact hplain hsign
      rw [List.cons_append, List.nil_append, percentDecode_of_ne hne, ih]

/-- The decoding is the exact one just if the text has no plus escape and the exact one gives a
string. Encoded credentials always come back. -/
theorem percent_decode_exact_iff (lib : ConfigLib) (input : Text) :
    (percentDecode lib input = Lib.percentDecode Lib.hexPair input ↔
      ¬ HasPlusEscape input ∧ IsUtf8 (Lib.percentDecode Lib.hexPair input)) ∧
    ∀ (encodes : UInt8 → Bool) (s : String), encodes 37 = true →
      percentDecode lib (Lib.percentEncode encodes s.toUTF8.data.toList) =
        s.toUTF8.data.toList := by
  refine ⟨⟨?_, ?_⟩, ?_⟩
  · intro heq
    have hutf8 : IsUtf8 (Lib.percentDecode Lib.hexPair input) := heq ▸ lib.utf8_lossy _
    have hradix : IsUtf8 (Lib.percentDecode radixPair input) :=
      (decode_spec input).1.isUtf8 [] hutf8
    rw [percentDecode, lib.lossy_utf8 hradix] at heq
    exact ⟨(decode_spec input).2.mp heq, hutf8⟩
  · rintro ⟨hno, hutf8⟩
    rw [percentDecode, (decode_spec input).2.mpr hno, lib.lossy_utf8 hutf8]
  · intro encodes s hsign
    rw [percentDecode, decode_percentEncode hsign, lib.lossy_utf8 (Lib.isUtf8_string s)]

/-- `%+f` is no escape, and is taken for the octet 15. -/
theorem plus_escape_decoded :
    percentDecode .sample (ascii "%+f") = [15] ∧
    Lib.percentDecode Lib.hexPair (ascii "%+f") = ascii "%+f" := by
  decide

end EgressDns
