import EgressDns.Datasets.Zones
import Mathlib.Tactic.Ring

/-!
# Base64 for the proxy credentials

`base64` of `upstream/egress.rs`, and the decoder that RFC 4648 describes: quanta of four letters,
where only the last one may be padded and the bits that the padding stands for are zero.
-/

namespace EgressDns

namespace Base64

def alphabet : Text := ascii "ABCDEFGHIJKLMNOPQRSTUVWXYZabcdefghijklmnopqrstuvwxyz0123456789+/"

def pack (a b c : UInt8) : UInt32 := a.toUInt32 <<< 16 ||| b.toUInt32 <<< 8 ||| c.toUInt32

def letter (n : UInt32) (shift : Nat) : UInt8 := alphabet.getD (n.toNat >>> shift &&& 63) 0

end Base64

open Base64

/-- Octets that the last chunk does not have count as zero, and their letters are padding. -/
def base64 : List UInt8 → Text
  | a :: b :: c :: rest =>
    let n := pack a b c
    letter n 18 :: letter n 12 :: letter n 6 :: letter n 0 :: base64 rest
  | [a, b] =>
    let n := pack a b 0
    [letter n 18, letter n 12, letter n 6, 61]
  | [a] =>
    let n := pack a 0 0
    [letter n 18, letter n 12, 61, 61]
  | [] => []

namespace Base64

/-- What a letter stands for in RFC 4648. -/
def value (c : UInt8) : Option Nat :=
  if 65 ≤ c ∧ c ≤ 90 then some (c.toNat - 65)
  else if 97 ≤ c ∧ c ≤ 122 then some (c.toNat - 71)
  else if 48 ≤ c ∧ c ≤ 57 then some (c.toNat + 4)
  else if c = 43 then some 62
  else if c = 47 then some 63
  else none

def quantum (a b c d : UInt8) : Option (List UInt8) := do
  let n := 262144 * (← value a) + 4096 * (← value b) + 64 * (← value c) + (← value d)
  return [n / 65536, n / 256 % 256, n % 256].map UInt8.ofNat

/-- The octets of a padded quantum, of which the last ones have to be zero. -/
def padded (count : Nat) (octets : List UInt8) : Option (List UInt8) :=
  if (octets.drop count).all (· == 0) then some (octets.take count) else none

def decode : Text → Option (List UInt8)
  | [] => some []
  | a :: b :: c :: d :: rest =>
    if c = 61 ∧ d = 61 ∧ rest = [] then (quantum a b 65 65).bind (padded 1)
    else if d = 61 ∧ rest = [] then (quantum a b c 65).bind (padded 2)
    else (quantum a b c d).bind fun octets => (decode rest).map (octets ++ ·)
  | _ => none

variable (a b c : UInt8)

theorem toNat_pack : (pack a b c).toNat = a.toNat * 65536 + b.toNat * 256 + c.toNat := by
  have ha := a.toNat_lt
  have hb := b.toNat_lt
  have hc := c.toNat_lt
  have hlow : 2 ^ 8 * b.toNat + c.toNat = 2 ^ 8 * b.toNat ||| c.toNat :=
    Nat.two_pow_add_eq_or_of_lt hc _
  have hhigh : 2 ^ 16 * a.toNat + (2 ^ 8 * b.toNat + c.toNat) =
      2 ^ 16 * a.toNat ||| (2 ^ 8 * b.toNat + c.toNat) :=
    Nat.two_pow_add_eq_or_of_lt (by omega) _
  have ha' : a.toNat <<< 16 % 2 ^ 32 = 2 ^ 16 * a.toNat := by
    rw [Nat.shiftLeft_eq, Nat.mod_eq_of_lt (by omega), Nat.mul_comm]
  have hb' : b.toNat <<< 8 % 2 ^ 32 = 2 ^ 8 * b.toNat := by
    rw [Nat.shiftLeft_eq, Nat.mod_eq_of_lt (by omega), Nat.mul_comm]
  simp only [pack, UInt32.toNat_or, UInt32.toNat_shiftLeft, UInt8.toNat_toUInt32]
  change a.toNat <<< 16 % 2 ^ 32 ||| b.toNat <<< 8 % 2 ^ 32 ||| c.toNat = _
  rw [ha', hb', Nat.or_assoc, ← hlow, ← hhigh]
  ring

theorem value_alphabet : ∀ i < 64, value (alphabet.getD i 0) = some i := by decide +kernel

theorem mem_alphabet : ∀ i < 64, alphabet.getD i 0 ∈ alphabet := by decide +kernel

variable (n : UInt32) (shift : Nat)

theorem index_eq : n.toNat >>> shift &&& 63 = n.toNat / 2 ^ shift % 64 := by
  rw [Nat.shiftRight_eq_div_pow, Nat.and_two_pow_sub_one_eq_mod _ 6]

theorem letter_mem : letter n shift ∈ alphabet := by
  rw [letter, index_eq]
  exact mem_alphabet _ (Nat.mod_lt _ (by decide))

theorem value_letter : value (letter n shift) = some (n.toNat / 2 ^ shift % 64) := by
  rw [letter, index_eq]
  exact value_alphabet _ (Nat.mod_lt _ (by decide))

theorem quantum_letters : quantum (letter (pack a b c) 18) (letter (pack a b c) 12)
    (letter (pack a b c) 6) (letter (pack a b c) 0) = some [a, b, c] := by
  have ha := a.toNat_lt
  have hb := b.toNat_lt
  have hc := c.toNat_lt
  have hsum : ∀ n < 2 ^ 24, 262144 * (n / 2 ^ 18 % 64) + 4096 * (n / 2 ^ 12 % 64) +
      64 * (n / 2 ^ 6 % 64) + n / 2 ^ 0 % 64 = n := by omega
  have hfirst : (a.toNat * 65536 + b.toNat * 256 + c.toNat) / 65536 = a.toNat := by omega
  have hsecond : (a.toNat * 65536 + b.toNat * 256 + c.toNat) / 256 % 256 = b.toNat := by omega
  have hthird : (a.toNat * 65536 + b.toNat * 256 + c.toNat) % 256 = c.toNat := by omega
  simp only [quantum, value_letter, Option.bind_eq_bind, Option.bind_some, toNat_pack]
  rw [hsum _ (by omega), hfirst, hsecond, hthird]
  simp

variable {n shift} in
theorem letter_zero (h : n.toNat / 2 ^ shift % 64 = 0) : letter n shift = 65 := by
  rw [letter, index_eq, h]
  rfl

theorem letter_ne_padding : letter n shift ≠ 61 := by
  intro h
  have hvalue := value_letter n shift
  rw [h] at hvalue
  cases hvalue

theorem decode_base64 (input : List UInt8) : decode (base64 input) = some input := by
  fun_induction base64 input with
  | case1 a b c rest n ih =>
    have hlast : letter n 0 ≠ 61 := letter_ne_padding n 0
    rw [decode, if_neg fun h => hlast h.2.1, if_neg fun h => hlast h.1, quantum_letters, ih]
    rfl
  | case2 a b n =>
    have hnat : n.toNat = a.toNat * 65536 + b.toNat * 256 + 0 := toNat_pack a b 0
    have hlast : letter n 0 = 65 := by
      apply letter_zero
      omega
    rw [decode, if_neg fun h => letter_ne_padding n 6 h.1, if_pos ⟨rfl, rfl⟩, ← hlast,
      quantum_letters]
    simp [padded]
  | case3 a n =>
    have hnat : n.toNat = a.toNat * 65536 + 0 * 256 + 0 := toNat_pack a 0 0
    have hthird : letter n 6 = 65 := by
      apply letter_zero
      omega
    have hlast : letter n 0 = 65 := by
      apply letter_zero
      omega
    have hquantum := quantum_letters a 0 0
    rw [hthird, hlast] at hquantum
    rw [decode, if_pos ⟨rfl, rfl, rfl⟩, hquantum]
    simp [padded]
  | case4 => rfl

end Base64

/-- The encoding has four letters for every three octets begun, is padded at its end only, and RFC
4648 reads it back. -/
theorem base64_exact :
    (∀ input, (base64 input).length = 4 * ((input.length + 2) / 3) ∧
      (∃ letters padding, base64 input = letters ++ List.replicate padding 61 ∧ padding ≤ 2 ∧
        ∀ c ∈ letters, c ∈ alphabet) ∧
      decode (base64 input) = some input) ∧
    Function.Injective base64 := by
  refine ⟨fun input => ⟨?_, ?_, decode_base64 input⟩, ?_⟩
  · fun_induction base64 input with
    | case1 a b c rest n ih =>
      simp only [List.length_cons, ih]
      omega
    | case2 | case3 | case4 => simp
  · fun_induction base64 input with
    | case1 a b c rest n ih =>
      obtain ⟨letters, padding, heq, hfew, hmem⟩ := ih
      refine ⟨[letter n 18, letter n 12, letter n 6, letter n 0] ++ letters, padding, ?_, hfew, ?_⟩
      · rw [heq]
        rfl
      · intro c hc
        rcases List.mem_append.mp hc with hc | hc
        · simp only [List.mem_cons, List.not_mem_nil, or_false] at hc
          rcases hc with rfl | rfl | rfl | rfl <;> exact letter_mem _ _
        · exact hmem c hc
    | case2 a b n =>
      refine ⟨[letter n 18, letter n 12, letter n 6], 1, rfl, by decide, ?_⟩
      simp [letter_mem]
    | case3 a n =>
      refine ⟨[letter n 18, letter n 12], 2, rfl, by decide, ?_⟩
      simp [letter_mem]
    | case4 => exact ⟨[], 0, rfl, by decide, List.forall_mem_nil _⟩
  · intro input other h
    have hdecode := decode_base64 input
    rw [h, decode_base64 other] at hdecode
    exact (Option.some.inj hdecode).symm

end EgressDns
