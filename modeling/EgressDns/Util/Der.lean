import Mathlib.Data.Nat.Digits.Lemmas
import Mathlib.Data.UInt

/-!
# The public key of a certificate

The walker of `util/der.rs` as far as `spki_sha256`, and certificates as RFC 5280 encodes them. The
digest is a parameter.
-/

namespace EgressDns.Der

structure Tlv where
  tag : UInt8
  value : List UInt8
  raw : List UInt8

def readLength : List UInt8 → Option (Nat × List UInt8)
  | [] => none
  | first :: rest =>
    if first < 128 then some (first.toNat, rest)
    else
      let n := first.toNat % 128
      if n = 0 ∨ 4 < n ∨ rest.length < n then none
      else some (Nat.ofDigits 256 ((rest.take n).reverse.map UInt8.toNat), rest.drop n)

def readTlv : List UInt8 → Option (Tlv × List UInt8)
  | [] => none
  | tag :: body =>
    if tag % 32 = 31 then none
    else do
      let (len, rest) ← readLength body
      if rest.length < len then none
      else
        let raw := (tag :: body).take (body.length + 1 - (rest.length - len))
        some ({ tag, value := rest.take len, raw }, rest.drop len)

def readFields : Nat → List UInt8 → Option (List Tlv)
  | 0, _ | _ + 1, [] => some []
  | n + 1, b :: buf => do
    let (field, rest) ← readTlv (b :: buf)
    let more ← readFields n rest
    some (field :: more)

def tbsCertificate (cert : List UInt8) : Option (List UInt8) := do
  let (outer, _) ← readTlv cert
  if outer.tag ≠ 0x30 then none
  else do
    let (tbs, _) ← readTlv outer.value
    if tbs.tag ≠ 0x30 then none else some tbs.value

variable {D : Type} (sha256 : List UInt8 → D)

def spkiSha256 (cert : List UInt8) : Option D := do
  let tbs ← tbsCertificate cert
  let fields ← readFields 8 tbs
  let index := if fields.head?.map Tlv.tag = some 0xa0 then 6 else 5
  let spki ← fields[index]?
  if spki.tag ≠ 0x30 then none else some (sha256 spki.raw)

def lengthOctets (n : Nat) : List UInt8 :=
  if n < 128 then [UInt8.ofNat n]
  else
    let octets := (Nat.digits 256 n).reverse.map UInt8.ofNat
    UInt8.ofNat (128 + octets.length) :: octets

/-- An element whose tag fits in one octet. -/
structure Element where
  tag : UInt8
  value : List UInt8
  low : tag % 32 ≠ 31

def Element.encode (f : Element) : List UInt8 := f.tag :: lengthOctets f.value.length ++ f.value

def sequence (value : List UInt8) : Element := ⟨0x30, value, by decide⟩

/-- The fields after the public key are identifiers and extensions. -/
structure Certificate where
  version : Option (List UInt8)
  serial : List UInt8
  signature : List UInt8
  issuer : List UInt8
  validity : List UInt8
  subject : List UInt8
  publicKey : List UInt8
  further : List Element
  signed : List UInt8

def Certificate.fields (c : Certificate) : List Element :=
  c.version.toList.map (⟨0xa0, ·, by decide⟩) ++ ⟨2, c.serial, by decide⟩ ::
    [c.signature, c.issuer, c.validity, c.subject, c.publicKey].map sequence ++ c.further

def Certificate.encode (c : Certificate) : List UInt8 :=
  (sequence ((sequence (c.fields.flatMap Element.encode)).encode ++ c.signed)).encode

variable {n : Nat} {rest : List UInt8}

theorem readLength_lengthOctets (h : n < 2 ^ 32) :
    readLength (lengthOctets n ++ rest) = some (n, rest) := by
  have hsmall {k : Nat} (hk : k < 256) : (UInt8.ofNat k).toNat = k := by simp [Nat.mod_eq_of_lt hk]
  unfold lengthOctets
  split_ifs with hshort
  · have hn : (UInt8.ofNat n).toNat = n := hsmall (by omega)
    have hfirst : UInt8.ofNat n < 128 := UInt8.lt_iff_toNat_lt.mpr (by rwa [hn])
    simp [readLength, hfirst, hn]
  · have hlen := (Nat.digits_length_le_iff (b := 256) (k := 4) (by decide) n).mpr h
    have hpos := List.length_pos_iff.mpr
      (Nat.digits_ne_nil_iff_ne_zero (b := 256).mpr (show n ≠ 0 by omega))
    have hback : (Nat.digits 256 n).map (· % 256) = Nat.digits 256 n :=
      (List.map_congr_left fun d hd => Nat.mod_eq_of_lt (Nat.digits_lt_base (by decide) hd)).trans
        (List.map_id _)
    have hvalue := Nat.ofDigits_digits 256 n
    generalize Nat.digits 256 n = ds at *
    have hfirst : (UInt8.ofNat (128 + ds.length)).toNat = 128 + ds.length := hsmall (by omega)
    have hlong : ¬UInt8.ofNat (128 + ds.length) < 128 := by
      rw [UInt8.lt_iff_toNat_lt, hfirst]
      exact Nat.not_lt.mpr (Nat.le_add_right ..)
    simp only [List.length_map, List.length_reverse, List.cons_append, readLength, if_neg hlong,
      hfirst]
    have hrest : ds.length ≤ (ds.reverse.map UInt8.ofNat ++ rest).length := by simp
    rw [show (128 + ds.length) % 128 = ds.length by omega, if_neg (by omega),
      List.take_left' (by simp), List.drop_left' (by simp)]
    simp [Function.comp_def, hback, hvalue]

theorem readTlv_encode (f : Element) (h : f.value.length < 2 ^ 32) (rest : List UInt8) :
    readTlv (f.encode ++ rest) = some (⟨f.tag, f.value, f.encode⟩, rest) := by
  have hread : readLength (lengthOctets f.value.length ++ (f.value ++ rest)) =
      some (f.value.length, f.value ++ rest) := readLength_lengthOctets h
  have hsplit : f.tag :: (lengthOctets f.value.length ++ (f.value ++ rest)) =
      f.encode ++ rest := by simp [Element.encode]
  have hraw : (f.encode ++ rest).take ((lengthOctets f.value.length).length +
      (f.value.length + rest.length) + 1 - rest.length) = f.encode :=
    List.take_left' (by simp [Element.encode]; omega)
  rw [← hsplit] at hraw ⊢
  simp [readTlv, f.low, hread, hraw]

theorem length_le_encode (f : Element) : f.value.length ≤ f.encode.length := by
  unfold Element.encode
  rw [List.length_append]
  omega

theorem readFields_encode {fields : List Element}
    (h : (fields.flatMap Element.encode).length < 2 ^ 32) (n : Nat) :
    readFields n (fields.flatMap Element.encode) =
      some ((fields.take n).map fun f => ⟨f.tag, f.value, f.encode⟩) := by
  induction fields generalizing n with
  | nil => cases n <;> rfl
  | cons f fields ih =>
    cases n with
    | zero => rfl
    | succ n =>
      rw [List.flatMap_cons, List.length_append] at h
      have hread := readTlv_encode f ((length_le_encode f).trans_lt (by omega))
      have hstep : readFields (n + 1) ((f :: fields).flatMap Element.encode) =
          readTlv (f.encode ++ fields.flatMap Element.encode) >>= fun p =>
            readFields n p.2 >>= fun more => some (p.1 :: more) := rfl
      rw [hstep, hread]
      simp [ih (by omega)]

/-- Whatever follows the certificate, the digest is of the bytes of its public key's element. -/
theorem spkiSha256_encode (c : Certificate) (h : c.encode.length < 2 ^ 32) (rest : List UInt8) :
    spkiSha256 sha256 (c.encode ++ rest) = some (sha256 (sequence c.publicKey).encode) := by
  have houter := (length_le_encode _).trans_lt h
  have hinner : (sequence (c.fields.flatMap Element.encode)).encode.length < 2 ^ 32 := by
    simp only [sequence, List.length_append] at houter ⊢
    omega
  have hfields := (length_le_encode _).trans_lt hinner
  have htbs : tbsCertificate (c.encode ++ rest) = some (c.fields.flatMap Element.encode) := by
    unfold tbsCertificate Certificate.encode
    have hread := readTlv_encode _ hfields c.signed
    rw [readTlv_encode _ houter]
    simp only [sequence] at hread ⊢
    simp [hread]
  unfold spkiSha256
  rw [htbs]
  simp [readFields_encode hfields]
  cases hv : c.version <;> simp [Certificate.fields, sequence, hv]

end EgressDns.Der
