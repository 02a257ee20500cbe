import OpenDaemon.Utf8

/-!
# Percent encoding

Bytes are written as text over a small alphabet: a byte that is a kept character as this
character, any other byte as a percent sign and two hexadecimal digits. The text is read
back as the bytes, whatever they are.
-/

namespace OpenDaemon.PercentEncoding

open ByteText

def upperDigit (n : ℕ) : Char := (Nat.digitChar n).toUpper

def triple (byte : UInt8) : List Char :=
  ['%', upperDigit (byte.toNat / 16), upperDigit (byte.toNat % 16)]

def charOf (byte : UInt8) : Char := Char.ofNat byte.toNat

def encodeByte (keep : Char → Bool) (byte : UInt8) : List Char :=
  if keep (charOf byte) then [charOf byte] else triple byte

def encode (keep : Char → Bool) (bytes : List UInt8) : List Char :=
  bytes.flatMap (encodeByte keep)

/-- A triple stands for its byte, and what is not part of one for its own bytes. -/
def decode : List Char → List UInt8
  | '%' :: high :: low :: rest =>
    match hexValue high, hexValue low with
    | some x, some y => UInt8.ofNat (16 * x + y) :: decode rest
    | _, _ => String.utf8EncodeChar '%' ++ decode (high :: low :: rest)
  | c :: rest => String.utf8EncodeChar c ++ decode rest
  | [] => []

structure Plain (keep : Char → Bool) : Prop where
  ascii : ∀ c, keep c = true → c.toNat < 128
  percent : keep '%' = false

def isUpperHex (c : Char) : Bool := c.isDigit || ('A' ≤ c && c ≤ 'F')

inductive WellFormed (keep : Char → Bool) : List Char → Prop
  | nil : WellFormed keep []
  | kept {c : Char} {rest : List Char} (hc : keep c = true) (h : WellFormed keep rest) :
      WellFormed keep (c :: rest)
  | triple {high low : Char} {rest : List Char} (hhigh : isUpperHex high = true)
      (hlow : isUpperHex low = true) (h : WellFormed keep rest) :
      WellFormed keep ('%' :: high :: low :: rest)

theorem upperDigit_spec {n : ℕ} (hn : n < 16) :
    hexValue (upperDigit n) = some n ∧ isUpperHex (upperDigit n) = true := by
  interval_cases n <;> decide

theorem div_lt (byte : UInt8) : byte.toNat / 16 < 16 := by
  have hbyte : byte.toNat < 256 := byte.toNat_lt
  omega

theorem mod_lt (byte : UInt8) : byte.toNat % 16 < 16 := Nat.mod_lt _ (by decide)

theorem toNat_charOf (byte : UInt8) : (charOf byte).toNat = byte.toNat := by
  have hbyte : byte.toNat < 256 := byte.toNat_lt
  have hvalid : byte.toNat.isValidChar := .inl (by omega)
  rw [charOf, Char.ofNat, dif_pos hvalid]
  rfl

theorem encodeChar_ascii : ∀ n < 128, String.utf8EncodeChar (Char.ofNat n) = [UInt8.ofNat n] := by
  decide

theorem decode_triple (byte : UInt8) (rest : List Char) :
    decode (triple byte ++ rest) = byte :: decode rest := by
  have hsum : 16 * (byte.toNat / 16) + byte.toNat % 16 = byte.toNat := by omega
  simp only [triple, List.cons_append, List.nil_append, decode,
    (upperDigit_spec (div_lt byte)).1, (upperDigit_spec (mod_lt byte)).1, hsum, UInt8.ofNat_toNat]

theorem decode_cons {c : Char} (hc : c ≠ '%') (rest : List Char) :
    decode (c :: rest) = String.utf8EncodeChar c ++ decode rest := by
  rw [decode]
  rintro high low tail h -
  exact hc h

section Encode

variable {keep : Char → Bool} (hkeep : Plain keep)

include hkeep

theorem decode_encodeByte (byte : UInt8) (rest : List Char) :
    decode (encodeByte keep byte ++ rest) = byte :: decode rest := by
  unfold encodeByte
  split_ifs with hkept
  · have hne : charOf byte ≠ '%' := by
      intro hpercent
      rw [hpercent, hkeep.percent] at hkept
      cases hkept
    have hlt : byte.toNat < 128 := by
      have hascii := hkeep.ascii _ hkept
      rwa [toNat_charOf] at hascii
    rw [List.singleton_append, decode_cons hne, charOf, encodeChar_ascii _ hlt,
      UInt8.ofNat_toNat, List.singleton_append]
  · exact decode_triple byte rest

theorem decode_encode (bytes : List UInt8) : decode (encode keep bytes) = bytes := by
  induction bytes with
  | nil => rfl
  | cons byte bytes ih =>
    rw [encode, List.flatMap_cons, ← encode, decode_encodeByte hkeep, ih]

theorem encode_injective : Function.Injective (encode keep) :=
  Function.LeftInverse.injective (decode_encode hkeep)

end Encode

section Alphabet

variable {keep : Char → Bool} {text : List Char} {c : Char}

theorem wellFormed_encode (bytes : List UInt8) : WellFormed keep (encode keep bytes) := by
  induction bytes with
  | nil => exact .nil
  | cons byte bytes ih =>
    rw [encode, List.flatMap_cons, ← encode, encodeByte]
    split_ifs with hkept
    · exact .kept hkept ih
    · exact .triple (upperDigit_spec (div_lt byte)).2 (upperDigit_spec (mod_lt byte)).2 ih

theorem mem_wellFormed (h : WellFormed keep text) (hc : c ∈ text) :
    keep c = true ∨ c = '%' ∨ isUpperHex c = true := by
  induction h with
  | nil => cases hc
  | kept hkept _ ih =>
    rcases List.mem_cons.mp hc with rfl | hc
    · exact .inl hkept
    · exact ih hc
  | triple hhigh hlow _ ih =>
    simp only [List.mem_cons] at hc
    rcases hc with rfl | rfl | rfl | hc
    · exact .inr (.inl rfl)
    · exact .inr (.inr hhigh)
    · exact .inr (.inr hlow)
    · exact ih hc

end Alphabet

end OpenDaemon.PercentEncoding
