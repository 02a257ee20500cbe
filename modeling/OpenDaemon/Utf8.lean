import OpenDaemon.ByteText

/-!
# UTF-8

Bytes are read from the left as characters. Where no character starts, the longest
part of one that the table of well-formed sequences allows is passed over as a whole,
and at least one byte is. A reader either refuses such bytes or puts the replacement
character in their place.
-/

namespace OpenDaemon.Utf8

open ByteText

def encode (text : List Char) : List UInt8 := text.flatMap String.utf8EncodeChar

def decodeChar (bytes : List UInt8) : Option Char := bytes.toByteArray.utf8DecodeChar? 0

def isContinuation (byte : UInt8) : Bool := 0x80 ≤ byte && byte ≤ 0xBF

/-- A second byte that can follow the first one, where the sequence has three or four bytes. -/
def allowsSecond (first second : UInt8) : Bool :=
  if first = 0xE0 then 0xA0 ≤ second && second ≤ 0xBF
  else if first = 0xED then 0x80 ≤ second && second ≤ 0x9F
  else if 0xE1 ≤ first && first ≤ 0xEF then isContinuation second
  else if first = 0xF0 then 0x90 ≤ second && second ≤ 0xBF
  else if first = 0xF4 then 0x80 ≤ second && second ≤ 0x8F
  else if 0xF1 ≤ first && first ≤ 0xF3 then isContinuation second
  else false

def badLength : List UInt8 → ℕ
  | first :: second :: third :: _ =>
    if allowsSecond first second then
      if 0xF0 ≤ first && isContinuation third then 3 else 2
    else 1
  | [first, second] => if allowsSecond first second then 2 else 1
  | _ => 1

inductive Piece
  | char (c : Char)
  | bad (bytes : List UInt8)
  deriving DecidableEq, Repr

namespace Piece

def length : Piece → ℕ
  | .char c => c.utf8Size
  | .bad bytes => bytes.length

def bytes : Piece → List UInt8
  | .char c => String.utf8EncodeChar c
  | .bad bytes => bytes

def char? : Piece → Option Char
  | .char c => some c
  | .bad _ => none

def replaced : Piece → Char
  | .char c => c
  | .bad _ => Char.ofNat 0xFFFD

def isBad : Piece → Bool
  | .char _ => false
  | .bad _ => true

end Piece

def next (bytes : List UInt8) : Piece :=
  match decodeChar bytes with
  | some c => .char c
  | none => .bad (bytes.take (badLength bytes))

theorem badLength_pos (bytes : List UInt8) : 1 ≤ badLength bytes := by
  fun_cases badLength <;> simp

theorem next_length_pos {bytes : List UInt8} (h : bytes ≠ []) : 0 < (next bytes).length := by
  have hpos := List.length_pos_of_ne_nil h
  unfold next
  cases decodeChar bytes with
  | some c => exact c.utf8Size_pos
  | none =>
    have hbad := badLength_pos bytes
    simp only [Piece.length, List.length_take]
    omega

def pieces : List UInt8 → List Piece
  | [] => []
  | byte :: rest =>
    next (byte :: rest) :: pieces ((byte :: rest).drop (next (byte :: rest)).length)
termination_by bytes => bytes.length
decreasing_by
  have hpos := next_length_pos (List.cons_ne_nil byte rest)
  simp only [List.length_drop, List.length_cons]
  omega

def decode (bytes : List UInt8) : Option (List Char) := (pieces bytes).mapM Piece.char?

def decodeLossy (bytes : List UInt8) : List Char := (pieces bytes).map Piece.replaced

/-- The bytes that are replaced, one sequence for each replacement. -/
def illFormed (bytes : List UInt8) : List (List UInt8) :=
  ((pieces bytes).filter Piece.isBad).map Piece.bytes

def Valid (bytes : List UInt8) : Prop := ∃ text, bytes = encode text

section Characters

variable {c : Char} {bytes rest : List UInt8}

@[simp] theorem encode_nil : encode [] = [] := rfl

@[simp] theorem encode_cons (c : Char) (text : List Char) :
    encode (c :: text) = String.utf8EncodeChar c ++ encode text := rfl

theorem encode_append (text text' : List Char) :
    encode (text ++ text') = encode text ++ encode text' := List.flatMap_append

theorem length_encode (text : List Char) : (encode text).length = byteLength text := by
  induction text with
  | nil => rfl
  | cons c text ih => simp [ih]

theorem decodeChar_append (c : Char) (rest : List UInt8) :
    decodeChar (String.utf8EncodeChar c ++ rest) = some c := by
  rw [decodeChar, List.toByteArray_append]
  exact ByteArray.utf8DecodeChar?_utf8EncodeChar_append

theorem exists_of_decodeChar (h : decodeChar bytes = some c) :
    ∃ rest, bytes = String.utf8EncodeChar c ++ rest := by
  obtain ⟨rest, hrest⟩ := ByteArray.exists_of_utf8DecodeChar?_eq_some h
  refine ⟨rest.data.toList, ?_⟩
  have hdata := congrArg (fun b : ByteArray => b.data.toList) hrest
  simpa using hdata

end Characters

section Pieces

variable {c : Char} {text : List Char} {bytes : List UInt8}

@[simp] theorem pieces_nil : pieces [] = [] := by rw [pieces]

theorem pieces_eq (h : bytes ≠ []) :
    pieces bytes = next bytes :: pieces (bytes.drop (next bytes).length) := by
  cases bytes with
  | nil => exact absurd rfl h
  | cons byte rest => rw [pieces]

theorem pieces_encodeChar_append (c : Char) (rest : List UInt8) :
    pieces (String.utf8EncodeChar c ++ rest) = .char c :: pieces rest := by
  have hne : String.utf8EncodeChar c ++ rest ≠ [] := by
    simp [String.utf8EncodeChar_ne_nil]
  have hnext : next (String.utf8EncodeChar c ++ rest) = .char c := by
    rw [next, decodeChar_append]
  have hdrop : (String.utf8EncodeChar c ++ rest).drop c.utf8Size = rest :=
    List.drop_left' (String.length_utf8EncodeChar c)
  rw [pieces_eq hne, hnext, Piece.length, hdrop]

theorem pieces_encode_append (text : List Char) (rest : List UInt8) :
    pieces (encode text ++ rest) = text.map .char ++ pieces rest := by
  induction text with
  | nil => rfl
  | cons c text ih =>
    rw [encode_cons, List.append_assoc, pieces_encodeChar_append, ih]
    rfl

theorem pieces_encode (text : List Char) : pieces (encode text) = text.map .char := by
  have h := pieces_encode_append text []
  simpa using h

theorem next_append_drop (bytes : List UInt8) :
    (next bytes).bytes ++ bytes.drop (next bytes).length = bytes := by
  cases hchar : decodeChar bytes with
  | none =>
    simp only [next, hchar, Piece.bytes, Piece.length]
    have hdrop : bytes.drop (min (badLength bytes) bytes.length) = bytes.drop (badLength bytes) := by
      rcases Nat.le_total (badLength bytes) bytes.length with hle | hle
      · rw [Nat.min_eq_left hle]
      · rw [Nat.min_eq_right hle, List.drop_length, List.drop_eq_nil_of_le hle]
    rw [List.length_take, hdrop]
    exact List.take_append_drop _ _
  | some c =>
    simp only [next, hchar, Piece.bytes, Piece.length]
    obtain ⟨rest, rfl⟩ := exists_of_decodeChar hchar
    rw [List.drop_left' (String.length_utf8EncodeChar c)]

theorem flatMap_bytes_pieces (bytes : List UInt8) :
    (pieces bytes).flatMap Piece.bytes = bytes := by
  induction bytes using pieces.induct with
  | case1 => simp
  | case2 byte rest ih =>
    rw [pieces, List.flatMap_cons, ih]
    exact next_append_drop (byte :: rest)

theorem decode_encode (text : List Char) : decode (encode text) = some text := by
  rw [decode, pieces_encode]
  induction text with
  | nil => rfl
  | cons c text ih => simp [List.mapM_cons, ih, Piece.char?]

theorem encode_injective : Function.Injective encode := by
  intro text text' h
  have hdecode := congrArg decode h
  rw [decode_encode, decode_encode] at hdecode
  exact Option.some.inj hdecode

theorem filter_char (c : Char) (ps : List Piece) :
    (Piece.char c :: ps).filter Piece.isBad = ps.filter Piece.isBad := rfl

theorem filter_bad (bytes : List UInt8) (ps : List Piece) :
    (Piece.bad bytes :: ps).filter Piece.isBad = .bad bytes :: ps.filter Piece.isBad := rfl

theorem byteLength_replaced (ps : List Piece) :
    byteLength (ps.map Piece.replaced) + ((ps.filter Piece.isBad).map Piece.bytes).flatten.length =
      (ps.flatMap Piece.bytes).length + 3 * ((ps.filter Piece.isBad).map Piece.bytes).length := by
  induction ps with
  | nil => rfl
  | cons piece ps ih =>
    cases piece with
    | char c =>
      simp only [filter_char, List.map_cons, Piece.replaced, byteLength_cons, List.flatMap_cons,
        Piece.bytes, List.length_append, String.length_utf8EncodeChar]
      omega
    | bad bytes =>
      have hsize : (Char.ofNat 0xFFFD).utf8Size = 3 := by decide
      simp only [filter_bad, List.map_cons, Piece.replaced, byteLength_cons, hsize,
        List.flatMap_cons, Piece.bytes, List.length_append, List.flatten_cons, List.length_cons]
      omega

theorem byteLength_decodeLossy (bytes : List UInt8) :
    byteLength (decodeLossy bytes) + (illFormed bytes).flatten.length =
      bytes.length + 3 * (illFormed bytes).length := by
  have h := byteLength_replaced (pieces bytes)
  rw [flatMap_bytes_pieces] at h
  exact h

theorem flatMap_bytes_of_chars {ps : List Piece} (h : ps.filter Piece.isBad = []) :
    ps.flatMap Piece.bytes = encode (ps.map Piece.replaced) := by
  induction ps with
  | nil => rfl
  | cons piece ps ih =>
    cases piece with
    | char c =>
      rw [filter_char] at h
      rw [List.flatMap_cons, ih h]
      rfl
    | bad bytes =>
      rw [filter_bad] at h
      cases h

theorem flatMap_bytes_of_mapM {ps : List Piece} (h : ps.mapM Piece.char? = some text) :
    ps.flatMap Piece.bytes = encode text := by
  induction ps generalizing text with
  | nil =>
    obtain rfl : [] = text := by simpa using h
    rfl
  | cons piece ps ih =>
    cases piece with
    | bad bytes => simp [List.mapM_cons, Piece.char?] at h
    | char c =>
      obtain ⟨rest, hrest, rfl⟩ : ∃ rest, ps.mapM Piece.char? = some rest ∧ c :: rest = text := by
        simpa [List.mapM_cons, Piece.char?, Option.bind_eq_some_iff] using h
      rw [List.flatMap_cons, ih hrest]
      rfl

theorem decodeLossy_encode (text : List Char) : decodeLossy (encode text) = text := by
  rw [decodeLossy, pieces_encode, List.map_map]
  exact List.map_id text

theorem illFormed_encode (text : List Char) : illFormed (encode text) = [] := by
  rw [illFormed, pieces_encode]
  simp [List.filter_map, Function.comp_def, Piece.isBad]

theorem valid_iff_illFormed : Valid bytes ↔ illFormed bytes = [] := by
  constructor
  · rintro ⟨text, rfl⟩
    exact illFormed_encode text
  · intro hnone
    refine ⟨decodeLossy bytes, ?_⟩
    have hbytes := flatMap_bytes_of_chars (List.map_eq_nil_iff.mp hnone)
    rw [flatMap_bytes_pieces] at hbytes
    exact hbytes

theorem eq_encode_of_decode (h : decode bytes = some text) : bytes = encode text := by
  have hbytes := flatMap_bytes_of_mapM h
  rw [flatMap_bytes_pieces] at hbytes
  exact hbytes

end Pieces

section Cut

variable {c : Char} {part rest : List UInt8}

theorem toNat_ofNat_of_lt {n : ℕ} (h : n < 256) : (UInt8.ofNat n).toNat = n :=
  UInt8.toNat_ofNat_of_lt' h

theorem allowsSecond_iff (first second : UInt8) : allowsSecond first second = true ↔
    (first.toNat = 0xE0 ∧ 0xA0 ≤ second.toNat ∧ second.toNat ≤ 0xBF) ∨
    (first.toNat = 0xED ∧ 0x80 ≤ second.toNat ∧ second.toNat ≤ 0x9F) ∨
    (0xE1 ≤ first.toNat ∧ first.toNat ≤ 0xEF ∧ first.toNat ≠ 0xED ∧
      0x80 ≤ second.toNat ∧ second.toNat ≤ 0xBF) ∨
    (first.toNat = 0xF0 ∧ 0x90 ≤ second.toNat ∧ second.toNat ≤ 0xBF) ∨
    (first.toNat = 0xF4 ∧ 0x80 ≤ second.toNat ∧ second.toNat ≤ 0x8F) ∨
    (0xF1 ≤ first.toNat ∧ first.toNat ≤ 0xF3 ∧ 0x80 ≤ second.toNat ∧ second.toNat ≤ 0xBF) := by
  simp only [allowsSecond, isContinuation, ← UInt8.toNat_inj, UInt8.le_iff_toNat_le,
    UInt8.reduceToNat, Bool.and_eq_true, decide_eq_true_eq]
  split_ifs <;> simp only [Bool.and_eq_true, decide_eq_true_eq, false_iff] <;>
    omega

theorem isScalar (c : Char) : c.val.toNat < 0xD800 ∨ (0xDFFF < c.val.toNat ∧ c.val.toNat < 0x110000) :=
  c.valid

theorem allowsSecond_of_encodeChar {first second third : UInt8}
    (h : String.utf8EncodeChar c = first :: second :: third :: rest) :
    allowsSecond first second = true := by
  have hscalar := isScalar c
  rw [String.utf8EncodeChar] at h
  rw [allowsSecond_iff]
  split_ifs at h with h1 h2 h3
  · simp at h
  · simp at h
  · simp only [List.cons.injEq] at h
    obtain ⟨rfl, rfl, -⟩ := h
    rw [toNat_ofNat_of_lt (by omega), toNat_ofNat_of_lt (by omega)]
    omega
  · simp only [List.cons.injEq] at h
    obtain ⟨rfl, rfl, -⟩ := h
    rw [toNat_ofNat_of_lt (by omega), toNat_ofNat_of_lt (by omega)]
    omega

theorem continues_of_encodeChar {first second third fourth : UInt8}
    (h : String.utf8EncodeChar c = first :: second :: third :: fourth :: rest) :
    (0xF0 ≤ first && isContinuation third) = true := by
  have hscalar := isScalar c
  rw [String.utf8EncodeChar] at h
  split_ifs at h with h1 h2 h3
  · simp at h
  · simp at h
  · simp at h
  · simp only [List.cons.injEq] at h
    obtain ⟨rfl, -, rfl, -⟩ := h
    simp only [isContinuation, UInt8.le_iff_toNat_le, UInt8.reduceToNat, Bool.and_eq_true,
      decide_eq_true_eq]
    rw [toNat_ofNat_of_lt (by omega), toNat_ofNat_of_lt (by omega)]
    omega

theorem badLength_cut (hsplit : String.utf8EncodeChar c = part ++ rest) (hpart : part ≠ [])
    (hrest : rest ≠ []) : badLength part = part.length := by
  have hlength : c.utf8Size = part.length + rest.length := by
    rw [← String.length_utf8EncodeChar, hsplit, List.length_append]
  have hfour := c.utf8Size_le_four
  have hpos := List.length_pos_of_ne_nil hrest
  obtain ⟨byte, rest, rfl⟩ := List.exists_cons_of_ne_nil hrest
  match part, hpart with
  | [first], _ => rfl
  | [first, second], _ => simp [badLength, allowsSecond_of_encodeChar hsplit]
  | [first, second, third], _ =>
    simp only [badLength, allowsSecond_of_encodeChar hsplit, continues_of_encodeChar hsplit,
      if_true, List.length_cons, List.length_nil]
  | first :: second :: third :: fourth :: part, _ =>
    simp only [List.length_cons] at hlength hpos
    omega

theorem pieces_cut (hsplit : String.utf8EncodeChar c = part ++ rest) (hpart : part ≠ [])
    (hrest : rest ≠ []) : pieces part = [.bad part] := by
  have hnone : decodeChar part = none := by
    cases hchar : decodeChar part with
    | none => rfl
    | some d =>
      obtain ⟨more, rfl⟩ := exists_of_decodeChar hchar
      have hc := decodeChar_append c []
      rw [List.append_nil, hsplit, List.append_assoc, decodeChar_append] at hc
      obtain rfl := Option.some.inj hc
      have hnil := List.append_right_eq_self.mp (hsplit.trans (List.append_assoc ..)).symm
      exact absurd (List.append_eq_nil_iff.mp hnil).2 hrest
  have hnext : next part = .bad part := by
    rw [next, hnone, badLength_cut hsplit hpart hrest, List.take_length]
  rw [pieces_eq hpart, hnext, Piece.length, List.drop_length, pieces_nil]

theorem decodeLossy_cut (before : List Char) (hsplit : String.utf8EncodeChar c = part ++ rest)
    (hpart : part ≠ []) (hrest : rest ≠ []) :
    decodeLossy (encode before ++ part) = before ++ [Char.ofNat 0xFFFD] := by
  rw [decodeLossy, pieces_encode_append, pieces_cut hsplit hpart hrest, List.map_append,
    List.map_map]
  exact congrArg (· ++ [Char.ofNat 0xFFFD]) (List.map_id before)

theorem not_valid_cut (before : List Char) (hsplit : String.utf8EncodeChar c = part ++ rest)
    (hpart : part ≠ []) (hrest : rest ≠ []) : ¬ Valid (encode before ++ part) := by
  rw [valid_iff_illFormed, illFormed, pieces_encode_append, pieces_cut hsplit hpart hrest,
    List.filter_append]
  simp [Piece.isBad]

theorem exists_cut (text : List Char) (n : ℕ) :
    (∃ before after, text = before ++ after ∧ (encode text).take n = encode before) ∨
    ∃ before c after part rest, text = before ++ c :: after ∧ String.utf8EncodeChar c = part ++ rest ∧
      part ≠ [] ∧ rest ≠ [] ∧ (encode text).take n = encode before ++ part := by
  induction text generalizing n with
  | nil => exact .inl ⟨[], [], rfl, by simp⟩
  | cons c text ih =>
    by_cases hzero : n = 0
    · exact .inl ⟨[], c :: text, rfl, by simp [hzero]⟩
    by_cases hcut : n < c.utf8Size
    · refine .inr ⟨[], c, text, (String.utf8EncodeChar c).take n, (String.utf8EncodeChar c).drop n,
        rfl, (List.take_append_drop n _).symm, ?_, ?_, ?_⟩
      · simp [hzero, String.utf8EncodeChar_ne_nil]
      · simp [hcut]
      · rw [encode_cons, encode_nil, List.nil_append, List.take_append_of_le_length]
        rw [String.length_utf8EncodeChar]
        exact hcut.le
    · have htake : (encode (c :: text)).take n =
          String.utf8EncodeChar c ++ (encode text).take (n - c.utf8Size) := by
        rw [encode_cons, List.take_append, String.length_utf8EncodeChar,
          List.take_of_length_le (by rw [String.length_utf8EncodeChar]; omega)]
      rcases ih (n - c.utf8Size) with ⟨before, after, rfl, hbefore⟩ |
        ⟨before, d, after, part, rest, rfl, hsplit, hpart, hrest, hbefore⟩
      · exact .inl ⟨c :: before, after, rfl, by rw [htake, hbefore, encode_cons]⟩
      · refine .inr ⟨c :: before, d, after, part, rest, rfl, hsplit, hpart, hrest, ?_⟩
        rw [htake, hbefore, encode_cons, List.append_assoc]

end Cut

end OpenDaemon.Utf8
