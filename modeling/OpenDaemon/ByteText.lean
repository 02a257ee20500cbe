import Mathlib.Data.List.Basic
import Mathlib.Tactic.Common
import Mathlib.Tactic.IntervalCases

/-!
# Text as bytes

Text is indexed by bytes, and a slice that would cut a character in two does not
exist. On characters of one byte slices are the ones of the list of characters; next
to an occurrence found by a search they exist whatever the characters.
Byte strings are written with two hexadecimal digits for each byte.
-/

namespace OpenDaemon.ByteText

def byteLength (text : List Char) : ℕ := (text.map Char.utf8Size).sum

def sliceTo : ℕ → List Char → Option (List Char)
  | 0, _ => some []
  | _ + 1, [] => none
  | n + 1, c :: text =>
    if c.utf8Size ≤ n + 1 then (sliceTo (n + 1 - c.utf8Size) text).map (c :: ·) else none
termination_by n => n
decreasing_by
  have := c.utf8Size_pos
  omega

def Narrow (text : List Char) : Prop := ∀ c ∈ text, c.utf8Size = 1

theorem utf8Size_eq_one {c : Char} (h : c.toNat < 128) : c.utf8Size = 1 := by
  have hval : c.val ≤ 0x7F := by
    rw [UInt32.le_iff_toNat_le]
    exact Nat.le_of_lt_succ h
  simp [Char.utf8Size, hval]

theorem toNat_lt_of_isAlphanum {c : Char} (hc : c.isAlphanum) : c.toNat < 128 := by
  have hranges : (decide (c.val ≥ 'A'.val ∧ c.val ≤ 'Z'.val) ||
      decide (c.val ≥ 'a'.val) && decide (c.val ≤ 'z'.val) ||
      decide (c.val ≥ '0'.val) && decide (c.val ≤ '9'.val)) = true := hc
  simp only [Bool.or_eq_true, Bool.and_eq_true, decide_eq_true_eq, ge_iff_le,
    UInt32.le_iff_toNat_le] at hranges
  change c.val.toNat < 128
  rcases hranges with (⟨-, hle⟩ | ⟨-, hle⟩) | ⟨-, hle⟩
  · exact Nat.lt_of_le_of_lt hle (by decide)
  · exact Nat.lt_of_le_of_lt hle (by decide)
  · exact Nat.lt_of_le_of_lt hle (by decide)

theorem Narrow.byteLength {text : List Char} (h : Narrow text) :
    ByteText.byteLength text = text.length := by
  induction text with
  | nil => rfl
  | cons c text ih =>
    have hc : c.utf8Size = 1 := h c List.mem_cons_self
    have htext : Narrow text := fun d hd => h d (List.mem_cons_of_mem c hd)
    have hrest := ih htext
    simp only [ByteText.byteLength, List.map_cons, List.sum_cons, List.length_cons] at hrest ⊢
    omega

theorem Narrow.sliceTo {text : List Char} (h : Narrow text) {n : ℕ} (hn : n ≤ text.length) :
    ByteText.sliceTo n text = some (text.take n) := by
  induction text generalizing n with
  | nil =>
    obtain rfl : n = 0 := Nat.le_zero.mp hn
    simp [ByteText.sliceTo]
  | cons c text ih =>
    cases n with
    | zero => simp [ByteText.sliceTo]
    | succ n =>
      have hc : c.utf8Size = 1 := h c List.mem_cons_self
      have htext : Narrow text := fun d hd => h d (List.mem_cons_of_mem c hd)
      have hrest := ih htext (Nat.le_of_succ_le_succ hn)
      simp [ByteText.sliceTo, hc, hrest]

theorem Narrow.append {text text' : List Char} (h : Narrow text) (h' : Narrow text') :
    Narrow (text ++ text') := by
  intro c hc
  rcases List.mem_append.mp hc with hc | hc
  · exact h c hc
  · exact h' c hc

section Search

def sliceFrom : ℕ → List Char → Option (List Char)
  | 0, text => some text
  | _ + 1, [] => none
  | n + 1, c :: text =>
    if c.utf8Size ≤ n + 1 then sliceFrom (n + 1 - c.utf8Size) text else none
termination_by structural _ text => text

def find (pattern : List Char) : List Char → Option ℕ
  | [] => if pattern = [] then some 0 else none
  | c :: text =>
    if pattern <+: c :: text then some 0 else (find pattern text).map (c.utf8Size + ·)

def FirstAt (pattern before after : List Char) : Prop :=
  ∀ before' after', before ++ pattern ++ after = before' ++ pattern ++ after' →
    before.length ≤ before'.length

@[simp] theorem byteLength_nil : byteLength [] = 0 := rfl

@[simp] theorem byteLength_cons (c : Char) (text : List Char) :
    byteLength (c :: text) = c.utf8Size + byteLength text := rfl

theorem byteLength_append (text text' : List Char) :
    byteLength (text ++ text') = byteLength text + byteLength text' := by
  simp [byteLength]

theorem sliceTo_append (text text' : List Char) :
    sliceTo (byteLength text) (text ++ text') = some text := by
  induction text with
  | nil => simp [sliceTo]
  | cons c text ih =>
    have hc := c.utf8Size_pos
    obtain ⟨n, hn⟩ : ∃ n, byteLength (c :: text) = n + 1 :=
      ⟨c.utf8Size + byteLength text - 1, by rw [byteLength_cons]; omega⟩
    have hle : c.utf8Size ≤ n + 1 := by rw [← hn, byteLength_cons]; omega
    have hrest : n + 1 - c.utf8Size = byteLength text := by rw [← hn, byteLength_cons]; omega
    rw [hn, List.cons_append, sliceTo, if_pos hle, hrest, ih]
    rfl

theorem sliceFrom_append (text text' : List Char) :
    sliceFrom (byteLength text) (text ++ text') = some text' := by
  induction text with
  | nil => cases text' <;> simp [sliceFrom]
  | cons c text ih =>
    have hc := c.utf8Size_pos
    obtain ⟨n, hn⟩ : ∃ n, byteLength (c :: text) = n + 1 :=
      ⟨c.utf8Size + byteLength text - 1, by rw [byteLength_cons]; omega⟩
    have hle : c.utf8Size ≤ n + 1 := by rw [← hn, byteLength_cons]; omega
    have hrest : n + 1 - c.utf8Size = byteLength text := by rw [← hn, byteLength_cons]; omega
    rw [hn, List.cons_append, sliceFrom, if_pos hle, hrest, ih]

theorem sliceFrom_behind (pattern before after : List Char) :
    sliceFrom (byteLength before + byteLength pattern) (before ++ pattern ++ after) =
      some after := by
  rw [← byteLength_append]
  exact sliceFrom_append (before ++ pattern) after

theorem sliceTo_before (pattern before after : List Char) :
    sliceTo (byteLength before) (before ++ pattern ++ after) = some before := by
  rw [List.append_assoc]
  exact sliceTo_append before (pattern ++ after)

theorem FirstAt.tail {pattern before after : List Char} {c : Char}
    (h : FirstAt pattern (c :: before) after) : FirstAt pattern before after := by
  intro before' after' heq
  have hle := h (c :: before') after' (by simp [heq])
  simpa using hle

theorem find_of_isPrefix {pattern text : List Char} (h : pattern <+: text) :
    find pattern text = some 0 := by
  cases text with
  | nil => simp [find, List.prefix_nil.mp h]
  | cons c text => rw [find, if_pos h]

theorem FirstAt.find {pattern before after : List Char} (h : FirstAt pattern before after) :
    ByteText.find pattern (before ++ pattern ++ after) = some (byteLength before) := by
  induction before with
  | nil => exact find_of_isPrefix (List.prefix_append pattern after)
  | cons c before ih =>
    have hnot : ¬ pattern <+: c :: (before ++ pattern ++ after) := by
      rintro ⟨after', heq⟩
      have hle := h [] after' (by simpa using heq.symm)
      simp at hle
    have hrest := ih h.tail
    simp only [List.cons_append, ByteText.find, if_neg hnot, hrest, Option.map_some,
      byteLength_cons]

theorem find_of_not_isInfix {pattern text : List Char} (h : ¬ pattern <:+: text) :
    find pattern text = none := by
  induction text with
  | nil =>
    have hne : pattern ≠ [] := by
      intro hnil
      exact h (hnil ▸ List.nil_infix)
    simp [find, hne]
  | cons c text ih =>
    have hhead : ¬ pattern <+: c :: text := fun hstart => h hstart.isInfix
    have htail : ¬ pattern <:+: text := fun hinside => h (List.infix_cons hinside)
    rw [find, if_neg hhead, ih htail]
    rfl

theorem exists_firstAt {pattern text : List Char} (h : pattern <:+: text) :
    ∃ before after, text = before ++ pattern ++ after ∧ FirstAt pattern before after := by
  induction text with
  | nil =>
    obtain rfl : pattern = [] := List.infix_nil.mp h
    exact ⟨[], [], rfl, fun _ _ _ => Nat.zero_le _⟩
  | cons c text ih =>
    by_cases hhead : pattern <+: c :: text
    · obtain ⟨after, hafter⟩ := hhead
      exact ⟨[], after, hafter.symm, fun _ _ _ => Nat.zero_le _⟩
    · have htail : pattern <:+: text := (List.infix_cons_iff.mp h).resolve_left hhead
      obtain ⟨before, after, rfl, hfirst⟩ := ih htail
      refine ⟨c :: before, after, rfl, ?_⟩
      intro before' after' heq
      cases before' with
      | nil => exact absurd ⟨after', by simpa using heq.symm⟩ hhead
      | cons c' before' =>
        have hle := hfirst before' after' (by simpa using (List.cons.inj heq).2)
        simpa using hle

theorem firstAt_of_not_mem {c : Char} {pattern before : List Char} (after : List Char)
    (h : c ∉ before) : FirstAt (c :: pattern) before after := by
  intro before' after' heq
  by_contra hlt
  rw [not_le] at hlt
  simp only [List.append_assoc, List.cons_append] at heq
  have hget := congrArg (fun text => text[before'.length]?) heq
  simp only [List.getElem?_append_left hlt, List.getElem?_append_right (le_refl _), Nat.sub_self,
    List.getElem?_cons_zero] at hget
  exact h (List.mem_of_getElem? hget)

theorem firstAt_pair {c : Char} {before : List Char} (after : List Char)
    (h : ¬ [c, c] <:+: before) (hend : before.getLast? ≠ some c) :
    FirstAt [c, c] before after := by
  intro before' after' heq
  by_contra hlt
  rw [not_le] at hlt
  simp only [List.append_assoc] at heq
  obtain ⟨rest, hbefore⟩ : before' <+: before :=
    List.prefix_of_prefix_length_le ⟨_, heq.symm⟩ (List.prefix_append _ _) hlt.le
  subst hbefore
  simp only [List.append_assoc, List.append_cancel_left_eq] at heq
  -- What is left of `before` is not empty; it is `c` alone, or starts with the pattern.
  cases rest with
  | nil => simp at hlt
  | cons d rest =>
    obtain ⟨hd, hrest⟩ := List.cons.inj heq
    cases rest with
    | nil => exact hend (by simp [hd])
    | cons d' rest =>
      obtain ⟨hd', -⟩ := List.cons.inj hrest
      exact h ⟨before', rest, by simp [hd, hd']⟩

end Search

section Ended

variable {α : Type*} {cr : α}

/-- How the lines of a text change when a line feed is put at its end. -/
inductive Ended (cr : α) : List (List α) → List (List α) → Prop
  | same (lines : List (List α)) : Ended cr lines lines
  | blank (lines : List (List α)) : Ended cr (lines ++ [[]]) lines
  | returned (lines : List (List α)) (line : List α) :
      Ended cr (lines ++ [line]) (lines ++ [line ++ [cr]])

theorem Ended.cons {lines lines' : List (List α)} (h : Ended cr lines lines') (line : List α) :
    Ended cr (line :: lines) (line :: lines') := by
  cases h with
  | same => exact .same _
  | blank => exact .blank (line :: lines')
  | returned lines last => exact .returned (line :: lines) last

theorem Ended.ne_nil {lines lines' : List (List α)} (h : Ended cr lines lines')
    (hlines : lines' ≠ []) : lines ≠ [] := by
  cases h with
  | same => exact hlines
  | blank => simp
  | returned => simp

def prepend (x : α) : List (List α) → List (List α)
  | [] => [[x]]
  | line :: lines => (x :: line) :: lines

theorem Ended.prepend {lines lines' : List (List α)} (h : Ended cr lines lines')
    (hlines : lines' ≠ []) (x : α) :
    Ended cr (ByteText.prepend x lines) (ByteText.prepend x lines') := by
  cases h with
  | same => exact .same _
  | blank =>
    obtain ⟨line, rest, rfl⟩ := List.exists_cons_of_ne_nil hlines
    exact .blank ((x :: line) :: rest)
  | returned lines last =>
    cases lines with
    | nil => exact .returned [] (x :: last)
    | cons line rest => exact .returned ((x :: line) :: rest) last

end Ended

section Lines

variable {α : Type*} [DecidableEq α] {lf cr : α}

/-- The lines of a text, which end with a line feed, or with a carriage return before it. The
last line may lack its end. -/
def splitLines (lf cr : α) : List α → List (List α)
  | [] => []
  | [x] => if x = lf then [[]] else [[x]]
  | x :: y :: rest =>
    if x = lf then [] :: splitLines lf cr (y :: rest)
    else if x = cr ∧ y = lf then [] :: splitLines lf cr rest
    else
      match splitLines lf cr (y :: rest) with
      | [] => [[x]]
      | line :: lines => (x :: line) :: lines

theorem splitLines_lf (rest : List α) :
    splitLines lf cr (lf :: rest) = [] :: splitLines lf cr rest := by
  cases rest with
  | nil => simp [splitLines]
  | cons y rest => simp [splitLines]

theorem splitLines_append {line : List α} (rest : List α) (hline : lf ∉ line)
    (hend : line.getLast? ≠ some cr) :
    splitLines lf cr (line ++ lf :: rest) = line :: splitLines lf cr rest := by
  induction line with
  | nil => exact splitLines_lf rest
  | cons x line ih =>
    have hx : x ≠ lf := fun hx => hline (hx ▸ List.mem_cons_self)
    have hrest : lf ∉ line := fun hmem => hline (List.mem_cons_of_mem x hmem)
    cases line with
    | nil =>
      have hcr : x ≠ cr := by simpa using hend
      simp [splitLines, hx, hcr, splitLines_lf]
    | cons y line =>
      have hy : y ≠ lf := fun hy => hrest (hy ▸ List.mem_cons_self)
      have htail := ih hrest (by simpa using hend)
      rw [List.cons_append] at htail
      simp [splitLines, hx, hy, htail]

theorem splitLines_cons {x y : α} {rest : List α} (hlf : x ≠ lf) (hcr : ¬ (x = cr ∧ y = lf)) :
    splitLines lf cr (x :: y :: rest) = prepend x (splitLines lf cr (y :: rest)) := by
  rw [splitLines, if_neg hlf, if_neg hcr]
  cases splitLines lf cr (y :: rest) <;> rfl

theorem splitLines_crlf (rest : List α) (hne : cr ≠ lf) :
    splitLines lf cr (cr :: lf :: rest) = [] :: splitLines lf cr rest := by
  rw [splitLines, if_neg hne, if_pos ⟨rfl, rfl⟩]

theorem splitLines_ne_nil (x : α) (rest : List α) : splitLines lf cr (x :: rest) ≠ [] := by
  cases rest with
  | nil =>
    rw [splitLines]
    split <;> simp
  | cons y rest =>
    rw [splitLines]
    split
    · simp
    · split
      · simp
      · split <;> simp

def EndsLines (lf cr : α) (text rest : List α) : Prop :=
  ∃ lines, Ended cr lines (splitLines lf cr text) ∧
    splitLines lf cr (text ++ lf :: rest) = lines ++ splitLines lf cr rest

theorem EndsLines.cons {x y : α} {text rest : List α} (hx : x ≠ lf) (hcr : ¬ (x = cr ∧ y = lf))
    (h : EndsLines lf cr (y :: text) rest) : EndsLines lf cr (x :: y :: text) rest := by
  obtain ⟨lines, hended, heq⟩ := h
  have hne : splitLines lf cr (y :: text) ≠ [] := splitLines_ne_nil y text
  refine ⟨prepend x lines, ?_, ?_⟩
  · rw [splitLines_cons hx hcr]
    exact hended.prepend hne x
  · rw [List.cons_append, List.cons_append, splitLines_cons hx hcr, ← List.cons_append, heq]
    obtain ⟨line, rest', rfl⟩ := List.exists_cons_of_ne_nil (hended.ne_nil hne)
    rfl

theorem endsLines (hne : cr ≠ lf) (text rest : List α) : EndsLines lf cr text rest := by
  induction text using splitLines.induct lf cr with
  | case1 => exact ⟨[[]], .blank [], splitLines_lf rest⟩
  | case2 =>
    refine ⟨[[], []], ?_, ?_⟩
    · rw [splitLines_lf]
      exact .blank [[]]
    · rw [List.singleton_append, splitLines_lf, splitLines_lf]
      rfl
  | case3 x hx =>
    have hone : splitLines lf cr [x] = [[x]] := by rw [splitLines, if_neg hx]
    by_cases hcr : x = cr
    · subst hcr
      refine ⟨[[]], hone ▸ .returned [] [], ?_⟩
      rw [List.singleton_append, splitLines_crlf rest hne]
      rfl
    · refine ⟨[[x]], hone ▸ .same _, ?_⟩
      rw [List.singleton_append, splitLines_cons hx fun h => hcr h.1, splitLines_lf]
      rfl
  | case4 y text ih =>
    obtain ⟨lines, hended, heq⟩ := ih
    refine ⟨[] :: lines, ?_, ?_⟩
    · rw [splitLines_lf]
      exact hended.cons []
    · rw [List.cons_append, splitLines_lf, heq]
      rfl
  | case5 x y text hx h ih =>
    obtain ⟨rfl, rfl⟩ := h
    obtain ⟨lines, hended, heq⟩ := ih
    refine ⟨[] :: lines, ?_, ?_⟩
    · rw [splitLines_crlf text hne]
      exact hended.cons []
    · rw [List.cons_append, List.cons_append, splitLines_crlf _ hne, heq]
      rfl
  | case6 x y text hx hcr _ ih => exact ih.cons hx hcr
  | case7 x y text hx hcr _ _ _ ih => exact ih.cons hx hcr

theorem splitLines_flatMap {lines : List (List α)}
    (h : ∀ line ∈ lines, lf ∉ line ∧ line.getLast? ≠ some cr) :
    splitLines lf cr (lines.flatMap (· ++ [lf])) = lines := by
  induction lines with
  | nil => rfl
  | cons line lines ih =>
    obtain ⟨hlf, hcr⟩ := h line List.mem_cons_self
    rw [List.flatMap_cons, List.append_assoc, List.singleton_append,
      splitLines_append _ hlf hcr, ih fun line hline => h line (List.mem_cons_of_mem _ hline)]

end Lines

section Hex

def byteDigits (byte : UInt8) : List Char :=
  [Nat.digitChar (byte.toNat / 16), Nat.digitChar (byte.toNat % 16)]

def hexEncode (bytes : List UInt8) : List Char := bytes.flatMap byteDigits

def hexValue (c : Char) : Option ℕ :=
  if '0' ≤ c ∧ c ≤ '9' then some (c.toNat - '0'.toNat)
  else if 'a' ≤ c ∧ c ≤ 'f' then some (c.toNat - 'a'.toNat + 10)
  else if 'A' ≤ c ∧ c ≤ 'F' then some (c.toNat - 'A'.toNat + 10)
  else none

def hexDecode : List Char → Option (List UInt8)
  | [] => some []
  | [_] => none
  | high :: low :: rest => do
    let x ← hexValue high
    let y ← hexValue low
    let bytes ← hexDecode rest
    return UInt8.ofNat (16 * x + y) :: bytes

theorem hexValue_digitChar {n : ℕ} (hn : n < 16) : hexValue (Nat.digitChar n) = some n := by
  interval_cases n <;> decide

theorem utf8Size_digitChar {n : ℕ} (hn : n < 16) : (Nat.digitChar n).utf8Size = 1 := by
  interval_cases n <;> decide

theorem hexDecode_hexEncode (bytes : List UInt8) : hexDecode (hexEncode bytes) = some bytes := by
  induction bytes with
  | nil => rfl
  | cons byte bytes ih =>
    have hbyte : byte.toNat < 256 := byte.toNat_lt
    have hhigh : byte.toNat / 16 < 16 := by omega
    have hlow : byte.toNat % 16 < 16 := Nat.mod_lt _ (by decide)
    have hsum : 16 * (byte.toNat / 16) + byte.toNat % 16 = byte.toNat := by omega
    change hexDecode (_ :: _ :: hexEncode bytes) = _
    simp only [hexDecode, hexValue_digitChar hhigh, hexValue_digitChar hlow, ih,
      Option.bind_eq_bind, Option.bind_some, hsum, UInt8.ofNat_toNat]
    rfl

theorem length_hexEncode (bytes : List UInt8) : (hexEncode bytes).length = 2 * bytes.length := by
  induction bytes with
  | nil => rfl
  | cons byte bytes ih =>
    have hstep : (hexEncode (byte :: bytes)).length = (hexEncode bytes).length + 2 := rfl
    rw [hstep, ih, List.length_cons]
    omega

theorem narrow_hexEncode (bytes : List UInt8) : Narrow (hexEncode bytes) := by
  intro c hc
  obtain ⟨byte, -, hdigit⟩ := List.mem_flatMap.mp hc
  have hbyte : byte.toNat < 256 := byte.toNat_lt
  have hhigh : byte.toNat / 16 < 16 := by omega
  have hlow : byte.toNat % 16 < 16 := Nat.mod_lt _ (by decide)
  simp only [byteDigits, List.mem_cons, List.not_mem_nil, or_false] at hdigit
  rcases hdigit with rfl | rfl
  · exact utf8Size_digitChar hhigh
  · exact utf8Size_digitChar hlow

end Hex

end OpenDaemon.ByteText
