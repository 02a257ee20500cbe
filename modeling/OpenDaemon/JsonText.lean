import Mathlib.Data.Int.Notation
import OpenDaemon.JsonValue

/-!
# JSON text

The compact form in which a value is printed, without white space, and a reader
of that form. A value is read back from its text if its numbers are integers and
no object has two entries of one name; a fraction may be rounded by a reader.
-/

namespace OpenDaemon.JsonText

def quote : Char := Char.ofNat 0x22

def shorthands : List (Char × Char) :=
  [(quote, quote), ('\\', '\\'), (Char.ofNat 8, 'b'), ('\t', 't'), ('\n', 'n'),
    (Char.ofNat 12, 'f'), ('\r', 'r')]

def escape (c : Char) : List Char :=
  match shorthands.lookup c with
  | some letter => ['\\', letter]
  | none =>
    if c.toNat < 32 then
      ['\\', 'u', '0', '0', Nat.digitChar (c.toNat / 16), Nat.digitChar (c.toNat % 16)]
    else [c]

def quoted (s : String) : List Char := quote :: s.toList.flatMap escape ++ [quote]

mutual

def print : Value → List Char
  | .null => ['n', 'u', 'l', 'l']
  | .bool true => ['t', 'r', 'u', 'e']
  | .bool false => ['f', 'a', 'l', 's', 'e']
  | .number literal => literal.toList
  | .string s => quoted s
  | .array [] => ['[', ']']
  | .array (v :: items) => '[' :: print v ++ printItems items ++ [']']
  | .object [] => ['{', '}']
  | .object ((name, v) :: entries) =>
    '{' :: quoted name ++ ':' :: print v ++ printEntries entries ++ ['}']

def printItems : List Value → List Char
  | [] => []
  | v :: items => ',' :: print v ++ printItems items

def printEntries : List (String × Value) → List Char
  | [] => []
  | (name, v) :: entries => ',' :: quoted name ++ ':' :: print v ++ printEntries entries

end

def hexValue (c : Char) : Option ℕ :=
  if c.isDigit then some (c.toNat - 48)
  else if 97 ≤ c.toNat ∧ c.toNat < 103 then some (c.toNat - 87)
  else none

def letterOf (letter : Char) : Option Char :=
  (shorthands.find? fun entry => entry.2 = letter).map Prod.fst

def pushed (c : Char) (read : Option (List Char × List Char)) : Option (List Char × List Char) :=
  read.map fun (text, rest) => (c :: text, rest)

def readText : List Char → Option (List Char × List Char)
  | [] => none
  | '\\' :: 'u' :: '0' :: '0' :: a :: b :: rest => do
    let high ← hexValue a
    let low ← hexValue b
    pushed (Char.ofNat (16 * high + low)) (readText rest)
  | '\\' :: letter :: rest => do
    let c ← letterOf letter
    pushed c (readText rest)
  | c :: rest => if c = quote then some ([], rest) else pushed c (readText rest)

def after (c : Char) : List Char → Option (List Char)
  | d :: rest => if d = c then some rest else none
  | [] => none

def isNumberChar (c : Char) : Bool := c.isDigit || c == '-'

def keywords : List (List Char × Value) :=
  [(['n', 'u', 'l', 'l'], .null), (['t', 'r', 'u', 'e'], .bool true),
    (['f', 'a', 'l', 's', 'e'], .bool false)]

def readKeyword (text : List Char) : Option (Value × List Char) :=
  keywords.findSome? fun (word, v) =>
    if word <+: text then some (v, text.drop word.length) else none

mutual

def read : ℕ → List Char → Option (Value × List Char)
  | 0, _ => none
  | _ + 1, [] => none
  | fuel + 1, c :: rest =>
    if c = quote then (readText rest).map fun (text, rest) => (.string (String.ofList text), rest)
    else if isNumberChar c then
      some (.number (String.ofList ((c :: rest).takeWhile isNumberChar)),
        (c :: rest).dropWhile isNumberChar)
    else if c = '[' then
      if rest.head? = some ']' then some (.array [], rest.tail)
      else (readItems fuel rest).map fun (items, rest) => (.array items, rest)
    else if c = '{' then
      if rest.head? = some '}' then some (.object [], rest.tail)
      else (readEntries fuel rest).map fun (entries, rest) => (.object entries, rest)
    else readKeyword (c :: rest)

def readItems : ℕ → List Char → Option (List Value × List Char)
  | 0, _ => none
  | fuel + 1, text => do
    let (v, rest) ← read fuel text
    match rest with
    | ',' :: rest => (readItems fuel rest).map fun (items, rest) => (v :: items, rest)
    | ']' :: rest => some ([v], rest)
    | _ => none

def readEntries : ℕ → List Char → Option (List (String × Value) × List Char)
  | 0, _ => none
  | fuel + 1, text => do
    let (name, rest) ← readText (← after quote text)
    let (v, rest) ← read fuel (← after ':' rest)
    match rest with
    | ',' :: rest =>
      (readEntries fuel rest).map fun (entries, rest) => ((String.ofList name, v) :: entries, rest)
    | '}' :: rest => some ([(String.ofList name, v)], rest)
    | _ => none

end

def parse (text : List Char) : Option Value :=
  match read text.length text with
  | some (v, []) => some v
  | _ => none

/-- Numbers are integers that fit into 64 bits, and the names of an object are distinct. -/
inductive Exact : Value → Prop
  | null : Exact .null
  | bool (b : Bool) : Exact (.bool b)
  | number (n : ℤ) (lower : -9223372036854775808 ≤ n) (upper : n < 18446744073709551616) :
    Exact (.number (toString n))
  | string (s : String) : Exact (.string s)
  | array {items : List Value} (items_exact : ∀ v ∈ items, Exact v) : Exact (.array items)
  | object {entries : List (String × Value)} (entries_exact : ∀ entry ∈ entries, Exact entry.2)
      (names : (entries.map Prod.fst).Nodup) : Exact (.object entries)

section RoundTrip
variable {rest : List Char} {v : Value} {fuel : ℕ}

theorem hexValue_digitChar : ∀ n < 16, hexValue (Nat.digitChar n) = some n := by decide

theorem letterOf_of_lookup : ∀ entry ∈ shorthands, shorthands.lookup entry.1 = some entry.2 ∧
    letterOf entry.2 = some entry.1 ∧ entry.2 ≠ 'u' := by decide

theorem lookup_mem {entries : List (Char × Char)} {c letter : Char}
    (h : entries.lookup c = some letter) : (c, letter) ∈ entries := by
  induction entries with
  | nil => cases h
  | cons entry entries ih =>
    rw [List.lookup_cons] at h
    split at h
    · rename_i heq
      rw [← Option.some.inj h, beq_iff_eq.mp heq]
      exact List.mem_cons_self
    · exact List.mem_cons_of_mem _ (ih h)

theorem readText_escape (c : Char) : readText (escape c ++ rest) = pushed c (readText rest) := by
  unfold escape
  cases hletter : shorthands.lookup c with
  | some letter =>
    obtain ⟨-, hread, hne⟩ := letterOf_of_lookup _ (lookup_mem hletter)
    simp only [List.cons_append, List.nil_append]
    rw [readText.eq_3 _ _ (fun _ _ _ hu => absurd hu hne)]
    simp only at hread
    rw [hread]
    rfl
  | none =>
    by_cases hcontrol : c.toNat < 32
    · have hcode : 16 * (c.toNat / 16) + c.toNat % 16 = c.toNat := by omega
      simp only [if_pos hcontrol, List.cons_append, List.nil_append, readText]
      rw [hexValue_digitChar _ (by omega), hexValue_digitChar _ (by omega)]
      simp only [Option.bind_eq_bind, Option.bind_some, hcode, Char.ofNat_toNat]
    · have hquote : c ≠ quote := by
        rintro rfl
        cases hletter
      have hslash : c ≠ '\\' := by
        rintro rfl
        cases hletter
      simp only [if_neg hcontrol, List.cons_append, List.nil_append]
      rw [readText.eq_4 _ _ (fun _ _ _ hc => absurd hc hslash) (fun _ _ hc => absurd hc hslash),
        if_neg hquote]

theorem readText_quoted (text : List Char) :
    readText (text.flatMap escape ++ quote :: rest) = some (text, rest) := by
  induction text with
  | nil => rfl
  | cons c text ih =>
    rw [List.flatMap_cons, List.append_assoc, readText_escape, ih]
    rfl

def Ends (rest : List Char) : Prop := ∀ c ∈ rest.head?, isNumberChar c = false

theorem ends_cons {c : Char} (h : isNumberChar c = false) : Ends (c :: rest) := by
  intro d hd
  rw [← Option.some.inj hd]
  exact h

theorem isNumberChar_of_digit {c : Char} (h : c.isDigit) : isNumberChar c := by
  simp [isNumberChar, h]

theorem isNumberChar_of_mem {n : ℤ} {c : Char} (h : c ∈ (toString n).toList) :
    isNumberChar c := by
  have hdigits : ∀ m : ℕ, c ∈ (Nat.repr m).toList → isNumberChar c := by
    intro m hm
    rw [Nat.toList_repr] at hm
    exact isNumberChar_of_digit (Nat.isDigit_of_mem_toDigits (by decide) (by decide) hm)
  cases n with
  | ofNat m => exact hdigits m h
  | negSucc m =>
    change c ∈ ("-" ++ Nat.repr (m + 1)).toList at h
    rw [String.toList_append] at h
    rcases List.mem_append.mp h with hsign | hdigit
    · rw [List.mem_singleton.mp hsign]
      rfl
    · exact hdigits _ hdigit

theorem toString_toList_ne_nil (n : ℤ) : (toString n).toList ≠ [] := by
  cases n with
  | ofNat m =>
    change (Nat.repr m).toList ≠ []
    rw [Nat.toList_repr]
    exact Nat.toDigits_ne_nil
  | negSucc m =>
    change ("-" ++ Nat.repr (m + 1)).toList ≠ []
    rw [String.toList_append]
    exact List.append_ne_nil_of_left_ne_nil (by decide) _

theorem span_number {digits : List Char} (hdigits : ∀ c ∈ digits, isNumberChar c)
    (hrest : Ends rest) : (digits ++ rest).takeWhile isNumberChar = digits ∧
      (digits ++ rest).dropWhile isNumberChar = rest := by
  induction digits with
  | nil =>
    cases rest with
    | nil => exact ⟨rfl, rfl⟩
    | cons c rest =>
      have hc := hrest c rfl
      simp [hc]
  | cons c digits ih =>
    have hc := hdigits c List.mem_cons_self
    have hmore := ih fun d hd => hdigits d (List.mem_cons_of_mem _ hd)
    simp [hc, hmore]

def Reads (v : Value) : Prop :=
  ∀ fuel rest, (print v).length ≤ fuel → Ends rest → read fuel (print v ++ rest) = some (v, rest)

theorem reads_number {literal : String} (hne : literal.toList ≠ [])
    (hchars : ∀ c ∈ literal.toList, isNumberChar c) : Reads (.number literal) := by
  intro fuel rest hfuel hrest
  obtain ⟨htake, hdrop⟩ := span_number hchars hrest
  cases hdigits : literal.toList with
  | nil => exact absurd hdigits hne
  | cons c digits =>
    have hc : isNumberChar c := hchars c (hdigits ▸ List.mem_cons_self)
    have hquote : c ≠ quote := by
      rintro rfl
      cases hc
    rw [print, hdigits] at hfuel
    obtain _ | fuel := fuel
    · cases hfuel
    · rw [hdigits, List.cons_append] at htake hdrop
      rw [print, hdigits, List.cons_append, read, if_neg hquote, if_pos hc, htake, hdrop,
        ← hdigits, String.ofList_toList]

theorem reads_string (s : String) : Reads (.string s) := by
  intro fuel rest hfuel _
  obtain _ | fuel := fuel
  · simp [print, quoted] at hfuel
  · simp only [print, quoted, List.cons_append, List.append_assoc, List.nil_append, read, if_pos]
    rw [readText_quoted, Option.map_some, String.ofList_toList]

theorem readItems_print {items : List Value} (hv : Reads v) (hitems : ∀ w ∈ items, Reads w)
    (fuel : ℕ) (hfuel : (print v).length + (printItems items).length < fuel) (rest : List Char) :
    readItems fuel (print v ++ (printItems items ++ ']' :: rest)) = some (v :: items, rest) := by
  induction items generalizing v fuel with
  | nil =>
    obtain _ | fuel := fuel
    · omega
    · simp only [printItems, List.length_nil] at hfuel
      simp only [readItems, printItems, List.nil_append]
      rw [hv fuel _ (by omega) (ends_cons rfl)]
      rfl
  | cons w items ih =>
    have hw := ih (hitems w List.mem_cons_self) fun u hu => hitems u (List.mem_cons_of_mem _ hu)
    simp only [printItems, List.length_append, List.length_cons] at hfuel
    obtain _ | fuel := fuel
    · omega
    · simp only [readItems, printItems, List.cons_append, List.append_assoc]
      rw [hv fuel _ (by omega) (ends_cons rfl)]
      simp only [Option.bind_eq_bind, Option.bind_some]
      rw [hw fuel (by omega)]
      rfl

theorem readEntries_print {entries : List (String × Value)} (name : String) (hv : Reads v)
    (hentries : ∀ entry ∈ entries, Reads entry.2) (fuel : ℕ)
    (hfuel : (print v).length + (printEntries entries).length < fuel) (rest : List Char) :
    readEntries fuel (quoted name ++ ':' :: (print v ++ (printEntries entries ++ '}' :: rest))) =
      some ((name, v) :: entries, rest) := by
  induction entries generalizing name v fuel with
  | nil =>
    obtain _ | fuel := fuel
    · omega
    · simp only [printEntries, List.length_nil] at hfuel
      simp only [readEntries, printEntries, quoted, List.cons_append, List.append_assoc,
        List.nil_append, after, if_pos, Option.bind_eq_bind, Option.bind_some, readText_quoted]
      rw [hv fuel _ (by omega) (ends_cons rfl)]
      simp only [Option.bind_some, String.ofList_toList]
  | cons entry entries ih =>
    obtain ⟨name', w⟩ := entry
    simp only [printEntries, List.length_append, List.length_cons] at hfuel
    obtain _ | fuel := fuel
    · omega
    · have hw := ih name' (hentries (name', w) List.mem_cons_self)
        (fun u hu => hentries u (List.mem_cons_of_mem _ hu)) fuel (by simp only; omega)
      simp only [quoted, List.cons_append, List.append_assoc, List.nil_append] at hw
      simp only [readEntries, printEntries, quoted, List.cons_append, List.append_assoc,
        List.nil_append, after, if_pos, Option.bind_eq_bind, Option.bind_some, readText_quoted]
      rw [hv fuel _ (by omega) (ends_cons rfl)]
      simp only [Option.bind_some, hw, Option.map_some, String.ofList_toList]

theorem head_print (h : Exact v) : ∃ c text, print v = c :: text ∧ c ≠ ']' := by
  cases h with
  | null => exact ⟨_, _, rfl, by decide⟩
  | bool b => cases b <;> exact ⟨_, _, rfl, by decide⟩
  | number n =>
    cases hdigits : (toString n).toList with
    | nil => exact absurd hdigits (toString_toList_ne_nil n)
    | cons c digits =>
      refine ⟨c, digits, hdigits, ?_⟩
      rintro rfl
      cases isNumberChar_of_mem (n := n) (hdigits ▸ List.mem_cons_self)
  | string s => exact ⟨quote, _, rfl, by decide⟩
  | array items_exact =>
    rename_i items
    cases items <;> exact ⟨'[', _, rfl, by decide⟩
  | object entries_exact names =>
    rename_i entries
    cases entries <;> exact ⟨'{', _, rfl, by decide⟩

theorem reads_of_exact (h : Exact v) : Reads v := by
  induction h with
  | null =>
    intro fuel rest hfuel _
    obtain _ | fuel := fuel
    · cases hfuel
    · rfl
  | bool b =>
    intro fuel rest hfuel _
    obtain _ | fuel := fuel
    · cases b <;> cases hfuel
    · cases b <;> rfl
  | number n => exact reads_number (toString_toList_ne_nil n) fun c => isNumberChar_of_mem
  | string s => exact reads_string s
  | @array items items_exact ih =>
    intro fuel rest hfuel _
    obtain _ | fuel := fuel
    · cases items <;> cases hfuel
    cases items with
    | nil => rfl
    | cons v items =>
      obtain ⟨c, text, hhead, hc⟩ := head_print (items_exact v List.mem_cons_self)
      have hne : (print v ++ (printItems items ++ ']' :: rest)).head? ≠ some ']' := by
        rw [hhead]
        exact fun h => hc (Option.some.inj h)
      simp only [print, List.length_append, List.length_cons, List.length_nil] at hfuel
      have hitems := readItems_print (ih v List.mem_cons_self)
        (fun w hw => ih w (List.mem_cons_of_mem _ hw)) fuel (by omega) rest
      simp only [print, List.cons_append, List.append_assoc, List.nil_append]
      rw [read, if_neg (by decide), if_neg (by decide), if_pos rfl, if_neg hne, hitems]
      rfl
  | @object entries entries_exact names ih =>
    intro fuel rest hfuel _
    obtain _ | fuel := fuel
    · obtain _ | ⟨entry, entries⟩ := entries <;> cases hfuel
    obtain _ | ⟨⟨name, v⟩, entries⟩ := entries
    · rfl
    · simp only [print, List.length_append, List.length_cons, List.length_nil] at hfuel
      have hentries := readEntries_print name (ih (name, v) List.mem_cons_self)
        (fun entry hentry => ih entry (List.mem_cons_of_mem _ hentry)) fuel
        (by simp only; omega) rest
      simp only [print, List.cons_append, List.append_assoc, List.nil_append]
      rw [read, if_neg (by decide), if_neg (by decide), if_neg (by decide), if_pos rfl,
        if_neg (by simp [quoted, quote]), hentries]
      rfl

theorem parse_print (h : Exact v) : parse (print v) = some v := by
  unfold parse
  have hread := reads_of_exact h (print v).length [] (Nat.le_refl _) (by simp [Ends])
  rw [List.append_nil] at hread
  rw [hread]

end RoundTrip

end OpenDaemon.JsonText
