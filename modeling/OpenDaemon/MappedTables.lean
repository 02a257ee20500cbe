import OpenDaemon.RowTable
import OpenDaemon.SequencedLog

/-!
# Tables of encoded rows

A table whose rows are the encodings of the rows of another, in the same order
and under the same row ids. A statement that sees through the encoding does to
the one table what it does to the other.
-/

namespace OpenDaemon

variable {α β κ : Type*} {f : α → β}

namespace RowTable

def Row.map (f : α → β) (r : Row α) : Row β := ⟨r.rowid, f r.value⟩

@[simp] theorem Row.map_rowid (f : α → β) (r : Row α) : (r.map f).rowid = r.rowid := rfl

@[simp] theorem Row.map_value (f : α → β) (r : Row α) : (r.map f).value = f r.value := rfl

variable {rows : List (Row α)}

theorem nextRowid_map : nextRowid (rows.map (Row.map f)) = nextRowid rows := by
  simp only [nextRowid, maxRowid, List.map_map]
  rfl

theorem insert_map {mk : ℕ → α} {mk' : ℕ → β} (h : ∀ n, mk' n = f (mk n)) :
    insert (rows.map (Row.map f)) mk' = (insert rows mk).map (Row.map f) := by
  simp only [insert, nextRowid_map, List.map_append, List.map_cons, List.map_nil, h, Row.map]

theorem lookup_map {p : α → Bool} {p' : β → Bool} (h : ∀ v, p' (f v) = p v) :
    lookup (rows.map (Row.map f)) p' = (lookup rows p).map f := by
  induction rows with
  | nil => rfl
  | cons r rows ih =>
    simp only [lookup, List.map_cons, List.find?_cons, Row.map_value, h]
    cases p r.value with
    | true => rfl
    | false => exact ih

theorem update_map {p : α → Bool} {p' : β → Bool} {g : α → α} {g' : β → β}
    (h : ∀ v, p' (f v) = p v) (hg : ∀ v, g' (f v) = f (g v)) :
    update (rows.map (Row.map f)) p' g' = (update rows p g).map (Row.map f) := by
  simp only [update, List.map_map]
  refine List.map_congr_left fun r _ => ?_
  simp only [Function.comp_apply, Row.map_value, Row.map_rowid, h, hg]
  cases p r.value with
  | true => rfl
  | false => rfl

theorem delete_map {p : α → Bool} {p' : β → Bool} (h : ∀ v, p' (f v) = p v) :
    delete (rows.map (Row.map f)) p' = (delete rows p).map (Row.map f) := by
  simp only [delete, List.filter_map]
  refine congrArg _ (List.filter_congr fun r _ => ?_)
  simp only [Function.comp_apply, Row.map_value, h]

theorem values_map : (rows.map (Row.map f)).map Row.value = (rows.map Row.value).map f := by
  simp only [List.map_map]
  rfl

end RowTable

namespace SequencedLog

variable [DecidableEq κ] {key : α → κ} {key' : β → κ} {seq : α → ℕ} {seq' : β → ℕ} {log : List α}

theorem entriesOf_map (hkey : ∀ e, key' (f e) = key e) (k : κ) :
    entriesOf key' (log.map f) k = (entriesOf key log k).map f := by
  simp only [entriesOf, List.filter_map]
  refine congrArg _ (List.filter_congr fun e _ => ?_)
  simp only [Function.comp_apply, hkey]

theorem nextSeq_map (hkey : ∀ e, key' (f e) = key e) (hseq : ∀ e, seq' (f e) = seq e) (k : κ) :
    nextSeq key' seq' (log.map f) k = nextSeq key seq log k := by
  have hcomp : seq' ∘ f = seq := funext hseq
  simp only [nextSeq, entriesOf_map hkey, List.map_map, hcomp]

end SequencedLog

section Lists
variable {rows : List α}

theorem find?_encoded {p : α → Bool} {p' : β → Bool} (h : ∀ v ∈ rows, p' (f v) = p v) :
    (rows.map f).find? p' = (rows.find? p).map f := by
  induction rows with
  | nil => rfl
  | cons v rows ih =>
    rw [List.map_cons, List.find?_cons, List.find?_cons, h v List.mem_cons_self]
    cases p v with
    | true => rfl
    | false => exact ih fun w hw => h w (List.mem_cons_of_mem _ hw)

theorem any_encoded {p : α → Bool} {p' : β → Bool} (h : ∀ v, p' (f v) = p v) :
    (rows.map f).any p' = rows.any p := by
  rw [List.any_map]
  exact congrArg (List.any rows) (funext h)

theorem filter_encoded {p : α → Bool} {p' : β → Bool} (h : ∀ v, p' (f v) = p v) :
    (rows.map f).filter p' = (rows.filter p).map f := by
  rw [List.filter_map]
  exact congrArg _ (List.filter_congr fun v _ => h v)

theorem map_encoded {g : α → α} {g' : β → β} (h : ∀ v, g' (f v) = f (g v)) :
    (rows.map f).map g' = (rows.map g).map f := by
  rw [List.map_map, List.map_map]
  exact List.map_congr_left fun v _ => h v

theorem mapM_encoded {read : β → Option α} (h : ∀ v ∈ rows, read (f v) = some v) :
    (rows.map f).mapM read = some rows := by
  induction rows with
  | nil => rfl
  | cons v rows ih =>
    rw [List.map_cons, List.mapM_cons, h v List.mem_cons_self,
      ih fun w hw => h w (List.mem_cons_of_mem _ hw)]
    rfl

end Lists

end OpenDaemon
