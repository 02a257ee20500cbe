import OpenDaemon.PercentEncoding

/-!
# Request paths of the console

The client puts ids into paths as percent-encoded segments. An id is read back from its
segment, and a path has the segments it was made of, whatever the ids are.
-/

namespace OpenDaemon.Console

open PercentEncoding

def isUnreserved (c : Char) : Bool :=
  c.isAlphanum || c == '-' || c == '_' || c == '.' || c == '~'

def idPathSegment (id : String) : String :=
  String.ofList (encode isUnreserved (Utf8.encode id.toList))

inductive Request
  | updateProduct (productId : String)
  | productTokens (productId : String)
  | createProductToken (productId : String)
  | revokeProductToken (productId tokenId : String)
  | deleteAgent (agentId : String)
  | deleteDirectory (directoryId : String)
  | task (taskId : String)
  | cancelTask (taskId : String)
  | respondPermission (taskId : String)
  deriving DecidableEq, Repr

def Request.segments : Request → List String
  | .updateProduct productId => ["v1", "products", idPathSegment productId]
  | .productTokens productId => ["v1", "products", idPathSegment productId, "tokens"]
  | .createProductToken productId => ["v1", "products", idPathSegment productId, "tokens"]
  | .revokeProductToken productId tokenId =>
    ["v1", "products", idPathSegment productId, "tokens", idPathSegment tokenId]
  | .deleteAgent agentId => ["v1", "agents", idPathSegment agentId]
  | .deleteDirectory directoryId => ["v1", "directories", idPathSegment directoryId]
  | .task taskId => ["v1", "tasks", idPathSegment taskId]
  | .cancelTask taskId => ["v1", "tasks", idPathSegment taskId, "cancel"]
  | .respondPermission taskId => ["v1", "tasks", idPathSegment taskId, "events"]

def Request.path (request : Request) : String := "/".intercalate ("" :: request.segments)

def delimiters : List Char := ['/', '?', '#']

/-- The segment is over the alphabet, gives the id back and ends nothing. -/
structure Encodes (id : String) (segment : List Char) : Prop where
  wellFormed : WellFormed isUnreserved segment
  decoded : Utf8.decode (decode segment) = some id.toList
  clean : ∀ c ∈ delimiters, c ∉ segment

theorem plain_isUnreserved : Plain isUnreserved where
  ascii c hc := by
    simp only [isUnreserved, Bool.or_eq_true, beq_iff_eq] at hc
    rcases hc with (((hc | rfl) | rfl) | rfl) | rfl
    · exact ByteText.toNat_lt_of_isAlphanum hc
    · decide
    · decide
    · decide
    · decide
  percent := by decide

theorem not_mem_of_delimiter {text : List Char} (h : WellFormed isUnreserved text) :
    ∀ c ∈ delimiters, c ∉ text := by
  intro c hc hmem
  have hplain : isUnreserved c = false ∧ c ≠ '%' ∧ isUpperHex c = false := by
    simp only [delimiters, List.mem_cons, List.not_mem_nil, or_false] at hc
    rcases hc with rfl | rfl | rfl <;> decide
  rcases mem_wellFormed h hmem with hkept | hpercent | hhex
  · exact Bool.noConfusion (hkept.symm.trans hplain.1)
  · exact hplain.2.1 hpercent
  · exact Bool.noConfusion (hhex.symm.trans hplain.2.2)

theorem encodes_idPathSegment (id : String) : Encodes id (idPathSegment id).toList := by
  rw [idPathSegment, String.toList_ofList]
  refine ⟨wellFormed_encode _, ?_, not_mem_of_delimiter (wellFormed_encode _)⟩
  rw [decode_encode plain_isUnreserved, Utf8.decode_encode]

theorem idPathSegment_injective : Function.Injective idPathSegment := by
  intro id id' h
  have hsame := String.ofList_injective h
  exact String.toList_injective
    (Utf8.encode_injective (encode_injective plain_isUnreserved hsame))

def segmentNames : List String :=
  ["v1", "products", "tokens", "agents", "directories", "tasks", "cancel", "events"]

theorem mem_segments {request : Request} {segment : String} (h : segment ∈ request.segments) :
    segment ∈ segmentNames ∨ ∃ id, segment = idPathSegment id := by
  simp only [segmentNames, List.mem_cons, List.not_mem_nil, or_false]
  cases request <;> simp only [Request.segments, List.mem_cons, List.not_mem_nil, or_false] at h <;>
    grind

theorem names_clean : ∀ name ∈ segmentNames, ∀ c ∈ delimiters, c ∉ name.toList := by
  simp [segmentNames, delimiters]

theorem segments_clean {request : Request} {segment : String} (h : segment ∈ request.segments) :
    ∀ c ∈ delimiters, c ∉ segment.toList := by
  rcases mem_segments h with hname | ⟨id, rfl⟩
  · exact names_clean segment hname
  · exact (encodes_idPathSegment id).clean

theorem splitOn_path (request : Request) :
    request.path.toList.splitOn '/' = [] :: request.segments.map String.toList := by
  rw [Request.path, String.toList_intercalate, List.map_cons]
  refine List.splitOn_intercalate '/' ?_ (List.cons_ne_nil _ _)
  intro segment hsegment
  rcases List.mem_cons.mp hsegment with rfl | hsegment
  · exact List.not_mem_nil
  · obtain ⟨text, htext, rfl⟩ := List.mem_map.mp hsegment
    exact segments_clean htext '/' (by decide)

theorem not_mem_intercalate {α : Type*} {c : α} {separator : List α} {parts : List (List α)}
    (hseparator : c ∉ separator) (hparts : ∀ part ∈ parts, c ∉ part) :
    c ∉ separator.intercalate parts := by
  induction parts with
  | nil => simp [List.intercalate]
  | cons part parts ih =>
    cases parts with
    | nil => simpa [List.intercalate] using hparts
    | cons next parts =>
      rw [List.intercalate_cons_cons]
      simp only [List.forall_mem_cons, List.mem_append] at hparts ih ⊢
      tauto

theorem not_mem_path (request : Request) {c : Char} (hc : c ∈ delimiters) (hne : c ≠ '/') :
    c ∉ request.path.toList := by
  rw [Request.path, String.toList_intercalate]
  refine not_mem_intercalate (by simpa using hne) fun part hpart => ?_
  obtain ⟨text, htext, rfl⟩ := List.mem_map.mp hpart
  rcases List.mem_cons.mp htext with rfl | htext
  · exact List.not_mem_nil
  · exact segments_clean htext c hc

/-- An id is read back from its segment, so that no two ids share one, and the path of a request
has the segments it was made of and no query or fragment. -/
theorem segments_faithful :
    (∀ id, Encodes id (idPathSegment id).toList) ∧ Function.Injective idPathSegment ∧
    ∀ request : Request,
      request.path.toList.splitOn '/' = [] :: request.segments.map String.toList ∧
      '?' ∉ request.path.toList ∧ '#' ∉ request.path.toList := by
  refine ⟨encodes_idPathSegment, idPathSegment_injective, fun request => ⟨splitOn_path request, ?_⟩⟩
  exact ⟨not_mem_path request (by decide) (by decide), not_mem_path request (by decide) (by decide)⟩

example : idPathSegment "a/ü%" = "a%2F%C3%BC%25" := by decide

end OpenDaemon.Console
