import OpenDaemon.TokenTable

/-!
# Authentication against the plain table

The query by prefix and the loop over its rows find the issued token in whatever
order the rows come, so over every history the store authenticates as the plain
table of its answers does.
-/

namespace OpenDaemon

open RowTable ByteText ProductStore

section Answers
variable {db : ProductDb} {table : TokenTable} {tokenDigest : String → List UInt8}
  {token stored : String}

def TokenMatch.accepted (row : TokenMatch) :
    Except ProductStoreError (Option AuthenticatedProductToken) :=
  if row.productStatus = .disabled then .error .productDisabled
  else .ok (some ⟨row.id, row.productId, ApiScope.btreeSet row.scopes⟩)

theorem hexDecode_tokenDigestHex (token : String) :
    hexDecode (tokenDigestHex tokenDigest token).toList = some (tokenDigest token) := by
  simp [tokenDigestHex, hexDecode_hexEncode]

theorem matchRows_cons {row : TokenMatch} {rows : List TokenMatch} {issued : String}
    (hrow : row.tokenDigestHex = tokenDigestHex tokenDigest issued) :
    matchRows tokenDigest token (row :: rows) =
      if tokenDigest issued = tokenDigest token then row.accepted
      else matchRows tokenDigest token rows := by
  have htwice : ¬ String.ofList (hexEncode (tokenDigest token)) ≠ tokenDigestHex tokenDigest token :=
    fun h => h rfl
  rw [matchRows, hrow, hexDecode_tokenDigestHex]
  dsimp only
  rw [if_neg htwice]
  rfl

theorem matchRows_none {rows : List TokenMatch}
    (h : ∀ row ∈ rows, ∃ issued, row.tokenDigestHex = tokenDigestHex tokenDigest issued ∧
      tokenDigest issued ≠ tokenDigest token) :
    matchRows tokenDigest token rows = .ok none := by
  induction rows with
  | nil => rfl
  | cons row rows ih =>
    obtain ⟨issued, hrow, hne⟩ := h row List.mem_cons_self
    rw [matchRows_cons hrow, if_neg hne]
    exact ih fun other hother => h other (List.mem_cons_of_mem _ hother)

theorem matchRows_found {rows : List TokenMatch} {found : TokenMatch} (hfound : found ∈ rows)
    (hdigest : found.tokenDigestHex = tokenDigestHex tokenDigest token)
    (h : ∀ row ∈ rows, ∃ issued, row.tokenDigestHex = tokenDigestHex tokenDigest issued ∧
      (tokenDigest issued = tokenDigest token → row = found)) :
    matchRows tokenDigest token rows = found.accepted := by
  induction rows with
  | nil => cases hfound
  | cons row rows ih =>
    obtain ⟨issued, hrow, honly⟩ := h row List.mem_cons_self
    rw [matchRows_cons hrow]
    by_cases heq : tokenDigest issued = tokenDigest token
    · rw [if_pos heq, honly heq]
    · rw [if_neg heq]
      rcases List.mem_cons.mp hfound with rfl | hrest
      · -- its own digest is the one looked for
        have hhex := hrow.symm.trans hdigest
        have hdecode := congrArg (fun hex => hexDecode hex.toList) hhex
        simp only [hexDecode_tokenDigestHex] at hdecode
        exact absurd (Option.some.inj hdecode) heq
      · exact ih hrest fun other hother => h other (List.mem_cons_of_mem _ hother)

theorem mem_tokenMatches {row : TokenMatch} : row ∈ db.tokenMatches stored ↔
    ∃ r ∈ db.tokens, r.value.tokenPrefix = stored ∧ r.value.revokedAt = none ∧
      ∃ product ∈ db.products, product.id = r.value.productId ∧
        row = ⟨r.value.id, r.value.productId, r.value.scopes, r.value.tokenDigestHex,
          product.status⟩ := by
  simp only [ProductDb.tokenMatches, List.mem_flatMap, List.mem_map]
  constructor
  · rintro ⟨value, ⟨r, hr, rfl⟩, hrow⟩
    split at hrow
    · rename_i hmatch
      obtain ⟨product, hproduct, rfl⟩ := List.mem_map.mp hrow
      obtain ⟨hmem, hid⟩ := List.mem_filter.mp hproduct
      exact ⟨r, hr, hmatch.1, hmatch.2, product, hmem, of_decide_eq_true hid, rfl⟩
    · cases hrow
  · rintro ⟨r, hr, hstored, hlive, product, hmem, hid, rfl⟩
    refine ⟨r.value, ⟨r, hr, rfl⟩, ?_⟩
    rw [if_pos ⟨hstored, hlive⟩]
    exact List.mem_map.mpr ⟨product, List.mem_filter.mpr ⟨hmem, decide_eq_true hid⟩, rfl⟩

theorem Agrees.issued_of_row (h : Agrees tokenDigest db table) {r : Row ProductTokenRow}
    (hr : r ∈ db.tokens) : ∃ issued ∈ table.tokens, TokenOf tokenDigest r.value issued := by
  obtain ⟨i, hi, hget⟩ := List.mem_iff_getElem.mp (List.mem_map_of_mem hr)
  have hi' : i < table.tokens.length := h.rows.length_eq ▸ hi
  refine ⟨table.tokens[i], List.getElem_mem hi', ?_⟩
  rw [← hget]
  exact h.rows.get hi hi'

theorem Agrees.row_of_issued (h : Agrees tokenDigest db table) {issued : IssuedToken}
    (hissued : issued ∈ table.tokens) :
    ∃ r ∈ db.tokens, TokenOf tokenDigest r.value issued := by
  obtain ⟨i, hi, hget⟩ := List.mem_iff_getElem.mp hissued
  have hi' : i < (db.tokens.map Row.value).length := h.rows.length_eq.symm ▸ hi
  obtain ⟨r, hr, hvalue⟩ := List.mem_map.mp (List.getElem_mem hi')
  refine ⟨r, hr, ?_⟩
  rw [hvalue, ← hget]
  exact h.rows.get hi' hi

theorem Agrees.nodup (h : Agrees tokenDigest db table) :
    (table.tokens.map IssuedToken.token).Nodup := by
  have hmap : table.tokens.map (fun issued => tokenDigestHex tokenDigest issued.token) =
      db.tokens.map fun r => r.value.tokenDigestHex := by
    have hsame : ∀ (rows : List ProductTokenRow) (tokens : List IssuedToken),
        List.Forall₂ (TokenOf tokenDigest) rows tokens →
        tokens.map (fun issued => tokenDigestHex tokenDigest issued.token) =
          rows.map ProductTokenRow.tokenDigestHex := by
      intro rows tokens hrows
      induction hrows with
      | nil => rfl
      | cons hrow _ ih => rw [List.map_cons, List.map_cons, ih, hrow.digest]
    rw [hsame _ _ h.rows, List.map_map]
    rfl
  have hnodup := h.digests
  rw [← hmap, ← Function.comp_def (tokenDigestHex tokenDigest) IssuedToken.token,
    ← List.map_map] at hnodup
  exact hnodup.of_map _

theorem findProduct_eq_some_iff (h : (db.products.map Product.id).Nodup) {id : String}
    {product : Product} :
    db.findProduct id = some product ↔ product ∈ db.products ∧ product.id = id := by
  constructor
  · intro hfind
    exact ⟨List.mem_of_find?_eq_some hfind, findProduct_id hfind⟩
  · rintro ⟨hmem, rfl⟩
    cases hfind : db.findProduct product.id with
    | none =>
      have hnone := List.find?_eq_none.mp hfind product hmem
      simp at hnone
    | some found =>
      have hsame : found.id = product.id := findProduct_id hfind
      rw [List.inj_on_of_nodup_map h (List.mem_of_find?_eq_some hfind) hmem hsame]

theorem Agrees.mem_tokenMatches_iff (h : Agrees tokenDigest db table) {row : TokenMatch} :
    row ∈ db.tokenMatches stored ↔
      ∃ issued ∈ table.tokens, issued.revoked = false ∧ tokenPrefix issued.token = some stored ∧
        ∃ status, table.status issued.productId = some status ∧
          row = ⟨issued.id, issued.productId, issued.scopes,
            tokenDigestHex tokenDigest issued.token, status⟩ := by
  rw [mem_tokenMatches]
  constructor
  · rintro ⟨r, hr, hstored, hlive, product, hmem, hid, rfl⟩
    obtain ⟨issued, hissued, hrow⟩ := h.issued_of_row hr
    have hfind := (findProduct_eq_some_iff h.productIds).mpr ⟨hmem, hid⟩
    refine ⟨issued, hissued, ?_, ?_, product.status, ?_, ?_⟩
    · rw [← hrow.revoked, hlive]
      rfl
    · rw [hrow.stored, hstored]
    · rw [h.status, ← hrow.productId, hfind]
      rfl
    · rw [hrow.id, hrow.productId, hrow.scopes, hrow.digest]
  · rintro ⟨issued, hissued, hlive, hstored, status, hstatus, rfl⟩
    obtain ⟨r, hr, hrow⟩ := h.row_of_issued hissued
    rw [h.status, ← hrow.productId] at hstatus
    obtain ⟨product, hfind, rfl⟩ := Option.map_eq_some_iff.mp hstatus
    obtain ⟨hmem, hid⟩ := (findProduct_eq_some_iff h.productIds).mp hfind
    refine ⟨r, hr, ?_, ?_, product, hmem, hid, ?_⟩
    · exact Option.some.inj (hrow.stored.symm.trans hstored)
    · rw [← hrow.revoked] at hlive
      exact Option.isNone_iff_eq_none.mp (by simpa using hlive)
    · rw [hrow.id, hrow.productId, hrow.scopes, hrow.digest]

/-- A presented token with the digest of an issued one is that token. -/
def CollisionFree (tokenDigest : String → List UInt8) (table : TokenTable) (token : String) : Prop :=
  ∀ issued ∈ table.tokens, tokenDigest issued.token = tokenDigest token → issued.token = token

theorem TokenTable.find_issued {issued : IssuedToken}
    (hnodup : (table.tokens.map IssuedToken.token).Nodup) (hissued : issued ∈ table.tokens)
    (htoken : issued.token = token) :
    table.tokens.find? (fun issued => decide (issued.token = token)) = some issued := by
  cases hfind : table.tokens.find? fun issued => decide (issued.token = token) with
  | none =>
    have hnone := List.find?_eq_none.mp hfind issued hissued
    simp [htoken] at hnone
  | some found =>
    have hsame : found.token = issued.token := by
      rw [htoken]
      simpa using List.find?_some hfind
    rw [List.inj_on_of_nodup_map hnodup (List.mem_of_find?_eq_some hfind) hissued hsame]

theorem TokenTable.answer_of_revoked (hnodup : (table.tokens.map IssuedToken.token).Nodup)
    (h : table.Revoked token) : table.answer token = .ok none := by
  obtain ⟨issued, hissued, htoken, hrevoked⟩ := h
  rw [TokenTable.answer, TokenTable.find_issued hnodup hissued htoken]
  simp [hrevoked]

theorem Agrees.matchRows_eq (h : Agrees tokenDigest db table) (plan : QueryPlan)
    (hstored : tokenPrefix token = some stored) (hfree : CollisionFree tokenDigest table token) :
    matchRows tokenDigest token (plan.order (db.tokenMatches stored)) = table.answer token := by
  have hmem : ∀ row, row ∈ plan.order (db.tokenMatches stored) ↔ row ∈ db.tokenMatches stored :=
    fun row => (plan.perm _).mem_iff
  by_cases hlive : ∃ issued ∈ table.tokens, issued.token = token ∧ issued.revoked = false
  · obtain ⟨issued, hissued, rfl, hrevoked⟩ := hlive
    have hfind := TokenTable.find_issued h.nodup hissued rfl
    -- the product of a stored token is in the store
    obtain ⟨r, hr, hrow⟩ := h.row_of_issued hissued
    obtain ⟨product, hproduct⟩ := Option.isSome_iff_exists.mp (h.owners r hr)
    have hstatus : table.status issued.productId = some product.status := by
      rw [h.status, ← hrow.productId, hproduct]
      rfl
    have hfound := (hmem _).mpr (h.mem_tokenMatches_iff.mpr
      ⟨issued, hissued, hrevoked, hstored, product.status, hstatus, rfl⟩)
    rw [matchRows_found hfound rfl]
    · rw [TokenTable.answer, hfind]
      simp only [hrevoked, hstatus, TokenMatch.accepted, hrow.normal]
      cases product.status <;> rfl
    · intro row hrow'
      obtain ⟨other, hother, -, -, status, hstatus', rfl⟩ :=
        h.mem_tokenMatches_iff.mp ((hmem _).mp hrow')
      refine ⟨other.token, rfl, fun hdigest => ?_⟩
      have hsame := hfree other hother hdigest
      obtain rfl := List.inj_on_of_nodup_map h.nodup hother hissued hsame
      rw [Option.some.inj (hstatus'.symm.trans hstatus)]
  · have hanswer : table.answer token = .ok none := by
      rw [TokenTable.answer]
      split
      · rfl
      · rename_i issued hfind
        have htoken : issued.token = token := by simpa using List.find?_some hfind
        have hrevoked : issued.revoked = true := by
          by_contra hn
          exact hlive ⟨issued, List.mem_of_find?_eq_some hfind, htoken, by simpa using hn⟩
        simp [hrevoked]
    rw [hanswer]
    refine matchRows_none fun row hrow => ?_
    obtain ⟨issued, hissued, hrevoked, -, status, -, rfl⟩ :=
      h.mem_tokenMatches_iff.mp ((hmem _).mp hrow)
    refine ⟨issued.token, rfl, fun hdigest => ?_⟩
    exact hlive ⟨issued, hissued, hfree issued hissued hdigest, hrevoked⟩

theorem Agrees.answer_of_shape (h : Agrees tokenDigest db table)
    (hshape : ¬ productTokenPrefix.toList <+: token.toList ∨
      byteLength token.toList < tokenPrefixLen) : table.answer token = .ok none := by
  have hnone : table.tokens.find? (fun issued => decide (issued.token = token)) = none := by
    refine List.find?_eq_none.mpr fun issued hissued htoken => ?_
    obtain ⟨r, -, hrow⟩ := h.row_of_issued hissued
    obtain ⟨bytes, hbytes⟩ := hrow.generated
    obtain rfl : generateToken bytes = token := hbytes ▸ of_decide_eq_true htoken
    rcases hshape with hshape | hshape
    · refine hshape ?_
      rw [generateToken_toList]
      exact List.prefix_append _ _
    · rw [(narrow_generateToken bytes).byteLength, length_generateToken] at hshape
      exact absurd hshape (by decide)
  rw [TokenTable.answer, hnone]

theorem Agrees.authenticate_eq (h : Agrees tokenDigest db table) (plan : QueryPlan)
    (hnarrow : Narrow token.toList) (hfree : CollisionFree tokenDigest table token) (now : String) :
    (authenticateProductToken tokenDigest plan token now db).1 = table.answer token := by
  unfold authenticateProductToken
  split
  · rename_i hshape
    exact (h.answer_of_shape hshape).symm
  · rename_i hshape
    have hlength : tokenPrefixLen ≤ token.toList.length := by
      have hnot := (not_or.mp hshape).2
      rw [hnarrow.byteLength] at hnot
      exact Nat.le_of_not_lt hnot
    have hstored := tokenPrefix_of_narrow hnarrow hlength
    rw [hstored]
    dsimp only
    rw [← h.matchRows_eq plan hstored hfree]
    split
    · rename_i found hfound
      exact hfound.symm
    · rfl

end Answers

section Requests
variable {tokenDigest : String → List UInt8} {plan : QueryPlan}

theorem narrow_toStr {header : List UInt8} {value : List Char} (h : Auth.toStr header = some value) :
    Narrow value := by
  unfold Auth.toStr at h
  split at h
  · rename_i hvisible
    obtain rfl := Option.some.inj h
    intro c hc
    obtain ⟨byte, hbyte, rfl⟩ := List.mem_map.mp hc
    have hlt : byte.toNat < 128 := by
      have hv := List.all_eq_true.mp hvisible byte hbyte
      simp only [Auth.visible, Bool.or_eq_true, Bool.and_eq_true, decide_eq_true_eq,
        beq_iff_eq, UInt8.lt_iff_toNat_lt] at hv
      rcases hv with ⟨-, hv⟩ | rfl
      · exact hv.trans (by decide)
      · decide
    have hvalid : byte.toNat.isValidChar := .inl (hlt.trans (by decide))
    refine utf8Size_eq_one ?_
    rw [Char.ofNat, dif_pos hvalid]
    exact hlt
  · cases h

theorem narrow_bearerToken {header : Option (List UInt8)} {token : String}
    (h : Auth.bearerToken header = .ok token) : Narrow token.toList := by
  unfold Auth.bearerToken at h
  split at h
  · cases h
  · split at h
    · cases h
    · rename_i value hvalue
      split at h
      · dsimp only at h
        split at h
        · cases h
        · obtain rfl := Except.ok.inj h
          intro c hc
          rw [String.toList_ofList] at hc
          exact narrow_toStr hvalue c (List.mem_of_mem_drop hc)
      · cases h

/-- After every history of the store, and for every bearer token that a request header can
present: the store authenticates as the plain table of its answers, in which a token stands at
most once; a token that was revoked at some point is unknown from then on; and no presented
token makes the call panic. The request is answered accordingly, the bootstrap token apart. -/
theorem authentication_refines_table (tokenDigest : String → List UInt8) (plan : QueryPlan)
    (history : List (String × ProductOp)) {header : Option (List UInt8)} {token : String}
    (hbearer : Auth.bearerToken header = .ok token)
    (hfree : CollisionFree tokenDigest (productRun tokenDigest plan history).table token)
    (now : String) :
    ((productRun tokenDigest plan history).table.tokens.map IssuedToken.token).Nodup ∧
    (authenticateProductToken tokenDigest plan token now (productRun tokenDigest plan history).db).1 =
      (productRun tokenDigest plan history).table.answer token ∧
    (∀ earlier later, history = earlier ++ later →
      (productRun tokenDigest plan earlier).table.Revoked token →
      (authenticateProductToken tokenDigest plan token now
        (productRun tokenDigest plan history).db).1 = .ok none) ∧
    (authenticateProductToken tokenDigest plan token now
      (productRun tokenDigest plan history).db).1 ≠ .error .panic ∧
    ∀ config, Auth.isBootstrapToken config token = false →
      (Auth.authenticateRequest tokenDigest plan config header now
        (productRun tokenDigest plan history).db).1 =
        Auth.fromStore ((productRun tokenDigest plan history).table.answer token) := by
  have hagrees : Agrees tokenDigest (productRun tokenDigest plan history).db
      (productRun tokenDigest plan history).table := agrees_productRun plan history
  have hanswer := hagrees.authenticate_eq plan (narrow_bearerToken hbearer) hfree now
  refine ⟨hagrees.nodup, hanswer, ?_, ?_, ?_⟩
  · rintro earlier later rfl hrevoked
    rw [hanswer]
    exact TokenTable.answer_of_revoked hagrees.nodup (revoked_later hrevoked)
  · rw [hanswer]
    exact TokenTable.answer_ne_panic _ token
  · intro config hbootstrap
    simp only [Auth.authenticateRequest, hbearer, hbootstrap, Bool.false_eq_true, if_false]
    rw [hanswer]

end Requests

section Sample

def sampleDigest (token : String) : List UInt8 :=
  if token = "odpk_000000000000000000000000000000000000000000000000" then
    [206, 141, 87, 164, 147, 186, 92, 66, 233, 22, 76, 84, 104, 32, 48, 86, 219, 208, 123, 99, 4,
      99, 254, 31, 76, 65, 248, 46, 1, 87, 152, 2]
  else if token = "odpk_000000000000000000000000000000000000000000000001" then
    [86, 147, 26, 173, 80, 103, 145, 133, 211, 178, 66, 108, 197, 124, 10, 130, 130, 141, 4, 219,
      239, 191, 245, 115, 127, 175, 59, 244, 83, 71, 143, 103]
  else []

def rowOrder : QueryPlan := ⟨id, fun _ => .refl _⟩

def sampleHistory : List (String × ProductOp) :=
  [("t1", .createProduct ⟨"acme", "Acme", none⟩),
   ("t2", .createToken "acme" ⟨"ci", [.tasksRead, .tasksCreate]⟩ (.replicate 24 0)),
   ("t3", .createToken "acme" ⟨"cd", [.tasksRead]⟩ ((Vector.replicate 24 0).set 23 1)),
   ("t4", .revokeToken "acme" "ptok_1")]

def bearerHeader (token : String) : List UInt8 :=
  ("Bearer " ++ token).toList.map fun c => UInt8.ofNat c.toNat

theorem sampleHistory_authenticates :
    (authenticateProductToken sampleDigest rowOrder
      "odpk_000000000000000000000000000000000000000000000001" "t5"
      (productRun sampleDigest rowOrder sampleHistory).db).1 =
        .ok (some ⟨"ptok_2", "acme", [.tasksRead]⟩) := by
  have hbearer : Auth.bearerToken
      (some (bearerHeader "odpk_000000000000000000000000000000000000000000000001")) =
        .ok "odpk_000000000000000000000000000000000000000000000001" := by
    decide +kernel
  have hfree : CollisionFree sampleDigest (productRun sampleDigest rowOrder sampleHistory).table
      "odpk_000000000000000000000000000000000000000000000001" := by
    unfold CollisionFree
    decide +kernel
  have hanswer := (authentication_refines_table sampleDigest rowOrder sampleHistory hbearer hfree
    "t5").2.1
  rw [hanswer]
  decide +kernel

end Sample

end OpenDaemon
