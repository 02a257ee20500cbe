import Mathlib.Data.List.Forall2
import OpenDaemon.ProductStore

/-!
# A plain table of tokens

The table that someone keeps who writes down every answer of the product store:
the last status of each product, and each issued token as it was handed out. The
stored rows hold a prefix and a digest of each token instead. Every call of the
store keeps the two in agreement.
-/

namespace OpenDaemon

open RowTable ByteText ProductStore

structure IssuedToken where
  token : String
  id : String
  productId : String
  scopes : List ApiScope
  revoked : Bool
  deriving DecidableEq, Repr

structure TokenTable where
  status : String → Option ProductStatus
  tokens : List IssuedToken

namespace TokenTable

def empty : TokenTable := ⟨fun _ => none, []⟩

def setStatus (table : TokenTable) (product : Product) : TokenTable :=
  { table with status := Function.update table.status product.id (some product.status) }

def issue (table : TokenTable) (created : CreatedProductToken) : TokenTable :=
  { table with
    tokens := table.tokens ++
      [⟨created.token, created.id, created.productId, created.scopes, false⟩] }

def revoke (table : TokenTable) (productId tokenId : String) : TokenTable :=
  { table with
    tokens := table.tokens.map fun issued =>
      if issued.productId = productId ∧ issued.id = tokenId then { issued with revoked := true }
      else issued }

/-- Only the answers that the store gave are written down. -/
def record (table : TokenTable) : (op : ProductOp) → Except ProductStoreError op.Result → TokenTable
  | .createProduct _, .ok product => table.setStatus product
  | .patchProduct .., .ok product => table.setStatus product
  | .createToken .., .ok created => table.issue created
  | .revokeToken productId tokenId, .ok _ => table.revoke productId tokenId
  | _, _ => table

def answer (table : TokenTable) (token : String) :
    Except ProductStoreError (Option AuthenticatedProductToken) :=
  match table.tokens.find? fun issued => decide (issued.token = token) with
  | none => .ok none
  | some issued =>
    if issued.revoked then .ok none
    else match table.status issued.productId with
      | some .active => .ok (some ⟨issued.id, issued.productId, issued.scopes⟩)
      | some .disabled => .error .productDisabled
      | none => .ok none

def Revoked (table : TokenTable) (token : String) : Prop :=
  ∃ issued ∈ table.tokens, issued.token = token ∧ issued.revoked = true

theorem answer_ne_panic (table : TokenTable) (token : String) :
    table.answer token ≠ .error .panic := by
  unfold answer
  split
  · exact fun h => by cases h
  · split
    · exact fun h => by cases h
    · split
      · exact fun h => by cases h
      · exact fun h => by cases h
      · exact fun h => by cases h

theorem Revoked.record {table : TokenTable} {token : String} (h : table.Revoked token)
    (op : ProductOp) (answer : Except ProductStoreError op.Result) :
    (table.record op answer).Revoked token := by
  obtain ⟨issued, hmem, htoken, hrevoked⟩ := h
  have hsame : ∀ table' : TokenTable, table'.tokens = table.tokens → table'.Revoked token :=
    fun table' htokens => ⟨issued, htokens ▸ hmem, htoken, hrevoked⟩
  cases answer with
  | error e => cases op <;> exact hsame _ rfl
  | ok result =>
    cases op with
    | createProduct input => exact hsame _ rfl
    | patchProduct productId patch => exact hsame _ rfl
    | createToken productId input bytes =>
      exact ⟨issued, List.mem_append_left _ hmem, htoken, hrevoked⟩
    | revokeToken productId tokenId =>
      refine ⟨_, List.mem_map_of_mem hmem, ?_, ?_⟩
      · split <;> exact htoken
      · split
        · rfl
        · exact hrevoked
    | authenticate presented => exact hsame _ rfl

end TokenTable

structure ProductRun where
  db : ProductDb
  table : TokenTable

section Histories
variable (tokenDigest : String → List UInt8) (plan : QueryPlan)

def ProductRun.step (run : ProductRun) (call : String × ProductOp) : ProductRun :=
  ⟨(call.2.exec tokenDigest plan call.1 run.db).2,
    run.table.record call.2 (call.2.exec tokenDigest plan call.1 run.db).1⟩

def productRun (history : List (String × ProductOp)) : ProductRun :=
  history.foldl (ProductRun.step tokenDigest plan) ⟨.empty, .empty⟩

variable {tokenDigest plan}

theorem revoked_later {history later : List (String × ProductOp)} {token : String}
    (h : (productRun tokenDigest plan history).table.Revoked token) :
    (productRun tokenDigest plan (history ++ later)).table.Revoked token := by
  rw [productRun, List.foldl_append]
  change TokenTable.Revoked (productRun tokenDigest plan history).table token at h
  rw [productRun] at h
  generalize history.foldl (ProductRun.step tokenDigest plan) ⟨.empty, .empty⟩ = run at h
  induction later generalizing run with
  | nil => exact h
  | cons call later ih => exact ih _ (h.record call.2 _)

end Histories

section Tokens

theorem generateToken_toList (bytes : Vector UInt8 24) :
    (generateToken bytes).toList = productTokenPrefix.toList ++ hexEncode bytes.toList := by
  simp [generateToken]

theorem narrow_generateToken (bytes : Vector UInt8 24) : Narrow (generateToken bytes).toList := by
  rw [generateToken_toList]
  have hall : (productTokenPrefix.toList.all fun c => c.utf8Size == 1) = true := by decide
  refine Narrow.append (fun c hc => ?_) (narrow_hexEncode _)
  exact beq_iff_eq.mp (List.all_eq_true.mp hall c hc)

theorem length_generateToken (bytes : Vector UInt8 24) :
    (generateToken bytes).toList.length = 53 := by
  rw [generateToken_toList, List.length_append, length_hexEncode, Vector.length_toList]
  decide

theorem tokenPrefix_of_narrow {token : String} (h : Narrow token.toList)
    (hlength : tokenPrefixLen ≤ token.toList.length) :
    tokenPrefix token = some (String.ofList (token.toList.take tokenPrefixLen)) := by
  rw [tokenPrefix, h.sliceTo hlength]
  rfl

end Tokens

structure TokenOf (tokenDigest : String → List UInt8) (row : ProductTokenRow)
    (issued : IssuedToken) : Prop where
  generated : ∃ bytes, issued.token = generateToken bytes
  id : row.id = issued.id
  productId : row.productId = issued.productId
  scopes : row.scopes = issued.scopes
  normal : ApiScope.btreeSet issued.scopes = issued.scopes
  stored : tokenPrefix issued.token = some row.tokenPrefix
  digest : row.tokenDigestHex = tokenDigestHex tokenDigest issued.token
  revoked : row.revokedAt.isSome = issued.revoked

structure Agrees (tokenDigest : String → List UInt8) (db : ProductDb) (table : TokenTable) :
    Prop where
  status : ∀ id, table.status id = (db.findProduct id).map Product.status
  productIds : (db.products.map Product.id).Nodup
  rows : List.Forall₂ (TokenOf tokenDigest) (db.tokens.map Row.value) table.tokens
  digests : (db.tokens.map fun r => r.value.tokenDigestHex).Nodup
  owners : ∀ r ∈ db.tokens, (db.findProduct r.value.productId).isSome

section Products
variable {db db' : ProductDb} {table : TokenTable} {tokenDigest : String → List UInt8}
  {now : String}

theorem findProduct_id {id : String} {product : Product} (h : db.findProduct id = some product) :
    product.id = id := by
  simpa using List.find?_some h

theorem getProduct_eq_ok {id : String} {product : Product} :
    getProduct id db = .ok product ↔ db.findProduct id = some product := by
  unfold getProduct
  cases db.findProduct id with
  | none => simp
  | some found => simp

theorem insertProduct_eq_ok {product : Product} (h : db.insertProduct product = .ok db') :
    (∀ p ∈ db.products, p.id ≠ product.id) ∧
      db' = { db with products := db.products ++ [product] } := by
  unfold ProductDb.insertProduct at h
  split at h
  · cases h
  · rename_i hany
    refine ⟨fun p hp hid => hany ?_, (Except.ok.inj h).symm⟩
    exact List.any_eq_true.mpr ⟨p, hp, decide_eq_true hid⟩

/-- The columns that `UPDATE products` sets. -/
def Product.withColumns (product updated : Product) : Product :=
  { product with
    displayName := updated.displayName
    status := updated.status
    description := updated.description
    updatedAt := updated.updatedAt }

theorem findProduct_updateProduct (id id' : String) (updated : Product) :
    (db.updateProduct id updated).findProduct id' = (db.findProduct id').map fun product =>
      if product.id = id then product.withColumns updated else product := by
  have hkey : (fun product : Product => decide (product.id = id')) ∘ (fun product =>
      if product.id = id then product.withColumns updated else product) =
      fun product => decide (product.id = id') := by
    funext product
    by_cases hid : product.id = id
    · simp [hid, Product.withColumns]
    · simp [hid]
  simp only [ProductDb.findProduct, ProductDb.updateProduct]
  change List.find? _ (db.products.map fun product =>
    if product.id = id then product.withColumns updated else product) = _
  rw [List.find?_map, hkey]

theorem Agrees.setStatus (h : Agrees tokenDigest db table) {product : Product}
    (htokens : db'.tokens = db.tokens) (hids : (db'.products.map Product.id).Nodup)
    (hfound : db'.findProduct product.id = some product)
    (hother : ∀ id, id ≠ product.id →
      (db'.findProduct id).map Product.status = (db.findProduct id).map Product.status) :
    Agrees tokenDigest db' (table.setStatus product) where
  status id := by
    by_cases hid : id = product.id
    · subst hid
      simp [TokenTable.setStatus, hfound]
    · rw [hother id hid, ← h.status id]
      simp [TokenTable.setStatus, hid]
  productIds := hids
  rows := by
    rw [htokens]
    exact h.rows
  digests := by
    rw [htokens]
    exact h.digests
  owners r hr := by
    rw [htokens] at hr
    by_cases hid : r.value.productId = product.id
    · rw [hid, hfound]
      rfl
    · have hsome := h.owners r hr
      rw [← Option.isSome_map (f := Product.status), ← hother _ hid, Option.isSome_map] at hsome
      exact hsome

theorem agrees_createProduct (h : Agrees tokenDigest db table) (input : CreateProduct) :
    Agrees tokenDigest (createProduct input now db).2
      (table.record (.createProduct input) (createProduct input now db).1) := by
  unfold createProduct
  split
  · exact h
  · split
    · exact h
    · rename_i db' hinsert
      obtain ⟨hnew, rfl⟩ := insertProduct_eq_ok hinsert
      -- the row is read back under its id, which no earlier row has
      have hold : db.findProduct input.id = none := by
        refine List.find?_eq_none.mpr fun p hp => ?_
        simpa using hnew p hp
      have hfound : ∀ product : Product, product.id = input.id →
          ProductDb.findProduct { db with products := db.products ++ [product] } input.id =
            some product := by
        intro product hid
        simp only [ProductDb.findProduct] at hold ⊢
        rw [List.find?_append, hold]
        simp [hid]
      generalize hproduct : (⟨input.id, input.displayName, .active, input.description, now, now⟩ :
        Product) = product at hnew hinsert
      have hid : product.id = input.id := by rw [← hproduct]
      have hread := getProduct_eq_ok.mpr (hfound product hid)
      simp only [hread, TokenTable.record]
      refine h.setStatus rfl ?_ (hid ▸ hfound product hid) fun id hne => ?_
      · rw [List.map_append, List.nodup_append]
        refine ⟨h.productIds, by simp, ?_⟩
        intro id hold' id' hnew' heq
        obtain ⟨p, hp, rfl⟩ := List.mem_map.mp hold'
        exact hnew p hp (heq.trans (by simpa using hnew'))
      · have hother : ¬ product.id = id := fun he => hne he.symm
        simp [ProductDb.findProduct, List.find?_append, hother]

theorem agrees_patchProduct (h : Agrees tokenDigest db table) (productId : String)
    (patch : PatchProduct) :
    Agrees tokenDigest (patchProduct productId patch now db).2
      (table.record (.patchProduct productId patch) (patchProduct productId patch now db).1) := by
  unfold patchProduct
  split
  · exact h
  · split
    · exact h
    · rename_i current hget
      have hcurrent := getProduct_eq_ok.mp hget
      have hid : current.id = productId := findProduct_id hcurrent
      dsimp only
      generalize hupdated : (⟨current.id, patch.displayName.getD current.displayName,
        patch.status.getD current.status, patch.description.getD current.description,
        current.createdAt, now⟩ : Product) = updated
      have hfound : (db.updateProduct productId updated).findProduct productId =
          some (current.withColumns updated) := by
        rw [findProduct_updateProduct, hcurrent]
        simp [hid]
      have hread := getProduct_eq_ok.mpr hfound
      simp only [hread, TokenTable.record]
      have hkeep : (current.withColumns updated).id = productId := hid
      refine h.setStatus rfl ?_ (hkeep.symm ▸ hfound) fun id hne => ?_
      · have hsame : (db.updateProduct productId updated).products.map Product.id =
            db.products.map Product.id := by
          simp only [ProductDb.updateProduct, List.map_map]
          refine List.map_congr_left fun product _ => ?_
          simp only [Function.comp]
          split <;> rfl
        rw [hsame]
        exact h.productIds
      · rw [findProduct_updateProduct, Option.map_map]
        refine Option.map_congr fun product hproduct => ?_
        have hpid : product.id ≠ productId := by
          rw [findProduct_id hproduct, ← hkeep]
          exact hne
        simp [hpid]

end Products

section Tokens
variable {db db' : ProductDb} {table table' : TokenTable} {tokenDigest : String → List UInt8}
  {now : String}

theorem insertToken_eq_ok {productId label hex id now : String} {scopes : List ApiScope}
    {stored : String} (h : db.insertToken productId label scopes stored hex now = .ok (id, db')) :
    (∀ r ∈ db.tokens, r.value.tokenDigestHex ≠ hex) ∧
      id = rowKey "ptok_" (nextRowid db.tokens) ∧
      db' = { db with tokens := RowTable.insert db.tokens fun rowid =>
        ⟨rowKey "ptok_" rowid, productId, label, scopes, stored, hex, now, none, none⟩ } := by
  unfold ProductDb.insertToken at h
  split at h
  · cases h
  · rename_i hany
    dsimp only at h
    split at h
    · cases h
    · obtain ⟨hid, hdb⟩ := Prod.mk.inj (Except.ok.inj h)
      refine ⟨fun r hr heq => hany ?_, hid.symm, hdb.symm⟩
      exact List.any_eq_true.mpr ⟨r, hr, decide_eq_true heq⟩

theorem tokenDecision_eq_ok {productId : String} {input : CreateProductToken}
    {bytes : Vector UInt8 24} {scopes : List ApiScope} {stored : String}
    (h : tokenDecision productId input bytes db = .ok (scopes, stored)) :
    (db.findProduct productId).isSome ∧ scopes = ApiScope.btreeSet input.scopes ∧
      tokenPrefix (generateToken bytes) = some stored := by
  unfold tokenDecision at h
  obtain ⟨product, hproduct, h⟩ := Call.bind_eq_ok.mp h
  obtain ⟨-, -, h⟩ := Call.bind_eq_ok.mp h
  obtain ⟨normal, hnormal, h⟩ := Call.bind_eq_ok.mp h
  have hscopes := Call.mapError_eq_ok.mp hnormal
  unfold normalizeScopes at hscopes
  split at hscopes
  · cases hscopes
  · split at h
    · cases h
    · rename_i found hfound
      obtain ⟨rfl, rfl⟩ := Prod.mk.inj (Except.ok.inj h)
      refine ⟨?_, (Except.ok.inj hscopes).symm, hfound⟩
      rw [getProduct_eq_ok.mp hproduct]
      rfl

theorem agrees_issue (h : Agrees tokenDigest db table) {productId label stored : String}
    {scopes : List ApiScope} {bytes : Vector UInt8 24} (howner : (db.findProduct productId).isSome)
    (hnormal : ApiScope.btreeSet scopes = scopes)
    (hstored : tokenPrefix (generateToken bytes) = some stored)
    (hfresh : ∀ r ∈ db.tokens,
      r.value.tokenDigestHex ≠ tokenDigestHex tokenDigest (generateToken bytes)) :
    Agrees tokenDigest
      { db with tokens := RowTable.insert db.tokens fun rowid => ⟨rowKey "ptok_" rowid, productId,
          label, scopes, stored, tokenDigestHex tokenDigest (generateToken bytes), now, none, none⟩ }
      (table.issue ⟨rowKey "ptok_" (nextRowid db.tokens), productId, label, scopes, stored,
        generateToken bytes, now⟩) where
  status := h.status
  productIds := h.productIds
  rows := by
    simp only [RowTable.insert, List.map_append]
    exact List.rel_append h.rows
      (.cons ⟨⟨bytes, rfl⟩, rfl, rfl, rfl, hnormal, hstored, rfl, rfl⟩ .nil)
  digests := by
    simp only [RowTable.insert, List.map_append, List.nodup_append]
    refine ⟨h.digests, by simp, ?_⟩
    intro hex hold hex' hnew heq
    obtain ⟨r, hr, rfl⟩ := List.mem_map.mp hold
    exact hfresh r hr (heq.trans (by simpa using hnew))
  owners r hr := by
    dsimp only at hr
    rcases mem_insert.mp hr with hr | rfl
    · exact h.owners r hr
    · exact howner

theorem agrees_createToken (h : Agrees tokenDigest db table) (productId : String)
    (input : CreateProductToken) (bytes : Vector UInt8 24) :
    Agrees tokenDigest (createToken tokenDigest productId input bytes now db).2
      (table.record (.createToken productId input bytes)
        (createToken tokenDigest productId input bytes now db).1) := by
  unfold createToken
  split
  · exact h
  · rename_i scopes stored hdecision
    obtain ⟨howner, hscopes, hstored⟩ := tokenDecision_eq_ok hdecision
    dsimp only
    split
    · exact h
    · rename_i id db' hinsert
      obtain ⟨hfresh, rfl, rfl⟩ := insertToken_eq_ok hinsert
      have hnormal : ApiScope.btreeSet scopes = scopes := by
        rw [hscopes, ApiScope.btreeSet_btreeSet]
      exact agrees_issue h howner hnormal hstored hfresh

theorem Agrees.updateTokens (h : Agrees tokenDigest db table) {p : ProductTokenRow → Bool}
    {f : ProductTokenRow → ProductTokenRow}
    (hdigest : ∀ row, (f row).tokenDigestHex = row.tokenDigestHex)
    (howner : ∀ row, (f row).productId = row.productId) (hstatus : table'.status = table.status)
    (hrows : List.Forall₂ (TokenOf tokenDigest)
      ((db.tokens.map Row.value).map fun row => if p row then f row else row) table'.tokens) :
    Agrees tokenDigest { db with tokens := update db.tokens p f } table' where
  status id := (congrFun hstatus id).trans (h.status id)
  productIds := h.productIds
  rows := by
    rw [map_value_update]
    exact hrows
  digests := by
    have hsame : (update db.tokens p f).map (fun r => r.value.tokenDigestHex) =
        db.tokens.map fun r => r.value.tokenDigestHex := by
      simp only [update, List.map_map]
      refine List.map_congr_left fun r _ => ?_
      simp only [Function.comp]
      split
      · exact hdigest _
      · rfl
    rw [hsame]
    exact h.digests
  owners r hr := by
    obtain ⟨q, hq, rfl⟩ := mem_update.mp hr
    split
    · have hsome := h.owners q hq
      rwa [← howner] at hsome
    · exact h.owners q hq

theorem isSome_coalesce (column : Option String) (now : String) :
    (coalesce column (some now)).isSome = true := by
  cases column <;> rfl

theorem agrees_revoke (h : Agrees tokenDigest db table) (productId tokenId : String) :
    Agrees tokenDigest (db.revoke productId tokenId now) (table.revoke productId tokenId) := by
  refine h.updateTokens (fun _ => rfl) (fun _ => rfl) rfl ?_
  refine List.forall₂_map_left_iff.mpr (List.forall₂_map_right_iff.mpr (h.rows.imp ?_))
  intro row issued hrow
  by_cases hkey : row.productId = productId ∧ row.id = tokenId
  · have hkey' : issued.productId = productId ∧ issued.id = tokenId :=
      ⟨hrow.productId ▸ hkey.1, hrow.id ▸ hkey.2⟩
    rw [if_pos (decide_eq_true hkey), if_pos hkey']
    exact { hrow with revoked := isSome_coalesce row.revokedAt now }
  · have hkey' : ¬ (issued.productId = productId ∧ issued.id = tokenId) := by
      rw [← hrow.productId, ← hrow.id]
      exact hkey
    rw [if_neg (by simpa using hkey), if_neg hkey']
    exact hrow

theorem agrees_revokeToken (h : Agrees tokenDigest db table) (productId tokenId : String) :
    Agrees tokenDigest (revokeToken productId tokenId now db).2
      (table.record (.revokeToken productId tokenId) (revokeToken productId tokenId now db).1) := by
  unfold revokeToken
  split
  · exact h
  · exact agrees_revoke h productId tokenId

theorem agrees_touchLastUsed (h : Agrees tokenDigest db table) (tokenId : String) :
    Agrees tokenDigest (db.touchLastUsed tokenId now) table := by
  refine h.updateTokens (fun _ => rfl) (fun _ => rfl) rfl ?_
  refine List.forall₂_map_left_iff.mpr (h.rows.imp ?_)
  intro row issued hrow
  split
  · exact { hrow with }
  · exact hrow

theorem agrees_authenticate (h : Agrees tokenDigest db table) (plan : QueryPlan) (token : String) :
    Agrees tokenDigest (authenticateProductToken tokenDigest plan token now db).2 table := by
  unfold authenticateProductToken
  split
  · exact h
  · split
    · exact h
    · split
      · exact agrees_touchLastUsed h _
      · exact h

theorem agrees_productStep (plan : QueryPlan) {run : ProductRun}
    (h : Agrees tokenDigest run.db run.table)
    (call : String × ProductOp) : Agrees tokenDigest (run.step tokenDigest plan call).db
      (run.step tokenDigest plan call).table := by
  obtain ⟨now, op⟩ := call
  cases op with
  | createProduct input => exact agrees_createProduct h input
  | patchProduct productId patch => exact agrees_patchProduct h productId patch
  | createToken productId input bytes => exact agrees_createToken h productId input bytes
  | revokeToken productId tokenId => exact agrees_revokeToken h productId tokenId
  | authenticate token => exact agrees_authenticate h plan token

theorem agrees_productRun (plan : QueryPlan) (history : List (String × ProductOp)) :
    Agrees tokenDigest (productRun tokenDigest plan history).db
      (productRun tokenDigest plan history).table := by
  have hrun : ∀ run : ProductRun, Agrees tokenDigest run.db run.table →
      Agrees tokenDigest (history.foldl (ProductRun.step tokenDigest plan) run).db
        (history.foldl (ProductRun.step tokenDigest plan) run).table := by
    induction history with
    | nil => exact fun _ h => h
    | cons call history ih => exact fun run h => ih _ (agrees_productStep plan h call)
  exact hrun _ ⟨fun _ => rfl, List.nodup_nil, .nil, List.nodup_nil, fun r hr => by cases hr⟩

end Tokens

end OpenDaemon
