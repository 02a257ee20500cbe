import OpenDaemon.ByteText
import OpenDaemon.TaskIntake

/-!
# Products and their tokens

The data of `product/mod.rs`, the calls of `store/products.rs` and the
authentication of a request in `api/auth.rs`. Of a token the table keeps its
first nine bytes and its digest only; the SHA-256 digest is a parameter.
-/

namespace OpenDaemon

open RowTable ByteText

inductive ProductStatus
  | active
  | disabled
  deriving DecidableEq, Repr

structure Product where
  id : String
  displayName : String
  status : ProductStatus
  description : Option String
  createdAt : String
  updatedAt : String
  deriving DecidableEq, Repr

structure CreateProduct where
  id : String
  displayName : String
  description : Option String

structure PatchProduct where
  displayName : Option String
  description : Option (Option String)
  status : Option ProductStatus

structure CreateProductToken where
  label : String
  scopes : List ApiScope

structure CreatedProductToken where
  id : String
  productId : String
  label : String
  scopes : List ApiScope
  tokenPrefix : String
  token : String
  createdAt : String
  deriving DecidableEq, Repr

structure AuthenticatedProductToken where
  tokenId : String
  productId : String
  scopes : List ApiScope
  deriving DecidableEq, Repr

inductive ProductError
  | productNotFound
  | productAlreadyExists
  | invalidProduct
  | invalidProductId
  | invalidProductToken
  deriving DecidableEq, Repr

/-- `panic` stands for the abort of the call by a slice inside a character. -/
inductive ProductStoreError
  | product (error : ProductError)
  | productDisabled
  | store
  | panic
  deriving DecidableEq, Repr

/-- In the order of the derived `Ord`. -/
def ApiScope.all : List ApiScope :=
  [.providersRead, .runtimesRead, .agentsRead, .agentsWrite, .directoriesRead, .directoriesGrant,
    .directoriesDirect, .tasksCreate, .tasksRead, .tasksCancel, .tasksRemoteExecution]

/-- A `BTreeSet` of scopes, as the increasing list of its elements. -/
def ApiScope.btreeSet (scopes : List ApiScope) : List ApiScope :=
  ApiScope.all.filter fun scope => decide (scope ∈ scopes)

@[simp] theorem ApiScope.mem_btreeSet {scopes : List ApiScope} {scope : ApiScope} :
    scope ∈ ApiScope.btreeSet scopes ↔ scope ∈ scopes := by
  have hall : scope ∈ ApiScope.all := by
    cases scope <;> decide
  simp [ApiScope.btreeSet, hall]

@[simp] theorem ApiScope.btreeSet_btreeSet (scopes : List ApiScope) :
    ApiScope.btreeSet (ApiScope.btreeSet scopes) = ApiScope.btreeSet scopes := by
  refine List.filter_congr fun scope _ => ?_
  simp

namespace Product

def validateId (id : String) : Except ProductError Unit :=
  if matchesProfileId id then .ok () else .error .invalidProductId

def validateRequiredString (value : String) : Except ProductError Unit :=
  if isBlank value then .error .invalidProduct else .ok ()

def validateOptionalString (value : String) : Except ProductError Unit :=
  if hasNul value then .error .invalidProduct else .ok ()

end Product

def CreateProduct.validate (input : CreateProduct) : Except ProductError Unit := do
  Product.validateId input.id
  Product.validateRequiredString input.displayName
  match input.description with
  | some description => Product.validateOptionalString description
  | none => .ok ()

def PatchProduct.validate (patch : PatchProduct) : Except ProductError Unit :=
  if patch.displayName.isNone ∧ patch.description.isNone ∧ patch.status.isNone then
    .error .invalidProduct
  else do
    match patch.displayName with
    | some displayName => Product.validateRequiredString displayName
    | none => .ok ()
    match patch.description with
    | some (some description) => Product.validateOptionalString description
    | _ => .ok ()

def normalizeScopes (scopes : List ApiScope) : Except ProductError (List ApiScope) :=
  if (ApiScope.btreeSet scopes).isEmpty then .error .invalidProductToken
  else .ok (ApiScope.btreeSet scopes)

def CreateProductToken.validate (input : CreateProductToken) : Except ProductError Unit := do
  Product.validateRequiredString input.label
  let _ ← normalizeScopes input.scopes
  return ()

/-- A row of `product_tokens`; JSON columns are kept decoded. -/
structure ProductTokenRow where
  id : String
  productId : String
  label : String
  scopes : List ApiScope
  tokenPrefix : String
  tokenDigestHex : String
  createdAt : String
  lastUsedAt : Option String
  revokedAt : Option String
  deriving DecidableEq, Repr

structure ProductDb where
  products : List Product
  tokens : List (Row ProductTokenRow)

namespace ProductDb

def empty : ProductDb := ⟨[], []⟩

def findProduct (db : ProductDb) (id : String) : Option Product :=
  db.products.find? fun product => decide (product.id = id)

def insertProduct (db : ProductDb) (product : Product) : Except SqlError ProductDb :=
  if db.products.any fun p => decide (p.id = product.id) then .error .constraint
  else .ok { db with products := db.products ++ [product] }

def updateProduct (db : ProductDb) (id : String) (updated : Product) : ProductDb :=
  { db with
    products := db.products.map fun product =>
      if product.id = id then
        { product with
          displayName := updated.displayName
          status := updated.status
          description := updated.description
          updatedAt := updated.updatedAt }
      else product }

/-- The transaction of `create_token`: the row goes in under the id `''` and is renamed. -/
def insertToken (db : ProductDb) (productId label : String) (scopes : List ApiScope)
    (tokenPrefix tokenDigestHex now : String) : Except ProductStoreError (String × ProductDb) :=
  if db.tokens.any fun r => decide (r.value.tokenDigestHex = tokenDigestHex) then
    .error (.product .productAlreadyExists)
  else
    let id := rowKey "ptok_" (nextRowid db.tokens)
    if db.tokens.any fun r => decide (r.value.id = "" ∨ r.value.id = id) then .error .store
    else
      .ok (id, { db with
        tokens := insert db.tokens fun rowid => ⟨rowKey "ptok_" rowid, productId, label, scopes,
          tokenPrefix, tokenDigestHex, now, none, none⟩ })

def revoke (db : ProductDb) (productId tokenId now : String) : ProductDb :=
  { db with
    tokens := update db.tokens (fun row => decide (row.productId = productId ∧ row.id = tokenId))
      fun row => { row with revokedAt := coalesce row.revokedAt (some now) } }

def touchLastUsed (db : ProductDb) (tokenId now : String) : ProductDb :=
  { db with
    tokens := update db.tokens (fun row => decide (row.id = tokenId))
      fun row => { row with lastUsedAt := some now } }

end ProductDb

structure TokenMatch where
  id : String
  productId : String
  scopes : List ApiScope
  tokenDigestHex : String
  productStatus : ProductStatus

/-- The order of the rows of a query without `ORDER BY`. -/
structure QueryPlan where
  order : List TokenMatch → List TokenMatch
  perm : ∀ rows, (order rows).Perm rows

def ProductDb.tokenMatches (db : ProductDb) (tokenPrefix : String) : List TokenMatch :=
  (db.tokens.map Row.value).flatMap fun row =>
    if row.tokenPrefix = tokenPrefix ∧ row.revokedAt = none then
      (db.products.filter fun product => decide (product.id = row.productId)).map fun product =>
        ⟨row.id, row.productId, row.scopes, row.tokenDigestHex, product.status⟩
    else []

namespace ProductStore

def tokenPrefixLen : ℕ := 9

def productTokenPrefix : String := "odpk_"

def generateToken (bytes : Vector UInt8 24) : String :=
  productTokenPrefix ++ String.ofList (hexEncode bytes.toList)

/-- `&token[..TOKEN_PREFIX_LEN]`; there is no value where the slice panics. -/
def tokenPrefix (token : String) : Option String :=
  (sliceTo tokenPrefixLen token.toList).map String.ofList

section Calls
variable (tokenDigest : String → List UInt8)

def tokenDigestHex (token : String) : String := String.ofList (hexEncode (tokenDigest token))

def getProduct (productId : String) (db : ProductDb) : Except ProductStoreError Product :=
  match db.findProduct productId with
  | some product => .ok product
  | none => .error (.product .productNotFound)

def createProduct (input : CreateProduct) (now : String) (db : ProductDb) :
    Except ProductStoreError Product × ProductDb :=
  match input.validate with
  | .error e => (.error (.product e), db)
  | .ok _ =>
    match db.insertProduct ⟨input.id, input.displayName, .active, input.description, now, now⟩ with
    | .error _ => (.error (.product .productAlreadyExists), db)
    | .ok db' => (getProduct input.id db', db')

def patchProduct (productId : String) (patch : PatchProduct) (now : String) (db : ProductDb) :
    Except ProductStoreError Product × ProductDb :=
  match patch.validate with
  | .error e => (.error (.product e), db)
  | .ok _ =>
    match getProduct productId db with
    | .error e => (.error e, db)
    | .ok current =>
      let updated : Product :=
        { id := current.id
          displayName := patch.displayName.getD current.displayName
          status := patch.status.getD current.status
          description := patch.description.getD current.description
          createdAt := current.createdAt
          updatedAt := now }
      let db' := db.updateProduct productId updated
      (getProduct productId db', db')

/-- What `create_token` decides before it opens the transaction. -/
def tokenDecision (productId : String) (input : CreateProductToken) (bytes : Vector UInt8 24)
    (db : ProductDb) : Except ProductStoreError (List ApiScope × String) := do
  let _ ← getProduct productId db
  input.validate.mapError .product
  let scopes ← (normalizeScopes input.scopes).mapError .product
  match tokenPrefix (generateToken bytes) with
  | none => .error .panic
  | some tokenPrefix => return (scopes, tokenPrefix)

def createToken (productId : String) (input : CreateProductToken) (bytes : Vector UInt8 24)
    (now : String) (db : ProductDb) : Except ProductStoreError CreatedProductToken × ProductDb :=
  match tokenDecision productId input bytes db with
  | .error e => (.error e, db)
  | .ok (scopes, tokenPrefix) =>
    let token := generateToken bytes
    match db.insertToken productId input.label scopes tokenPrefix
        (tokenDigestHex tokenDigest token) now with
    | .error e => (.error e, db)
    | .ok (id, db') => (.ok ⟨id, productId, input.label, scopes, tokenPrefix, token, now⟩, db')

def revokeToken (productId tokenId : String) (now : String) (db : ProductDb) :
    Except ProductStoreError Unit × ProductDb :=
  match getProduct productId db with
  | .error e => (.error e, db)
  | .ok _ => (.ok (), db.revoke productId tokenId now)

/-- The loop over the rows. The comparison of the two hexadecimal texts of one digest is in
the source; it never fails. -/
def matchRows (token : String) :
    List TokenMatch → Except ProductStoreError (Option AuthenticatedProductToken)
  | [] => .ok none
  | row :: rows =>
    match hexDecode row.tokenDigestHex.toList with
    | none => .error .store
    | some storedDigest =>
      if storedDigest = tokenDigest token then
        if row.productStatus = .disabled then .error .productDisabled
        else if String.ofList (hexEncode (tokenDigest token)) ≠ tokenDigestHex tokenDigest token then
          matchRows token rows
        else .ok (some ⟨row.id, row.productId, ApiScope.btreeSet row.scopes⟩)
      else matchRows token rows

def authenticateProductToken (plan : QueryPlan) (token : String) (now : String) (db : ProductDb) :
    Except ProductStoreError (Option AuthenticatedProductToken) × ProductDb :=
  if ¬ productTokenPrefix.toList <+: token.toList ∨ byteLength token.toList < tokenPrefixLen then
    (.ok none, db)
  else
    match tokenPrefix token with
    | none => (.error .panic, db)
    | some tokenPrefix =>
      match matchRows tokenDigest token (plan.order (db.tokenMatches tokenPrefix)) with
      | .ok (some found) => (.ok (some found), db.touchLastUsed found.tokenId now)
      | answer => (answer, db)

end Calls

end ProductStore

inductive ProductOp
  | createProduct (input : CreateProduct)
  | patchProduct (productId : String) (patch : PatchProduct)
  | createToken (productId : String) (input : CreateProductToken) (bytes : Vector UInt8 24)
  | revokeToken (productId tokenId : String)
  | authenticate (token : String)

@[reducible] def ProductOp.Result : ProductOp → Type
  | .createProduct _ => Product
  | .patchProduct .. => Product
  | .createToken .. => CreatedProductToken
  | .revokeToken .. => Unit
  | .authenticate _ => Option AuthenticatedProductToken

def ProductOp.exec (tokenDigest : String → List UInt8) (plan : QueryPlan) (now : String) :
    (op : ProductOp) → ProductDb → Except ProductStoreError op.Result × ProductDb
  | .createProduct input, db => ProductStore.createProduct input now db
  | .patchProduct productId patch, db => ProductStore.patchProduct productId patch now db
  | .createToken productId input bytes, db =>
    ProductStore.createToken tokenDigest productId input bytes now db
  | .revokeToken productId tokenId, db => ProductStore.revokeToken productId tokenId now db
  | .authenticate token, db =>
    ProductStore.authenticateProductToken tokenDigest plan token now db

structure ProductAuthContext where
  tokenId : String
  productId : String
  scopes : List ApiScope
  deriving DecidableEq, Repr

inductive AuthContext
  | bootstrap
  | product (context : ProductAuthContext)
  deriving DecidableEq, Repr

structure AuthConfig where
  bootstrapToken : Option String

namespace Auth

/-- `HeaderValue::to_str`: visible ASCII and the horizontal tab. -/
def visible (byte : UInt8) : Bool := (32 ≤ byte && byte < 127) || byte == 9

def toStr (header : List UInt8) : Option (List Char) :=
  if header.all visible then some (header.map fun byte => Char.ofNat byte.toNat) else none

def bearerToken (header : Option (List UInt8)) : Except AuthError String :=
  match header with
  | none => .error .missingAuthentication
  | some header =>
    match toStr header with
    | none => .error .invalidToken
    | some value =>
      if "Bearer ".toList <+: value then
        let token := value.drop "Bearer ".toList.length
        if token.isEmpty then .error .invalidToken else .ok (String.ofList token)
      else .error .invalidToken

def isBootstrapToken (config : AuthConfig) (token : String) : Bool :=
  config.bootstrapToken.any fun value => value = token

def fromStore : Except ProductStoreError (Option AuthenticatedProductToken) →
    Except AuthError AuthContext
  | .ok (some found) => .ok (.product ⟨found.tokenId, found.productId, found.scopes⟩)
  | .ok none => .error .invalidToken
  | .error .productDisabled => .error .productDisabled
  | .error _ => .error .invalidToken

def authenticateRequest (tokenDigest : String → List UInt8) (plan : QueryPlan)
    (config : AuthConfig) (header : Option (List UInt8)) (now : String) (db : ProductDb) :
    Except AuthError AuthContext × ProductDb :=
  match bearerToken header with
  | .error e => (.error e, db)
  | .ok token =>
    if isBootstrapToken config token then (.ok .bootstrap, db)
    else
      let (answer, db') :=
        ProductStore.authenticateProductToken tokenDigest plan token now db
      (fromStore answer, db')

end Auth

end OpenDaemon
