import Mathlib.Data.Finset.Prod
import Std.Data.ExtTreeMap.Lemmas
import Pergamon.Fallible

/-!
The auth database of the sync server: the verifiers of the identities and their
tenants, the content bindings of the tenants, the tokens of their devices, the pending
binding challenges and the counters of failed logins. One mutex guards it, so each
function here is one step of the server; the ones that issue tokens or change bindings
run in a transaction, and an error leaves the database as it was.

A content id has one row for ever, and a tenant one live binding at a time, which the
type of the table carries. Hashing and base64 are parameters (`Crypto`), and so are the
ids and secrets that the server draws at random. Times are milliseconds of a clock that
each call reads; the creation times of rows are left out.
-/
namespace Pergamon
open Fallible

/-- What the server uses of the crates for base64, BLAKE3 and Ed25519. -/
structure Crypto where
  url_safe_encode : List UInt8 → String
  url_safe_decode : String → Option (List UInt8)
  blake3 : List UInt8 → List UInt8
  /-- Strict verification of a signature: key, message and signature. -/
  verify_ed25519 : List UInt8 → List UInt8 → List UInt8 → Bool

def TOKEN_SECRET_LEN : ℕ := 32
def ED25519_PUB_LEN : ℕ := 32
def DEVICE_ID_LEN : ℕ := 16

inductive TokenKind where
  | Access
  | Refresh
  deriving DecidableEq

inductive TokenScope where
  | Control
  | Content
  deriving DecidableEq

inductive BindingState where
  | legacy_reserved
  | active
  | retired
  deriving DecidableEq

inductive AuthStoreError where
  | HandleExists
  | InvalidToken
  | Db
  deriving DecidableEq

structure AccountRow where
  opaque_record : List UInt8
  oprf_key_id : String
  deriving DecidableEq

/-- The binding of a content id. -/
structure BindingRow where
  auth_tenant_id : String
  state : BindingState
  binding_version : ℤ
  operation_id : Option String
  bound_by_device_id : Option String
  bound_by_ed25519_pub : Option (List UInt8)
  deriving DecidableEq

structure TokenRow where
  auth_tenant_id : String
  device_id : String
  ed25519_pub : List UInt8
  token_hash : List UInt8
  kind : TokenKind
  expires_at : ℤ
  revoked_at : Option ℤ
  content_account_id : Option String
  binding_version : ℤ
  scope : TokenScope
  deriving DecidableEq

structure FailureRow where
  failure_count : ℕ
  locked_until : ℤ
  deriving DecidableEq

/-- The live binding of a tenant. -/
structure ContentBinding where
  auth_tenant_id : String
  content_account_id : String
  binding_version : ℤ
  state : BindingState
  operation_id : Option String
  deriving DecidableEq

structure BindingChallenge where
  server_instance_id : String
  operation_id : String
  challenge_id : String
  nonce : List UInt8
  auth_tenant_id : String
  content_account_id : String
  device_id : String
  ed25519_pub : List UInt8
  binding_version : ℤ
  expires_at_ms : ℤ
  deriving DecidableEq

/-- `content_bindings`: a content id is there once, and the unique index
    `one_live_binding` allows each tenant one row that is not retired. -/
structure ContentBindings where
  rows : Std.ExtTreeMap String BindingRow
  one_live_binding : ∀ (id id' : String) (row row' : BindingRow), rows[id]? = some row → rows[id']? = some row' →
    row.state ≠ .retired → row'.state ≠ .retired → row.auth_tenant_id = row'.auth_tenant_id → id = id'

namespace ContentBindings

def live (bindings : ContentBindings) (tenant : String) : Option (String × BindingRow) :=
  bindings.rows.toList.find? (fun entry => entry.2.auth_tenant_id = tenant && entry.2.state ≠ .retired)

theorem live_eq_some {bindings : ContentBindings} {tenant id : String} {row : BindingRow} :
    bindings.live tenant = some (id,row) ↔
      bindings.rows[id]? = some row ∧ row.auth_tenant_id = tenant ∧ row.state ≠ .retired := by
  have sound {id : String} {row : BindingRow} (found : bindings.live tenant = some (id,row)) :
      bindings.rows[id]? = some row ∧ row.auth_tenant_id = tenant ∧ row.state ≠ .retired := by
    have holds := List.find?_some found
    simp only [Bool.and_eq_true,decide_eq_true_eq] at holds
    exact ⟨Std.ExtTreeMap.mem_toList_iff_getElem?_eq_some.mp (List.mem_of_find?_eq_some found),holds⟩
  refine ⟨sound,fun ⟨there,owner,state⟩ => ?_⟩
  cases found : bindings.live tenant with
  | none =>
    have missed := List.find?_eq_none.mp found (id,row) (Std.ExtTreeMap.mem_toList_iff_getElem?_eq_some.mpr there)
    simp [owner,state] at missed
  | some entry =>
    obtain ⟨there',owner',state'⟩ := sound found
    have same := bindings.one_live_binding _ _ _ _ there' there state' state (owner'.trans owner.symm)
    have row' : entry.2 = row := by rw [same,there] at there'; exact (Option.some.inj there').symm
    rw [← same,← row']

theorem live_eq_none {bindings : ContentBindings} {tenant : String} : bindings.live tenant = none ↔
    ∀ (id : String) (row : BindingRow), bindings.rows[id]? = some row → row.auth_tenant_id = tenant →
      row.state = .retired := by
  constructor
  · intro missing id row there owner
    by_contra state
    rw [live_eq_some.mpr ⟨there,owner,state⟩] at missing
    cases missing
  · intro retired
    cases found : bindings.live tenant with
    | none => rfl
    | some entry =>
      obtain ⟨there,owner,state⟩ := live_eq_some.mp found
      exact absurd (retired _ _ there owner) state

/-- `INSERT INTO content_bindings`. -/
def insert (bindings : ContentBindings) (content_account_id : String) (row : BindingRow) :
    Except AuthStoreError ContentBindings :=
  if free : bindings.rows[content_account_id]? = none ∧
      (row.state ≠ .retired → bindings.live row.auth_tenant_id = none) then
    .ok ⟨bindings.rows.insert content_account_id row,by
      intro id id' r r' there there' state state' same
      rw [Std.ExtTreeMap.getElem?_insert] at there there'
      simp only [Std.LawfulEqOrd.compare_eq_iff_eq] at there there'
      split at there <;> split at there'
      · next here here' => exact here.symm.trans here'
      · cases there
        exact absurd (live_eq_none.mp (free.2 state) _ _ there' same.symm) state'
      · cases there'
        exact absurd (live_eq_none.mp (free.2 state') _ _ there same) state
      · exact bindings.one_live_binding _ _ _ _ there there' state state' same⟩
  else .error .Db

/-- `UPDATE content_bindings SET state='retired'` for a tenant. -/
def retire (bindings : ContentBindings) (tenant : String) : ContentBindings :=
  ⟨bindings.rows.map (fun _ row => if row.auth_tenant_id = tenant then { row with state := .retired } else row),by
    have kept {id : String} {row : BindingRow} (there : (bindings.rows.map
        (fun _ row => if row.auth_tenant_id = tenant then { row with state := .retired } else row))[id]? = some row)
        (state : row.state ≠ .retired) : bindings.rows[id]? = some row := by
      rw [Std.ExtTreeMap.getElem?_map,Option.map_eq_some_iff] at there
      obtain ⟨old,there,rfl⟩ := there
      split at state
      · exact absurd rfl state
      · next other => rw [if_neg other]; exact there
    intro id id' row row' there there' state state' same
    exact bindings.one_live_binding _ _ _ _ (kept there state) (kept there' state') state state' same⟩

section
variable {bindings bindings' : ContentBindings} {id tenant : String} {row : BindingRow}

theorem insert_ok (ok : bindings.insert id row = .ok bindings') : bindings.rows[id]? = none ∧
    (row.state ≠ .retired → bindings.live row.auth_tenant_id = none) ∧ bindings'.rows = bindings.rows.insert id row := by
  unfold insert at ok
  split at ok
  · next free =>
    cases ok
    exact ⟨free.1,free.2,rfl⟩
  · cases ok

/-- A new row is the binding of its tenant and touches no other tenant. -/
theorem live_insert (ok : bindings.insert id row = .ok bindings') (state : row.state ≠ .retired) (tenant : String) :
    bindings'.live tenant = if row.auth_tenant_id = tenant then some (id,row) else bindings.live tenant := by
  obtain ⟨free,-,rows⟩ := insert_ok ok
  split
  · next mine => exact live_eq_some.mpr ⟨by rw [rows,Std.ExtTreeMap.getElem?_insert_self],mine,state⟩
  · next other =>
    ext ⟨id',row'⟩
    rw [live_eq_some,live_eq_some,rows,Std.ExtTreeMap.getElem?_insert]
    by_cases same : id = id'
    · subst same
      simp only [Std.compare_self,if_true,Option.some.injEq,free,reduceCtorEq,false_and,iff_false]
      rintro ⟨rfl,owner,-⟩
      exact other owner
    · simp [same]

theorem retire_rows (id : String) : (bindings.retire tenant).rows[id]? = bindings.rows[id]?.map (fun row =>
    if row.auth_tenant_id = tenant then { row with state := .retired } else row) := by
  simp [retire]

/-- Retiring the rows of a tenant touches no other tenant. -/
theorem live_retire (other : String) :
    (bindings.retire tenant).live other = if tenant = other then none else bindings.live other := by
  split
  · next same =>
    subst same
    rw [live_eq_none]
    intro id row there owner
    rw [retire_rows,Option.map_eq_some_iff] at there
    obtain ⟨old,-,rfl⟩ := there
    split
    · rfl
    · next kept => rw [if_neg kept] at owner; exact absurd owner kept
  · next different =>
    ext ⟨id,row⟩
    rw [live_eq_some,live_eq_some,retire_rows,Option.map_eq_some_iff]
    constructor
    · rintro ⟨⟨old,there,rfl⟩,owner,state⟩
      split at owner
      · next mine => exact absurd (mine.symm.trans owner) different
      · next kept =>
        rw [if_neg kept] at state ⊢
        exact ⟨there,owner,state⟩
    · rintro ⟨there,owner,state⟩
      have kept : row.auth_tenant_id ≠ tenant := fun mine => different (mine.symm.trans owner)
      exact ⟨⟨row,there,if_neg kept⟩,owner,state⟩

end
end ContentBindings

structure AuthStore where
  accounts : Std.ExtTreeMap String AccountRow
  account_map : Std.ExtTreeMap String String
  content_bindings : ContentBindings
  tokens : Std.ExtTreeMap String TokenRow
  binding_challenges : List BindingChallenge
  auth_failures : Std.ExtTreeMap String FailureRow
  server_instance_id : String

/-- `i64::saturating_add`. -/
def i64_saturating_add (a b : ℤ) : ℤ := max (-2 ^ 63) (min (a + b) (2 ^ 63 - 1))

structure TokenConfig where
  access_ttl_ms : ℤ
  refresh_ttl_ms : ℤ

def hash_secret (crypto : Crypto) (secret : List UInt8) : List UInt8 := crypto.blake3 secret

/-- The id and the secret that are drawn for a token. -/
structure NewToken where
  token_id : String
  secret : List UInt8
  deriving DecidableEq

def NewToken.bearer (token : NewToken) (crypto : Crypto) : String :=
  token.token_id ++ "." ++ crypto.url_safe_encode token.secret

/-- Split a bearer at its first dot into the id and the secret of a token. -/
def parse_bearer (crypto : Crypto) (bearer : String) : Option (String × List UInt8) :=
  match bearer.toList.span (· ≠ '.') with
  | (_,[]) => none
  | (token_id,_ :: secret_b64) =>
    if token_id = [] then none
    else
      match crypto.url_safe_decode (String.ofList secret_b64) with
      | none => none
      | some secret => if secret.length = TOKEN_SECRET_LEN then some (String.ofList token_id,secret) else none

def constant_time_eq (a b : List UInt8) : Bool :=
  if a.length ≠ b.length then false
  else (a.zip b).foldl (fun diff pair => diff ||| (pair.1 ^^^ pair.2)) 0 == 0

/-- A token that passed validation. -/
structure ValidatedToken where
  token_id : String
  auth_tenant_id : String
  device_id : String
  ed25519_pub : List UInt8
  content_account_id : Option String
  binding_version : ℤ
  scope : TokenScope
  deriving DecidableEq

/-- The principal of a request for content. -/
structure AuthAccount where
  account_id : String
  device_id : String
  auth_tenant_id : String
  binding_version : ℤ
  token_id : String
  deriving DecidableEq

structure RotatedTokens where
  access_token : String
  access_expires_at : ℤ
  refresh_token : String
  refresh_expires_at : ℤ
  deriving DecidableEq

/-- The content id that a token is issued for, none without a binding. -/
def bound_content (binding : Option ContentBinding) : Option String := binding.map ContentBinding.content_account_id
/-- The binding version that a token is issued for. -/
def bound_version (binding : Option ContentBinding) : ℤ := binding.elim 0 ContentBinding.binding_version

namespace AuthStore

def binding_for (store : AuthStore) (tenant : String) : Option ContentBinding :=
  (store.content_bindings.live tenant).map fun entry =>
    ⟨tenant,entry.1,entry.2.binding_version,entry.2.state,entry.2.operation_id⟩

/-- Whether the tenant of a row is there, as the foreign keys ask. -/
def tenant_known (store : AuthStore) (tenant : String) : Bool :=
  store.account_map.toList.any (fun entry => entry.2 = tenant)

/-! ### Registration -/

def account_exists (store : AuthStore) (identity_handle : String) : Bool := store.accounts.contains identity_handle

def opaque_record (store : AuthStore) (identity_handle : String) : Option (List UInt8) :=
  store.accounts[identity_handle]?.map AccountRow.opaque_record

def account_id (store : AuthStore) (identity_handle : String) : Option String := store.account_map[identity_handle]?

/-- `INSERT INTO account_map`: an identity and a tenant are there once. -/
def insert_tenant (identity_handle tenant : String) : EStateM AuthStoreError AuthStore Unit := do
  let store ← get
  if store.account_map.contains identity_handle || store.tenant_known tenant then throw .Db
  set { store with account_map := store.account_map.insert identity_handle tenant }

/-- `INSERT INTO content_bindings`, for a tenant that is there. -/
def insert_binding (content_account_id : String) (row : BindingRow) : EStateM AuthStoreError AuthStore Unit := do
  let store ← get
  if !store.tenant_known row.auth_tenant_id then throw .Db
  match store.content_bindings.insert content_account_id row with
  | .error e => throw e
  | .ok bindings => set { store with content_bindings := bindings }

/-- Register an identity without a content namespace, for the tenant id that was drawn. -/
def register_unbound (identity_handle : String) (record : List UInt8) (oprf_key_id tenant : String) :
    EStateM AuthStoreError AuthStore String := do
  if (← get).account_exists identity_handle then throw .HandleExists
  transaction do
    modify fun store => { store with accounts := store.accounts.insert identity_handle ⟨record,oprf_key_id⟩ }
    insert_tenant identity_handle tenant
    return tenant

/-- Register an identity whose content id is its tenant id. -/
def finish_registration_at (identity_handle : String) (record : List UInt8) (oprf_key_id account_id : String) :
    EStateM AuthStoreError AuthStore String := do
  if (← get).account_exists identity_handle then throw .HandleExists
  transaction do
    modify fun store => { store with accounts := store.accounts.insert identity_handle ⟨record,oprf_key_id⟩ }
    insert_tenant identity_handle account_id
    insert_binding account_id ⟨account_id,.legacy_reserved,0,none,none,none⟩
    return account_id

/-! ### Tokens -/

/-- Insert a token for the binding that its tenant has now. -/
def insert_token_row (crypto : Crypto) (token : NewToken) (tenant device_id : String) (ed25519_pub : List UInt8)
    (kind : TokenKind) (expires_at_ms : ℤ) : EStateM AuthStoreError AuthStore Unit := do
  let store ← get
  let binding := store.binding_for tenant
  if store.tokens.contains token.token_id then throw .Db
  set { store with tokens := store.tokens.insert token.token_id {
    auth_tenant_id := tenant
    device_id := device_id
    ed25519_pub := ed25519_pub
    token_hash := hash_secret crypto token.secret
    kind := kind
    expires_at := expires_at_ms
    revoked_at := none
    content_account_id := bound_content binding
    binding_version := bound_version binding
    scope := if binding.isSome then .Content else .Control } }

/-- Insert an access and a refresh token for a device. -/
def insert_pair (crypto : Crypto) (access refresh : NewToken) (tenant device_id : String) (ed25519_pub : List UInt8)
    (access_expires_at refresh_expires_at : ℤ) : EStateM AuthStoreError AuthStore RotatedTokens := do
  insert_token_row crypto access tenant device_id ed25519_pub .Access access_expires_at
  insert_token_row crypto refresh tenant device_id ed25519_pub .Refresh refresh_expires_at
  return ⟨access.bearer crypto,access_expires_at,refresh.bearer crypto,refresh_expires_at⟩

/-- Issue the pair of a login; the clock is read for each of the two. -/
def mint_pair (crypto : Crypto) (now now' : ℤ) (access refresh : NewToken) (tenant device_id : String)
    (public_key : List UInt8) (config : TokenConfig) : EStateM AuthStoreError AuthStore RotatedTokens :=
  transaction (insert_pair crypto access refresh tenant device_id public_key
    (i64_saturating_add now config.access_ttl_ms) (i64_saturating_add now' config.refresh_ttl_ms))

/-- Whether a row is the refresh token that a device may exchange now. -/
def exchangeable (store : AuthStore) (now : ℤ) (tenant device_id : String) (ed25519_pub : List UInt8) (row : TokenRow) :
    Bool :=
  row.revoked_at.isNone && row.kind = .Refresh && decide (row.expires_at > now) && row.auth_tenant_id = tenant &&
    row.device_id = device_id && row.ed25519_pub = ed25519_pub &&
    row.content_account_id = bound_content (store.binding_for tenant) &&
    row.binding_version = bound_version (store.binding_for tenant)

/-- Consume a refresh token and issue the pair that follows it. -/
def rotate_refresh (crypto : Crypto) (now : ℤ) (access refresh : NewToken) (presented_refresh_id tenant device_id : String)
    (ed25519_pub : List UInt8) (access_ttl_ms refresh_ttl_ms : ℤ) : EStateM AuthStoreError AuthStore RotatedTokens :=
  transaction do
    let store ← get
    match store.tokens[presented_refresh_id]?.filter (store.exchangeable now tenant device_id ed25519_pub) with
    | none => throw .InvalidToken
    | some row =>
      set { store with tokens := store.tokens.insert presented_refresh_id { row with revoked_at := some now } }
      insert_pair crypto access refresh tenant device_id ed25519_pub
        (i64_saturating_add now access_ttl_ms) (i64_saturating_add now refresh_ttl_ms)

/-- The scope that a row may have: content authority comes with a content id. -/
def checked_scope (scope : TokenScope) (content_account_id : Option String) : Except AuthStoreError TokenScope :=
  match scope,content_account_id.isSome with
  | .Control,false => .ok .Control
  | .Content,true => .ok .Content
  | _,_ => .error .Db

/-- Load a token if it is valid now for the use that is made of it. -/
def load_valid_token (store : AuthStore) (crypto : Crypto) (now : ℤ) (bearer : String) (kind : TokenKind) :
    Except AuthStoreError (Option ValidatedToken) :=
  match parse_bearer crypto bearer with
  | none => .ok none
  | some (token_id,secret) =>
    match store.tokens[token_id]? with
    | none => .ok none
    | some row =>
      if row.kind ≠ kind then .ok none
      else if row.revoked_at.isSome ∨ row.expires_at ≤ now then .ok none
      else if !constant_time_eq (hash_secret crypto secret) row.token_hash then .ok none
      else
        let binding := store.binding_for row.auth_tenant_id
        if bound_content binding ≠ row.content_account_id ∨ bound_version binding ≠ row.binding_version then .ok none
        else do
          let scope ← checked_scope row.scope row.content_account_id
          if row.ed25519_pub.length ≠ ED25519_PUB_LEN then .ok none
          else .ok (some ⟨token_id,row.auth_tenant_id,row.device_id,row.ed25519_pub,row.content_account_id,
            row.binding_version,scope⟩)

/-- The principal of an access token; none without a content binding. -/
def validate_token (store : AuthStore) (crypto : Crypto) (now : ℤ) (bearer : String) :
    Except AuthStoreError (Option AuthAccount) := do
  let token ← store.load_valid_token crypto now bearer .Access
  .ok (token.bind fun t => t.content_account_id.map fun account_id =>
    ⟨account_id,t.device_id,t.auth_tenant_id,t.binding_version,t.token_id⟩)

/-- Revoke the tokens of a tenant that satisfy a condition. -/
def revoke_where (store : AuthStore) (now : ℤ) (chosen : TokenRow → Bool) : AuthStore :=
  { store with tokens := store.tokens.map (fun _ row =>
      if chosen row && row.revoked_at.isNone then { row with revoked_at := some now } else row) }

def of_device (tenant device_id : String) (row : TokenRow) : Bool :=
  row.auth_tenant_id = tenant && row.device_id = device_id

/-- Revoke all tokens of a device; the number of them is returned. -/
def revoke_device (now : ℤ) (tenant device_id : String) : EStateM AuthStoreError AuthStore ℕ := do
  let store ← get
  set (store.revoke_where now (of_device tenant device_id))
  return (store.tokens.toList.filter
    (fun entry => of_device tenant device_id entry.2 && entry.2.revoked_at.isNone)).length

/-- Whether the principal of a request still holds: its token and the binding of its
    tenant are as they were when it was admitted. -/
def principal_is_current (store : AuthStore) (now : ℤ) (principal : AuthAccount) : Bool :=
  match store.tokens[principal.token_id]?,store.binding_for principal.auth_tenant_id with
  | some t,some b =>
    t.auth_tenant_id = principal.auth_tenant_id && t.content_account_id = some principal.account_id &&
      t.binding_version = principal.binding_version && b.content_account_id = principal.account_id &&
      b.binding_version = t.binding_version && t.revoked_at.isNone && decide (t.expires_at > now) &&
      t.kind = .Access && t.scope = .Content
  | _,_ => false


/-! ### What the calls on tokens do -/

section
variable {s t : AuthStore} {crypto : Crypto} {token access refresh : NewToken} {tenant device_id id : String}
  {ed25519_pub : List UInt8} {kind : TokenKind} {row : TokenRow} {issued : RotatedTokens} {now : ℤ}

/-- Only the tokens differ. -/
def SameButTokens (s t : AuthStore) : Prop := t = { s with tokens := t.tokens }

theorem SameButTokens.refl (s : AuthStore) : s.SameButTokens s := rfl

theorem SameButTokens.trans {u : AuthStore} (first : s.SameButTokens t) (second : t.SameButTokens u) :
    s.SameButTokens u := by
  unfold SameButTokens at *
  rw [second,first]

theorem SameButTokens.bindings (same : s.SameButTokens t) : t.content_bindings = s.content_bindings := by
  rw [same]

theorem SameButTokens.binding_for (same : s.SameButTokens t) (tenant : String) :
    t.binding_for tenant = s.binding_for tenant := by
  unfold AuthStore.binding_for
  rw [same.bindings]

/-- A token is inserted under an id that is free, for the device that it is issued to. -/
theorem insert_token_row_ok {u : Unit} {expires_at_ms : ℤ}
    (ok : insert_token_row crypto token tenant device_id ed25519_pub kind expires_at_ms s = .ok u t) :
    s.tokens[token.token_id]? = none ∧ ∃ row : TokenRow, row.auth_tenant_id = tenant ∧ row.device_id = device_id ∧
      row.kind = kind ∧ row.revoked_at = none ∧
      t = { s with tokens := s.tokens.insert token.token_id row } := by
  unfold insert_token_row at ok
  obtain ⟨store,r,got,ok⟩ := work_bind_ok.mp ok
  cases got
  dsimp only at ok
  split at ok
  · cases ok
  · next free =>
    cases ok
    exact ⟨Std.ExtTreeMap.getElem?_eq_none free,_,rfl,rfl,rfl,rfl,rfl⟩

/-- What a call that issues tokens to a device leaves of the other tokens. -/
structure Issued (tenant device_id : String) (s t : AuthStore) : Prop where
  same : s.SameButTokens t
  kept : ∀ (id : String) (row : TokenRow), s.tokens[id]? = some row → t.tokens[id]? = some row
  fresh : ∀ (id : String) (row : TokenRow), t.tokens[id]? = some row → s.tokens[id]? = some row ∨
    row.auth_tenant_id = tenant ∧ row.device_id = device_id

theorem Issued.trans {u : AuthStore} (first : s.Issued tenant device_id t) (second : t.Issued tenant device_id u) :
    s.Issued tenant device_id u := by
  refine ⟨first.same.trans second.same,fun id row there => second.kept id row (first.kept id row there),?_⟩
  intro id row there
  rcases second.fresh id row there with before | mine
  · exact first.fresh id row before
  · exact .inr mine

theorem insert_token_row_issued {u : Unit} {expires_at_ms : ℤ}
    (ok : insert_token_row crypto token tenant device_id ed25519_pub kind expires_at_ms s = .ok u t) :
    s.Issued tenant device_id t := by
  obtain ⟨free,row,owner,device,-,-,rfl⟩ := insert_token_row_ok ok
  refine ⟨rfl,fun id old there => ?_,fun id old there => ?_⟩
  · rw [Std.ExtTreeMap.getElem?_insert]
    split
    · next same =>
      rw [Std.LawfulEqOrd.compare_eq_iff_eq] at same
      rw [← same,free] at there
      cases there
    · exact there
  · rw [Std.ExtTreeMap.getElem?_insert] at there
    split at there
    · cases there
      exact .inr ⟨owner,device⟩
    · exact .inl there

theorem insert_pair_issued {access_expires_at refresh_expires_at : ℤ}
    (ok : insert_pair crypto access refresh tenant device_id ed25519_pub access_expires_at refresh_expires_at s =
      .ok issued t) : s.Issued tenant device_id t := by
  unfold insert_pair at ok
  obtain ⟨u,mid,first,ok⟩ := work_bind_ok.mp ok
  obtain ⟨u',last,second,ok⟩ := work_bind_ok.mp ok
  cases ok
  exact (insert_token_row_issued first).trans (insert_token_row_issued second)

theorem mint_pair_issued {now' : ℤ} {config : TokenConfig}
    (ok : mint_pair crypto now now' access refresh tenant device_id ed25519_pub config s = .ok issued t) :
    s.Issued tenant device_id t :=
  insert_pair_issued (transaction_ok.mp ok)

/-- A rotation consumes a refresh token of the device that is valid now, and issues the
    tokens that follow it. -/
theorem rotate_refresh_ok {presented : String} {access_ttl_ms refresh_ttl_ms : ℤ}
    (ok : rotate_refresh crypto now access refresh presented tenant device_id ed25519_pub access_ttl_ms refresh_ttl_ms s =
      .ok issued t) : ∃ row, s.tokens[presented]? = some row ∧
        s.exchangeable now tenant device_id ed25519_pub row ∧
        ({ s with tokens := s.tokens.insert presented { row with revoked_at := some now } } : AuthStore).Issued
          tenant device_id t := by
  have ok := transaction_ok.mp ok
  obtain ⟨store,r,got,ok⟩ := work_bind_ok.mp ok
  cases got
  cases found : s.tokens[presented]?.filter (s.exchangeable now tenant device_id ed25519_pub) with
  | none =>
    simp only [found] at ok
    cases ok
  | some row =>
    simp only [found] at ok
    obtain ⟨u,mid,written,ok⟩ := work_bind_ok.mp ok
    cases written
    rw [Option.filter_eq_some_iff] at found
    exact ⟨row,found.1,found.2,insert_pair_issued ok⟩

/-- A token that loads is there as it was issued: of the kind, neither revoked nor
    expired, and for the binding that its tenant still has. -/
theorem load_valid_token_ok {bearer : String} {who : ValidatedToken}
    (ok : s.load_valid_token crypto now bearer kind = .ok (some who)) :
    ∃ secret, parse_bearer crypto bearer = some (who.token_id,secret) ∧ ∃ row, s.tokens[who.token_id]? = some row ∧
      row.kind = kind ∧ row.revoked_at = none ∧ now < row.expires_at ∧ row.auth_tenant_id = who.auth_tenant_id ∧
      row.device_id = who.device_id ∧ row.ed25519_pub = who.ed25519_pub ∧
      row.content_account_id = who.content_account_id ∧ row.binding_version = who.binding_version ∧
      bound_content (s.binding_for who.auth_tenant_id) = who.content_account_id ∧
      bound_version (s.binding_for who.auth_tenant_id) = who.binding_version := by
  unfold load_valid_token at ok
  split at ok
  · cases ok
  · next token_id secret parsed =>
    split at ok
    · cases ok
    · next row there =>
      split at ok
      · cases ok
      · next same =>
        split at ok
        · cases ok
        · next valid =>
          split at ok
          · cases ok
          · dsimp only at ok
            split at ok
            · cases ok
            · next bound =>
              obtain ⟨scope,-,ok⟩ := bind_ok.mp ok
              split at ok
              · cases ok
              · cases ok
                rw [not_or,Option.not_isSome_iff_eq_none,not_le] at valid
                rw [not_or,not_not,not_not] at bound
                exact ⟨secret,parsed,row,there,not_not.mp same,valid.1,valid.2,rfl,rfl,rfl,rfl,rfl,bound.1,bound.2⟩

theorem revoke_where_tokens {chosen : TokenRow → Bool} : (s.revoke_where now chosen).tokens[id]? =
    s.tokens[id]?.map (fun row =>
      if chosen row && row.revoked_at.isNone then { row with revoked_at := some now } else row) := by
  simp [revoke_where]

theorem revoke_device_ok {n : ℕ} (ok : revoke_device now tenant device_id s = .ok n t) :
    t = s.revoke_where now (of_device tenant device_id) := by
  unfold revoke_device at ok
  obtain ⟨store,r,got,ok⟩ := work_bind_ok.mp ok
  cases got
  obtain ⟨u,mid,written,ok⟩ := work_bind_ok.mp ok
  cases written
  cases ok
  rfl

end
end AuthStore
end Pergamon
