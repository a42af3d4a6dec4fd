import Pergamon.AuthStore
import Pergamon.Relay

/-!
The routes of the auth server that register an identity, complete a login, exchange a
refresh token and revoke the tokens of a device. Each runs its work on the auth
database under one lock; a legacy registration takes the writer of the content database
first, so that no namespace gets its first row meanwhile.

The messages arrive here decoded: the base64 of the wire is left out, and the AKE of a
login is over when the work here begins.
-/
namespace Pergamon
open Fallible

inductive StatusCode where
  | BAD_REQUEST
  | UNAUTHORIZED
  | FORBIDDEN
  | CONFLICT
  | TOO_MANY_REQUESTS
  | INTERNAL_SERVER_ERROR
  | SERVICE_UNAVAILABLE
  deriving DecidableEq

structure ApiError where
  status : StatusCode
  message : String
  code : String
  deriving DecidableEq

namespace ApiError

def bad_request (message : String) : ApiError := ⟨.BAD_REQUEST,message,"BAD_REQUEST"⟩
def unauthorized (message : String) : ApiError := ⟨.UNAUTHORIZED,message,"UNAUTHORIZED"⟩
def forbidden (message : String) : ApiError := ⟨.FORBIDDEN,message,"FORBIDDEN"⟩
def conflict (message : String) : ApiError := ⟨.CONFLICT,message,"CONFLICT"⟩
def too_many_requests (message : String) : ApiError := ⟨.TOO_MANY_REQUESTS,message,"TOO_MANY_REQUESTS"⟩
def internal (message : String) : ApiError := ⟨.INTERNAL_SERVER_ERROR,message,"INTERNAL_ERROR"⟩
def unavailable (message : String) : ApiError := ⟨.SERVICE_UNAVAILABLE,message,"UNAVAILABLE"⟩

def of_auth_store : AuthStoreError → ApiError
  | .HandleExists => conflict "an account already exists for this identity"
  | .InvalidToken => unauthorized "invalid or expired token"
  | .Db => internal "internal storage error"

end ApiError

/-- A conflict under a code of its own. -/
def binding_conflict (code message : String) : ApiError := { ApiError.conflict message with code := code }

/-- What a route does with the result of a call that only reads. -/
def ApiError.read {σ α : Type} : Except AuthStoreError α → EStateM ApiError σ α
  | .ok a => pure a
  | .error e => throw (of_auth_store e)

/-! ### Proofs of possession -/

/-- The length of a field in four bytes, big-endian. -/
def u32_be_bytes (n : ℕ) : List UInt8 :=
  let n := min n (2 ^ 32 - 1)
  [.ofNat (n / 2 ^ 24),.ofNat (n / 2 ^ 16),.ofNat (n / 2 ^ 8),.ofNat n]

def push_len_prefixed (buf bytes : List UInt8) : List UInt8 := buf ++ u32_be_bytes bytes.length ++ bytes

def utf8 (s : String) : List UInt8 := s.toUTF8.toList

def MINT_POP_TAG : List UInt8 := utf8 "pergamon/v1/auth/token-mint-pop"
def REFRESH_POP_TAG : List UInt8 := utf8 "pergamon/v1/auth/token-refresh-pop"

def hex_byte (b : UInt8) : List Char := [Nat.digitChar (b.toNat / 16),Nat.digitChar (b.toNat % 16)]

/-- The device of a key: the first bytes of its hash in hex. -/
def device_id_from_ed25519 (crypto : Crypto) (ed25519_pub : List UInt8) : String :=
  String.ofList (((crypto.blake3 ed25519_pub).take DEVICE_ID_LEN).flatMap hex_byte)

def mint_pop_message (crypto : Crypto) (login_id : String) (credential_finalization : List UInt8) (device_id : String)
    (ed25519_pub : List UInt8) : List UInt8 :=
  push_len_prefixed (push_len_prefixed MINT_POP_TAG (utf8 login_id) ++ crypto.blake3 credential_finalization)
    (utf8 device_id) ++ ed25519_pub

def refresh_pop_message (refresh_token_id : String) (nonce : List UInt8) (device_id : String)
    (ed25519_pub : List UInt8) : List UInt8 :=
  push_len_prefixed (push_len_prefixed (push_len_prefixed REFRESH_POP_TAG (utf8 refresh_token_id)) nonce)
    (utf8 device_id) ++ ed25519_pub

/-! ### Registration -/

/-- Register an identity with a content namespace of its own, under the barrier. -/
def register_legacy (content : SyncStore) (identity : String) (record : List UInt8) (key_id candidate : String) :
    EStateM ApiError AuthStore String := do
  if content.occupied candidate then
    throw (binding_conflict "CONTENT_NAMESPACE_UNAVAILABLE" "content namespace unavailable")
  EStateM.adaptExcept ApiError.of_auth_store (AuthStore.finish_registration_at identity record key_id candidate)

/-! ### Login -/

structure LoginFinishRequest where
  login_id : String
  credential_finalization : List UInt8
  device_id : Option String
  ed25519_pub : Option (List UInt8)
  pop_signature : Option (List UInt8)

structure V2TokenBundle where
  scope : TokenScope
  tokens : RotatedTokens
  device_id : String
  auth_tenant_id : String
  content_account_id : Option String
  binding_version : ℤ
  deriving DecidableEq

structure V2LoginFinishResponse where
  authenticated : Bool
  auth_tenant_id : String
  content_account_id : Option String
  binding_version : ℤ
  /-- The state of the binding, none for an unbound tenant. -/
  binding_state : Option BindingState
  token : Option V2TokenBundle
  deriving DecidableEq

/-- What the server draws and reads for a pair of tokens. -/
structure Issue where
  now : ℤ
  now' : ℤ
  access : NewToken
  refresh : NewToken

/-- Mint tokens for a device that proves its key; a login without a proof gets none. -/
def mint_on_login (crypto : Crypto) (config : TokenConfig) (issue : Issue) (req : LoginFinishRequest)
    (account_id : String) : EStateM ApiError AuthStore (Option V2TokenBundle) :=
  match req.device_id,req.ed25519_pub,req.pop_signature with
  | none,none,none => return none
  | some device_id,some ed25519_pub,some signature => do
    if ed25519_pub.length ≠ ED25519_PUB_LEN then throw (.bad_request "ed25519_pub_b64 must be 32 bytes")
    if signature.length ≠ 64 then throw (.bad_request "pop_signature_b64 must be 64 bytes")
    let pop_ok := device_id_from_ed25519 crypto ed25519_pub = device_id && crypto.verify_ed25519 ed25519_pub
      (mint_pop_message crypto req.login_id req.credential_finalization device_id ed25519_pub) signature
    if !pop_ok then throw (.unauthorized "device proof-of-possession failed")
    let pair ← EStateM.adaptExcept ApiError.of_auth_store
      (AuthStore.mint_pair crypto issue.now issue.now' issue.access issue.refresh account_id device_id ed25519_pub config)
    let binding := (← get).binding_for account_id
    return some ⟨if binding.isSome then .Content else .Control,pair,device_id,account_id,bound_content binding,
      bound_version binding⟩
  | _,_,_ => throw (.bad_request ("device proof-of-possession requires device_id, ed25519_pub_b64, and " ++
      "pop_signature_b64 together"))

/-- A login leaves what the issue of its tokens leaves. -/
theorem relates_mint_on_login {R : AuthStore → AuthStore → Prop} {crypto : Crypto} {config : TokenConfig} {issue : Issue}
    {account_id : String} (refl : ∀ s, R s s) (trans : ∀ s t r, R s t → R t r → R s r)
    (mint : ∀ device_id public_key, Relates R (AuthStore.mint_pair crypto issue.now issue.now' issue.access issue.refresh
      account_id device_id public_key config)) (req : LoginFinishRequest) :
    Relates R (mint_on_login crypto config issue req account_id) := by
  unfold mint_on_login
  split
  · exact .pure refl _
  · dsimp only
    split
    · exact .throw_bind refl _
    · split
      · exact .throw_bind refl _
      · split
        · exact .throw_bind refl _
        · exact .bind trans (mint _ _).adaptExcept (fun _ => .bind trans (.get refl) (fun _ => .pure refl _))
  · exact .throw refl _

/-- Clear the failures of an identity. -/
def AuthStore.reset_failures (identity_handle : String) : EStateM AuthStoreError AuthStore Unit :=
  modify fun store => { store with auth_failures := store.auth_failures.erase identity_handle }

/-- What follows the AKE of a login that succeeded. -/
def complete_login (crypto : Crypto) (config : TokenConfig) (issue : Issue) (identity_handle : String)
    (req : LoginFinishRequest) (v2 : Bool) : EStateM ApiError AuthStore V2LoginFinishResponse := do
  EStateM.adaptExcept ApiError.of_auth_store (AuthStore.reset_failures identity_handle)
  let store ← get
  match store.account_id identity_handle with
  | none => throw (.internal "authenticated identity has no account mapping")
  | some account_id =>
    let binding := store.binding_for account_id
    if !v2 && binding.map ContentBinding.state ≠ some .legacy_reserved then
      throw (binding_conflict "AUTH_PROTOCOL_UPGRADE_REQUIRED" "this tenant requires auth protocol v2")
    let token ← mint_on_login crypto config issue req account_id
    return ⟨true,account_id,bound_content binding,bound_version binding,binding.map ContentBinding.state,token⟩

/-! ### Refresh and revocation -/

structure RefreshRequest where
  refresh_token : String
  device_id : String
  ed25519_pub : List UInt8
  nonce : List UInt8
  pop_signature : List UInt8

/-- Exchange a refresh token for a new pair, with a proof of the key of the device. -/
def token_refresh (crypto : Crypto) (config : TokenConfig) (issue : Issue) (req : RefreshRequest) :
    EStateM ApiError AuthStore RotatedTokens := do
  if req.ed25519_pub.length ≠ ED25519_PUB_LEN then throw (.bad_request "ed25519_pub_b64 must be 32 bytes")
  if req.pop_signature.length ≠ 64 then throw (.bad_request "pop_signature_b64 must be 64 bytes")
  if device_id_from_ed25519 crypto req.ed25519_pub ≠ req.device_id then
    throw (.unauthorized "device proof-of-possession failed")
  let store ← get
  match ← ApiError.read (store.load_valid_token crypto issue.now req.refresh_token .Refresh) with
  | none => throw (.unauthorized "invalid refresh token")
  | some refresh =>
    if refresh.device_id ≠ req.device_id ∨ refresh.ed25519_pub ≠ req.ed25519_pub then
      throw (.unauthorized "refresh token device mismatch")
    let msg := refresh_pop_message refresh.token_id req.nonce req.device_id req.ed25519_pub
    if !crypto.verify_ed25519 req.ed25519_pub msg req.pop_signature then
      throw (.unauthorized "device proof-of-possession failed")
    EStateM.adaptExcept ApiError.of_auth_store (AuthStore.rotate_refresh crypto issue.now' issue.access issue.refresh
      refresh.token_id refresh.auth_tenant_id refresh.device_id req.ed25519_pub config.access_ttl_ms
      config.refresh_ttl_ms)

/-- Revoke the tokens of a device of the caller's own tenant. -/
def token_revoke (crypto : Crypto) (now now' : ℤ) (bearer device_id : String) : EStateM ApiError AuthStore ℕ := do
  let store ← get
  match ← ApiError.read (store.load_valid_token crypto now bearer .Access) with
  | none => throw (.unauthorized "invalid or missing access token")
  | some caller => EStateM.adaptExcept ApiError.of_auth_store (AuthStore.revoke_device now' caller.auth_tenant_id device_id)

end Pergamon
