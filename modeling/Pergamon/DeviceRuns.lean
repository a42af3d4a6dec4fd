import Pergamon.Onboarding
import Pergamon.RemoteBinding

/-!
The `sync-device` commands: what each reads from the key store and the database of its
device, the guards on the flows, the calls that it makes to a relay and what it writes
back. A command that fails leaves what it has written.

What a device draws at random and what the authenticated part of a relay answers are
arguments.
-/
namespace Pergamon
open Fallible Wire

/-- The keys under one label. -/
structure KeyMaterial where
  device_keys : Option DeviceKeypairs := none
  ark : Option AccountRootKey := none
  account_id : Option AccountId := none

structure RemoteSession where
  device_id : String
  auth_tenant_id : String
  content_account_id : Option String
  binding_version : Int
  deriving DecidableEq

/-- The key store of a device by label, its sessions by label and relay, and its database. -/
structure LocalDevice where
  store : String → KeyMaterial
  sessions : String → String → Option RemoteSession
  db : BoundDatabase

inductive CliError where
  | relay (e : SyncError)
  | storage (e : StorageError)
  | refused (message : String)
  deriving DecidableEq

/-! ### The guards on the flows -/

structure LocalAccountState where
  has_device_keys : Bool
  has_ark : Bool
  has_account_id : Bool
  is_sync_bound : Bool
  has_local_content : Bool
  deriving DecidableEq

inductive CreateAccountBlock where
  | AlreadyHasAccount
  | NeedsExplicitConfirmation
  deriving DecidableEq

inductive AccountAdoptionBlock where
  | MissingKeys
  | ExistingLibrary
  deriving DecidableEq

def CreateAccountBlock.to_string : CreateAccountBlock → String
  | .AlreadyHasAccount => "this device already belongs to an account; creating a new one would make a " ++
      "second, unrelated account. To use this device with an existing account, join it " ++
      "with `pergamon sync-device enroll` (SAS from a trusted device) or " ++
      "`pergamon sync-device recover` (recovery code)"
  | .NeedsExplicitConfirmation => "this device has local data but no account yet — creating a NEW account will not " ++
      "merge that data with an account on another device. To join an existing account, " ++
      "use `pergamon sync-device enroll` or `pergamon sync-device recover`. To create a " ++
      "brand-new account from this data, re-run with `--create-new-account`"

def AccountAdoptionBlock.to_string : AccountAdoptionBlock → String
  | .MissingKeys => "attach requires existing account root and device keys; create or recover explicitly"
  | .ExistingLibrary => "join requires an empty device with no existing account; local data will not be merged"

def guard_create_new (state : LocalAccountState) (explicit_confirm : Bool) : Except CreateAccountBlock Unit :=
  if state.has_ark || state.is_sync_bound then .error .AlreadyHasAccount
  else if state.has_local_content && !explicit_confirm then .error .NeedsExplicitConfirmation
  else .ok ()

def guard_attach_existing (state : LocalAccountState) : Except AccountAdoptionBlock Unit :=
  if !state.has_ark || !state.has_device_keys then .error .MissingKeys else .ok ()

def guard_join_new_device (state : LocalAccountState) (matching_pending : Bool) : Except AccountAdoptionBlock Unit :=
  if state.has_local_content || (state.has_ark && !matching_pending) || state.is_sync_bound ||
      (state.has_account_id && !matching_pending) then .error .ExistingLibrary
  else .ok ()

/-- What a device draws when it needs it. -/
structure FreshKeys where
  device_keys : DeviceKeypairs
  ark : AccountRootKey
  account_id : AccountId
  operation_id : String

/-- What the relay answers when a device logs in with an identity and binds its account:
    a session and the installation, then the receipt and the session of a second login. -/
structure RelayAuth where
  login : Option (RemoteSession × String)
  bound : Option (String × Int × RemoteSession)

/-- What a creation publishes for recovery: nothing, a root key wrapped under a passphrase,
    or the artefact of a code that is kept until it is acknowledged. -/
inductive BootstrapRecovery where
  | Disabled
  | Passphrase (secret : List UInt8) (salt : Option (Bytes RECOVERY_SALT_LEN)) (nonce : Option (Bytes NONCE_LEN))
  | Pending (artefact : Except CliError (List UInt8))

/-! ### Commands -/

/-- A command of a device, over a relay. -/
abbrev DeviceM (σ α : Type) : Type := EStateM CliError (σ × LocalDevice) α

namespace DeviceM
variable {σ α : Type}

def refuse (message : String) : DeviceM σ α := throw (.refused message)

/-- Fail with this text where there is nothing. -/
def expect (x : Option α) (message : String) : DeviceM σ α :=
  match x with
  | some a => pure a
  | none => refuse message

/-- A call to the relay. -/
def on_relay (call : EStateM SyncError σ α) : DeviceM σ α := fun (s,d) =>
  match call s with
  | .ok a t => .ok a (t,d)
  | .error e t => .error (.relay e) (t,d)

/-- A call to the database of the device. -/
def on_db (call : EStateM StorageError BoundDatabase α) : DeviceM σ α := fun (s,d) =>
  match call d.db with
  | .ok a db => .ok a (s,{ d with db := db })
  | .error e db => .error (.storage e) (s,{ d with db := db })

def device : DeviceM σ LocalDevice := do
  let (_,d) ← get
  return d

def load (account : String) : DeviceM σ KeyMaterial := do
  let d ← device
  return d.store account

def save (account : String) (change : KeyMaterial → KeyMaterial) : DeviceM σ Unit :=
  modify (fun (s,d) => (s,{ d with store := Function.update d.store account (change (d.store account)) }))

def save_session (account server : String) (session : RemoteSession) : DeviceM σ Unit :=
  modify (fun (s,d) => (s,{ d with
    sessions := Function.update d.sessions account (Function.update (d.sessions account) (trim_slashes server) (some session)) }))

def set_sync_identity (account_id device_id : String) (key_epoch : UInt32) (server_url : Option String) : DeviceM σ Unit :=
  modify (fun (s,d) => (s,{ d with db := { d.db with
    toDatabase := d.db.set_sync_identity account_id device_id key_epoch server_url } }))

def set_key_epoch (key_epoch : UInt32) : DeviceM σ Unit :=
  modify (fun (s,d) => (s,{ d with db := { d.db with sync_state := { d.db.sync_state with key_epoch := key_epoch } } }))

end DeviceM

open DeviceM

section
variable {σ : Type} (p : Primitives) (relay : RelayTransport σ) [Formats] (listing : Listing) (new_id : Nat → String)

def has_local_content (d : LocalDevice) : Bool := !(d.db.replica.tables .content_items).isEmpty

def ensure_device_keys (fresh : DeviceKeypairs) (account : String) : DeviceM σ DeviceKeypairs := do
  match (← load account).device_keys with
  | some keys => return keys
  | none =>
    save account (fun m => { m with device_keys := some fresh })
    return fresh

/-- Check the session of a relay and the binding against each other. Without either the
    relay is asked without one. -/
def open_token_provider (server account : String) : DeviceM σ (Option RemoteSession) := do
  let d ← device
  let pending := d.db.remote_account_binding
  if pending.any (fun b => b.relay_url ≠ trim_slashes server || b.local_label ≠ account) then
    refuse "requested relay or account conflicts with the authenticated relay binding (no blind fallback)"
  match d.sessions account (trim_slashes server) with
  | none =>
    if pending.isSome then
      refuse "authenticated relay session unavailable; run sync-remote login (no blind fallback)"
    return none
  | some session =>
    let keys ← expect (d.store account).device_keys "session device keys are missing"
    let id ← expect (d.store account).account_id "session content identity is missing"
    if session.content_account_id ≠ some id.to_hex ∨ session.device_id ≠ p.device_id keys ∨
        pending.any (fun b => b.content_account_id ≠ id.to_hex || b.device_id ≠ p.device_id keys ||
          b.auth_tenant_id ≠ some session.auth_tenant_id || b.binding_version.any (· ≠ session.binding_version)) then
      refuse "secure session does not match the local binding"
    return some session

def open_account_relay (server account : String) : DeviceM σ Unit := do
  let _ ← open_token_provider p server account

/-- `authenticated_attach` in the flow of a creation, which has stored the id of its account
    before: log in, bind the account and keep the session. -/
def authenticated_attach (server account : String) (account_id : AccountId) (operation_id : String) (auth : RelayAuth) :
    DeviceM σ Unit := do
  let d ← device
  let keys ← expect (d.store account).device_keys "attach requires existing device keys"
  match guard_attach_existing ⟨true,(d.store account).ark.isSome,true,false,false⟩ with
  | .error block => refuse block.to_string
  | .ok () =>
    let content := account_id.to_hex
    let _ ← on_db (BoundDatabase.begin_remote_binding server account content (p.device_id keys) operation_id "create")
    let (session,server_instance_id) ← expect auth.login "the login failed"
    on_db (BoundDatabase.identify_remote_binding session.auth_tenant_id server_instance_id)
    let (tenant,version,session) ← expect auth.bound
      "binding refused or incomplete; local identity retained; retry with the same relay identity"
    if session.content_account_id ≠ some content ∨ session.auth_tenant_id ≠ tenant ∨ session.binding_version ≠ version then
      refuse "relay session does not match the binding receipt; local adoption refused"
    save_session account server session

/-- Activate a binding that is pending, with the receipt of the session. -/
def finish_local_adoption (server account : String) (now_millis : UInt64) : DeviceM σ Unit := do
  let d ← device
  match d.db.remote_account_binding with
  | none => return ()
  | some intent =>
    if intent.state = .active then
      return ()
    if intent.local_label ≠ account ∨ intent.relay_url ≠ trim_slashes server then
      refuse "pending relay adoption belongs to a different account or relay"
    let session ← expect (d.sessions account (trim_slashes server)) "pending adoption has no secure session"
    if session.content_account_id ≠ some intent.content_account_id ∨ intent.auth_tenant_id ≠ some session.auth_tenant_id ∨
        session.device_id ≠ intent.device_id then
      refuse "pending session identity differs from adoption intent"
    let receipt := { intent with binding_version := some session.binding_version }
    let _ ← on_db (BoundDatabase.activate_remote_binding listing new_id receipt now_millis)

/-! ### The commands of `sync-device` -/

/-- A creation that is resumed finds the keys that it stored. -/
def require_pending_creation_keys (d : LocalDevice) (pending : RemoteAccountBinding) : DeviceM σ Unit := do
  let m := d.store pending.local_label
  let keys ← expect m.device_keys "restore the original pending-create device keys; they will not be regenerated"
  let id ← expect m.account_id "restore the original pending-create content ID"
  if m.ark = none ∨ p.device_id keys ≠ pending.device_id ∨ id.to_hex ≠ pending.content_account_id then
    refuse "pending creation has missing or mismatched key material; restore the original keystore"

/-- A creation may be resumed with its keys or started where no account is. -/
def guard_cli_create (d : LocalDevice) (server account : String) (create_new_account : Bool) (auth : Option RelayAuth) :
    DeviceM σ Unit :=
  let m := d.store account
  let state : LocalAccountState := ⟨m.device_keys.isSome,m.ark.isSome,m.account_id.isSome,
    d.db.sync_state.server_url.isSome || d.db.sync_state.account_id.isSome,has_local_content d⟩
  match d.db.remote_account_binding.filter (fun b => b.state = .pending && b.flow = "create" && b.local_label = account &&
      b.relay_url = trim_slashes server && auth.isSome) with
  | some pending => require_pending_creation_keys p d pending
  | none =>
    match guard_create_new state create_new_account with
    | .error block => refuse block.to_string
    | .ok () => pure ()

def publish_bootstrap_recovery (account_id : AccountId) (ark : AccountRootKey) : BootstrapRecovery → DeviceM σ Unit
  | .Disabled => pure ()
  | .Passphrase secret salt nonce => on_relay (relay.recovery_publish p account_id salt nonce ark secret)
  | .Pending (.error e) => throw e
  | .Pending (.ok blob) => on_relay (relay.recovery_put account_id.to_hex blob)

/-- Create an account on a first device and publish its record. -/
def sync_device_bootstrap (fresh : FreshKeys) (server account : String) (create_new_account : Bool) (auth : Option RelayAuth)
    (recovery : BootstrapRecovery) (now_millis : UInt64) : DeviceM σ Unit := do
  let d ← device
  guard_cli_create p d server account create_new_account auth
  let keys ← ensure_device_keys fresh.device_keys account
  save account (fun m => { m with ark := m.ark <|> some fresh.ark })
  save account (fun m => { m with account_id := m.account_id <|> some fresh.account_id })
  let m ← load account
  let account_id := m.account_id.getD fresh.account_id
  let d ← device
  let epoch := d.db.sync_state.key_epoch
  auth.forM (authenticated_attach p server account account_id fresh.operation_id)
  open_account_relay p server account
  on_relay (relay.bootstrap p account_id keys epoch now_millis.toInt64)
  set_sync_identity account_id.to_hex (p.device_id keys) epoch (some server)
  let m ← load account
  let ark ← expect m.ark "account root key missing after bootstrap"
  publish_bootstrap_recovery p relay account_id ark recovery
  finish_local_adoption listing new_id server account now_millis

def normalize_sas (s : String) : List Char := s.toList.filter (fun c => !c.isWhitespace)

/-- Seal the account to another device, once the codes agree. -/
def sync_device_approve (draw : Option Draw) (subject : String) (expect_sas : Option String) (account : String)
    (now_millis : UInt64) : DeviceM σ Unit := do
  let m ← load account
  let keys ← expect m.device_keys ("no device keys for '" ++ account ++ "'; run `pergamon sync-device bootstrap` first")
  let ark ← expect m.ark ("no account root key for '" ++ account ++ "'; this device cannot approve enrollments")
  let account_id ← expect m.account_id ("no account id for '" ++ account ++ "'")
  let d ← device
  let server ← expect d.db.sync_state.server_url "this device is not bound to a server; run `pergamon sync-device bootstrap`"
  let epoch := d.db.sync_state.key_epoch
  open_account_relay p server account
  let sas ← on_relay (relay.sas_against p account_id keys subject)
  if expect_sas.any (fun expected => normalize_sas expected ≠ normalize_sas sas.digits) then
    refuse ("SAS mismatch: expected " ++ expect_sas.getD "" ++ ", computed " ++ sas.digits ++
      " — aborting, do not trust this device")
  let _ ← on_relay (relay.approve p account_id draw keys ark epoch subject now_millis.toInt64)

/-- Joining leaves a library and an identity alone that are there. -/
def guard_cli_join (d : LocalDevice) (account server : String) (account_id : AccountId) : DeviceM σ Unit := do
  let m := d.store account
  if m.account_id.any (· ≠ account_id) then
    refuse "requested join identity differs from the local account"
  let matching := d.db.remote_account_binding.any (fun b => b.flow = "join" && b.state = .pending && b.local_label = account &&
    b.relay_url = trim_slashes server && b.content_account_id = account_id.to_hex)
  if d.db.sync_state.account_id.any (· ≠ account_id.to_hex) then
    refuse "joining would replace the database account identity"
  match guard_join_new_device ⟨m.device_keys.isSome,m.ark.isSome,m.account_id.isSome,
      d.db.sync_state.server_url.isSome && !matching,has_local_content d⟩ matching with
  | .error block => refuse block.to_string
  | .ok () => pure ()

/-- Open the bundle of an approval and adopt its account. -/
def sync_device_accept (server : Option String) (account_id : Option AccountId) (account : String) (now_millis : UInt64) :
    DeviceM σ Unit := do
  let m ← load account
  let keys ← expect m.device_keys ("no device keys for '" ++ account ++ "'; run `pergamon sync-device enroll` first")
  let account_id ← expect (account_id <|> m.account_id)
    ("no account id for '" ++ account ++ "'; pass --account-id or re-run enroll")
  let d ← device
  let server ← expect (server <|> d.db.sync_state.server_url)
    "no server bound; pass --server or run `pergamon sync-device enroll` with an invite"
  guard_cli_join d account server account_id
  open_account_relay p server account
  let accepted ← on_relay (relay.accept p account_id keys)
  let epoch := accepted.bundle.key_epoch
  let m ← load account
  if m.ark.any (· ≠ accepted.bundle.ark) then
    refuse "enrollment would replace existing root keys"
  save account (fun m => { m with ark := some accepted.bundle.ark })
  save account (fun m => { m with account_id := some accepted.bundle.account_id })
  set_sync_identity accepted.bundle.account_id.to_hex (p.device_id keys) epoch (some server)
  finish_local_adoption listing new_id server account now_millis

/-- Rotate the epoch, away from a device. What the relay answers to the revocation of the
    sessions of the device is an argument. -/
def sync_device_revoke (draws : ℕ → Option Draw) (revoked : String) (account : String) (sessions_revoked : Bool)
    (now_millis : UInt64) : DeviceM σ Revocation := do
  let m ← load account
  let keys ← expect m.device_keys ("no device keys for '" ++ account ++ "'")
  let ark ← expect m.ark ("no account root key for '" ++ account ++ "'; this device cannot revoke")
  let account_id ← expect m.account_id ("no account id for '" ++ account ++ "'")
  let d ← device
  let server ← expect d.db.sync_state.server_url "this device is not bound to a server; run `pergamon sync-device bootstrap`"
  let epoch := d.db.sync_state.key_epoch
  open_account_relay p server account
  let rev ← on_relay (relay.revoke p account_id draws keys ark epoch revoked now_millis.toInt64)
  set_key_epoch rev.new_epoch
  let session ← open_token_provider p server account
  if session.isSome && !sessions_revoked then
    refuse ("content revocation was published but relay access revocation is incomplete; " ++
      "retry with sync-remote revoke-session")
  return rev

/-- Recover the account from its blob and publish the device, in the epoch of the account. -/
def sync_device_recover (fresh : DeviceKeypairs) (secret : List UInt8) (server : String) (account_id : AccountId)
    (account : String) (now_millis : UInt64) : DeviceM σ Unit := do
  let d ← device
  guard_cli_join d account server account_id
  open_account_relay p server account
  let ark ← on_relay (relay.recover_ark p account_id secret)
  let m ← load account
  if m.ark.any (· ≠ ark) then
    refuse "recovery would replace existing root keys"
  let keys ← ensure_device_keys fresh account
  save account (fun m => { m with ark := some ark })
  save account (fun m => { m with account_id := some account_id })
  let epoch ← on_relay (relay.current_epoch p account_id)
  on_relay (relay.bootstrap p account_id keys epoch now_millis.toInt64)
  set_sync_identity account_id.to_hex (p.device_id keys) epoch (some server)
  finish_local_adoption listing new_id server account now_millis

/-- Publish the record of a device that joins, and compare codes with its approver. -/
def sync_device_enroll (fresh : DeviceKeypairs) (server : String) (account_id : AccountId) (approver account : String)
    (now_millis : UInt64) : DeviceM σ Sas := do
  let d ← device
  let m := d.store account
  let matching := d.db.remote_account_binding.any (fun b => b.flow = "join" && b.state = .pending &&
    b.content_account_id = account_id.to_hex && b.relay_url = trim_slashes server && b.local_label = account)
  match guard_join_new_device ⟨m.device_keys.isSome,m.ark.isSome,m.account_id.isSome,d.db.sync_state.server_url.isSome,
      has_local_content d⟩ matching with
  | .error block => refuse block.to_string
  | .ok () => pure ()
  if m.device_keys.isSome && !matching then
    refuse ("device keys already exist for '" ++ account ++ "'; use a different --account or remove them first")
  let keys ← ensure_device_keys fresh account
  save account (fun m => { m with account_id := some account_id })
  open_account_relay p server account
  on_relay (relay.enroll_publish p account_id keys now_millis.toInt64)
  on_relay (relay.sas_against p account_id keys approver)

end
end Pergamon
