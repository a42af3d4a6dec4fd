import Pergamon.Sessions

/-!
The two steps that bind a tenant to a content namespace. `start` answers an
authenticated device with a challenge; `finish` takes the signed challenge and, under
the writer of the content database and the lock of the auth database, retires what the
tenant had, allocates the namespace, revokes the tokens of the tenant and drops its
challenges, in one transaction.

A database from before content ids were told apart from tenants is migrated: each
account becomes a tenant for which the namespace of its own id is reserved.

An established binding never changes: only a reservation of a legacy tenant whose
namespace never had a row is replaced, and a namespace is allocated only if it was
never reserved and never had a row (`finish_cases`).
-/
namespace Pergamon
open Fallible

structure BindingStart where
  operation_id : String
  content_account_id : String
  deriving DecidableEq

structure BindingFinish where
  operation_id : String
  challenge_id : String
  pop_signature : List UInt8
  deriving DecidableEq

/-! ### The migration -/

structure LegacyTokenRow where
  account_id : String
  device_id : String
  ed25519_pub : List UInt8
  token_hash : List UInt8
  kind : TokenKind
  expires_at : ℤ
  revoked_at : Option ℤ
  deriving DecidableEq

/-- The auth database of version 0, where an account is a tenant and a content
    namespace at once. -/
structure LegacyAuthStore where
  accounts : Std.ExtTreeMap String AccountRow
  account_map : Std.ExtTreeMap String String
  tokens : Std.ExtTreeMap String LegacyTokenRow
  auth_failures : Std.ExtTreeMap String FailureRow

/-- The row that the migration inserts for an account. -/
def reserved (account_id : String) : BindingRow := ⟨account_id,.legacy_reserved,0,none,none,none⟩

def reserved_rows (account_ids : List String) : Std.ExtTreeMap String BindingRow :=
  account_ids.foldr (fun account_id rows => rows.insert account_id (reserved account_id)) ∅

theorem getElem?_reserved_rows (account_ids : List String) (id : String) :
    (reserved_rows account_ids)[id]? = if id ∈ account_ids then some (reserved id) else none := by
  induction account_ids with
  | nil => simp [reserved_rows]
  | cons account_id account_ids ih =>
    rw [reserved_rows] at ih ⊢
    rw [List.foldr_cons,Std.ExtTreeMap.getElem?_insert,ih]
    by_cases same : account_id = id
    · simp [same]
    · simp [same,Ne.symm same]

def reserved_bindings (account_ids : List String) : ContentBindings :=
  ⟨reserved_rows account_ids,by
    have own {id : String} {row : BindingRow} (there : (reserved_rows account_ids)[id]? = some row) :
        row.auth_tenant_id = id := by
      rw [getElem?_reserved_rows] at there
      split at there
      · cases there
        rfl
      · cases there
    intro id id' row row' there there' _ _ same
    rw [← own there,same,own there']⟩

/-- `migrate` from version 0 to version 1, for the instance id that was drawn. -/
def migrate (server_instance_id : String) (old : LegacyAuthStore) : AuthStore := {
  accounts := old.accounts
  account_map := old.account_map
  content_bindings := reserved_bindings (old.account_map.toList.map Prod.snd)
  tokens := old.tokens.map (fun _ row => ⟨row.account_id,row.device_id,row.ed25519_pub,row.token_hash,row.kind,
    row.expires_at,row.revoked_at,some row.account_id,0,.Content⟩)
  binding_challenges := []
  auth_failures := old.auth_failures
  server_instance_id := server_instance_id }

/-- The migration reserves for each tenant the namespace of its own id. -/
theorem migrate_binding_for (server_instance_id : String) (old : LegacyAuthStore) (tenant : String) :
    (migrate server_instance_id old).binding_for tenant =
      if (migrate server_instance_id old).tenant_known tenant then
        some ⟨tenant,tenant,0,.legacy_reserved,none⟩ else none := by
  have rows := getElem?_reserved_rows (old.account_map.toList.map Prod.snd)
  have known : (migrate server_instance_id old).tenant_known tenant ↔ tenant ∈ old.account_map.toList.map Prod.snd := by
    simp [migrate,AuthStore.tenant_known]
  unfold AuthStore.binding_for
  by_cases there : tenant ∈ old.account_map.toList.map Prod.snd
  · have live : (migrate server_instance_id old).content_bindings.live tenant = some (tenant,reserved tenant) :=
      ContentBindings.live_eq_some.mpr ⟨by show (reserved_rows _)[tenant]? = _; rw [rows,if_pos there],rfl,by simp [reserved]⟩
    rw [live,if_pos (known.mpr there)]
    rfl
  · have live : (migrate server_instance_id old).content_bindings.live tenant = none := by
      refine ContentBindings.live_eq_none.mpr fun id row found owner => ?_
      replace found : (reserved_rows (old.account_map.toList.map Prod.snd))[id]? = some row := found
      rw [rows] at found
      split at found
      · next mine =>
        cases found
        exact absurd (owner ▸ mine) there
      · cases found
    rw [live,if_neg (fun is => there (known.mp is))]
    rfl

/-! ### The messages -/

/-- A field of the statement behind its length. -/
def lp (bytes : List UInt8) : Except ApiError (List UInt8) :=
  if bytes.length < 2 ^ 32 then .ok (u32_be_bytes bytes.length ++ bytes)
  else .error (.bad_request "binding field too long")

/-- `i64::to_be_bytes`. -/
def i64_be_bytes (n : ℤ) : List UInt8 :=
  (List.range 8).reverse.map (fun i => .ofNat ((n % 2 ^ 64).toNat / 2 ^ (8 * i)))

/-- The statement that a device signs to bind its tenant. -/
def signing_bytes (challenge : BindingChallenge) : Except ApiError (List UInt8) := do
  if challenge.nonce.length ≠ 32 ∨ challenge.ed25519_pub.length ≠ 32 ∨ challenge.binding_version < 0 then
    throw (.bad_request "invalid binding statement")
  let fields ← [utf8 challenge.server_instance_id,utf8 challenge.operation_id,utf8 challenge.challenge_id,challenge.nonce,
    utf8 challenge.auth_tenant_id,utf8 challenge.content_account_id,utf8 challenge.device_id].mapM lp
  return utf8 "pergamon/v2/auth/content-binding-pop" ++ fields.flatten ++ challenge.ed25519_pub ++
    i64_be_bytes challenge.binding_version ++ i64_be_bytes challenge.expires_at_ms

/-- A canonical content id: 32 lowercase hexadecimal digits. -/
def canonical_content_id (id : String) : Bool :=
  id.utf8ByteSize = 32 && id.toList.all (fun c => c.isDigit || ('a' ≤ c && c ≤ 'f'))

/-- The principal of a credential. -/
def principal (crypto : Crypto) (store : AuthStore) (now : ℤ) (credential : String) : Except ApiError ValidatedToken :=
  match store.load_valid_token crypto now credential .Access with
  | .error e => .error (.of_auth_store e)
  | .ok none => .error (.unauthorized "invalid bearer token")
  | .ok (some who) => .ok who

namespace Binding

/-- What `start` refuses before it looks at the database. -/
def checked_start (request : BindingStart) : Except ApiError Unit :=
  if request.operation_id = "" ∨ request.operation_id.utf8ByteSize > 128 ∨ !canonical_content_id request.content_account_id then
    .error (.bad_request "invalid binding operation or canonical content ID")
  else .ok ()

/-- The challenge of an operation: the one that is pending, or a new one for which the
    nonce and the id are drawn. -/
def challenge (now now' : ℤ) (nonce : List UInt8) (challenge_id : String) (who : ValidatedToken) (request : BindingStart) :
    EStateM ApiError AuthStore BindingChallenge := do
  modify fun store => { store with
    binding_challenges := store.binding_challenges.filter (fun challenge => challenge.expires_at_ms > now) }
  let store ← get
  match store.binding_challenges.find? (fun challenge =>
      challenge.auth_tenant_id = who.auth_tenant_id && challenge.operation_id = request.operation_id) with
  | some challenge =>
    if challenge.content_account_id ≠ request.content_account_id ∨ challenge.device_id ≠ who.device_id ∨
        challenge.ed25519_pub ≠ who.ed25519_pub then
      throw (binding_conflict "OPERATION_CONFLICT" "binding operation has different parameters")
    return challenge
  | none =>
    if store.binding_challenges.length ≥ 10000 then throw (.unavailable "too many binding attempts")
    let challenge : BindingChallenge := {
      server_instance_id := store.server_instance_id
      operation_id := request.operation_id
      challenge_id := challenge_id
      nonce := nonce
      auth_tenant_id := who.auth_tenant_id
      content_account_id := request.content_account_id
      device_id := who.device_id
      ed25519_pub := who.ed25519_pub
      binding_version := who.binding_version
      expires_at_ms := now' + 120000 }
    if !store.tenant_known who.auth_tenant_id then throw (.internal "internal storage error")
    modify fun store => { store with binding_challenges := store.binding_challenges ++ [challenge] }
    return challenge

/-- The work of `start` under the lock, for a principal that was loaded before. -/
def start (now now' : ℤ) (nonce : List UInt8) (challenge_id : String) (who : ValidatedToken) (request : BindingStart) :
    EStateM ApiError AuthStore BindingChallenge := do
  let store ← get
  match (store.binding_for who.auth_tenant_id).filter (fun binding =>
      binding.operation_id = some request.operation_id && binding.content_account_id ≠ request.content_account_id) with
  | some _ => throw (binding_conflict "OPERATION_CONFLICT" "binding operation has different parameters")
  | none => challenge now now' nonce challenge_id who request

/-- Whether a signed challenge is that of the caller. -/
def checked_proof (crypto : Crypto) (now : ℤ) (who : ValidatedToken) (request : BindingFinish)
    (challenge : BindingChallenge) : Except ApiError Unit := do
  if request.pop_signature.length ≠ 64 then throw (.bad_request "invalid binding signature length")
  if challenge.challenge_id ≠ request.challenge_id ∨ challenge.expires_at_ms ≤ now ∨
      challenge.auth_tenant_id ≠ who.auth_tenant_id ∨ challenge.device_id ≠ who.device_id ∨
      challenge.ed25519_pub ≠ who.ed25519_pub ∨ challenge.binding_version ≠ who.binding_version then
    throw (.unauthorized "invalid binding proof")
  let statement ← signing_bytes challenge
  if !crypto.verify_ed25519 who.ed25519_pub statement request.pop_signature then
    throw (.unauthorized "invalid binding proof")

/-- Allocate a namespace to the tenant of the caller: retire what it had, insert the new
    binding, revoke the tokens of the tenant and drop its challenges. -/
def allocate (now : ℤ) (who : ValidatedToken) (operation_id content_account_id : String) :
    EStateM ApiError AuthStore ContentBinding := do
  modify fun store => { store with content_bindings := store.content_bindings.retire who.auth_tenant_id }
  if who.binding_version + 1 > 2 ^ 63 - 1 then throw (.internal "binding revision exhausted")
  let binding : ContentBinding :=
    ⟨who.auth_tenant_id,content_account_id,who.binding_version + 1,.active,some operation_id⟩
  EStateM.adaptExcept ApiError.of_auth_store (AuthStore.insert_binding content_account_id
    ⟨who.auth_tenant_id,.active,binding.binding_version,some operation_id,some who.device_id,some who.ed25519_pub⟩)
  modify fun store => store.revoke_where now (fun row => row.auth_tenant_id = who.auth_tenant_id)
  modify fun store => { store with
    binding_challenges := store.binding_challenges.filter (fun challenge => challenge.auth_tenant_id ≠ who.auth_tenant_id) }
  return binding

/-- Allocate a namespace, unless it was ever reserved or ever had a row. -/
def allocate_free (content : SyncStore) (now : ℤ) (who : ValidatedToken) (operation_id content_account_id : String) :
    EStateM ApiError AuthStore ContentBinding := do
  let store ← get
  if store.content_bindings.rows.contains content_account_id || content.occupied content_account_id then
    throw (binding_conflict "CONTENT_NAMESPACE_UNAVAILABLE" "content namespace unavailable")
  allocate now who operation_id content_account_id

/-- A reservation of a legacy tenant whose namespace never had a row. -/
def replaceable (content : SyncStore) (binding : ContentBinding) : Bool :=
  binding.state = .legacy_reserved && !content.occupied binding.content_account_id

/-- The work of `finish` under the barrier and the lock. The clock is read for the token,
    for the challenge and for the revocation. -/
def finish (crypto : Crypto) (content : SyncStore) (now now' now'' : ℤ) (credential : String) (request : BindingFinish) :
    EStateM ApiError AuthStore ContentBinding := do
  let store ← get
  match principal crypto store now credential with
  | .error e => throw e
  | .ok who => transaction <|
    let current := store.binding_for who.auth_tenant_id
    -- the operation is through already
    match current.filter (fun binding => binding.operation_id = some request.operation_id) with
    | some binding => return binding
    | none =>
      match store.binding_challenges.find? (fun challenge =>
          challenge.auth_tenant_id = who.auth_tenant_id && challenge.operation_id = request.operation_id) with
      | none => throw (.unauthorized "invalid binding challenge")
      | some challenge =>
        match checked_proof crypto now' who request challenge with
        | .error e => throw e
        | .ok () =>
          -- the tenant has this namespace already
          match current.filter (fun binding => binding.content_account_id = challenge.content_account_id) with
          | some binding => return binding
          | none =>
            if current.all (replaceable content) then
              allocate_free content now'' who request.operation_id challenge.content_account_id
            else throw (binding_conflict "BINDING_IMMUTABLE" "established content binding cannot change")

section
variable {crypto : Crypto} {content : SyncStore} {now now' now'' : ℤ} {credential : String} {request : BindingFinish}
  {s t : AuthStore} {b : ContentBinding} {who : ValidatedToken} {e : ApiError}

/-- What an allocation leaves. -/
theorem allocate_ok {operation_id content_account_id : String}
    (ok : allocate now who operation_id content_account_id s = .ok b t) :
    ∃ bindings, (s.content_bindings.retire who.auth_tenant_id).insert content_account_id
      ⟨who.auth_tenant_id,.active,who.binding_version + 1,some operation_id,some who.device_id,some who.ed25519_pub⟩ =
        .ok bindings ∧ t.content_bindings = bindings ∧ t.account_map = s.account_map ∧
      t.tokens = (s.revoke_where now (fun row => row.auth_tenant_id = who.auth_tenant_id)).tokens := by
  unfold allocate at ok
  obtain ⟨u,retired,wrote,ok⟩ := work_bind_ok.mp ok
  cases wrote
  split at ok
  · cases ok
  · obtain ⟨u',inserted,insert,ok⟩ := work_bind_ok.mp ok
    rw [adaptExcept_ok] at insert
    unfold AuthStore.insert_binding at insert
    obtain ⟨store,r,got,insert⟩ := work_bind_ok.mp insert
    cases got
    dsimp only at insert
    split at insert
    · cases insert
    · cases row : (s.content_bindings.retire who.auth_tenant_id).insert content_account_id
          ⟨who.auth_tenant_id,.active,who.binding_version + 1,some operation_id,some who.device_id,
            some who.ed25519_pub⟩ with
      | error e => simp only [row] at insert; cases insert
      | ok bindings =>
        simp only [row] at insert
        cases insert
        cases ok
        exact ⟨bindings,rfl,rfl,rfl,rfl⟩

theorem principal_ok (ok : principal crypto s now credential = .ok who) :
    s.load_valid_token crypto now credential .Access = .ok (some who) := by
  unfold principal at ok
  split at ok
  · cases ok
  · cases ok
  · next loaded =>
    cases ok
    exact loaded

/-- The version of a principal is that of the live binding of its tenant. -/
theorem principal_version (ok : principal crypto s now credential = .ok who) :
    bound_version (s.binding_for who.auth_tenant_id) = who.binding_version := by
  obtain ⟨-,-,-,-,-,-,-,-,-,-,-,-,-,version⟩ := AuthStore.load_valid_token_ok (principal_ok ok)
  exact version

/-- A call of `finish` that succeeds gives back the binding that the tenant has, or
    allocates a namespace that was never reserved and never had a row to a tenant
    without a binding or with an unused legacy reservation. -/
theorem finish_cases (ok : finish crypto content now now' now'' credential request s = .ok b t) :
    ∃ who, principal crypto s now credential = .ok who ∧ (t = s ∨ ∃ id,
      (∀ old, s.binding_for who.auth_tenant_id = some old → old.state = .legacy_reserved) ∧
      s.content_bindings.rows[id]? = none ∧ content.occupied id = false ∧
      allocate now'' who request.operation_id id s = .ok b t) := by
  unfold finish at ok
  obtain ⟨store,r,got,ok⟩ := work_bind_ok.mp ok
  cases got
  cases loaded : principal crypto s now credential with
  | error e => simp only [loaded] at ok; cases ok
  | ok who =>
    simp only [loaded] at ok
    refine ⟨who,rfl,?_⟩
    have ok := transaction_ok.mp ok
    change EStateM.run _ s = _ at ok
    split at ok
    · cases ok
      exact .inl rfl
    · split at ok
      · cases ok
      · split at ok
        · cases ok
        · split at ok
          · cases ok
            exact .inl rfl
          · split at ok
            · next unused =>
              unfold allocate_free at ok
              obtain ⟨store,r,got,ok⟩ := work_bind_ok.mp ok
              cases got
              split at ok
              · cases ok
              · next free =>
                simp only [Bool.or_eq_true,not_or,Bool.not_eq_true] at free
                refine .inr ⟨_,fun old there => ?_,Std.ExtTreeMap.getElem?_eq_none_of_contains_eq_false free.1,
                  free.2,ok⟩
                rw [there,Option.all_some,replaceable,Bool.and_eq_true] at unused
                exact of_decide_eq_true unused.1
            · cases ok

/-- A call of `finish` that fails leaves the database as it was. -/
theorem finish_error (failed : finish crypto content now now' now'' credential request s = .error e t) : t = s := by
  unfold finish at failed
  rw [get_bind] at failed
  cases loaded : principal crypto s now credential with
  | error e =>
    simp only [loaded] at failed
    cases failed
    rfl
  | ok who =>
    simp only [loaded] at failed
    exact transaction_error failed

end
end Binding
end Pergamon
