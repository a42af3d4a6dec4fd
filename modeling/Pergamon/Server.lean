import Mathlib.Logic.Relation
import Pergamon.Binding
import Pergamon.Throttle

/-!
The sync server in authenticated mode: two databases, and requests at every stage of
their work. What runs under one lock is one step, and the steps of different requests
follow each other in any order.

A request for content is authenticated first, then takes a read lease of the binding
gate, checks under it that its principal still holds, and works on the content database
with the lease in its hand. A binding is finished under the write lease. All other
calls of the auth server take only the lock of the auth database.

Each call reads the clock as it likes, and ids, nonces and secrets are any.
-/
namespace Pergamon
open Fallible

/-! ### Authorization -/

def authorize_account (auth : AuthAccount) (target : String) : Except ApiError Unit :=
  if auth.account_id = target then .ok ()
  else .error (.forbidden "token is not authorized for this account")

/-- The principal of a bearer, for a request that names an account. -/
def require_account_auth (crypto : Crypto) (store : AuthStore) (now now' : ℤ) (bearer target : String) :
    Except ApiError AuthAccount :=
  match store.load_valid_token crypto now bearer .Access with
  | .error e => .error (.of_auth_store e)
  | .ok (some token) =>
    if token.content_account_id.isNone then .error (.forbidden "content binding is required") else resolved
  | .ok none => resolved
where
  resolved : Except ApiError AuthAccount :=
    match store.validate_token crypto now' bearer with
    | .error e => .error (.of_auth_store e)
    | .ok none => .error (.unauthorized "invalid or expired bearer token")
    | .ok (some account) => do
      authorize_account account target
      .ok account

/-- The check under the lease, before a request works on the content of an account. -/
def admission (store : AuthStore) (now : ℤ) (principal : Option AuthAccount) (account_id : String) : Except ApiError Unit :=
  match principal with
  | none => .error (.unauthorized "missing principal")
  | some who => do
    authorize_account who account_id
    if store.principal_is_current now who then .ok () else .error (.unauthorized "invalid or expired token")

/-! ### The calls of the auth server -/

/-- What the server is set up with. -/
structure Settings where
  crypto : Crypto
  tokens : TokenConfig
  throttle : ThrottleConfig
  ct_hash : List UInt8 → String

/-- The calls that take the lock of the auth database once. -/
inductive AuthCall where
  | register_legacy (identity : String) (record : List UInt8) (key_id candidate : String)
  | register_unbound (identity : String) (record : List UInt8) (key_id tenant : String)
  | login (issue : Issue) (identity : String) (req : LoginFinishRequest) (v2 : Bool)
  | login_failed (now : ℤ) (identity : String)
  | refresh (issue : Issue) (req : RefreshRequest)
  | revoke (now now' : ℤ) (bearer device_id : String)

/-- The auth database after a call. -/
def AuthStore.serve (settings : Settings) (content : SyncStore) (store : AuthStore) : AuthCall → AuthStore
  | .register_legacy identity record key_id candidate =>
    leaves (register_legacy content identity record key_id candidate store)
  | .register_unbound identity record key_id tenant => leaves (AuthStore.register_unbound identity record key_id tenant store)
  | .login issue identity req v2 => leaves (complete_login settings.crypto settings.tokens issue identity req v2 store)
  | .login_failed now identity => leaves (AuthStore.record_failure now identity settings.throttle store)
  | .refresh issue req => leaves (token_refresh settings.crypto settings.tokens issue req store)
  | .revoke now now' bearer device_id => leaves (token_revoke settings.crypto now now' bearer device_id store)

/-! ### What the calls leave -/

/-- A token at a later time: as it was, or revoked since. -/
def TokenRow.Later (row row' : TokenRow) : Prop :=
  row' = row ∨ row.revoked_at = none ∧ ∃ time, row' = { row with revoked_at := some time }

theorem TokenRow.Later.trans {row row' row'' : TokenRow} (first : row.Later row') (second : row'.Later row'') :
    row.Later row'' := by
  rcases first with rfl | ⟨unrevoked,time,rfl⟩
  · exact second
  · rcases second with rfl | ⟨never,-⟩
    · exact .inr ⟨unrevoked,time,rfl⟩
    · cases never

namespace AuthStore
variable {s t r : AuthStore} {tenant device_id : String} {settings : Settings} {content : SyncStore}

/-- Every token stays, and changes only by being revoked. -/
def TokensKept (s t : AuthStore) : Prop :=
  ∀ (id : String) (row : TokenRow), s.tokens[id]? = some row → ∃ row', t.tokens[id]? = some row' ∧ row.Later row'

theorem TokensKept.of_eq (same : t.tokens = s.tokens) : s.TokensKept t :=
  fun _ row there => ⟨row,by rw [same]; exact there,.inl rfl⟩

theorem TokensKept.trans (first : s.TokensKept t) (second : t.TokensKept r) : s.TokensKept r := by
  intro id row there
  obtain ⟨row',there',later⟩ := first id row there
  obtain ⟨row'',there'',later'⟩ := second id row' there'
  exact ⟨row'',there'',later.trans later'⟩

theorem tokensKept_revoke_where (now : ℤ) (chosen : TokenRow → Bool) : s.TokensKept (s.revoke_where now chosen) := by
  intro id row there
  refine ⟨_,by rw [revoke_where_tokens,there]; rfl,?_⟩
  dsimp only
  split
  · next revoked =>
    rw [Bool.and_eq_true,Option.isNone_iff_eq_none] at revoked
    exact .inr ⟨revoked.2,now,rfl⟩
  · exact .inl rfl

/-- A call that changes nothing but tokens and the counters of failures. -/
structure OnlyTokens (s t : AuthStore) : Prop where
  account_map : t.account_map = s.account_map
  content_bindings : t.content_bindings = s.content_bindings
  tokens : s.TokensKept t

theorem OnlyTokens.refl (s : AuthStore) : s.OnlyTokens s := ⟨rfl,rfl,.of_eq rfl⟩

theorem OnlyTokens.trans (s t r : AuthStore) (first : s.OnlyTokens t) (second : t.OnlyTokens r) : s.OnlyTokens r :=
  ⟨second.account_map.trans first.account_map,second.content_bindings.trans first.content_bindings,
    first.tokens.trans second.tokens⟩

theorem Issued.onlyTokens (issued : s.Issued tenant device_id t) : s.OnlyTokens t :=
  ⟨by rw [issued.same],issued.same.bindings,fun id row there => ⟨row,issued.kept id row there,.inl rfl⟩⟩

theorem onlyTokens_rotate {crypto : Crypto} {now : ℤ} {access refresh : NewToken} {presented : String}
    {ed25519_pub : List UInt8} {access_ttl_ms refresh_ttl_ms : ℤ} {issued : RotatedTokens}
    (ok : rotate_refresh crypto now access refresh presented tenant device_id ed25519_pub access_ttl_ms refresh_ttl_ms s =
      .ok issued t) : s.OnlyTokens t := by
  obtain ⟨row,there,valid,rest⟩ := rotate_refresh_ok ok
  refine OnlyTokens.trans _ _ _ (⟨rfl,rfl,fun id old found => ?_⟩ : OnlyTokens s { s with
    tokens := s.tokens.insert presented { row with revoked_at := some now } }) rest.onlyTokens
  have unrevoked : row.revoked_at = none := by
    simp only [exchangeable,Bool.and_eq_true,Option.isNone_iff_eq_none] at valid
    exact valid.1.1.1.1.1.1.1
  rw [Std.ExtTreeMap.getElem?_insert]
  split
  · next same =>
    rw [Std.LawfulEqOrd.compare_eq_iff_eq] at same
    rw [← same,there] at found
    cases found
    exact ⟨_,rfl,.inr ⟨unrevoked,now,rfl⟩⟩
  · exact ⟨old,found,.inl rfl⟩

theorem onlyTokens_mint_pair {crypto : Crypto} {now now' : ℤ} {access refresh : NewToken} {public_key : List UInt8}
    {config : TokenConfig} :
    Relates OnlyTokens (mint_pair crypto now now' access refresh tenant device_id public_key config) :=
  .transaction OnlyTokens.refl fun _ _ _ ok => (insert_pair_issued ok).onlyTokens

theorem onlyTokens_mint_on_login (crypto : Crypto) (config : TokenConfig) (issue : Issue) (req : LoginFinishRequest)
    (account_id : String) : Relates OnlyTokens (mint_on_login crypto config issue req account_id) :=
  relates_mint_on_login OnlyTokens.refl OnlyTokens.trans (fun _ _ => onlyTokens_mint_pair) req

theorem onlyTokens_complete_login (crypto : Crypto) (config : TokenConfig) (issue : Issue) (identity : String)
    (req : LoginFinishRequest) (v2 : Bool) : Relates OnlyTokens (complete_login crypto config issue identity req v2) := by
  have refl := OnlyTokens.refl
  unfold complete_login
  refine .bind OnlyTokens.trans (.adaptExcept (.modify fun s => ⟨rfl,rfl,.of_eq rfl⟩)) (fun _ => ?_)
  refine .bind OnlyTokens.trans (.get refl) (fun store => ?_)
  split
  · exact .throw refl _
  · dsimp only
    split
    · exact .throw_bind refl _
    · exact .bind OnlyTokens.trans (onlyTokens_mint_on_login _ _ _ _ _) (fun _ => .pure refl _)

theorem onlyTokens_token_refresh (crypto : Crypto) (config : TokenConfig) (issue : Issue) (req : RefreshRequest) :
    Relates OnlyTokens (token_refresh crypto config issue req) := by
  have refl := OnlyTokens.refl
  unfold token_refresh
  dsimp only
  split
  · exact .throw_bind refl _
  · split
    · exact .throw_bind refl _
    · split
      · exact .throw_bind refl _
      · refine .bind OnlyTokens.trans (.get refl) (fun store => .bind OnlyTokens.trans ?_ (fun loaded => ?_))
        · cases store.load_valid_token crypto issue.now req.refresh_token .Refresh with
          | ok loaded => exact .pure refl _
          | error e => exact .throw refl _
        · split
          · exact .throw refl _
          · split
            · exact .throw_bind refl _
            · split
              · exact .throw_bind refl _
              · exact .adaptExcept (.transaction refl fun s a t ok => onlyTokens_rotate (transaction_ok.mpr ok))

theorem onlyTokens_token_revoke (crypto : Crypto) (now now' : ℤ) (bearer device_id : String) :
    Relates OnlyTokens (token_revoke crypto now now' bearer device_id) := by
  have refl := OnlyTokens.refl
  unfold token_revoke
  refine .bind OnlyTokens.trans (.get refl) (fun store => .bind OnlyTokens.trans ?_ (fun loaded => ?_))
  · cases store.load_valid_token crypto now bearer .Access with
    | ok loaded => exact .pure refl _
    | error e => exact .throw refl _
  · split
    · exact .throw refl _
    · exact .adaptExcept fun s => ⟨rfl,rfl,tokensKept_revoke_where _ _⟩

theorem onlyTokens_record_failure (now : ℤ) (identity : String) (throttle : ThrottleConfig) :
    Relates OnlyTokens (record_failure now identity throttle) := fun _ => ⟨rfl,rfl,.of_eq rfl⟩

theorem onlyTokens_challenge (now now' : ℤ) (nonce : List UInt8) (challenge_id : String) (who : ValidatedToken)
    (request : BindingStart) : Relates OnlyTokens (Binding.challenge now now' nonce challenge_id who request) := by
  have refl := OnlyTokens.refl
  unfold Binding.challenge
  refine .bind OnlyTokens.trans (.modify fun s => ⟨rfl,rfl,.of_eq rfl⟩) (fun _ => ?_)
  refine .bind OnlyTokens.trans (.get refl) (fun store => ?_)
  split
  · dsimp only
    split
    · exact .throw_bind refl _
    · exact .pure refl _
  · dsimp only
    split
    · exact .throw_bind refl _
    · split
      · exact .throw_bind refl _
      · exact .bind OnlyTokens.trans (.modify fun s => ⟨rfl,rfl,.of_eq rfl⟩) (fun _ => .pure refl _)

theorem onlyTokens_start (now now' : ℤ) (nonce : List UInt8) (challenge_id : String) (who : ValidatedToken)
    (request : BindingStart) : Relates OnlyTokens (Binding.start now now' nonce challenge_id who request) := by
  unfold Binding.start
  refine .bind OnlyTokens.trans (.get OnlyTokens.refl) (fun store => ?_)
  split
  · exact .throw OnlyTokens.refl _
  · exact onlyTokens_challenge _ _ _ _ _ _

end AuthStore

/-! ### The server -/

/-- A request for the content of an account. -/
structure ContentRequest where
  account_id : String
  call : SyncStore.Call
  of_account : call.account = some account_id

/-- A request that has passed the check, with the auth database and the time that the
    check has seen. -/
structure Admitted where
  who : AuthAccount
  request : ContentRequest
  seen : AuthStore
  time : ℤ

structure Server where
  auth : AuthStore
  content : SyncStore
  /-- Calls of `start` whose principal is loaded. -/
  starting : List (ValidatedToken × BindingStart)
  /-- Calls of `finish` whose principal is loaded. -/
  finishing : List (String × BindingFinish)
  /-- The call of `finish` that holds the write lease. -/
  writing : Option (String × BindingFinish)
  /-- Requests that are authenticated. -/
  waiting : List (AuthAccount × ContentRequest)
  /-- Requests that hold a read lease. -/
  leased : List (AuthAccount × ContentRequest)
  /-- Requests that hold a read lease and have passed the check under it. -/
  admitted : List Admitted

namespace Server

/-- One step of one request. -/
inductive Step (settings : Settings) (server : Server) : Server → Prop where
  | call (call : AuthCall) : Step settings server { server with auth := server.auth.serve settings server.content call }
  | authenticate_start {credential : String} {request : BindingStart} {now : ℤ} {who : ValidatedToken} :
      principal settings.crypto server.auth now credential = .ok who → Binding.checked_start request = .ok () →
      Step settings server { server with starting := (who,request) :: server.starting }
  | start {before after : List (ValidatedToken × BindingStart)} {who : ValidatedToken} {request : BindingStart}
      (now now' : ℤ) (nonce : List UInt8) (challenge_id : String) :
      server.starting = before ++ (who,request) :: after →
      Step settings server { server with
        auth := leaves (Binding.start now now' nonce challenge_id who request server.auth)
        starting := before ++ after }
  | authenticate_finish {credential : String} {request : BindingFinish} {now : ℤ} {who : ValidatedToken} :
      principal settings.crypto server.auth now credential = .ok who →
      Step settings server { server with finishing := (credential,request) :: server.finishing }
  | write_lease {before after : List (String × BindingFinish)} {finishing : String × BindingFinish} :
      server.finishing = before ++ finishing :: after → server.writing = none → server.leased = [] →
      server.admitted = [] →
      Step settings server { server with finishing := before ++ after, writing := some finishing }
  | finish {credential : String} {request : BindingFinish} (now now' now'' : ℤ) :
      server.writing = some (credential,request) →
      Step settings server { server with
        auth := leaves (Binding.finish settings.crypto server.content now now' now'' credential request server.auth)
        writing := none }
  /-- The tenant of the caller has too many requests in work. -/
  | shed_finish : Step settings server { server with writing := none }
  | authenticate {bearer : String} {request : ContentRequest} {now now' : ℤ} {who : AuthAccount} :
      require_account_auth settings.crypto server.auth now now' bearer request.account_id = .ok who →
      Step settings server { server with waiting := (who,request) :: server.waiting }
  | read_lease {before after : List (AuthAccount × ContentRequest)} {waiting : AuthAccount × ContentRequest} :
      server.waiting = before ++ waiting :: after → server.writing = none →
      Step settings server { server with waiting := before ++ after, leased := waiting :: server.leased }
  | pass {before after : List (AuthAccount × ContentRequest)} {who : AuthAccount} {request : ContentRequest} (now : ℤ) :
      server.leased = before ++ (who,request) :: after →
      admission server.auth now (some who) request.account_id = .ok () →
      Step settings server { server with
        leased := before ++ after
        admitted := ⟨who,request,server.auth,now⟩ :: server.admitted }
  | refuse {before after : List (AuthAccount × ContentRequest)} {who : AuthAccount} {request : ContentRequest} {now : ℤ} {e : ApiError} :
      server.leased = before ++ (who,request) :: after →
      admission server.auth now (some who) request.account_id = .error e →
      Step settings server { server with leased := before ++ after }
  /-- The tenant of the caller has too many requests in work. -/
  | shed {before after : List Admitted} {admitted : Admitted} : server.admitted = before ++ admitted :: after →
      Step settings server { server with admitted := before ++ after }
  | execute {before after : List Admitted} {admitted : Admitted} : server.admitted = before ++ admitted :: after →
      Step settings server { server with
        content := server.content.serve settings.ct_hash admitted.request.call
        admitted := before ++ after }

/-- The runs of the server: any number of steps, of any requests in any order. -/
def Run (settings : Settings) : Server → Server → Prop := Relation.ReflTransGen (Step settings)

/-! ### A small server -/

def zeros : List UInt8 := List.replicate 32 0

/-- The device whose key is `zeros`, as the settings below hash it. -/
def phone : String := "00000000000000000000000000000000"

/-- Settings under which every secret is `zeros` and every signature holds. -/
def small : Settings := {
  crypto := ⟨fun _ => "s",fun _ => some zeros,id,fun _ _ _ => true⟩
  tokens := ⟨100,1000⟩
  throttle := .default
  ct_hash := fun _ => "h" }

/-- A relay with one tenant from before the migration, whose device has two tokens. -/
def small_server : Server := {
  auth := migrate "relay" {
    accounts := ∅
    account_map := (∅ : Std.ExtTreeMap String String).insert "mail" "ann"
    tokens := ((∅ : Std.ExtTreeMap String LegacyTokenRow).insert "access" ⟨"ann",phone,zeros,zeros,.Access,100,none⟩).insert
      "refresh" ⟨"ann",phone,zeros,zeros,.Refresh,1000,none⟩
    auth_failures := ∅ }
  content := ⟨⟨[],[],⟨0,0⟩⟩,[],[],[],[],none,[]⟩
  starting := []
  finishing := []
  writing := none
  waiting := []
  leased := []
  admitted := [] }

end Server
end Pergamon
