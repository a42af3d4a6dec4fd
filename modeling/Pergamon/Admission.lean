import Pergamon.Authority

/-!
Store admission: what holds of a request when it works on the content of an account.
The check under the lease has seen the token of its principal unrevoked and unexpired
and the binding of its tenant; and since a binding is finished only while no request
holds a lease, the tenant still has that binding when the request is executed
(`admitted_under_binding`).

A revocation takes no lease: a request that has passed the check is executed though its
token is revoked meanwhile (`executed_after_revocation`). After the revocation no
further request of the token passes the check.
-/
namespace Pergamon
open Fallible

namespace AuthStore
variable {s t : AuthStore} {who : AuthAccount} {now : ℤ}

/-- The tenant of a principal has the binding that the principal was admitted under. -/
def Holds (store : AuthStore) (who : AuthAccount) : Prop :=
  ∃ b, store.binding_for who.auth_tenant_id = some b ∧ b.content_account_id = who.account_id ∧
    b.binding_version = who.binding_version

theorem Holds.congr (holds : s.Holds who)
    (same : t.binding_for who.auth_tenant_id = s.binding_for who.auth_tenant_id) : t.Holds who := by
  obtain ⟨b,bound,rest⟩ := holds
  exact ⟨b,same.trans bound,rest⟩

/-- The token of a principal is there, neither revoked nor expired. -/
def Unrevoked (store : AuthStore) (now : ℤ) (who : AuthAccount) : Prop :=
  ∃ row, store.tokens[who.token_id]? = some row ∧ row.auth_tenant_id = who.auth_tenant_id ∧
    row.revoked_at = none ∧ now < row.expires_at

theorem principal_is_current_ok (current : s.principal_is_current now who) : s.Unrevoked now who ∧ s.Holds who := by
  unfold principal_is_current at current
  split at current
  · next row b there bound =>
    simp only [Bool.and_eq_true,decide_eq_true_eq,Option.isNone_iff_eq_none] at current
    obtain ⟨⟨⟨⟨⟨⟨⟨⟨tenant,-⟩,version⟩,account⟩,same⟩,unrevoked⟩,alive⟩,-⟩,-⟩ := current
    exact ⟨⟨row,there,tenant,unrevoked,alive⟩,⟨b,bound,account,same.trans version⟩⟩
  · cases current

theorem admission_ok {account_id : String} (ok : admission s now (some who) account_id = .ok ()) :
    who.account_id = account_id ∧ s.principal_is_current now who := by
  unfold admission at ok
  dsimp only at ok
  obtain ⟨u,authorized,ok⟩ := bind_ok.mp ok
  unfold authorize_account at authorized
  split at authorized
  · next same =>
    split at ok
    · next current => exact ⟨same,current⟩
    · cases ok
  · cases authorized

end AuthStore

namespace Server
variable {settings : Settings} {start server server' : Server}

/-- A step that does not finish a binding leaves the bindings of all known tenants. -/
theorem Step.quiet (step : Step settings server server') (unleased : server.writing = none) :
    AuthStore.Quiet server.content server.auth server'.auth := by
  cases step with
  | call call => exact AuthStore.quiet_serve call
  | @start before after who request now now' nonce challenge_id queued =>
    exact (AuthStore.onlyTokens_start now now' nonce challenge_id who request server.auth).quiet
  | finish now now' now'' writing =>
    rw [unleased] at writing
    cases writing
  | _ => exact .refl _

/-- What holds of an admitted request until it is executed. -/
structure Covered (settings : Settings) (start server : Server) (admitted : Admitted) : Prop where
  authorized : admitted.who.account_id = admitted.request.account_id
  /-- The check was passed in a state of the run. -/
  checked : ∃ checking, Run settings start checking ∧ Run settings checking server ∧ checking.auth = admitted.seen ∧
    checking.auth.Unrevoked admitted.time admitted.who
  holds : server.auth.Holds admitted.who

theorem Covered.step {admitted : Admitted} (covered : Covered settings start server admitted)
    (step : Step settings server server') (unleased : server.writing = none) :
    Covered settings start server' admitted := by
  obtain ⟨checking,before,since,rest⟩ := covered.checked
  refine ⟨covered.authorized,⟨checking,before,since.tail step,rest⟩,covered.holds.congr ?_⟩
  obtain ⟨b,bound,-⟩ := covered.holds
  exact (step.quiet unleased).bindings _ (.inr (by rw [bound]; exact Option.some_ne_none b))

/-- The write lease excludes the read leases, and every admitted request is covered. -/
structure Guarded (settings : Settings) (start server : Server) : Prop where
  exclusive : server.writing ≠ none → server.leased = [] ∧ server.admitted = []
  covered : ∀ admitted ∈ server.admitted, Covered settings start server admitted

/-- What a step leaves of the leases, given what it leaves of the covered requests. -/
theorem Step.guarded (run : Run settings start server) (step : Step settings server server')
    (guarded : Guarded settings start server) : Guarded settings start server' := by
  have unleased (admitted : Admitted) (inside : admitted ∈ server.admitted) : server.writing = none := by
    by_contra writing
    rw [(guarded.exclusive writing).2] at inside
    cases inside
  have kept (admitted : Admitted) (inside : admitted ∈ server.admitted) : Covered settings start server' admitted :=
    (guarded.covered admitted inside).step step (unleased admitted inside)
  have fewer {before after : List Admitted} {one : Admitted} (queued : server.admitted = before ++ one :: after)
      (admitted : Admitted) (inside : admitted ∈ before ++ after) : Covered settings start server' admitted := by
    refine kept admitted ?_
    rw [queued,List.mem_append,List.mem_cons]
    exact (List.mem_append.mp inside).imp id .inr
  cases step with
  | call call => exact ⟨guarded.exclusive,kept⟩
  | authenticate_start _ _ => exact ⟨guarded.exclusive,kept⟩
  | start _ _ _ _ _ => exact ⟨guarded.exclusive,kept⟩
  | authenticate_finish _ => exact ⟨guarded.exclusive,kept⟩
  | write_lease queued free none_leased none_admitted => exact ⟨fun _ => ⟨none_leased,none_admitted⟩,kept⟩
  | finish _ _ _ _ => exact ⟨fun writing => absurd rfl writing,kept⟩
  | shed_finish => exact ⟨fun writing => absurd rfl writing,kept⟩
  | authenticate _ => exact ⟨guarded.exclusive,kept⟩
  | read_lease queued free => exact ⟨fun writing => absurd free writing,kept⟩
  | @pass before after who request now queued ok =>
    obtain ⟨authorized,current⟩ := AuthStore.admission_ok ok
    obtain ⟨unrevoked,holds⟩ := AuthStore.principal_is_current_ok current
    refine ⟨fun writing => ?_,fun admitted inside => ?_⟩
    · have none_leased := (guarded.exclusive writing).1
      rw [queued] at none_leased
      simp at none_leased
    · rcases List.mem_cons.mp inside with rfl | inside
      · exact ⟨authorized,⟨server,run,.single (.pass now queued ok),rfl,unrevoked⟩,holds⟩
      · exact kept admitted inside
  | refuse queued failed =>
    refine ⟨fun writing => ?_,kept⟩
    have none_leased := (guarded.exclusive writing).1
    rw [queued] at none_leased
    simp at none_leased
  | shed queued =>
    refine ⟨fun writing => ?_,fewer queued⟩
    have none_admitted := (guarded.exclusive writing).2
    rw [queued] at none_admitted
    simp at none_admitted
  | execute queued =>
    refine ⟨fun writing => ?_,fewer queued⟩
    have none_admitted := (guarded.exclusive writing).2
    rw [queued] at none_admitted
    simp at none_admitted

theorem Run.guarded (run : Run settings start server) (idle : start.writing = none ∧ start.admitted = []) :
    Guarded settings start server := by
  induction run with
  | refl =>
    refine ⟨fun writing => absurd idle.1 writing,fun admitted inside => ?_⟩
    rw [idle.2] at inside
    cases inside
  | tail run step guarded => exact step.guarded run guarded

/-- The requests of a token that is revoked that are admitted are those that passed the
    check before. -/
theorem Run.admitted_before {revoked : Server} (run : Run settings revoked server) {admitted : Admitted} {row : TokenRow}
    (there : revoked.auth.tokens[admitted.who.token_id]? = some row) (gone : row.revoked_at ≠ none)
    (inside : admitted ∈ server.admitted) : admitted ∈ revoked.admitted := by
  induction run with
  | refl => exact inside
  | @tail server server' run step ih =>
    have fewer {before after : List Admitted} {one : Admitted} (queued : server.admitted = before ++ one :: after)
        (inside : admitted ∈ before ++ after) : admitted ∈ server.admitted := by
      rw [queued,List.mem_append,List.mem_cons]
      exact (List.mem_append.mp inside).imp id .inr
    apply ih
    cases step with
    | @pass before after who request now queued ok =>
      rcases List.mem_cons.mp inside with rfl | inside
      · obtain ⟨row',there',later⟩ := (Run.evolves run).tokens _ row there
        obtain ⟨row'',there'',-,unrevoked,-⟩ :=
          (AuthStore.principal_is_current_ok (AuthStore.admission_ok ok).2).1
        obtain rfl : row' = row'' := Option.some.inj (there'.symm.trans there'')
        rcases later with rfl | ⟨never,-⟩
        · exact absurd unrevoked gone
        · exact absurd never gone
      · exact inside
    | shed queued => exact fewer queued inside
    | execute queued => exact fewer queued inside
    | _ => exact inside

/-- The content changes only where an admitted request is executed. -/
theorem Step.content (step : Step settings server server') : server'.content = server.content ∨
    ∃ admitted ∈ server.admitted, server'.content = server.content.serve settings.ct_hash admitted.request.call := by
  cases step with
  | @execute before after admitted queued =>
    exact .inr ⟨admitted,by rw [queued]; exact List.mem_append_right _ (.head _),rfl⟩
  | _ => exact .inl rfl

/-- In every run, whatever the order of the steps: the content changes only where an
    admitted request is executed; and a request that is admitted works on the account of
    its principal, was checked in a state of the run where its token was neither revoked
    nor expired, and has a tenant that still has the binding it was admitted under; if
    its token was revoked in the run, then it had passed the check before. -/
theorem admitted_under_binding (run : Run settings start server) (idle : start.writing = none ∧ start.admitted = []) :
    (∀ server', Step settings server server' → server'.content = server.content ∨
      ∃ admitted ∈ server.admitted, server'.content = server.content.serve settings.ct_hash admitted.request.call) ∧
    ∀ admitted ∈ server.admitted, admitted.request.call.account = some admitted.who.account_id ∧
      (∃ checking, Run settings start checking ∧ Run settings checking server ∧ checking.auth = admitted.seen ∧
        checking.auth.Unrevoked admitted.time admitted.who) ∧
      server.auth.Holds admitted.who ∧
      ∀ (revoked : Server) (row : TokenRow), Run settings start revoked → Run settings revoked server →
        revoked.auth.tokens[admitted.who.token_id]? = some row → row.revoked_at ≠ none →
        admitted ∈ revoked.admitted := by
  refine ⟨fun server' step => step.content,fun admitted inside => ?_⟩
  have covered := (run.guarded idle).covered admitted inside
  refine ⟨by rw [covered.authorized]; exact admitted.request.of_account,covered.checked,covered.holds,?_⟩
  intro revoked row _ since there gone
  exact since.admitted_before there gone inside

/-- The request that a device makes of the small server. -/
def small_request : ContentRequest := ⟨"ann",.device_record_put "ann" phone [1],rfl⟩
def small_who : AuthAccount := ⟨"ann",phone,"ann",0,"access"⟩

/-- A request of the small server that is admitted. -/
theorem small_admitted : Run small small_server { small_server with
    admitted := [⟨small_who,small_request,small_server.auth,0⟩] } :=
  .tail (.tail (.tail .refl
    (@Step.authenticate small _ "access.s" small_request 0 0 small_who rfl))
    (@Step.read_lease small _ [] [] _ rfl rfl))
    (@Step.pass small _ [] [] _ _ 0 rfl rfl)

theorem admitted_under_binding_small : ∃ server admitted, Run small small_server server ∧
    admitted ∈ server.admitted ∧ server.auth.Holds admitted.who :=
  ⟨_,_,small_admitted,List.mem_singleton.mpr rfl,
    ((admitted_under_binding small_admitted ⟨rfl,rfl⟩).2 _ (List.mem_singleton.mpr rfl)).2.2.1⟩

set_option maxRecDepth 10000 in
/-- A request is executed, and writes, after its token has been revoked. -/
theorem executed_after_revocation : ∃ server admitted after, Run small small_server server ∧
    (∃ row, server.auth.tokens[admitted.who.token_id]? = some row ∧ row.revoked_at ≠ none) ∧
    server.admitted = admitted :: after ∧
    Step small server { server with
      content := server.content.serve small.ct_hash admitted.request.call
      admitted := after } ∧
    server.content.device_records = [] ∧
    (server.content.serve small.ct_hash admitted.request.call).device_records ≠ [] := by
  have revoked := small_admitted.tail (.call (.revoke 0 0 "access.s" phone))
  refine ⟨_,⟨small_who,small_request,small_server.auth,0⟩,[],revoked,
    ⟨{ auth_tenant_id := "ann", device_id := phone, ed25519_pub := zeros, token_hash := zeros, kind := .Access,
       expires_at := 100, revoked_at := some 0, content_account_id := some "ann", binding_version := 0,
       scope := .Content },by decide +kernel,by decide⟩,rfl,@Step.execute small _ [] [] _ rfl,rfl,by decide⟩

end Server
end Pergamon
