import Pergamon.Server

/-!
The authority over content namespaces in every run of the server. A namespace that was
ever assigned to a tenant is never assigned to another, an active binding stays as it
is, the version of a tenant's live binding grows with each change, and a namespace that
ever had a row is never newly bound (`content_binding_authority`).

The steps that touch bindings are the legacy registration, which reserves a namespace
for a tenant that is new, and the end of a binding; what all steps keep is `Evolves`.
-/
namespace Pergamon
open Fallible

namespace AuthStore
variable {s t r : AuthStore} {content : SyncStore} {settings : Settings}

/-- How the auth database changes along a run. -/
structure Evolves (s t : AuthStore) : Prop where
  tokens : s.TokensKept t
  tenants : ∀ tenant, s.tenant_known tenant → t.tenant_known tenant
  assigned : ∀ (id : String) (row : BindingRow), s.content_bindings.rows[id]? = some row →
    ∃ row' : BindingRow, t.content_bindings.rows[id]? = some row' ∧ row'.auth_tenant_id = row.auth_tenant_id
  established : ∀ tenant b, s.binding_for tenant = some b → b.state = .active → t.binding_for tenant = some b
  version : ∀ tenant, s.tenant_known tenant → t.binding_for tenant = s.binding_for tenant ∨
    bound_version (s.binding_for tenant) < bound_version (t.binding_for tenant)

theorem Evolves.refl (s : AuthStore) : s.Evolves s :=
  ⟨.of_eq rfl,fun _ => id,fun _ row there => ⟨row,there,rfl⟩,fun _ _ there _ => there,fun _ _ => .inl rfl⟩

theorem Evolves.trans (first : s.Evolves t) (second : t.Evolves r) : s.Evolves r := by
  refine ⟨first.tokens.trans second.tokens,fun tenant known => second.tenants tenant (first.tenants tenant known),?_,
    fun tenant b there active => second.established tenant b (first.established tenant b there active) active,?_⟩
  · intro id row there
    obtain ⟨row',there',same⟩ := first.assigned id row there
    obtain ⟨row'',there'',same'⟩ := second.assigned id row' there'
    exact ⟨row'',there'',same'.trans same⟩
  · intro tenant known
    rcases second.version tenant (first.tenants tenant known) with kept | grown
    · rw [kept]
      exact first.version tenant known
    · rcases first.version tenant known with kept | before
      · rw [← kept]
        exact .inr grown
      · exact .inr (before.trans grown)

/-- The namespaces that are new among the bindings never had a row. -/
def BindsFree (content : SyncStore) (s t : AuthStore) : Prop :=
  ∀ id : String, s.content_bindings.rows[id]? = none → t.content_bindings.rows[id]? ≠ none →
    content.occupied id = false

theorem BindsFree.of_eq (same : t.content_bindings = s.content_bindings) : BindsFree content s t := by
  intro id absent present
  rw [same] at present
  exact absurd absent present

theorem binding_for_congr (same : t.content_bindings = s.content_bindings) (tenant : String) :
    t.binding_for tenant = s.binding_for tenant := by
  unfold AuthStore.binding_for
  rw [same]

theorem OnlyTokens.evolves (only : s.OnlyTokens t) : s.Evolves t := by
  have same (tenant : String) := binding_for_congr only.content_bindings tenant
  refine ⟨only.tokens,fun tenant known => ?_,fun id row there => ⟨row,by rw [only.content_bindings]; exact there,rfl⟩,
    fun tenant b there _ => by rw [same]; exact there,fun tenant _ => .inl (same tenant)⟩
  unfold tenant_known at known ⊢
  rw [only.account_map]
  exact known

/-! ### Registration -/

theorem tenant_known_iff {tenant : String} :
    s.tenant_known tenant ↔ ∃ identity : String, s.account_map[identity]? = some tenant := by
  simp [tenant_known]

theorem insert_tenant_ok {identity tenant : String} {u : Unit} (ok : insert_tenant identity tenant s = .ok u t) :
    s.account_map[identity]? = none ∧ s.tenant_known tenant = false ∧
      t = { s with account_map := s.account_map.insert identity tenant } := by
  unfold insert_tenant at ok
  obtain ⟨store,r,got,ok⟩ := work_bind_ok.mp ok
  cases got
  dsimp only at ok
  split at ok
  · cases ok
  · next free =>
    cases ok
    simp only [Bool.or_eq_true,not_or,Bool.not_eq_true] at free
    exact ⟨Std.ExtTreeMap.getElem?_eq_none_of_contains_eq_false free.1,free.2,rfl⟩

theorem insert_binding_ok {id : String} {row : BindingRow} {u : Unit} (ok : insert_binding id row s = .ok u t) :
    ∃ bindings, s.content_bindings.insert id row = .ok bindings ∧ t = { s with content_bindings := bindings } := by
  unfold insert_binding at ok
  obtain ⟨store,r,got,ok⟩ := work_bind_ok.mp ok
  cases got
  dsimp only at ok
  split at ok
  · cases ok
  · cases inserted : s.content_bindings.insert id row with
    | error e => simp only [inserted] at ok; cases ok
    | ok bindings =>
      simp only [inserted] at ok
      cases ok
      exact ⟨bindings,rfl,rfl⟩

theorem known_insert_tenant {identity other : String} (tenant : String) (absent : s.account_map[identity]? = none)
    (known : s.tenant_known other) :
    ({ s with account_map := s.account_map.insert identity tenant } : AuthStore).tenant_known other := by
  rw [tenant_known_iff] at known ⊢
  obtain ⟨identity',there⟩ := known
  refine ⟨identity',?_⟩
  rw [Std.ExtTreeMap.getElem?_insert]
  split
  · next same =>
    rw [Std.LawfulEqOrd.compare_eq_iff_eq] at same
    rw [← same,absent] at there
    cases there
  · exact there

/-- The binding of a tenant after a row is inserted among the bindings. -/
theorem binding_for_insert {bindings : ContentBindings} {id : String} {row : BindingRow}
    (ok : s.content_bindings.insert id row = .ok bindings) (state : row.state ≠ .retired) (tenant : String) :
    ({ s with content_bindings := bindings } : AuthStore).binding_for tenant = if row.auth_tenant_id = tenant then
      some ⟨tenant,id,row.binding_version,row.state,row.operation_id⟩ else s.binding_for tenant := by
  unfold AuthStore.binding_for
  rw [ContentBindings.live_insert ok state]
  split <;> rfl

/-- What a call that does not hold the write lease leaves: it may reserve a namespace
    that never had a row for a tenant that is new. -/
structure Quiet (content : SyncStore) (s t : AuthStore) : Prop where
  tokens : s.TokensKept t
  tenants : ∀ tenant, s.tenant_known tenant → t.tenant_known tenant
  rows : ∀ (id : String) (row : BindingRow), s.content_bindings.rows[id]? = some row →
    t.content_bindings.rows[id]? = some row
  bindings : ∀ tenant, s.tenant_known tenant ∨ s.binding_for tenant ≠ none → t.binding_for tenant = s.binding_for tenant
  free : BindsFree content s t

theorem Quiet.evolves (quiet : Quiet content s t) : s.Evolves t := by
  refine ⟨quiet.tokens,quiet.tenants,fun id row there => ⟨row,quiet.rows id row there,rfl⟩,fun tenant b there _ => ?_,
    fun tenant known => .inl (quiet.bindings tenant (.inl known))⟩
  rw [quiet.bindings tenant (.inr (by rw [there]; exact Option.some_ne_none b)),there]

theorem OnlyTokens.quiet (only : s.OnlyTokens t) : Quiet content s t :=
  ⟨only.tokens,only.evolves.tenants,fun id row there => by rw [only.content_bindings]; exact there,
    fun tenant _ => binding_for_congr only.content_bindings tenant,.of_eq only.content_bindings⟩

theorem Quiet.refl (s : AuthStore) : Quiet content s s := (OnlyTokens.refl s).quiet

theorem quiet_register_unbound (identity : String) (record : List UInt8) (key_id tenant : String) :
    Relates (Quiet content) (register_unbound identity record key_id tenant) := by
  intro s
  unfold register_unbound
  rw [get_bind]
  by_cases taken : s.account_exists identity
  · rw [if_pos taken]
    exact .refl s
  · rw [if_neg taken]
    refine Relates.transaction Quiet.refl (fun s a t ok => ?_) s
    obtain ⟨u,mid,wrote,ok⟩ := work_bind_ok.mp ok
    cases wrote
    obtain ⟨u',last,inserted,ok⟩ := work_bind_ok.mp ok
    cases ok
    obtain ⟨absent,-,rfl⟩ := insert_tenant_ok inserted
    exact ⟨.of_eq rfl,fun other known => known_insert_tenant _ absent known,fun _ _ => id,fun _ _ => rfl,.of_eq rfl⟩

/-- A row of a new tenant under a namespace that never had a row. -/
theorem quiet_insert {bindings : ContentBindings} {identity id : String} {row : BindingRow}
    (absent : s.account_map[identity]? = none) (unknown : s.tenant_known row.auth_tenant_id = false)
    (free : content.occupied id = false) (state : row.state ≠ .retired)
    (insert : s.content_bindings.insert id row = .ok bindings)
    (same : t.content_bindings = bindings) (tenants : t.account_map = s.account_map.insert identity row.auth_tenant_id)
    (tokens : t.tokens = s.tokens) : Quiet content s t := by
  obtain ⟨unassigned,unbound,rows⟩ := ContentBindings.insert_ok insert
  refine ⟨.of_eq tokens,fun other known => ?_,fun old there present => ?_,fun tenant known => ?_,fun new before after => ?_⟩
  · have kept := known_insert_tenant row.auth_tenant_id absent known
    unfold tenant_known at kept ⊢
    rw [tenants]
    exact kept
  · rw [same,rows,Std.ExtTreeMap.getElem?_insert]
    split
    · next here =>
      rw [Std.LawfulEqOrd.compare_eq_iff_eq] at here
      rw [← here,unassigned] at present
      cases present
    · exact present
  · rw [binding_for_congr (s := { s with content_bindings := bindings }) same,binding_for_insert insert state,if_neg]
    rintro rfl
    rcases known with known | bound
    · rw [unknown] at known
      cases known
    · exact bound (by unfold AuthStore.binding_for; rw [unbound state]; rfl)
  · rw [same,rows,Std.ExtTreeMap.getElem?_insert] at after
    split at after
    · next here =>
      rw [Std.LawfulEqOrd.compare_eq_iff_eq] at here
      exact here ▸ free
    · exact absurd before after

/-- A legacy registration reserves the namespace of a tenant that is new. -/
theorem quiet_register_legacy (identity : String) (record : List UInt8) (key_id candidate : String) :
    Relates (Quiet content) (register_legacy content identity record key_id candidate) := by
  unfold register_legacy
  dsimp only
  split
  · exact .throw_bind Quiet.refl _
  · next free =>
    refine .adaptExcept fun s => ?_
    unfold finish_registration_at
    rw [get_bind]
    by_cases taken : s.account_exists identity
    · rw [if_pos taken]
      exact .refl s
    · rw [if_neg taken]
      refine Relates.transaction Quiet.refl (fun s a t ok => ?_) s
      obtain ⟨u,mid,wrote,ok⟩ := work_bind_ok.mp ok
      cases wrote
      obtain ⟨u',last,inserted,ok⟩ := work_bind_ok.mp ok
      obtain ⟨absent,unknown,rfl⟩ := insert_tenant_ok inserted
      obtain ⟨v,final,bound,ok⟩ := work_bind_ok.mp ok
      cases ok
      obtain ⟨bindings,insert,rfl⟩ := insert_binding_ok bound
      replace unknown : s.tenant_known candidate = false := unknown
      exact quiet_insert absent unknown ((Bool.not_eq_true _).mp free) (by simp) insert rfl rfl rfl

theorem quiet_serve (call : AuthCall) : Quiet content s (s.serve settings content call) := by
  cases call with
  | register_legacy identity record key_id candidate => exact quiet_register_legacy identity record key_id candidate s
  | register_unbound identity record key_id tenant => exact quiet_register_unbound identity record key_id tenant s
  | login issue identity req v2 => exact (onlyTokens_complete_login _ _ issue identity req v2 s).quiet
  | login_failed now identity => exact (onlyTokens_record_failure now identity _ s).quiet
  | refresh issue req => exact (onlyTokens_token_refresh _ _ issue req s).quiet
  | revoke now now' bearer device_id => exact (onlyTokens_token_revoke _ now now' bearer device_id s).quiet

/-! ### Binding -/

/-- The binding of a tenant after a namespace is allocated to one. -/
theorem binding_for_allocate {now : ℤ} {who : ValidatedToken} {operation_id id : String} {b : ContentBinding}
    (ok : Binding.allocate now who operation_id id s = .ok b t) (tenant : String) :
    t.binding_for tenant = if who.auth_tenant_id = tenant then
      some ⟨tenant,id,who.binding_version + 1,.active,some operation_id⟩ else s.binding_for tenant := by
  obtain ⟨bindings,insert,same,-,-⟩ := Binding.allocate_ok ok
  unfold AuthStore.binding_for
  rw [same,ContentBindings.live_insert insert (by simp),ContentBindings.live_retire]
  split <;> rfl

/-- What a call of `finish` leaves. -/
theorem finish_evolves {crypto : Crypto} {now now' now'' : ℤ} {credential : String} {request : BindingFinish} :
    s.Evolves (leaves (Binding.finish crypto content now now' now'' credential request s)) ∧
      BindsFree content s (leaves (Binding.finish crypto content now now' now'' credential request s)) := by
  cases ran : Binding.finish crypto content now now' now'' credential request s with
  | error e t =>
    rw [Binding.finish_error ran]
    exact ⟨.refl s,.of_eq rfl⟩
  | ok b t =>
    obtain ⟨who,loaded,rfl | ⟨id,legacy,unassigned,free,allocated⟩⟩ := Binding.finish_cases ran
    · exact ⟨.refl t,.of_eq rfl⟩
    · have binding := binding_for_allocate allocated
      have version := Binding.principal_version loaded
      obtain ⟨bindings,insert,same,tenants,tokens⟩ := Binding.allocate_ok allocated
      obtain ⟨-,-,rows⟩ := ContentBindings.insert_ok insert
      refine ⟨⟨?_,fun tenant known => ?_,fun old row there => ?_,fun tenant b' there active => ?_,fun tenant known => ?_⟩,
        fun new before after => ?_⟩
      · have kept := tokensKept_revoke_where (s := s) now'' (fun row => row.auth_tenant_id = who.auth_tenant_id)
        exact kept.trans (.of_eq tokens)
      · show t.tenant_known tenant
        unfold tenant_known at known ⊢
        rw [tenants]
        exact known
      · show ∃ row', t.content_bindings.rows[old]? = some row' ∧ _
        rw [same,rows,Std.ExtTreeMap.getElem?_insert]
        split
        · next here =>
          rw [Std.LawfulEqOrd.compare_eq_iff_eq] at here
          rw [← here,unassigned] at there
          cases there
        · rw [ContentBindings.retire_rows,there]
          refine ⟨_,rfl,?_⟩
          dsimp only
          split <;> rfl
      · show t.binding_for tenant = some b'
        rw [binding,if_neg]
        · exact there
        · rintro rfl
          rw [legacy b' there] at active
          cases active
      · show t.binding_for tenant = _ ∨ _ < bound_version (t.binding_for tenant)
        rw [binding]
        split
        · next mine =>
          subst mine
          rw [version]
          exact .inr (show who.binding_version < who.binding_version + 1 by omega)
        · exact .inl rfl
      · replace after : t.content_bindings.rows[new]? ≠ none := after
        rw [same,rows,Std.ExtTreeMap.getElem?_insert] at after
        split at after
        · next here =>
          rw [Std.LawfulEqOrd.compare_eq_iff_eq] at here
          exact here ▸ free
        · rw [ContentBindings.retire_rows,before] at after
          exact absurd rfl after

end AuthStore

/-! ### Runs of the server -/

namespace Server
variable {settings : Settings} {start server server' : Server}

/-- What one step leaves of the authority over the namespaces. -/
theorem Step.evolves (step : Step settings server server') : server.auth.Evolves server'.auth ∧
    AuthStore.BindsFree server.content server.auth server'.auth := by
  have still : server.auth.Evolves server.auth ∧ AuthStore.BindsFree server.content server.auth server.auth :=
    ⟨.refl _,.of_eq rfl⟩
  cases step with
  | call call =>
    have quiet : AuthStore.Quiet server.content server.auth (server.auth.serve settings server.content call) :=
      AuthStore.quiet_serve call
    exact ⟨quiet.evolves,quiet.free⟩
  | @start before after who request now now' nonce challenge_id queued =>
    have only := AuthStore.onlyTokens_start now now' nonce challenge_id who request server.auth
    exact ⟨only.evolves,.of_eq only.content_bindings⟩
  | finish now now' now'' writing => exact AuthStore.finish_evolves
  | authenticate_start _ _ => exact still
  | authenticate_finish _ => exact still
  | write_lease _ _ _ _ => exact still
  | shed_finish => exact still
  | authenticate _ => exact still
  | read_lease _ _ => exact still
  | pass _ _ _ => exact still
  | refuse _ _ => exact still
  | shed _ => exact still
  | execute _ => exact still

/-- A namespace that has had a row stays one that has. -/
theorem Step.occupied (step : Step settings server server') {id : String} (had : server.content.occupied id) :
    server'.content.occupied id := by
  cases step with
  | @execute before after admitted queued =>
    rw [SyncStore.occupied,List.contains_iff_mem] at had ⊢
    exact SyncStore.serve_history settings.ct_hash admitted.request.call had
  | _ => exact had

theorem Run.evolves (run : Run settings start server) : start.auth.Evolves server.auth := by
  induction run with
  | refl => exact .refl _
  | tail _ step evolved => exact evolved.trans step.evolves.1

/-- A namespace that had a row at the start and was not assigned then is assigned in no
    run. -/
theorem Run.unassigned (run : Run settings start server) {id : String} (had : start.content.occupied id)
    (absent : start.auth.content_bindings.rows[id]? = none) :
    server.content.occupied id ∧ server.auth.content_bindings.rows[id]? = none := by
  induction run with
  | refl => exact ⟨had,absent⟩
  | @tail server server' _ step kept =>
    refine ⟨step.occupied kept.1,?_⟩
    by_contra bound
    have free := step.evolves.2 id kept.2 bound
    rw [kept.1] at free
    cases free

/-- In every run, whatever the requests and the order of their steps: a tenant has at
    most one live binding; a namespace stays with the tenant that it was ever assigned
    to; an active binding stays as it is; the live version of a tenant grows with each
    change of its binding; and a namespace that has ever had a row is not newly bound. -/
theorem content_binding_authority (run : Run settings start server) :
    (∀ (id id' : String) (row row' : BindingRow), server.auth.content_bindings.rows[id]? = some row →
      server.auth.content_bindings.rows[id']? = some row' → row.state ≠ .retired → row'.state ≠ .retired →
      row.auth_tenant_id = row'.auth_tenant_id → id = id') ∧
    (∀ (id : String) (row : BindingRow), start.auth.content_bindings.rows[id]? = some row →
      ∃ row' : BindingRow, server.auth.content_bindings.rows[id]? = some row' ∧
        row'.auth_tenant_id = row.auth_tenant_id) ∧
    (∀ tenant b, start.auth.binding_for tenant = some b → b.state = .active →
      server.auth.binding_for tenant = some b) ∧
    (∀ tenant, start.auth.tenant_known tenant → server.auth.binding_for tenant = start.auth.binding_for tenant ∨
      bound_version (start.auth.binding_for tenant) < bound_version (server.auth.binding_for tenant)) ∧
    ∀ id : String, start.content.occupied id → start.auth.content_bindings.rows[id]? = none →
      server.auth.content_bindings.rows[id]? = none := by
  have evolved := run.evolves
  exact ⟨server.auth.content_bindings.one_live_binding,evolved.assigned,evolved.established,evolved.version,
    fun id had absent => (run.unassigned had absent).2⟩

set_option maxRecDepth 10000 in
/-- The device of a migrated tenant binds a namespace in place of the reserved one. -/
theorem content_binding_authority_migrated : ∃ server, Run small small_server server ∧
    server.auth.binding_for "ann" = some ⟨"ann","0123456789abcdef0123456789abcdef",1,.active,some "op"⟩ ∧
    bound_version (small_server.auth.binding_for "ann") < bound_version (server.auth.binding_for "ann") ∧
    ∃ row : BindingRow, server.auth.content_bindings.rows["ann"]? = some row ∧ row.auth_tenant_id = "ann" := by
  let who : ValidatedToken := ⟨"access","ann",phone,zeros,some "ann",0,.Content⟩
  have started : Run small small_server _ := .tail (.tail .refl
    (@Step.authenticate_start small _ "access.s" ⟨"op","0123456789abcdef0123456789abcdef"⟩ 0 who rfl rfl))
    (@Step.start small _ [] [] _ _ 0 0 zeros "challenge" rfl)
  have waiting := started.tail
    (@Step.authenticate_finish small _ "access.s" ⟨"op","challenge",zeros ++ zeros⟩ 0 who rfl)
  have run := (waiting.tail (@Step.write_lease small _ [] [] _ rfl rfl rfl rfl)).tail (.finish 0 0 0 rfl)
  obtain ⟨-,assigned,-,version,-⟩ := content_binding_authority run
  refine ⟨_,run,by decide +kernel,?_,assigned "ann" (reserved "ann") (by decide +kernel)⟩
  rcases version "ann" (by decide +kernel) with same | grown
  · revert same
    decide +kernel
  · exact grown

end Server
end Pergamon
