import Pergamon.Authority

/-!
Rotation of refresh tokens and revocation of devices, among any other calls of the
server. A refresh token is exchanged at most once, a revoked token never loads again,
the tokens of other devices and tenants stay as they are, and a refresh that fails
writes nothing (`rotation_and_revocation`).

A token that is revoked stays so along every run (`TokensKept`), which is what both
the exchange and the revocation rest on.
-/
namespace Pergamon
open Fallible

namespace AuthStore
variable {s t : AuthStore} {crypto : Crypto} {config : TokenConfig} {issue : Issue} {req : RefreshRequest}
  {tenant device_id bearer id : String} {row : TokenRow}

/-- The id of the token that a bearer names. -/
def named (crypto : Crypto) (bearer : String) : Option String := (parse_bearer crypto bearer).map Prod.fst

/-- A refresh that succeeds exchanges a token that is valid. -/
theorem token_refresh_ok {issued : RotatedTokens} (ok : token_refresh crypto config issue req s = .ok issued t) :
    ∃ who, s.load_valid_token crypto issue.now req.refresh_token .Refresh = .ok (some who) ∧
      rotate_refresh crypto issue.now' issue.access issue.refresh who.token_id who.auth_tenant_id who.device_id
        req.ed25519_pub config.access_ttl_ms config.refresh_ttl_ms s = .ok issued t := by
  unfold token_refresh at ok
  dsimp only at ok
  split at ok
  · cases ok
  · split at ok
    · cases ok
    · split at ok
      · cases ok
      · obtain ⟨store,r,got,ok⟩ := work_bind_ok.mp ok
        cases got
        obtain ⟨found,r,read,ok⟩ := work_bind_ok.mp ok
        cases loaded : s.load_valid_token crypto issue.now req.refresh_token .Refresh with
        | error e =>
          rw [loaded] at read
          cases read
        | ok who? =>
          rw [loaded] at read
          cases read
          cases found with
          | none => cases ok
          | some who =>
            dsimp only at ok
            split at ok
            · cases ok
            · split at ok
              · cases ok
              · exact ⟨who,rfl,adaptExcept_ok.mp ok⟩

/-- A refresh that fails leaves the database as it was. -/
theorem token_refresh_atomic (crypto : Crypto) (config : TokenConfig) (issue : Issue) (req : RefreshRequest) :
    Atomic (token_refresh crypto config issue req) := by
  unfold token_refresh
  dsimp only
  split
  · exact .throw_bind _
  · split
    · exact .throw_bind _
    · split
      · exact .throw_bind _
      · refine .bind (fun _ => rfl) (fun store => .bind (fun _ => ?_) (fun found => ?_))
        · cases store.load_valid_token crypto issue.now req.refresh_token .Refresh <;> rfl
        · split
          · exact .throw _
          · split
            · exact .throw_bind _
            · split
              · exact .throw_bind _
              · exact .adaptExcept (.transaction _)

/-! ### Revoked tokens -/

/-- A token that is there and revoked. -/
def Dead (store : AuthStore) (id : String) : Prop := ∃ row, store.tokens[id]? = some row ∧ row.revoked_at ≠ none

theorem Dead.later (dead : s.Dead id) (kept : s.TokensKept t) : t.Dead id := by
  obtain ⟨row,there,gone⟩ := dead
  obtain ⟨row',there',later⟩ := kept id row there
  refine ⟨row',there',?_⟩
  rcases later with rfl | ⟨never,-⟩
  · exact gone
  · exact absurd never gone

theorem Dead.not_loaded (dead : s.Dead id) (names : named crypto bearer = some id) (now : ℤ) (kind : TokenKind) :
    s.load_valid_token crypto now bearer kind = .ok none := by
  obtain ⟨row,there,gone⟩ := dead
  obtain ⟨⟨id',secret⟩,parsed,rfl⟩ := Option.map_eq_some_iff.mp names
  have revoked : row.revoked_at.isSome ∨ row.expires_at ≤ now := .inl (Option.isSome_iff_ne_none.mpr gone)
  unfold load_valid_token
  simp only [parsed,there]
  by_cases other : row.kind ≠ kind
  · rw [if_pos other]
  · rw [if_neg other,if_pos revoked]

/-- No use of a token succeeds, and none writes anything. -/
def Refuses (store : AuthStore) (crypto : Crypto) (config : TokenConfig) (id : String) : Prop :=
  ∀ bearer, named crypto bearer = some id →
    (∀ now kind, store.load_valid_token crypto now bearer kind = .ok none) ∧
    (∀ now, store.validate_token crypto now bearer = .ok none) ∧
    ∀ (issue : Issue) (req : RefreshRequest), req.refresh_token = bearer →
      ∃ e, token_refresh crypto config issue req store = .error e store

theorem Dead.refuses (dead : s.Dead id) (crypto : Crypto) (config : TokenConfig) : s.Refuses crypto config id := by
  intro bearer names
  have never := fun now kind => dead.not_loaded names now kind
  refine ⟨never,fun now => ?_,fun issue req presented => ?_⟩
  · unfold validate_token
    rw [never]
    rfl
  · cases ran : token_refresh crypto config issue req s with
    | ok issued t =>
      obtain ⟨who,loaded,-⟩ := token_refresh_ok ran
      rw [presented,never] at loaded
      cases loaded
    | error e t => exact ⟨e,by rw [token_refresh_atomic crypto config issue req s e t ran]⟩

/-! ### The tokens of other devices -/

/-- The tokens of all other devices are the same, and load as they did. -/
structure Spares (tenant device_id : String) (s t : AuthStore) : Prop where
  rows : ∀ (id : String) (row : TokenRow), ¬of_device tenant device_id row →
    (t.tokens[id]? = some row ↔ s.tokens[id]? = some row)
  loads : ∀ (crypto : Crypto) (bearer id : String) (row : TokenRow), named crypto bearer = some id →
    s.tokens[id]? = some row → ¬of_device tenant device_id row →
    ∀ now kind, t.load_valid_token crypto now bearer kind = s.load_valid_token crypto now bearer kind

theorem Spares.of_rows (same : s.SameButTokens t) (rows : ∀ (id : String) (row : TokenRow),
    ¬of_device tenant device_id row → (t.tokens[id]? = some row ↔ s.tokens[id]? = some row)) :
    s.Spares tenant device_id t := by
  refine ⟨rows,fun crypto bearer id row names there other now kind => ?_⟩
  obtain ⟨⟨id',secret⟩,parsed,rfl⟩ := Option.map_eq_some_iff.mp names
  unfold load_valid_token
  simp only [parsed,there,(rows _ row other).mpr there,same.binding_for]

theorem Spares.trans {r : AuthStore} (first : s.Spares tenant device_id t) (second : t.Spares tenant device_id r) :
    s.Spares tenant device_id r := by
  refine ⟨fun id row other => (second.rows id row other).trans (first.rows id row other),?_⟩
  intro crypto bearer id row names there other now kind
  have there' := (first.rows id row other).mpr there
  exact (second.loads crypto bearer id row names there' other now kind).trans
    (first.loads crypto bearer id row names there other now kind)

theorem Issued.spares (issued : s.Issued tenant device_id t) : s.Spares tenant device_id t := by
  refine .of_rows issued.same fun id row other => ⟨fun there => ?_,issued.kept id row⟩
  rcases issued.fresh id row there with before | ⟨owner,device⟩
  · exact before
  · exact absurd (by simp [of_device,owner,device]) other

theorem spares_revoke_device {now : ℤ} {n : ℕ} (ok : revoke_device now tenant device_id s = .ok n t) :
    s.Spares tenant device_id t := by
  obtain rfl := revoke_device_ok ok
  refine .of_rows rfl fun id row other => ?_
  rw [revoke_where_tokens,Option.map_eq_some_iff]
  constructor
  · rintro ⟨old,there,changed⟩
    split at changed
    · next chosen =>
      rw [Bool.and_eq_true] at chosen
      exact absurd (changed ▸ chosen.1) other
    · exact changed ▸ there
  · intro there
    exact ⟨row,there,if_neg fun chosen => other ((Bool.and_eq_true _ _).mp chosen).1⟩

/-- A revocation kills every token of the device. -/
theorem dead_revoke_device {now : ℤ} {n : ℕ} (ok : revoke_device now tenant device_id s = .ok n t)
    (there : s.tokens[id]? = some row) (mine : of_device tenant device_id row) : t.Dead id := by
  obtain rfl := revoke_device_ok ok
  refine ⟨_,by rw [revoke_where_tokens,there]; rfl,?_⟩
  dsimp only
  split
  · simp
  · next kept =>
    rw [mine,Bool.true_and,Option.isNone_iff_eq_none] at kept
    exact kept

/-- An exchange kills the token that is presented, and touches no other device. -/
theorem token_refresh_exchanges {issued : RotatedTokens} (ok : token_refresh crypto config issue req s = .ok issued t) :
    ∃ id row, named crypto req.refresh_token = some id ∧ s.tokens[id]? = some row ∧
      s.Spares row.auth_tenant_id row.device_id t ∧ t.Dead id := by
  obtain ⟨who,loaded,rotated⟩ := token_refresh_ok ok
  obtain ⟨secret,parsed,-⟩ := load_valid_token_ok loaded
  obtain ⟨row,there,valid,rest⟩ := rotate_refresh_ok rotated
  simp only [exchangeable,Bool.and_eq_true,decide_eq_true_eq] at valid
  obtain ⟨⟨⟨⟨⟨-,tenant⟩,device⟩,-⟩,-⟩,-⟩ := valid
  refine ⟨who.token_id,row,by rw [named,parsed]; rfl,there,?_,?_⟩
  · rw [tenant,device]
    have consumed : s.Spares who.auth_tenant_id who.device_id { s with
        tokens := s.tokens.insert who.token_id { row with revoked_at := some issue.now' } } := by
      refine .of_rows rfl fun id old other => ?_
      rw [Std.ExtTreeMap.getElem?_insert]
      split
      · next same =>
        rw [Std.LawfulEqOrd.compare_eq_iff_eq] at same
        subst same
        rw [there]
        constructor
        · intro is
          cases is
          exact absurd (by simp [of_device,tenant,device]) other
        · intro is
          cases is
          exact absurd (by simp [of_device,tenant,device]) other
      · exact Iff.rfl
    exact consumed.trans rest.spares
  · exact ⟨_,rest.kept _ _ Std.ExtTreeMap.getElem?_insert_self,Option.some_ne_none _⟩

end AuthStore

namespace Server

/-- From any state of the server. A refresh that succeeds touches no token of another
    device, and no later use of its token succeeds, whatever is called in between. A
    revocation touches no token of another device, and no later use of a token that the
    device had succeeds. Tokens are issued without touching those of other devices. And
    a refresh that fails writes nothing. -/
theorem rotation_and_revocation (settings : Settings) (server : Server) :
    (∀ issue req issued t, token_refresh settings.crypto settings.tokens issue req server.auth = .ok issued t →
      ∃ id row, AuthStore.named settings.crypto req.refresh_token = some id ∧ server.auth.tokens[id]? = some row ∧
        server.auth.Spares row.auth_tenant_id row.device_id t ∧
        ∀ later, Run settings { server with auth := t } later → later.auth.Refuses settings.crypto settings.tokens id) ∧
    (∀ now tenant device_id n t, AuthStore.revoke_device now tenant device_id server.auth = .ok n t →
      server.auth.Spares tenant device_id t ∧
      ∀ (id : String) (row : TokenRow), server.auth.tokens[id]? = some row → AuthStore.of_device tenant device_id row →
        ∀ later, Run settings { server with auth := t } later → later.auth.Refuses settings.crypto settings.tokens id) ∧
    (∀ now now' access refresh tenant device_id public_key issued t,
      AuthStore.mint_pair settings.crypto now now' access refresh tenant device_id public_key settings.tokens
        server.auth = .ok issued t → server.auth.Spares tenant device_id t) ∧
    ∀ issue req e t, token_refresh settings.crypto settings.tokens issue req server.auth = .error e t →
      t = server.auth := by
  refine ⟨fun issue req issued t ok => ?_,fun now tenant device_id n t ok => ⟨AuthStore.spares_revoke_device ok,?_⟩,
    fun now now' access refresh tenant device_id public_key issued t ok => (AuthStore.mint_pair_issued ok).spares,
    fun issue req e t failed => AuthStore.token_refresh_atomic _ _ issue req server.auth e t failed⟩
  · obtain ⟨id,row,names,there,spares,dead⟩ := AuthStore.token_refresh_exchanges ok
    exact ⟨id,row,names,there,spares,fun later run => (dead.later run.evolves.tokens).refuses _ _⟩
  · intro id row there mine later run
    exact ((AuthStore.dead_revoke_device ok there mine).later run.evolves.tokens).refuses _ _

/-- A refresh that the device of the small server asks for. -/
def small_refresh : RefreshRequest := ⟨"refresh.s",phone,zeros,[],zeros ++ zeros⟩
def small_issue : Issue := ⟨0,0,⟨"access2",zeros⟩,⟨"refresh2",zeros⟩⟩

set_option maxRecDepth 10000 in
/-- The refresh token of the small server is exchanged, and then refused. -/
theorem rotation_and_revocation_small :
    ∃ issued t, token_refresh small.crypto small.tokens small_issue small_refresh small_server.auth = .ok issued t ∧
      t.Refuses small.crypto small.tokens "refresh" := by
  have succeeds : (match token_refresh small.crypto small.tokens small_issue small_refresh small_server.auth with
      | .ok _ _ => true
      | .error _ _ => false) = true := by decide +kernel
  have names : AuthStore.named small.crypto small_refresh.refresh_token = some "refresh" := by decide +kernel
  cases ran : token_refresh small.crypto small.tokens small_issue small_refresh small_server.auth with
  | error e t =>
    rw [ran] at succeeds
    cases succeeds
  | ok issued t =>
    obtain ⟨id,row,names',-,-,refused⟩ := (rotation_and_revocation small small_server).1 _ _ _ _ ran
    obtain rfl : "refresh" = id := Option.some.inj (names.symm.trans names')
    exact ⟨issued,t,rfl,refused _ .refl⟩

end Server
end Pergamon
