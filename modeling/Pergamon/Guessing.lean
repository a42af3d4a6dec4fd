import Mathlib.Logic.Relation
import Pergamon.Server

/-!
Logins under the throttle. A login starts and finishes in two requests; what the server
keeps in between waits in a table. To finish, a request takes its entry out of the
table, checks the throttle, verifies the finalization and counts a failure or clears the
count: four steps under three locks, and those of other requests come in between.

As long as the finishes of one identity keep apart, no verification is evaluated under
a lockout, and a lockout follows at the latest on one failure more than the threshold
(`guesses_bounded`). Finishes that overlap pass the check together: any number of them
may be verified before the first failure counts (`overlapping_guesses`).
-/
namespace Pergamon
open Fallible

/-! ### The routes -/

def PENDING_LOGIN_TTL_MS : ℤ := 120000
def MAX_PENDING_LOGINS : ℕ := 10000

/-- A login that awaits its finish; `ServerLogin` is the state of the crate that runs the
    AKE. -/
structure PendingLogin (ServerLogin : Type) where
  state : ServerLogin
  identity_handle : String
  expires_at_ms : ℤ

section
variable {ServerLogin : Type}

/-- Keep the state of a login that has started, for the id that was drawn. -/
def insert_pending (now : ℤ) (login_id : String) (state : ServerLogin) (identity_handle : String)
    (pending : Std.ExtTreeMap String (PendingLogin ServerLogin)) :
    Except ApiError (Std.ExtTreeMap String (PendingLogin ServerLogin)) :=
  let pending := pending.filter (fun _ p => p.expires_at_ms > now)
  if pending.size ≥ MAX_PENDING_LOGINS then .error (.unavailable "too many pending logins; retry later")
  else .ok (pending.insert login_id ⟨state,identity_handle,now + PENDING_LOGIN_TTL_MS⟩)

/-- The state and the identity of a login that has not expired. -/
def take_pending (now : ℤ) (login_id : String) (pending : Std.ExtTreeMap String (PendingLogin ServerLogin)) :
    Option (ServerLogin × String) :=
  (pending[login_id]?.filter (fun p => p.expires_at_ms > now)).map (fun p => (p.state,p.identity_handle))

end

/-- The check of the throttle, at the start and at the finish of a login. -/
def check_throttle (store : AuthStore) (now : ℤ) (identity_handle : String) : Except ApiError Unit :=
  if (store.locked_until now identity_handle).isSome then
    .error (.too_many_requests "too many attempts; try again later")
  else .ok ()

namespace AuthStore
variable {s t : AuthStore} {identity other : String} {now : ℤ}

theorem check_throttle_ok : check_throttle s now identity = .ok () ↔ (s.failure_state identity).locked_until_ms ≤ now := by
  unfold check_throttle locked_until
  dsimp only
  by_cases locked : (s.failure_state identity).locked_until_ms > now
  · simp [locked]
  · simp [locked]
    omega

theorem failure_state_congr (identity : String) (same : t.auth_failures[identity]? = s.auth_failures[identity]?) :
    t.failure_state identity = s.failure_state identity := by
  unfold failure_state
  rw [same]

/-- A failure counts for its identity alone. -/
theorem record_failure_other {throttle : ThrottleConfig} (different : identity ≠ other) :
    (leaves (record_failure now identity throttle s)).failure_state other = s.failure_state other := by
  apply failure_state_congr other
  show (s.auth_failures.insert identity _)[other]? = _
  rw [Std.ExtTreeMap.getElem?_insert,if_neg (by simpa using different)]

/-- A failure adds one to the count and sets the lockout that follows from it. -/
theorem record_failure_state (throttle : ThrottleConfig) :
    (leaves (record_failure now identity throttle s)).failure_state identity =
      let count := min ((s.failure_state identity).failure_count + 1) u32Max
      ⟨count,i64_saturating_add now (min (throttle.lockout_for count) i64Max)⟩ := by
  have written : (leaves (record_failure now identity throttle s)).auth_failures[identity]? = _ :=
    Std.ExtTreeMap.getElem?_insert_self
  rw [failure_state,written]
  cases there : s.auth_failures[identity]? with
  | none => simp [failure_state,there,u32Max]
  | some row =>
    simp only [failure_state,there,u32Max]
    congr 1
    omega

/-- A failure past the threshold locks its identity. -/
theorem record_failure_locks {throttle : ThrottleConfig} (effective : throttle.Effective) (early : now < i64Max)
    (past : throttle.threshold ≤ (s.failure_state identity).failure_count) :
    ((leaves (record_failure now identity throttle s)).locked_until now identity).isSome := by
  have threshold := effective.threshold
  have positive : 1 ≤ throttle.lockout_for (min ((s.failure_state identity).failure_count + 1) u32Max) :=
    ThrottleConfig.lockout_for_pos effective (by unfold u32Max; omega)
  unfold locked_until
  rw [record_failure_state]
  dsimp only
  rw [if_pos]
  · rfl
  · unfold i64_saturating_add
    unfold i64Max at early ⊢
    omega

/-- A login that succeeds clears the failures of its identity, whatever follows. -/
theorem complete_login_failures (crypto : Crypto) (config : TokenConfig) (issue : Issue) (identity : String)
    (req : LoginFinishRequest) (v2 : Bool) :
    (leaves (complete_login crypto config issue identity req v2 s)).auth_failures = s.auth_failures.erase identity := by
  have refl (s : AuthStore) : s.auth_failures = s.auth_failures := rfl
  have trans (s t r : AuthStore) (first : t.auth_failures = s.auth_failures) (second : r.auth_failures = t.auth_failures) :
      r.auth_failures = s.auth_failures := second.trans first
  have mint (account_id device_id : String) (public_key : List UInt8) :
      Relates (fun s t => t.auth_failures = s.auth_failures) (mint_pair crypto issue.now issue.now' issue.access issue.refresh
        account_id device_id public_key config) :=
    .transaction refl fun s issued t ok => by rw [(insert_pair_issued ok).same]
  let cleared : AuthStore := { s with auth_failures := s.auth_failures.erase identity }
  have reset : EStateM.adaptExcept ApiError.of_auth_store (reset_failures identity) s = .ok () cleared := rfl
  unfold complete_login
  rw [work_bind,reset]
  refine Relates.bind (R := fun s t => t.auth_failures = s.auth_failures) trans (.get refl) (fun store => ?_) cleared
  split
  · exact .throw refl _
  · dsimp only
    split
    · exact .throw_bind refl _
    · exact .bind trans (relates_mint_on_login refl trans (mint _) req) (fun _ => .pure refl _)

end AuthStore
/-! ### Logins at every stage -/

/-- A finish whose entry is taken out of the table. -/
structure Attempt (ServerLogin : Type) where
  login : ServerLogin
  identity_handle : String
  req : LoginFinishRequest
  v2 : Bool

/-- What an observer of the server sees of the logins. -/
inductive Observed where
  /-- A verification was evaluated, maybe under a lockout. -/
  | verified (identity_handle : String) (passed locked_out : Bool)
  | lockout (identity_handle : String)
  | cleared (identity_handle : String)
  deriving DecidableEq

/-- The failing verifications of an identity since its last lockout, or since its
    failures were last cleared; the newest observation is the first. -/
def guesses (identity_handle : String) : List Observed → ℕ
  | [] => 0
  | .verified other passed _ :: history =>
    guesses identity_handle history + if other = identity_handle ∧ passed = false then 1 else 0
  | .lockout other :: history => if other = identity_handle then 0 else guesses identity_handle history
  | .cleared other :: history => if other = identity_handle then 0 else guesses identity_handle history

structure Logins (ServerLogin : Type) where
  auth : AuthStore
  pending : Std.ExtTreeMap String (PendingLogin ServerLogin)
  /-- The identities of the starts that have passed the check. -/
  starting : List String
  taken : List (Attempt ServerLogin)
  /-- The finishes that have passed the check, and when. -/
  checked : List (Attempt ServerLogin × ℤ)
  /-- The identities of the finishes whose verification has failed. -/
  failed : List String
  /-- The finishes whose verification has succeeded. -/
  passed : List (Attempt ServerLogin)
  history : List Observed

/-- The moves that the throttle is about, with the time they are made at. -/
inductive LoginMove where
  | check (now : ℤ) (identity_handle : String)
  | verify (checked_at now : ℤ)
  | record (now : ℤ)
  | other

namespace Logins
variable {ServerLogin : Type}

/-- One move of one request. What `finalize` says of a finalization: malformed, or
    whether it verifies. -/
inductive Step (settings : Settings) (finalize : ServerLogin → List UInt8 → Option Bool) (logins : Logins ServerLogin) :
    LoginMove → Logins ServerLogin → Prop where
  | start {now : ℤ} {identity : String} : check_throttle logins.auth now identity = .ok () →
      Step settings finalize logins .other { logins with starting := identity :: logins.starting }
  | pend {before after : List String} {identity : String} {now : ℤ} {login_id : String} {state : ServerLogin}
      {pending : Std.ExtTreeMap String (PendingLogin ServerLogin)} : logins.starting = before ++ identity :: after →
      insert_pending now login_id state identity logins.pending = .ok pending →
      Step settings finalize logins .other { logins with starting := before ++ after, pending := pending }
  | take {now : ℤ} {req : LoginFinishRequest} {v2 : Bool} {state : ServerLogin} {identity : String} :
      take_pending now req.login_id logins.pending = some (state,identity) →
      Step settings finalize logins .other { logins with
        pending := logins.pending.erase req.login_id
        taken := ⟨state,identity,req,v2⟩ :: logins.taken }
  | miss {now : ℤ} {login_id : String} : take_pending now login_id logins.pending = none →
      Step settings finalize logins .other { logins with pending := logins.pending.erase login_id }
  | check {before after : List (Attempt ServerLogin)} {attempt : Attempt ServerLogin} {now : ℤ} :
      logins.taken = before ++ attempt :: after → check_throttle logins.auth now attempt.identity_handle = .ok () →
      Step settings finalize logins (.check now attempt.identity_handle) { logins with
        taken := before ++ after
        checked := (attempt,now) :: logins.checked }
  | refuse {before after : List (Attempt ServerLogin)} {attempt : Attempt ServerLogin} {now : ℤ} {e : ApiError} :
      logins.taken = before ++ attempt :: after → check_throttle logins.auth now attempt.identity_handle = .error e →
      Step settings finalize logins .other { logins with taken := before ++ after }
  | malformed {before after : List (Attempt ServerLogin × ℤ)} {attempt : Attempt ServerLogin} {checked_at : ℤ} :
      logins.checked = before ++ (attempt,checked_at) :: after →
      finalize attempt.login attempt.req.credential_finalization = none →
      Step settings finalize logins .other { logins with checked := before ++ after }
  | reject {before after : List (Attempt ServerLogin × ℤ)} {attempt : Attempt ServerLogin} {checked_at now : ℤ} :
      logins.checked = before ++ (attempt,checked_at) :: after →
      finalize attempt.login attempt.req.credential_finalization = some false →
      Step settings finalize logins (.verify checked_at now) { logins with
        checked := before ++ after
        failed := attempt.identity_handle :: logins.failed
        history := .verified attempt.identity_handle false
          (logins.auth.locked_until now attempt.identity_handle).isSome :: logins.history }
  | accept {before after : List (Attempt ServerLogin × ℤ)} {attempt : Attempt ServerLogin} {checked_at now : ℤ} :
      logins.checked = before ++ (attempt,checked_at) :: after →
      finalize attempt.login attempt.req.credential_finalization = some true →
      Step settings finalize logins (.verify checked_at now) { logins with
        checked := before ++ after
        passed := attempt :: logins.passed
        history := .verified attempt.identity_handle true
          (logins.auth.locked_until now attempt.identity_handle).isSome :: logins.history }
  | record {before after : List String} {identity : String} {now : ℤ} {auth : AuthStore} :
      logins.failed = before ++ identity :: after →
      auth = leaves (AuthStore.record_failure now identity settings.throttle logins.auth) →
      Step settings finalize logins (.record now) { logins with
        auth := auth
        failed := before ++ after
        history := if (auth.locked_until now identity).isSome then .lockout identity :: logins.history
          else logins.history }
  | complete {before after : List (Attempt ServerLogin)} {attempt : Attempt ServerLogin} {issue : Issue} :
      logins.passed = before ++ attempt :: after →
      Step settings finalize logins .other { logins with
        auth := leaves (complete_login settings.crypto settings.tokens issue attempt.identity_handle attempt.req attempt.v2
          logins.auth)
        passed := before ++ after
        history := .cleared attempt.identity_handle :: logins.history }
  /-- Whatever other requests do; the failures are of the logins alone. -/
  | elsewhere {auth : AuthStore} : auth.auth_failures = logins.auth.auth_failures →
      Step settings finalize logins .other { logins with auth := auth }

/-- The finishes of an identity between their check and their record. -/
def in_flight (logins : Logins ServerLogin) (identity : String) : ℕ :=
  logins.checked.countP (fun entry => entry.1.identity_handle = identity) + logins.failed.count identity +
    logins.passed.countP (fun attempt => attempt.identity_handle = identity)

/-- The moves that keep the finishes of one identity apart, on a clock that does not go
    back between the check of a finish and its verification. -/
def Apart (logins : Logins ServerLogin) : LoginMove → Prop
  | .check _ identity => logins.in_flight identity = 0
  | .verify checked_at now => checked_at ≤ now
  | .record now => now < i64Max
  | .other => True

def Any (settings : Settings) (finalize : ServerLogin → List UInt8 → Option Bool) (logins logins' : Logins ServerLogin) : Prop :=
  ∃ move, Step settings finalize logins move logins'

def KeptApart (settings : Settings) (finalize : ServerLogin → List UInt8 → Option Bool)
    (logins logins' : Logins ServerLogin) : Prop :=
  ∃ move, Step settings finalize logins move logins' ∧ logins.Apart move

/-! ### What the moves keep -/

section
variable {settings : Settings} {finalize : ServerLogin → List UInt8 → Option Bool} {start logins logins' : Logins ServerLogin}

/-- The invariant of the runs that keep the finishes of one identity apart. -/
structure Bounded (settings : Settings) (logins : Logins ServerLogin) : Prop where
  alone : ∀ identity, logins.in_flight identity ≤ 1
  unlocked : ∀ entry ∈ logins.checked, (logins.auth.failure_state entry.1.identity_handle).locked_until_ms ≤ entry.2
  counted : ∀ identity, guesses identity logins.history ≤
    min (logins.auth.failure_state identity).failure_count settings.throttle.threshold + logins.failed.count identity
  never : ∀ identity passed, .verified identity passed true ∉ logins.history

theorem not_locked {auth : AuthStore} {identity : String} {checked_at now : ℤ} (later : checked_at ≤ now)
    (unlocked : (auth.failure_state identity).locked_until_ms ≤ checked_at) :
    (auth.locked_until now identity).isSome = false := by
  unfold AuthStore.locked_until
  dsimp only
  rw [if_neg (by omega)]
  rfl

theorem Bounded.check {before after : List (Attempt ServerLogin)} {attempt : Attempt ServerLogin} {now : ℤ}
    (bounded : Bounded settings logins) (ok : check_throttle logins.auth now attempt.identity_handle = .ok ())
    (apart : logins.in_flight attempt.identity_handle = 0) : Bounded settings { logins with
      taken := before ++ after
      checked := (attempt,now) :: logins.checked } := by
  refine ⟨fun identity => ?_,fun entry inside => ?_,bounded.counted,bounded.never⟩
  · have alone := bounded.alone identity
    unfold in_flight at alone apart ⊢
    rw [List.countP_cons]
    by_cases mine : attempt.identity_handle = identity
    · subst mine
      simp only [decide_true,if_true]
      omega
    · simp only [mine,decide_false]
      exact alone
  · rcases List.mem_cons.mp inside with rfl | inside
    · exact AuthStore.check_throttle_ok.mp ok
    · exact bounded.unlocked entry inside

theorem Bounded.malformed {before after : List (Attempt ServerLogin × ℤ)} {entry : Attempt ServerLogin × ℤ}
    (bounded : Bounded settings logins) (queued : logins.checked = before ++ entry :: after) :
    Bounded settings { logins with checked := before ++ after } := by
  refine ⟨fun identity => ?_,fun other inside => ?_,bounded.counted,bounded.never⟩
  · have alone := bounded.alone identity
    unfold in_flight at alone ⊢
    rw [queued,List.countP_append,List.countP_cons] at alone
    rw [List.countP_append]
    dsimp only
    omega
  · apply bounded.unlocked
    rw [queued,List.mem_append,List.mem_cons]
    exact (List.mem_append.mp inside).imp id .inr

theorem Bounded.reject {before after : List (Attempt ServerLogin × ℤ)} {attempt : Attempt ServerLogin} {checked_at now : ℤ}
    (bounded : Bounded settings logins) (queued : logins.checked = before ++ (attempt,checked_at) :: after)
    (later : checked_at ≤ now) : Bounded settings { logins with
      checked := before ++ after
      failed := attempt.identity_handle :: logins.failed
      history := .verified attempt.identity_handle false
        (logins.auth.locked_until now attempt.identity_handle).isSome :: logins.history } := by
  have unlocked := not_locked later
    (bounded.unlocked (attempt,checked_at) (by rw [queued]; exact List.mem_append_right _ (.head _)))
  refine ⟨fun identity => ?_,(bounded.malformed queued).unlocked,fun identity => ?_,fun identity passed => ?_⟩
  · have alone := bounded.alone identity
    unfold in_flight at alone ⊢
    rw [queued,List.countP_append,List.countP_cons] at alone
    rw [List.countP_append]
    simp only [decide_eq_true_eq,List.count_cons,beq_iff_eq] at alone ⊢
    omega
  · have counted := bounded.counted identity
    simp only [guesses,and_true,List.count_cons,beq_iff_eq]
    omega
  · rw [unlocked]
    simpa using bounded.never identity passed

theorem Bounded.accept {before after : List (Attempt ServerLogin × ℤ)} {attempt : Attempt ServerLogin} {checked_at now : ℤ}
    (bounded : Bounded settings logins) (queued : logins.checked = before ++ (attempt,checked_at) :: after)
    (later : checked_at ≤ now) : Bounded settings { logins with
      checked := before ++ after
      passed := attempt :: logins.passed
      history := .verified attempt.identity_handle true
        (logins.auth.locked_until now attempt.identity_handle).isSome :: logins.history } := by
  have unlocked := not_locked later
    (bounded.unlocked (attempt,checked_at) (by rw [queued]; exact List.mem_append_right _ (.head _)))
  refine ⟨fun identity => ?_,(bounded.malformed queued).unlocked,fun identity => ?_,fun identity passed => ?_⟩
  · have alone := bounded.alone identity
    unfold in_flight at alone ⊢
    rw [queued,List.countP_append,List.countP_cons] at alone
    rw [List.countP_append,List.countP_cons]
    dsimp only at alone ⊢
    omega
  · have counted := bounded.counted identity
    simpa [guesses] using counted
  · rw [unlocked]
    simpa using bounded.never identity passed

theorem Bounded.record {before after : List String} {identity : String} {now : ℤ} {auth : AuthStore}
    (effective : settings.throttle.Effective) (bounded : Bounded settings logins)
    (queued : logins.failed = before ++ identity :: after)
    (recorded : auth = leaves (AuthStore.record_failure now identity settings.throttle logins.auth))
    (early : now < i64Max) : Bounded settings { logins with
      auth := auth
      failed := before ++ after
      history := if (auth.locked_until now identity).isSome then .lockout identity :: logins.history
        else logins.history } := by
  have alone := bounded.alone identity
  have counts (other : String) : logins.failed.count other = (before ++ after).count other + if identity = other then 1 else 0 := by
    rw [queued,List.count_append,List.count_cons,List.count_append]
    simp only [beq_iff_eq]
    omega
  have others {other : String} (different : identity ≠ other) : auth.failure_state other = logins.auth.failure_state other := by
    rw [recorded,AuthStore.record_failure_other different]
  refine ⟨fun other => ?_,fun entry inside => ?_,fun other => ?_,fun other passed => ?_⟩
  · have alone := bounded.alone other
    unfold in_flight at alone ⊢
    rw [counts] at alone
    dsimp only
    omega
  · -- no other finish of the identity is in flight
    have different : identity ≠ entry.1.identity_handle := by
      intro mine
      unfold in_flight at alone
      have one : 0 < logins.checked.countP (fun entry => entry.1.identity_handle = identity) :=
        List.countP_pos_iff.mpr ⟨entry,inside,by simp [mine]⟩
      rw [counts,if_pos rfl] at alone
      omega
    rw [others different]
    exact bounded.unlocked entry inside
  · have counted := bounded.counted other
    rw [counts] at counted
    dsimp only
    by_cases mine : identity = other
    · subst mine
      split
      · simp [guesses]
      · next unlocked =>
        have below : ¬settings.throttle.threshold ≤ (logins.auth.failure_state identity).failure_count :=
          fun past => unlocked (recorded ▸ AuthStore.record_failure_locks effective early past)
        have threshold := effective.threshold
        rw [recorded,AuthStore.record_failure_state]
        dsimp only
        rw [if_pos rfl] at counted
        unfold u32Max
        omega
    · rw [others mine]
      rw [if_neg mine] at counted
      split
      · simp only [guesses,if_neg mine]
        exact counted
      · exact counted
  · have never := bounded.never other passed
    dsimp only
    split
    · simpa using never
    · exact never

theorem Bounded.complete {before after : List (Attempt ServerLogin)} {attempt : Attempt ServerLogin} {issue : Issue}
    (bounded : Bounded settings logins) (queued : logins.passed = before ++ attempt :: after) : Bounded settings { logins with
      auth := leaves (complete_login settings.crypto settings.tokens issue attempt.identity_handle attempt.req attempt.v2
        logins.auth)
      passed := before ++ after
      history := .cleared attempt.identity_handle :: logins.history } := by
  have others {other : String} (different : attempt.identity_handle ≠ other) :
      (leaves (complete_login settings.crypto settings.tokens issue attempt.identity_handle attempt.req attempt.v2
        logins.auth)).failure_state other = logins.auth.failure_state other := by
    apply AuthStore.failure_state_congr other
    rw [AuthStore.complete_login_failures,Std.ExtTreeMap.getElem?_erase,if_neg (by simpa using different)]
  have alone := bounded.alone attempt.identity_handle
  unfold in_flight at alone
  rw [queued,List.countP_append,List.countP_cons] at alone
  simp only [decide_true,if_true] at alone
  refine ⟨fun other => ?_,fun entry inside => ?_,fun other => ?_,fun other passed => ?_⟩
  · have alone := bounded.alone other
    unfold in_flight at alone ⊢
    rw [queued,List.countP_append,List.countP_cons] at alone
    rw [List.countP_append]
    dsimp only
    omega
  · have different : attempt.identity_handle ≠ entry.1.identity_handle := by
      intro mine
      have one : 0 < logins.checked.countP (fun entry => entry.1.identity_handle = attempt.identity_handle) :=
        List.countP_pos_iff.mpr ⟨entry,inside,by simp [mine]⟩
      omega
    rw [others different]
    exact bounded.unlocked entry inside
  · by_cases mine : attempt.identity_handle = other
    · simp [guesses,mine]
    · have counted := bounded.counted other
      rw [others mine]
      simp only [guesses,if_neg mine]
      exact counted
  · simpa using bounded.never other passed

/-- What a move that keeps the finishes apart leaves. -/
theorem Step.bounded {move : LoginMove} (effective : settings.throttle.Effective) (step : Step settings finalize logins move logins')
    (apart : logins.Apart move) (bounded : Bounded settings logins) : Bounded settings logins' := by
  cases step with
  | start _ => exact ⟨bounded.alone,bounded.unlocked,bounded.counted,bounded.never⟩
  | pend _ _ => exact ⟨bounded.alone,bounded.unlocked,bounded.counted,bounded.never⟩
  | take _ => exact ⟨bounded.alone,bounded.unlocked,bounded.counted,bounded.never⟩
  | miss _ => exact ⟨bounded.alone,bounded.unlocked,bounded.counted,bounded.never⟩
  | refuse _ _ => exact ⟨bounded.alone,bounded.unlocked,bounded.counted,bounded.never⟩
  | check _ ok => exact bounded.check ok apart
  | malformed queued _ => exact bounded.malformed queued
  | reject queued _ => exact bounded.reject queued apart
  | accept queued _ => exact bounded.accept queued apart
  | record queued recorded => exact bounded.record effective queued recorded apart
  | complete queued => exact bounded.complete queued
  | elsewhere same =>
    have state (identity : String) := AuthStore.failure_state_congr identity (congrArg (·[identity]?) same)
    refine ⟨bounded.alone,fun entry inside => ?_,fun identity => ?_,bounded.never⟩
    · rw [state]
      exact bounded.unlocked entry inside
    · rw [state]
      exact bounded.counted identity

/-- In every run that keeps the finishes of each identity apart: no verification is
    evaluated under a lockout, and an identity sees at most one failing verification more
    than the threshold before its next lockout. -/
theorem guesses_bounded (effective : settings.throttle.Effective)
    (idle : start.checked = [] ∧ start.failed = [] ∧ start.passed = [] ∧ start.history = [])
    (run : Relation.ReflTransGen (KeptApart settings finalize) start logins) :
    (∀ identity passed, .verified identity passed true ∉ logins.history) ∧
      ∀ identity, guesses identity logins.history ≤ settings.throttle.threshold + 1 := by
  have bounded : Bounded settings logins := by
    induction run with
    | refl =>
      obtain ⟨checked,failed,passed,history⟩ := idle
      refine ⟨fun identity => ?_,fun entry inside => ?_,fun identity => ?_,fun identity passed => ?_⟩
      · simp [in_flight,checked,failed,passed]
      · rw [checked] at inside
        cases inside
      · simp [history,guesses]
      · simp [history]
    | tail _ step ih =>
      obtain ⟨move,step,apart⟩ := step
      exact step.bounded effective apart ih
  refine ⟨bounded.never,fun identity => ?_⟩
  have counted := bounded.counted identity
  have alone := bounded.alone identity
  unfold in_flight at alone
  omega

end
/-! ### A guesser -/

open Server (small)

/-- The small server, whose passwords are never guessed. -/
def small_logins : Logins Unit := ⟨Server.small_server.auth,∅,[],[],[],[],[],[]⟩
def wrong (_ : Unit) (_ : List UInt8) : Option Bool := some false

def guess : Attempt Unit := ⟨(),"mail",⟨"login",[],none,none,none⟩,true⟩

/-- One guess, whose failure is counted. -/
theorem guesses_bounded_once : ∃ logins, Relation.ReflTransGen (KeptApart small wrong) small_logins logins ∧
    guesses "mail" logins.history = 1 ∧ guesses "mail" logins.history ≤ 6 := by
  have started : Relation.ReflTransGen (KeptApart small wrong) small_logins _ := .tail (.tail .refl
    ⟨_,@Step.start Unit small wrong _ 0 "mail" rfl,trivial⟩)
    ⟨_,@Step.pend Unit small wrong _ [] [] "mail" 0 "login" () _ rfl rfl,trivial⟩
  have checked := (started.tail ⟨_,@Step.take Unit small wrong _ 0 guess.req true () "mail" rfl,trivial⟩).tail
    ⟨_,@Step.check Unit small wrong _ [] [] guess 0 rfl rfl,rfl⟩
  have run := (checked.tail ⟨_,@Step.reject Unit small wrong _ [] [] guess 0 0 rfl rfl,le_refl 0⟩).tail
    ⟨_,@Step.record Unit small wrong _ [] [] "mail" 0 _ rfl rfl,(by decide : (0 : ℤ) < i64Max)⟩
  refine ⟨_,run,by decide +kernel,?_⟩
  exact (guesses_bounded ⟨by decide,by decide,by decide⟩ ⟨rfl,rfl,rfl,rfl⟩ run).2 "mail"

/-- Any number of finishes pass the check before the first of them is verified. -/
theorem checks (n : ℕ) : Relation.ReflTransGen (Any small wrong) small_logins
    { small_logins with checked := List.replicate n (guess,0) } := by
  induction n with
  | zero => exact .refl
  | succ n ih =>
    have pended := (ih.tail ⟨_,@Step.start Unit small wrong _ 0 "mail" rfl⟩).tail
      ⟨_,@Step.pend Unit small wrong _ [] [] "mail" 0 "login" () _ rfl rfl⟩
    have checked := (pended.tail ⟨_,@Step.take Unit small wrong _ 0 guess.req true () "mail" rfl⟩).tail
      ⟨_,@Step.check Unit small wrong _ [] [] guess 0 rfl rfl⟩
    exact checked

/-- All of them fail before the first failure counts. -/
theorem rejects (n : ℕ) (k : ℕ) : Relation.ReflTransGen (Any small wrong)
    { small_logins with checked := List.replicate (n + k) (guess,0) }
    { small_logins with
      checked := List.replicate n (guess,0)
      failed := List.replicate k "mail"
      history := List.replicate k (.verified "mail" false false) } := by
  induction k generalizing n with
  | zero => exact .refl
  | succ k ih =>
    have before := ih (n + 1)
    rw [show n + 1 + k = n + (k + 1) by omega] at before
    exact before.tail ⟨_,@Step.reject Unit small wrong _ [] (List.replicate n (guess,0)) guess 0 0 rfl rfl⟩

/-- Seven failing verifications of an identity are evaluated without a lockout, and an
    eighth under the lockout that follows. -/
theorem overlapping_guesses : ∃ middle final : Logins Unit, Relation.ReflTransGen (Any small wrong) small_logins middle ∧
    Relation.ReflTransGen (Any small wrong) middle final ∧
    small.throttle.threshold + 1 < guesses "mail" middle.history ∧ .verified "mail" false true ∈ final.history := by
  have guessed := (checks 8).trans (rejects 1 7)
  have recorded : Relation.ReflTransGen (Any small wrong) { small_logins with
      checked := [(guess,0)]
      failed := List.replicate 7 "mail"
      history := List.replicate 7 (.verified "mail" false false) } _ :=
    .tail (.tail (.tail (.tail (.tail (.tail .refl
      ⟨_,@Step.record Unit small wrong _ [] _ "mail" 0 _ rfl rfl⟩)
      ⟨_,@Step.record Unit small wrong _ [] _ "mail" 0 _ rfl rfl⟩)
      ⟨_,@Step.record Unit small wrong _ [] _ "mail" 0 _ rfl rfl⟩)
      ⟨_,@Step.record Unit small wrong _ [] _ "mail" 0 _ rfl rfl⟩)
      ⟨_,@Step.record Unit small wrong _ [] _ "mail" 0 _ rfl rfl⟩)
      ⟨_,@Step.record Unit small wrong _ [] _ "mail" 0 _ rfl rfl⟩
  have locked := recorded.tail ⟨_,@Step.reject Unit small wrong _ [] [] guess 0 0 rfl rfl⟩
  exact ⟨_,_,guessed,locked,by decide,by decide +kernel⟩

end Logins
end Pergamon
