import Pergamon.Sessions

/-!
The throttle of logins. Failures are counted for each identity, registered or not; past
a threshold each further failure locks the identity for a delay that doubles, up to a
greatest one.
-/
namespace Pergamon
open Fallible

/-- The policy of the throttle; the delays are in nanoseconds. -/
structure ThrottleConfig where
  threshold : ℕ
  base_delay : ℕ
  max_delay : ℕ
  deriving DecidableEq

namespace ThrottleConfig

def default : ThrottleConfig := ⟨5,1000000000,15 * 60 * 1000000000⟩

/-- `Duration::as_millis`, as far as it fits in 64 bits. -/
def as_millis (delay : ℕ) : ℕ := min (delay / 1000000) (2 ^ 64 - 1)

/-- The lockout after so many failures in a row, in milliseconds. -/
def lockout_for (throttle : ThrottleConfig) (failures : ℕ) : ℕ :=
  if failures ≤ throttle.threshold then 0
  else
    let steps := failures - throttle.threshold - 1
    let factor := 2 ^ min steps 40
    let delay_ms := min (as_millis throttle.base_delay * factor) (2 ^ 64 - 1)
    min delay_ms (as_millis throttle.max_delay)

/-- A policy under which every failure past the threshold has a lockout of its own. -/
structure Effective (throttle : ThrottleConfig) : Prop where
  threshold : throttle.threshold < 2 ^ 32 - 1
  base_delay : 1000000 ≤ throttle.base_delay
  max_delay : 1000000 ≤ throttle.max_delay

theorem as_millis_pos {delay : ℕ} (long : 1000000 ≤ delay) : 1 ≤ as_millis delay := by
  unfold as_millis
  have := (Nat.one_le_div_iff (by omega : 0 < 1000000)).mpr long
  omega

theorem lockout_for_pos {throttle : ThrottleConfig} (effective : throttle.Effective) {failures : ℕ}
    (past : throttle.threshold < failures) : 1 ≤ throttle.lockout_for failures := by
  have base := as_millis_pos effective.base_delay
  have most := as_millis_pos effective.max_delay
  unfold lockout_for
  rw [if_neg (by omega)]
  dsimp only
  have grown : 1 ≤ as_millis throttle.base_delay * 2 ^ min (failures - throttle.threshold - 1) 40 :=
    Nat.mul_pos base (Nat.two_pow_pos _)
  omega

end ThrottleConfig

structure FailureState where
  failure_count : ℕ
  locked_until_ms : ℤ
  deriving DecidableEq

/-- The greatest number of failures that the throttle distinguishes. -/
def u32Max : ℕ := 2 ^ 32 - 1

namespace AuthStore

def failure_state (store : AuthStore) (identity_handle : String) : FailureState :=
  match store.auth_failures[identity_handle]? with
  | some row => ⟨min row.failure_count u32Max,row.locked_until⟩
  | none => ⟨0,0⟩

/-- The end of the lockout of an identity that is locked out now. -/
def locked_until (store : AuthStore) (now : ℤ) (identity_handle : String) : Option ℤ :=
  let state := store.failure_state identity_handle
  if state.locked_until_ms > now then some state.locked_until_ms else none

/-- Count a failed login and set the lockout that follows from it. -/
def record_failure (now : ℤ) (identity_handle : String) (throttle : ThrottleConfig) :
    EStateM AuthStoreError AuthStore FailureState := do
  let store ← get
  let current := store.failure_state identity_handle
  let new_count := min (current.failure_count + 1) u32Max
  let lockout_ms : ℤ := min (throttle.lockout_for new_count) i64Max
  let locked_until := i64_saturating_add now lockout_ms
  let row : FailureRow :=
    match store.auth_failures[identity_handle]? with
    | none => ⟨1,locked_until⟩
    | some row => ⟨row.failure_count + 1,locked_until⟩
  set { store with auth_failures := store.auth_failures.insert identity_handle row }
  return ⟨new_count,locked_until⟩

end AuthStore
end Pergamon
