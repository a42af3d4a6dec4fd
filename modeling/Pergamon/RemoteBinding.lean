import Mathlib.Data.List.DropRight
import Pergamon.Baseline

/-!
The binding of a library to a relay: an intent is recorded, then the tenant and the
installation of the server that answered, then the receipt is activated together with the
baseline of the library, in one transaction. The calls may be retried in any order.

What is recorded of the identity stays (`Settled`), whatever is called, and the baseline
is enqueued once (`remote_binding_run`).
-/
namespace Pergamon
open Fallible

inductive IntentState where
  | pending
  | active
  deriving DecidableEq

structure RemoteAccountBinding where
  relay_url : String
  local_label : String
  content_account_id : String
  device_id : String
  operation_id : String
  auth_tenant_id : Option String
  server_instance_id : Option String
  binding_version : Option Int
  state : IntentState
  flow : String
  deriving DecidableEq

def RemoteAccountBinding.identified (b : RemoteAccountBinding) (tenant server_instance : String) : RemoteAccountBinding :=
  { b with auth_tenant_id := some tenant, server_instance_id := some server_instance }

def RemoteAccountBinding.activated (b receipt : RemoteAccountBinding) : RemoteAccountBinding :=
  { b with
    auth_tenant_id := receipt.auth_tenant_id
    server_instance_id := receipt.server_instance_id
    binding_version := receipt.binding_version
    state := .active }

/-- A receipt is for the intent and contradicts nothing that is recorded with it. -/
def RemoteAccountBinding.Matches (pending receipt : RemoteAccountBinding) : Prop :=
  pending.relay_url = receipt.relay_url ∧ pending.local_label = receipt.local_label ∧
    pending.content_account_id = receipt.content_account_id ∧ pending.device_id = receipt.device_id ∧
    pending.operation_id = receipt.operation_id ∧ receipt.auth_tenant_id ≠ none ∧ receipt.server_instance_id ≠ none ∧
    receipt.binding_version ≠ none ∧ (∀ t ∈ pending.auth_tenant_id, some t = receipt.auth_tenant_id) ∧
    (∀ s ∈ pending.server_instance_id, some s = receipt.server_instance_id) ∧
    (∀ v ∈ pending.binding_version, some v = receipt.binding_version)

instance (pending receipt : RemoteAccountBinding) : Decidable (pending.Matches receipt) := by
  unfold RemoteAccountBinding.Matches
  infer_instance

/-- The database of a device with the row of its binding. -/
structure BoundDatabase extends Database where
  remote_account_binding : Option RemoteAccountBinding

/-- `trim_end_matches('/')`. -/
def trim_slashes (url : String) : String := String.ofList (url.toList.rdropWhile (· = '/'))

/-- The flows that the check of the table allows. -/
def FLOWS : List String := ["create","attach","join"]

def Database.set_sync_identity (db : Database) (account_id device_id : String) (key_epoch : UInt32) (server_url : Option String) :
    Database :=
  { db with sync_state := { db.sync_state with
    account_id := some account_id
    device_id := some device_id
    key_epoch := key_epoch
    server_url := server_url } }

namespace BoundDatabase

/-- Record an intent, unless one is there. -/
def begin_remote_binding (relay label content device operation flow : String) :
    EStateM StorageError BoundDatabase RemoteAccountBinding := do
  let relay := trim_slashes relay
  let db ← get
  let here := db.sync_state
  if here.account_id.any (· ≠ content) ∨ here.device_id.any (· ≠ device) ∨ here.server_url.any (fun s => trim_slashes s ≠ relay) then
    throw (.Constraint "attach would replace an existing identity or relay")
  match db.remote_account_binding with
  | some old =>
    if old.relay_url ≠ relay ∨ old.local_label ≠ label ∨ old.content_account_id ≠ content ∨ old.device_id ≠ device ∨
        (old.state = .pending ∧ old.flow ≠ flow) then
      throw (.Constraint "another relay binding is active or pending")
    return old
  | none =>
    if flow ∉ FLOWS then
      throw .Sqlite
    let intent := ⟨relay,label,content,device,operation,none,none,none,.pending,flow⟩
    set { db with remote_account_binding := some intent }
    return intent

/-- Record who answered. -/
def identify_remote_binding (tenant server_instance : String) : EStateM StorageError BoundDatabase Unit := do
  let db ← get
  match db.remote_account_binding with
  | none => throw (.Constraint "no binding intent")
  | some pending =>
    if pending.auth_tenant_id.any (· ≠ tenant) ∨ pending.server_instance_id.any (· ≠ server_instance) then
      throw (.Constraint "authenticated relay identity changed during attach")
    set { db with remote_account_binding := some (pending.identified tenant server_instance) }

section
variable [Formats] (listing : Listing) (new_id : Nat → String)

/-- What an activation does in its transaction. -/
def activate (receipt : RemoteAccountBinding) (now_millis : UInt64) : EStateM StorageError BoundDatabase Nat := do
  let db ← get
  match db.remote_account_binding with
  | none => throw (.Constraint "no binding intent")
  | some pending =>
    if ¬ pending.Matches receipt then
      throw (.Constraint "binding receipt does not match local intent")
    let here := db.sync_state
    if here.account_id.any (· ≠ receipt.content_account_id) ∨ here.device_id.any (· ≠ receipt.device_id) then
      throw (.Constraint "local identity changed during attach")
    modify (fun db => { db with
      toDatabase := db.set_sync_identity receipt.content_account_id receipt.device_id here.key_epoch (some receipt.relay_url) })
    modify (fun db => { db with remote_account_binding := some (pending.activated receipt) })
    let db ← get
    match db.toDatabase.enqueue_sync_baseline listing new_id now_millis with
    | .error e => throw e
    | .ok (n,after) =>
      set { db with toDatabase := after }
      return n

/-- Adopt an identity and enqueue the baseline, all or nothing. -/
def activate_remote_binding (receipt : RemoteAccountBinding) (now_millis : UInt64) : EStateM StorageError BoundDatabase Nat :=
  transaction (activate listing new_id receipt now_millis)

end
/-! ### What one call does -/

section
variable (db : BoundDatabase)

/-- A call records an intent, finds the one that is recorded, or fails and changes nothing. -/
theorem begin_remote_binding_cases (relay label content device operation flow : String) :
    (∃ intent, db.remote_account_binding = none ∧
      begin_remote_binding relay label content device operation flow db =
        .ok intent { db with remote_account_binding := some intent }) ∨
    (∃ old, begin_remote_binding relay label content device operation flow db = .ok old db) ∨
    ∃ e, begin_remote_binding relay label content device operation flow db = .error e db := by
  unfold begin_remote_binding
  simp only [get_bind]
  split
  · exact .inr (.inr ⟨_,rfl⟩)
  · cases recorded : db.remote_account_binding with
    | some old =>
      simp only
      split
      · exact .inr (.inr ⟨_,rfl⟩)
      · exact .inr (.inl ⟨old,rfl⟩)
    | none =>
      simp only
      split
      · exact .inr (.inr ⟨_,rfl⟩)
      · exact .inl ⟨_,trivial,rfl⟩

/-- A call names a tenant and an installation for an intent that has none or these. -/
theorem identify_remote_binding_cases (tenant server_instance : String) :
    (∃ pending, db.remote_account_binding = some pending ∧ (∀ t ∈ pending.auth_tenant_id, t = tenant) ∧
      (∀ s ∈ pending.server_instance_id, s = server_instance) ∧
      identify_remote_binding tenant server_instance db =
        .ok () { db with remote_account_binding := some (pending.identified tenant server_instance) }) ∨
    ∃ e, identify_remote_binding tenant server_instance db = .error e db := by
  unfold identify_remote_binding
  simp only [get_bind]
  cases recorded : db.remote_account_binding with
  | none => exact .inr ⟨_,rfl⟩
  | some pending =>
    simp only
    split
    · exact .inr ⟨_,rfl⟩
    · next same =>
      simp only [Option.any_eq_true,ne_eq,decide_not,Bool.not_eq_true',decide_eq_false_iff_not,not_or,not_exists,not_and,
        not_not] at same
      exact .inl ⟨pending,rfl,same.1,same.2,rfl⟩

variable [Formats] (listing : Listing) (new_id : Nat → String)

/-- An activation adopts the identity of a receipt for the intent and enqueues the baseline,
    or fails and changes nothing. -/
theorem activate_remote_binding_cases (receipt : RemoteAccountBinding) (now_millis : UInt64) :
    (∃ pending after n, db.remote_account_binding = some pending ∧ pending.Matches receipt ∧
      (∀ a ∈ db.sync_state.account_id, a = receipt.content_account_id) ∧
      (∀ d ∈ db.sync_state.device_id, d = receipt.device_id) ∧
      (db.toDatabase.set_sync_identity receipt.content_account_id receipt.device_id db.sync_state.key_epoch
        (some receipt.relay_url)).enqueue_sync_baseline listing new_id now_millis = .ok (n,after) ∧
      activate_remote_binding listing new_id receipt now_millis db = .ok n ⟨after,some (pending.activated receipt)⟩) ∨
    ∃ e, activate_remote_binding listing new_id receipt now_millis db = .error e db := by
  unfold activate_remote_binding transaction activate
  simp only [get_bind]
  cases recorded : db.remote_account_binding with
  | none => exact .inr ⟨_,rfl⟩
  | some pending =>
    by_cases fits : pending.Matches receipt
    · by_cases taken : db.sync_state.account_id.any (· ≠ receipt.content_account_id) = true ∨
          db.sync_state.device_id.any (· ≠ receipt.device_id) = true
      · simp only [fits,not_true,taken,if_true,if_false]
        exact .inr ⟨_,rfl⟩
      · simp only [fits,not_true,taken,if_false]
        cases made : (db.toDatabase.set_sync_identity receipt.content_account_id receipt.device_id db.sync_state.key_epoch
            (some receipt.relay_url)).enqueue_sync_baseline listing new_id now_millis with
        | error e =>
          refine .inr ⟨e,?_⟩
          simp only [modify_bind,get_bind,made]
          rfl
        | ok acc =>
          simp only [Option.any_eq_true,ne_eq,decide_not,Bool.not_eq_true',decide_eq_false_iff_not,not_or,not_exists,not_and,
            not_not] at taken
          refine .inl ⟨pending,acc.2,acc.1,rfl,fits,taken.1,taken.2,rfl,?_⟩
          simp only [modify_bind,get_bind,made]
          rfl
    · simp only [fits,not_false_eq_true,if_true]
      exact .inr ⟨_,rfl⟩

end

end BoundDatabase

/-! ### What a baseline keeps -/

namespace Database
variable {db after : Database} {new_id : Nat → String} {now_millis : UInt64}

/-- The identity of the library and its key epoch. -/
def identity (db : Database) : Option String × Option String × UInt32 :=
  (db.sync_state.account_id,db.sync_state.device_id,db.sync_state.key_epoch)

theorem identity_enqueue_outbox {change_id : String} {body : ChangeBody} (made : db.enqueue_outbox change_id body = .ok after) :
    after.identity = db.identity := by
  unfold enqueue_outbox at made
  split at made <;> cases made
  rfl

theorem identity_baseline_each {α : Type} {enqueue : Database → α → Except StorageError (Nat × Database)}
    (one : ∀ db a acc, enqueue db a = .ok acc → acc.2.identity = db.identity) {entries : List α} {acc acc' : Nat × Database}
    (made : baseline_each enqueue entries acc = .ok acc') : acc'.2.identity = acc.2.identity := by
  refine foldlM_keeps (fun now => now.2.identity = acc.2.identity) ?_ rfl made
  intro entry _ now next same step
  obtain ⟨added,enqueued,done⟩ := bind_ok.mp step
  cases done
  exact (one _ _ _ enqueued).trans same

theorem identity_baseline_upserts {entity_type : EntityType} {ids : List String} {acc acc' : Nat × Database}
    (made : baseline_upserts new_id now_millis entity_type ids acc = .ok acc') : acc'.2.identity = acc.2.identity := by
  refine identity_baseline_each (fun db id acc made => ?_) made
  unfold baseline_upsert at made
  split at made
  · cases made
    rfl
  · obtain ⟨after,enqueued,done⟩ := bind_ok.mp made
    cases done
    exact (identity_enqueue_outbox enqueued).trans rfl

theorem identity_baseline_edges {entity_type : EntityType} {edges : List (String × String)} {acc acc' : Nat × Database}
    (made : baseline_edges new_id now_millis entity_type edges acc = .ok acc') : acc'.2.identity = acc.2.identity := by
  refine identity_baseline_each (fun db ends acc made => ?_) made
  obtain ⟨after,enqueued,done⟩ := bind_ok.mp made
  cases done
  exact (identity_enqueue_outbox enqueued).trans rfl

/-- A baseline leaves the identity and is done; one that was done before leaves all. -/
theorem enqueue_sync_baseline_keeps [Formats] {listing : Listing} {n : Nat}
    (made : db.enqueue_sync_baseline listing new_id now_millis = .ok (n,after)) :
    after.identity = db.identity ∧ after.sync_state.baseline_done = true ∧
      (db.sync_state.baseline_done = true → after = db) := by
  unfold enqueue_sync_baseline at made
  split at made
  · cases made
  · split at made
    · next before =>
      cases made
      exact ⟨rfl,before,fun _ => rfl⟩
    · next fresh =>
      simp only [bind_ok] at made
      obtain ⟨_,-,acc₁,made₁,_,-,acc₂,made₂,_,-,acc₃,made₃,_,-,acc₄,made₄,_,-,acc₅,made₅,_,-,acc₆,made₆,_,-,acc₇,made₇,_,-,
        acc₈,made₈,_,-,acc₉,made₉,_,-,acc₁₀,made₁₀,acc₁₁,made₁₁,done⟩ := made
      cases done
      refine ⟨?_,rfl,fun before => absurd before fresh⟩
      calc acc₁₁.2.identity
        _ = acc₁₀.2.identity := identity_baseline_upserts made₁₁
        _ = acc₉.2.identity := identity_baseline_edges made₁₀
        _ = acc₈.2.identity := identity_baseline_edges made₉
        _ = acc₇.2.identity := identity_baseline_upserts made₈
        _ = acc₆.2.identity := identity_baseline_upserts made₇
        _ = acc₅.2.identity := identity_baseline_upserts made₆
        _ = acc₄.2.identity := identity_baseline_upserts made₅
        _ = acc₃.2.identity := identity_baseline_upserts made₄
        _ = acc₂.2.identity := identity_baseline_upserts made₃
        _ = acc₁.2.identity := identity_baseline_upserts made₂
        _ = db.identity := identity_baseline_upserts made₁

end Database

/-! ### Runs -/

/-- A call with its arguments, and for an activation what its baseline draws. -/
inductive BindingCall where
  | begin (relay label content device operation flow : String)
  | identify (tenant server_instance : String)
  | activate (listing : Listing) (new_id : Nat → String) (receipt : RemoteAccountBinding) (now_millis : UInt64)

section
variable [Formats]

open BoundDatabase in
def BindingCall.perform : BindingCall → EStateM StorageError BoundDatabase Unit
  | .begin relay label content device operation flow => do
    let _ ← begin_remote_binding relay label content device operation flow
  | .identify tenant server_instance => identify_remote_binding tenant server_instance
  | .activate listing new_id receipt now_millis => do
    let _ ← activate_remote_binding listing new_id receipt now_millis

/-- The database after a call, whether it succeeds or fails. -/
def BoundDatabase.after (db : BoundDatabase) (call : BindingCall) : BoundDatabase := leaves (call.perform db)

/-- The call enqueues the baseline: it activates, and the baseline was not done. -/
def BoundDatabase.enqueues (db : BoundDatabase) (call : BindingCall) : Bool :=
  match call,call.perform db with
  | .activate ..,.ok .. => !db.sync_state.baseline_done
  | _,_ => false

/-- How many of the calls enqueue the baseline. -/
def BoundDatabase.enqueued (db : BoundDatabase) : List BindingCall → ℕ
  | [] => 0
  | call :: calls => (if db.enqueues call then 1 else 0) + (db.after call).enqueued calls

/-- What is settled in one state is the same in a later one. -/
structure Settled (db later : BoundDatabase) : Prop where
  account_id : ∀ a ∈ db.sync_state.account_id, a ∈ later.sync_state.account_id
  device_id : ∀ d ∈ db.sync_state.device_id, d ∈ later.sync_state.device_id
  intent : ∀ b ∈ db.remote_account_binding, ∃ b' ∈ later.remote_account_binding, b'.relay_url = b.relay_url ∧
    b'.local_label = b.local_label ∧ b'.content_account_id = b.content_account_id ∧ b'.device_id = b.device_id ∧
    (∀ t ∈ b.auth_tenant_id, t ∈ b'.auth_tenant_id) ∧ (∀ s ∈ b.server_instance_id, s ∈ b'.server_instance_id)
  baseline : db.sync_state.baseline_done = true → later.sync_state.baseline_done = true

/-- The rows, the stamps and the outbox are the same. -/
def SameRows (db later : BoundDatabase) : Prop :=
  later.replica = db.replica ∧ later.sync_outbox = db.sync_outbox ∧ later.sync_local_seq = db.sync_local_seq

section
variable {db later latest : BoundDatabase} {call : BindingCall}

omit [Formats] in
theorem Settled.refl (db : BoundDatabase) : Settled db db :=
  ⟨fun _ => id,fun _ => id,fun b there => ⟨b,there,rfl,rfl,rfl,rfl,fun _ => id,fun _ => id⟩,id⟩

omit [Formats] in
theorem Settled.trans (first : Settled db later) (second : Settled later latest) : Settled db latest := by
  refine ⟨fun a there => second.account_id a (first.account_id a there),fun d there => second.device_id d (first.device_id d there),
    fun b there => ?_,fun done => second.baseline (first.baseline done)⟩
  obtain ⟨b',there',relay,label,content,device,tenant,server⟩ := first.intent b there
  obtain ⟨b'',there'',relay',label',content',device',tenant',server'⟩ := second.intent b' there'
  exact ⟨b'',there'',relay'.trans relay,label'.trans label,content'.trans content,device'.trans device,
    fun t known => tenant' t (tenant t known),fun s known => server' s (server s known)⟩

/-- A call changes nothing, records an intent where there is none, names who answered, or
    activates. -/
theorem after_cases (db : BoundDatabase) (call : BindingCall) :
    (db.after call = db ∧ db.enqueues call = false) ∨
    (db.remote_account_binding = none ∧ ∃ intent, db.after call = { db with remote_account_binding := some intent } ∧
      db.enqueues call = false) ∨
    (∃ pending tenant server_instance, db.remote_account_binding = some pending ∧ (∀ t ∈ pending.auth_tenant_id, t = tenant) ∧
      (∀ s ∈ pending.server_instance_id, s = server_instance) ∧
      db.after call = { db with remote_account_binding := some (pending.identified tenant server_instance) } ∧
      db.enqueues call = false) ∨
    ∃ pending receipt listing new_id now_millis n after, db.remote_account_binding = some pending ∧ pending.Matches receipt ∧
      (∀ a ∈ db.sync_state.account_id, a = receipt.content_account_id) ∧
      (∀ d ∈ db.sync_state.device_id, d = receipt.device_id) ∧
      (db.toDatabase.set_sync_identity receipt.content_account_id receipt.device_id db.sync_state.key_epoch
        (some receipt.relay_url)).enqueue_sync_baseline listing new_id now_millis = .ok (n,after) ∧
      db.after call = ⟨after,some (pending.activated receipt)⟩ ∧ db.enqueues call = !db.sync_state.baseline_done := by
  unfold BoundDatabase.after BoundDatabase.enqueues
  cases call with
  | begin relay label content device operation flow =>
    simp only [BindingCall.perform,work_bind]
    rcases db.begin_remote_binding_cases relay label content device operation flow with
      ⟨intent,none,ran⟩ | ⟨old,ran⟩ | ⟨e,ran⟩
    · exact .inr (.inl ⟨none,intent,by rw [ran]; rfl,trivial⟩)
    · exact .inl ⟨by rw [ran]; rfl,trivial⟩
    · exact .inl ⟨by rw [ran]; rfl,trivial⟩
  | identify tenant server_instance =>
    simp only [BindingCall.perform]
    rcases db.identify_remote_binding_cases tenant server_instance with ⟨pending,there,same,same',ran⟩ | ⟨e,ran⟩
    · exact .inr (.inr (.inl ⟨pending,tenant,server_instance,there,same,same',by rw [ran]; rfl,trivial⟩))
    · exact .inl ⟨by rw [ran]; rfl,trivial⟩
  | activate listing new_id receipt now_millis =>
    simp only [BindingCall.perform,work_bind]
    rcases db.activate_remote_binding_cases listing new_id receipt now_millis with
      ⟨pending,after,n,there,fits,account,device,made,ran⟩ | ⟨e,ran⟩
    · exact .inr (.inr (.inr ⟨pending,receipt,listing,new_id,now_millis,n,after,there,fits,account,device,made,
        by rw [ran]; rfl,by rw [ran]; rfl⟩))
    · exact .inl ⟨by rw [ran]; rfl,by rw [ran]⟩

theorem settled_after (db : BoundDatabase) (call : BindingCall) : Settled db (db.after call) := by
  rcases after_cases db call with ⟨same,-⟩ | ⟨none,intent,same,-⟩ | ⟨pending,tenant,server_instance,there,only,only',same,-⟩ |
    ⟨pending,receipt,listing,new_id,now_millis,n,after,there,fits,account,device,made,same,-⟩
  · rw [same]
    exact .refl db
  · rw [same]
    refine ⟨fun _ => id,fun _ => id,fun b there => ?_,id⟩
    rw [none] at there
    cases there
  · rw [same]
    refine ⟨fun _ => id,fun _ => id,fun b inside => ?_,id⟩
    obtain rfl := Option.some.inj (there.symm.trans inside)
    exact ⟨_,rfl,rfl,rfl,rfl,rfl,fun t known => congrArg some (only t known).symm,fun s known => congrArg some (only' s known).symm⟩
  · rw [same]
    obtain ⟨identity,done,-⟩ := Database.enqueue_sync_baseline_keeps made
    obtain ⟨account',rest⟩ := Prod.mk.inj identity
    have device' := (Prod.mk.inj rest).1
    refine ⟨fun a known => ?_,fun d known => ?_,fun b inside => ?_,fun _ => done⟩
    · obtain rfl := account a known
      exact account'
    · obtain rfl := device d known
      exact device'
    · obtain rfl := Option.some.inj (there.symm.trans inside)
      obtain ⟨-,-,-,-,-,-,-,-,tenant,server,-⟩ := fits
      exact ⟨_,rfl,rfl,rfl,rfl,rfl,fun t known => (tenant t known).symm,fun s known => (server s known).symm⟩

theorem settled_run (db : BoundDatabase) (calls : List BindingCall) : Settled db (calls.foldl BoundDatabase.after db) := by
  induction calls generalizing db with
  | nil => exact .refl db
  | cons call calls ih => exact (settled_after db call).trans (ih (db.after call))

/-- A call that does not enqueue the baseline leaves the library. -/
theorem sameRows_after (idle : db.enqueues call = false) : SameRows db (db.after call) := by
  rcases after_cases db call with ⟨same,-⟩ | ⟨-,intent,same,-⟩ | ⟨pending,tenant,server_instance,-,-,-,same,-⟩ |
    ⟨pending,receipt,listing,new_id,now_millis,n,after,-,-,-,-,made,same,enqueues⟩
  · rw [same]
    exact ⟨rfl,rfl,rfl⟩
  · rw [same]
    exact ⟨rfl,rfl,rfl⟩
  · rw [same]
    exact ⟨rfl,rfl,rfl⟩
  · rw [same]
    have before : db.sync_state.baseline_done = true := by simpa [idle] using enqueues
    rw [(Database.enqueue_sync_baseline_keeps made).2.2 before]
    exact ⟨rfl,rfl,rfl⟩

/-- A call that enqueues the baseline finds it not done and leaves it done. -/
theorem baseline_done_after (enqueues : db.enqueues call = true) :
    db.sync_state.baseline_done = false ∧ (db.after call).sync_state.baseline_done = true := by
  rcases after_cases db call with ⟨-,idle⟩ | ⟨-,intent,-,idle⟩ | ⟨pending,tenant,server_instance,-,-,-,-,idle⟩ |
    ⟨pending,receipt,listing,new_id,now_millis,n,after,-,-,-,-,made,same,fresh⟩
  · simp [enqueues] at idle
  · simp [enqueues] at idle
  · simp [enqueues] at idle
  · rw [same]
    exact ⟨by simpa [enqueues] using fresh.symm,(Database.enqueue_sync_baseline_keeps made).2.1⟩

theorem enqueued_of_done (done : db.sync_state.baseline_done = true) (calls : List BindingCall) : db.enqueued calls = 0 := by
  induction calls generalizing db with
  | nil => rfl
  | cons call calls ih =>
    have idle : ¬ db.enqueues call = true := by
      intro enqueues
      rw [(baseline_done_after enqueues).1] at done
      cases done
    rw [BoundDatabase.enqueued,if_neg idle,ih ((settled_after db call).baseline done)]

theorem enqueued_le_one (db : BoundDatabase) (calls : List BindingCall) : db.enqueued calls ≤ 1 := by
  induction calls generalizing db with
  | nil => exact Nat.zero_le 1
  | cons call calls ih =>
    rw [BoundDatabase.enqueued]
    by_cases enqueues : db.enqueues call = true
    · rw [if_pos enqueues,enqueued_of_done (baseline_done_after enqueues).2]
    · rw [if_neg enqueues,Nat.zero_add]
      exact ih (db.after call)

/-- A call that fails changes nothing. -/
theorem perform_error {e : StorageError} {t : BoundDatabase} (failed : call.perform db = .error e t) : t = db := by
  cases call with
  | begin relay label content device operation flow =>
    simp only [BindingCall.perform,work_bind] at failed
    rcases db.begin_remote_binding_cases relay label content device operation flow with
      ⟨intent,none,ran⟩ | ⟨old,ran⟩ | ⟨e,ran⟩ <;> rw [ran] at failed <;> cases failed
    rfl
  | identify tenant server_instance =>
    simp only [BindingCall.perform] at failed
    rcases db.identify_remote_binding_cases tenant server_instance with ⟨pending,there,same,same',ran⟩ | ⟨e,ran⟩ <;>
      rw [ran] at failed <;> cases failed
    rfl
  | activate listing new_id receipt now_millis =>
    simp only [BindingCall.perform,work_bind] at failed
    rcases db.activate_remote_binding_cases listing new_id receipt now_millis with
      ⟨pending,after,n,there,fits,account,device,made,ran⟩ | ⟨e,ran⟩ <;> rw [ran] at failed <;> cases failed
    rfl

/-- For every run from any state: between any two of its states what is settled stays, the
    baseline is enqueued at most once, a call that does not enqueue it leaves the library,
    and a call that fails changes nothing. -/
theorem remote_binding_run (start : BoundDatabase) (before calls : List BindingCall) :
    let db := before.foldl BoundDatabase.after start
    Settled db (calls.foldl BoundDatabase.after db) ∧ start.enqueued (before ++ calls) ≤ 1 ∧
      ∀ call, (db.enqueues call = false → SameRows db (db.after call)) ∧
        ∀ e t, call.perform db = .error e t → t = db :=
  ⟨settled_run _ calls,enqueued_le_one start _,fun _ => ⟨sameRows_after,fun _ _ => perform_error⟩⟩

end
end
end Pergamon
