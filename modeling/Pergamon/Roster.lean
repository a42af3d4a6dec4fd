import Pergamon.CurrentEpoch

/-!
What the onboarding calls do to the shelf of an honest relay, and whom a revocation seals
the key of the new epoch to. A call that fails leaves everything as it is, since it reads
before it writes.

A revocation seals to every device that has published a record, whether it was approved
or not and whether it was revoked before. So the recipients are the trusted devices if
and only if every other device that has published a record is trusted
(`revoke_seals_to_trusted`).
-/
namespace Pergamon
open Fallible

/-! ### Calls over an honest relay -/

section
variable {σ α β : Type} {view : σ → Shelf} {fine : σ → Prop} {x : EStateM SyncError σ α} {f : α → EStateM SyncError σ β}
  {s : σ} {right : α → Prop} {did : α → Shelf → Prop} {did' : β → Shelf → Prop}

/-- The result of a call, if it succeeds. -/
def answer : EStateM.Result SyncError σ α → Option α
  | .ok a _ => some a
  | .error _ _ => none

theorem answer_any {result : EStateM.Result SyncError σ α} {here : α → Bool} (holds : (answer result).any here) :
    ∃ a t, result = .ok a t ∧ here a := by
  cases result with
  | ok a t => exact ⟨a,t,rfl,holds⟩
  | error e t => cases holds

/-- The call succeeds, and this holds of its result and of the shelf after it. -/
def Finishes (view : σ → Shelf) (fine : σ → Prop) (x : EStateM SyncError σ α) (s : σ) (did : α → Shelf → Prop) : Prop :=
  ∃ a t, x s = .ok a t ∧ fine t ∧ did a (view t)

/-- The call succeeds so, or it fails and leaves everything as it is. -/
def SucceedsOrNot (view : σ → Shelf) (fine : σ → Prop) (x : EStateM SyncError σ α) (s : σ) (did : α → Shelf → Prop) : Prop :=
  Finishes view fine x s did ∨ ∃ e, x s = .error e s

theorem Writes.succeeds {after : Shelf} (writes : Writes view fine x s after) :
    Finishes view fine x s (fun _ shelf => shelf = after) := writes

theorem Finishes.bind (first : Finishes view fine x s did)
    (rest : ∀ a t, fine t → did a (view t) → Finishes view fine (f a) t did') : Finishes view fine (x >>= f) s did' := by
  obtain ⟨a,t,ran,here,done⟩ := first
  obtain ⟨b,r,ran',here',done'⟩ := rest a t here done
  exact ⟨b,r,work_bind_ok.mpr ⟨a,t,ran,ran'⟩,here',done'⟩

theorem Finishes.pure (a : α) (here : fine s) (done : did a (view s)) : Finishes view fine (Pure.pure a) s did :=
  ⟨a,s,rfl,here,done⟩

theorem Answers.bind (first : Answers x s right) (rest : ∀ a, right a → SucceedsOrNot view fine (f a) s did') :
    SucceedsOrNot view fine (x >>= f) s did' := by
  rcases first with ⟨a,ran,holds⟩ | ⟨e,failed⟩
  · rcases rest a holds with ⟨b,t,ran',here,done⟩ | ⟨e,failed⟩
    · exact .inl ⟨b,t,work_bind_ok.mpr ⟨a,s,ran,ran'⟩,here,done⟩
    · exact .inr ⟨e,by rw [work_bind,ran]; exact failed⟩
  · exact .inr ⟨e,by rw [work_bind,failed]⟩

theorem Answers.bind_answers {right' : β → Prop} (first : Answers x s right) (rest : ∀ a, right a → Answers (f a) s right') :
    Answers (x >>= f) s right' := by
  rcases first with ⟨a,ran,holds⟩ | ⟨e,failed⟩
  · rcases rest a holds with ⟨b,ran',done⟩ | ⟨e,failed⟩
    · exact .inl ⟨b,work_bind_ok.mpr ⟨a,s,ran,ran'⟩,done⟩
    · exact .inr ⟨e,by rw [work_bind,ran]; exact failed⟩
  · exact .inr ⟨e,by rw [work_bind,failed]⟩

theorem Answers.pure (a : α) (holds : right a) : Answers (Pure.pure a : EStateM SyncError σ α) s right := .inl ⟨a,rfl,holds⟩

theorem Answers.throw (e : SyncError) : Answers (MonadExcept.throw e : EStateM SyncError σ α) s right := .inr ⟨e,rfl⟩

theorem run_crypto_answers (what : String) (y : Except CryptoError α) (s : σ) : Answers (run_crypto what y) s (fun a => y = .ok a) := by
  cases y with
  | ok a => exact .inl ⟨a,rfl,rfl⟩
  | error e => exact .inr ⟨_,rfl⟩

end

/-! ### What the calls do -/

section
variable {σ : Type} {relay : RelayTransport σ} {p : Primitives} {hash : List UInt8 → String} {account_id : AccountId}
  {view : σ → Shelf} {fine : σ → Prop} {s : σ}

/-- The record that is on the shelf for a device, read and verified. -/
def Published (p : Primitives) (shelf : Shelf) (d : String) (signed : SignedDeviceRecord) : Prop :=
  ∃ bytes, shelf.records d = some bytes ∧ SignedDeviceRecord.from_bytes bytes = .ok signed ∧
    p.verify_record signed = .ok () ∧ signed.record.device_id = d

theorem fetch_device_record_answers (honest : Honest relay hash account_id.to_hex view fine) (here : fine s) (d : String) :
    Answers (relay.fetch_device_record p account_id d) s (Published p (view s) d) := by
  refine (honest.device_get d s here).bind_answers fun got same => ?_
  subst same
  cases found : (view s).records d with
  | none => exact .throw _
  | some bytes =>
    refine (run_crypto_answers _ _ s).bind_answers fun signed parsed => ?_
    refine (run_crypto_answers _ _ s).bind_answers fun _ verifies => ?_
    by_cases named : signed.record.device_id = d
    · simp only [ne_eq,named,not_true,if_false]
      exact .pure signed ⟨bytes,found,parsed,verifies,named⟩
    · simp only [ne_eq,named,not_false_eq_true,if_true]
      exact .throw _

theorem listed_record_eq {listed : RelayDevice} {signed : SignedDeviceRecord} : p.listed_record listed = some signed ↔
    SignedDeviceRecord.from_bytes listed.record = .ok signed ∧ p.verify_record signed = .ok () ∧
      signed.record.device_id = listed.device_id := by
  unfold Primitives.listed_record
  cases SignedDeviceRecord.from_bytes listed.record with
  | error e => simp
  | ok signed' =>
    simp only [Option.ite_none_right_eq_some,Option.some.injEq,Except.ok.injEq]
    constructor
    · rintro ⟨holds,rfl⟩
      exact ⟨rfl,holds⟩
    · rintro ⟨rfl,holds⟩
      exact ⟨holds,rfl⟩

/-- The roster has the records on the shelf that are read and verified. -/
theorem roster_answers (honest : Honest relay hash account_id.to_hex view fine) (here : fine s) :
    Answers (relay.roster p account_id) s (fun all => ∀ signed, signed ∈ all ↔
      Published p (view s) signed.record.device_id signed) := by
  refine (honest.devices_list s here).bind_answers fun raw listed => .pure _ fun signed => ?_
  rw [List.mem_filterMap]
  constructor
  · rintro ⟨⟨d,record⟩,inside,read⟩
    obtain ⟨parsed,verifies,named⟩ := listed_record_eq.mp read
    exact ⟨record,(listed _ _).mp (named ▸ inside),parsed,verifies,rfl⟩
  · rintro ⟨bytes,found,parsed,verifies,-⟩
    exact ⟨⟨_,bytes⟩,(listed _ _).mpr found,listed_record_eq.mpr ⟨parsed,verifies,rfl⟩⟩

theorem enroll_publish_succeeds (honest : Honest relay hash account_id.to_hex view fine) (here : fine s)
    (keys : DeviceKeypairs) (now_millis : Int64) :
    Finishes view fine (relay.enroll_publish p account_id keys now_millis) s (fun _ shelf =>
      shelf = (view s).put_record (p.device_id keys) (p.sign_record keys now_millis).to_bytes) :=
  honest.device_put _ _ s here

theorem bootstrap_succeeds (honest : Honest relay hash account_id.to_hex view fine) (here : fine s) (keys : DeviceKeypairs)
    (key_epoch : UInt32) (now_millis : Int64) :
    Finishes view fine (relay.bootstrap p account_id keys key_epoch now_millis) s (fun _ shelf =>
      shelf = ((view s).put_record (p.device_id keys) (p.sign_record keys now_millis).to_bytes).append_attestation hash
        (p.attest_trust keys (p.sign_record keys now_millis).record key_epoch now_millis).to_bytes) := by
  refine (honest.device_put _ _ s here).succeeds.bind fun _ t here' put => ?_
  refine (honest.attestation_append _ t here').succeeds.bind fun _ r here'' appended => ?_
  exact .pure () here'' (by rw [appended,put])

/-- An approval that succeeds put a box into the mailbox of the subject and an attestation
    to the others. -/
theorem approve_succeeds (honest : Honest relay hash account_id.to_hex view fine) (here : fine s) (draw : Option Draw)
    (approver : DeviceKeypairs) (ark : AccountRootKey) (key_epoch : UInt32) (d : String) (now_millis : Int64) :
    SucceedsOrNot view fine (relay.approve p account_id draw approver ark key_epoch d now_millis) s (fun _ shelf =>
      ∃ subject box, Published p (view s) d subject ∧
        p.seal_enrollment_bundle draw subject.record.x25519_pub d ark account_id key_epoch = .ok box ∧
        shelf = ((view s).put_wrap hash d box).append_attestation hash
          (p.attest_trust approver subject.record key_epoch now_millis).to_bytes) := by
  refine (fetch_device_record_answers honest here d).bind fun subject published => ?_
  have named : subject.record.device_id = d := published.choose_spec.2.2.2
  refine (run_crypto_answers _ _ s).bind fun box made => .inl ?_
  rw [named] at made ⊢
  refine (honest.wrap_put _ _ s here).succeeds.bind fun _ t here' put => ?_
  refine (honest.attestation_append _ t here').succeeds.bind fun _ r here'' appended => ?_
  exact .pure _ here'' ⟨subject,box,published,made,by rw [appended,put]⟩

/-- The shelf after the boxes of a rotation. -/
def put_boxes (hash : List UInt8 → String) (wraps : List RewrappedKey) (shelf : Shelf) : Shelf :=
  wraps.foldl (fun shelf w => shelf.put_wrap hash w.device_id w.box) shelf

theorem put_wraps_succeeds (honest : Honest relay hash account_id.to_hex view fine) (here : fine s) (wraps : List RewrappedKey) :
    Finishes view fine (relay.put_wraps account_id wraps) s (fun _ shelf => shelf = put_boxes hash wraps (view s)) := by
  induction wraps generalizing s with
  | nil => exact .pure () here rfl
  | cons w wraps ih =>
    refine (honest.wrap_put _ _ s here).succeeds.bind fun _ t here' put => ?_
    have rest := ih here'
    rw [put] at rest
    exact rest

/-- A revocation that succeeds sealed the key of the next epoch to every other device with
    a verified record on the shelf, in the boxes that it put into their mailboxes. -/
theorem revoke_succeeds (honest : Honest relay hash account_id.to_hex view fine) (here : fine s) (draws : ℕ → Option Draw)
    (approver : DeviceKeypairs) (ark : AccountRootKey) (epoch : UInt32) (d : String) (now_millis : Int64) :
    SucceedsOrNot view fine (relay.revoke p account_id draws approver ark epoch d now_millis) s (fun r shelf =>
      ∃ revoked wraps, Published p (view s) d revoked ∧ r = ⟨RelayTransport.next_epoch epoch,wraps.map RewrappedKey.device_id⟩ ∧
        (∀ id, id ∈ wraps.map RewrappedKey.device_id ↔ id ≠ d ∧ ∃ signed, Published p (view s) id signed) ∧
        (∀ w ∈ wraps, ∃ signed draw, Published p (view s) w.device_id signed ∧
          p.rewrap ark account_id (RelayTransport.next_epoch epoch) ⟨w.device_id,signed.record.x25519_pub⟩ draw = .ok w) ∧
        shelf = (put_boxes hash wraps (view s)).append_attestation hash
          (p.attest_revoke approver revoked.record (RelayTransport.next_epoch epoch) now_millis).to_bytes) := by
  refine (roster_answers honest here).bind fun all listed => ?_
  cases found : all.find? (fun r => r.record.device_id = d) with
  | none => exact .inr ⟨_,rfl⟩
  | some revoked =>
    have there := (listed revoked).mp (List.mem_of_find?_eq_some found)
    have named : revoked.record.device_id = d := by simpa using List.find?_some found
    refine (run_crypto_answers _ _ s).bind fun (ack,wraps) rotated => .inl ?_
    obtain ⟨ids,each⟩ := Primitives.rotate_and_rewrap_ok rotated
    refine (put_wraps_succeeds honest here wraps).bind fun _ t here' put => ?_
    refine (honest.attestation_append _ t here').succeeds.bind fun _ r here'' appended => ?_
    refine .pure _ here'' ⟨revoked,wraps,named ▸ there,rfl,fun id => ?_,fun w inside => ?_,by rw [appended,put]⟩
    · rw [ids]
      simp only [List.mem_map,List.mem_filter,decide_eq_true_eq]
      constructor
      · rintro ⟨_,⟨signed,⟨inside,other⟩,rfl⟩,rfl⟩
        exact ⟨other,signed,(listed signed).mp inside⟩
      · rintro ⟨other,signed,published⟩
        obtain rfl : signed.record.device_id = id := published.choose_spec.2.2.2
        exact ⟨_,⟨signed,⟨(listed signed).mpr published,other⟩,rfl⟩,rfl⟩
    · obtain ⟨recipient,there',draw,made⟩ := each w inside
      obtain ⟨signed,inside',rfl⟩ := List.mem_map.mp there'
      have mine : w.device_id = signed.record.device_id := by
        obtain ⟨box,-,same⟩ := bind_ok.mp made
        cases same
        rfl
      exact ⟨signed,draw,mine ▸ (listed signed).mp (List.mem_filter.mp inside').1,mine ▸ made⟩

end

/-! ### Runs -/

/-- A call that a device of the account makes, or a record that is placed on the roster by
    whoever holds the key that signs it. -/
inductive OnboardingCall (p : Primitives) where
  | bootstrap (keys : DeviceKeypairs) (key_epoch : UInt32) (now_millis : Int64)
  | enroll_publish (keys : DeviceKeypairs) (now_millis : Int64)
  | place (signed : SignedDeviceRecord) (self_signed : p.verify_record signed = .ok ())
  | approve (draw : Option Draw) (approver : DeviceKeypairs) (ark : AccountRootKey) (key_epoch : UInt32)
      (subject_device_id : String) (now_millis : Int64)
  | revoke (draws : ℕ → Option Draw) (approver : DeviceKeypairs) (ark : AccountRootKey) (current_epoch : UInt32)
      (revoked_device_id : String) (now_millis : Int64)

namespace OnboardingCall
variable {p : Primitives}

/-- The device whose record the call publishes. -/
def publisher : OnboardingCall p → Option String
  | .bootstrap keys _ _ => some (p.device_id keys)
  | .enroll_publish keys _ => some (p.device_id keys)
  | .place signed _ => some signed.record.device_id
  | .approve .. => none
  | .revoke .. => none

/-- Whom the call leaves trusted, where these were before. -/
def trust (before : String → Bool) (d : String) : OnboardingCall p → Bool
  | .bootstrap keys _ _ => d = p.device_id keys || before d
  | .enroll_publish .. => before d
  | .place .. => before d
  | .approve _ _ _ _ subject_device_id _ => d = subject_device_id || before d
  | .revoke _ _ _ _ revoked_device_id _ => d ≠ revoked_device_id && before d

def perform {σ : Type} (relay : RelayTransport σ) (account_id : AccountId) : OnboardingCall p → EStateM SyncError σ Unit
  | .bootstrap keys key_epoch now_millis => relay.bootstrap p account_id keys key_epoch now_millis
  | .enroll_publish keys now_millis => relay.enroll_publish p account_id keys now_millis
  | .place signed _ => relay.device_put account_id.to_hex signed.record.device_id signed.to_bytes
  | .approve draw approver ark key_epoch d now_millis => do
    let _ ← relay.approve p account_id draw approver ark key_epoch d now_millis
  | .revoke draws approver ark epoch d now_millis => do
    let _ ← relay.revoke p account_id draws approver ark epoch d now_millis

end OnboardingCall

/-- The devices that have published a record. -/
def publishers {p : Primitives} (history : List (OnboardingCall p)) : List String :=
  history.filterMap OnboardingCall.publisher

/-- The devices that have been bootstrapped or approved and not been revoked since. -/
def trusted {p : Primitives} (history : List (OnboardingCall p)) : String → Bool :=
  history.foldl (fun before call d => call.trust before d) (fun _ => false)

/-- Make a call; the history has the calls that succeed. -/
def play {σ : Type} {p : Primitives} (relay : RelayTransport σ) (account_id : AccountId)
    (state : σ × List (OnboardingCall p)) (call : OnboardingCall p) : σ × List (OnboardingCall p) :=
  match call.perform relay account_id state.1 with
  | .ok _ t => (t,state.2 ++ [call])
  | .error _ t => (t,state.2)

section
variable {σ : Type} {relay : RelayTransport σ} {p : Primitives} {hash : List UInt8 → String} {account_id : AccountId}
  {view : σ → Shelf} {fine : σ → Prop} {history : List (OnboardingCall p)} {call : OnboardingCall p} {shelf : Shelf}

@[simp] theorem trusted_concat (d : String) : trusted (history ++ [call]) d = call.trust (trusted history) d := by
  simp [trusted]

@[simp] theorem mem_publishers_concat (d : String) :
    d ∈ publishers (history ++ [call]) ↔ d ∈ publishers history ∨ call.publisher = some d := by
  simp [publishers]

/-- The shelf has the record of each device that has published one, and a trusted device
    is among them. -/
structure Enlisted (history : List (OnboardingCall p)) (shelf : Shelf) : Prop where
  published : ∀ d, (∃ signed, Published p shelf d signed) ↔ d ∈ publishers history
  among : ∀ d, trusted history d → d ∈ publishers history

theorem published_congr {after : Shelf} (same : after.records = shelf.records) (d : String) (signed : SignedDeviceRecord) :
    Published p after d signed ↔ Published p shelf d signed := by simp [Published,same]

theorem published_put_record {signed : SignedDeviceRecord} (self_signed : p.verify_record signed = .ok ()) (d : String) :
    (∃ signed', Published p (shelf.put_record signed.record.device_id signed.to_bytes) d signed') ↔
      d = signed.record.device_id ∨ ∃ signed', Published p shelf d signed' := by
  have short : (utf8 signed.record.device_id).length < 2 ^ 32 := by
    rw [← (Primitives.verify_record_ok.mp self_signed).1]
    simp
  by_cases mine : d = signed.record.device_id
  · subst mine
    refine ⟨fun _ => .inl rfl,fun _ => ⟨signed,signed.to_bytes,by simp [Shelf.put_record],?_,self_signed,rfl⟩⟩
    exact SignedDeviceRecord.from_bytes_to_bytes short
  · simp [Published,Shelf.put_record,mine]

/-- A call that publishes a record. -/
theorem Enlisted.put_record {after : Shelf} {signed : SignedDeviceRecord} (enlisted : Enlisted history shelf)
    (self_signed : p.verify_record signed = .ok ()) (publisher : call.publisher = some signed.record.device_id)
    (trust : ∀ d, call.trust (trusted history) d → d = signed.record.device_id ∨ trusted history d)
    (same : after.records = (shelf.put_record signed.record.device_id signed.to_bytes).records) :
    Enlisted (history ++ [call]) after := by
  constructor
  · intro d
    simp only [published_congr same]
    rw [published_put_record self_signed,enlisted.published,mem_publishers_concat,publisher,Option.some.injEq,or_comm,
      eq_comm (a := d)]
  · intro d now
    rw [trusted_concat] at now
    rw [mem_publishers_concat,publisher,Option.some.injEq]
    rcases trust d now with rfl | before
    · exact .inr rfl
    · exact .inl (enlisted.among d before)

/-- A call that publishes nothing and leaves the records as they are. -/
theorem Enlisted.of_records {after : Shelf} (enlisted : Enlisted history shelf) (same : after.records = shelf.records)
    (silent : call.publisher = none) (trust : ∀ d, call.trust (trusted history) d → d ∈ publishers history) :
    Enlisted (history ++ [call]) after := by
  constructor
  · intro d
    rw [mem_publishers_concat,silent]
    simp only [published_congr same,enlisted.published,reduceCtorEq,or_false]
  · intro d now
    rw [mem_publishers_concat]
    exact .inl (trust d (by rwa [trusted_concat] at now))

theorem records_put_boxes (wraps : List RewrappedKey) (shelf : Shelf) :
    (put_boxes hash wraps shelf).records = shelf.records := by
  induction wraps generalizing shelf with
  | nil => rfl
  | cons w wraps ih => exact (ih _).trans rfl

/-- What a call keeps, whether it succeeds or fails. -/
theorem enlisted_play (lawful : p.Lawful) (honest : Honest relay hash account_id.to_hex view fine) {s : σ} (here : fine s)
    (enlisted : Enlisted history (view s)) (call : OnboardingCall p) :
    fine (play relay account_id (s,history) call).1 ∧
      Enlisted (play relay account_id (s,history) call).2 (view (play relay account_id (s,history) call).1) := by
  unfold play
  cases call with
  | bootstrap keys key_epoch now_millis =>
    obtain ⟨a,t,ran,here',shelf⟩ := bootstrap_succeeds (p := p) honest here keys key_epoch now_millis
    simp only [OnboardingCall.perform,ran]
    refine ⟨here',enlisted.put_record (Primitives.verify_sign_record lawful keys now_millis) rfl (fun d now => ?_) (by rw [shelf]; rfl)⟩
    simpa [OnboardingCall.trust,Primitives.sign_record] using now
  | enroll_publish keys now_millis =>
    obtain ⟨a,t,ran,here',shelf⟩ := enroll_publish_succeeds (p := p) honest here keys now_millis
    simp only [OnboardingCall.perform,ran]
    exact ⟨here',enlisted.put_record (Primitives.verify_sign_record lawful keys now_millis) rfl (fun d => .inr) (by rw [shelf]; rfl)⟩
  | place signed self_signed =>
    obtain ⟨a,t,ran,here',shelf⟩ := honest.device_put signed.record.device_id signed.to_bytes s here
    simp only [OnboardingCall.perform,ran]
    exact ⟨here',enlisted.put_record self_signed rfl (fun d => .inr) (by rw [shelf])⟩
  | approve draw approver ark key_epoch d now_millis =>
    rcases approve_succeeds (p := p) honest here draw approver ark key_epoch d now_millis with
      ⟨a,t,ran,here',subject,box,published,-,shelf⟩ | ⟨e,failed⟩
    · simp only [OnboardingCall.perform,work_bind,ran]
      show fine t ∧ Enlisted (history ++ [_]) (view t)
      refine ⟨here',enlisted.of_records (by rw [shelf]; rfl) rfl fun id now => ?_⟩
      simp only [OnboardingCall.trust,Bool.or_eq_true,decide_eq_true_eq] at now
      rcases now with rfl | before
      · exact (enlisted.published _).mp ⟨subject,published⟩
      · exact enlisted.among id before
    · simp only [OnboardingCall.perform,work_bind,failed]
      exact ⟨here,enlisted⟩
  | revoke draws approver ark epoch d now_millis =>
    rcases revoke_succeeds (p := p) honest here draws approver ark epoch d now_millis with
      ⟨a,t,ran,here',revoked,wraps,-,-,-,-,shelf⟩ | ⟨e,failed⟩
    · simp only [OnboardingCall.perform,work_bind,ran]
      show fine t ∧ Enlisted (history ++ [_]) (view t)
      refine ⟨here',enlisted.of_records (by rw [shelf]; exact records_put_boxes wraps _) rfl fun id now => ?_⟩
      simp only [OnboardingCall.trust,Bool.and_eq_true,decide_eq_true_eq] at now
      exact enlisted.among id now.2
    · simp only [OnboardingCall.perform,work_bind,failed]
      exact ⟨here,enlisted⟩

/-- In every run the shelf has the records of those that have published one. -/
theorem enlisted_run (lawful : p.Lawful) (honest : Honest relay hash account_id.to_hex view fine) {start : σ}
    (here : fine start) (empty : ∀ d, (view start).records d = none) (calls : List (OnboardingCall p)) :
    let (s,history) := calls.foldl (play relay account_id) (start,[])
    fine s ∧ Enlisted history (view s) := by
  induction calls using List.reverseRecOn with
  | nil => exact ⟨here,by simp [Published,empty,publishers],by simp [trusted]⟩
  | append_singleton calls call ih =>
    rw [List.foldl_append]
    exact enlisted_play lawful honest ih.1 ih.2 call

end

/-! ### A revoked device that stays on the roster -/

section

def device (n : UInt8) : DeviceKeypairs := ⟨.replicate KEY_LEN n,.replicate KEY_LEN n⟩
def idOf (n : UInt8) : String := plainPrimitives.device_id (device n)
def drawn : Option Draw := some ⟨.replicate KEY_LEN 7,.replicate NONCE_LEN 8⟩
def rootKey : AccountRootKey := ⟨.replicate KEY_LEN 3⟩

/-- The first device revokes another. -/
def revocation (epoch : UInt32) (n : UInt8) : OnboardingCall plainPrimitives :=
  .revoke (fun _ => drawn) (device 1) rootKey epoch (idOf n) 0

/-- The run to a revocation of a device that has only published its record. -/
def enlisting : List (OnboardingCall plainPrimitives) := [.bootstrap (device 1) 0 0,.enroll_publish (device 2) 0]

/-- The run in which the second device is approved and then revoked. -/
def rotation : List (OnboardingCall plainPrimitives) :=
  enlisting ++ [.approve drawn (device 1) rootKey 0 (idOf 2) 0,revocation 0 2,.enroll_publish (device 3) 0]

end

end Pergamon
