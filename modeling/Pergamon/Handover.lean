import Pergamon.Roster

/-!
What a device accepts: the first bundle of its mailbox that opens and the signer of the
first attestation that grants it trust.

Bundles and the boxes of rotations are appended to one mailbox, of which a client over
HTTP reads the first page. So it gets the latest of its approvals if and only if no bundle
of an earlier one with another root key or epoch comes first, and the bundle and an
attestation are on the first page (`accept_http`).
-/
namespace Pergamon
open Fallible

/-! ### The bundle that is accepted -/

section
variable {σ : Type} {relay : RelayTransport σ} {p : Primitives} {account_id : AccountId} {keys : DeviceKeypairs}
  {bundle : EnrollmentBundle} {box : List UInt8} {boxes : List (List UInt8)}

theorem accept_ok {accepted : Accepted} {s t : σ} : relay.accept p account_id keys s = .ok accepted t ↔
    ∃ wraps r attestations, relay.wraps_list account_id.to_hex (p.device_id keys) 0 s = .ok wraps r ∧
      relay.attestations_list account_id.to_hex 0 r = .ok attestations t ∧
      wraps.findSome? (fun w => p.opened keys w.bundle) = some accepted.bundle ∧ accepted.bundle.account_id = account_id ∧
      accepted.approver_device_id = attestations.findSome? (fun a => p.truster (p.device_id keys) a.attestation) := by
  unfold RelayTransport.accept
  rw [work_bind_ok]
  refine exists_congr fun wraps => ⟨?_,?_⟩
  · rintro ⟨r,listed,rest⟩
    cases wraps with
    | nil => cases rest
    | cons w wraps =>
      simp only [List.isEmpty_cons,Bool.false_eq_true,if_false] at rest
      cases found : (w :: wraps).findSome? (fun w => p.opened keys w.bundle) with
      | none =>
        rw [found] at rest
        cases rest
      | some bundle =>
        rw [found] at rest
        by_cases mine : bundle.account_id = account_id
        · simp only [mine,ne_eq,not_true,if_false,work_bind_ok] at rest
          obtain ⟨approver,t',looked,done⟩ := rest
          cases done
          obtain ⟨attestations,t',listed',done⟩ := work_bind_ok.mp looked
          cases done
          exact ⟨r,attestations,listed,listed',rfl,mine,rfl⟩
        · simp only [mine,ne_eq,not_false_eq_true,if_true] at rest
          cases rest
  · rintro ⟨r,attestations,listed,listed',found,mine,vouched⟩
    refine ⟨r,listed,?_⟩
    cases wraps with
    | nil => cases found
    | cons w wraps =>
      simp only [List.isEmpty_cons,Bool.false_eq_true,if_false,found,mine,ne_eq,not_true]
      refine work_bind_ok.mpr ⟨accepted.approver_device_id,t,?_,rfl⟩
      exact work_bind_ok.mpr ⟨attestations,t,listed',by rw [vouched]; rfl⟩

/-- A box in which an approval sealed a bundle to the device. -/
def Enrols (p : Primitives) (keys : DeviceKeypairs) (bundle : EnrollmentBundle) (box : List UInt8) : Prop :=
  ∃ draw, p.seal_enrollment_bundle draw (p.x25519_pub keys) (p.device_id keys) bundle.ark bundle.account_id bundle.key_epoch =
    .ok box

/-- A box in which a rotation sealed the key of an epoch to the device. -/
def Rekeys (p : Primitives) (keys : DeviceKeypairs) (box : List UInt8) : Prop :=
  ∃ ark account_id epoch r draw wrapped, r.x25519_pub = p.x25519_pub keys ∧ p.rewrap ark account_id epoch r draw = .ok wrapped ∧
    wrapped.box = box

/-- The first bundle among the boxes is this one. -/
def FirstEnrols (p : Primitives) (keys : DeviceKeypairs) (boxes : List (List UInt8)) (bundle : EnrollmentBundle) : Prop :=
  ∃ before box after, boxes = before ++ box :: after ∧ Enrols p keys bundle box ∧
    ∀ earlier ∈ before, ∀ bundle, ¬ Enrols p keys bundle earlier

theorem Enrols.opened (lawful : p.Lawful) (enrols : Enrols p keys bundle box) : p.opened keys box = some bundle := by
  obtain ⟨draw,made⟩ := enrols
  unfold Primitives.opened
  rw [Primitives.open_seal_enrollment_bundle lawful made]
  rfl

theorem Rekeys.opened (lawful : p.Lawful) (rekeys : Rekeys p keys box) : p.opened keys box = none := by
  obtain ⟨ark,account_id,epoch,r,draw,wrapped,mine,made,rfl⟩ := rekeys
  unfold Primitives.opened
  cases opened : p.open_enrollment_bundle keys.x25519_secret (p.device_id keys) wrapped.box with
  | error e => rfl
  | ok bundle => exact absurd opened (Primitives.open_rewrapped_fails lawful made mine bundle)

/-- Among bundles and the boxes of rotations the first that opens is the first bundle. -/
theorem findSome_opened (lawful : p.Lawful) (all : ∀ box ∈ boxes, (∃ bundle, Enrols p keys bundle box) ∨ Rekeys p keys box) :
    boxes.findSome? (p.opened keys) = some bundle ↔ FirstEnrols p keys boxes bundle := by
  rw [List.findSome?_eq_some_iff]
  refine exists_congr fun before => exists_congr fun box => exists_congr fun after => and_congr_right fun split => ?_
  subst split
  refine and_congr ⟨fun opens => ?_,Enrols.opened lawful⟩ (forall₂_congr fun earlier inside => ⟨fun closed bundle enrols => ?_,fun none => ?_⟩)
  · rcases all box (by simp) with ⟨bundle',enrols⟩ | rekeys
    · rw [enrols.opened lawful] at opens
      cases opens
      exact enrols
    · rw [rekeys.opened lawful] at opens
      cases opens
  · rw [enrols.opened lawful] at closed
    cases closed
  · rcases all earlier (by simp [inside]) with ⟨bundle',enrols⟩ | rekeys
    · exact absurd enrols (none bundle')
    · exact rekeys.opened lawful

end

/-! ### What the runs deliver -/

/-- An approval that was given to a device. -/
structure Approval where
  approver_device_id : String
  ark : AccountRootKey
  key_epoch : UInt32
  deriving DecidableEq

namespace OnboardingCall
variable {p : Primitives}

/-- The approval that the call gives to the device. -/
def approval (d : String) : OnboardingCall p → Option Approval
  | .approve _ approver ark key_epoch subject_device_id _ =>
    if subject_device_id = d then some ⟨p.device_id approver,ark,key_epoch⟩ else none
  | _ => none

/-- A record that the call publishes is that of one of the devices, and the device does
    not vouch for itself. -/
def By (devices : Set DeviceKeypairs) (d : String) : OnboardingCall p → Prop
  | .bootstrap keys _ _ => keys ∈ devices ∧ p.device_id keys ≠ d
  | .enroll_publish keys _ => keys ∈ devices
  | .place .. => False
  | .approve .. => True
  | .revoke .. => True

end OnboardingCall

/-- The approvals of a device, in their order. -/
def approvals {p : Primitives} (d : String) (history : List (OnboardingCall p)) : List Approval :=
  history.filterMap (OnboardingCall.approval d)

/-- An attestation that grants trust to a device. -/
def Grants (p : Primitives) (d : String) (signer : DeviceKeypairs) (a : List UInt8) : Prop :=
  ∃ subject key_epoch issued_at, subject.device_id = d ∧ a = (p.attest_trust signer subject key_epoch issued_at).to_bytes

/-- What there is for the devices: their own records, and boxes that were sealed to them. -/
structure Addressed (p : Primitives) (devices : Set DeviceKeypairs) (shelf : Shelf) : Prop where
  record : ∀ keys ∈ devices, ∀ signed, Published p shelf (p.device_id keys) signed →
    signed.record.x25519_pub = p.x25519_pub keys
  boxes : ∀ keys ∈ devices, ∀ box ∈ shelf.mailbox (p.device_id keys), (∃ bundle, Enrols p keys bundle box) ∨ Rekeys p keys box

/-- What there is after a run: attestations of which those that grant trust to a device
    were made by its approvers. -/
structure Delivered (p : Primitives) (devices : Set DeviceKeypairs) (d : String) (history : List (OnboardingCall p))
    (shelf : Shelf) : Prop extends Addressed p devices shelf where
  attested : ∀ a ∈ shelf.attestations, ∃ signer kind subject key_epoch issued_at,
    a = (p.sign_attestation signer kind subject key_epoch issued_at).to_bytes ∧
      p.device_id_from_ed25519 subject.ed25519_pub = subject.device_id ∧
      (kind = .Trust → subject.device_id = d → ∃ given ∈ approvals d history, given.approver_device_id = p.device_id signer)

section
variable {σ : Type} {relay : RelayTransport σ} {p : Primitives} {hash : List UInt8 → String} {account_id : AccountId}
  {view : σ → Shelf} {fine : σ → Prop} {history : List (OnboardingCall p)} {call : OnboardingCall p} {shelf after : Shelf}
  {keys : DeviceKeypairs} {devices : Set DeviceKeypairs}

theorem mem_deposit {l : List (List UInt8)} {bytes b : List UInt8} (inside : b ∈ deposit hash l bytes) : b ∈ l ∨ b = bytes := by
  unfold deposit at inside
  split at inside
  · exact .inl inside
  · simpa using inside

theorem mem_put_boxes {wraps : List RewrappedKey} {d : String} {box : List UInt8}
    (inside : box ∈ (put_boxes hash wraps shelf).mailbox d) :
    box ∈ shelf.mailbox d ∨ ∃ w ∈ wraps, w.device_id = d ∧ w.box = box := by
  induction wraps generalizing shelf with
  | nil => exact .inl inside
  | cons w wraps ih =>
    rcases ih inside with before | ⟨w',there,named,same⟩
    · by_cases mine : d = w.device_id
      · subst mine
        simp only [Shelf.put_wrap,Function.update_self] at before
        rcases mem_deposit before with old | new
        · exact .inl old
        · exact .inr ⟨w,by simp,rfl,new.symm⟩
      · simp only [Shelf.put_wrap,Function.update_of_ne mine] at before
        exact .inl before
    · exact .inr ⟨w',by simp [there],named,same⟩

theorem attestations_put_boxes (wraps : List RewrappedKey) (shelf : Shelf) :
    (put_boxes hash wraps shelf).attestations = shelf.attestations := by
  induction wraps generalizing shelf with
  | nil => rfl
  | cons w wraps ih => exact (ih _).trans rfl

@[simp] theorem approvals_concat (d : String) :
    approvals d (history ++ [call]) = approvals d history ++ (call.approval d).toList := by
  cases given : call.approval d <;> simp [approvals,given]

theorem Published.named {d : String} {signed : SignedDeviceRecord} (published : Published p shelf d signed) :
    signed.record.device_id = d ∧ p.device_id_from_ed25519 signed.record.ed25519_pub = signed.record.device_id := by
  obtain ⟨bytes,-,-,verifies,named⟩ := published
  exact ⟨named,(Primitives.verify_record_ok.mp verifies).1⟩

/-- A device that publishes its record keeps its key: ids tell the devices apart. -/
theorem Addressed.put_record (addressed : Addressed p devices shelf) (apart : devices.InjOn p.device_id)
    {other : DeviceKeypairs} (there : other ∈ devices) (now_millis : Int64) :
    Addressed p devices (shelf.put_record (p.device_id other) (p.sign_record other now_millis).to_bytes) := by
  refine ⟨fun keys mine signed published => ?_,addressed.boxes⟩
  by_cases same : p.device_id keys = p.device_id other
  · obtain rfl := apart mine there same
    obtain ⟨bytes,found,parsed,-,-⟩ := published
    simp only [Shelf.put_record,Function.update_self,Option.some.injEq] at found
    subst found
    have short : (utf8 (p.device_id keys)).length < 2 ^ 32 := by simp [Primitives.device_id]
    rw [SignedDeviceRecord.from_bytes_to_bytes short] at parsed
    cases parsed
    rfl
  · apply addressed.record keys mine
    simpa [Published,Shelf.put_record,same] using published

theorem Addressed.append_attestation (addressed : Addressed p devices shelf) (a : List UInt8) :
    Addressed p devices (shelf.append_attestation hash a) := ⟨addressed.record,addressed.boxes⟩

/-- What an approval seals is sealed to the device that has the id. -/
theorem Addressed.enrols (addressed : Addressed p devices shelf) {keys : DeviceKeypairs} (mine : keys ∈ devices)
    {subject : SignedDeviceRecord} {draw : Option Draw} {ark : AccountRootKey} {key_epoch : UInt32} {box : List UInt8}
    (published : Published p shelf (p.device_id keys) subject)
    (made : p.seal_enrollment_bundle draw subject.record.x25519_pub (p.device_id keys) ark account_id key_epoch = .ok box) :
    Enrols p keys ⟨ark,account_id,key_epoch⟩ box :=
  ⟨draw,by rw [addressed.record keys mine subject published] at made; exact made⟩

theorem Addressed.put_wrap (addressed : Addressed p devices shelf) {d : String} {subject : SignedDeviceRecord}
    {draw : Option Draw} {ark : AccountRootKey} {key_epoch : UInt32} {box : List UInt8} (published : Published p shelf d subject)
    (made : p.seal_enrollment_bundle draw subject.record.x25519_pub d ark account_id key_epoch = .ok box) :
    Addressed p devices (shelf.put_wrap hash d box) := by
  refine ⟨addressed.record,fun keys mine b inside => ?_⟩
  by_cases me : p.device_id keys = d
  · subst me
    simp only [Shelf.put_wrap,Function.update_self] at inside
    rcases mem_deposit inside with old | rfl
    · exact addressed.boxes keys mine b old
    · exact .inl ⟨_,addressed.enrols mine published made⟩
  · simp only [Shelf.put_wrap,Function.update_of_ne me] at inside
    exact addressed.boxes keys mine b inside

/-- What a rotation seals is sealed to the devices that have the ids. -/
theorem Addressed.rekeys (addressed : Addressed p devices shelf) {keys : DeviceKeypairs} (mine : keys ∈ devices)
    {wraps : List RewrappedKey} {ark : AccountRootKey} {new_epoch : UInt32}
    (made : ∀ w ∈ wraps, ∃ signed draw, Published p shelf w.device_id signed ∧
      p.rewrap ark account_id new_epoch ⟨w.device_id,signed.record.x25519_pub⟩ draw = .ok w)
    {box : List UInt8} (inside : box ∈ (put_boxes hash wraps shelf).mailbox (p.device_id keys)) :
    box ∈ shelf.mailbox (p.device_id keys) ∨ Rekeys p keys box := by
  refine (mem_put_boxes inside).imp_right fun ⟨w,there,named,same⟩ => ?_
  obtain ⟨signed,draw,published,sealed_to⟩ := made w there
  exact ⟨ark,account_id,_,_,draw,w,addressed.record keys mine signed (named ▸ published),sealed_to,same⟩

theorem Addressed.put_boxes (addressed : Addressed p devices shelf) {wraps : List RewrappedKey} {ark : AccountRootKey}
    {new_epoch : UInt32} (made : ∀ w ∈ wraps, ∃ signed draw, Published p shelf w.device_id signed ∧
      p.rewrap ark account_id new_epoch ⟨w.device_id,signed.record.x25519_pub⟩ draw = .ok w) :
    Addressed p devices (put_boxes hash wraps shelf) := by
  refine ⟨fun keys mine signed published => ?_,fun keys mine box inside => ?_⟩
  · exact addressed.record keys mine signed ((published_congr (records_put_boxes wraps shelf) _ _).mp published)
  · rcases addressed.rekeys mine made inside with old | rekeys
    · exact addressed.boxes keys mine box old
    · exact .inr rekeys

/-- A call keeps what was delivered, if it vouches for the device only as it says. -/
theorem Delivered.step {d : String} (delivered : Delivered p devices d history shelf) (addressed : Addressed p devices after)
    (attested : ∀ a ∈ after.attestations, a ∈ shelf.attestations ∨ ∃ signer kind subject key_epoch issued_at,
      a = (p.sign_attestation signer kind subject key_epoch issued_at).to_bytes ∧
        p.device_id_from_ed25519 subject.ed25519_pub = subject.device_id ∧
        (kind = .Trust → subject.device_id = d →
          ∃ given, call.approval d = some given ∧ given.approver_device_id = p.device_id signer)) :
    Delivered p devices d (history ++ [call]) after := by
  refine ⟨addressed,fun a inside => ?_⟩
  rcases attested a inside with before | ⟨signer,kind,subject,key_epoch,issued_at,same,named,given⟩
  · obtain ⟨signer,kind,subject,key_epoch,issued_at,same,named,given⟩ := delivered.attested a before
    refine ⟨signer,kind,subject,key_epoch,issued_at,same,named,fun trust mine => ?_⟩
    obtain ⟨approval,there,by_signer⟩ := given trust mine
    exact ⟨approval,by simp [there],by_signer⟩
  · refine ⟨signer,kind,subject,key_epoch,issued_at,same,named,fun trust mine => ?_⟩
    obtain ⟨approval,there,by_signer⟩ := given trust mine
    exact ⟨approval,by simp [there],by_signer⟩

/-- What a call keeps, whether it succeeds or fails. -/
theorem delivered_play (honest : Honest relay hash account_id.to_hex view fine) (apart : devices.InjOn p.device_id) {d : String}
    {s : σ} (here : fine s) (delivered : Delivered p devices d history (view s)) (by_devices : call.By devices d) :
    fine (play relay account_id (s,history) call).1 ∧
      Delivered p devices d (play relay account_id (s,history) call).2 (view (play relay account_id (s,history) call).1) := by
  have addressed := delivered.toAddressed
  unfold play
  cases call with
  | bootstrap other key_epoch now_millis =>
    obtain ⟨_,t,ran,here',shelf⟩ := bootstrap_succeeds (p := p) honest here other key_epoch now_millis
    simp only [OnboardingCall.perform,ran]
    refine ⟨here',delivered.step ?_ (fun a inside => ?_)⟩
    · rw [shelf]
      exact (addressed.put_record apart by_devices.1 now_millis).append_attestation _
    · rw [shelf] at inside
      refine (mem_deposit inside).imp_right fun new => ⟨other,.Trust,_,key_epoch,now_millis,new,rfl,fun _ self => ?_⟩
      exact absurd self by_devices.2
  | enroll_publish other now_millis =>
    obtain ⟨_,t,ran,here',shelf⟩ := enroll_publish_succeeds (p := p) honest here other now_millis
    simp only [OnboardingCall.perform,ran]
    refine ⟨here',delivered.step ?_ (fun a inside => .inl ?_)⟩
    · rw [shelf]
      exact addressed.put_record apart by_devices now_millis
    · rwa [shelf] at inside
  | place signed self_signed => exact by_devices.elim
  | approve draw approver ark key_epoch subject_device_id now_millis =>
    rcases approve_succeeds (p := p) honest here draw approver ark key_epoch subject_device_id now_millis with
      ⟨a,t,ran,here',subject,box,published,made,shelf⟩ | ⟨e,failed⟩
    · simp only [OnboardingCall.perform,work_bind,ran]
      show fine t ∧ Delivered p devices d (history ++ [_]) (view t)
      refine ⟨here',delivered.step ?_ (fun a inside => ?_)⟩
      · rw [shelf]
        exact (addressed.put_wrap published made).append_attestation _
      · rw [shelf] at inside
        refine (mem_deposit inside).imp_right fun new => ⟨approver,.Trust,subject.record,key_epoch,now_millis,new,
          published.named.2,fun _ me => ⟨⟨p.device_id approver,ark,key_epoch⟩,?_,rfl⟩⟩
        exact if_pos (published.named.1.symm.trans me)
    · simp only [OnboardingCall.perform,work_bind,failed]
      exact ⟨here,delivered⟩
  | revoke draws approver ark epoch revoked_device_id now_millis =>
    rcases revoke_succeeds (p := p) honest here draws approver ark epoch revoked_device_id now_millis with
      ⟨a,t,ran,here',revoked,wraps,published,-,-,made,shelf⟩ | ⟨e,failed⟩
    · simp only [OnboardingCall.perform,work_bind,ran]
      show fine t ∧ Delivered p devices d (history ++ [_]) (view t)
      have attestations : (put_boxes hash wraps (view s)).attestations = (view s).attestations := attestations_put_boxes wraps (view s)
      refine ⟨here',delivered.step ?_ (fun a inside => ?_)⟩
      · rw [shelf]
        exact (addressed.put_boxes made).append_attestation _
      · rw [shelf] at inside
        have there := mem_deposit inside
        rw [attestations] at there
        exact there.imp_right fun new => ⟨approver,.Revoke,revoked.record,_,now_millis,new,published.named.2,fun trust => by cases trust⟩
    · simp only [OnboardingCall.perform,work_bind,failed]
      exact ⟨here,delivered⟩

/-- In every run the device gets what the calls before say. -/
theorem delivered_run (honest : Honest relay hash account_id.to_hex view fine) (apart : devices.InjOn p.device_id) {d : String}
    {start : σ} (here : fine start) (before : Delivered p devices d [] (view start))
    {calls : List (OnboardingCall p)} (by_devices : ∀ call ∈ calls, call.By devices d) :
    let reached := calls.foldl (play relay account_id) (start,[])
    fine reached.1 ∧ Delivered p devices d reached.2 (view reached.1) := by
  induction calls using List.reverseRecOn with
  | nil => exact ⟨here,before⟩
  | append_singleton calls call ih =>
    have earlier := ih fun call inside => by_devices call (by simp [inside])
    rw [List.foldl_append]
    exact delivered_play honest apart earlier.1 earlier.2 (by_devices call (by simp))

end

/-! ### What a device accepts after a run -/

section
variable {p : Primitives} {keys : DeviceKeypairs} {devices : Set DeviceKeypairs} {history : List (OnboardingCall p)}
  {shelf : Shelf} {a box : List UInt8} {d : String}

theorem Addressed.length_box (lawful : p.Lawful) (addressed : Addressed p devices shelf) (mine : keys ∈ devices)
    (inside : box ∈ shelf.mailbox (p.device_id keys)) : box.length ≤ 1000 := by
  rcases addressed.boxes keys mine box inside with ⟨bundle,draw,made⟩ | ⟨ark,account_id,epoch,r,draw,wrapped,-,made,rfl⟩
  · rw [Primitives.length_seal_to lawful made]
    simp [KEY_LEN,NONCE_LEN,TAG_LEN]
  · obtain ⟨box,sealed_to,same⟩ := bind_ok.mp made
    cases same
    rw [Primitives.length_seal_to lawful sealed_to]
    simp [rewrap_plaintext,KEY_LEN,NONCE_LEN,TAG_LEN]

theorem Delivered.length_attestation (delivered : Delivered p devices d history shelf) (inside : a ∈ shelf.attestations) :
    a.length ≤ 1000 := by
  obtain ⟨signer,kind,subject,key_epoch,issued_at,rfl,named,-⟩ := delivered.attested a inside
  have ids : (utf8 (p.device_id signer)).length = 32 ∧ (utf8 subject.device_id).length = 32 :=
    ⟨Primitives.length_device_id _,named ▸ Primitives.length_device_id _⟩
  rw [SignedAttestation.length_to_bytes]
  simp only [Primitives.sign_attestation,ids]
  omega

/-- Whom a device takes for its approver gave it an approval. -/
theorem Delivered.truster (lawful : p.Lawful) (delivered : Delivered p devices (p.device_id keys) history shelf) (inside : a ∈ shelf.attestations)
    {signer : String} (trusts : p.truster (p.device_id keys) a = some signer) :
    (∃ signer, Grants p (p.device_id keys) signer a) ∧
      ∃ given ∈ approvals (p.device_id keys) history, given.approver_device_id = signer := by
  obtain ⟨by_signer,kind,subject,key_epoch,issued_at,rfl,named,given⟩ := delivered.attested a inside
  obtain ⟨signed,verified,trust,mine,signs⟩ := Primitives.truster_eq.mp trusts
  rw [Primitives.verified_sign_attestation lawful by_signer kind named] at verified
  cases verified
  obtain rfl : kind = .Trust := trust
  obtain ⟨approval,there,same⟩ := given rfl mine
  exact ⟨⟨by_signer,subject,key_epoch,issued_at,mine,rfl⟩,approval,there,same.trans signs⟩

theorem Delivered.granted (lawful : p.Lawful) (delivered : Delivered p devices (p.device_id keys) history shelf) (inside : a ∈ shelf.attestations)
    {signer : DeviceKeypairs} (grants : Grants p (p.device_id keys) signer a) :
    p.truster (p.device_id keys) a = some (p.device_id signer) := by
  obtain ⟨subject,key_epoch,issued_at,mine,same⟩ := grants
  obtain ⟨by_signer,kind,subject',key_epoch',issued_at',same',named,-⟩ := delivered.attested a inside
  have short (keys : DeviceKeypairs) : (utf8 (p.device_id keys)).length < 2 ^ 32 := by simp [Primitives.device_id]
  have read : SignedAttestation.from_bytes a = .ok (p.attest_trust signer subject key_epoch issued_at) := by
    rw [same]
    refine SignedAttestation.from_bytes_to_bytes (short signer) ?_
    show (utf8 subject.device_id).length < _
    rw [mine]
    exact short keys
  have verified := Primitives.verified_sign_attestation lawful by_signer kind named key_epoch' issued_at'
  rw [← same'] at verified
  obtain ⟨read',-⟩ := Primitives.verified_eq.mp verified
  rw [← Except.ok.inj (read.symm.trans read')] at verified
  exact Primitives.truster_eq.mpr ⟨_,verified,rfl,mine,rfl⟩

end

open SyncStore HttpRelay in
/-- What a device accepts over HTTP is on the first pages, which are not too large. -/
theorem accept_first_pages {p : Primitives} (lawful : p.Lawful) {account_id : AccountId} {keys : DeviceKeypairs} {store : SyncStore}
    (filed : store.Filed p.ct_hash account_id.to_hex) {history : List (OnboardingCall p)}
    {devices : Set DeviceKeypairs} (mine : keys ∈ devices)
    (delivered : Delivered p devices (p.device_id keys) history (store.shelf account_id.to_hex)) {accepted : Accepted} {t : SyncStore} :
    (httpRelay p).accept p account_id keys store = .ok accepted t ↔ t = store ∧
      (((store.shelf account_id.to_hex).mailbox (p.device_id keys)).take HttpRelay.DEFAULT_LIMIT).findSome? (p.opened keys) =
        some accepted.bundle ∧ accepted.bundle.account_id = account_id ∧
      accepted.approver_device_id =
        ((store.shelf account_id.to_hex).attestations.take HttpRelay.DEFAULT_LIMIT).findSome? (p.truster (p.device_id keys)) := by
  have boxes : bundles_len _ _ ≤ _ := bundles_fit (filed.bundles (p.device_id keys)) fun row inside =>
    delivered.length_box lawful mine (List.mem_map_of_mem inside)
  have attested : attestations_len _ _ ≤ _ := attestations_fit filed.attestations fun row inside =>
    delivered.length_attestation (List.mem_map_of_mem inside)
  have listed := http_wraps_list (d := p.device_id keys) filed
  have listed' := http_attestations_list filed
  rw [response_json,if_pos boxes] at listed
  rw [response_json,if_pos attested] at listed'
  simp only [SyncStore.shelf,← List.map_take,List.findSome?_map]
  rw [accept_ok]
  constructor
  · rintro ⟨wraps,r,attestations,found,found',opens,mine,vouched⟩
    cases listed.symm.trans found
    cases listed'.symm.trans found'
    rw [List.findSome?_map] at opens vouched
    exact ⟨rfl,opens,mine,vouched⟩
  · rintro ⟨rfl,opens,mine,vouched⟩
    refine ⟨_,t,_,listed,listed',?_,mine,?_⟩
    · rw [List.findSome?_map]
      exact opens
    · rw [List.findSome?_map]
      exact vouched

open SyncStore HttpRelay in
/-- A device that has been approved gets the root key and the epoch of its latest approval
    over HTTP, with the id of a device that approved it, if and only if the first bundle on
    the first page of its mailbox is one with them and an attestation on the first page of
    the account grants it trust. -/
theorem accept_http {p : Primitives} (lawful : p.Lawful) (account_id : AccountId) {devices : Set DeviceKeypairs}
    (apart : devices.InjOn p.device_id) {keys : DeviceKeypairs} (mine : keys ∈ devices) (quota : QuotaConfig)
    (prior : List SyncStore.Call) {calls : List (OnboardingCall p)}
    (before : Delivered p devices (p.device_id keys) [] ((prior.foldl (serve p.ct_hash) (fresh quota)).shelf account_id.to_hex))
    (by_devices : ∀ call ∈ calls, call.By devices (p.device_id keys)) :
    let reached := calls.foldl (play (httpRelay p) account_id) (prior.foldl (serve p.ct_hash) (fresh quota),[])
    ∀ latest, (approvals (p.device_id keys) reached.2).getLast? = some latest →
      ((∃ accepted t, (httpRelay p).accept p account_id keys reached.1 = .ok accepted t ∧
        accepted.bundle = ⟨latest.ark,account_id,latest.key_epoch⟩ ∧
        ∃ given ∈ approvals (p.device_id keys) reached.2, accepted.approver_device_id = some given.approver_device_id) ↔
      FirstEnrols p keys (((reached.1.shelf account_id.to_hex).mailbox (p.device_id keys)).take HttpRelay.DEFAULT_LIMIT)
        ⟨latest.ark,account_id,latest.key_epoch⟩ ∧
      ∃ a ∈ (reached.1.shelf account_id.to_hex).attestations.take HttpRelay.DEFAULT_LIMIT, ∃ signer,
        Grants p (p.device_id keys) signer a) := by
  have start : (prior.foldl (serve p.ct_hash) (fresh quota)).Filed p.ct_hash account_id.to_hex :=
    filed_run (filed_fresh _ _ quota) prior
  intro reached latest _
  obtain ⟨filed,delivered⟩ := delivered_run (httpRelay_honest p account_id.to_hex) apart start before by_devices
  change Filed p.ct_hash account_id.to_hex reached.1 at filed
  change Delivered p devices (p.device_id keys) reached.2 (reached.1.shelf account_id.to_hex) at delivered
  clear_value reached
  obtain ⟨store,history⟩ := reached
  rw [← findSome_opened lawful
    (fun box inside => delivered.boxes keys mine box (List.mem_of_mem_take (i := HttpRelay.DEFAULT_LIMIT) inside))]
  constructor
  · rintro ⟨accepted,t,ran,same,given,-,approver⟩
    obtain ⟨-,opens,-,vouched⟩ := (accept_first_pages lawful filed mine delivered).mp ran
    rw [approver] at vouched
    obtain ⟨a,inside,trusts⟩ := List.exists_of_findSome?_eq_some vouched.symm
    exact ⟨same ▸ opens,a,inside,(delivered.truster lawful (List.mem_of_mem_take inside) trusts).1⟩
  · rintro ⟨opens,a,inside,signer,grants⟩
    have trusts := delivered.granted lawful (List.mem_of_mem_take inside) grants
    cases vouched : ((store.shelf account_id.to_hex).attestations.take HttpRelay.DEFAULT_LIMIT).findSome?
        (p.truster (p.device_id keys)) with
    | none =>
      rw [List.findSome?_eq_none_iff.mp vouched a inside] at trusts
      cases trusts
    | some approver =>
      obtain ⟨a',inside',trusts'⟩ := List.exists_of_findSome?_eq_some vouched
      obtain ⟨-,given,there,rfl⟩ := delivered.truster lawful (List.mem_of_mem_take inside') trusts'
      exact ⟨⟨⟨latest.ark,account_id,latest.key_epoch⟩,some given.approver_device_id⟩,store,
        (accept_first_pages lawful filed mine delivered).mpr ⟨rfl,opens,rfl,vouched.symm⟩,rfl,given,there,rfl⟩

/-! ### A second approval -/

section
open SyncStore

def twoDevices : Set DeviceKeypairs := {device 1,device 2}

theorem ids_apart : plainPrimitives.device_id (device 1) ≠ plainPrimitives.device_id (device 2) := by decide +kernel

theorem injOn_twoDevices : twoDevices.InjOn plainPrimitives.device_id := by
  simp [twoDevices,Set.InjOn,ids_apart,ids_apart.symm]

/-- The first device publishes its record and approves the second one in these epochs. -/
def approving (epochs : List UInt32) : List (OnboardingCall plainPrimitives) :=
  enlisting ++ epochs.map (fun epoch => .approve drawn (device 1) rootKey epoch (idOf 2) 0)

/-- What there is after these approvals, on a server that was empty. -/
def approvedIn (epochs : List UInt32) : SyncStore × List (OnboardingCall plainPrimitives) :=
  (approving epochs).foldl (play (httpRelay plainPrimitives) library) (fresh ⟨0,0⟩,[])

theorem delivered_fresh :
    Delivered plainPrimitives twoDevices (plainPrimitives.device_id (device 2)) [] ((fresh ⟨0,0⟩).shelf library.to_hex) where
  record keys mine signed published := by
    obtain ⟨bytes,found,-⟩ := published
    cases found
  boxes keys mine box inside := by cases inside
  attested a inside := by cases inside

theorem approving_by (epochs : List UInt32) : ∀ call ∈ approving epochs, call.By twoDevices (plainPrimitives.device_id (device 2)) := by
  simp [approving,enlisting,twoDevices,OnboardingCall.By,ids_apart]

theorem accept_http_once : FirstEnrols plainPrimitives (device 2)
      ((((approvedIn [3]).1.shelf library.to_hex).mailbox (plainPrimitives.device_id (device 2))).take HttpRelay.DEFAULT_LIMIT)
      ⟨rootKey,library,3⟩ ∧
    ∃ a ∈ ((approvedIn [3]).1.shelf library.to_hex).attestations.take HttpRelay.DEFAULT_LIMIT, ∃ signer,
      Grants plainPrimitives (plainPrimitives.device_id (device 2)) signer a := by
  have ran : (answer ((httpRelay plainPrimitives).accept plainPrimitives library (device 2) (approvedIn [3]).1)).any
      (fun accepted => accepted = ⟨⟨rootKey,library,3⟩,some (idOf 1)⟩) := by decide +kernel
  have given : (approvals (plainPrimitives.device_id (device 2)) (approvedIn [3]).2).getLast? = some ⟨idOf 1,rootKey,3⟩ := by
    decide +kernel
  obtain ⟨accepted,t,ran,same⟩ := answer_any ran
  refine (accept_http plainPrimitives_lawful library injOn_twoDevices (show device 2 ∈ twoDevices by simp [twoDevices]) ⟨0,0⟩ []
    delivered_fresh (approving_by [3]) ⟨idOf 1,rootKey,3⟩ given).mp ⟨accepted,t,ran,?_⟩
  rw [decide_eq_true_eq] at same
  subst same
  exact ⟨rfl,⟨idOf 1,rootKey,3⟩,List.mem_of_getLast? given,rfl⟩

/-- A device that is approved again gets the epoch of its first approval. -/
theorem accept_http_stale :
    (approvals (plainPrimitives.device_id (device 2)) (approvedIn [0,1]).2).getLast? = some ⟨idOf 1,rootKey,1⟩ ∧
      ∃ accepted t, (httpRelay plainPrimitives).accept plainPrimitives library (device 2) (approvedIn [0,1]).1 = .ok accepted t ∧
        accepted.bundle = ⟨rootKey,library,0⟩ := by
  have ran : (answer ((httpRelay plainPrimitives).accept plainPrimitives library (device 2) (approvedIn [0,1]).1)).any
      (fun accepted => accepted.bundle = ⟨rootKey,library,0⟩) := by decide +kernel
  obtain ⟨accepted,t,ran,same⟩ := answer_any ran
  exact ⟨by decide +kernel,accepted,t,ran,of_decide_eq_true same⟩

end

end Pergamon
