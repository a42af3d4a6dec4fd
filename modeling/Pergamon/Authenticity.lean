import Pergamon.Handover

/-!
Enrolment over a relay that lists what it likes. A box opens for whoever holds the secret
key, whoever sealed it, and an attestation verifies under the key that it brings along: so
the relay can seal a bundle of its own to a device and vouch for it.

What a device accepts comes from an approval if and only if the first box that opens and
the first attestation that grants trust are ones that devices of an account made for it
(`accept_authentic`).
-/
namespace Pergamon
open Fallible

/-! ### What calls make for a device -/

/-- A call with the account that it is for. -/
structure AccountCall (p : Primitives) where
  account_id : AccountId
  call : OnboardingCall p

namespace AccountCall
variable {p : Primitives}

/-- The bundle that an approval hands to the device. -/
def bundle (keys : DeviceKeypairs) (made : AccountCall p) : Option EnrollmentBundle :=
  match made.call with
  | .approve _ _ ark key_epoch d _ => if d = p.device_id keys then some ⟨ark,made.account_id,key_epoch⟩ else none
  | _ => none

/-- The box that an approval seals to the keys of the device. -/
def box (keys : DeviceKeypairs) (made : AccountCall p) : Option (List UInt8) :=
  match made.call with
  | .approve draw _ ark key_epoch d _ =>
    if d = p.device_id keys then
      (p.seal_enrollment_bundle draw (p.x25519_pub keys) d ark made.account_id key_epoch).toOption
    else none
  | _ => none

/-- Who approves the device, or is the device and creates the account. -/
def voucher (keys : DeviceKeypairs) (made : AccountCall p) : Option DeviceKeypairs :=
  match made.call with
  | .approve _ approver _ _ d _ => if d = p.device_id keys then some approver else none
  | .bootstrap founder _ _ => if p.device_id founder = p.device_id keys then some founder else none
  | _ => none

/-- The attestation with which the device is vouched for. -/
def attestation (keys : DeviceKeypairs) (made : AccountCall p) : Option (List UInt8) :=
  match made.call with
  | .approve _ approver _ key_epoch d now_millis =>
    if d = p.device_id keys then
      some (p.attest_trust approver (p.sign_record keys now_millis).record key_epoch now_millis).to_bytes
    else none
  | .bootstrap founder key_epoch now_millis =>
    if p.device_id founder = p.device_id keys then
      some (p.attest_trust founder (p.sign_record founder now_millis).record key_epoch now_millis).to_bytes
    else none
  | _ => none

variable {keys signer : DeviceKeypairs} {made : AccountCall p} {bytes : List UInt8} {opens : EnrollmentBundle}

/-- A box of an approval opens for the device and has its bundle. -/
theorem opened_box (lawful : p.Lawful) (mine : made.box keys = some bytes) :
    ∃ bundle, made.bundle keys = some bundle ∧ p.opened keys bytes = some bundle := by
  obtain ⟨id,call⟩ := made
  cases call with
  | approve draw approver ark key_epoch d now_millis =>
    simp only [box,Option.ite_none_right_eq_some] at mine
    obtain ⟨rfl,mine⟩ := mine
    refine ⟨⟨ark,id,key_epoch⟩,if_pos rfl,?_⟩
    cases sealed_to : p.seal_enrollment_bundle draw (p.x25519_pub keys) (p.device_id keys) ark id key_epoch with
    | error e =>
      rw [sealed_to] at mine
      cases mine
    | ok box =>
      rw [sealed_to] at mine
      cases mine
      exact Enrols.opened lawful ⟨draw,sealed_to⟩
  | _ => cases mine

/-- An attestation that was made for the device grants it the trust of its voucher. -/
theorem truster_attestation (lawful : p.Lawful) (mine : made.attestation keys = some bytes) :
    ∃ signer, made.voucher keys = some signer ∧ p.truster (p.device_id keys) bytes = some (p.device_id signer) := by
  have grants (signer subject : DeviceKeypairs) (same : p.device_id subject = p.device_id keys) (key_epoch : UInt32) (now_millis : Int64) :
      p.truster (p.device_id keys) (p.attest_trust signer (p.sign_record subject now_millis).record key_epoch now_millis).to_bytes =
        some (p.device_id signer) :=
    Primitives.truster_eq.mpr ⟨_,Primitives.verified_sign_attestation lawful signer .Trust rfl key_epoch now_millis,rfl,same,rfl⟩
  obtain ⟨id,call⟩ := made
  cases call with
  | approve draw approver ark key_epoch d now_millis =>
    simp only [attestation,Option.ite_none_right_eq_some,Option.some.injEq] at mine
    obtain ⟨rfl,rfl⟩ := mine
    exact ⟨approver,if_pos rfl,grants approver keys rfl key_epoch now_millis⟩
  | bootstrap founder key_epoch now_millis =>
    simp only [attestation,Option.ite_none_right_eq_some,Option.some.injEq] at mine
    obtain ⟨same,rfl⟩ := mine
    exact ⟨founder,if_pos same,grants founder founder same key_epoch now_millis⟩
  | _ => cases mine

end AccountCall

/-! ### What a relay lists -/

section
variable {σ : Type} (p : Primitives) (made : List (AccountCall p)) (keys : DeviceKeypairs)

/-- The lists that a device asks for when it accepts. -/
def lists_for (relay : RelayTransport σ) (account_id : AccountId) : EStateM SyncError σ (List (List UInt8) × List (List UInt8)) := do
  let wraps ← relay.wraps_list account_id.to_hex (p.device_id keys) 0
  let listed ← relay.attestations_list account_id.to_hex 0
  return (wraps.map RelayWrap.bundle,listed.map RelayAttestation.attestation)

/-- What the relay lists to a device that accepts. -/
def ListsTo (relay : RelayTransport σ) (account_id : AccountId) (s : σ) (boxes attestations : List (List UInt8)) : Prop :=
  ∃ t, lists_for p keys relay account_id s = .ok (boxes,attestations) t

/-- The first box that opens for the device and the first attestation that grants it trust
    were made for it, if the bundle is one of the account. -/
def Genuine (account_id : AccountId) (boxes attestations : List (List UInt8)) : Prop :=
  ∀ box, boxes.find? (fun box => (p.opened keys box).isSome) = some box →
    (∀ bundle ∈ p.opened keys box, bundle.account_id = account_id) →
    box ∈ made.filterMap (AccountCall.box keys) ∧
    ∀ a, attestations.find? (fun a => (p.truster (p.device_id keys) a).isSome) = some a →
      a ∈ made.filterMap (AccountCall.attestation keys)

/-- Nobody else can make a box with the bundle of an approval, or an attestation that
    verifies under the key of a device that has vouched. -/
structure Unforged (boxes attestations : List (List UInt8)) : Prop where
  secret : ∀ box ∈ boxes, ∀ bundle ∈ p.opened keys box, bundle ∈ made.filterMap (AccountCall.bundle keys) →
    box ∈ made.filterMap (AccountCall.box keys)
  signed : ∀ a ∈ attestations, ∀ signer ∈ made.filterMap (AccountCall.voucher keys),
    p.truster (p.device_id keys) a = some (p.device_id signer) → a ∈ made.filterMap (AccountCall.attestation keys)

/-- The bundle is that of an approval of the device, and its approver has approved it, or
    is the device itself and has created the account. -/
def Authentic (accepted : Accepted) : Prop :=
  accepted.bundle ∈ made.filterMap (AccountCall.bundle keys) ∧
    ∀ id ∈ accepted.approver_device_id, ∃ signer ∈ made.filterMap (AccountCall.voucher keys), p.device_id signer = id

end

theorem findSome_eq_find {α β : Type} (f : α → Option β) (l : List α) :
    l.findSome? f = (l.find? (fun a => (f a).isSome)).bind f := by
  induction l with
  | nil => rfl
  | cons a l ih => cases found : f a <;> simp [found,ih]

section
variable {σ : Type} {relay : RelayTransport σ} {p : Primitives} {made : List (AccountCall p)} {keys : DeviceKeypairs}
  {account_id : AccountId} {boxes attestations : List (List UInt8)} {s : σ}

/-- A device accepts what is first on the lists. -/
theorem accept_lists {accepted : Accepted} : (∃ t, relay.accept p account_id keys s = .ok accepted t) ↔
    ∃ boxes attestations, ListsTo p keys relay account_id s boxes attestations ∧
      boxes.findSome? (p.opened keys) = some accepted.bundle ∧ accepted.bundle.account_id = account_id ∧
      accepted.approver_device_id = attestations.findSome? (p.truster (p.device_id keys)) := by
  constructor
  · rintro ⟨t,ran⟩
    obtain ⟨wraps,r,listed,found,found',opens,mine,vouched⟩ := accept_ok.mp ran
    refine ⟨_,_,⟨t,work_bind_ok.mpr ⟨wraps,r,found,work_bind_ok.mpr ⟨listed,t,found',rfl⟩⟩⟩,?_,mine,?_⟩
    · rw [List.findSome?_map]
      exact opens
    · rw [List.findSome?_map]
      exact vouched
  · rintro ⟨boxes,attestations,⟨t,lists⟩,opens,mine,vouched⟩
    obtain ⟨wraps,r,found,rest⟩ := work_bind_ok.mp lists
    obtain ⟨listed,t',found',same⟩ := work_bind_ok.mp rest
    cases same
    rw [List.findSome?_map] at opens vouched
    exact ⟨t,accept_ok.mpr ⟨wraps,r,listed,found,found',opens,mine,vouched⟩⟩

/-- What is accepted from lists whose first entries were made for the device. -/
theorem Genuine.authentic (lawful : p.Lawful) (genuine : Genuine p made keys account_id boxes attestations) {accepted : Accepted}
    (opens : boxes.findSome? (p.opened keys) = some accepted.bundle) (mine : accepted.bundle.account_id = account_id)
    (vouched : accepted.approver_device_id = attestations.findSome? (p.truster (p.device_id keys))) :
    Authentic p made keys accepted := by
  rw [findSome_eq_find,Option.bind_eq_some_iff] at opens
  obtain ⟨box,first,opened⟩ := opens
  obtain ⟨sealed_by,attested⟩ := genuine box first (by rw [opened]; rintro _ ⟨⟩; exact mine)
  constructor
  · obtain ⟨call,inside,same⟩ := List.mem_filterMap.mp sealed_by
    obtain ⟨bundle,given,opened'⟩ := AccountCall.opened_box lawful same
    cases opened.symm.trans opened'
    exact List.mem_filterMap.mpr ⟨call,inside,given⟩
  · intro id named
    rw [vouched,findSome_eq_find,Option.mem_def,Option.bind_eq_some_iff] at named
    obtain ⟨a,first,trusts⟩ := named
    obtain ⟨call,inside,same⟩ := List.mem_filterMap.mp (attested a first)
    obtain ⟨signer,voucher,trusts'⟩ := AccountCall.truster_attestation lawful same
    exact ⟨signer,List.mem_filterMap.mpr ⟨call,inside,voucher⟩,Option.some.inj (trusts'.symm.trans trusts)⟩

/-- If it is authentic and nothing is forged, then the first entries were made for the device. -/
theorem Authentic.genuine (unforged : Unforged p made keys boxes attestations)
    (authentic : ∀ accepted : Accepted, boxes.findSome? (p.opened keys) = some accepted.bundle →
      accepted.bundle.account_id = account_id →
      accepted.approver_device_id = attestations.findSome? (p.truster (p.device_id keys)) → Authentic p made keys accepted) :
    Genuine p made keys account_id boxes attestations := by
  intro box first mine
  obtain ⟨bundle,opened⟩ := Option.isSome_iff_exists.mp (by simpa using List.find?_some first)
  have accepted := authentic ⟨bundle,attestations.findSome? (p.truster (p.device_id keys))⟩
    (by rw [findSome_eq_find,first]; exact opened) (mine bundle opened) rfl
  refine ⟨unforged.secret box (List.mem_of_find?_eq_some first) bundle opened accepted.1,fun a first' => ?_⟩
  obtain ⟨id,trusts⟩ := Option.isSome_iff_exists.mp (by simpa using List.find?_some first')
  obtain ⟨signer,voucher,rfl⟩ := accepted.2 id (by
    show attestations.findSome? _ = _
    rw [findSome_eq_find,first']
    exact trusts)
  exact unforged.signed a (List.mem_of_find?_eq_some first') signer voucher trusts

end

/-- After any calls over a relay that answers them in any way: what a device accepts is
    authentic if and only if the first box that the relay lists and that opens for the
    device, and the first attestation that grants it trust, were made for it by the calls. -/
theorem accept_authentic {σ : Type} (relay : RelayTransport σ) {p : Primitives} (lawful : p.Lawful) (start : σ)
    (made : List (AccountCall p)) (account_id : AccountId) (keys : DeviceKeypairs) :
    let s := made.foldl (fun s m => leaves (m.call.perform relay m.account_id s)) start
    (∀ boxes attestations, ListsTo p keys relay account_id s boxes attestations → Unforged p made keys boxes attestations) →
    ((∀ accepted t, relay.accept p account_id keys s = .ok accepted t → Authentic p made keys accepted) ↔
      ∀ boxes attestations, ListsTo p keys relay account_id s boxes attestations →
        Genuine p made keys account_id boxes attestations) := by
  intro s unforged
  constructor
  · intro authentic boxes attestations lists
    refine Authentic.genuine (unforged boxes attestations lists) fun accepted opens mine vouched => ?_
    obtain ⟨t,ran⟩ := accept_lists.mpr ⟨boxes,attestations,lists,opens,mine,vouched⟩
    exact authentic accepted t ran
  · intro genuine accepted t ran
    obtain ⟨boxes,attestations,lists,opens,mine,vouched⟩ := accept_lists.mp ⟨t,ran⟩
    exact (genuine boxes attestations lists).authentic lawful opens mine vouched

/-! ### A relay that enrols a device with itself -/

section

/-- The first device publishes its record and approves the second one. -/
def approvedOnce : List (AccountCall plainPrimitives) := (approving [3]).map (⟨library,·⟩)

def served (made : List (AccountCall plainPrimitives)) (relay : RelayTransport MemoryRelay.Accounts) : MemoryRelay.Accounts :=
  made.foldl (fun s m => leaves (m.call.perform relay m.account_id s)) ∅

theorem accept_authentic_once : ∃ accepted t, (memoryRelay plainPrimitives).accept plainPrimitives library (device 2)
    (served approvedOnce (memoryRelay plainPrimitives)) = .ok accepted t ∧
      Authentic plainPrimitives approvedOnce (device 2) accepted := by
  have ran : (answer ((memoryRelay plainPrimitives).accept plainPrimitives library (device 2)
      (served approvedOnce (memoryRelay plainPrimitives)))).any (fun _ => true) := by decide +kernel
  have made : (answer (lists_for plainPrimitives (device 2) (memoryRelay plainPrimitives) library
      (served approvedOnce (memoryRelay plainPrimitives)))).any (fun (boxes,attestations) =>
        boxes.all (· ∈ approvedOnce.filterMap (AccountCall.box (device 2))) &&
        attestations.all (fun a => (plainPrimitives.truster (idOf 2) a).isNone ||
          a ∈ approvedOnce.filterMap (AccountCall.attestation (device 2)))) := by decide +kernel
  obtain ⟨⟨boxes,attestations⟩,t,listed,both⟩ := answer_any made
  obtain ⟨ours,ours'⟩ := Bool.and_eq_true_iff.mp both
  have all {boxes' attestations'} (lists : ListsTo plainPrimitives (device 2) (memoryRelay plainPrimitives) library
      (served approvedOnce (memoryRelay plainPrimitives)) boxes' attestations') :
      (∀ box ∈ boxes', box ∈ approvedOnce.filterMap (AccountCall.box (device 2))) ∧ ∀ a ∈ attestations',
        (plainPrimitives.truster (idOf 2) a).isSome → a ∈ approvedOnce.filterMap (AccountCall.attestation (device 2)) := by
    obtain ⟨t',lists⟩ := lists
    cases listed.symm.trans lists
    refine ⟨fun box inside => of_decide_eq_true (List.all_eq_true.mp ours box inside),fun a inside trusts => ?_⟩
    have here := List.all_eq_true.mp ours' a inside
    rw [Option.isNone_eq_false_iff.mpr trusts,Bool.false_or] at here
    exact of_decide_eq_true here
  obtain ⟨accepted,t,ran,-⟩ := answer_any ran
  refine ⟨accepted,t,ran,?_⟩
  refine (accept_authentic (memoryRelay plainPrimitives) plainPrimitives_lawful ∅ approvedOnce library (device 2) ?_).mpr ?_ accepted t ran
  · intro boxes attestations lists
    refine ⟨fun box inside _ _ _ => (all lists).1 box inside,fun a inside signer _ trusts => ?_⟩
    exact (all lists).2 a inside (Option.isSome_iff_exists.mpr ⟨_,trusts⟩)
  · intro boxes attestations lists box first _
    refine ⟨(all lists).1 box (List.mem_of_find?_eq_some first),fun a first' => ?_⟩
    have trusts : (plainPrimitives.truster (plainPrimitives.device_id (device 2)) a).isSome := by simpa using List.find?_some first'
    exact (all lists).2 a (List.mem_of_find?_eq_some first') trusts

/-- The key pairs of a relay and the root key of its own library. -/
def relayKeys : DeviceKeypairs := device 66
def relayRootKey : AccountRootKey := ⟨.replicate KEY_LEN 67⟩

/-- The relay reads the record that a device has published, seals its own root key to the
    device and vouches for it. -/
def forgingRelay : RelayTransport MemoryRelay.Accounts where
  __ := memoryRelay plainPrimitives
  wraps_list _ d _ := do
    let record ← (memoryRelay plainPrimitives).fetch_device_record plainPrimitives library d
    let box ← run_crypto "" (plainPrimitives.seal_enrollment_bundle drawn record.record.x25519_pub d relayRootKey library 0)
    return [⟨1,box⟩]
  attestations_list _ _ := do
    let records ← (memoryRelay plainPrimitives).roster plainPrimitives library
    return records.map (fun record => ⟨1,(plainPrimitives.attest_trust relayKeys record.record 0 0).to_bytes⟩)

/-- A device that nobody has approved accepts the root key of the relay. -/
theorem accept_forged :
    let made : List (AccountCall plainPrimitives) := [⟨library,.enroll_publish (device 2) 0⟩]
    (∀ boxes attestations, Unforged plainPrimitives made (device 2) boxes attestations) ∧
      ∃ accepted t, forgingRelay.accept plainPrimitives library (device 2) (served made forgingRelay) = .ok accepted t ∧
        accepted = ⟨⟨relayRootKey,library,0⟩,some (plainPrimitives.device_id relayKeys)⟩ ∧
        ¬ Authentic plainPrimitives made (device 2) accepted := by
  intro made
  have ran : (answer (forgingRelay.accept plainPrimitives library (device 2) (served made forgingRelay))).any (fun accepted =>
      accepted = ⟨⟨relayRootKey,library,0⟩,some (plainPrimitives.device_id relayKeys)⟩) := by decide +kernel
  obtain ⟨accepted,t,ran,same⟩ := answer_any ran
  refine ⟨fun boxes attestations => ⟨nofun,nofun⟩,accepted,t,ran,of_decide_eq_true same,?_⟩
  rintro ⟨approved,-⟩
  cases approved

end

end Pergamon
