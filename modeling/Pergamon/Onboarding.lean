import Pergamon.Enrollment
import Pergamon.Push

/-!
Onboarding as the devices of an account drive it over a relay. A first device founds the
account, another publishes its record and is approved: it finds a bundle that is sealed
to it, and an attestation. A revocation seals the key of the next epoch to the other
devices of the roster and is attested, and the current epoch is the greatest one that an
attestation names.

A relay is whatever answers the calls of `RelayTransport`; what it holds is its own
state. What an honest one does is `Honest`.
-/
namespace Pergamon
open Fallible

structure RelayDevice where
  device_id : String
  record : List UInt8
  deriving DecidableEq

structure RelayWrap where
  seq : ℕ
  bundle : List UInt8
  deriving DecidableEq

structure RelayAttestation where
  seq : ℕ
  attestation : List UInt8
  deriving DecidableEq

/-- The calls that a client makes to a relay. -/
structure RelayTransport (σ : Type) where
  device_put (account_id device_id : String) (record : List UInt8) : EStateM SyncError σ Unit
  device_get (account_id device_id : String) : EStateM SyncError σ (Option (List UInt8))
  devices_list (account_id : String) : EStateM SyncError σ (List RelayDevice)
  wrap_put (account_id device_id : String) (bundle : List UInt8) : EStateM SyncError σ ℕ
  wraps_list (account_id device_id : String) (after : ℕ) : EStateM SyncError σ (List RelayWrap)
  attestation_append (account_id : String) (attestation : List UInt8) : EStateM SyncError σ ℕ
  attestations_list (account_id : String) (after : ℕ) : EStateM SyncError σ (List RelayAttestation)
  recovery_put (account_id : String) (blob : List UInt8) : EStateM SyncError σ Unit
  recovery_get (account_id : String) : EStateM SyncError σ (Option (List UInt8))

def crypto_err (what : String) (e : CryptoError) : SyncError := .Protocol (what ++ ": " ++ e.to_string)

/-- Go on with what a pure computation gives, or fail with its error. -/
def run_crypto {σ α : Type} (what : String) : Except CryptoError α → EStateM SyncError σ α
  | .ok a => pure a
  | .error e => throw (crypto_err what e)

structure Accepted where
  bundle : EnrollmentBundle
  approver_device_id : Option String
  deriving DecidableEq

structure Revocation where
  new_epoch : UInt32
  rewrapped_devices : List String
  deriving DecidableEq

namespace Primitives
variable (p : Primitives)

def local_peer (keys : DeviceKeypairs) : EnrollmentPeer := ⟨p.x25519_pub keys,p.ed25519_verifying keys⟩
def record_peer (record : DeviceRecord) : EnrollmentPeer := ⟨record.x25519_pub,record.ed25519_pub⟩

/-- A listed record, if it parses, verifies and is that of the device it is listed for. -/
def listed_record (d : RelayDevice) : Option SignedDeviceRecord :=
  match SignedDeviceRecord.from_bytes d.record with
  | .ok signed => if p.verify_record signed = .ok () ∧ signed.record.device_id = d.device_id then some signed else none
  | .error _ => none

/-- An attestation that parses and verifies. -/
def verified (attestation : List UInt8) : Option SignedAttestation :=
  match SignedAttestation.from_bytes attestation with
  | .ok signed => if p.verify_attestation signed = .ok () then some signed else none
  | .error _ => none

/-- The epoch that a scan holds after an attestation. -/
def advance (epoch : UInt32) (attestation : List UInt8) : UInt32 :=
  match p.verified attestation with
  | some signed => max epoch signed.attestation.key_epoch
  | none => epoch

/-- The signer of an attestation, if it verifies and grants trust to the device. -/
def truster (subject_device_id : String) (attestation : List UInt8) : Option String :=
  match SignedAttestation.from_bytes attestation with
  | .ok signed =>
    if signed.attestation.kind = .Trust ∧ signed.attestation.subject_device_id = subject_device_id ∧
        p.verify_attestation signed = .ok () then some signed.attestation.signer_device_id
    else none
  | .error _ => none

/-- The bundle in a box, if it opens for the device. -/
def opened (keys : DeviceKeypairs) (box : List UInt8) : Option EnrollmentBundle :=
  (p.open_enrollment_bundle keys.x25519_secret (p.device_id keys) box).toOption

variable {p}

theorem verified_eq {attestation : List UInt8} {signed : SignedAttestation} : p.verified attestation = some signed ↔
    SignedAttestation.from_bytes attestation = .ok signed ∧ p.verify_attestation signed = .ok () := by
  unfold verified
  cases SignedAttestation.from_bytes attestation with
  | error e => simp
  | ok signed' => simp only [Option.ite_none_right_eq_some,Option.some.injEq,Except.ok.injEq]; aesop

/-- The granted trust that a scan for a truster looks for. -/
theorem truster_eq {subject_device_id signer : String} {attestation : List UInt8} :
    p.truster subject_device_id attestation = some signer ↔ ∃ signed, p.verified attestation = some signed ∧
      signed.attestation.kind = .Trust ∧ signed.attestation.subject_device_id = subject_device_id ∧
        signed.attestation.signer_device_id = signer := by
  unfold truster verified
  cases SignedAttestation.from_bytes attestation with
  | error e => simp
  | ok signed' => simp only [Option.ite_none_right_eq_some,Option.some.injEq]; aesop

/-- What a device attests of a record that names the id of its key verifies over the wire. -/
theorem verified_sign_attestation (lawful : p.Lawful) (signer : DeviceKeypairs) (kind : AttestationKind)
    {subject : DeviceRecord} (named : p.device_id_from_ed25519 subject.ed25519_pub = subject.device_id)
    (key_epoch : UInt32) (issued_at : Int64) :
    p.verified (p.sign_attestation signer kind subject key_epoch issued_at).to_bytes =
      some (p.sign_attestation signer kind subject key_epoch issued_at) := by
  have short (pub : Bytes KEY_LEN) : (utf8 (p.device_id_from_ed25519 pub)).length < 2 ^ 32 := by simp
  exact verified_eq.mpr ⟨SignedAttestation.from_bytes_to_bytes (short _) (by
    show (utf8 subject.device_id).length < _
    rw [← named]
    exact short _),verify_sign_attestation lawful signer kind named key_epoch issued_at⟩

end Primitives

namespace RelayTransport
variable {σ : Type} (relay : RelayTransport σ) (p : Primitives) (account_id : AccountId)

def enroll_publish (keys : DeviceKeypairs) (now_millis : Int64) : EStateM SyncError σ Unit :=
  relay.device_put account_id.to_hex (p.device_id keys) (p.sign_record keys now_millis).to_bytes

def bootstrap (keys : DeviceKeypairs) (key_epoch : UInt32) (now_millis : Int64) : EStateM SyncError σ Unit := do
  let signed := p.sign_record keys now_millis
  relay.device_put account_id.to_hex (p.device_id keys) signed.to_bytes
  let _ ← relay.attestation_append account_id.to_hex (p.attest_trust keys signed.record key_epoch now_millis).to_bytes

def fetch_device_record (device_id : String) : EStateM SyncError σ SignedDeviceRecord := do
  match ← relay.device_get account_id.to_hex device_id with
  | none => throw (.NotFound ("device record for " ++ device_id))
  | some bytes =>
    let signed ← run_crypto "parsing device record" (SignedDeviceRecord.from_bytes bytes)
    run_crypto "verifying device record" (p.verify_record signed)
    if signed.record.device_id ≠ device_id then
      throw (.Protocol "device record does not match the requested device")
    return signed

def roster : EStateM SyncError σ (List SignedDeviceRecord) := do
  let raw ← relay.devices_list account_id.to_hex
  return raw.filterMap p.listed_record

def sas_against (local_keys : DeviceKeypairs) (peer_device_id : String) : EStateM SyncError σ Sas := do
  let peer ← relay.fetch_device_record p account_id peer_device_id
  return p.sas_compute (p.local_peer local_keys) (Primitives.record_peer peer.record)

/-- Seal the secret of the account to a device and vouch for it. -/
def approve (draw : Option Draw) (approver : DeviceKeypairs) (ark : AccountRootKey) (key_epoch : UInt32)
    (subject_device_id : String) (now_millis : Int64) : EStateM SyncError σ Sas := do
  let subject ← relay.fetch_device_record p account_id subject_device_id
  let sas := p.sas_compute (p.local_peer approver) (Primitives.record_peer subject.record)
  let box ← run_crypto "sealing enrollment bundle" (p.seal_enrollment_bundle draw subject.record.x25519_pub
    subject.record.device_id ark account_id key_epoch)
  let _ ← relay.wrap_put account_id.to_hex subject.record.device_id box
  let _ ← relay.attestation_append account_id.to_hex (p.attest_trust approver subject.record key_epoch now_millis).to_bytes
  return sas

/-- The signer of the first attestation that verifies and grants trust to a device. -/
def find_truster (subject_device_id : String) : EStateM SyncError σ (Option String) := do
  let attestations ← relay.attestations_list account_id.to_hex 0
  return attestations.findSome? (fun a => p.truster subject_device_id a.attestation)

/-- Open the first bundle that opens and look for who vouched. -/
def accept (keys : DeviceKeypairs) : EStateM SyncError σ Accepted := do
  let wraps ← relay.wraps_list account_id.to_hex (p.device_id keys) 0
  if wraps.isEmpty then
    throw (.NotFound ("no enrollment bundle for device " ++ p.device_id keys ++
      " yet; ask a trusted device to approve it"))
  match wraps.findSome? (fun w => p.opened keys w.bundle) with
  | none => throw (.Protocol "no relayed bundle could be opened by this device")
  | some bundle =>
    if bundle.account_id ≠ account_id then
      throw (.Protocol "opened enrollment belongs to a different content account")
    let approver_device_id ← relay.find_truster p account_id (p.device_id keys)
    return ⟨bundle,approver_device_id⟩

/-- Put the boxes of a rotation into the mailboxes. -/
def put_wraps : List RewrappedKey → EStateM SyncError σ Unit
  | [] => pure ()
  | w :: wraps => do
    let _ ← relay.wrap_put account_id.to_hex w.device_id w.box
    put_wraps wraps

/-- `u32::saturating_add(1)`. -/
def next_epoch (epoch : UInt32) : UInt32 := if epoch.toNat < 2 ^ 32 - 1 then epoch + 1 else epoch

/-- Advance the epoch, seal its key to the devices of the roster but the revoked one, and
    attest the revocation. -/
def revoke (draws : ℕ → Option Draw) (approver : DeviceKeypairs) (ark : AccountRootKey) (current_epoch : UInt32)
    (revoked_device_id : String) (now_millis : Int64) : EStateM SyncError σ Revocation := do
  let all ← relay.roster p account_id
  match all.find? (fun r => r.record.device_id = revoked_device_id) with
  | none => throw (.NotFound ("device " ++ revoked_device_id ++ " is not on the roster"))
  | some revoked =>
    let new_epoch := next_epoch current_epoch
    let remaining := all.filter (fun r => r.record.device_id ≠ revoked_device_id)
    let recipients := remaining.map (fun r => (⟨r.record.device_id,r.record.x25519_pub⟩ : RewrapRecipient))
    let (_,wraps) ← run_crypto "re-wrapping epoch key" (p.rotate_and_rewrap draws ark account_id new_epoch recipients)
    relay.put_wraps account_id wraps
    let _ ← relay.attestation_append account_id.to_hex
      (p.attest_revoke approver revoked.record new_epoch now_millis).to_bytes
    return ⟨new_epoch,wraps.map RewrappedKey.device_id⟩

def recovery_publish (salt : Option (Bytes RECOVERY_SALT_LEN)) (nonce : Option (Bytes NONCE_LEN)) (ark : AccountRootKey)
    (secret : List UInt8) : EStateM SyncError σ Unit := do
  let blob ← run_crypto "building recovery blob" (p.enable_recovery salt nonce ark account_id secret)
  relay.recovery_put account_id.to_hex blob.to_bytes

def recover_ark (secret : List UInt8) : EStateM SyncError σ AccountRootKey := do
  match ← relay.recovery_get account_id.to_hex with
  | none => throw (.NotFound "recovery is not enabled for this account")
  | some bytes =>
    let blob ← run_crypto "parsing recovery blob" (RecoveryBlob.from_bytes bytes)
    run_crypto "recovering account key" (p.recover blob account_id secret)

/-- The greatest epoch that a verifiable attestation names. -/
def current_epoch : EStateM SyncError σ UInt32 := do
  let attestations ← relay.attestations_list account_id.to_hex 0
  return attestations.foldl (fun epoch a => p.advance epoch a.attestation) 0

end RelayTransport
end Pergamon
