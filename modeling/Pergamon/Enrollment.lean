import Pergamon.Devices

/-!
The keys of an account and the boxes in which they travel. A device that is approved gets
the root key of the account, its id and the key epoch in a bundle that is sealed to it; a
rotation seals the key of the new epoch to each device that remains; a recovery blob
holds the root key under a key stretched from a secret.

A bundle opens for the device it was sealed to (`open_seal_enrollment_bundle`), and the
box of a rotation never opens as a bundle (`open_rewrapped_fails`).
-/
namespace Pergamon
open Fallible Wire

abbrev ACCOUNT_ID_LEN : ℕ := 16

structure AccountRootKey where
  bytes : Bytes KEY_LEN
  deriving DecidableEq

structure AccountContentKey where
  epoch : UInt32
  key : Bytes KEY_LEN
  deriving DecidableEq

structure AccountId where
  bytes : Bytes ACCOUNT_ID_LEN
  deriving DecidableEq

def AccountId.to_hex (id : AccountId) : String := hex id.bytes.toList

structure EnrollmentPeer where
  x25519_pub : Bytes KEY_LEN
  ed25519_pub : Bytes KEY_LEN
  deriving DecidableEq

def EnrollmentPeer.concat (peer : EnrollmentPeer) : List UInt8 := peer.x25519_pub.toList ++ peer.ed25519_pub.toList

/-- The commitment to the keys of two devices that their owners compare. -/
structure Sas where
  commitment : Bytes 32
  deriving DecidableEq

/-- Twelve decimal digits in groups of four. -/
def Sas.digits (sas : Sas) : String :=
  let code := value (sas.commitment.toList.take 8) % 10 ^ 12
  let s := (Nat.toDigits 10 code).leftpad 12 '0'
  String.ofList (s.take 4) ++ " " ++ String.ofList ((s.drop 4).take 4) ++ " " ++ String.ofList ((s.drop 8).take 4)

structure EnrollmentBundle where
  ark : AccountRootKey
  account_id : AccountId
  key_epoch : UInt32
  deriving DecidableEq

structure RewrapRecipient where
  device_id : String
  x25519_pub : Bytes KEY_LEN
  deriving DecidableEq

/-- The key of an epoch, sealed to a device. -/
structure RewrappedKey where
  device_id : String
  key_epoch : UInt32
  box : List UInt8
  deriving DecidableEq

abbrev RECOVERY_SALT_LEN : ℕ := 16

structure RecoveryBlob where
  salt : Bytes RECOVERY_SALT_LEN
  wrapped : List UInt8
  deriving DecidableEq

def LABEL_ENTITY_REF : List UInt8 := utf8 "pergamon/v1/entity-ref"
def LABEL_ACCOUNT_CONTENT : List UInt8 := utf8 "pergamon/v1/account-content"
def LABEL_EVENT : List UInt8 := utf8 "pergamon/v1/event"
def LABEL_BLOB : List UInt8 := utf8 "pergamon/v1/blob"
def SAS_TAG : List UInt8 := utf8 "pergamon/v1/enrollment-sas"
def BUNDLE_TAG : List UInt8 := utf8 "pergamon/v1/enrollment-bundle"
def ENROLL_AAD_TAG : List UInt8 := utf8 "pergamon/v1/enrollment-aad"
def REWRAP_TAG : List UInt8 := utf8 "pergamon/v1/rewrap-bundle"
def REWRAP_AAD_TAG : List UInt8 := utf8 "pergamon/v1/rewrap-aad"
def RECOVERY_AAD_TAG : List UInt8 := utf8 "pergamon/v1/recovery-aad"

def BUNDLE_PLAINTEXT_LEN : ℕ := BUNDLE_TAG.length + KEY_LEN + ACCOUNT_ID_LEN + 4

@[simp] theorem length_BUNDLE_TAG : BUNDLE_TAG.length = 29 := by decide +kernel
@[simp] theorem length_REWRAP_TAG : REWRAP_TAG.length = 25 := by decide +kernel

/-! ### The bundle of an enrolment -/

def EnrollmentBundle.plaintext (bundle : EnrollmentBundle) : List UInt8 :=
  BUNDLE_TAG ++ bundle.ark.bytes.toList ++ bundle.account_id.bytes.toList ++ u32_be_bytes bundle.key_epoch.toNat

@[simp] theorem EnrollmentBundle.length_plaintext (bundle : EnrollmentBundle) : bundle.plaintext.length = 81 := by
  simp [plaintext,KEY_LEN,ACCOUNT_ID_LEN]

/-- Take a plaintext apart at its offsets. -/
def EnrollmentBundle.of_plaintext (plaintext : List UInt8) : Except CryptoError EnrollmentBundle :=
  if shape : plaintext.length = BUNDLE_PLAINTEXT_LEN ∧ BUNDLE_TAG <+: plaintext then
    let off := BUNDLE_TAG.length
    have long : plaintext.length = off + KEY_LEN + ACCOUNT_ID_LEN + 4 := shape.1
    .ok {
      ark := ⟨(plaintext.drop off).take KEY_LEN,by rw [List.length_take,List.length_drop]; omega⟩
      account_id := ⟨(plaintext.drop (off + KEY_LEN)).take ACCOUNT_ID_LEN,by rw [List.length_take,List.length_drop]; omega⟩
      key_epoch := .ofNat (value ((plaintext.drop (off + KEY_LEN + ACCOUNT_ID_LEN)).take 4)) }
  else .error (.Malformed "malformed enrollment bundle")

theorem EnrollmentBundle.of_plaintext_plaintext (bundle : EnrollmentBundle) : of_plaintext bundle.plaintext = .ok bundle := by
  have size := bundle.ark.bytes.toList_length
  have size' := bundle.account_id.bytes.toList_length
  have first : bundle.plaintext.drop BUNDLE_TAG.length =
      bundle.ark.bytes.toList ++ (bundle.account_id.bytes.toList ++ u32_be_bytes bundle.key_epoch.toNat) := by
    simp only [plaintext,List.append_assoc,List.drop_left]
  have second : bundle.plaintext.drop (BUNDLE_TAG.length + KEY_LEN) =
      bundle.account_id.bytes.toList ++ u32_be_bytes bundle.key_epoch.toNat := by
    rw [← List.drop_drop,first,List.drop_left' size]
  have third : bundle.plaintext.drop (BUNDLE_TAG.length + KEY_LEN + ACCOUNT_ID_LEN) = u32_be_bytes bundle.key_epoch.toNat := by
    rw [← List.drop_drop,second,List.drop_left' size']
  have epoch : UInt32.ofNat (value (u32_be_bytes bundle.key_epoch.toNat)) = bundle.key_epoch := by
    have small := bundle.key_epoch.toNat_lt
    rw [u32_be_bytes_eq small,value_be_bytes,Nat.mod_eq_of_lt (by omega),UInt32.ofNat_toNat]
  unfold of_plaintext
  rw [dif_pos ⟨by simp [BUNDLE_PLAINTEXT_LEN,KEY_LEN,ACCOUNT_ID_LEN],by simp only [plaintext,List.append_assoc]; exact List.prefix_append ..⟩]
  simp only [first,second,third,List.take_left' size,List.take_left' size',
    List.take_of_length_le (Nat.le_of_eq (length_u32_be_bytes _)),epoch]
  rfl

def enrollment_aad (recipient_device_id : String) : List UInt8 := ENROLL_AAD_TAG ++ utf8 recipient_device_id

def rewrap_plaintext (new_epoch : UInt32) (ack : AccountContentKey) : List UInt8 :=
  REWRAP_TAG ++ u32_be_bytes new_epoch.toNat ++ ack.key.toList

def rewrap_aad (account_id : AccountId) (device_id : String) (key_epoch : UInt32) : List UInt8 :=
  REWRAP_AAD_TAG ++ account_id.bytes.toList ++ push_lp (utf8 device_id) ++ u32_be_bytes key_epoch.toNat

def recovery_aad (account_id : AccountId) : List UInt8 := RECOVERY_AAD_TAG ++ account_id.bytes.toList

namespace RecoveryBlob

def to_bytes (blob : RecoveryBlob) : List UInt8 := blob.salt.toList ++ blob.wrapped

def from_bytes (bytes : List UInt8) : Except CryptoError RecoveryBlob :=
  if long : RECOVERY_SALT_LEN < bytes.length then
    .ok ⟨⟨bytes.take RECOVERY_SALT_LEN,by rw [List.length_take]; omega⟩,bytes.drop RECOVERY_SALT_LEN⟩
  else .error (.Malformed "recovery blob too short")

end RecoveryBlob

namespace Primitives
variable (p : Primitives)

def account_stream_key (ark : AccountRootKey) : Bytes KEY_LEN := p.hkdf_key ark.bytes.toList LABEL_ENTITY_REF

def content_key (ark : AccountRootKey) (epoch : UInt32) : AccountContentKey :=
  ⟨epoch,p.hkdf_key ark.bytes.toList (LABEL_ACCOUNT_CONTENT ++ u32_be_bytes epoch.toNat)⟩

def event_key (ack : AccountContentKey) (change_id : String) : Bytes KEY_LEN :=
  p.hkdf_key ack.key.toList (LABEL_EVENT ++ utf8 change_id)

def blob_key (ack : AccountContentKey) (plaintext_hash : Bytes 32) : Bytes KEY_LEN :=
  p.hkdf_key ack.key.toList (LABEL_BLOB ++ plaintext_hash.toList)

/-- The commitment to two peers, in whichever order they are given. -/
def sas_compute (local_peer remote_peer : EnrollmentPeer) : Sas :=
  let a := local_peer.concat
  let b := remote_peer.concat
  if a ≤ b then ⟨p.blake3_hash (SAS_TAG ++ a ++ b)⟩ else ⟨p.blake3_hash (SAS_TAG ++ b ++ a)⟩

def seal_enrollment_bundle (draw : Option Draw) (recipient_x25519_pub : Bytes KEY_LEN) (recipient_device_id : String)
    (ark : AccountRootKey) (account_id : AccountId) (key_epoch : UInt32) : Except CryptoError (List UInt8) :=
  p.seal_to draw recipient_x25519_pub (enrollment_aad recipient_device_id)
    (EnrollmentBundle.plaintext ⟨ark,account_id,key_epoch⟩)

def open_enrollment_bundle (recipient_x25519_secret : Bytes KEY_LEN) (recipient_device_id : String) (box : List UInt8) :
    Except CryptoError EnrollmentBundle := do
  let plaintext ← p.open_sealed recipient_x25519_secret (enrollment_aad recipient_device_id) box
  EnrollmentBundle.of_plaintext plaintext

/-- Seal the key of an epoch to a device. -/
def rewrap (ark : AccountRootKey) (account_id : AccountId) (new_epoch : UInt32) (r : RewrapRecipient) (draw : Option Draw) :
    Except CryptoError RewrappedKey := do
  let box ← p.seal_to draw r.x25519_pub (rewrap_aad account_id r.device_id new_epoch)
    (rewrap_plaintext new_epoch (p.content_key ark new_epoch))
  return ⟨r.device_id,new_epoch,box⟩

/-- Derive the key of the new epoch and seal it to each recipient, with one draw for each. -/
def rotate_and_rewrap (draws : ℕ → Option Draw) (ark : AccountRootKey) (account_id : AccountId) (new_epoch : UInt32)
    (recipients : List RewrapRecipient) : Except CryptoError (AccountContentKey × List RewrappedKey) := do
  let wrapped ← recipients.zipIdx.mapM (fun (r,i) => p.rewrap ark account_id new_epoch r (draws i))
  return (p.content_key ark new_epoch,wrapped)

/-- Wrap the root key under a key stretched from a secret. The salt and the nonce are drawn. -/
def enable_recovery (salt : Option (Bytes RECOVERY_SALT_LEN)) (nonce : Option (Bytes NONCE_LEN)) (ark : AccountRootKey)
    (account_id : AccountId) (secret : List UInt8) : Except CryptoError RecoveryBlob :=
  match salt with
  | none => .error .Random
  | some salt =>
    match p.argon2id_kek secret salt.toList with
    | none => .error .KeyDerivation
    | some kek =>
      match nonce with
      | none => .error .Random
      | some nonce => do
        let wrapped ← p.aead_seal nonce kek (recovery_aad account_id) ark.bytes.toList
        return ⟨salt,wrapped⟩

def recover (blob : RecoveryBlob) (account_id : AccountId) (secret : List UInt8) : Except CryptoError AccountRootKey :=
  match p.argon2id_kek secret blob.salt.toList with
  | none => .error .KeyDerivation
  | some kek => do
    let plaintext ← p.aead_open kek (recovery_aad account_id) blob.wrapped
    if size : plaintext.length = KEY_LEN then .ok ⟨⟨plaintext,size⟩⟩
    else .error (.Malformed "recovered key has wrong length")

variable {p} {keys : DeviceKeypairs} {draw : Option Draw} {box : List UInt8} {ark : AccountRootKey} {account_id : AccountId}
  {key_epoch new_epoch : UInt32} {device_id : String}

/-- A bundle opens for the device that it was sealed to. -/
theorem open_seal_enrollment_bundle (lawful : p.Lawful)
    (made : p.seal_enrollment_bundle draw (p.x25519_pub keys) device_id ark account_id key_epoch = .ok box) :
    p.open_enrollment_bundle keys.x25519_secret device_id box = .ok ⟨ark,account_id,key_epoch⟩ := by
  unfold open_enrollment_bundle
  rw [open_sealed_seal_to lawful made,ok_bind]
  exact EnrollmentBundle.of_plaintext_plaintext _

/-- The box of a rotation does not open as a bundle: its plaintext has another length. -/
theorem open_rewrapped_fails (lawful : p.Lawful) {r : RewrapRecipient} {wrapped : RewrappedKey}
    (made : p.rewrap ark account_id new_epoch r draw = .ok wrapped) (mine : r.x25519_pub = p.x25519_pub keys) :
    ∀ bundle, p.open_enrollment_bundle keys.x25519_secret device_id wrapped.box ≠ .ok bundle := by
  intro bundle opened
  obtain ⟨box,sealed_to,same⟩ := bind_ok.mp made
  cases same
  rw [mine] at sealed_to
  obtain ⟨plaintext,found,parsed⟩ := bind_ok.mp opened
  rw [opens_seal_to lawful sealed_to found,EnrollmentBundle.of_plaintext] at parsed
  split at parsed
  · next shape => simp [rewrap_plaintext,BUNDLE_PLAINTEXT_LEN,KEY_LEN,ACCOUNT_ID_LEN] at shape
  · cases parsed

/-- A rotation seals one box to each recipient, in their order. -/
theorem rotate_and_rewrap_ok {draws : ℕ → Option Draw} {recipients : List RewrapRecipient} {ack : AccountContentKey}
    {wrapped : List RewrappedKey} (rotated : p.rotate_and_rewrap draws ark account_id new_epoch recipients = .ok (ack,wrapped)) :
    wrapped.map RewrappedKey.device_id = recipients.map RewrapRecipient.device_id ∧
      ∀ w ∈ wrapped, ∃ r ∈ recipients, ∃ draw, p.rewrap ark account_id new_epoch r draw = .ok w := by
  obtain ⟨boxes,made,same⟩ := bind_ok.mp rotated
  cases same
  constructor
  · have ids := mapM_map (g := RewrappedKey.device_id) (h := fun r => r.1.device_id) made (fun r _ w made => by
      obtain ⟨box,-,same⟩ := bind_ok.mp made
      cases same
      rfl)
    have firsts : (fun r : RewrapRecipient × ℕ => r.1.device_id) = RewrapRecipient.device_id ∘ Prod.fst := rfl
    rw [ids,firsts,← List.map_map,List.zipIdx_map_fst]
  · intro w inside
    obtain ⟨⟨r,i⟩,there,made⟩ := (mapM_mem made).1 w inside
    exact ⟨r,(List.mem_zipIdx' there).2 ▸ List.getElem_mem _,draws i,made⟩

end Primitives
end Pergamon
