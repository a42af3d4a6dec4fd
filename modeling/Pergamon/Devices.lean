import Pergamon.Primitives

/-!
The statements that devices sign: the record of a device, which it signs itself, and the
attestation by which one device grants or withdraws trust in another. Both travel as
bytes, a tag and the fields behind it.

What a device signs verifies (`verify_sign_record`, `verify_sign_attestation`), and what
is written is read back (`from_bytes_to_bytes`).
-/
namespace Pergamon
open Fallible Wire

/-! ### Reading the wire -/

namespace Cursor

def take (n : ℕ) : Reader CryptoError (List UInt8) := Wire.take (.Malformed "wire input truncated") n

def expect_tag (tag : List UInt8) : Reader CryptoError Unit := do
  let got ← take tag.length
  if got = tag then pure () else throw (.Malformed "wire tag mismatch")

def read_u8 : Reader CryptoError UInt8 := (fun bytes => .ofNat (value bytes)) <$> take 1

def read_u32 : Reader CryptoError UInt32 := (fun bytes => .ofNat (value bytes)) <$> take 4

def read_i64 : Reader CryptoError Int64 := (fun bytes => .ofNat (value bytes)) <$> take 8

def read_array (n : ℕ) : Reader CryptoError (Bytes n) := fun bytes =>
  if fits : n ≤ bytes.length then .ok (⟨bytes.take n,by rw [List.length_take]; omega⟩,bytes.drop n)
  else .error (.Malformed "wire input truncated")

def read_string (len : ℕ) : Reader CryptoError String := do
  let bytes ← take len
  match from_utf8 bytes with
  | some s => pure s
  | none => throw (.Malformed "wire string not utf-8")

def expect_end : Reader CryptoError Unit := fun bytes =>
  if bytes = [] then .ok ((),[]) else .error (.Malformed "trailing bytes after wire record")

/-- Parse bytes that hold the fields of a record and nothing else. -/
def parse {α : Type} (fields : Reader CryptoError α) (bytes : List UInt8) : Except CryptoError α := do
  let (a,rest) ← fields bytes
  let _ ← expect_end rest
  return a

theorem parse_reads {α : Type} {fields : Reader CryptoError α} {bytes : List UInt8} {a : α} (reads : Reads fields bytes a) :
    parse fields bytes = .ok a := by
  unfold parse
  rw [reads.whole]
  rfl

theorem reads_expect_tag (tag : List UInt8) : Reads (expect_tag tag) tag () := by
  intro rest
  rw [expect_tag,bind_apply,take,reads_take,ok_bind]
  show (if tag = tag then pure () else throw _ : Reader CryptoError Unit) rest = _
  rw [if_pos rfl]
  rfl

theorem reads_u8 (b : UInt8) : Reads read_u8 [b] b := by
  have here : UInt8.ofNat (value [b]) = b := by simp [value]
  have read := (reads_take (.Malformed "wire input truncated" : CryptoError) [b]).map (f := fun bytes => UInt8.ofNat (value bytes))
  rwa [here] at read

theorem reads_u32 (n : UInt32) : Reads read_u32 (u32_be_bytes n.toNat) n := by
  have here : UInt32.ofNat (value (u32_be_bytes n.toNat)) = n := by
    have small := n.toNat_lt
    rw [u32_be_bytes_eq small,value_be_bytes,Nat.mod_eq_of_lt (by omega),UInt32.ofNat_toNat]
  have read := (reads_take (.Malformed "wire input truncated" : CryptoError) (u32_be_bytes n.toNat)).map
    (f := fun bytes => UInt32.ofNat (value bytes))
  rwa [here] at read

theorem reads_i64 (n : Int64) : Reads read_i64 (i64_be_bytes n.toInt) n := by
  have here : Int64.ofNat (value (i64_be_bytes n.toInt)) = n := by
    have bytes : i64_be_bytes n.toInt = be_bytes 8 (n.toInt % 2 ^ 64).toNat := rfl
    have low := n.le_toInt
    have high := n.toInt_lt
    rw [bytes,value_be_bytes,Nat.mod_eq_of_lt (by omega)]
    apply Int64.toInt_inj.mp
    rw [Int64.toInt_ofNat',Int.toNat_of_nonneg (Int.emod_nonneg _ (by decide))]
    show ((n.toInt % (18446744073709551616 : ℕ) : ℤ)).bmod 18446744073709551616 = n.toInt
    rw [Int.emod_bmod,Int.bmod_eq_of_le (by omega) (by omega)]
  have read := (reads_take (.Malformed "wire input truncated" : CryptoError) (i64_be_bytes n.toInt)).map
    (f := fun bytes => Int64.ofNat (value bytes))
  rw [here,length_i64_be_bytes] at read
  exact read

theorem reads_array {n : ℕ} (bytes : Bytes n) : Reads (read_array n) bytes.toList bytes := by
  intro rest
  have size := bytes.toList_length
  unfold read_array
  rw [dif_pos (by rw [List.length_append]; omega)]
  simp only [List.take_left' size,List.drop_left' size]
  rfl

theorem reads_string (s : String) : Reads (read_string (utf8 s).length) (utf8 s) s := by
  intro rest
  rw [read_string,bind_apply,take,reads_take,ok_bind]
  simp only [from_utf8_utf8]
  rfl

end Cursor

/-- A field behind its length in four bytes. -/
def push_lp (bytes : List UInt8) : List UInt8 := u32_be_bytes bytes.length ++ bytes

/-- Read a string behind its length. -/
def Cursor.read_lp_string : Reader CryptoError String := do
  let len ← read_u32
  read_string len.toNat

theorem Cursor.reads_lp_string {s : String} (short : (utf8 s).length < 2 ^ 32) : Reads read_lp_string (push_lp (utf8 s)) s := by
  have len : (UInt32.ofNat (utf8 s).length).toNat = (utf8 s).length := UInt32.toNat_ofNat_of_lt short
  refine Reads.bind (a := .ofNat (utf8 s).length) ?_ ?_
  · have read := reads_u32 (.ofNat (utf8 s).length)
    rwa [len] at read
  · rw [len]
    exact reads_string s

/-! ### Devices -/

/-- The two secrets of a device; the rest of its key pairs follows from them. -/
structure DeviceKeypairs where
  x25519_secret : Bytes KEY_LEN
  ed25519_signing : Bytes KEY_LEN
  deriving DecidableEq

structure DeviceRecord where
  device_id : String
  x25519_pub : Bytes KEY_LEN
  ed25519_pub : Bytes KEY_LEN
  created_at : Int64
  deriving DecidableEq

structure SignedDeviceRecord where
  record : DeviceRecord
  signature : Bytes SIG_LEN
  deriving DecidableEq

inductive AttestationKind where
  | Trust
  | Revoke
  deriving DecidableEq

structure Attestation where
  kind : AttestationKind
  signer_device_id : String
  signer_ed25519_pub : Bytes KEY_LEN
  subject_device_id : String
  subject_ed25519_pub : Bytes KEY_LEN
  key_epoch : UInt32
  issued_at : Int64
  deriving DecidableEq

structure SignedAttestation where
  attestation : Attestation
  signature : Bytes SIG_LEN
  deriving DecidableEq

def DEVICE_RECORD_TAG : List UInt8 := utf8 "pergamon/v1/device-record"
def DEVICE_RECORD_WIRE_TAG : List UInt8 := utf8 "pergamon/v1/device-record-wire"
def ATTESTATION_TAG : List UInt8 := utf8 "pergamon/v1/attestation"
def ATTESTATION_WIRE_TAG : List UInt8 := utf8 "pergamon/v1/attestation-wire"

namespace AttestationKind

def tag : AttestationKind → UInt8
  | .Trust => 1
  | .Revoke => 2

def from_tag (tag : UInt8) : Option AttestationKind :=
  if tag = 1 then some .Trust else if tag = 2 then some .Revoke else none

@[simp] theorem from_tag_tag (kind : AttestationKind) : from_tag kind.tag = some kind := by cases kind <;> decide

theorem tag_from_tag {tag : UInt8} {kind : AttestationKind} (known : from_tag tag = some kind) : tag = kind.tag := by
  unfold from_tag at known
  split at known
  · cases known
    assumption
  · split at known
    · cases known
      assumption
    · cases known

end AttestationKind

def DeviceRecord.signing_bytes (record : DeviceRecord) : List UInt8 :=
  DEVICE_RECORD_TAG ++ push_lp (utf8 record.device_id) ++ record.x25519_pub.toList ++ record.ed25519_pub.toList ++
    i64_be_bytes record.created_at.toInt

def Attestation.signing_bytes (a : Attestation) : List UInt8 :=
  ATTESTATION_TAG ++ [a.kind.tag] ++ push_lp (utf8 a.signer_device_id) ++ a.signer_ed25519_pub.toList ++
    push_lp (utf8 a.subject_device_id) ++ a.subject_ed25519_pub.toList ++ u32_be_bytes a.key_epoch.toNat ++
    i64_be_bytes a.issued_at.toInt

namespace SignedDeviceRecord

def to_bytes (signed : SignedDeviceRecord) : List UInt8 :=
  DEVICE_RECORD_WIRE_TAG ++ push_lp (utf8 signed.record.device_id) ++ signed.record.x25519_pub.toList ++
    signed.record.ed25519_pub.toList ++ i64_be_bytes signed.record.created_at.toInt ++ signed.signature.toList

def fields : Reader CryptoError SignedDeviceRecord := do
  Cursor.expect_tag DEVICE_RECORD_WIRE_TAG
  let device_id ← Cursor.read_lp_string
  let x25519_pub ← Cursor.read_array KEY_LEN
  let ed25519_pub ← Cursor.read_array KEY_LEN
  let created_at ← Cursor.read_i64
  let signature ← Cursor.read_array SIG_LEN
  return ⟨⟨device_id,x25519_pub,ed25519_pub,created_at⟩,signature⟩

def from_bytes : List UInt8 → Except CryptoError SignedDeviceRecord := Cursor.parse fields

theorem reads_fields {signed : SignedDeviceRecord} (short : (utf8 signed.record.device_id).length < 2 ^ 32) :
    Reads fields signed.to_bytes signed := by
  simp only [to_bytes,List.append_assoc]
  refine (Cursor.reads_expect_tag _).bind ((Cursor.reads_lp_string short).bind ?_)
  refine (Cursor.reads_array _).bind ((Cursor.reads_array _).bind ((Cursor.reads_i64 _).bind ?_))
  rw [← List.append_nil signed.signature.toList]
  exact (Cursor.reads_array _).bind (reads_pure _)

theorem from_bytes_to_bytes {signed : SignedDeviceRecord} (short : (utf8 signed.record.device_id).length < 2 ^ 32) :
    from_bytes signed.to_bytes = .ok signed := Cursor.parse_reads (reads_fields short)

end SignedDeviceRecord

namespace SignedAttestation

def to_bytes (signed : SignedAttestation) : List UInt8 :=
  let a := signed.attestation
  ATTESTATION_WIRE_TAG ++ [a.kind.tag] ++ push_lp (utf8 a.signer_device_id) ++ a.signer_ed25519_pub.toList ++
    push_lp (utf8 a.subject_device_id) ++ a.subject_ed25519_pub.toList ++ u32_be_bytes a.key_epoch.toNat ++
    i64_be_bytes a.issued_at.toInt ++ signed.signature.toList

def fields : Reader CryptoError SignedAttestation := do
  Cursor.expect_tag ATTESTATION_WIRE_TAG
  let tag ← Cursor.read_u8
  let kind ← match AttestationKind.from_tag tag with
    | some kind => pure kind
    | none => throw (.Malformed "unknown attestation kind")
  let signer_device_id ← Cursor.read_lp_string
  let signer_ed25519_pub ← Cursor.read_array KEY_LEN
  let subject_device_id ← Cursor.read_lp_string
  let subject_ed25519_pub ← Cursor.read_array KEY_LEN
  let key_epoch ← Cursor.read_u32
  let issued_at ← Cursor.read_i64
  let signature ← Cursor.read_array SIG_LEN
  return ⟨⟨kind,signer_device_id,signer_ed25519_pub,subject_device_id,subject_ed25519_pub,key_epoch,issued_at⟩,signature⟩

def from_bytes : List UInt8 → Except CryptoError SignedAttestation := Cursor.parse fields

theorem reads_fields {signed : SignedAttestation} (short : (utf8 signed.attestation.signer_device_id).length < 2 ^ 32)
    (short' : (utf8 signed.attestation.subject_device_id).length < 2 ^ 32) : Reads fields signed.to_bytes signed := by
  simp only [to_bytes,List.append_assoc]
  refine (Cursor.reads_expect_tag _).bind ((Cursor.reads_u8 _).bind ?_)
  simp only [AttestationKind.from_tag_tag]
  rw [← List.nil_append (push_lp (utf8 signed.attestation.signer_device_id) ++ _)]
  refine (reads_pure _).bind ((Cursor.reads_lp_string short).bind ?_)
  refine (Cursor.reads_array _).bind ((Cursor.reads_lp_string short').bind ?_)
  refine (Cursor.reads_array _).bind ((Cursor.reads_u32 _).bind ((Cursor.reads_i64 _).bind ?_))
  rw [← List.append_nil signed.signature.toList]
  exact (Cursor.reads_array _).bind (reads_pure _)

theorem from_bytes_to_bytes {signed : SignedAttestation} (short : (utf8 signed.attestation.signer_device_id).length < 2 ^ 32)
    (short' : (utf8 signed.attestation.subject_device_id).length < 2 ^ 32) : from_bytes signed.to_bytes = .ok signed :=
  Cursor.parse_reads (reads_fields short short')

theorem length_to_bytes (signed : SignedAttestation) : signed.to_bytes.length =
    177 + (utf8 signed.attestation.signer_device_id).length + (utf8 signed.attestation.subject_device_id).length := by
  have tag : ATTESTATION_WIRE_TAG.length = 28 := by decide +kernel
  simp only [to_bytes,push_lp,List.length_append,List.length_singleton,length_u32_be_bytes,length_i64_be_bytes,
    List.Vector.toList_length,tag,KEY_LEN,SIG_LEN]
  omega

end SignedAttestation

namespace Primitives
variable (p : Primitives)

/-- The id of a device: the first bytes of the hash of its verifying key in hex. -/
def device_id_from_ed25519 (ed25519_pub : Bytes KEY_LEN) : String :=
  hex ((p.blake3_hash ed25519_pub.toList).toList.take DEVICE_ID_LEN)

def x25519_pub (keys : DeviceKeypairs) : Bytes KEY_LEN := p.x25519_public keys.x25519_secret
def ed25519_verifying (keys : DeviceKeypairs) : Bytes KEY_LEN := p.ed25519_public keys.ed25519_signing
def device_id (keys : DeviceKeypairs) : String := p.device_id_from_ed25519 (p.ed25519_verifying keys)
def sign (keys : DeviceKeypairs) (msg : List UInt8) : Bytes SIG_LEN := p.ed25519_sign keys.ed25519_signing msg

def sign_record (keys : DeviceKeypairs) (created_at : Int64) : SignedDeviceRecord :=
  let record := ⟨p.device_id keys,p.x25519_pub keys,p.ed25519_verifying keys,created_at⟩
  ⟨record,p.sign keys record.signing_bytes⟩

def verify_record (signed : SignedDeviceRecord) : Except CryptoError Unit :=
  if p.device_id_from_ed25519 signed.record.ed25519_pub ≠ signed.record.device_id then
    .error (.Malformed "device_id does not match ed25519 public key")
  else p.ed25519_verify signed.record.ed25519_pub signed.record.signing_bytes signed.signature

/-- `sign` of the attestations. -/
def sign_attestation (signer : DeviceKeypairs) (kind : AttestationKind) (subject : DeviceRecord) (key_epoch : UInt32)
    (issued_at : Int64) : SignedAttestation :=
  let attestation := ⟨kind,p.device_id signer,p.ed25519_verifying signer,subject.device_id,subject.ed25519_pub,key_epoch,
    issued_at⟩
  ⟨attestation,p.sign signer attestation.signing_bytes⟩

def attest_trust (signer : DeviceKeypairs) : DeviceRecord → UInt32 → Int64 → SignedAttestation :=
  p.sign_attestation signer .Trust

def attest_revoke (signer : DeviceKeypairs) : DeviceRecord → UInt32 → Int64 → SignedAttestation :=
  p.sign_attestation signer .Revoke

def verify_attestation (signed : SignedAttestation) : Except CryptoError Unit :=
  let a := signed.attestation
  if p.device_id_from_ed25519 a.signer_ed25519_pub ≠ a.signer_device_id then
    .error (.Malformed "signer device_id does not match its ed25519 key")
  else if p.device_id_from_ed25519 a.subject_ed25519_pub ≠ a.subject_device_id then
    .error (.Malformed "subject device_id does not match its ed25519 key")
  else p.ed25519_verify a.signer_ed25519_pub a.signing_bytes signed.signature

variable {p} {signed : SignedDeviceRecord} {attested : SignedAttestation} {keys : DeviceKeypairs}

@[simp] theorem length_device_id (ed25519_pub : Bytes KEY_LEN) : (utf8 (p.device_id_from_ed25519 ed25519_pub)).length = 32 := by
  simp [device_id_from_ed25519,DEVICE_ID_LEN]

theorem verify_record_ok : p.verify_record signed = .ok () ↔
    p.device_id_from_ed25519 signed.record.ed25519_pub = signed.record.device_id ∧
      p.ed25519_verify signed.record.ed25519_pub signed.record.signing_bytes signed.signature = .ok () := by
  unfold verify_record
  split <;> simp_all

theorem verify_attestation_ok : p.verify_attestation attested = .ok () ↔
    p.device_id_from_ed25519 attested.attestation.signer_ed25519_pub = attested.attestation.signer_device_id ∧
    p.device_id_from_ed25519 attested.attestation.subject_ed25519_pub = attested.attestation.subject_device_id ∧
    p.ed25519_verify attested.attestation.signer_ed25519_pub attested.attestation.signing_bytes attested.signature = .ok () := by
  simp only [verify_attestation]
  split
  · simp_all
  · split <;> simp_all

theorem verify_sign_record (lawful : p.Lawful) (keys : DeviceKeypairs) (created_at : Int64) :
    p.verify_record (p.sign_record keys created_at) = .ok () :=
  verify_record_ok.mpr ⟨rfl,lawful.verify_sign ..⟩

/-- An attestation of a record that names the id of its key verifies. -/
theorem verify_sign_attestation (lawful : p.Lawful) (signer : DeviceKeypairs) (kind : AttestationKind) {subject : DeviceRecord}
    (named : p.device_id_from_ed25519 subject.ed25519_pub = subject.device_id) (key_epoch : UInt32) (issued_at : Int64) :
    p.verify_attestation (p.sign_attestation signer kind subject key_epoch issued_at) = .ok () :=
  verify_attestation_ok.mpr ⟨rfl,named,lawful.verify_sign ..⟩

end Primitives
end Pergamon
