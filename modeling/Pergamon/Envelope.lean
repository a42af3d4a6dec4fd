import Pergamon.Enrollment

/-!
The envelope of a change: the header that the server sees, the encryption of the body
under it and the signature over both. The header is written with a length before each
text and stands in the associated data of the encryption and in the signed bytes.

A short header cannot be taken for another one, whatever follows it (`aad_bytes_inj`), so
a signature is for one header and one ciphertext (`event_signing_bytes_inj`) and for no
other statement of a device; what is encrypted decrypts under its own header
(`decrypt_encrypt_event`).
-/
namespace Pergamon
open Fallible

def EVENT_AAD_TAG : List UInt8 := utf8 "pergamon/v1/event-aad"
def EVENT_SIG_TAG : List UInt8 := utf8 "pergamon/v1/event-sig"
def ENTITY_REF_TAG : List UInt8 := utf8 "pergamon/v1/entity-ref-input"

/-- What the server sees of an event. -/
structure EventHeader where
  protocol_version : UInt32
  account_id : String
  device_id : String
  change_id : String
  key_epoch : UInt32
  entity_ref : Option String
  blob_refs : List String
  deriving DecidableEq

namespace EventHeader

/-- The token of the entity, behind a mark that tells a missing one from an empty one. -/
def ref_bytes : Option String → List UInt8
  | none => [0]
  | some r => 1 :: push_lp (utf8 r)

/-- The header as bytes, each text behind its length. -/
def aad_bytes (header : EventHeader) : List UInt8 :=
  EVENT_AAD_TAG ++ u32_be_bytes header.protocol_version.toNat ++ push_lp (utf8 header.account_id) ++
    push_lp (utf8 header.device_id) ++ push_lp (utf8 header.change_id) ++ u32_be_bytes header.key_epoch.toNat ++
    ref_bytes header.entity_ref ++ u32_be_bytes header.blob_refs.length ++ header.blob_refs.flatMap (fun r => push_lp (utf8 r))

/-- Lengths that are written as they are: the greatest number stands for all that are
    greater too. -/
structure Short (header : EventHeader) : Prop where
  account_id : (utf8 header.account_id).length < 2 ^ 32 - 1
  device_id : (utf8 header.device_id).length < 2 ^ 32 - 1
  change_id : (utf8 header.change_id).length < 2 ^ 32 - 1
  entity_ref : ∀ r ∈ header.entity_ref, (utf8 r).length < 2 ^ 32 - 1
  blob_refs : ∀ r ∈ header.blob_refs, (utf8 r).length < 2 ^ 32 - 1
  few : header.blob_refs.length < 2 ^ 32 - 1

end EventHeader

/-- What a device signs of an event. -/
def event_signing_bytes (header : EventHeader) (ciphertext : List UInt8) : List UInt8 :=
  EVENT_SIG_TAG ++ header.aad_bytes ++ u32_be_bytes ciphertext.length ++ ciphertext

/-! ### Headers and bytes -/

section
variable {a b rest rest' : List UInt8}

theorem u32_be_bytes_append_inj {m n : ℕ} (small : m < 2 ^ 32 - 1) (same : u32_be_bytes m ++ rest = u32_be_bytes n ++ rest') :
    m = n ∧ rest = rest' := by
  obtain ⟨first,second⟩ := List.append_inj same rfl
  have capped : u32_be_bytes n = u32_be_bytes (min n 4294967295) := by simp [u32_be_bytes]
  rw [capped] at first
  have := u32_be_bytes_inj (by omega) (by omega) first
  exact ⟨by omega,second⟩

theorem u32_append_inj {m n : UInt32} (same : u32_be_bytes m.toNat ++ rest = u32_be_bytes n.toNat ++ rest') :
    m = n ∧ rest = rest' := by
  obtain ⟨first,second⟩ := List.append_inj same rfl
  exact ⟨UInt32.toNat_inj.mp (u32_be_bytes_inj m.toNat_lt n.toNat_lt first),second⟩

/-- A short field ends where it says. -/
theorem push_lp_append_inj (short : a.length < 2 ^ 32 - 1) (same : push_lp a ++ rest = push_lp b ++ rest') :
    a = b ∧ rest = rest' := by
  simp only [push_lp,List.append_assoc] at same
  obtain ⟨size,same⟩ := u32_be_bytes_append_inj short same
  exact List.append_inj same size

theorem push_utf8_append_inj {s t : String} (short : (utf8 s).length < 2 ^ 32 - 1)
    (same : push_lp (utf8 s) ++ rest = push_lp (utf8 t) ++ rest') : s = t ∧ rest = rest' := by
  obtain ⟨first,second⟩ := push_lp_append_inj short same
  exact ⟨utf8_inj.mp first,second⟩

/-- A token ends where the texts say. -/
theorem ref_bytes_ends {r r' : Option String}
    (texts : ∀ s ∈ r, ∀ s' ∈ r', push_lp (utf8 s) ++ rest = push_lp (utf8 s') ++ rest' → s = s' ∧ rest = rest')
    (same : EventHeader.ref_bytes r ++ rest = EventHeader.ref_bytes r' ++ rest') : r = r' ∧ rest = rest' := by
  cases r with
  | none =>
    cases r' with
    | none => exact ⟨rfl,List.append_cancel_left same⟩
    | some s' => simp [EventHeader.ref_bytes] at same
  | some s =>
    cases r' with
    | none => simp [EventHeader.ref_bytes] at same
    | some s' =>
      simp only [EventHeader.ref_bytes,List.cons_append,List.cons.injEq,true_and] at same
      obtain ⟨rfl,second⟩ := texts s rfl s' rfl same
      exact ⟨rfl,second⟩

theorem refs_append_inj {refs refs' : List String} (count : refs.length = refs'.length)
    (short : ∀ r ∈ refs, (utf8 r).length < 2 ^ 32 - 1)
    (same : refs.flatMap (fun r => push_lp (utf8 r)) ++ rest = refs'.flatMap (fun r => push_lp (utf8 r)) ++ rest') :
    refs = refs' ∧ rest = rest' := by
  induction refs generalizing refs' with
  | nil =>
    obtain rfl := List.eq_nil_of_length_eq_zero count.symm
    exact ⟨rfl,same⟩
  | cons r refs ih =>
    cases refs' with
    | nil => cases count
    | cons r' refs' =>
      simp only [List.flatMap_cons,List.append_assoc] at same
      obtain ⟨first,others⟩ := push_utf8_append_inj (short r (by simp)) same
      obtain ⟨second,last⟩ := ih (Nat.succ.inj count) (fun s inside => short s (by simp [inside])) others
      exact ⟨by rw [first,second],last⟩

/-- The bytes of a short header are those of no other one, and it is clear where they end. -/
theorem aad_bytes_inj {header header' : EventHeader} (short : header.Short)
    (same : header.aad_bytes ++ rest = header'.aad_bytes ++ rest') : header = header' ∧ rest = rest' := by
  simp only [EventHeader.aad_bytes,List.append_assoc] at same
  replace same := List.append_cancel_left same
  obtain ⟨version,same⟩ := u32_append_inj same
  obtain ⟨account,same⟩ := push_utf8_append_inj short.account_id same
  obtain ⟨device,same⟩ := push_utf8_append_inj short.device_id same
  obtain ⟨change,same⟩ := push_utf8_append_inj short.change_id same
  obtain ⟨epoch,same⟩ := u32_append_inj same
  obtain ⟨token,same⟩ := ref_bytes_ends (fun s inside _ _ => push_utf8_append_inj (short.entity_ref s inside)) same
  obtain ⟨count,same⟩ := u32_be_bytes_append_inj short.few same
  obtain ⟨refs,same⟩ := refs_append_inj count short.blob_refs same
  refine ⟨?_,same⟩
  cases header
  cases header'
  simp_all

/-- Signed bytes belong to one header and one ciphertext. -/
theorem event_signing_bytes_inj {header header' : EventHeader} {ciphertext ciphertext' : List UInt8} (short : header.Short)
    (same : event_signing_bytes header ciphertext = event_signing_bytes header' ciphertext') :
    header = header' ∧ ciphertext = ciphertext' := by
  simp only [event_signing_bytes,List.append_assoc] at same
  obtain ⟨here,rest⟩ := aad_bytes_inj short (List.append_cancel_left same)
  exact ⟨here,(List.append_inj rest rfl).2⟩

/-- What is signed under one of two tags of which neither begins with the other is not
    what is signed under the other one. -/
theorem tag_apart {tag tag' : List UInt8} (apart : (tag.zip tag').any (fun (x,y) => x ≠ y)) : tag ++ rest ≠ tag' ++ rest' := by
  induction tag generalizing tag' with
  | nil => simp at apart
  | cons x tag ih =>
    cases tag' with
    | nil => simp at apart
    | cons y tag' =>
      intro same
      simp only [List.cons_append,List.cons.injEq] at same
      obtain ⟨rfl,same⟩ := same
      exact ih (by simpa using apart) same

theorem event_signing_bytes_ne_record (header : EventHeader) (ciphertext : List UInt8) (record : DeviceRecord) :
    record.signing_bytes ≠ event_signing_bytes header ciphertext := by
  simp only [DeviceRecord.signing_bytes,event_signing_bytes,List.append_assoc]
  exact tag_apart (by decide +kernel)

theorem event_signing_bytes_ne_attestation (header : EventHeader) (ciphertext : List UInt8) (attestation : Attestation) :
    attestation.signing_bytes ≠ event_signing_bytes header ciphertext := by
  simp only [Attestation.signing_bytes,event_signing_bytes,List.append_assoc]
  exact tag_apart (by decide +kernel)

end

/-! ### Encryption and signatures -/

namespace Primitives
variable (p : Primitives)

/-- The token under which the server groups the events of an entity. -/
def entity_ref (account_stream_key : Bytes KEY_LEN) (entity_type entity_id : String) : String :=
  hex (p.hmac_sha256 account_stream_key.toList
    (ENTITY_REF_TAG ++ push_lp (utf8 entity_type) ++ push_lp (utf8 entity_id))).toList

def sign_event (signing_key : Bytes KEY_LEN) (header : EventHeader) (ciphertext : List UInt8) : Bytes SIG_LEN :=
  p.ed25519_sign signing_key (event_signing_bytes header ciphertext)

def verify_event (ed25519_pub : Bytes KEY_LEN) (header : EventHeader) (ciphertext : List UInt8) (sig : Bytes SIG_LEN) :
    Except CryptoError Unit := p.ed25519_verify ed25519_pub (event_signing_bytes header ciphertext) sig

/-- Encrypt the body of an event under the content key of its epoch, with a nonce that is
    drawn for it. -/
def encrypt_event (nonce : Option (Bytes NONCE_LEN)) (ack : AccountContentKey) (header : EventHeader)
    (plaintext : List UInt8) : Except CryptoError (List UInt8) :=
  if header.key_epoch ≠ ack.epoch then .error (.Malformed "event header key_epoch does not match content key epoch")
  else
    match nonce with
    | none => .error .Random
    | some nonce => p.aead_seal nonce (p.event_key ack header.change_id) header.aad_bytes plaintext

def decrypt_event (ack : AccountContentKey) (header : EventHeader) (ciphertext : List UInt8) :
    Except CryptoError (List UInt8) :=
  if header.key_epoch ≠ ack.epoch then .error (.Malformed "event header key_epoch does not match content key epoch")
  else p.aead_open (p.event_key ack header.change_id) header.aad_bytes ciphertext

variable {p} {nonce : Option (Bytes NONCE_LEN)} {ack : AccountContentKey} {header : EventHeader} {plaintext ciphertext : List UInt8}

@[simp] theorem length_entity_ref (key : Bytes KEY_LEN) (entity_type entity_id : String) :
    (utf8 (p.entity_ref key entity_type entity_id)).length = 64 := by simp [entity_ref]

/-- What is sealed opens under the same key and the same data. -/
theorem aead_open_seal (lawful : p.Lawful) {n : Bytes NONCE_LEN} {key : Bytes KEY_LEN} {aad : List UInt8}
    (made : p.aead_seal n key aad plaintext = .ok ciphertext) : p.aead_open key aad ciphertext = .ok plaintext := by
  obtain ⟨ct,encrypted,rfl⟩ := aead_seal_ok.mp made
  rw [aead_open_append (by rw [lawful.encrypt_length _ _ _ _ _ encrypted]; omega),aead_decrypt_with_nonce,
    (lawful.decrypt_iff ..).mpr encrypted]

theorem decrypt_encrypt_event (lawful : p.Lawful) (made : p.encrypt_event nonce ack header plaintext = .ok ciphertext) :
    p.decrypt_event ack header ciphertext = .ok plaintext := by
  unfold encrypt_event at made
  unfold decrypt_event
  split at made
  · cases made
  · next here =>
    rw [if_neg here]
    cases nonce with
    | none => cases made
    | some n => exact aead_open_seal lawful made

end Primitives
end Pergamon
