import Pergamon.Binding
import Pergamon.Wire

/-!
The cryptography of a client. The primitives themselves come from other crates and are a
parameter (`Primitives`); what is documented of them is `Lawful`. Over them stand the
encryption with a random nonce and the sealed box, which only the holder of a secret key
opens.

A box opens with the secret key it was sealed to and the data it was bound to
(`open_sealed_seal_to`), and whatever opens it under other data finds the same plaintext
(`opens_seal_to`).
-/
namespace Pergamon
open Fallible

abbrev KEY_LEN : ℕ := 32
abbrev NONCE_LEN : ℕ := 24
abbrev TAG_LEN : ℕ := 16
abbrev SIG_LEN : ℕ := 64

/-- A byte array of fixed length. -/
abbrev Bytes (n : ℕ) : Type := List.Vector UInt8 n

inductive CryptoError where
  | Decryption
  | Malformed (what : String)
  | BadSignature
  | KeyDerivation
  | Random
  deriving DecidableEq

def CryptoError.to_string : CryptoError → String
  | .Decryption => "decryption failed: ciphertext could not be authenticated"
  | .Malformed what => "malformed cryptographic input: " ++ what
  | .BadSignature => "signature verification failed"
  | .KeyDerivation => "key-derivation (argon2id) failed"
  | .Random => "secure random number generation failed"

/-! ### Bytes of numbers and strings -/

theorem utf8_eq (s : String) : utf8 s = s.toByteArray.data.toList := by
  have loop (bytes : ByteArray) (i : ℕ) (done : List UInt8) :
      ByteArray.toList.loop bytes i done = done.reverse ++ bytes.data.toList.drop i := by
    fun_induction ByteArray.toList.loop bytes i done with
    | case1 i done inside ih =>
      have inside' : i < bytes.data.toList.length := by simpa using inside
      rw [ih,List.reverse_cons,List.append_assoc,List.drop_eq_getElem_cons inside']
      simp [ByteArray.get!,inside]
    | case2 i done past => rw [List.drop_eq_nil_of_le (by simpa using past),List.append_nil]
  unfold utf8 ByteArray.toList
  rw [loop]
  simp

theorem utf8_inj {s t : String} : utf8 s = utf8 t ↔ s = t := by
  rw [utf8_eq,utf8_eq,Array.toList_inj,← String.toByteArray_inj]
  exact ByteArray.ext_iff.symm

theorem utf8_ofList (chars : List Char) : utf8 (String.ofList chars) = chars.flatMap String.utf8EncodeChar := by
  rw [utf8_eq,String.toByteArray_ofList,List.utf8Encode,List.toList_data_toByteArray]

/-- `String::from_utf8`. -/
def from_utf8 (bytes : List UInt8) : Option String := String.fromUTF8? bytes.toByteArray

@[simp] theorem from_utf8_utf8 (s : String) : from_utf8 (utf8 s) = some s := by
  have same : (utf8 s).toByteArray = s.toByteArray := by
    apply ByteArray.ext
    apply Array.toList_inj.mp
    rw [List.toList_data_toByteArray,utf8_eq]
  unfold from_utf8 String.fromUTF8?
  rw [dif_pos (by rw [same]; exact s.isValidUTF8)]
  simp only [same]
  rfl

theorem utf8_from_utf8 {bytes : List UInt8} {s : String} (decoded : from_utf8 bytes = some s) : utf8 s = bytes := by
  unfold from_utf8 String.fromUTF8? at decoded
  split at decoded
  · cases decoded
    rw [utf8_eq]
    exact List.toList_data_toByteArray
  · cases decoded

theorem u32_be_bytes_eq {n : ℕ} (fits : n < 2 ^ 32) : u32_be_bytes n = Wire.be_bytes 4 n := by
  have here : min n 4294967295 = n := by omega
  simp [u32_be_bytes,here,Wire.be_bytes,List.range_succ]

@[simp] theorem length_u32_be_bytes (n : ℕ) : (u32_be_bytes n).length = 4 := rfl

@[simp] theorem length_i64_be_bytes (n : ℤ) : (i64_be_bytes n).length = 8 := by simp [i64_be_bytes]

theorem u32_be_bytes_inj {m n : ℕ} (fits : m < 2 ^ 32) (fits' : n < 2 ^ 32) (same : u32_be_bytes m = u32_be_bytes n) :
    m = n := by
  rw [u32_be_bytes_eq fits,u32_be_bytes_eq fits'] at same
  exact Wire.be_bytes_inj (by omega) (by omega) same

theorem i64_be_bytes_inj {m n : Int64} (same : i64_be_bytes m.toInt = i64_be_bytes n.toInt) : m = n := by
  have low (n : Int64) : (n.toInt % 2 ^ 64).toNat < 256 ^ 8 := by omega
  have equal := Wire.be_bytes_inj (low m) (low n) same
  have bound (n : Int64) := And.intro n.le_toInt n.toInt_lt
  have := bound m
  have := bound n
  exact Int64.toInt_inj.mp (by omega)

/-- Bytes in hexadecimal. -/
def hex (bytes : List UInt8) : String := String.ofList (bytes.flatMap hex_byte)

theorem hex_inj {bytes bytes' : List UInt8} : hex bytes = hex bytes' ↔ bytes = bytes' := by
  refine ⟨fun same => ?_,congrArg hex⟩
  have digit : ∀ m < 16, ∀ n < 16, Nat.digitChar m = Nat.digitChar n → m = n := by decide
  have digits (a b : UInt8) (same : hex_byte a = hex_byte b) : a = b := by
    have small := a.toNat_lt
    have small' := b.toNat_lt
    simp only [hex_byte,List.cons.injEq,and_true] at same
    have high := digit _ (by omega) _ (by omega) same.1
    have low := digit _ (by omega) _ (by omega) same.2
    exact UInt8.toNat_inj.mp (by omega)
  replace same := String.ofList_injective same
  induction bytes generalizing bytes' with
  | nil => cases bytes' <;> simp_all [hex_byte]
  | cons b bytes ih =>
    cases bytes' with
    | nil => simp [hex_byte] at same
    | cons b' bytes' =>
      rw [List.flatMap_cons,List.flatMap_cons] at same
      obtain ⟨first,rest⟩ := List.append_inj same rfl
      rw [digits b b' first,ih rest]

@[simp] theorem length_utf8_hex (bytes : List UInt8) : (utf8 (hex bytes)).length = 2 * bytes.length := by
  have digit : ∀ n < 16, (String.utf8EncodeChar (Nat.digitChar n)).length = 1 := by decide
  have byte (b : UInt8) : ((hex_byte b).flatMap String.utf8EncodeChar).length = 2 := by
    have small := b.toNat_lt
    rw [hex_byte,List.flatMap_cons,List.flatMap_cons,List.flatMap_nil,List.append_nil,List.length_append,
      digit _ (by omega),digit _ (by omega)]
  rw [hex,utf8_ofList,List.flatMap_assoc,List.length_flatMap]
  simp [byte,Nat.mul_comm]

/-! ### The primitives -/

/-- The functions that the client takes from other crates. `encrypt` and `decrypt` are
    XChaCha20-Poly1305, `hkdf_key` is HKDF-SHA-256 without salt to the length of a key. -/
structure Primitives where
  blake3_hash : List UInt8 → Bytes 32
  sha256 : List UInt8 → Bytes 32
  hkdf_key (ikm info : List UInt8) : Bytes KEY_LEN
  hmac_sha256 (key msg : List UInt8) : Bytes 32
  argon2id_kek (passphrase salt : List UInt8) : Option (Bytes KEY_LEN)
  encrypt (key : Bytes KEY_LEN) (nonce : Bytes NONCE_LEN) (aad msg : List UInt8) : Option (List UInt8)
  decrypt (key : Bytes KEY_LEN) (nonce : Bytes NONCE_LEN) (aad ct : List UInt8) : Option (List UInt8)
  x25519_public (secret : Bytes KEY_LEN) : Bytes KEY_LEN
  diffie_hellman (secret public_key : Bytes KEY_LEN) : Bytes KEY_LEN
  ed25519_public (signing_key : Bytes KEY_LEN) : Bytes KEY_LEN
  ed25519_sign (signing_key : Bytes KEY_LEN) (msg : List UInt8) : Bytes SIG_LEN
  ed25519_verify (verifying_key : Bytes KEY_LEN) (msg : List UInt8) (sig : Bytes SIG_LEN) : Except CryptoError Unit

/-- What the crates document: decryption undoes encryption and accepts nothing else, the
    keystream does not depend on the associated data, both sides of a key agreement find
    the same secret, and a signature verifies. -/
structure Primitives.Lawful (p : Primitives) : Prop where
  decrypt_iff (key nonce aad msg ct) : p.decrypt key nonce aad ct = some msg ↔ p.encrypt key nonce aad msg = some ct
  keystream (key nonce aad aad' msg msg' ct) : p.encrypt key nonce aad msg = some ct →
    p.encrypt key nonce aad' msg' = some ct → msg = msg'
  encrypt_total (key nonce aad) (msg : List UInt8) : msg.length < 2 ^ 32 → ∃ ct, p.encrypt key nonce aad msg = some ct
  encrypt_length (key nonce aad msg ct) : p.encrypt key nonce aad msg = some ct → ct.length = msg.length + TAG_LEN
  agree (a b) : p.diffie_hellman a (p.x25519_public b) = p.diffie_hellman b (p.x25519_public a)
  verify_sign (signing_key msg) :
    p.ed25519_verify (p.ed25519_public signing_key) msg (p.ed25519_sign signing_key msg) = .ok ()

/-- What one sealing draws from the operating system. -/
structure Draw where
  scalar : Bytes KEY_LEN
  nonce : Bytes NONCE_LEN
  deriving DecidableEq

/-- `STANDARD` of the `base64` crate. -/
structure Base64 where
  encode : List UInt8 → String
  decode : String → Option (List UInt8)
  decode_encode : ∀ bytes, decode (encode bytes) = some bytes

namespace Primitives
variable (p : Primitives)

def aead_encrypt_with_nonce (key : Bytes KEY_LEN) (nonce : Bytes NONCE_LEN) (aad plaintext : List UInt8) :
    Except CryptoError (List UInt8) :=
  match p.encrypt key nonce aad plaintext with
  | some ct => .ok ct
  | none => .error (.Malformed "aead encryption failed")

def aead_decrypt_with_nonce (key : Bytes KEY_LEN) (nonce : Bytes NONCE_LEN) (aad ciphertext : List UInt8) :
    Except CryptoError (List UInt8) :=
  match p.decrypt key nonce aad ciphertext with
  | some plaintext => .ok plaintext
  | none => .error .Decryption

/-- Encrypt under the nonce that was drawn, which goes before the ciphertext. -/
def aead_seal (nonce : Bytes NONCE_LEN) (key : Bytes KEY_LEN) (aad plaintext : List UInt8) :
    Except CryptoError (List UInt8) := do
  let ct ← p.aead_encrypt_with_nonce key nonce aad plaintext
  return nonce.toList ++ ct

def aead_open (key : Bytes KEY_LEN) (aad data : List UInt8) : Except CryptoError (List UInt8) :=
  if long : NONCE_LEN + TAG_LEN ≤ data.length then
    p.aead_decrypt_with_nonce key ⟨data.take NONCE_LEN,by rw [List.length_take]; omega⟩ aad (data.drop NONCE_LEN)
  else .error (.Malformed "aead payload too short")

def SEALED_BOX_INFO : List UInt8 := utf8 "pergamon/v1/sealed-box"

def sealed_box_key (shared eph_pub recip_pub : Bytes KEY_LEN) : Bytes KEY_LEN :=
  p.hkdf_key shared.toList (SEALED_BOX_INFO ++ eph_pub.toList ++ recip_pub.toList)

/-- Seal a plaintext to a public key, with an ephemeral key pair and a nonce that are drawn
    for it, if the operating system gives them. -/
def seal_to (draw : Option Draw) (recipient_pub : Bytes KEY_LEN) (aad plaintext : List UInt8) :
    Except CryptoError (List UInt8) :=
  match draw with
  | none => .error .Random
  | some draw => do
    let eph_pub := p.x25519_public draw.scalar
    let shared := p.diffie_hellman draw.scalar recipient_pub
    let box ← p.aead_seal draw.nonce (p.sealed_box_key shared eph_pub recipient_pub) aad plaintext
    return eph_pub.toList ++ box

def open_sealed (recipient_secret : Bytes KEY_LEN) (aad data : List UInt8) : Except CryptoError (List UInt8) :=
  if long : KEY_LEN + NONCE_LEN + TAG_LEN ≤ data.length then
    let eph_pub : Bytes KEY_LEN := ⟨data.take KEY_LEN,by rw [List.length_take]; omega⟩
    let shared := p.diffie_hellman recipient_secret eph_pub
    p.aead_open (p.sealed_box_key shared eph_pub (p.x25519_public recipient_secret)) aad (data.drop KEY_LEN)
  else .error (.Malformed "sealed box too short")

variable {p} {key secret : Bytes KEY_LEN} {nonce : Bytes NONCE_LEN} {draw : Option Draw} {aad aad' msg msg' box : List UInt8}

theorem aead_seal_ok : p.aead_seal nonce key aad msg = .ok box ↔
    ∃ ct, p.encrypt key nonce aad msg = some ct ∧ nonce.toList ++ ct = box := by
  simp only [aead_seal,aead_encrypt_with_nonce,bind_ok]
  cases p.encrypt key nonce aad msg <;> simp [pure,Except.pure]

theorem aead_open_append (long : TAG_LEN ≤ msg.length) :
    p.aead_open key aad (nonce.toList ++ msg) = p.aead_decrypt_with_nonce key nonce aad msg := by
  have size := nonce.toList_length
  unfold aead_open
  rw [dif_pos (by rw [List.length_append]; omega)]
  have first : (nonce.toList ++ msg).take NONCE_LEN = nonce.toList := List.take_left' size
  have rest : (nonce.toList ++ msg).drop NONCE_LEN = msg := List.drop_left' size
  simp only [first,rest]
  rfl

theorem seal_to_ok {recipient_pub : Bytes KEY_LEN} : p.seal_to draw recipient_pub aad msg = .ok box ↔
    ∃ d, draw = some d ∧ ∃ ct, p.encrypt (p.sealed_box_key (p.diffie_hellman d.scalar recipient_pub)
      (p.x25519_public d.scalar) recipient_pub) d.nonce aad msg = some ct ∧
        (p.x25519_public d.scalar).toList ++ (d.nonce.toList ++ ct) = box := by
  cases draw with
  | none => simp [seal_to]
  | some d => simp [seal_to,bind_ok,aead_seal_ok,pure,Except.pure]

theorem length_seal_to (lawful : p.Lawful) {recipient_pub : Bytes KEY_LEN} (made : p.seal_to draw recipient_pub aad msg = .ok box) :
    box.length = KEY_LEN + NONCE_LEN + msg.length + TAG_LEN := by
  obtain ⟨d,-,ct,encrypted,rfl⟩ := seal_to_ok.mp made
  simp only [List.length_append,List.Vector.toList_length,lawful.encrypt_length _ _ _ _ _ encrypted]
  omega

/-- A short plaintext can be sealed, if there is randomness for it. -/
theorem seal_to_total (lawful : p.Lawful) (d : Draw) (recipient_pub : Bytes KEY_LEN) (aad : List UInt8)
    (short : msg.length < 2 ^ 32) : ∃ box, p.seal_to (some d) recipient_pub aad msg = .ok box := by
  obtain ⟨ct,made⟩ := lawful.encrypt_total (p.sealed_box_key (p.diffie_hellman d.scalar recipient_pub)
    (p.x25519_public d.scalar) recipient_pub) d.nonce aad msg short
  exact ⟨_,seal_to_ok.mpr ⟨d,rfl,ct,made,rfl⟩⟩

/-- To open a box with the secret key it was sealed to is to decrypt under the key that it
    was encrypted under. -/
theorem open_sealed_box (lawful : p.Lawful) {d : Draw} {ct : List UInt8} (long : TAG_LEN ≤ ct.length) :
    p.open_sealed secret aad ((p.x25519_public d.scalar).toList ++ (d.nonce.toList ++ ct)) =
      p.aead_decrypt_with_nonce (p.sealed_box_key (p.diffie_hellman d.scalar (p.x25519_public secret))
        (p.x25519_public d.scalar) (p.x25519_public secret)) d.nonce aad ct := by
  have size := (p.x25519_public d.scalar).toList_length
  have size' := d.nonce.toList_length
  unfold open_sealed
  rw [dif_pos (by simp only [List.length_append]; omega)]
  have first : ((p.x25519_public d.scalar).toList ++ (d.nonce.toList ++ ct)).take KEY_LEN =
    (p.x25519_public d.scalar).toList := List.take_left' size
  have rest : ((p.x25519_public d.scalar).toList ++ (d.nonce.toList ++ ct)).drop KEY_LEN = d.nonce.toList ++ ct :=
    List.drop_left' size
  simp only [first,rest]
  rw [aead_open_append long,lawful.agree d.scalar secret]
  rfl

theorem open_sealed_seal_to (lawful : p.Lawful) (made : p.seal_to draw (p.x25519_public secret) aad msg = .ok box) :
    p.open_sealed secret aad box = .ok msg := by
  obtain ⟨d,-,ct,encrypted,rfl⟩ := seal_to_ok.mp made
  rw [open_sealed_box lawful (by rw [lawful.encrypt_length _ _ _ _ _ encrypted]; omega),aead_decrypt_with_nonce,
    (lawful.decrypt_iff ..).mpr encrypted]

/-- What a box gives under other data is what was sealed. -/
theorem opens_seal_to (lawful : p.Lawful) (made : p.seal_to draw (p.x25519_public secret) aad msg = .ok box)
    (opened : p.open_sealed secret aad' box = .ok msg') : msg' = msg := by
  obtain ⟨d,-,ct,encrypted,rfl⟩ := seal_to_ok.mp made
  rw [open_sealed_box lawful (by rw [lawful.encrypt_length _ _ _ _ _ encrypted]; omega),aead_decrypt_with_nonce] at opened
  split at opened
  · next found =>
    cases opened
    exact lawful.keystream _ _ _ _ _ _ _ ((lawful.decrypt_iff ..).mp found) encrypted
  · cases opened

end Primitives

/-! ### Primitives to evaluate with -/

/-- The value of a polynomial in the bytes, and the last eight of them. -/
def digest (k : ℕ) (bytes : List UInt8) : Bytes (k + 8) :=
  ⟨Wire.be_bytes k (bytes.foldl (fun h b => h * 65599 + b.toNat + 1) 0) ++ (List.replicate 8 0 ++ bytes).drop bytes.length,
    by simp only [List.length_append,Wire.length_be_bytes,List.length_drop,List.length_replicate]; omega⟩

theorem digest_append {first last : List UInt8} (eight : last.length = 8) (k : ℕ) :
    ∃ bytes, bytes.length = k ∧ (digest k (first ++ last)).toList = bytes ++ last := by
  refine ⟨Wire.be_bytes k ((first ++ last).foldl (fun h b => h * 65599 + b.toNat + 1) 0),Wire.length_be_bytes ..,?_⟩
  have off : (first ++ last).length = (List.replicate 8 (0 : UInt8) ++ first).length := by
    rw [List.length_append,List.length_append,List.length_replicate,eight,Nat.add_comm]
  simp only [digest,List.Vector.toList_mk]
  rw [off,← List.append_assoc,List.drop_left]

def power (base : ℕ) (secret : Bytes KEY_LEN) : Bytes KEY_LEN :=
  ⟨Wire.be_bytes KEY_LEN (Wire.value secret.toList * base),by simp⟩

def plainTag (key : Bytes KEY_LEN) (nonce : Bytes NONCE_LEN) (aad msg : List UInt8) : Bytes TAG_LEN :=
  digest 8 (key.toList ++ nonce.toList ++ Wire.be_bytes 8 aad.length ++ aad ++ msg)

/-- Primitives that keep the laws and hide nothing. -/
def plainPrimitives : Primitives where
  blake3_hash := digest 24
  sha256 bytes := digest 24 (0 :: bytes)
  hkdf_key ikm info := digest 24 (1 :: ikm ++ info)
  hmac_sha256 key msg := digest 24 (2 :: key ++ msg)
  argon2id_kek passphrase salt := some (digest 24 (3 :: salt ++ passphrase))
  encrypt key nonce aad msg := some (msg ++ (plainTag key nonce aad msg).toList)
  decrypt key nonce aad ct :=
    let msg := ct.take (ct.length - TAG_LEN)
    if msg ++ (plainTag key nonce aad msg).toList = ct then some msg else none
  x25519_public := power 9
  diffie_hellman secret public_key := power (Wire.value public_key.toList) secret
  ed25519_public := power 5
  ed25519_sign signing_key msg := digest 56 ((power 5 signing_key).toList ++ msg)
  ed25519_verify verifying_key msg sig :=
    if sig = digest 56 (verifying_key.toList ++ msg) then .ok () else .error .BadSignature

theorem plainPrimitives_lawful : plainPrimitives.Lawful where
  decrypt_iff key nonce aad msg ct := by
    simp only [plainPrimitives,Option.ite_none_right_eq_some,Option.some.injEq]
    constructor
    · rintro ⟨same,rfl⟩
      exact same
    · rintro rfl
      have size : (msg ++ (plainTag key nonce aad msg).toList).length - TAG_LEN = msg.length := by simp [TAG_LEN]
      rw [size,List.take_left' rfl]
      exact ⟨rfl,rfl⟩
  keystream key nonce aad aad' msg msg' ct made made' := by
    have same := Option.some.inj (made.trans made'.symm)
    exact (List.append_inj' same (by simp)).1
  encrypt_total key nonce aad msg _ := ⟨_,rfl⟩
  encrypt_length key nonce aad msg ct made := by
    cases made
    simp
  agree a b := by
    apply Subtype.ext
    simp only [plainPrimitives,power,List.Vector.toList_mk]
    apply Wire.be_bytes_congr
    rw [Wire.value_be_bytes,Wire.value_be_bytes,Nat.mul_mod_mod,Nat.mul_mod_mod]
    congr 1
    ring
  verify_sign signing_key msg := if_pos rfl

def plainBase64 : Base64 where
  encode bytes := String.ofList (bytes.map (fun b => Char.ofNat b.toNat))
  decode s := s.toList.mapM (fun c => if c.toNat < 256 then some (.ofNat c.toNat) else none)
  decode_encode bytes := by
    rw [String.toList_ofList]
    induction bytes with
    | nil => rfl
    | cons b bytes ih =>
      have byte : (Char.ofNat b.toNat).toNat = b.toNat := by
        have all : ∀ b : Fin 256, (Char.ofNat b.val).toNat = b.val := by decide +kernel
        exact all ⟨b.toNat,b.toNat_lt⟩
      have small := b.toNat_lt
      rw [List.map_cons,List.mapM_cons,ih,byte,if_pos (by omega),UInt8.ofNat_toNat]
      rfl

end Pergamon
