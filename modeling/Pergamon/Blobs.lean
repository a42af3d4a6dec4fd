import Pergamon.CryptoContext
import Pergamon.HttpRelay

/-!
Blobs, the large contents that changes only refer to. A blob is encrypted under a key that
its plaintext and a key epoch give, and is stored under the hash of its ciphertext, which
the change names from the beginning. A push encrypts the plaintext again under the epoch of
that day, and whoever pulls the change opens the blob under the epoch that its event shows.

So a blob gets through if it was addressed under the epoch of the push, whatever else the
server is asked meanwhile. One that was addressed under another epoch is either not stored
under its address, so that the server refuses the change, or it was stored before, and then
no device that needs it opens it (`blobs_arrive`).
-/
namespace Pergamon
open Fallible

/-! ### Convergent encryption -/

def LABEL_BLOB_NONCE : List UInt8 := utf8 "pergamon/v1/blob-nonce"
def BLOB_AAD_TAG : List UInt8 := utf8 "pergamon/v1/blob-aad"

structure EncryptedBlob where
  ct_hash : String
  plaintext_hash : Bytes 32
  ciphertext : List UInt8
  deriving DecidableEq

/-- Associated data that binds the epoch and the hash of the plaintext. -/
def blob_aad (epoch : UInt32) (plaintext_hash : Bytes 32) : List UInt8 :=
  BLOB_AAD_TAG ++ u32_be_bytes epoch.toNat ++ plaintext_hash.toList

namespace Primitives
variable (p : Primitives)

/-- The nonce of a plaintext. HKDF writes the beginning of one and the same block, whatever length is asked for. -/
def blob_nonce (ack : AccountContentKey) (plaintext_hash : Bytes 32) : Bytes NONCE_LEN :=
  ⟨(p.hkdf_key ack.key.toList (LABEL_BLOB_NONCE ++ plaintext_hash.toList)).toList.take NONCE_LEN,
    by rw [List.length_take,List.Vector.toList_length]; rfl⟩

/-- Encrypt a blob under a key and a nonce that its plaintext gives. -/
def encrypt_blob (ack : AccountContentKey) (plaintext : List UInt8) : Except CryptoError EncryptedBlob := do
  let plaintext_hash := p.blake3_hash plaintext
  let ciphertext ← p.aead_encrypt_with_nonce (p.blob_key ack plaintext_hash) (p.blob_nonce ack plaintext_hash)
    (blob_aad ack.epoch plaintext_hash) plaintext
  return ⟨p.ct_hash ciphertext,plaintext_hash,ciphertext⟩

/-- Decrypt a blob; its plaintext is hashed again. -/
def decrypt_blob (ack : AccountContentKey) (plaintext_hash : Bytes 32) (ciphertext : List UInt8) :
    Except CryptoError (List UInt8) := do
  let plaintext ← p.aead_decrypt_with_nonce (p.blob_key ack plaintext_hash) (p.blob_nonce ack plaintext_hash)
    (blob_aad ack.epoch plaintext_hash) ciphertext
  if p.blake3_hash plaintext = plaintext_hash then .ok plaintext else .error .Decryption

variable {p} {ack : AccountContentKey} {plaintext opened ciphertext : List UInt8} {blob : EncryptedBlob} {plaintext_hash : Bytes 32}

theorem encrypt_blob_ok : p.encrypt_blob ack plaintext = .ok blob ↔
    p.encrypt (p.blob_key ack (p.blake3_hash plaintext)) (p.blob_nonce ack (p.blake3_hash plaintext))
      (blob_aad ack.epoch (p.blake3_hash plaintext)) plaintext = some blob.ciphertext ∧
    blob.ct_hash = p.ct_hash blob.ciphertext ∧ blob.plaintext_hash = p.blake3_hash plaintext := by
  obtain ⟨ct_hash,hash,ct⟩ := blob
  simp only [encrypt_blob,aead_encrypt_with_nonce,bind_ok]
  cases made : p.encrypt (p.blob_key ack (p.blake3_hash plaintext)) (p.blob_nonce ack (p.blake3_hash plaintext))
      (blob_aad ack.epoch (p.blake3_hash plaintext)) plaintext with
  | none => simp
  | some ct' =>
    simp only [Except.ok.injEq,exists_eq_left',Option.some.injEq,pure,Except.pure,EncryptedBlob.mk.injEq]
    constructor
    · rintro ⟨rfl,rfl,rfl⟩
      exact ⟨rfl,rfl,rfl⟩
    · rintro ⟨rfl,rfl,rfl⟩
      exact ⟨rfl,rfl,rfl⟩

theorem decrypt_blob_ok : p.decrypt_blob ack plaintext_hash ciphertext = .ok opened ↔
    p.decrypt (p.blob_key ack plaintext_hash) (p.blob_nonce ack plaintext_hash) (blob_aad ack.epoch plaintext_hash) ciphertext =
      some opened ∧ p.blake3_hash opened = plaintext_hash := by
  simp only [decrypt_blob,aead_decrypt_with_nonce,bind_ok]
  cases p.decrypt (p.blob_key ack plaintext_hash) (p.blob_nonce ack plaintext_hash) (blob_aad ack.epoch plaintext_hash) ciphertext with
  | none => simp
  | some found =>
    simp only [Except.ok.injEq,exists_eq_left',Option.some.injEq]
    rw [if_ok,Except.ok.injEq]
    constructor
    · rintro ⟨same,rfl⟩
      exact ⟨rfl,same⟩
    · rintro ⟨rfl,same⟩
      exact ⟨same,rfl⟩

/-- A blob opens under the epoch that it was encrypted under. -/
theorem decrypt_encrypt_blob (lawful : p.Lawful) (made : p.encrypt_blob ack plaintext = .ok blob) :
    p.decrypt_blob ack blob.plaintext_hash blob.ciphertext = .ok plaintext := by
  obtain ⟨encrypted,-,hash⟩ := encrypt_blob_ok.mp made
  rw [decrypt_blob_ok,hash]
  exact ⟨(lawful.decrypt_iff ..).mpr encrypted,rfl⟩

end Primitives

/-! ### Hashes in hexadecimal -/

def hex_nibble (c : Char) : Option ℕ :=
  if c.isDigit then some (c.toNat - 48)
  else if 'a' ≤ c ∧ c ≤ 'f' then some (c.toNat - 87)
  else if 'A' ≤ c ∧ c ≤ 'F' then some (c.toNat - 55)
  else none

/-- `u8::from_str_radix` on two characters, which takes a plus sign as well. -/
def byte_from_hex (c d : Char) : Option UInt8 :=
  if c = '+' then (hex_nibble d).map UInt8.ofNat
  else (hex_nibble c).bind (fun high => (hex_nibble d).map (fun low => UInt8.ofNat (16 * high + low)))

def bytes_from_hex : List Char → Option (List UInt8)
  | [] => some []
  | [_] => none
  | c :: d :: rest => (byte_from_hex c d).bind (fun b => (bytes_from_hex rest).map (b :: ·))

/-- Read 32 bytes. -/
def hex32 (s : String) : Option (Bytes 32) :=
  if (utf8 s).length = 64 then
    (bytes_from_hex s.toList).bind (fun bytes => if size : bytes.length = 32 then some ⟨bytes,size⟩ else none)
  else none

theorem bytes_from_hex_hex (bytes : List UInt8) : bytes_from_hex (hex bytes).toList = some bytes := by
  have digit : ∀ n < 16, hex_nibble (Nat.digitChar n) = some n := by decide
  have byte (b : UInt8) : byte_from_hex (Nat.digitChar (b.toNat / 16)) (Nat.digitChar (b.toNat % 16)) = some b := by
    have small := b.toNat_lt
    have whole : 16 * (b.toNat / 16) + b.toNat % 16 = b.toNat := Nat.div_add_mod b.toNat 16
    rw [byte_from_hex,if_neg (Nat.digitChar_ne '+' rfl),digit _ (by omega),digit _ (by omega),Option.bind_some,Option.map_some,whole,
      UInt8.ofNat_toNat]
  rw [hex,String.toList_ofList]
  induction bytes with
  | nil => rfl
  | cons b bytes ih =>
    rw [List.flatMap_cons,hex_byte,List.cons_append,List.cons_append,List.nil_append,bytes_from_hex,byte,ih]
    rfl

/-- A hash is read as it was written. -/
theorem hex32_hex (hash : Bytes 32) : hex32 (hex hash.toList) = some hash := by
  rw [hex32,if_pos (by rw [length_utf8_hex,List.Vector.toList_length]),bytes_from_hex_hex,Option.bind_some,
    dif_pos hash.toList_length]
  rfl

/-! ### The blobs of the server -/

namespace SyncStore

/-- The bytes of a blob, `None` if the account has no such blob. -/
def blob_get (store : SyncStore) (account_id ct_hash : String) : Option (List UInt8) :=
  (store.blobs.find? (fun row => row.account_id = account_id && row.ct_hash = ct_hash)).map BlobRow.bytes

/-- The hashes that are present and those that are missing. -/
def blob_probe (store : SyncStore) (account_id : String) (hashes : List String) : List String × List String :=
  hashes.partition (store.blob_present account_id)

end SyncStore

/-! ### The client -/

namespace CryptoContext
variable (p : Primitives)

/-- Encrypt a blob under the epoch of the context. -/
def encrypt_blob_plaintext (ctx : CryptoContext) (plaintext : List UInt8) : Except SyncError EncryptedBlob :=
  (p.encrypt_blob (ctx.content_key p) plaintext).mapError (fun _ => .Crypto)

/-- Decrypt a blob under an epoch and the hash of its plaintext. -/
def decrypt_blob_ciphertext (ctx : CryptoContext) (epoch : UInt32) (plaintext_hash_hex : String) (ciphertext : List UInt8) :
    Except SyncError (List UInt8) :=
  match hex32 plaintext_hash_hex with
  | none => .error (.Protocol ("bad plaintext hash " ++ plaintext_hash_hex))
  | some hash => (p.decrypt_blob (ctx.content_key_for p epoch) hash ciphertext).mapError (fun _ => .Crypto)

end CryptoContext

/-- The plaintexts that a device has, one file each under the hexadecimal of its hash. -/
structure FsBlobStore where
  file : String → Option (List UInt8)

namespace FsBlobStore

/-- The name of a file; a hash is one if it is in lowercase hexadecimal. -/
def path_for (plaintext_hash_hex : String) : Except String String :=
  if plaintext_hash_hex ≠ "" ∧ plaintext_hash_hex.toList.all (fun c => c.isDigit || ('a' ≤ c && c ≤ 'f')) then
    .ok plaintext_hash_hex
  else .error ("invalid blob hash `" ++ plaintext_hash_hex ++ "`")

def load (blobs : FsBlobStore) (plaintext_hash_hex : String) : Except String (Option (List UInt8)) := do
  let path ← path_for plaintext_hash_hex
  return blobs.file path

/-- Store a plaintext, unless there is a file for it. -/
def store (blobs : FsBlobStore) (plaintext_hash_hex : String) (plaintext : List UInt8) : Except String FsBlobStore := do
  let path ← path_for plaintext_hash_hex
  return if (blobs.file path).isSome then blobs else ⟨Function.update blobs.file path (some plaintext)⟩

end FsBlobStore

namespace Blobs

/-- What comes between two requests of a device: the calls that the server serves first,
    and the failure that the request meets with, if there is one. An answer may be lost too:
    then the call is among those that the server serves. -/
structure Meanwhile where
  calls : List SyncStore.Call
  fails : Option SyncError

/-- A device at work: its files, the server, and what comes before each of its requests. -/
structure Station where
  store : SyncStore
  ahead : List Meanwhile
  blobs : FsBlobStore

abbrev Work := EStateM SyncError Station

/-- What the client makes of the status with which the server refuses a request. -/
def refused : StoreError → SyncError
  | .BlobHashMismatch _ _ => .AuthRefused 400 "CONTENT_REQUEST_REFUSED"
  | .MissingBlob _ => .AuthRefused 409 "CONTENT_REQUEST_REFUSED"
  | .QuotaExceeded _ => .Transport
  | .AccountPairMismatch => .Transport
  | .Db => .Transport

/-- The largest answer that the client takes. -/
def RESPONSE_LIMIT : ℕ := 67108864

/-- The length of the answer to a probe in JSON. -/
def probe_len (present missing : List String) : ℕ :=
  "\x7b\"present\":,\"missing\":\x7d".length +
    HttpRelay.array_len (present.map (fun hash => "\"\"".length + HttpRelay.json_len hash)) +
    HttpRelay.array_len (missing.map (fun hash => "\"\"".length + HttpRelay.json_len hash))

section
variable (p : Primitives)

/-- A request is on its way. -/
def reach : Work Unit := fun s =>
  match s.ahead with
  | [] => .ok () s
  | next :: ahead =>
    let s := { s with store := next.calls.foldl (SyncStore.serve p.ct_hash) s.store, ahead := ahead }
    match next.fails with
    | none => .ok () s
    | some e => .error e s

/-- Take an answer of a length, if it is not too large. -/
def response_bytes {α : Type} (len : ℕ) (a : α) : Work α :=
  if len ≤ RESPONSE_LIMIT then pure a else throw (.Protocol "relay response exceeds the allowed size")

/-- Ask which of some hashes the server is missing. -/
def blob_probe (account_id : String) (ct_hashes : List String) : Work (List String) := do
  reach p
  let s ← get
  let (present,missing) := s.store.blob_probe account_id ct_hashes
  response_bytes (probe_len present missing) missing

def blob_put (account_id ct_hash : String) (ciphertext : List UInt8) : Work Unit := do
  reach p
  let s ← get
  match SyncStore.blob_put p.ct_hash account_id ct_hash ciphertext s.store with
  | .ok () store => set { s with store := store }
  | .error e store => do
    set { s with store := store }
    throw (refused e)

def blob_get (account_id ct_hash : String) : Work (List UInt8) := do
  reach p
  let s ← get
  match s.store.blob_get account_id ct_hash with
  | none => throw (.MissingBlob ct_hash)
  | some bytes => response_bytes bytes.length bytes

variable (ctx : CryptoContext) (account : String)

/-- Upload a blob that the probe has found missing. -/
def upload_blob (missing : List String) (entry : BlobManifestEntry) : Work Unit :=
  if entry.ct_hash ∉ missing then pure ()
  else do
    let s ← get
    match s.blobs.load entry.plaintext_hash with
    | .error _ => throw .Transport
    | .ok none => throw (.MissingBlob entry.ct_hash)
    | .ok (some plaintext) =>
      match ctx.encrypt_blob_plaintext p plaintext with
      | .error e => throw e
      | .ok encrypted => blob_put p account encrypted.ct_hash encrypted.ciphertext

/-- Upload every blob a change references that the server is missing. -/
def upload_blobs (body : ChangeBody) : Work Unit :=
  if body.blob_manifest.isEmpty then pure ()
  else do
    let missing ← blob_probe p account (body.blob_manifest.map BlobManifestEntry.ct_hash)
    body.blob_manifest.forM (upload_blob p ctx account missing)

/-- Fetch a blob whose plaintext the device does not have, and store the plaintext. -/
def fetch_blob (key_epoch : UInt32) (entry : BlobManifestEntry) : Work Unit := do
  let s ← get
  match s.blobs.load entry.plaintext_hash with
  | .error _ => throw .Transport
  | .ok (some _) => pure ()
  | .ok none => do
    let ciphertext ← blob_get p account entry.ct_hash
    match ctx.decrypt_blob_ciphertext p key_epoch entry.plaintext_hash ciphertext with
    | .error e => throw e
    | .ok plaintext => do
      let s ← get
      match s.blobs.store entry.plaintext_hash plaintext with
      | .error _ => throw .Transport
      | .ok blobs => set { s with blobs := blobs }

/-- Fetch and locally store every blob a change references. -/
def fetch_blobs (body : ChangeBody) (key_epoch : UInt32) : Work Unit :=
  body.blob_manifest.forM (fetch_blob p ctx account key_epoch)

end

end Blobs

/-! ### What the server has of the blobs -/

namespace SyncStore
variable {ct_hash : List UInt8 → String} {store written : SyncStore} {account hash : String} {bytes : List UInt8}
  {world : Set (List UInt8)} {calls : List Call} {call : Call}

/-- A blob that is put without an error stands under the hash of its bytes. -/
theorem blob_put_hash (ok : blob_put ct_hash account hash bytes store = .ok () written) : ct_hash bytes = hash := by
  by_contra mismatch
  unfold blob_put at ok
  rw [if_pos mismatch] at ok
  cases ok

/-- A call stores a blob only if it puts it under the hash of its bytes. -/
theorem serve_blobs (ct_hash : List UInt8 → String) (store : SyncStore) (call : Call) :
    (store.serve ct_hash call).blobs = store.blobs ∨
      ∃ account hash bytes, call = .blob_put account hash bytes ∧ ct_hash bytes = hash ∧
        (store.serve ct_hash call).blobs = store.blobs ++ [⟨account,hash,bytes,min bytes.length i64Max⟩] := by
  cases call with
  | push_events account_id events =>
    refine .inl ?_
    cases pushed : push_events account_id events store with
    | error e written => rw [serve,pushed,transaction_error pushed]; rfl
    | ok outcome written =>
      obtain ⟨acc,same,-,stored⟩ := push_events_stored pushed
      rw [serve,pushed,leaves,← congrArg Store.blobs same,stored.blobs]
  | blob_put account hash bytes =>
    rcases blob_put_cases ct_hash account hash bytes with ⟨e,put⟩ | ⟨-,put⟩ | ⟨-,-,put⟩
    · exact .inl (by rw [serve,put]; rfl)
    · exact .inl (by rw [serve,put]; rfl)
    · exact .inr ⟨account,hash,bytes,rfl,blob_put_hash put,by rw [serve,put,leaves,remember_toStore]⟩
  | device_record_put account_id device_id bytes =>
    refine .inl ?_
    simp only [serve,device_record_put]
    split <;> simp
  | wrapped_bundle_put account_id recipient_device_id bytes =>
    refine .inl ?_
    simp only [serve,wrapped_bundle_put]
    split <;> simp
  | attestation_append account_id bytes =>
    refine .inl ?_
    simp only [serve,attestation_append]
    split <;> simp
  | recovery_blob_put account_id bytes =>
    refine .inl ?_
    simp only [serve,recovery_blob_put]
    split <;> simp
  | pair_auth_instance instance_id =>
    obtain ⟨marker,paired⟩ := pair_auth_instance_leaves store instance_id
    exact .inl (by rw [serve,paired])
  | read account_id => exact .inl rfl

/-- Every blob stands under the hash of its bytes, and these are from a world. -/
def Stocked (ct_hash : List UInt8 → String) (world : Set (List UInt8)) (store : SyncStore) : Prop :=
  ∀ row ∈ store.blobs, row.ct_hash = ct_hash row.bytes ∧ row.bytes ∈ world

/-- What a call puts is from the world. -/
def Call.Brings (world : Set (List UInt8)) (call : Call) : Prop :=
  ∀ account hash bytes, call = .blob_put account hash bytes → bytes ∈ world

theorem stocked_run (stocked : store.Stocked ct_hash world) (brings : ∀ call ∈ calls, call.Brings world) :
    (calls.foldl (serve ct_hash) store).Stocked ct_hash world := by
  induction calls generalizing store with
  | nil => exact stocked
  | cons call calls ih =>
    refine ih ?_ (fun later inside => brings later (.tail _ inside))
    rcases serve_blobs ct_hash store call with same | ⟨account,hash,bytes,put,addressed,grown⟩
    · exact fun row inside => stocked row (same ▸ inside)
    · intro row inside
      rw [grown] at inside
      rcases List.mem_append.mp inside with old | new
      · exact stocked row old
      · rw [List.mem_singleton.mp new]
        exact ⟨addressed.symm,brings call (.head _) account hash bytes put⟩

/-- A blob stays. -/
theorem present_run (present : store.blob_present account hash = true) :
    (calls.foldl (serve ct_hash) store).blob_present account hash = true := by
  induction calls generalizing store with
  | nil => exact present
  | cons call calls ih =>
    refine ih ?_
    unfold Store.blob_present at present ⊢
    rcases serve_blobs ct_hash store call with same | ⟨_,_,_,-,-,grown⟩
    · rw [same]
      exact present
    · rw [grown,List.any_append,present,Bool.true_or]

/-- A blob is there only if it was there or a call has put it. -/
theorem absent_run (absent : store.blob_present account hash = false)
    (others : ∀ bytes, .blob_put account hash bytes ∉ calls) :
    (calls.foldl (serve ct_hash) store).blob_present account hash = false := by
  induction calls generalizing store with
  | nil => exact absent
  | cons call calls ih =>
    refine ih ?_ (fun bytes inside => others bytes (.tail _ inside))
    unfold Store.blob_present at absent ⊢
    rcases serve_blobs ct_hash store call with same | ⟨account',hash',bytes,put,-,grown⟩
    · rw [same]
      exact absent
    · have other : ¬ (account' = account ∧ hash' = hash) := by
        rintro ⟨rfl,rfl⟩
        exact others bytes (put ▸ .head _)
      rw [grown,List.any_append,absent]
      simpa using other

/-- Where no two byte strings of the world have one hash, a blob that is there is the one
    that its address was made of. -/
theorem blob_get_present (stocked : store.Stocked ct_hash world) (apart : world.InjOn ct_hash) (known : bytes ∈ world)
    (present : store.blob_present account (ct_hash bytes) = true) : store.blob_get account (ct_hash bytes) = some bytes := by
  have found : (store.blobs.find? (fun row => row.account_id = account && row.ct_hash = ct_hash bytes)).isSome := by
    rw [List.find?_isSome]
    simpa [Store.blob_present] using present
  obtain ⟨row,found⟩ := Option.isSome_iff_exists.mp found
  obtain ⟨addressed,inside⟩ := stocked row (List.mem_of_find?_eq_some found)
  have same := List.find?_some found
  simp only [Bool.and_eq_true,decide_eq_true_eq] at same
  rw [blob_get,found,Option.map_some,apart inside known (addressed.symm.trans same.2)]

end SyncStore

/-! ### Between two requests -/

namespace Blobs

section
variable {p : Primitives} {own : SyncStore.Call → Prop} {files : FsBlobStore → SyncStore.Call → Prop} {s t r : Station}
  {account hash : String} {bytes : List UInt8}

/-- From one state to a later one the server has served calls that were to come, and calls
    of the device's own. -/
structure Proceeds (p : Primitives) (own : SyncStore.Call → Prop) (s t : Station) : Prop where
  ahead : t.ahead <:+ s.ahead
  served : ∃ calls : List SyncStore.Call, t.store = calls.foldl (SyncStore.serve p.ct_hash) s.store ∧
    ∀ call ∈ calls, (∃ next ∈ s.ahead, call ∈ next.calls) ∨ own call

theorem Proceeds.refl (s : Station) : Proceeds p own s s := ⟨List.suffix_refl _,[],rfl,fun _ inside => nomatch inside⟩

theorem Proceeds.trans (first : Proceeds p own s t) (second : Proceeds p own t r) : Proceeds p own s r := by
  obtain ⟨calls,served,from_⟩ := first.served
  obtain ⟨calls',served',from'⟩ := second.served
  refine ⟨second.ahead.trans first.ahead,calls ++ calls',by rw [List.foldl_append,← served,served'],fun call inside => ?_⟩
  rcases List.mem_append.mp inside with inside | inside
  · exact from_ call inside
  · rcases from' call inside with ⟨next,coming,here⟩ | mine
    · exact .inl ⟨next,first.ahead.subset coming,here⟩
    · exact .inr mine

/-- The files are as they were, and the device has made only calls that these files explain. -/
def Uploading (p : Primitives) (files : FsBlobStore → SyncStore.Call → Prop) (s t : Station) : Prop :=
  t.blobs = s.blobs ∧ Proceeds p (files s.blobs) s t

theorem Uploading.refl (s : Station) : Uploading p files s s := ⟨rfl,.refl s⟩

theorem Uploading.trans (s t r : Station) (first : Uploading p files s t) (second : Uploading p files t r) : Uploading p files s r :=
  ⟨second.1.trans first.1,first.2.trans (first.1 ▸ second.2)⟩

theorem reach_uploading : Relates (Uploading p files) (reach p) := by
  intro s
  unfold reach
  cases coming : s.ahead with
  | nil => exact .refl s
  | cons next ahead =>
    have served : Uploading p files s { s with store := next.calls.foldl (SyncStore.serve p.ct_hash) s.store, ahead := ahead } := by
      refine ⟨rfl,by rw [coming]; exact List.suffix_cons _ _,next.calls,rfl,fun call inside => .inl ⟨next,?_,inside⟩⟩
      rw [coming]
      exact .head _
    cases failed : next.fails with
    | none => simp only [failed]; exact served
    | some e => simp only [failed]; exact served

theorem response_bytes_uploading {α : Type} (len : ℕ) (a : α) : Relates (Uploading p files) (response_bytes len a) := by
  unfold response_bytes
  split
  · exact Relates.pure Uploading.refl a
  · exact Relates.throw Uploading.refl _

theorem blob_probe_uploading (account : String) (hashes : List String) :
    Relates (Uploading p files) (blob_probe p account hashes) :=
  Relates.bind Uploading.trans reach_uploading (fun _ =>
    Relates.bind Uploading.trans (Relates.get Uploading.refl) (fun _ => response_bytes_uploading _ _))

theorem blob_probe_ok {hashes missing : List String} (ok : blob_probe p account hashes s = .ok missing t) :
    missing = hashes.filter (fun hash => !t.store.blob_present account hash) := by
  obtain ⟨_,r,-,ok⟩ := work_bind_ok.mp ok
  simp only [get_bind,SyncStore.blob_probe,List.partition_eq_filter_filter,response_bytes] at ok
  split at ok
  · cases ok
    rfl
  · cases ok

theorem blob_put_eq : blob_put p account hash bytes s = match reach p s with
    | .error e r => .error e r
    | .ok () r => match SyncStore.blob_put p.ct_hash account hash bytes r.store with
      | .ok () store => .ok () { r with store := store }
      | .error e store => .error (refused e) { r with store := store } := by
  unfold blob_put
  rw [work_bind]
  cases reach p s with
  | error e r => rfl
  | ok u r =>
    simp only [get_bind]
    cases SyncStore.blob_put p.ct_hash account hash bytes r.store <;> rfl

theorem blob_put_uploading (explained : files s.blobs (.blob_put account hash bytes)) :
    Uploading p files s (leaves (blob_put p account hash bytes s)) := by
  have before : Uploading p files s (leaves (reach p s)) := reach_uploading s
  rw [blob_put_eq]
  cases reached : reach p s with
  | error e r =>
    rw [reached] at before
    exact before
  | ok u r =>
    rw [reached] at before
    have put : Uploading p files r { r with store := r.store.serve p.ct_hash (.blob_put account hash bytes) } :=
      ⟨rfl,List.suffix_refl _,[.blob_put account hash bytes],rfl,fun call inside =>
        .inr (by rw [List.mem_singleton.mp inside]; exact before.1 ▸ explained)⟩
    refine Uploading.trans _ _ _ before ?_
    simp only [SyncStore.serve] at put
    cases written : SyncStore.blob_put p.ct_hash account hash bytes r.store with
    | error e store => rw [written] at put; simp only [written]; exact put
    | ok u store => rw [written] at put; simp only [written]; exact put

/-- A blob that the device has put is there. -/
theorem blob_put_present (ok : blob_put p account hash bytes s = .ok () t) : t.store.blob_present account hash = true := by
  rw [blob_put_eq] at ok
  split at ok
  · cases ok
  next r reached =>
  split at ok
  next store written =>
    cases ok
    rcases SyncStore.blob_put_cases p.ct_hash account hash bytes with ⟨e,put⟩ | ⟨present,put⟩ | ⟨-,-,put⟩
    · cases put.symm.trans written
    · cases put.symm.trans written
      exact present
    · cases put.symm.trans written
      simp [Store.blob_present]
  · cases ok

end

/-! ### Uploading -/

section
variable {p : Primitives} {ctx : CryptoContext} {s t : Station} {account : String} {body : ChangeBody}

/-- The call puts the blob that the epoch of the context makes of a plaintext which the
    manifest names. -/
def Uploads (p : Primitives) (ctx : CryptoContext) (account : String) (manifest : List BlobManifestEntry) (blobs : FsBlobStore)
    (call : SyncStore.Call) : Prop :=
  ∃ entry ∈ manifest, ∃ plaintext blob, blobs.file entry.plaintext_hash = some plaintext ∧
    p.encrypt_blob (ctx.content_key p) plaintext = .ok blob ∧ call = .blob_put account blob.ct_hash blob.ciphertext

/-- What a run of `upload_blob` from a state comes to. -/
theorem upload_blob_cases (p : Primitives) (ctx : CryptoContext) (account : String) (s : Station) (missing : List String)
    (entry : BlobManifestEntry) :
    (∃ e, upload_blob p ctx account missing entry s = .error e s) ∨
    entry.ct_hash ∉ missing ∧ upload_blob p ctx account missing entry s = .ok () s ∨
    ∃ plaintext blob, s.blobs.file entry.plaintext_hash = some plaintext ∧ p.encrypt_blob (ctx.content_key p) plaintext = .ok blob ∧
      upload_blob p ctx account missing entry s = blob_put p account blob.ct_hash blob.ciphertext s := by
  unfold upload_blob
  split
  · next there => exact .inr (.inl ⟨there,rfl⟩)
  simp only [get_bind]
  cases loaded : s.blobs.load entry.plaintext_hash with
  | error e => exact .inl ⟨_,rfl⟩
  | ok found =>
    cases found with
    | none => exact .inl ⟨_,rfl⟩
    | some plaintext =>
      obtain ⟨path,name,file⟩ := bind_ok.mp loaded
      have named : path = entry.plaintext_hash := by
        rw [FsBlobStore.path_for,if_ok,Except.ok.injEq] at name
        exact name.2.symm
      cases encrypted : p.encrypt_blob (ctx.content_key p) plaintext with
      | error e => exact .inl ⟨.Crypto,by simp only [CryptoContext.encrypt_blob_plaintext,encrypted]; rfl⟩
      | ok blob =>
        refine .inr (.inr ⟨plaintext,blob,named ▸ Except.ok.inj file,encrypted,?_⟩)
        simp only [CryptoContext.encrypt_blob_plaintext,encrypted]
        rfl

theorem upload_blob_uploading (missing : List String) {entry : BlobManifestEntry} {manifest : List BlobManifestEntry}
    (inside : entry ∈ manifest) : Relates (Uploading p (Uploads p ctx account manifest)) (upload_blob p ctx account missing entry) := by
  intro s
  rcases upload_blob_cases p ctx account s missing entry with
    ⟨e,failed⟩ | ⟨-,there⟩ | ⟨plaintext,blob,file,encrypted,put⟩
  · rw [failed]; exact .refl s
  · rw [there]; exact .refl s
  · rw [put]; exact blob_put_uploading ⟨entry,inside,plaintext,blob,file,encrypted,rfl⟩

/-- After an upload each blob of the manifest is there under its address, or under the one
    that the epoch of the context gives to its plaintext. -/
theorem upload_blobs_ok (ok : upload_blobs p ctx account body s = .ok () t) :
    Uploading p (Uploads p ctx account body.blob_manifest) s t ∧ ∀ entry ∈ body.blob_manifest,
      ∀ plaintext blob, s.blobs.file entry.plaintext_hash = some plaintext → p.encrypt_blob (ctx.content_key p) plaintext = .ok blob →
        t.store.blob_present account entry.ct_hash = true ∨ t.store.blob_present account blob.ct_hash = true := by
  have stays {s t : Station} (uploading : Uploading p (Uploads p ctx account body.blob_manifest) s t) {hash : String}
      (present : s.store.blob_present account hash = true) : t.store.blob_present account hash = true := by
    obtain ⟨calls,served,-⟩ := uploading.2.served
    rw [served]
    exact SyncStore.present_run present
  unfold upload_blobs at ok
  split at ok
  · next empty =>
    cases ok
    exact ⟨.refl s,fun entry inside => by rw [List.isEmpty_iff.mp empty] at inside; cases inside⟩
  obtain ⟨missing,r,probed,ran⟩ := work_bind_ok.mp ok
  have before : Uploading p (Uploads p ctx account body.blob_manifest) s r := (blob_probe_uploading account _).of_ok probed
  have each : ∀ entry ∈ body.blob_manifest, Relates (Uploading p (Uploads p ctx account body.blob_manifest))
    (upload_blob p ctx account missing entry) := fun entry inside => upload_blob_uploading missing inside
  have after := (Relates.forM Uploading.refl Uploading.trans each).of_ok ran
  refine ⟨Uploading.trans _ _ _ before after,fun entry inside plaintext blob file encrypted => ?_⟩
  by_cases asked : entry.ct_hash ∈ missing
  · obtain ⟨u,v,reached,turn,rest⟩ := forM_mem Uploading.refl Uploading.trans each ran entry inside
    rcases upload_blob_cases p ctx account u missing entry with
      ⟨e,failed⟩ | ⟨there,-⟩ | ⟨plaintext',blob',file',encrypted',put⟩
    · cases failed.symm.trans turn
    · exact absurd asked there
    · have same : plaintext' = plaintext := by
        rw [reached.1,before.1,file] at file'
        exact (Option.some.inj file').symm
      subst same
      cases encrypted'.symm.trans encrypted
      exact .inr (stays rest (blob_put_present (put.symm.trans turn)))
  · rw [blob_probe_ok probed,List.mem_filter,not_and] at asked
    have present := asked (List.mem_map_of_mem inside)
    simp only [Bool.not_eq_true,Bool.not_eq_false'] at present
    exact .inl (stays after present)

end

/-! ### Fetching -/

section
variable {p : Primitives} {world : Set (List UInt8)} {ctx : CryptoContext} {s t : Station} {account : String} {key_epoch : UInt32}
  {bytes : List UInt8}

/-- A station whose requests all get through, at a server with blobs of the world. -/
structure Ready (p : Primitives) (world : Set (List UInt8)) (s : Station) : Prop where
  stocked : s.store.Stocked p.ct_hash world
  coming : ∀ next ∈ s.ahead, next.fails = none ∧ ∀ call ∈ next.calls, call.Brings world

theorem Ready.proceeds (ready : Ready p world s) (proceeds : Proceeds p (fun _ => False) s t) : Ready p world t := by
  obtain ⟨calls,served,from_⟩ := proceeds.served
  refine ⟨served ▸ SyncStore.stocked_run ready.stocked (fun call inside => ?_),
    fun next inside => ready.coming next (proceeds.ahead.subset inside)⟩
  obtain ⟨next,coming,here⟩ := (from_ call inside).resolve_right id
  exact (ready.coming next coming).2 call here

theorem reach_ready (ready : Ready p world s) : ∃ t, reach p s = .ok () t ∧ t.blobs = s.blobs ∧ Proceeds p (fun _ => False) s t := by
  have moved : Uploading p (fun _ _ => False) s (leaves (reach p s)) := reach_uploading s
  unfold reach at moved ⊢
  cases coming : s.ahead with
  | nil => exact ⟨s,rfl,rfl,.refl s⟩
  | cons next ahead =>
    have through := (ready.coming next (by rw [coming]; exact .head _)).1
    simp only [coming,through] at moved ⊢
    exact ⟨_,rfl,moved⟩

/-- The blob that an address was made of is fetched, if it is not too large. -/
theorem blob_get_ready (ready : Ready p world s) (apart : world.InjOn p.ct_hash) (known : bytes ∈ world)
    (present : s.store.blob_present account (p.ct_hash bytes) = true) : ∃ t, t.blobs = s.blobs ∧ Proceeds p (fun _ => False) s t ∧
      blob_get p account (p.ct_hash bytes) s = response_bytes bytes.length bytes t := by
  obtain ⟨t,reached,same,proceeds⟩ := reach_ready ready
  refine ⟨t,same,proceeds,?_⟩
  obtain ⟨calls,served,-⟩ := proceeds.served
  have found := SyncStore.blob_get_present (ready.proceeds proceeds).stocked apart known
    (served ▸ SyncStore.present_run present)
  unfold blob_get
  rw [work_bind,reached]
  simp only [get_bind,found]

theorem path_for_hex (hash : Bytes 32) : FsBlobStore.path_for (hex hash.toList) = .ok (hex hash.toList) := by
  have digit : ∀ n < 16, (Nat.digitChar n).isDigit || ('a' ≤ Nat.digitChar n && Nat.digitChar n ≤ 'f') := by decide
  refine if_pos ⟨fun empty => ?_,List.all_eq_true.mpr (fun c inside => ?_)⟩
  · have nothing : hash.toList = [] := hex_inj.mp (empty.trans rfl)
    have length := hash.toList_length
    rw [nothing] at length
    cases length
  · rw [hex,String.toList_ofList,List.mem_flatMap] at inside
    obtain ⟨b,-,inside⟩ := inside
    have small := b.toNat_lt
    rw [hex_byte,List.mem_cons,List.mem_singleton] at inside
    rcases inside with rfl | rfl
    · exact digit _ (by omega)
    · exact digit _ (by omega)

/-- The context opens the blob under an epoch, and the blob is not too large to be fetched. -/
def Opens (p : Primitives) (ctx : CryptoContext) (key_epoch : UInt32) (blob : EncryptedBlob) : Prop :=
  blob.ciphertext.length ≤ RESPONSE_LIMIT ∧
    ∃ opened, p.decrypt_blob (ctx.content_key_for p key_epoch) blob.plaintext_hash blob.ciphertext = .ok opened

/-- An entry whose blob is at the server. -/
structure Fetchable (p : Primitives) (world : Set (List UInt8)) (account : String) (s : Station) (entry : BlobManifestEntry)
    (blob : EncryptedBlob) : Prop where
  ct_hash : entry.ct_hash = p.ct_hash blob.ciphertext
  plaintext_hash : entry.plaintext_hash = hex blob.plaintext_hash.toList
  known : blob.ciphertext ∈ world
  present : s.store.blob_present account entry.ct_hash = true

theorem Fetchable.proceeds {entry : BlobManifestEntry} {blob : EncryptedBlob} (fetchable : Fetchable p world account s entry blob)
    (proceeds : Proceeds p (fun _ => False) s t) : Fetchable p world account t entry blob := by
  obtain ⟨calls,served,-⟩ := proceeds.served
  exact ⟨fetchable.ct_hash,fetchable.plaintext_hash,fetchable.known,served ▸ SyncStore.present_run fetchable.present⟩

/-- What a run of `fetch_blob` comes to: there is a file already, or one is written, or the
    blob does not open. -/
theorem fetch_blob_cases (ctx : CryptoContext) (key_epoch : UInt32) {entry : BlobManifestEntry} {blob : EncryptedBlob}
    (ready : Ready p world s) (apart : world.InjOn p.ct_hash) (fetchable : Fetchable p world account s entry blob) :
    (s.blobs.file entry.plaintext_hash).isSome ∧ fetch_blob p ctx account key_epoch entry s = .ok () s ∨
    s.blobs.file entry.plaintext_hash = none ∧ Opens p ctx key_epoch blob ∧ (∃ opened t, Proceeds p (fun _ => False) s t ∧
      t.blobs.file = Function.update s.blobs.file entry.plaintext_hash (some opened) ∧
        entry.plaintext_hash = hex (p.blake3_hash opened).toList ∧ fetch_blob p ctx account key_epoch entry s = .ok () t) ∨
    s.blobs.file entry.plaintext_hash = none ∧ ¬ Opens p ctx key_epoch blob ∧
      ∃ e t, fetch_blob p ctx account key_epoch entry s = .error e t := by
  obtain ⟨ct_hash,plaintext_hash,known,present⟩ := fetchable
  have load (blobs : FsBlobStore) : blobs.load entry.plaintext_hash = .ok (blobs.file entry.plaintext_hash) := by
    rw [FsBlobStore.load,plaintext_hash,path_for_hex]
    rfl
  have decrypt (ct : List UInt8) : ctx.decrypt_blob_ciphertext p key_epoch entry.plaintext_hash ct =
      (p.decrypt_blob (ctx.content_key_for p key_epoch) blob.plaintext_hash ct).mapError (fun _ => .Crypto) := by
    rw [CryptoContext.decrypt_blob_ciphertext,plaintext_hash,hex32_hex]
  unfold fetch_blob
  simp only [get_bind,load]
  cases held : s.blobs.file entry.plaintext_hash with
  | some old => exact .inl ⟨rfl,rfl⟩
  | none =>
    refine .inr ?_
    obtain ⟨t,same,proceeds,got⟩ := blob_get_ready ready apart known (ct_hash ▸ present)
    rw [← ct_hash] at got
    by_cases fits : blob.ciphertext.length ≤ RESPONSE_LIMIT
    · replace got : blob_get p account entry.ct_hash s = .ok blob.ciphertext t := by rw [got,response_bytes,if_pos fits]; rfl
      simp only [work_bind,got,decrypt]
      cases opened : p.decrypt_blob (ctx.content_key_for p key_epoch) blob.plaintext_hash blob.ciphertext with
      | error e =>
        refine .inr ⟨trivial,fun opens => ?_,_,_,rfl⟩
        obtain ⟨-,found,opens⟩ := opens
        cases opened.symm.trans opens
      | ok found =>
        have hash := (Primitives.decrypt_blob_ok.mp opened).2
        have stored : t.blobs.store entry.plaintext_hash found =
            .ok ⟨Function.update s.blobs.file entry.plaintext_hash (some found)⟩ := by
          rw [FsBlobStore.store,plaintext_hash,path_for_hex,same,← plaintext_hash]
          simp only [ok_bind,held]
          rfl
        refine .inl ⟨trivial,⟨fits,found,opened⟩,found,
          { t with blobs := ⟨Function.update s.blobs.file entry.plaintext_hash (some found)⟩ },
          ⟨proceeds.ahead,proceeds.served⟩,rfl,by rw [plaintext_hash,hash],?_⟩
        simp only [Except.mapError,get_bind,stored]
        rfl
    · replace got : blob_get p account entry.ct_hash s = .error (.Protocol "relay response exceeds the allowed size") t := by
        rw [got,response_bytes,if_neg fits]
        rfl
      simp only [work_bind,got]
      exact .inr ⟨trivial,fun opens => fits opens.1,_,_,rfl⟩

/-- Each file holds a plaintext with the hash that it is named by. -/
def Filed (p : Primitives) (blobs : FsBlobStore) : Prop :=
  ∀ name bytes, blobs.file name = some bytes → name = hex (p.blake3_hash bytes).toList

/-- Each plaintext of a manifest that there is no file for opens where the manifest names it first. -/
def Arrives (opens : BlobManifestEntry → Prop) (file : String → Option (List UInt8)) (manifest : List BlobManifestEntry) : Prop :=
  ∀ before entry after, manifest = before ++ entry :: after → (file entry.plaintext_hash).isSome ∨
    (∃ earlier ∈ before, earlier.plaintext_hash = entry.plaintext_hash) ∨ opens entry

theorem arrives_cons {opens : BlobManifestEntry → Prop} {file file' : String → Option (List UInt8)} {entry : BlobManifestEntry}
    {rest : List BlobManifestEntry} (grown : ∀ name, (file' name).isSome ↔ (file name).isSome ∨ name = entry.plaintext_hash) :
    Arrives opens file (entry :: rest) ↔ ((file entry.plaintext_hash).isSome ∨ opens entry) ∧ Arrives opens file' rest := by
  constructor
  · intro arrives
    refine ⟨(arrives [] entry rest rfl).imp_right (fun other => other.resolve_left (by simp)),fun before later after split => ?_⟩
    rw [grown]
    rcases arrives (entry :: before) later after (by rw [split]; rfl) with held | ⟨earlier,inside,same⟩ | opened
    · exact .inl (.inl held)
    · rcases List.mem_cons.mp inside with rfl | inside
      · exact .inl (.inr same.symm)
      · exact .inr (.inl ⟨earlier,inside,same⟩)
    · exact .inr (.inr opened)
  · rintro ⟨first,arrives⟩ before later after split
    cases before with
    | nil =>
      obtain ⟨rfl,-⟩ := List.cons.inj split
      exact first.imp_right .inr
    | cons head before =>
      obtain ⟨rfl,tail⟩ := List.cons.inj split
      rcases arrives before later after tail with held | ⟨earlier,inside,same⟩ | opened
      · rcases (grown _).mp held with held | same
        · exact .inl held
        · exact .inr (.inl ⟨entry,.head _,same.symm⟩)
      · exact .inr (.inl ⟨earlier,.tail _ inside,same⟩)
      · exact .inr (.inr opened)

/-- A blob is fetched if and only if there is a file for it or it opens, and then there is a file. -/
theorem fetch_blob_does (ctx : CryptoContext) (key_epoch : UInt32) {entry : BlobManifestEntry} {blob : EncryptedBlob}
    (ready : Ready p world s) (apart : world.InjOn p.ct_hash) (fetchable : Fetchable p world account s entry blob) :
    Does (fetch_blob p ctx account key_epoch entry) s
      (fun _ t => Proceeds p (fun _ => False) s t ∧ ((s.blobs.file entry.plaintext_hash).isSome ∨ Opens p ctx key_epoch blob) ∧
        (Filed p s.blobs → Filed p t.blobs) ∧
          ∀ name, (t.blobs.file name).isSome ↔ (s.blobs.file name).isSome ∨ name = entry.plaintext_hash)
      (fun _ => ¬ ((s.blobs.file entry.plaintext_hash).isSome ∨ Opens p ctx key_epoch blob)) := by
  unfold Does
  rcases fetch_blob_cases ctx key_epoch ready apart fetchable with
    ⟨held,ran⟩ | ⟨-,opens,opened,t,proceeds,files,hash,ran⟩ | ⟨none,closed,e,t,ran⟩
  · rw [ran]
    exact ⟨.refl s,.inl held,id,fun name => ⟨.inl,fun either => either.elim id (fun same => same ▸ held)⟩⟩
  · rw [ran]
    refine ⟨proceeds,.inr opens,fun filed name bytes found => ?_,fun name => ?_⟩
    · rw [files] at found
      by_cases same : name = entry.plaintext_hash
      · subst same
        rw [Function.update_self,Option.some.injEq] at found
        exact found ▸ hash
      · rw [Function.update_of_ne same] at found
        exact filed name bytes found
    · rw [files]
      by_cases same : name = entry.plaintext_hash
      · simp [same]
      · simp [same]
  · rw [ran]
    simp [none,closed]

/-- The blobs of a manifest are fetched if and only if they arrive, and then there is a file for each. -/
theorem fetch_all {blob : BlobManifestEntry → EncryptedBlob} {manifest : List BlobManifestEntry} (ready : Ready p world s)
    (apart : world.InjOn p.ct_hash) (fetchable : ∀ entry ∈ manifest, Fetchable p world account s entry (blob entry)) :
    Does (manifest.forM (fetch_blob p ctx account key_epoch)) s
      (fun _ t => Arrives (fun entry => Opens p ctx key_epoch (blob entry)) s.blobs.file manifest ∧
        (Filed p s.blobs → Filed p t.blobs) ∧
        ∀ name, (t.blobs.file name).isSome ↔ (s.blobs.file name).isSome ∨ ∃ entry ∈ manifest, name = entry.plaintext_hash)
      (fun _ => ¬ Arrives (fun entry => Opens p ctx key_epoch (blob entry)) s.blobs.file manifest) := by
  induction manifest generalizing s with
  | nil =>
    refine Does.pure ⟨fun before entry after split => ?_,id,fun name => by simp⟩
    exact absurd split (List.append_ne_nil_of_right_ne_nil before (List.cons_ne_nil entry after)).symm
  | cons entry rest ih =>
    change Does (fetch_blob p ctx account key_epoch entry >>= fun _ => rest.forM (fetch_blob p ctx account key_epoch)) s _ _
    have first := fetch_blob_does ctx key_epoch ready apart (fetchable entry (.head _))
    refine Does.bind (first.mono (fun _ _ => id) (fun _ closed arrives => closed ?_)) (fun _ mid did => ?_)
    · exact (arrives [] entry rest rfl).imp_right (fun other => other.resolve_left (by simp))
    · obtain ⟨proceeds,opens,filed,grown⟩ := did
      have later := ih (ready.proceeds proceeds) (fun other inside => (fetchable other (.tail _ inside)).proceeds proceeds)
      have arrives : Arrives (fun entry => Opens p ctx key_epoch (blob entry)) s.blobs.file (entry :: rest) ↔ _ := arrives_cons grown
      refine later.mono (fun _ t did => ?_) (fun _ closed both => closed (arrives.mp both).2)
      obtain ⟨rest_arrives,rest_filed,rest_grown⟩ := did
      refine ⟨arrives.mpr ⟨opens,rest_arrives⟩,rest_filed ∘ filed,fun name => ?_⟩
      rw [rest_grown,grown]
      simp [or_assoc]

end

/-! ### From the sender to the others -/

section
variable {p : Primitives} {world : Set (List UInt8)} {ctx : CryptoContext} {body : ChangeBody} {s t : Station} {account : String}
  {epoch : BlobManifestEntry → UInt32} {plaintext : BlobManifestEntry → List UInt8} {blob : BlobManifestEntry → EncryptedBlob}

/-- The entries of a manifest were made by encrypting plaintexts under epochs of the account. The
    world has these blobs and those that the epoch of the context makes of the plaintexts, and a
    blob of another epoch does not open under that of the context. -/
structure Named (p : Primitives) (world : Set (List UInt8)) (ctx : CryptoContext) (manifest : List BlobManifestEntry)
    (epoch : BlobManifestEntry → UInt32) (plaintext : BlobManifestEntry → List UInt8) (blob : BlobManifestEntry → EncryptedBlob) :
    Prop where
  made : ∀ entry ∈ manifest, p.encrypt_blob (ctx.content_key_for p (epoch entry)) (plaintext entry) = .ok (blob entry)
  ct_hash : ∀ entry ∈ manifest, entry.ct_hash = (blob entry).ct_hash
  plaintext_hash : ∀ entry ∈ manifest, entry.plaintext_hash = hex (blob entry).plaintext_hash.toList
  known : ∀ entry ∈ manifest, (blob entry).ciphertext ∈ world
  again : ∀ entry ∈ manifest, ∀ now, p.encrypt_blob (ctx.content_key p) (plaintext entry) = .ok now → now.ciphertext ∈ world
  closed : ∀ entry ∈ manifest, epoch entry ≠ ctx.key_epoch → ∀ other ∈ manifest, ∀ opened,
    p.decrypt_blob (ctx.content_key p) (blob other).plaintext_hash (blob entry).ciphertext ≠ .ok opened

/-- The blob was made under the epoch of the context, and it is not too large to be fetched. -/
def Current (ctx : CryptoContext) (epoch : BlobManifestEntry → UInt32) (plaintext : BlobManifestEntry → List UInt8)
    (entry : BlobManifestEntry) : Prop :=
  epoch entry = ctx.key_epoch ∧ (plaintext entry).length + TAG_LEN ≤ RESPONSE_LIMIT

/-- The blobs that open under the epoch of the context are those that were made under it. -/
theorem Named.opens_iff (lawful : p.Lawful) (named : Named p world ctx body.blob_manifest epoch plaintext blob) {reader : CryptoContext}
    (same_key : reader.ark = ctx.ark) {entry : BlobManifestEntry} (inside : entry ∈ body.blob_manifest) :
    Opens p reader ctx.key_epoch (blob entry) ↔ Current ctx epoch plaintext entry := by
  have key : reader.content_key_for p ctx.key_epoch = ctx.content_key p := by
    rw [CryptoContext.content_key_for,CryptoContext.content_key,same_key]
  have made := named.made entry inside
  obtain ⟨encrypted,-,-⟩ := Primitives.encrypt_blob_ok.mp made
  rw [Opens,Current,key,lawful.encrypt_length _ _ _ _ _ encrypted,and_comm]
  refine and_congr_left (fun _ => ⟨fun opens => ?_,fun same => ⟨plaintext entry,?_⟩⟩)
  · by_contra other
    obtain ⟨opened,opens⟩ := opens
    exact named.closed entry inside other entry inside opened opens
  · rw [same] at made
    exact Primitives.decrypt_encrypt_blob lawful made

/-- An upload puts no blob under the address that another epoch has given. -/
theorem Named.not_uploaded (lawful : p.Lawful) (apart : world.InjOn p.ct_hash)
    (named : Named p world ctx body.blob_manifest epoch plaintext blob)
    (filed : ∀ entry ∈ body.blob_manifest, s.blobs.file entry.plaintext_hash = some (plaintext entry)) {entry : BlobManifestEntry}
    (inside : entry ∈ body.blob_manifest) (other : epoch entry ≠ ctx.key_epoch) (bytes : List UInt8) :
    ¬ Uploads p ctx account body.blob_manifest s.blobs (.blob_put account entry.ct_hash bytes) := by
  rintro ⟨source,inside',plain,now,file,encrypted,same⟩
  rw [filed source inside',Option.some.injEq] at file
  subst file
  injection same with _ address _
  obtain ⟨-,hash,plaintext_hash⟩ := Primitives.encrypt_blob_ok.mp encrypted
  obtain ⟨-,hash',-⟩ := Primitives.encrypt_blob_ok.mp (named.made entry inside)
  obtain ⟨-,-,plaintext_hash'⟩ := Primitives.encrypt_blob_ok.mp (named.made source inside')
  have twin : (blob entry).ciphertext = now.ciphertext := by
    refine apart (named.known entry inside) (named.again source inside' now encrypted) ?_
    rw [← hash,← hash',← named.ct_hash entry inside,address]
  refine named.closed entry inside other source inside' (plaintext source) ?_
  rw [twin,plaintext_hash',← plaintext_hash]
  exact Primitives.decrypt_encrypt_blob lawful encrypted

end

/-- The phone, after the account has gone on to epoch 4. -/
def phone : CryptoContext := ⟨⟨.replicate KEY_LEN 6⟩,"a","phone",.replicate KEY_LEN 1,4⟩

def plainBlob (epoch : UInt32) (plaintext : List UInt8) : EncryptedBlob :=
  (plainPrimitives.encrypt_blob (phone.content_key_for plainPrimitives epoch) plaintext).toOption.getD ⟨"",.replicate 32 0,[]⟩

def plainEntry (role : String) (epoch : UInt32) (plaintext : List UInt8) : BlobManifestEntry :=
  ⟨(plainBlob epoch plaintext).ct_hash,role,hex (plainBlob epoch plaintext).plaintext_hash.toList,1⟩

def page : BlobManifestEntry := plainEntry "html" 3 [1]
def text : BlobManifestEntry := plainEntry "text" 4 [2]

/-- A page that was captured in epoch 3, with a text that was extracted in epoch 4. -/
def twoBlobs : ChangeBody := ⟨.Document,"d",.Upsert,⟨1,0,"a"⟩,none,∅,[page,text]⟩

/-- The page is at the server already. -/
def pageThere : Station :=
  ⟨⟨⟨[],[⟨"a",page.ct_hash,(plainBlob 3 [1]).ciphertext,17⟩],⟨0,0⟩⟩,[],[],[],[],none,[]⟩,[],
    ⟨fun name => [(page.plaintext_hash,[1]),(text.plaintext_hash,[2])].lookup name⟩⟩

def announced : SyncStore.Call := .push_events "a" [⟨1,"phone","x",none,4,twoBlobs.blob_refs,[0],[]⟩]

theorem encrypt_plainBlob (epoch : UInt32) (plaintext : List UInt8) :
    plainPrimitives.encrypt_blob (phone.content_key_for plainPrimitives epoch) plaintext = .ok (plainBlob epoch plaintext) := rfl

def capturedIn (entry : BlobManifestEntry) : UInt32 := if entry.role = "html" then 3 else 4
def captured (entry : BlobManifestEntry) : List UInt8 := if entry.role = "html" then [1] else [2]

def threeCiphertexts : List (List UInt8) := [(plainBlob 3 [1]).ciphertext,(plainBlob 4 [2]).ciphertext,(plainBlob 4 [1]).ciphertext]

theorem named_twoBlobs : Named plainPrimitives {bytes | bytes ∈ threeCiphertexts} phone twoBlobs.blob_manifest capturedIn captured
    (fun entry => plainBlob (capturedIn entry) (captured entry)) where
  made entry _ := encrypt_plainBlob _ _
  ct_hash := by decide +kernel
  plaintext_hash := by decide +kernel
  known := by
    show ∀ entry ∈ twoBlobs.blob_manifest, (plainBlob (capturedIn entry) (captured entry)).ciphertext ∈ threeCiphertexts
    decide +kernel
  again := by
    have here : ∀ entry ∈ twoBlobs.blob_manifest, (plainBlob 4 (captured entry)).ciphertext ∈ threeCiphertexts := by decide +kernel
    intro entry inside now made
    cases made.symm.trans (encrypt_plainBlob 4 (captured entry))
    exact here entry inside
  closed := by
    have apart : ∀ entry ∈ twoBlobs.blob_manifest, capturedIn entry ≠ 4 → ∀ other ∈ twoBlobs.blob_manifest,
      plainPrimitives.decrypt_blob (phone.content_key plainPrimitives) (plainBlob (capturedIn other) (captured other)).plaintext_hash
        (plainBlob (capturedIn entry) (captured entry)).ciphertext = .error .Decryption := by decide +kernel
    intro entry inside late other inside' opened opens
    cases (apart entry inside late other inside').symm.trans opens

end Blobs

end Pergamon
