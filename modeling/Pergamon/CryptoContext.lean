import Pergamon.Envelope
import Pergamon.Push

/-!
The cryptography of a device between the bodies of changes and the events on the wire. A
body is written as JSON, encrypted under its header and signed; an event is taken apart
in the same way. The JSON of bodies is a parameter (`BodyFormat`).
-/
namespace Pergamon
open Fallible

def PROTOCOL_VERSION : UInt32 := 1

def EntityType.as_str : EntityType → String
  | .Document => "document"
  | .Tag => "tag"
  | .Collection => "collection"
  | .TagEdge => "tag_edge"
  | .CollectionEdge => "collection_edge"
  | .Highlight => "highlight"
  | .Note => "note"
  | .ReviewCard => "review_card"
  | .ReviewLog => "review_log"
  | .FeedSubscription => "feed_subscription"
  | .Settings => "settings"

def ChangeBody.blob_refs (body : ChangeBody) : List String := body.blob_manifest.map BlobManifestEntry.ct_hash

/-- The JSON of a body, as the `serde_json` crate writes and reads it. -/
structure BodyFormat where
  to_bytes : ChangeBody → Option (List UInt8)
  from_bytes : List UInt8 → Option ChangeBody

/-- The body is read as it was written. -/
def BodyFormat.Exact (format : BodyFormat) (body : ChangeBody) : Prop :=
  ∀ bytes, format.to_bytes body = some bytes → format.from_bytes bytes = some body

/-- An event as a client sends it. -/
structure EventInput where
  protocol_version : UInt32
  account_id : String
  device_id : String
  change_id : String
  entity_ref : Option String
  key_epoch : UInt32
  blob_refs : List String
  ciphertext_b64 : String
  sig_b64 : String
  deriving DecidableEq

/-- An event as the server sends it back. -/
structure StoredEvent extends EventInput where
  server_seq : ℕ
  deriving DecidableEq

/-- The header that the producer bound. -/
def EventInput.header_for (event : EventInput) : EventHeader :=
  ⟨event.protocol_version,event.account_id,event.device_id,event.change_id,event.key_epoch,event.entity_ref,event.blob_refs⟩

/-- The key material of an account and the identity of a device in it. -/
structure CryptoContext where
  ark : AccountRootKey
  account_id_hex : String
  device_id : String
  ed25519_signing : Bytes KEY_LEN
  key_epoch : UInt32
  deriving DecidableEq

namespace CryptoContext
variable (p : Primitives) (base64 : Base64) (format : BodyFormat)

def stream_key (ctx : CryptoContext) : Bytes KEY_LEN := p.account_stream_key ctx.ark

def content_key (ctx : CryptoContext) : AccountContentKey := p.content_key ctx.ark ctx.key_epoch

def content_key_for (ctx : CryptoContext) (epoch : UInt32) : AccountContentKey := p.content_key ctx.ark epoch

/-- The header of a change that the device encrypts. -/
def header (ctx : CryptoContext) (change_id : String) (body : ChangeBody) : EventHeader :=
  ⟨PROTOCOL_VERSION,ctx.account_id_hex,ctx.device_id,change_id,ctx.key_epoch,
    some (p.entity_ref (ctx.stream_key p) body.entity_type.as_str body.entity_id),body.blob_refs⟩

/-- What of a change is encrypted. -/
def encrypt_body (ctx : CryptoContext) (nonce : Option (Bytes NONCE_LEN)) (change_id : String) (body : ChangeBody) :
    Except SyncError (List UInt8) :=
  match format.to_bytes body with
  | none => .error .Serialization
  | some plaintext =>
    (p.encrypt_event nonce (ctx.content_key p) (ctx.header p change_id body) plaintext).mapError (fun _ => .Crypto)

/-- Encrypt and sign a change as an event of the device under the active epoch. -/
def encrypt_change (ctx : CryptoContext) (nonce : Option (Bytes NONCE_LEN)) (change_id : String) (body : ChangeBody) :
    Except SyncError EventInput := do
  let header := ctx.header p change_id body
  let ciphertext ← ctx.encrypt_body p format nonce change_id body
  let signature := p.sign_event ctx.ed25519_signing header ciphertext
  return ⟨header.protocol_version,header.account_id,header.device_id,header.change_id,header.entity_ref,header.key_epoch,
    header.blob_refs,base64.encode ciphertext,base64.encode signature.toList⟩

/-- Whether the signature of an event is that of the signer on its header and ciphertext. -/
def verify_event_sig (event : StoredEvent) (signer_ed25519_pub : Bytes KEY_LEN) : Except SyncError Bool :=
  match base64.decode event.ciphertext_b64 with
  | none => .error .Base64
  | some ciphertext =>
    match base64.decode event.sig_b64 with
    | none => .error .Base64
    | some sig_bytes =>
      if size : sig_bytes.length = SIG_LEN then
        match p.verify_event signer_ed25519_pub event.header_for ciphertext ⟨sig_bytes,size⟩ with
        | .ok () => .ok true
        | .error .BadSignature => .ok false
        | .error _ => .error .Crypto
      else .ok false  -- an empty signature, or one of another length

/-- Decrypt an event under the header that it shows. -/
def decrypt_change (ctx : CryptoContext) (event : StoredEvent) : Except SyncError ChangeBody :=
  if event.account_id ≠ ctx.account_id_hex then
    .error (.Protocol "event belongs to a different canonical content account")
  else
    match base64.decode event.ciphertext_b64 with
    | none => .error .Base64
    | some ciphertext => do
      let plaintext ← (p.decrypt_event (ctx.content_key_for p event.key_epoch) event.header_for ciphertext).mapError
        (fun _ => SyncError.Crypto)
      match format.from_bytes plaintext with
      | none => .error .Serialization
      | some body => .ok body

variable {p base64 format} {ctx signer : CryptoContext} {nonce : Option (Bytes NONCE_LEN)} {change_id : String} {body : ChangeBody}
  {ciphertext : List UInt8} {event : StoredEvent}

theorem encrypt_body_ok : ctx.encrypt_body p format nonce change_id body = .ok ciphertext ↔
    ∃ plaintext, format.to_bytes body = some plaintext ∧
      p.encrypt_event nonce (ctx.content_key p) (ctx.header p change_id body) plaintext = .ok ciphertext := by
  unfold encrypt_body
  cases format.to_bytes body with
  | none => simp
  | some plaintext => simp [mapError_ok]

/-- The header that is read off an event is the one that it was encrypted under. -/
theorem header_encrypt_change {input : EventInput} (made : ctx.encrypt_change p base64 format nonce change_id body = .ok input) :
    input.header_for = ctx.header p change_id body := by
  obtain ⟨ciphertext,-,same⟩ := bind_ok.mp made
  cases same
  rfl

/-- A signature that verifies stands over the header and the ciphertext of the event. -/
theorem verify_event_sig_ok {pub : Bytes KEY_LEN} (verifies : verify_event_sig p base64 event pub = .ok true) :
    ∃ ciphertext, base64.decode event.ciphertext_b64 = some ciphertext ∧
      ∃ sig : Bytes SIG_LEN, base64.decode event.sig_b64 = some sig.toList ∧
        p.ed25519_verify pub (event_signing_bytes event.header_for ciphertext) sig = .ok () := by
  unfold verify_event_sig at verifies
  split at verifies
  · cases verifies
  next ciphertext decoded =>
  split at verifies
  · cases verifies
  next sig_bytes decoded' =>
  split at verifies
  · next size =>
    split at verifies
    · next verified => exact ⟨ciphertext,decoded,⟨sig_bytes,size⟩,decoded',verified⟩
    · cases verifies
    · cases verifies
  · cases verifies

/-- An event whose header and ciphertext are those of a change that was encrypted opens as
    that change, with the same root key. -/
theorem decrypt_change_made (lawful : p.Lawful) (ours : event.account_id = ctx.account_id_hex) (same_key : signer.ark = ctx.ark)
    (decoded : base64.decode event.ciphertext_b64 = some ciphertext)
    (made : signer.encrypt_body p format nonce change_id body = .ok ciphertext)
    (shown : event.header_for = signer.header p change_id body) {opened : ChangeBody} :
    ctx.decrypt_change p base64 format event = .ok opened ↔
      ∃ plaintext, format.to_bytes body = some plaintext ∧ format.from_bytes plaintext = some opened := by
  obtain ⟨plaintext,written,encrypted⟩ := encrypt_body_ok.mp made
  have epoch : event.key_epoch = signer.key_epoch := congrArg EventHeader.key_epoch shown
  have key : ctx.content_key_for p event.key_epoch = signer.content_key p := by
    rw [content_key_for,content_key,epoch,same_key]
  unfold decrypt_change
  rw [if_neg (by simpa using ours)]
  simp only [decoded,shown,key,Primitives.decrypt_encrypt_event lawful encrypted,written]
  cases read : format.from_bytes plaintext with
  | none => simp [Except.mapError,read,bind,Except.bind]
  | some b => simp [Except.mapError,read,bind,Except.bind]

end CryptoContext
end Pergamon
