import Mathlib.Tactic.NormNum.Basic
import Pergamon.Envelope

/-!
The byte formats of the crate that seals and signs, read both ways: what is written is read back,
and what is read was written so. A record or an attestation says itself where it ends, so bytes
that are cut off or added are refused; a recovery blob, and a key package with it, goes on to the
end of the bytes, so more bytes are a longer wrapped key (`formats_canonical`).

The header of an event is written in one way only, however many blobs it refers to, and so is what
is signed of an event, unless the number of the blobs and the length of the ciphertext are both past
what four bytes can say (`envelope_bytes_inj`, `signing_bytes_ambiguous`).
-/
namespace Pergamon
open Fallible Wire

/-! ### What the readers have read -/

namespace Cursor
variable {bytes rest : List UInt8}

theorem expect_tag_ok {tag : List UInt8} {u : Unit} (read : expect_tag tag bytes = .ok (u,rest)) :
    bytes = tag ++ rest := by
  obtain ⟨got,mid,taken,checked⟩ := reader_bind_ok.mp read
  obtain ⟨rfl,-⟩ := take_ok.mp taken
  by_cases same : got = tag
  · rw [if_pos same] at checked
    cases checked
    rw [same]
  · rw [if_neg same] at checked
    cases checked

theorem read_u8_ok {b : UInt8} (read : read_u8 bytes = .ok (b,rest)) : bytes = [b] ++ rest := by
  obtain ⟨got,taken,rfl⟩ := reader_map_ok.mp read
  obtain ⟨rfl,size⟩ := take_ok.mp taken
  obtain ⟨b,rfl⟩ := List.length_eq_one_iff.mp size
  simp [value]

theorem read_u32_ok {n : UInt32} (read : read_u32 bytes = .ok (n,rest)) : bytes = u32_be_bytes n.toNat ++ rest := by
  obtain ⟨got,taken,rfl⟩ := reader_map_ok.mp read
  obtain ⟨rfl,size⟩ := take_ok.mp taken
  have small : value got < 256 ^ got.length := value_lt got
  rw [size] at small
  have whole : (UInt32.ofNat (value got)).toNat = value got := UInt32.toNat_ofNat_of_lt small
  rw [whole,u32_be_bytes_eq small,← size,be_bytes_value]

theorem read_i64_ok {n : Int64} (read : read_i64 bytes = .ok (n,rest)) : bytes = i64_be_bytes n.toInt ++ rest := by
  obtain ⟨got,taken,rfl⟩ := reader_map_ok.mp read
  obtain ⟨rfl,size⟩ := take_ok.mp taken
  have whole : ((Int64.ofNat (value got)).toInt % 2 ^ 64).toNat = value got := by
    have small := value_lt got
    rw [size] at small
    rw [Int64.toInt_ofNat']
    show ((value got : ℤ).bmod 18446744073709551616 % ((18446744073709551616 : ℕ) : ℤ)).toNat = _
    rw [Int.bmod_emod]
    omega
  show _ = be_bytes 8 ((Int64.ofNat (value got)).toInt % 2 ^ 64).toNat ++ rest
  rw [whole,← size,be_bytes_value]

theorem read_array_ok {n : ℕ} {a : Bytes n} (read : read_array n bytes = .ok (a,rest)) : bytes = a.toList ++ rest := by
  unfold read_array at read
  split at read
  · cases read
    exact (List.take_append_drop n bytes).symm
  · cases read

theorem read_string_ok {len : ℕ} {s : String} (read : read_string len bytes = .ok (s,rest)) :
    bytes = utf8 s ++ rest ∧ (utf8 s).length = len := by
  obtain ⟨got,mid,taken,decoded⟩ := reader_bind_ok.mp read
  obtain ⟨rfl,size⟩ := take_ok.mp taken
  cases found : from_utf8 got with
  | none =>
    rw [found] at decoded
    cases decoded
  | some t =>
    rw [found] at decoded
    cases decoded
    rw [utf8_from_utf8 found]
    exact ⟨rfl,size⟩

theorem read_lp_string_ok {s : String} (read : read_lp_string bytes = .ok (s,rest)) :
    bytes = push_lp (utf8 s) ++ rest ∧ (utf8 s).length < 2 ^ 32 := by
  obtain ⟨len,mid,sized,read⟩ := reader_bind_ok.mp read
  obtain ⟨rfl,size⟩ := read_string_ok read
  rw [read_u32_ok sized,push_lp,size,List.append_assoc]
  exact ⟨rfl,len.toNat_lt⟩

/-- A record is parsed if its fields are read and nothing is left. -/
theorem parse_ok {α : Type} {fields : Reader CryptoError α} {a : α} :
    parse fields bytes = .ok a ↔ fields bytes = .ok (a,[]) := by
  unfold parse
  rw [bind_ok]
  constructor
  · rintro ⟨⟨got,mid⟩,read,ended⟩
    obtain ⟨u,nothing,made⟩ := bind_ok.mp ended
    cases made
    unfold expect_end at nothing
    split at nothing
    · next empty => rw [read,empty]
    · cases nothing
  · intro read
    exact ⟨_,read,rfl⟩

end Cursor

namespace SignedDeviceRecord

/-- The field with a length before it fits its length. -/
def Fits (signed : SignedDeviceRecord) : Prop := (utf8 signed.record.device_id).length < 2 ^ 32

theorem to_bytes_from_bytes {bytes : List UInt8} {signed : SignedDeviceRecord} (parsed : from_bytes bytes = .ok signed) :
    signed.Fits ∧ signed.to_bytes = bytes := by
  rw [from_bytes,Cursor.parse_ok,fields,reader_bind_ok] at parsed
  obtain ⟨u,rest,read,parsed⟩ := parsed
  obtain rfl := Cursor.expect_tag_ok read
  rw [reader_bind_ok] at parsed
  obtain ⟨device_id,rest,read,parsed⟩ := parsed
  obtain ⟨rfl,short⟩ := Cursor.read_lp_string_ok read
  rw [reader_bind_ok] at parsed
  obtain ⟨x25519_pub,rest,read,parsed⟩ := parsed
  obtain rfl := Cursor.read_array_ok read
  rw [reader_bind_ok] at parsed
  obtain ⟨ed25519_pub,rest,read,parsed⟩ := parsed
  obtain rfl := Cursor.read_array_ok read
  rw [reader_bind_ok] at parsed
  obtain ⟨created_at,rest,read,parsed⟩ := parsed
  obtain rfl := Cursor.read_i64_ok read
  rw [reader_bind_ok] at parsed
  obtain ⟨signature,rest,read,parsed⟩ := parsed
  obtain rfl := Cursor.read_array_ok read
  cases parsed
  refine ⟨short,?_⟩
  simp only [to_bytes,List.append_assoc,List.append_nil]

end SignedDeviceRecord

namespace SignedAttestation

/-- The fields with a length before them fit their lengths. -/
def Fits (signed : SignedAttestation) : Prop :=
  (utf8 signed.attestation.signer_device_id).length < 2 ^ 32 ∧ (utf8 signed.attestation.subject_device_id).length < 2 ^ 32

theorem to_bytes_from_bytes {bytes : List UInt8} {signed : SignedAttestation} (parsed : from_bytes bytes = .ok signed) :
    signed.Fits ∧ signed.to_bytes = bytes := by
  rw [from_bytes,Cursor.parse_ok,fields,reader_bind_ok] at parsed
  obtain ⟨u,rest,read,parsed⟩ := parsed
  obtain rfl := Cursor.expect_tag_ok read
  rw [reader_bind_ok] at parsed
  obtain ⟨tag,rest,read,parsed⟩ := parsed
  obtain rfl := Cursor.read_u8_ok read
  cases known : AttestationKind.from_tag tag with
  | none =>
    rw [known] at parsed
    cases parsed
  | some kind =>
  simp only [known,pure_bind] at parsed
  obtain rfl := AttestationKind.tag_from_tag known
  rw [reader_bind_ok] at parsed
  obtain ⟨signer_device_id,rest,read,parsed⟩ := parsed
  obtain ⟨rfl,short⟩ := Cursor.read_lp_string_ok read
  rw [reader_bind_ok] at parsed
  obtain ⟨signer_ed25519_pub,rest,read,parsed⟩ := parsed
  obtain rfl := Cursor.read_array_ok read
  rw [reader_bind_ok] at parsed
  obtain ⟨subject_device_id,rest,read,parsed⟩ := parsed
  obtain ⟨rfl,short'⟩ := Cursor.read_lp_string_ok read
  rw [reader_bind_ok] at parsed
  obtain ⟨subject_ed25519_pub,rest,read,parsed⟩ := parsed
  obtain rfl := Cursor.read_array_ok read
  rw [reader_bind_ok] at parsed
  obtain ⟨key_epoch,rest,read,parsed⟩ := parsed
  obtain rfl := Cursor.read_u32_ok read
  rw [reader_bind_ok] at parsed
  obtain ⟨issued_at,rest,read,parsed⟩ := parsed
  obtain rfl := Cursor.read_i64_ok read
  rw [reader_bind_ok] at parsed
  obtain ⟨signature,rest,read,parsed⟩ := parsed
  obtain rfl := Cursor.read_array_ok read
  cases parsed
  refine ⟨⟨short,short'⟩,?_⟩
  simp only [to_bytes,List.append_assoc,List.append_nil]

end SignedAttestation

/-! ### Recovery blobs and key packages -/

def KEY_PACKAGE_MAGIC : List UInt8 := utf8 "PGMKEY" ++ [1,0]

def KEY_PACKAGE_VERSION : UInt8 := 1

abbrev KEY_PACKAGE_ACCOUNT_OFFSET : ℕ := 8 + 1
abbrev KEY_PACKAGE_BLOB_OFFSET : ℕ := KEY_PACKAGE_ACCOUNT_OFFSET + ACCOUNT_ID_LEN

@[simp] theorem length_KEY_PACKAGE_MAGIC : KEY_PACKAGE_MAGIC.length = 8 := by decide +kernel

/-- An account and its root key, sealed under a passphrase. -/
structure KeyPackage where
  account_id : AccountId
  blob : RecoveryBlob
  deriving DecidableEq

namespace RecoveryBlob
variable {bytes : List UInt8} {blob : RecoveryBlob}

theorem from_bytes_to_bytes (wrapped : blob.wrapped ≠ []) : from_bytes blob.to_bytes = .ok blob := by
  have salt := blob.salt.toList_length
  have long : RECOVERY_SALT_LEN < blob.to_bytes.length := by
    have := List.length_pos_of_ne_nil wrapped
    rw [to_bytes,List.length_append]
    omega
  unfold from_bytes
  rw [dif_pos long]
  simp only [to_bytes,List.take_left' salt,List.drop_left' salt]
  rfl

theorem to_bytes_from_bytes (parsed : from_bytes bytes = .ok blob) : blob.wrapped ≠ [] ∧ blob.to_bytes = bytes := by
  unfold from_bytes at parsed
  split at parsed
  · next long =>
    cases parsed
    exact ⟨fun nothing => by simp at nothing; omega,List.take_append_drop ..⟩
  · cases parsed

theorem parses_iff : (∃ blob, from_bytes bytes = .ok blob) ↔ RECOVERY_SALT_LEN < bytes.length := by
  unfold from_bytes
  split <;> simp_all

end RecoveryBlob

namespace KeyPackage
variable {bytes : List UInt8} {package : KeyPackage}

def to_bytes (package : KeyPackage) : List UInt8 :=
  KEY_PACKAGE_MAGIC ++ [KEY_PACKAGE_VERSION] ++ package.account_id.bytes.toList ++ package.blob.to_bytes

/-- Take a package apart at its offsets. -/
def from_bytes (bytes : List UInt8) : Except CryptoError KeyPackage :=
  if short : bytes.length < KEY_PACKAGE_ACCOUNT_OFFSET + ACCOUNT_ID_LEN then .error (.Malformed "key package too short")
  else if bytes.take 8 ≠ KEY_PACKAGE_MAGIC then .error (.Malformed "not a pergamon key package")
  else if bytes[8]? ≠ some KEY_PACKAGE_VERSION then .error (.Malformed "unsupported key package version")
  else do
    let blob ← RecoveryBlob.from_bytes (bytes.drop KEY_PACKAGE_BLOB_OFFSET)
    return ⟨⟨⟨(bytes.drop KEY_PACKAGE_ACCOUNT_OFFSET).take ACCOUNT_ID_LEN,
      by rw [List.length_take,List.length_drop]; omega⟩⟩,blob⟩

/-- The parts of a package at their offsets. -/
theorem offsets (package : KeyPackage) : package.to_bytes.take 8 = KEY_PACKAGE_MAGIC ∧
    package.to_bytes[8]? = some KEY_PACKAGE_VERSION ∧
    package.to_bytes.drop KEY_PACKAGE_ACCOUNT_OFFSET = package.account_id.bytes.toList ++ package.blob.to_bytes ∧
    package.to_bytes.drop KEY_PACKAGE_BLOB_OFFSET = package.blob.to_bytes := by
  have id := package.account_id.bytes.toList_length
  have account : package.to_bytes.drop KEY_PACKAGE_ACCOUNT_OFFSET = package.account_id.bytes.toList ++
      package.blob.to_bytes := by
    rw [to_bytes,List.append_assoc,List.drop_left' (by simp)]
  refine ⟨?_,?_,account,?_⟩
  · rw [to_bytes,List.append_assoc,List.append_assoc,List.take_left' (by simp)]
  · simp [to_bytes]
  · rw [← List.drop_drop,account,List.drop_left' id]

theorem from_bytes_to_bytes (wrapped : package.blob.wrapped ≠ []) : from_bytes package.to_bytes = .ok package := by
  have id := package.account_id.bytes.toList_length
  obtain ⟨magic,version,account,blob⟩ := package.offsets
  unfold from_bytes
  have long : KEY_PACKAGE_ACCOUNT_OFFSET + ACCOUNT_ID_LEN ≤ package.to_bytes.length := by
    have nine : KEY_PACKAGE_ACCOUNT_OFFSET = 9 := rfl
    simp only [to_bytes,List.length_append,length_KEY_PACKAGE_MAGIC,id,List.length_singleton]
    omega
  rw [dif_neg (Nat.not_lt.mpr long),if_neg (by simp [magic]),if_neg (by simp [version])]
  simp only [account,blob,RecoveryBlob.from_bytes_to_bytes wrapped,ok_bind,List.take_left' id]
  rfl

theorem to_bytes_from_bytes (parsed : from_bytes bytes = .ok package) :
    package.blob.wrapped ≠ [] ∧ package.to_bytes = bytes := by
  unfold from_bytes at parsed
  split at parsed
  · cases parsed
  next long =>
  split at parsed
  · cases parsed
  next magic =>
  split at parsed
  · cases parsed
  next version =>
  obtain ⟨blob,read,made⟩ := bind_ok.mp parsed
  cases made
  obtain ⟨wrapped,written⟩ := RecoveryBlob.to_bytes_from_bytes read
  refine ⟨wrapped,?_⟩
  have inside : 8 < bytes.length := by
    have : KEY_PACKAGE_ACCOUNT_OFFSET = 9 := rfl
    omega
  have first : bytes[8] = KEY_PACKAGE_VERSION := by simpa [inside] using version
  have nine : KEY_PACKAGE_MAGIC ++ [KEY_PACKAGE_VERSION] = bytes.take KEY_PACKAGE_ACCOUNT_OFFSET := by
    rw [← not_not.mp magic,← first,List.take_append_getElem inside]
  rw [to_bytes,nine,written]
  show _ ++ (bytes.drop KEY_PACKAGE_ACCOUNT_OFFSET).take ACCOUNT_ID_LEN ++ _ = _
  rw [← List.take_add,List.take_append_drop]

theorem parses_iff : (∃ package, from_bytes bytes = .ok package) ↔
    KEY_PACKAGE_MAGIC ++ [KEY_PACKAGE_VERSION] <+: bytes ∧
      KEY_PACKAGE_BLOB_OFFSET + RECOVERY_SALT_LEN < bytes.length := by
  constructor
  · rintro ⟨package,parsed⟩
    obtain ⟨wrapped,rfl⟩ := to_bytes_from_bytes parsed
    have id := package.account_id.bytes.toList_length
    have salt := package.blob.salt.toList_length
    have more := List.length_pos_of_ne_nil wrapped
    have nine : KEY_PACKAGE_BLOB_OFFSET = 9 + ACCOUNT_ID_LEN := rfl
    refine ⟨⟨package.account_id.bytes.toList ++ package.blob.to_bytes,by simp [to_bytes]⟩,?_⟩
    simp only [to_bytes,RecoveryBlob.to_bytes,List.length_append,length_KEY_PACKAGE_MAGIC,id,salt,List.length_singleton]
    omega
  · rintro ⟨⟨rest,rfl⟩,long⟩
    have nine : KEY_PACKAGE_BLOB_OFFSET = 9 + ACCOUNT_ID_LEN := rfl
    simp only [List.length_append,length_KEY_PACKAGE_MAGIC,List.length_singleton] at long
    have blob : RECOVERY_SALT_LEN < (rest.drop ACCOUNT_ID_LEN).length := by
      rw [List.length_drop]
      omega
    obtain ⟨blob,read⟩ := RecoveryBlob.parses_iff.mpr blob
    obtain ⟨wrapped,written⟩ := RecoveryBlob.to_bytes_from_bytes read
    refine ⟨⟨⟨⟨rest.take ACCOUNT_ID_LEN,by rw [List.length_take]; omega⟩⟩,blob⟩,?_⟩
    have account : (rest.take ACCOUNT_ID_LEN).length = ACCOUNT_ID_LEN := by
      rw [List.length_take]
      omega
    have whole : from_bytes (to_bytes ⟨⟨⟨rest.take ACCOUNT_ID_LEN,account⟩⟩,blob⟩) = _ := from_bytes_to_bytes wrapped
    rw [to_bytes,written] at whole
    simpa using whole

end KeyPackage

/-! ### Formats that are canonical -/

/-- Each value that fits is read back, and each text that is read is the one that is written. -/
structure Canonical {α : Type} (Fits : α → Prop) (to_bytes : α → List UInt8)
    (from_bytes : List UInt8 → Except CryptoError α) :
    Prop where
  read_back {x : α} (fits : Fits x) : from_bytes (to_bytes x) = .ok x
  written {bytes : List UInt8} {x : α} (parsed : from_bytes bytes = .ok x) : Fits x ∧ to_bytes x = bytes

/-- Bytes of a value that are cut off, or that go on, are refused. -/
def Delimited {α : Type} (Fits : α → Prop) (to_bytes : α → List UInt8)
    (from_bytes : List UInt8 → Except CryptoError α) : Prop :=
  ∀ x bytes, Fits x → bytes <+: to_bytes x ∨ to_bytes x <+: bytes → bytes ≠ to_bytes x → ∃ e, from_bytes bytes = .error e

section
variable {α : Type} {Fits : α → Prop} {to_bytes : α → List UInt8} {from_bytes : List UInt8 → Except CryptoError α}

theorem Canonical.delimited (canonical : Canonical Fits to_bytes from_bytes) {fields : Reader CryptoError α}
    (reads : ∀ x, Fits x → Reads fields (to_bytes x) x) : Delimited Fits to_bytes from_bytes := by
  intro x bytes fits along apart
  cases parsed : from_bytes bytes with
  | error e => exact ⟨e,rfl⟩
  | ok y =>
    obtain ⟨fits',rfl⟩ := canonical.written parsed
    rcases along with begins | begins
    · exact absurd ((reads y fits').prefix_free (reads x fits) begins) apart
    · exact absurd ((reads x fits).prefix_free (reads y fits') begins).symm apart

end

theorem record_canonical : Canonical SignedDeviceRecord.Fits SignedDeviceRecord.to_bytes SignedDeviceRecord.from_bytes :=
  ⟨SignedDeviceRecord.from_bytes_to_bytes,SignedDeviceRecord.to_bytes_from_bytes⟩

theorem attestation_canonical : Canonical SignedAttestation.Fits SignedAttestation.to_bytes SignedAttestation.from_bytes :=
  ⟨fun fits => SignedAttestation.from_bytes_to_bytes fits.1 fits.2,SignedAttestation.to_bytes_from_bytes⟩

theorem blob_canonical :
    Canonical (fun blob : RecoveryBlob => blob.wrapped ≠ []) RecoveryBlob.to_bytes RecoveryBlob.from_bytes :=
  ⟨RecoveryBlob.from_bytes_to_bytes,RecoveryBlob.to_bytes_from_bytes⟩

theorem package_canonical :
    Canonical (fun package : KeyPackage => package.blob.wrapped ≠ []) KeyPackage.to_bytes KeyPackage.from_bytes :=
  ⟨KeyPackage.from_bytes_to_bytes,KeyPackage.to_bytes_from_bytes⟩

/-- The four formats are canonical. Two of them say where they end; the other two take all the
    bytes that there are for the wrapped key. -/
theorem formats_canonical :
    Canonical SignedDeviceRecord.Fits SignedDeviceRecord.to_bytes SignedDeviceRecord.from_bytes ∧
    Canonical SignedAttestation.Fits SignedAttestation.to_bytes SignedAttestation.from_bytes ∧
    Canonical (fun blob : RecoveryBlob => blob.wrapped ≠ []) RecoveryBlob.to_bytes RecoveryBlob.from_bytes ∧
    Canonical (fun package : KeyPackage => package.blob.wrapped ≠ []) KeyPackage.to_bytes KeyPackage.from_bytes ∧
    Delimited SignedDeviceRecord.Fits SignedDeviceRecord.to_bytes SignedDeviceRecord.from_bytes ∧
    Delimited SignedAttestation.Fits SignedAttestation.to_bytes SignedAttestation.from_bytes ∧
    (∀ bytes, (∃ blob, RecoveryBlob.from_bytes bytes = .ok blob) ↔ RECOVERY_SALT_LEN < bytes.length) ∧
    ∀ bytes, (∃ package, KeyPackage.from_bytes bytes = .ok package) ↔
      KEY_PACKAGE_MAGIC ++ [KEY_PACKAGE_VERSION] <+: bytes ∧
        KEY_PACKAGE_BLOB_OFFSET + RECOVERY_SALT_LEN < bytes.length := by
  refine ⟨record_canonical,attestation_canonical,blob_canonical,package_canonical,?_,?_,?_,?_⟩
  · exact record_canonical.delimited (fun _ fits => SignedDeviceRecord.reads_fields fits)
  · exact attestation_canonical.delimited (fun _ fits => SignedAttestation.reads_fields fits.1 fits.2)
  · exact fun _ => RecoveryBlob.parses_iff
  · exact fun _ => KeyPackage.parses_iff

/-- A byte after a recovery blob is a byte of its wrapped key. -/
theorem blob_takes_more :
    ¬ Delimited (fun blob : RecoveryBlob => blob.wrapped ≠ []) RecoveryBlob.to_bytes RecoveryBlob.from_bytes := by
  intro delimited
  obtain ⟨e,refused⟩ := delimited ⟨⟨List.replicate 16 0,rfl⟩,[1]⟩ (List.replicate 16 0 ++ [1,2]) (by decide)
    (.inr ⟨[2],rfl⟩) (by decide)
  have taken : RecoveryBlob.from_bytes (List.replicate 16 0 ++ [1,2]) = .ok ⟨⟨List.replicate 16 0,rfl⟩,[1,2]⟩ := by
    decide +kernel
  cases taken.symm.trans refused

/-! ### The bytes of an event -/

/-- The texts of a header have lengths that four bytes can say. -/
structure EventHeader.Brief (header : EventHeader) : Prop where
  account_id : (utf8 header.account_id).length < 2 ^ 32
  device_id : (utf8 header.device_id).length < 2 ^ 32
  change_id : (utf8 header.change_id).length < 2 ^ 32
  entity_ref : ∀ r ∈ header.entity_ref, (utf8 r).length < 2 ^ 32
  blob_refs : ∀ r ∈ header.blob_refs, (utf8 r).length < 2 ^ 32

section
variable {a b rest rest' : List UInt8} {header header' : EventHeader} {ciphertext ciphertext' : List UInt8}

/-- Two fields of which neither is too long end where they say. -/
theorem push_lp_inj (short : a.length < 2 ^ 32) (short' : b.length < 2 ^ 32)
    (same : push_lp a ++ rest = push_lp b ++ rest') :
    a = b ∧ rest = rest' := by
  simp only [push_lp,List.append_assoc] at same
  obtain ⟨size,same⟩ := List.append_inj same rfl
  exact List.append_inj same (u32_be_bytes_inj short short' size)

theorem push_text_inj {s t : String} (short : (utf8 s).length < 2 ^ 32) (short' : (utf8 t).length < 2 ^ 32)
    (same : push_lp (utf8 s) ++ rest = push_lp (utf8 t) ++ rest') : s = t ∧ rest = rest' := by
  obtain ⟨first,second⟩ := push_lp_inj short short' same
  exact ⟨utf8_inj.mp first,second⟩

/-- The bytes of the references to blobs. -/
def EventHeader.refs_bytes (refs : List String) : List UInt8 := refs.flatMap (fun r => push_lp (utf8 r))

/-- One of two lists of references goes on where the other one ends. -/
theorem refs_bytes_along {refs refs' : List String} (short : ∀ r ∈ refs, (utf8 r).length < 2 ^ 32)
    (short' : ∀ r ∈ refs', (utf8 r).length < 2 ^ 32) (fewer : refs.length ≤ refs'.length)
    (same : EventHeader.refs_bytes refs ++ rest = EventHeader.refs_bytes refs' ++ rest') :
    ∃ more, refs' = refs ++ more ∧ rest = EventHeader.refs_bytes more ++ rest' := by
  induction refs generalizing refs' with
  | nil => exact ⟨refs',rfl,same⟩
  | cons r refs ih =>
    cases refs' with
    | nil => cases fewer
    | cons r' refs' =>
      simp only [EventHeader.refs_bytes,List.flatMap_cons,List.append_assoc] at same
      obtain ⟨rfl,others⟩ := push_text_inj (short r (.head _)) (short' r' (.head _)) same
      obtain ⟨more,rfl,left⟩ := ih (fun s inside => short s (.tail _ inside)) (fun s inside => short' s (.tail _ inside))
        (Nat.le_of_succ_le_succ fewer) others
      exact ⟨more,rfl,left⟩

theorem refs_bytes_eq_nil {refs : List String} (nothing : EventHeader.refs_bytes refs = []) : refs = [] := by
  cases refs with
  | nil => rfl
  | cons r refs => simp [EventHeader.refs_bytes,push_lp,u32_be_bytes] at nothing

/-- Two headers with the same bytes before their references to blobs differ in these at most. -/
theorem aad_bytes_along (brief : header.Brief) (brief' : header'.Brief)
    (fewer : header.blob_refs.length ≤ header'.blob_refs.length)
    (same : header.aad_bytes ++ rest = header'.aad_bytes ++ rest') :
    u32_be_bytes header.blob_refs.length = u32_be_bytes header'.blob_refs.length ∧
      ∃ more, header' = { header with blob_refs := header.blob_refs ++ more } ∧
        rest = EventHeader.refs_bytes more ++ rest' := by
  simp only [EventHeader.aad_bytes,List.append_assoc] at same
  replace same := List.append_cancel_left same
  obtain ⟨version,same⟩ := u32_append_inj same
  obtain ⟨account,same⟩ := push_text_inj brief.account_id brief'.account_id same
  obtain ⟨device,same⟩ := push_text_inj brief.device_id brief'.device_id same
  obtain ⟨change,same⟩ := push_text_inj brief.change_id brief'.change_id same
  obtain ⟨epoch,same⟩ := u32_append_inj same
  obtain ⟨token,same⟩ := ref_bytes_ends
    (fun s inside s' inside' => push_text_inj (brief.entity_ref s inside) (brief'.entity_ref s' inside')) same
  obtain ⟨count,same⟩ := List.append_inj same rfl
  obtain ⟨more,refs,left⟩ := refs_bytes_along brief.blob_refs brief'.blob_refs fewer same
  refine ⟨count,more,?_,left⟩
  cases header
  cases header'
  simp_all

/-- What is signed of an event when both counts are past what four bytes can say. -/
structure Overlong (header header' : EventHeader) (ciphertext ciphertext' : List UInt8) : Prop where
  many : 2 ^ 32 - 1 ≤ header.blob_refs.length ∧ 2 ^ 32 - 1 ≤ header'.blob_refs.length
  large : 2 ^ 32 ≤ ciphertext.length ∨ 2 ^ 32 ≤ ciphertext'.length

/-- One half of the argument: the header with fewer references is the same, or the longer
    ciphertext holds a reference. -/
theorem signing_bytes_along (brief : header.Brief) (brief' : header'.Brief)
    (fewer : header.blob_refs.length ≤ header'.blob_refs.length) (fits : ¬ Overlong header header' ciphertext ciphertext')
    (same : event_signing_bytes header ciphertext = event_signing_bytes header' ciphertext') :
    header = header' ∧ ciphertext = ciphertext' := by
  simp only [event_signing_bytes,List.append_assoc] at same
  obtain ⟨count,more,rfl,left⟩ := aad_bytes_along brief brief' fewer (List.append_cancel_left same)
  cases more with
  | nil =>
    simp only [EventHeader.refs_bytes,List.flatMap_nil,List.nil_append] at left
    exact ⟨by simp,(List.append_inj left rfl).2⟩
  | cons r more =>
    -- The first reference too many stands where the other side has the length of its ciphertext.
    have short : (utf8 r).length < 2 ^ 32 := brief'.blob_refs r (by simp)
    simp only [EventHeader.refs_bytes,List.flatMap_cons,push_lp,List.append_assoc] at left
    obtain ⟨size,body⟩ := List.append_inj left rfl
    have longer : (utf8 r).length + 4 ≤ ciphertext.length := by
      rw [body]
      simp only [List.length_append,length_u32_be_bytes]
      omega
    have capped (n : ℕ) : u32_be_bytes n = u32_be_bytes (min n 4294967295) := by simp [u32_be_bytes]
    rw [capped,capped (utf8 r).length] at size
    rw [capped,capped (List.length _)] at count
    have size := u32_be_bytes_inj (by omega) (by omega) size
    have count := u32_be_bytes_inj (by omega) (by omega) count
    simp only [List.length_append,List.length_cons] at count
    refine absurd ⟨⟨by omega,?_⟩,.inl (by omega)⟩ fits
    simp only [List.length_append,List.length_cons]
    omega

/-- A header is written in one way only, and an event is signed in one way only unless both the number
    of its references and the length of a ciphertext are past what four bytes can say. -/
theorem envelope_bytes_inj (brief : header.Brief) (brief' : header'.Brief) :
    (header.aad_bytes = header'.aad_bytes → header = header') ∧
    ∀ ciphertext ciphertext', ¬ Overlong header header' ciphertext ciphertext' →
      event_signing_bytes header ciphertext = event_signing_bytes header' ciphertext' →
        header = header' ∧ ciphertext = ciphertext' := by
  constructor
  · intro same
    have one (h h' : EventHeader) (brief : h.Brief) (brief' : h'.Brief) (fewer : h.blob_refs.length ≤ h'.blob_refs.length)
        (same : h.aad_bytes = h'.aad_bytes) : h = h' := by
      have same' : h.aad_bytes ++ [] = h'.aad_bytes ++ [] := by rw [same]
      obtain ⟨-,more,rfl,left⟩ := aad_bytes_along brief brief' fewer same'
      rw [List.append_nil] at left
      obtain rfl := refs_bytes_eq_nil left.symm
      simp
    rcases Nat.le_total header.blob_refs.length header'.blob_refs.length with fewer | fewer
    · exact one _ _ brief brief' fewer same
    · exact (one _ _ brief' brief fewer same.symm).symm
  · intro ciphertext ciphertext' fits same
    rcases Nat.le_total header.blob_refs.length header'.blob_refs.length with fewer | fewer
    · exact signing_bytes_along brief brief' fewer fits same
    · have flipped : ¬ Overlong header' header ciphertext' ciphertext := fun long => fits ⟨long.many.symm,long.large.symm⟩
      obtain ⟨here,there⟩ := signing_bytes_along brief' brief fewer flipped same.symm
      exact ⟨here.symm,there.symm⟩

/-- A header without texts. -/
def referring (refs : List String) : EventHeader := ⟨1,"","","",0,none,refs⟩

theorem brief_referring {refs : List String} (short : ∀ r ∈ refs, (utf8 r).length < 2 ^ 32) : (referring refs).Brief := by
  have empty : (utf8 "").length < 2 ^ 32 := by decide +kernel
  exact ⟨empty,empty,empty,by simp [referring],short⟩

theorem envelope_bytes_inj_absent :
    (referring []).aad_bytes ≠ { referring [] with entity_ref := some "" }.aad_bytes ∧
    event_signing_bytes (referring ["a"]) [1] ≠ event_signing_bytes (referring ["a"]) [2] := by
  have empty : (referring []).Brief := brief_referring (by simp)
  have token : { referring [] with entity_ref := some "" }.Brief :=
    ⟨empty.account_id,empty.device_id,empty.change_id,by decide +kernel,empty.blob_refs⟩
  have one : (referring ["a"]).Brief := brief_referring (by decide +kernel)
  constructor
  · intro same
    exact absurd ((envelope_bytes_inj empty token).1 same) (by decide)
  · intro same
    have fits : ¬ Overlong (referring ["a"]) (referring ["a"]) [1] [2] := fun long => by
      have := long.large
      simp at this
    exact absurd ((envelope_bytes_inj one one).2 _ _ fits same).2 (by decide)

/-- A text of one letter, again and again. -/
def drawn_out (n : ℕ) : String := String.ofList (List.replicate n 'a')

theorem utf8_drawn_out (n : ℕ) : utf8 (drawn_out n) = List.replicate n 97 := by
  have letter : String.utf8EncodeChar 'a' = [97] := by decide
  rw [drawn_out,utf8_ofList,List.flatMap_replicate,letter]
  simp

/-- With as many references as four bytes can say, one more of them and the length of a ciphertext
    that is past four bytes look the same. -/
theorem signing_bytes_ambiguous :
    (referring (List.replicate (2 ^ 32 - 1) "")).Brief ∧
    (referring (List.replicate (2 ^ 32 - 1) "" ++ [drawn_out (2 ^ 32 - 1)])).Brief ∧
    event_signing_bytes (referring (List.replicate (2 ^ 32 - 1) "")) (List.replicate (2 ^ 32 - 1) 97 ++ [0,0,0,0]) =
      event_signing_bytes (referring (List.replicate (2 ^ 32 - 1) "" ++ [drawn_out (2 ^ 32 - 1)])) [] ∧
    referring (List.replicate (2 ^ 32 - 1) "") ≠
      referring (List.replicate (2 ^ 32 - 1) "" ++ [drawn_out (2 ^ 32 - 1)]) := by
  have at_most (n : ℕ) (full : n = 4294967295) : (referring (List.replicate n "")).Brief ∧
      (referring (List.replicate n "" ++ [drawn_out n])).Brief ∧
      event_signing_bytes (referring (List.replicate n "")) (List.replicate n 97 ++ [0,0,0,0]) =
        event_signing_bytes (referring (List.replicate n "" ++ [drawn_out n])) [] ∧
      referring (List.replicate n "") ≠ referring (List.replicate n "" ++ [drawn_out n]) := by
    have nothing : (utf8 "").length = 0 := by decide +kernel
    have empty : ∀ r ∈ List.replicate n "", (utf8 r).length < 2 ^ 32 := by
      intro r inside
      rw [List.eq_of_mem_replicate inside,nothing]
      omega
    have last : (utf8 (drawn_out n)).length < 2 ^ 32 := by
      rw [utf8_drawn_out,List.length_replicate]
      omega
    refine ⟨brief_referring empty,brief_referring ?_,?_,?_⟩
    · intro r inside
      rcases List.mem_append.mp inside with inside | inside
      · exact empty r inside
      · rw [List.mem_singleton.mp inside]
        exact last
    · have count : u32_be_bytes (n + 1) = u32_be_bytes n := by simp [u32_be_bytes,full]
      have size : u32_be_bytes (n + 4) = u32_be_bytes n := by simp [u32_be_bytes,full]
      have zero : u32_be_bytes 0 = [0,0,0,0] := by decide +kernel
      simp only [event_signing_bytes,EventHeader.aad_bytes,referring,List.length_append,List.length_replicate,
        List.length_cons,
        List.length_nil,Nat.zero_add,count,size,zero,List.flatMap_append,List.flatMap_cons,List.flatMap_nil,push_lp,
        utf8_drawn_out,List.append_assoc,List.append_nil]
    · intro same
      have lengths := congrArg (fun header : EventHeader => header.blob_refs.length) same
      simp [referring] at lengths
  exact at_most _ (by norm_num)

end
end Pergamon
