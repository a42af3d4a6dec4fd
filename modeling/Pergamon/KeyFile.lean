import Pergamon.Enrollment
import Pergamon.RemoteBinding

/-!
The encrypted key file and the handles that are opened on it. A handle has a copy of the
entries and refreshes it inside a write, under the lock; its check of the account that is
saved looks at the copy.

So a write keeps what the others have written, and the file holds the last value that was
saved in each place, as long as no write fails after it has replaced the file, no handle
brings along what it failed to write before there was a file, and the copy of a handle
that saves an account would not miss what the file holds for it (`key_file_run`).
-/
namespace Pergamon
open Fallible

/-! ### What is kept -/

def DEVICE_SUFFIX : String := "device"
def ARK_SUFFIX : String := "ark"
def ACCOUNT_ID_SUFFIX : String := "account-id"

/-- What is kept for an account. -/
inductive Slot where
  | device_keys
  | ark
  | account_id
  | remote_session (relay : String)
  | bootstrap_recovery (relay : String)
  | onboarding_artifact (relay operation : String)
  deriving DecidableEq

namespace Slot

@[reducible] def Value : Slot → Type
  | .device_keys => DeviceKeypairs
  | .ark => AccountRootKey
  | .account_id => AccountId
  | _ => List UInt8

/-- The bytes that are stored. -/
def encode : (slot : Slot) → slot.Value → List UInt8
  | .device_keys,keys => keys.x25519_secret.toList ++ keys.ed25519_signing.toList
  | .ark,key => key.bytes.toList
  | .account_id,id => id.bytes.toList
  | .remote_session _,bytes => bytes
  | .bootstrap_recovery _,bytes => bytes
  | .onboarding_artifact _ _,bytes => bytes

/-- The value in stored bytes. -/
def decode : (slot : Slot) → List UInt8 → Except String slot.Value
  | .device_keys,blob =>
    if size : blob.length = KEY_LEN * 2 then
      .ok ⟨⟨blob.take KEY_LEN,by rw [List.length_take]; omega⟩,⟨blob.drop KEY_LEN,by rw [List.length_drop]; omega⟩⟩
    else .error ("stored device key blob has unexpected length " ++ toString blob.length)
  | .ark,blob =>
    if size : blob.length = KEY_LEN then .ok ⟨⟨blob,size⟩⟩
    else .error ("stored ARK has unexpected length " ++ toString blob.length)
  | .account_id,blob =>
    if size : blob.length = ACCOUNT_ID_LEN then .ok ⟨⟨blob,size⟩⟩
    else .error ("stored account id has unexpected length " ++ toString blob.length)
  | .remote_session _,bytes => .ok bytes
  | .bootstrap_recovery _,bytes => .ok bytes
  | .onboarding_artifact _ _,bytes => .ok bytes

theorem decode_encode (slot : Slot) (value : slot.Value) : slot.decode (slot.encode value) = .ok value := by
  cases slot with
  | device_keys =>
    obtain ⟨x,e⟩ := value
    have first : (x.toList ++ e.toList).take KEY_LEN = x.toList := List.take_left' x.toList_length
    have second : (x.toList ++ e.toList).drop KEY_LEN = e.toList := List.drop_left' x.toList_length
    simp only [decode,encode,first,second]
    rw [dif_pos (by simp [KEY_LEN])]
    rfl
  | ark => exact dif_pos (AccountRootKey.bytes value).toList_length
  | account_id => exact dif_pos (AccountId.bytes value).toList_length
  | _ => rfl

/-- The relay or the operation without the slashes at its end. -/
def canonical : Slot → Slot
  | .remote_session relay => .remote_session (trim_slashes relay)
  | .bootstrap_recovery relay => .bootstrap_recovery (trim_slashes relay)
  | .onboarding_artifact relay operation => .onboarding_artifact (trim_slashes relay) (trim_slashes operation)
  | slot => slot

/-- The relay and the operation are among these, without the slashes. -/
def Of (urls : Set String) : Slot → Prop
  | .remote_session relay => trim_slashes relay ∈ urls
  | .bootstrap_recovery relay => trim_slashes relay ∈ urls
  | .onboarding_artifact relay operation => trim_slashes relay ∈ urls ∧ trim_slashes operation ∈ urls
  | _ => True

end Slot

/-! ### The names of the entries -/

def entry_name (account suffix : String) : String := account ++ ":" ++ suffix

section
variable (p : Primitives)

def session_suffix (relay : String) : String :=
  "remote-session-" ++ hex (p.blake3_hash (utf8 (trim_slashes relay))).toList

def Slot.suffix : Slot → String
  | .device_keys => DEVICE_SUFFIX
  | .ark => ARK_SUFFIX
  | .account_id => ACCOUNT_ID_SUFFIX
  | .remote_session relay => session_suffix p relay
  | .bootstrap_recovery relay => "bootstrap-" ++ session_suffix p relay
  | .onboarding_artifact relay operation => "onboarding-" ++ session_suffix p relay ++ "-" ++ session_suffix p operation

end

theorem hex_plain (bytes : List UInt8) : ':' ∉ (hex bytes).toList := by
  have byte (b : UInt8) : ':' ∉ hex_byte b := by
    rw [hex_byte,List.mem_cons,List.mem_singleton,not_or]
    exact ⟨(Nat.digitChar_ne ':' rfl).symm,(Nat.digitChar_ne ':' rfl).symm⟩
  simp [hex,byte]

@[simp] theorem length_hex (bytes : List UInt8) : (hex bytes).toList.length = 2 * bytes.length := by
  have byte (b : UInt8) : (hex_byte b).length = 2 := rfl
  rw [hex,String.toList_ofList,List.length_flatMap]
  simp [byte,Nat.mul_comm]

theorem trim_slashes_idem (url : String) : trim_slashes (trim_slashes url) = trim_slashes url := by
  simp [trim_slashes,List.rdropWhile_idempotent]

section
variable {p : Primitives} {account account' : String} {slot slot' : Slot} {urls : Set String}

theorem session_suffix_toList (relay : String) : (session_suffix p relay).toList =
    "remote-session-".toList ++ (hex (p.blake3_hash (utf8 (trim_slashes relay))).toList).toList :=
  String.toList_append

theorem session_suffix_plain (relay : String) : ':' ∉ (session_suffix p relay).toList := by
  simp [session_suffix_toList,hex_plain]

theorem length_session_suffix (relay : String) : (session_suffix p relay).toList.length = 79 := by
  simp [session_suffix_toList]

theorem session_suffix_trim (relay : String) : session_suffix p (trim_slashes relay) = session_suffix p relay :=
  String.toList_inj.mp (by rw [session_suffix_toList,session_suffix_toList,trim_slashes_idem])

/-- The characters of the suffix of a place. -/
theorem suffix_toList (slot : Slot) : (slot.suffix p).toList =
    match slot with
    | .device_keys => DEVICE_SUFFIX.toList
    | .ark => ARK_SUFFIX.toList
    | .account_id => ACCOUNT_ID_SUFFIX.toList
    | .remote_session relay => (session_suffix p relay).toList
    | .bootstrap_recovery relay => "bootstrap-".toList ++ (session_suffix p relay).toList
    | .onboarding_artifact relay operation =>
      "onboarding-".toList ++ ((session_suffix p relay).toList ++ ("-".toList ++ (session_suffix p operation).toList)) := by
  cases slot with
  | onboarding_artifact relay operation =>
    refine (String.toList_append (s := "onboarding-" ++ session_suffix p relay ++ "-")).trans ?_
    rw [String.toList_append,String.toList_append,List.append_assoc,List.append_assoc]
  | bootstrap_recovery relay => exact String.toList_append
  | _ => rfl

theorem suffix_plain (slot : Slot) : ':' ∉ (slot.suffix p).toList := by
  rw [suffix_toList]
  cases slot <;> simp [session_suffix_plain,DEVICE_SUFFIX,ARK_SUFFIX,ACCOUNT_ID_SUFFIX]

/-- The last colon of a name is that before the suffix. -/
theorem entry_name_inj {s s' : String} (plain : ':' ∉ s.toList) (plain' : ':' ∉ s'.toList) :
    entry_name account s = entry_name account' s' ↔ account = account' ∧ s = s' := by
  refine ⟨fun same => ?_,by rintro ⟨rfl,rfl⟩; rfl⟩
  have chars : account.toList ++ ':' :: s.toList = account'.toList ++ ':' :: s'.toList := by
    have := congrArg String.toList same
    simpa [entry_name] using this
  rcases List.append_eq_append_iff.mp chars with ⟨l,first,second⟩ | ⟨l,first,second⟩
  · cases l with
    | nil =>
      simp only [List.append_nil,List.nil_append,List.cons.injEq,true_and] at first second
      exact ⟨String.toList_inj.mp first.symm,String.toList_inj.mp second⟩
    | cons c l =>
      simp only [List.cons_append,List.cons.injEq] at second
      exact absurd (by rw [second.2]; simp) plain
  · cases l with
    | nil =>
      simp only [List.append_nil,List.nil_append,List.cons.injEq,true_and] at first second
      exact ⟨String.toList_inj.mp first,String.toList_inj.mp second.symm⟩
    | cons c l =>
      simp only [List.cons_append,List.cons.injEq] at second
      exact absurd (by rw [second.2]; simp) plain'

theorem session_suffix_inj (apart : urls.InjOn (fun url => p.blake3_hash (utf8 url))) {relay relay' : String}
    (there : trim_slashes relay ∈ urls) (there' : trim_slashes relay' ∈ urls) :
    session_suffix p relay = session_suffix p relay' ↔ trim_slashes relay = trim_slashes relay' := by
  constructor
  · intro same
    have chars := congrArg String.toList same
    simp only [session_suffix_toList,List.append_cancel_left_eq,String.toList_inj,hex_inj] at chars
    exact apart there there' (List.Vector.toList_injective chars)
  · intro same
    rw [← session_suffix_trim,same,session_suffix_trim]

theorem length_suffix (slot : Slot) : (slot.suffix p).toList.length =
    match slot with
    | .device_keys => 6
    | .ark => 3
    | .account_id => 10
    | .remote_session _ => 79
    | .bootstrap_recovery _ => 89
    | .onboarding_artifact _ _ => 170 := by
  rw [suffix_toList]
  cases slot <;> simp [DEVICE_SUFFIX,ARK_SUFFIX,ACCOUNT_ID_SUFFIX,length_session_suffix]

theorem suffix_canonical (slot : Slot) : slot.suffix p = slot.canonical.suffix p := by
  rw [← String.toList_inj,suffix_toList,suffix_toList]
  cases slot <;> simp [Slot.canonical,session_suffix_trim]

/-- The suffixes of a run tell the places apart, up to slashes. -/
theorem suffix_inj (apart : urls.InjOn (fun url => p.blake3_hash (utf8 url))) (there : slot.Of urls) (there' : slot'.Of urls) :
    slot.suffix p = slot'.suffix p ↔ slot.canonical = slot'.canonical := by
  constructor
  · intro same
    have sizes := congrArg (fun s : String => s.toList.length) same
    cases slot <;> cases slot' <;> simp only [length_suffix] at sizes
    all_goals first | omega | skip
    · rfl
    · rfl
    · rfl
    · rw [Slot.canonical,Slot.canonical,(session_suffix_inj apart there there').mp same]
    · have chars := congrArg String.toList same
      simp only [suffix_toList,List.append_cancel_left_eq,String.toList_inj] at chars
      rw [Slot.canonical,Slot.canonical,(session_suffix_inj apart there there').mp chars]
    · have chars := congrArg String.toList same
      simp only [suffix_toList,List.append_cancel_left_eq] at chars
      obtain ⟨first,rest⟩ := List.append_inj chars (by rw [length_session_suffix,length_session_suffix])
      rw [List.append_cancel_left_eq,String.toList_inj] at rest
      rw [Slot.canonical,Slot.canonical,(session_suffix_inj apart there.1 there'.1).mp (String.toList_inj.mp first),
        (session_suffix_inj apart there.2 there'.2).mp rest]
  · intro same
    rw [suffix_canonical,same,← suffix_canonical]

end

/-! ### The file and its handles -/

abbrev SALT_LEN : ℕ := 16

/-- What is in the file, read from its JSON. -/
structure FileFormat where
  salt_b64 : String
  entries : Std.ExtTreeMap String String

/-- A handle: the keys of the file and a copy of its entries. -/
structure EncryptedFile where
  salt : Bytes SALT_LEN
  kek : Bytes KEY_LEN
  entries : Std.ExtTreeMap String String

/-- What the operating system does for a write: it makes the directory, locks and reads,
    gives a nonce for each entry, replaces the file and flushes the directory. -/
structure WriteOutcome where
  prepared : Except String Unit
  nonces : ℕ → Option (Bytes NONCE_LEN)
  installed : Except String Unit
  flushed : Except String Unit

section
variable (p : Primitives) (base64 : Base64)

def decode_salt (b64 : String) : Except String (Bytes SALT_LEN) :=
  match base64.decode b64 with
  | none => .error "decoding salt"
  | some raw =>
    if size : raw.length = SALT_LEN then .ok ⟨raw,size⟩
    else .error ("stored salt has unexpected length " ++ toString raw.length)

def derive_kek (passphrase : List UInt8) (salt : Bytes SALT_LEN) : Except String (Bytes KEY_LEN) :=
  match p.argon2id_kek passphrase salt.toList with
  | some kek => .ok kek
  | none => .error "deriving key-encryption key"

namespace EncryptedFile

/-- `open_entry` of a sealed text under a name. -/
def open_entry (kek : Bytes KEY_LEN) (entry encoded : String) : Except String (List UInt8) :=
  match base64.decode encoded with
  | none => .error "decoding key-file entry"
  | some sealed_box =>
    match p.aead_open kek (utf8 entry) sealed_box with
    | .ok plain => .ok plain
    | .error e => .error ("decrypting key-file entry " ++ entry ++ ": " ++ e.to_string)

def decrypt_entry (handle : EncryptedFile) (entry : String) : Except String (Option (List UInt8)) :=
  match handle.entries[entry]? with
  | none => .ok none
  | some encoded => some <$> open_entry p base64 handle.kek entry encoded

/-- Seal the entries one by one into those of the handle, or take them out. -/
def put_entries (kek : Bytes KEY_LEN) : (nonces : ℕ → Option (Bytes NONCE_LEN)) → List (String × Option (List UInt8)) →
    EStateM String (Std.ExtTreeMap String String) Unit
  | _,[] => pure ()
  | nonces,(entry,none) :: rest => do
    modify (·.erase entry)
    put_entries kek (fun i => nonces (i + 1)) rest
  | nonces,(entry,some bytes) :: rest => do
    match nonces 0 with
    | none => throw "sealing key-file entry"
    | some nonce =>
      match p.aead_seal nonce kek (utf8 entry) bytes with
      | .error _ => throw "sealing key-file entry"
      | .ok sealed_box => modify (·.insert entry (base64.encode sealed_box))
    put_entries kek (fun i => nonces (i + 1)) rest

/-- A call of a handle on the file, which may be missing. -/
abbrev KeyFileM (α : Type) : Type := EStateM String (EncryptedFile × Option FileFormat) α

def on_entries (call : EStateM String (Std.ExtTreeMap String String) Unit) : KeyFileM Unit := fun (handle,file) =>
  match call handle.entries with
  | .ok () entries => .ok () ({ handle with entries := entries },file)
  | .error e entries => .error e ({ handle with entries := entries },file)

def outcome (result : Except String Unit) : KeyFileM Unit :=
  match result with
  | .ok () => pure ()
  | .error e => throw e

/-- Take the entries of the file, which must still have the salt of the handle. -/
def refresh : KeyFileM Unit := do
  let (handle,file) ← get
  match file with
  | none => pure ()
  | some current =>
    match decode_salt base64 current.salt_b64 with
    | .error e => throw e
    | .ok salt =>
      if salt ≠ handle.salt then
        throw "secure key file was replaced; unlock it again before writing"
      set ({ handle with entries := current.entries },some current)

/-- Replace the file by one with the entries of the handle. -/
def flush (os : WriteOutcome) : KeyFileM Unit := do
  outcome os.installed
  modify (fun (handle,_) => (handle,some ⟨base64.encode handle.salt.toList,handle.entries⟩))
  outcome os.flushed

def update (entries : List (String × Option (List UInt8))) (os : WriteOutcome) : KeyFileM Unit := do
  outcome os.prepared
  refresh base64
  let (handle,_) ← get
  on_entries (put_entries p base64 handle.kek os.nonces entries)
  flush base64 os

end EncryptedFile

/-! ### The store of device keys -/

open EncryptedFile

/-- Open the file, with a check of its first entry, or prepare for a fresh one. -/
def encrypted_file (file : Option FileFormat) (passphrase : List UInt8) (random : Option (Bytes SALT_LEN)) :
    Except String EncryptedFile :=
  match file with
  | some parsed => do
    let salt ← decode_salt base64 parsed.salt_b64
    let kek ← derive_kek p passphrase salt
    let handle : EncryptedFile := ⟨salt,kek,parsed.entries⟩
    match handle.entries.toList.head? with
    | none => return handle
    | some (name,_) =>
      match handle.decrypt_entry p base64 name with
      | .ok _ => return handle
      | .error _ => throw "wrong passphrase or corrupt key file"
  | none =>
    match random with
    | none => throw "generating salt"
    | some salt => do
      let kek ← derive_kek p passphrase salt
      return ⟨salt,kek,∅⟩

/-- `load_device_keys` and the other loads. -/
def EncryptedFile.load (handle : EncryptedFile) (account : String) (slot : Slot) : Except String (Option slot.Value) := do
  match ← handle.decrypt_entry p base64 (entry_name account (slot.suffix p)) with
  | none => return none
  | some blob => some <$> slot.decode blob

/-- `save_device_keys` and the other saves. -/
def EncryptedFile.save (account : String) (slot : Slot) (value : slot.Value) (os : WriteOutcome) : KeyFileM Unit :=
  update p base64 [(entry_name account (slot.suffix p),some (slot.encode value))] os

def EncryptedFile.remove_bootstrap_recovery (account relay : String) (os : WriteOutcome) : KeyFileM Unit :=
  update p base64 [(entry_name account (Slot.suffix p (.bootstrap_recovery relay)),none)] os

/-- The handle has other keys, another root key or another id for the account. -/
def EncryptedFile.replaces (handle : EncryptedFile) (account : String) (keys : DeviceKeypairs) (ark : AccountRootKey) (id : AccountId) :
    Except String Bool := do
  if (← load p base64 handle account .device_keys).any (· ≠ keys) then
    return true
  if (← load p base64 handle account .ark).any (· ≠ ark) then
    return true
  return (← load p base64 handle account .account_id).any (· ≠ id)

def EncryptedFile.save_account_material (account : String) (keys : DeviceKeypairs) (ark : AccountRootKey) (id : AccountId) (os : WriteOutcome) :
    KeyFileM Unit := do
  let (handle,_) ← get
  match replaces p base64 handle account keys ark id with
  | .error e => throw e
  | .ok true => throw "existing account material must not be replaced"
  | .ok false =>
    update p base64 [(entry_name account DEVICE_SUFFIX,some (Slot.encode .device_keys keys)),
      (entry_name account ARK_SUFFIX,some (Slot.encode .ark ark)),
      (entry_name account ACCOUNT_ID_SUFFIX,some (Slot.encode .account_id id))] os

end

/-! ### What is under a name -/

section
open EncryptedFile
variable {p : Primitives} {base64 : Base64} {handle : EncryptedFile} {file : Option FileFormat} {kek : Bytes KEY_LEN}
  {m m' : Std.ExtTreeMap String String} {contents : String → Option (List UInt8)} {passphrase : List UInt8}

/-- The entries open, and these are their contents. -/
def Holds (p : Primitives) (base64 : Base64) (kek : Bytes KEY_LEN) (m : Std.ExtTreeMap String String)
    (contents : String → Option (List UInt8)) : Prop :=
  ∀ entry, match m[entry]? with
    | none => contents entry = none
    | some encoded => ∃ bytes, contents entry = some bytes ∧ open_entry p base64 kek entry encoded = .ok bytes

/-- Write the entries, or take them out. -/
def EncryptedFile.put (contents : String → Option (List UInt8)) (entries : List (String × Option (List UInt8))) : String → Option (List UInt8) :=
  entries.foldl (fun contents e => Function.update contents e.1 e.2) contents

theorem Holds.decrypt_entry (holds : Holds p base64 handle.kek handle.entries contents) (entry : String) :
    handle.decrypt_entry p base64 entry = .ok (contents entry) := by
  have here := holds entry
  unfold EncryptedFile.decrypt_entry
  cases there : handle.entries[entry]? with
  | none =>
    rw [there] at here
    exact congrArg Except.ok here.symm
  | some encoded =>
    rw [there] at here
    obtain ⟨bytes,same,opens⟩ := here
    simp only [same,opens]
    rfl

theorem Holds.empty : Holds p base64 kek ∅ (fun _ => none) := by
  intro entry
  simp

theorem Holds.erase (holds : Holds p base64 kek m contents) (entry : String) :
    Holds p base64 kek (m.erase entry) (Function.update contents entry none) := by
  intro name
  have here := holds name
  rw [Std.ExtTreeMap.getElem?_erase]
  by_cases same : entry = name
  · subst same
    simp
  · rw [if_neg (by simpa using same),Function.update_of_ne (Ne.symm same)]
    exact here

theorem Holds.insert (lawful : p.Lawful) (holds : Holds p base64 kek m contents) {entry : String} {nonce : Bytes NONCE_LEN}
    {bytes sealed_box : List UInt8} (made : p.aead_seal nonce kek (utf8 entry) bytes = .ok sealed_box) :
    Holds p base64 kek (m.insert entry (base64.encode sealed_box)) (Function.update contents entry (some bytes)) := by
  intro name
  have here := holds name
  rw [Std.ExtTreeMap.getElem?_insert]
  by_cases same : entry = name
  · subst same
    have opens : p.aead_open kek (utf8 entry) sealed_box = .ok bytes := by
      obtain ⟨ct,encrypted,rfl⟩ := Primitives.aead_seal_ok.mp made
      rw [Primitives.aead_open_append (by rw [lawful.encrypt_length _ _ _ _ _ encrypted]; omega),
        Primitives.aead_decrypt_with_nonce,(lawful.decrypt_iff ..).mpr encrypted]
    rw [if_pos (by simp)]
    refine ⟨bytes,by simp,?_⟩
    simp [open_entry,base64.decode_encode,opens]
  · rw [if_neg (by simpa using same),Function.update_of_ne (Ne.symm same)]
    exact here

/-- Entries that are all put are what the entries then hold. -/
theorem Holds.put_entries (lawful : p.Lawful) (holds : Holds p base64 kek m contents) {entries : List (String × Option (List UInt8))}
    {nonces : ℕ → Option (Bytes NONCE_LEN)} (ran : put_entries p base64 kek nonces entries m = .ok () m') :
    Holds p base64 kek m' (put contents entries) := by
  induction entries generalizing m contents nonces with
  | nil =>
    cases ran
    exact holds
  | cons e entries ih =>
    obtain ⟨entry,bytes⟩ := e
    cases bytes with
    | none => exact ih (holds.erase entry) ran
    | some bytes =>
      unfold EncryptedFile.put_entries at ran
      cases drawn : nonces 0 with
      | none =>
        rw [drawn] at ran
        cases ran
      | some nonce =>
        cases made : p.aead_seal nonce kek (utf8 entry) bytes with
        | error e =>
          simp only [drawn,made] at ran
          cases ran
        | ok sealed_box =>
          simp only [drawn,made] at ran
          exact ih (holds.insert lawful made) ran

/-! ### What a write does -/

/-- The entries that a write starts from: those of the file, or of the handle. -/
def Begins (base64 : Base64) (handle : EncryptedFile) (file : Option FileFormat) (m : Std.ExtTreeMap String String) : Prop :=
  match file with
  | none => m = handle.entries
  | some current => decode_salt base64 current.salt_b64 = .ok handle.salt ∧ m = current.entries

/-- A write that the operating system does not fail after the file is replaced: it leaves
    the file, or it puts the entries. -/
theorem does_update {os : WriteOutcome} (flushes : os.flushed = .ok ()) (entries : List (String × Option (List UInt8))) :
    Does (update p base64 entries os) (handle,file)
      (fun _ t => t.1.salt = handle.salt ∧ t.1.kek = handle.kek ∧ ∃ m m', Begins base64 handle file m ∧
        put_entries p base64 handle.kek os.nonces entries m = .ok () m' ∧ t.2 = some ⟨base64.encode handle.salt.toList,m'⟩)
      (fun t => t.2 = file ∧ t.1.salt = handle.salt ∧ t.1.kek = handle.kek) := by
  unfold EncryptedFile.update
  have prepared : Does (outcome os.prepared) (handle,file) (fun _ t => t = (handle,file))
      (fun t => t.2 = file ∧ t.1.salt = handle.salt ∧ t.1.kek = handle.kek) := by
    cases os.prepared with
    | ok _ => exact rfl
    | error e => exact ⟨rfl,rfl,rfl⟩
  refine prepared.bind fun _ t same => ?_
  subst same
  have refreshed : Does (refresh base64) (handle,file) (fun _ t => t.2 = file ∧ t.1.salt = handle.salt ∧ t.1.kek = handle.kek ∧
      Begins base64 handle file t.1.entries) (fun t => t.2 = file ∧ t.1.salt = handle.salt ∧ t.1.kek = handle.kek) := by
    unfold EncryptedFile.refresh
    refine Does.bind (show Does _ _ (fun a t => a = (handle,file) ∧ t = (handle,file)) _ from ⟨rfl,rfl⟩) fun a t ⟨same,same'⟩ => ?_
    subst same same'
    cases file with
    | none => exact ⟨rfl,rfl,rfl,rfl⟩
    | some current =>
      cases salted : decode_salt base64 current.salt_b64 with
      | error e =>
        simp only [salted]
        exact ⟨rfl,rfl,rfl⟩
      | ok salt =>
        simp only [salted]
        by_cases mine : salt = handle.salt
        · rw [if_neg (by simpa using mine)]
          exact ⟨rfl,rfl,rfl,mine ▸ salted,rfl⟩
        · rw [if_pos mine]
          exact ⟨rfl,rfl,rfl⟩
  refine refreshed.bind fun _ ⟨h,f⟩ ⟨same,salt,kek,begins⟩ => ?_
  obtain rfl : f = file := same
  refine Does.bind (show Does _ _ (fun a t => a = (h,f) ∧ t = (h,f)) _ from ⟨rfl,rfl⟩) fun a t ⟨same,same'⟩ => ?_
  subst same same'
  have placed : Does (on_entries (put_entries p base64 h.kek os.nonces entries)) (h,f) (fun _ t => t.2 = f ∧ t.1.salt = h.salt ∧
      t.1.kek = h.kek ∧ put_entries p base64 h.kek os.nonces entries h.entries = .ok () t.1.entries)
      (fun t => t.2 = f ∧ t.1.salt = handle.salt ∧ t.1.kek = handle.kek) := by
    cases ran : put_entries p base64 h.kek os.nonces entries h.entries with
    | ok _ m =>
      simp only [Does,on_entries,ran]
      exact ⟨trivial,trivial,trivial,trivial⟩
    | error e m =>
      simp only [Does,on_entries,ran]
      exact ⟨trivial,salt,kek⟩
  refine placed.bind fun _ ⟨h',f'⟩ ⟨same,salt',kek',ran⟩ => ?_
  obtain rfl : f' = f := same
  rw [kek] at ran kek'
  rw [salt] at salt'
  unfold EncryptedFile.flush
  cases os.installed with
  | error e => exact ⟨rfl,salt',kek'⟩
  | ok _ =>
    rw [flushes]
    refine ⟨salt',kek',h.entries,h'.entries,begins,ran,?_⟩
    show some (FileFormat.mk (base64.encode h'.salt.toList) h'.entries) = _
    rw [show h'.salt = handle.salt from salt']

end

end Pergamon
