import Pergamon.Onboarding
import Pergamon.Relay

/-!
The two relays that clients use: the double in memory and the client of the sync server.
The server lists the bundles of a device and the attestations of an account in pages, the
client asks for the first page only and takes no answer over a fixed size.

Both are honest (`memoryRelay_honest`, `httpRelay_honest`): what they hold of an account
changes with the calls as a shelf does, and what they list of it is on the shelf. The
double lists all of it (`memoryRelay_complete`), the client a page
(`http_wraps_list`, `http_attestations_list`).
-/
namespace Pergamon
open Fallible NumberedLog

/-! ### What a relay holds of an account -/

structure Shelf where
  records : String → Option (List UInt8)
  mailbox : String → List (List UInt8)
  attestations : List (List UInt8)

/-- Append an artefact unless one with its hash is there. -/
def deposit (hash : List UInt8 → String) (l : List (List UInt8)) (bytes : List UInt8) : List (List UInt8) :=
  if ∃ old ∈ l, hash old = hash bytes then l else l ++ [bytes]

/-- Artefacts with hashes of their own are all appended. -/
theorem foldl_deposit {hash : List UInt8 → String} {l : List (List UInt8)} (distinct : (l.map hash).Nodup) :
    l.foldl (deposit hash) [] = l := by
  induction l using List.reverseRecOn with
  | nil => rfl
  | append_singleton l bytes ih =>
    rw [List.map_append,List.nodup_append] at distinct
    obtain ⟨before,-,apart⟩ := distinct
    rw [List.foldl_append,ih before,List.foldl_cons,List.foldl_nil,deposit,if_neg]
    rintro ⟨old,inside,same⟩
    exact apart _ (List.mem_map_of_mem inside) _ (by simp) same

namespace Shelf
variable (hash : List UInt8 → String) (shelf : Shelf)

def put_record (device_id : String) (record : List UInt8) : Shelf :=
  { shelf with records := Function.update shelf.records device_id (some record) }

def put_wrap (device_id : String) (bundle : List UInt8) : Shelf :=
  { shelf with mailbox := Function.update shelf.mailbox device_id (deposit hash (shelf.mailbox device_id) bundle) }

def append_attestation (attestation : List UInt8) : Shelf :=
  { shelf with attestations := deposit hash shelf.attestations attestation }

end Shelf

/-- The answer of a call that only reads: this value, or an error. -/
def Answers {σ α : Type} (x : EStateM SyncError σ α) (s : σ) (right : α → Prop) : Prop :=
  (∃ a, x s = .ok a s ∧ right a) ∨ ∃ e, x s = .error e s

/-- A call that writes succeeds, and the shelf changes. -/
def Writes {σ α : Type} (view : σ → Shelf) (fine : σ → Prop) (x : EStateM SyncError σ α) (s : σ) (after : Shelf) : Prop :=
  ∃ a t, x s = .ok a t ∧ fine t ∧ view t = after

/-- What an honest relay does for an account, in the states that are fine for it. -/
structure Honest {σ : Type} (relay : RelayTransport σ) (hash : List UInt8 → String) (account : String) (view : σ → Shelf)
    (fine : σ → Prop) : Prop where
  device_put (d record) (s) : fine s → Writes view fine (relay.device_put account d record) s ((view s).put_record d record)
  device_get (d) (s) : fine s → Answers (relay.device_get account d) s (· = (view s).records d)
  devices_list (s) : fine s → Answers (relay.devices_list account) s
    (fun l => ∀ d record, ⟨d,record⟩ ∈ l ↔ (view s).records d = some record)
  wrap_put (d bundle) (s) : fine s → Writes view fine (relay.wrap_put account d bundle) s ((view s).put_wrap hash d bundle)
  attestation_append (a) (s) : fine s →
    Writes view fine (relay.attestation_append account a) s ((view s).append_attestation hash a)
  recovery_put (blob) (s) : fine s → Writes view fine (relay.recovery_put account blob) s (view s)
  recovery_get (s) : fine s → Answers (relay.recovery_get account) s (fun _ => True)

/-- A relay whose lists are complete. -/
structure ListsAll {σ : Type} (relay : RelayTransport σ) (account : String) (view : σ → Shelf) (fine : σ → Prop) : Prop where
  wraps_list (d) (s) : fine s → ∃ l, relay.wraps_list account d 0 s = .ok l s ∧
    l.map RelayWrap.bundle = (view s).mailbox d
  attestations_list (s) : fine s → ∃ l, relay.attestations_list account 0 s = .ok l s ∧
    l.map RelayAttestation.attestation = (view s).attestations

/-! ### The double in memory -/

structure AccountRelay where
  devices : Std.ExtTreeMap String (List UInt8) := ∅
  wraps : Std.ExtTreeMap String (List RelayWrap) := ∅
  attestations : List RelayAttestation := []
  recovery : Option (List UInt8) := none

def Primitives.blake3_hex (p : Primitives) (bytes : List UInt8) : String := hex (p.blake3_hash bytes).toList

namespace MemoryRelay

/-- The accounts that the double holds; one that it does not know is empty. -/
abbrev Accounts : Type := Std.ExtTreeMap String AccountRelay

def entry (accounts : Accounts) (account_id : String) : AccountRelay := accounts.getD account_id {}

/-- Append a bundle under the next number, unless one with its hash is there. -/
def push_wrap (p : Primitives) (l : List RelayWrap) (bundle : List UInt8) : ℕ × List RelayWrap :=
  match l.find? (fun w => p.blake3_hex w.bundle = p.blake3_hex bundle) with
  | some w => (w.seq,l)
  | none =>
    let seq := (l.getLast?.map (fun w => w.seq + 1)).getD 1
    (seq,l ++ [⟨seq,bundle⟩])

def push_attestation (p : Primitives) (l : List RelayAttestation) (attestation : List UInt8) : ℕ × List RelayAttestation :=
  match l.find? (fun a => p.blake3_hex a.attestation = p.blake3_hex attestation) with
  | some a => (a.seq,l)
  | none =>
    let seq := (l.getLast?.map (fun a => a.seq + 1)).getD 1
    (seq,l ++ [⟨seq,attestation⟩])

end MemoryRelay

open MemoryRelay in
/-- `MemoryRelay`; the hashes that it keeps beside its lists are those of the lists. -/
def memoryRelay (p : Primitives) : RelayTransport MemoryRelay.Accounts where
  device_put account_id device_id record := modify (fun accounts =>
    let acct := MemoryRelay.entry accounts account_id
    accounts.insert account_id { acct with devices := acct.devices.insert device_id record })
  device_get account_id device_id := do
    let accounts ← get
    return (MemoryRelay.entry accounts account_id).devices[device_id]?
  devices_list account_id := do
    let accounts ← get
    return (MemoryRelay.entry accounts account_id).devices.toList.map (fun (device_id,record) => ⟨device_id,record⟩)
  wrap_put account_id device_id bundle := do
    let accounts ← get
    let acct := MemoryRelay.entry accounts account_id
    let (seq,l) := push_wrap p (acct.wraps.getD device_id []) bundle
    set (accounts.insert account_id { acct with wraps := acct.wraps.insert device_id l })
    return seq
  wraps_list account_id device_id after := do
    let accounts ← get
    return ((MemoryRelay.entry accounts account_id).wraps.getD device_id []).filter (fun w => after < w.seq)
  attestation_append account_id attestation := do
    let accounts ← get
    let acct := MemoryRelay.entry accounts account_id
    let (seq,l) := push_attestation p acct.attestations attestation
    set (accounts.insert account_id { acct with attestations := l })
    return seq
  attestations_list account_id after := do
    let accounts ← get
    return (MemoryRelay.entry accounts account_id).attestations.filter (fun a => after < a.seq)
  recovery_put account_id blob := modify (fun accounts =>
    accounts.insert account_id { MemoryRelay.entry accounts account_id with recovery := some blob })
  recovery_get account_id := do
    let accounts ← get
    return (MemoryRelay.entry accounts account_id).recovery

/-! ### The lists of the server -/

namespace SyncStore
variable (store : SyncStore) (account_id : String)

def device_record_get (device_id : String) : Option (List UInt8) :=
  (store.device_records.find? (fun row => row.account_id = account_id && row.device_id = device_id)).map DeviceRecordRow.bytes

def device_records_list : List DeviceRecordRow :=
  (store.device_records.filter (fun row => row.account_id = account_id)).insertionSort (fun a b => a.device_id ≤ b.device_id)

def bundles_of (recipient_device_id : String) : List WrappedBundleRow :=
  store.wrapped_bundles.filter (fun row => row.account_id = account_id && row.recipient_device_id = recipient_device_id)

def attestations_of : List AttestationRow := store.attestations.filter (fun row => row.account_id = account_id)

def wrapped_bundles_list (recipient_device_id : String) (after limit : ℕ) : List WrappedBundleRow :=
  (((store.bundles_of account_id recipient_device_id).filter (fun row => min after i64Max < row.seq)).insertionSort
    (fun a b => a.seq ≤ b.seq)).take limit

def attestations_list (after limit : ℕ) : List AttestationRow :=
  (((store.attestations_of account_id).filter (fun row => min after i64Max < row.seq)).insertionSort
    (fun a b => a.seq ≤ b.seq)).take limit

def recovery_blob_get : Option (List UInt8) :=
  (store.recovery_blobs.find? (fun row => row.account_id = account_id)).map RecoveryBlobRow.bytes

end SyncStore

/-! ### The client over HTTP -/

namespace HttpRelay

/-- The page that the server gives when the client asks for no limit. -/
def DEFAULT_LIMIT : ℕ := 500

/-- The largest answer that the client takes. -/
def RESPONSE_LIMIT : ℕ := 1048576

def decimal_len (n : ℕ) : ℕ := (Nat.toDigits 10 n).length

/-- The length of bytes in base64 with padding. -/
def base64_len (bytes : List UInt8) : ℕ := 4 * ((bytes.length + 2) / 3)

/-- The length of a string between its quotes in JSON: the quote, the backslash and some
    control characters are escaped in two bytes, other control characters in six. -/
def json_len (s : String) : ℕ := (s.toList.map (fun c =>
  if c.toNat ∈ [34,92,8,9,10,12,13] then 2 else if c.toNat < 32 then 6 else c.utf8Size)).sum

/-- The length of a JSON array of entries of these lengths. -/
def array_len (entries : List ℕ) : ℕ := entries.sum + (entries.length - 1) + "[]".length

def record_len (row : DeviceRecordRow) : ℕ :=
  "\x7b\"device_id\":\"\",\"record_b64\":\"\"\x7d".length + json_len row.device_id + base64_len row.bytes

def bundles_len (rows : List WrappedBundleRow) (next_cursor : ℕ) : ℕ :=
  "\x7b\"bundles\":,\"next_cursor\":\x7d".length + array_len (rows.map (fun row =>
    "\x7b\"seq\":,\"bundle_b64\":\"\"\x7d".length + decimal_len row.seq + base64_len row.bytes)) + decimal_len next_cursor

def attestations_len (rows : List AttestationRow) (next_cursor : ℕ) : ℕ :=
  "\x7b\"attestations\":,\"next_cursor\":\x7d".length + array_len (rows.map (fun row =>
    "\x7b\"seq\":,\"attestation_b64\":\"\"\x7d".length + decimal_len row.seq + base64_len row.bytes)) +
    decimal_len next_cursor

/-- Take an answer of a length, if it is not too large. -/
def response_json {α : Type} (len : ℕ) (a : α) : EStateM SyncError SyncStore α :=
  if len ≤ RESPONSE_LIMIT then pure a else throw (.Protocol "relay response exceeds the allowed size")

end HttpRelay

/-- The hash under which the server files an artefact. -/
def Primitives.ct_hash (p : Primitives) (bytes : List UInt8) : String := hex (p.sha256 bytes).toList

open HttpRelay in
/-- `HttpRelay` before the routes of the server. -/
def httpRelay (p : Primitives) : RelayTransport SyncStore where
  device_put account_id device_id record := modify (fun store => store.device_record_put account_id device_id record)
  device_get account_id device_id := do
    let store ← get
    match store.device_record_get account_id device_id with
    | none => return none
    | some bytes => response_json (record_len ⟨account_id,device_id,bytes⟩) (some bytes)
  devices_list account_id := do
    let store ← get
    let rows := store.device_records_list account_id
    response_json ("\x7b\"devices\":\x7d".length + array_len (rows.map record_len))
      (rows.map (fun row => ⟨row.device_id,row.bytes⟩))
  wrap_put account_id device_id bundle := do
    let store ← get
    let (result,store) := store.wrapped_bundle_put p.ct_hash account_id device_id bundle
    set store
    return result.seq
  wraps_list account_id device_id after := do
    let store ← get
    let rows := store.wrapped_bundles_list account_id device_id after HttpRelay.DEFAULT_LIMIT
    let next_cursor := rows.foldl (fun cursor row => max cursor row.seq) after
    response_json (bundles_len rows next_cursor) (rows.map (fun row => ⟨row.seq,row.bytes⟩))
  attestation_append account_id attestation := do
    let store ← get
    let (result,store) := store.attestation_append p.ct_hash account_id attestation
    set store
    return result.seq
  attestations_list account_id after := do
    let store ← get
    let rows := store.attestations_list account_id after HttpRelay.DEFAULT_LIMIT
    let next_cursor := rows.foldl (fun cursor row => max cursor row.seq) after
    response_json (attestations_len rows next_cursor) (rows.map (fun row => ⟨row.seq,row.bytes⟩))
  recovery_put account_id blob := modify (fun store => store.recovery_blob_put account_id blob)
  recovery_get account_id := do
    let store ← get
    match store.recovery_blob_get account_id with
    | none => return none
    | some bytes => response_json ("\x7b\"blob_b64\":\"\"\x7d".length + base64_len bytes) (some bytes)

/-! ### The double is honest and its lists are complete -/

namespace MemoryRelay
variable {p : Primitives} {accounts : Accounts} {account : String}

/-- The wraps of each device and the attestations are numbered from 1 on. -/
def Kept (account : String) (accounts : Accounts) : Prop :=
  (∀ d, Numbered RelayWrap.seq ((MemoryRelay.entry accounts account).wraps.getD d [])) ∧
    Numbered RelayAttestation.seq (MemoryRelay.entry accounts account).attestations

def shelf (account : String) (accounts : Accounts) : Shelf :=
  ⟨fun d => (MemoryRelay.entry accounts account).devices[d]?,fun d => ((MemoryRelay.entry accounts account).wraps.getD d []).map RelayWrap.bundle,
    (MemoryRelay.entry accounts account).attestations.map RelayAttestation.attestation⟩

@[simp] theorem entry_insert (accounts : Accounts) (account : String) (acct : AccountRelay) :
    MemoryRelay.entry (accounts.insert account acct) account = acct := by simp [MemoryRelay.entry]

theorem next_seq {α : Type} {seq : α → ℕ} {l : List α} (numbered : Numbered seq l) :
    (l.getLast?.map (fun a => seq a + 1)).getD 1 = l.length + 1 := by
  cases last : l.getLast? with
  | none => simp [List.getLast?_eq_none_iff.mp last]
  | some a =>
    have nonempty : l ≠ [] := by rintro rfl; simp at last
    have there := List.getLast?_eq_some_getLast nonempty
    rw [last,Option.some.injEq,List.getLast_eq_getElem] at there
    have := List.length_pos_iff.mpr nonempty
    rw [Option.map_some,Option.getD_some,there,seq_getElem numbered (by omega)]
    omega

theorem push_wrap_numbered {l : List RelayWrap} (numbered : Numbered RelayWrap.seq l) (bundle : List UInt8) :
    Numbered RelayWrap.seq (push_wrap p l bundle).2 ∧
      (push_wrap p l bundle).2.map RelayWrap.bundle = deposit p.blake3_hex (l.map RelayWrap.bundle) bundle := by
  unfold push_wrap deposit
  cases found : l.find? (fun w => p.blake3_hex w.bundle = p.blake3_hex bundle) with
  | some w =>
    have same := List.find?_some found
    rw [if_pos ⟨w.bundle,List.mem_map_of_mem (List.mem_of_find?_eq_some found),by simpa using same⟩]
    exact ⟨numbered,rfl⟩
  | none =>
    have none := List.find?_eq_none.mp found
    rw [if_neg (by simpa using none)]
    exact ⟨numbered_concat numbered (next_seq numbered),by simp⟩

theorem push_attestation_numbered {l : List RelayAttestation} (numbered : Numbered RelayAttestation.seq l)
    (attestation : List UInt8) : Numbered RelayAttestation.seq (push_attestation p l attestation).2 ∧
      (push_attestation p l attestation).2.map RelayAttestation.attestation =
        deposit p.blake3_hex (l.map RelayAttestation.attestation) attestation := by
  unfold push_attestation deposit
  cases found : l.find? (fun a => p.blake3_hex a.attestation = p.blake3_hex attestation) with
  | some a =>
    have same := List.find?_some found
    rw [if_pos ⟨a.attestation,List.mem_map_of_mem (List.mem_of_find?_eq_some found),by simpa using same⟩]
    exact ⟨numbered,rfl⟩
  | none =>
    have none := List.find?_eq_none.mp found
    rw [if_neg (by simpa using none)]
    exact ⟨numbered_concat numbered (next_seq numbered),by simp⟩

theorem kept_empty (account : String) : Kept account ∅ := by
  constructor
  · intro d
    exact numbered_nil
  · exact numbered_nil

end MemoryRelay

open MemoryRelay in
theorem memoryRelay_honest (p : Primitives) (account : String) :
    Honest (memoryRelay p) p.blake3_hex account (shelf account) (Kept account) where
  device_put d record accounts kept := by
    refine ⟨(),_,rfl,?_,?_⟩
    · simpa [Kept] using kept
    · simp only [shelf,Shelf.put_record,entry_insert]
      congr 1
      funext d'
      rw [Std.ExtTreeMap.getElem?_insert,Function.update_apply]
      simp only [Std.compare_eq_iff_eq,eq_comm (a := d)]
  device_get d accounts _ := .inl ⟨_,rfl,rfl⟩
  devices_list accounts _ := by
    refine .inl ⟨_,rfl,fun d record => ?_⟩
    simp [shelf]
  wrap_put d bundle accounts kept := by
    obtain ⟨numbered,same⟩ := push_wrap_numbered (p := p) (kept.1 d) bundle
    refine ⟨_,_,rfl,⟨fun d' => ?_,?_⟩,?_⟩
    · rw [entry_insert,Std.ExtTreeMap.getD_insert]
      split
      · exact numbered
      · exact kept.1 d'
    · rw [entry_insert]
      exact kept.2
    · simp only [shelf,Shelf.put_wrap,entry_insert]
      congr 1
      funext d'
      rw [Std.ExtTreeMap.getD_insert,Function.update_apply]
      simp only [Std.compare_eq_iff_eq]
      by_cases mine : d = d'
      · rw [if_pos mine,if_pos mine.symm]
        exact same
      · rw [if_neg mine,if_neg (Ne.symm mine)]
  attestation_append a accounts kept := by
    obtain ⟨numbered,same⟩ := push_attestation_numbered (p := p) kept.2 a
    refine ⟨_,_,rfl,⟨?_,?_⟩,?_⟩
    · rw [entry_insert]
      exact kept.1
    · rw [entry_insert]
      exact numbered
    · simp only [shelf,Shelf.append_attestation,entry_insert]
      exact congrArg _ same
  recovery_put blob accounts kept := by
    refine ⟨(),_,rfl,?_,?_⟩
    · simpa [Kept] using kept
    · simp only [shelf,entry_insert]
  recovery_get accounts _ := .inl ⟨_,rfl,trivial⟩

open MemoryRelay in
theorem memoryRelay_complete (p : Primitives) (account : String) :
    ListsAll (memoryRelay p) account (shelf account) (Kept account) where
  wraps_list d accounts kept := by
    refine ⟨_,rfl,?_⟩
    rw [after_eq_drop (kept.1 d)]
    rfl
  attestations_list accounts kept := by
    refine ⟨_,rfl,?_⟩
    rw [after_eq_drop kept.2]
    rfl

/-! ### The client over HTTP is honest -/

namespace SyncStore
variable {store written : SyncStore} {account : String} {hash : List UInt8 → String}

/-- The artefacts of an account are numbered from 1 on and found by their hash, and a
    device has one record. -/
structure Filed (hash : List UInt8 → String) (account : String) (store : SyncStore) : Prop where
  attestations : Numbered AttestationRow.seq (store.attestations_of account)
  bundles : ∀ d, Numbered WrappedBundleRow.seq (store.bundles_of account d)
  attestation_hash : ∀ row ∈ store.attestations_of account, row.content_hash = hash row.bytes
  bundle_hash : ∀ d, ∀ row ∈ store.bundles_of account d, row.content_hash = hash row.bytes
  records : ((store.device_records.filter (fun row => row.account_id = account)).map DeviceRecordRow.device_id).Nodup

def shelf (account : String) (store : SyncStore) : Shelf :=
  ⟨store.device_record_get account,fun d => (store.bundles_of account d).map WrappedBundleRow.bytes,
    (store.attestations_of account).map AttestationRow.bytes⟩

/-- The tables of the relay are as they were. -/
def SameArtefacts (store written : SyncStore) : Prop :=
  written.attestations = store.attestations ∧ written.wrapped_bundles = store.wrapped_bundles ∧
    written.device_records = store.device_records

theorem SameArtefacts.filed (same : store.SameArtefacts written) (filed : store.Filed hash account) :
    written.Filed hash account := by
  obtain ⟨attestations,bundles,records⟩ := same
  have attested : written.attestations_of account = store.attestations_of account := by
    rw [attestations_of,attestations,attestations_of]
  have bundled (d : String) : written.bundles_of account d = store.bundles_of account d := by
    rw [bundles_of,bundles,bundles_of]
  constructor
  · exact attested ▸ filed.attestations
  · exact fun d => bundled d ▸ filed.bundles d
  · exact attested ▸ filed.attestation_hash
  · exact fun d => bundled d ▸ filed.bundle_hash d
  · exact records ▸ filed.records

theorem SameArtefacts.shelf_eq (same : store.SameArtefacts written) : written.shelf account = store.shelf account := by
  obtain ⟨attestations,bundles,records⟩ := same
  have got : written.device_record_get account = store.device_record_get account := by
    funext d
    rw [device_record_get,records,device_record_get]
  simp only [shelf,bundles_of,attestations_of,attestations,bundles,got]

theorem sameArtefacts_remember (store : SyncStore) (account : String) : store.SameArtefacts (store.remember account) := by
  unfold remember
  split <;> exact ⟨rfl,rfl,rfl⟩

theorem following_numbered {α : Type} {seq : α → ℕ} {l : List α} (numbered : Numbered seq l) :
    following (l.map seq) = l.length + 1 := by
  rw [following,List.foldl_map,foldl_max numbered]

/-- An artefact is there already, or its row goes to the end. -/
theorem attestation_append_cases (store : SyncStore) (hash : List UInt8 → String) (account : String) (bytes : List UInt8) :
    (∃ row ∈ store.attestations_of account, row.content_hash = hash bytes) ∧
      (store.attestation_append hash account bytes).2 = store ∨
    (∀ row ∈ store.attestations_of account, row.content_hash ≠ hash bytes) ∧
      (store.attestation_append hash account bytes).2 = ({ store with attestations := store.attestations ++
        [⟨account,following ((store.attestations_of account).map AttestationRow.seq),hash bytes,bytes⟩] } :
          SyncStore).remember account := by
  unfold attestation_append
  cases found : (store.attestations_of account).find? (fun row => row.content_hash = hash bytes) with
  | some row =>
    refine .inl ⟨⟨row,List.mem_of_find?_eq_some found,by simpa using List.find?_some found⟩,?_⟩
    unfold attestations_of at found
    simp only [found]
  | none =>
    refine .inr ⟨fun row inside => by simpa using List.find?_eq_none.mp found row inside,?_⟩
    unfold attestations_of at found ⊢
    simp only [found]

theorem wrapped_bundle_put_cases (store : SyncStore) (hash : List UInt8 → String) (account d : String) (bytes : List UInt8) :
    (∃ row ∈ store.bundles_of account d, row.content_hash = hash bytes) ∧
      (store.wrapped_bundle_put hash account d bytes).2 = store ∨
    (∀ row ∈ store.bundles_of account d, row.content_hash ≠ hash bytes) ∧
      (store.wrapped_bundle_put hash account d bytes).2 = ({ store with wrapped_bundles := store.wrapped_bundles ++
        [⟨account,d,following ((store.bundles_of account d).map WrappedBundleRow.seq),hash bytes,bytes⟩] } :
          SyncStore).remember account := by
  unfold wrapped_bundle_put
  cases found : (store.bundles_of account d).find? (fun row => row.content_hash = hash bytes) with
  | some row =>
    refine .inl ⟨⟨row,List.mem_of_find?_eq_some found,by simpa using List.find?_some found⟩,?_⟩
    unfold bundles_of at found
    simp only [found]
  | none =>
    refine .inr ⟨fun row inside => by simpa using List.find?_eq_none.mp found row inside,?_⟩
    unfold bundles_of at found ⊢
    simp only [found]

theorem filed_attestation_append (filed : store.Filed hash account) (account' : String) (bytes : List UInt8) :
    (store.attestation_append hash account' bytes).2.Filed hash account := by
  rcases attestation_append_cases store hash account' bytes with ⟨-,put⟩ | ⟨-,put⟩
  · rwa [put]
  · rw [put]
    refine (sameArtefacts_remember _ account').filed ⟨?_,filed.bundles,?_,filed.bundle_hash,filed.records⟩
    · by_cases mine : account' = account
      · subst mine
        simp only [attestations_of,List.filter_append,List.filter_cons,decide_true,if_true,List.filter_nil]
        exact numbered_concat filed.attestations (following_numbered filed.attestations)
      · simpa [attestations_of,mine] using filed.attestations
    · intro row inside
      simp only [attestations_of,List.mem_filter,List.mem_append,List.mem_singleton] at inside
      obtain ⟨old | rfl,here⟩ := inside
      · exact filed.attestation_hash row (List.mem_filter.mpr ⟨old,here⟩)
      · rfl

theorem filed_wrapped_bundle_put (filed : store.Filed hash account) (account' d : String) (bytes : List UInt8) :
    (store.wrapped_bundle_put hash account' d bytes).2.Filed hash account := by
  rcases wrapped_bundle_put_cases store hash account' d bytes with ⟨-,put⟩ | ⟨-,put⟩
  · rwa [put]
  · rw [put]
    refine (sameArtefacts_remember _ account').filed ⟨filed.attestations,fun d' => ?_,filed.attestation_hash,fun d' => ?_,
      filed.records⟩
    · by_cases mine : account' = account ∧ d = d'
      · obtain ⟨rfl,rfl⟩ := mine
        simp only [bundles_of,List.filter_append,List.filter_cons,decide_true,Bool.and_self,if_true,List.filter_nil]
        exact numbered_concat (filed.bundles d) (following_numbered (filed.bundles d))
      · have other : (decide (account' = account) && decide (d = d')) = false := by simpa using mine
        simpa [bundles_of,other] using filed.bundles d'
    · intro row inside
      simp only [bundles_of,List.mem_filter,List.mem_append,List.mem_singleton] at inside
      obtain ⟨old | rfl,here⟩ := inside
      · exact filed.bundle_hash d' row (List.mem_filter.mpr ⟨old,here⟩)
      · rfl

theorem filed_device_record_put (filed : store.Filed hash account) (account' d : String) (bytes : List UInt8) :
    (store.device_record_put account' d bytes).Filed hash account := by
  unfold device_record_put
  split
  · refine ⟨filed.attestations,filed.bundles,filed.attestation_hash,filed.bundle_hash,?_⟩
    have kept : (((store.device_records.map (fun row => if row.account_id = account' ∧ row.device_id = d then
        { row with bytes := bytes } else row)).filter (fun row => row.account_id = account)).map DeviceRecordRow.device_id) =
        (store.device_records.filter (fun row => row.account_id = account)).map DeviceRecordRow.device_id := by
      rw [List.filter_map,List.map_map]
      have ids : DeviceRecordRow.device_id ∘ (fun row : DeviceRecordRow => if row.account_id = account' ∧ row.device_id = d then
          { row with bytes := bytes } else row) = DeviceRecordRow.device_id := by
        funext row
        simp only [Function.comp]
        split <;> rfl
      have accounts : (fun row : DeviceRecordRow => decide (row.account_id = account)) ∘ (fun row : DeviceRecordRow =>
          if row.account_id = account' ∧ row.device_id = d then { row with bytes := bytes } else row) =
          fun row => decide (row.account_id = account) := by
        funext row
        simp only [Function.comp]
        split <;> rfl
      rw [ids,accounts]
    exact kept ▸ filed.records
  · next absent =>
    refine (sameArtefacts_remember _ account').filed ⟨filed.attestations,filed.bundles,filed.attestation_hash,
      filed.bundle_hash,?_⟩
    by_cases mine : account' = account
    · subst mine
      simp only [List.filter_append,List.filter_cons,decide_true,if_true,List.filter_nil,List.map_append,List.map_cons,
        List.map_nil]
      refine List.nodup_append.mpr ⟨filed.records,by simp,fun id inside id' last => ?_⟩
      obtain ⟨row,there,rfl⟩ := List.mem_map.mp inside
      rw [List.mem_singleton.mp last]
      intro same
      have there := List.mem_filter.mp there
      exact absent (List.any_eq_true.mpr ⟨row,there.1,by simpa [same] using there.2⟩)
    · simpa [mine] using filed.records

theorem device_record_get_put (account d : String) (bytes : List UInt8) (d' : String) :
    (store.device_record_put account d bytes).device_record_get account d' =
      if d' = d then some bytes else store.device_record_get account d' := by
  unfold device_record_put
  split
  · next present =>
    have here : (fun row : DeviceRecordRow => row.account_id = account && row.device_id = d') ∘ (fun row : DeviceRecordRow =>
        if row.account_id = account ∧ row.device_id = d then { row with bytes := bytes } else row) =
        fun row => row.account_id = account && row.device_id = d' := by
      funext row
      simp only [Function.comp]
      split <;> rfl
    rw [device_record_get,List.find?_map,here,Option.map_map,device_record_get]
    by_cases mine : d' = d
    · subst mine
      obtain ⟨row,found⟩ := Option.isSome_iff_exists.mp (List.find?_isSome.trans List.any_eq_true.symm |>.mpr present)
      have there := List.find?_some found
      simp only [Bool.and_eq_true,decide_eq_true_eq] at there
      rw [found,if_pos rfl]
      simp [there]
    · rw [if_neg mine]
      cases found : store.device_records.find? (fun row => row.account_id = account && row.device_id = d') with
      | none => rfl
      | some row =>
        have there := List.find?_some found
        simp only [Bool.and_eq_true,decide_eq_true_eq] at there
        simp [there,mine]
  · next absent =>
    have same := (sameArtefacts_remember { store with
      device_records := store.device_records ++ [⟨account,d,bytes⟩] } account).2.2
    rw [device_record_get,same,List.find?_append,device_record_get]
    by_cases mine : d' = d
    · subst mine
      rw [List.find?_eq_none.mpr (fun row inside => by
        have := List.any_eq_false.mp (Bool.eq_false_iff.mpr absent) row inside
        simpa using this)]
      simp
    · simp [mine,Ne.symm mine]

theorem sameArtefacts_push_events (account' : String) (events : List EventRecord) :
    store.SameArtefacts (leaves (push_events account' events store)) := by
  cases pushed : push_events account' events store with
  | error e written =>
    rw [leaves,transaction_error pushed]
    exact ⟨rfl,rfl,rfl⟩
  | ok outcome written =>
    have pushed := transaction_ok.mp pushed
    split at pushed
    · cases pushed
    · simp only at pushed
      split at pushed
      · cases pushed
        simp only [leaves]
        split
        · exact sameArtefacts_remember _ account'
        · exact ⟨rfl,rfl,rfl⟩
      · cases pushed

theorem sameArtefacts_blob_put (account' ct_hash : String) (bytes : List UInt8) :
    store.SameArtefacts (leaves (blob_put hash account' ct_hash bytes store)) := by
  rcases blob_put_cases hash account' ct_hash bytes with ⟨e,put⟩ | ⟨-,put⟩ | ⟨-,-,put⟩
  · rw [put]; exact ⟨rfl,rfl,rfl⟩
  · rw [put]; exact ⟨rfl,rfl,rfl⟩
  · rw [put]; exact sameArtefacts_remember _ account'

theorem sameArtefacts_recovery_blob_put (account' : String) (bytes : List UInt8) :
    store.SameArtefacts (store.recovery_blob_put account' bytes) := by
  unfold recovery_blob_put
  split
  · exact ⟨rfl,rfl,rfl⟩
  · exact sameArtefacts_remember _ account'

/-- Whatever the server is asked, what it files stays in order. -/
theorem filed_serve (filed : store.Filed hash account) (call : Call) : (store.serve hash call).Filed hash account := by
  cases call with
  | push_events account' events => exact (sameArtefacts_push_events account' events).filed filed
  | blob_put account' ct_hash bytes => exact (sameArtefacts_blob_put account' ct_hash bytes).filed filed
  | device_record_put account' d bytes => exact filed_device_record_put filed account' d bytes
  | wrapped_bundle_put account' d bytes => exact filed_wrapped_bundle_put filed account' d bytes
  | attestation_append account' bytes => exact filed_attestation_append filed account' bytes
  | recovery_blob_put account' bytes => exact (sameArtefacts_recovery_blob_put account' bytes).filed filed
  | pair_auth_instance instance_id =>
    obtain ⟨marker,paired⟩ := pair_auth_instance_leaves store instance_id
    rw [serve,paired]
    exact SameArtefacts.filed (⟨rfl,rfl,rfl⟩ : store.SameArtefacts _) filed
  | read account' => exact filed

/-- The content database as it is created. -/
def fresh (quota : QuotaConfig) : SyncStore := ⟨⟨[],[],quota⟩,[],[],[],[],none,[]⟩

theorem filed_fresh (hash : List UInt8 → String) (account : String) (quota : QuotaConfig) :
    (fresh quota).Filed hash account := by
  constructor
  · exact numbered_nil
  · exact fun d => numbered_nil
  · simp [fresh,attestations_of]
  · simp [fresh,bundles_of]
  · simp [fresh]

theorem filed_run (filed : store.Filed hash account) (calls : List Call) :
    (calls.foldl (serve hash) store).Filed hash account := by
  induction calls generalizing store with
  | nil => exact filed
  | cons call calls ih => exact ih (filed_serve filed call)

/-! ### The shelf of the server -/

theorem shelf_device_record_put (account d : String) (bytes : List UInt8) :
    (store.device_record_put account d bytes).shelf account = (store.shelf account).put_record d bytes := by
  have got : (store.device_record_put account d bytes).device_record_get account =
      Function.update (store.device_record_get account) d (some bytes) := by
    funext d'
    rw [device_record_get_put,Function.update_apply]
  have rest : (store.device_record_put account d bytes).wrapped_bundles = store.wrapped_bundles ∧
      (store.device_record_put account d bytes).attestations = store.attestations := by
    unfold device_record_put
    split
    · exact ⟨rfl,rfl⟩
    · exact ⟨(sameArtefacts_remember _ account).2.1,(sameArtefacts_remember _ account).1⟩
  simp only [shelf,Shelf.put_record,got,bundles_of,attestations_of,rest]

theorem shelf_wrapped_bundle_put (filed : store.Filed hash account) (d : String) (bytes : List UInt8) :
    (store.wrapped_bundle_put hash account d bytes).2.shelf account = (store.shelf account).put_wrap hash d bytes := by
  rcases wrapped_bundle_put_cases store hash account d bytes with ⟨⟨row,inside,same⟩,put⟩ | ⟨fresh,put⟩
  · have there : deposit hash ((store.bundles_of account d).map WrappedBundleRow.bytes) bytes =
        (store.bundles_of account d).map WrappedBundleRow.bytes :=
      if_pos ⟨row.bytes,List.mem_map_of_mem inside,by rw [← filed.bundle_hash d row inside,same]⟩
    rw [put]
    simp only [shelf,Shelf.put_wrap,there,Function.update_eq_self]
  · have new : deposit hash ((store.bundles_of account d).map WrappedBundleRow.bytes) bytes =
        (store.bundles_of account d).map WrappedBundleRow.bytes ++ [bytes] := by
      refine if_neg ?_
      rintro ⟨old,inside,same⟩
      obtain ⟨row,there,rfl⟩ := List.mem_map.mp inside
      exact fresh row there (by rw [filed.bundle_hash d row there,same])
    rw [put,(sameArtefacts_remember _ account).shelf_eq]
    simp only [shelf,Shelf.put_wrap,new]
    congr 1
    funext d'
    rw [Function.update_apply]
    by_cases mine : d' = d
    · subst mine
      simp [bundles_of]
    · simp [bundles_of,mine,Ne.symm mine]

theorem shelf_attestation_append (filed : store.Filed hash account) (bytes : List UInt8) :
    (store.attestation_append hash account bytes).2.shelf account = (store.shelf account).append_attestation hash bytes := by
  rcases attestation_append_cases store hash account bytes with ⟨⟨row,inside,same⟩,put⟩ | ⟨fresh,put⟩
  · have there : deposit hash ((store.attestations_of account).map AttestationRow.bytes) bytes =
        (store.attestations_of account).map AttestationRow.bytes :=
      if_pos ⟨row.bytes,List.mem_map_of_mem inside,by rw [← filed.attestation_hash row inside,same]⟩
    rw [put]
    simp only [shelf,Shelf.append_attestation,there]
  · have new : deposit hash ((store.attestations_of account).map AttestationRow.bytes) bytes =
        (store.attestations_of account).map AttestationRow.bytes ++ [bytes] := by
      refine if_neg ?_
      rintro ⟨old,inside,same⟩
      obtain ⟨row,there,rfl⟩ := List.mem_map.mp inside
      exact fresh row there (by rw [filed.attestation_hash row there,same])
    rw [put,(sameArtefacts_remember _ account).shelf_eq]
    simp only [shelf,Shelf.append_attestation,new]
    congr 1
    simp [attestations_of]

/-- The first page of the attestations, in the order in which they were appended. -/
theorem attestations_list_eq (filed : store.Filed hash account) (limit : ℕ) :
    store.attestations_list account 0 limit = (store.attestations_of account).take limit := by
  have sorted := (seq_sorted filed.attestations).imp Nat.le_of_lt
  unfold attestations_list
  rw [Nat.zero_min,after_eq_drop filed.attestations,List.drop_zero,sorted.insertionSort_eq]

theorem wrapped_bundles_list_eq (filed : store.Filed hash account) (d : String) (limit : ℕ) :
    store.wrapped_bundles_list account d 0 limit = (store.bundles_of account d).take limit := by
  have sorted := (seq_sorted (filed.bundles d)).imp Nat.le_of_lt
  unfold wrapped_bundles_list
  rw [Nat.zero_min,after_eq_drop (filed.bundles d),List.drop_zero,sorted.insertionSort_eq]

theorem mem_device_records_list (filed : store.Filed hash account) (d : String) (record : List UInt8) :
    (∃ row ∈ store.device_records_list account, row.device_id = d ∧ row.bytes = record) ↔
      store.device_record_get account d = some record := by
  simp only [device_records_list,List.mem_insertionSort,device_record_get,Option.map_eq_some_iff]
  constructor
  · rintro ⟨row,inside,rfl,rfl⟩
    obtain ⟨there,here⟩ := List.mem_filter.mp inside
    have some : (store.device_records.find? (fun r => r.account_id = account && r.device_id = row.device_id)).isSome :=
      List.find?_isSome.mpr ⟨row,there,by simpa using here⟩
    obtain ⟨first,found⟩ := Option.isSome_iff_exists.mp some
    have same := List.find?_some found
    simp only [Bool.and_eq_true,decide_eq_true_eq] at same
    have unique := List.inj_on_of_nodup_map filed.records (List.mem_filter.mpr ⟨List.mem_of_find?_eq_some found,by simpa using same.1⟩)
      inside same.2
    exact ⟨first,found,by rw [unique]⟩
  · rintro ⟨row,found,rfl⟩
    have same := List.find?_some found
    simp only [Bool.and_eq_true,decide_eq_true_eq] at same
    exact ⟨row,List.mem_filter.mpr ⟨List.mem_of_find?_eq_some found,by simpa using same.1⟩,same.2,rfl⟩

theorem shelf_appends (filed : store.Filed hash account) (attestations : List (List UInt8)) :
    ((attestations.map (.attestation_append account)).foldl (serve hash) store).shelf account =
      { store.shelf account with attestations := attestations.foldl (deposit hash) (store.shelf account).attestations } := by
  induction attestations generalizing store with
  | nil => rfl
  | cons a attestations ih =>
    rw [List.map_cons,List.foldl_cons,serve,ih (filed_attestation_append filed account a),shelf_attestation_append filed]
    rfl

/-- Attestations with hashes of their own are all stored. -/
theorem attestations_of_appends {attestations : List (List UInt8)} (distinct : (attestations.map hash).Nodup)
    (account : String) (quota : QuotaConfig) :
    (((attestations.map (.attestation_append account)).foldl (serve hash) (fresh quota)).attestations_of account).map
      AttestationRow.bytes = attestations := by
  have whole := congrArg Shelf.attestations (shelf_appends (filed_fresh hash account quota) attestations)
  exact whole.trans (foldl_deposit distinct)

end SyncStore

theorem HttpRelay.response_json_answers {α : Type} (len : ℕ) (a : α) (store : SyncStore) :
    Answers (response_json len a) store (· = a) := by
  unfold response_json
  split
  · exact .inl ⟨a,rfl,rfl⟩
  · exact .inr ⟨_,rfl⟩

namespace HttpRelay

theorem decimal_len_le {n : ℕ} (small : n < 1000) : decimal_len n ≤ 3 :=
  (Nat.length_toDigits_le_iff (by decide) (by decide)).mpr small

theorem array_len_le (entries : List ℕ) (bound : ℕ) (small : ∀ len ∈ entries, len ≤ bound) :
    array_len entries ≤ entries.length * (bound + 1) + 2 := by
  have total : entries.sum ≤ entries.length * bound := by
    induction entries with
    | nil => simp
    | cons len entries ih =>
      have first := small len (.head _)
      have rest := ih (fun len inside => small len (.tail _ inside))
      rw [List.sum_cons,List.length_cons,Nat.add_mul]
      omega
  have brackets : "[]".length = 2 := by decide
  rw [array_len,brackets,Nat.mul_add]
  omega

/-- A page of short entries is not too large. -/
theorem page_fits {α : Type} {seq : α → ℕ} {bytes : α → List UInt8} {rows : List α} {limit around inside : ℕ} (few : limit ≤ 500)
    (numbered : Numbered seq rows) (short : ∀ row ∈ rows, (bytes row).length ≤ 1000) (small : around ≤ 40) (small' : inside ≤ 40) :
    around + array_len ((rows.take limit).map (fun row => inside + decimal_len (seq row) + base64_len (bytes row))) +
      decimal_len (rows.take limit).length ≤ RESPONSE_LIMIT := by
  have count : (rows.take limit).length ≤ 500 := (List.length_take_le ..).trans few
  have entry (row) (there : row ∈ rows.take limit) : inside + decimal_len (seq row) + base64_len (bytes row) ≤ 1500 := by
    obtain ⟨i,bound,rfl⟩ := List.getElem_of_mem there
    rw [List.length_take] at bound
    have size := short rows[i] (List.getElem_mem _)
    have number := seq_getElem numbered (i := i) (by omega)
    have digits := decimal_len_le (n := seq rows[i]) (by omega)
    rw [List.getElem_take]
    unfold base64_len
    omega
  have cursor := decimal_len_le (n := (rows.take limit).length) (by omega)
  have array := array_len_le ((rows.take limit).map (fun row => inside + decimal_len (seq row) + base64_len (bytes row))) 1500 (by
    intro len listed
    obtain ⟨row,there,rfl⟩ := List.mem_map.mp listed
    exact entry row there)
  rw [List.length_map] at array
  unfold RESPONSE_LIMIT
  omega

theorem attestations_fit {rows : List AttestationRow} (numbered : Numbered AttestationRow.seq rows)
    (short : ∀ row ∈ rows, row.bytes.length ≤ 1000) :
    attestations_len (rows.take HttpRelay.DEFAULT_LIMIT) (rows.take HttpRelay.DEFAULT_LIMIT).length ≤ RESPONSE_LIMIT :=
  page_fits (le_refl 500) numbered short (by decide) (by decide)

theorem bundles_fit {rows : List WrappedBundleRow} (numbered : Numbered WrappedBundleRow.seq rows)
    (short : ∀ row ∈ rows, row.bytes.length ≤ 1000) :
    bundles_len (rows.take HttpRelay.DEFAULT_LIMIT) (rows.take HttpRelay.DEFAULT_LIMIT).length ≤ RESPONSE_LIMIT :=
  page_fits (le_refl 500) numbered short (by decide) (by decide)

end HttpRelay

open SyncStore HttpRelay in
theorem httpRelay_honest (p : Primitives) (account : String) :
    Honest (httpRelay p) p.ct_hash account (SyncStore.shelf account) (Filed p.ct_hash account) where
  device_put d record store filed :=
    ⟨(),_,rfl,filed_device_record_put filed account d record,shelf_device_record_put account d record⟩
  device_get d store _ := by
    simp only [httpRelay,Answers,get_bind]
    cases got : store.device_record_get account d with
    | none => exact .inl ⟨none,rfl,got.symm⟩
    | some bytes =>
      rcases response_json_answers (record_len ⟨account,d,bytes⟩) (some bytes) store with ⟨a,answered,rfl⟩ | failed
      · exact .inl ⟨_,answered,got.symm⟩
      · exact .inr failed
  devices_list store filed := by
    simp only [httpRelay,Answers,get_bind]
    rcases response_json_answers ("\x7b\"devices\":\x7d".length + array_len ((store.device_records_list account).map record_len))
      ((store.device_records_list account).map (fun row => (⟨row.device_id,row.bytes⟩ : RelayDevice))) store with
      ⟨a,answered,rfl⟩ | failed
    · refine .inl ⟨_,answered,fun d record => ?_⟩
      simp only [List.mem_map,RelayDevice.mk.injEq]
      exact mem_device_records_list filed d record
    · exact .inr failed
  wrap_put d bundle store filed :=
    ⟨_,_,rfl,filed_wrapped_bundle_put filed account d bundle,shelf_wrapped_bundle_put filed d bundle⟩
  attestation_append a store filed :=
    ⟨_,_,rfl,filed_attestation_append filed account a,shelf_attestation_append filed a⟩
  recovery_put blob store filed :=
    ⟨(),_,rfl,(sameArtefacts_recovery_blob_put account blob).filed filed,(sameArtefacts_recovery_blob_put account blob).shelf_eq⟩
  recovery_get store _ := by
    simp only [httpRelay,Answers,get_bind]
    cases got : store.recovery_blob_get account with
    | none => exact .inl ⟨none,rfl,trivial⟩
    | some bytes =>
      rcases response_json_answers ("\x7b\"blob_b64\":\"\"\x7d".length + base64_len bytes) (some bytes) store with
        ⟨a,answered,-⟩ | failed
      · exact .inl ⟨_,answered,trivial⟩
      · exact .inr failed

open SyncStore HttpRelay in
/-- The client gets the first page of the attestations, unless it is too large. -/
theorem http_attestations_list {p : Primitives} {account : String} {store : SyncStore} (filed : store.Filed p.ct_hash account) :
    (httpRelay p).attestations_list account 0 store =
      response_json (attestations_len ((store.attestations_of account).take HttpRelay.DEFAULT_LIMIT)
        ((store.attestations_of account).take HttpRelay.DEFAULT_LIMIT).length)
        (((store.attestations_of account).take HttpRelay.DEFAULT_LIMIT).map (fun row => ⟨row.seq,row.bytes⟩)) store := by
  have cursor := foldl_max_page filed.attestations 0 HttpRelay.DEFAULT_LIMIT
  simp only [page,List.drop_zero,Nat.zero_add] at cursor
  simp only [httpRelay,get_bind]
  rw [attestations_list_eq filed,cursor]

open SyncStore HttpRelay in
/-- The client gets the first page of the bundles of a device, unless it is too large. -/
theorem http_wraps_list {p : Primitives} {account d : String} {store : SyncStore} (filed : store.Filed p.ct_hash account) :
    (httpRelay p).wraps_list account d 0 store =
      response_json (bundles_len ((store.bundles_of account d).take HttpRelay.DEFAULT_LIMIT)
        ((store.bundles_of account d).take HttpRelay.DEFAULT_LIMIT).length)
        (((store.bundles_of account d).take HttpRelay.DEFAULT_LIMIT).map (fun row => ⟨row.seq,row.bytes⟩)) store := by
  have cursor := foldl_max_page (filed.bundles d) 0 HttpRelay.DEFAULT_LIMIT
  simp only [page,List.drop_zero,Nat.zero_add] at cursor
  simp only [httpRelay,get_bind]
  rw [wrapped_bundles_list_eq filed,cursor]

end Pergamon
