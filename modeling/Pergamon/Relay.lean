import Pergamon.EventLog

/-!
The content database of the sync server with all that it stores: the event log and
the blobs under a quota, the artefacts of onboarding that the server only relays, the
marker of the auth database that it is paired with, and every namespace that ever had
a row.

A batch of events and a blob are checked against the caps of the account before they
are stored. Over every run of the store's operations the references of each event name
blobs that are there, and an account stays within its caps (`store_integrity`).

Creation times and the pool of connections are left out; a call that reads leaves
everything as it is.
-/
namespace Pergamon
open Fallible

structure DeviceRecordRow where
  account_id : String
  device_id : String
  bytes : List UInt8
  deriving DecidableEq

structure WrappedBundleRow where
  account_id : String
  recipient_device_id : String
  seq : ℕ
  content_hash : String
  bytes : List UInt8
  deriving DecidableEq

structure AttestationRow where
  account_id : String
  seq : ℕ
  content_hash : String
  bytes : List UInt8
  deriving DecidableEq

structure RecoveryBlobRow where
  account_id : String
  bytes : List UInt8
  deriving DecidableEq

structure AppendResult where
  seq : ℕ
  deduplicated : Bool
  deriving DecidableEq

structure SyncStore extends Store where
  device_records : List DeviceRecordRow
  wrapped_bundles : List WrappedBundleRow
  attestations : List AttestationRow
  recovery_blobs : List RecoveryBlobRow
  auth_instance : Option String
  namespace_history : List String
  deriving DecidableEq

/-- What an account stores, in bytes and in rows. -/
structure UsageRecord where
  blob_bytes : ℕ
  blob_count : ℕ
  event_bytes : ℕ
  event_count : ℕ
  deriving DecidableEq

def UsageRecord.total_bytes (usage : UsageRecord) : ℕ := saturating_add usage.blob_bytes usage.event_bytes
def UsageRecord.total_objects (usage : UsageRecord) : ℕ := saturating_add usage.blob_count usage.event_count

namespace Store

def account_blobs (store : Store) (account_id : String) : List BlobRow :=
  store.blobs.filter (fun blob => blob.account_id = account_id)

/-- The sums and counts that `account_usage` takes of the two tables. -/
def usage (store : Store) (account_id : String) : UsageRecord :=
  ⟨((store.account_blobs account_id).map BlobRow.byte_len).sum,(store.account_blobs account_id).length,
    ((store.log account_id).map StoredEventRecord.payload_bytes).sum,(store.log account_id).length⟩

/-- The loop of `push_events`, with what it has written where it stops. -/
def push_all (account_id : String) : List EventRecord → Batch → Except StoreError Unit × Batch
  | [],acc => (.ok (),acc)
  | ev :: rest,acc =>
    match push_one account_id acc ev with
    | .ok acc' => push_all account_id rest acc'
    | .error e => (.error e,acc)

/-- Whether a blob may be stored: one that is there already adds nothing. -/
def admit_blob (store : Store) (account_id ct_hash : String) (bytes : List UInt8) : Except StoreError Unit :=
  if store.quota.is_unlimited || store.blob_present account_id ct_hash then .ok ()
  else do
    let (total_bytes,total_objects) ← store.account_usage account_id
    store.quota.check (saturating_add total_bytes bytes.length) (saturating_add total_objects 1)

end Store

namespace SyncStore

/-- The trigger of every content table: a row that is inserted puts its account into the
    history of namespaces. -/
def remember (store : SyncStore) (account_id : String) : SyncStore :=
  if account_id ∈ store.namespace_history then store
  else { store with namespace_history := store.namespace_history ++ [account_id] }

def push_events (account_id : String) (events : List EventRecord) : EStateM StoreError SyncStore PushOutcome :=
  transaction fun tx =>
    match tx.toStore.initial_usage account_id with
    | .error e => .error e tx
    | .ok (bytes,objects) =>
      let (done,batch) := Store.push_all account_id events ⟨tx.toStore,tx.high_water account_id,bytes,objects,[]⟩
      let written := { tx with toStore := batch.store }
      let written :=
        if batch.results.any (fun result => !result.deduplicated) then written.remember account_id else written
      match done with
      | .ok () => .ok ⟨batch.results,batch.next_seq⟩ written
      | .error e => .error e written

/-- `INSERT OR IGNORE INTO blobs`. -/
def insert_blob (store : SyncStore) (row : BlobRow) : SyncStore :=
  if store.blob_present row.account_id row.ct_hash then store
  else ({ store with blobs := store.blobs ++ [row] } : SyncStore).remember row.account_id

def blob_put (ct_hash : List UInt8 → String) (account_id hash : String) (bytes : List UInt8) :
    EStateM StoreError SyncStore Unit := do
  let actual := ct_hash bytes
  if actual ≠ hash then throw (.BlobHashMismatch hash actual)
  let store ← get
  match store.admit_blob account_id hash bytes with
  | .error e => throw e
  | .ok () => set (store.insert_blob ⟨account_id,hash,bytes,min bytes.length i64Max⟩)

/-- Publish the record of a device, or replace it. -/
def device_record_put (store : SyncStore) (account_id device_id : String) (bytes : List UInt8) : SyncStore :=
  if store.device_records.any (fun row => row.account_id = account_id && row.device_id = device_id) then
    { store with device_records := store.device_records.map (fun row =>
        if row.account_id = account_id ∧ row.device_id = device_id then { row with bytes := bytes } else row) }
  else ({ store with
    device_records := store.device_records ++ [⟨account_id,device_id,bytes⟩] } : SyncStore).remember account_id

/-- The sequence number of the next row after the greatest one. -/
def following (seqs : List ℕ) : ℕ := seqs.foldl max 0 + 1

def wrapped_bundle_put (store : SyncStore) (ct_hash : List UInt8 → String) (account_id recipient_device_id : String)
    (bytes : List UInt8) : AppendResult × SyncStore :=
  let hash := ct_hash bytes
  let rows := store.wrapped_bundles.filter
    (fun row => row.account_id = account_id && row.recipient_device_id = recipient_device_id)
  match rows.find? (fun row => row.content_hash = hash) with
  | some row => (⟨row.seq,true⟩,store)
  | none =>
    let seq := following (rows.map WrappedBundleRow.seq)
    (⟨seq,false⟩,({ store with wrapped_bundles :=
        store.wrapped_bundles ++ [⟨account_id,recipient_device_id,seq,hash,bytes⟩] } : SyncStore).remember account_id)

def attestation_append (store : SyncStore) (ct_hash : List UInt8 → String) (account_id : String) (bytes : List UInt8) :
    AppendResult × SyncStore :=
  let hash := ct_hash bytes
  let rows := store.attestations.filter (fun row => row.account_id = account_id)
  match rows.find? (fun row => row.content_hash = hash) with
  | some row => (⟨row.seq,true⟩,store)
  | none =>
    let seq := following (rows.map AttestationRow.seq)
    (⟨seq,false⟩,({ store with
      attestations := store.attestations ++ [⟨account_id,seq,hash,bytes⟩] } : SyncStore).remember account_id)

def recovery_blob_put (store : SyncStore) (account_id : String) (bytes : List UInt8) : SyncStore :=
  if store.recovery_blobs.any (fun row => row.account_id = account_id) then
    { store with recovery_blobs := store.recovery_blobs.map (fun row =>
        if row.account_id = account_id then { row with bytes := bytes } else row) }
  else ({ store with
    recovery_blobs := store.recovery_blobs ++ [⟨account_id,bytes⟩] } : SyncStore).remember account_id

/-- Bind the database to an auth installation, once. -/
def pair_auth_instance (instance_id : String) : EStateM StoreError SyncStore Unit :=
  transaction do
    let store ← get
    let actual := store.auth_instance.getD instance_id
    set { store with auth_instance := some actual }
    if actual ≠ instance_id then throw .AccountPairMismatch

/-- Whether a namespace ever had a row, as the barrier over the writer asks. -/
def occupied (store : SyncStore) (account_id : String) : Bool := store.namespace_history.contains account_id

end SyncStore

/-! ### What a batch stores -/

namespace Store

section
variable {account_id : String} {acc acc' : Batch} {ev : EventRecord} {store store' : Store} {row : StoredEventRecord}

/-- Every blob that an event refers to is stored for the account of the event. -/
def Referenced (store : Store) : Prop :=
  ∀ ev ∈ store.events, ∀ hash ∈ ev.blob_refs, store.blob_present ev.account_id hash

/-- The account is within the caps. -/
def Within (store : Store) (account_id : String) : Prop :=
  store.quota.check (store.usage account_id).total_bytes (store.usage account_id).total_objects = .ok ()

theorem check_ok {quota : QuotaConfig} {bytes objects : ℕ} : quota.check bytes objects = .ok () ↔
    (quota.max_account_bytes ≠ 0 → bytes ≤ quota.max_account_bytes) ∧
      (quota.max_account_objects ≠ 0 → objects ≤ quota.max_account_objects) := by
  unfold QuotaConfig.check
  split
  · simp; omega
  · split
    · simp; omega
    · simp; omega

instance (store : Store) (account_id : String) : Decidable (store.Within account_id) :=
  decidable_of_iff' _ check_ok

theorem within_unlimited (unlimited : store.quota.is_unlimited = true) (account : String) : store.Within account := by
  simp only [QuotaConfig.is_unlimited,Bool.and_eq_true,beq_iff_eq] at unlimited
  exact check_ok.mpr ⟨fun capped => absurd unlimited.1 capped,fun capped => absurd unlimited.2 capped⟩

theorem saturating_add_assoc (a b c : ℕ) :
    saturating_add (saturating_add a b) c = saturating_add a (b + c) := by
  unfold saturating_add
  omega

theorem usage_append (account : String) : ({ store with events := store.events ++ [row] } : Store).usage account =
    if row.account_id = account then
      { store.usage account with
        event_bytes := (store.usage account).event_bytes + row.payload_bytes
        event_count := (store.usage account).event_count + 1 }
    else store.usage account := by
  unfold usage
  rw [log_append]
  split
  · simp [account_blobs]
  · rfl

theorem account_usage_ok {bytes objects : ℕ} (ok : store.account_usage account_id = .ok (bytes,objects)) :
    bytes = (store.usage account_id).total_bytes ∧ objects = (store.usage account_id).total_objects := by
  simp only [account_usage,sumColumn,bind_ok,if_ok] at ok
  obtain ⟨blob_bytes,⟨-,first⟩,event_bytes,⟨-,second⟩,same⟩ := ok
  cases first
  cases second
  cases same
  exact ⟨rfl,rfl⟩

/-- The counters of a batch agree with what the account stores, where they are kept. -/
def Metered (account_id : String) (acc : Batch) : Prop :=
  acc.store.quota.is_unlimited = true ∨ acc.projected_bytes = (acc.store.usage account_id).total_bytes ∧
    acc.projected_objects = (acc.store.usage account_id).total_objects

/-- What the loop has stored of the events that it is through with: those whose result
    says that they were not there before. -/
def appended (events : List EventRecord) (results : List PushResultRecord) : List EventRecord :=
  ((events.zip results).filter (fun answered => !answered.2.deduplicated)).map Prod.fst

/-- A batch as far as it has been pushed. -/
structure Stored (account_id : String) (store : Store) (events rest : List EventRecord) (acc : Batch) : Prop where
  quota : acc.store.quota = store.quota
  blobs : acc.store.blobs = store.blobs
  metered : Metered account_id acc
  referenced : store.Referenced → acc.store.Referenced
  within : ∀ account, store.Within account → acc.store.Within account
  others : ∀ account, account ≠ account_id → acc.store.usage account = store.usage account
  counted : ∃ seen, seen ++ rest = events ∧ seen.length = acc.results.length ∧
    acc.store.usage account_id = { store.usage account_id with
      event_bytes := (store.usage account_id).event_bytes +
        ((appended seen acc.results).map (fun ev => ev.ciphertext.length)).sum
      event_count := (store.usage account_id).event_count + (appended seen acc.results).length }

theorem appended_concat {events : List EventRecord} {results : List PushResultRecord} {result : PushResultRecord}
    (same : events.length = results.length) : appended (events ++ [ev]) (results ++ [result]) =
      appended events results ++ if result.deduplicated then [] else [ev] := by
  unfold appended
  rw [List.zip_append same]
  cases again : result.deduplicated <;> simp [again]

/-- An event that is appended keeps the account within its caps: the counters say what
    the account will store. -/
theorem within_append (metered : Metered account_id acc) (here : row.account_id = account_id)
    (grown : acc'.store = { acc.store with events := acc.store.events ++ [row] })
    (ok : meter acc row.payload_bytes = .ok (acc'.projected_bytes,acc'.projected_objects)) :
    acc'.store.Within account_id ∧ Metered account_id acc' := by
  by_cases unlimited : acc.store.quota.is_unlimited = true
  · have kept : acc'.store.quota.is_unlimited = true := by rw [grown]; exact unlimited
    exact ⟨within_unlimited kept _,.inl kept⟩
  · obtain ⟨bytes,objects⟩ := metered.resolve_left unlimited
    simp only [meter,if_neg unlimited,bind_ok,Except.ok.injEq,Prod.mk.injEq] at ok
    obtain ⟨u,checked,newBytes,newObjects⟩ := ok
    have usage := congrArg (fun store => Store.usage store account_id) grown
    simp only [usage_append,if_pos here] at usage
    have total : acc'.projected_bytes = (acc'.store.usage account_id).total_bytes ∧
        acc'.projected_objects = (acc'.store.usage account_id).total_objects := by
      rw [usage,← newBytes,← newObjects,bytes,objects]
      exact ⟨saturating_add_assoc _ _ _,saturating_add_assoc _ _ _⟩
    refine ⟨?_,.inr total⟩
    unfold Within
    rw [← total.1,← total.2,← newBytes,← newObjects,grown]
    exact checked

theorem stored_step {events rest : List EventRecord} (stored : Stored account_id store events (ev :: rest) acc)
    (ok : push_one account_id acc ev = .ok acc') : Stored account_id store events rest acc' := by
  obtain ⟨seen,split,length,counted⟩ := stored.counted
  rcases push_one_ok ok with ⟨row,-,-,rfl⟩ | ⟨row,here,rfl,-,size,-,present,metered,grown,-,results⟩
  · refine ⟨stored.quota,stored.blobs,stored.metered,stored.referenced,stored.within,stored.others,seen ++ [ev],
      by rw [← split,List.append_assoc]; rfl,by simp [length],?_⟩
    rw [appended_concat length]
    simpa using counted
  · obtain ⟨within,agree⟩ := within_append stored.metered here grown metered
    refine ⟨by rw [grown]; exact stored.quota,by rw [grown]; exact stored.blobs,agree,fun start => ?_,fun account start => ?_,
      fun account other => ?_,seen ++ [row.toEventRecord],by rw [← split,List.append_assoc]; rfl,by simp [results,length],?_⟩
    · rw [grown]
      intro old inside
      rcases List.mem_append.mp inside with before | last
      · exact stored.referenced start old before
      · rw [List.mem_singleton.mp last,here]
        exact present
    · by_cases same : account = account_id
      · exact same ▸ within
      · have before := stored.within account start
        unfold Within at before ⊢
        rw [grown,usage_append,if_neg (fun same' => same (same'.symm.trans here))]
        exact before
    · rw [grown,usage_append,if_neg (fun same' => other (same'.symm.trans here))]
      exact stored.others account other
    · rw [grown,usage_append,if_pos here,counted,results,appended_concat length,size]
      simp [Nat.add_assoc]


theorem push_all_ok {events : List EventRecord} :
    push_all account_id events acc = (.ok (),acc') ↔ events.foldlM (push_one account_id) acc = .ok acc' := by
  induction events generalizing acc with
  | nil =>
    rw [foldlM_nil_ok]
    simp [push_all]
  | cons ev rest ih =>
    rw [foldlM_cons_ok,push_all]
    cases push_one account_id acc ev with
    | ok mid => simp [ih]
    | error e => simp

end
end Store

/-! ### Calls -/

namespace SyncStore
variable {store written : SyncStore} {account_id : String} {events : List EventRecord} {outcome : PushOutcome}
  {e : StoreError}

@[simp] theorem remember_toStore (account : String) : (store.remember account).toStore = store.toStore := by
  unfold remember
  split <;> rfl

/-- A batch that is accepted stores in the log and the blobs what the loop over it does. -/
theorem push_events_ok (ok : push_events account_id events store = .ok outcome written) :
    store.toStore.push_events account_id events = .ok (outcome,written.toStore) := by
  have ok := transaction_ok.mp ok
  cases initial : store.initial_usage account_id with
  | error e => simp [initial] at ok
  | ok usage =>
    obtain ⟨bytes,objects⟩ := usage
    simp only [initial] at ok
    cases done : Store.push_all account_id events ⟨store.toStore,store.high_water account_id,bytes,objects,[]⟩ with
    | mk result batch =>
      cases result with
      | error e => simp [done] at ok
      | ok all =>
        simp only [done,EStateM.Result.ok.injEq] at ok
        obtain ⟨rfl,rfl⟩ := ok
        simp only [Store.push_events,bind_ok,Prod.exists]
        refine ⟨bytes,objects,initial,batch,Store.push_all_ok.mp done,?_⟩
        split <;> simp

/-- What an accepted batch has stored. -/
theorem push_events_stored (ok : push_events account_id events store = .ok outcome written) :
    ∃ acc, acc.store = written.toStore ∧ acc.results = outcome.results ∧
      Store.Stored account_id store.toStore events [] acc := by
  have run := push_events_ok ok
  simp only [Store.push_events,bind_ok,Prod.exists,Except.ok.injEq,Prod.mk.injEq] at run
  obtain ⟨bytes,objects,initial,acc,run,rfl,same⟩ := run
  refine ⟨acc,same,rfl,foldlM_rest (Store.Stored account_id store.toStore events)
    (fun _ _ _ _ => Store.stored_step) ⟨rfl,rfl,?_,id,fun _ => id,fun _ _ => rfl,[],rfl,rfl,?_⟩ run⟩
  · unfold Store.initial_usage at initial
    split at initial
    · next unlimited => exact .inl unlimited
    · exact .inr (Store.account_usage_ok initial)
  · simp [Store.appended]

/-- A blob is stored once it is admitted; one that was there is left as it is. -/
theorem blob_put_cases (ct_hash : List UInt8 → String) (account_id hash : String) (bytes : List UInt8) :
    (∃ e, blob_put ct_hash account_id hash bytes store = .error e store) ∨
    store.blob_present account_id hash ∧ blob_put ct_hash account_id hash bytes store = .ok () store ∨
    store.blob_present account_id hash = false ∧ store.admit_blob account_id hash bytes = .ok () ∧
      blob_put ct_hash account_id hash bytes store =
        .ok () (({ store with blobs := store.blobs ++ [⟨account_id,hash,bytes,min bytes.length i64Max⟩] } :
          SyncStore).remember account_id) := by
  by_cases mismatch : ct_hash bytes ≠ hash
  · exact .inl ⟨.BlobHashMismatch hash (ct_hash bytes),by unfold blob_put; rw [if_pos mismatch]; rfl⟩
  · have put : blob_put ct_hash account_id hash bytes store = match store.admit_blob account_id hash bytes with
        | .error e => .error e store
        | .ok () => .ok () (store.insert_blob ⟨account_id,hash,bytes,min bytes.length i64Max⟩) := by
      unfold blob_put
      rw [if_neg mismatch]
      simp only [get_bind]
      cases store.admit_blob account_id hash bytes <;> rfl
    rw [put]
    cases admitted : store.admit_blob account_id hash bytes with
    | error e => exact .inl ⟨e,rfl⟩
    | ok u =>
      cases present : store.blob_present account_id hash with
      | true => exact .inr (.inl ⟨rfl,by simp [insert_blob,present]⟩)
      | false => exact .inr (.inr ⟨rfl,rfl,by simp [insert_blob,present]⟩)

/-- A call of the store. -/
inductive Call where
  | push_events (account_id : String) (events : List EventRecord)
  | blob_put (account_id ct_hash : String) (bytes : List UInt8)
  | device_record_put (account_id device_id : String) (bytes : List UInt8)
  | wrapped_bundle_put (account_id recipient_device_id : String) (bytes : List UInt8)
  | attestation_append (account_id : String) (bytes : List UInt8)
  | recovery_blob_put (account_id : String) (bytes : List UInt8)
  | pair_auth_instance (instance_id : String)
  /-- Any call that only reads; the connections for these are `query_only`. -/
  | read (account_id : String)

/-- The account that a call is about; the pairing is about none. -/
def Call.account : Call → Option String
  | .push_events account_id _ => some account_id
  | .blob_put account_id _ _ => some account_id
  | .device_record_put account_id _ _ => some account_id
  | .wrapped_bundle_put account_id _ _ => some account_id
  | .attestation_append account_id _ => some account_id
  | .recovery_blob_put account_id _ => some account_id
  | .pair_auth_instance _ => none
  | .read account_id => some account_id

/-- The store after a call, whether it answers or fails. -/
def serve (ct_hash : List UInt8 → String) (store : SyncStore) : Call → SyncStore
  | .push_events account_id events => leaves (push_events account_id events store)
  | .blob_put account_id hash bytes => leaves (blob_put ct_hash account_id hash bytes store)
  | .device_record_put account_id device_id bytes => store.device_record_put account_id device_id bytes
  | .wrapped_bundle_put account_id recipient_device_id bytes =>
    (store.wrapped_bundle_put ct_hash account_id recipient_device_id bytes).2
  | .attestation_append account_id bytes => (store.attestation_append ct_hash account_id bytes).2
  | .recovery_blob_put account_id bytes => store.recovery_blob_put account_id bytes
  | .pair_auth_instance instance_id => leaves (pair_auth_instance instance_id store)
  | .read _ => store

/-- What every call keeps of the log and the blobs. -/
structure Keeps (store written : SyncStore) : Prop where
  referenced : store.Referenced → written.Referenced
  within : ∀ account, store.Within account → written.Within account

theorem Keeps.of_eq (same : written.toStore = store.toStore) : store.Keeps written :=
  ⟨fun referenced => by rw [same]; exact referenced,fun account within => by rw [same]; exact within⟩

/-- Pairing writes nothing but the marker. -/
theorem pair_auth_instance_leaves (store : SyncStore) (instance_id : String) :
    ∃ marker, leaves (pair_auth_instance instance_id store) = { store with auth_instance := marker } := by
  cases paired : pair_auth_instance instance_id store with
  | error e written =>
    rw [transaction_error paired]
    exact ⟨store.auth_instance,rfl⟩
  | ok u written =>
    have paired := transaction_ok.mp paired
    obtain ⟨current,read,got,paired⟩ := work_bind_ok.mp paired
    cases got
    change EStateM.run _ store = _ at paired
    split at paired
    · cases paired
    · cases paired
      exact ⟨_,rfl⟩

theorem keeps_push_events (account_id : String) (events : List EventRecord) :
    store.Keeps (leaves (push_events account_id events store)) := by
  cases pushed : push_events account_id events store with
  | error e written => exact .of_eq (congrArg toStore (transaction_error pushed))
  | ok outcome written =>
    obtain ⟨acc,same,-,stored⟩ := push_events_stored pushed
    exact ⟨fun referenced => same ▸ stored.referenced referenced,fun account within => same ▸ stored.within account within⟩

/-- A blob that is stored keeps its account within the caps that it was checked against. -/
theorem within_insert {account_id hash : String} {bytes : List UInt8}
    (admitted : store.admit_blob account_id hash bytes = .ok ()) (absent : store.blob_present account_id hash = false) :
    ({ store.toStore with blobs := store.blobs ++ [⟨account_id,hash,bytes,min bytes.length i64Max⟩] } :
      Store).Within account_id := by
  by_cases unlimited : store.quota.is_unlimited = true
  · apply Store.within_unlimited
    exact unlimited
  · simp only [Store.admit_blob,absent,Bool.or_false,if_neg unlimited,bind_ok,Prod.exists] at admitted
    obtain ⟨total_bytes,total_objects,usage,checked⟩ := admitted
    obtain ⟨rfl,rfl⟩ := Store.account_usage_ok usage
    obtain ⟨bytesFit,objectsFit⟩ := Store.check_ok.mp checked
    have stored : ({ store.toStore with blobs := store.blobs ++ [⟨account_id,hash,bytes,min bytes.length i64Max⟩] } :
        Store).usage account_id = { store.usage account_id with
          blob_bytes := (store.usage account_id).blob_bytes + min bytes.length i64Max
          blob_count := (store.usage account_id).blob_count + 1 } := by
      simp [Store.usage,Store.account_blobs,Store.log]
    unfold Store.Within
    rw [stored]
    refine Store.check_ok.mpr ⟨fun capped => ?_,fun capped => ?_⟩
    · have := bytesFit capped
      simp only [UsageRecord.total_bytes,saturating_add] at this ⊢
      omega
    · have := objectsFit capped
      simp only [UsageRecord.total_objects,saturating_add] at this ⊢
      omega

theorem keeps_blob_put (ct_hash : List UInt8 → String) (account_id hash : String) (bytes : List UInt8) :
    store.Keeps (leaves (blob_put ct_hash account_id hash bytes store)) := by
  rcases blob_put_cases ct_hash account_id hash bytes with ⟨e,put⟩ | ⟨-,put⟩ | ⟨absent,admitted,put⟩
  · rw [put]; exact .of_eq rfl
  · rw [put]; exact .of_eq rfl
  · rw [put,leaves]
    refine ⟨fun referenced => ?_,fun account within => ?_⟩
    · intro ev inside hash' refers
      rw [remember_toStore] at inside ⊢
      have there := referenced ev inside hash' refers
      unfold Store.blob_present at there ⊢
      rw [List.any_append,there,Bool.true_or]
    · rw [remember_toStore]
      by_cases same : account = account_id
      · subst same
        exact within_insert admitted absent
      · have others : ({ store.toStore with
            blobs := store.blobs ++ [⟨account_id,hash,bytes,min bytes.length i64Max⟩] } : Store).usage account =
            store.usage account := by
          simp [Store.usage,Store.account_blobs,Store.log,Ne.symm same]
        unfold Store.Within at within ⊢
        rw [others]
        exact within

theorem keeps_serve (ct_hash : List UInt8 → String) (call : Call) : store.Keeps (store.serve ct_hash call) := by
  cases call with
  | push_events account_id events => exact keeps_push_events account_id events
  | blob_put account_id hash bytes => exact keeps_blob_put ct_hash account_id hash bytes
  | device_record_put account_id device_id bytes =>
    refine .of_eq ?_
    simp only [serve,device_record_put]
    split <;> simp
  | wrapped_bundle_put account_id recipient_device_id bytes =>
    refine .of_eq ?_
    simp only [serve,wrapped_bundle_put]
    split <;> simp
  | attestation_append account_id bytes =>
    refine .of_eq ?_
    simp only [serve,attestation_append]
    split <;> simp
  | recovery_blob_put account_id bytes =>
    refine .of_eq ?_
    simp only [serve,recovery_blob_put]
    split <;> simp
  | pair_auth_instance instance_id =>
    obtain ⟨marker,paired⟩ := pair_auth_instance_leaves store instance_id
    exact .of_eq (by rw [serve,paired])
  | read account_id => exact .of_eq rfl

theorem keeps_run (ct_hash : List UInt8 → String) (calls : List Call) :
    store.Keeps (calls.foldl (serve ct_hash) store) := by
  induction calls generalizing store with
  | nil => exact .of_eq rfl
  | cons call calls ih =>
    have first : store.Keeps (store.serve ct_hash call) := keeps_serve ct_hash call
    have rest : (store.serve ct_hash call).Keeps (calls.foldl (serve ct_hash) (store.serve ct_hash call)) := ih
    exact ⟨fun referenced => rest.referenced (first.referenced referenced),
      fun account within => rest.within account (first.within account within)⟩

/-- Over every run of calls, each event refers to blobs of its account that are there and
    an account stays within its caps; a blob that is there is not stored again, a batch
    adds to the usage of its account what it has appended and nothing for what it has
    found there, and a push or an upload that fails leaves the store as it was. -/
theorem store_integrity (ct_hash : List UInt8 → String) {start : SyncStore} (referenced : start.Referenced)
    (calls : List Call) : let store := calls.foldl (serve ct_hash) start
    store.Referenced ∧ (∀ account, start.Within account → store.Within account) ∧
    (∀ account hash bytes, store.blob_present account hash →
      leaves (blob_put ct_hash account hash bytes store) = store) ∧
    (∀ account events outcome written, push_events account events store = .ok outcome written →
      (∀ other, other ≠ account → written.usage other = store.usage other) ∧
      written.usage account = { store.usage account with
        event_bytes := (store.usage account).event_bytes +
          ((Store.appended events outcome.results).map (fun ev => ev.ciphertext.length)).sum
        event_count := (store.usage account).event_count + (Store.appended events outcome.results).length }) ∧
    (∀ account events e written, push_events account events store = .error e written → written = store) ∧
    (∀ account hash bytes e written, blob_put ct_hash account hash bytes store = .error e written → written = store) := by
  intro store
  have keeps : start.Keeps store := keeps_run ct_hash calls
  refine ⟨keeps.referenced referenced,keeps.within,?_,?_,?_,?_⟩
  · intro account hash bytes present
    rcases blob_put_cases ct_hash account hash bytes with ⟨e,put⟩ | ⟨-,put⟩ | ⟨absent,-,-⟩
    · rw [put,leaves]
    · rw [put,leaves]
    · rw [absent] at present
      cases present
  · intro account events outcome written ok
    obtain ⟨acc,same,results,stored⟩ := push_events_stored ok
    obtain ⟨seen,split,-,counted⟩ := stored.counted
    rw [List.append_nil] at split
    rw [← same,← results,← split]
    exact ⟨stored.others,counted⟩
  · intro account events e written failed
    exact transaction_error failed
  · intro account hash bytes e written failed
    rcases blob_put_cases ct_hash account hash bytes with ⟨e',put⟩ | ⟨-,put⟩ | ⟨-,-,put⟩
    · cases put.symm.trans failed
      rfl
    · cases put.symm.trans failed
    · cases put.symm.trans failed

/-- The hash of the only blob of the run below. -/
def hashOfA (bytes : List UInt8) : String :=
  if bytes = [97] then "ca978112ca1bbdcafac231b39a23dc4da786eff8147c4e72b9807785afee48bb" else ""

set_option maxRecDepth 10000 in
/-- An account with room for three objects: a blob is uploaded twice, a batch has a change
    twice, and a batch whose second event finds no room leaves nothing. -/
theorem store_integrity_capped : ∃ store : SyncStore, store.Referenced ∧ store.Within "acct" ∧
    store.usage "acct" = ⟨1,1,2,1⟩ := by
  have fresh : (⟨⟨[],[],⟨0,3⟩⟩,[],[],[],[],none,[]⟩ : SyncStore).Referenced := fun ev inside => nomatch inside
  have kept := store_integrity hashOfA fresh [.blob_put "acct" (hashOfA [97]) [97],.blob_put "acct" (hashOfA [97]) [97],
    .push_events "acct" [⟨1,"phone","x",none,0,[hashOfA [97]],[1,2],[]⟩,⟨1,"phone","x",none,0,[],[3],[]⟩],
    .push_events "acct" [⟨1,"phone","y",none,0,[],[1],[]⟩,⟨1,"phone","z",none,0,[],[1],[]⟩]]
  exact ⟨_,kept.1,kept.2.1 "acct" (by decide +kernel),by decide +kernel⟩

/-! ### The history of namespaces -/

theorem remember_history {grown : SyncStore} (same : grown.namespace_history = store.namespace_history)
    (account : String) : store.namespace_history ⊆ (grown.remember account).namespace_history := by
  unfold remember
  split
  · exact same ▸ List.Subset.refl _
  · exact same ▸ List.subset_append_left _ _

/-- A push that is accepted adds its account to the history if it has appended an event. -/
theorem push_events_history (ok : push_events account_id events store = .ok outcome written) :
    store.namespace_history ⊆ written.namespace_history := by
  have ok := transaction_ok.mp ok
  cases initial : store.initial_usage account_id with
  | error e => simp [initial] at ok
  | ok usage =>
    obtain ⟨bytes,objects⟩ := usage
    simp only [initial] at ok
    cases done : Store.push_all account_id events ⟨store.toStore,store.high_water account_id,bytes,objects,[]⟩ with
    | mk result batch =>
      cases result with
      | error e => simp [done] at ok
      | ok all =>
        simp only [done,EStateM.Result.ok.injEq] at ok
        rw [← ok.2]
        split
        · exact remember_history (by rfl) account_id
        · exact List.Subset.refl _

/-- No call takes a namespace out of the history. -/
theorem serve_history (ct_hash : List UInt8 → String) (call : Call) :
    store.namespace_history ⊆ (store.serve ct_hash call).namespace_history := by
  cases call with
  | push_events account_id events =>
    cases pushed : push_events account_id events store with
    | error e written =>
      rw [serve,pushed,transaction_error pushed]
      exact List.Subset.refl _
    | ok outcome written =>
      rw [serve,pushed]
      exact push_events_history pushed
  | blob_put account_id hash bytes =>
    rcases blob_put_cases ct_hash account_id hash bytes with ⟨e,put⟩ | ⟨-,put⟩ | ⟨-,-,put⟩
    · rw [serve,put]; exact List.Subset.refl _
    · rw [serve,put]; exact List.Subset.refl _
    · rw [serve,put]; exact remember_history (by rfl) account_id
  | device_record_put account_id device_id bytes =>
    simp only [serve,device_record_put]
    split
    · exact List.Subset.refl _
    · exact remember_history (by rfl) account_id
  | wrapped_bundle_put account_id recipient_device_id bytes =>
    simp only [serve,wrapped_bundle_put]
    split
    · exact List.Subset.refl _
    · exact remember_history (by rfl) account_id
  | attestation_append account_id bytes =>
    simp only [serve,attestation_append]
    split
    · exact List.Subset.refl _
    · exact remember_history (by rfl) account_id
  | recovery_blob_put account_id bytes =>
    simp only [serve,recovery_blob_put]
    split
    · exact List.Subset.refl _
    · exact remember_history (by rfl) account_id
  | pair_auth_instance instance_id =>
    obtain ⟨marker,paired⟩ := pair_auth_instance_leaves store instance_id
    rw [serve,paired]
    exact List.Subset.refl _
  | read account_id => exact List.Subset.refl _

end SyncStore

end Pergamon
