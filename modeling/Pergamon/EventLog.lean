import Mathlib.Algebra.Order.Ring.Nat
import Mathlib.Data.List.Sort
import Pergamon.Fallible
import Pergamon.NumberedLog

/-!
The event log of the sync server. `push_events` appends a batch to the log of an
account in one transaction, each event under the next sequence number unless its
change id is there already; `pull` gives a page of the events after a cursor and the
cursor that follows the page.

Whatever is pushed, the log of each account is numbered from 1 on without gaps and
each change is in it once (`push_events_ok`), and a client that follows `next_cursor`
has at any time received a prefix of the log (`log_and_pages`).

Times and the encodings of the wire are left out.
-/
namespace Pergamon
open Fallible NumberedLog

inductive QuotaLimit where
  | Bytes
  | Objects
  deriving DecidableEq

/-- The caps of an account; a cap of `0` is none. -/
structure QuotaConfig where
  max_account_bytes : ℕ
  max_account_objects : ℕ
  deriving DecidableEq

def QuotaConfig.is_unlimited (quota : QuotaConfig) : Bool :=
  quota.max_account_bytes == 0 && quota.max_account_objects == 0

inductive StoreError where
  | AccountPairMismatch
  | QuotaExceeded (limit : QuotaLimit)
  | BlobHashMismatch (expected actual : String)
  | MissingBlob (ct_hash : String)
  | Db
  deriving DecidableEq

/-- Check a projected usage against the caps. -/
def QuotaConfig.check (quota : QuotaConfig) (total_bytes total_objects : ℕ) : Except StoreError Unit :=
  if quota.max_account_bytes ≠ 0 ∧ total_bytes > quota.max_account_bytes then .error (.QuotaExceeded .Bytes)
  else if quota.max_account_objects ≠ 0 ∧ total_objects > quota.max_account_objects then
    .error (.QuotaExceeded .Objects)
  else .ok ()

/-- An event as a client pushes it. -/
structure EventRecord where
  protocol_version : UInt32
  device_id : String
  change_id : String
  entity_ref : Option String
  key_epoch : UInt32
  blob_refs : List String
  ciphertext : List UInt8
  signature : List UInt8
  deriving DecidableEq

/-- A row of the event table. -/
structure StoredEventRecord extends EventRecord where
  account_id : String
  payload_bytes : ℕ
  server_seq : ℕ
  deriving DecidableEq

structure PushResultRecord where
  change_id : String
  server_seq : ℕ
  deduplicated : Bool
  deriving DecidableEq

structure PushOutcome where
  results : List PushResultRecord
  high_water_seq : ℕ

/-- A blob of an account under the hash of its bytes. -/
structure BlobRow where
  account_id : String
  ct_hash : String
  bytes : List UInt8
  byte_len : ℕ
  deriving DecidableEq

/-- The content tables of the server and its quota. -/
structure Store where
  events : List StoredEventRecord
  blobs : List BlobRow
  quota : QuotaConfig
  deriving DecidableEq

/-- The greatest number of a signed column. -/
def i64Max : ℕ := 2 ^ 63 - 1
/-- `u64::saturating_add`. -/
def saturating_add (a b : ℕ) : ℕ := min (a + b) (2 ^ 64 - 1)

namespace Store

/-- The log of an account, in the order of the appends. -/
def log (store : Store) (account_id : String) : List StoredEventRecord :=
  store.events.filter (fun ev => ev.account_id = account_id)

def blob_present (store : Store) (account_id ct_hash : String) : Bool :=
  store.blobs.any (fun blob => blob.account_id = account_id && blob.ct_hash = ct_hash)

/-- `SUM` over a signed column, which fails where the sum does not fit. -/
def sumColumn (l : List ℕ) : Except StoreError ℕ := if l.sum ≤ i64Max then .ok l.sum else .error .Db

/-- The bytes and the objects that an account stores. -/
def account_usage (store : Store) (account_id : String) : Except StoreError (ℕ × ℕ) := do
  let blobs := store.blobs.filter (fun blob => blob.account_id = account_id)
  let blob_bytes ← sumColumn (blobs.map BlobRow.byte_len)
  let event_bytes ← sumColumn ((store.log account_id).map StoredEventRecord.payload_bytes)
  .ok (saturating_add blob_bytes event_bytes,saturating_add blobs.length (store.log account_id).length)

/-- The greatest sequence number of an account, `0` for an empty log. -/
def high_water (store : Store) (account_id : String) : ℕ :=
  (store.log account_id).foldl (fun m ev => max m ev.server_seq) 0

/-- `INSERT INTO events`: the primary key is the account and the sequence number, and
    an account has a change id once. -/
def insert_event (store : Store) (row : StoredEventRecord) : Except StoreError Store :=
  if (store.log row.account_id).any (fun ev => ev.server_seq = row.server_seq || ev.change_id = row.change_id) then
    .error .Db
  else .ok { store with events := store.events ++ [row] }

/-- What the loop over a batch holds. -/
structure Batch where
  store : Store
  next_seq : ℕ
  projected_bytes : ℕ
  projected_objects : ℕ
  results : List PushResultRecord

/-- Count an event that is appended against the caps, if there are any. -/
def meter (acc : Batch) (payload_len : ℕ) : Except StoreError (ℕ × ℕ) :=
  if acc.store.quota.is_unlimited then .ok (acc.projected_bytes,acc.projected_objects)
  else do
    let bytes := saturating_add acc.projected_bytes payload_len
    let objects := saturating_add acc.projected_objects 1
    acc.store.quota.check bytes objects
    .ok (bytes,objects)

/-- One event of a batch: deduplicated or appended. -/
def push_one (account_id : String) (acc : Batch) (ev : EventRecord) : Except StoreError Batch :=
  match (acc.store.log account_id).find? (fun row => row.change_id = ev.change_id) with
  | some row => .ok { acc with results := acc.results ++ [⟨ev.change_id,row.server_seq,true⟩] }
  | none =>
    match ev.blob_refs.find? (fun hash => !acc.store.blob_present account_id hash) with
    | some hash => .error (.MissingBlob hash)
    | none => do
      let payload_len := ev.ciphertext.length
      let (bytes,objects) ← meter acc payload_len
      let next_seq := acc.next_seq + 1
      let store ← acc.store.insert_event
        { ev with account_id := account_id, payload_bytes := payload_len, server_seq := min next_seq i64Max }
      .ok ⟨store,next_seq,bytes,objects,acc.results ++ [⟨ev.change_id,next_seq,false⟩]⟩

/-- The usage that a batch starts from; none is computed where nothing is capped. -/
def initial_usage (store : Store) (account_id : String) : Except StoreError (ℕ × ℕ) :=
  if store.quota.is_unlimited then .ok (0,0) else store.account_usage account_id

/-- Append a batch of events to an account's log, or nothing at all. -/
def push_events (store : Store) (account_id : String) (events : List EventRecord) :
    Except StoreError (PushOutcome × Store) := do
  let (bytes,objects) ← store.initial_usage account_id
  let batch ← events.foldlM (push_one account_id) ⟨store,store.high_water account_id,bytes,objects,[]⟩
  .ok (⟨batch.results,batch.next_seq⟩,batch.store)

/-- The events after a cursor, in the order of their numbers, up to a limit. -/
def pull_events (store : Store) (account_id : String) (after limit : ℕ) : List StoredEventRecord :=
  (((store.log account_id).filter (fun ev => min after i64Max < ev.server_seq)).insertionSort
    (fun a b => a.server_seq ≤ b.server_seq)).take limit

/-! ### Appending -/

section
variable {account_id : String} {acc acc' : Batch} {ev : EventRecord} {store store' : Store} {row : StoredEventRecord}

theorem log_append (account : String) :
    ({ store with events := store.events ++ [row] } : Store).log account =
      if row.account_id = account then store.log account ++ [row] else store.log account := by
  simp only [log,List.filter_append,List.filter_cons,List.filter_nil,decide_eq_true_eq]
  split
  · rfl
  · exact List.append_nil _

theorem insert_event_ok (ok : store.insert_event row = .ok store') :
    (∀ ev ∈ store.log row.account_id, ev.server_seq ≠ row.server_seq ∧ ev.change_id ≠ row.change_id) ∧
      store' = { store with events := store.events ++ [row] } := by
  unfold insert_event at ok
  split at ok
  · cases ok
  · next free =>
    simp only [List.any_eq_true,Bool.or_eq_true,decide_eq_true_eq,not_exists,not_and,not_or] at free
    exact ⟨free,(Except.ok.inj ok).symm⟩

/-- One event is found in the log, or appended under the next number once its blobs are
    there and the caps allow it. -/
theorem push_one_ok (ok : push_one account_id acc ev = .ok acc') :
    (∃ row ∈ acc.store.log account_id, row.change_id = ev.change_id ∧
      acc' = { acc with results := acc.results ++ [⟨ev.change_id,row.server_seq,true⟩] }) ∨
    (∃ row : StoredEventRecord, row.account_id = account_id ∧ row.toEventRecord = ev ∧
      row.server_seq = min (acc.next_seq + 1) i64Max ∧ row.payload_bytes = ev.ciphertext.length ∧
      (∀ old ∈ acc.store.log account_id, old.server_seq ≠ row.server_seq ∧ old.change_id ≠ row.change_id) ∧
      (∀ hash ∈ ev.blob_refs, acc.store.blob_present account_id hash) ∧
      meter acc row.payload_bytes = .ok (acc'.projected_bytes,acc'.projected_objects) ∧
      acc'.store = { acc.store with events := acc.store.events ++ [row] } ∧ acc'.next_seq = acc.next_seq + 1 ∧
      acc'.results = acc.results ++ [⟨ev.change_id,acc.next_seq + 1,false⟩]) := by
  unfold push_one at ok
  split at ok
  · next row found =>
    have same := List.find?_some found
    exact .inl ⟨row,List.mem_of_find?_eq_some found,by simpa using same,(Except.ok.inj ok).symm⟩
  · next fresh =>
    split at ok
    · cases ok
    · next present =>
      simp only [bind_ok,Prod.exists,Except.ok.injEq] at ok
      obtain ⟨bytes,objects,metered,store,inserted,rfl⟩ := ok
      obtain ⟨free,rfl⟩ := insert_event_ok inserted
      refine .inr ⟨_,rfl,rfl,rfl,rfl,free,fun hash inside => ?_,metered,rfl,rfl,rfl⟩
      simpa using List.find?_eq_none.mp present hash inside

/-- Every account's log is numbered from 1 on, within the signed column, and has each
    change once. -/
def WellNumbered (store : Store) : Prop :=
  ∀ account, Numbered StoredEventRecord.server_seq (store.log account) ∧
    ((store.log account).map fun ev => ev.change_id).Nodup ∧ (store.log account).length ≤ i64Max

/-- The log holds the change of a result under the sequence number of the result. -/
def Holds (store : Store) (account_id : String) (result : PushResultRecord) : Prop :=
  ∃ ev ∈ store.log account_id, ev.change_id = result.change_id ∧ ev.server_seq = result.server_seq

theorem wellNumbered_append (well : WellNumbered store) (fresh : ∀ old ∈ store.log row.account_id,
      old.server_seq ≠ row.server_seq ∧ old.change_id ≠ row.change_id)
    (next : row.server_seq = min ((store.log row.account_id).length + 1) i64Max) :
    WellNumbered { store with events := store.events ++ [row] } ∧
      row.server_seq = (store.log row.account_id).length + 1 := by
  obtain ⟨numbered,distinct,-⟩ := well row.account_id
  -- past the greatest number, the clamped one is taken
  have room : row.server_seq = (store.log row.account_id).length + 1 := by
    rw [next]
    refine min_eq_left (not_lt.mp (fun full => ?_))
    obtain ⟨old,inside,number⟩ := exists_seq numbered (n := i64Max) (by decide) (by omega)
    exact (fresh old inside).1 (by rw [number,next]; omega)
  refine ⟨fun account => ?_,room⟩
  rw [log_append]
  split
  · next here =>
    subst here
    have fits : row.server_seq ≤ i64Max := next ▸ min_le_right _ _
    refine ⟨numbered_concat numbered room,?_,by rw [List.length_append,List.length_singleton,← room]; exact fits⟩
    rw [List.map_append,List.nodup_append]
    refine ⟨distinct,by simp,?_⟩
    intro id inside id' last same
    obtain ⟨old,there,rfl⟩ := List.mem_map.mp inside
    rw [List.map_singleton,List.mem_singleton] at last
    exact (fresh old there).2 (same.trans last)
  · exact well account

/-- A batch, as far as it has been pushed. -/
structure Pushed (account_id : String) (store : Store) (ids : List String) (rest : List EventRecord) (acc : Batch) :
    Prop where
  well : WellNumbered acc.store
  next : acc.next_seq = (acc.store.log account_id).length
  answered : acc.results.map PushResultRecord.change_id ++ rest.map EventRecord.change_id = ids
  holds : ∀ result ∈ acc.results, acc.store.Holds account_id result
  grows : ∀ account, store.log account <+: acc.store.log account

theorem pushed_step {ids : List String} {rest : List EventRecord}
    (pushed : Pushed account_id store ids (ev :: rest) acc) (ok : push_one account_id acc ev = .ok acc') :
    Pushed account_id store ids rest acc' := by
  have answered := pushed.answered
  rcases push_one_ok ok with ⟨row,inside,same,rfl⟩ | ⟨row,here,rfl,number,-,fresh,-,-,grown,next,results⟩
  · refine ⟨pushed.well,pushed.next,by simp [← answered],?_,pushed.grows⟩
    intro result there
    rcases List.mem_append.mp there with before | last
    · exact pushed.holds result before
    · exact ⟨row,inside,by rw [List.mem_singleton.mp last,same],by rw [List.mem_singleton.mp last]⟩
  · subst here
    obtain ⟨well,room⟩ := wellNumbered_append pushed.well fresh (by rw [number,pushed.next])
    have longer (account : String) : acc.store.log account <+: acc'.store.log account := by
      rw [grown,log_append]
      split
      · exact List.prefix_append _ _
      · exact List.prefix_refl _
    refine ⟨by rw [grown]; exact well,by rw [next,grown,log_append,if_pos rfl,pushed.next]; simp,
      by simp [results,← answered],?_,fun account => (pushed.grows account).trans (longer account)⟩
    intro result there
    rcases List.mem_append.mp (results ▸ there) with before | last
    · obtain ⟨old,inside,matches_⟩ := pushed.holds result before
      exact ⟨old,(longer _).subset inside,matches_⟩
    · refine ⟨row,by rw [grown,log_append,if_pos rfl]; simp,?_,?_⟩
      · rw [List.mem_singleton.mp last]
      · rw [List.mem_singleton.mp last,room,pushed.next]

/-- A batch that is accepted keeps the logs numbered, answers every event in order and
    each with the number that the log has for it. -/
theorem push_events_ok {batch : List EventRecord} {outcome : PushOutcome} (well : WellNumbered store)
    (ok : store.push_events account_id batch = .ok (outcome,store')) :
    WellNumbered store' ∧ outcome.results.map PushResultRecord.change_id = batch.map EventRecord.change_id ∧
      (∀ result ∈ outcome.results, store'.Holds account_id result) ∧
      outcome.high_water_seq = (store'.log account_id).length ∧
      ∀ account, store.log account <+: store'.log account := by
  simp only [push_events,bind_ok,Prod.exists,Except.ok.injEq,Prod.mk.injEq] at ok
  obtain ⟨bytes,objects,-,last,run,rfl,rfl⟩ := ok
  have start : Pushed account_id store (batch.map EventRecord.change_id) batch
      ⟨store,store.high_water account_id,bytes,objects,[]⟩ :=
    ⟨well,foldl_max (well account_id).1,rfl,by simp,fun _ => List.prefix_refl _⟩
  have pushed := foldlM_rest (Pushed account_id store (batch.map EventRecord.change_id))
    (fun _ _ _ _ => pushed_step) start run
  exact ⟨pushed.well,by simpa using pushed.answered,pushed.holds,pushed.next,pushed.grows⟩

end
end Store

/-- The number of events of a page where the client asks for none. -/
def DEFAULT_LIMIT : ℕ := 500
/-- The most events of a page. -/
def MAX_LIMIT : ℕ := 1000

structure PullResponse where
  events : List StoredEventRecord
  high_water_seq : ℕ
  next_cursor : ℕ

/-- Pull a page of events. -/
def pull (store : Store) (account_id : String) (after : ℕ) (limit : Option ℕ) : PullResponse :=
  let events := store.pull_events account_id after (max 1 (min (limit.getD DEFAULT_LIMIT) MAX_LIMIT))
  ⟨events,store.high_water account_id,events.foldl (fun cursor ev => max cursor ev.server_seq) after⟩

namespace Store
variable {account_id : String} {store store' : Store}

theorem seen_fits (well : WellNumbered store) {after : ℕ} (seen : after ≤ (store.log account_id).length) :
    after ≤ i64Max := seen.trans (well account_id).2.2

/-- A page is the next entries of the log after the cursor. -/
theorem pull_eq (well : WellNumbered store) {after : ℕ} (fits : after ≤ i64Max) (limit : Option ℕ) :
    (pull store account_id after limit).events =
      page (store.log account_id) after (max 1 (min (limit.getD DEFAULT_LIMIT) MAX_LIMIT)) := by
  obtain ⟨numbered,-,-⟩ := well account_id
  have sorted : ((store.log account_id).drop after).Pairwise (fun a b => a.server_seq ≤ b.server_seq) :=
    ((seq_sorted numbered).imp le_of_lt).sublist (List.drop_sublist _ _)
  unfold pull pull_events page
  rw [min_eq_left fits,after_eq_drop numbered,sorted.insertionSort_eq]

/-- The cursor that follows a page counts the events up to its end. -/
theorem next_cursor_eq (well : WellNumbered store) {after : ℕ} (fits : after ≤ i64Max) (limit : Option ℕ) :
    (pull store account_id after limit).next_cursor = after + (pull store account_id after limit).events.length := by
  have events : (pull store account_id after limit).events = _ := pull_eq well fits limit
  rw [events,← foldl_max_page (well account_id).1,← events]
  rfl

theorem take_pull (well : WellNumbered store) {after : ℕ} (seen : after ≤ (store.log account_id).length)
    (limit : Option ℕ) : (store.log account_id).take after ++ (pull store account_id after limit).events =
      (store.log account_id).take (pull store account_id after limit).next_cursor := by
  rw [next_cursor_eq well (seen_fits well seen),pull_eq well (seen_fits well seen),take_page,length_page,List.take_eq_take_iff]
  omega

end Store

/-! ### Runs -/

/-- What happens to the store between two requests of a client: batches pushed to any
    account, accepted or not, and blobs uploaded. -/
inductive Serves : Store → Store → Prop where
  | pushed {store store' : Store} {account_id : String} {batch : List EventRecord} {outcome : PushOutcome} :
      store.push_events account_id batch = .ok (outcome,store') → Serves store store'
  | rejected {store : Store} {account_id : String} {batch : List EventRecord} {e : StoreError} :
      store.push_events account_id batch = .error e → Serves store store
  | uploaded (store : Store) (blobs : List BlobRow) : Serves store { store with blobs := blobs }

/-- A client pages through the log of an account while the store goes on serving: the
    store, the client's cursor and the events it has received. -/
inductive Paging (account_id : String) : Store → ℕ → List StoredEventRecord → Prop where
  | start (blobs : List BlobRow) (quota : QuotaConfig) : Paging account_id ⟨[],blobs,quota⟩ 0 []
  | serve {store store' : Store} {cursor : ℕ} {received : List StoredEventRecord} :
      Paging account_id store cursor received → Serves store store' → Paging account_id store' cursor received
  | page {store : Store} {cursor : ℕ} {received : List StoredEventRecord} (limit : Option ℕ) :
      Paging account_id store cursor received →
      Paging account_id store (pull store account_id cursor limit).next_cursor
        (received ++ (pull store account_id cursor limit).events)

theorem Serves.kept {store store' : Store} (serves : Serves store store') (well : store.WellNumbered) :
    store'.WellNumbered ∧ ∀ account, store.log account <+: store'.log account := by
  cases serves with
  | pushed ok =>
    obtain ⟨well',-,-,-,grows⟩ := Store.push_events_ok well ok
    exact ⟨well',grows⟩
  | rejected _ => exact ⟨well,fun _ => List.prefix_refl _⟩
  | uploaded blobs => exact ⟨well,fun _ => List.prefix_refl _⟩

/-- What a paging client has received is the log up to its cursor. -/
theorem Paging.received_eq {account_id : String} {store : Store} {cursor : ℕ} {received : List StoredEventRecord}
    (paging : Paging account_id store cursor received) :
    store.WellNumbered ∧ cursor ≤ (store.log account_id).length ∧ received = (store.log account_id).take cursor := by
  induction paging with
  | start blobs quota => exact ⟨fun _ => ⟨numbered_nil,List.nodup_nil,Nat.zero_le _⟩,le_refl _,rfl⟩
  | serve _ serves ih =>
    obtain ⟨well,seen,same⟩ := ih
    obtain ⟨well',grows⟩ := serves.kept well
    refine ⟨well',seen.trans (grows account_id).length_le,?_⟩
    obtain ⟨more,longer⟩ := grows account_id
    rw [same,← longer,List.take_append_of_le_length seen]
  | page limit _ ih =>
    obtain ⟨well,seen,same⟩ := ih
    refine ⟨well,?_,?_⟩
    · rw [Store.next_cursor_eq well (Store.seen_fits well seen),Store.pull_eq well (Store.seen_fits well seen),
        length_page]
      omega
    · rw [same,Store.take_pull well seen]

/-- Over every run, each log is numbered without gaps and has each change once, the
    results of a push give the numbers that the log has, and a client has received the
    log up to its cursor; it goes on with each page until it has everything. -/
theorem log_and_pages {account_id : String} {store : Store} {cursor : ℕ} {received : List StoredEventRecord}
    (paging : Paging account_id store cursor received) :
    (∀ account, (store.log account).map (fun ev => ev.server_seq) = List.range' 1 (store.log account).length ∧
      ((store.log account).map fun ev => ev.change_id).Nodup) ∧
    (∀ account batch outcome store', store.push_events account batch = .ok (outcome,store') →
      outcome.results.map (fun result => result.change_id) = batch.map (fun ev => ev.change_id) ∧
      ∀ result ∈ outcome.results, ∃ ev ∈ store'.log account,
        ev.change_id = result.change_id ∧ ev.server_seq = result.server_seq) ∧
    received = (store.log account_id).take cursor ∧
    ∀ limit, (cursor < (store.log account_id).length → cursor < (pull store account_id cursor limit).next_cursor) ∧
      ((pull store account_id cursor limit).events = [] → received = store.log account_id) := by
  obtain ⟨well,seen,same⟩ := paging.received_eq
  refine ⟨fun account => ⟨(well account).1,(well account).2.1⟩,?_,same,fun limit => ?_⟩
  · intro account batch outcome store' ok
    obtain ⟨-,answered,holds,-⟩ := Store.push_events_ok well ok
    exact ⟨answered,holds⟩
  · have size : (pull store account_id cursor limit).events.length =
        min (max 1 (min (limit.getD DEFAULT_LIMIT) MAX_LIMIT)) ((store.log account_id).length - cursor) := by
      rw [Store.pull_eq well (Store.seen_fits well seen),length_page]
    refine ⟨fun more => ?_,fun none_left => ?_⟩
    · rw [Store.next_cursor_eq well (Store.seen_fits well seen),size]
      omega
    · rw [none_left,List.length_nil] at size
      rw [same,List.take_of_length_le (by omega)]

/-- An event of one device. -/
def pushedChange (change_id : String) : EventRecord := ⟨1,"phone",change_id,none,0,[],[],[]⟩

set_option maxRecDepth 10000 in
/-- A client that reads one event at a time while a batch with a change sent twice and a
    change sent before is pushed between its requests. -/
theorem log_and_pages_interleaved : ∃ store,
    Paging "a" store 3 (store.log "a") ∧ (store.log "a").map (fun ev => ev.change_id) = ["x","y","z"] ∧
      (store.log "a").map (fun ev => ev.server_seq) = [1,2,3] ∧ store.log "a" = (store.log "a").take 3 := by
  have pushes : ∃ first, Store.push_events ⟨[],[],⟨0,0⟩⟩ "a" [pushedChange "x",pushedChange "y"] = .ok first ∧
      ∃ second, first.2.push_events "a" [pushedChange "z",pushedChange "y",pushedChange "z"] = .ok second ∧
      (pull first.2 "a" 0 (some 1)).next_cursor = 1 ∧ (pull second.2 "a" 1 none).next_cursor = 3 ∧
      (pull first.2 "a" 0 (some 1)).events ++ (pull second.2 "a" 1 none).events = second.2.log "a" ∧
      (second.2.log "a").map (fun ev => ev.change_id) = ["x","y","z"] := by decide +kernel
  obtain ⟨⟨outcome,first⟩,ok,⟨outcome',second⟩,ok',one,three,all,ids⟩ := pushes
  have started : Paging "a" first 0 [] := .serve (.start [] ⟨0,0⟩) (.pushed ok)
  have read := started.page (some 1)
  rw [one] at read
  have finished := (read.serve (.pushed ok')).page none
  rw [three,List.nil_append,all] at finished
  obtain ⟨numbers,-,received,-⟩ := log_and_pages finished
  refine ⟨second,finished,ids,?_,received⟩
  have length : (second.log "a").length = 3 := by rw [← List.length_map,ids]; rfl
  rw [(numbers "a").1,length]
  rfl

end Pergamon
