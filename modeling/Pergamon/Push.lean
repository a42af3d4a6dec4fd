import Mathlib.Data.Set.Insert
import Pergamon.Emit
import Pergamon.EventLog

/-!
Pushing the outbox. A device sends its oldest pending changes, encrypted, as one batch,
the server appends them to the log of the account, and the device marks the rows whose
results come back. Requests and responses may be lost, delayed or delivered twice, a
response may be cut short, a device may stop between two marks, and everything is sent
again later, under fresh ciphertexts.

In every such run the log takes each change at most once and those of one device in the
order of their making, and what a device holds for acknowledged is in the log under the
number it holds (`push_delivers`).
-/
namespace Pergamon
open Fallible NumberedLog

/-- The most changes of a push batch and of a pulled page. -/
def BATCH : ℕ := 256

inductive SyncError where
  | Storage (e : StorageError)
  | Crypto
  | Serialization
  | Base64
  | Transport
  | NotEnabled (message : String)
  | MissingBlob (ct_hash : String)
  | Protocol (message : String)
  | IncompleteUpload (pending_events : ℕ)
  | BadEventSignature (change_id device_id : String)
  | UnknownSigner (device_id : String)
  | NotFound (message : String)
  | AuthRefused (status : ℕ) (code : String)
  | RateLimited (retry_after_seconds : Option ℕ)
  | SessionNeedsLogin (reason : String)
  deriving DecidableEq

namespace Database

/-- The pending outbox rows in local order, up to a limit. -/
def pending_outbox (db : Database) (limit : ℕ) : List OutboxRow :=
  ((db.sync_outbox.filter (fun row => row.acked_seq.isNone)).insertionSort
    (fun a b => a.local_seq ≤ b.local_seq)).take limit

def pending_outbox_count (db : Database) : ℕ :=
  (db.sync_outbox.filter (fun row => row.acked_seq.isNone)).length

/-- Mark an outbox row acknowledged with the server sequence it was assigned. -/
def mark_outbox_acked (db : Database) (change_id : String) (server_seq : ℕ) : Database :=
  { db with sync_outbox := db.sync_outbox.map (fun row =>
      if row.change_id = change_id then { row with acked_seq := some (min server_seq i64Max) } else row) }

/-- What the client does with the results of a batch: it refuses unknown and repeated
    change ids, marks the rows and reports a batch that was not answered in full. -/
def acknowledge (db : Database) (expected : List String) (results : List PushResultRecord) :
    Database × Option SyncError :=
  if (∀ result ∈ results, result.change_id ∈ expected) ∧ (results.map PushResultRecord.change_id).Nodup then
    let db := results.foldl (fun db result => db.mark_outbox_acked result.change_id result.server_seq) db
    if results.length ≠ expected.length then (db,some (.IncompleteUpload db.pending_outbox_count)) else (db,none)
  else (db,some (.Protocol "push acknowledgement has unknown or repeated change IDs"))

end Database

/-- What encryption makes of a change; it is made afresh for each attempt. -/
structure Sealed where
  entity_ref : String
  key_epoch : UInt32
  ciphertext : List UInt8
  signature : List UInt8

/-- Encrypt an outbox row as an event of the device. -/
def encrypt_change (device_id : String) (row : OutboxRow) (sealed_body : Sealed) : EventRecord :=
  ⟨1,device_id,row.change_id,some sealed_body.entity_ref,sealed_body.key_epoch,
    row.body.blob_manifest.map BlobManifestEntry.ct_hash,sealed_body.ciphertext,sealed_body.signature⟩

/-- A batch on its way to the server, with the change ids that its sender expects. -/
structure Request where
  device_id : String
  expected : List String
  events : List EventRecord

/-- An answer on its way back. -/
structure Response where
  device_id : String
  expected : List String
  results : List PushResultRecord

/-- The devices of an account, the server and what is on the wire. Messages stay there:
    one that is never taken up is lost, and one may be taken up twice. -/
structure World where
  devices : String → Database
  store : Store
  requests : List Request
  responses : List Response

namespace World

def set_device (w : World) (d : String) (db : Database) : World :=
  { w with devices := Function.update w.devices d db }

@[simp] theorem devices_set_device (w : World) (d : String) (db : Database) : (w.set_device d db).devices d = db :=
  Function.update_self ..

@[simp] theorem store_set_device (w : World) (d : String) (db : Database) : (w.set_device d db).store = w.store := rfl

theorem devices_set_device_of_ne (w : World) {d d' : String} (apart : d' ≠ d) (db : Database) :
    (w.set_device d db).devices d' = w.devices d' := Function.update_of_ne apart ..

/-- One step of the world, for the devices of the account `account_id`. -/
inductive Step (account_id : String) : World → World → Prop where
  /-- A local change is enqueued; its id is a new UUID. -/
  | enqueue {w : World} {d change_id : String} {body : ChangeBody} {db : Database} :
      (∀ d', ∀ row ∈ (w.devices d').sync_outbox, row.change_id ≠ change_id) →
      (w.devices d).enqueue_outbox change_id body = .ok db → Step account_id w (w.set_device d db)
  /-- A device does something else to its database. -/
  | work {w : World} {d : String} {db : Database} : db.sync_outbox = (w.devices d).sync_outbox →
      db.sync_local_seq = (w.devices d).sync_local_seq → Step account_id w (w.set_device d db)
  /-- A device encrypts its pending changes and sends them. -/
  | send {w : World} (d : String) (seals : OutboxRow → Sealed) : Step account_id w
      { w with requests :=
          ⟨d,((w.devices d).pending_outbox BATCH).map OutboxRow.change_id,
            ((w.devices d).pending_outbox BATCH).map (fun row => encrypt_change d row (seals row))⟩ :: w.requests }
  /-- The server accepts a request; an answer leaves. -/
  | serve {w : World} {request : Request} {outcome : PushOutcome} {store : Store} : request ∈ w.requests →
      w.store.push_events account_id request.events = .ok (outcome,store) →
      Step account_id w { w with
        store := store
        responses := ⟨request.device_id,request.expected,outcome.results⟩ :: w.responses }
  /-- The server serves other accounts and takes blobs. -/
  | other {w : World} {store : Store} : Serves w.store store → store.log account_id = w.store.log account_id →
      Step account_id w { w with store := store }
  /-- A device takes up an answer, of which any part may have been lost on the way or by
      a crash between two marks. -/
  | acknowledge {w : World} {response : Response} {results : List PushResultRecord} : response ∈ w.responses →
      results.Sublist response.results →
      Step account_id w (w.set_device response.device_id
        ((w.devices response.device_id).acknowledge response.expected results).1)

/-- The worlds that a run reaches from empty outboxes and an empty log. -/
inductive Reachable (account_id : String) : World → Prop where
  | start {w : World} : (∀ d, (w.devices d).sync_outbox = []) → w.store.events = [] → w.requests = [] →
      w.responses = [] → Reachable account_id w
  | step {w w' : World} : Reachable account_id w → Step account_id w w' → Reachable account_id w'

end World

/-! ### The order of making -/

/-- The ids and local numbers of the changes that each device has made. -/
abbrev Made := String → List (String × ℕ)

/-- The device made one change before the other. -/
def Earlier (M : Made) (d id id' : String) : Prop := ∃ n n', (id,n) ∈ M d ∧ (id',n') ∈ M d ∧ n < n'

/-- Each device numbers its changes upwards, and no id is used twice. -/
structure Made.Ok (M : Made) : Prop where
  sorted : ∀ d, (M d).Pairwise (fun a b => a.2 < b.2)
  unique : ∀ d d' a a', a ∈ M d → a' ∈ M d' → a.1 = a'.1 → d = d' ∧ a = a'

/-- A log of changes that devices made, where each follows all that its device made
    before it. -/
structure Follows (M : Made) (l : List StoredEventRecord) : Prop where
  made : ∀ ev ∈ l, ∃ n, (ev.change_id,n) ∈ M ev.device_id
  closed : ∀ ev ∈ l, ∀ id, Earlier M ev.device_id id ev.change_id → ∃ ev' ∈ l, ev'.change_id = id
  ordered : l.Pairwise (fun ev ev' => ev.device_id = ev'.device_id →
    Earlier M ev.device_id ev.change_id ev'.change_id)

/-- A batch whose events each come after all that their devices made before them, where
    the changes in `known` count as there. -/
def Ready (M : Made) : Set String → List EventRecord → Prop
  | _, [] => True
  | known, ev :: rest =>
    (∃ n, (ev.change_id,n) ∈ M ev.device_id) ∧ (∀ id, Earlier M ev.device_id id ev.change_id → id ∈ known) ∧
      Ready M (insert ev.change_id known) rest

/-- The changes of a log. -/
def ids (l : List StoredEventRecord) : Set String := {id | ∃ ev ∈ l, ev.change_id = id}

section
variable {M : Made} {l : List StoredEventRecord}

theorem Made.Ok.same_number (ok : M.Ok) {d : String} {a a' : String × ℕ} (inside : a ∈ M d) (inside' : a' ∈ M d)
    (same : a.2 = a'.2) : a = a' := by
  by_contra different
  have : Std.Symm (fun a b : String × ℕ => a.2 ≠ b.2) := ⟨fun _ _ apart => Ne.symm apart⟩
  exact ((ok.sorted d).imp Nat.ne_of_lt).forall inside inside' different same

theorem Ready.mono {known known' : Set String} {events : List EventRecord} (more : known ⊆ known')
    (ready : Ready M known events) : Ready M known' events := by
  induction events generalizing known known' with
  | nil => trivial
  | cons ev rest ih =>
    obtain ⟨made,earlier,ready⟩ := ready
    exact ⟨made,fun id before => more (earlier id before),ih (Set.insert_subset_insert more) ready⟩

/-- A change that is not in the log, and whose predecessors are, may follow. -/
theorem Follows.append (follows : Follows M l) (ok : M.Ok) {ev : StoredEventRecord}
    (made : ∃ n, (ev.change_id,n) ∈ M ev.device_id)
    (before : ∀ id, Earlier M ev.device_id id ev.change_id → id ∈ ids l) (fresh : ev.change_id ∉ ids l) :
    Follows M (l ++ [ev]) := by
  refine ⟨?_,?_,?_⟩
  · intro other inside
    rcases List.mem_append.mp inside with inside | last
    · exact follows.made other inside
    · exact List.mem_singleton.mp last ▸ made
  · intro other inside id earlier
    rcases List.mem_append.mp inside with inside | last
    · obtain ⟨found,there,same⟩ := follows.closed other inside id earlier
      exact ⟨found,by simp [there],same⟩
    · obtain ⟨found,there,same⟩ := before id (List.mem_singleton.mp last ▸ earlier)
      exact ⟨found,by simp [there],same⟩
  · rw [List.pairwise_append]
    refine ⟨follows.ordered,List.pairwise_singleton _ _,?_⟩
    intro old inside last member same
    obtain rfl := List.mem_singleton.mp member
    obtain ⟨n,here⟩ := made
    obtain ⟨m,there⟩ := follows.made old inside
    rw [same] at there ⊢
    rcases Nat.lt_trichotomy m n with less | tie | more
    · exact ⟨m,n,there,here,less⟩
    · have equal := ok.same_number there here tie
      exact absurd ⟨old,inside,congrArg Prod.fst equal⟩ fresh
    · obtain ⟨found,present,twin⟩ := follows.closed old inside last.change_id (same ▸ ⟨n,m,here,there,more⟩)
      exact absurd ⟨found,present,twin⟩ fresh

theorem ids_append (ev : StoredEventRecord) : ids (l ++ [ev]) = insert ev.change_id (ids l) := by
  ext id
  simp [ids,or_and_right,exists_or,or_comm,eq_comm (a := id)]

/-- Pushing one event of a ready batch keeps the log in order and the rest ready. -/
theorem follows_push_one {account_id : String} {acc acc' : Store.Batch} {ev : EventRecord} {rest : List EventRecord}
    (ok : M.Ok) (follows : Follows M (acc.store.log account_id))
    (ready : Ready M (ids (acc.store.log account_id)) (ev :: rest))
    (pushed : Store.push_one account_id acc ev = .ok acc') :
    Follows M (acc'.store.log account_id) ∧ Ready M (ids (acc'.store.log account_id)) rest := by
  obtain ⟨made,before,ready⟩ := ready
  rcases Store.push_one_ok pushed with ⟨row,inside,same,rfl⟩ | ⟨row,here,rfl,-,-,fresh,-,-,grown,-⟩
  · have known : ev.change_id ∈ ids (acc.store.log account_id) := ⟨row,inside,same⟩
    exact ⟨follows,ready.mono (Set.insert_subset known subset_rfl)⟩
  · rw [grown,Store.log_append,if_pos here]
    refine ⟨follows.append ok made before ?_,by rw [ids_append]; exact ready⟩
    rintro ⟨old,inside,same⟩
    exact (fresh old (here ▸ inside)).2 same

/-- Pushing a ready batch keeps the log in order. -/
theorem follows_push_events {account_id : String} {store store' : Store} {batch : List EventRecord}
    {outcome : PushOutcome} (ok : M.Ok) (follows : Follows M (store.log account_id))
    (ready : Ready M (ids (store.log account_id)) batch)
    (pushed : store.push_events account_id batch = .ok (outcome,store')) : Follows M (store'.log account_id) := by
  simp only [Store.push_events,bind_ok,Prod.exists,Except.ok.injEq,Prod.mk.injEq] at pushed
  obtain ⟨bytes,objects,-,last,run,-,rfl⟩ := pushed
  have kept := foldlM_rest
    (fun rest (acc : Store.Batch) => Follows M (acc.store.log account_id) ∧
      Ready M (ids (acc.store.log account_id)) rest)
    (fun ev rest acc acc' holds => follows_push_one ok holds.1 holds.2) ⟨follows,ready⟩ run
  exact kept.1

/-- What was made before an old change is old. -/
theorem Earlier.old {M' : Made} (ok : M'.Ok) (old : ∀ d, M d <+: M' d) {d id id' : String} {n : ℕ}
    (made : (id',n) ∈ M d) (earlier : Earlier M' d id id') : Earlier M d id id' := by
  obtain ⟨m,m',first,second,less⟩ := earlier
  have same : m' = n := congrArg Prod.snd (ok.unique d d _ _ second ((old d).subset made) rfl).2
  subst same
  obtain ⟨more,split⟩ := old d
  rw [← split] at first
  rcases List.mem_append.mp first with inside | later
  · exact ⟨m,m',inside,made,less⟩
  · have sorted := ok.sorted d
    rw [← split] at sorted
    exact absurd less (Nat.lt_asymm ((List.pairwise_append.mp sorted).2.2 _ made _ later))

theorem Earlier.grow {M' : Made} (old : ∀ d, M d <+: M' d) {d id id' : String} (earlier : Earlier M d id id') :
    Earlier M' d id id' := by
  obtain ⟨m,m',first,second,less⟩ := earlier
  exact ⟨m,m',(old d).subset first,(old d).subset second,less⟩

theorem Follows.grow {M' : Made} (ok : M'.Ok) (old : ∀ d, M d <+: M' d) (follows : Follows M l) : Follows M' l where
  made ev inside := by
    obtain ⟨n,made⟩ := follows.made ev inside
    exact ⟨n,(old _).subset made⟩
  closed ev inside id earlier := by
    obtain ⟨n,made⟩ := follows.made ev inside
    exact follows.closed ev inside id (earlier.old ok old made)
  ordered := follows.ordered.imp (fun earlier same => (earlier same).grow old)

theorem Ready.grow {M' : Made} (ok : M'.Ok) (old : ∀ d, M d <+: M' d) {known : Set String}
    {events : List EventRecord} (ready : Ready M known events) : Ready M' known events := by
  induction events generalizing known with
  | nil => trivial
  | cons ev rest ih =>
    obtain ⟨⟨n,made⟩,before,ready⟩ := ready
    exact ⟨⟨n,(old _).subset made⟩,fun id earlier => before id (earlier.old ok old made),ih ready⟩

end

/-! ### The outbox of a device -/

/-- What a device has made, by its outbox. -/
def Database.made (db : Database) : List (String × ℕ) := db.sync_outbox.map (fun row => (row.change_id,row.local_seq))

namespace Database
variable {db : Database}

@[simp] theorem made_mark (change_id : String) (server_seq : ℕ) :
    (db.mark_outbox_acked change_id server_seq).made = db.made := by
  simp only [made,mark_outbox_acked,List.map_map]
  refine List.map_congr_left (fun row _ => ?_)
  simp only [Function.comp_apply]
  split <;> rfl

/-- A row after the marks of some results is one from before, acknowledged as it was or
    with the number of a result for it. -/
theorem mem_mark_all {results : List PushResultRecord} {row : OutboxRow} {s : ℕ}
    (inside : row ∈ (results.foldl (fun db result => db.mark_outbox_acked result.change_id result.server_seq)
      db).sync_outbox) (acked : row.acked_seq = some s) :
    (∃ result ∈ results, result.change_id = row.change_id ∧ s = min result.server_seq i64Max) ∨
      row ∈ db.sync_outbox := by
  induction results generalizing db with
  | nil => exact .inr inside
  | cons result results ih =>
    rcases ih inside with ⟨found,there,same⟩ | before
    · exact .inl ⟨found,.tail _ there,same⟩
    · simp only [mark_outbox_acked,List.mem_map] at before
      obtain ⟨old,held,marked⟩ := before
      split at marked
      · next named =>
        subst marked
        exact .inl ⟨result,.head _,named.symm,(Option.some.inj acked).symm⟩
      · exact .inr (marked ▸ held)

theorem made_mark_all (results : List PushResultRecord) :
    (results.foldl (fun db result => db.mark_outbox_acked result.change_id result.server_seq) db).made = db.made := by
  induction results generalizing db with
  | nil => rfl
  | cons result results ih => rw [List.foldl_cons,ih,made_mark]

theorem sync_local_seq_mark_all (results : List PushResultRecord) :
    (results.foldl (fun db result => db.mark_outbox_acked result.change_id result.server_seq) db).sync_local_seq =
      db.sync_local_seq := by
  induction results generalizing db with
  | nil => rfl
  | cons result results ih => rw [List.foldl_cons,ih]; rfl

/-- Acknowledging is marking some results. -/
theorem acknowledge_eq (db : Database) (expected : List String) (results : List PushResultRecord) :
    (db.acknowledge expected results).1 =
        results.foldl (fun db result => db.mark_outbox_acked result.change_id result.server_seq) db ∨
      (db.acknowledge expected results).1 = db := by
  unfold acknowledge
  split
  · left
    simp only
    split <;> rfl
  · exact .inr rfl

private theorem ready_rows {M : Made} {d : String} (here : M d = db.made) (ok : M.Ok) {known : Set String}
    (seals : OutboxRow → Sealed) {rows : List OutboxRow}
    (sorted : rows.Pairwise (fun a b => a.local_seq < b.local_seq)) (held : ∀ row ∈ rows, row ∈ db.sync_outbox)
    (before : ∀ row ∈ rows, ∀ old ∈ db.sync_outbox, old.local_seq < row.local_seq →
      old ∈ rows ∨ old.change_id ∈ known) :
    Ready M known (rows.map (fun row => encrypt_change d row (seals row))) := by
  induction rows generalizing known with
  | nil => trivial
  | cons row rows ih =>
    obtain ⟨first,sorted⟩ := List.pairwise_cons.mp sorted
    have made : (row.change_id,row.local_seq) ∈ M d := by
      rw [here]
      exact List.mem_map.mpr ⟨row,held row (.head _),rfl⟩
    refine ⟨⟨row.local_seq,made⟩,?_,ih sorted (fun row inside => held row (.tail _ inside)) ?_⟩
    · rintro id ⟨n,n',older,again,less⟩
      have number : n' = row.local_seq := congrArg Prod.snd (ok.unique d d _ _ again made rfl).2
      change (id,n) ∈ M d at older
      rw [here] at older
      obtain ⟨old,there,same⟩ := List.mem_map.mp older
      obtain ⟨rfl,rfl⟩ := Prod.mk.injEq _ _ _ _ ▸ same
      rw [number] at less
      rcases before row (.head _) old there less with inside | known
      · rcases List.mem_cons.mp inside with rfl | inside
        · exact absurd less (Nat.lt_irrefl _)
        · exact absurd less (Nat.lt_asymm (first old inside))
      · exact known
    · intro later inside old there less
      rcases before later (.tail _ inside) old there less with member | known
      · rcases List.mem_cons.mp member with rfl | member
        · exact .inr (Set.mem_insert _ _)
        · exact .inl member
      · exact .inr (Set.mem_insert_of_mem _ known)

/-- The pending rows are in the order of their making, and each comes after all earlier
    ones that are not acknowledged. -/
theorem pending_ready {M : Made} {d : String} (here : M d = db.made) (ok : M.Ok) {known : Set String}
    (acked : ∀ row ∈ db.sync_outbox, row.acked_seq.isSome → row.change_id ∈ known) (limit : ℕ)
    (seals : OutboxRow → Sealed) :
    Ready M known ((db.pending_outbox limit).map (fun row => encrypt_change d row (seals row))) := by
  have numbered : db.sync_outbox.Pairwise (fun a b => a.local_seq < b.local_seq) := by
    have sorted := ok.sorted d
    rw [here,made,List.pairwise_map] at sorted
    exact sorted
  have sorted := numbered.filter (fun row => row.acked_seq.isNone)
  have pending : db.pending_outbox limit = (db.sync_outbox.filter (fun row => row.acked_seq.isNone)).take limit := by
    rw [pending_outbox,(sorted.imp Nat.le_of_lt).insertionSort_eq]
  rw [pending]
  refine ready_rows here ok seals (sorted.sublist (List.take_sublist _ _))
    (fun row inside => List.mem_of_mem_filter (List.mem_of_mem_take inside)) ?_
  intro row inside old there less
  cases state : old.acked_seq with
  | some s => exact .inr (acked old there (by simp [state]))
  | none =>
    have member : old ∈ db.sync_outbox.filter (fun row => row.acked_seq.isNone) :=
      List.mem_filter.mpr ⟨there,by simp [state]⟩
    rw [← List.take_append_drop limit (db.sync_outbox.filter _)] at member sorted
    rcases List.mem_append.mp member with taken | left
    · exact .inl taken
    · exact absurd less (Nat.lt_asymm ((List.pairwise_append.mp sorted).2.2 row inside old left))

end Database

namespace World
variable {account_id : String} {w w' : World}

/-- What the devices of a world have made. -/
def made (w : World) : Made := fun d => (w.devices d).made

/-- What holds over every run. -/
structure Inv (account_id : String) (w : World) : Prop where
  numbered : w.store.WellNumbered
  ok : w.made.Ok
  below : ∀ d, ∀ a ∈ w.made d, a.2 < (w.devices d).sync_local_seq
  follows : Follows w.made (w.store.log account_id)
  acked : ∀ d, ∀ row ∈ (w.devices d).sync_outbox, ∀ s, row.acked_seq = some s →
    ∃ ev ∈ w.store.log account_id, ev.change_id = row.change_id ∧ ev.server_seq = s
  requests : ∀ request ∈ w.requests, Ready w.made (ids (w.store.log account_id)) request.events
  responses : ∀ response ∈ w.responses, ∀ result ∈ response.results, w.store.Holds account_id result

theorem inv_start (outboxes : ∀ d, (w.devices d).sync_outbox = []) (log : w.store.events = [])
    (requests : w.requests = []) (responses : w.responses = []) : Inv account_id w := by
  have empty (account : String) : w.store.log account = [] := by simp [Store.log,log]
  have unmade (d : String) : w.made d = [] := by simp [made,Database.made,outboxes]
  refine ⟨?_,⟨?_,?_⟩,?_,⟨?_,?_,?_⟩,?_,?_,?_⟩
  · intro account
    rw [empty]
    exact ⟨numbered_nil,List.nodup_nil,Nat.zero_le _⟩
  · intro d
    rw [unmade]
    exact List.Pairwise.nil
  · intro d d' a a' inside
    rw [unmade] at inside
    cases inside
  · intro d a inside
    rw [unmade] at inside
    cases inside
  · simp [empty]
  · simp [empty]
  · simp [empty]
  · simp [outboxes]
  · simp [requests]
  · simp [responses]

theorem made_set_device (d : String) (db : Database) :
    (w.set_device d db).made = Function.update w.made d db.made := by
  funext d'
  by_cases here : d' = d
  · subst here
    simp [made]
  · simp [made,devices_set_device_of_ne w here,here]

/-- A device that makes no change. -/
theorem Inv.device (inv : Inv account_id w) {d : String} {db : Database} (unmade : db.made = (w.devices d).made)
    (seq : db.sync_local_seq = (w.devices d).sync_local_seq)
    (acked : ∀ row ∈ db.sync_outbox, ∀ s, row.acked_seq = some s →
      ∃ ev ∈ w.store.log account_id, ev.change_id = row.change_id ∧ ev.server_seq = s) :
    Inv account_id (w.set_device d db) := by
  have same : (w.set_device d db).made = w.made := by
    rw [made_set_device,unmade]
    exact Function.update_eq_self d w.made
  refine ⟨inv.numbered,by rw [same]; exact inv.ok,?_,by rw [same]; exact inv.follows,?_,
    by rw [same]; exact inv.requests,inv.responses⟩
  · intro d' a inside
    rw [same] at inside
    by_cases here : d' = d
    · subst here
      simpa [seq] using inv.below d' a inside
    · simpa [devices_set_device_of_ne w here] using inv.below d' a inside
  · intro d'
    by_cases here : d' = d
    · subst here
      simpa using acked
    · simpa [devices_set_device_of_ne w here] using inv.acked d'

theorem inv_enqueue (inv : Inv account_id w) {d change_id : String} {body : ChangeBody} {db : Database}
    (fresh : ∀ d', ∀ row ∈ (w.devices d').sync_outbox, row.change_id ≠ change_id)
    (enqueued : (w.devices d).enqueue_outbox change_id body = .ok db) : Inv account_id (w.set_device d db) := by
  unfold Database.enqueue_outbox at enqueued
  split at enqueued
  · cases enqueued
  cases enqueued
  set next := (w.devices d).sync_local_seq with number
  set db : Database := { w.devices d with
    sync_local_seq := next + 1
    sync_outbox := (w.devices d).sync_outbox ++ [⟨change_id,body,next,none⟩] } with longer
  have grown : db.made = w.made d ++ [(change_id,next)] := by simp [Database.made,made,longer]
  have same : (w.set_device d db).made = Function.update w.made d (w.made d ++ [(change_id,next)]) := by
    rw [made_set_device,grown]
  have unused (d' : String) (a : String × ℕ) (inside : a ∈ w.made d') : a.1 ≠ change_id := by
    obtain ⟨row,there,rfl⟩ := List.mem_map.mp inside
    exact fresh d' row there
  have old (d' : String) : w.made d' <+: (w.set_device d db).made d' := by
    rw [same]
    by_cases here : d' = d
    · subst here
      simp
    · simp [here]
  have cases_ (d' : String) (a : String × ℕ) (inside : a ∈ (w.set_device d db).made d') :
      a ∈ w.made d' ∨ d' = d ∧ a = (change_id,next) := by
    rw [same] at inside
    by_cases here : d' = d
    · subst here
      simpa using inside
    · exact .inl (by simpa [here] using inside)
  have ok : (w.set_device d db).made.Ok := by
    refine ⟨fun d' => ?_,?_⟩
    · rw [same]
      by_cases here : d' = d
      · subst here
        simp only [Function.update_self,List.pairwise_append,List.pairwise_singleton,List.mem_singleton,
          forall_eq,true_and]
        exact ⟨inv.ok.sorted d',inv.below d'⟩
      · simpa [here] using inv.ok.sorted d'
    · intro d₁ d₂ a a' inside inside' twin
      rcases cases_ d₁ a inside with before | ⟨rfl,rfl⟩ <;> rcases cases_ d₂ a' inside' with before' | ⟨rfl,rfl⟩
      · exact inv.ok.unique d₁ d₂ a a' before before' twin
      · exact absurd twin (unused d₁ a before)
      · exact absurd twin.symm (unused d₂ a' before')
      · exact ⟨rfl,rfl⟩
  refine ⟨inv.numbered,ok,?_,inv.follows.grow ok old,?_,fun request inside => (inv.requests request inside).grow ok old,
    inv.responses⟩
  · intro d' a inside
    by_cases here : d' = d
    · subst here
      rw [devices_set_device]
      rcases cases_ d' a inside with before | ⟨-,rfl⟩
      · exact Nat.lt_succ_of_lt (inv.below d' a before)
      · exact Nat.lt_succ_self _
    · rw [same,Function.update_of_ne here] at inside
      rw [devices_set_device_of_ne w here]
      exact inv.below d' a inside
  · intro d' row inside s acked
    by_cases here : d' = d
    · subst here
      rw [devices_set_device] at inside
      rcases List.mem_append.mp inside with before | last
      · exact inv.acked d' row before s acked
      · rw [List.mem_singleton.mp last] at acked
        cases acked
    · rw [devices_set_device_of_ne w here] at inside
      exact inv.acked d' row inside s acked

/-- The server keeps the log in order while it grows. -/
theorem Inv.server (inv : Inv account_id w) {store : Store} {responses : List Response} (well : store.WellNumbered)
    (grows : w.store.log account_id <+: store.log account_id) (follows : Follows w.made (store.log account_id))
    (holds : ∀ response ∈ responses, ∀ result ∈ response.results, store.Holds account_id result) :
    Inv account_id { w with store := store, responses := responses } where
  numbered := well
  ok := inv.ok
  below := inv.below
  follows := follows
  acked d row inside s acked := by
    obtain ⟨ev,there,same⟩ := inv.acked d row inside s acked
    exact ⟨ev,grows.subset there,same⟩
  requests request inside := by
    refine (inv.requests request inside).mono ?_
    rintro id ⟨ev,there,same⟩
    exact ⟨ev,grows.subset there,same⟩
  responses := holds

theorem Inv.holds_longer (inv : Inv account_id w) {store : Store}
    (grows : w.store.log account_id <+: store.log account_id) :
    ∀ response ∈ w.responses, ∀ result ∈ response.results, store.Holds account_id result := by
  intro response inside result there
  obtain ⟨ev,found,same⟩ := inv.responses response inside result there
  exact ⟨ev,grows.subset found,same⟩

theorem inv_acknowledge (inv : Inv account_id w) {response : Response} {results : List PushResultRecord}
    (arrived : response ∈ w.responses) (part : results.Sublist response.results) :
    Inv account_id (w.set_device response.device_id
      ((w.devices response.device_id).acknowledge response.expected results).1) := by
  rcases Database.acknowledge_eq (w.devices response.device_id) response.expected results with marks | same
  · rw [marks]
    refine inv.device (Database.made_mark_all results) (Database.sync_local_seq_mark_all results) ?_
    intro row inside s acked
    rcases Database.mem_mark_all inside acked with ⟨result,there,named,number⟩ | before
    · obtain ⟨ev,found,named',number'⟩ := inv.responses response arrived result (part.subset there)
      -- the log fits the signed column, so the client keeps the number as it is
      have fits : ev.server_seq ≤ i64Max :=
        (seq_le (inv.numbered account_id).1 found).trans (inv.numbered account_id).2.2
      exact ⟨ev,found,named'.trans named,by rw [number,← number',min_eq_left fits]⟩
    · exact inv.acked _ row before s acked
  · rw [same]
    exact inv.device rfl rfl (inv.acked response.device_id)

theorem inv_step (inv : Inv account_id w) (step : Step account_id w w') : Inv account_id w' := by
  cases step with
  | enqueue fresh enqueued => exact inv_enqueue inv fresh enqueued
  | @work d db outbox seq =>
    refine inv.device (by rw [Database.made,outbox]; rfl) seq ?_
    rw [outbox]
    exact inv.acked d
  | send d seals =>
    refine ⟨inv.numbered,inv.ok,inv.below,inv.follows,inv.acked,?_,inv.responses⟩
    intro request inside
    rcases List.mem_cons.mp inside with rfl | before
    · refine Database.pending_ready rfl inv.ok ?_ BATCH seals
      intro row there acked
      obtain ⟨s,number⟩ := Option.isSome_iff_exists.mp acked
      obtain ⟨ev,found,same,-⟩ := inv.acked d row there s number
      exact ⟨ev,found,same⟩
    · exact inv.requests request before
  | @serve request outcome store sent pushed =>
    obtain ⟨well,-,holds,-,grows⟩ := Store.push_events_ok inv.numbered pushed
    refine inv.server well (grows account_id)
      (follows_push_events inv.ok inv.follows (inv.requests request sent) pushed) ?_
    intro response inside
    rcases List.mem_cons.mp inside with rfl | before
    · exact holds
    · exact inv.holds_longer (grows account_id) response before
  | other serves same =>
    obtain ⟨well,grows⟩ := serves.kept inv.numbered
    exact inv.server well (grows account_id) (same ▸ inv.follows) (inv.holds_longer (grows account_id))
  | acknowledge arrived part => exact inv_acknowledge inv arrived part

theorem inv_run (reach : Reachable account_id w) : Inv account_id w := by
  induction reach with
  | start outboxes log requests responses => exact inv_start outboxes log requests responses
  | step _ step ih => exact inv_step ih step

/-- Over every run, the log takes each change once, and only changes that its devices
    made; what a device holds for acknowledged is in the log under the number it holds;
    and the changes of a device are in the log in the order of their making. -/
theorem push_delivers (reach : Reachable account_id w) :
    ((w.store.log account_id).map fun ev => ev.change_id).Nodup ∧
    (∀ ev ∈ w.store.log account_id, ∃ row ∈ (w.devices ev.device_id).sync_outbox, row.change_id = ev.change_id) ∧
    (∀ d, ∀ row ∈ (w.devices d).sync_outbox,
      ((w.store.log account_id).map fun ev => ev.change_id).count row.change_id ≤ 1 ∧
      ∀ s, row.acked_seq = some s →
        ((w.store.log account_id).map fun ev => ev.change_id).count row.change_id = 1 ∧
        ∃ ev ∈ w.store.log account_id, ev.device_id = d ∧ ev.change_id = row.change_id ∧ ev.server_seq = s) ∧
    (w.store.log account_id).Pairwise (fun ev ev' => ev.server_seq < ev'.server_seq ∧
      ∀ row ∈ (w.devices ev.device_id).sync_outbox, ∀ row' ∈ (w.devices ev'.device_id).sync_outbox,
        row.change_id = ev.change_id → row'.change_id = ev'.change_id → ev.device_id = ev'.device_id →
        row.local_seq < row'.local_seq) := by
  have inv := inv_run reach
  have once := (inv.numbered account_id).2.1
  have made {d : String} {row : OutboxRow} (inside : row ∈ (w.devices d).sync_outbox) :
      (row.change_id,row.local_seq) ∈ w.made d := List.mem_map.mpr ⟨row,inside,rfl⟩
  refine ⟨once,?_,fun d row inside => ⟨List.nodup_iff_count_le_one.mp once _,?_⟩,?_⟩
  · intro ev inside
    obtain ⟨n,here⟩ := inv.follows.made ev inside
    obtain ⟨row,there,same⟩ := List.mem_map.mp here
    exact ⟨row,there,congrArg Prod.fst same⟩
  · intro s acked
    obtain ⟨ev,found,same,number⟩ := inv.acked d row inside s acked
    obtain ⟨n,here⟩ := inv.follows.made ev found
    have owner := (inv.ok.unique ev.device_id d _ _ here (made inside) same).1
    refine ⟨List.count_eq_one_of_mem once ?_,ev,found,owner,same,number⟩
    exact List.mem_map.mpr ⟨ev,found,same⟩
  · refine (seq_sorted (inv.numbered account_id).1).imp₂ (fun ev ev' less earlier => ⟨less,?_⟩) inv.follows.ordered
    intro row inside row' inside' same same' owner
    obtain ⟨n,n',first,second,ordered⟩ := earlier owner
    have number : n = row.local_seq :=
      congrArg Prod.snd (inv.ok.unique _ _ _ _ first (made inside) same.symm).2
    have number' : n' = row'.local_seq :=
      congrArg Prod.snd (inv.ok.unique _ _ _ _ second (made inside') same'.symm).2
    rw [← number,← number']
    exact ordered

/-- A device that has made the first of two changes, or both. -/
def busyDevice (made : ℕ) : Database where
  replica := .empty
  sync_state := ⟨some "a",some "phone",0,0,0,0,none,true⟩
  sync_outbox := [⟨"x",⟨.Tag,"t",.Delete,⟨1,0,"phone"⟩,none,∅,[]⟩,0,none⟩,
    ⟨"y",⟨.Tag,"u",.Delete,⟨2,0,"phone"⟩,none,∅,[]⟩,1,none⟩].take made
  sync_local_seq := made
  sync_applied := ∅

set_option maxRecDepth 10000 in
/-- Both changes are sent and taken, the answer is lost, they are sent again, and of the
    second answer only the first half arrives. -/
theorem push_delivers_retried : ∃ w : World, Reachable "a" w ∧
    ((w.store.log "a").map fun ev => ev.change_id) = ["x","y"] ∧
    ∃ row ∈ (w.devices "phone").sync_outbox, row.acked_seq = some 1 ∧
      ((w.store.log "a").map fun ev => ev.change_id).count row.change_id = 1 := by
  let events : List EventRecord := [⟨1,"phone","x",some "",0,[],[],[]⟩,⟨1,"phone","y",some "",0,[],[],[]⟩]
  let request : Request := ⟨"phone",["x","y"],events⟩
  let devices (made : ℕ) : String → Database := Function.update (fun _ => busyDevice 0) "phone" (busyDevice made)
  let at_ (made : ℕ) (store : Store) (requests : List Request) (responses : List Response) : World :=
    ⟨devices made,store,requests,responses⟩
  have pushes : ∃ taken, Store.push_events ⟨[],[],⟨0,0⟩⟩ "a" events = .ok taken ∧
      ∃ again, taken.2.push_events "a" events = .ok again ∧ again.1.results = [⟨"x",1,true⟩,⟨"y",2,true⟩] ∧
      (again.2.log "a").map (fun ev => ev.change_id) = ["x","y"] := by decide +kernel
  obtain ⟨⟨outcome,store⟩,taken,⟨outcome',store'⟩,again,results,ids⟩ := pushes
  have start : Reachable "a" (at_ 0 ⟨[],[],⟨0,0⟩⟩ [] []) := by
    refine .start (fun d => ?_) rfl rfl rfl
    by_cases here : d = "phone"
    · subst here; rfl
    · simp [at_,devices,here,busyDevice]
  have unused (made : ℕ) (id : String) (fresh : ∀ row ∈ (busyDevice made).sync_outbox, row.change_id ≠ id) (d : String) :
      ∀ row ∈ (devices made d).sync_outbox, row.change_id ≠ id := by
    by_cases here : d = "phone"
    · subst here
      exact fresh
    · simp [devices,here,busyDevice]
  have step_ (made made' : ℕ) : (at_ made ⟨[],[],⟨0,0⟩⟩ [] []).set_device "phone" (busyDevice made') =
      at_ made' ⟨[],[],⟨0,0⟩⟩ [] [] := by
    simp [set_device,at_,devices]
  have first : Reachable "a" (at_ 1 ⟨[],[],⟨0,0⟩⟩ [] []) :=
    step_ 0 1 ▸ start.step (.enqueue (unused 0 "x" (by simp [busyDevice])) rfl)
  have second : Reachable "a" (at_ 2 ⟨[],[],⟨0,0⟩⟩ [] []) :=
    step_ 1 2 ▸ first.step (.enqueue (unused 1 "y" (by simp [busyDevice])) rfl)
  have sent : Reachable "a" (at_ 2 ⟨[],[],⟨0,0⟩⟩ [request] []) :=
    second.step (.send "phone" (fun _ => ⟨"",0,[],[]⟩))
  have lost : Reachable "a" (at_ 2 store [request] [⟨"phone",["x","y"],outcome.results⟩]) :=
    sent.step (@Step.serve "a" (at_ 2 ⟨[],[],⟨0,0⟩⟩ [request] []) request outcome store (.head _) taken)
  have answered : Reachable "a" (at_ 2 store' [request]
      [⟨"phone",["x","y"],outcome'.results⟩,⟨"phone",["x","y"],outcome.results⟩]) :=
    lost.step (@Step.serve "a" (at_ 2 store [request] _) request outcome' store' (.head _) again)
  have half : [⟨"x",1,true⟩].Sublist outcome'.results := by
    rw [show outcome'.results = [⟨"x",1,true⟩,⟨"y",2,true⟩] from results]
    exact List.sublist_append_left [_] [_]
  have reach := answered.step (.acknowledge (.head _) half)
  obtain ⟨-,-,held,-⟩ := push_delivers reach
  have marked : ⟨"x",⟨.Tag,"t",.Delete,⟨1,0,"phone"⟩,none,∅,[]⟩,0,some 1⟩ ∈
      ((busyDevice 2).acknowledge ["x","y"] [⟨"x",1,true⟩]).1.sync_outbox := by
    simp [Database.acknowledge,Database.mark_outbox_acked,busyDevice,i64Max]
  exact ⟨_,reach,ids,_,marked,rfl,((held "phone" _ marked).2 1 rfl).1⟩

end World
end Pergamon
