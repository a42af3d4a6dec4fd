import Pergamon.Apply

/-!
The database of a device and the emission of local changes: a local mutation
ticks the clock, writes its canonical rows, stamps its fields, leaves its edge or
tombstone state and enqueues its body in the outbox, all in one transaction.

The outbox keeps the body itself where the source keeps its JSON bytes. The
random change id is an argument.
-/
namespace Pergamon

/-- A number as a signed column keeps it. -/
def clampSigned (n : Nat) : Nat := min n (2 ^ 63 - 1)

/-- The single-row state of the sync engine. -/
structure SyncState where
  account_id : Option String
  device_id : Option String
  key_epoch : UInt32
  cursor_seq : Nat
  hlc_wall_millis : UInt64
  hlc_counter : UInt32
  server_url : Option String
  baseline_done : Bool

/-- An outbox row; it is pending until the server has acknowledged it. -/
structure OutboxRow where
  change_id : String
  body : ChangeBody
  local_seq : Nat
  acked_seq : Option Nat

/-- The database of one device. `sync_applied` maps the pulled change ids that are
    already applied to their server sequences. -/
structure Database where
  replica : Replica
  sync_state : SyncState
  sync_outbox : List OutboxRow
  sync_local_seq : Nat
  sync_applied : Std.ExtTreeMap String Nat

namespace Replica

section
variable [Sqlite]

/-- Write a local mutation's canonical rows. -/
def apply_local_canonical (r : Replica) (entity_type : EntityType) (entity_id : String) (op : Op)
    (fields : FieldMap) : Except StorageError Replica :=
  match entity_type with
  | .TagEdge | .CollectionEdge =>
    r.apply_edge_membership entity_type entity_id (((fields["present"]?).bind Value.as_bool).getD true)
  | _ => r.write_entity_fields entity_type entity_id fields op

end

/-- The clock of the first conflict-copy field being written, if any. -/
def base_version_for (r : Replica) (entity_type : EntityType) (entity_id : String) (fields : FieldMap) :
    Option Hlc :=
  match fields.toList.find? (fun field => decide (Prose entity_type field.1)) with
  | some (field,_) => r.entity_clock entity_type entity_id field
  | none => none

/-- The greater of two clocks, the later one on a tie. -/
def later_clock (latest : Option Hlc) (clock : Option Hlc) : Option Hlc :=
  match clock,latest with
  | some clock,some current => if current ≥ clock then some current else some clock
  | some clock,none => some clock
  | none,latest => latest

/-- The authored-prose version a delete observed. -/
def observed_prose_version (r : Replica) (entity_type : EntityType) (entity_id : String) : Option Hlc :=
  match r.read_entity_fields entity_type entity_id with
  | some fields => fields.toList.foldl (fun latest field =>
      if Prose entity_type field.1 then later_clock latest (r.entity_clock entity_type entity_id field.1)
      else latest) none
  | none => none

/-- Stamp the fields of a local change and leave its edge state. -/
def stamp_fields (r : Replica) (entity_type : EntityType) (entity_id : String) (fields : FieldMap)
    (clock : Hlc) : Replica :=
  let r := fields.toList.foldl (fun r field => r.set_entity_clock entity_type entity_id field.1 clock) r
  if entity_type = .TagEdge ∨ entity_type = .CollectionEdge then
    let is_add := ((fields["present"]?).bind Value.as_bool).getD true
    r.save_set_edge entity_type entity_id
      (merge_set_member (r.set_edge entity_type entity_id) is_add clock).member
  else r

section
variable [Sqlite]

/-- What a local change with the given stamp does to the replica: the version it
    observed, and the state it leaves. -/
def emit_local (r : Replica) (entity_type : EntityType) (entity_id : String) (op : Op) (fields : FieldMap)
    (clock : Hlc) : Except StorageError (Option Hlc × Replica) := do
  let base_version :=
    if op = .Delete then r.observed_prose_version entity_type entity_id
    else r.base_version_for entity_type entity_id fields
  let r ← r.apply_local_canonical entity_type entity_id op fields
  if op = .Delete then .ok (base_version,r.set_tombstone entity_type entity_id clock)
  else .ok (base_version,r.stamp_fields entity_type entity_id fields clock)

end
end Replica

namespace Database

/-- The local clock. -/
def sync_hlc (db : Database) : Hlc :=
  ⟨db.sync_state.hlc_wall_millis,db.sync_state.hlc_counter,db.sync_state.device_id.getD ""⟩

/-- Persist the local clock's causal component. -/
def set_sync_hlc (db : Database) (clock : Hlc) : Database :=
  { db with sync_state :=
      { db.sync_state with hlc_wall_millis := clock.stored.wall_millis, hlc_counter := clock.counter } }

def tick_local_hlc (db : Database) (now_millis : UInt64) : Hlc × Database :=
  let next := db.sync_hlc.tick now_millis
  (next,db.set_sync_hlc next)

def observe_remote_hlc (db : Database) (remote : Hlc) (now_millis : UInt64) : Database :=
  db.set_sync_hlc (db.sync_hlc.observe remote now_millis)

/-- Enqueue an outbox row. The change id is the primary key. -/
def enqueue_outbox (db : Database) (change_id : String) (body : ChangeBody) : Except StorageError Database :=
  if db.sync_outbox.any (fun row => row.change_id = change_id) then .error .Sqlite
  else .ok { db with
    sync_local_seq := db.sync_local_seq + 1
    sync_outbox := db.sync_outbox ++ [⟨change_id,body,db.sync_local_seq,none⟩] }

section
variable [Sqlite]

/-- Emit a local mutation. Without a device identity only the canonical write
    happens and nothing is enqueued. -/
def emit_change (db : Database) (change_id : String) (entity_type : EntityType) (entity_id : String) (op : Op)
    (fields : FieldMap) (blob_manifest : List BlobManifestEntry) (now_millis : UInt64) :
    Except StorageError (Option String × Database) :=
  match db.sync_state.device_id with
  | none => do
    let replica ← db.replica.apply_local_canonical entity_type entity_id op fields
    .ok (none,{ db with replica := replica })
  | some _ => do
    let (clock,db) := db.tick_local_hlc now_millis
    let (base_version,replica) ← db.replica.emit_local entity_type entity_id op fields clock
    let db ← { db with replica := replica }.enqueue_outbox change_id
      ⟨entity_type,entity_id,op,clock,base_version,fields,blob_manifest⟩
    .ok (some change_id,db)

end
end Database
end Pergamon
