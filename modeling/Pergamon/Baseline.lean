import Pergamon.Emit
import Pergamon.ParentFirst

/-!
The baseline of a library: once sync is enabled, every row that the library already has is
enqueued as an upsert of all its fields, table after table, so that a peer that applies the
changes in their order finds what each of them refers to.

The order in which a table is listed depends on times and names that sync does not carry,
and on how the rows are stored; it is an argument (`Listing`). Each listing parses the rows
it reads. A parser that panics is an error here: either way the transaction leaves nothing.
-/
namespace Pergamon
open Fallible

/-- The parsing of ids and times. An id is written back in its canonical text, which parses
    to itself and is made of hexadecimal digits and hyphens. -/
class Formats where
  parse_uuid : String → Option String
  is_time : String → Bool
  canonical : ∀ s id, parse_uuid s = some id → parse_uuid id = some id
  plain : ∀ s id, parse_uuid s = some id → ':' ∉ id.toList

/-! ### Reading rows -/

section
variable [Formats]

def parse_uuid (s : String) : Except StorageError String :=
  match Formats.parse_uuid s with
  | some id => .ok id
  | none => .error (.Generic ("invalid UUID in database: " ++ s))

def parse_time (s : String) : Except StorageError Unit :=
  if Formats.is_time s then .ok () else .error (.Generic ("invalid timestamp in database: " ++ s))

/-- `get::<_, Option<String>>` on a text column. -/
def get_optional_text : SqlValue → Option String
  | .Text s => some s
  | _ => none

/-- `get::<_, String>(…).unwrap_or_default()`. -/
def get_text (v : SqlValue) : String := (get_optional_text v).getD ""

def parse_optional_uuid (v : SqlValue) : Except StorageError (Option String) :=
  match get_optional_text v with
  | some s => do
    let id ← parse_uuid s
    .ok (some id)
  | none => .ok none

def parse_optional_time (v : SqlValue) : Except StorageError Unit :=
  match get_optional_text v with
  | some s => parse_time s
  | none => .ok ()

/-- `get::<_, i32>`. -/
def get_i32 : SqlValue → Except StorageError Int
  | .Integer i => if -(2 ^ 31) ≤ i ∧ i < 2 ^ 31 then .ok i else .error .Sqlite
  | _ => .error .Sqlite

/-- `get::<_, Option<i64>>`. -/
def get_optional_i64 : SqlValue → Except StorageError (Option Int)
  | .Null => .ok none
  | .Integer i => .ok (some i)
  | _ => .error .Sqlite

structure Collection where
  id : String
  parent_id : Option String

structure ContentItem where
  id : String
  is_highlight : Bool

def row_to_feed (id : String) (row : Row) : Except StorageError String := do
  let id ← parse_uuid id
  let _ ← parse_optional_uuid (row "folder_id")
  .ok id

def row_to_tag (id : String) (_ : Row) : Except StorageError String := parse_uuid id

def row_to_collection (id : String) (row : Row) : Except StorageError Collection := do
  let id ← parse_uuid id
  let parent_id ← parse_optional_uuid (row "parent_id")
  let _ ← get_i32 (row "sort_order")
  .ok ⟨id,parent_id⟩

def row_to_content_item (id : String) (row : Row) : Except StorageError ContentItem := do
  let id ← parse_uuid id
  parse_optional_time (row "published_at")
  parse_optional_time (row "read_at")
  .ok ⟨id,decide (get_text (row "content_type") = "highlight")⟩

def row_to_highlight_meta (id : String) (row : Row) : Except StorageError String := do
  let id ← parse_uuid id
  let _ ← parse_optional_uuid (row "source_item_id")
  let _ ← get_optional_i64 (row "position_start")
  let _ ← get_optional_i64 (row "position_end")
  .ok id

def row_to_note (id : String) (row : Row) : Except StorageError String := do
  let id ← parse_uuid id
  let _ ← parse_uuid (get_text (row "content_item_id"))
  .ok id

def row_to_review_card (id : String) (row : Row) : Except StorageError String := do
  let id ← parse_uuid id
  let _ ← parse_uuid (get_text (row "content_item_id"))
  parse_time (get_text (row "due_at"))
  parse_optional_time (row "last_reviewed_at")
  .ok id

def row_to_review_log (id : String) (row : Row) : Except StorageError String := do
  let id ← parse_uuid id
  let _ ← parse_uuid (get_text (row "card_id"))
  parse_time (get_text (row "reviewed_at"))
  .ok id

def row_to_edge (ends : String × String) : Except StorageError (String × String) := do
  let left ← parse_uuid ends.1
  let right ← parse_uuid ends.2
  .ok (left,right)

end

/-! ### Listing tables -/

/-- The order in which the rows of each table and the memberships are listed. -/
structure Listing where
  rows : TableName → List String
  tags : List (String × String)
  collections : List (String × String)

/-- The listing names what is there, and all of it once. -/
structure Listing.Lists (listing : Listing) (r : Replica) : Prop where
  rows : ∀ t, (listing.rows t).Nodup ∧ ∀ id, id ∈ listing.rows t ↔ (r.row t id).isSome
  tags : listing.tags.Nodup ∧ ∀ ends, ends ∈ listing.tags ↔ ends ∈ r.content_item_tags
  collections : listing.collections.Nodup ∧ ∀ ends, ends ∈ listing.collections ↔ ends ∈ r.content_item_collections

/-- The rows of a table, in order, as they are read. -/
def Listing.list (listing : Listing) (r : Replica) (t : TableName) (read : String → Row → Except StorageError α) :
    Except StorageError (List α) :=
  ((listing.rows t).filterMap (fun id => (r.row t id).map (fun row => (id,row)))).mapM (fun entry => read entry.1 entry.2)

/-- The collections, each one after its parent. -/
def order_collections_parent_first (collections : List Collection) : List String :=
  ParentFirst.orderOf (collections.map (fun c => (c.id,c.parent_id)))

/-- The order comes to be after finitely many rounds and holds each collection once. A collection
    comes after its parent unless a cycle of parents is at or above it, and these come last. -/
theorem order_collections (collections : List Collection) (distinct : (collections.map Collection.id).Nodup) :
    let nodes := collections.map (fun c => (c.id,c.parent_id))
    (∃ placed, ParentFirst.Ends nodes [] placed ∧
      order_collections_parent_first collections =
        placed ++ (collections.map Collection.id).filter (fun id => decide (id ∉ placed))) ∧
    (order_collections_parent_first collections).Perm (collections.map Collection.id) ∧
    (∀ a b, ParentFirst.Above nodes a b → ¬ ParentFirst.Circular nodes a →
      [b,a].Sublist (order_collections_parent_first collections)) ∧
    ∃ first last, order_collections_parent_first collections = first ++ last ∧
      (∀ id ∈ first, ¬ ParentFirst.Circular nodes id) ∧ ∀ id ∈ last, ParentFirst.Circular nodes id := by
  intro nodes
  have ids : nodes.map Prod.fst = collections.map Collection.id := by simp [nodes]
  rw [← ids] at distinct ⊢
  refine ⟨⟨_,ParentFirst.ends_placed nodes,rfl⟩,ParentFirst.perm_orderOf distinct,?_,ParentFirst.orderOf_split distinct⟩
  exact fun a b above free => ParentFirst.orderOf_after distinct above free

/-- A collection under another one that is given later, and two that are each other's parent. -/
theorem order_collections_later :
    [("b" : String),"a"].Sublist (order_collections_parent_first [⟨"a",some "b"⟩,⟨"c",some "d"⟩,⟨"d",some "c"⟩,⟨"b",some "x"⟩]) := by
  refine (order_collections _ (by decide)).2.2.1 "a" "b" ⟨by decide,by decide⟩ ?_
  intro circular
  obtain ⟨b,⟨node,-⟩,around⟩ := circular.step
  obtain rfl : b = "b" := by simpa using node
  obtain ⟨c,⟨node,inside⟩,-⟩ := around.step
  obtain rfl : c = "x" := by simpa using node
  exact absurd inside (by decide)

namespace Database

section
variable [Formats] (listing : Listing) (new_id : Nat → String) (now_millis : UInt64)

/-- Enqueue an entity as it is, with its fields stamped. An entity that does not exist is
    left out. -/
def baseline_upsert (db : Database) (entity_type : EntityType) (entity_id : String) :
    Except StorageError (Nat × Database) :=
  match db.replica.read_entity_fields entity_type entity_id with
  | none => .ok (0,db)
  | some fields => do
    let (clock,db) := db.tick_local_hlc now_millis
    let replica := fields.toList.foldl (fun r field => r.set_entity_clock entity_type entity_id field.1 clock) db.replica
    let db ← { db with replica := replica }.enqueue_outbox (new_id db.sync_local_seq)
      ⟨entity_type,entity_id,.Upsert,clock,none,fields,[]⟩
    .ok (1,db)

/-- Enqueue a membership. -/
def baseline_edge (db : Database) (entity_type : EntityType) (left right : String) :
    Except StorageError (Nat × Database) := do
  let edge_id := left ++ ":" ++ right
  let (clock,db) := db.tick_local_hlc now_millis
  let outcome := merge_set_member (db.replica.set_edge entity_type edge_id) true clock
  let replica := db.replica.save_set_edge entity_type edge_id outcome.member
  let db ← { db with replica := replica }.enqueue_outbox (new_id db.sync_local_seq)
    ⟨entity_type,edge_id,.Upsert,clock,none,(∅ : FieldMap).insert "present" (.Boolean true),[]⟩
  .ok (1,db)

/-- Enqueue what a list names, counting what is enqueued. -/
def baseline_each (enqueue : Database → α → Except StorageError (Nat × Database)) (entries : List α)
    (acc : Nat × Database) : Except StorageError (Nat × Database) :=
  entries.foldlM (fun acc entry => do
    let (n,db) ← enqueue acc.2 entry
    .ok (acc.1 + n,db)) acc

def baseline_upserts (entity_type : EntityType) (ids : List String) (acc : Nat × Database) :
    Except StorageError (Nat × Database) :=
  baseline_each (fun db id => db.baseline_upsert new_id now_millis entity_type id) ids acc

def baseline_edges (entity_type : EntityType) (edges : List (String × String)) (acc : Nat × Database) :
    Except StorageError (Nat × Database) :=
  baseline_each (fun db ends => db.baseline_edge new_id now_millis entity_type ends.1 ends.2) edges acc

def set_baseline_done (db : Database) : Database :=
  { db with sync_state := { db.sync_state with baseline_done := true } }

/-- Enqueue the whole library, once. The ids that the outbox rows draw are an argument, by
    the number of the row. -/
def enqueue_sync_baseline (db : Database) : Except StorageError (Nat × Database) :=
  match db.sync_state.device_id with
  | none => .error (.Generic "cannot enqueue sync baseline before sync is enabled (no device identity)")
  | some _ =>
    if db.sync_state.baseline_done then .ok (0,db)
    else do
      let feeds ← listing.list db.replica .feeds row_to_feed
      let acc ← baseline_upserts new_id now_millis .FeedSubscription feeds (0,db)
      let tags ← listing.list acc.2.replica .tags row_to_tag
      let acc ← baseline_upserts new_id now_millis .Tag tags acc
      let collections ← listing.list acc.2.replica .collections row_to_collection
      let acc ← baseline_upserts new_id now_millis .Collection (order_collections_parent_first collections) acc
      let items ← listing.list acc.2.replica .content_items row_to_content_item
      let documents := (items.filter (fun item => !item.is_highlight)).map ContentItem.id
      let acc ← baseline_upserts new_id now_millis .Document documents acc
      let highlights ← listing.list acc.2.replica .highlight_meta row_to_highlight_meta
      let acc ← baseline_upserts new_id now_millis .Highlight highlights acc
      let notes ← listing.list acc.2.replica .notes row_to_note
      let acc ← baseline_upserts new_id now_millis .Note notes acc
      let cards ← listing.list acc.2.replica .review_cards row_to_review_card
      let acc ← baseline_upserts new_id now_millis .ReviewCard cards acc
      let logs ← listing.list acc.2.replica .review_logs row_to_review_log
      let acc ← baseline_upserts new_id now_millis .ReviewLog logs acc
      let tagged ← listing.tags.mapM row_to_edge
      let acc ← baseline_edges new_id now_millis .TagEdge tagged acc
      let collected ← listing.collections.mapM row_to_edge
      let acc ← baseline_edges new_id now_millis .CollectionEdge collected acc
      let acc ← baseline_upserts new_id now_millis .Settings (listing.rows .settings) acc
      .ok (acc.1,acc.2.set_baseline_done)

end
end Database
end Pergamon
