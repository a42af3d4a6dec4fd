import Mathlib.Data.Finset.Prod
import Pergamon.Fallible
import Pergamon.Merge
import Pergamon.Schema

/-!
The state that a library and its sync bookkeeping have in the database, and the
SQL statements that sync runs on it: inserts, updates and deletes with the
constraints of the schema and the actions of its foreign keys, the per-field
clocks, the set edges, the tombstones and the conflict inbox.

A statement that breaks a constraint fails, and the transaction around it is
rolled back; so a statement is a function to `Except StorageError`.
-/
namespace Pergamon
open Fallible

inductive StorageError where
  | Sqlite
  | NotFound (entity id : String)
  | Generic (message : String)
  | Constraint (message : String)
  | Serialization (message : String)
  deriving DecidableEq

/-- A row, column by column; the primary key is not part of it. -/
abbrev Row := String → SqlValue

/-- A conflict-inbox entry. Its random id, its time and whether it was dismissed
    are left out. -/
structure ConflictRow where
  entity_type : EntityType
  entity_id : String
  field : String
  loser_value : Value
  loser_clock : Hlc
  deriving DecidableEq

/-- The canonical tables, the membership tables and the merge bookkeeping of one
    device. `now` is the time that column defaults read. -/
structure Replica where
  tables : TableName → Std.ExtTreeMap String Row
  content_item_tags : Finset (String × String)
  content_item_collections : Finset (String × String)
  sync_entity_clock : EntityType → String → String → Option Hlc
  sync_set_edge : EntityType → String → SetMember
  sync_tombstones : EntityType → String → Option Hlc
  sync_conflicts : List ConflictRow
  now : String

namespace Replica

/-- The empty database. -/
def empty : Replica where
  tables := fun _ => ∅
  content_item_tags := ∅
  content_item_collections := ∅
  sync_entity_clock := fun _ _ _ => none
  sync_set_edge := fun _ _ => ⟨none,none⟩
  sync_tombstones := fun _ _ => none
  sync_conflicts := []
  now := ""

/-! ### Clocks, edges, tombstones and conflicts -/

def entity_clock (r : Replica) (entity_type : EntityType) (entity_id field : String) : Option Hlc :=
  r.sync_entity_clock entity_type entity_id field

def set_entity_clock (r : Replica) (entity_type : EntityType) (entity_id field : String) (clock : Hlc) :
    Replica :=
  { r with sync_entity_clock := fun ty id f =>
      if ty = entity_type ∧ id = entity_id ∧ f = field then some clock.stored else r.sync_entity_clock ty id f }

def set_edge (r : Replica) (entity_type : EntityType) (entity_id : String) : SetMember :=
  r.sync_set_edge entity_type entity_id

def save_set_edge (r : Replica) (entity_type : EntityType) (entity_id : String) (member : SetMember) :
    Replica :=
  { r with sync_set_edge := fun ty id =>
      if ty = entity_type ∧ id = entity_id then
        ⟨member.add_clock.map Hlc.stored,member.remove_clock.map Hlc.stored⟩
      else r.sync_set_edge ty id }

def tombstone (r : Replica) (entity_type : EntityType) (entity_id : String) : Option Hlc :=
  r.sync_tombstones entity_type entity_id

def set_tombstone (r : Replica) (entity_type : EntityType) (entity_id : String) (clock : Hlc) : Replica :=
  { r with sync_tombstones := fun ty id =>
      if ty = entity_type ∧ id = entity_id then some clock.stored else r.sync_tombstones ty id }

def insert_conflict (r : Replica) (entity_type : EntityType) (entity_id field : String) (loser_value : Value)
    (loser_clock : Hlc) : Replica :=
  { r with sync_conflicts := r.sync_conflicts ++ [⟨entity_type,entity_id,field,loser_value,loser_clock.stored⟩] }

section
variable (r : Replica) (ty ty' : EntityType) (id id' f f' : String) (c : Hlc) (v : Value) (m : SetMember)

theorem entity_clock_set : (r.set_entity_clock ty id f c).entity_clock ty' id' f' =
    if ty' = ty ∧ id' = id ∧ f' = f then some c.stored else r.entity_clock ty' id' f' := rfl

@[simp] theorem entity_clock_set_self : (r.set_entity_clock ty id f c).entity_clock ty id f = some c.stored := by
  simp [entity_clock_set]

theorem tombstone_set : (r.set_tombstone ty id c).tombstone ty' id' =
    if ty' = ty ∧ id' = id then some c.stored else r.tombstone ty' id' := rfl

theorem set_edge_save : (r.save_set_edge ty id m).set_edge ty' id' =
    if ty' = ty ∧ id' = id then ⟨m.add_clock.map Hlc.stored,m.remove_clock.map Hlc.stored⟩ else r.set_edge ty' id' := rfl

@[simp] theorem tombstone_set_self : (r.set_tombstone ty id c).tombstone ty id = some c.stored := by
  simp [tombstone_set]

@[simp] theorem tables_set_entity_clock : (r.set_entity_clock ty id f c).tables = r.tables := rfl
@[simp] theorem tombstone_set_entity_clock :
    (r.set_entity_clock ty id f c).tombstone ty' id' = r.tombstone ty' id' := rfl
@[simp] theorem conflicts_set_entity_clock : (r.set_entity_clock ty id f c).sync_conflicts = r.sync_conflicts := rfl
@[simp] theorem now_set_entity_clock : (r.set_entity_clock ty id f c).now = r.now := rfl

@[simp] theorem tables_set_tombstone : (r.set_tombstone ty id c).tables = r.tables := rfl
@[simp] theorem entity_clock_set_tombstone :
    (r.set_tombstone ty id c).entity_clock ty' id' f = r.entity_clock ty' id' f := rfl
@[simp] theorem conflicts_set_tombstone : (r.set_tombstone ty id c).sync_conflicts = r.sync_conflicts := rfl
@[simp] theorem now_set_tombstone : (r.set_tombstone ty id c).now = r.now := rfl

@[simp] theorem tables_insert_conflict : (r.insert_conflict ty id f v c).tables = r.tables := rfl
@[simp] theorem entity_clock_insert_conflict :
    (r.insert_conflict ty id f v c).entity_clock ty' id' f' = r.entity_clock ty' id' f' := rfl
@[simp] theorem tombstone_insert_conflict :
    (r.insert_conflict ty id f v c).tombstone ty' id' = r.tombstone ty' id' := rfl
@[simp] theorem now_insert_conflict : (r.insert_conflict ty id f v c).now = r.now := rfl

end

/-! ### Rows -/

def row (r : Replica) (t : TableName) (id : String) : Option Row := (r.tables t)[id]?

def set_row (r : Replica) (t : TableName) (id : String) (row : Row) : Replica :=
  { r with tables := Function.update r.tables t ((r.tables t).insert id row) }

section
variable (r : Replica) (t t' : TableName) (id id' : String) (new : Row)

theorem row_set_row : (r.set_row t id new).row t' id' =
    if t' = t ∧ id' = id then some new else r.row t' id' := by
  unfold row set_row
  by_cases here : t' = t
  · subst here
    simp [Std.ExtTreeMap.getElem?_insert,eq_comm (a := id)]
  · simp [here]

@[simp] theorem row_set_row_self : (r.set_row t id new).row t id = some new := by simp [row_set_row]

/-- Writing a row back changes nothing. -/
theorem set_row_same {old : Row} (held : r.row t id = some old) : r.set_row t id old = r := by
  have same : (r.tables t).insert id old = r.tables t := by
    ext key found
    rw [Std.ExtTreeMap.getElem?_insert]
    split
    · next here => rw [← compare_eq_iff_eq.mp here]; exact held ▸ Iff.rfl
    · rfl
  simp [set_row,same]

@[simp] theorem row_set_entity_clock (ty : EntityType) (f : String) (c : Hlc) :
    (r.set_entity_clock ty id' f c).row t id = r.row t id := rfl
@[simp] theorem row_set_tombstone (ty : EntityType) (c : Hlc) :
    (r.set_tombstone ty id' c).row t id = r.row t id := rfl
@[simp] theorem row_insert_conflict (ty : EntityType) (f : String) (v : Value) (c : Hlc) :
    (r.insert_conflict ty id' f v c).row t id = r.row t id := rfl
@[simp] theorem entity_clock_set_row (ty : EntityType) (f : String) :
    (r.set_row t id new).entity_clock ty id' f = r.entity_clock ty id' f := rfl
@[simp] theorem tombstone_set_row (ty : EntityType) : (r.set_row t id new).tombstone ty id' = r.tombstone ty id' :=
  rfl
@[simp] theorem conflicts_set_row : (r.set_row t id new).sync_conflicts = r.sync_conflicts := rfl
@[simp] theorem now_set_row : (r.set_row t id new).now = r.now := rfl

end

/-- No other row of the table holds the value in the column, where the column is unique. -/
def unique_free (r : Replica) (t : TableName) (id : String) (c : Column) (v : SqlValue) : Bool :=
  (r.tables t).toList.all (fun other => decide (other.1 = id) || !same_key c.unique (other.2 c.name) v)

/-- The row that the column refers to exists. -/
def reference_ok (r : Replica) (c : Column) (v : SqlValue) : Bool :=
  match c.references,v with
  | some parent,.Text id => (r.row parent id).isSome
  | _,_ => true

section
variable [Sqlite]

/-- The row that an insert stores: the given values, converted, and the defaults. -/
def new_row (now : String) (t : TableName) (given : String → Option SqlValue) : Row := fun name =>
  match (columns t).find? (fun c => c.name = name) with
  | none => .Null
  | some c =>
    match given name with
    | some v => coerce c.affinity v
    | none =>
      match c.default with
      | .value v => v
      | .now => .Text now

/-- The row after an update of some of its columns. -/
def assign (t : TableName) (fields : FieldMap) (row : Row) : Row := fun name =>
  match fields[name]? with
  | some v => coerce (affinity_of t name) (json_to_sql v)
  | none => row name

/-- NOT NULL and CHECK on every column of a row to be inserted. -/
def row_admitted (t : TableName) (row : Row) : Bool := (columns t).all (fun c => admits c (row c.name))

/-- No value of the row is taken by another row in a unique column. -/
def row_unique (r : Replica) (t : TableName) (id : String) (row : Row) : Bool :=
  (columns t).all (fun c => r.unique_free t id c (row c.name))

/-- Every row that the row refers to exists. -/
def row_references (r : Replica) (t : TableName) (row : Row) : Bool :=
  (columns t).all (fun c => r.reference_ok c (row c.name))

/-- Store a row under a key that has none yet. A foreign key is checked once the
    row is in place, so a row may refer to itself. -/
def insert_new (r : Replica) (t : TableName) (id : String) (row : Row) : Except StorageError Replica :=
  if r.row_unique t id row then
    let r' := r.set_row t id row
    if r'.row_references t row then .ok r' else .error .Sqlite
  else .error .Sqlite

/-- `INSERT … ON CONFLICT(id) DO NOTHING`. NOT NULL and CHECK are checked on the
    candidate row even where the key is taken. -/
def insert_or_nothing (r : Replica) (t : TableName) (id : String) (row : Row) : Except StorageError Replica :=
  if row_admitted t row then
    if (r.row t id).isSome then .ok r else r.insert_new t id row
  else .error .Sqlite

/-- `INSERT OR IGNORE`: only a broken foreign key fails. -/
def insert_or_ignore (r : Replica) (t : TableName) (id : String) (row : Row) : Except StorageError Replica :=
  if row_admitted t row ∧ (r.row t id).isNone ∧ r.row_unique t id row then r.insert_new t id row else .ok r

/-- `UPDATE … SET` the given columns of an existing row; only these are checked. -/
def update_row (r : Replica) (t : TableName) (id : String) (row : Row) (fields : FieldMap) :
    Except StorageError Replica :=
  let row' := assign t fields row
  let touched := (columns t).filter (fun c => fields.contains c.name)
  if touched.all (fun c => admits c (row' c.name) && r.unique_free t id c (row' c.name)) then
    let r' := r.set_row t id row'
    if touched.all (fun c => r'.reference_ok c (row' c.name)) then .ok r' else .error .Sqlite
  else .error .Sqlite

omit [Sqlite] in
theorem insert_new_ok {r r' : Replica} {t : TableName} {id : String} {new : Row} :
    r.insert_new t id new = .ok r' ↔
      r.row_unique t id new ∧ (r.set_row t id new).row_references t new ∧ r' = r.set_row t id new := by
  simp only [insert_new,if_ok,Except.ok.injEq]
  rw [eq_comm (a := r')]

theorem insert_or_nothing_ok {r r' : Replica} {t : TableName} {id : String} {new : Row} :
    r.insert_or_nothing t id new = .ok r' ↔ row_admitted t new ∧
      if (r.row t id).isSome then r' = r else r.insert_new t id new = .ok r' := by
  unfold insert_or_nothing
  rw [if_ok]
  split
  · rw [Except.ok.injEq,eq_comm (a := r)]
  · rfl

theorem update_row_ok {r r' : Replica} {t : TableName} {id : String} {old : Row} {fields : FieldMap} :
    r.update_row t id old fields = .ok r' ↔
      (∀ c ∈ columns t, c.name ∈ fields →
        admits c (assign t fields old c.name) ∧ r.unique_free t id c (assign t fields old c.name) ∧
        (r.set_row t id (assign t fields old)).reference_ok c (assign t fields old c.name)) ∧
      r' = r.set_row t id (assign t fields old) := by
  simp only [update_row,if_ok,Except.ok.injEq,List.all_eq_true,List.mem_filter,Bool.and_eq_true,
    Std.ExtTreeMap.contains_iff_mem,and_imp]
  constructor
  · rintro ⟨checks,refers,rfl⟩
    exact ⟨fun c here given => ⟨(checks c here given).1,(checks c here given).2,refers c here given⟩,rfl⟩
  · rintro ⟨checks,rfl⟩
    exact ⟨fun c here given => ⟨(checks c here given).1,(checks c here given).2.1⟩,
      fun c here given => (checks c here given).2.2,rfl⟩

end

/-! ### Deletes -/

/-- `ON DELETE SET NULL` on a column that refers to a deleted row. -/
def clear_reference (name id : String) (row : Row) : Row := fun c =>
  if c = name ∧ row name = .Text id then .Null else row c

/-- The card that a log belongs to hangs on the given content item. -/
def log_of_item (r : Replica) (id : String) (log : Row) : Bool :=
  match log "card_id" with
  | .Text card =>
    match r.row .review_cards card with
    | some c => decide (c "content_item_id" = .Text id)
    | none => false
  | _ => false

/-- The tables once the row of a table is deleted and the deletes that cascade
    from it are done. -/
def tables_without (r : Replica) (t : TableName) (id : String) :
    TableName → Std.ExtTreeMap String Row :=
  match t with
  | .content_items => fun
    | .content_items => (r.tables .content_items).erase id
    | .notes => (r.tables .notes).filter (fun _ row => decide (row "content_item_id" ≠ .Text id))
    | .highlight_meta =>
      ((r.tables .highlight_meta).erase id).map (fun _ row => clear_reference "source_item_id" id row)
    | .review_cards => (r.tables .review_cards).filter (fun _ row => decide (row "content_item_id" ≠ .Text id))
    | .review_logs => (r.tables .review_logs).filter (fun _ row => !r.log_of_item id row)
    | other => r.tables other
  | .collections => fun
    | .collections =>
      ((r.tables .collections).erase id).map (fun _ row => clear_reference "parent_id" id row)
    | other => r.tables other
  | .feed_folders => fun
    | .feed_folders => (r.tables .feed_folders).erase id
    | .feeds => (r.tables .feeds).map (fun _ row => clear_reference "folder_id" id row)
    | other => r.tables other
  | .review_cards => fun
    | .review_cards => (r.tables .review_cards).erase id
    | .review_logs => (r.tables .review_logs).filter (fun _ row => decide (row "card_id" ≠ .Text id))
    | other => r.tables other
  | t => Function.update r.tables t ((r.tables t).erase id)

/-- `DELETE FROM … WHERE id = …`, with the cascades to the membership tables. -/
def delete_row (r : Replica) (t : TableName) (id : String) : Replica :=
  if (r.row t id).isNone then r
  else
    { r with
      tables := r.tables_without t id
      content_item_tags :=
        match t with
        | .content_items => r.content_item_tags.filter (fun edge => edge.1 ≠ id)
        | .tags => r.content_item_tags.filter (fun edge => edge.2 ≠ id)
        | _ => r.content_item_tags
      content_item_collections :=
        match t with
        | .content_items => r.content_item_collections.filter (fun edge => edge.1 ≠ id)
        | .collections => r.content_item_collections.filter (fun edge => edge.2 ≠ id)
        | _ => r.content_item_collections }

theorem row_delete_self (r : Replica) (t : TableName) (id : String) : (r.delete_row t id).row t id = none := by
  unfold delete_row
  split
  · next missing => simpa using missing
  · cases t <;> simp [row,tables_without]

/-- A delete brings no row back. -/
theorem row_delete_none {r : Replica} {t' : TableName} {id' : String} (missing : r.row t' id' = none)
    (t : TableName) (id : String) : (r.delete_row t id).row t' id' = none := by
  unfold row at missing
  unfold delete_row
  split
  · exact missing
  · cases t <;> cases t' <;>
      simp [row,tables_without,missing,Std.ExtTreeMap.getElem?_map,Std.ExtTreeMap.getElem?_filter,
        Std.ExtTreeMap.getElem?_erase]

theorem clear_reference_apart {name id : String} {row : Row} (unrelated : row name ≠ .Text id) :
    clear_reference name id row = row := by
  funext c
  simp [clear_reference,unrelated]

@[simp] theorem entity_clock_delete_row (r : Replica) (t : TableName) (id id' f : String) (ty : EntityType) :
    (r.delete_row t id).entity_clock ty id' f = r.entity_clock ty id' f := by
  unfold delete_row
  split <;> rfl

@[simp] theorem tombstone_delete_row (r : Replica) (t : TableName) (id id' : String) (ty : EntityType) :
    (r.delete_row t id).tombstone ty id' = r.tombstone ty id' := by
  unfold delete_row
  split <;> rfl

@[simp] theorem conflicts_delete_row (r : Replica) (t : TableName) (id : String) :
    (r.delete_row t id).sync_conflicts = r.sync_conflicts := by
  unfold delete_row
  split <;> rfl

@[simp] theorem now_delete_row (r : Replica) (t : TableName) (id : String) : (r.delete_row t id).now = r.now := by
  unfold delete_row
  split <;> rfl

end Replica
end Pergamon
