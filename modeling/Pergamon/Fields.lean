import Pergamon.Review
import Pergamon.Storage

/-!
The canonical field read and write: between the generic field map of a change and
the typed tables of an entity. `write_entity_fields` rejects a field that is not
a column of the entity, updates an existing row column by column and inserts a
missing one with its defaults.
-/
namespace Pergamon
open Fallible

/-! ### The columns of each entity -/

def DOCUMENT_COLS : List String :=
  ["url","title","author","content_type","status","content_text","excerpt","published_at","read_at"]
def TAG_COLS : List String := ["name"]
def COLLECTION_COLS : List String := ["name","parent_id","sort_order"]
def NOTE_COLS : List String := ["content_item_id","body"]
def FEED_COLS : List String := ["title","url","site_url","description","folder_id"]
def SETTINGS_COLS : List String := ["value"]
def HIGHLIGHT_COLS : List String :=
  ["title","status","quote_text","note","color","position_start","position_end","source_item_id"]
def REVIEW_CARD_COLS : List String :=
  ["content_item_id","state","stability","difficulty","due_at","last_reviewed_at","review_count","lapse_count",
   "scheduled_days"]
def REVIEW_LOG_COLS : List String :=
  ["card_id","rating","state_before","stability_before","difficulty_before","state_after","stability_after",
   "difficulty_after","elapsed_days","scheduled_days","reviewed_at"]

/-- NOT NULL columns filled in only when a row is inserted. -/
def DOCUMENT_DEFAULTS : List (String × String) := [("title",""),("content_type","article"),("status","inbox")]
def TAG_DEFAULTS : List (String × String) := [("name","")]
def COLLECTION_DEFAULTS : List (String × String) := [("name","")]
def NOTE_DEFAULTS : List (String × String) := [("body","")]
def FEED_DEFAULTS : List (String × String) := [("title",""),("url","")]
def SETTINGS_DEFAULTS : List (String × String) := [("value","")]
def REVIEW_CARD_DEFAULTS : List (String × String) := [("state","new")]
def REVIEW_LOG_DEFAULTS : List (String × String) := []

/-- The fields that a change may write for an entity. -/
def allowed_columns : EntityType → List String
  | .Document => DOCUMENT_COLS
  | .Tag => TAG_COLS
  | .Collection => COLLECTION_COLS
  | .Note => NOTE_COLS
  | .FeedSubscription => FEED_COLS
  | .Settings => SETTINGS_COLS
  | .ReviewCard => REVIEW_CARD_COLS
  | .ReviewLog => REVIEW_LOG_COLS
  | .Highlight => HIGHLIGHT_COLS
  | .TagEdge | .CollectionEdge => []

def reject_unknown_columns (entity_type : EntityType) (fields : FieldMap) : Except StorageError Unit :=
  match fields.toList.find? (fun field => !(allowed_columns entity_type).contains field.1) with
  | some (key,_) => .error (.Constraint ("unknown sync column " ++ key))
  | none => .ok ()

/-- Only fields that are columns of the entity pass. -/
theorem reject_unknown_columns_ok {ty : EntityType} {fields : FieldMap} :
    reject_unknown_columns ty fields = .ok () ↔ ∀ f ∈ fields, f ∈ allowed_columns ty := by
  unfold reject_unknown_columns
  split
  · next key v found =>
    have unknown := List.find?_some found
    have inside := Std.ExtTreeMap.mem_toList_iff_getElem?_eq_some.mp (List.mem_of_find?_eq_some found)
    simp only [List.contains_eq_mem,Bool.not_eq_true',decide_eq_false_iff_not] at unknown
    simp only [reduceCtorEq,false_iff]
    intro known
    exact unknown (known key (Std.ExtTreeMap.mem_iff_isSome_getElem?.mpr (by simp [inside])))
  · next found =>
    simp only [true_iff]
    intro f given
    have inside := Std.ExtTreeMap.mem_toList_iff_getElem?_eq_some.mpr (Std.ExtTreeMap.getElem?_eq_some_getElem given)
    simpa using List.find?_eq_none.mp found _ inside

/-- A row's columns as a field map. -/
def field_map (cols : List String) (row : Row) : FieldMap :=
  cols.foldl (fun map col => map.insert col (sql_to_json (row col))) ∅

private theorem foldl_insert_get (row : Row) (f : String) (cols : List String) (m : FieldMap) :
    (cols.foldl (fun map col => map.insert col (sql_to_json (row col))) m)[f]? =
      if f ∈ cols then some (sql_to_json (row f)) else m[f]? := by
  induction cols generalizing m with
  | nil => simp
  | cons col cols ih =>
    rw [List.foldl_cons,ih,Std.ExtTreeMap.getElem?_insert]
    by_cases here : f = col
    · subst here; simp
    · simp [here,Ne.symm here]

@[simp] theorem field_map_get (cols : List String) (row : Row) (f : String) :
    (field_map cols row)[f]? = if f ∈ cols then some (sql_to_json (row f)) else none := by
  simp [field_map,foldl_insert_get]

/-- Rows that agree on the columns read the same. -/
theorem field_map_congr {cols : List String} {row row' : Row} (same : ∀ f ∈ cols, row f = row' f) :
    field_map cols row = field_map cols row' := by
  refine Std.ExtTreeMap.ext_getElem? (fun {f} => ?_)
  by_cases inside : f ∈ cols
  · simp [inside,same f inside]
  · simp [inside]

namespace Replica

/-! ### Reading -/

def read_columns (r : Replica) (t : TableName) (id : String) (cols : List String) : Option FieldMap :=
  (r.row t id).map (field_map cols)

/-- A highlight: the shell in `content_items` joined with `highlight_meta`. -/
def read_highlight (r : Replica) (id : String) : Option FieldMap :=
  match r.row .content_items id,r.row .highlight_meta id with
  | some item,some data =>
    some (field_map HIGHLIGHT_COLS (fun col => if col = "title" ∨ col = "status" then item col else data col))
  | _,_ => none

/-- An entity's synced fields, or `none` if it does not exist locally. -/
def read_entity_fields (r : Replica) (entity_type : EntityType) (entity_id : String) : Option FieldMap :=
  match entity_type with
  | .Document => r.read_columns .content_items entity_id DOCUMENT_COLS
  | .Tag => r.read_columns .tags entity_id TAG_COLS
  | .Collection => r.read_columns .collections entity_id COLLECTION_COLS
  | .Note => r.read_columns .notes entity_id NOTE_COLS
  | .FeedSubscription => r.read_columns .feeds entity_id FEED_COLS
  | .Settings => r.read_columns .settings entity_id SETTINGS_COLS
  | .ReviewLog => r.read_columns .review_logs entity_id REVIEW_LOG_COLS
  | .ReviewCard => r.read_columns .review_cards entity_id REVIEW_CARD_COLS
  | .Highlight => r.read_highlight entity_id
  | .TagEdge | .CollectionEdge => none

/-! ### Writing -/

section
variable [Sqlite]

/-- The values an insert gives: the fields, then the defaults they leave out. -/
def given_values (fields : FieldMap) (defaults : List (String × String)) (name : String) : Option SqlValue :=
  match fields[name]? with
  | some v => some (json_to_sql v)
  | none => (defaults.lookup name).map SqlValue.Text

/-- The row of an insert that gives no field. -/
def blankRow (now : String) (t : TableName) (defaults : List (String × String)) : Row :=
  new_row now t (given_values ∅ defaults)

/-- The columns that fields give are assigned to the row of an insert without them. -/
theorem new_row_assign {now : String} {t : TableName} {fields : FieldMap} {given rest : String → Option SqlValue}
    (known : ∀ f ∈ fields, ∃ c ∈ columns t, c.name = f) (carried : ∀ f v, fields[f]? = some v → given f = some (json_to_sql v))
    (others : ∀ f, fields[f]? = none → given f = rest f) :
    new_row now t given = assign t fields (new_row now t rest) := by
  funext f
  unfold new_row assign affinity_of
  cases found : (columns t).find? (fun c => c.name = f) with
  | none =>
    have missing : fields[f]? = none := by
      rw [← Option.not_isSome_iff_eq_none,← Std.ExtTreeMap.mem_iff_isSome_getElem?]
      intro given
      obtain ⟨c,inside,named⟩ := known f given
      exact List.find?_eq_none.mp found c inside (by simpa using named)
    simp [missing,found]
  | some c =>
    cases value : fields[f]? with
    | none => simp [found,others f value]
    | some v => simp [carried f v value]

/-- An insert stores the blank row with the given columns assigned. -/
theorem new_row_eq {now : String} {t : TableName} {fields : FieldMap} {defaults : List (String × String)}
    (known : ∀ f ∈ fields, ∃ c ∈ columns t, c.name = f) :
    new_row now t (given_values fields defaults) = assign t fields (blankRow now t defaults) :=
  new_row_assign known (fun f v given => by simp [given_values,given])
    (fun f missing => by simp [given_values,missing])

/-- Update the given columns of an existing row, or insert one with the defaults. -/
def upsert_single (r : Replica) (t : TableName) (id : String) (fields : FieldMap)
    (defaults : List (String × String)) : Except StorageError Replica :=
  match r.row t id,fields.isEmpty with
  | some row,false => r.update_row t id row fields
  | _,_ => r.insert_or_nothing t id (new_row r.now t (given_values fields defaults))

/-- The row under a key, or the blank row where there is none. -/
def shownRow (r : Replica) (t : TableName) (id : String) (defaults : List (String × String)) : Row :=
  (r.row t id).getD (blankRow r.now t defaults)

theorem shownRow_some {r : Replica} {t : TableName} {id : String} {defaults : List (String × String)} {row : Row}
    (held : r.row t id = some row) : r.shownRow t id defaults = row := by
  simp [shownRow,held]

theorem shownRow_none {r : Replica} {t : TableName} {id : String} {defaults : List (String × String)}
    (missing : r.row t id = none) : r.shownRow t id defaults = blankRow r.now t defaults := by
  simp [shownRow,missing]

/-- An upsert that succeeds assigns the given columns to the row that is there. -/
theorem upsert_single_ok {r r' : Replica} {t : TableName} {id : String} {fields : FieldMap}
    {defaults : List (String × String)} (known : ∀ f ∈ fields, ∃ c ∈ columns t, c.name = f)
    (ok : r.upsert_single t id fields defaults = .ok r') :
    r' = r.set_row t id (assign t fields (r.shownRow t id defaults)) := by
  unfold upsert_single at ok
  cases held : r.row t id with
  | none =>
    have inserted : r.insert_or_nothing t id (new_row r.now t (given_values fields defaults)) = .ok r' := by
      cases empty : fields.isEmpty <;> simpa [held,empty] using ok
    rw [insert_or_nothing_ok,held] at inserted
    rw [shownRow_none held,← new_row_eq known]
    exact (insert_new_ok.mp (by simpa using inserted.2)).2.2
  | some row =>
    rw [shownRow_some held]
    cases empty : fields.isEmpty with
    | false =>
      have updated : r.update_row t id row fields = .ok r' := by simpa [held,empty] using ok
      exact (update_row_ok.mp updated).2
    | true =>
      have kept : r.insert_or_nothing t id (new_row r.now t (given_values fields defaults)) = .ok r' := by
        simpa [held,empty] using ok
      rw [insert_or_nothing_ok,held] at kept
      have unassigned : assign t fields row = row := by
        rw [Std.ExtTreeMap.isEmpty_iff.mp empty]
        funext f
        simp [assign]
      rw [unassigned,set_row_same r t id held]
      simpa using kept.2

/-- Insert an append-only row: idempotent by id, never updated. -/
def insert_append_only (r : Replica) (t : TableName) (id : String) (fields : FieldMap)
    (defaults : List (String × String)) : Except StorageError Replica :=
  r.insert_or_ignore t id (new_row r.now t (given_values fields defaults))

/-- The first statement of `upsert_highlight`: the shell, whose title and status
    are replaced even where the fields do not carry them. -/
def upsert_shell (r : Replica) (id : String) (fields : FieldMap) : Except StorageError Replica :=
  let title := ((fields["title"]?).bind Value.as_str).getD ""
  let status := ((fields["status"]?).bind Value.as_str).getD "inbox"
  let given : FieldMap := ((∅ : FieldMap).insert "title" (.Str title)).insert "status" (.Str status)
  let shell := new_row r.now .content_items
    (fun name => if name = "content_type" then some (.Text "highlight") else (given[name]?).map json_to_sql)
  if row_admitted .content_items shell then
    match r.row .content_items id with
    | some row => r.update_row .content_items id row given
    | none => r.insert_new .content_items id shell
  else .error .Sqlite

/-- The second statement of `upsert_highlight`: the annotation itself. -/
def upsert_highlight_meta (r : Replica) (id : String) (fields : FieldMap) : Except StorageError Replica :=
  let annotation := (fields.erase "title").erase "status"
  let row := new_row r.now .highlight_meta (given_values annotation [("quote_text","")])
  if row_admitted .highlight_meta row then
    match r.row .highlight_meta id with
    | some old => if annotation.isEmpty then .ok r else r.update_row .highlight_meta id old annotation
    | none => r.insert_new .highlight_meta id row
  else .error .Sqlite

def upsert_highlight (r : Replica) (id : String) (fields : FieldMap) : Except StorageError Replica := do
  let r ← r.upsert_shell id fields
  r.upsert_highlight_meta id fields

/-- Delete an entity's canonical row. -/
def delete_entity_row (r : Replica) (entity_type : EntityType) (entity_id : String) : Replica :=
  match entity_type with
  | .Document | .Highlight => r.delete_row .content_items entity_id
  | .Tag => r.delete_row .tags entity_id
  | .Collection => r.delete_row .collections entity_id
  | .Note => r.delete_row .notes entity_id
  | .FeedSubscription => r.delete_row .feeds entity_id
  | .Settings => r.delete_row .settings entity_id
  | .ReviewCard => r.delete_row .review_cards entity_id
  | .ReviewLog | .TagEdge | .CollectionEdge => r

/-- Write an entity's fields into its typed tables. -/
def write_entity_fields (r : Replica) (entity_type : EntityType) (entity_id : String) (fields : FieldMap)
    (op : Op) : Except StorageError Replica :=
  if op = .Delete then .ok (r.delete_entity_row entity_type entity_id)
  else do
    reject_unknown_columns entity_type fields
    match entity_type with
    | .Document => r.upsert_single .content_items entity_id fields DOCUMENT_DEFAULTS
    | .Tag => r.upsert_single .tags entity_id fields TAG_DEFAULTS
    | .Collection => r.upsert_single .collections entity_id fields COLLECTION_DEFAULTS
    | .Note => r.upsert_single .notes entity_id fields NOTE_DEFAULTS
    | .FeedSubscription => r.upsert_single .feeds entity_id fields FEED_DEFAULTS
    | .Settings => r.upsert_single .settings entity_id fields SETTINGS_DEFAULTS
    | .ReviewCard => r.upsert_single .review_cards entity_id fields REVIEW_CARD_DEFAULTS
    | .ReviewLog => r.insert_append_only .review_logs entity_id fields REVIEW_LOG_DEFAULTS
    | .Highlight => r.upsert_highlight entity_id fields
    | .TagEdge | .CollectionEdge => .ok r

end

/-! ### Membership -/

/-- Split an edge id at its first colon. -/
def split_edge_id (edge_id : String) : Except StorageError (String × String) :=
  let chars := edge_id.toList
  if ':' ∈ chars then
    .ok (String.ofList (chars.takeWhile (· ≠ ':')),String.ofList ((chars.dropWhile (· ≠ ':')).tail))
  else .error (.Generic ("malformed edge id " ++ edge_id))

/-- Apply an edge's state to its membership table; both ends must exist. -/
def apply_edge_membership (r : Replica) (entity_type : EntityType) (entity_id : String) (present : Bool) :
    Except StorageError Replica := do
  let (left,right) ← split_edge_id entity_id
  match entity_type with
  | .TagEdge =>
    if present then
      if (left,right) ∈ r.content_item_tags ∨
          ((r.row .content_items left).isSome ∧ (r.row .tags right).isSome) then
        .ok { r with content_item_tags := insert (left,right) r.content_item_tags }
      else .error .Sqlite
    else .ok { r with content_item_tags := r.content_item_tags.erase (left,right) }
  | .CollectionEdge =>
    if present then
      if (left,right) ∈ r.content_item_collections ∨
          ((r.row .content_items left).isSome ∧ (r.row .collections right).isSome) then
        .ok { r with content_item_collections := insert (left,right) r.content_item_collections }
      else .error .Sqlite
    else .ok { r with content_item_collections := r.content_item_collections.erase (left,right) }
  | _ => .error (.Generic "apply_edge_membership called with a non-edge entity")

/-! ### Derived review state -/

section
variable [Sqlite] [Scheduler]

def review_log_card_id (r : Replica) (log_id : String) : Option String :=
  match r.row .review_logs log_id with
  | some row =>
    match row "card_id" with
    | .Text card => some card
    | _ => none
  | none => none

/-- `CAST(rating AS INTEGER)`. -/
def cast_integer : SqlValue → Int
  | .Integer i => i
  | .Real r => Sqlite.truncate_real r
  | _ => 0

/-- The log of a row, when its rating is one of the four. -/
def log_entry (id : String) (row : Row) : Option ReviewLogEntry :=
  match row "reviewed_at" with
  | .Text reviewed_at =>
    (Rating.from_value (cast_integer (row "rating"))).map
      (fun rating => ⟨id,Scheduler.parse_epoch_millis reviewed_at,rating⟩)
  | _ => none

/-- A double bound to a statement: SQLite stores a NaN as null. -/
def bind_real (value : Option F64) : SqlValue :=
  match value with
  | some r => if r.is_nan then .Null else .Real r
  | none => .Null

def review_log_entries_for_card (r : Replica) (card_id : String) : List ReviewLogEntry :=
  ((r.tables .review_logs).toList.filter (fun log => log.2 "card_id" = .Text card_id)).filterMap
    (fun log => log_entry log.1 log.2)

def write_derived_card_state (r : Replica) (card_id : String) (card : Row) (derived : DerivedCard) : Replica :=
  r.set_row .review_cards card_id (fun col =>
    match col with
    | "state" => .Text derived.state.as_str
    | "stability" => bind_real derived.stability
    | "difficulty" => bind_real derived.difficulty
    | "due_at" => derived.due_at_ms.elim (card "due_at") (fun ms => .Text (Scheduler.millis_to_rfc3339 ms))
    | "last_reviewed_at" =>
      derived.last_reviewed_at_ms.elim .Null (fun ms => .Text (Scheduler.millis_to_rfc3339 ms))
    | "review_count" => .Integer derived.review_count
    | "lapse_count" => .Integer derived.lapse_count
    | "scheduled_days" => bind_real derived.scheduled_days
    | other => card other)

/-- Recompute a card's schedule from its logs. Nothing happens while the card or
    its logs are missing. -/
def recompute_review_card (r : Replica) (card_id : String) : Replica :=
  match r.row .review_cards card_id with
  | none => r
  | some card =>
    match r.review_log_entries_for_card card_id with
    | [] => r
    | logs => r.write_derived_card_state card_id card (derive_card_state logs)

end
end Replica
end Pergamon
