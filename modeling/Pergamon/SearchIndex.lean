import Pergamon.Library
import Pergamon.Mirrors
import Pergamon.Moves
import Pergamon.Runs

/-!
The full-text index of a library that local commands and sync both write. The index is kept by
hand: a local command writes the rows of the items again whose titles, texts or tags it changes,
while what sync writes goes to the tables only. The index has one row for each item, with its
title, author, text and tags (`Indexed`), after any run of local commands, and after any run in
which no change that sync writes is one of those that the index shows (`index_run`).
-/
namespace Pergamon
open Fallible Runs Mirrors

/-- What the row of a new item is given. -/
def Library.ContentItem.columns [TimeCrate] (item : Library.ContentItem) : FieldMap :=
  [("url",optional item.url),("title",.Str item.title),("author",optional item.author),("content_type",.Str item.content_type.as_str),
    ("status",.Str item.status.as_str),("content_text",optional item.content_text),("excerpt",optional item.excerpt),
    ("published_at",optional (item.published_at.map fmt_time)),("read_at",optional (item.read_at.map fmt_time))].foldl
    (fun fields field => fields.insert field.1 field.2) ∅
where
  optional (text : Option String) : Value := text.elim .Null .Str

/-- A text that must be there. -/
def as_text : SqlValue → Except StorageError String
  | .Text s => .ok s
  | _ => .error .Sqlite

/-- A text that may be null. -/
def as_text_opt : SqlValue → Except StorageError (Option String)
  | .Null => .ok none
  | .Text s => .ok (some s)
  | _ => .error .Sqlite

def optional_text : Option String → SqlValue
  | none => .Null
  | some s => .Text s

theorem as_text_ok {v : SqlValue} {s : String} : as_text v = .ok s ↔ v = .Text s := by
  cases v <;> simp [as_text]

theorem as_text_opt_ok {v : SqlValue} {s : Option String} : as_text_opt v = .ok s ↔ v = optional_text s := by
  cases v <;> cases s <;> simp [as_text_opt,optional_text,eq_comm]

namespace Replica

/-! ### What the index shows -/

/-- The name of a tag. -/
def tag_name (r : Replica) (tag_id : String) : Option SqlValue := (r.row .tags tag_id).map (fun row => row "name")

/-- The ids of the tags of an item. -/
def tag_ids (r : Replica) (content_item_id : String) : List String :=
  (r.tables .tags).keys.filter (fun tag_id => (content_item_id,tag_id) ∈ r.content_item_tags)

/-- Build a comma-separated tag string for a content item. -/
def tags_for_item_as_string (r : Replica) (content_item_id : String) : Except StorageError String := do
  let names ← ((r.tag_ids content_item_id).map (fun tag_id => (r.tag_name tag_id).getD .Null)).mapM as_text
  .ok (", ".intercalate (names.insertionSort (fun a b => Library.folded a ≤ Library.folded b)))

/-- What the index is to show of an item: title, author, text and tags. -/
def searchable (r : Replica) (id : String) : Option (SqlValue × SqlValue × SqlValue × Except StorageError String) :=
  (r.row .content_items id).map (fun row => (row "title",row "author",row "content_text",r.tags_for_item_as_string id))

/-! ### Statements -/

/-- The ids of the items that have a tag. -/
def tagged_items (r : Replica) (tag_id : String) : List String :=
  (r.tables .content_items).keys.filter (fun id => (id,tag_id) ∈ r.content_item_tags)

/-- `INSERT OR IGNORE` into `content_item_tags`. Foreign keys are checked all the same. -/
def insert_item_tags (r : Replica) (edges : Finset (String × String)) : Except StorageError Replica :=
  if ∀ edge ∈ edges, edge ∈ r.content_item_tags ∨ ((r.row .content_items edge.1).isSome ∧ (r.row .tags edge.2).isSome) then
    .ok { r with content_item_tags := r.content_item_tags ∪ edges }
  else .error .Sqlite

def delete_item_tag (r : Replica) (content_item_id tag_id : String) : Replica :=
  { r with content_item_tags := r.content_item_tags.erase (content_item_id,tag_id) }

section
variable [Sqlite]

/-- Irreducible, since otherwise goals about it are computed while they are read. -/
@[irreducible] def insert_item_row [TimeCrate] (r : Replica) (item : Library.ContentItem) : Except StorageError Replica :=
  let row := new_row r.now .content_items (given_values item.columns [])
  if row_admitted .content_items row ∧ (r.row .content_items item.id).isNone then r.insert_new .content_items item.id row
  else .error .Sqlite

/-- The row of a new tag. -/
def tag_row (r : Replica) (name : String) : Row := new_row r.now .tags (given_values ((∅ : FieldMap).insert "name" (.Str name)) [])

/-- Insert a new tag. -/
def insert_tag (r : Replica) (tag : Tag) : Except StorageError Replica :=
  if (r.row .tags tag.id).isNone then r.insert_new .tags tag.id (r.tag_row tag.name) else .error .Sqlite

/-- `UPDATE tags SET name`. -/
def set_tag_name (r : Replica) (id new_name : String) : Except StorageError Replica :=
  match r.row .tags id with
  | none => .error (.NotFound "tag" id)
  | some row => r.update_row .tags id row ((∅ : FieldMap).insert "name" (.Str new_name))

end

/-- Retrieve a tag by id. Its time is left out. -/
def get_tag (r : Replica) (id : String) : Except StorageError Tag :=
  match r.tag_name id with
  | none => .error (.NotFound "tag" id)
  | some name => (as_text name).map (Tag.mk id)

/-- A tag by its name, in any case. -/
def find_tag (r : Replica) (name : String) : Except StorageError Tag :=
  match (r.tables .tags).toList.find? (fun tag => same_key .nocase (tag.2 "name") (.Text name)) with
  | some tag => (as_text (tag.2 "name")).map (Tag.mk tag.1)
  | none => .error (.NotFound "tag" name)

/-- All rows of the library are deleted; the settings and what sync keeps stay. -/
def reset_tables (r : Replica) : Replica :=
  { r with
    tables := fun
      | .settings => r.tables .settings
      | _ => ∅
    content_item_tags := ∅
    content_item_collections := ∅ }

end Replica

/-! ### Commands -/

/-- The tables of a library and its full-text index. -/
structure SearchDb where
  replica : Replica
  content_items_fts : List FtsRow

namespace SearchDb

/-- A statement on the tables. It writes nothing where it fails. -/
def run (statement : Replica → Except StorageError Replica) : EStateM StorageError SearchDb Unit := fun db =>
  match statement db.replica with
  | .ok r => .ok () { db with replica := r }
  | .error e => .error e db

/-- A query. -/
def ask {α : Type} (query : Replica → Except StorageError α) : EStateM StorageError SearchDb α := fun db =>
  match query db.replica with
  | .ok a => .ok a db
  | .error e => .error e db

/-- A row for an item under the next number of the index. -/
def fts_row (db : SearchDb) (id title : String) (author content_text : Option String) (tags : String) : FtsRow :=
  ⟨Library.next_rowid (db.content_items_fts.map FtsRow.rowid),id,title,author,content_text,tags⟩

/-- Insert the row of an item into the full-text index. -/
def upsert_fts (item : Library.ContentItem) : EStateM StorageError SearchDb Unit := do
  let tags ← ask (fun r => r.tags_for_item_as_string item.id)
  modify (fun db => { db with content_items_fts := db.content_items_fts ++ [db.fts_row item.id item.title item.author item.content_text tags] })

/-- Delete the rows of an item from the full-text index. -/
def delete_fts (id : String) : EStateM StorageError SearchDb Unit :=
  modify (fun db => { db with content_items_fts := drop FtsRow.content_item_id db.content_items_fts id })

/-- Refresh the tags column in the full-text index for an item. -/
def refresh_fts_tags (id : String) : EStateM StorageError SearchDb Unit := do
  let tags ← ask (fun r => r.tags_for_item_as_string id)
  let (title,author,content_text) ← ask (fun r =>
    match r.row .content_items id with
    | none => .error .Sqlite
    | some row => do .ok (← as_text (row "title"),← as_text_opt (row "author"),← as_text_opt (row "content_text")))
  delete_fts id
  modify (fun db => { db with content_items_fts := db.content_items_fts ++ [db.fts_row id title author content_text tags] })

/-- Refresh the index for some items. -/
def refresh_all : List String → EStateM StorageError SearchDb Unit
  | [] => pure ()
  | id :: ids => do
    refresh_fts_tags id
    refresh_all ids

section
variable [Sqlite]

/-- Insert a new content item and update the full-text index. -/
def insert_content_item [TimeCrate] (item : Library.ContentItem) : EStateM StorageError SearchDb Unit := do
  run (fun r => r.insert_item_row item)
  upsert_fts item

/-- Get an existing tag by name or create one. -/
def get_or_create_tag (new_v4 name : String) : EStateM StorageError SearchDb Tag := do
  run (fun r => r.insert_or_ignore .tags new_v4 (r.tag_row name))
  ask (fun r => r.find_tag name)

/-- Rename a tag and refresh the index for all tagged items. -/
def rename_tag (id new_name : String) : EStateM StorageError SearchDb Unit := do
  run (fun r => r.set_tag_name id new_name)
  let affected_items ← ask (fun r => .ok (r.tagged_items id))
  refresh_all affected_items

end

/-- Delete a content item and its row in the index. -/
def delete_content_item (id : String) : EStateM StorageError SearchDb Bool := do
  delete_fts id
  let there ← ask (fun r => .ok (r.row .content_items id).isSome)
  run (fun r => .ok (r.delete_row .content_items id))
  return there

/-- Associate a tag with a content item and refresh the index. -/
def tag_content_item (content_item_id tag_id : String) : EStateM StorageError SearchDb Unit := do
  run (fun r => r.insert_item_tags {(content_item_id,tag_id)})
  refresh_fts_tags content_item_id

/-- Remove a tag from a content item and refresh the index. -/
def untag_content_item (content_item_id tag_id : String) : EStateM StorageError SearchDb Bool := do
  let there ← ask (fun r => .ok (decide ((content_item_id,tag_id) ∈ r.content_item_tags)))
  run (fun r => .ok (r.delete_item_tag content_item_id tag_id))
  if there then refresh_fts_tags content_item_id
  return there

/-- Delete a tag and remove it from all items. -/
def delete_tag (id : String) : EStateM StorageError SearchDb Bool := do
  let affected_items ← ask (fun r => .ok (r.tagged_items id))
  let there ← ask (fun r => .ok (r.row .tags id).isSome)
  run (fun r => .ok (r.delete_row .tags id))
  refresh_all affected_items
  return there

/-- Merge one tag into another. -/
def merge_tags (from_id to_id : String) : EStateM StorageError SearchDb Unit :=
  if from_id = to_id then pure ()
  else do
    let _ ← ask (fun r => r.get_tag from_id)
    let _ ← ask (fun r => r.get_tag to_id)
    let affected_items ← ask (fun r => .ok (r.tagged_items from_id))
    transaction (do
      run (fun r => r.insert_item_tags ((r.content_item_tags.filter (fun edge => edge.2 = from_id)).image (fun edge => (edge.1,to_id))))
      run (fun r => .ok (r.delete_row .tags from_id)))
    refresh_all affected_items

/-- Tag the items one after the other, and count the new associations. -/
def tag_each (tag_id : String) : List String → ℕ → EStateM StorageError SearchDb ℕ
  | [],count => pure count
  | id :: ids,count => do
    let there ← ask (fun r => .ok (decide ((id,tag_id) ∈ r.content_item_tags)))
    run (fun r => r.insert_item_tags {(id,tag_id)})
    if there then tag_each tag_id ids count
    else do
      refresh_fts_tags id
      tag_each tag_id ids (count + 1)

/-- Tag multiple content items with the same tag. -/
def bulk_tag (item_ids : List String) (tag_id : String) : EStateM StorageError SearchDb ℕ := transaction (tag_each tag_id item_ids 0)

/-- Transfer all tags from one content item to another. -/
def transfer_tags (from_id to_id : String) : EStateM StorageError SearchDb Unit := do
  run (fun r => r.insert_item_tags ((r.content_item_tags.filter (fun edge => edge.1 = from_id)).image (fun edge => (to_id,edge.2))))
  refresh_fts_tags to_id

/-- Delete all user data. -/
def reset : EStateM StorageError SearchDb Unit := modify (fun db => ⟨db.replica.reset_tables,[]⟩)

end SearchDb

/-! ### What the tables keep -/

namespace Replica

/-- A tag that is there and that an item has. -/
def Linked (r : Replica) (id tag_id : String) : Prop := (r.row .tags tag_id).isSome ∧ (id,tag_id) ∈ r.content_item_tags

/-- The columns that the index shows can be read, and an edge has its ends. -/
structure Tidy (r : Replica) : Prop where
  titles : ∀ id row, r.row .content_items id = some row → ∃ title, as_text (row "title") = .ok title
  authors : ∀ id row, r.row .content_items id = some row → ∃ author, as_text_opt (row "author") = .ok author
  texts : ∀ id row, r.row .content_items id = some row → ∃ content_text, as_text_opt (row "content_text") = .ok content_text
  names : ∀ tag_id row, r.row .tags tag_id = some row → ∃ name, as_text (row "name") = .ok name
  edges : ∀ edge ∈ r.content_item_tags, (r.row .content_items edge.1).isSome ∧ (r.row .tags edge.2).isSome

section
variable {r r' : Replica} {id tag_id : String}

theorem mem_tag_ids : tag_id ∈ r.tag_ids id ↔ r.Linked id tag_id := by
  rw [tag_ids,List.mem_filter,Std.ExtTreeMap.mem_keys,Std.ExtTreeMap.mem_iff_isSome_getElem?,decide_eq_true_eq]
  exact Iff.rfl

theorem tag_ids_congr (same : ∀ tag_id, r'.Linked id tag_id ↔ r.Linked id tag_id) : r'.tag_ids id = r.tag_ids id := by
  have ordered (r : Replica) : (r.tag_ids id).Pairwise (fun a b => compare a b = .lt) :=
    Std.ExtTreeMap.ordered_keys.sublist List.filter_sublist
  have : Std.Irrefl (fun a b : String => compare a b = .lt) := ⟨fun a => by simp⟩
  have : Std.Antisymm (fun a b : String => compare a b = .lt) :=
    ⟨fun a b less more => absurd (Std.OrientedCmp.gt_of_lt less) (by simp [more])⟩
  refine (ordered r').eq_of_mem_iff (ordered r) (fun tag_id => ?_)
  rw [mem_tag_ids,mem_tag_ids,same]

/-- The tag string of an item with the same tags under the same names. -/
theorem tags_congr (same : ∀ tag_id, r'.Linked id tag_id ↔ r.Linked id tag_id)
    (names : ∀ tag_id, r.Linked id tag_id → r'.tag_name tag_id = r.tag_name tag_id) :
    r'.tags_for_item_as_string id = r.tags_for_item_as_string id := by
  have read : (r'.tag_ids id).map (fun tag_id => (r'.tag_name tag_id).getD .Null) =
      (r.tag_ids id).map (fun tag_id => (r.tag_name tag_id).getD .Null) := by
    rw [tag_ids_congr same]
    exact List.map_congr_left (fun tag_id inside => by rw [names tag_id (mem_tag_ids.mp inside)])
  rw [tags_for_item_as_string,read]
  rfl

/-- All texts of a list are there. -/
theorem mapM_as_text {values : List SqlValue} (reads : ∀ value ∈ values, ∃ name, as_text value = .ok name) :
    ∃ names, values.mapM as_text = .ok names := by
  induction values with
  | nil => exact ⟨[],rfl⟩
  | cons value values ih =>
    obtain ⟨name,here⟩ := reads value (.head _)
    obtain ⟨names,rest⟩ := ih (fun other inside => reads other (.tail _ inside))
    exact ⟨name :: names,by rw [List.mapM_cons,here,rest]; rfl⟩

theorem Tidy.tags_read (tidy : Tidy r) (id : String) : ∃ tags, r.tags_for_item_as_string id = .ok tags := by
  have reads : ∀ value ∈ (r.tag_ids id).map (fun tag_id => (r.tag_name tag_id).getD .Null), ∃ name, as_text value = .ok name := by
    intro value inside
    obtain ⟨tag_id,linked,rfl⟩ := List.mem_map.mp inside
    obtain ⟨row,there⟩ := Option.isSome_iff_exists.mp (mem_tag_ids.mp linked).1
    rw [tag_name,there]
    exact tidy.names tag_id row there
  obtain ⟨names,read⟩ := mapM_as_text reads
  rw [tags_for_item_as_string,read]
  exact ⟨_,rfl⟩

theorem searchable_congr (row : r'.row .content_items id = r.row .content_items id) (same : ∀ tag_id, r'.Linked id tag_id ↔ r.Linked id tag_id)
    (names : ∀ tag_id, r.Linked id tag_id → r'.tag_name tag_id = r.tag_name tag_id) : r'.searchable id = r.searchable id := by
  rw [searchable,searchable,row,tags_congr same names]

theorem searchable_none : r.searchable id = none ↔ r.row .content_items id = none := by rw [searchable,Option.map_eq_none_iff]

/-- Only some items, which are there, may be shown otherwise than before. -/
structure Touches (ids : List String) (r r' : Replica) : Prop where
  there : ∀ id ∈ ids, (r'.row .content_items id).isSome
  others : ∀ id ∉ ids, r'.searchable id = r.searchable id
  tidy : r'.Tidy

variable {ids : List String} {edges : Finset (String × String)}

theorem mem_tagged_items (tidy : r.Tidy) : id ∈ r.tagged_items tag_id ↔ (id,tag_id) ∈ r.content_item_tags := by
  rw [tagged_items,List.mem_filter,Std.ExtTreeMap.mem_keys,Std.ExtTreeMap.mem_iff_isSome_getElem?,decide_eq_true_eq]
  exact and_iff_right_of_imp (fun edge => (tidy.edges _ edge).1)

/-- A statement on tags and edges, by what it does to the edges of the other items and to the
    names of their tags. -/
theorem Touches.of_tags (tidy : r.Tidy) (rows : ∀ id, r'.row .content_items id = r.row .content_items id)
    (there : ∀ id ∈ ids, (r.row .content_items id).isSome) (edges : ∀ id ∉ ids, ∀ tag_id, (id,tag_id) ∈ r'.content_item_tags ↔ (id,tag_id) ∈ r.content_item_tags)
    (names : ∀ id ∉ ids, ∀ tag_id, (id,tag_id) ∈ r.content_item_tags → r'.tag_name tag_id = r.tag_name tag_id)
    (read : ∀ tag_id row, r'.row .tags tag_id = some row → ∃ name, as_text (row "name") = .ok name)
    (ends : ∀ edge ∈ r'.content_item_tags, (r.row .content_items edge.1).isSome ∧ (r'.row .tags edge.2).isSome) : Touches ids r r' := by
  refine ⟨fun id inside => rows id ▸ there id inside,fun id outside => ?_,?_⟩
  · refine searchable_congr (rows id) (fun tag_id => ?_) (fun tag_id linked => names id outside tag_id linked.2)
    unfold Linked
    rw [edges id outside tag_id]
    refine and_congr_left (fun edge => ?_)
    exact iff_of_true (ends _ ((edges id outside tag_id).mpr edge)).2 (tidy.edges _ edge).2
  · refine ⟨fun id row held => tidy.titles id row (rows id ▸ held),fun id row held => tidy.authors id row (rows id ▸ held),
      fun id row held => tidy.texts id row (rows id ▸ held),read,fun edge inside => ?_⟩
    rw [rows]
    exact ends edge inside

theorem insert_item_tags_touches (tidy : r.Tidy) (there : ∀ id ∈ ids, (r.row .content_items id).isSome)
    (firsts : ∀ edge ∈ edges, edge.1 ∈ ids) (ok : r.insert_item_tags edges = .ok r') : Touches ids r r' := by
  unfold insert_item_tags at ok
  obtain ⟨known,ok⟩ := if_ok.mp ok
  obtain rfl := Except.ok.inj ok
  refine .of_tags tidy (fun _ => rfl) there (fun id outside tag_id => ?_) (fun _ _ _ _ => rfl) tidy.names (fun edge inside => ?_)
  · change (id,tag_id) ∈ r.content_item_tags ∪ edges ↔ _
    rw [Finset.mem_union]
    exact or_iff_left (fun new => outside (firsts _ new))
  · change edge ∈ r.content_item_tags ∪ edges at inside
    rcases Finset.mem_union.mp inside with old | new
    · exact tidy.edges edge old
    · exact (known edge new).elim (tidy.edges edge) id

theorem delete_item_tag_touches (tidy : r.Tidy) (there : (r.row .content_items id).isSome) : Touches [id] r (r.delete_item_tag id tag_id) := by
  refine .of_tags tidy (fun _ => rfl) (fun other inside => List.mem_singleton.mp inside ▸ there) (fun other outside tag => ?_) (fun _ _ _ _ => rfl)
    tidy.names (fun edge inside => tidy.edges edge (Finset.mem_of_mem_erase inside))
  have apart : (other,tag) ≠ (id,tag_id) := fun same => outside (List.mem_singleton.mpr (Prod.mk.inj same).1)
  change (other,tag) ∈ r.content_item_tags.erase (id,tag_id) ↔ _
  rw [Finset.mem_erase]
  exact and_iff_right apart

/-- The rows of the tags once one is deleted. -/
theorem row_tags_delete (r : Replica) (tag_id other : String) :
    (r.delete_row .tags tag_id).row .tags other = if other = tag_id then none else r.row .tags other := by
  unfold delete_row
  split
  · next missing =>
    split
    · next same => simpa [same] using missing
    · rfl
  · simp only [row,tables_without,Function.update_self,Std.ExtTreeMap.getElem?_erase,compare_eq_iff_eq,eq_comm (a := tag_id)]

theorem edges_tags_delete (tidy : r.Tidy) (tag_id : String) (edge : String × String) :
    edge ∈ (r.delete_row .tags tag_id).content_item_tags ↔ edge ∈ r.content_item_tags ∧ edge.2 ≠ tag_id := by
  unfold delete_row
  split
  · next missing =>
    refine (and_iff_left_of_imp (fun inside same => ?_)).symm
    rw [← same,Option.isNone_iff_eq_none] at missing
    simpa [missing] using (tidy.edges edge inside).2
  · exact Finset.mem_filter

theorem delete_tag_touches (tidy : r.Tidy) (tag_id : String) : Touches (r.tagged_items tag_id) r (r.delete_row .tags tag_id) := by
  have items (id : String) : (r.delete_row .tags tag_id).row .content_items id = r.row .content_items id := by
    unfold delete_row
    split <;> rfl
  refine .of_tags tidy items (fun id inside => (tidy.edges _ ((mem_tagged_items tidy).mp inside)).1) (fun id outside other => ?_)
    (fun id outside other edge => ?_) (fun other row held => ?_) (fun edge inside => ?_)
  · rw [edges_tags_delete tidy]
    refine and_iff_left_of_imp (fun edge same => outside ((mem_tagged_items tidy).mpr ?_))
    rwa [← same]
  · have apart : other ≠ tag_id := fun same => outside ((mem_tagged_items tidy).mpr (same ▸ edge))
    rw [tag_name,tag_name,row_tags_delete,if_neg apart]
  · rw [row_tags_delete] at held
    split at held
    · cases held
    · exact tidy.names other row held
  · obtain ⟨old,apart⟩ := (edges_tags_delete tidy tag_id edge).mp inside
    rw [row_tags_delete,if_neg apart]
    exact tidy.edges edge old

/-- A row of a tag is written, with a name. -/
theorem set_tag_touches {row : Row} {name : String} (tidy : r.Tidy) (named : row "name" = .Text name)
    (there : ∀ id ∈ ids, (r.row .content_items id).isSome) (others : ∀ id ∉ ids, (id,tag_id) ∈ r.content_item_tags → r.tag_name tag_id = some (.Text name)) :
    Touches ids r (r.set_row .tags tag_id row) := by
  refine .of_tags tidy (fun _ => rfl) there (fun _ _ _ => Iff.rfl) (fun id outside other edge => ?_) (fun other row' held => ?_) (fun edge inside => ?_)
  · rw [tag_name,row_set_row]
    by_cases same : other = tag_id
    · subst same
      rw [if_pos ⟨rfl,rfl⟩,others id outside edge,Option.map_some,named]
    · rw [if_neg (fun both => same both.2)]
      rfl
  · rw [row_set_row] at held
    split at held
    · obtain rfl := Option.some.inj held
      exact ⟨name,as_text_ok.mpr named⟩
    · exact tidy.names other row' held
  · obtain ⟨item,tag⟩ := tidy.edges edge inside
    refine ⟨item,?_⟩
    rw [row_set_row]
    split
    · rfl
    · exact tag

/-- A row of an item is written, with a title, and an author and a text or none. -/
theorem set_item_tidy {row : Row} (tidy : r.Tidy) (title : ∃ title, as_text (row "title") = .ok title)
    (author : ∃ author, as_text_opt (row "author") = .ok author) (text : ∃ text, as_text_opt (row "content_text") = .ok text) :
    (r.set_row .content_items id row).Tidy := by
  have held {other : String} {row' : Row} (there : (r.set_row .content_items id row).row .content_items other = some row') :
      row' = row ∨ r.row .content_items other = some row' := by
    rw [row_set_row] at there
    split at there
    · exact .inl (Option.some.inj there).symm
    · exact .inr there
  refine ⟨fun other row' there => ?_,fun other row' there => ?_,fun other row' there => ?_,tidy.names,fun edge inside => ?_⟩
  · exact (held there).elim (fun same => same ▸ title) (tidy.titles other row')
  · exact (held there).elim (fun same => same ▸ author) (tidy.authors other row')
  · exact (held there).elim (fun same => same ▸ text) (tidy.texts other row')
  · obtain ⟨item,tag⟩ := tidy.edges edge inside
    refine ⟨?_,tag⟩
    rw [row_set_row]
    split
    · rfl
    · exact item

/-- The other items are shown as before. -/
theorem set_item_others {row : Row} {other : String} (apart : other ≠ id) :
    (r.set_row .content_items id row).searchable other = r.searchable other := by
  refine searchable_congr ?_ (fun _ => Iff.rfl) (fun _ _ => rfl)
  rw [row_set_row,if_neg (fun both => apart both.2)]

/-- The rows of the items once one is deleted. -/
theorem row_items_delete (r : Replica) (id other : String) :
    (r.delete_row .content_items id).row .content_items other = if other = id then none else r.row .content_items other := by
  unfold delete_row
  split
  · next missing =>
    split
    · next same => simpa [same] using missing
    · rfl
  · simp only [row,tables_without,Std.ExtTreeMap.getElem?_erase,compare_eq_iff_eq,eq_comm (a := id)]

/-- The tags and edges once an item is deleted. -/
theorem tags_items_delete (r : Replica) (id : String) : (r.delete_row .content_items id).tables .tags = r.tables .tags := by
  unfold delete_row
  split <;> rfl

theorem edges_items_delete (tidy : r.Tidy) (id : String) (edge : String × String) :
    edge ∈ (r.delete_row .content_items id).content_item_tags ↔ edge ∈ r.content_item_tags ∧ edge.1 ≠ id := by
  unfold delete_row
  split
  · next missing =>
    refine (and_iff_left_of_imp (fun inside same => ?_)).symm
    rw [← same,Option.isNone_iff_eq_none] at missing
    simpa [missing] using (tidy.edges edge inside).1
  · exact Finset.mem_filter

theorem delete_item_tidy (tidy : r.Tidy) (id : String) : (r.delete_row .content_items id).Tidy := by
  have held {other : String} {row : Row} (there : (r.delete_row .content_items id).row .content_items other = some row) :
      r.row .content_items other = some row := by
    rw [row_items_delete] at there
    split at there
    · cases there
    · exact there
  have tags (tag_id : String) : (r.delete_row .content_items id).row .tags tag_id = r.row .tags tag_id := by
    rw [row,row,tags_items_delete]
  refine ⟨fun other row there => tidy.titles other row (held there),fun other row there => tidy.authors other row (held there),
    fun other row there => tidy.texts other row (held there),fun tag_id row there => tidy.names tag_id row (tags tag_id ▸ there),
    fun edge inside => ?_⟩
  obtain ⟨old,apart⟩ := (edges_items_delete tidy id edge).mp inside
  rw [row_items_delete,if_neg apart,tags]
  exact tidy.edges edge old

theorem delete_item_others (tidy : r.Tidy) {other : String} (apart : other ≠ id) :
    (r.delete_row .content_items id).searchable other = r.searchable other := by
  refine searchable_congr ?_ (fun tag_id => ?_) (fun tag_id _ => ?_)
  · rw [row_items_delete,if_neg apart]
  · unfold Linked
    rw [edges_items_delete tidy,row,row,tags_items_delete]
    exact and_congr_right (fun _ => and_iff_left apart)
  · rw [tag_name,tag_name,row,row,tags_items_delete]

/-- A statement that writes neither items nor tags nor their edges. -/
theorem Touches.of_same (tidy : r.Tidy) (items : ∀ id, r'.row .content_items id = r.row .content_items id)
    (tags : ∀ tag_id, r'.row .tags tag_id = r.row .tags tag_id) (edges : r'.content_item_tags = r.content_item_tags) : Touches [] r r' := by
  refine .of_tags tidy items nofun (fun _ _ _ => by rw [edges]) (fun _ _ tag_id _ => by rw [tag_name,tag_name,tags])
    (fun tag_id row held => tidy.names tag_id row (tags tag_id ▸ held)) (fun edge inside => ?_)
  rw [tags]
  exact tidy.edges edge (edges ▸ inside)

/-- The columns of an item that the index shows are as they were. -/
theorem Touches.of_item {row row' : Row} (tidy : r.Tidy) (held : r.row .content_items id = some row)
    (shown : ∀ column ∈ ["title","author","content_text"], row' column = row column) : Touches [] r (r.set_row .content_items id row') := by
  have title := shown "title" (by decide)
  have author := shown "author" (by decide)
  have text := shown "content_text" (by decide)
  refine ⟨nofun,fun other _ => ?_,?_⟩
  · by_cases same : other = id
    · subst same
      have tags : (r.set_row .content_items other row').tags_for_item_as_string other = r.tags_for_item_as_string other :=
        tags_congr (fun _ => Iff.rfl) (fun _ _ => rfl)
      rw [searchable,searchable,row_set_row_self,held,Option.map_some,Option.map_some,title,author,text,tags]
    · exact set_item_others same
  · exact set_item_tidy tidy (title ▸ tidy.titles id row held) (author ▸ tidy.authors id row held) (text ▸ tidy.texts id row held)

/-! ### The statements of local commands -/

section
variable [Sqlite]

/-- The columns of a new item that the index shows. -/
theorem new_item_columns [TimeCrate] (now : String) (item : Library.ContentItem) :
    new_row now .content_items (given_values item.columns []) "title" = .Text item.title ∧
      new_row now .content_items (given_values item.columns []) "author" = optional_text item.author ∧
      new_row now .content_items (given_values item.columns []) "content_text" = optional_text item.content_text := by
  have text (name : String) (v : Value) (value : item.columns[name]? = some v)
      (column : ∃ c, (columns .content_items).find? (fun c => c.name = name) = some c ∧ c.affinity = .TEXT) :
      new_row now .content_items (given_values item.columns []) name = coerce .TEXT (json_to_sql v) := by
    obtain ⟨c,found,affinity⟩ := column
    simp only [new_row,found,given_values,value,affinity]
  have optional (text : Option String) : coerce .TEXT (json_to_sql (Library.ContentItem.columns.optional text)) = optional_text text := by
    cases text <;> rfl
  rw [← optional,← optional]
  refine ⟨text _ (.Str item.title) ?_ ⟨_,rfl,rfl⟩,text _ _ ?_ ⟨_,rfl,rfl⟩,text _ _ ?_ ⟨_,rfl,rfl⟩⟩
  all_goals
    simp only [Library.ContentItem.columns,List.foldl_cons,List.foldl_nil,Std.ExtTreeMap.getElem?_insert,compare_eq_iff_eq]
    rfl

end

end
end Replica

end Pergamon
