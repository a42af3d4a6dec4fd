import Mathlib.Data.List.Sort
import Pergamon.Fallible
import Pergamon.SmartFilter
import Pergamon.Storage

/-!
The library of one device, table by table, and the statements that local commands run on it:
items with the rows of their full-text index, feeds, tags, collections and memberships. A
statement that breaks a constraint fails and leaves what the statements before it have
written; a stored time that does not parse stops the program.

Tables are lists in the order of their row numbers. The times of tags, collections, notes and
rules are left out, and so are the tables that hang on items and that no command here reads.
-/
namespace Pergamon
open Fallible

/-- An instant with the offset of its calendar, in nanoseconds and seconds. -/
structure OffsetDateTime where
  nanos : ℤ
  offset : ℤ
  deriving DecidableEq

/-- The time crate: the RFC 3339 text of a time, where it has one, the text it has in any case,
    and the time that an RFC 3339 text reads as; and the text that SQLite gives to a time. -/
class TimeCrate where
  format_rfc3339 : OffsetDateTime → Option String
  to_string : OffsetDateTime → String
  parse_rfc3339 : String → Option OffsetDateTime
  strftime : OffsetDateTime → String

/-- Every time has one text. -/
@[reducible] def plainTimes : TimeCrate := ⟨fun _ => some "now",fun _ => "now",fun _ => some ⟨0,0⟩,fun _ => "now"⟩

/-- The text of a time in the database. -/
def fmt_time [TimeCrate] (t : OffsetDateTime) : String := (TimeCrate.format_rfc3339 t).getD (TimeCrate.to_string t)

/-- A unified content item. -/
structure Library.ContentItem where
  id : String
  url : Option String
  title : String
  author : Option String
  content_type : ContentType
  status : DocumentStatus
  content_text : Option String
  excerpt : Option String
  published_at : Option OffsetDateTime
  created_at : OffsetDateTime
  updated_at : OffsetDateTime
  read_at : Option OffsetDateTime
  deriving DecidableEq

/-- A row of `content_items`, where times are texts. -/
structure ItemRow where
  rowid : ℕ
  id : String
  url : Option String
  title : String
  author : Option String
  content_type : ContentType
  status : DocumentStatus
  content_text : Option String
  excerpt : Option String
  published_at : Option String
  created_at : String
  updated_at : String
  read_at : Option String
  deriving DecidableEq

section
variable [TimeCrate]

/-- The row of an item. -/
def ItemRow.of (rowid : ℕ) (item : Library.ContentItem) : ItemRow :=
  ⟨rowid,item.id,item.url,item.title,item.author,item.content_type,item.status,item.content_text,item.excerpt,
    item.published_at.map fmt_time,fmt_time item.created_at,fmt_time item.updated_at,item.read_at.map fmt_time⟩

/-- A stored time that may be missing. -/
def parse_time_opt : Option String → Option (Option OffsetDateTime)
  | none => some none
  | some text => (TimeCrate.parse_rfc3339 text).map some

/-- The item that a row holds, unless one of its times does not parse. -/
def Library.row_to_content_item (row : ItemRow) : Option Library.ContentItem := do
  let published_at ← parse_time_opt row.published_at
  let created_at ← TimeCrate.parse_rfc3339 row.created_at
  let updated_at ← TimeCrate.parse_rfc3339 row.updated_at
  let read_at ← parse_time_opt row.read_at
  some ⟨row.id,row.url,row.title,row.author,row.content_type,row.status,row.content_text,row.excerpt,published_at,
    created_at,updated_at,read_at⟩

/-- Rows that do not all read. -/
theorem read_all {rows : List ItemRow} : rows.mapM Library.row_to_content_item = none ↔ ∃ row ∈ rows, Library.row_to_content_item row = none := by
  induction rows with
  | nil => simp
  | cons row rows ih =>
    rw [List.mapM_cons,List.exists_mem_cons_iff,← ih]
    cases Library.row_to_content_item row with
    | none => exact iff_of_true rfl (.inl rfl)
    | some item => cases rows.mapM Library.row_to_content_item <;> simp

theorem read_length {rows : List ItemRow} {items : List Library.ContentItem} (reads : rows.mapM Library.row_to_content_item = some items) :
    items.length = rows.length := by
  induction rows generalizing items with
  | nil =>
    cases reads
    rfl
  | cons row rows ih =>
    rw [List.mapM_cons] at reads
    obtain ⟨item,-,reads⟩ := Option.bind_eq_some_iff.mp reads
    obtain ⟨rest,later,made⟩ := Option.bind_eq_some_iff.mp reads
    cases made
    rw [List.length_cons,List.length_cons,ih later]

/-- The row after an update of its status. Archiving sets `read_at` where it is missing; the
    trigger on updates sets `updated_at`. -/
def ItemRow.set_status (now : OffsetDateTime) (status : DocumentStatus) (row : ItemRow) : ItemRow :=
  { row with
    status := status
    updated_at := TimeCrate.strftime now
    read_at := if status = .Archived then some (row.read_at.getD (fmt_time now)) else row.read_at }

end

/-- A row of the full-text index. -/
structure FtsRow where
  rowid : ℕ
  content_item_id : String
  title : String
  author : Option String
  content_text : Option String
  tags : String
  deriving DecidableEq

structure Feed where
  id : String
  title : String
  url : String
  deriving DecidableEq

structure FeedItemMeta where
  content_item_id : String
  feed_id : String
  guid : Option String
  summary : Option String
  deriving DecidableEq

structure BookmarkMeta where
  content_item_id : String
  original_url : Option String
  saved_from : Option String
  thumbnail_url : Option String
  description : Option String
  site_name : Option String
  favicon_url : Option String
  deriving DecidableEq

structure HighlightMeta where
  content_item_id : String
  source_item_id : Option String
  quote_text : String
  note : Option String
  position_start : Option ℤ
  position_end : Option ℤ
  color : Option String
  deriving DecidableEq

structure Note where
  id : String
  content_item_id : String
  body : String
  deriving DecidableEq

structure Tag where
  id : String
  name : String
  deriving DecidableEq

/-- A collection; its times are left out. -/
structure Library.Collection where
  id : String
  name : String
  parent_id : Option String
  sort_order : Int
  is_smart : Bool
  filter_query : Option String
  deriving DecidableEq

structure CollectionItem where
  content_item_id : String
  collection_id : String
  sort_order : ℤ
  deriving DecidableEq

/-- An action to apply when a rule matches. -/
inductive RuleAction where
  | AddTag (name : String)
  | SetStatus (status : DocumentStatus)
  | AddToCollection (name : String)
  | Mute
  deriving DecidableEq

structure ContentRule where
  id : String
  name : String
  enabled : Bool
  priority : ℤ
  filter_query : String
  actions : List RuleAction
  deriving DecidableEq

/-- The tables of a library, the time that a command reads and the random ids to come. -/
structure Library where
  content_items : List ItemRow
  content_items_fts : List FtsRow
  feeds : List Feed
  feed_item_meta : List FeedItemMeta
  bookmark_meta : List BookmarkMeta
  highlight_meta : List HighlightMeta
  notes : List Note
  tags : List Tag
  collections : List Library.Collection
  content_item_tags : List (String × String)
  content_item_collections : List CollectionItem
  content_rules : List ContentRule
  now : OffsetDateTime
  uuids : ℕ → String

/-- Why a command ends early: a storage error, a message of its own, or a stored time that does
    not parse. -/
inductive Failure where
  | storage (e : StorageError)
  | bail (message : String)
  | panic
  deriving DecidableEq

/-- What a command does to the library. The contexts that commands put around errors are left out. -/
abbrev Work := EStateM Failure Library

namespace Library

/-- One statement. It writes nothing where it fails. -/
def run (statement : Library → Except StorageError Library) : Work Unit := fun lib =>
  match statement lib with
  | .ok lib' => .ok () lib'
  | .error e => .error (.storage e) lib

/-- A query that may find that something is missing. -/
def ask {α : Type} (query : Library → Except StorageError α) : Work α := fun lib =>
  match query lib with
  | .ok a => .ok a lib
  | .error e => .error (.storage e) lib

/-- `Uuid::new_v4`. -/
def new_v4 : Work String := fun lib => .ok (lib.uuids 0) { lib with uuids := fun n => lib.uuids (n + 1) }

section
variable {lib lib' : Library} {α : Type} {a : α} {e : Failure}

theorem run_ok {statement : Library → Except StorageError Library} :
    run statement lib = .ok () lib' ↔ statement lib = .ok lib' := by
  unfold run
  cases statement lib <;> simp

/-- What a statement leaves. -/
theorem run_leaves {statement : Library → Except StorageError Library} :
    leaves (run statement lib) = match statement lib with
      | .ok lib' => lib'
      | .error _ => lib := by
  unfold run
  cases statement lib <;> rfl

theorem ask_ok {query : Library → Except StorageError α} : ask query lib = .ok a lib' ↔ query lib = .ok a ∧ lib = lib' := by
  unfold ask
  cases query lib <;> simp

end

/-! ### Names -/

/-- The ASCII letters in lower case. -/
def folded (s : String) : List Char := s.toList.map (fun c => if 'A' ≤ c ∧ c ≤ 'Z' then Char.ofNat (c.toNat + 32) else c)

/-- Two texts that differ in the case of ASCII letters at most, as the collation NOCASE compares. -/
def same_name (a b : String) : Bool := folded a = folded b

theorem same_name_refl (name : String) : same_name name name := by simp [same_name]

theorem same_name_symm {a b : String} (same : same_name a b) : same_name b a := by
  simp only [same_name,decide_eq_true_eq] at same ⊢
  exact same.symm

theorem same_name_trans {a b c : String} (one : same_name a b) (two : same_name b c) : same_name a c := by
  simp only [same_name,decide_eq_true_eq] at one two ⊢
  exact one.trans two

/-! ### Items -/

/-- The next row number: one more than the greatest. -/
def next_rowid (rowids : List ℕ) : ℕ := rowids.foldr max 0 + 1

theorem lt_next_rowid {rowids : List ℕ} {n : ℕ} (inside : n ∈ rowids) : n < next_rowid rowids := by
  unfold next_rowid
  induction rowids with
  | nil => cases inside
  | cons m rowids ih =>
    rw [List.foldr_cons]
    rcases List.mem_cons.mp inside with rfl | later
    · omega
    · have := ih later
      omega

def has_item (lib : Library) (id : String) : Bool := lib.content_items.any (fun row => row.id = id)

def get_item_row (lib : Library) (id : String) : Option ItemRow := lib.content_items.find? (fun row => row.id = id)

/-- A url is held by some item. -/
def holds_url (lib : Library) (url : Option String) : Bool :=
  url.isSome && lib.content_items.any (fun row => row.url = url)

/-- Membership of an edge is decided under one proof, wherever edges are listed. -/
instance : LawfulBEq (String × String) := inferInstance

/-- The tags of an item, in the order of their names. -/
def tags_for_item (lib : Library) (id : String) : List Tag :=
  (lib.tags.filter (fun tag => (id,tag.id) ∈ lib.content_item_tags)).insertionSort (fun a b => folded a.name ≤ folded b.name)

def tags_for_item_as_string (lib : Library) (id : String) : String :=
  ", ".intercalate ((lib.tags_for_item id).map Tag.name)

/-- Put a row into the full-text index. -/
def insert_fts (lib : Library) (id title : String) (author content_text : Option String) : Library :=
  { lib with content_items_fts := lib.content_items_fts ++
      [⟨next_rowid (lib.content_items_fts.map FtsRow.rowid),id,title,author,content_text,lib.tags_for_item_as_string id⟩] }

/-- Refresh the tags of an item in the full-text index: its rows are deleted, and a new one is inserted. -/
def refresh_fts_tags (lib : Library) (id : String) : Except StorageError Library :=
  match lib.get_item_row id with
  | none => .error .Sqlite
  | some row =>
    .ok ({ lib with content_items_fts := lib.content_items_fts.filter (fun fts => fts.content_item_id ≠ id) }.insert_fts id
      row.title row.author row.content_text)

/-- What is read, or the program stops. -/
def read_or_panic {α : Type} : Option α → Work α
  | some a => pure a
  | none => throw .panic

theorem read_or_panic_ok {α : Type} {read : Option α} {a : α} {lib lib' : Library} :
    read_or_panic read lib = .ok a lib' ↔ read = some a ∧ lib = lib' := by
  cases read with
  | none => exact ⟨nofun,nofun⟩
  | some b =>
    constructor
    · rintro ⟨⟩
      exact ⟨rfl,rfl⟩
    · rintro ⟨⟨⟩,rfl⟩
      rfl

section
variable [TimeCrate]

/-- Insert a new content item and update the full-text index. -/
def insert_content_item (item : Library.ContentItem) : Work Unit := do
  run (fun lib =>
    if lib.has_item item.id ∨ lib.holds_url item.url then .error .Sqlite
    else .ok { lib with content_items := lib.content_items ++
      [ItemRow.of (next_rowid (lib.content_items.map ItemRow.rowid)) item] })
  run (fun lib => .ok (lib.insert_fts item.id item.title item.author item.content_text))

/-- What an insertion leaves. -/
theorem insert_content_item_leaves (item : Library.ContentItem) (lib : Library) :
    leaves (insert_content_item item lib) =
      if lib.has_item item.id ∨ lib.holds_url item.url then lib
      else { lib with content_items := lib.content_items ++
        [ItemRow.of (next_rowid (lib.content_items.map ItemRow.rowid)) item] }.insert_fts item.id item.title item.author item.content_text := by
  simp only [insert_content_item,work_bind,run]
  by_cases taken : lib.has_item item.id ∨ lib.holds_url item.url
  · simp only [if_pos taken]
    rfl
  · simp only [if_neg taken]
    rfl

/-- Retrieve a content item by id. -/
def get_content_item (id : String) : Work Library.ContentItem := do
  let row ← ask (fun lib =>
    match lib.get_item_row id with
    | some row => .ok row
    | none => .error (.NotFound "content_item" id))
  read_or_panic (Library.row_to_content_item row)

/-- Change the row of one item. -/
def update_item (lib : Library) (id : String) (change : ItemRow → ItemRow) : Library :=
  { lib with content_items := lib.content_items.map (fun row => if row.id = id then change row else row) }

/-- Update the status of a content item. -/
def update_content_item_status (id : String) (status : DocumentStatus) : Work Unit :=
  run (fun lib =>
    if lib.has_item id then .ok (lib.update_item id (fun row => row.set_status lib.now status))
    else .error (.NotFound "content_item" id))

end

section
variable {lib : Library} {id other : String}

theorem has_item_iff : lib.has_item id ↔ ∃ row, lib.get_item_row id = some row := by
  rw [has_item,List.any_eq_true,← Option.isSome_iff_exists,get_item_row,List.find?_isSome]

theorem get_item_row_id {row : ItemRow} (found : lib.get_item_row id = some row) : row.id = id := by
  simpa using List.find?_some found

/-- A change of a row that keeps its id. -/
theorem get_item_row_update (change : ItemRow → ItemRow) (keeps : ∀ row, (change row).id = row.id) :
    (lib.update_item id change).get_item_row other =
      if other = id then (lib.get_item_row other).map change else lib.get_item_row other := by
  have same : (fun row : ItemRow => decide (row.id = other)) ∘ (fun row => if row.id = id then change row else row) =
      fun row => decide (row.id = other) := by
    funext row
    dsimp only [Function.comp]
    split
    · rw [keeps]
    · rfl
  rw [get_item_row,update_item,List.find?_map,same]
  change (lib.get_item_row other).map _ = _
  cases found : lib.get_item_row other with
  | none => simp
  | some row =>
    have here := get_item_row_id found
    by_cases apart : other = id
    · simp [here,apart]
    · simp [here,apart]

end

/-! ### Tags -/

/-- Get an existing tag by name or create one. -/
def get_or_create_tag (name : String) : Work Tag := do
  let id ← new_v4
  run (fun lib =>
    if lib.tags.any (fun tag => tag.id = id || same_name tag.name name) then .ok lib
    else .ok { lib with tags := lib.tags ++ [⟨id,name⟩] })
  ask (fun lib =>
    match lib.tags.find? (fun tag => same_name tag.name name) with
    | some tag => .ok tag
    | none => .error (.NotFound "tag" name))

/-- `INSERT OR IGNORE` into `content_item_tags`. A foreign key is checked all the same. -/
def insert_item_tag (lib : Library) (content_item_id tag_id : String) : Except StorageError Library :=
  if (content_item_id,tag_id) ∈ lib.content_item_tags then .ok lib
  else if lib.has_item content_item_id ∧ lib.tags.any (fun tag => tag.id = tag_id) then
    .ok { lib with content_item_tags := lib.content_item_tags ++ [(content_item_id,tag_id)] }
  else .error .Sqlite

/-- Associate a tag with a content item and refresh the full-text index. -/
def tag_content_item (content_item_id tag_id : String) : Work Unit := do
  run (fun lib => lib.insert_item_tag content_item_id tag_id)
  run (fun lib => lib.refresh_fts_tags content_item_id)

/-! ### Collections -/

def get_collection (lib : Library) (id : String) : Except StorageError Library.Collection :=
  match lib.collections.find? (fun coll => coll.id = id) with
  | some coll => .ok coll
  | none => .error (.NotFound "collection" id)

def get_collection_by_name (lib : Library) (name : String) : Option Library.Collection :=
  lib.collections.find? (fun coll => same_name coll.name name)

/-- Insert a new collection. The trigger asks for a filter iff the collection is smart; a
    collection may be its own parent. -/
def insert_collection (coll : Library.Collection) : Work Unit :=
  run (fun lib =>
    let parent_ok := coll.parent_id.all (fun parent => parent = coll.id || lib.collections.any (fun c => c.id = parent))
    if coll.is_smart = coll.filter_query.isSome ∧ lib.collections.all (fun c => c.id ≠ coll.id) ∧ parent_ok then
      .ok { lib with collections := lib.collections ++ [coll] }
    else .error .Sqlite)

/-- Add a content item to a collection that is not smart. -/
def add_to_collection (content_item_id collection_id : String) (sort_order : ℤ) : Work Unit := do
  let coll ← ask (fun lib => lib.get_collection collection_id)
  if coll.is_smart then throw (.storage (.Constraint "cannot manually add items to a smart collection"))
  else
    run (fun lib =>
      if lib.content_item_collections.any (fun m => m.content_item_id = content_item_id ∧ m.collection_id = collection_id) then .ok lib
      else if lib.has_item content_item_id then
        .ok { lib with content_item_collections := lib.content_item_collections ++ [⟨content_item_id,collection_id,sort_order⟩] }
      else .error .Sqlite)

/-- The rows of the items in a collection. -/
def collection_rows (lib : Library) (collection_id : String) : List ItemRow :=
  lib.content_items.filter (fun row =>
    lib.content_item_collections.any (fun m => m.content_item_id = row.id ∧ m.collection_id = collection_id))

end Library
end Pergamon
