import Pergamon.Rules

/-!
Merging two items. The tags and the collections of the discarded item go to the kept one, its
bookmark data too where the kept one has none, the earlier time of creation is taken over, and
then the discarded item is deleted with all rows that hang on it. Every statement stands for
itself: there is no transaction around them, so one that the storage refuses leaves what those
before it have written.

Notes and the sources of highlights are not transferred, bookmark data are not merged field by
field, and whether a time is earlier is asked of times once and of their texts once. So a merge
keeps everything iff there is nothing of this kind to lose (`merge_iff`).
-/
namespace Pergamon
open Fallible

/-- The statements of a merge. -/
inductive MergeStep where
  | TransferTags
  | ClearIndex
  | FillIndex
  | TransferCollections
  | ReadBookmark
  | WriteBookmark
  | Backdate
  | DropIndex
  | DeleteItem
  deriving DecidableEq

/-- Which statements the storage refuses, and with what. -/
abbrev Refusals := MergeStep → Option Failure

/-- The fields of bookmark metadata. -/
def bookmark_fields : List (BookmarkMeta → Option String) :=
  [BookmarkMeta.original_url,BookmarkMeta.saved_from,BookmarkMeta.thumbnail_url,BookmarkMeta.description,
    BookmarkMeta.site_name,BookmarkMeta.favicon_url]

namespace Library

/-- One statement of a merge. -/
def statement (refused : Refusals) (step : MergeStep) (write : Library → Except StorageError Library) : Work Unit := fun lib =>
  match refused step with
  | some failure => .error failure lib
  | none => run write lib

/-! ### The statements -/

/-- The tags of one item that another does not have, for that item. -/
def missing_tags (lib : Library) (from_id to_id : String) : List (String × String) :=
  ((lib.content_item_tags.filter (fun edge => edge.1 = from_id)).map (fun edge => (to_id,edge.2))).filter
    (fun edge => edge ∉ lib.content_item_tags)

/-- The memberships of one item in collections that another is not in, for that item. -/
def missing_members (lib : Library) (from_id to_id : String) : List CollectionItem :=
  ((lib.content_item_collections.filter (fun m => m.content_item_id = from_id)).map (fun m => { m with content_item_id := to_id })).filter
    (fun m => ¬ lib.content_item_collections.any (fun n => n.content_item_id = to_id ∧ n.collection_id = m.collection_id))

def give_tags (from_id to_id : String) (lib : Library) : Library :=
  { lib with content_item_tags := lib.content_item_tags ++ lib.missing_tags from_id to_id }

def give_members (from_id to_id : String) (lib : Library) : Library :=
  { lib with content_item_collections := lib.content_item_collections ++ lib.missing_members from_id to_id }

def clear_index (id : String) (lib : Library) : Library :=
  { lib with content_items_fts := lib.content_items_fts.filter (fun fts => fts.content_item_id ≠ id) }

def fill_index (row : ItemRow) (lib : Library) : Library := lib.insert_fts row.id row.title row.author row.content_text

/-- `refresh_fts_tags` is these two statements. -/
theorem refresh_fts_tags_eq {lib : Library} {id : String} {row : ItemRow} (found : lib.get_item_row id = some row) :
    lib.refresh_fts_tags id = .ok (fill_index row (clear_index id lib)) := by
  rw [refresh_fts_tags,found,fill_index,get_item_row_id found]
  rfl

/-- Transfer all tags from one content item to another. -/
def transfer_tags (refused : Refusals) (from_id to_id : String) : Work Unit := do
  statement refused .TransferTags (fun lib =>
    if lib.missing_tags from_id to_id = [] ∨ lib.has_item to_id then .ok (give_tags from_id to_id lib) else .error .Sqlite)
  let row ← ask (fun lib =>
    match lib.get_item_row to_id with
    | some row => .ok row
    | none => .error .Sqlite)
  statement refused .ClearIndex (fun lib => .ok (clear_index to_id lib))
  statement refused .FillIndex (fun lib => .ok (fill_index row lib))

/-- Transfer all collection memberships from one content item to another. -/
def transfer_collections (refused : Refusals) (from_id to_id : String) : Work Unit :=
  statement refused .TransferCollections (fun lib =>
    if lib.missing_members from_id to_id = [] ∨ lib.has_item to_id then .ok (give_members from_id to_id lib) else .error .Sqlite)

def get_bookmark_meta (lib : Library) (id : String) : Option BookmarkMeta :=
  lib.bookmark_meta.find? (fun bm => bm.content_item_id = id)

def has_bookmark_meta (lib : Library) (id : String) : Bool := (lib.get_bookmark_meta id).isSome

/-- Upsert bookmark metadata (insert if absent, update if present). -/
def upsert_bookmark (bm : BookmarkMeta) (lib : Library) : Library :=
  { lib with bookmark_meta :=
    if lib.has_bookmark_meta bm.content_item_id then
      lib.bookmark_meta.map (fun old =>
        if old.content_item_id = bm.content_item_id then
          ⟨old.content_item_id,bm.original_url.or old.original_url,bm.saved_from.or old.saved_from,
            bm.thumbnail_url.or old.thumbnail_url,bm.description.or old.description,bm.site_name.or old.site_name,
            bm.favicon_url.or old.favicon_url⟩
        else old)
    else lib.bookmark_meta ++ [bm] }

def upsert_bookmark_meta (refused : Refusals) (bm : BookmarkMeta) : Work Unit :=
  statement refused .WriteBookmark (fun lib =>
    if lib.has_item bm.content_item_id then .ok (upsert_bookmark bm lib) else .error .Sqlite)

/-- The rows of one item deleted, and with them all rows that refer to it; highlights of the item
    lose their source. -/
def delete_item (id : String) (lib : Library) : Library :=
  { lib with
    content_items := lib.content_items.filter (fun row => row.id ≠ id)
    feed_item_meta := lib.feed_item_meta.filter (fun m => m.content_item_id ≠ id)
    bookmark_meta := lib.bookmark_meta.filter (fun bm => bm.content_item_id ≠ id)
    highlight_meta := (lib.highlight_meta.filter (fun h => h.content_item_id ≠ id)).map (fun h =>
      { h with source_item_id := if h.source_item_id = some id then none else h.source_item_id })
    notes := lib.notes.filter (fun note => note.content_item_id ≠ id)
    content_item_tags := lib.content_item_tags.filter (fun edge => edge.1 ≠ id)
    content_item_collections := lib.content_item_collections.filter (fun m => m.content_item_id ≠ id) }

/-- Delete a content item and its row in the index. -/
def delete_content_item (refused : Refusals) (id : String) : Work Unit := do
  statement refused .DropIndex (fun lib => .ok (clear_index id lib))
  statement refused .DeleteItem (fun lib => .ok (delete_item id lib))

section
variable [TimeCrate]

/-- Set the time of creation if the stored text is greater than that of the new time. -/
def backdate (id : String) (earlier : OffsetDateTime) (lib : Library) : Library :=
  lib.update_item id (fun row =>
    if fmt_time earlier < row.created_at then
      { row with created_at := fmt_time earlier, updated_at := TimeCrate.strftime lib.now }
    else row)

/-- Update a content item's `created_at` to an earlier timestamp. -/
def backdate_created_at (refused : Refusals) (id : String) (earlier : OffsetDateTime) : Work Unit :=
  statement refused .Backdate (fun lib => .ok (backdate id earlier lib))

/-- Upsert the bookmark metadata if the discarded item has some and the kept one has none; where
    reading them fails, they are left out. -/
def merge_bookmark (refused : Refusals) (keep_id discard_id : String) (keep_has_bookmark discard_has_bookmark : Bool) : Work Unit :=
  if discard_has_bookmark && !keep_has_bookmark && (refused .ReadBookmark).isNone then do
    let bm ← ask (fun lib => .ok (lib.get_bookmark_meta discard_id))
    match bm with
    | some bm => upsert_bookmark_meta refused { bm with content_item_id := keep_id }
    | none => pure ()
  else pure ()

/-- Backdate `created_at` to the earliest of the two. -/
def merge_created (refused : Refusals) (keep discard : Library.ContentItem) : Work Unit :=
  if discard.created_at.nanos < keep.created_at.nanos then backdate_created_at refused keep.id discard.created_at
  else pure ()

/-- Merge two duplicate items: transfer tags and collections, preserve bookmark data, backdate
    `created_at`, and delete the discarded item. -/
def doctor_merge (refused : Refusals) (proceed : Bool) (keep_id discard_id : String) : Work Unit :=
  if keep_id = discard_id then throw (.bail "keep and discard IDs must be different")
  else do
    let keep_item ← get_content_item keep_id
    let discard_item ← get_content_item discard_id
    let keep_has_bookmark ← ask (fun lib => .ok (lib.has_bookmark_meta keep_id))
    let discard_has_bookmark ← ask (fun lib => .ok (lib.has_bookmark_meta discard_id))
    if proceed then
      transfer_tags refused discard_id keep_id
      transfer_collections refused discard_id keep_id
      merge_bookmark refused keep_id discard_id keep_has_bookmark discard_has_bookmark
      merge_created refused keep_item discard_item
      delete_content_item refused discard_id
    else pure ()

/-! ### The writes of a merge -/

/-- The bookmark metadata that a merge copies. -/
def copied_bookmark (refused : Refusals) (lib : Library) (keep_id discard_id : String) : Option BookmarkMeta :=
  if lib.has_bookmark_meta keep_id || (refused .ReadBookmark).isSome then none
  else (lib.get_bookmark_meta discard_id).map (fun bm => { bm with content_item_id := keep_id })

/-- What a merge writes, statement by statement. -/
def merge_writes (refused : Refusals) (lib : Library) (row : ItemRow) (keep discard : Library.ContentItem) :
    List (MergeStep × (Library → Library)) :=
  [(.TransferTags,give_tags discard.id keep.id),(.ClearIndex,clear_index keep.id),(.FillIndex,fill_index row)] ++
    ([(.TransferCollections,give_members discard.id keep.id)] ++
      ((copied_bookmark refused lib keep.id discard.id).toList.map (fun bm => (.WriteBookmark,upsert_bookmark bm)) ++
        ((if discard.created_at.nanos < keep.created_at.nanos then [(.Backdate,backdate keep.id discard.created_at)] else []) ++
          [(.DropIndex,clear_index discard.id),(.DeleteItem,delete_item discard.id)])))

section
variable {refused : Refusals} {lib : Library} {row : ItemRow}

omit [TimeCrate] in
theorem statement_makes {step : MergeStep} {write : Library → Except StorageError Library} {writes : Library → Library}
    {pre post : Library → Prop} (goes : ∀ lib, pre lib → write lib = .ok (writes lib) ∧ post (writes lib)) :
    Makes refused pre (statement refused step write) [(step,writes)] post := by
  intro lib holds
  obtain ⟨same,reaches⟩ := goes lib holds
  refine ⟨?_,reaches⟩
  rw [statement,Library.run,same,Fallible.writes]
  cases refused step <;> rfl

omit [TimeCrate] in
/-- The row of the kept item and the bookmark metadata stand. -/
structure Standing (row : ItemRow) (bms : List BookmarkMeta) (lib : Library) : Prop where
  row : lib.get_item_row row.id = some row
  bookmarks : lib.bookmark_meta = bms

variable {bms : List BookmarkMeta}

omit [TimeCrate] in
theorem Standing.item (standing : Standing row bms lib) : lib.has_item row.id := has_item_iff.mpr ⟨row,standing.row⟩

omit [TimeCrate] in
theorem transfer_tags_makes (discard_id : String) : Makes refused (Standing row bms) (transfer_tags refused discard_id row.id)
    [(.TransferTags,give_tags discard_id row.id),(.ClearIndex,clear_index row.id),(.FillIndex,fill_index row)] (Standing row bms) := by
  have cleared : Makes refused (Standing row bms) (statement refused .ClearIndex (fun lib => .ok (clear_index row.id lib)))
      [(.ClearIndex,clear_index row.id)] (Standing row bms) := statement_makes fun lib standing => ⟨rfl,⟨standing.row,standing.bookmarks⟩⟩
  have filled : Makes refused (Standing row bms) (statement refused .FillIndex (fun lib => .ok (fill_index row lib)))
      [(.FillIndex,fill_index row)] (Standing row bms) := statement_makes fun lib standing => ⟨rfl,⟨standing.row,standing.bookmarks⟩⟩
  have given : Makes refused (Standing row bms) (statement refused .TransferTags (fun lib =>
      if lib.missing_tags discard_id row.id = [] ∨ lib.has_item row.id then .ok (give_tags discard_id row.id lib) else .error .Sqlite))
      [(.TransferTags,give_tags discard_id row.id)] (Standing row bms) :=
    statement_makes fun lib standing => ⟨if_pos (.inr standing.item),⟨standing.row,standing.bookmarks⟩⟩
  refine given.bind (fun lib standing => ?_)
  obtain ⟨same,reaches⟩ := cleared.bind filled lib standing
  refine ⟨?_,reaches⟩
  rw [work_bind,ask,standing.row]
  exact same

omit [TimeCrate] in
theorem transfer_collections_makes (discard_id : String) : Makes refused (Standing row bms) (transfer_collections refused discard_id row.id)
    [(.TransferCollections,give_members discard_id row.id)] (Standing row bms) :=
  statement_makes fun _ standing => ⟨if_pos (.inr standing.item),⟨standing.row,standing.bookmarks⟩⟩

omit [TimeCrate] in
theorem merge_bookmark_makes (discard_id : String) : Makes refused (Standing row lib.bookmark_meta)
    (merge_bookmark refused row.id discard_id (lib.has_bookmark_meta row.id) (lib.has_bookmark_meta discard_id))
    ((copied_bookmark refused lib row.id discard_id).toList.map (fun bm => (.WriteBookmark,upsert_bookmark bm)))
    (fun now => now.has_item row.id) := by
  intro now standing
  have same (id : String) : now.get_bookmark_meta id = lib.get_bookmark_meta id := by
    rw [get_bookmark_meta,standing.bookmarks,get_bookmark_meta]
  unfold merge_bookmark copied_bookmark
  cases keeps : lib.has_bookmark_meta row.id with
  | true => exact ⟨by simp [Fallible.writes],standing.item⟩
  | false =>
    cases reads : refused .ReadBookmark with
    | some failure => exact ⟨by simp [Fallible.writes],standing.item⟩
    | none =>
      cases found : lib.get_bookmark_meta discard_id with
      | none => exact ⟨by simp [has_bookmark_meta,found,Fallible.writes],standing.item⟩
      | some bm =>
        have upserts : Makes refused (Standing row lib.bookmark_meta) (upsert_bookmark_meta refused { bm with content_item_id := row.id })
            [(.WriteBookmark,upsert_bookmark { bm with content_item_id := row.id })] (fun now => now.has_item row.id) :=
          statement_makes fun now standing => ⟨if_pos standing.item,standing.item⟩
        obtain ⟨writes,reaches⟩ := upserts now standing
        refine ⟨?_,reaches⟩
        rw [has_bookmark_meta,found]
        simp only [Option.isSome_some,Bool.not_false,Option.isNone_none,Bool.and_self,if_true,work_bind,ask,same,found]
        exact writes

theorem merge_created_makes {pre : Library → Prop} (keep discard : Library.ContentItem) : Makes refused pre (merge_created refused keep discard)
    (if discard.created_at.nanos < keep.created_at.nanos then [(.Backdate,backdate keep.id discard.created_at)] else []) (fun _ => True) := by
  unfold merge_created
  split
  · exact statement_makes fun _ _ => ⟨rfl,trivial⟩
  · exact fun _ _ => ⟨rfl,trivial⟩

omit [TimeCrate] in
theorem delete_content_item_makes (id : String) : Makes refused (fun _ => True) (delete_content_item refused id)
    [(.DropIndex,clear_index id),(.DeleteItem,delete_item id)] (fun _ => True) := by
  have dropped : Makes refused (fun _ => True) (statement refused .DropIndex (fun lib => .ok (clear_index id lib)))
      [(.DropIndex,clear_index id)] (fun _ => True) := statement_makes fun _ _ => ⟨rfl,trivial⟩
  exact dropped.bind (statement_makes fun _ _ => ⟨rfl,trivial⟩)

theorem row_to_content_item_some {item : Library.ContentItem} (reads : Library.row_to_content_item row = some item) :
    item.id = row.id ∧ TimeCrate.parse_rfc3339 row.created_at = some item.created_at := by
  simp only [Library.row_to_content_item,Option.bind_eq_bind,Option.bind_eq_some_iff] at reads
  obtain ⟨published_at,-,created_at,created,updated_at,-,read_at,-,made⟩ := reads
  cases made
  exact ⟨rfl,created⟩

theorem get_content_item_ok {item : Library.ContentItem} {id : String} (found : lib.get_item_row id = some row)
    (reads : Library.row_to_content_item row = some item) : get_content_item id lib = .ok item lib := by
  rw [get_content_item,work_bind,ask,found]
  exact read_or_panic_ok.mpr ⟨reads,rfl⟩

/-- What the merge of two items that are there writes. -/
theorem doctor_merge_writes {discard_row : ItemRow} {keep discard : Library.ContentItem} (distinct : row.id ≠ discard_row.id)
    (kept : lib.get_item_row row.id = some row) (discarded : lib.get_item_row discard_row.id = some discard_row)
    (reads : Library.row_to_content_item row = some keep) (reads' : Library.row_to_content_item discard_row = some discard) :
    doctor_merge refused true row.id discard_row.id lib = writes refused (merge_writes refused lib row keep discard) lib := by
  have tags : Makes refused (Standing row lib.bookmark_meta) (transfer_tags refused discard_row.id row.id) _ (Standing row lib.bookmark_meta) :=
    transfer_tags_makes discard_row.id
  have all := tags.bind ((transfer_collections_makes discard_row.id).bind ((merge_bookmark_makes discard_row.id).bind
    ((merge_created_makes keep discard).bind (delete_content_item_makes discard_row.id))))
  obtain ⟨same,-⟩ := all lib ⟨kept,rfl⟩
  obtain ⟨key,-⟩ := row_to_content_item_some reads
  obtain ⟨key',-⟩ := row_to_content_item_some reads'
  rw [merge_writes,key,key']
  rw [doctor_merge,if_neg distinct,work_bind,get_content_item_ok kept reads]
  simp only
  rw [work_bind,get_content_item_ok discarded reads']
  simp only
  rw [work_bind,ask]
  simp only
  rw [work_bind,ask]
  simp only [if_true]
  rw [key] at same
  exact same

/-! ### What a merge leaves -/

/-- The time of creation that the row of an item holds. -/
def created_at (lib : Library) (id : String) : Option OffsetDateTime :=
  (lib.get_item_row id).bind (fun row => TimeCrate.parse_rfc3339 row.created_at)

omit [TimeCrate] in
/-- A field of the bookmark metadata of an item. -/
def bookmark_field (lib : Library) (id : String) (field : BookmarkMeta → Option String) : Option String :=
  (lib.get_bookmark_meta id).bind field

omit [TimeCrate] in
/-- Nothing of an item has changed. -/
structure Same (lib lib' : Library) (id discard_id : String) : Prop where
  row : lib'.get_item_row id = lib.get_item_row id
  tags : ∀ tag_id, (id,tag_id) ∈ lib'.content_item_tags ↔ (id,tag_id) ∈ lib.content_item_tags
  collections : ∀ collection_id, in_collection lib' id collection_id ↔ in_collection lib id collection_id
  notes : ∀ note, note.content_item_id = id → (note ∈ lib'.notes ↔ note ∈ lib.notes)
  bookmark : lib'.get_bookmark_meta id = lib.get_bookmark_meta id
  feed : ∀ m, m.content_item_id = id → (m ∈ lib'.feed_item_meta ↔ m ∈ lib.feed_item_meta)
  quote : ∀ h ∈ lib.highlight_meta, h.content_item_id = id → h.source_item_id ≠ some discard_id → h ∈ lib'.highlight_meta

/-- The kept item has the tags, the collections and the notes of both, is the source of the
    highlights of both, and has the fields of bookmarks that either had and the earlier time of
    creation; every other item is as it was, but for sources of highlights. -/
structure Merged (keep_id discard_id : String) (lib lib' : Library) : Prop where
  tags : ∀ tag_id, (keep_id,tag_id) ∈ lib'.content_item_tags ↔
    (keep_id,tag_id) ∈ lib.content_item_tags ∨ (discard_id,tag_id) ∈ lib.content_item_tags
  collections : ∀ collection_id, in_collection lib' keep_id collection_id ↔
    in_collection lib keep_id collection_id ∨ in_collection lib discard_id collection_id
  notes : ∀ note ∈ lib.notes, note.content_item_id = keep_id ∨ note.content_item_id = discard_id →
    { note with content_item_id := keep_id } ∈ lib'.notes
  highlights : ∀ h ∈ lib.highlight_meta, h.source_item_id = some keep_id ∨ h.source_item_id = some discard_id →
    ∃ h' ∈ lib'.highlight_meta, h'.content_item_id = h.content_item_id ∧ h'.source_item_id = some keep_id
  bookmark : ∀ field ∈ bookmark_fields,
    (lib'.bookmark_field keep_id field = lib.bookmark_field keep_id field ∨
      lib'.bookmark_field keep_id field = lib.bookmark_field discard_id field) ∧
    ((lib.bookmark_field keep_id field).isSome ∨ (lib.bookmark_field discard_id field).isSome →
      (lib'.bookmark_field keep_id field).isSome)
  created : ∃ t, lib'.created_at keep_id = some t ∧ ∀ k d, lib.created_at keep_id = some k → lib.created_at discard_id = some d →
    t.nanos = min k.nanos d.nanos
  others : ∀ other, other ≠ keep_id → other ≠ discard_id → Same lib lib' other discard_id

/-- There is nothing that a merge loses: the discarded item has no notes and is the source of no
    highlight, and is not itself a highlight of the kept one; where its bookmark metadata are not
    copied, the kept item has all fields that it has; and where it was created earlier, the text
    of its time is smaller as well. -/
structure NoLoss (refused : Refusals) (lib : Library) (keep_id discard_id : String) : Prop where
  notes : ∀ note ∈ lib.notes, note.content_item_id ≠ discard_id
  sources : ∀ h ∈ lib.highlight_meta, h.source_item_id ≠ some discard_id
  quotes : ∀ h ∈ lib.highlight_meta, h.content_item_id = discard_id → h.source_item_id ≠ some keep_id
  bookmark : lib.has_bookmark_meta keep_id ∨ (refused .ReadBookmark).isSome → ∀ field ∈ bookmark_fields,
    (lib.bookmark_field discard_id field).isSome → (lib.bookmark_field keep_id field).isSome
  created : ∀ row k d, lib.get_item_row keep_id = some row → lib.created_at keep_id = some k → lib.created_at discard_id = some d →
    d.nanos < k.nanos → fmt_time d < row.created_at

section
variable {lib : Library} {refused : Refusals} {row discard_row : ItemRow} {keep discard : Library.ContentItem}

theorem merged_notes : (Fallible.written (merge_writes refused lib row keep discard) lib).notes =
    lib.notes.filter (fun note => note.content_item_id ≠ discard.id) := by
  unfold Fallible.written merge_writes
  cases copied_bookmark refused lib keep.id discard.id <;> split <;> rfl

theorem merged_highlights : (Fallible.written (merge_writes refused lib row keep discard) lib).highlight_meta =
    (lib.highlight_meta.filter (fun h => h.content_item_id ≠ discard.id)).map (fun h =>
      { h with source_item_id := if h.source_item_id = some discard.id then none else h.source_item_id }) := by
  unfold Fallible.written merge_writes
  cases copied_bookmark refused lib keep.id discard.id <;> split <;> rfl

theorem merged_feeds : (Fallible.written (merge_writes refused lib row keep discard) lib).feed_item_meta =
    lib.feed_item_meta.filter (fun m => m.content_item_id ≠ discard.id) := by
  unfold Fallible.written merge_writes
  cases copied_bookmark refused lib keep.id discard.id <;> split <;> rfl

theorem merged_tags : (Fallible.written (merge_writes refused lib row keep discard) lib).content_item_tags =
    (lib.content_item_tags ++ lib.missing_tags discard.id keep.id).filter (fun edge => edge.1 ≠ discard.id) := by
  unfold Fallible.written merge_writes
  cases copied_bookmark refused lib keep.id discard.id <;> split <;> rfl

theorem merged_members : (Fallible.written (merge_writes refused lib row keep discard) lib).content_item_collections =
    (lib.content_item_collections ++ lib.missing_members discard.id keep.id).filter (fun m => m.content_item_id ≠ discard.id) := by
  unfold Fallible.written merge_writes
  cases copied_bookmark refused lib keep.id discard.id <;> split <;> rfl

theorem merged_bookmarks : (Fallible.written (merge_writes refused lib row keep discard) lib).bookmark_meta =
    (match copied_bookmark refused lib keep.id discard.id with
      | some bm => (upsert_bookmark bm lib).bookmark_meta
      | none => lib.bookmark_meta).filter (fun bm => bm.content_item_id ≠ discard.id) := by
  unfold Fallible.written merge_writes
  cases copied_bookmark refused lib keep.id discard.id <;> split <;> rfl

theorem merged_items : (Fallible.written (merge_writes refused lib row keep discard) lib).content_items =
    (if discard.created_at.nanos < keep.created_at.nanos then backdate keep.id discard.created_at lib else lib).content_items.filter
      (fun row => row.id ≠ discard.id) := by
  unfold Fallible.written merge_writes
  cases copied_bookmark refused lib keep.id discard.id <;> split <;> rfl

theorem merged_tags_iff (distinct : keep.id ≠ discard.id) (tag_id : String) :
    (keep.id,tag_id) ∈ (Fallible.written (merge_writes refused lib row keep discard) lib).content_item_tags ↔
      (keep.id,tag_id) ∈ lib.content_item_tags ∨ (discard.id,tag_id) ∈ lib.content_item_tags := by
  rw [merged_tags,List.mem_filter,List.mem_append,missing_tags,List.mem_filter,List.mem_map]
  constructor
  · rintro ⟨old | ⟨⟨edge,given,same⟩,-⟩,-⟩
    · exact .inl old
    · obtain ⟨there,from_id⟩ := List.mem_filter.mp given
      obtain rfl : edge.2 = tag_id := congrArg Prod.snd same
      exact .inr (by rwa [← of_decide_eq_true from_id])
  · intro held
    refine ⟨?_,by simpa using distinct⟩
    by_cases old : (keep.id,tag_id) ∈ lib.content_item_tags
    · exact .inl old
    · have given := held.resolve_left old
      exact .inr ⟨⟨(discard.id,tag_id),List.mem_filter.mpr ⟨given,by simp⟩,rfl⟩,by simpa using old⟩

theorem merged_members_iff (distinct : keep.id ≠ discard.id) (collection_id : String) :
    in_collection (Fallible.written (merge_writes refused lib row keep discard) lib) keep.id collection_id ↔
      in_collection lib keep.id collection_id ∨ in_collection lib discard.id collection_id := by
  unfold in_collection
  simp only [merged_members,List.mem_filter,List.mem_append,missing_members,List.mem_map]
  constructor
  · rintro ⟨m,⟨old | ⟨⟨given,⟨there,from_id⟩,rfl⟩,-⟩,-⟩,here,coll⟩
    · exact .inl ⟨m,old,here,coll⟩
    · exact .inr ⟨given,there,of_decide_eq_true from_id,coll⟩
  · intro held
    by_cases old : ∃ m ∈ lib.content_item_collections, m.content_item_id = keep.id ∧ m.collection_id = collection_id
    · obtain ⟨m,there,here,coll⟩ := old
      exact ⟨m,⟨.inl there,by simpa [here] using distinct⟩,here,coll⟩
    · obtain ⟨given,there,from_id,coll⟩ := held.resolve_left old
      refine ⟨{ given with content_item_id := keep.id },⟨.inr ⟨⟨given,⟨there,by simp [from_id]⟩,rfl⟩,?_⟩,by simpa using distinct⟩,rfl,coll⟩
      rw [decide_eq_true_eq,List.any_eq_true]
      rintro ⟨m,inside,same⟩
      exact old ⟨m,inside,by simpa [coll] using same⟩

omit [TimeCrate] in
/-- Rows under other keys are found after a deletion. -/
theorem find_undeleted {α : Type} (key : α → String) {id gone : String} (other : id ≠ gone) (rows : List α) :
    (rows.filter (fun row => key row ≠ gone)).find? (fun row => key row = id) = rows.find? (fun row => key row = id) := by
  rw [List.find?_filter]
  congr 1
  funext row
  by_cases here : key row = id
  · simp [here,other]
  · simp [here]

theorem merged_row {id : String} (other : id ≠ discard.id) :
    (Fallible.written (merge_writes refused lib row keep discard) lib).get_item_row id =
      if id = keep.id ∧ discard.created_at.nanos < keep.created_at.nanos then
        (backdate keep.id discard.created_at lib).get_item_row id
      else lib.get_item_row id := by
  unfold get_item_row
  rw [merged_items,find_undeleted ItemRow.id other]
  by_cases earlier : discard.created_at.nanos < keep.created_at.nanos
  · rw [if_pos earlier]
    by_cases here : id = keep.id
    · rw [if_pos ⟨here,earlier⟩]
    · rw [if_neg (fun both => here both.1)]
      change (backdate keep.id discard.created_at lib).get_item_row id = lib.get_item_row id
      unfold backdate
      rw [get_item_row_update,if_neg here]
      intro row
      split <;> rfl
  · rw [if_neg earlier,if_neg (fun both => earlier both.2)]

theorem merged_bookmark {id : String} (other : id ≠ discard.id) :
    (Fallible.written (merge_writes refused lib row keep discard) lib).get_bookmark_meta id =
      if id = keep.id then (copied_bookmark refused lib keep.id discard.id).or (lib.get_bookmark_meta id) else lib.get_bookmark_meta id := by
  unfold get_bookmark_meta
  rw [merged_bookmarks,find_undeleted BookmarkMeta.content_item_id other]
  cases copied : copied_bookmark refused lib keep.id discard.id with
  | none => simp
  | some bm =>
    unfold copied_bookmark at copied
    split at copied
    · cases copied
    · next free =>
      obtain ⟨given,-,rfl⟩ := Option.map_eq_some_iff.mp copied
      have none_yet : lib.has_bookmark_meta keep.id = false := by
        cases has : lib.has_bookmark_meta keep.id with
        | false => rfl
        | true => simp [has] at free
      simp only [upsert_bookmark,none_yet,Bool.false_eq_true,if_false]
      rw [List.find?_append]
      by_cases here : id = keep.id
      · have missing : lib.bookmark_meta.find? (fun bm => bm.content_item_id = keep.id) = none := by
          simpa [has_bookmark_meta,get_bookmark_meta] using none_yet
        rw [if_pos here,here,missing]
        simp
      · rw [if_neg here]
        simp [Ne.symm here]

theorem merged_others {other : String} (apart : other ≠ keep.id) (apart' : other ≠ discard.id) :
    Same lib (Fallible.written (merge_writes refused lib row keep discard) lib) other discard.id := by
  refine ⟨?_,fun tag_id => ?_,fun collection_id => ?_,fun note here => ?_,?_,fun m here => ?_,fun h there here source => ?_⟩
  · rw [merged_row apart',if_neg (fun both => apart both.1)]
  · rw [merged_tags,List.mem_filter,List.mem_append,missing_tags,List.mem_filter,List.mem_map]
    constructor
    · rintro ⟨old | ⟨⟨edge,-,same⟩,-⟩,-⟩
      · exact old
      · exact absurd (congrArg Prod.fst same).symm apart
    · exact fun held => ⟨.inl held,by simpa using apart'⟩
  · unfold in_collection
    simp only [merged_members,List.mem_filter,List.mem_append,missing_members,List.mem_map]
    constructor
    · rintro ⟨m,⟨old | ⟨⟨given,-,rfl⟩,-⟩,-⟩,here,coll⟩
      · exact ⟨m,old,here,coll⟩
      · exact absurd here.symm apart
    · rintro ⟨m,there,here,coll⟩
      exact ⟨m,⟨.inl there,by simpa [here] using apart'⟩,here,coll⟩
  · rw [merged_notes,List.mem_filter,here]
    simp [apart']
  · rw [merged_bookmark apart',if_neg apart]
  · rw [merged_feeds,List.mem_filter,here]
    simp [apart']
  · rw [merged_highlights,List.mem_map]
    refine ⟨h,List.mem_filter.mpr ⟨there,by simpa [here] using apart'⟩,?_⟩
    rw [if_neg source]

/-- The time of creation after the merge. -/
theorem merged_created (distinct : keep.id ≠ discard.id) (kept : lib.get_item_row keep.id = some row)
    (k : TimeCrate.parse_rfc3339 row.created_at = some keep.created_at)
    (d : TimeCrate.parse_rfc3339 (fmt_time discard.created_at) = some discard.created_at) :
    (Fallible.written (merge_writes refused lib row keep discard) lib).created_at keep.id =
      some (if discard.created_at.nanos < keep.created_at.nanos ∧ fmt_time discard.created_at < row.created_at then
        discard.created_at else keep.created_at) := by
  rw [created_at,merged_row distinct]
  by_cases earlier : discard.created_at.nanos < keep.created_at.nanos
  · rw [if_pos ⟨rfl,earlier⟩,backdate,get_item_row_update,if_pos rfl,kept]
    · by_cases smaller : fmt_time discard.created_at < row.created_at
      · rw [if_pos ⟨earlier,smaller⟩]
        simp only [Option.map_some,Option.bind_some,if_pos smaller]
        exact d
      · rw [if_neg (fun both => smaller both.2)]
        simp only [Option.map_some,Option.bind_some,if_neg smaller]
        exact k
    · intro row
      split <;> rfl
  · rw [if_neg (fun both => earlier both.2),if_neg (fun both => earlier both.1),kept]
    exact k

theorem bookmark_kept (distinct : keep.id ≠ discard.id) : (∀ field ∈ bookmark_fields,
    let after := Fallible.written (merge_writes refused lib row keep discard) lib
    (after.bookmark_field keep.id field = lib.bookmark_field keep.id field ∨
      after.bookmark_field keep.id field = lib.bookmark_field discard.id field) ∧
    ((lib.bookmark_field keep.id field).isSome ∨ (lib.bookmark_field discard.id field).isSome →
      (after.bookmark_field keep.id field).isSome)) ↔
    (lib.has_bookmark_meta keep.id ∨ (refused .ReadBookmark).isSome → ∀ field ∈ bookmark_fields,
      (lib.bookmark_field discard.id field).isSome → (lib.bookmark_field keep.id field).isSome) := by
  unfold bookmark_field
  dsimp only
  rw [merged_bookmark distinct,if_pos rfl,copied_bookmark]
  by_cases stays : lib.has_bookmark_meta keep.id ∨ (refused .ReadBookmark).isSome
  · rw [if_pos (by simpa using stays),Option.none_or]
    simp only [stays,true_implies]
    refine forall₂_congr (fun field _ => ⟨fun holds discarded => holds.2 (.inr discarded),fun holds => ⟨.inl trivial,?_⟩⟩)
    exact fun either => either.elim id holds
  · rw [if_neg (by simpa using stays)]
    refine iff_of_true (fun field inside => ?_) (fun held => absurd held stays)
    have missing : lib.get_bookmark_meta keep.id = none := by
      simpa [has_bookmark_meta] using not_or.mp stays |>.1
    rw [missing]
    cases lib.get_bookmark_meta discard.id with
    | none => simp
    | some bm =>
      -- no field is the item that it belongs to
      have same : field { bm with content_item_id := keep.id } = field bm := by
        simp only [bookmark_fields,List.mem_cons,List.not_mem_nil,or_false] at inside
        rcases inside with rfl | rfl | rfl | rfl | rfl | rfl <;> rfl
      simp [same]

/-- A merge that comes to its end keeps everything iff there is nothing to lose. -/
theorem merged_iff {row discard_row : ItemRow} (distinct : keep.id ≠ discard.id) (kept : lib.get_item_row keep.id = some row)
    (discarded : lib.get_item_row discard.id = some discard_row)
    (k : TimeCrate.parse_rfc3339 row.created_at = some keep.created_at)
    (d : TimeCrate.parse_rfc3339 discard_row.created_at = some discard.created_at)
    (reads_back : TimeCrate.parse_rfc3339 (fmt_time discard.created_at) = some discard.created_at)
    (note_ids : (lib.notes.map Note.id).Nodup) (highlight_ids : (lib.highlight_meta.map HighlightMeta.content_item_id).Nodup) :
    Merged keep.id discard.id lib (Fallible.written (merge_writes refused lib row keep discard) lib) ↔ NoLoss refused lib keep.id discard.id := by
  have k_at : lib.created_at keep.id = some keep.created_at := by rw [created_at,kept]; exact k
  have d_at : lib.created_at discard.id = some discard.created_at := by rw [created_at,discarded]; exact d
  constructor
  · intro merged
    refine ⟨fun note there here => ?_,fun h there source => ?_,fun h there here source => ?_,
      (bookmark_kept distinct).mp merged.bookmark,fun row' k' d' found k'_at d'_at earlier => ?_⟩
    · have moved := merged.notes note there (.inr here)
      rw [merged_notes] at moved
      have same := List.inj_on_of_nodup_map note_ids (List.mem_filter.mp moved).1 there rfl
      exact distinct ((congrArg Note.content_item_id same).trans here)
    · obtain ⟨h',moved,item,now⟩ := merged.highlights h there (.inr source)
      rw [merged_highlights] at moved
      obtain ⟨old,held,rfl⟩ := List.mem_map.mp moved
      obtain rfl := List.inj_on_of_nodup_map highlight_ids (List.mem_filter.mp held).1 there item
      rw [if_pos source] at now
      cases now
    · obtain ⟨h',moved,item,-⟩ := merged.highlights h there (.inl source)
      rw [merged_highlights] at moved
      obtain ⟨old,held,rfl⟩ := List.mem_map.mp moved
      have other := (List.mem_filter.mp held).2
      simp only [ne_eq,decide_not,Bool.not_eq_true',decide_eq_false_iff_not] at other
      exact other (item.trans here)
    · obtain rfl := Option.some.inj (kept.symm.trans found)
      obtain rfl := Option.some.inj (k_at.symm.trans k'_at)
      obtain rfl := Option.some.inj (d_at.symm.trans d'_at)
      obtain ⟨t,now,least⟩ := merged.created
      rw [merged_created distinct kept k reads_back] at now
      have least := least _ _ k_at d_at
      by_contra larger
      rw [if_neg (fun both => larger both.2)] at now
      obtain rfl := Option.some.inj now
      omega
  · intro none_lost
    refine ⟨merged_tags_iff distinct,merged_members_iff distinct,fun note there here => ?_,fun h there source => ?_,
      (bookmark_kept distinct).mpr none_lost.bookmark,?_,fun other => merged_others⟩
    · have keeps := here.resolve_right (none_lost.notes note there)
      rw [merged_notes,← keeps,List.mem_filter]
      exact ⟨there,by simpa using none_lost.notes note there⟩
    · have keeps := source.resolve_right (none_lost.sources h there)
      refine ⟨h,?_,rfl,keeps⟩
      rw [merged_highlights,List.mem_map]
      refine ⟨h,List.mem_filter.mpr ⟨there,?_⟩,by rw [if_neg (none_lost.sources h there)]⟩
      simpa using fun here => none_lost.quotes h there here keeps
    · refine ⟨_,merged_created distinct kept k reads_back,fun k' d' k'_at d'_at => ?_⟩
      obtain rfl := Option.some.inj (k_at.symm.trans k'_at)
      obtain rfl := Option.some.inj (d_at.symm.trans d'_at)
      split
      · next both => omega
      · next neither =>
        have later : ¬ discard.created_at.nanos < keep.created_at.nanos := fun earlier =>
          neither ⟨earlier,none_lost.created row _ _ kept k_at d_at earlier⟩
        omega

/-- Either the items do not read, or every statement is accepted and there is nothing to lose, or
    the first that is refused comes when nothing has changed. -/
def Lossless (refused : Refusals) (lib : Library) (keep_id discard_id : String) : Prop :=
  ∀ row discard_row keep discard, lib.get_item_row keep_id = some row → lib.get_item_row discard_id = some discard_row →
    Library.row_to_content_item row = some keep → Library.row_to_content_item discard_row = some discard →
      ((∀ w ∈ merge_writes refused lib row keep discard, refused w.1 = none) → NoLoss refused lib keep_id discard_id) ∧
      ∀ before w after, merge_writes refused lib row keep discard = before ++ w :: after →
        (∀ b ∈ before, refused b.1 = none) → (refused w.1).isSome → Fallible.written before lib = lib

/-- What a merge should do: keep everything where it succeeds, and change nothing where it fails. -/
def Merges (refused : Refusals) (lib : Library) (keep_id discard_id : String) : Prop :=
  match doctor_merge refused true keep_id discard_id lib with
  | .ok _ lib' => Merged keep_id discard_id lib lib'
  | .error _ lib' => lib' = lib

theorem get_content_item_error (id : String) (missing : ∀ row item, lib.get_item_row id = some row → Library.row_to_content_item row ≠ some item) :
    ∃ failure, get_content_item id lib = .error failure lib := by
  rw [get_content_item,work_bind,ask]
  cases found : lib.get_item_row id with
  | none => exact ⟨_,rfl⟩
  | some row =>
    cases reads : Library.row_to_content_item row with
    | none => exact ⟨.panic,by simp only [reads]; rfl⟩
    | some item => exact absurd reads (missing row item found)

/-- A merge keeps everything, or changes nothing, iff there is nothing to lose and no statement is
    refused after something has changed. -/
theorem merge_iff {keep_id discard_id : String} (distinct : keep_id ≠ discard_id)
    (note_ids : (lib.notes.map Note.id).Nodup) (highlight_ids : (lib.highlight_meta.map HighlightMeta.content_item_id).Nodup)
    (reads_back : ∀ text t, TimeCrate.parse_rfc3339 text = some t → TimeCrate.parse_rfc3339 (fmt_time t) = some t) :
    Merges refused lib keep_id discard_id ↔ Lossless refused lib keep_id discard_id := by
  by_cases keeps : ∃ row keep, lib.get_item_row keep_id = some row ∧ Library.row_to_content_item row = some keep
  swap
  · obtain ⟨failure,failed⟩ := get_content_item_error keep_id (fun row item found reads => keeps ⟨row,item,found,reads⟩)
    refine iff_of_true ?_ (fun row _ keep _ found _ reads _ => absurd ⟨row,keep,found,reads⟩ keeps)
    rw [Merges,doctor_merge,if_neg distinct,work_bind,failed]
  obtain ⟨row,keep,kept,reads⟩ := keeps
  by_cases discards : ∃ row discard, lib.get_item_row discard_id = some row ∧ Library.row_to_content_item row = some discard
  swap
  · obtain ⟨failure,failed⟩ := get_content_item_error discard_id
      (fun row item found reads => discards ⟨row,item,found,reads⟩)
    refine iff_of_true ?_ (fun _ row _ discard _ found _ reads => absurd ⟨row,discard,found,reads⟩ discards)
    rw [Merges,doctor_merge,if_neg distinct,work_bind,get_content_item_ok kept reads]
    simp only
    rw [work_bind,failed]
  obtain ⟨discard_row,discard,discarded,reads'⟩ := discards
  obtain ⟨key,k⟩ := row_to_content_item_some reads
  obtain ⟨key',d⟩ := row_to_content_item_some reads'
  obtain rfl : row.id = keep_id := get_item_row_id kept
  obtain rfl : discard_row.id = discard_id := get_item_row_id discarded
  have all : Lossless refused lib row.id discard_row.id ↔
      ((∀ w ∈ merge_writes refused lib row keep discard, refused w.1 = none) → NoLoss refused lib row.id discard_row.id) ∧
      ∀ before w after, merge_writes refused lib row keep discard = before ++ w :: after →
        (∀ b ∈ before, refused b.1 = none) → (refused w.1).isSome → Fallible.written before lib = lib := by
    constructor
    · exact fun lossless => lossless row discard_row keep discard kept discarded reads reads'
    · intro holds row' discard_row' keep' discard' kept' discarded' reads_keep reads_discard
      obtain rfl := Option.some.inj (kept.symm.trans kept')
      obtain rfl := Option.some.inj (discarded.symm.trans discarded')
      obtain rfl := Option.some.inj (reads.symm.trans reads_keep)
      obtain rfl := Option.some.inj (reads'.symm.trans reads_discard)
      exact holds
  rw [all,Merges,doctor_merge_writes distinct kept discarded reads reads']
  rcases first_refused refused (merge_writes refused lib row keep discard) with accepted | ⟨before,w,after,failure,split,accepted,refuses⟩
  · rw [writes_accepted accepted]
    have no_loss : Merged keep.id discard.id lib _ ↔ NoLoss refused lib keep.id discard.id :=
      merged_iff (by rwa [key,key']) (by rwa [key]) (by rwa [key']) k d (reads_back _ _ d) note_ids highlight_ids
    rw [key,key'] at no_loss
    refine no_loss.trans ⟨fun holds => ⟨fun _ => holds,fun before w after split _ refuses => ?_⟩,fun holds => holds.1 accepted⟩
    have here := accepted w (by rw [split]; exact List.mem_append_right _ (.head _))
    rw [here] at refuses
    cases refuses
  · rw [split,writes_refused accepted refuses]
    constructor
    · intro same
      refine ⟨fun all_accepted => ?_,fun before' w' after' split' accepted' refuses' => ?_⟩
      · have here := all_accepted w (by simp)
        rw [refuses] at here
        cases here
      · -- the first statement that is refused is that one
        have first := first_refused_unique split' accepted accepted' (by rw [refuses]; rfl) refuses'
        rw [← first]
        exact same
    · intro holds
      exact holds.2 before w after rfl accepted (by rw [refuses]; rfl)

end
end
end

/-! ### Two items and their merge -/

section
attribute [local instance] plainTimes

/-- Two items, one of them with a tag and notes. -/
def duplicates (notes : List Note) : Library :=
  { shelf ["keep","discard"] with
    tags := [⟨"t","rust"⟩]
    content_item_tags := [("discard","t")]
    notes := notes }

theorem merge_iff_tagged : Merges (fun _ => none) (duplicates []) "keep" "discard" ∧
    (duplicates []).missing_tags "discard" "keep" = [("keep","t")] := by
  refine ⟨(merge_iff (by decide) (by decide) (by decide) ?_).mpr ?_,by decide⟩
  · rintro text t ⟨⟩
    rfl
  · refine fun row discard_row keep discard _ _ _ _ => ⟨fun _ => ⟨nofun,nofun,nofun,?_,?_⟩,fun _ _ _ _ _ refuses => nomatch refuses⟩
    · rintro (held | refuses)
      · exact absurd held (by decide)
      · cases refuses
    · intro row k d _ k_at d_at earlier
      have kept : (duplicates []).created_at "keep" = some ⟨0,0⟩ := by decide +kernel
      have discarded : (duplicates []).created_at "discard" = some ⟨0,0⟩ := by decide +kernel
      obtain rfl := Option.some.inj (kept.symm.trans k_at)
      obtain rfl := Option.some.inj (discarded.symm.trans d_at)
      exact absurd earlier (lt_irrefl _)

/-- A note on the discarded item is gone after a merge that succeeds. -/
theorem merge_drops_note : ¬ Merges (fun _ => none) (duplicates [⟨"n","discard","remember"⟩]) "keep" "discard" := by
  let keep_row : ItemRow := ⟨1,"keep",none,"keep",none,.Article,.Inbox,none,none,none,"","",none⟩
  let discard_row : ItemRow := ⟨2,"discard",none,"discard",none,.Article,.Inbox,none,none,none,"","",none⟩
  have distinct : keep_row.id ≠ discard_row.id := by decide
  have writing := @doctor_merge_writes _ (fun _ => none) (duplicates [⟨"n","discard","remember"⟩]) keep_row discard_row _ _ distinct rfl rfl rfl rfl
  change doctor_merge _ _ "keep" "discard" _ = _ at writing
  rw [Merges,writing,writes_accepted (fun _ _ => rfl)]
  intro merged
  have kept := merged.notes ⟨"n","discard","remember"⟩ (.head _) (.inr rfl)
  rw [merged_notes] at kept
  exact absurd kept (by decide)

end
end Library
end Pergamon
