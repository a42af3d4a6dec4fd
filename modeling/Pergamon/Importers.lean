import Pergamon.Canonical
import Pergamon.Clippings
import Pergamon.Decimal
import Pergamon.Highlights
import Pergamon.ImportKeys
import Pergamon.Ingest
import Pergamon.Review

/-!
The importers of the command line for saved pages and for highlights. Entries of Raindrop and Pocket
become bookmarks, known again by their canonical urls; clippings of Kindle and rows of Readwise
become highlights of a source, both known again by keys that stand in the place of a url. A dry run
goes over the same list and takes the library as it is.

Notes stand beside the library here, with their times, which are read wherever notes are listed. What
an importer prints is left out, but for the counts.
-/
namespace Pergamon
open Fallible Library

/-! ### Tables -/

/-- A row of `notes`, where times are texts. -/
structure NoteRow where
  id : String
  content_item_id : String
  body : String
  created_at : String
  updated_at : String
  deriving DecidableEq

/-- A row of `review_cards`. The columns that are empty in a new card are left out. -/
structure CardRow where
  id : String
  content_item_id : String
  state : CardState
  due_at : String
  review_count : ℕ
  lapse_count : ℕ
  created_at : String
  updated_at : String
  deriving DecidableEq

inductive ImportSource where
  | Opml
  | Raindrop
  | Pocket
  | Kindle
  | Readwise
  | Backup
  deriving DecidableEq

/-- A row of `import_log`. -/
structure ImportLogRow where
  id : String
  source : ImportSource
  file_name : Option String
  items_added : ℕ
  items_existing : ℕ
  items_skipped : ℕ
  errors : ℕ
  error_detail : Option String
  dry_run : Bool
  created_at : String
  deriving DecidableEq

/-- A library with its notes, its review cards and the log of its imports. -/
structure ImportDb where
  library : Library
  notes : List NoteRow
  review_cards : List CardRow
  import_log : List ImportLogRow

/-- What an importer does. -/
abbrev Importing := EStateM Failure ImportDb

namespace Library

section
variable [TimeCrate]

/-- Find a content item by its URL. -/
def item_row (lib : Library) (url : String) : Option ItemRow := lib.content_items.find? (fun row => row.url = some url)

def get_content_item_by_url (url : String) : Work (Option ContentItem) := do
  match (← get).item_row url with
  | none => return none
  | some row => return some (← read_or_panic (row_to_content_item row))

omit [TimeCrate] in
/-- Insert bookmark metadata. -/
def insert_bookmark_meta (info : BookmarkMeta) : Work Unit :=
  run (fun lib =>
    if lib.bookmark_meta.any (fun m => m.content_item_id = info.content_item_id) ∨ ¬ lib.has_item info.content_item_id then
      .error .Sqlite
    else .ok { lib with bookmark_meta := lib.bookmark_meta ++ [info] })

omit [TimeCrate] in
/-- Apply tags to an item, and tell their names. -/
def apply_tags (item_id : String) : List String → Work (List String)
  | [] => return []
  | name :: rest => do
    let tag ← get_or_create_tag name
    tag_content_item item_id tag.id
    return tag.name :: (← apply_tags item_id rest)

omit [TimeCrate] in
/-- Apply a folder/collection to a content item, creating the collection if needed. That it cannot
    be added is ignored. -/
def apply_collection (item_id folder_name : String) : Work Unit := do
  let coll ← get_or_create_collection folder_name
  warn (add_to_collection item_id coll.id 0)

end

end Library

namespace ImportDb

/-- Work on the library. -/
def on_library {α : Type} (work : Work α) : Importing α := fun db =>
  match work db.library with
  | .ok a lib => .ok a { db with library := lib }
  | .error e lib => .error e { db with library := lib }

/-- One statement on the other tables. It writes nothing where it fails. -/
def run (statement : ImportDb → Except StorageError ImportDb) : Importing Unit := fun db =>
  match statement db with
  | .ok db' => .ok () db'
  | .error e => .error (.storage e) db

/-- Work between `BEGIN` and `COMMIT`, or `ROLLBACK` where it fails; a program that stops rolls back
    as well. Ids that were drawn are not drawn again. -/
def in_transaction {α : Type} (work : Importing α) : Importing α := fun db =>
  match work db with
  | .ok a db' => .ok a db'
  | .error e db' => .error e { db with library := { db.library with uuids := db'.library.uuids } }

/-- Insert a new note. -/
def insert_note (note : NoteRow) : Importing Unit :=
  run (fun db =>
    if db.notes.any (fun n => n.id = note.id) ∨ ¬ db.library.has_item note.content_item_id then .error .Sqlite
    else .ok { db with notes := db.notes ++ [note] })

/-- Insert a new review card for a highlight. -/
def insert_review_card (card : CardRow) : Importing Unit :=
  run (fun db =>
    if db.review_cards.any (fun c => c.id = card.id || c.content_item_id = card.content_item_id) ∨
        ¬ db.library.highlight_meta.any (fun m => m.content_item_id = card.content_item_id) then .error .Sqlite
    else .ok { db with review_cards := db.review_cards ++ [card] })

/-- The rows of the notes on an item. -/
def note_rows (db : ImportDb) (content_item_id : String) : List NoteRow :=
  db.notes.filter (fun n => n.content_item_id = content_item_id)

section
variable [TimeCrate]

/-- The times of a note can be read. -/
def note_reads (note : NoteRow) : Bool := (TimeCrate.parse_rfc3339 note.created_at).isSome && (TimeCrate.parse_rfc3339 note.updated_at).isSome

/-- List all notes for a content item; their order is left out. -/
def list_notes_for_item (content_item_id : String) : Importing (List NoteRow) := do
  let rows := (← get).note_rows content_item_id
  if rows.all note_reads then return rows else throw .panic

/-- Create a new review card for a highlight. -/
def create_review_card (highlight_id : String) (now : OffsetDateTime) : Importing Unit := do
  let id ← on_library new_v4
  insert_review_card ⟨id,highlight_id,.New,fmt_time now,0,0,fmt_time now,fmt_time now⟩

/-- Record an import run in the import log, unless it is a dry run. That it cannot be recorded is
    only a warning. -/
def record_import_log (source : ImportSource) (file_name : String) (added existing skipped errors : ℕ)
    (error_detail : Option String) (dry_run : Bool) : Importing Unit := do
  if dry_run then return ()
  else
    let id ← on_library new_v4
    let capped (n : ℕ) := min n (2 ^ 63 - 1)
    tryCatch (run (fun db =>
      if db.import_log.any (fun entry => entry.id = id) then .error .Sqlite
      else .ok { db with import_log := db.import_log ++ [⟨id,source,some file_name,capped added,capped existing,capped skipped,
        capped errors,error_detail,dry_run,fmt_time db.library.now⟩] })) (fun _ => return ())

end

end ImportDb

/-! ### Texts -/

/-- The characters from the left that fit into a number of bytes. -/
def fitting : ℕ → List Char → List Char
  | _,[] => []
  | n,c :: text => if c.utf8Size ≤ n then c :: fitting (n - c.utf8Size) text else []

/-- Truncate a string to a maximum length, appending "…" if truncated. -/
def truncate_str (s : String) (max_len : ℕ) : String :=
  if Utf8.size s.toList ≤ max_len then s else String.ofList (fitting max_len s.toList) ++ "…"

/-- `str::replace` with nothing. -/
def without (part : String) (text : List Char) : List Char := (split_str part.toList text).flatten

/-- `str::parse::<i64>` -/
def parse_i64 (text : List Char) : Option ℤ :=
  let signed (sign : ℤ) (digits : List Char) : Option ℤ :=
    let n := sign * Decimal.value digits
    if digits ≠ [] ∧ digits.all Char.isDigit ∧ -(2 ^ 63) ≤ n ∧ n < 2 ^ 63 then some n else none
  match text with
  | '+' :: digits => signed 1 digits
  | '-' :: digits => signed (-1) digits
  | digits => signed 1 digits

/-! ### Bookmarks -/

/-- A single Raindrop.io bookmark. -/
structure RaindropItem where
  id : String
  title : String
  note : Option String
  excerpt : Option String
  url : String
  folder : Option String
  tags : List String
  created : Option OffsetDateTime
  cover : Option String
  highlights : List String

/-- A single Pocket bookmark. -/
structure PocketItem where
  url : String
  title : String
  add_date : Option OffsetDateTime
  tags : List String

/-- Statistics for bookmark imports. -/
structure BookmarkImportStats where
  created : ℕ
  existing : ℕ
  deriving DecidableEq

/-- Combine note and highlights into a description string. -/
def build_raindrop_description (note : Option String) (highlights : List String) : Option String :=
  let parts := note.toList ++ if highlights = [] then [] else ["Highlights:\n" ++ "\n".intercalate highlights]
  if parts = [] then none else some ("\n\n".intercalate parts)

/-- What the two importers of bookmarks take from an entry. -/
structure Bookmark where
  url : String
  title : String
  excerpt : Option String
  created : Option OffsetDateTime
  tags : List String
  folder : Option String
  saved_from : String
  thumbnail_url : Option String
  description : Option String

def RaindropItem.bookmark (item : RaindropItem) : Bookmark :=
  ⟨item.url,item.title,item.excerpt,item.created,item.tags,item.folder,"raindrop:" ++ item.id,item.cover,
    build_raindrop_description item.note item.highlights⟩

def PocketItem.bookmark (item : PocketItem) : Bookmark :=
  ⟨item.url,item.title,none,item.add_date,item.tags,none,"pocket",none,none⟩

section
variable [TimeCrate] [Unicode]

omit [TimeCrate] in
/-- The url under which a bookmark is kept: the canonical one, if there is one. -/
def Bookmark.key [UrlCrate] (b : Bookmark) : String :=
  match canonicalize_url b.url with
  | .ok canonical_url => canonical_url
  | .error _ => b.url

/-- The item of a new bookmark. -/
def Bookmark.item [UrlCrate] (b : Bookmark) (now : OffsetDateTime) (id : String) : Library.ContentItem :=
  { id := id, url := some b.key, title := b.title, author := none, content_type := .Bookmark, status := .Inbox,
    content_text := none, excerpt := b.excerpt, published_at := none, created_at := b.created.getD now, updated_at := now,
    read_at := none }

omit [TimeCrate] [Unicode] in
/-- The tags and the collection of a bookmark. -/
def Bookmark.shelve (b : Bookmark) (id : String) : Work Unit := do
  let _ ← apply_tags id b.tags
  match b.folder with
  | some folder => apply_collection id folder
  | none => return ()

/-- One entry of a list of bookmarks. -/
def import_bookmark [UrlCrate] (dry_run : Bool) (stats : BookmarkImportStats) (b : Bookmark) : Work BookmarkImportStats := do
  match ← get_content_item_by_url b.key with
  | some existing =>
    if !dry_run then b.shelve existing.id
    return { stats with existing := stats.existing + 1 }
  | none =>
    if dry_run then return { stats with created := stats.created + 1 }
    else
      let now := (← get).now
      let id ← new_v4
      insert_content_item (b.item now id)
      insert_bookmark_meta ⟨id,some b.url,some b.saved_from,b.thumbnail_url,b.description,none,none⟩
      b.shelve id
      return { stats with created := stats.created + 1 }

def import_bookmarks [UrlCrate] (source : ImportSource) (dry_run : Bool) (path : String) (bookmarks : List Bookmark) :
    Importing BookmarkImportStats := do
  let stats ← ImportDb.on_library (bookmarks.foldlM (import_bookmark dry_run) ⟨0,0⟩)
  ImportDb.record_import_log source path stats.created stats.existing 0 0 none dry_run
  return stats

/-- Import bookmarks from a Raindrop.io CSV export. -/
def import_raindrop [UrlCrate] (dry_run : Bool) (path : String) (items : List RaindropItem) : Importing BookmarkImportStats :=
  import_bookmarks .Raindrop dry_run path (items.map RaindropItem.bookmark)

/-- Import bookmarks from a Pocket HTML export. -/
def import_pocket [UrlCrate] (dry_run : Bool) (path : String) (items : List PocketItem) : Importing BookmarkImportStats :=
  import_bookmarks .Pocket dry_run path (items.map PocketItem.bookmark)

end

/-! ### Highlights -/

/-- Statistics for highlight imports. -/
structure HighlightImportStats where
  sources_created : ℕ
  sources_existing : ℕ
  highlights_created : ℕ
  highlights_existing : ℕ
  notes_created : ℕ
  review_cards_created : ℕ
  deriving DecidableEq

/-- The source of highlights, as it is found or made. -/
structure SourceWanted where
  url : String
  title : String
  author : Option String
  content_type : ContentType
  created : Option OffsetDateTime
  tags : List String

/-- A highlight, as it is found or made. -/
structure HighlightWanted where
  url : String
  book_title : String
  author : Option String
  text : String
  created : Option OffsetDateTime
  note : Option String
  position_start : Option ℤ
  tags : List String

/-- A note, as it is found or made. -/
structure NoteWanted where
  body : String
  created : Option OffsetDateTime

/-- The ids of the sources that were met before, by their urls. -/
abbrev SourceCache := List (String × String)

section
variable [TimeCrate]

def SourceWanted.item (s : SourceWanted) (now : OffsetDateTime) (id : String) : Library.ContentItem :=
  { id := id, url := some s.url, title := s.title, author := s.author, content_type := s.content_type, status := .Reference,
    content_text := none, excerpt := none, published_at := none, created_at := s.created.getD now, updated_at := now,
    read_at := none }

def HighlightWanted.item (h : HighlightWanted) (now : OffsetDateTime) (id : String) : Library.ContentItem :=
  { id := id, url := some h.url, title := "Highlight from " ++ truncate_str h.book_title 80, author := h.author,
    content_type := .Highlight, status := .Reference, content_text := some h.text, excerpt := some (truncate_str h.text 200),
    published_at := none, created_at := h.created.getD now, updated_at := now, read_at := none }

/-- Find or create the source of a highlight. A dry run makes none, and goes on with a new id. -/
def import_source (dry_run : Bool) (cache : SourceCache) (stats : HighlightImportStats) (s : SourceWanted) :
    Work (String × SourceCache × HighlightImportStats) := do
  match cache.lookup s.url with
  | some cached_id => return (cached_id,cache,stats)
  | none =>
    match ← get_content_item_by_url s.url with
    | some existing => return (existing.id,(s.url,existing.id) :: cache,{ stats with sources_existing := stats.sources_existing + 1 })
    | none =>
      let now := (← get).now
      let id ← new_v4
      if !dry_run then
        insert_content_item (s.item now id)
        let _ ← apply_tags id s.tags
      return (id,(s.url,id) :: cache,{ stats with sources_created := stats.sources_created + 1 })

/-- Create a highlight of a source, unless it is there. -/
def import_highlight (dry_run enable_review : Bool) (source_id : String) (stats : HighlightImportStats) (h : HighlightWanted) :
    Importing HighlightImportStats := do
  match ← ImportDb.on_library (get_content_item_by_url h.url) with
  | some _ => return { stats with highlights_existing := stats.highlights_existing + 1 }
  | none =>
    if dry_run then return { stats with highlights_created := stats.highlights_created + 1 }
    else
      let now := (← get).library.now
      let id ← ImportDb.on_library new_v4
      ImportDb.on_library (insert_content_item (h.item now id))
      ImportDb.on_library (insert_highlight_meta
        { content_item_id := id, source_item_id := some source_id, quote_text := h.text, note := h.note,
          position_start := h.position_start, position_end := none, color := none })
      let _ ← ImportDb.on_library (apply_tags id h.tags)
      if enable_review then
        ImportDb.create_review_card id now
        return { stats with
          highlights_created := stats.highlights_created + 1
          review_cards_created := stats.review_cards_created + 1 }
      else return { stats with highlights_created := stats.highlights_created + 1 }

/-- Create a note on a source, unless an identical one is there. -/
def import_note (dry_run : Bool) (source_id : String) (stats : HighlightImportStats) (n : NoteWanted) :
    Importing HighlightImportStats := do
  let existing_notes ← ImportDb.list_notes_for_item source_id
  if existing_notes.any (fun note => note.body = n.body) then return stats
  else if dry_run then return { stats with notes_created := stats.notes_created + 1 }
  else
    let now := (← get).library.now
    let id ← ImportDb.on_library new_v4
    ImportDb.insert_note ⟨id,source_id,n.body,fmt_time (n.created.getD now),fmt_time now⟩
    return { stats with notes_created := stats.notes_created + 1 }

/-- An entry of a list of highlights: a source with a highlight of it, with a note on it or with
    neither. -/
structure EntryWanted where
  source : SourceWanted
  highlight : Option HighlightWanted
  note : Option NoteWanted

def import_entry (dry_run enable_review : Bool) (acc : SourceCache × HighlightImportStats) (e : EntryWanted) :
    Importing (SourceCache × HighlightImportStats) := do
  let (source_id,cache,stats) ← ImportDb.on_library (import_source dry_run acc.1 acc.2 e.source)
  let stats ←
    match e.highlight with
    | some h => import_highlight dry_run enable_review source_id stats h
    | none => pure stats
  let stats ←
    match e.note with
    | some n => import_note dry_run source_id stats n
    | none => pure stats
  return (cache,stats)

/-- The loop over a list of highlights. A dry run opens no transaction. -/
def import_highlights (source : ImportSource) (dry_run enable_review : Bool) (path : String) (entries : List EntryWanted) :
    Importing HighlightImportStats := do
  let loop := entries.foldlM (import_entry dry_run enable_review) ([],⟨0,0,0,0,0,0⟩)
  let (_,stats) ← if dry_run then loop else ImportDb.in_transaction loop
  ImportDb.record_import_log source path stats.highlights_created stats.highlights_existing 0 0 none dry_run
  return stats

end

/-! ### Kindle -/

section
variable [Unicode]

/-- What is wanted for a clipping. A bookmark has no content, and a note without content is skipped. -/
def Kindle.KindleClipping.wanted (clipping : Kindle.KindleClipping) : Option EntryWanted :=
  let book_title := String.ofList clipping.book_title
  let author := clipping.author.map String.ofList
  let content := String.ofList clipping.content
  let source : SourceWanted := ⟨kindle_source_key book_title author,book_title,author,.Article,clipping.added_at,["kindle"]⟩
  match clipping.clipping_type with
  | .Bookmark => none
  | .Highlight =>
    let location := clipping.location.map String.ofList
    let position := clipping.location.bind (fun l => parse_i64 (without "Page " (l.takeWhile (· ≠ '-'))))
    some ⟨source,some ⟨kindle_highlight_key book_title author location content,book_title,author,content,clipping.added_at,none,
      position,[]⟩,none⟩
  | .Note => some ⟨source,none,if content = "" then none else some ⟨content,clipping.added_at⟩⟩

/-- Import highlights from a Kindle My Clippings.txt file. -/
def import_kindle [TimeCrate] (dry_run enable_review : Bool) (path : String) (clippings : List Kindle.KindleClipping) :
    Importing HighlightImportStats :=
  import_highlights .Kindle dry_run enable_review path (clippings.filterMap Kindle.KindleClipping.wanted)

/-! ### Readwise -/

/-- A single Readwise highlight. -/
structure ReadwiseItem where
  title : String
  author : Option String
  source_type : Option String
  category : Option String
  highlight : String
  note : Option String
  tags : List String
  location : Option String
  highlighted_at : Option OffsetDateTime
  source_url : Option String
  book_tags : List String
  uuid : Option String

/-- Map a Readwise source type / category to a pergamon `ContentType`. -/
def map_readwise_content_type (source_type category : Option String) : ContentType :=
  match (source_type.or category).map normalized with
  | some "podcast" => .PodcastEpisode
  | some "podcasts" => .PodcastEpisode
  | some "podcast_episode" => .PodcastEpisode
  | some "pdf" => .Pdf
  | _ => .Article

/-- What is wanted for a row of a Readwise file. -/
def ReadwiseItem.wanted (item : ReadwiseItem) : EntryWanted :=
  let position_start := item.location.bind (fun l =>
    parse_i64 (SmartFilter.trim ((without "Location " (without "Page " l.toList)).takeWhile (· ≠ '-'))))
  ⟨⟨readwise_source_key item.source_url item.title item.author item.source_type,item.title,item.author,
      map_readwise_content_type item.source_type item.category,item.highlighted_at,item.book_tags ++ ["readwise"]⟩,
    some ⟨readwise_highlight_key item.uuid item.source_url item.title item.author item.source_type item.highlight,item.title,
      item.author,item.highlight,item.highlighted_at,item.note,position_start,item.tags⟩,
    none⟩

/-- Import highlights from a Readwise CSV export. -/
def import_readwise [TimeCrate] (dry_run enable_review : Bool) (path : String) (items : List ReadwiseItem) :
    Importing HighlightImportStats :=
  import_highlights .Readwise dry_run enable_review path (items.map ReadwiseItem.wanted)

end

end Pergamon
