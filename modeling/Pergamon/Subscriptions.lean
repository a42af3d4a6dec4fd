import Pergamon.Library
import Pergamon.Opml

/-!
Importing an OPML forest as feeds in folders. The server and the command line each walk over the
outlines: a feed goes into the folder around it, a folder is looked up by its name within its parent
and made if it is missing, and the outlines of an unnamed folder go where the folder is. They differ
in how they tell afterwards whether a folder was new.

Folders and feeds are tables of their own. Columns that neither importer reads or sets to anything
but a default are left out.
-/
namespace Pergamon
open OrderedTree

/-! ### Tables -/

/-- A row of `feed_folders`, where times are texts. -/
structure FolderRow where
  id : String
  name : String
  parent_id : Option String
  created_at : String
  updated_at : String
  deriving DecidableEq

/-- A row of `feeds`. -/
structure FeedRow where
  id : String
  title : String
  url : String
  site_url : Option String
  last_fetched_at : Option String
  folder_id : Option String
  created_at : String
  updated_at : String
  deriving DecidableEq

structure FeedFolder where
  id : String
  name : String
  parent_id : Option String
  created_at : OffsetDateTime
  updated_at : OffsetDateTime

/-- A feed as it is read. -/
structure Subscription where
  id : String
  title : String
  url : String
  site_url : Option String
  last_fetched_at : Option OffsetDateTime
  folder_id : Option String
  created_at : OffsetDateTime
  updated_at : OffsetDateTime

/-- The tables of feeds and folders, the clock, and the ids that are drawn next. -/
structure FeedTables where
  feed_folders : List FolderRow
  feeds : List FeedRow
  now : OffsetDateTime
  uuids : ℕ → String

/-- What an importer does to the tables. -/
abbrev FeedWork := EStateM Failure FeedTables

namespace FeedTables

/-- One statement. It writes nothing where it fails. -/
def run (statement : FeedTables → Except StorageError FeedTables) : FeedWork Unit := fun db =>
  match statement db with
  | .ok db' => .ok () db'
  | .error e => .error (.storage e) db

/-- What is read, or the program stops. -/
def read_or_panic {α : Type} : Option α → FeedWork α
  | some a => pure a
  | none => throw .panic

/-- `Uuid::new_v4`. -/
def new_v4 : FeedWork String := fun db => .ok (db.uuids 0) { db with uuids := fun n => db.uuids (n + 1) }

section
variable [TimeCrate]

def row_to_feed_folder (row : FolderRow) : Option FeedFolder := do
  let created_at ← TimeCrate.parse_rfc3339 row.created_at
  let updated_at ← TimeCrate.parse_rfc3339 row.updated_at
  some ⟨row.id,row.name,row.parent_id,created_at,updated_at⟩

def row_to_feed (row : FeedRow) : Option Subscription := do
  let last_fetched_at ← parse_time_opt row.last_fetched_at
  let created_at ← TimeCrate.parse_rfc3339 row.created_at
  let updated_at ← TimeCrate.parse_rfc3339 row.updated_at
  some ⟨row.id,row.title,row.url,row.site_url,last_fetched_at,row.folder_id,created_at,updated_at⟩

omit [TimeCrate] in
/-- The row of a folder with a name in any letter case, within a parent. -/
def folder_row (db : FeedTables) (name : String) (parent_id : Option String) : Option FolderRow :=
  db.feed_folders.find? (fun row => Library.same_name row.name name && row.parent_id = parent_id)

omit [TimeCrate] in
def feed_row (db : FeedTables) (url : String) : Option FeedRow := db.feeds.find? (fun row => row.url = url)

/-- Find a feed folder by name within a parent (case-insensitive). -/
def get_feed_folder_by_name (name : String) (parent_id : Option String) : FeedWork (Option FeedFolder) := do
  match (← get).folder_row name parent_id with
  | none => return none
  | some row => return some (← read_or_panic (row_to_feed_folder row))

def get_feed_by_url (url : String) : FeedWork (Option Subscription) := do
  match (← get).feed_row url with
  | none => return none
  | some row => return some (← read_or_panic (row_to_feed row))

omit [TimeCrate] in
/-- The folder is there, if one is given. -/
def has_folder (db : FeedTables) (folder_id : Option String) : Bool :=
  folder_id.all (fun id => db.feed_folders.any (fun row => row.id = id))

/-- Insert a new feed folder. Its name is unique among its siblings. -/
def insert_feed_folder (folder : FeedFolder) : FeedWork Unit :=
  run (fun db =>
    if db.feed_folders.any (fun row => row.id = folder.id) ∨ (db.folder_row folder.name folder.parent_id).isSome ∨
        ¬ db.has_folder folder.parent_id then .error .Sqlite
    else .ok { db with feed_folders := db.feed_folders ++
      [⟨folder.id,folder.name,folder.parent_id,fmt_time folder.created_at,fmt_time folder.updated_at⟩] })

/-- Insert a new feed. Its URL is unique. -/
def insert_feed (feed : Subscription) : FeedWork Unit :=
  run (fun db =>
    if db.feeds.any (fun row => row.id = feed.id) ∨ (db.feed_row feed.url).isSome ∨ ¬ db.has_folder feed.folder_id then
      .error .Sqlite
    else .ok { db with feeds := db.feeds ++
      [⟨feed.id,feed.title,feed.url,feed.site_url,feed.last_fetched_at.map fmt_time,feed.folder_id,fmt_time feed.created_at,
        fmt_time feed.updated_at⟩] })

/-- Move a feed into a folder. -/
def update_feed_folder_id (feed_id : String) (folder_id : Option String) : FeedWork Unit :=
  run (fun db =>
    if db.feeds.any (fun row => row.id = feed_id) ∧ ¬ db.has_folder folder_id then .error .Sqlite
    else .ok { db with feeds := db.feeds.map (fun row =>
      if row.id = feed_id then { row with folder_id := folder_id, updated_at := TimeCrate.strftime db.now } else row) })

end

end FeedTables

/-! ### The importers -/

/-- What an import reports. -/
structure ImportStats where
  folders_created : ℕ
  folders_existing : ℕ
  feeds_added : ℕ
  feeds_existing : ℕ
  feeds_moved : ℕ
  deriving DecidableEq

/-- What an importer does at a feed and at a named folder; it goes on in the folder that it gives. -/
structure ImportSteps where
  feed : Outline → Option String → ImportStats → FeedWork ImportStats
  folder : String → Option String → ImportStats → FeedWork (Option String × ImportStats)

mutual
/-- Import an outline. The outlines below a feed are left out. -/
def ImportSteps.import_outline (steps : ImportSteps) (parent_folder_id : Option String) (stats : ImportStats) :
    OpmlOutline → FeedWork ImportStats
  | .node outline children =>
    if outline.is_feed then steps.feed outline parent_folder_id stats
    else if outline.display_name = "" then steps.import_outlines parent_folder_id stats children
    else do
      let (folder_id,stats) ← steps.folder outline.display_name parent_folder_id stats
      steps.import_outlines folder_id stats children
/-- Recursively import OPML outlines into the database. -/
def ImportSteps.import_outlines (steps : ImportSteps) (parent_folder_id : Option String) (stats : ImportStats) :
    List OpmlOutline → FeedWork ImportStats
  | [] => pure stats
  | outline :: rest => do
    let stats ← steps.import_outline parent_folder_id stats outline
    steps.import_outlines parent_folder_id stats rest
end

open FeedTables

section
variable [TimeCrate]

/-- A new subscription, which has not been fetched. -/
def new_feed (outline : Outline) (xml_url : String) (parent_folder_id : Option String) : FeedWork Subscription := do
  let now := (← get).now
  let id ← new_v4
  return ⟨id,outline.display_name,xml_url,outline.html_url,none,parent_folder_id,now,now⟩

namespace Server

def import_feed (outline : Outline) (parent_folder_id : Option String) (stats : ImportStats) : FeedWork ImportStats :=
  match outline.xml_url with
  | none => return stats
  | some xml_url => do
    match ← get_feed_by_url xml_url with
    | some existing =>
      if existing.folder_id = parent_folder_id then return { stats with feeds_existing := stats.feeds_existing + 1 }
      else do
        update_feed_folder_id existing.id parent_folder_id
        return { stats with feeds_moved := stats.feeds_moved + 1 }
    | none =>
      insert_feed (← new_feed outline xml_url parent_folder_id)
      return { stats with feeds_added := stats.feeds_added + 1 }

/-- Get or create a folder by name and parent. -/
def get_or_create_folder (name : String) (parent_id : Option String) : FeedWork String := do
  match ← get_feed_folder_by_name name parent_id with
  | some existing => return existing.id
  | none =>
    let now := (← get).now
    let id ← new_v4
    insert_feed_folder ⟨id,name,parent_id,now,now⟩
    return id

/-- A folder that is found again under its id counts as existing. -/
def import_folder (name : String) (parent_folder_id : Option String) (stats : ImportStats) :
    FeedWork (Option String × ImportStats) := do
  let folder_id ← get_or_create_folder name parent_folder_id
  let existing ← get_feed_folder_by_name name parent_folder_id
  return (some folder_id,if existing.any (fun existing => existing.id = folder_id) then
    { stats with folders_existing := stats.folders_existing + 1 } else stats)

def steps : ImportSteps := ⟨import_feed,import_folder⟩

/-- `POST /api/feeds/import-opml`. -/
def import_opml (outlines : List OpmlOutline) : FeedWork ImportStats := steps.import_outlines none ⟨0,0,0,0,0⟩ outlines

end Server

namespace Cli

def import_feed (dry_run : Bool) (outline : Outline) (parent_folder_id : Option String) (stats : ImportStats) :
    FeedWork ImportStats :=
  match outline.xml_url with
  | none => throw .panic
  | some xml_url => do
    match ← get_feed_by_url xml_url with
    | some existing =>
      if existing.folder_id = parent_folder_id then return { stats with feeds_existing := stats.feeds_existing + 1 }
      else do
        if !dry_run then update_feed_folder_id existing.id parent_folder_id
        return { stats with feeds_moved := stats.feeds_moved + 1 }
    | none =>
      if !dry_run then insert_feed (← new_feed outline xml_url parent_folder_id)
      return { stats with feeds_added := stats.feeds_added + 1 }

/-- Get an existing folder by name or create a new one. -/
def get_or_create_folder (name : String) (parent_id : Option String) : FeedWork FeedFolder := do
  match ← get_feed_folder_by_name name parent_id with
  | some existing => return existing
  | none =>
    let now := (← get).now
    let id ← new_v4
    insert_feed_folder ⟨id,name,parent_id,now,now⟩
    return ⟨id,name,parent_id,now,now⟩

/-- A folder whose two times are the same instant counts as created. A dry run makes none, and goes
    on in a folder with a new id. -/
def import_folder (dry_run : Bool) (name : String) (parent_folder_id : Option String) (stats : ImportStats) :
    FeedWork (Option String × ImportStats) :=
  if dry_run then do
    match ← get_feed_folder_by_name name parent_folder_id with
    | some f => return (some f.id,{ stats with folders_existing := stats.folders_existing + 1 })
    | none => return (some (← new_v4),{ stats with folders_created := stats.folders_created + 1 })
  else do
    let folder ← get_or_create_folder name parent_folder_id
    let is_new := folder.created_at.nanos = folder.updated_at.nanos
    return (some folder.id,if is_new then { stats with folders_created := stats.folders_created + 1 }
      else { stats with folders_existing := stats.folders_existing + 1 })

def steps (dry_run : Bool) : ImportSteps := ⟨import_feed dry_run,import_folder dry_run⟩

/-- `feeds import`. -/
def import_opml (dry_run : Bool) (outlines : List OpmlOutline) : FeedWork ImportStats :=
  (steps dry_run).import_outlines none ⟨0,0,0,0,0⟩ outlines

end Cli

end

end Pergamon
