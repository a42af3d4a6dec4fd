import Mathlib.Logic.Function.Basic
import Pergamon.Value

/-!
The tables that sync writes, as the migrations V1 to V16 declare them: their
columns with affinities, defaults and constraints. Columns that no change carries
(timestamps of the row, fetch bookkeeping, the filter of a smart collection) are
left out. Each table is keyed by its primary key.
-/
namespace Pergamon

inductive TableName where
  | feed_folders
  | feeds
  | content_items
  | highlight_meta
  | tags
  | collections
  | notes
  | settings
  | review_cards
  | review_logs
  deriving DecidableEq

/-- What a `CHECK` asks of a column. -/
inductive Check where
  | any
  | one_of (allowed : List String)
  | between (low high : Int)

/-- Whether rows may share a value of the column. -/
inductive Unique where
  | no
  | binary
  | nocase

/-- What an insert stores where it gives no value. -/
inductive Default where
  | value (v : SqlValue)
  | now

structure Column where
  name : String
  affinity : Affinity := .TEXT
  not_null : Bool := false
  default : Default := .value .Null
  check : Check := .any
  unique : Unique := .no
  references : Option TableName := none

/-- The columns that changes can carry, table by table. -/
def columns : TableName → List Column
  | .feed_folders => []
  | .feeds =>
    [{ name := "title", not_null := true },
     { name := "url", not_null := true, unique := .binary },
     { name := "site_url" },
     { name := "description" },
     { name := "folder_id", references := some .feed_folders }]
  | .content_items =>
    [{ name := "url", unique := .binary },
     { name := "title", not_null := true },
     { name := "author" },
     { name := "content_type", not_null := true,
       check := .one_of ["feed_item","article","bookmark","highlight","pdf","podcast_episode"] },
     { name := "status", not_null := true, default := .value (.Text "inbox"),
       check := .one_of ["inbox","later","reference","reading","archived","discarded"] },
     { name := "content_text" },
     { name := "excerpt" },
     { name := "published_at" },
     { name := "read_at" }]
  | .highlight_meta =>
    [{ name := "source_item_id", references := some .content_items },
     { name := "quote_text", not_null := true },
     { name := "note" },
     { name := "position_start", affinity := .INTEGER },
     { name := "position_end", affinity := .INTEGER },
     { name := "color" }]
  | .tags => [{ name := "name", not_null := true, unique := .nocase }]
  | .collections =>
    [{ name := "name", not_null := true },
     { name := "parent_id", references := some .collections },
     { name := "sort_order", affinity := .INTEGER, not_null := true, default := .value (.Integer 0) }]
  | .notes =>
    [{ name := "content_item_id", not_null := true, references := some .content_items },
     { name := "body", not_null := true }]
  | .settings => [{ name := "value", not_null := true }]
  | .review_cards =>
    [{ name := "content_item_id", not_null := true, unique := .binary, references := some .highlight_meta },
     { name := "state", not_null := true, default := .value (.Text "new"),
       check := .one_of ["new","learning","review","relearning"] },
     { name := "stability", affinity := .REAL },
     { name := "difficulty", affinity := .REAL },
     { name := "due_at", not_null := true, default := .now },
     { name := "last_reviewed_at" },
     { name := "review_count", affinity := .INTEGER, not_null := true, default := .value (.Integer 0) },
     { name := "lapse_count", affinity := .INTEGER, not_null := true, default := .value (.Integer 0) },
     { name := "scheduled_days", affinity := .REAL }]
  | .review_logs =>
    [{ name := "card_id", not_null := true, references := some .review_cards },
     { name := "rating", affinity := .INTEGER, not_null := true, check := .between 1 4 },
     { name := "state_before", not_null := true },
     { name := "stability_before", affinity := .REAL },
     { name := "difficulty_before", affinity := .REAL },
     { name := "state_after", not_null := true },
     { name := "stability_after", affinity := .REAL, not_null := true },
     { name := "difficulty_after", affinity := .REAL, not_null := true },
     { name := "elapsed_days", affinity := .REAL, not_null := true },
     { name := "scheduled_days", affinity := .REAL, not_null := true },
     { name := "reviewed_at", not_null := true, default := .now }]

/-- The affinity of a column by its name. -/
def affinity_of (t : TableName) (name : String) : Affinity :=
  match (columns t).find? (fun c => c.name = name) with
  | some c => c.affinity
  | none => .TEXT

/-- ASCII letters compared without case, as the collation NOCASE does. -/
def fold_case (s : String) : String :=
  s.map (fun c => if 'A' ≤ c ∧ c ≤ 'Z' then Char.ofNat (c.toNat + 32) else c)

/-- Two values of a column that its unique index takes for the same; nulls never are. -/
def same_key (u : Unique) (v w : SqlValue) : Bool :=
  match u,v,w with
  | .no,_,_ => false
  | .nocase,.Text s,.Text s' => fold_case s = fold_case s'
  | _,.Null,_ => false
  | _,v,w => v = w

section
variable [Sqlite]

/-- The constraints on a value that do not look at other rows: NOT NULL and CHECK. -/
def admits (c : Column) (v : SqlValue) : Bool :=
  match v with
  | .Null => !c.not_null
  | .Integer i =>
    match c.check with
    | .any => true
    | .one_of _ => false
    | .between low high => decide (low ≤ i ∧ i ≤ high)
  | .Real r =>
    match c.check with
    | .any => true
    | .one_of _ => false
    | .between low high => Sqlite.real_between low high r
  | .Text s =>
    match c.check with
    | .any => true
    | .one_of allowed => allowed.contains s
    | .between _ _ => false

end
end Pergamon
