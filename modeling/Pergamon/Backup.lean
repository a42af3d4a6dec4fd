import Pergamon.Dumps
import Pergamon.Library

/-!
Backups: the whole library as records (`backup_export`), and its restoration into an empty
database inside one transaction (`restore`). The archive is the value that is written; its ZIP and
JSON coding and the time in its manifest are left out.

Each table is given by its columns in the order that its list function reads them, and by what
its constraints ask (`layout`). The list functions of some tables take a default where a column holds
a value of another type, the others fail; an id or a time that does not parse stops the
program. The order that lists are sorted in is left out, and so are the full-text index, but for
the error of a missing item, and the columns that no list function reads.
-/
namespace Pergamon.Backup
open Fallible

/-- The tables whose rows are records of an archive. -/
inductive Entry where
  | feed_folders
  | feeds
  | content_items
  | tags
  | collections
  | feed_item_meta
  | bookmark_meta
  | highlight_meta
  | notes
  | review_cards
  | review_logs
  | content_rules
  deriving DecidableEq

/-- A field of a record. Ids and the names of enumerations are texts. -/
inductive Cell where
  | none
  | text (s : String)
  | time (t : OffsetDateTime)
  | integer (i : ℤ)
  | real (r : F64)
  | flag (b : Bool)
  | actions (actions : List RuleAction)
  deriving DecidableEq

abbrev Record := List Cell

/-- What a column is read as. A choice is one of some names, and another name where the text is
    none of them; its `CHECK`, where it has one, allows the same names. -/
inductive Kind where
  | uuid
  | text
  | time
  | integer (bits : ℕ)
  | real
  | flag
  | rating
  | choice (names : List String) (other : String) (checked : Bool)
  | actions

/-- The uuid crate, the JSON of the actions of a rule, and the text that `{:?}` gives to a string. -/
class Encodings where
  parse_uuid : String → Option String
  from_json : String → Option (List RuleAction)
  to_json : List RuleAction → String
  debug : String → String

section
variable [TimeCrate] [Encodings]

namespace Kind

/-- The values that a column can hold but for null, after the conversion of its affinity. A text
    in a column of numbers is one that is no number. SQLite stores no NaN, and flags are only
    written from booleans. -/
def holds : Kind → SqlValue → Bool
  | .uuid,.Text _ => true
  | .text,.Text _ => true
  | .time,.Text _ => true
  | .integer _,.Integer _ => true
  | .integer _,.Real r => !r.is_nan
  | .integer _,.Text _ => true
  | .real,.Real r => !r.is_nan
  | .real,.Text _ => true
  | .flag,.Integer i => i = 0 ∨ i = 1
  | .rating,.Integer i => 1 ≤ i ∧ i ≤ 4
  | .rating,.Real r => !r.is_nan
  | .choice names _ checked,.Text s => !checked || names.contains s
  | .actions,.Text _ => true
  | _,_ => false

/-- `row.get` at the type of the kind. -/
def get : Kind → SqlValue → Option SqlValue
  | .integer bits,.Integer i => if -(2 ^ (bits - 1)) ≤ i ∧ i < 2 ^ (bits - 1) then some (.Integer i) else none
  | .real,.Real r => some (.Real r)
  | .flag,.Integer i => some (.Integer i)
  | .rating,.Integer i => some (.Integer i)
  | .integer _,_ => none
  | .real,_ => none
  | .flag,_ => none
  | .rating,_ => none
  | _,.Text s => some (.Text s)
  | _,_ => none

/-- What `unwrap_or_default` or `unwrap_or` puts in the place of a value of another type. -/
def default : Kind → SqlValue
  | .integer _ => .Integer 0
  | .real => .Real ⟨0⟩
  | .flag => .Integer 1
  | .rating => .Integer 3
  | _ => .Text ""

/-- What is made of a value of the right type. -/
def parse : Kind → SqlValue → Except Failure Cell
  | .uuid,.Text s =>
    match Encodings.parse_uuid s with
    | some id => .ok (.text id)
    | none => .error .panic
  | .time,.Text s =>
    match TimeCrate.parse_rfc3339 s with
    | some t => .ok (.time t)
    | none => .error .panic
  | .choice names other _,.Text s => .ok (.text (if names.contains s then s else other))
  | .actions,.Text s => .ok (.actions ((Encodings.from_json s).getD []))
  | .rating,.Integer i => .ok (.integer (if 1 ≤ i ∧ i ≤ 4 then i else 3))
  | .flag,.Integer i => .ok (.flag (i ≠ 0))
  | _,.Integer i => .ok (.integer i)
  | _,.Real r => .ok (.real r)
  | _,.Text s => .ok (.text s)
  | _,.Null => .error .panic

end Kind

structure Field where
  name : String
  kind : Kind
  optional : Bool := false

namespace Field

/-- NOT NULL and the values of the kind. -/
def holds (f : Field) : SqlValue → Bool
  | .Null => f.optional
  | v => f.kind.holds v

/-- Where a list function is lenient, a value of another type reads as null or as the default. -/
def read (lenient : Bool) (f : Field) (v : SqlValue) : Except Failure Cell :=
  if f.optional ∧ v = .Null then .ok .none
  else
    match f.kind.get v with
    | some raw => f.kind.parse raw
    | none =>
      if lenient then
        if f.optional then .ok .none else f.kind.parse f.kind.default
      else .error (.storage .Sqlite)

end Field

/-- The value that an insert binds for a field. SQLite binds a NaN as null. -/
def Cell.write : Cell → SqlValue
  | .none => .Null
  | .text s => .Text s
  | .time t => .Text (fmt_time t)
  | .integer i => .Integer i
  | .real r => if r.is_nan then .Null else .Real r
  | .flag b => .Integer (if b then 1 else 0)
  | .actions list => .Text (Encodings.to_json list)

def Field.column (lenient : Bool) (f : Field) : Dumps.Column Failure SqlValue Cell := ⟨f.holds,f.read lenient,Cell.write⟩

end

/-! ### What a list function reads is written as what reads the same -/

/-- A value that has the type of the kind is the one that is read. -/
theorem Kind.get_same {k : Kind} {v raw : SqlValue} (typed : k.get v = some raw) : raw = v := by
  cases k <;> cases v <;> simp_all [Kind.get]

/-- A kind that holds a value of another type holds its default. -/
theorem Kind.default_held {k : Kind} {v : SqlValue} (held : k.holds v) (mistyped : k.get v = none) :
    k.holds k.default ∧ k.get k.default = some k.default := by
  cases k with
  | integer bits =>
    have high : (0 : ℤ) < 2 ^ (bits - 1) := Int.pow_pos (by decide)
    simp [Kind.default,Kind.holds,Kind.get,high,high.le]
  | real => exact ⟨by decide,rfl⟩
  | rating => exact ⟨by decide,rfl⟩
  | flag => exact ⟨by decide,rfl⟩
  | _ => cases v <;> simp_all [Kind.holds,Kind.get]

theorem Kind.null_not_held {k : Kind} : k.holds .Null = false := by cases k <;> rfl

theorem Kind.get_null {k : Kind} : k.get .Null = none := by cases k <;> rfl

theorem Field.holds_value {f : Field} {v : SqlValue} (there : v ≠ .Null) : f.holds v = f.kind.holds v := by
  cases v <;> simp_all [Field.holds]

section
variable [TimeCrate] [Encodings]

/-- What the crates promise: an id or a time that has been parsed parses again from the text it is
    written as, and so do the actions of a rule. -/
structure ReadBack : Prop where
  uuid : ∀ s id, Encodings.parse_uuid s = some id → Encodings.parse_uuid id = some id
  time : ∀ s t, TimeCrate.parse_rfc3339 s = some t → TimeCrate.parse_rfc3339 (fmt_time t) = some t
  actions : ∀ s list, Encodings.from_json s = some list → Encodings.from_json (Encodings.to_json list) = some list
  no_actions : Encodings.from_json (Encodings.to_json []) = some []

/-- What a parsed value is written as is held, has the right type and parses the same. -/
theorem Kind.parse_back (back : ReadBack) {k : Kind} {v : SqlValue} {c : Cell} (held : k.holds v) (typed : k.get v = some v)
    (parsed : k.parse v = .ok c) : k.holds c.write ∧ k.get c.write = some c.write ∧ k.parse c.write = .ok c := by
  cases k with
  | uuid =>
    cases v with
    | Text s =>
      cases reads : Encodings.parse_uuid s with
      | none => simp [Kind.parse,reads] at parsed
      | some id =>
        simp only [Kind.parse,reads,Except.ok.injEq] at parsed
        subst parsed
        simp [Cell.write,Kind.holds,Kind.get,Kind.parse,back.uuid s id reads]
    | _ => cases typed
  | text =>
    cases v with
    | Text s =>
      cases parsed
      exact ⟨rfl,rfl,rfl⟩
    | _ => cases typed
  | time =>
    cases v with
    | Text s =>
      cases reads : TimeCrate.parse_rfc3339 s with
      | none => simp [Kind.parse,reads] at parsed
      | some t =>
        simp only [Kind.parse,reads,Except.ok.injEq] at parsed
        subst parsed
        simp [Cell.write,Kind.holds,Kind.get,Kind.parse,back.time s t reads]
    | _ => cases typed
  | integer bits =>
    cases v with
    | Integer i =>
      cases parsed
      exact ⟨rfl,typed,rfl⟩
    | _ => cases typed
  | real =>
    cases v with
    | Real r =>
      cases parsed
      have number : r.is_nan = false := by simpa [Kind.holds] using held
      simp [Cell.write,number,Kind.holds,Kind.get,Kind.parse]
    | _ => cases typed
  | flag =>
    cases v with
    | Integer i =>
      cases parsed
      have either : i = 0 ∨ i = 1 := by simpa [Kind.holds] using held
      rcases either with rfl | rfl
      · exact ⟨rfl,rfl,rfl⟩
      · exact ⟨rfl,rfl,rfl⟩
    | _ => cases typed
  | rating =>
    cases v with
    | Integer i =>
      cases parsed
      have range : 1 ≤ i ∧ i ≤ 4 := by simpa [Kind.holds] using held
      simp [Cell.write,Kind.holds,Kind.get,Kind.parse,range]
    | _ => cases typed
  | choice names other checked =>
    cases v with
    | Text s =>
      cases parsed
      have allowed : checked = false ∨ s ∈ names := by simpa [Kind.holds] using held
      by_cases named : s ∈ names
      · simp [Cell.write,Kind.holds,Kind.get,Kind.parse,named]
      · simp [Cell.write,Kind.holds,Kind.get,Kind.parse,named,allowed.resolve_right named]
    | _ => cases typed
  | actions =>
    cases v with
    | Text s =>
      cases parsed
      cases reads : Encodings.from_json s with
      | none => simp [Cell.write,Kind.holds,Kind.get,Kind.parse,back.no_actions]
      | some list => simp [Cell.write,Kind.holds,Kind.get,Kind.parse,back.actions s list reads]
    | _ => cases typed

/-- A value of the right type is read as it parses. -/
theorem Field.read_value {lenient : Bool} {f : Field} {v : SqlValue} (typed : f.kind.get v = some v) :
    f.read lenient v = f.kind.parse v := by
  have there : v ≠ .Null := by
    rintro rfl
    rw [Kind.get_null] at typed
    cases typed
  simp [Field.read,there,typed]

/-- A stored id or time that parses. -/
def Kind.legible : Kind → SqlValue → Bool
  | .uuid,.Text s => (Encodings.parse_uuid s).isSome
  | .time,.Text s => (TimeCrate.parse_rfc3339 s).isSome
  | _,_ => true

/-- A value that a list function reads: an id or a time parses, and unless the function is lenient
    a value that is there has the right type. -/
def Field.legible (lenient : Bool) (f : Field) (v : SqlValue) : Bool :=
  f.kind.legible v && (lenient || v = .Null || (f.kind.get v).isSome)

theorem Kind.parse_legible {k : Kind} {v : SqlValue} (typed : k.get v = some v) : (∃ c, k.parse v = .ok c) ↔ k.legible v := by
  cases k with
  | uuid =>
    cases v with
    | Text s => cases reads : Encodings.parse_uuid s <;> simp [Kind.parse,Kind.legible,reads]
    | _ => cases typed
  | time =>
    cases v with
    | Text s => cases reads : TimeCrate.parse_rfc3339 s <;> simp [Kind.parse,Kind.legible,reads]
    | _ => cases typed
  | _ =>
    cases v with
    | Null => cases typed
    | _ => exact iff_of_true ⟨_,rfl⟩ rfl

theorem Field.read_legible {lenient : Bool} {f : Field} {v : SqlValue} (held : f.holds v) :
    (∃ c, f.read lenient v = .ok c) ↔ f.legible lenient v := by
  by_cases null : v = .Null
  · subst null
    have optional : f.optional := held
    refine iff_of_true ⟨.none,by rw [Field.read,if_pos ⟨optional,rfl⟩]⟩ ?_
    cases kind : f.kind <;> simp [Field.legible,kind,Kind.legible]
  · rw [Field.holds_value null] at held
    cases typed : f.kind.get v with
    | some raw =>
      obtain rfl := Kind.get_same typed
      rw [Field.read_value typed,Kind.parse_legible typed]
      simp [Field.legible,typed]
    | none =>
      obtain ⟨holds,typed'⟩ := Kind.default_held held typed
      have plain : f.kind.legible v ∧ f.kind.legible f.kind.default := by
        cases kind : f.kind with
        | uuid => rw [kind] at held typed; cases v <;> simp_all [Kind.holds,Kind.get]
        | time => rw [kind] at held typed; cases v <;> simp_all [Kind.holds,Kind.get]
        | _ => exact ⟨rfl,rfl⟩
      obtain ⟨c,parsed⟩ := (Kind.parse_legible typed').mpr plain.2
      rw [Field.read,if_neg (fun both => null both.2),typed]
      cases lenient with
      | false => simp [Field.legible,null,typed]
      | true =>
        refine iff_of_true ?_ (by simp [Field.legible,plain.1])
        by_cases optional : f.optional
        · exact ⟨.none,by simp [optional]⟩
        · exact ⟨c,by simpa [optional] using parsed⟩

/-- What a list function reads of a column is written as what reads the same. -/
theorem Field.column_faithful (back : ReadBack) (lenient : Bool) (f : Field) : (f.column lenient).Faithful := by
  intro v c held reads
  change f.holds v at held
  change f.read lenient v = .ok c at reads
  have proper {v' : SqlValue} (holds : f.kind.holds v') (typed : f.kind.get v' = some v') (parsed : f.kind.parse v' = .ok c) :
      f.holds c.write ∧ f.read lenient c.write = .ok c := by
    obtain ⟨holds',typed',same⟩ := Kind.parse_back back holds typed parsed
    have there : c.write ≠ .Null := by
      intro null
      rw [null,Kind.null_not_held] at holds'
      cases holds'
    exact ⟨(Field.holds_value there).trans holds',(Field.read_value typed').trans same⟩
  have nothing (optional : f.optional) (none : c = .none) : f.holds c.write ∧ f.read lenient c.write = .ok c := by
    subst none
    simp [Cell.write,Field.holds,Field.read,optional]
  by_cases null : v = .Null
  · subst null
    have optional : f.optional := held
    rw [Field.read,if_pos ⟨optional,rfl⟩] at reads
    exact nothing optional (Except.ok.inj reads).symm
  · rw [Field.holds_value null] at held
    rw [Field.read,if_neg (fun both => null both.2)] at reads
    cases typed : f.kind.get v with
    | some raw =>
      rw [typed] at reads
      obtain rfl := Kind.get_same typed
      exact proper held typed reads
    | none =>
      rw [typed] at reads
      obtain ⟨holds,typed'⟩ := Kind.default_held held typed
      cases lenient with
      | false => cases reads
      | true =>
        by_cases optional : f.optional
        · simp only [optional,if_true,Except.ok.injEq] at reads
          exact nothing optional reads.symm
        · simp only [optional,if_true,Bool.false_eq_true,if_false] at reads
          exact proper holds typed' reads

end

/-- Columns that no two rows may share, all of them together; a partial index looks only at rows
    where some column is null. -/
structure Key where
  columns : List (String × Unique)
  where_null : Option String := none

/-- A table: how it is read, its columns, its unique keys with the primary key first, and the rows
    that its trigger aborts. -/
structure Layout where
  lenient : Bool
  fields : List Field
  unique : List Key
  smart_trigger : Bool := false

/-- The value of a column in a row. -/
def value : List Field → String → List SqlValue → SqlValue
  | f :: fields,name,v :: row => if f.name = name then v else value fields name row
  | _,_,_ => .Null

/-- The field of a record that is read from a column. -/
def cell : List Field → String → Record → Cell
  | f :: fields,name,c :: record => if f.name = name then c else cell fields name record
  | _,_,_ => .none

/-- The first column, by which a table is keyed. -/
def row_id (row : List SqlValue) : SqlValue := row.headD .Null

def Key.same (fields : List Field) (key : Key) (row other : List SqlValue) : Bool :=
  key.columns.all (fun c => same_key c.2 (value fields c.1 row) (value fields c.1 other)) &&
    key.where_null.all (fun name => value fields name row = .Null ∧ value fields name other = .Null)

namespace Layout

/-- `trg_collections_smart_insert`: a smart collection has a filter and a manual one has none. -/
def aborts (t : Layout) (row : List SqlValue) : Bool :=
  t.smart_trigger &&
    ((value t.fields "is_smart" row = .Integer 1 ∧ value t.fields "filter_query" row = .Null) ∨
      (value t.fields "is_smart" row = .Integer 0 ∧ value t.fields "filter_query" row ≠ .Null))

/-- A table with rows as the database holds them and records as the archive does. -/
def table [TimeCrate] [Encodings] (t : Layout) : Dumps.Table Failure (List SqlValue) Record where
  read := Dumps.read_row (t.fields.map (Field.column t.lenient))
  write := Dumps.write_row (t.fields.map (Field.column t.lenient))
  admits := fun row => Dumps.holds_row (t.fields.map (Field.column t.lenient)) row && !t.aborts row
  clash := fun row other => t.unique.any (fun key => key.same t.fields row other)

end Layout

/-- The primary key. -/
def key (name : String) : Key := { columns := [(name,.binary)] }

def document_statuses : List String := ["inbox","later","reference","reading","archived","discarded"]
def content_types : List String := ["feed_item","article","bookmark","highlight","pdf","podcast_episode"]
def card_states : List String := ["new","learning","review","relearning"]

/-- The tables as the migrations declare them and the list functions read them. -/
def layout : Entry → Layout
  | .feed_folders =>
    { lenient := true
      fields :=
        [{ name := "id", kind := .uuid },
         { name := "name", kind := .text },
         { name := "parent_id", kind := .uuid, optional := true },
         { name := "created_at", kind := .time },
         { name := "updated_at", kind := .time }]
      unique :=
        [key "id",
         { columns := [("name",.nocase)], where_null := some "parent_id" },
         { columns := [("parent_id",.binary),("name",.nocase)] }] }
  | .feeds =>
    { lenient := true
      fields :=
        [{ name := "id", kind := .uuid },
         { name := "title", kind := .text },
         { name := "url", kind := .text },
         { name := "site_url", kind := .text, optional := true },
         { name := "description", kind := .text, optional := true },
         { name := "etag", kind := .text, optional := true },
         { name := "last_modified_header", kind := .text, optional := true },
         { name := "error_count", kind := .integer 32 },
         { name := "last_error", kind := .text, optional := true },
         { name := "last_fetched_at", kind := .time, optional := true },
         { name := "folder_id", kind := .uuid, optional := true },
         { name := "created_at", kind := .time },
         { name := "updated_at", kind := .time }]
      unique := [key "id",key "url"] }
  | .content_items =>
    { lenient := true
      fields :=
        [{ name := "id", kind := .uuid },
         { name := "url", kind := .text, optional := true },
         { name := "title", kind := .text },
         { name := "author", kind := .text, optional := true },
         { name := "content_type", kind := .choice content_types "article" true },
         { name := "status", kind := .choice document_statuses "inbox" true },
         { name := "content_text", kind := .text, optional := true },
         { name := "excerpt", kind := .text, optional := true },
         { name := "published_at", kind := .time, optional := true },
         { name := "created_at", kind := .time },
         { name := "updated_at", kind := .time },
         { name := "read_at", kind := .time, optional := true }]
      unique := [key "id",key "url"] }
  | .tags =>
    { lenient := false
      fields :=
        [{ name := "id", kind := .uuid },
         { name := "name", kind := .text },
         { name := "created_at", kind := .time }]
      unique := [key "id",{ columns := [("name",.nocase)] }] }
  | .collections =>
    { lenient := false
      fields :=
        [{ name := "id", kind := .uuid },
         { name := "name", kind := .text },
         { name := "parent_id", kind := .uuid, optional := true },
         { name := "sort_order", kind := .integer 32 },
         { name := "is_smart", kind := .flag },
         { name := "filter_query", kind := .text, optional := true },
         { name := "created_at", kind := .time },
         { name := "updated_at", kind := .time }]
      unique := [key "id"]
      smart_trigger := true }
  | .feed_item_meta =>
    { lenient := false
      fields :=
        [{ name := "content_item_id", kind := .uuid },
         { name := "feed_id", kind := .uuid },
         { name := "guid", kind := .text, optional := true },
         { name := "summary", kind := .text, optional := true }]
      unique := [key "content_item_id",{ columns := [("feed_id",.binary),("guid",.binary)] }] }
  | .bookmark_meta =>
    { lenient := false
      fields :=
        [{ name := "content_item_id", kind := .uuid },
         { name := "original_url", kind := .text, optional := true },
         { name := "saved_from", kind := .text, optional := true },
         { name := "thumbnail_url", kind := .text, optional := true },
         { name := "description", kind := .text, optional := true },
         { name := "site_name", kind := .text, optional := true },
         { name := "favicon_url", kind := .text, optional := true }]
      unique := [key "content_item_id"] }
  | .highlight_meta =>
    { lenient := false
      fields :=
        [{ name := "content_item_id", kind := .uuid },
         { name := "source_item_id", kind := .uuid, optional := true },
         { name := "quote_text", kind := .text },
         { name := "note", kind := .text, optional := true },
         { name := "position_start", kind := .integer 64, optional := true },
         { name := "position_end", kind := .integer 64, optional := true },
         { name := "color", kind := .text, optional := true }]
      unique := [key "content_item_id"] }
  | .notes =>
    { lenient := true
      fields :=
        [{ name := "id", kind := .uuid },
         { name := "content_item_id", kind := .uuid },
         { name := "body", kind := .text },
         { name := "created_at", kind := .time },
         { name := "updated_at", kind := .time }]
      unique := [key "id"] }
  | .review_cards =>
    { lenient := true
      fields :=
        [{ name := "id", kind := .uuid },
         { name := "content_item_id", kind := .uuid },
         { name := "state", kind := .choice card_states "new" true },
         { name := "stability", kind := .real, optional := true },
         { name := "difficulty", kind := .real, optional := true },
         { name := "due_at", kind := .time },
         { name := "last_reviewed_at", kind := .time, optional := true },
         { name := "review_count", kind := .integer 32 },
         { name := "lapse_count", kind := .integer 32 },
         { name := "scheduled_days", kind := .real, optional := true },
         { name := "created_at", kind := .time },
         { name := "updated_at", kind := .time }]
      unique := [key "id",key "content_item_id"] }
  | .review_logs =>
    { lenient := true
      fields :=
        [{ name := "id", kind := .uuid },
         { name := "card_id", kind := .uuid },
         { name := "rating", kind := .rating },
         { name := "state_before", kind := .choice card_states "new" false },
         { name := "stability_before", kind := .real, optional := true },
         { name := "difficulty_before", kind := .real, optional := true },
         { name := "state_after", kind := .choice card_states "new" false },
         { name := "stability_after", kind := .real },
         { name := "difficulty_after", kind := .real },
         { name := "elapsed_days", kind := .real },
         { name := "scheduled_days", kind := .real },
         { name := "reviewed_at", kind := .time }]
      unique := [key "id"] }
  | .content_rules =>
    { lenient := true
      fields :=
        [{ name := "id", kind := .uuid },
         { name := "name", kind := .text },
         { name := "enabled", kind := .flag },
         { name := "priority", kind := .integer 32 },
         { name := "filter_query", kind := .text },
         { name := "actions_json", kind := .actions },
         { name := "created_at", kind := .time },
         { name := "updated_at", kind := .time }]
      unique := [key "id",key "name"] }

/-! ### The database -/

/-- The rows of the tables, the edges, and the version that the migrations have reached. -/
structure Database where
  rows : Entry → List (List SqlValue)
  content_item_tags : List (String × String)
  content_item_collections : List (String × String × SqlValue)
  version : ℤ

/-- What the database does, and what it leaves where it fails. -/
abbrev Work := EStateM Failure Database

/-- One statement. It writes nothing where it fails. -/
def run (statement : Database → Except Failure Database) : Work Unit := fun db =>
  match statement db with
  | .ok db' => .ok () db'
  | .error e => .error e db

namespace Database

/-- After the migrations. -/
def empty (version : ℤ) : Database := ⟨fun _ => [],[],[],version⟩

def set_rows (db : Database) (t : Entry) (rows : List (List SqlValue)) : Database := { db with rows := Function.update db.rows t rows }

@[simp] theorem rows_set_rows (db : Database) (t : Entry) (rows : List (List SqlValue)) : (db.set_rows t rows).rows t = rows := by
  simp [set_rows]

theorem rows_set_rows_ne (db : Database) {t t' : Entry} (other : t' ≠ t) (rows : List (List SqlValue)) :
    (db.set_rows t rows).rows t' = db.rows t' := by
  simp [set_rows,other]

/-- The row of a table with an id. -/
def row (db : Database) (t : Entry) (id : String) : Option (List SqlValue) := (db.rows t).find? (fun row => row_id row = .Text id)

section
variable [TimeCrate] [Encodings]

/-- `INSERT INTO`. -/
def insert (t : Entry) (row : List SqlValue) (db : Database) : Except Failure Database :=
  ((layout t).table.take (.storage .Sqlite) (db.rows t) row).map (db.set_rows t)

end

/-- `INSERT OR IGNORE INTO content_item_tags`. A broken foreign key fails where they are on. -/
def insert_tag_edge (foreign_keys : Bool) (item_id tag_id : String) (db : Database) : Except Failure Database :=
  if (item_id,tag_id) ∈ db.content_item_tags then .ok db
  else if foreign_keys ∧ ¬((db.row .content_items item_id).isSome ∧ (db.row .tags tag_id).isSome) then .error (.storage .Sqlite)
  else .ok { db with content_item_tags := db.content_item_tags ++ [(item_id,tag_id)] }

/-- An item and its collection, the key of a membership. -/
def ends (member : String × String × SqlValue) : String × String := (member.1,member.2.1)

/-- `INSERT OR IGNORE INTO content_item_collections`. -/
def insert_member (foreign_keys : Bool) (item_id coll_id : String) (sort : SqlValue) (db : Database) : Except Failure Database :=
  if (item_id,coll_id) ∈ db.content_item_collections.map ends then .ok db
  else if foreign_keys ∧ ¬((db.row .content_items item_id).isSome ∧ (db.row .collections coll_id).isSome) then .error (.storage .Sqlite)
  else .ok { db with content_item_collections := db.content_item_collections ++ [(item_id,coll_id,sort)] }

/-- Check whether the database has any user data. -/
def is_empty (db : Database) : Bool :=
  (db.rows .feeds).length + (db.rows .content_items).length + (db.rows .tags).length + (db.rows .collections).length = 0

end Database

section
variable [TimeCrate] [Encodings]

/-! ### Inserts and lists -/

def insert_record (t : Entry) (record : Record) : Work Unit := run (Database.insert t ((layout t).table.write record))

def insert_feed_folder (folder : Record) : Work Unit := insert_record .feed_folders folder
def insert_feed (feed : Record) : Work Unit := insert_record .feeds feed
def insert_content_item (item : Record) : Work Unit := insert_record .content_items item
def insert_tag (tag : Record) : Work Unit := insert_record .tags tag
def insert_collection (coll : Record) : Work Unit := insert_record .collections coll
def insert_feed_item_meta (info : Record) : Work Unit := insert_record .feed_item_meta info
def insert_bookmark_meta (info : Record) : Work Unit := insert_record .bookmark_meta info
def insert_highlight_meta (info : Record) : Work Unit := insert_record .highlight_meta info
def insert_note (note : Record) : Work Unit := insert_record .notes note
def insert_review_card (card : Record) : Work Unit := insert_record .review_cards card
def insert_review_log (log : Record) : Work Unit := insert_record .review_logs log
def insert_rule (rule : Record) : Work Unit := insert_record .content_rules rule

namespace Database
variable (db : Database)

def list (t : Entry) : Except Failure (List Record) := (layout t).table.dump (db.rows t)

def list_feed_folders : Except Failure (List Record) := db.list .feed_folders
def list_feeds : Except Failure (List Record) := db.list .feeds
def list_all_content_items : Except Failure (List Record) := db.list .content_items
def list_tags : Except Failure (List Record) := db.list .tags
def list_collections : Except Failure (List Record) := db.list .collections
def list_all_feed_item_meta : Except Failure (List Record) := db.list .feed_item_meta
def list_all_bookmark_meta : Except Failure (List Record) := db.list .bookmark_meta
def list_all_highlight_meta : Except Failure (List Record) := db.list .highlight_meta
def list_all_notes : Except Failure (List Record) := db.list .notes
def list_all_review_cards : Except Failure (List Record) := db.list .review_cards
def list_all_review_logs : Except Failure (List Record) := db.list .review_logs
def list_rules : Except Failure (List Record) := db.list .content_rules

def parse_uuid (s : String) : Except Failure String :=
  match Encodings.parse_uuid s with
  | some id => .ok id
  | none => .error .panic

def read_tag_edge (edge : String × String) : Except Failure (String × String) := do
  let item_id ← parse_uuid edge.1
  let tag_id ← parse_uuid edge.2
  .ok (item_id,tag_id)

def read_member (member : String × String × SqlValue) : Except Failure (String × String × ℤ) := do
  let item_id ← parse_uuid member.1
  let coll_id ← parse_uuid member.2.1
  match (Kind.integer 32).get member.2.2 with
  | some (.Integer sort) => .ok (item_id,coll_id,sort)
  | _ => .error (.storage .Sqlite)

def list_all_content_item_tags : Except Failure (List (String × String)) := db.content_item_tags.mapM read_tag_edge

def list_all_collection_items : Except Failure (List (String × String × ℤ)) := db.content_item_collections.mapM read_member

def schema_version : Except Failure ℤ := .ok db.version

/-- Retrieve a collection by ID. -/
def get_collection (id : String) : Except Failure Record :=
  match db.row .collections id with
  | some row => (layout .collections).table.read row
  | none => .error (.storage (.NotFound "collection" id))

end Database

/-- Whether a record of `collections` is a smart collection. -/
def is_smart (coll : Record) : Bool := cell (layout .collections).fields "is_smart" coll = .flag true

/-- Add a content item to a collection, but not to a smart one. -/
def add_to_collection (foreign_keys : Bool) (content_item_id collection_id : String) (sort_order : ℤ) : Work Unit :=
  run (fun db => do
    let coll ← db.get_collection collection_id
    if is_smart coll then .error (.storage (.Constraint "cannot manually add items to a smart collection"))
    else db.insert_member foreign_keys content_item_id collection_id (.Integer sort_order))

/-- Add multiple content items to a collection. What is made of the number of new memberships is
    left out. -/
def bulk_add_to_collection (item_ids : List String) (collection_id : String) : Work Unit :=
  transaction (item_ids.forM (fun item_id => run (Database.insert_member true item_id collection_id (.Integer 0))))

/-- Refresh the tags of an item in the index; an item that is missing is an error. -/
def refresh_fts_tags (content_item_id : String) : Work Unit :=
  run (fun db => if (db.row .content_items content_item_id).isSome then .ok db else .error (.storage .Sqlite))

/-! ### Archives -/

structure BackupManifest where
  app : String
  schema_version : ℤ
  deriving DecidableEq

/-- Record counts of an export or a restore. -/
structure BackupStats where
  feeds : ℕ
  content_items : ℕ
  tags : ℕ
  collections : ℕ
  notes : ℕ
  review_cards : ℕ
  rules : ℕ
  total : ℕ
  deriving DecidableEq

structure Archive where
  manifest : BackupManifest
  feed_folders : List Record
  feeds : List Record
  content_items : List Record
  tags : List Record
  collections : List Record
  feed_item_meta : List Record
  bookmark_meta : List Record
  highlight_meta : List Record
  notes : List Record
  review_cards : List Record
  review_logs : List Record
  content_rules : List Record
  content_item_tags : List (String × String)
  collection_items : List (String × String × ℤ)
  deriving DecidableEq

def MANIFEST_APP : String := "pergamon"

def Archive.stats (a : Archive) : BackupStats where
  feeds := a.feeds.length
  content_items := a.content_items.length
  tags := a.tags.length
  collections := a.collections.length
  notes := a.notes.length
  review_cards := a.review_cards.length
  rules := a.content_rules.length
  total := a.feed_folders.length + a.feeds.length + a.content_items.length + a.tags.length + a.collections.length +
    a.feed_item_meta.length + a.bookmark_meta.length + a.highlight_meta.length + a.notes.length + a.review_cards.length +
    a.review_logs.length + a.content_rules.length + a.content_item_tags.length + a.collection_items.length

/-- Write a full backup. -/
def backup_export (db : Database) : Except Failure (Archive × BackupStats) := do
  let feed_folders ← db.list_feed_folders
  let feeds ← db.list_feeds
  let content_items ← db.list_all_content_items
  let tags ← db.list_tags
  let collections ← db.list_collections
  let feed_item_meta ← db.list_all_feed_item_meta
  let bookmark_meta ← db.list_all_bookmark_meta
  let highlight_meta ← db.list_all_highlight_meta
  let notes ← db.list_all_notes
  let review_cards ← db.list_all_review_cards
  let review_logs ← db.list_all_review_logs
  let rules ← db.list_rules
  let content_item_tags ← db.list_all_content_item_tags
  let collection_items ← db.list_all_collection_items
  let schema_version ← db.schema_version
  let archive : Archive :=
    ⟨⟨MANIFEST_APP,schema_version⟩,feed_folders,feeds,content_items,tags,collections,feed_item_meta,bookmark_meta,highlight_meta,
      notes,review_cards,review_logs,rules,content_item_tags,collection_items⟩
  .ok (archive,archive.stats)

/-- The inserts of a restore, with foreign keys off. -/
def restore_backup_inner (a : Archive) : Work Unit :=
  transaction do
    a.feed_folders.forM insert_feed_folder
    a.feeds.forM insert_feed
    a.content_items.forM insert_content_item
    a.tags.forM insert_tag
    a.collections.forM insert_collection
    a.feed_item_meta.forM insert_feed_item_meta
    a.bookmark_meta.forM insert_bookmark_meta
    a.highlight_meta.forM insert_highlight_meta
    a.notes.forM insert_note
    a.review_cards.forM insert_review_card
    a.review_logs.forM insert_review_log
    a.content_rules.forM insert_rule
    a.content_item_tags.forM (fun edge => run (Database.insert_tag_edge false edge.1 edge.2))
    a.collection_items.forM (fun member => add_to_collection false member.1 member.2.1 member.2.2)
    a.content_item_tags.forM (fun edge => refresh_fts_tags edge.1)

/-- Restore a full backup into this database. -/
def restore_backup (a : Archive) : Work Unit := do
  let db ← get
  if ¬db.is_empty then throw (.storage (.Generic "database is not empty — restore only works on a fresh database"))
  restore_backup_inner a

/-- Restore an archive, once its manifest has been checked. -/
def restore (a : Archive) : Work BackupStats := do
  if a.manifest.app ≠ MANIFEST_APP then
    throw (.storage (.Generic ("not a pergamon backup (manifest.app = " ++ Encodings.debug a.manifest.app ++ ")")))
  let db ← get
  if a.manifest.schema_version > db.version then
    throw (.storage (.Generic ("backup schema version " ++ toString a.manifest.schema_version ++ " is newer than current " ++
      toString db.version ++ " — upgrade pergamon first")))
  restore_backup a
  pure a.stats

end

/-! ### What a record keeps of its row -/

section
variable [TimeCrate] [Encodings] {fields : List Field} {lenient : Bool} {row : List SqlValue} {record : Record}

/-- A field of a record is what is read of its column, and its column is written from it. -/
theorem cell_read (name : String) {f : Field} (held : Dumps.holds_row (fields.map (Field.column lenient)) row)
    (reads : Dumps.read_row (fields.map (Field.column lenient)) row = .ok record) (named : fields.find? (fun f => f.name = name) = some f) :
    f.holds (value fields name row) ∧ f.read lenient (value fields name row) = .ok (cell fields name record) ∧
      value fields name (Dumps.write_row (fields.map (Field.column lenient)) record) = (cell fields name record).write := by
  induction fields generalizing row record with
  | nil => cases named
  | cons g fields ih =>
    cases row with
    | nil => cases held
    | cons v row =>
      rw [List.map_cons] at reads held
      obtain ⟨c,rest,first,later,rfl⟩ := Dumps.read_row_cons.mp reads
      simp only [Dumps.holds_row,Bool.and_eq_true] at held
      rw [List.map_cons,Dumps.write_row,value,value,cell]
      by_cases here : g.name = name
      · have same : g = f := by simpa [here] using named
        subst same
        simp only [if_pos here]
        exact ⟨held.1,first,rfl⟩
      · simp only [if_neg here]
        exact ih held.2 later (by simpa [here] using named)

/-- A flag is written as it was stored. -/
theorem flag_same {f : Field} {v : SqlValue} {c : Cell} (kind : f.kind = .flag) (there : f.optional = false) (held : f.holds v)
    (reads : f.read lenient v = .ok c) : c.write = v ∧ (c = .flag true ↔ v = .Integer 1) := by
  cases v with
  | Integer i =>
    have either : i = 0 ∨ i = 1 := by simpa [Field.holds,kind,Kind.holds] using held
    simp only [Field.read,there,kind,Kind.get,Kind.parse,Bool.false_eq_true,false_and,if_false,Except.ok.injEq] at reads
    subst reads
    rcases either with rfl | rfl
    · exact ⟨rfl,by simp⟩
    · exact ⟨rfl,by simp⟩
  | _ => simp [Field.holds,kind,Kind.holds,there] at held

/-- A text that may be missing is written as null iff it was null. -/
theorem text_null {f : Field} {v : SqlValue} {c : Cell} (kind : f.kind = .text) (optional : f.optional) (held : f.holds v)
    (reads : f.read lenient v = .ok c) : c.write = v := by
  cases v with
  | Null =>
    simp only [Field.read,optional,true_and,if_true,Except.ok.injEq] at reads
    subst reads
    rfl
  | Text s =>
    simp only [Field.read,kind,Kind.get,Kind.parse,reduceCtorEq,and_false,if_false,Except.ok.injEq] at reads
    subst reads
    rfl
  | _ => simp [Field.holds,kind,Kind.holds] at held

theorem smart_written (held : Dumps.holds_row ((layout .collections).fields.map (Field.column (layout .collections).lenient)) row)
    (reads : (layout .collections).table.read row = .ok record) :
    value (layout .collections).fields "is_smart" ((layout .collections).table.write record) = value (layout .collections).fields "is_smart" row ∧
      (is_smart record ↔ value (layout .collections).fields "is_smart" row = .Integer 1) := by
  obtain ⟨holds,read,written⟩ := cell_read "is_smart" held reads rfl
  obtain ⟨same,smart⟩ := flag_same rfl rfl holds read
  exact ⟨written.trans same,by simpa [is_smart] using smart⟩

/-- What is read of a table's row is written as a row that the table admits, and that reads the same. -/
theorem table_faithful (back : ReadBack) (t : Entry) : (layout t).table.Faithful := by
  intro row record admitted reads
  have columns : ∀ c ∈ (layout t).fields.map (Field.column (layout t).lenient), c.Faithful := by
    intro c inside
    obtain ⟨f,-,rfl⟩ := List.mem_map.mp inside
    exact Field.column_faithful back _ f
  simp only [Layout.table,Bool.and_eq_true,Bool.not_eq_true'] at admitted
  obtain ⟨held,quiet⟩ := admitted
  obtain ⟨held',same⟩ := Dumps.read_write columns held reads
  refine ⟨?_,same⟩
  simp only [Layout.table,Bool.and_eq_true,Bool.not_eq_true']
  refine ⟨held',?_⟩
  cases t with
  | collections =>
    obtain ⟨holds,read,written⟩ := cell_read "filter_query" held reads rfl
    have filter := written.trans (text_null rfl rfl holds read)
    have smart := (smart_written held reads).1
    change value _ "is_smart" (Dumps.write_row _ record) = _ at smart
    rw [Layout.aborts] at quiet ⊢
    rw [smart,filter]
    exact quiet
  | _ => rfl
end

end Pergamon.Backup
