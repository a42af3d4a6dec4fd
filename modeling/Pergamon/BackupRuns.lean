import Pergamon.Backup

/-!
When the backup of a library restores. A restore succeeds iff every table takes the rows written
for its records, no membership belongs to a smart collection, and no tag to a missing item
(`inner_ok`). So a database whose edges have their ends round-trips iff it is restorable
(`round_trips_iff`), and the edges have their ends after any run (`run_sound`). A bulk command
puts items into smart collections, and a backup made then does not restore
(`smart_members_refused`). A restore that fails leaves the database as it was (`restore_atomic`).
-/
namespace Pergamon.Backup
open Fallible Dumps

section
variable {db db' : Database} {α : Type}

theorem run_ok {statement : Database → Except Failure Database} {u : Unit} : run statement db = .ok u db' ↔ statement db = .ok db' := by
  unfold run
  cases statement db <;> simp

/-- Statements in a loop are one run. -/
theorem forM_run_ok (statement : α → Database → Except Failure Database) {l : List α} :
    l.forM (fun a => run (statement a)) db = .ok () db' ↔ l.foldlM (fun db a => statement a db) db = .ok db' := by
  induction l generalizing db with
  | nil =>
    rw [foldlM_nil_ok]
    exact ⟨fun made => by cases made; rfl,fun same => by rw [same]; rfl⟩
  | cons a l ih =>
    change (run (statement a) >>= fun _ => l.forM (fun a => run (statement a))) db = .ok () db' ↔ _
    rw [work_bind_ok,foldlM_cons_ok]
    simp only [run_ok,ih]
    exact ⟨fun ⟨_,mid,first,later⟩ => ⟨mid,first,later⟩,fun ⟨mid,first,later⟩ => ⟨(),mid,first,later⟩⟩

@[simp] theorem set_rows_set_rows {t : Entry} {rows rows' : List (List SqlValue)} :
    (db.set_rows t rows).set_rows t rows' = db.set_rows t rows' := by
  simp [Database.set_rows]

@[simp] theorem set_rows_same {t : Entry} : db.set_rows t (db.rows t) = db := by
  simp [Database.set_rows]

/-- Databases with the same rows, edges and version are one. -/
theorem Database.ext (rows : ∀ t, db.rows t = db'.rows t) (tags : db.content_item_tags = db'.content_item_tags)
    (members : db.content_item_collections = db'.content_item_collections) (version : db.version = db'.version) : db = db' := by
  cases db
  cases db'
  cases funext rows
  cases tags
  cases members
  cases version
  rfl

/-! ### Loops of a restore -/

section
variable [TimeCrate] [Encodings]

/-- The tables in the order of a restore. -/
def entries : List Entry :=
  [.feed_folders,.feeds,.content_items,.tags,.collections,.feed_item_meta,.bookmark_meta,.highlight_meta,.notes,.review_cards,
    .review_logs,.content_rules]

omit [TimeCrate] [Encodings] in
theorem mem_entries (t : Entry) : t ∈ entries := by cases t <;> decide

/-- The records of a table in an archive. -/
def Archive.records (a : Archive) : Entry → List Record
  | .feed_folders => a.feed_folders
  | .feeds => a.feeds
  | .content_items => a.content_items
  | .tags => a.tags
  | .collections => a.collections
  | .feed_item_meta => a.feed_item_meta
  | .bookmark_meta => a.bookmark_meta
  | .highlight_meta => a.highlight_meta
  | .notes => a.notes
  | .review_cards => a.review_cards
  | .review_logs => a.review_logs
  | .content_rules => a.content_rules

/-- The rows that are written for them. -/
def Archive.written (a : Archive) (t : Entry) : List (List SqlValue) := (a.records t).map (layout t).table.write

theorem insert_all_ok {t : Entry} {records : List Record} : records.forM (insert_record t) db = .ok () db' ↔
    ∃ rows, (records.map (layout t).table.write).foldlM ((layout t).table.take (.storage .Sqlite)) (db.rows t) = .ok rows ∧ db' = db.set_rows t rows := by
  refine (forM_run_ok (fun record => Database.insert t ((layout t).table.write record))).trans ?_
  induction records generalizing db with
  | nil => simp [eq_comm (a := db'),pure,Except.pure]
  | cons record records ih =>
    rw [List.map_cons,foldlM_cons_ok]
    simp only [foldlM_cons_ok,Database.insert,map_ok]
    constructor
    · rintro ⟨mid,⟨rows,first,rfl⟩,later⟩
      obtain ⟨rows',rest,rfl⟩ := ih.mp later
      rw [Database.rows_set_rows] at rest
      exact ⟨rows',⟨rows,first,rest⟩,set_rows_set_rows⟩
    · rintro ⟨rows',⟨rows,first,rest⟩,rfl⟩
      refine ⟨_,⟨rows,first,rfl⟩,ih.mpr ⟨rows',?_,set_rows_set_rows.symm⟩⟩
      rwa [Database.rows_set_rows]

/-- The inserts of a restore, table by table. -/
def restore_rows (a : Archive) : Work Unit := entries.forM (fun t => (a.records t).forM (insert_record t))

/-- Each table takes the rows that are written for its records, and nothing else changes. -/
theorem restore_rows_ok {a : Archive} : restore_rows a db = .ok () db' ↔
    (∀ t, (a.written t).foldlM ((layout t).table.take (.storage .Sqlite)) (db.rows t) = .ok (db'.rows t)) ∧
      db'.content_item_tags = db.content_item_tags ∧ db'.content_item_collections = db.content_item_collections ∧
      db'.version = db.version := by
  have some_tables (l : List Entry) (distinct : l.Nodup) (db : Database) :
      l.forM (fun t => (a.records t).forM (insert_record t)) db = .ok () db' ↔
        (∀ t ∈ l, (a.written t).foldlM ((layout t).table.take (.storage .Sqlite)) (db.rows t) = .ok (db'.rows t)) ∧
          (∀ t ∉ l, db'.rows t = db.rows t) ∧ db'.content_item_tags = db.content_item_tags ∧
          db'.content_item_collections = db.content_item_collections ∧ db'.version = db.version := by
    induction l generalizing db with
    | nil =>
      constructor
      · intro made
        cases made
        simp
      · rintro ⟨-,rows,tags,members,version⟩
        rw [Database.ext (fun t => rows t (by simp)) tags members version]
        rfl
    | cons t l ih =>
      obtain ⟨fresh,distinct⟩ := List.nodup_cons.mp distinct
      change ((a.records t).forM (insert_record t) >>= fun _ => l.forM (fun t => (a.records t).forM (insert_record t))) db = .ok () db' ↔ _
      rw [work_bind_ok]
      constructor
      · rintro ⟨⟨⟩,mid,first,later⟩
        obtain ⟨rows,taken,rfl⟩ := insert_all_ok.mp first
        obtain ⟨rest,others,tags,members,version⟩ := (ih distinct _).mp later
        have here : db'.rows t = rows := (others t fresh).trans (Database.rows_set_rows ..)
        refine ⟨List.forall_mem_cons.mpr ⟨here ▸ taken,fun t' inside => ?_⟩,fun t' outside => ?_,tags,members,version⟩
        · have other : t' ≠ t := fun same => fresh (same ▸ inside)
          have later := rest t' inside
          rwa [Database.rows_set_rows_ne db other] at later
        · rw [List.mem_cons,not_or] at outside
          rw [others t' outside.2,Database.rows_set_rows_ne db outside.1]
      · rintro ⟨every,others,tags,members,version⟩
        obtain ⟨first,rest⟩ := List.forall_mem_cons.mp every
        refine ⟨(),db.set_rows t (db'.rows t),insert_all_ok.mpr ⟨_,first,rfl⟩,
          (ih distinct _).mpr ⟨fun t' inside => ?_,fun t' outside => ?_,tags,members,version⟩⟩
        · have other : t' ≠ t := fun same => fresh (same ▸ inside)
          rw [Database.rows_set_rows_ne db other]
          exact rest t' inside
        · by_cases here : t' = t
          · rw [here,Database.rows_set_rows]
          · rw [Database.rows_set_rows_ne db here]
            exact others t' (by simp [here,outside])
  refine (some_tables entries (by decide) db).trans ?_
  simp only [mem_entries,not_true_eq_false,false_implies,implies_true,forall_const,true_and]

omit [TimeCrate] [Encodings] in
/-- Every edge of a tag is kept but those that are there. -/
theorem tag_edges_ok {edges : List (String × String)} :
    edges.forM (fun edge => run (Database.insert_tag_edge false edge.1 edge.2)) db = .ok () db' ↔
      db' = { db with content_item_tags := edges.foldl (keep_new id) db.content_item_tags } := by
  refine (forM_run_ok (fun (edge : String × String) => Database.insert_tag_edge false edge.1 edge.2)).trans ?_
  induction edges generalizing db with
  | nil => rw [foldlM_nil_ok,List.foldl_nil,eq_comm]
  | cons edge edges ih =>
    have first : Database.insert_tag_edge false edge.1 edge.2 db =
        .ok { db with content_item_tags := keep_new id db.content_item_tags edge } := by
      simp only [Database.insert_tag_edge,keep_new,List.map_id,id]
      split <;> simp
    rw [foldlM_cons_ok]
    simp only [first,Except.ok.injEq,exists_eq_left']
    exact ih

/-- A collection that takes members: it is there, it reads, and it is not smart. -/
def Manual (db : Database) (id : String) : Prop := ∃ coll, db.get_collection id = .ok coll ∧ is_smart coll = false

/-- A membership as it is stored. -/
def stored_member (member : String × String × ℤ) : String × String × SqlValue := (member.1,member.2.1,.Integer member.2.2)

theorem add_to_collection_ok {member : String × String × ℤ} : add_to_collection false member.1 member.2.1 member.2.2 db = .ok () db' ↔
    Manual db member.2.1 ∧
      db' = { db with content_item_collections := keep_new Database.ends db.content_item_collections (stored_member member) } := by
  have kept : db.insert_member false member.1 member.2.1 (.Integer member.2.2) =
      .ok { db with content_item_collections := keep_new Database.ends db.content_item_collections (stored_member member) } := by
    by_cases taken : (member.1,member.2.1) ∈ db.content_item_collections.map Database.ends
    · have taken' : Database.ends (stored_member member) ∈ db.content_item_collections.map Database.ends := taken
      rw [Database.insert_member,if_pos taken,keep_new,if_pos taken']
    · have fresh : Database.ends (stored_member member) ∉ db.content_item_collections.map Database.ends := taken
      rw [Database.insert_member,if_neg taken,keep_new,if_neg fresh]
      rfl
  rw [add_to_collection,run_ok,bind_ok]
  constructor
  · rintro ⟨coll,found,added⟩
    split at added
    · cases added
    · next manual =>
      rw [kept] at added
      exact ⟨⟨coll,found,by simpa using manual⟩,(Except.ok.inj added).symm⟩
  · rintro ⟨⟨coll,found,manual⟩,rfl⟩
    exact ⟨coll,found,by rw [manual]; exact kept⟩

theorem members_ok {members : List (String × String × ℤ)} :
    members.forM (fun member => add_to_collection false member.1 member.2.1 member.2.2) db = .ok () db' ↔
      (∀ member ∈ members, Manual db member.2.1) ∧
        db' = { db with content_item_collections := (members.map stored_member).foldl (keep_new Database.ends) db.content_item_collections } := by
  induction members generalizing db with
  | nil => exact ⟨fun made => by cases made; exact ⟨nofun,rfl⟩,fun ⟨_,same⟩ => by rw [same]; rfl⟩
  | cons member members ih =>
    change (add_to_collection false member.1 member.2.1 member.2.2 >>= fun _ =>
      members.forM (fun member => add_to_collection false member.1 member.2.1 member.2.2)) db = .ok () db' ↔ _
    rw [work_bind_ok,List.forall_mem_cons]
    constructor
    · rintro ⟨⟨⟩,mid,first,later⟩
      obtain ⟨manual,rfl⟩ := add_to_collection_ok.mp first
      obtain ⟨rest,made⟩ := ih.mp later
      exact ⟨⟨manual,rest⟩,made⟩
    · rintro ⟨⟨manual,rest⟩,made⟩
      exact ⟨(),_,add_to_collection_ok.mpr ⟨manual,rfl⟩,ih.mpr ⟨rest,made⟩⟩

omit [TimeCrate] [Encodings] in
theorem refresh_ok {edges : List (String × String)} : edges.forM (fun edge => refresh_fts_tags edge.1) db = .ok () db' ↔
    (∀ edge ∈ edges, (db.row .content_items edge.1).isSome) ∧ db' = db := by
  refine (forM_run_ok (fun (edge : String × String) db =>
    if (db.row .content_items edge.1).isSome then .ok db else .error (.storage .Sqlite))).trans ?_
  induction edges with
  | nil => rw [foldlM_nil_ok,eq_comm]; simp
  | cons edge edges ih =>
    rw [foldlM_cons_ok,List.forall_mem_cons]
    simp only [if_ok,Except.ok.injEq,and_assoc,exists_and_left,exists_eq_left',ih]

/-- The rows and the edges that a restore leaves. -/
def restored (a : Archive) (rows : Entry → List (List SqlValue)) (db : Database) : Database where
  rows := rows
  content_item_tags := a.content_item_tags.foldl (keep_new id) db.content_item_tags
  content_item_collections := (a.collection_items.map stored_member).foldl (keep_new Database.ends) db.content_item_collections
  version := db.version

/-- A restore succeeds iff every table takes the rows written for its records, no membership
    belongs to a smart collection and no tag to a missing item. -/
theorem inner_ok {a : Archive} : restore_backup_inner a db = .ok () db' ↔
    ∃ rows, (∀ t, (a.written t).foldlM ((layout t).table.take (.storage .Sqlite)) (db.rows t) = .ok (rows t)) ∧
      (∀ member ∈ a.collection_items, Manual { db with rows := rows } member.2.1) ∧
      (∀ edge ∈ a.content_item_tags, (Database.row { db with rows := rows } .content_items edge.1).isSome) ∧ db' = restored a rows db := by
  have loops : restore_backup_inner a = transaction (do
      restore_rows a
      a.content_item_tags.forM (fun edge => run (Database.insert_tag_edge false edge.1 edge.2))
      a.collection_items.forM (fun member => add_to_collection false member.1 member.2.1 member.2.2)
      a.content_item_tags.forM (fun edge => refresh_fts_tags edge.1)) := by
    simp only [restore_rows,entries,List.forM,bind_assoc,pure_bind]
    rfl
  rw [loops,transaction_ok,work_bind_ok]
  simp only [work_bind_ok]
  constructor
  · rintro ⟨⟨⟩,loaded,first,⟨⟩,tagged,second,⟨⟩,placed,third,fourth⟩
    obtain ⟨taken,tags,members,version⟩ := restore_rows_ok.mp first
    obtain rfl := tag_edges_ok.mp second
    obtain ⟨manual,rfl⟩ := members_ok.mp third
    obtain ⟨there,rfl⟩ := refresh_ok.mp fourth
    refine ⟨loaded.rows,taken,manual,there,?_⟩
    rw [restored,← tags,← members,← version]
  · rintro ⟨rows,taken,manual,there,rfl⟩
    exact ⟨(),{ db with rows := rows },restore_rows_ok.mpr ⟨taken,rfl,rfl,rfl⟩,(),_,tag_edges_ok.mpr rfl,(),_,
      members_ok.mpr ⟨manual,rfl⟩,refresh_ok.mpr ⟨there,rfl⟩⟩

theorem restore_backup_ok {a : Archive} : restore_backup a db = .ok () db' ↔ db.is_empty ∧ restore_backup_inner a db = .ok () db' := by
  unfold restore_backup
  by_cases vacant : db.is_empty
  · change (if ¬db.is_empty then _ else restore_backup_inner a : Work Unit) db = _ ↔ _
    rw [if_neg (not_not_intro vacant)]
    exact (and_iff_right vacant).symm
  · change (if ¬db.is_empty then (throw _ >>= fun _ => restore_backup_inner a) else _ : Work Unit) db = _ ↔ _
    rw [if_pos vacant]
    exact iff_of_false nofun (fun both => vacant both.1)

theorem restore_ok {a : Archive} {stats : BackupStats} : restore a db = .ok stats db' ↔
    a.manifest.app = MANIFEST_APP ∧ a.manifest.schema_version ≤ db.version ∧ stats = a.stats ∧ restore_backup a db = .ok () db' := by
  unfold restore
  by_cases app : a.manifest.app = MANIFEST_APP
  · rw [if_neg (not_not_intro app)]
    by_cases newer : a.manifest.schema_version > db.version
    · change (if a.manifest.schema_version > db.version then (throw _ >>= fun _ => restore_backup a >>= fun _ => pure a.stats) else _ : Work BackupStats) db = _ ↔ _
      rw [if_pos newer]
      exact iff_of_false nofun (fun all => absurd all.2.1 (Int.not_le.mpr newer))
    · change (if a.manifest.schema_version > db.version then _ else restore_backup a >>= fun _ => pure a.stats : Work BackupStats) db = _ ↔ _
      rw [if_neg newer,work_bind_ok]
      constructor
      · rintro ⟨⟨⟩,t,made,same⟩
        cases same
        exact ⟨app,Int.not_lt.mp newer,rfl,made⟩
      · rintro ⟨-,-,rfl,made⟩
        exact ⟨(),db',made,rfl⟩
  · rw [if_pos app]
    exact iff_of_false nofun (fun all => app all.1)

/-- A restore that fails leaves the database as it was. -/
theorem restore_atomic (a : Archive) : Atomic (restore a) := by
  have inner : Atomic (restore_backup a) := by
    unfold restore_backup
    refine Atomic.bind (Relates.get fun _ => rfl) (fun db => ?_)
    split
    · exact Atomic.throw_bind _
    · exact Atomic.transaction _
  have reported : Atomic (restore_backup a >>= fun _ => pure a.stats) := by
    intro db e left failed
    rw [work_bind] at failed
    cases ran : restore_backup a db with
    | ok u made =>
      rw [ran] at failed
      cases failed
    | error e' rest =>
      rw [ran] at failed
      cases failed
      exact inner db e _ ran
  unfold restore
  split
  · exact Atomic.throw_bind _
  · refine Atomic.bind (Relates.get fun _ => rfl) (fun db => ?_)
    split
    · exact Atomic.throw_bind _
    · exact reported

/-! ### Round trips -/

/-- An export that is restored into an empty database of the same schema, and exported again, is
    the same. -/
def RoundTrips (db : Database) : Prop :=
  ∃ a stats copy, backup_export db = .ok (a,stats) ∧ restore a (Database.empty db.version) = .ok stats copy ∧
    backup_export copy = .ok (a,stats)

/-- What the schema and the deletes of edges with their ends keep true. -/
structure Sound (db : Database) : Prop where
  admitted : ∀ t, ∀ row ∈ db.rows t, (layout t).table.admits row
  tagged : ∀ edge ∈ db.content_item_tags, ∃ row ∈ db.rows .content_items, row_id row = .Text edge.1
  placed : ∀ member ∈ db.content_item_collections, ∃ row ∈ db.rows .collections, row_id row = .Text member.2.1

/-- The row that a restore writes for a row that reads. -/
def rewritten (t : Entry) (row : List SqlValue) : List SqlValue :=
  match (layout t).table.read row with
  | .ok record => (layout t).table.write record
  | .error _ => row

/-- The spelling that an id is written back in. -/
def respelled (s : String) : String := (Encodings.parse_uuid s).getD s

/-- A database whose backup restores: everything stored reads, no two rows or edges are told apart
    by the spelling of an id only, and no membership belongs to a smart collection. -/
structure Restorable (db : Database) : Prop where
  reads : ∀ t, ∀ row ∈ db.rows t, ∀ p ∈ (layout t).fields.zip row, p.1.legible (layout t).lenient p.2
  tags_read : ∀ edge ∈ db.content_item_tags, (Encodings.parse_uuid edge.1).isSome ∧ (Encodings.parse_uuid edge.2).isSome
  members_read : ∀ member ∈ db.content_item_collections,
    (Encodings.parse_uuid member.1).isSome ∧ (Encodings.parse_uuid member.2.1).isSome ∧ ((Kind.integer 32).get member.2.2).isSome
  apart : ∀ t, (layout t).table.Apart ((db.rows t).map (rewritten t))
  tags_apart : (db.content_item_tags.map (fun edge => (respelled edge.1,respelled edge.2))).Nodup
  members_apart : (db.content_item_collections.map (fun member => (respelled member.1,respelled member.2.1))).Nodup
  manual : ∀ member ∈ db.content_item_collections, ∀ row ∈ db.rows .collections, row_id row = .Text member.2.1 →
    value (layout .collections).fields "is_smart" row ≠ .Integer 1

theorem row_reads {t : Entry} {row : List SqlValue} (admitted : (layout t).table.admits row) :
    (∃ record, (layout t).table.read row = .ok record) ↔ ∀ p ∈ (layout t).fields.zip row, p.1.legible (layout t).lenient p.2 := by
  simp only [Layout.table,Bool.and_eq_true] at admitted
  have held := admitted.1
  refine (reads_row held).trans ?_
  generalize (layout t).fields = fields at held
  generalize (layout t).lenient = lenient at held
  clear admitted
  induction fields generalizing row with
  | nil => simp
  | cons f fields ih =>
    cases row with
    | nil => cases held
    | cons v row =>
      rw [List.map_cons] at held
      simp only [holds_row,Bool.and_eq_true] at held
      rw [List.map_cons,List.zip_cons_cons,List.zip_cons_cons,List.forall_mem_cons,List.forall_mem_cons,ih held.2]
      exact and_congr_left' (Field.read_legible held.1)

omit [TimeCrate] in
theorem parse_uuid_ok {s id : String} : Database.parse_uuid s = .ok id ↔ Encodings.parse_uuid s = some id := by
  unfold Database.parse_uuid
  cases Encodings.parse_uuid s <;> simp

omit [TimeCrate] in
theorem read_tag_edge_ok {edge edge' : String × String} : Database.read_tag_edge edge = .ok edge' ↔
    Encodings.parse_uuid edge.1 = some edge'.1 ∧ Encodings.parse_uuid edge.2 = some edge'.2 := by
  unfold Database.read_tag_edge
  simp only [bind_ok,parse_uuid_ok,Except.ok.injEq]
  constructor
  · rintro ⟨item_id,first,tag_id,second,rfl⟩
    exact ⟨first,second⟩
  · rintro ⟨first,second⟩
    exact ⟨_,first,_,second,rfl⟩

omit [TimeCrate] [Encodings] in
theorem get_integer {v raw : SqlValue} (typed : (Kind.integer 32).get v = some raw) : ∃ i, raw = .Integer i ∧ v = .Integer i := by
  cases v with
  | Integer i => exact ⟨i,Kind.get_same typed,rfl⟩
  | _ => cases typed

omit [TimeCrate] in
theorem read_member_ok {member : String × String × SqlValue} {member' : String × String × ℤ} : Database.read_member member = .ok member' ↔
    Encodings.parse_uuid member.1 = some member'.1 ∧ Encodings.parse_uuid member.2.1 = some member'.2.1 ∧
      (Kind.integer 32).get member.2.2 = some (.Integer member'.2.2) := by
  unfold Database.read_member
  simp only [bind_ok,parse_uuid_ok]
  constructor
  · rintro ⟨item_id,first,coll_id,second,third⟩
    split at third
    · next sort typed =>
      cases third
      exact ⟨first,second,typed⟩
    · cases third
  · rintro ⟨first,second,typed⟩
    exact ⟨_,first,_,second,by rw [typed]⟩

/-- What an export holds. -/
theorem export_ok {a : Archive} {stats : BackupStats} : backup_export db = .ok (a,stats) ↔
    (∀ t, db.list t = .ok (a.records t)) ∧ db.content_item_tags.mapM Database.read_tag_edge = .ok a.content_item_tags ∧
      db.content_item_collections.mapM Database.read_member = .ok a.collection_items ∧ a.manifest = ⟨MANIFEST_APP,db.version⟩ ∧
      stats = a.stats := by
  unfold backup_export
  simp only [bind_ok]
  constructor
  · rintro ⟨feed_folders,h1,feeds,h2,content_items,h3,tags,h4,collections,h5,feed_item_meta,h6,bookmark_meta,h7,highlight_meta,h8,
      notes,h9,review_cards,h10,review_logs,h11,rules,h12,edges,h13,members,h14,version,h15,made⟩
    cases h15
    cases made
    refine ⟨fun t => ?_,h13,h14,rfl,rfl⟩
    cases t <;> assumption
  · rintro ⟨lists,edges,members,manifest,rfl⟩
    refine ⟨_,lists .feed_folders,_,lists .feeds,_,lists .content_items,_,lists .tags,_,lists .collections,_,lists .feed_item_meta,
      _,lists .bookmark_meta,_,lists .highlight_meta,_,lists .notes,_,lists .review_cards,_,lists .review_logs,_,lists .content_rules,
      _,edges,_,members,_,rfl,?_⟩
    obtain ⟨m,ff,f,ci,tg,cl,fim,bm,hm,nt,rc,rl,cr,cit,cic⟩ := a
    obtain rfl := manifest
    rfl

/-- The rows that are written for an export are the rows rewritten. -/
theorem written_rewritten {a : Archive} (lists : ∀ t, db.list t = .ok (a.records t)) (t : Entry) :
    a.written t = (db.rows t).map (rewritten t) :=
  mapM_map (lists t) (fun row _ record reads => by simp [rewritten,reads])

/-- The id of a row reads as the id of the row that is written for it. -/
theorem id_written {t : Entry} {row : List SqlValue} {record : Record} (admitted : (layout t).table.admits row)
    (reads : (layout t).table.read row = .ok record) :
    ∃ s id, row_id row = .Text s ∧ Encodings.parse_uuid s = some id ∧ row_id ((layout t).table.write record) = .Text id := by
  have shape : ∃ f rest, (layout t).fields = f :: rest ∧ f.kind = .uuid ∧ f.optional = false := by
    cases t <;> exact ⟨_,_,rfl,rfl,rfl⟩
  obtain ⟨f,rest,fields,kind,there⟩ := shape
  simp only [Layout.table,fields,List.map_cons,Bool.and_eq_true] at admitted reads ⊢
  cases row with
  | nil => cases admitted.1
  | cons v row =>
    obtain ⟨c,others,first,-,rfl⟩ := read_row_cons.mp reads
    have held := admitted.1
    simp only [holds_row,Bool.and_eq_true] at held
    have holds : f.holds v := held.1
    change f.read _ v = .ok c at first
    cases v with
    | Text s =>
      simp only [Field.read,there,kind,Kind.get,Kind.parse,Bool.false_eq_true,false_and,if_false] at first
      cases parsed : Encodings.parse_uuid s with
      | none =>
        rw [parsed] at first
        cases first
      | some id =>
        rw [parsed] at first
        cases first
        exact ⟨s,id,rfl,parsed,rfl⟩
    | _ => simp [Field.holds,kind,there,Kind.holds] at holds

omit [TimeCrate] [Encodings] in
theorem row_id_cons {row : List SqlValue} {s : String} (keyed : row_id row = .Text s) : ∃ rest, row = .Text s :: rest := by
  cases row with
  | nil => cases keyed
  | cons v rest => exact ⟨rest,congrArg (· :: rest) keyed⟩

/-- Two rows with one id clash. -/
theorem clash_of_id {t : Entry} {row other : List SqlValue} {s : String} (keyed : row_id row = .Text s) (keyed' : row_id other = .Text s) :
    (layout t).table.clash row other := by
  have shape : ∃ f rest keys, (layout t).fields = f :: rest ∧ (layout t).unique = key f.name :: keys := by
    cases t <;> exact ⟨_,_,_,rfl,rfl⟩
  obtain ⟨f,rest,keys,fields,unique⟩ := shape
  obtain ⟨values,rfl⟩ := row_id_cons keyed
  obtain ⟨values',rfl⟩ := row_id_cons keyed'
  simp [Layout.table,fields,unique,Key.same,key,value,same_key]

/-- A row of a table without clashes is found by its id. -/
theorem row_found {t : Entry} {row : List SqlValue} {id : String} (apart : (layout t).table.Apart (db.rows t))
    (inside : row ∈ db.rows t) (keyed : row_id row = .Text id) : db.row t id = some row := by
  have some_row : (db.row t id).isSome := List.find?_isSome.mpr ⟨row,inside,by simpa using keyed⟩
  obtain ⟨found,same⟩ := Option.isSome_iff_exists.mp some_row
  have keyed' : row_id found = .Text id := by simpa using List.find?_some same
  rw [same,apart.unique (List.mem_of_find?_eq_some same) inside (clash_of_id keyed' keyed) (clash_of_id keyed keyed')]

section
variable {a : Archive} (back : ReadBack) (sound : Sound db) (lists : ∀ t, db.list t = .ok (a.records t))
include back sound lists

/-- The tables that are loaded from an export list its records. -/
theorem loaded_lists (t : Entry) : (∀ row ∈ a.written t, (layout t).table.admits row) ∧ (layout t).table.dump (a.written t) = .ok (a.records t) :=
  Table.dump_written (table_faithful back t) (sound.admitted t) (lists t)

/-- A collection with members, where its id is not spelled in two ways, takes members after a
    restore iff it is not smart. -/
theorem manual_loaded {row : List SqlValue} {s id : String} {version : ℤ} (apart : (layout .collections).table.Apart (a.written .collections))
    (inside : row ∈ db.rows .collections) (keyed : row_id row = .Text s) (parsed : Encodings.parse_uuid s = some id) :
    Manual { Database.empty version with rows := a.written } id ↔ value (layout .collections).fields "is_smart" row ≠ .Integer 1 := by
  have admitted := sound.admitted .collections row inside
  obtain ⟨record,there,reads⟩ := (mapM_mem (lists .collections)).2 row inside
  obtain ⟨s',id',keyed',parsed',written⟩ := id_written admitted reads
  rw [keyed] at keyed'
  cases keyed'
  rw [parsed] at parsed'
  cases parsed'
  have found : Database.row { Database.empty version with rows := a.written } .collections id = some ((layout .collections).table.write record) :=
    row_found apart (List.mem_map_of_mem there) written
  have same := (table_faithful back .collections row record admitted reads).2
  have got : Database.get_collection { Database.empty version with rows := a.written } id = .ok record := by
    rw [Database.get_collection,found]
    exact same
  simp only [Layout.table,Bool.and_eq_true] at admitted
  have smart := (smart_written admitted.1 reads).2
  rw [Manual,got]
  simp only [Except.ok.injEq,exists_eq_left',ne_eq,← smart,Bool.not_eq_true]

omit back in
/-- The item of every tag edge is loaded. -/
theorem item_loaded {edge : String × String} {id : String} {version : ℤ}
    (inside : edge ∈ db.content_item_tags) (parsed : Encodings.parse_uuid edge.1 = some id) :
    (Database.row { Database.empty version with rows := a.written } .content_items id).isSome := by
  obtain ⟨row,held,keyed⟩ := sound.tagged edge inside
  obtain ⟨record,there,reads⟩ := (mapM_mem (lists .content_items)).2 row held
  obtain ⟨s',id',keyed',parsed',written⟩ := id_written (sound.admitted _ row held) reads
  rw [keyed] at keyed'
  cases keyed'
  rw [parsed] at parsed'
  cases parsed'
  exact List.find?_isSome.mpr ⟨_,List.mem_map_of_mem there,by simpa using written⟩

end

omit [TimeCrate] in
/-- The edges of an export are the stored ones respelled. -/
theorem tags_exported {edges edges' : List (String × String)} (read : edges.mapM Database.read_tag_edge = .ok edges') :
    edges' = edges.map (fun edge => (respelled edge.1,respelled edge.2)) := by
  have same := mapM_map (g := id) (h := fun edge => (respelled edge.1,respelled edge.2)) read (fun edge _ edge' one => by
    obtain ⟨first,second⟩ := read_tag_edge_ok.mp one
    simp [respelled,first,second])
  rwa [List.map_id] at same

omit [TimeCrate] in
theorem members_exported {members : List (String × String × SqlValue)} {members' : List (String × String × ℤ)}
    (read : members.mapM Database.read_member = .ok members') :
    (members'.map stored_member).map Database.ends = members.map (fun member => (respelled member.1,respelled member.2.1)) := by
  rw [List.map_map]
  refine mapM_map read (fun member _ member' one => ?_)
  obtain ⟨first,second,-⟩ := read_member_ok.mp one
  simp [stored_member,Database.ends,respelled,first,second]

/-- Restored edges of tags read as the edges of the export iff no two of them are spellings of one. -/
theorem tags_kept (back : ReadBack) {edges edges' : List (String × String)} (read : edges.mapM Database.read_tag_edge = .ok edges') :
    (edges'.foldl (keep_new id) []).mapM Database.read_tag_edge = .ok edges' ↔
      (edges.map (fun edge => (respelled edge.1,respelled edge.2))).Nodup := by
  rw [← tags_exported read]
  constructor
  · intro again
    have all := keep_all_length.mp (mapM_length again).symm
    rwa [List.map_id] at all
  · intro distinct
    have all : edges'.foldl (keep_new id) [] = edges' := keep_all_nil.mpr (by simpa using distinct)
    rw [all]
    have same := mapM_back (g := id) (f := Database.read_tag_edge) (l := edges') (fun edge inside => by
      obtain ⟨stored,-,one⟩ := (mapM_mem read).1 edge inside
      obtain ⟨first,second⟩ := read_tag_edge_ok.mp one
      exact read_tag_edge_ok.mpr ⟨back.uuid _ _ first,back.uuid _ _ second⟩)
    rwa [List.map_id] at same

theorem members_kept (back : ReadBack) {members : List (String × String × SqlValue)} {members' : List (String × String × ℤ)}
    (read : members.mapM Database.read_member = .ok members') :
    ((members'.map stored_member).foldl (keep_new Database.ends) []).mapM Database.read_member = .ok members' ↔
      (members.map (fun member => (respelled member.1,respelled member.2.1))).Nodup := by
  rw [← members_exported read]
  constructor
  · intro again
    have length := (mapM_length again).symm
    rw [← @List.length_map _ _ members' stored_member] at length
    exact keep_all_length.mp length
  · intro distinct
    have all : (members'.map stored_member).foldl (keep_new Database.ends) [] = members'.map stored_member :=
      keep_all_nil.mpr distinct
    rw [all]
    refine mapM_back (fun member inside => ?_)
    obtain ⟨stored,-,one⟩ := (mapM_mem read).1 member inside
    obtain ⟨first,second,typed⟩ := read_member_ok.mp one
    have same := Kind.get_same typed
    exact read_member_ok.mpr ⟨back.uuid _ _ first,back.uuid _ _ second,by rw [stored_member,same]; exact same ▸ typed⟩

/-- A backup that can be made round-trips iff the rows written for it do not clash, its edges stay
    apart and no membership belongs to a smart collection. -/
theorem round_trips_of_export (back : ReadBack) (sound : Sound db) {a : Archive} (exported : backup_export db = .ok (a,a.stats)) :
    RoundTrips db ↔ (∀ t, (layout t).table.Apart ((db.rows t).map (rewritten t))) ∧
      (∀ member ∈ a.collection_items, Manual { Database.empty db.version with rows := a.written } member.2.1) ∧
      (db.content_item_tags.map (fun edge => (respelled edge.1,respelled edge.2))).Nodup ∧
      (db.content_item_collections.map (fun member => (respelled member.1,respelled member.2.1))).Nodup := by
  obtain ⟨lists,edges,members,manifest,-⟩ := export_ok.mp exported
  have loads (t : Entry) := loaded_lists back sound lists t
  have taken (t : Entry) (rows : List (List SqlValue)) :
      (a.written t).foldlM ((layout t).table.take (.storage .Sqlite)) [] = .ok rows ↔
        (layout t).table.Apart ((db.rows t).map (rewritten t)) ∧ rows = a.written t := by
    rw [Table.take_ok .nil,List.nil_append,← written_rewritten lists t]
    exact and_iff_right (loads t).1
  constructor
  · rintro ⟨a',stats,copy,first,second,third⟩
    rw [exported] at first
    cases first
    obtain ⟨-,-,-,made⟩ := restore_ok.mp second
    obtain ⟨rows,each,manual,-,rfl⟩ := inner_ok.mp (restore_backup_ok.mp made).2
    obtain rfl : rows = a.written := funext (fun t => ((taken t _).mp (each t)).2)
    obtain ⟨-,edges',members',-⟩ := export_ok.mp third
    exact ⟨fun t => ((taken t _).mp (each t)).1,manual,(tags_kept back edges).mp edges',(members_kept back members).mp members'⟩
  · rintro ⟨apart,manual,tags_apart,members_apart⟩
    have there : ∀ edge ∈ a.content_item_tags,
        (Database.row { Database.empty db.version with rows := a.written } .content_items edge.1).isSome := by
      intro edge inside
      obtain ⟨stored,held,one⟩ := (mapM_mem edges).1 edge inside
      exact item_loaded sound lists held (read_tag_edge_ok.mp one).1
    have inner : restore_backup_inner a (Database.empty db.version) = .ok () (restored a a.written (Database.empty db.version)) :=
      inner_ok.mpr ⟨a.written,fun t => (taken t _).mpr ⟨apart t,rfl⟩,manual,there,rfl⟩
    refine ⟨a,a.stats,_,exported,restore_ok.mpr ⟨by rw [manifest],by rw [manifest]; exact le_refl _,rfl,
      restore_backup_ok.mpr ⟨rfl,inner⟩⟩,export_ok.mpr ⟨fun t => (loads t).2,(tags_kept back edges).mpr tags_apart,
      (members_kept back members).mpr members_apart,manifest,rfl⟩⟩

/-- A sound database whose rows and edges read can be exported. -/
theorem export_total (sound : Sound db) (reads : ∀ t, ∀ row ∈ db.rows t, ∀ p ∈ (layout t).fields.zip row, p.1.legible (layout t).lenient p.2)
    (tags_read : ∀ edge ∈ db.content_item_tags, (Encodings.parse_uuid edge.1).isSome ∧ (Encodings.parse_uuid edge.2).isSome)
    (members_read : ∀ member ∈ db.content_item_collections,
      (Encodings.parse_uuid member.1).isSome ∧ (Encodings.parse_uuid member.2.1).isSome ∧ ((Kind.integer 32).get member.2.2).isSome) :
    ∃ a, backup_export db = .ok (a,a.stats) := by
  have listed (t : Entry) : ∃ records, db.list t = .ok records :=
    Table.dumps.mpr (fun row inside => (row_reads (sound.admitted t row inside)).mpr (reads t row inside))
  choose records lists using listed
  obtain ⟨edges,read_edges⟩ := mapM_total (f := Database.read_tag_edge) (l := db.content_item_tags) (fun edge inside => by
    obtain ⟨item,first⟩ := Option.isSome_iff_exists.mp (tags_read edge inside).1
    obtain ⟨tag,second⟩ := Option.isSome_iff_exists.mp (tags_read edge inside).2
    exact ⟨(item,tag),read_tag_edge_ok.mpr ⟨first,second⟩⟩)
  obtain ⟨members,read_members⟩ := mapM_total (f := Database.read_member) (l := db.content_item_collections) (fun member inside => by
    obtain ⟨some_item,some_coll,some_sort⟩ := members_read member inside
    obtain ⟨item,first⟩ := Option.isSome_iff_exists.mp some_item
    obtain ⟨coll,second⟩ := Option.isSome_iff_exists.mp some_coll
    obtain ⟨raw,typed⟩ := Option.isSome_iff_exists.mp some_sort
    obtain ⟨i,rfl,-⟩ := get_integer typed
    exact ⟨(item,coll,i),read_member_ok.mpr ⟨first,second,typed⟩⟩)
  let a : Archive :=
    ⟨⟨MANIFEST_APP,db.version⟩,records .feed_folders,records .feeds,records .content_items,records .tags,records .collections,
      records .feed_item_meta,records .bookmark_meta,records .highlight_meta,records .notes,records .review_cards,records .review_logs,
      records .content_rules,edges,members⟩
  refine ⟨a,export_ok.mpr ⟨fun t => ?_,read_edges,read_members,rfl,rfl⟩⟩
  cases t <;> exact lists _

/-- A sound database round-trips iff it is restorable. -/
theorem round_trips_iff (back : ReadBack) (sound : Sound db) : RoundTrips db ↔ Restorable db := by
  have manual_iff {a : Archive} (exported : backup_export db = .ok (a,a.stats))
      (apart : ∀ t, (layout t).table.Apart ((db.rows t).map (rewritten t))) :
      (∀ member ∈ a.collection_items, Manual { Database.empty db.version with rows := a.written } member.2.1) ↔
        ∀ member ∈ db.content_item_collections, ∀ row ∈ db.rows .collections, row_id row = .Text member.2.1 →
          value (layout .collections).fields "is_smart" row ≠ .Integer 1 := by
    obtain ⟨lists,-,members,-⟩ := export_ok.mp exported
    have free : (layout .collections).table.Apart (a.written .collections) := written_rewritten lists .collections ▸ apart .collections
    constructor
    · intro manual member inside row held keyed
      obtain ⟨member',there,one⟩ := (mapM_mem members).2 member inside
      exact (manual_loaded back sound lists free held keyed (read_member_ok.mp one).2.1).mp (manual member' there)
    · intro plain member' there
      obtain ⟨member,inside,one⟩ := (mapM_mem members).1 member' there
      obtain ⟨row,held,keyed⟩ := sound.placed member inside
      exact (manual_loaded back sound lists free held keyed (read_member_ok.mp one).2.1).mpr (plain member inside row held keyed)
  constructor
  · rintro ⟨a,stats,copy,exported,second,third⟩
    obtain rfl := (export_ok.mp exported).2.2.2.2
    obtain ⟨lists,edges,members,-⟩ := export_ok.mp exported
    obtain ⟨apart,manual,tags_apart,members_apart⟩ := (round_trips_of_export back sound exported).mp ⟨a,_,copy,exported,second,third⟩
    refine ⟨fun t row inside => ?_,fun edge inside => ?_,fun member inside => ?_,apart,tags_apart,members_apart,(manual_iff exported apart).mp manual⟩
    · obtain ⟨record,-,reads⟩ := (mapM_mem (lists t)).2 row inside
      exact (row_reads (sound.admitted t row inside)).mp ⟨record,reads⟩
    · obtain ⟨edge',-,one⟩ := (mapM_mem edges).2 edge inside
      obtain ⟨first,second⟩ := read_tag_edge_ok.mp one
      exact ⟨by rw [first]; rfl,by rw [second]; rfl⟩
    · obtain ⟨member',-,one⟩ := (mapM_mem members).2 member inside
      obtain ⟨first,second,typed⟩ := read_member_ok.mp one
      exact ⟨by rw [first]; rfl,by rw [second]; rfl,by rw [typed]; rfl⟩
  · intro restorable
    obtain ⟨a,exported⟩ := export_total sound restorable.reads restorable.tags_read restorable.members_read
    exact (round_trips_of_export back sound exported).mpr ⟨restorable.apart,(manual_iff exported restorable.apart).mpr restorable.manual,
      restorable.tags_apart,restorable.members_apart⟩

end
end

/-! ### Runs -/

namespace Database
variable (t : Entry) (id : String)

/-- `UPDATE … WHERE id = ?` that leaves this row. No statement changes an id. -/
def update [TimeCrate] [Encodings] (row : List SqlValue) (db : Database) : Except Failure Database :=
  if row_id row = .Text id ∧ (layout t).table.admits row ∧
      (db.rows t).all (fun held => row_id held = .Text id || !((layout t).table.clash held row || (layout t).table.clash row held)) then
    .ok (db.set_rows t ((db.rows t).map (fun held => if row_id held = .Text id then row else held)))
  else .error (.storage .Sqlite)

/-- `DELETE … WHERE id = ?`, with the edges of the row. The rows that refer to it go by deletes of
    their own. -/
def delete (db : Database) : Database where
  rows := Function.update db.rows t ((db.rows t).filter (fun row => row_id row ≠ .Text id))
  content_item_tags := db.content_item_tags.filter (fun edge => ¬(t = .content_items ∧ edge.1 = id) ∧ ¬(t = .tags ∧ edge.2 = id))
  content_item_collections :=
    db.content_item_collections.filter (fun member => ¬(t = .content_items ∧ member.1 = id) ∧ ¬(t = .collections ∧ member.2.1 = id))
  version := db.version

def delete_tag_edge (item_id tag_id : String) (db : Database) : Database :=
  { db with content_item_tags := db.content_item_tags.filter (fun edge => edge ≠ (item_id,tag_id)) }

def delete_member (item_id coll_id : String) (db : Database) : Database :=
  { db with content_item_collections := db.content_item_collections.filter (fun member => ends member ≠ (item_id,coll_id)) }

def set_sort_order (item_id coll_id : String) (sort : SqlValue) (db : Database) : Database :=
  { db with content_item_collections :=
      db.content_item_collections.map (fun member => if ends member = (item_id,coll_id) then (item_id,coll_id,sort) else member) }

end Database

/-- What local commands and sync do to the tables of a backup: statements on rows and edges, and
    the operations that restores rest on. References between rows are not checked here; a restore makes
    rows without them. -/
inductive Call where
  | insert (t : Entry) (row : List SqlValue)
  | update (t : Entry) (id : String) (row : List SqlValue)
  | delete (t : Entry) (id : String)
  | tag (item_id tag_id : String)
  | untag (item_id tag_id : String)
  | insert_member (item_id coll_id : String) (sort : SqlValue)
  | delete_member (item_id coll_id : String)
  | set_sort_order (item_id coll_id : String) (sort : SqlValue)
  | add_to_collection (item_id coll_id : String) (sort_order : ℤ)
  | bulk_add_to_collection (item_ids : List String) (coll_id : String)
  | restore (a : Archive)

section
variable [TimeCrate] [Encodings] {db db' : Database}

def Call.work : Call → Work Unit
  | .insert t row => run (Database.insert t row)
  | .update t id row => run (Database.update t id row)
  | .delete t id => run (fun db => .ok (db.delete t id))
  | .tag item_id tag_id => run (Database.insert_tag_edge true item_id tag_id)
  | .untag item_id tag_id => run (fun db => .ok (db.delete_tag_edge item_id tag_id))
  | .insert_member item_id coll_id sort => run (Database.insert_member true item_id coll_id sort)
  | .delete_member item_id coll_id => run (fun db => .ok (db.delete_member item_id coll_id))
  | .set_sort_order item_id coll_id sort => run (fun db => .ok (db.set_sort_order item_id coll_id sort))
  | .add_to_collection item_id coll_id sort_order => Backup.add_to_collection true item_id coll_id sort_order
  | .bulk_add_to_collection item_ids coll_id => Backup.bulk_add_to_collection item_ids coll_id
  | .restore a => Backup.restore a >>= fun _ => pure ()

/-- The database after a call, whether it succeeds or fails. -/
def perform (db : Database) (call : Call) : Database := leaves (call.work db)

/-- A call keeps what each of its successes keeps. -/
theorem perform_keeps {P : Database → Prop} {call : Call} (holds : P db) (atomic : Atomic call.work)
    (step : ∀ db', call.work db = .ok () db' → P db') : P (perform db call) := by
  unfold perform
  cases ran : call.work db with
  | ok u db' => exact step db' ran
  | error e left => exact atomic db e left ran ▸ holds

omit [TimeCrate] [Encodings] in
theorem run_atomic {statement : Database → Except Failure Database} : Atomic (run statement) := by
  intro db e left failed
  unfold run at failed
  cases made : statement db with
  | ok db' =>
    rw [made] at failed
    cases failed
  | error e' =>
    rw [made] at failed
    cases failed
    rfl

theorem Call.atomic (call : Call) : Atomic call.work := by
  cases call with
  | bulk_add_to_collection item_ids coll_id => exact Atomic.transaction _
  | restore a =>
    intro db e left failed
    rw [Call.work,work_bind] at failed
    cases ran : Backup.restore a db with
    | ok stats made =>
      rw [ran] at failed
      cases failed
    | error e' rest =>
      rw [ran] at failed
      cases failed
      exact restore_atomic a db e _ ran
  | _ =>
    rw [Call.work]
    exact run_atomic

theorem sound_empty (version : ℤ) : Sound (Database.empty version) := ⟨fun _ => nofun,nofun,nofun⟩

/-- More admitted rows. -/
theorem Sound.with_rows (sound : Sound db) (admitted : ∀ t, ∀ row ∈ db'.rows t, (layout t).table.admits row)
    (kept : ∀ t, ∀ row ∈ db.rows t, ∃ row' ∈ db'.rows t, row_id row' = row_id row)
    (tags : db'.content_item_tags = db.content_item_tags) (members : db'.content_item_collections = db.content_item_collections) :
    Sound db' where
  admitted := admitted
  tagged := by
    intro edge inside
    obtain ⟨row,held,keyed⟩ := sound.tagged edge (tags ▸ inside)
    obtain ⟨row',held',same⟩ := kept _ row held
    exact ⟨row',held',same.trans keyed⟩
  placed := by
    intro member inside
    obtain ⟨row,held,keyed⟩ := sound.placed member (members ▸ inside)
    obtain ⟨row',held',same⟩ := kept _ row held
    exact ⟨row',held',same.trans keyed⟩

/-- Rows of one table replaced. -/
theorem Sound.set_rows (sound : Sound db) {t : Entry} {rows : List (List SqlValue)} (admitted : ∀ row ∈ rows, (layout t).table.admits row)
    (kept : ∀ row ∈ db.rows t, ∃ row' ∈ rows, row_id row' = row_id row) : Sound (db.set_rows t rows) := by
  refine sound.with_rows (fun t' row inside => ?_) (fun t' row inside => ?_) rfl rfl
  · by_cases here : t' = t
    · subst here
      rw [Database.rows_set_rows] at inside
      exact admitted row inside
    · rw [Database.rows_set_rows_ne db here] at inside
      exact sound.admitted t' row inside
  · by_cases here : t' = t
    · subst here
      rw [Database.rows_set_rows]
      exact kept row inside
    · rw [Database.rows_set_rows_ne db here]
      exact ⟨row,inside,rfl⟩

theorem Sound.insert (sound : Sound db) {t : Entry} {row : List SqlValue} (made : db.insert t row = .ok db') : Sound db' := by
  obtain ⟨rows,taken,rfl⟩ := map_ok.mp made
  obtain ⟨admits,-,rfl⟩ := Table.take_one.mp taken
  refine sound.set_rows (List.forall_mem_append.mpr ⟨sound.admitted t,by simpa using admits⟩) (fun held inside => ?_)
  exact ⟨held,List.mem_append_left _ inside,rfl⟩

theorem Sound.update (sound : Sound db) {t : Entry} {id : String} {row : List SqlValue} (made : db.update t id row = .ok db') : Sound db' := by
  obtain ⟨⟨keyed,admits,-⟩,made⟩ := if_ok.mp made
  cases made
  refine sound.set_rows (fun new inside => ?_) (fun held inside => ?_)
  · obtain ⟨held,there,rfl⟩ := List.mem_map.mp inside
    split
    · exact admits
    · exact sound.admitted t held there
  · refine ⟨_,List.mem_map_of_mem inside,?_⟩
    split
    · next same => rw [keyed,same]
    · rfl

theorem Sound.delete (sound : Sound db) (t : Entry) (id : String) : Sound (db.delete t id) where
  admitted := by
    intro t' row inside
    by_cases here : t' = t
    · subst here
      simp only [Database.delete,Function.update_self] at inside
      exact sound.admitted t' row (List.mem_filter.mp inside).1
    · simp only [Database.delete,Function.update_of_ne here] at inside
      exact sound.admitted t' row inside
  tagged := by
    intro edge inside
    obtain ⟨inside,spared⟩ := List.mem_filter.mp inside
    obtain ⟨row,held,keyed⟩ := sound.tagged edge inside
    refine ⟨row,?_,keyed⟩
    by_cases here : t = .content_items
    · subst here
      have other : edge.1 ≠ id := by simpa using spared
      simpa [Database.delete,keyed,other] using held
    · simpa [Database.delete,Function.update_of_ne (Ne.symm here)] using held
  placed := by
    intro member inside
    obtain ⟨inside,spared⟩ := List.mem_filter.mp inside
    obtain ⟨row,held,keyed⟩ := sound.placed member inside
    refine ⟨row,?_,keyed⟩
    by_cases here : t = .collections
    · subst here
      have other : member.2.1 ≠ id := by simpa using spared
      simpa [Database.delete,keyed,other] using held
    · simpa [Database.delete,Function.update_of_ne (Ne.symm here)] using held

omit [TimeCrate] [Encodings] in
theorem row_mem {t : Entry} {id : String} (there : (db.row t id).isSome) : ∃ row ∈ db.rows t, row_id row = .Text id := by
  obtain ⟨row,held,keyed⟩ := List.find?_isSome.mp there
  exact ⟨row,held,by simpa using keyed⟩

theorem Sound.insert_tag_edge (sound : Sound db) {item_id tag_id : String} (made : db.insert_tag_edge true item_id tag_id = .ok db') :
    Sound db' := by
  unfold Database.insert_tag_edge at made
  split at made
  · cases made
    exact sound
  · split at made
    · cases made
    · next there =>
      cases made
      have both : (db.row .content_items item_id).isSome ∧ (db.row .tags tag_id).isSome := by simpa [← Option.isSome_iff_ne_none] using there
      exact ⟨sound.admitted,List.forall_mem_append.mpr ⟨sound.tagged,by simpa using row_mem both.1⟩,sound.placed⟩

theorem Sound.insert_member (sound : Sound db) {item_id coll_id : String} {sort : SqlValue}
    (made : db.insert_member true item_id coll_id sort = .ok db') : Sound db' := by
  unfold Database.insert_member at made
  split at made
  · cases made
    exact sound
  · split at made
    · cases made
    · next there =>
      cases made
      have both : (db.row .content_items item_id).isSome ∧ (db.row .collections coll_id).isSome := by simpa [← Option.isSome_iff_ne_none] using there
      exact ⟨sound.admitted,sound.tagged,List.forall_mem_append.mpr ⟨sound.placed,by simpa using row_mem both.2⟩⟩

/-- A restore leaves edges with their ends, also of an archive that no export has made. -/
theorem Sound.restored (sound : Sound db) {a : Archive} (made : restore_backup a db = .ok () db') : Sound db' := by
  obtain ⟨vacant,made⟩ := restore_backup_ok.mp made
  obtain ⟨rows,taken,manual,there,rfl⟩ := inner_ok.mp made
  have none_before : db.rows .content_items = [] ∧ db.rows .collections = [] := by
    simp only [Database.is_empty,decide_eq_true_eq,Nat.add_eq_zero_iff,List.length_eq_zero_iff] at vacant
    exact ⟨vacant.1.1.2,vacant.2⟩
  have no_tags : db.content_item_tags = [] := List.eq_nil_iff_forall_not_mem.mpr (fun edge inside => by
    obtain ⟨row,held,-⟩ := sound.tagged edge inside
    simp [none_before.1] at held)
  have no_members : db.content_item_collections = [] := List.eq_nil_iff_forall_not_mem.mpr (fun member inside => by
    obtain ⟨row,held,-⟩ := sound.placed member inside
    simp [none_before.2] at held)
  refine ⟨fun t => Table.take_admits (sound.admitted t) (taken t),fun edge inside => ?_,fun member inside => ?_⟩
  · simp only [Backup.restored,no_tags] at inside
    have listed := keep_new_sublist.mem inside
    exact row_mem (there edge (by simpa using listed))
  · simp only [Backup.restored,no_members] at inside
    have listed := keep_new_sublist.mem inside
    rw [List.nil_append] at listed
    obtain ⟨member',given,rfl⟩ := List.mem_map.mp listed
    obtain ⟨coll,found,-⟩ := manual member' given
    unfold Database.get_collection at found
    split at found
    · next row same => exact row_mem (Option.isSome_iff_exists.mpr ⟨row,same⟩)
    · cases found

/-- Every call keeps a database sound. -/
theorem perform_sound (sound : Sound db) (call : Call) : Sound (perform db call) := by
  refine perform_keeps sound call.atomic (fun db' made => ?_)
  cases call with
  | insert t row => exact sound.insert (run_ok.mp made)
  | update t id row => exact sound.update (run_ok.mp made)
  | delete t id =>
    rw [Call.work,run_ok] at made
    cases made
    exact sound.delete t id
  | tag item_id tag_id => exact sound.insert_tag_edge (run_ok.mp made)
  | untag item_id tag_id =>
    rw [Call.work,run_ok] at made
    cases made
    exact ⟨sound.admitted,fun edge inside => sound.tagged edge (List.mem_filter.mp inside).1,sound.placed⟩
  | insert_member item_id coll_id sort => exact sound.insert_member (run_ok.mp made)
  | delete_member item_id coll_id =>
    rw [Call.work,run_ok] at made
    cases made
    exact ⟨sound.admitted,sound.tagged,fun member inside => sound.placed member (List.mem_filter.mp inside).1⟩
  | set_sort_order item_id coll_id sort =>
    rw [Call.work,run_ok] at made
    cases made
    refine ⟨sound.admitted,sound.tagged,fun member inside => ?_⟩
    obtain ⟨held,there,rfl⟩ := List.mem_map.mp inside
    obtain ⟨row,stored,keyed⟩ := sound.placed held there
    refine ⟨row,stored,?_⟩
    split
    · next same =>
      cases same
      exact keyed
    · exact keyed
  | add_to_collection item_id coll_id sort_order =>
    rw [Call.work,Backup.add_to_collection,run_ok] at made
    obtain ⟨coll,-,added⟩ := bind_ok.mp made
    split at added
    · cases added
    · exact sound.insert_member added
  | bulk_add_to_collection item_ids coll_id =>
    have loop := (forM_run_ok (fun item_id => Database.insert_member true item_id coll_id (.Integer 0))).mp (transaction_ok.mp made)
    exact foldlM_keeps Sound (fun item_id _ db db' sound made => sound.insert_member made) sound loop
  | restore a =>
    obtain ⟨stats,db'',ran,same⟩ := work_bind_ok.mp made
    cases same
    exact sound.restored (restore_ok.mp ran).2.2.2

theorem run_sound (sound : Sound db) (calls : List Call) : Sound (calls.foldl perform db) := by
  induction calls generalizing db with
  | nil => exact sound
  | cons call calls ih => exact ih (perform_sound sound call)

/-- After any run, a backup can be made, restores into an empty database of the same schema and
    gives the same records iff the database is restorable; and a restore that fails leaves the database
    as it was. -/
theorem backup_run (back : ReadBack) (version : ℤ) (calls : List Call) :
    (RoundTrips (calls.foldl perform (Database.empty version)) ↔ Restorable (calls.foldl perform (Database.empty version))) ∧
      ∀ a (db : Database) e left, restore a db = .error e left → left = db :=
  ⟨round_trips_iff back (run_sound (sound_empty version) calls),fun a => restore_atomic a⟩

end

/-! One item is put into one collection by a bulk command. -/

/-- The time crate where there is but one time. -/
@[reducible] def epochTimes : TimeCrate :=
  ⟨fun _ => some "1970-01-01T00:00:00Z",fun _ => "1970-01-01T00:00:00Z",fun _ => some ⟨0,0⟩,fun _ => "1970-01-01T00:00:00Z"⟩

/-- Every id is spelled as it is written, and no rule has actions. -/
@[reducible] def plainEncodings : Encodings := ⟨some,fun _ => some [],fun _ => "[]",id⟩

section
attribute [local instance] epochTimes plainEncodings

theorem plain_read_back : ReadBack := ⟨fun _ _ same => by cases same; rfl,fun _ _ same => same,fun _ _ same => same,rfl⟩

def bulk_item : String := "00000000-0000-4000-8000-000000000001"
def bulk_coll : String := "00000000-0000-4000-8000-000000000002"

def bulk_calls (smart : Bool) : List Call :=
  let now := SqlValue.Text "1970-01-01T00:00:00Z"
  [.insert .content_items [.Text bulk_item,.Null,.Text "A title",.Null,.Text "article",.Text "inbox",.Null,.Null,.Null,now,now,.Null],
   .insert .collections [.Text bulk_coll,.Text "Articles",.Null,.Integer 0,.Integer (if smart then 1 else 0),
     if smart then .Text "type:article" else .Null,now,now],
   .bulk_add_to_collection [bulk_item] bulk_coll]

/-- The library after the bulk command. -/
def bulk_library (smart : Bool) : Database := (bulk_calls smart).foldl perform (Database.empty 16)

theorem bulk_members (smart : Bool) : (bulk_library smart).content_item_collections = [(bulk_item,bulk_coll,.Integer 0)] := by
  cases smart <;> decide

theorem bulk_collections (smart : Bool) : (bulk_library smart).rows .collections =
    [[.Text bulk_coll,.Text "Articles",.Null,.Integer 0,.Integer (if smart then 1 else 0),if smart then .Text "type:article" else .Null,
      .Text "1970-01-01T00:00:00Z",.Text "1970-01-01T00:00:00Z"]] := by
  cases smart <;> decide

/-- The membership of a smart collection is exported, and the restore refuses it. -/
theorem smart_members_refused : ¬RoundTrips (bulk_library true) := by
  intro trips
  have sound : Sound (bulk_library true) := run_sound (sound_empty 16) (bulk_calls true)
  have manual := ((round_trips_iff plain_read_back sound).mp trips).manual
  have plain := manual (bulk_item,bulk_coll,.Integer 0) (by rw [bulk_members]; exact .head _) _ (by rw [bulk_collections]; exact .head _) rfl
  exact plain rfl

/-- In a manual collection the same membership comes back. -/
theorem backup_run_manual : RoundTrips (bulk_library false) := by
  have restorable : Restorable (bulk_library false) := by
    refine ⟨fun t => ?_,by decide +kernel,by decide +kernel,fun t => ?_,by decide +kernel,by decide +kernel,by decide +kernel⟩
    · cases t <;> decide +kernel
    · cases t <;> decide +kernel
  exact (backup_run plain_read_back 16 (bulk_calls false)).1.mpr restorable

end
end Pergamon.Backup
