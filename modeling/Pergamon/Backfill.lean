import Pergamon.Baseline
import Pergamon.Rebuild
import Pergamon.Sections

/-!
What a baseline places in the outbox: the changes of the entities that the tables are read
as, one section for each type in the order in which the types are enqueued. The library is
left as it is, so that what is read of it does not depend on what was enqueued before.
-/
namespace Pergamon
open Fallible

def baseline_order : List EntityType :=
  [.FeedSubscription,.Tag,.Collection,.Document,.Highlight,.Note,.ReviewCard,.ReviewLog,.TagEdge,.CollectionEdge,.Settings]

theorem baseline_order_nodup : baseline_order.Nodup := by decide

@[simp] theorem mem_baseline_order (ty : EntityType) : ty ∈ baseline_order := by cases ty <;> decide

/-- The entity of a change. -/
def ChangeBody.entry (body : ChangeBody) : Entry := (body.entity_type,body.entity_id)

/-- The entity id of a membership. -/
def edge_id (ends : String × String) : String := ends.1 ++ ":" ++ ends.2

/-- What the tables of a library are read as. -/
structure Reading where
  feeds : List String
  tags : List String
  collections : List Collection
  items : List ContentItem
  highlights : List String
  notes : List String
  cards : List String
  logs : List String
  tagged : List (String × String)
  collected : List (String × String)
  settings : List String

/-- The ids of each type, in the order in which they are enqueued. -/
def Reading.part (reading : Reading) : EntityType → List String
  | .FeedSubscription => reading.feeds
  | .Tag => reading.tags
  | .Collection => order_collections_parent_first reading.collections
  | .Document => (reading.items.filter (fun item => !item.is_highlight)).map ContentItem.id
  | .Highlight => reading.highlights
  | .Note => reading.notes
  | .ReviewCard => reading.cards
  | .ReviewLog => reading.logs
  | .TagEdge => reading.tagged.map edge_id
  | .CollectionEdge => reading.collected.map edge_id
  | .Settings => reading.settings

def Reading.entries (reading : Reading) : List Entry := Sections.all baseline_order reading.part

/-- The rows and memberships of a state are those of a library. -/
structure SameLibrary (lib r : Replica) : Prop where
  tables : r.tables = lib.tables
  tags : r.content_item_tags = lib.content_item_tags
  collections : r.content_item_collections = lib.content_item_collections

section
variable [Formats] {listing : Listing} {lib r : Replica}

/-- The tables of the library are read as given. -/
structure Reads (listing : Listing) (lib : Replica) (reading : Reading) : Prop where
  feeds : listing.list lib .feeds row_to_feed = .ok reading.feeds
  tags : listing.list lib .tags row_to_tag = .ok reading.tags
  collections : listing.list lib .collections row_to_collection = .ok reading.collections
  items : listing.list lib .content_items row_to_content_item = .ok reading.items
  highlights : listing.list lib .highlight_meta row_to_highlight_meta = .ok reading.highlights
  notes : listing.list lib .notes row_to_note = .ok reading.notes
  cards : listing.list lib .review_cards row_to_review_card = .ok reading.cards
  logs : listing.list lib .review_logs row_to_review_log = .ok reading.logs
  tagged : listing.tags.mapM row_to_edge = .ok reading.tagged
  collected : listing.collections.mapM row_to_edge = .ok reading.collected
  settings : listing.rows .settings = reading.settings

omit [Formats] in
theorem SameLibrary.row (same : SameLibrary lib r) (t : TableName) (id : String) : r.row t id = lib.row t id := by
  unfold Replica.row
  rw [same.tables]

omit [Formats] in
theorem SameLibrary.read (same : SameLibrary lib r) (ty : EntityType) (id : String) :
    r.read_entity_fields ty id = lib.read_entity_fields ty id := by
  cases ty <;> simp only [Replica.read_entity_fields,Replica.read_columns,Replica.read_highlight,same.row]

omit [Formats] in
theorem SameLibrary.list (same : SameLibrary lib r) (t : TableName) (read : String → Row → Except StorageError α) :
    listing.list r t read = listing.list lib t read := by
  unfold Listing.list
  simp only [same.row]

/-! ### Enqueuing -/

/-- The entries that are there to be sent. -/
def sent (lib : Replica) (entries : List Entry) : List Entry := entries.filter (fun entry => (entryFields lib entry).isSome)

/-- From a state on, the entries were enqueued, and the ids of the next outbox rows are new. -/
structure Enqueued (lib : Replica) (new_id : Nat → String) (db : Database) (entries : List Entry) (db' : Database) : Prop where
  same : SameLibrary lib db'.replica
  fresh : ∀ n, db'.sync_local_seq ≤ n → ∀ row ∈ db'.sync_outbox, row.change_id ≠ new_id n
  bodies : ∃ bodies, db'.sync_outbox.map OutboxRow.body = db.sync_outbox.map OutboxRow.body ++ bodies ∧
    bodies.map ChangeBody.entry = entries ∧ ∀ body ∈ bodies, Sends lib body.entry body

variable {new_id : Nat → String} {now_millis : UInt64} {db db' : Database} {entries : List Entry}

omit [Formats] in
/-- The next outbox row is that of one more entry. -/
theorem Enqueued.outbox (enqueued : Enqueued lib new_id db entries db') (w : Database) (body : ChangeBody)
    (distinct : new_id.Injective) (same : SameLibrary lib w.replica) (outbox : w.sync_outbox = db'.sync_outbox)
    (seq : w.sync_local_seq = db'.sync_local_seq) (sends : Sends lib body.entry body) :
    ∃ db'', w.enqueue_outbox (new_id db'.sync_local_seq) body = .ok db'' ∧
      Enqueued lib new_id db (entries ++ [body.entry]) db'' := by
  have new : ¬w.sync_outbox.any (fun row => row.change_id = new_id db'.sync_local_seq) := by
    rw [outbox]
    simpa using enqueued.fresh _ (Nat.le_refl _)
  obtain ⟨bodies,outbox',named,all⟩ := enqueued.bodies
  refine ⟨_,if_neg new,same,?_,bodies ++ [body],?_,?_,?_⟩
  · intro n later row inside
    change w.sync_local_seq + 1 ≤ n at later
    rw [seq] at later
    rcases List.mem_append.mp inside with old | last
    · rw [outbox] at old
      exact enqueued.fresh n (by omega) row old
    · rw [List.mem_singleton.mp last]
      intro taken
      have here := distinct taken
      omega
  · simp [outbox,outbox']
  · simp [named]
  · intro other inside
    rcases List.mem_append.mp inside with old | last
    · exact all other old
    · rw [List.mem_singleton.mp last]
      exact sends

omit [Formats] in
theorem tables_stamped (ty : EntityType) (id : String) (c : Hlc) (l : List (String × Value)) (r : Replica) :
    SameLibrary r (l.foldl (fun r field => r.set_entity_clock ty id field.1 c) r) := by
  induction l generalizing r with
  | nil => exact ⟨rfl,rfl,rfl⟩
  | cons field l ih =>
    have later := ih (r.set_entity_clock ty id field.1 c)
    exact ⟨later.tables,later.tags,later.collections⟩

omit [Formats] in
theorem Enqueued.upsert (enqueued : Enqueued lib new_id db entries db') (distinct : new_id.Injective) {ty : EntityType}
    (rows : ty ≠ .TagEdge ∧ ty ≠ .CollectionEdge) (id : String) :
    ∃ n db'', db'.baseline_upsert new_id now_millis ty id = .ok (n,db'') ∧
      Enqueued lib new_id db (entries ++ sent lib [(ty,id)]) db'' := by
  have read : entryFields lib (ty,id) = lib.read_entity_fields ty id := by
    cases ty <;> first | rfl | simp at rows
  unfold Database.baseline_upsert
  rw [enqueued.same.read]
  cases given : lib.read_entity_fields ty id with
  | none =>
    refine ⟨0,db',rfl,?_⟩
    simpa [sent,read,given] using enqueued
  | some fields =>
    have stamped (w : Replica) (same : SameLibrary lib w) (c : Hlc) :
        SameLibrary lib (fields.toList.foldl (fun r field => r.set_entity_clock ty id field.1 c) w) := by
      have still := tables_stamped ty id c fields.toList w
      exact ⟨still.tables.trans same.tables,still.tags.trans same.tags,still.collections.trans same.collections⟩
    obtain ⟨db'',made,enqueued'⟩ := enqueued.outbox { (db'.tick_local_hlc now_millis).2 with
        replica := fields.toList.foldl (fun r field => r.set_entity_clock ty id field.1 (db'.tick_local_hlc now_millis).1)
          (db'.tick_local_hlc now_millis).2.replica }
      ⟨ty,id,.Upsert,(db'.tick_local_hlc now_millis).1,none,fields,[]⟩ distinct (stamped _ enqueued.same _) rfl rfl
      ⟨rfl,rfl,rfl,read.trans given⟩
    refine ⟨1,db'',?_,?_⟩
    · exact bind_ok.mpr ⟨db'',made,rfl⟩
    · simpa [sent,read,given,ChangeBody.entry] using enqueued'

omit [Formats] in
theorem Enqueued.edge (enqueued : Enqueued lib new_id db entries db') (distinct : new_id.Injective) {ty : EntityType}
    (edge : ty = .TagEdge ∨ ty = .CollectionEdge) (ends : String × String) :
    ∃ n db'', db'.baseline_edge new_id now_millis ty ends.1 ends.2 = .ok (n,db'') ∧
      Enqueued lib new_id db (entries ++ sent lib [(ty,edge_id ends)]) db'' := by
  have given : entryFields lib (ty,edge_id ends) = some ((∅ : FieldMap).insert "present" (.Boolean true)) := by
    rcases edge with rfl | rfl <;> rfl
  obtain ⟨db'',made,enqueued'⟩ := enqueued.outbox { (db'.tick_local_hlc now_millis).2 with
      replica := db'.replica.save_set_edge ty (edge_id ends)
        (merge_set_member (db'.replica.set_edge ty (edge_id ends)) true (db'.tick_local_hlc now_millis).1).member }
    ⟨ty,edge_id ends,.Upsert,(db'.tick_local_hlc now_millis).1,none,
      (∅ : FieldMap).insert "present" (.Boolean true),[]⟩ distinct
    ⟨enqueued.same.tables,enqueued.same.tags,enqueued.same.collections⟩ rfl rfl ⟨rfl,rfl,rfl,given⟩
  refine ⟨1,db'',?_,?_⟩
  · exact bind_ok.mpr ⟨db'',made,rfl⟩
  · simpa [sent,given,ChangeBody.entry] using enqueued'

omit [Formats] in
theorem Enqueued.each {α : Type} {enqueue : Database → α → Except StorageError (Nat × Database)} {entry : α → Entry}
    (one : ∀ entries db' a, Enqueued lib new_id db entries db' → ∃ n db'', enqueue db' a = .ok (n,db'') ∧
      Enqueued lib new_id db (entries ++ sent lib [entry a]) db'') (l : List α) {acc : Nat × Database}
    (enqueued : Enqueued lib new_id db entries acc.2) : ∃ acc', Database.baseline_each enqueue l acc = .ok acc' ∧
      Enqueued lib new_id db (entries ++ sent lib (l.map entry)) acc'.2 := by
  unfold Database.baseline_each
  induction l generalizing entries acc with
  | nil => exact ⟨acc,foldlM_nil_ok.mpr rfl,by simpa [sent] using enqueued⟩
  | cons a l ih =>
    obtain ⟨n,db'',made,enqueued'⟩ := one entries acc.2 a enqueued
    obtain ⟨acc',ran,enqueued''⟩ := ih (show Enqueued lib new_id db _ (acc.1 + n,db'').2 from enqueued')
    refine ⟨acc',foldlM_cons_ok.mpr ⟨_,bind_ok.mpr ⟨_,made,rfl⟩,ran⟩,?_⟩
    have parts : entries ++ sent lib ((a :: l).map entry) = entries ++ sent lib [entry a] ++ sent lib (l.map entry) := by
      rw [List.append_assoc]
      unfold sent
      rw [← List.filter_append]
      rfl
    rw [parts]
    exact enqueued''

omit [Formats] in
theorem Enqueued.upserts {acc : Nat × Database} (enqueued : Enqueued lib new_id db entries acc.2) (distinct : new_id.Injective)
    (now_millis : UInt64) (ty : EntityType) (rows : ty ≠ .TagEdge ∧ ty ≠ .CollectionEdge) (ids : List String) :
    ∃ acc', Database.baseline_upserts new_id now_millis ty ids acc = .ok acc' ∧
      Enqueued lib new_id db (entries ++ sent lib (ids.map (fun id => (ty,id)))) acc'.2 :=
  Enqueued.each (fun _ _ id held => held.upsert distinct rows id) ids enqueued

omit [Formats] in
theorem Enqueued.edges {acc : Nat × Database} (enqueued : Enqueued lib new_id db entries acc.2) (distinct : new_id.Injective)
    (now_millis : UInt64) (ty : EntityType) (edge : ty = .TagEdge ∨ ty = .CollectionEdge) (edges : List (String × String)) :
    ∃ acc', Database.baseline_edges new_id now_millis ty edges acc = .ok acc' ∧
      Enqueued lib new_id db (entries ++ sent lib ((edges.map edge_id).map (fun id => (ty,id)))) acc'.2 := by
  rw [List.map_map]
  exact Enqueued.each (fun _ _ ends held => held.edge distinct edge ends) edges enqueued

/-- A baseline succeeds iff the tables can be read, and enqueues what they are read as. -/
theorem baseline_enqueued (device : db.sync_state.device_id.isSome) (todo : db.sync_state.baseline_done = false)
    (distinct : new_id.Injective) (start : Enqueued db.replica new_id db [] db) :
    (∀ acc, db.enqueue_sync_baseline listing new_id now_millis = .ok acc → ∃ reading, Reads listing db.replica reading) ∧
    ∀ reading, Reads listing db.replica reading → ∃ acc, db.enqueue_sync_baseline listing new_id now_millis = .ok acc ∧
      Enqueued db.replica new_id db (sent db.replica reading.entries) acc.2 := by
  obtain ⟨device_id,known⟩ := Option.isSome_iff_exists.mp device
  unfold Database.enqueue_sync_baseline
  simp only [known,todo,Bool.false_eq_true,if_false,bind_ok]
  constructor
  · -- each step leaves the library, so the tables are read as they were at first
    have onward {acc acc' : Nat × Database} {ty : EntityType} {ids : List String}
        (same : ∃ entries, Enqueued db.replica new_id db entries acc.2) (rows : ty ≠ .TagEdge ∧ ty ≠ .CollectionEdge)
        (run : Database.baseline_upserts new_id now_millis ty ids acc = .ok acc') :
        ∃ entries, Enqueued db.replica new_id db entries acc'.2 := by
      obtain ⟨entries,held⟩ := same
      obtain ⟨acc'',ran,held'⟩ := held.upserts distinct now_millis ty rows ids
      obtain rfl := Except.ok.inj (run.symm.trans ran)
      exact ⟨_,held'⟩
    rintro acc ⟨feeds,feeds_read,acc₁,run₁,tags,tags_read,acc₂,run₂,collections,collections_read,acc₃,run₃,items,items_read,
      acc₄,run₄,highlights,highlights_read,acc₅,run₅,notes,notes_read,acc₆,run₆,cards,cards_read,acc₇,run₇,logs,logs_read,
      acc₈,run₈,tagged,tagged_read,acc₉,-,collected,collected_read,-⟩
    have same₁ := onward ⟨[],start⟩ (by decide) run₁
    have same₂ := onward same₁ (by decide) run₂
    have same₃ := onward same₂ (by decide) run₃
    have same₄ := onward same₃ (by decide) run₄
    have same₅ := onward same₄ (by decide) run₅
    have same₆ := onward same₅ (by decide) run₆
    have same₇ := onward same₆ (by decide) run₇
    have back {acc : Nat × Database} (same : ∃ entries, Enqueued db.replica new_id db entries acc.2) (t : TableName)
        {β : Type} (read : String → Row → Except StorageError β) :
        listing.list db.replica t read = listing.list acc.2.replica t read := by
      obtain ⟨entries,held⟩ := same
      exact (held.same.list t read).symm
    exact ⟨⟨feeds,tags,collections,items,highlights,notes,cards,logs,tagged,collected,listing.rows .settings⟩,feeds_read,
      (back same₁ _ _).trans tags_read,(back same₂ _ _).trans collections_read,(back same₃ _ _).trans items_read,
      (back same₄ _ _).trans highlights_read,(back same₅ _ _).trans notes_read,(back same₆ _ _).trans cards_read,
      (back same₇ _ _).trans logs_read,tagged_read,collected_read,rfl⟩
  · intro reading reads
    obtain ⟨acc₁,run₁,held₁⟩ := Enqueued.upserts (show Enqueued db.replica new_id db [] (0,db).2 from start) distinct now_millis .FeedSubscription (by decide) reading.feeds
    obtain ⟨acc₂,run₂,held₂⟩ := held₁.upserts distinct now_millis .Tag (by decide) reading.tags
    obtain ⟨acc₃,run₃,held₃⟩ := held₂.upserts distinct now_millis .Collection (by decide) (reading.part .Collection)
    obtain ⟨acc₄,run₄,held₄⟩ := held₃.upserts distinct now_millis .Document (by decide) (reading.part .Document)
    obtain ⟨acc₅,run₅,held₅⟩ := held₄.upserts distinct now_millis .Highlight (by decide) reading.highlights
    obtain ⟨acc₆,run₆,held₆⟩ := held₅.upserts distinct now_millis .Note (by decide) reading.notes
    obtain ⟨acc₇,run₇,held₇⟩ := held₆.upserts distinct now_millis .ReviewCard (by decide) reading.cards
    obtain ⟨acc₈,run₈,held₈⟩ := held₇.upserts distinct now_millis .ReviewLog (by decide) reading.logs
    obtain ⟨acc₉,run₉,held₉⟩ := held₈.edges distinct now_millis .TagEdge (.inl rfl) reading.tagged
    obtain ⟨acc₁₀,run₁₀,held₁₀⟩ := held₉.edges distinct now_millis .CollectionEdge (.inr rfl) reading.collected
    obtain ⟨acc₁₁,run₁₁,held₁₁⟩ := held₁₀.upserts distinct now_millis .Settings (by decide) reading.settings
    refine ⟨(acc₁₁.1,acc₁₁.2.set_baseline_done),?_,?_⟩
    · exact ⟨_,reads.feeds,_,run₁,_,(held₁.same.list _ _).trans reads.tags,_,run₂,
        _,(held₂.same.list _ _).trans reads.collections,_,run₃,_,(held₃.same.list _ _).trans reads.items,_,run₄,
        _,(held₄.same.list _ _).trans reads.highlights,_,run₅,_,(held₅.same.list _ _).trans reads.notes,_,run₆,
        _,(held₆.same.list _ _).trans reads.cards,_,run₇,_,(held₇.same.list _ _).trans reads.logs,_,run₈,
        _,reads.tagged,_,run₉,_,reads.collected,_,run₁₀,_,reads.settings ▸ run₁₁,rfl⟩
    · have all : Enqueued db.replica new_id db (sent db.replica reading.entries) acc₁₁.2 := by
        simpa [Reading.entries,Sections.all,baseline_order,Reading.part,sent] using held₁₁
      exact ⟨all.same,all.fresh,all.bodies⟩

end
end Pergamon
