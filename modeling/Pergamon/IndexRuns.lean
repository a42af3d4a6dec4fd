import Pergamon.SearchIndex

/-!
The full-text index over runs of local commands and of what sync writes. The index has one row
for each item, with its title, author, text and tags, and no other rows (`Indexed`). A local
command changes what some items show, and writes the rows of these again; so it keeps that. What
sync writes keeps it while it is nothing that the index shows (`index_run`): a document that
comes by sync is not in the index (`synced_document_unindexed`).
-/
namespace Pergamon
open Fallible Runs Mirrors

namespace SearchDb

/-- What a row of the index shows. -/
def view (fts : FtsRow) : SqlValue × SqlValue × SqlValue × Except StorageError String :=
  (.Text fts.title,optional_text fts.author,optional_text fts.content_text,.ok fts.tags)

/-- The index shows the item with this id as it is, in one row, or it is neither there nor in the
    index. -/
def IndexedAt (db : SearchDb) (id : String) : Prop := MirrorsAt FtsRow.content_item_id view db.replica.searchable db.content_items_fts id

/-- The index has one row for each item, which shows it as it is, and no other rows. -/
def Indexed (db : SearchDb) : Prop := ∀ id, db.IndexedAt id

structure Sound (db : SearchDb) : Prop where
  tidy : db.replica.Tidy
  indexed : db.Indexed

section
variable {db : SearchDb} {r : Replica} {id : String} {ids : List String}

/-- A refresh puts a row in the place of those of the item, which shows the item as it is. -/
theorem refresh_ok (tidy : db.replica.Tidy) (there : (db.replica.row .content_items id).isSome) :
    ∃ fts, fts.content_item_id = id ∧ db.replica.searchable id = some (view fts) ∧
      refresh_fts_tags id db = .ok () { db with content_items_fts := replace FtsRow.content_item_id db.content_items_fts fts } := by
  obtain ⟨row,held⟩ := Option.isSome_iff_exists.mp there
  obtain ⟨tags,tagged⟩ := tidy.tags_read id
  obtain ⟨title,titled⟩ := tidy.titles id row held
  obtain ⟨author,written⟩ := tidy.authors id row held
  obtain ⟨content_text,read⟩ := tidy.texts id row held
  let dropped : SearchDb := { db with content_items_fts := drop FtsRow.content_item_id db.content_items_fts id }
  refine ⟨dropped.fts_row id title author content_text tags,rfl,?_,?_⟩
  · rw [Replica.searchable,held,tagged]
    simp only [Option.map_some,view,fts_row,as_text_ok.mp titled,as_text_opt_ok.mp written,as_text_opt_ok.mp read]
  · simp only [refresh_fts_tags,work_bind,ask,tagged,held,titled,written,read]
    rfl

/-- Once the items that are not shown as they are have been refreshed, all are. -/
theorem refresh_all_ok (tidy : db.replica.Tidy) (there : ∀ id ∈ ids, (db.replica.row .content_items id).isSome)
    (others : ∀ id ∉ ids, db.IndexedAt id) :
    ∃ rows, refresh_all ids db = .ok () { db with content_items_fts := rows } ∧ Indexed { db with content_items_fts := rows } := by
  induction ids generalizing db with
  | nil => exact ⟨db.content_items_fts,rfl,fun id => others id nofun⟩
  | cons id ids ih =>
    obtain ⟨fts,key,shows,refreshed⟩ := refresh_ok tidy (there id (.head _))
    let db' : SearchDb := { db with content_items_fts := replace FtsRow.content_item_id db.content_items_fts fts }
    have others' : ∀ other ∉ ids, db'.IndexedAt other := by
      intro other outside
      by_cases same : other = id
      · rw [same,← key]
        exact mirrorsAt_replace (key ▸ shows)
      · refine (others other (fun inside => (List.mem_cons.mp inside).elim same outside)).frame rfl ?_
        rw [under_replace,if_neg (key ▸ same)]
    obtain ⟨rows,ran,indexed⟩ := @ih db' tidy (fun id inside => there id (.tail _ inside)) others'
    refine ⟨rows,?_,indexed⟩
    rw [refresh_all,work_bind,refreshed]
    exact ran

end

/-! ### What commands keep -/

section
variable {db : SearchDb} {r' : Replica} {id tag_id : String} {ids : List String} {α : Type} {ok : α → SearchDb → Prop} {bad : SearchDb → Prop}

theorem does_run {statement : Replica → Except StorageError Replica} (unchanged : bad db) :
    Does (run statement) db (fun _ db' => ∃ r', db' = { db with replica := r' } ∧ statement db.replica = .ok r') bad := by
  unfold Does run
  cases wrote : statement db.replica with
  | ok r' => exact ⟨r',rfl,rfl⟩
  | error e => exact unchanged

theorem does_ask {query : Replica → Except StorageError α} (unchanged : bad db) :
    Does (ask query) db (fun a db' => db' = db ∧ query db.replica = .ok a) bad := by
  unfold Does ask
  cases found : query db.replica with
  | ok a => exact ⟨rfl,rfl⟩
  | error e => exact unchanged

theorem does_read {read : Replica → α} : Does (ask (fun r => .ok (read r))) db (fun a db' => db' = db ∧ a = read db.replica) bad := ⟨rfl,rfl⟩

/-- After a statement that touches some items, a refresh of these makes the index sound again. -/
theorem does_refresh_all (sound : Sound db) (touches : db.replica.Touches ids r') :
    Does (refresh_all ids) { db with replica := r' } (fun _ => Sound) bad := by
  obtain ⟨rows,ran,indexed⟩ := @refresh_all_ok { db with replica := r' } ids touches.tidy touches.there
    (fun id outside => (sound.indexed id).frame (touches.others id outside) rfl)
  rw [Does,ran]
  exact ⟨touches.tidy,indexed⟩

theorem refresh_all_one : refresh_all [id] = refresh_fts_tags id := bind_pure_unit

theorem does_refresh (sound : Sound db) (touches : db.replica.Touches [id] r') :
    Does (refresh_fts_tags id) { db with replica := r' } (fun _ => Sound) bad := by
  rw [← refresh_all_one]
  exact does_refresh_all sound touches

/-- A statement that touches no item needs no refresh. -/
theorem Sound.untouched (sound : Sound db) (touches : db.replica.Touches [] r') : Sound { db with replica := r' } :=
  ⟨touches.tidy,fun id => (sound.indexed id).frame (touches.others id nofun) rfl⟩

/-- An edge has its item, also after it has been inserted. -/
theorem edge_item {r r' : Replica} (tidy : r.Tidy) (ok : r.insert_item_tags {(id,tag_id)} = .ok r') : (r.row .content_items id).isSome := by
  unfold Replica.insert_item_tags at ok
  rcases (if_ok.mp ok).1 _ (Finset.mem_singleton_self _) with there | there
  · exact (tidy.edges _ there).1
  · exact there.1

theorem insert_one_touches {r r' : Replica} (tidy : r.Tidy) (ok : r.insert_item_tags {(id,tag_id)} = .ok r') : r.Touches [id] r' := by
  refine Replica.insert_item_tags_touches tidy (fun other inside => ?_) (fun edge inside => ?_) ok
  · rw [List.mem_singleton.mp inside]
    exact edge_item tidy ok
  · rw [Finset.mem_singleton.mp inside]
    exact .head _

theorem tag_content_item_keeps (sound : Sound db) : Does (tag_content_item id tag_id) db (fun _ => Sound) Sound := by
  refine Does.bind (does_run sound) ?_
  rintro - db' ⟨r',rfl,wrote⟩
  exact does_refresh sound (insert_one_touches sound.tidy wrote)

theorem delete_content_item_keeps (sound : Sound db) : Does (delete_content_item id) db (fun _ => Sound) Sound := by
  change Sound { db with content_items_fts := drop FtsRow.content_item_id db.content_items_fts id, replica := db.replica.delete_row .content_items id }
  refine ⟨Replica.delete_item_tidy sound.tidy id,fun other => ?_⟩
  by_cases same : other = id
  · subst same
    exact mirrorsAt_drop (Replica.searchable_none.mpr ((Replica.row_items_delete _ _ _).trans (if_pos rfl)))
  · refine (sound.indexed other).frame (Replica.delete_item_others sound.tidy same) ?_
    rw [under_drop,if_neg same]

theorem untag_content_item_keeps (sound : Sound db) : Does (untag_content_item id tag_id) db (fun _ => Sound) Sound := by
  refine Does.bind does_read ?_
  rintro there db₁ ⟨rfl,known⟩
  refine Does.bind (does_run sound) ?_
  rintro - db₂ ⟨r',rfl,wrote⟩
  obtain rfl := Except.ok.inj wrote
  split
  · next held =>
    have edge : (id,tag_id) ∈ db₁.replica.content_item_tags := of_decide_eq_true (known.symm.trans held)
    exact Does.bind (does_refresh sound (Replica.delete_item_tag_touches sound.tidy (sound.tidy.edges _ edge).1))
      (fun _ _ after => Does.pure after)
  · next missing =>
    have no_edge : (id,tag_id) ∉ db₁.replica.content_item_tags := fun edge => missing (known.trans (decide_eq_true edge))
    rw [Replica.delete_item_tag,Finset.erase_eq_of_notMem no_edge]
    exact Does.pure sound

theorem delete_tag_keeps (sound : Sound db) : Does (delete_tag tag_id) db (fun _ => Sound) Sound := by
  refine Does.bind does_read ?_
  rintro items db₁ ⟨rfl,rfl⟩
  refine Does.bind does_read ?_
  rintro there db₂ ⟨rfl,-⟩
  refine Does.bind (does_run sound) ?_
  rintro - db₃ ⟨r',rfl,wrote⟩
  obtain rfl := Except.ok.inj wrote
  exact Does.bind (does_refresh_all sound (Replica.delete_tag_touches sound.tidy tag_id)) (fun _ _ after => Does.pure after)

/-- A refresh of an item that is not there fails, and changes nothing. -/
theorem does_refresh_missing {ok : Unit → SearchDb → Prop} (missing : db.replica.row .content_items id = none) (unchanged : bad db) :
    Does (refresh_fts_tags id) db ok bad := by
  unfold Does refresh_fts_tags
  rw [work_bind,ask]
  cases db.replica.tags_for_item_as_string id with
  | error e => exact unchanged
  | ok tags =>
    simp only [work_bind,ask,missing]
    exact unchanged

theorem transfer_tags_keeps {from_id to_id : String} (sound : Sound db) : Does (transfer_tags from_id to_id) db (fun _ => Sound) Sound := by
  let edges := (db.replica.content_item_tags.filter (fun edge => edge.1 = from_id)).image (fun edge => (to_id,edge.2))
  have firsts : ∀ edge ∈ edges, edge.1 = to_id := by
    intro edge inside
    obtain ⟨old,-,rfl⟩ := Finset.mem_image.mp inside
    rfl
  refine Does.bind (does_run sound) ?_
  rintro - db' ⟨r',rfl,wrote⟩
  by_cases there : (db.replica.row .content_items to_id).isSome
  · refine does_refresh sound (Replica.insert_item_tags_touches sound.tidy (fun id inside => List.mem_singleton.mp inside ▸ there) ?_ wrote)
    exact fun edge inside => List.mem_singleton.mpr (firsts edge inside)
  · -- without the item there is nothing to insert
    unfold Replica.insert_item_tags at wrote
    obtain ⟨known,wrote⟩ := if_ok.mp wrote
    obtain rfl := Except.ok.inj wrote
    have nothing : edges = ∅ := by
      refine Finset.eq_empty_of_forall_notMem (fun edge inside => there ?_)
      rw [← firsts edge inside]
      exact (known edge inside).elim (fun old => (sound.tidy.edges edge old).1) And.left
    have same : { db.replica with content_item_tags := db.replica.content_item_tags ∪ edges } = db.replica := by
      rw [nothing,Finset.union_empty]
    rw [same]
    exact does_refresh_missing (by simpa using there) sound

theorem tag_each_keeps {item_ids : List String} {count : ℕ} (sound : Sound db) :
    Does (tag_each tag_id item_ids count) db (fun _ => Sound) (fun _ => True) := by
  induction item_ids generalizing db count with
  | nil => exact Does.pure sound
  | cons id ids ih =>
    refine Does.bind does_read ?_
    rintro there db' ⟨rfl,known⟩
    refine Does.bind (does_run trivial) ?_
    rintro - db'' ⟨r',rfl,wrote⟩
    split
    · next already =>
      have held : (id,tag_id) ∈ db'.replica.content_item_tags := of_decide_eq_true (known.symm.trans already)
      have same : r' = db'.replica := by
        unfold Replica.insert_item_tags at wrote
        rw [← Except.ok.inj (if_ok.mp wrote).2,Finset.union_eq_left.mpr (Finset.singleton_subset_iff.mpr held)]
      rw [same]
      exact ih sound
    · exact Does.bind (does_refresh sound (insert_one_touches sound.tidy wrote)) (fun _ db'' after => ih after)

theorem bulk_tag_keeps {item_ids : List String} (sound : Sound db) : Does (bulk_tag item_ids tag_id) db (fun _ => Sound) Sound :=
  Does.transaction (tag_each_keeps sound) sound

theorem merge_tags_touches {r r₁ : Replica} {from_id to_id : String} (tidy : r.Tidy) (apart : from_id ≠ to_id)
    (copied : r.insert_item_tags ((r.content_item_tags.filter (fun edge => edge.2 = from_id)).image (fun edge => (edge.1,to_id))) = .ok r₁) :
    r.Touches (r.tagged_items from_id) (r₁.delete_row .tags from_id) := by
  have first : r.Touches (r.tagged_items from_id) r₁ := by
    refine Replica.insert_item_tags_touches tidy (fun id inside => (tidy.edges _ ((Replica.mem_tagged_items tidy).mp inside)).1) ?_ copied
    intro edge inside
    obtain ⟨old,held,rfl⟩ := Finset.mem_image.mp inside
    obtain ⟨held,tag⟩ := Finset.mem_filter.mp held
    exact (Replica.mem_tagged_items tidy).mpr (by rwa [← tag])
  have same : r₁.tagged_items from_id = r.tagged_items from_id := by
    unfold Replica.insert_item_tags at copied
    obtain rfl := Except.ok.inj (if_ok.mp copied).2
    refine List.filter_congr (fun id _ => ?_)
    rw [decide_eq_decide,Finset.mem_union]
    refine or_iff_left (fun inside => ?_)
    obtain ⟨old,-,made⟩ := Finset.mem_image.mp inside
    exact apart (Prod.mk.inj made).2.symm
  have second := Replica.delete_tag_touches first.tidy from_id
  rw [same] at second
  exact ⟨second.there,fun id outside => (second.others id outside).trans (first.others id outside),second.tidy⟩

theorem merge_tags_keeps {from_id to_id : String} (sound : Sound db) : Does (merge_tags from_id to_id) db (fun _ => Sound) Sound := by
  unfold merge_tags
  split
  · exact Does.pure sound
  next apart =>
  refine Does.bind (does_ask sound) ?_
  rintro - db₁ ⟨rfl,-⟩
  refine Does.bind (does_ask sound) ?_
  rintro - db₂ ⟨rfl,-⟩
  refine Does.bind does_read ?_
  rintro items db₃ ⟨rfl,rfl⟩
  have merged : Does (do
      run (fun r => r.insert_item_tags ((r.content_item_tags.filter (fun edge => edge.2 = from_id)).image (fun edge => (edge.1,to_id))))
      run (fun r => .ok (r.delete_row .tags from_id))) db₃
      (fun _ db' => ∃ r', db' = { db₃ with replica := r' } ∧ db₃.replica.Touches (db₃.replica.tagged_items from_id) r') (fun _ => True) := by
    refine Does.bind (does_run trivial) ?_
    rintro - db₄ ⟨r₁,rfl,copied⟩
    exact ⟨_,rfl,merge_tags_touches sound.tidy apart copied⟩
  refine Does.bind (merged.transaction sound) ?_
  rintro - db₄ ⟨r',rfl,touches⟩
  exact does_refresh_all sound touches

/-- Without items and tags and without rows of the index. -/
theorem nothing_sound {r : Replica} (no_item : ∀ id, r.row .content_items id = none) (no_tag : ∀ tag_id, r.row .tags tag_id = none)
    (no_edge : r.content_item_tags = ∅) : Sound ⟨r,[]⟩ where
  tidy := by
    refine ⟨?_,?_,?_,?_,?_⟩
    · exact fun id row held => nomatch (no_item id).symm.trans held
    · exact fun id row held => nomatch (no_item id).symm.trans held
    · exact fun id row held => nomatch (no_item id).symm.trans held
    · exact fun id row held => nomatch (no_tag id).symm.trans held
    · exact fun edge inside => absurd (no_edge ▸ inside) (Finset.notMem_empty edge)
  indexed := by
    intro id
    rw [IndexedAt,MirrorsAt,Replica.searchable_none.mpr (no_item id)]
    rfl

section
variable [Sqlite]

theorem tag_row_name (r : Replica) (name : String) : r.tag_row name "name" = .Text name := by
  have given : ((∅ : FieldMap).insert "name" (.Str name))["name"]? = some (.Str name) := Std.ExtTreeMap.getElem?_insert_self
  have column : (columns .tags).find? (fun c => c.name = "name") = some { name := "name", not_null := true, unique := .nocase } := rfl
  simp only [Replica.tag_row,Replica.new_row,column,Replica.given_values,given]
  rfl

/-- A new tag is nowhere yet. -/
theorem new_tag_touches {r : Replica} {name : String} (tidy : r.Tidy) (missing : r.row .tags tag_id = none) :
    r.Touches [] (r.set_row .tags tag_id (r.tag_row name)) := by
  refine Replica.set_tag_touches tidy (tag_row_name r name) nofun (fun id _ edge => ?_)
  have there := (tidy.edges _ edge).2
  rw [missing] at there
  cases there

theorem insert_tag_keeps {tag : Tag} (sound : Sound db) : Does (run (fun r => r.insert_tag tag)) db (fun _ => Sound) Sound := by
  refine (does_run sound).mono ?_ (fun _ same => same)
  rintro - db' ⟨r',rfl,wrote⟩
  unfold Replica.insert_tag at wrote
  obtain ⟨missing,wrote⟩ := if_ok.mp wrote
  rw [(Replica.insert_new_ok.mp wrote).2.2]
  exact sound.untouched (new_tag_touches sound.tidy (by simpa using missing))

theorem get_or_create_tag_keeps {new_v4 name : String} (sound : Sound db) : Does (get_or_create_tag new_v4 name) db (fun _ => Sound) Sound := by
  refine Does.bind (does_run sound) ?_
  rintro - db' ⟨r',rfl,wrote⟩
  have after : Sound { db with replica := r' } := by
    unfold Replica.insert_or_ignore at wrote
    split at wrote
    · next taken =>
      rw [(Replica.insert_new_ok.mp wrote).2.2]
      exact sound.untouched (new_tag_touches sound.tidy (by simpa using taken.2.1))
    · obtain rfl := Except.ok.inj wrote
      exact sound
  exact (does_ask after).mono (fun _ _ found => found.1 ▸ after) (fun _ same => same)

theorem rename_tag_keeps {new_name : String} (sound : Sound db) : Does (rename_tag tag_id new_name) db (fun _ => Sound) Sound := by
  refine Does.bind (does_run sound) ?_
  rintro - db' ⟨r',rfl,wrote⟩
  refine Does.bind does_read ?_
  rintro items db'' ⟨rfl,rfl⟩
  unfold Replica.set_tag_name at wrote
  split at wrote
  · cases wrote
  next row held =>
  obtain rfl := (Replica.update_row_ok.mp wrote).2
  refine does_refresh_all sound (Replica.set_tag_touches sound.tidy (Replica.assign_one .tags "name" "name" (.Str new_name) row) ?_ ?_)
  · exact fun id inside => (sound.tidy.edges _ ((Replica.mem_tagged_items sound.tidy).mp inside)).1
  · exact fun id outside edge => absurd ((Replica.mem_tagged_items sound.tidy).mpr edge) outside

omit [Sqlite] in
/-- The row of a new item, and the row that it gets in the index. -/
theorem new_item_sound {row : Row} {title tags : String} {author content_text : Option String} (sound : Sound db)
    (missing : db.replica.row .content_items id = none) (titled : row "title" = .Text title) (written : row "author" = optional_text author)
    (text : row "content_text" = optional_text content_text) (read : (db.replica.set_row .content_items id row).tags_for_item_as_string id = .ok tags) :
    Sound ⟨db.replica.set_row .content_items id row,db.content_items_fts ++ [db.fts_row id title author content_text tags]⟩ := by
  refine ⟨Replica.set_item_tidy sound.tidy ⟨title,as_text_ok.mpr titled⟩ ⟨author,as_text_opt_ok.mpr written⟩ ⟨content_text,as_text_opt_ok.mpr text⟩,
    fun other => ?_⟩
  by_cases same : other = id
  · subst same
    have nothing := (sound.indexed other).none_under (Replica.searchable_none.mpr missing)
    have shows : (db.replica.set_row .content_items other row).searchable other =
        some (view (db.fts_row other title author content_text tags)) := by
      rw [Replica.searchable,Replica.row_set_row_self,Option.map_some,titled,written,text,read]
      rfl
    exact mirrorsAt_concat nothing shows
  · refine (sound.indexed other).frame (Replica.set_item_others same) ?_
    exact under_concat.trans (if_neg same)

theorem insert_content_item_keeps [TimeCrate] {item : Library.ContentItem} (sound : Sound db) :
    Does (insert_content_item item) db (fun _ => Sound) Sound := by
  refine Does.bind (does_run sound) ?_
  rintro - db' ⟨r',rfl,wrote⟩
  unfold Replica.insert_item_row at wrote
  obtain ⟨⟨-,missing⟩,wrote⟩ := if_ok.mp wrote
  obtain rfl := (Replica.insert_new_ok.mp wrote).2.2
  have missing : db.replica.row .content_items item.id = none := by simpa using missing
  obtain ⟨title,author,text⟩ := Replica.new_item_columns db.replica.now item
  obtain ⟨tags,read⟩ := (Replica.set_item_tidy sound.tidy ⟨_,as_text_ok.mpr title⟩ ⟨_,as_text_opt_ok.mpr author⟩
    ⟨_,as_text_opt_ok.mpr text⟩).tags_read item.id
  have done := new_item_sound sound missing title author text read
  simp only [upsert_fts,Does,work_bind,ask,read]
  exact done

end
end
end SearchDb

/-! ### Runs -/

/-- What is done to items and tags: by local commands, and by sync. -/
inductive IndexCall where
  | insert_content_item (item : Library.ContentItem)
  | delete_content_item (id : String)
  | insert_tag (tag : Tag)
  | get_or_create_tag (new_v4 name : String)
  | tag_content_item (content_item_id tag_id : String)
  | untag_content_item (content_item_id tag_id : String)
  | bulk_tag (item_ids : List String) (tag_id : String)
  | transfer_tags (from_id to_id : String)
  | delete_tag (id : String)
  | rename_tag (id new_name : String)
  | merge_tags (from_id to_id : String)
  | reset
  | write_entity_fields (entity_type : EntityType) (entity_id : String) (fields : FieldMap) (op : Op)
  | apply_edge_membership (entity_type : EntityType) (entity_id : String) (present : Bool)

namespace IndexCall
open SearchDb

section
variable [Sqlite]

/-- One call, on whatever state it leaves. -/
def perform [TimeCrate] (db : SearchDb) : IndexCall → SearchDb
  | .insert_content_item item => leaves (SearchDb.insert_content_item item db)
  | .delete_content_item id => leaves (SearchDb.delete_content_item id db)
  | .insert_tag tag => leaves (run (fun r => r.insert_tag tag) db)
  | .get_or_create_tag new_v4 name => leaves (SearchDb.get_or_create_tag new_v4 name db)
  | .tag_content_item content_item_id tag_id => leaves (SearchDb.tag_content_item content_item_id tag_id db)
  | .untag_content_item content_item_id tag_id => leaves (SearchDb.untag_content_item content_item_id tag_id db)
  | .bulk_tag item_ids tag_id => leaves (SearchDb.bulk_tag item_ids tag_id db)
  | .transfer_tags from_id to_id => leaves (SearchDb.transfer_tags from_id to_id db)
  | .delete_tag id => leaves (SearchDb.delete_tag id db)
  | .rename_tag id new_name => leaves (SearchDb.rename_tag id new_name db)
  | .merge_tags from_id to_id => leaves (SearchDb.merge_tags from_id to_id db)
  | .reset => leaves (SearchDb.reset db)
  | .write_entity_fields entity_type entity_id fields op => leaves (run (fun r => r.write_entity_fields entity_type entity_id fields op) db)
  | .apply_edge_membership entity_type entity_id present => leaves (run (fun r => r.apply_edge_membership entity_type entity_id present) db)

/-- A delete that takes no item, and no tag that an item has. -/
def NothingGone (r : Replica) (entity_type : EntityType) (entity_id : String) : Prop :=
  match entity_type with
  | .Document | .Highlight => r.row .content_items entity_id = none
  | .Tag => ∀ item_id, (item_id,entity_id) ∉ r.content_item_tags
  | _ => True

/-- A write that makes no item, and gives no item and no tag that an item has another title,
    author, text or name. -/
def NothingNew (r : Replica) (entity_type : EntityType) (entity_id : String) (fields : FieldMap) : Prop :=
  match entity_type with
  | .Document => ∃ row, r.row .content_items entity_id = some row ∧
    ∀ column ∈ ["title","author","content_text"], Replica.assign .content_items fields row column = row column
  | .Highlight => ∃ row, r.row .content_items entity_id = some row ∧ row "title" = .Text (Replica.shellTitle fields)
  | .Tag => ∀ row, r.row .tags entity_id = some row → ∀ item_id, (item_id,entity_id) ∈ r.content_item_tags →
    Replica.assign .tags fields row "name" = row "name"
  | _ => True

/-- What sync writes, if it is accepted, is not shown by the index. -/
def Meets (db : SearchDb) : IndexCall → Prop
  | .write_entity_fields entity_type entity_id fields op =>
    (∃ r', db.replica.write_entity_fields entity_type entity_id fields op = .ok r') →
      if op = .Delete then NothingGone db.replica entity_type entity_id else NothingNew db.replica entity_type entity_id fields
  | .apply_edge_membership entity_type entity_id present =>
    (∃ r', db.replica.apply_edge_membership entity_type entity_id present = .ok r') →
      entity_type = .TagEdge → ∀ edge, Replica.split_edge_id entity_id = .ok edge → (edge ∈ db.replica.content_item_tags ↔ present)
  | _ => True

variable {r r' : Replica} {ty : EntityType} {id : String} {fields : FieldMap} {op : Op} {present : Bool}

omit [Sqlite] in
theorem nothing_gone_touches (tidy : r.Tidy) (nothing : NothingGone r ty id) : r.Touches [] (r.delete_entity_row ty id) := by
  have other (t : TableName) (item : t ≠ .content_items) (tag : t ≠ .tags) : r.Touches [] (r.delete_row t id) := by
    refine .of_same tidy (fun _ => ?_) (fun _ => ?_) ?_
    all_goals
      unfold Replica.delete_row
      split
      · rfl
      · cases t <;> first | rfl | exact absurd rfl item | exact absurd rfl tag
  have kept : r.Touches [] r := .of_same tidy (fun _ => rfl) (fun _ => rfl) rfl
  have item (missing : r.row .content_items id = none) : r.Touches [] (r.delete_row .content_items id) := by
    have same : r.delete_row .content_items id = r := by
      unfold Replica.delete_row
      rw [missing]
      rfl
    rwa [same]
  cases ty with
  | Document => exact item nothing
  | Highlight => exact item nothing
  | Tag =>
    have touches := Replica.delete_tag_touches tidy id
    have no_item : r.tagged_items id = [] :=
      List.eq_nil_iff_forall_not_mem.mpr (fun item_id inside => nothing item_id ((Replica.mem_tagged_items tidy).mp inside))
    rwa [no_item] at touches
  | ReviewLog => exact kept
  | TagEdge => exact kept
  | CollectionEdge => exact kept
  | _ => exact other _ (by decide) (by decide)

/-- A write to a tag that is accepted leaves a name. -/
theorem written_name (tidy : r.Tidy) (edit : op ≠ .Delete) (ok : r.write_entity_fields .Tag id fields op = .ok r') :
    ∃ name, Replica.assign .tags fields (r.shownRow .tags id (defaultsOf .Tag)) "name" = .Text name := by
  cases given : fields["name"]? with
  | some v =>
    have column : ({ name := "name", not_null := true, unique := .nocase } : Column) ∈ columns .tags := .head _
    have admitted := (Replica.fits_of_write (t := .tags) rfl edit ok given _ column rfl).1
    simp only [Replica.assign,given]
    rcases coerce_text_cases (json_to_sql v) with null | text
    · rw [show affinity_of .tags "name" = .TEXT from rfl,null] at admitted
      cases admitted
    · exact text
  | none =>
    simp only [Replica.assign,given]
    cases held : r.row .tags id with
    | some old =>
      obtain ⟨name,named⟩ := tidy.names id old held
      rw [Replica.shownRow_some held]
      exact ⟨name,as_text_ok.mp named⟩
    | none =>
      rw [Replica.shownRow_none held]
      exact ⟨"",rfl⟩

theorem nothing_new_touches (tidy : r.Tidy) (edit : op ≠ .Delete) (nothing : NothingNew r ty id fields)
    (ok : r.write_entity_fields ty id fields op = .ok r') : r.Touches [] r' := by
  have only := Replica.write_rowsOnly edit ok
  have edges : r'.content_item_tags = r.content_item_tags := by
    obtain ⟨tables,rfl⟩ := only.rest
    rfl
  cases ty with
  | Document =>
    obtain ⟨row,held,same⟩ := nothing
    obtain ⟨-,rfl⟩ := Replica.write_single_ok (t := .content_items) rfl edit ok
    rw [Replica.shownRow_some held]
    exact .of_item tidy held same
  | Highlight =>
    obtain ⟨row,held,title⟩ := nothing
    obtain ⟨-,-,rfl⟩ := (Replica.write_highlight_iff edit).mp ok
    have shell : r.shownShell id = row := by rw [Replica.shownShell,held,Option.getD_some]
    rw [shell]
    have assigned (column : String) (inside : column ∈ ["title","author","content_text"]) :
        Replica.assign .content_items (Replica.shellFields fields) row column = row column := by
      unfold Replica.assign
      rw [Replica.shellFields_get]
      simp only [List.mem_cons,List.not_mem_nil,or_false] at inside
      rcases inside with rfl | rfl | rfl
      · exact title.symm
      · rfl
      · rfl
    have item := Replica.Touches.of_item tidy held assigned
    have annotated : Replica.Touches [] (r.set_row .content_items id (Replica.assign .content_items (Replica.shellFields fields) row))
        (r.set_highlight id (Replica.assign .content_items (Replica.shellFields fields) row)
          (Replica.assign .highlight_meta (Replica.annotationFields fields) (r.shownMeta id))) :=
      .of_same item.tidy (fun _ => rfl) (fun _ => rfl) rfl
    exact ⟨List.forall_mem_nil _,fun other outside => (annotated.others other outside).trans (item.others other outside),annotated.tidy⟩
  | Tag =>
    obtain ⟨name,named⟩ := written_name tidy edit ok
    obtain ⟨-,rfl⟩ := Replica.write_single_ok (t := .tags) rfl edit ok
    refine Replica.set_tag_touches tidy named (List.forall_mem_nil _) (fun item_id _ edge => ?_)
    obtain ⟨old,held⟩ := Option.isSome_iff_exists.mp (tidy.edges _ edge).2
    rw [Replica.shownRow_some held,nothing old held item_id edge] at named
    rw [Replica.tag_name,held,Option.map_some,named]
  | _ =>
    exact .of_same tidy (fun _ => only.rows _ _ (by simp [tablesOf])) (fun _ => only.rows _ _ (by simp [tablesOf])) edges

omit [Sqlite] in
theorem edge_kept_touches (tidy : r.Tidy) (ok : r.apply_edge_membership ty id present = .ok r')
    (kept : ty = .TagEdge → ∀ edge, Replica.split_edge_id id = .ok edge → (edge ∈ r.content_item_tags ↔ present)) : r.Touches [] r' := by
  obtain ⟨tags,collections,rfl⟩ := Replica.apply_edge_membership_rest ok
  refine .of_same tidy (fun _ => rfl) (fun _ => rfl) ?_
  simp only [Replica.apply_edge_membership,bind_ok] at ok
  obtain ⟨⟨left,right⟩,ends,ok⟩ := ok
  cases ty with
  | TagEdge =>
    have held := kept rfl _ ends
    simp only at ok
    split at ok
    · next add =>
      have same := Except.ok.inj (if_ok.mp ok).2
      exact (congrArg Replica.content_item_tags same).symm.trans (Finset.insert_eq_of_mem (held.mpr add))
    · next remove =>
      have same := Except.ok.inj ok
      exact (congrArg Replica.content_item_tags same).symm.trans (Finset.erase_eq_of_notMem (fun inside => remove (held.mp inside)))
  | CollectionEdge =>
    simp only at ok
    split at ok
    · exact (congrArg Replica.content_item_tags (Except.ok.inj (if_ok.mp ok).2)).symm
    · exact (congrArg Replica.content_item_tags (Except.ok.inj ok)).symm
  | _ => cases ok

/-- A call that meets the condition leaves the index sound. -/
theorem perform_sound [TimeCrate] {db : SearchDb} {call : IndexCall} (sound : SearchDb.Sound db) (meets : Meets db call) : SearchDb.Sound (perform db call) := by
  have synced {statement : Replica → Except StorageError Replica} (touches : ∀ r', statement db.replica = .ok r' → db.replica.Touches [] r') :
      SearchDb.Sound (leaves (run statement db)) := by
    refine ((does_run sound).mono ?_ (fun _ same => same)).leaves
    rintro - db' ⟨r',rfl,wrote⟩
    exact sound.untouched (touches r' wrote)
  cases call with
  | insert_content_item item => exact (insert_content_item_keeps sound).leaves
  | delete_content_item id => exact (delete_content_item_keeps sound).leaves
  | insert_tag tag => exact (insert_tag_keeps sound).leaves
  | get_or_create_tag new_v4 name => exact (get_or_create_tag_keeps sound).leaves
  | tag_content_item content_item_id tag_id => exact (tag_content_item_keeps sound).leaves
  | untag_content_item content_item_id tag_id => exact (untag_content_item_keeps sound).leaves
  | bulk_tag item_ids tag_id => exact (bulk_tag_keeps sound).leaves
  | transfer_tags from_id to_id => exact (transfer_tags_keeps sound).leaves
  | delete_tag id => exact (delete_tag_keeps sound).leaves
  | rename_tag id new_name => exact (rename_tag_keeps sound).leaves
  | merge_tags from_id to_id => exact (merge_tags_keeps sound).leaves
  | reset => exact nothing_sound (fun _ => rfl) (fun _ => rfl) rfl
  | write_entity_fields ty id fields op =>
    refine synced (fun r' wrote => ?_)
    have hidden := meets ⟨r',wrote⟩
    by_cases delete : op = .Delete
    · rw [if_pos delete] at hidden
      unfold Replica.write_entity_fields at wrote
      rw [if_pos delete] at wrote
      obtain rfl := Except.ok.inj wrote
      exact nothing_gone_touches sound.tidy hidden
    · rw [if_neg delete] at hidden
      exact nothing_new_touches sound.tidy delete hidden wrote
  | apply_edge_membership ty id present => exact synced (fun r' wrote => edge_kept_touches sound.tidy wrote (meets ⟨r',wrote⟩))

theorem run_sound [TimeCrate] {db : SearchDb} {calls : List IndexCall} (sound : SearchDb.Sound db) (meets : Along perform Meets db calls) :
    SearchDb.Sound (calls.foldl perform db) := by
  induction calls generalizing db with
  | nil => exact sound
  | cons call calls ih => exact ih (perform_sound sound meets.1) meets.2

end

/-- An empty library. -/
def fresh : SearchDb := ⟨.empty,[]⟩

theorem fresh_sound : SearchDb.Sound fresh := nothing_sound (fun _ => rfl) (fun _ => rfl) rfl

/-- In every run in which sync writes nothing that the index shows, the index has exactly one row
    for each item, with its present title, author, text and tags, and no other rows. -/
theorem index_run [Sqlite] [TimeCrate] {db : SearchDb} {calls : List IndexCall} (sound : SearchDb.Sound db) (meets : Along perform Meets db calls) :
    Indexed (calls.foldl perform db) :=
  (run_sound sound meets).indexed

/-! ### A document that comes by sync -/

section
attribute [local instance] plainSqlite plainTimes

/-- A tag is given to an item, and sync brings a feed and the same tag again. -/
def tagged_and_synced : List IndexCall :=
  [.insert_content_item ⟨"d",none,"Rust",none,.Article,.Inbox,none,none,none,⟨0,0⟩,⟨0,0⟩,none⟩,.insert_tag ⟨"t","new"⟩,.tag_content_item "d" "t",
    .write_entity_fields .FeedSubscription "f" ((∅ : FieldMap).insert "title" (.Str "News")) .Upsert,.apply_edge_membership .TagEdge "d:t" true]

theorem index_run_synced : Indexed (tagged_and_synced.foldl perform fresh) := by
  refine index_run fresh_sound ⟨trivial,trivial,trivial,fun _ => ?_,fun _ _ edge ends => ?_,trivial⟩
  · rw [if_neg (by decide)]
    trivial
  · have split : Replica.split_edge_id "d:t" = .ok ("d","t") := by decide +kernel
    obtain rfl := Except.ok.inj (split.symm.trans ends)
    decide +kernel

/-- A document arrives. -/
def arrival : IndexCall := .write_entity_fields .Document "d" ((∅ : FieldMap).insert "title" (.Str "Rust")) .Upsert

/-- The document is there, and the index has no row for it. -/
theorem synced_document_unindexed : ¬ Indexed (perform fresh arrival) := by
  intro indexed
  have there : ((perform fresh arrival).replica.row .content_items "d").isSome := by decide +kernel
  have no_rows : (perform fresh arrival).content_items_fts = [] := by decide +kernel
  have unseen := indexed "d"
  rw [IndexedAt,MirrorsAt,no_rows] at unseen
  have missing : (perform fresh arrival).replica.searchable "d" = none := by
    cases shown : (perform fresh arrival).replica.searchable "d" with
    | none => rfl
    | some entry =>
      rw [shown] at unseen
      cases unseen
  rw [Replica.searchable_none.mp missing] at there
  cases there

end
end IndexCall
end Pergamon
