import Pergamon.Rules

/-!
Ingesting the entries of a feed. An entry that the feed has is skipped: one with its guid, or,
where it carries none, one with its url. Every other entry becomes a new item, with the link to
its feed, and the content rules are applied to it; that they fail is only a warning.

The table of items holds a url once, whichever feed or command has put it there, and so an
entry that the feed does not have is refused when any item has its url. That ends the refresh,
and every later one that meets the same entry. Otherwise a refresh goes through, unless a rule
for a new item meets a collection whose items cannot be read (`ingest_iff`); then each entry
stands for exactly one item of the feed, and the items from before have not changed.
-/
namespace Pergamon
open Fallible

/-- A parsed entry of a feed; the time of its last update is left out. -/
structure ParsedEntry where
  guid : Option String
  title : String
  url : Option String
  author : Option String
  summary : Option String
  content : Option String
  published_at : Option OffsetDateTime
  deriving DecidableEq

/-- The item that an entry becomes. -/
def ParsedEntry.item (entry : ParsedEntry) (now : OffsetDateTime) (id : String) : Library.ContentItem :=
  ⟨id,entry.url,entry.title,entry.author,.FeedItem,.Inbox,entry.content,entry.summary,entry.published_at,now,now,none⟩

namespace Library

/-- Check whether a feed item already exists by GUID within a feed. -/
def feed_item_exists_by_guid (lib : Library) (feed_id guid : String) : Bool :=
  lib.feed_item_meta.any (fun m => m.feed_id = feed_id ∧ m.guid = some guid)

/-- Check whether a feed item already exists by URL within a feed. -/
def feed_item_exists_by_url (lib : Library) (feed_id url : String) : Bool :=
  lib.feed_item_meta.any (fun m => m.feed_id = feed_id &&
    lib.content_items.any (fun row => row.id = m.content_item_id ∧ row.url = some url))

/-- Dedup: prefer GUID, fall back to URL. -/
def is_dup (lib : Library) (feed_id : String) (entry : ParsedEntry) : Bool :=
  match entry.guid,entry.url with
  | some guid,_ => lib.feed_item_exists_by_guid feed_id guid
  | none,some url => lib.feed_item_exists_by_url feed_id url
  | none,none => false

/-- Insert feed item metadata. An item has one such row, and a feed holds a guid once. -/
def insert_feed_item_meta (m : FeedItemMeta) : Work Unit :=
  run (fun lib =>
    let taken := lib.feed_item_meta.any (fun other => other.content_item_id = m.content_item_id ||
      decide (m.guid.isSome ∧ other.feed_id = m.feed_id ∧ other.guid = m.guid))
    if ¬ taken ∧ lib.has_item m.content_item_id ∧ lib.feeds.any (fun feed => feed.id = m.feed_id) then
      .ok { lib with feed_item_meta := lib.feed_item_meta ++ [m] }
    else .error .Sqlite)

/-- An error is only a warning; what was written before it stays. -/
def warn (work : Work Unit) : Work Unit :=
  tryCatch work (fun failure =>
    match failure with
    | .panic => throw .panic
    | _ => pure ())

section
variable [TimeCrate] [Unicode]

/-- Ingest one entry, unless it is a duplicate. -/
def ingest_entry (feed : Feed) (entry : ParsedEntry) : Work Bool := do
  let is_dup ← ask (fun lib => .ok (lib.is_dup feed.id entry))
  if is_dup then return false
  else
    let now ← ask (fun lib => .ok lib.now)
    let id ← new_v4
    let item := entry.item now id
    insert_content_item item
    insert_feed_item_meta ⟨id,feed.id,entry.guid,entry.summary⟩
    warn (apply_rules_to_item item (some feed.title))
    return true

/-- Ingest parsed entries, skipping duplicates, and count the new items. -/
def ingest_entries (feed : Feed) : List ParsedEntry → ℕ → Work ℕ
  | [],count => pure count
  | entry :: rest,count => do
    let new ← ingest_entry feed entry
    ingest_entries feed rest (if new then count + 1 else count)

end

/-! ### What the tables keep -/

/-- The keys of the tables: of items, of their urls, of the links to feeds and of tags; tags and
    memberships refer to what is there; the ids to come are new. -/
structure Kept (lib : Library) : Prop where
  item_ids : (lib.content_items.map ItemRow.id).Nodup
  urls : ∀ a ∈ lib.content_items, ∀ b ∈ lib.content_items, a.url.isSome → a.url = b.url → a.id = b.id
  meta_ids : (lib.feed_item_meta.map FeedItemMeta.content_item_id).Nodup
  guids : ∀ m ∈ lib.feed_item_meta, ∀ n ∈ lib.feed_item_meta, m.feed_id = n.feed_id → m.guid.isSome → m.guid = n.guid → m = n
  metas : ∀ m ∈ lib.feed_item_meta, lib.has_item m.content_item_id
  tag_ids : (lib.tags.map Tag.id).Nodup
  edges : ∀ edge ∈ lib.content_item_tags, lib.has_item edge.1 ∧ edge.2 ∈ lib.tags.map Tag.id
  members : ∀ m ∈ lib.content_item_collections, lib.has_item m.content_item_id ∧ m.collection_id ∈ lib.collections.map Library.Collection.id
  once : Function.Injective lib.uuids
  fresh : ∀ n, ¬ lib.has_item (lib.uuids n) ∧ lib.uuids n ∉ lib.tags.map Tag.id ∧ lib.uuids n ∉ lib.collections.map Library.Collection.id

/-- What commands on one item leave of the rest: no other row of items has changed, and that
    item has its url; tags and collections are added under new ids; only this item gets tags,
    and nothing becomes a member of a collection unless a collection has the id of the item. -/
structure Touched (id : String) (lib lib' : Library) : Prop where
  frame : lib' = { lib with
    content_items := lib'.content_items
    content_items_fts := lib'.content_items_fts
    tags := lib'.tags
    collections := lib'.collections
    content_item_tags := lib'.content_item_tags
    content_item_collections := lib'.content_item_collections
    uuids := lib'.uuids }
  rows : ∃ change : ItemRow → ItemRow, lib'.content_items = lib.content_items.map change ∧
    ∀ row, (change row).id = row.id ∧ (change row).url = row.url ∧ (row.id ≠ id → change row = row)
  drawn : ∃ k tags collections, lib'.uuids = (fun n => lib.uuids (n + k)) ∧
    lib'.tags = lib.tags ++ tags ∧ (∀ tag ∈ tags, ∃ n, n < k ∧ tag.id = lib.uuids n) ∧
    lib'.collections = lib.collections ++ collections ∧ ∀ coll ∈ collections, ∃ n, n < k ∧ coll.id = lib.uuids n
  tag_ids : (lib.tags.map Tag.id).Nodup → (lib'.tags.map Tag.id).Nodup
  edges : ∀ edge, edge ∈ lib.content_item_tags → edge ∈ lib'.content_item_tags
  new_edges : ∀ edge, edge ∈ lib'.content_item_tags → edge ∈ lib.content_item_tags ∨ edge.1 = id ∧ edge.2 ∈ lib'.tags.map Tag.id
  members : (∀ coll ∈ lib'.collections, coll.id ≠ id) → lib'.content_item_collections = lib.content_item_collections

section
variable {lib lib' lib'' : Library} {id : String}

theorem Touched.refl (id : String) (lib : Library) : Touched id lib lib where
  frame := rfl
  rows := ⟨fun row => row,by simp,fun _ => ⟨rfl,rfl,fun _ => rfl⟩⟩
  drawn := ⟨0,[],[],rfl,by simp,nofun,by simp,nofun⟩
  tag_ids := fun nodup => nodup
  edges _ held := held
  new_edges _ held := .inl held
  members _ := rfl

theorem Touched.trans (one : Touched id lib lib') (two : Touched id lib' lib'') : Touched id lib lib'' := by
  obtain ⟨change,rows,keeps⟩ := one.rows
  obtain ⟨change',rows',keeps'⟩ := two.rows
  obtain ⟨k,tags,collections,uuids,all_tags,drawn_tags,all_collections,drawn_collections⟩ := one.drawn
  obtain ⟨k',tags',collections',uuids',all_tags',drawn_tags',all_collections',drawn_collections'⟩ := two.drawn
  have later {x : String} (drawn : ∃ n, n < k' ∧ x = lib'.uuids n) : ∃ n, n < k + k' ∧ x = lib.uuids n := by
    obtain ⟨n,small,rfl⟩ := drawn
    exact ⟨n + k,by omega,by rw [uuids]⟩
  have sooner {x : String} (drawn : ∃ n, n < k ∧ x = lib.uuids n) : ∃ n, n < k + k' ∧ x = lib.uuids n := by
    obtain ⟨n,small,same⟩ := drawn
    exact ⟨n,by omega,same⟩
  refine ⟨?_,⟨change' ∘ change,by rw [rows',rows,List.map_map],fun row => ?_⟩,
    ⟨k + k',tags ++ tags',collections ++ collections',?_,?_,?_,?_,?_⟩,fun nodup => two.tag_ids (one.tag_ids nodup),
    fun edge held => two.edges edge (one.edges edge held),fun edge held => ?_,fun apart => ?_⟩
  · rw [two.frame,one.frame]
  · obtain ⟨same,url,other⟩ := keeps row
    obtain ⟨same',url',other'⟩ := keeps' (change row)
    refine ⟨same'.trans same,url'.trans url,fun apart => ?_⟩
    have first := other apart
    change change' (change row) = row
    rw [other' (by rwa [same]),first]
  · rw [uuids',uuids]
    funext n
    change lib.uuids (n + k' + k) = lib.uuids (n + (k + k'))
    rw [Nat.add_assoc,Nat.add_comm k']
  · rw [all_tags',all_tags,List.append_assoc]
  · intro tag inside
    exact (List.mem_append.mp inside).elim (fun old => sooner (drawn_tags tag old)) (fun new => later (drawn_tags' tag new))
  · rw [all_collections',all_collections,List.append_assoc]
  · intro coll inside
    exact (List.mem_append.mp inside).elim (fun old => sooner (drawn_collections coll old))
      (fun new => later (drawn_collections' coll new))
  · rcases two.new_edges edge held with before | new
    · rcases one.new_edges edge before with old | ⟨here,tag⟩
      · exact .inl old
      · refine .inr ⟨here,?_⟩
        rw [all_tags',List.map_append]
        exact List.mem_append_left _ tag
    · exact .inr new
  · rw [two.members apart,one.members (fun coll held => apart coll ?_)]
    rw [all_collections']
    exact List.mem_append_left _ held

/-- One statement that writes no more than commands on the item do. -/
theorem Touched.run {statement : Library → Except StorageError Library}
    (writes : ∀ lib lib', statement lib = .ok lib' → Touched id lib lib') : Relates (Touched id) (Library.run statement) := by
  intro lib
  unfold Library.run
  cases wrote : statement lib with
  | error e => exact .refl id lib
  | ok lib' => exact writes lib lib' wrote

theorem Touched.ask {α : Type} (query : Library → Except StorageError α) : Relates (Touched id) (Library.ask query) := by
  intro lib
  unfold Library.ask
  cases query lib <;> exact .refl id lib

theorem Touched.bind {α β : Type} {x : Work α} {f : α → Work β} (first : Relates (Touched id) x)
    (rest : ∀ a, Relates (Touched id) (f a)) : Relates (Touched id) (x >>= f) :=
  .bind (fun _ _ _ => .trans) first rest

theorem get_or_create_tag_touches (id name : String) : Relates (Touched id) (get_or_create_tag name) := by
  unfold get_or_create_tag
  intro lib
  have drawn : Touched id lib { lib with uuids := fun n => lib.uuids (n + 1) } :=
    { Touched.refl id lib with
      frame := rfl
      drawn := ⟨1,[],[],rfl,by simp,List.forall_mem_nil _,by simp,List.forall_mem_nil _⟩ }
  simp only [work_bind,new_v4,Library.run]
  by_cases taken : lib.tags.any (fun tag => tag.id = lib.uuids 0 || same_name tag.name name) = true
  · rw [if_pos taken]
    exact drawn.trans (Touched.ask _ _)
  · rw [if_neg taken]
    refine .trans ?_ (Touched.ask _ _)
    have free : lib.uuids 0 ∉ lib.tags.map Tag.id := by
      intro held
      obtain ⟨tag,inside,key⟩ := List.mem_map.mp held
      exact taken (List.any_eq_true.mpr ⟨tag,inside,by simp [key]⟩)
    exact { Touched.refl id lib with
      frame := rfl
      new_edges := fun _ => .inl
      drawn := ⟨1,[⟨lib.uuids 0,name⟩],[],rfl,rfl,by simp,by simp,List.forall_mem_nil _⟩
      tag_ids := fun nodup => by
        rw [List.map_append,List.map_cons,List.map_nil,← List.concat_eq_append,List.nodup_concat]
        exact ⟨free,nodup⟩ }

theorem tag_content_item_touches (id tag_id : String) : Relates (Touched id) (tag_content_item id tag_id) := by
  unfold tag_content_item
  refine Touched.bind (Touched.run fun lib lib' wrote => ?_) (fun _ => Touched.run fun lib lib' wrote => ?_)
  · unfold insert_item_tag at wrote
    split at wrote
    · obtain rfl := Except.ok.inj wrote
      exact .refl id lib
    · obtain ⟨⟨-,known⟩,wrote⟩ := if_ok.mp wrote
      obtain rfl := Except.ok.inj wrote
      obtain ⟨tag,held,key⟩ := List.any_eq_true.mp known
      have inside : tag_id ∈ lib.tags.map Tag.id := List.mem_map.mpr ⟨tag,held,by simpa using key⟩
      exact { Touched.refl id lib with
        frame := rfl
        edges := fun edge held => List.mem_append_left _ held
        new_edges := fun edge held => by
          rcases List.mem_append.mp held with old | new
          · exact .inl old
          · obtain rfl := List.mem_singleton.mp new
            exact .inr ⟨rfl,inside⟩ }
  · unfold refresh_fts_tags at wrote
    split at wrote
    · cases wrote
    · obtain rfl := Except.ok.inj wrote
      exact { Touched.refl id lib with frame := rfl }

section
variable [TimeCrate]

theorem update_status_touches (id : String) (status : DocumentStatus) :
    Relates (Touched id) (update_content_item_status id status) := by
  refine Touched.run fun lib lib' wrote => ?_
  obtain ⟨-,wrote⟩ := if_ok.mp wrote
  obtain rfl := Except.ok.inj wrote
  refine { Touched.refl id lib with
    frame := rfl
    rows := ⟨_,rfl,fun row => ?_⟩ }
  split
  · next here => exact ⟨rfl,rfl,fun apart => absurd here apart⟩
  · exact ⟨rfl,rfl,fun _ => rfl⟩

omit [TimeCrate] in
theorem get_or_create_collection_touches (id name : String) : Relates (Touched id) (get_or_create_collection name) := by
  intro lib
  unfold get_or_create_collection
  split
  · exact .refl id lib
  · simp only [work_bind,new_v4,insert_collection,Library.run]
    have drawn : Touched id lib { lib with uuids := fun n => lib.uuids (n + 1) } :=
      { Touched.refl id lib with
        frame := rfl
        drawn := ⟨1,[],[],rfl,by simp,List.forall_mem_nil _,by simp,List.forall_mem_nil _⟩ }
    split_ifs
    · exact { Touched.refl id lib with
        frame := rfl
        drawn := ⟨1,[],[⟨lib.uuids 0,name,none,0,false,none⟩],rfl,(List.append_nil _).symm,List.forall_mem_nil _,rfl,by simp⟩
        members := fun _ => rfl }
    · exact drawn

theorem list_collection_items_touches (id collection_id : String) : Relates (Touched id) (list_collection_items collection_id) := by
  unfold list_collection_items
  refine Touched.bind (Touched.ask _) (fun rows lib => ?_)
  cases rows.mapM Library.row_to_content_item <;> exact .refl id lib

omit [TimeCrate] in
theorem add_to_collection_touches (content_item_id id : String) (sort_order : ℤ) :
    Relates (Touched id) (add_to_collection content_item_id id sort_order) := by
  intro lib
  unfold add_to_collection get_collection
  simp only [work_bind,Library.ask]
  cases found : lib.collections.find? (fun coll => coll.id = id) with
  | none => exact .refl id lib
  | some coll =>
    have key : coll.id = id := by simpa using List.find?_some found
    simp only
    split
    · exact .refl id lib
    · unfold Library.run
      split
      · next lib' wrote =>
        dsimp only at wrote
        split at wrote
        · obtain rfl := Except.ok.inj wrote
          exact .refl id lib
        · obtain ⟨-,wrote⟩ := if_ok.mp wrote
          obtain rfl := Except.ok.inj wrote
          exact { Touched.refl id lib with
            frame := rfl
            members := fun apart => absurd key (apart coll (List.mem_of_find?_eq_some found)) }
      · exact .refl id lib

theorem apply_rule_action_touches (id : String) (action : RuleAction) : Relates (Touched id) (apply_rule_action id action) := by
  cases action with
  | AddTag name => exact Touched.bind (get_or_create_tag_touches id name) (fun tag => tag_content_item_touches id tag.id)
  | SetStatus status => exact update_status_touches id status
  | AddToCollection name =>
    exact Touched.bind (get_or_create_collection_touches id name) (fun coll =>
      Touched.bind (list_collection_items_touches id coll.id) (fun _ => add_to_collection_touches coll.id id _))
  | Mute => exact update_status_touches id .Archived

theorem execute_touches (id : String) (actions : List RuleAction) : Relates (Touched id) (execute id actions) := by
  induction actions with
  | nil => exact .refl id
  | cons action actions ih => exact Touched.bind (apply_rule_action_touches id action) (fun _ => ih)

end

/-! ### What rules keep -/

theorem has_item_of_ids {other : Library} (same : other.content_items.map ItemRow.id = lib.content_items.map ItemRow.id) (id : String) :
    other.has_item id = lib.has_item id := by
  have flat (l : Library) : l.has_item id = (l.content_items.map ItemRow.id).any (fun x => x = id) := by
    rw [List.any_map]
    rfl
  rw [flat,flat,same]

theorem Touched.item_ids (touched : Touched id lib lib') : lib'.content_items.map ItemRow.id = lib.content_items.map ItemRow.id := by
  obtain ⟨change,rows,keeps⟩ := touched.rows
  rw [rows,List.map_map]
  exact List.map_congr_left (fun row _ => (keeps row).1)

theorem Touched.has_item (touched : Touched id lib lib') (other : String) : lib'.has_item other = lib.has_item other :=
  has_item_of_ids touched.item_ids other

theorem Touched.metas (touched : Touched id lib lib') : lib'.feed_item_meta = lib.feed_item_meta := by
  rw [touched.frame]

/-- An item that is in no collection, and whose id is no collection's. -/
structure Alone (id : String) (lib : Library) : Prop where
  item : lib.has_item id
  apart : ∀ coll ∈ lib.collections, coll.id ≠ id
  lone : ∀ m ∈ lib.content_item_collections, m.content_item_id ≠ id

theorem Touched.apart (touched : Touched id lib lib') (kept : Kept lib) (alone : Alone id lib) :
    ∀ coll ∈ lib'.collections, coll.id ≠ id := by
  obtain ⟨k,tags,collections,-,-,-,all_collections,drawn⟩ := touched.drawn
  intro coll held same
  rw [all_collections] at held
  rcases List.mem_append.mp held with old | new
  · exact alone.apart coll old same
  · obtain ⟨n,-,key⟩ := drawn coll new
    exact (kept.fresh n).1 (by rw [← key,same]; exact alone.item)

theorem Touched.same_members (touched : Touched id lib lib') (kept : Kept lib) (alone : Alone id lib) :
    lib'.content_item_collections = lib.content_item_collections := touched.members (touched.apart kept alone)

theorem Touched.alone (touched : Touched id lib lib') (kept : Kept lib) (alone : Alone id lib) : Alone id lib' where
  item := by
    rw [touched.has_item]
    exact alone.item
  apart := touched.apart kept alone
  lone := by
    rw [touched.same_members kept alone]
    exact alone.lone

/-- Commands on one item keep what the tables keep. -/
theorem Touched.kept (touched : Touched id lib lib') (kept : Kept lib) (alone : Alone id lib) : Kept lib' := by
  obtain ⟨change,rows,keeps⟩ := touched.rows
  obtain ⟨k,tags,collections,uuids,all_tags,drawn_tags,all_collections,drawn_collections⟩ := touched.drawn
  have later {n m : ℕ} (small : m < k) : lib.uuids (n + k) ≠ lib.uuids m := by
    intro same
    have := kept.once same
    omega
  refine ⟨?_,?_,?_,?_,?_,touched.tag_ids kept.tag_ids,?_,?_,?_,?_⟩
  · rw [touched.item_ids]
    exact kept.item_ids
  · intro a there b here some_url same
    rw [rows] at there here
    obtain ⟨old,held,rfl⟩ := List.mem_map.mp there
    obtain ⟨old',held',rfl⟩ := List.mem_map.mp here
    rw [(keeps old).2.1] at some_url same
    rw [(keeps old').2.1] at same
    rw [(keeps old).1,(keeps old').1]
    exact kept.urls old held old' held' some_url same
  · rw [touched.metas]
    exact kept.meta_ids
  · rw [touched.metas]
    exact kept.guids
  · intro m held
    rw [touched.metas] at held
    rw [touched.has_item]
    exact kept.metas m held
  · intro edge held
    rw [touched.has_item]
    rcases touched.new_edges edge held with old | ⟨rfl,tag⟩
    · obtain ⟨there,tag⟩ := kept.edges edge old
      rw [all_tags,List.map_append]
      exact ⟨there,List.mem_append_left _ tag⟩
    · exact ⟨alone.item,tag⟩
  · intro m held
    rw [touched.same_members kept alone] at held
    obtain ⟨there,coll⟩ := kept.members m held
    rw [touched.has_item,all_collections,List.map_append]
    exact ⟨there,List.mem_append_left _ coll⟩
  · rw [uuids]
    intro m n same
    have := kept.once same
    omega
  · intro n
    rw [uuids,touched.has_item,all_tags,all_collections]
    obtain ⟨item,tag,coll⟩ := kept.fresh (n + k)
    refine ⟨item,?_,?_⟩
    · rw [List.map_append,List.mem_append]
      rintro (old | new)
      · exact tag old
      · obtain ⟨t,held,key⟩ := List.mem_map.mp new
        obtain ⟨m,small,drawn⟩ := drawn_tags t held
        exact later small (key.symm.trans drawn)
    · rw [List.map_append,List.mem_append]
      rintro (old | new)
      · exact coll old
      · obtain ⟨c,held,key⟩ := List.mem_map.mp new
        obtain ⟨m,small,drawn⟩ := drawn_collections c held
        exact later small (key.symm.trans drawn)

/-- The items of collections stay as they are. -/
theorem Touched.collection_rows (touched : Touched id lib lib') (kept : Kept lib) (alone : Alone id lib) (collection_id : String) :
    lib'.collection_rows collection_id = lib.collection_rows collection_id := by
  obtain ⟨change,rows,keeps⟩ := touched.rows
  unfold Library.collection_rows
  rw [rows,touched.same_members kept alone,List.filter_map]
  have member : (fun row : ItemRow => lib.content_item_collections.any (fun m => m.content_item_id = row.id ∧ m.collection_id = collection_id)) ∘
      change = fun row => lib.content_item_collections.any (fun m => m.content_item_id = row.id ∧ m.collection_id = collection_id) := by
    funext row
    simp only [Function.comp_apply,(keeps row).1]
  rw [member]
  refine (List.map_congr_left (g := fun row => row) fun row held => (keeps row).2.2 ?_).trans (List.map_id' _)
  -- a member of a collection is another item
  obtain ⟨m,there,here⟩ := List.any_eq_true.mp (List.mem_filter.mp held).2
  simp only [Bool.decide_and,Bool.and_eq_true,decide_eq_true_eq] at here
  exact here.1 ▸ alone.lone m there

/-- A new collection is empty. -/
theorem Kept.empty (kept : Kept lib) (n : ℕ) : lib.collection_rows (lib.uuids n) = [] := by
  unfold Library.collection_rows
  refine List.filter_eq_nil_iff.mpr (fun row _ held => ?_)
  obtain ⟨m,there,here⟩ := List.any_eq_true.mp held
  simp only [Bool.decide_and,Bool.and_eq_true,decide_eq_true_eq] at here
  exact (kept.fresh n).2.2 (here.2 ▸ (kept.members m there).2)

end

end Library

/-- The collection that an action names. -/
def RuleAction.collection : RuleAction → Option String
  | .AddToCollection name => some name
  | _ => none

namespace Library

section
variable [TimeCrate] {lib lib' : Library} {id : String}

/-- The first collection that actions name has an item that does not read. -/
def Blocked (lib : Library) (actions : List RuleAction) : Prop :=
  ∃ name coll, actions.findSome? RuleAction.collection = some name ∧ lib.get_collection_by_name name = some coll ∧
    ∃ row ∈ lib.collection_rows coll.id, Library.row_to_content_item row = none

theorem Touched.blocked (touched : Touched id lib lib') (kept : Kept lib) (alone : Alone id lib) (actions : List RuleAction) :
    lib'.Blocked actions ↔ lib.Blocked actions := by
  obtain ⟨k,tags,collections,-,-,-,all_collections,drawn⟩ := touched.drawn
  unfold Blocked
  simp only [touched.collection_rows kept alone,get_collection_by_name,all_collections,List.find?_append]
  refine exists₂_congr (fun name coll => and_congr_right fun _ => ?_)
  cases old : lib.collections.find? (fun coll => same_name coll.name name) with
  | some coll' => rw [Option.some_or]
  | none =>
    rw [Option.none_or]
    refine iff_of_false ?_ nofun
    rintro ⟨new,row,held,-⟩
    obtain ⟨n,-,key⟩ := drawn coll (List.mem_of_find?_eq_some new)
    rw [key,kept.empty] at held
    cases held

/-! ### How a plan ends -/

omit [TimeCrate] in
theorem Kept.ready (kept : Kept lib) (alone : Alone id lib) : Ready id lib :=
  ⟨alone.item,kept.tag_ids,fun edge held => (kept.edges edge held).2,alone.apart,kept.once,
    fun n => ⟨(kept.fresh n).2.1,fun same => (kept.fresh n).1 (by rw [same]; exact alone.item)⟩⟩

omit [TimeCrate] in
/-- Adding to a collection under the id of an item that is no collection's. -/
theorem add_to_collection_missing (apart : ∀ coll ∈ lib.collections, coll.id ≠ id) (content_item_id : String) (sort_order : ℤ) :
    add_to_collection content_item_id id sort_order lib = .error (.storage (.NotFound "collection" id)) lib := by
  have missing : lib.get_collection id = .error (.NotFound "collection" id) := by
    have none_here : lib.collections.find? (fun coll => coll.id = id) = none :=
      List.find?_eq_none.mpr (fun coll held => by simpa using apart coll held)
    rw [get_collection,none_here]
  simp only [add_to_collection,work_bind,Library.ask,missing]

/-- Counting the items of a collection stops the program, or adding to it fails. -/
theorem collect_outcome (apart : ∀ coll ∈ lib.collections, coll.id ≠ id) (coll : Library.Collection) :
    ∃ failure, (do
      let held ← list_collection_items coll.id
      let pos : ℤ := if held.length < 2 ^ 31 then held.length else 0
      add_to_collection coll.id id pos) lib = .error failure lib ∧
      (failure = .panic ↔ ∃ row ∈ lib.collection_rows coll.id, Library.row_to_content_item row = none) := by
  rw [← read_all]
  simp only [work_bind,list_collection_items,Library.ask]
  cases (lib.collection_rows coll.id).mapM Library.row_to_content_item with
  | none => exact ⟨.panic,rfl,by simp⟩
  | some held => exact ⟨_,add_to_collection_missing apart _ _,by simp⟩

/-- An action that adds to a collection fails; it stops the program iff the collection is there
    and has an item that does not read. -/
theorem apply_collection_outcome (kept : Kept lib) (alone : Alone id lib) (name : String) (rest : List RuleAction) :
    ∃ failure t, apply_rule_action id (.AddToCollection name) lib = .error failure t ∧
      (failure = .panic ↔ lib.Blocked (.AddToCollection name :: rest)) := by
  have blocked : lib.Blocked (.AddToCollection name :: rest) ↔
      ∃ coll, lib.get_collection_by_name name = some coll ∧ ∃ row ∈ lib.collection_rows coll.id, Library.row_to_content_item row = none := by
    simp [Blocked,List.findSome?_cons,RuleAction.collection]
  rw [blocked]
  have collects : apply_rule_action id (.AddToCollection name) lib = (get_or_create_collection name >>= fun coll => do
      let held ← list_collection_items coll.id
      let pos : ℤ := if held.length < 2 ^ 31 then held.length else 0
      add_to_collection coll.id id pos) lib := rfl
  rw [work_bind] at collects
  cases found : lib.get_collection_by_name name with
  | some coll =>
    have first : get_or_create_collection name lib = .ok coll lib := by simp only [get_or_create_collection,found]
    obtain ⟨failure,failed,panics⟩ := collect_outcome alone.apart coll
    exact ⟨failure,lib,by rw [collects,first]; exact failed,panics.trans (by simp)⟩
  | none =>
    -- the new collection is empty
    have touched := get_or_create_collection_touches id name lib
    cases made : get_or_create_collection name lib with
    | error failure t =>
      refine ⟨failure,t,by rw [collects,made],iff_of_false ?_ (by rintro ⟨coll,⟨⟩,-⟩)⟩
      rintro rfl
      simp only [get_or_create_collection,found,work_bind,new_v4,insert_collection,Library.run] at made
      split_ifs at made
      all_goals cases made
    | ok coll t =>
      rw [made] at touched
      change Touched id lib t at touched
      obtain ⟨failure,failed,panics⟩ := collect_outcome (touched.apart kept alone) coll
      refine ⟨failure,t,by rw [collects,made]; exact failed,panics.trans ?_⟩
      have key : coll.id = lib.uuids 0 := by
        simp only [get_or_create_collection,found,work_bind,new_v4,insert_collection,Library.run] at made
        split_ifs at made
        cases made
        rfl
      rw [touched.collection_rows kept alone,key,kept.empty]
      simp

/-- Executing a plan as the rules do: a failure is only a warning, unless a collection has an
    item that does not read. -/
theorem execute_outcome (kept : Kept lib) (alone : Alone id lib) (actions : List RuleAction) :
    ∃ t, (warn (execute id actions) lib = .ok () t ∧ ¬ lib.Blocked actions) ∨
      (warn (execute id actions) lib = .error .panic t ∧ lib.Blocked actions) := by
  induction actions generalizing lib with
  | nil =>
    refine ⟨lib,.inl ⟨rfl,?_⟩⟩
    rintro ⟨name,coll,first,-⟩
    cases first
  | cons action actions ih =>
    cases named : action.collection with
    | none =>
      have other : ∀ name, action ≠ .AddToCollection name := by
        rintro name rfl
        cases named
      obtain ⟨made,first,-,-⟩ := apply_rule_action_does (kept.ready alone) action other
      have touched := apply_rule_action_touches id action lib
      rw [first] at touched
      obtain ⟨t,ends⟩ := ih (touched.kept kept alone) (touched.alone kept alone)
      have later : warn (execute id (action :: actions)) lib = warn (execute id actions) made := by
        simp only [warn,work_catch,execute,work_bind,first]
      have same : made.Blocked actions ↔ lib.Blocked (action :: actions) := by
        refine (touched.blocked kept alone actions).trans ?_
        simp only [Blocked,List.findSome?_cons,named]
      rw [later,← same]
      exact ⟨t,ends⟩
    | some name =>
      obtain rfl : action = .AddToCollection name := by
        cases action <;> cases named
        rfl
      obtain ⟨failure,t,failed,panics⟩ := apply_collection_outcome kept alone name actions
      have ends : warn (execute id (.AddToCollection name :: actions)) lib = warn (throw failure) t := by
        simp only [warn,work_catch,execute,work_bind,failed]
        rfl
      cases failure with
      | storage e => exact ⟨t,.inl ⟨ends,fun blocked => by cases panics.mpr blocked⟩⟩
      | bail message => exact ⟨t,.inl ⟨ends,fun blocked => by cases panics.mpr blocked⟩⟩
      | panic => exact ⟨t,.inr ⟨ends,panics.mp rfl⟩⟩

/-! ### A new entry -/

section
variable {feed : Feed} {entry : ParsedEntry}

/-- The library with the item of a new entry and its link to the feed. -/
def with_entry (lib : Library) (feed : Feed) (entry : ParsedEntry) : Library :=
  let id := lib.uuids 0
  { insert_fts { lib with
      content_items := lib.content_items ++ [ItemRow.of (next_rowid (lib.content_items.map ItemRow.rowid)) (entry.item lib.now id)]
      uuids := fun n => lib.uuids (n + 1) } id entry.title entry.author entry.content with
    feed_item_meta := lib.feed_item_meta ++ [⟨id,feed.id,entry.guid,entry.summary⟩] }

theorem with_entry_items : (lib.with_entry feed entry).content_items =
    lib.content_items ++ [ItemRow.of (next_rowid (lib.content_items.map ItemRow.rowid)) (entry.item lib.now (lib.uuids 0))] := rfl

theorem with_entry_metas : (lib.with_entry feed entry).feed_item_meta =
    lib.feed_item_meta ++ [⟨lib.uuids 0,feed.id,entry.guid,entry.summary⟩] := rfl

theorem with_entry_has (id : String) : (lib.with_entry feed entry).has_item id = (lib.has_item id || decide (lib.uuids 0 = id)) := by
  simp [has_item,with_entry_items,ItemRow.of,ParsedEntry.item]

omit [TimeCrate] in
theorem holds_url_some (url : String) : lib.holds_url (some url) = true ↔ ∃ row ∈ lib.content_items, row.url = some url := by
  simp [holds_url]

omit [TimeCrate] in
/-- A feed that does not have an entry does not have its guid. -/
theorem guid_free (new : lib.is_dup feed.id entry = false) {m : FeedItemMeta} (held : m ∈ lib.feed_item_meta)
    (same_feed : m.feed_id = feed.id) (some_guid : entry.guid.isSome) : m.guid ≠ entry.guid := by
  obtain ⟨guid,carried⟩ := Option.isSome_iff_exists.mp some_guid
  simp only [is_dup,carried,feed_item_exists_by_guid] at new
  have other := List.any_eq_false.mp new m held
  rw [carried]
  simpa [same_feed] using other

theorem with_entry_kept (kept : Kept lib) (new : lib.is_dup feed.id entry = false) (free : lib.holds_url entry.url = false) :
    Kept (lib.with_entry feed entry) := by
  have unused : ∀ row ∈ lib.content_items, row.id ≠ lib.uuids 0 := by
    intro row held same
    exact (kept.fresh 0).1 (List.any_eq_true.mpr ⟨row,held,by simp [same]⟩)
  have free_url : ∀ row ∈ lib.content_items, row.url.isSome → row.url ≠ entry.url := by
    intro row held some_url same
    obtain ⟨url,carried⟩ := Option.isSome_iff_exists.mp some_url
    have taken : lib.holds_url (some url) = true := (holds_url_some url).mpr ⟨row,held,carried⟩
    rw [← carried,same,free] at taken
    cases taken
  have unlinked : ∀ m ∈ lib.feed_item_meta, m.content_item_id ≠ lib.uuids 0 :=
    fun m held same => (kept.fresh 0).1 (same ▸ kept.metas m held)
  refine ⟨?_,?_,?_,?_,?_,kept.tag_ids,?_,?_,?_,?_⟩
  · rw [with_entry_items,List.map_append,List.map_cons,List.map_nil,← List.concat_eq_append,List.nodup_concat]
    refine ⟨fun inside => ?_,kept.item_ids⟩
    obtain ⟨row,held,same⟩ := List.mem_map.mp inside
    exact unused row held same
  · intro a there b here some_url same
    rw [with_entry_items,List.mem_append,List.mem_singleton] at there here
    rcases there with there | rfl <;> rcases here with here | rfl
    · exact kept.urls a there b here some_url same
    · exact absurd same (free_url a there some_url)
    · exact absurd same.symm (free_url b here (by rwa [← same]))
    · rfl
  · rw [with_entry_metas,List.map_append,List.map_cons,List.map_nil,← List.concat_eq_append,List.nodup_concat]
    refine ⟨fun inside => ?_,kept.meta_ids⟩
    obtain ⟨m,held,same⟩ := List.mem_map.mp inside
    exact unlinked m held same
  · intro m there n here same_feed some_guid same
    rw [with_entry_metas,List.mem_append,List.mem_singleton] at there here
    rcases there with there | rfl <;> rcases here with here | rfl
    · exact kept.guids m there n here same_feed some_guid same
    · exact absurd same (guid_free new there same_feed (by rwa [same] at some_guid))
    · exact absurd same.symm (guid_free new here same_feed.symm some_guid)
    · rfl
  · intro m held
    rw [with_entry_metas,List.mem_append,List.mem_singleton] at held
    rw [with_entry_has,Bool.or_eq_true,decide_eq_true_eq]
    rcases held with old | rfl
    · exact .inl (kept.metas m old)
    · exact .inr rfl
  · intro edge held
    obtain ⟨item,tag⟩ := kept.edges edge held
    rw [with_entry_has,item]
    exact ⟨rfl,tag⟩
  · intro m held
    obtain ⟨item,coll⟩ := kept.members m held
    rw [with_entry_has,item]
    exact ⟨rfl,coll⟩
  · exact fun m n same => Nat.succ.inj (kept.once same)
  · intro n
    obtain ⟨item,tag,coll⟩ := kept.fresh (n + 1)
    refine ⟨?_,tag,coll⟩
    change ¬ (lib.with_entry feed entry).has_item (lib.uuids (n + 1))
    rw [with_entry_has,Bool.or_eq_true,decide_eq_true_eq]
    rintro (old | same)
    · exact item old
    · exact absurd (kept.once same) (Nat.succ_ne_zero n).symm

theorem with_entry_alone (kept : Kept lib) : Alone (lib.uuids 0) (lib.with_entry feed entry) where
  item := by
    rw [with_entry_has]
    simp
  apart coll held same := (kept.fresh 0).2.2 (List.mem_map.mpr ⟨coll,held,same⟩)
  lone m held same := (kept.fresh 0).1 (same ▸ (kept.members m held).1)

end

/-! ### The rules for a new item -/

end

end Library

section
variable [TimeCrate] [Unicode]

omit [TimeCrate] [Unicode] in
/-- The context with another id of its item. -/
def MatchContext.renamed (id : String) (ctx : MatchContext) : MatchContext := { ctx with item := { ctx.item with id := id } }

/-- No filter looks at the id of an item. -/
theorem planned_actions_renamed (id : String) (ctx : MatchContext) (rules : List ContentRule) :
    planned_actions (ctx.renamed id) rules = planned_actions ctx rules := by
  let rename (acc : MatchContext × List PlannedAction) : MatchContext × List PlannedAction := (acc.1.renamed id,acc.2)
  have filters (c : MatchContext) (filter : SmartFilter) : matches_filter (c.renamed id) filter = matches_filter c filter := by
    have each (p : FilterPredicate) : matches_predicate (c.renamed id) p = matches_predicate c p := by cases p <;> rfl
    rw [matches_filter,matches_filter,funext each]
  have sees (c : MatchContext) (action : RuleAction) : (c.renamed id).seen action = (c.seen action).renamed id := by
    cases action with
    | AddTag name =>
      exact (apply_ite (MatchContext.renamed id) (c.tags.any (fun held => Library.same_name held name) = true) c
        { c with tags := c.tags ++ [name] }).symm
    | SetStatus status => rfl
    | AddToCollection name => rfl
    | Mute => rfl
  have rule_by_rule (acc : MatchContext × List PlannedAction) (rule : ContentRule) :
      evaluate_rule (rename acc) rule = rename (evaluate_rule acc rule) := by
    unfold evaluate_rule
    cases SmartFilter.parse rule.filter_query with
    | error e => rfl
    | ok filter =>
      simp only [rename,filters]
      split
      · exact List.foldl_hom rename (fun x action => by simp only [rename,sees])
      · rfl
  have all := @List.foldl_hom _ _ _ rename _ _ (in_order rules) (ctx,[]) rule_by_rule
  rw [planned_actions,evaluate_rules,planned_actions,evaluate_rules]
  exact congrArg (fun acc => acc.2.map PlannedAction.action) all

namespace Library

section
variable {lib lib' : Library} {feed : Feed} {entry : ParsedEntry}

/-- What the enabled rules plan for the item of an entry. -/
def plan (lib : Library) (feed : Feed) (entry : ParsedEntry) : List RuleAction :=
  planned_actions ⟨entry.item lib.now (lib.uuids 0),[],some feed.title⟩ (lib.list_rules.filter (fun rule => rule.enabled))

/-- The rules for the item of an entry stop the program. -/
def Stuck (lib : Library) (feed : Feed) (entry : ParsedEntry) : Prop := lib.Blocked (lib.plan feed entry)

theorem plan_same (rules : lib'.content_rules = lib.content_rules) (now : lib'.now = lib.now) : lib'.plan feed entry = lib.plan feed entry := by
  unfold plan list_rules
  rw [rules,now]
  exact (planned_actions_renamed (lib'.uuids 0) ⟨entry.item lib.now (lib.uuids 0),[],some feed.title⟩ _)

omit [Unicode] in
/-- A new item has no tags. -/
theorem with_entry_untagged (kept : Kept lib) : (lib.with_entry feed entry).tags_for_item (lib.uuids 0) = [] := by
  have none_here : lib.tags.filter (fun tag => (lib.uuids 0,tag.id) ∈ lib.content_item_tags) = [] := by
    refine List.filter_eq_nil_iff.mpr (fun tag _ edge => ?_)
    exact (kept.fresh 0).1 (kept.edges _ (of_decide_eq_true edge)).1
  unfold tags_for_item
  change List.insertionSort _ (lib.tags.filter (fun tag => (lib.uuids 0,tag.id) ∈ lib.content_item_tags)) = []
  rw [none_here]
  rfl

omit [Unicode] in
/-- A new item is in no collection. -/
theorem with_entry_blocked (kept : Kept lib) (actions : List RuleAction) : (lib.with_entry feed entry).Blocked actions ↔ lib.Blocked actions := by
  have same (collection_id : String) : (lib.with_entry feed entry).collection_rows collection_id = lib.collection_rows collection_id := by
    unfold collection_rows
    rw [with_entry_items,List.filter_append]
    refine (congrArg _ (List.filter_eq_nil_iff.mpr ?_)).trans (List.append_nil _)
    intro row new held
    obtain rfl := List.mem_singleton.mp new
    obtain ⟨m,there,here⟩ := List.any_eq_true.mp held
    simp only [Bool.decide_and,Bool.and_eq_true,decide_eq_true_eq] at here
    have key : m.content_item_id = lib.uuids 0 := here.1
    exact (kept.fresh 0).1 (key ▸ (kept.members m there).1)
  unfold Blocked
  simp only [same]
  rfl

omit [TimeCrate] [Unicode] in
theorem warn_touches {id : String} {work : Work Unit} (touches : Relates (Touched id) work) : Relates (Touched id) (warn work) := by
  intro lib
  have touched := touches lib
  rw [warn,work_catch]
  cases ended : work lib with
  | ok a t => rwa [ended] at touched
  | error failure t =>
    rw [ended] at touched
    cases failure <;> exact touched

/-- An entry that the feed does not have: it is refused iff an item has its url; otherwise the
    item is there, and the program goes on unless its rules stop it. -/
theorem ingest_new (kept : Kept lib) (subscribed : feed ∈ lib.feeds) (new : lib.is_dup feed.id entry = false) :
    if lib.holds_url entry.url then ∃ t, ingest_entry feed entry lib = .error (.storage .Sqlite) t
    else ∃ t, Touched (lib.uuids 0) (lib.with_entry feed entry) t ∧
      ((ingest_entry feed entry lib = .ok true t ∧ ¬ lib.Stuck feed entry) ∨
        (ingest_entry feed entry lib = .error .panic t ∧ lib.Stuck feed entry)) := by
  have unused : lib.has_item (lib.uuids 0) = false := by simpa using (kept.fresh 0).1
  have draws : ingest_entry feed entry lib = (do
      insert_content_item (entry.item lib.now (lib.uuids 0))
      insert_feed_item_meta ⟨lib.uuids 0,feed.id,entry.guid,entry.summary⟩
      warn (apply_rules_to_item (entry.item lib.now (lib.uuids 0)) (some feed.title))
      return true) { lib with uuids := fun n => lib.uuids (n + 1) } := by
    rw [ingest_entry,work_bind,Library.ask,new]
    rfl
  rw [draws]
  split
  · next taken =>
    refine ⟨{ lib with uuids := fun n => lib.uuids (n + 1) },?_⟩
    simp only [work_bind,insert_content_item,Library.run]
    rw [if_pos (.inr taken)]
  · next free =>
    let made := insert_fts { lib with
      content_items := lib.content_items ++ [ItemRow.of (next_rowid (lib.content_items.map ItemRow.rowid)) (entry.item lib.now (lib.uuids 0))]
      uuids := fun n => lib.uuids (n + 1) } (lib.uuids 0) entry.title entry.author entry.content
    have first : insert_content_item (entry.item lib.now (lib.uuids 0)) { lib with uuids := fun n => lib.uuids (n + 1) } = .ok () made := by
      simp only [insert_content_item,work_bind,Library.run]
      rw [if_neg]
      · rfl
      · rintro (item | url)
        · exact absurd (unused.symm.trans item) Bool.false_ne_true
        · exact free url
    have alone : Alone (lib.uuids 0) (lib.with_entry feed entry) := with_entry_alone kept
    have second : insert_feed_item_meta ⟨lib.uuids 0,feed.id,entry.guid,entry.summary⟩ made = .ok () (lib.with_entry feed entry) := by
      have untaken : lib.feed_item_meta.any (fun other => other.content_item_id = lib.uuids 0 ||
          decide (entry.guid.isSome ∧ other.feed_id = feed.id ∧ other.guid = entry.guid)) = false := by
        refine List.any_eq_false.mpr (fun m held => ?_)
        rw [Bool.or_eq_true,decide_eq_true_eq,decide_eq_true_eq]
        rintro (key | ⟨some_guid,same_feed,same⟩)
        · exact (kept.fresh 0).1 (key ▸ kept.metas m held)
        · exact guid_free new held same_feed some_guid same
      refine run_ok.mpr (if_pos ⟨?_,alone.item,List.any_eq_true.mpr ⟨feed,subscribed,by simp⟩⟩)
      exact fun taken => Bool.false_ne_true (untaken.symm.trans taken)
    have rules : apply_rules_to_item (entry.item lib.now (lib.uuids 0)) (some feed.title) (lib.with_entry feed entry) =
        execute (lib.uuids 0) (lib.plan feed entry) (lib.with_entry feed entry) := by
      have untagged : (lib.with_entry feed entry).tags_for_item (lib.uuids 0) = [] := with_entry_untagged kept
      simp only [apply_rules_to_item,work_bind,Library.ask]
      change execute (lib.uuids 0) (planned_actions ⟨_,((lib.with_entry feed entry).tags_for_item (lib.uuids 0)).map Tag.name,_⟩ _) _ = _
      rw [untagged]
      rfl
    have ends : (do
        insert_content_item (entry.item lib.now (lib.uuids 0))
        insert_feed_item_meta ⟨lib.uuids 0,feed.id,entry.guid,entry.summary⟩
        warn (apply_rules_to_item (entry.item lib.now (lib.uuids 0)) (some feed.title))
        return true) { lib with uuids := fun n => lib.uuids (n + 1) } =
        (do
          warn (execute (lib.uuids 0) (lib.plan feed entry))
          return true) (lib.with_entry feed entry) := by
      rw [work_bind,first]
      simp only
      rw [work_bind,second]
      simp only
      have warned : warn (apply_rules_to_item (entry.item lib.now (lib.uuids 0)) (some feed.title)) (lib.with_entry feed entry) =
          warn (execute (lib.uuids 0) (lib.plan feed entry)) (lib.with_entry feed entry) := by
        rw [warn,work_catch,rules,warn,work_catch]
      rw [work_bind,warned,work_bind]
    rw [ends,work_bind]
    simp only [Bool.not_eq_true] at free
    have touched := warn_touches (execute_touches (lib.uuids 0) (lib.plan feed entry)) (lib.with_entry feed entry)
    obtain ⟨t,⟨ended,clear⟩ | ⟨ended,stuck⟩⟩ := execute_outcome (with_entry_kept kept new free) alone (lib.plan feed entry)
    · rw [ended] at touched ⊢
      rw [with_entry_blocked kept] at clear
      exact ⟨t,touched,.inl ⟨rfl,clear⟩⟩
    · rw [ended] at touched ⊢
      rw [with_entry_blocked kept] at stuck
      exact ⟨t,touched,.inr ⟨rfl,stuck⟩⟩

/-! ### A refresh -/

omit [TimeCrate] [Unicode] in
theorem Touched.any_item {id : String} (touched : Touched id lib lib') (p : String → Option String → Bool) :
    lib'.content_items.any (fun row => p row.id row.url) = lib.content_items.any (fun row => p row.id row.url) := by
  obtain ⟨change,rows,keeps⟩ := touched.rows
  rw [rows,List.any_map]
  congr 1
  funext row
  rw [Function.comp_apply,(keeps row).1,(keeps row).2.1]

omit [TimeCrate] [Unicode] in
/-- An entry is a duplicate of one of the entries that were taken. -/
def repeats (taken : List ParsedEntry) (entry : ParsedEntry) : Bool :=
  match entry.guid,entry.url with
  | some guid,_ => taken.any (fun e => e.guid = some guid)
  | none,some url => taken.any (fun e => e.url = some url)
  | none,none => false

omit [TimeCrate] [Unicode] in
theorem repeats_append (taken more : List ParsedEntry) (entry : ParsedEntry) :
    repeats (taken ++ more) entry = (repeats taken entry || repeats more entry) := by
  unfold repeats
  cases entry.guid <;> cases entry.url <;> simp

omit [Unicode] in
theorem entered_is_dup (kept : Kept lib) (touched : Touched (lib.uuids 0) (lib.with_entry feed entry) lib') (e : ParsedEntry) :
    lib'.is_dup feed.id e = (lib.is_dup feed.id e || repeats [entry] e) := by
  have by_guid (guid : String) : lib'.feed_item_exists_by_guid feed.id guid =
      (lib.feed_item_exists_by_guid feed.id guid || decide (entry.guid = some guid)) := by
    unfold feed_item_exists_by_guid
    rw [touched.metas,with_entry_metas,List.any_append]
    simp
  have by_url (url : String) : lib'.feed_item_exists_by_url feed.id url =
      (lib.feed_item_exists_by_url feed.id url || decide (entry.url = some url)) := by
    have items (id : String) : lib'.content_items.any (fun row => row.id = id ∧ row.url = some url) =
        (lib.content_items.any (fun row => row.id = id ∧ row.url = some url) || decide (lib.uuids 0 = id ∧ entry.url = some url)) := by
      rw [touched.any_item (fun x y => decide (x = id ∧ y = some url)),with_entry_items,List.any_append]
      simp [ItemRow.of,ParsedEntry.item]
    unfold feed_item_exists_by_url
    rw [touched.metas,with_entry_metas,List.any_append]
    simp only [items]
    congr 1
    · rw [Bool.eq_iff_iff,List.any_eq_true,List.any_eq_true]
      refine exists_congr (fun m => and_congr_right fun held => ?_)
      have apart : lib.uuids 0 ≠ m.content_item_id := fun same => (kept.fresh 0).1 (same ▸ kept.metas m held)
      simp [apart]
    · have unused : lib.content_items.any (fun row => row.id = lib.uuids 0 ∧ row.url = some url) = false := by
        refine List.any_eq_false.mpr (fun row held here => (kept.fresh 0).1 ?_)
        exact List.any_eq_true.mpr ⟨row,held,decide_eq_true (of_decide_eq_true here).1⟩
      rw [List.any_cons,unused]
      simp
  unfold is_dup repeats
  cases e.guid with
  | some guid => simp [by_guid]
  | none =>
    cases e.url with
    | some url => simp [by_url]
    | none => rfl

omit [Unicode] in
theorem entered_holds_url (touched : Touched (lib.uuids 0) (lib.with_entry feed entry) lib') (url : Option String) :
    lib'.holds_url url = (lib.holds_url url || (url.isSome && decide (entry.url = url))) := by
  unfold holds_url
  rw [touched.any_item (fun _ y => decide (y = url)),with_entry_items,List.any_append,Bool.and_or_distrib_left]
  simp [ItemRow.of,ParsedEntry.item]

theorem entered_stuck (kept : Kept lib) (new : lib.is_dup feed.id entry = false) (free : lib.holds_url entry.url = false)
    (touched : Touched (lib.uuids 0) (lib.with_entry feed entry) lib') (e : ParsedEntry) : lib'.Stuck feed e ↔ lib.Stuck feed e := by
  have rules : lib'.content_rules = lib.content_rules := by
    rw [touched.frame]
    rfl
  have now : lib'.now = lib.now := by
    rw [touched.frame]
    rfl
  unfold Stuck
  rw [plan_same rules now,touched.blocked (with_entry_kept kept new free) (with_entry_alone kept),with_entry_blocked kept]

omit [TimeCrate] [Unicode] in
/-- What was there of each item is there, and nothing else of it. -/
structure Untouched (lib lib' : Library) : Prop where
  rows : ∀ id, lib.has_item id → lib'.get_item_row id = lib.get_item_row id
  tags : lib.tags <+: lib'.tags
  edges : ∀ edge, lib.has_item edge.1 → (edge ∈ lib'.content_item_tags ↔ edge ∈ lib.content_item_tags)
  members : lib'.content_item_collections = lib.content_item_collections
  links : ∀ m, lib.has_item m.content_item_id → (m ∈ lib'.feed_item_meta ↔ m ∈ lib.feed_item_meta)
  bookmarks : lib'.bookmark_meta = lib.bookmark_meta
  highlights : lib'.highlight_meta = lib.highlight_meta
  notes : lib'.notes = lib.notes

omit [TimeCrate] [Unicode] in
theorem Untouched.refl (lib : Library) : Untouched lib lib :=
  ⟨fun _ _ => rfl,List.prefix_rfl,fun _ _ => Iff.rfl,rfl,fun _ _ => Iff.rfl,rfl,rfl,rfl⟩

omit [TimeCrate] [Unicode] in
theorem Untouched.has_item {id : String} (untouched : Untouched lib lib') (there : lib.has_item id) : lib'.has_item id := by
  rw [has_item_iff,untouched.rows id there]
  exact has_item_iff.mp there

omit [TimeCrate] [Unicode] in
theorem Untouched.trans {lib'' : Library} (one : Untouched lib lib') (two : Untouched lib' lib'') : Untouched lib lib'' where
  rows id there := (two.rows id (one.has_item there)).trans (one.rows id there)
  tags := one.tags.trans two.tags
  edges edge there := (two.edges edge (one.has_item there)).trans (one.edges edge there)
  members := two.members.trans one.members
  links m there := (two.links m (one.has_item there)).trans (one.links m there)
  bookmarks := two.bookmarks.trans one.bookmarks
  highlights := two.highlights.trans one.highlights
  notes := two.notes.trans one.notes

omit [Unicode] in
/-- A new item, with what its rules do, leaves the items that were there. -/
theorem entered_untouched (kept : Kept lib) (new : lib.is_dup feed.id entry = false) (free : lib.holds_url entry.url = false)
    (touched : Touched (lib.uuids 0) (lib.with_entry feed entry) lib') : Untouched lib lib' := by
  have other {id : String} (there : lib.has_item id) : id ≠ lib.uuids 0 := fun same => (kept.fresh 0).1 (same ▸ there)
  refine ⟨fun id there => ?_,?_,fun edge there => ⟨fun held => ?_,fun held => touched.edges edge held⟩,
    touched.same_members (with_entry_kept kept new free) (with_entry_alone kept),fun m there => ?_,?_,?_,?_⟩
  · obtain ⟨change,rows,keeps⟩ := touched.rows
    obtain ⟨row,found⟩ := has_item_iff.mp there
    have here := get_item_row_id found
    have same : (fun row : ItemRow => decide (row.id = id)) ∘ change = fun row => decide (row.id = id) := by
      funext row
      rw [Function.comp_apply,(keeps row).1]
    rw [found]
    unfold get_item_row at found ⊢
    rw [rows,List.find?_map,same,with_entry_items,List.find?_append,found,Option.some_or,Option.map_some,
      (keeps row).2.2 (here ▸ other there)]
  · obtain ⟨k,tags,collections,-,all_tags,-⟩ := touched.drawn
    exact ⟨tags,all_tags.symm⟩
  · rcases touched.new_edges edge held with old | ⟨here,-⟩
    · exact old
    · exact absurd here (other there)
  · rw [touched.metas,with_entry_metas,List.mem_append,List.mem_singleton]
    constructor
    · rintro (old | rfl)
      · exact old
      · exact absurd rfl (other there)
    · exact .inl
  · rw [touched.frame]
    rfl
  · rw [touched.frame]
    rfl
  · rw [touched.frame]
    rfl

omit [TimeCrate] [Unicode] in
/-- Some item is linked to the feed by the guid of an entry, or by its url where it carries none. -/
def Links (lib : Library) (feed_id : String) (entry : ParsedEntry) (row : ItemRow) : Prop :=
  ∃ m ∈ lib.feed_item_meta, m.content_item_id = row.id ∧ m.feed_id = feed_id ∧
    match entry.guid with
    | some guid => m.guid = some guid
    | none => row.url = entry.url ∧ entry.url.isSome

omit [TimeCrate] [Unicode] in
/-- Exactly one item of the feed stands for an entry. -/
def Represented (lib : Library) (feed_id : String) (entry : ParsedEntry) : Prop :=
  ∃! row, row ∈ lib.content_items ∧ Links lib feed_id entry row

omit [TimeCrate] [Unicode] in
/-- What the feed has, it has once. -/
theorem is_dup_represented (kept : Kept lib) (has : lib.is_dup feed.id entry = true) : Represented lib feed.id entry := by
  have one {row row' : ItemRow} (there : row ∈ lib.content_items) (there' : row' ∈ lib.content_items) (same : row'.id = row.id) :
      row' = row := List.inj_on_of_nodup_map kept.item_ids there' there same
  unfold is_dup at has
  unfold Represented Links
  cases carried : entry.guid with
  | some guid =>
    simp only [carried] at has
    obtain ⟨m,held,link⟩ := List.any_eq_true.mp has
    obtain ⟨same_feed,same⟩ := of_decide_eq_true link
    obtain ⟨row,there,key⟩ := List.any_eq_true.mp (kept.metas m held)
    have key : row.id = m.content_item_id := of_decide_eq_true key
    refine ⟨row,⟨there,m,held,key.symm,same_feed,same⟩,?_⟩
    rintro row' ⟨there',m',held',key',same_feed',same'⟩
    obtain rfl := kept.guids m held m' held' (same_feed.trans same_feed'.symm) (by simp [same]) (same.trans same'.symm)
    exact one there there' (key'.symm.trans key.symm)
  | none =>
    cases url : entry.url with
    | none => simp [carried,url] at has
    | some text =>
      simp only [carried,url] at has
      obtain ⟨m,held,link⟩ := List.any_eq_true.mp has
      obtain ⟨same_feed,inside⟩ := (Bool.and_eq_true _ _).mp link
      obtain ⟨row,there,here⟩ := List.any_eq_true.mp inside
      obtain ⟨key,same⟩ := of_decide_eq_true here
      refine ⟨row,⟨there,m,held,key.symm,of_decide_eq_true same_feed,same,rfl⟩,?_⟩
      rintro row' ⟨there',-,-,-,-,same',-⟩
      exact one there there' (kept.urls row' there' row there (by simp [same']) (same'.trans same.symm))

/-- No new entry has the url of an item that is there or of a new entry before it, and no rules
    for a new item meet a collection that cannot be read. -/
def Clear (lib : Library) (feed : Feed) (taken : List ParsedEntry) : List ParsedEntry → Prop
  | [] => True
  | entry :: rest =>
    if lib.is_dup feed.id entry || repeats taken entry then Clear lib feed taken rest
    else (lib.holds_url entry.url = false ∧ (entry.url.isSome → ∀ e ∈ taken, e.url ≠ entry.url) ∧ ¬ lib.Stuck feed entry) ∧
      Clear lib feed (taken ++ [entry]) rest

/-- A library in the middle of a refresh that has taken some new entries. -/
structure Ingesting (lib : Library) (feed : Feed) (taken : List ParsedEntry) (now : Library) : Prop where
  kept : Kept now
  feeds : now.feeds = lib.feeds
  is_dup : ∀ e, now.is_dup feed.id e = (lib.is_dup feed.id e || repeats taken e)
  holds_url : ∀ url, now.holds_url url = (lib.holds_url url || (url.isSome && taken.any (fun e => e.url = url)))
  stuck : ∀ e, now.Stuck feed e ↔ lib.Stuck feed e
  untouched : Untouched lib now

theorem Ingesting.start (kept : Kept lib) : Ingesting lib feed [] lib where
  kept := kept
  feeds := rfl
  is_dup e := by
    have nothing : repeats [] e = false := by
      unfold repeats
      cases e.guid <;> cases e.url <;> rfl
    rw [nothing,Bool.or_false]
  holds_url url := by simp
  stuck _ := Iff.rfl
  untouched := .refl lib

theorem Ingesting.next {taken : List ParsedEntry} {now : Library} (inside : Ingesting lib feed taken now)
    (new : now.is_dup feed.id entry = false) (free : now.holds_url entry.url = false)
    (touched : Touched (now.uuids 0) (now.with_entry feed entry) lib') : Ingesting lib feed (taken ++ [entry]) lib' where
  kept := touched.kept (with_entry_kept inside.kept new free) (with_entry_alone inside.kept)
  feeds := by
    rw [← inside.feeds,touched.frame]
    rfl
  is_dup e := by rw [entered_is_dup inside.kept touched,inside.is_dup,repeats_append,Bool.or_assoc]
  holds_url url := by
    rw [entered_holds_url touched,inside.holds_url,List.any_append,Bool.or_assoc,← Bool.and_or_distrib_left]
    simp
  stuck e := (entered_stuck inside.kept new free touched e).trans (inside.stuck e)
  untouched := inside.untouched.trans (entered_untouched inside.kept new free touched)

omit [TimeCrate] [Unicode] in
theorem repeats_self (carried : entry.guid.isSome ∨ entry.url.isSome) : repeats [entry] entry = true := by
  unfold repeats
  cases guid : entry.guid with
  | some guid' => simp [guid]
  | none =>
    cases url : entry.url with
    | some url' => simp [url]
    | none => simp [guid,url] at carried

/-- The entries of a refresh, from the middle of it: all are taken iff nothing is in their way,
    and then the feed has them. -/
theorem ingest_loop (subscribed : feed ∈ lib.feeds) {entries taken : List ParsedEntry} {now : Library}
    (inside : Ingesting lib feed taken now) (carried : ∀ entry ∈ entries, entry.guid.isSome ∨ entry.url.isSome) (count : ℕ) :
    ((∃ n lib', ingest_entries feed entries count now = .ok n lib') ↔ Clear lib feed taken entries) ∧
      ∀ n lib', ingest_entries feed entries count now = .ok n lib' → ∃ more, Ingesting lib feed (taken ++ more) lib' ∧
        ∀ entry ∈ entries, lib'.is_dup feed.id entry := by
  induction entries generalizing taken now count with
  | nil =>
    refine ⟨iff_of_true ⟨count,now,rfl⟩ trivial,?_⟩
    rintro n lib' ⟨⟩
    exact ⟨[],by rwa [List.append_nil],List.forall_mem_nil _⟩
  | cons entry rest ih =>
    have carried_rest : ∀ e ∈ rest, e.guid.isSome ∨ e.url.isSome := fun e later => carried e (.tail _ later)
    have known := inside.is_dup entry
    -- what is there after the entry is there at the end
    have stays {taken' more : List ParsedEntry} {t lib' : Library} (middle : Ingesting lib feed taken' t)
        (final : Ingesting lib feed (taken' ++ more) lib') (has : t.is_dup feed.id entry = true) : lib'.is_dup feed.id entry = true := by
      rw [middle.is_dup] at has
      rw [final.is_dup,repeats_append,← Bool.or_assoc,has,Bool.true_or]
    unfold Clear ingest_entries
    rw [work_bind,← known]
    cases dup : now.is_dup feed.id entry with
    | true =>
      have skipped : ingest_entry feed entry now = .ok false now := by
        simp only [ingest_entry,work_bind,Library.ask,dup]
        rfl
      obtain ⟨goes,final⟩ := ih inside carried_rest count
      simp only [skipped,Bool.false_eq_true,if_false,if_true]
      refine ⟨goes,fun n lib' ran => ?_⟩
      obtain ⟨more,done,has⟩ := final n lib' ran
      exact ⟨more,done,List.forall_mem_cons.mpr ⟨stays inside done dup,has⟩⟩
    | false =>
      have outcome := ingest_new inside.kept (by rw [inside.feeds]; exact subscribed) dup
      simp only [Bool.false_eq_true,if_false]
      have urls : now.holds_url entry.url = false ↔
          lib.holds_url entry.url = false ∧ (entry.url.isSome → ∀ e ∈ taken, e.url ≠ entry.url) := by
        rw [inside.holds_url]
        cases entry.url <;> simp [holds_url]
      cases free : now.holds_url entry.url with
      | true =>
        rw [if_pos free] at outcome
        obtain ⟨t,refused⟩ := outcome
        simp only [refused]
        refine ⟨iff_of_false ?_ ?_,?_⟩
        · rintro ⟨n,lib',⟨⟩⟩
        · rintro ⟨⟨none_has,none_before,-⟩,-⟩
          exact Bool.false_ne_true ((urls.mpr ⟨none_has,none_before⟩).symm.trans free)
        · rintro n lib' ⟨⟩
      | false =>
        rw [free,if_neg Bool.false_ne_true] at outcome
        obtain ⟨t,touched,⟨went,clear⟩ | ⟨stopped,stuck⟩⟩ := outcome
        · have middle := inside.next dup free touched
          obtain ⟨goes,final⟩ := ih middle carried_rest (count + 1)
          obtain ⟨none_has,none_before⟩ := urls.mp free
          rw [inside.stuck] at clear
          simp only [went,if_true]
          refine ⟨goes.trans (and_iff_right ⟨none_has,none_before,clear⟩).symm,fun n lib' ran => ?_⟩
          obtain ⟨more,done,has⟩ := final n lib' ran
          have here : t.is_dup feed.id entry = true := by
            rw [entered_is_dup inside.kept touched,repeats_self (carried entry (.head _)),Bool.or_true]
          refine ⟨entry :: more,by rwa [List.append_cons],List.forall_mem_cons.mpr ⟨stays middle done here,has⟩⟩
        · rw [inside.stuck] at stuck
          simp only [stopped]
          refine ⟨iff_of_false ?_ ?_,?_⟩
          · rintro ⟨n,lib',⟨⟩⟩
          · rintro ⟨⟨-,-,clear⟩,-⟩
            exact clear stuck
          · rintro n lib' ⟨⟩

/-- The refreshes go through one after the other; after each of them every entry of its list
    stands for exactly one item of the feed, and no item from before has changed. -/
def Ingested (lib : Library) : List (Feed × List ParsedEntry) → Prop
  | [] => True
  | (feed,entries) :: rest => ∃ n lib', ingest_entries feed entries 0 lib = .ok n lib' ∧
      (∀ entry ∈ entries, Represented lib' feed.id entry) ∧ Untouched lib lib' ∧ Ingested lib' rest

/-- Nothing is in the way of any refresh in the library that it starts from. -/
def AllClear (lib : Library) : List (Feed × List ParsedEntry) → Prop
  | [] => True
  | (feed,entries) :: rest => Clear lib feed [] entries ∧
      ∀ n lib', ingest_entries feed entries 0 lib = .ok n lib' → AllClear lib' rest

/-- Refreshes go through, with each entry taken once, iff nothing is in the way of any of them. -/
theorem refreshes_ingest {refreshes : List (Feed × List ParsedEntry)} (kept : Kept lib)
    (subscribed : ∀ refresh ∈ refreshes, refresh.1 ∈ lib.feeds)
    (carried : ∀ refresh ∈ refreshes, ∀ entry ∈ refresh.2, entry.guid.isSome ∨ entry.url.isSome) :
    Ingested lib refreshes ↔ AllClear lib refreshes := by
  induction refreshes generalizing lib with
  | nil => exact Iff.rfl
  | cons refresh rest ih =>
    obtain ⟨feed,entries⟩ := refresh
    have start : Ingesting lib feed [] lib := .start kept
    obtain ⟨goes,final⟩ := ingest_loop (subscribed _ (.head _)) start (carried _ (.head _)) 0
    have later {n : ℕ} {lib' : Library} (ran : ingest_entries feed entries 0 lib = .ok n lib') : Ingested lib' rest ↔ AllClear lib' rest := by
      obtain ⟨more,done,-⟩ := final n lib' ran
      refine ih done.kept (fun r held => ?_) (fun r held => carried r (.tail _ held))
      rw [done.feeds]
      exact subscribed r (.tail _ held)
    constructor
    · rintro ⟨n,lib',ran,-,-,rest_goes⟩
      refine ⟨goes.mp ⟨n,lib',ran⟩,fun n' t again => ?_⟩
      rw [ran] at again
      cases again
      exact (later ran).mp rest_goes
    · rintro ⟨clear,rest_clear⟩
      obtain ⟨n,lib',ran⟩ := goes.mpr clear
      obtain ⟨more,done,has⟩ := final n lib' ran
      exact ⟨n,lib',ran,fun entry held => is_dup_represented done.kept (has entry held),done.untouched,
        (later ran).mpr (rest_clear n lib' ran)⟩

end
end Library
end

namespace Library

/-! ### A saved link and a feed -/

section
attribute [local instance] plainTimes plainUnicode

def newsFeed : Feed := ⟨"feed","News","https://news.example/feed"⟩

/-- A library with a feed and one saved link. -/
def saved_link : Library :=
  { shelf [] with
    content_items := [⟨1,"saved",some "https://a.example/1","Saved",none,.Bookmark,.Inbox,none,none,none,"","",none⟩]
    feeds := [newsFeed] }

def postOne : ParsedEntry := ⟨some "1","One",some "https://b.example/1",none,none,none,none⟩
def postTwo : ParsedEntry := ⟨none,"Two",some "https://b.example/2",none,none,none,none⟩
def savedPost : ParsedEntry := ⟨some "3","Saved",some "https://a.example/1",none,none,none,none⟩

theorem saved_link_kept : Kept saved_link := by
  refine ⟨by decide,by decide,by decide,nofun,nofun,by decide,nofun,nofun,shelf_once [],fun n => ⟨?_,nofun,nofun⟩⟩
  intro there
  obtain ⟨row,held,same⟩ := List.any_eq_true.mp there
  obtain rfl := List.mem_singleton.mp held
  have lettered : 's' ∈ "saved".toList := by decide
  exact shelf_fresh [] n lettered (by decide) (of_decide_eq_true same).symm

theorem saved_link_start : Ingesting saved_link newsFeed [] saved_link := .start saved_link_kept

theorem saved_link_not_stuck (entry : ParsedEntry) : ¬ saved_link.Stuck newsFeed entry := by
  rintro ⟨name,coll,first,-⟩
  exact nomatch (first : (none : Option String) = some name)

theorem refreshes_ingest_twice : Ingested saved_link [(newsFeed,[postOne,postTwo]),(newsFeed,[postTwo,postOne])] := by
  have carried : ∀ refresh ∈ [(newsFeed,[postOne,postTwo]),(newsFeed,[postTwo,postOne])], ∀ entry ∈ refresh.2,
      entry.guid.isSome ∨ entry.url.isSome := by decide
  refine (refreshes_ingest saved_link_kept (by decide) carried).mpr ⟨?_,fun n lib' ran => ⟨?_,fun _ _ _ => trivial⟩⟩
  · exact ⟨⟨by decide,nofun,saved_link_not_stuck _⟩,⟨by decide,by decide,saved_link_not_stuck _⟩,trivial⟩
  · obtain ⟨more,-,has⟩ := (ingest_loop (by decide) saved_link_start (carried _ (.head _)) 0).2 n lib' ran
    simp only [Clear,has postTwo (.tail _ (.head _)),has postOne (.head _),Bool.true_or,if_true]

/-- An entry with the link that a bookmark has: the refresh fails. -/
theorem refresh_meets_bookmark : Kept saved_link ∧ newsFeed ∈ saved_link.feeds ∧ savedPost.guid.isSome ∧
    ¬ Ingested saved_link [(newsFeed,[savedPost])] := by
  refine ⟨saved_link_kept,by decide,rfl,?_⟩
  rintro ⟨n,lib',ran,-⟩
  have carried : ∀ entry ∈ [savedPost], entry.guid.isSome ∨ entry.url.isSome := by decide
  have clear := (ingest_loop (by decide) saved_link_start carried 0).1.mp ⟨n,lib',ran⟩
  exact absurd clear.1.1 (by decide)

end
end Library
end Pergamon
