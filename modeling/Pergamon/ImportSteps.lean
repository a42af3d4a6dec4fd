import Pergamon.Importers

/-!
What the statements of the importers do to the tables. Where the ids that are drawn are new, no insertion
fails: rows are added behind the others, and what a lookup has found it finds again (`Grown`). Tags and
collections that an item has already change nothing but the full-text index (`Still`).
-/
namespace Pergamon
open Fallible Library

namespace Library

/-! ### Tables that grow -/

/-- The ids in the tables of the library. -/
def ids (lib : Library) : List String :=
  lib.content_items.map ItemRow.id ++ lib.tags.map Tag.id ++ lib.collections.map Library.Collection.id ++
    lib.bookmark_meta.map BookmarkMeta.content_item_id ++ lib.highlight_meta.map HighlightMeta.content_item_id

/-- The ids that are drawn next are new, and all different. -/
structure Fresh (lib : Library) : Prop where
  once : Function.Injective lib.uuids
  new : ∀ n, lib.uuids n ∉ lib.ids

/-- Items have their ids, and no two of them share a url. -/
structure Indexed (lib : Library) : Prop where
  ids : (lib.content_items.map ItemRow.id).Nodup
  urls : (lib.content_items.filterMap ItemRow.url).Nodup

/-- Ids that are drawn stand in the tables, beside those that were there. -/
def Draws (lib lib' : Library) : Prop :=
  ∃ k, lib'.uuids = (fun n => lib.uuids (n + k)) ∧ ∀ id ∈ lib'.ids, id ∈ lib.ids ∨ ∃ n < k, id = lib.uuids n

/-- Tables that went on: rows were added behind the others. -/
structure Grown (lib lib' : Library) : Prop where
  items : lib.content_items <+: lib'.content_items
  tags : lib.tags <+: lib'.tags
  collections : lib.collections <+: lib'.collections
  edges : lib.content_item_tags ⊆ lib'.content_item_tags
  members : lib.content_item_collections ⊆ lib'.content_item_collections
  clock : lib'.now = lib.now
  indexed : lib.Indexed → lib'.Indexed
  draws : Draws lib lib'

/-- The tables are the same, but for the full-text index. -/
structure Still (lib lib' : Library) : Prop where
  frame : lib' = { lib with content_items_fts := lib'.content_items_fts, uuids := lib'.uuids }
  draws : ∃ k, lib'.uuids = fun n => lib.uuids (n + k)

section
variable {lib lib' lib'' : Library} {id : String}

theorem Draws.of_same_ids (k : ℕ) (uuids : lib'.uuids = fun n => lib.uuids (n + k)) (same : lib'.ids = lib.ids) : Draws lib lib' :=
  ⟨k,uuids,fun _ inside => .inl (same ▸ inside)⟩

theorem Draws.trans (one : Draws lib lib') (two : Draws lib' lib'') : Draws lib lib'' := by
  obtain ⟨k,uuids,drawn⟩ := one
  obtain ⟨k',uuids',drawn'⟩ := two
  refine ⟨k + k',?_,?_⟩
  · rw [uuids',uuids]
    funext n
    exact congrArg lib.uuids (by omega)
  · intro id inside
    rcases drawn' id inside with old | ⟨n,small,rfl⟩
    · rcases drawn id old with older | ⟨n,small,rfl⟩
      · exact .inl older
      · exact .inr ⟨n,by omega,rfl⟩
    · exact .inr ⟨n + k,by omega,by rw [uuids]⟩

theorem Fresh.draws (fresh : lib.Fresh) (draws : Draws lib lib') : lib'.Fresh := by
  obtain ⟨k,uuids,drawn⟩ := draws
  refine ⟨?_,?_⟩
  · rw [uuids]
    intro m n same
    have := fresh.once same
    omega
  · intro n inside
    rw [uuids] at inside
    rcases drawn _ inside with old | ⟨m,small,same⟩
    · exact fresh.new _ old
    · have := fresh.once same
      omega

theorem Grown.refl (lib : Library) : Grown lib lib :=
  ⟨List.prefix_rfl,List.prefix_rfl,List.prefix_rfl,fun _ there => there,fun _ there => there,rfl,id,.of_same_ids 0 rfl rfl⟩

theorem Grown.trans (one : Grown lib lib') (two : Grown lib' lib'') : Grown lib lib'' where
  items := one.items.trans two.items
  tags := one.tags.trans two.tags
  collections := one.collections.trans two.collections
  edges := List.Subset.trans one.edges two.edges
  members := List.Subset.trans one.members two.members
  clock := two.clock.trans one.clock
  indexed := two.indexed ∘ one.indexed
  draws := one.draws.trans two.draws

theorem Still.refl (lib : Library) : Still lib lib := ⟨rfl,0,rfl⟩

theorem Still.trans (one : Still lib lib') (two : Still lib' lib'') : Still lib lib'' := by
  obtain ⟨frame,k,uuids⟩ := one
  obtain ⟨frame',k',uuids'⟩ := two
  refine ⟨by rw [frame',frame],k + k',?_⟩
  rw [uuids',uuids]
  funext n
  exact congrArg lib.uuids (by omega)

theorem Still.grown (same : Still lib lib') : Grown lib lib' := by
  obtain ⟨frame,k,uuids⟩ := same
  have items : lib'.content_items = lib.content_items := by rw [frame]
  have tags : lib'.tags = lib.tags := by rw [frame]
  have collections : lib'.collections = lib.collections := by rw [frame]
  refine ⟨items ▸ List.prefix_rfl,tags ▸ List.prefix_rfl,collections ▸ List.prefix_rfl,?_,?_,by rw [frame],
    fun indexed => ⟨items ▸ indexed.ids,items ▸ indexed.urls⟩,.of_same_ids k uuids (by rw [frame]; rfl)⟩
  · rw [frame]
    exact fun _ there => there
  · rw [frame]
    exact fun _ there => there

/-- What a lookup finds in a table, it finds when rows were added. -/
theorem find_grown {α : Type} {l l' : List α} {p : α → Bool} {a : α} (grown : l <+: l') (found : l.find? p = some a) :
    l'.find? p = some a := by
  obtain ⟨more,rfl⟩ := grown
  rw [List.find?_append,found,Option.some_or]

theorem has_item_ids : lib.has_item id ↔ id ∈ lib.content_items.map ItemRow.id := by
  simp [has_item]

theorem Grown.has_item (grown : Grown lib lib') (there : lib.has_item id) : lib'.has_item id := by
  rw [has_item_ids] at there ⊢
  exact (grown.items.map ItemRow.id).subset there

end

/-! ### Labels -/

/-- What tags and collections on items write. -/
structure Labeled (lib lib' : Library) : Prop where
  frame : lib' = { lib with
    content_items_fts := lib'.content_items_fts
    tags := lib'.tags
    collections := lib'.collections
    content_item_tags := lib'.content_item_tags
    content_item_collections := lib'.content_item_collections
    uuids := lib'.uuids }
  grown : Grown lib lib'

/-- The item has the tag of a name. -/
def Tagged (lib : Library) (id name : String) : Prop :=
  ∃ tag, lib.tags.find? (fun tag => same_name tag.name name) = some tag ∧ (id,tag.id) ∈ lib.content_item_tags

/-- The item is in the collection of a name, unless items cannot be added to it. -/
def Shelved (lib : Library) (id name : String) : Prop :=
  ∃ coll, lib.get_collection_by_name name = some coll ∧ ∃ found, lib.get_collection coll.id = .ok found ∧
    (found.is_smart ∨ lib.in_collection id coll.id)

section
variable {lib lib' lib'' : Library} {id : String}

theorem Labeled.refl (lib : Library) : Labeled lib lib := ⟨rfl,.refl lib⟩

theorem Labeled.trans (one : Labeled lib lib') (two : Labeled lib' lib'') : Labeled lib lib'' :=
  ⟨by rw [two.frame,one.frame],one.grown.trans two.grown⟩

theorem Labeled.items (labeled : Labeled lib lib') : lib'.content_items = lib.content_items := by rw [labeled.frame]

theorem Tagged.grown {name : String} (tagged : lib.Tagged id name) (grown : Grown lib lib') : lib'.Tagged id name := by
  obtain ⟨tag,found,there⟩ := tagged
  exact ⟨tag,find_grown grown.tags found,grown.edges there⟩

theorem get_collection_ok {coll : Library.Collection} : lib.get_collection id = .ok coll ↔
    lib.collections.find? (fun coll => coll.id = id) = some coll := by
  unfold get_collection
  cases lib.collections.find? (fun coll => coll.id = id) <;> simp

theorem Shelved.grown {name : String} (shelved : lib.Shelved id name) (grown : Grown lib lib') : lib'.Shelved id name := by
  obtain ⟨coll,named,found,got,either⟩ := shelved
  refine ⟨coll,find_grown grown.collections named,found,?_,either.imp_right ?_⟩
  · rw [get_collection_ok] at got ⊢
    exact find_grown grown.collections got
  · rintro ⟨m,there,same⟩
    exact ⟨m,grown.members there,same⟩

theorem get_or_create_tag_does (fresh : lib.Fresh) (name : String) : Does (get_or_create_tag name) lib
    (fun tag lib' => Labeled lib lib' ∧ lib'.tags.find? (fun tag => same_name tag.name name) = some tag) (fun _ => False) := by
  have new : lib.uuids 0 ∉ lib.tags.map Tag.id := by
    intro inside
    refine fresh.new 0 ?_
    simp only [ids,List.mem_append]
    tauto
  obtain ⟨tag,made,got,first,wrote⟩ := get_or_create_tag_ok new name
  unfold Does
  rw [got]
  refine ⟨?_,first⟩
  rcases wrote with rfl | ⟨key,rfl⟩
  · exact ⟨rfl,List.prefix_rfl,List.prefix_rfl,List.prefix_rfl,fun _ there => there,fun _ there => there,rfl,fun indexed => ⟨indexed.ids,indexed.urls⟩,
      .of_same_ids 1 rfl rfl⟩
  · refine ⟨rfl,List.prefix_rfl,List.prefix_append _ _,List.prefix_rfl,fun _ there => there,fun _ there => there,rfl,
      fun indexed => ⟨indexed.ids,indexed.urls⟩,1,rfl,?_⟩
    intro x inside
    simp only [ids,List.map_append,List.mem_append,List.map_cons,List.map_nil,List.mem_singleton] at inside ⊢
    have drawn (same : x = tag.id) : ∃ n < 1, x = lib.uuids n := ⟨0,by omega,same.trans key⟩
    tauto

theorem tag_content_item_does {tag : Tag} {name : String} (item : lib.has_item id)
    (found : lib.tags.find? (fun tag => same_name tag.name name) = some tag) :
    Does (tag_content_item id tag.id) lib (fun _ lib' => Labeled lib lib' ∧ lib'.Tagged id name) (fun _ => False) := by
  obtain ⟨fts,edges,tagged,all⟩ := tag_content_item_ok item (List.mem_of_find?_eq_some found)
  unfold Does
  rw [tagged]
  exact ⟨⟨rfl,List.prefix_rfl,List.prefix_rfl,List.prefix_rfl,fun e there => (all e).mpr (.inl there),fun _ there => there,rfl,
    fun indexed => ⟨indexed.ids,indexed.urls⟩,.of_same_ids 0 rfl rfl⟩,tag,found,(all _).mpr (.inr rfl)⟩

/-- Tags are applied to an item that is there. -/
theorem apply_tags_does (fresh : lib.Fresh) (item : lib.has_item id) (names : List String) :
    Does (apply_tags id names) lib (fun _ lib' => Labeled lib lib' ∧ ∀ name ∈ names, lib'.Tagged id name) (fun _ => False) := by
  induction names generalizing lib with
  | nil => exact .pure ⟨.refl lib,nofun⟩
  | cons name rest ih =>
    refine (get_or_create_tag_does fresh name).bind ?_
    rintro tag made ⟨labeled,found⟩
    refine (tag_content_item_does (labeled.grown.has_item item) found).bind ?_
    rintro _ marked ⟨labeled',tagged⟩
    have so_far := labeled.trans labeled'
    refine (ih (fresh.draws so_far.grown.draws) (so_far.grown.has_item item)).bind ?_
    rintro names last ⟨more,all⟩
    refine .pure ⟨so_far.trans more,?_⟩
    intro other inside
    rcases List.mem_cons.mp inside with rfl | later
    · exact tagged.grown more.grown
    · exact all other later

/-- Tags that an item has are applied again. -/
theorem apply_tags_same (names : List String) (tagged : ∀ name ∈ names, lib.Tagged id name) :
    Does (apply_tags id names) lib (fun _ lib' => Still lib lib') (Still lib) := by
  induction names generalizing lib with
  | nil => exact .pure (.refl lib)
  | cons name rest ih =>
    obtain ⟨tag,found,edge⟩ := tagged name List.mem_cons_self
    have named : same_name tag.name name := by simpa using List.find?_some found
    have taken : lib.tags.any (fun tag => tag.id = lib.uuids 0 || same_name tag.name name) = true :=
      List.any_eq_true.mpr ⟨tag,List.mem_of_find?_eq_some found,by simp [named]⟩
    have got : get_or_create_tag name lib = .ok tag { lib with uuids := fun n => lib.uuids (n + 1) } := by
      simp only [get_or_create_tag,new_v4,run,ask,work_bind,if_pos taken,found]
    have drawn : Still lib { lib with uuids := fun n => lib.uuids (n + 1) } := ⟨rfl,1,rfl⟩
    have marks : Does (tag_content_item id tag.id) { lib with uuids := fun n => lib.uuids (n + 1) } (fun _ => Still lib) (Still lib) := by
      unfold Does
      simp only [tag_content_item,run,work_bind,insert_item_tag,if_pos edge,refresh_fts_tags]
      cases get_item_row { lib with uuids := fun n => lib.uuids (n + 1) } id with
      | none => exact drawn
      | some row => exact ⟨rfl,1,rfl⟩
    have first : Does (get_or_create_tag name) lib (fun got lib' => got = tag ∧ lib' = { lib with uuids := fun n => lib.uuids (n + 1) })
        (Still lib) := by
      unfold Does
      rw [got]
      exact ⟨rfl,rfl⟩
    refine first.bind ?_
    rintro _ _ ⟨rfl,rfl⟩
    refine marks.bind ?_
    intro _ marked same
    have rest_tagged : ∀ name ∈ rest, marked.Tagged id name := fun name inside =>
      (tagged name (List.mem_cons_of_mem _ inside)).grown same.grown
    refine ((ih rest_tagged).mono (fun _ _ more => same.trans more) (fun _ more => same.trans more)).bind ?_
    intro names last more
    exact .pure more

theorem get_or_create_collection_does (fresh : lib.Fresh) (name : String) : Does (get_or_create_collection name) lib
    (fun coll lib' => Labeled lib lib' ∧ lib'.get_collection_by_name name = some coll) (fun _ => False) := by
  cases found : lib.get_collection_by_name name with
  | some coll =>
    unfold Does get_or_create_collection
    simp only [found]
    exact ⟨.refl lib,trivial⟩
  | none =>
    have new : lib.collections.all (fun c => c.id ≠ lib.uuids 0) = true := by
      rw [List.all_eq_true]
      intro c inside
      have apart : c.id ≠ lib.uuids 0 := by
        intro same
        refine fresh.new 0 ?_
        have there : lib.uuids 0 ∈ lib.collections.map Library.Collection.id := same ▸ List.mem_map_of_mem inside
        simp only [ids,List.mem_append]
        tauto
      simp [apart]
    unfold Does get_or_create_collection
    simp only [found,work_bind,new_v4,insert_collection,run,Option.isSome_none,new,Option.all_none,and_self,if_true]
    refine ⟨⟨rfl,List.prefix_rfl,List.prefix_rfl,List.prefix_append _ _,fun _ there => there,fun _ there => there,rfl,
      fun indexed => ⟨indexed.ids,indexed.urls⟩,1,rfl,?_⟩,?_⟩
    · intro x inside
      simp only [ids,List.map_append,List.mem_append,List.map_cons,List.map_nil,List.mem_singleton] at inside ⊢
      have drawn (same : x = lib.uuids 0) : ∃ n < 1, x = lib.uuids n := ⟨0,by omega,same⟩
      tauto
    · unfold get_collection_by_name at found ⊢
      rw [List.find?_append,found]
      simp [same_name_refl]

/-- A collection that is there is found under its id, or another with this id. -/
theorem get_collection_total {coll : Library.Collection} (there : coll ∈ lib.collections) :
    ∃ found, lib.get_collection coll.id = .ok found := by
  obtain ⟨found,first⟩ := Option.isSome_iff_exists.mp (List.find?_isSome (p := fun c => decide (c.id = coll.id)) |>.mpr ⟨coll,there,by simp⟩)
  exact ⟨found,get_collection_ok.mpr first⟩

/-- An item that is there is put into a collection. -/
theorem apply_collection_does (fresh : lib.Fresh) (item : lib.has_item id) (name : String) :
    Does (apply_collection id name) lib (fun _ lib' => Labeled lib lib' ∧ lib'.Shelved id name) (fun _ => False) := by
  refine (get_or_create_collection_does fresh name).bind ?_
  rintro coll made ⟨labeled,named⟩
  have item' := labeled.grown.has_item item
  obtain ⟨found,got⟩ := get_collection_total (List.mem_of_find?_eq_some named)
  unfold Does
  simp only [warn,work_catch,add_to_collection,work_bind,ask,got]
  by_cases smart : found.is_smart = true
  · simp only [if_pos smart]
    exact ⟨labeled,coll,named,found,got,.inl smart⟩
  · simp only [if_neg smart,run]
    by_cases already : made.content_item_collections.any (fun m => m.content_item_id = id ∧ m.collection_id = coll.id) = true
    · simp only [if_pos already]
      refine ⟨labeled,coll,named,found,got,.inr ?_⟩
      obtain ⟨m,there,same⟩ := List.any_eq_true.mp already
      exact ⟨m,there,by simpa using same⟩
    · simp only [if_neg already,item',if_true]
      refine ⟨labeled.trans ⟨rfl,List.prefix_rfl,List.prefix_rfl,List.prefix_rfl,fun _ there => there,
        fun _ there => List.mem_append_left _ there,rfl,fun indexed => ⟨indexed.ids,indexed.urls⟩,.of_same_ids 0 rfl rfl⟩,coll,named,found,got,.inr ?_⟩
      exact ⟨_,List.mem_append_right _ List.mem_cons_self,rfl,rfl⟩

/-- An item that is in a collection is put there again. -/
theorem apply_collection_same {name : String} (shelved : lib.Shelved id name) :
    Does (apply_collection id name) lib (fun _ lib' => Still lib lib') (Still lib) := by
  obtain ⟨coll,named,found,got,either⟩ := shelved
  unfold Does
  simp only [apply_collection,get_or_create_collection,work_bind,named,warn,work_catch,add_to_collection,ask,got]
  by_cases smart : found.is_smart = true
  · simp only [if_pos smart]
    exact .refl lib
  · obtain ⟨m,there,same⟩ := either.resolve_left smart
    have already : lib.content_item_collections.any (fun m => m.content_item_id = id ∧ m.collection_id = coll.id) = true :=
      List.any_eq_true.mpr ⟨m,there,by simpa using same⟩
    simp only [if_neg smart,run,if_pos already]
    exact .refl lib

end

/-! ### Items -/

section
variable [TimeCrate] {lib lib' : Library}

/-- Whether an item has a url, and whether it can be read. -/
def held (lib : Library) (url : String) : Option Bool := (lib.item_row url).map (fun row => (row_to_content_item row).isSome)

/-- An item that is stored now can be read. -/
def stored_reads (now : OffsetDateTime) (created : Option OffsetDateTime) : Bool :=
  (TimeCrate.parse_rfc3339 (fmt_time (created.getD now))).isSome && (TimeCrate.parse_rfc3339 (fmt_time now)).isSome

omit [TimeCrate] in
theorem item_row_mem {url : String} {row : ItemRow} (found : lib.item_row url = some row) :
    row ∈ lib.content_items ∧ row.url = some url := by
  refine ⟨List.mem_of_find?_eq_some found,?_⟩
  simpa using List.find?_some found

omit [TimeCrate] in
theorem item_row_has {url : String} {row : ItemRow} (found : lib.item_row url = some row) : lib.has_item row.id :=
  has_item_ids.mpr (List.mem_map_of_mem (item_row_mem found).1)

omit [TimeCrate] in
theorem item_row_none {url : String} : lib.item_row url = none ↔ lib.holds_url (some url) = false := by
  rw [item_row,List.find?_eq_none,holds_url,Option.isSome_some,Bool.true_and,List.any_eq_false]

omit [TimeCrate] in
theorem Grown.item_row (grown : Grown lib lib') {url : String} {row : ItemRow} (found : lib.item_row url = some row) :
    lib'.item_row url = some row := find_grown grown.items found

theorem row_to_content_item_id {row : ItemRow} {item : Library.ContentItem} (reads : row_to_content_item row = some item) :
    item.id = row.id := by
  simp only [row_to_content_item,Option.bind_eq_bind,Option.bind_eq_some_iff] at reads
  obtain ⟨_,_,_,_,_,_,_,_,⟨⟩⟩ := reads
  rfl

theorem get_by_url_none {url : String} (missing : lib.item_row url = none) : get_content_item_by_url url lib = .ok none lib := by
  unfold get_content_item_by_url
  rw [get_bind]
  simp only [missing]
  rfl

theorem get_by_url_some {url : String} {row : ItemRow} {item : Library.ContentItem} (found : lib.item_row url = some row)
    (reads : row_to_content_item row = some item) : get_content_item_by_url url lib = .ok (some item) lib := by
  unfold get_content_item_by_url
  rw [get_bind]
  simp only [found,reads]
  rfl

theorem get_by_url_panic {url : String} {row : ItemRow} (found : lib.item_row url = some row)
    (unread : row_to_content_item row = none) : get_content_item_by_url url lib = .error .panic lib := by
  unfold get_content_item_by_url
  rw [get_bind]
  simp only [found,unread]
  rfl

/-- The library when an id was drawn. -/
def after_draw (lib : Library) : Library := { lib with uuids := fun n => lib.uuids (n + 1) }

omit [TimeCrate] in
theorem new_v4_eq : new_v4 lib = .ok (lib.uuids 0) lib.after_draw := rfl

/-- The library with a new item. -/
def with_item (lib : Library) (item : Library.ContentItem) : Library :=
  { lib with content_items := lib.content_items ++ [ItemRow.of (next_rowid (lib.content_items.map ItemRow.rowid)) item] }.insert_fts
    item.id item.title item.author item.content_text

theorem insert_content_item_new (lib : Library) {item : Library.ContentItem} {url : String} (named : item.url = some url) (new : item.id ∉ lib.ids)
    (missing : lib.item_row url = none) : insert_content_item item lib = .ok () (lib.with_item item) := by
  have unused : ¬ lib.has_item item.id = true := by
    rw [has_item_ids]
    intro inside
    refine new ?_
    simp only [ids,List.mem_append]
    tauto
  have free : lib.holds_url item.url = false := by
    rw [named]
    exact item_row_none.mp missing
  simp only [insert_content_item,work_bind,run,unused,free,Bool.false_eq_true,or_self,if_false]
  rfl

theorem with_item_row (lib : Library) (item : Library.ContentItem) {url : String} (named : item.url = some url) (missing : lib.item_row url = none) :
    (lib.with_item item).item_row url = some (ItemRow.of (next_rowid (lib.content_items.map ItemRow.rowid)) item) := by
  unfold item_row at missing ⊢
  change (lib.content_items ++ [_]).find? _ = _
  rw [List.find?_append,missing]
  simp [ItemRow.of,named]

/-- A stored item can be read iff its times can. -/
theorem stored_reads_iff (rowid : ℕ) (now : OffsetDateTime) (created : Option OffsetDateTime) (item : Library.ContentItem)
    (published : item.published_at = none) (read : item.read_at = none) (created_at : item.created_at = created.getD now)
    (updated_at : item.updated_at = now) : (row_to_content_item (ItemRow.of rowid item)).isSome = stored_reads now created := by
  simp only [row_to_content_item,ItemRow.of,published,read,created_at,updated_at,stored_reads,Option.map_none,parse_time_opt]
  cases TimeCrate.parse_rfc3339 (fmt_time (created.getD now)) <;> cases TimeCrate.parse_rfc3339 (fmt_time now) <;> rfl

/-- What is held after an item was added. -/
theorem held_append (row : ItemRow) {url : String} (items : lib'.content_items = lib.content_items ++ [row]) (named : row.url = some url)
    (missing : lib.item_row url = none) :
    lib'.held = Function.update lib.held url (some (row_to_content_item row).isSome) := by
  funext other
  have rows : lib'.item_row other = (lib.item_row other).or (if row.url = some other then some row else none) := by
    simp only [item_row,items,List.find?_append,List.find?_cons,List.find?_nil]
    congr 1
    by_cases same : row.url = some other <;> simp [same]
  rw [Function.update_apply,held,held,rows]
  by_cases same : other = url
  · subst same
    simp [missing,named]
  · have apart : row.url ≠ some other := by
      rw [named]
      exact fun equal => same (Option.some.inj equal).symm
    rw [if_neg apart,if_neg same,Option.or_none]

omit [TimeCrate] in
theorem indexed_append (row : ItemRow) {url : String} (items : lib'.content_items = lib.content_items ++ [row]) (named : row.url = some url)
    (new : row.id ∉ lib.ids) (missing : lib.item_row url = none) (indexed : lib.Indexed) : lib'.Indexed := by
  constructor
  · rw [items,List.map_append,List.map_cons,List.map_nil,← List.concat_eq_append,List.nodup_concat]
    refine ⟨fun inside => new ?_,indexed.ids⟩
    simp only [Library.ids,List.mem_append]
    tauto
  · rw [items,List.filterMap_append,List.filterMap_cons_some named,List.filterMap_nil,← List.concat_eq_append,List.nodup_concat]
    refine ⟨?_,indexed.urls⟩
    intro inside
    obtain ⟨other,there,same⟩ := List.mem_filterMap.mp inside
    exact List.find?_eq_none.mp missing other there (by simpa using same)

/-- A new item under an id that is drawn. -/
theorem with_item_grown (fresh : lib.Fresh) {item : Library.ContentItem} {url : String} (named : item.url = some url)
    (drawn : item.id = lib.uuids 0) (missing : lib.item_row url = none) : Grown lib (lib.after_draw.with_item item) := by
  refine ⟨List.prefix_append _ _,List.prefix_rfl,List.prefix_rfl,fun _ there => there,fun _ there => there,rfl,
    indexed_append (ItemRow.of _ item) rfl named (by change item.id ∉ _; rw [drawn]; exact fresh.new 0) missing,1,rfl,?_⟩
  intro x inside
  have ids : (lib.after_draw.with_item item).ids = (lib.content_items.map ItemRow.id ++ [lib.uuids 0]) ++ lib.tags.map Tag.id ++
      lib.collections.map Library.Collection.id ++ lib.bookmark_meta.map BookmarkMeta.content_item_id ++
      lib.highlight_meta.map HighlightMeta.content_item_id := by
    simp [Library.ids,after_draw,with_item,insert_fts,ItemRow.of,drawn]
  have first (same : x = lib.uuids 0) : ∃ n < 1, x = lib.uuids n := ⟨0,by omega,same⟩
  rw [ids] at inside
  simp only [Library.ids,List.mem_append,List.mem_singleton] at inside ⊢
  tauto

theorem held_same (items : lib'.content_items = lib.content_items) : lib'.held = lib.held := by
  funext url
  rw [held,held,item_row,item_row,items]

/-! ### Bookmarks -/

section
variable [UrlCrate] [Unicode]

/-- A bookmark that is there with its tags and its collection, or is there and cannot be read. -/
def Settled (lib : Library) (b : Bookmark) : Prop :=
  ∃ row, lib.item_row b.key = some row ∧ (row_to_content_item row = none ∨
    (∀ name ∈ b.tags, lib.Tagged row.id name) ∧ ∀ folder ∈ b.folder, lib.Shelved row.id folder)

theorem Settled.grown {b : Bookmark} (settled : lib.Settled b) (grown : Grown lib lib') : lib'.Settled b := by
  obtain ⟨row,found,either⟩ := settled
  refine ⟨row,grown.item_row found,either.imp_right ?_⟩
  rintro ⟨tagged,shelved⟩
  exact ⟨fun name inside => (tagged name inside).grown grown,fun folder inside => (shelved folder inside).grown grown⟩

omit [TimeCrate] [UrlCrate] [Unicode] in
theorem shelve_does (fresh : lib.Fresh) {id : String} (item : lib.has_item id) (b : Bookmark) : Does (b.shelve id) lib
    (fun _ lib' => Labeled lib lib' ∧ (∀ name ∈ b.tags, lib'.Tagged id name) ∧ ∀ folder ∈ b.folder, lib'.Shelved id folder)
    (fun _ => False) := by
  refine (apply_tags_does fresh item b.tags).bind ?_
  rintro _ marked ⟨labeled,tagged⟩
  cases folder : b.folder with
  | none => exact .pure ⟨labeled,tagged,nofun⟩
  | some name =>
    refine (apply_collection_does (fresh.draws labeled.grown.draws) (labeled.grown.has_item item) name).mono ?_ (fun _ never => never)
    rintro _ last ⟨more,shelved⟩
    refine ⟨labeled.trans more,fun name inside => (tagged name inside).grown more.grown,?_⟩
    rintro _ ⟨⟩
    exact shelved

omit [TimeCrate] [UrlCrate] [Unicode] in
theorem shelve_same {id : String} {b : Bookmark} (tagged : ∀ name ∈ b.tags, lib.Tagged id name)
    (shelved : ∀ folder ∈ b.folder, lib.Shelved id folder) : Does (b.shelve id) lib (fun _ lib' => Still lib lib') (Still lib) := by
  refine (apply_tags_same b.tags tagged).bind ?_
  intro _ marked same
  cases folder : b.folder with
  | none => exact .pure same
  | some name =>
    exact (apply_collection_same ((shelved name folder).grown same.grown)).mono (fun _ _ more => same.trans more)
      (fun _ more => same.trans more)

/-- The library with a new bookmark. -/
def with_bookmark (lib : Library) (b : Bookmark) : Library :=
  { lib.after_draw.with_item (b.item lib.now (lib.uuids 0)) with
    bookmark_meta := lib.bookmark_meta ++
      [⟨lib.uuids 0,some b.url,some b.saved_from,b.thumbnail_url,b.description,none,none⟩] }

theorem with_bookmark_grown (fresh : lib.Fresh) {b : Bookmark} (missing : lib.item_row b.key = none) :
    Grown lib (lib.with_bookmark b) := by
  refine ⟨List.prefix_append _ _,List.prefix_rfl,List.prefix_rfl,fun _ there => there,fun _ there => there,rfl,
    indexed_append _ rfl rfl (fresh.new 0) missing,1,rfl,?_⟩
  intro x inside
  have ids : (lib.with_bookmark b).ids = (lib.content_items.map ItemRow.id ++ [lib.uuids 0]) ++ lib.tags.map Tag.id ++
      lib.collections.map Library.Collection.id ++ (lib.bookmark_meta.map BookmarkMeta.content_item_id ++ [lib.uuids 0]) ++
      lib.highlight_meta.map HighlightMeta.content_item_id := by
    simp [Library.ids,with_bookmark,after_draw,with_item,insert_fts,ItemRow.of,Bookmark.item]
  have drawn (same : x = lib.uuids 0) : ∃ n < 1, x = lib.uuids n := ⟨0,by omega,same⟩
  rw [ids] at inside
  simp only [Library.ids,List.mem_append,List.mem_singleton] at inside ⊢
  tauto

theorem insert_bookmark_meta_new (fresh : lib.Fresh) (b : Bookmark) :
    insert_bookmark_meta ⟨lib.uuids 0,some b.url,some b.saved_from,b.thumbnail_url,b.description,none,none⟩
      (lib.after_draw.with_item (b.item lib.now (lib.uuids 0))) = .ok () (lib.with_bookmark b) := by
  have unused : lib.bookmark_meta.any (fun m => m.content_item_id = lib.uuids 0) = false := by
    rw [List.any_eq_false]
    intro m inside same
    refine fresh.new 0 ?_
    have there : lib.uuids 0 ∈ lib.bookmark_meta.map BookmarkMeta.content_item_id := by
      simp only [decide_eq_true_eq] at same
      exact same ▸ List.mem_map_of_mem inside
    simp only [ids,List.mem_append]
    tauto
  have item : (lib.after_draw.with_item (b.item lib.now (lib.uuids 0))).has_item (lib.uuids 0) = true := by
    simp [has_item,with_item,insert_fts,ItemRow.of,Bookmark.item]
  refine run_ok.mpr ((if_neg ?_).trans rfl)
  rintro (taken | missing)
  · exact Bool.false_ne_true (unused.symm.trans taken)
  · exact missing item

/-- What the import of a bookmark does. -/
theorem import_bookmark_does (fresh : lib.Fresh) (stats : BookmarkImportStats) (b : Bookmark) : Does (import_bookmark false stats b) lib
    (fun stats' lib' => Grown lib lib' ∧ lib'.Settled b ∧
      ((lib.held b.key = some true ∧ lib'.held = lib.held ∧ stats' = { stats with existing := stats.existing + 1 }) ∨
        lib.held b.key = none ∧ lib'.held = Function.update lib.held b.key (some (stored_reads lib.now b.created)) ∧
          stats' = { stats with created := stats.created + 1 }))
    (fun lib' => lib' = lib ∧ lib.held b.key = some false) := by
  cases found : lib.item_row b.key with
  | none =>
    have grown := with_bookmark_grown fresh found
    have row : (lib.with_bookmark b).item_row b.key = some (ItemRow.of (next_rowid (lib.content_items.map ItemRow.rowid))
        (b.item lib.now (lib.uuids 0))) := with_item_row lib.after_draw _ rfl found
    have item : (lib.with_bookmark b).has_item (lib.uuids 0) := item_row_has row
    have steps : import_bookmark false stats b lib =
        (b.shelve (lib.uuids 0) >>= fun _ => pure { stats with created := stats.created + 1 }) (lib.with_bookmark b) := by
      rw [import_bookmark,work_bind,get_by_url_none found]
      dsimp only
      rw [if_neg Bool.false_ne_true,get_bind,work_bind,new_v4_eq]
      dsimp only
      rw [work_bind,insert_content_item_new lib.after_draw rfl (fresh.new 0) found]
      dsimp only
      rw [work_bind,insert_bookmark_meta_new fresh b]
    refine .of_eq steps (((shelve_does (fresh.draws grown.draws) item b).mono (fun _ _ done => done) (fun _ => False.elim)).bind ?_)
    rintro _ last ⟨labeled,tagged,shelved⟩
    refine .pure ⟨grown.trans labeled.grown,⟨_,labeled.grown.item_row row,.inr ⟨tagged,shelved⟩⟩,.inr ⟨by simp [held,found],?_,rfl⟩⟩
    rw [held_same labeled.items,held_append (ItemRow.of (next_rowid (lib.content_items.map ItemRow.rowid))
      (b.item lib.now (lib.uuids 0))) rfl rfl found,stored_reads_iff _ lib.now b.created _ rfl rfl rfl rfl]
  | some row =>
    cases reads : row_to_content_item row with
    | none =>
      refine .of_eq (y := throw .panic) (t := lib) ?_ (.throw ⟨rfl,by simp [held,found,reads]⟩)
      rw [import_bookmark,work_bind,get_by_url_panic found reads]
      rfl
    | some item =>
      have steps : import_bookmark false stats b lib =
          (b.shelve row.id >>= fun _ => pure { stats with existing := stats.existing + 1 }) lib := by
        rw [import_bookmark,work_bind,get_by_url_some found reads]
        dsimp only
        rw [if_pos Bool.not_false,row_to_content_item_id reads]
      refine .of_eq steps (((shelve_does fresh (item_row_has found) b).mono (fun _ _ done => done) (fun _ => False.elim)).bind ?_)
      rintro _ last ⟨labeled,tagged,shelved⟩
      exact .pure ⟨labeled.grown,⟨row,labeled.grown.item_row found,.inr ⟨tagged,shelved⟩⟩,
        .inl ⟨by simp [held,found,reads],held_same labeled.items,rfl⟩⟩

/-- A bookmark that is settled is imported again. -/
theorem import_bookmark_same {b : Bookmark} (settled : lib.Settled b) (stats : BookmarkImportStats) :
    Does (import_bookmark false stats b) lib (fun _ lib' => Still lib lib') (Still lib) := by
  obtain ⟨row,found,either⟩ := settled
  cases reads : row_to_content_item row with
  | none =>
    refine .of_eq (y := throw .panic) (t := lib) ?_ (.throw (.refl lib))
    rw [import_bookmark,work_bind,get_by_url_panic found reads]
    rfl
  | some item =>
    obtain ⟨tagged,shelved⟩ := either.resolve_left (by rw [reads]; exact Option.some_ne_none item)
    have steps : import_bookmark false stats b lib =
        (b.shelve row.id >>= fun _ => pure { stats with existing := stats.existing + 1 }) lib := by
      rw [import_bookmark,work_bind,get_by_url_some found reads]
      dsimp only
      rw [if_pos Bool.not_false,row_to_content_item_id reads]
    exact .of_eq steps ((shelve_same tagged shelved).bind (fun _ _ same => .pure same))

/-- What a dry run makes of a bookmark. -/
theorem import_bookmark_dry (stats : BookmarkImportStats) (b : Bookmark) : Does (import_bookmark true stats b) lib
    (fun stats' lib' => lib' = lib ∧ ((lib.held b.key = some true ∧ stats' = { stats with existing := stats.existing + 1 }) ∨
      lib.held b.key = none ∧ stats' = { stats with created := stats.created + 1 }))
    (fun lib' => lib' = lib ∧ lib.held b.key = some false) := by
  cases found : lib.item_row b.key with
  | none =>
    refine .of_eq (y := pure _) (t := lib) ?_ (.pure ⟨rfl,.inr ⟨by simp [held,found],rfl⟩⟩)
    rw [import_bookmark,work_bind,get_by_url_none found]
    rfl
  | some row =>
    cases reads : row_to_content_item row with
    | none =>
      refine .of_eq (y := throw .panic) (t := lib) ?_ (.throw ⟨rfl,by simp [held,found,reads]⟩)
      rw [import_bookmark,work_bind,get_by_url_panic found reads]
      rfl
    | some item =>
      refine .of_eq (y := pure _) (t := lib) ?_ (.pure ⟨rfl,.inl ⟨by simp [held,found,reads],rfl⟩⟩)
      rw [import_bookmark,work_bind,get_by_url_some found reads]
      rfl

end

/-! ### Highlights -/

/-- The library with a new highlight. -/
def with_highlight (lib : Library) (h : HighlightWanted) (source_id : String) : Library :=
  { lib.after_draw.with_item (h.item lib.now (lib.uuids 0)) with
    highlight_meta := lib.highlight_meta ++ [⟨lib.uuids 0,some source_id,h.text,h.note,h.position_start,none,none⟩] }

theorem with_highlight_grown (fresh : lib.Fresh) {h : HighlightWanted} (source_id : String) (missing : lib.item_row h.url = none) :
    Grown lib (lib.with_highlight h source_id) := by
  refine ⟨List.prefix_append _ _,List.prefix_rfl,List.prefix_rfl,fun _ there => there,fun _ there => there,rfl,
    indexed_append _ rfl rfl (fresh.new 0) missing,1,rfl,?_⟩
  intro x inside
  have ids : (lib.with_highlight h source_id).ids = (lib.content_items.map ItemRow.id ++ [lib.uuids 0]) ++ lib.tags.map Tag.id ++
      lib.collections.map Library.Collection.id ++ lib.bookmark_meta.map BookmarkMeta.content_item_id ++
      (lib.highlight_meta.map HighlightMeta.content_item_id ++ [lib.uuids 0]) := by
    simp [Library.ids,with_highlight,after_draw,with_item,insert_fts,ItemRow.of,HighlightWanted.item]
  have drawn (same : x = lib.uuids 0) : ∃ n < 1, x = lib.uuids n := ⟨0,by omega,same⟩
  rw [ids] at inside
  simp only [Library.ids,List.mem_append,List.mem_singleton] at inside ⊢
  tauto

theorem insert_highlight_meta_new (fresh : lib.Fresh) (h : HighlightWanted) {source_id : String} (source : lib.has_item source_id) :
    insert_highlight_meta
        { content_item_id := lib.uuids 0, source_item_id := some source_id, quote_text := h.text, note := h.note,
          position_start := h.position_start, position_end := none, color := none }
      (lib.after_draw.with_item (h.item lib.now (lib.uuids 0))) = .ok () (lib.with_highlight h source_id) := by
  have unused : lib.highlight_meta.all (fun m => m.content_item_id ≠ lib.uuids 0) = true := by
    rw [List.all_eq_true]
    intro m inside
    have apart : m.content_item_id ≠ lib.uuids 0 := by
      intro same
      refine fresh.new 0 ?_
      have there : lib.uuids 0 ∈ lib.highlight_meta.map HighlightMeta.content_item_id := same ▸ List.mem_map_of_mem inside
      simp only [ids,List.mem_append]
      tauto
    simp [apart]
  have item : (lib.after_draw.with_item (h.item lib.now (lib.uuids 0))).has_item (lib.uuids 0) = true := by
    simp [has_item,with_item,insert_fts,ItemRow.of,HighlightWanted.item]
  have there : (lib.after_draw.with_item (h.item lib.now (lib.uuids 0))).has_item source_id = true := by
    rw [has_item_ids] at source ⊢
    exact ((List.prefix_append _ _ : lib.content_items <+: lib.content_items ++ [_]).map ItemRow.id).subset source
  exact run_ok.mpr ((if_pos ⟨unused,item,there⟩).trans rfl)

end
end Library
end Pergamon
