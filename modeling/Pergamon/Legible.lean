import Pergamon.Backfill

/-!
Libraries whose rows are read back under their own ids, and what they are read as: each type
has its rows, in the order in which they are listed, and nothing is left out.
-/
namespace Pergamon
open Fallible Replica

section
variable [Formats]

/-- The id that a row is read back under. -/
def read_id (t : TableName) (id : String) (row : Row) : Except StorageError String :=
  match t with
  | .feeds => row_to_feed id row
  | .tags => row_to_tag id row
  | .collections => (row_to_collection id row).map Collection.id
  | .content_items => (row_to_content_item id row).map ContentItem.id
  | .highlight_meta => row_to_highlight_meta id row
  | .notes => row_to_note id row
  | .review_cards => row_to_review_card id row
  | .review_logs => row_to_review_log id row
  | .feed_folders | .settings => .ok id

/-- Every row is read back under its own id. -/
def Legible (lib : Replica) : Prop := ∀ t id row, lib.row t id = some row → read_id t id row = .ok id

/-- The tables whose keys are ids. -/
def Keyed (t : TableName) : Prop := t ≠ .feed_folders ∧ t ≠ .settings

instance : Decidable (Keyed t) := inferInstanceAs (Decidable (_ ∧ _))

variable {listing : Listing} {lib : Replica} {reading : Reading} {t : TableName} {ty : EntityType} {id id' : String} {row : Row}

/-! ### Ids -/

theorem parse_uuid_ok {s : String} : parse_uuid s = .ok id ↔ Formats.parse_uuid s = some id := by
  unfold parse_uuid
  cases Formats.parse_uuid s <;> simp

/-- A row is read back under what its key is parsed as. -/
theorem read_id_parse (keyed : Keyed t) (read : read_id t id row = .ok id') : Formats.parse_uuid id = some id' := by
  obtain ⟨folders,settings⟩ := keyed
  cases t <;> simp only [read_id,map_ok,row_to_feed,row_to_tag,row_to_collection,row_to_content_item,row_to_highlight_meta,
    row_to_note,row_to_review_card,row_to_review_log,bind_ok,parse_uuid_ok,Except.ok.injEq] at read
  all_goals first | contradiction | grind

theorem legible_id (legible : Legible lib) (keyed : Keyed t) (there : lib.row t id = some row) :
    Formats.parse_uuid id = some id := read_id_parse keyed (legible t id row there)

/-! ### Lists of rows -/

omit [Formats] in
theorem Listing.Lists.there (lists : listing.Lists lib) (listed : id ∈ listing.rows t) : ∃ row, lib.row t id = some row :=
  Option.isSome_iff_exists.mp (((lists.rows t).2 id).mp listed)

/-- The rows of a table, in the order of a listing. -/
def Listing.pairs (listing : Listing) (lib : Replica) (t : TableName) : List (String × Row) :=
  (listing.rows t).filterMap (fun id => (lib.row t id).map (fun row => (id,row)))

omit [Formats] in
theorem mem_pairs (lists : listing.Lists lib) : (id,row) ∈ listing.pairs lib t ↔ lib.row t id = some row := by
  simp only [Listing.pairs,List.mem_filterMap,Option.map_eq_some_iff,Prod.mk.injEq]
  constructor
  · rintro ⟨id,-,row,there,rfl,rfl⟩
    exact there
  · intro there
    exact ⟨id,((lists.rows t).2 id).mpr (by simp [there]),row,there,rfl,rfl⟩

omit [Formats] in
theorem pairs_map (lists : listing.Lists lib) {h : String × Row → β} {g : String → β}
    (same : ∀ id row, lib.row t id = some row → h (id,row) = g id) :
    (listing.pairs lib t).map h = (listing.rows t).map g := by
  have each (l : List String) (listed : l ⊆ listing.rows t) :
      (l.filterMap (fun id => (lib.row t id).map (fun row => (id,row)))).map h = l.map g := by
    induction l with
    | nil => rfl
    | cons id l ih =>
      obtain ⟨row,there⟩ := lists.there (listed (.head _))
      rw [List.filterMap_cons,there]
      simp only [Option.map_some,List.map_cons,same id row there,ih (fun other inside => listed (.tail _ inside))]
  exact each _ (fun _ inside => inside)

omit [Formats] in
/-- A table whose rows can be read is read as one value for each row. -/
theorem list_total {α : Type} {read : String → Row → Except StorageError α} (lists : listing.Lists lib)
    (each : ∀ id row, lib.row t id = some row → ∃ a, read id row = .ok a) : ∃ l, listing.list lib t read = .ok l :=
  mapM_total (fun entry inside => each entry.1 entry.2 ((mem_pairs lists).mp inside))

omit [Formats] in
theorem list_mem {α : Type} {read : String → Row → Except StorageError α} {l : List α} (lists : listing.Lists lib)
    (ok : listing.list lib t read = .ok l) :
    (∀ a ∈ l, ∃ id row, lib.row t id = some row ∧ read id row = .ok a) ∧
      ∀ id row, lib.row t id = some row → ∃ a ∈ l, read id row = .ok a := by
  obtain ⟨back,onto⟩ := mapM_mem ok
  constructor
  · intro a inside
    obtain ⟨⟨id,row⟩,listed,same⟩ := back a inside
    exact ⟨id,row,(mem_pairs lists).mp listed,same⟩
  · intro id row there
    exact onto (id,row) ((mem_pairs lists).mpr there)

omit [Formats] in
/-- A view of the values that is decided by the keys follows the listing. -/
theorem list_map {α β : Type} {read : String → Row → Except StorageError α} {l : List α} {g : α → β} {h : String → β}
    (lists : listing.Lists lib) (ok : listing.list lib t read = .ok l)
    (same : ∀ id row a, lib.row t id = some row → read id row = .ok a → g a = h id) : l.map g = (listing.rows t).map h := by
  have viewed : l.map g = (listing.pairs lib t).map (fun entry => h entry.1) :=
    mapM_map ok (fun entry inside a read => same entry.1 entry.2 a ((mem_pairs lists).mp inside) read)
  rw [viewed]
  exact pairs_map lists (fun _ _ _ => rfl)

/-! ### What a legible library is read as -/

omit [Formats] in
theorem get_text_highlight {v : SqlValue} : get_text v = "highlight" ↔ v = .Text "highlight" := by
  cases v <;> simp [get_text,get_optional_text]

theorem row_to_content_item_ok {item : ContentItem} (read : row_to_content_item id row = .ok item) :
    parse_uuid id = .ok item.id ∧ (item.is_highlight ↔ row "content_type" = .Text "highlight") := by
  simp only [row_to_content_item,bind_ok,Except.ok.injEq] at read
  obtain ⟨id,parsed,-,-,-,-,rfl⟩ := read
  exact ⟨parsed,by simp [get_text_highlight]⟩

theorem row_to_collection_ok {collection : Collection} (read : row_to_collection id row = .ok collection) :
    parse_uuid id = .ok collection.id ∧ parse_optional_uuid (row "parent_id") = .ok collection.parent_id := by
  simp only [row_to_collection,bind_ok,Except.ok.injEq] at read
  obtain ⟨id,parsed,parent,named,-,-,rfl⟩ := read
  exact ⟨parsed,named⟩

theorem row_to_edge_ok {ends ends' : String × String} :
    row_to_edge ends = .ok ends' ↔ parse_uuid ends.1 = .ok ends'.1 ∧ parse_uuid ends.2 = .ok ends'.2 := by
  simp only [row_to_edge,bind_ok,Except.ok.injEq]
  constructor
  · rintro ⟨left,first,right,second,rfl⟩
    exact ⟨first,second⟩
  · rintro ⟨first,second⟩
    exact ⟨_,first,_,second,rfl⟩

omit [Formats] in
theorem split_edge {ends : String × String} (plain : ':' ∉ ends.1.toList) : split_edge_id (edge_id ends) = .ok ends := by
  have chars : (edge_id ends).toList = ends.1.toList ++ ':' :: ends.2.toList := by
    simp [edge_id,String.toList_append]
  have left : ∀ c ∈ ends.1.toList, decide (c ≠ ':') = true := by
    intro c inside
    simp only [ne_eq,decide_not,Bool.not_eq_true',decide_eq_false_iff_not]
    rintro rfl
    exact plain inside
  unfold split_edge_id
  simp only [chars]
  rw [if_pos (by simp),List.takeWhile_append_of_pos left,List.dropWhile_append_of_pos left]
  simp

/-- The collection that a collection is in. -/
def parent_of (lib : Replica) (id : String) : Option String :=
  (lib.row .collections id).bind (fun row => get_optional_text (row "parent_id"))

/-- The entities that a library has. -/
def Has (lib : Replica) (ty : EntityType) (id : String) : Prop :=
  match ty with
  | .Document => ∃ item, lib.row .content_items id = some item ∧ item "content_type" ≠ .Text "highlight"
  | .TagEdge => ∃ ends ∈ lib.content_item_tags, edge_id ends = id
  | .CollectionEdge => ∃ ends ∈ lib.content_item_collections, edge_id ends = id
  | ty => ∃ t row, carryingTable ty = some t ∧ lib.row t id = some row

/-- The reading has what the library has, once, in the order of the listing. -/
structure Complete (listing : Listing) (lib : Replica) (reading : Reading) : Prop where
  mem : ∀ ty id, id ∈ reading.part ty ↔ Has lib ty id
  nodup : ∀ ty, (reading.part ty).Nodup
  collections : reading.part .Collection =
    ParentFirst.orderOf ((listing.rows .collections).map (fun id => (id,parent_of lib id)))
  highlights : reading.part .Highlight = listing.rows .highlight_meta

/-- A table of a legible library that is read as ids is read as its keys. -/
theorem list_ids {l : List String} (legible : Legible lib) (lists : listing.Lists lib)
    (ok : listing.list lib t (read_id t) = .ok l) : l = listing.rows t := by
  have keys : l.map (fun a => a) = (listing.rows t).map (fun id => id) :=
    list_map lists ok (fun id row a there read => Except.ok.inj (read.symm.trans (legible t id row there)))
  simpa using keys

theorem edge_read {ends : String × String} (legible : Legible lib) (other : TableName) (keyed : Keyed other)
    (held : (lib.row .content_items ends.1).isSome ∧ (lib.row other ends.2).isSome) : row_to_edge ends = .ok ends := by
  obtain ⟨item,first⟩ := Option.isSome_iff_exists.mp held.1
  obtain ⟨label,second⟩ := Option.isSome_iff_exists.mp held.2
  exact row_to_edge_ok.mpr ⟨parse_uuid_ok.mpr (legible_id legible (by decide) first),
    parse_uuid_ok.mpr (legible_id legible keyed second)⟩

/-- The memberships of a legible library are read as they are. -/
theorem edges_read {other : TableName} {listed found : List (String × String)} {members : Finset (String × String)}
    (legible : Legible lib) (keyed : Keyed other) (all : listed.Nodup ∧ ∀ ends, ends ∈ listed ↔ ends ∈ members)
    (held : ∀ ends ∈ members, (lib.row .content_items ends.1).isSome ∧ (lib.row other ends.2).isSome)
    (read : listed.mapM row_to_edge = .ok found) :
    (found.map edge_id).Nodup ∧ ∀ id, id ∈ found.map edge_id ↔ ∃ ends ∈ members, edge_id ends = id := by
  have same : found.map (fun ends => ends) = listed.map (fun ends => ends) :=
    mapM_map read (fun ends inside ends' read =>
      Except.ok.inj (read.symm.trans (edge_read legible other keyed (held ends ((all.2 ends).mp inside)))))
  obtain rfl : found = listed := by simpa using same
  refine ⟨List.Nodup.map_on ?_ all.1,fun id => ?_⟩
  · intro ends inside ends' inside' same
    have parts (ends : String × String) (inside : ends ∈ found) : split_edge_id (edge_id ends) = .ok ends := by
      obtain ⟨item,there⟩ := Option.isSome_iff_exists.mp (held ends ((all.2 ends).mp inside)).1
      exact split_edge (Formats.plain _ _ (legible_id legible (by decide) there))
    have first := parts ends inside
    rw [same] at first
    exact Except.ok.inj (first.symm.trans (parts ends' inside'))
  · simp only [List.mem_map,all.2]

/-- The documents of a legible library are its items that are no highlights. -/
theorem documents_read (legible : Legible lib) (lists : listing.Lists lib) (reads : Reads listing lib reading) :
    (reading.part .Document).Nodup ∧ ∀ id, id ∈ reading.part .Document ↔ Has lib .Document id := by
  have own {id : String} {row : Row} {item : ContentItem} (there : lib.row .content_items id = some row)
      (read : row_to_content_item id row = .ok item) : item.id = id :=
    Option.some.inj ((parse_uuid_ok.mp (row_to_content_item_ok read).1).symm.trans (legible_id legible (by decide) there))
  have items : reading.items.map ContentItem.id = listing.rows .content_items := by
    have named : reading.items.map ContentItem.id = (listing.rows .content_items).map (fun id => id) :=
      list_map lists reads.items (fun id row item there read => own there read)
    simpa using named
  obtain ⟨back,onto⟩ := list_mem lists reads.items
  refine ⟨?_,fun id => ?_⟩
  · have distinct : (reading.items.map ContentItem.id).Nodup := items ▸ (lists.rows .content_items).1
    exact distinct.sublist (List.filter_sublist.map _)
  · simp only [Reading.part,List.mem_map,List.mem_filter,Bool.not_eq_true']
    constructor
    · rintro ⟨item,⟨inside,plain⟩,rfl⟩
      obtain ⟨id,row,there,read⟩ := back item inside
      rw [own there read]
      refine ⟨row,there,fun highlight => ?_⟩
      have shown := (row_to_content_item_ok read).2.mpr highlight
      rw [plain] at shown
      cases shown
    · rintro ⟨row,there,other⟩
      obtain ⟨item,inside,read⟩ := onto id row there
      refine ⟨item,⟨inside,?_⟩,own there read⟩
      rw [← Bool.not_eq_true,(row_to_content_item_ok read).2]
      exact other

section
variable [Sqlite] (sound : Sound lib) (legible : Legible lib) (lists : listing.Lists lib)
include sound legible lists

theorem list_collections {l : List Collection} (ok : listing.list lib .collections row_to_collection = .ok l) :
    l.map (fun c => (c.id,c.parent_id)) = (listing.rows .collections).map (fun id => (id,parent_of lib id)) := by
  refine list_map lists ok (fun id row c there read => ?_)
  obtain ⟨parsed,named⟩ := row_to_collection_ok read
  have own : Formats.parse_uuid id = some id := legible_id legible (by decide) there
  have same : c.id = id := Option.some.inj ((parse_uuid_ok.mp parsed).symm.trans own)
  have parent : c.parent_id = get_optional_text (row "parent_id") := by
    have refers := sound.references _ _ _ there
      ⟨"parent_id",.TEXT,false,.value .Null,.any,.no,some .collections⟩ (by simp [columns])
    change lib.reference_ok _ (row "parent_id") at refers
    cases value : row "parent_id" with
    | Text s =>
      rw [value] at named refers
      obtain ⟨p,parsed,given⟩ := bind_ok.mp named
      obtain ⟨above,held⟩ := Option.isSome_iff_exists.mp (show (lib.row .collections s).isSome from refers)
      have canonical : Formats.parse_uuid s = some s := legible_id legible (by decide) held
      obtain rfl : p = s := Option.some.inj ((parse_uuid_ok.mp parsed).symm.trans canonical)
      exact (Except.ok.inj given).symm
    | _ =>
      rw [value] at named
      exact (Except.ok.inj named).symm
  simp [same,parent,parent_of,there]

/-- The tables of a legible library can be read. -/
theorem Legible.reads : ∃ reading, Reads listing lib reading := by
  have ids {t : TableName} : ∃ l, listing.list lib t (read_id t) = .ok l :=
    list_total lists (fun id row there => ⟨id,legible t id row there⟩)
  obtain ⟨feeds,feeds_read⟩ := ids (t := .feeds)
  obtain ⟨tags,tags_read⟩ := ids (t := .tags)
  obtain ⟨highlights,highlights_read⟩ := ids (t := .highlight_meta)
  obtain ⟨notes,notes_read⟩ := ids (t := .notes)
  obtain ⟨cards,cards_read⟩ := ids (t := .review_cards)
  obtain ⟨logs,logs_read⟩ := ids (t := .review_logs)
  obtain ⟨collections,collections_read⟩ : ∃ l, listing.list lib .collections row_to_collection = .ok l := by
    refine list_total lists (fun id row there => ?_)
    obtain ⟨c,read,-⟩ := map_ok.mp (legible _ id row there)
    exact ⟨c,read⟩
  obtain ⟨items,items_read⟩ : ∃ l, listing.list lib .content_items row_to_content_item = .ok l := by
    refine list_total lists (fun id row there => ?_)
    obtain ⟨item,read,-⟩ := map_ok.mp (legible _ id row there)
    exact ⟨item,read⟩
  obtain ⟨tagged,tagged_read⟩ : ∃ l, listing.tags.mapM row_to_edge = .ok l :=
    mapM_total (fun ends inside => ⟨ends,edge_read legible .tags (by decide)
      (sound.tags ends ((lists.tags.2 ends).mp inside))⟩)
  obtain ⟨collected,collected_read⟩ : ∃ l, listing.collections.mapM row_to_edge = .ok l :=
    mapM_total (fun ends inside => ⟨ends,edge_read legible .collections (by decide)
      (sound.collections ends ((lists.collections.2 ends).mp inside))⟩)
  exact ⟨⟨feeds,tags,collections,items,highlights,notes,cards,logs,tagged,collected,listing.rows .settings⟩,feeds_read,
    tags_read,collections_read,items_read,highlights_read,notes_read,cards_read,logs_read,tagged_read,collected_read,rfl⟩

theorem Legible.complete (reads : Reads listing lib reading) : Complete listing lib reading := by
  -- the tables that are read as ids
  have ids {t : TableName} {l : List String} (read : listing.list lib t (read_id t) = .ok l) :
      l.Nodup ∧ ∀ id, id ∈ l ↔ ∃ row, lib.row t id = some row := by
    obtain rfl := list_ids legible lists read
    exact ⟨(lists.rows t).1,fun id => ((lists.rows t).2 id).trans Option.isSome_iff_exists⟩
  have has {ty : EntityType} {t : TableName} (carrying : carryingTable ty = some t) (id : String) :
      (∃ row, lib.row t id = some row) ↔ ∃ t row, carryingTable ty = some t ∧ lib.row t id = some row := by
    simp [carrying]
  have collections : reading.part .Collection =
      ParentFirst.orderOf ((listing.rows .collections).map (fun id => (id,parent_of lib id))) := by
    rw [← list_collections sound legible lists reads.collections]
    rfl
  have keys : ((listing.rows .collections).map (fun id => (id,parent_of lib id))).map Prod.fst =
      listing.rows .collections := by
    rw [List.map_map]
    exact List.map_id _
  have tag : Keyed .tags := by decide
  have collection : Keyed .collections := by decide
  refine ⟨?_,?_,collections,list_ids legible lists reads.highlights⟩
  · intro ty id
    cases ty
    case Document => exact (documents_read legible lists reads).2 id
    case TagEdge => exact (edges_read legible tag lists.tags sound.tags reads.tagged).2 id
    case CollectionEdge =>
      exact (edges_read legible collection lists.collections sound.collections reads.collected).2 id
    case Collection =>
      rw [collections,ParentFirst.mem_orderOf,keys,(lists.rows _).2,Option.isSome_iff_exists]
      exact has rfl id
    case FeedSubscription => exact ((ids reads.feeds).2 id).trans (has rfl id)
    case Tag => exact ((ids reads.tags).2 id).trans (has rfl id)
    case Highlight => exact ((ids reads.highlights).2 id).trans (has rfl id)
    case Note => exact ((ids reads.notes).2 id).trans (has rfl id)
    case ReviewCard => exact ((ids reads.cards).2 id).trans (has rfl id)
    case ReviewLog => exact ((ids reads.logs).2 id).trans (has rfl id)
    case Settings =>
      show id ∈ reading.settings ↔ _
      rw [← reads.settings,(lists.rows _).2,Option.isSome_iff_exists]
      exact has rfl id
  · intro ty
    cases ty
    case Document => exact (documents_read legible lists reads).1
    case TagEdge => exact (edges_read legible tag lists.tags sound.tags reads.tagged).1
    case CollectionEdge =>
      exact (edges_read legible collection lists.collections sound.collections reads.collected).1
    case Collection =>
      rw [collections]
      exact ParentFirst.nodup_orderOf (keys.symm ▸ (lists.rows .collections).1)
    case FeedSubscription => exact (ids reads.feeds).1
    case Tag => exact (ids reads.tags).1
    case Highlight => exact (ids reads.highlights).1
    case Note => exact (ids reads.notes).1
    case ReviewCard => exact (ids reads.cards).1
    case ReviewLog => exact (ids reads.logs).1
    case Settings =>
      show reading.settings.Nodup
      exact reads.settings ▸ (lists.rows .settings).1

end

omit [Formats] in
/-- What a library has can be sent. -/
theorem has_fields [Sqlite] (sound : Sound lib) (has : Has lib ty id) : (entryFields lib (ty,id)).isSome := by
  have plain {t : TableName} {cols : List String} (held : ∃ row, lib.row t id = some row) :
      (lib.read_columns t id cols).isSome := by
    obtain ⟨row,there⟩ := held
    simp [read_columns,there]
  have carried {t : TableName} (has : ∃ t' row, some t = some t' ∧ lib.row t' id = some row) :
      ∃ row, lib.row t id = some row := by
    obtain ⟨t',row,same,there⟩ := has
    obtain rfl := Option.some.inj same
    exact ⟨row,there⟩
  cases ty
  case TagEdge | CollectionEdge => rfl
  case Document =>
    obtain ⟨item,there,-⟩ := has
    exact plain ⟨item,there⟩
  case Highlight =>
    obtain ⟨data,there⟩ := carried has
    obtain ⟨item,shell⟩ := Option.isSome_iff_exists.mp (sound.shells id (by simp [there]))
    simp [entryFields,read_entity_fields,read_highlight,there,shell]
  all_goals exact plain (carried has)

omit [Formats] in
theorem Complete.mem_entries (complete : Complete listing lib reading) : (ty,id) ∈ reading.entries ↔ Has lib ty id := by
  rw [Reading.entries,Sections.mem_all,complete.mem]
  simp

omit [Formats] in
theorem Complete.sent [Sqlite] (complete : Complete listing lib reading) (sound : Sound lib) :
    sent lib reading.entries = reading.entries := by
  refine List.filter_eq_self.mpr (fun entry inside => ?_)
  obtain ⟨ty,id⟩ := entry
  exact has_fields sound (complete.mem_entries.mp inside)

end
end Pergamon
