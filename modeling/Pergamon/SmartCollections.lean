import Pergamon.Duplicates
import Pergamon.Runs
import Pergamon.Selection

/-!
Smart collections while items come and go and get and lose tags. A text predicate joins the items
with the index on their row numbers, and every change of tags puts the row of the item at the end
of the index, under a new number. The two tables stay aligned iff that number is the old one,
that is, if the item is the last one and no number is missing before it.

While they are aligned, a smart collection lists exactly the items of which all predicates hold,
and counts them (`smart_collections_exact`). A filter without text does not depend on it. A text
predicate also names the index by an alias, and whether MATCH takes an alias is asked of the
full-text engine.
-/
namespace Pergamon
open Fallible Joins Runs

namespace Library

/-- The filter of a smart collection. -/
def smart_filter (lib : Library) (collection_id : String) : Except StorageError SmartFilter := do
  let coll ← lib.get_collection collection_id
  if coll.is_smart then
    match SmartFilter.parse (coll.filter_query.getD "") with
    | .ok smart => .ok smart
    | .error e => .error (.Generic ("invalid smart filter: " ++ e.message))
  else .error (.Constraint "not a smart collection")

/-- Remove a tag from a content item and refresh the full-text index. -/
def untag_content_item (content_item_id tag_id : String) : Work Bool := do
  let there ← ask (fun lib => .ok (decide ((content_item_id,tag_id) ∈ lib.content_item_tags)))
  if there then
    run (fun lib => .ok { lib with content_item_tags := lib.content_item_tags.filter (fun edge => edge ≠ (content_item_id,tag_id)) })
    run (fun lib => lib.refresh_fts_tags content_item_id)
  return there

/-- What giving a tag to an item leaves. -/
theorem tag_content_item_leaves (content_item_id tag_id : String) (lib : Library) :
    leaves (tag_content_item content_item_id tag_id lib) =
      match lib.insert_item_tag content_item_id tag_id with
      | .ok lib' => leaves (run (fun lib => lib.refresh_fts_tags content_item_id) lib')
      | .error _ => lib := by
  rw [tag_content_item,work_bind]
  cases wrote : lib.insert_item_tag content_item_id tag_id with
  | ok lib' => simp only [run,wrote]
  | error e =>
    simp only [run,wrote]
    rfl

/-- What taking a tag from an item leaves. -/
theorem untag_content_item_leaves (content_item_id tag_id : String) (lib : Library) :
    leaves (untag_content_item content_item_id tag_id lib) =
      if (content_item_id,tag_id) ∈ lib.content_item_tags then
        leaves (run (fun lib => lib.refresh_fts_tags content_item_id)
          { lib with content_item_tags := lib.content_item_tags.filter (fun edge => edge ≠ (content_item_id,tag_id)) })
      else lib := by
  rw [untag_content_item,work_bind,ask]
  by_cases there : (content_item_id,tag_id) ∈ lib.content_item_tags
  · simp only [there,decide_true,if_true]
    exact leaves_bind_pure
  · simp only [there,decide_false,if_false]
    rfl

section
variable [TimeCrate] [Fts5]

/-- List items matching a smart collection's filter, the newest first. -/
def list_smart_collection_items (collection_id : String) : Work (List Library.ContentItem) := do
  let smart ← ask (fun lib => lib.smart_filter collection_id)
  let rows ← ask (fun lib => lib.smart_rows smart)
  read_or_panic (((rows.map Joined.item).insertionSort (fun a b => b.created_at ≤ a.created_at)).mapM Library.row_to_content_item)

omit [TimeCrate] in
/-- Count items matching a smart collection's filter. -/
def count_smart_collection_items (collection_id : String) : Work ℕ := do
  let smart ← ask (fun lib => lib.smart_filter collection_id)
  let rows ← ask (fun lib => lib.smart_rows smart)
  return rows.length

omit [TimeCrate] in
/-- What a predicate says of an item: of its own row, its tags, its feed and its own row in the
    full-text index. -/
def satisfies (lib : Library) (row : ItemRow) : FilterPredicate → Bool
  | .ContentType types => row.content_type ∈ types
  | .Tag names => names.any (fun name => (lib.tags_for_item row.id).any (fun tag => same_name tag.name name))
  | .Status statuses => row.status ∈ statuses
  | .ExcludeStatus statuses => row.status ∉ statuses
  | .Source src => (lib.feed_of row.id).any (fun feed => like ('%' :: (src.toList ++ ['%'])) feed.title.toList)
  | .CreatedSince date => midnight date ≤ row.created_at
  | .CreatedBefore date => row.created_at < midnight date
  | .Text query => lib.content_items_fts.any (fun fts => fts.content_item_id = row.id && Fts5.fts_match (quote_fts_tokens query) fts)

omit [TimeCrate] in
/-- The items of which all predicates of a filter hold. -/
def matching (lib : Library) (filter : SmartFilter) : List ItemRow :=
  lib.content_items.filter (fun row => filter.predicates.all (lib.satisfies row))

/-- The collection lists exactly the items of which all predicates of its filter hold, and counts
    them. -/
def Exact (lib : Library) (collection_id : String) (filter : SmartFilter) : Prop :=
  ∃ (items : List Library.ContentItem) (rows : List ItemRow), list_smart_collection_items collection_id lib = .ok items lib ∧
    count_smart_collection_items collection_id lib = .ok items.length lib ∧
    rows.Perm (lib.matching filter) ∧ rows.mapM Library.row_to_content_item = some items

end

/-! ### Items and their rows in the index -/

/-- The items and the index have the same ids under the same numbers. -/
def Aligned (lib : Library) : Prop :=
  (lib.content_items_fts.map (fun fts => (fts.rowid,fts.content_item_id))).Perm (lib.content_items.map (fun row => (row.rowid,row.id)))

structure Keyed (lib : Library) : Prop where
  ids : (lib.content_items.map ItemRow.id).Nodup
  rowids : (lib.content_items.map ItemRow.rowid).Nodup
  linked : Linked lib

section
variable {lib : Library} {row : ItemRow}

/-- The rows of the index under the number of an item are its own, and there is one. -/
theorem Aligned.own (aligned : Aligned lib) (keyed : Keyed lib) (there : row ∈ lib.content_items) :
    lib.content_items_fts.filter (fun fts => fts.rowid = row.rowid) = lib.content_items_fts.filter (fun fts => fts.content_item_id = row.id) ∧
      (lib.content_items_fts.filter (fun fts => fts.rowid = row.rowid)).length = 1 := by
  have rowids : (lib.content_items_fts.map FtsRow.rowid).Perm (lib.content_items.map ItemRow.rowid) := by
    have := aligned.map Prod.fst
    rwa [List.map_map,List.map_map] at this
  refine ⟨List.filter_congr (fun fts held => ?_),?_⟩
  · obtain ⟨other,inside,same⟩ := List.mem_map.mp (aligned.mem_iff.mp (List.mem_map_of_mem held))
    obtain ⟨number,id⟩ := Prod.mk.inj same
    rw [decide_eq_decide,← number,← id]
    constructor
    · exact fun same => congrArg ItemRow.id (List.inj_on_of_nodup_map keyed.rowids inside there same)
    · exact fun same => congrArg ItemRow.rowid (List.inj_on_of_nodup_map keyed.ids inside there same)
  · have unique : (lib.content_items_fts.map FtsRow.rowid).Nodup := rowids.nodup_iff.mpr keyed.rowids
    obtain ⟨fts,held,number⟩ := List.mem_map.mp (rowids.mem_iff.mpr (List.mem_map_of_mem there))
    rw [filter_key unique]
    cases found : lib.content_items_fts.find? (fun fts => fts.rowid = row.rowid) with
    | some fts => rfl
    | none => exact absurd (List.find?_eq_none.mp found fts held) (by simp [number])

section
variable [Fts5] {filter : SmartFilter}

theorem selects_satisfies {p : FilterPredicate} {feed : Option Feed} {fts : Option FtsRow}
    (source : p.is_source → feed = lib.feed_of row.id)
    (text : p.is_text → ∀ query, fts.any (Fts5.fts_match query) =
      lib.content_items_fts.any (fun fts => fts.content_item_id = row.id && Fts5.fts_match query fts)) :
    lib.selects ⟨row,feed,fts⟩ p = lib.satisfies row p := by
  cases p with
  | ContentType types =>
    simp only [selects,satisfies,ContentType.as_str_injective.eq_iff,asked_iff]
    rw [Bool.eq_iff_iff,List.contains_iff_mem,decide_eq_true_eq]
  | Tag names =>
    rw [selects,satisfies,tagged_iff]
    simp only [List.any_map]
    rfl
  | Status statuses =>
    simp only [selects,satisfies,DocumentStatus.as_str_injective.eq_iff,asked_iff]
    rw [Bool.eq_iff_iff,List.contains_iff_mem,decide_eq_true_eq]
  | ExcludeStatus statuses =>
    simp only [selects,satisfies,DocumentStatus.as_str_injective.eq_iff,asked_iff]
    rw [Bool.eq_iff_iff,Bool.not_eq_true',← Bool.not_eq_true,List.contains_iff_mem,decide_eq_true_eq]
  | Source src => rw [selects,satisfies,source rfl]
  | CreatedSince date => rfl
  | CreatedBefore date => rfl
  | Text query => exact text rfl _

/-- The rows that a filter selects are those of which all its predicates hold, while the items
    and the index are aligned or it has no text. -/
theorem smart_rows_matching (keyed : Keyed lib) (text : filter.has_text_query → Fts5.match_alias ∧ Aligned lib) :
    ∃ rows, lib.smart_rows filter = .ok rows ∧ rows.map Joined.item = lib.matching filter := by
  let feed (row : ItemRow) := if filter.has_source then lib.feed_of row.id else none
  have source {row : ItemRow} {p : FilterPredicate} (inside : p ∈ filter.predicates) (asks : p.is_source) : feed row = lib.feed_of row.id :=
    if_pos (List.any_eq_true.mpr ⟨p,inside,asks⟩)
  cases has_text : filter.has_text_query with
  | false =>
    refine ⟨_,smart_rows_eq keyed.linked has_text,?_⟩
    rw [List.filter_map,List.map_map,matching]
    refine (List.map_id' _).trans (List.filter_congr fun row _ => ?_)
    rw [Function.comp_apply,Bool.eq_iff_iff,List.all_eq_true,List.all_eq_true]
    refine forall₂_congr (fun p inside => ?_)
    have not_text : p.is_text = false := by simpa using List.any_eq_false.mp has_text p inside
    rw [selects_satisfies (source inside) (fun asks => by simp [not_text] at asks)]
  | true =>
    obtain ⟨takes,aligned⟩ := text has_text
    refine ⟨_,by rw [smart_rows,if_neg (fun both => both.2 takes)],?_⟩
    rw [has_text,join_index,if_pos rfl,join_feeds_eq keyed.linked,List.filter_map,List.map_map]
    have one : ∀ a ∈ lib.content_items.map (fun row => (row,feed row)),
        (lib.content_items_fts.filter (fun fts => fts.rowid = a.1.rowid)).length ≤ 1 := by
      intro a inside
      obtain ⟨row,there,rfl⟩ := List.mem_map.mp inside
      exact (aligned.own keyed there).2.le
    have selected := join_select one (fun a fts => filter.predicates.all (lib.selects ⟨a.1,a.2,some fts⟩))
    have picked := List.map_map.symm.trans (congrArg (List.map Prod.fst) selected)
    refine picked.trans ?_
    rw [List.filter_map,List.map_map,matching]
    refine (List.map_id' _).trans (List.filter_congr fun row there => ?_)
    obtain ⟨same,single⟩ := aligned.own keyed there
    rw [same] at single
    obtain ⟨fts,own⟩ := List.length_eq_one_iff.mp single
    rw [Function.comp_apply,same,own,List.any_cons,List.any_nil,Bool.or_false,Bool.eq_iff_iff,List.all_eq_true,List.all_eq_true]
    refine forall₂_congr (fun p inside => ?_)
    rw [selects_satisfies (source inside) (fun _ query => ?_)]
    rw [← List.any_filter,own]
    simp

/-- What a smart collection lists in a library whose items read. -/
theorem exact_of [TimeCrate] {collection_id : String} (keyed : Keyed lib) (text : filter.has_text_query → Fts5.match_alias ∧ Aligned lib)
    (reads : ∀ row ∈ lib.content_items, (Library.row_to_content_item row).isSome) (smart : lib.smart_filter collection_id = .ok filter) :
    Exact lib collection_id filter := by
  obtain ⟨rows,selected,same⟩ := smart_rows_matching keyed text
  have sorted : ((rows.map Joined.item).insertionSort (fun a b => b.created_at ≤ a.created_at)).Perm (lib.matching filter) := by
    rw [← same]
    exact List.perm_insertionSort _ _
  cases read : ((rows.map Joined.item).insertionSort (fun a b => b.created_at ≤ a.created_at)).mapM Library.row_to_content_item with
  | none =>
    obtain ⟨row,inside,unread⟩ := read_all.mp read
    have there := (List.mem_filter.mp (sorted.mem_iff.mp inside)).1
    have here := reads row there
    rw [unread] at here
    cases here
  | some items =>
    refine ⟨items,_,?_,?_,sorted,read⟩
    · simp only [list_smart_collection_items,work_bind,ask,smart,selected,read]
      rfl
    · have counted : rows.length = items.length := by
        rw [read_length read,List.length_insertionSort,List.length_map]
      simp only [count_smart_collection_items,work_bind,ask,smart,selected,counted]
      rfl

end

/-! ### What commands do to the two tables -/

theorem next_rowid_perm {l l' : List ℕ} (perm : l.Perm l') : next_rowid l = next_rowid l' :=
  congrArg (· + 1) (perm.foldr_eq 0)

theorem Aligned.next (aligned : Aligned lib) :
    next_rowid (lib.content_items_fts.map FtsRow.rowid) = next_rowid (lib.content_items.map ItemRow.rowid) := by
  have rowids := aligned.map Prod.fst
  rw [List.map_map,List.map_map] at rowids
  exact next_rowid_perm rowids

/-- Without the rows of one item. -/
theorem Aligned.filter (aligned : Aligned lib) (id : String) :
    ((lib.content_items_fts.filter (fun fts => fts.content_item_id ≠ id)).map (fun fts => (fts.rowid,fts.content_item_id))).Perm
      ((lib.content_items.filter (fun row => row.id ≠ id)).map (fun row => (row.rowid,row.id))) := by
  have rest := List.Perm.filter (fun key : ℕ × String => key.2 ≠ id) aligned
  rw [List.filter_map,List.filter_map] at rest
  exact rest

/-- The number that the row of an item gets in the index is its own. -/
def Last (lib : Library) (id : String) : Prop :=
  ∀ row ∈ lib.get_item_row id, row.rowid = next_rowid ((lib.content_items.filter (fun row => row.id ≠ id)).map ItemRow.rowid)

instance {id : String} : Decidable (Last lib id) := inferInstanceAs (Decidable (∀ row ∈ lib.get_item_row id, _))

theorem refresh_aligned {lib' : Library} {id : String} (keyed : Keyed lib) (aligned : Aligned lib) (last : Last lib id)
    (wrote : lib.refresh_fts_tags id = .ok lib') : Aligned lib' := by
  unfold refresh_fts_tags at wrote
  cases found : lib.get_item_row id with
  | none =>
    rw [found] at wrote
    cases wrote
  | some row =>
    rw [found] at wrote
    obtain rfl := Except.ok.inj wrote
    have rest := aligned.filter id
    have number : next_rowid ((lib.content_items_fts.filter (fun fts => fts.content_item_id ≠ id)).map FtsRow.rowid) = row.rowid := by
      have rowids := rest.map Prod.fst
      rw [List.map_map,List.map_map] at rowids
      exact (next_rowid_perm rowids).trans (last row found).symm
    have only : lib.content_items.filter (fun row => !decide (row.id ≠ id)) = [row] := by
      have one := filter_key keyed.ids id
      change lib.content_items.find? _ = some row at found
      rw [found] at one
      simpa using one
    have all := List.filter_append_perm (fun row : ItemRow => decide (row.id ≠ id)) lib.content_items
    rw [only] at all
    refine List.Perm.trans ?_ (all.map (fun row => (row.rowid,row.id)))
    simp only [insert_fts,List.map_append,List.map_cons,List.map_nil,number,get_item_row_id found]
    exact rest.append_right _

end
end Library

/-! ### Runs -/

/-- What happens to items. -/
inductive ItemCall where
  | insert (item : Library.ContentItem)
  | tag (item_id tag_id : String)
  | untag (item_id tag_id : String)
  | delete (item_id : String)

namespace ItemCall
open Library

section
variable [TimeCrate]

/-- One call, on whatever state it leaves. -/
def perform (lib : Library) : ItemCall → Library
  | .insert item => leaves (insert_content_item item lib)
  | .tag item_id tag_id => leaves (tag_content_item item_id tag_id lib)
  | .untag item_id tag_id => leaves (untag_content_item item_id tag_id lib)
  | .delete item_id => leaves (delete_content_item (fun _ => none) item_id lib)

omit [TimeCrate] in
/-- The item whose row in the index a call writes again. -/
def refreshes (lib : Library) : ItemCall → Option String
  | .tag item_id tag_id =>
    if (item_id,tag_id) ∈ lib.content_item_tags ∨ (lib.has_item item_id ∧ lib.tags.any (fun tag => tag.id = tag_id)) then some item_id
    else none
  | .untag item_id tag_id => if (item_id,tag_id) ∈ lib.content_item_tags then some item_id else none
  | _ => none

omit [TimeCrate] in
/-- The item that a call inserts. -/
def inserted : ItemCall → Option Library.ContentItem
  | .insert item => some item
  | _ => none

/-- The times of an item that is inserted read back, and, where a filter asks for text, the row
    that a call writes again keeps its number. -/
structure Meets (filter : SmartFilter) (lib : Library) (call : ItemCall) : Prop where
  reads : ∀ item ∈ call.inserted, (Library.row_to_content_item (ItemRow.of 0 item)).isSome
  last : filter.has_text_query → ∀ id ∈ refreshes lib call, Last lib id

instance {filter : SmartFilter} {lib : Library} {call : ItemCall} : Decidable (Meets filter lib call) :=
  decidable_of_iff (_ ∧ _) ⟨fun both => ⟨both.1,both.2⟩,fun meets => ⟨meets.reads,meets.last⟩⟩

/-- The tables have their keys, all items read, and for a filter that asks for text the items and
    the index are aligned. -/
structure Sound (filter : SmartFilter) (lib : Library) : Prop where
  keyed : Library.Keyed lib
  aligned : filter.has_text_query → Aligned lib
  reads : ∀ row ∈ lib.content_items, (Library.row_to_content_item row).isSome

variable {filter : SmartFilter} {lib : Library}

omit [TimeCrate] in
theorem keyed_same {lib' : Library} (keyed : Library.Keyed lib) (items : lib'.content_items = lib.content_items)
    (metas : lib'.feed_item_meta = lib.feed_item_meta) (feeds : lib'.feeds = lib.feeds) : Library.Keyed lib' :=
  ⟨items ▸ keyed.ids,items ▸ keyed.rowids,⟨metas ▸ keyed.linked.metas,feeds ▸ keyed.linked.feeds⟩⟩

omit [TimeCrate] in
theorem last_edges {edges : List (String × String)} {id : String} (last : Last lib id) : Last { lib with content_item_tags := edges } id := last

theorem Sound.edges (sound : Sound filter lib) (edges : List (String × String)) : Sound filter { lib with content_item_tags := edges } :=
  ⟨keyed_same sound.keyed rfl rfl rfl,sound.aligned,sound.reads⟩

/-- A refresh of the index. -/
theorem Sound.refresh {id : String} (sound : Sound filter lib) (last : filter.has_text_query → Last lib id) :
    Sound filter (leaves (run (fun lib => lib.refresh_fts_tags id) lib)) := by
  rw [run_leaves]
  cases wrote : lib.refresh_fts_tags id with
  | error e => exact sound
  | ok lib' =>
    have items : lib'.content_items = lib.content_items ∧ lib'.feed_item_meta = lib.feed_item_meta ∧ lib'.feeds = lib.feeds := by
      unfold refresh_fts_tags at wrote
      split at wrote
      · cases wrote
      · obtain rfl := Except.ok.inj wrote
        exact ⟨rfl,rfl,rfl⟩
    refine ⟨keyed_same sound.keyed items.1 items.2.1 items.2.2,fun text => ?_,?_⟩
    · exact refresh_aligned sound.keyed (sound.aligned text) (last text) wrote
    · rw [items.1]
      exact sound.reads

theorem Sound.insert {item : Library.ContentItem} (sound : Sound filter lib) (reads : (Library.row_to_content_item (ItemRow.of 0 item)).isSome) :
    Sound filter (leaves (insert_content_item item lib)) := by
  rw [insert_content_item_leaves]
  split
  · exact sound
  · next taken =>
    have new : item.id ∉ lib.content_items.map ItemRow.id := by
      intro inside
      obtain ⟨row,there,same⟩ := List.mem_map.mp inside
      exact taken (.inl (List.any_eq_true.mpr ⟨row,there,by simp [same]⟩))
    have fresh : next_rowid (lib.content_items.map ItemRow.rowid) ∉ lib.content_items.map ItemRow.rowid :=
      fun inside => lt_irrefl _ (lt_next_rowid inside)
    refine ⟨⟨?_,?_,⟨sound.keyed.linked.metas,sound.keyed.linked.feeds⟩⟩,fun text => ?_,?_⟩
    · change ((lib.content_items ++ [_]).map ItemRow.id).Nodup
      rw [List.map_append,List.map_cons,List.map_nil,← List.concat_eq_append,List.nodup_concat]
      exact ⟨new,sound.keyed.ids⟩
    · change ((lib.content_items ++ [_]).map ItemRow.rowid).Nodup
      rw [List.map_append,List.map_cons,List.map_nil,← List.concat_eq_append,List.nodup_concat]
      exact ⟨fresh,sound.keyed.rowids⟩
    · have aligned := sound.aligned text
      change ((lib.content_items_fts ++ [_]).map _).Perm ((lib.content_items ++ [_]).map _)
      simp only [List.map_append,List.map_cons,List.map_nil]
      rw [aligned.next]
      exact List.Perm.append_right _ aligned
    · intro row there
      rcases List.mem_append.mp there with old | new
      · exact sound.reads row old
      · obtain rfl := List.mem_singleton.mp new
        -- reading a row does not look at its number
        exact reads

theorem Sound.delete {id : String} (sound : Sound filter lib) : Sound filter (leaves (delete_content_item (fun _ => none) id lib)) := by
  have gone : leaves (delete_content_item (fun _ => none) id lib) = delete_item id (clear_index id lib) := rfl
  rw [gone]
  refine ⟨⟨?_,?_,?_,sound.keyed.linked.feeds⟩,fun text => (sound.aligned text).filter id,fun row there => sound.reads row (List.mem_filter.mp there).1⟩
  · exact sound.keyed.ids.sublist (List.filter_sublist.map _)
  · exact sound.keyed.rowids.sublist (List.filter_sublist.map _)
  · exact sound.keyed.linked.metas.sublist (List.filter_sublist.map _)

/-- A call that meets the conditions keeps the tables sound. -/
theorem Sound.step {call : ItemCall} (sound : Sound filter lib) (meets : Meets filter lib call) : Sound filter (perform lib call) := by
  cases call with
  | insert item => exact sound.insert (meets.reads item rfl)
  | delete item_id => exact sound.delete
  | tag item_id tag_id =>
    change Sound filter (leaves (tag_content_item item_id tag_id lib))
    rw [tag_content_item_leaves]
    cases wrote : lib.insert_item_tag item_id tag_id with
    | error e => exact sound
    | ok made =>
      unfold insert_item_tag at wrote
      split at wrote
      · next already =>
        obtain rfl := Except.ok.inj wrote
        exact sound.refresh (fun text => meets.last text item_id (if_pos (.inl already)))
      · obtain ⟨known,wrote⟩ := if_ok.mp wrote
        obtain rfl := Except.ok.inj wrote
        exact (sound.edges _).refresh (fun text => last_edges (meets.last text item_id (if_pos (.inr known))))
  | untag item_id tag_id =>
    change Sound filter (leaves (untag_content_item item_id tag_id lib))
    rw [untag_content_item_leaves]
    split
    · next there => exact (sound.edges _).refresh (fun text => last_edges (meets.last text item_id (if_pos there)))
    · exact sound

theorem Sound.run {calls : List ItemCall} (sound : Sound filter lib) (meets : Along perform (Meets filter) lib calls) :
    Sound filter (calls.foldl perform lib) := by
  induction calls generalizing lib with
  | nil => exact sound
  | cons call calls ih => exact ih (sound.step meets.1) meets.2

end

/-! ### A collection of what mentions a word -/

section
attribute [local instance] plainTimes

/-- An engine that finds titles of one word, and takes an alias. -/
@[reducible] def titleFts : Fts5 := ⟨fun query fts => query = quote_fts_tokens fts.title,true⟩

attribute [local instance] titleFts

def article (id title : String) : Library.ContentItem := ⟨id,none,title,none,.Article,.Inbox,none,none,none,⟨0,0⟩,⟨0,0⟩,none⟩

/-- No items, a tag, and a smart collection. -/
def reading : Library :=
  { shelf [] with
    tags := [⟨"t","new"⟩]
    collections := [⟨"c","Rust",none,0,true,some "text:rust"⟩] }

def mentions : SmartFilter := ⟨[.Text "rust"]⟩

theorem reading_sound : Sound mentions reading where
  keyed := ⟨by decide,by decide,by decide,by decide⟩
  aligned _ := List.Perm.nil
  reads := by decide

/-- The first of two items gets a tag, and a third is inserted. -/
def tagged_first : Library :=
  [.insert (article "a" "rust"),.insert (article "b" "go"),.tag "a" "t",.insert (article "c" "zig")].foldl perform reading

end
end ItemCall
end Pergamon
