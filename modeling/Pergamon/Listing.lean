import Mathlib.Data.List.Forall2
import Pergamon.ItemQuery
import Pergamon.Joins

/-!
Listing, counting and changing the items that match a filter.

The three statements share one subquery. With the keys of the tables (`Catalog`) every item joins in one
row, so the subquery gives the items that the filter admits, each once (`rows_query`). The bulk
update binds the new status and the time to placeholders that `reindex_params` has moved away from
them: its own are then those of the first two values of the filter. So it needs two values, and
sets the first of them as the status (`one_filter_iff`).
-/
namespace Pergamon
open Placeholders Joins

/-! ### What SQLite finds -/

/-- A row of the joined tables. -/
structure JoinedRow where
  item : ItemRow
  fim : Option FeedItemMeta
  feed : Option Feed

/-- The first of the rows with each key. -/
def distinct {α κ : Type} [DecidableEq κ] (key : α → κ) : List α → List α
  | [] => []
  | row :: rows => row :: (distinct key rows).filter (fun other => key other ≠ key row)

/-- Text `a` comes before text `b` or is the same but for case, and in that case `rest` decides. -/
def title_before (a b : List Char) (rest : Bool) : Bool := a < b || (a = b && rest)

/-- The order of a query; the source of an item without a feed comes first. -/
def JoinedRow.before (sort : ContentItemSort) (a b : JoinedRow) : Bool :=
  let newer : Bool := b.item.created_at ≤ a.item.created_at
  match sort with
  | .CreatedDesc => newer
  | .TitleAsc => title_before (Library.folded a.item.title) (Library.folded b.item.title) newer
  | .SourceAsc =>
    match a.feed,b.feed with
    | none,none => newer
    | none,some _ => true
    | some _,none => false
    | some one,some other => title_before (Library.folded one.title) (Library.folded other.title) newer

section
variable (lib : Library) (folder_id : String → Option String)

/-- A condition with a value for its placeholder; a missing column is equal to nothing. -/
def Condition.test (row : JoinedRow) (value : String) : Condition → Bool
  | content_type _ => row.item.content_type.as_str = value
  | status _ => row.item.status.as_str = value
  | feed _ => row.fim.map FeedItemMeta.feed_id = some value
  | folder _ => row.feed.bind (fun feed => folder_id feed.id) = some value
  | tag _ => (row.item.id,value) ∈ lib.content_item_tags
  | collection _ => lib.content_item_collections.any (fun m => m.content_item_id = row.item.id && m.collection_id = value)
  | uncollected => !lib.content_item_collections.any (fun m => m.content_item_id = row.item.id)

/-- A condition with the values that are bound. -/
def Condition.holds (params : List String) (row : JoinedRow) (condition : Condition) : Bool :=
  match condition.number with
  | none => condition.test lib folder_id row ""
  | some n => (params[n - 1]?).any (fun value => condition.test lib folder_id row value)

namespace ItemQuery
variable (query : ItemQuery) (params : List String)

/-- The items, with the rows of the other tables where the query joins them. -/
def joined : List JoinedRow :=
  let items :=
    if query.fim then
      left_join (fun (item : ItemRow) (fim : FeedItemMeta) =>
        decide (fim.content_item_id = item.id)) lib.content_items lib.feed_item_meta
    else lib.content_items.map (fun item => (item,none))
  let rows :=
    if query.feeds then
      left_join (fun (row : ItemRow × Option FeedItemMeta) (feed : Feed) =>
        row.2.any (fun fim => feed.id = fim.feed_id)) items lib.feeds
    else items.map (fun row => (row,none))
  rows.map (fun row => ⟨row.1.1,row.1.2,row.2⟩)

def found : List JoinedRow :=
  (query.joined lib).filter (fun row => query.conditions.all (fun condition => condition.holds lib folder_id params row))

/-- The page of what is found, in order and without repetitions. -/
def rows : List JoinedRow :=
  let rows := match query.columns with
    | .items => distinct JoinedRow.item (query.found lib folder_id params)
    | _ => distinct (fun row => row.item.id) (query.found lib folder_id params)
  let rows := rows.insertionSort (fun a b => a.before query.sort b)
  match query.page with
  | none => rows
  | some (limit,offset) => (rows.drop (offset.getD 0)).take limit

end ItemQuery

/-- The items that a statement selects, if it is one. -/
def query_items (sql : String) (params : List String) : Except StorageError (List ItemRow) :=
  match prepare sql with
  | some (.select query) =>
    if query.columns = .items ∧ params.length = (Statement.select query).bind_parameter_count then
      .ok ((query.rows lib folder_id params).map JoinedRow.item)
    else .error .Sqlite
  | _ => .error .Sqlite

def query_count (sql : String) (params : List String) : Except StorageError ℕ :=
  match prepare sql with
  | some (.select query) =>
    if query.columns = .count ∧ params.length = (Statement.select query).bind_parameter_count then
      .ok (distinct (fun row => row.item.id) (query.found lib folder_id params)).length
    else .error .Sqlite
  | _ => .error .Sqlite

/-- The status that a text is, as the check on the column admits it. -/
def status_of (text : String) : Option DocumentStatus :=
  [DocumentStatus.Inbox,.Later,.Reference,.Reading,.Archived,.Discarded].find? (fun status => status.as_str = text)

section
variable [TimeCrate]

/-- The row after the trigger on updates. -/
def ItemRow.touched (now : OffsetDateTime) (row : ItemRow) : ItemRow := { row with updated_at := TimeCrate.strftime now }

/-- Run an update; the number of rows is that of the rows that the statement names. -/
def execute_update (sql : String) (params : List String) : Except StorageError (Library × ℕ) :=
  match prepare sql with
  | some (.update status updated_at query) =>
    if params.length = (Statement.update status updated_at query).bind_parameter_count then
      let ids := (query.rows lib folder_id params).map (fun row => row.item.id)
      let affected := lib.content_items.filter (fun row => row.id ∈ ids)
      if affected = [] then .ok (lib,0)
      else
        match (params[status - 1]?).bind status_of,params[updated_at - 1]? with
        | some status,some updated_at =>
          .ok ({ lib with content_items := lib.content_items.map (fun row =>
            if row.id ∈ ids then { row with status := status, updated_at := updated_at }.touched lib.now else row) },
            affected.length)
        | _,_ => .error .Sqlite
    else .error .Sqlite
  | _ => .error .Sqlite

/-- List content items matching a filter. -/
def list_content_items_filtered (filter : ContentItemFilter) (limit offset : Option UInt32) :
    Except Failure (List Library.ContentItem) :=
  let (sql,param_values) := build_content_item_query
    "SELECT DISTINCT ci.id, ci.url, ci.title, ci.author, ci.content_type, ci.status,\n                    ci.content_text, ci.excerpt, ci.published_at, ci.created_at, ci.updated_at, ci.read_at"
    filter limit offset
  match query_items lib folder_id sql param_values with
  | .error e => .error (.storage e)
  | .ok rows =>
    match rows.mapM Library.row_to_content_item with
    | none => .error .panic
    | some items => .ok items

/-- Count content items matching a filter. -/
def count_content_items_filtered (filter : ContentItemFilter) : Except StorageError ℕ :=
  let (sql,param_values) := build_content_item_query "SELECT COUNT(DISTINCT ci.id)" filter none none
  query_count lib folder_id sql param_values

/-- Update the status of the content items that match a filter. -/
def bulk_update_status (filter : ContentItemFilter) (new_status : DocumentStatus) : Except StorageError (Library × ℕ) :=
  let now := fmt_time lib.now
  let (subquery,param_values) := build_content_item_query "SELECT DISTINCT ci.id" filter none none
  let sql := "UPDATE content_items SET status = ?1, updated_at = ?2 WHERE id IN (" ++ subquery ++ ")"
  let all_params := [new_status.as_str,now] ++ param_values
  let sql := reindex_params sql 2
  execute_update lib folder_id sql all_params

end
end
/-! ### One row for each item -/

/-- A library with the folders of its feeds, whose keys are keys. -/
structure Catalog where
  lib : Library
  folder_id : String → Option String
  item_key : (lib.content_items.map ItemRow.id).Nodup
  meta_key : (lib.feed_item_meta.map FeedItemMeta.content_item_id).Nodup
  feed_key : (lib.feeds.map Feed.id).Nodup

section
variable {α κ : Type} [DecidableEq κ] {key : α → κ} {rows : List α}

theorem distinct_key (unique : (rows.map key).Nodup) : distinct key rows = rows := by
  induction rows with
  | nil => rfl
  | cons row rows ih =>
    rw [List.map_cons,List.nodup_cons] at unique
    rw [distinct,ih unique.2,List.filter_eq_self.mpr]
    intro other later
    have := List.mem_map_of_mem (f := key) later
    simpa using fun same : key other = key row => unique.1 (same ▸ this)

end

namespace Catalog
variable (catalog : Catalog) (item : ItemRow)

/-- The row about an item's feed. -/
def fim_of : Option FeedItemMeta := catalog.lib.feed_item_meta.find? (fun fim => fim.content_item_id = item.id)

def feed_of : Option Feed :=
  (catalog.fim_of item).bind (fun fim => catalog.lib.feeds.find? (fun feed => feed.id = fim.feed_id))

/-- The row in which an item joins. -/
def row_of (query : ItemQuery) : JoinedRow :=
  ⟨item,if query.fim then catalog.fim_of item else none,
    if query.feeds ∧ query.fim then catalog.feed_of item else none⟩

theorem one_feed (row : ItemRow × Option FeedItemMeta) :
    catalog.lib.feeds.filter (fun feed => row.2.any (fun fim => feed.id = fim.feed_id)) =
      (catalog.lib.feeds.find? (fun feed => row.2.any (fun fim => feed.id = fim.feed_id))).toList := by
  obtain ⟨item,none | fim⟩ := row
  · simp
  · exact filter_key catalog.feed_key fim.feed_id

theorem joined_eq (query : ItemQuery) :
    query.joined catalog.lib = catalog.lib.content_items.map (fun item => catalog.row_of item query) := by
  have fims : left_join (fun (item : ItemRow) (fim : FeedItemMeta) => decide (fim.content_item_id = item.id))
      catalog.lib.content_items catalog.lib.feed_item_meta =
        catalog.lib.content_items.map (fun item => (item,catalog.fim_of item)) :=
    left_join_map (fun item => filter_key catalog.meta_key item.id)
  have feeds (rows : List (ItemRow × Option FeedItemMeta)) :
      left_join (fun (row : ItemRow × Option FeedItemMeta) (feed : Feed) => row.2.any (fun fim => feed.id = fim.feed_id))
        rows catalog.lib.feeds = _ := left_join_map catalog.one_feed
  rw [ItemQuery.joined,fims]
  cases fim : query.fim with
  | true => cases given : query.feeds with
    | true =>
      simp only [if_true,feeds,List.map_map]
      refine List.map_congr_left (fun item _ => ?_)
      simp only [Function.comp_apply,row_of,fim,given,feed_of,if_true,and_self]
      cases catalog.fim_of item with
      | none => simp
      | some fim => rfl
    | false =>
      simp only [if_true,Bool.false_eq_true,if_false,List.map_map]
      refine List.map_congr_left (fun item _ => ?_)
      simp only [Function.comp_apply,row_of,fim,given,if_true,Bool.false_eq_true,false_and,if_false]
  | false => cases given : query.feeds with
    | true =>
      simp only [if_true,Bool.false_eq_true,if_false,feeds,List.map_map]
      refine List.map_congr_left (fun item _ => ?_)
      simp [row_of,fim,given]
    | false =>
      simp only [Bool.false_eq_true,if_false,List.map_map]
      refine List.map_congr_left (fun item _ => ?_)
      simp [row_of,fim,given]

end Catalog

/-! ### Conditions and the filter -/

/-- The filter admits an item: all of its criteria hold. -/
def ContentItemFilter.admits (filter : ContentItemFilter) (catalog : Catalog) (item : ItemRow) : Bool :=
  filter.content_type.all (fun content_type => item.content_type = content_type) &&
  filter.status.all (fun status => item.status = status) &&
  filter.feed_id.all (fun feed => (catalog.fim_of item).map FeedItemMeta.feed_id = some feed.to_string) &&
  filter.folder_id.all (fun folder =>
    (catalog.feed_of item).bind (fun feed => catalog.folder_id feed.id) = some folder.to_string) &&
  filter.tag_id.all (fun tag => (item.id,tag.to_string) ∈ catalog.lib.content_item_tags) &&
  filter.collection_id.all (fun coll =>
    catalog.lib.content_item_collections.any
      (fun m => m.content_item_id = item.id && m.collection_id = coll.to_string)) &&
  (filter.uncollected → !catalog.lib.content_item_collections.any (fun m => m.content_item_id = item.id))

section
variable {lib : Library} {folder_id : String → Option String} {params : List String} {row : JoinedRow}
  {condition : Condition}
  {parts : List (Condition × Option String)} {built : List Condition × List String}

@[simp] theorem test_shift (condition : Condition) (value : String) (offset : ℕ) :
    (condition.shift offset).test lib folder_id row value = condition.test lib folder_id row value := by
  cases condition with
  | _ => rfl

/-- More values change nothing for a number that has its value. -/
theorem holds_append {n : ℕ} (number : condition.number = some n) (low : 1 ≤ n ∧ n ≤ params.length) (more : List String) :
    condition.holds lib folder_id (params ++ more) row = condition.holds lib folder_id params row := by
  have early : n - 1 < params.length := by omega
  rw [Condition.holds,Condition.holds,number]
  dsimp only
  rw [List.getElem?_append_left early]

/-- Numbers that have moved up find their values after as many others. -/
theorem holds_shift {first : List String} (low : ∀ n, condition.number = some n → 1 ≤ n) :
    (condition.shift first.length).holds lib folder_id (first ++ params) row =
      condition.holds lib folder_id params row := by
  rw [Condition.holds,Condition.holds,Condition.number_shift]
  cases number : condition.number with
  | none => simp
  | some n =>
    have := low n number
    simp only [Option.map_some,test_shift]
    rw [List.getElem?_append_right (by omega)]
    congr 2
    omega

theorem pushed_holds (kinds : ∀ part ∈ parts, part.1.number = some 0)
    (low : ∀ condition ∈ built.1, ∃ n, condition.number = some n ∧ 1 ≤ n ∧ n ≤ built.2.length) :
    (parts.foldl pushed built).1.all (fun condition => condition.holds lib folder_id (parts.foldl pushed built).2 row) =
      (built.1.all (fun condition => condition.holds lib folder_id built.2 row) &&
        parts.all (fun part => part.2.all (fun value => part.1.test lib folder_id row value))) := by
  induction parts generalizing built with
  | nil => simp
  | cons part parts ih =>
    have rest : ∀ part ∈ parts, part.1.number = some 0 := fun later inside => kinds later (List.mem_cons_of_mem _ inside)
    obtain ⟨kind,none | value⟩ := part
    · rw [List.foldl_cons,List.all_cons]
      exact (ih rest low).trans (by rfl)
    · have zero : kind.number = some 0 := kinds _ List.mem_cons_self
      have number : (kind.shift (built.2.length + 1)).number = some (built.2.length + 1) := by
        rw [Condition.number_shift,zero,Option.map_some,Nat.zero_add]
      have low' : ∀ condition ∈ (pushed built (kind,some value)).1, ∃ n, condition.number = some n ∧ 1 ≤ n ∧
          n ≤ (pushed built (kind,some value)).2.length := by
        intro condition inside
        simp only [pushed,List.mem_append,List.mem_singleton,List.length_append,List.length_singleton] at inside ⊢
        obtain old | rfl := inside
        · obtain ⟨n,numbered,positive,small⟩ := low condition old
          exact ⟨n,numbered,positive,by omega⟩
        · exact ⟨_,number,by omega,by omega⟩
      rw [List.foldl_cons,ih rest low',List.all_cons,← Bool.and_assoc]
      congr 1
      have olds : built.1.all (fun condition => condition.holds lib folder_id (built.2 ++ [value]) row) =
          built.1.all (fun condition => condition.holds lib folder_id built.2 row) := by
        rw [Bool.eq_iff_iff,List.all_eq_true,List.all_eq_true]
        refine forall₂_congr (fun condition inside => ?_)
        obtain ⟨n,numbered,small⟩ := low condition inside
        rw [holds_append numbered small]
      have new : (kind.shift (built.2.length + 1)).holds lib folder_id (built.2 ++ [value]) row =
          kind.test lib folder_id row value := by
        rw [Condition.holds,number]
        simp
      simp only [pushed,List.all_append,olds,List.all_cons,List.all_nil,Bool.and_true,new,Option.all_some]

end

namespace Catalog
variable (catalog : Catalog) (filter : ContentItemFilter) (columns : Columns) (page : Option (ℕ × Option ℕ))
  (item : ItemRow)

theorem parts_test : (filter.parts.all (fun part => part.2.all (fun value =>
      part.1.test catalog.lib catalog.folder_id (catalog.row_of item (filter.query columns page)) value)) &&
      (filter.uncollected → !catalog.lib.content_item_collections.any (fun m => m.content_item_id = item.id) : Bool)) =
    filter.admits catalog item := by
  have content_types : filter.content_type.all (fun content_type => item.content_type.as_str = content_type.as_str) =
      filter.content_type.all (fun content_type => item.content_type = content_type) := by
    simp only [ContentType.as_str_injective.eq_iff]
  have statuses : filter.status.all (fun status => item.status.as_str = status.as_str) =
      filter.status.all (fun status => item.status = status) := by
    simp only [DocumentStatus.as_str_injective.eq_iff]
  have feeds : filter.feed_id.all (fun feed => (catalog.row_of item (filter.query columns page)).fim.map FeedItemMeta.feed_id =
      some feed.to_string) = filter.feed_id.all (fun feed => (catalog.fim_of item).map FeedItemMeta.feed_id =
        some feed.to_string) := by
    cases given : filter.feed_id with
    | none => rfl
    | some feed => simp [row_of,ContentItemFilter.query,given]
  have folders : filter.folder_id.all (fun folder =>
      (catalog.row_of item (filter.query columns page)).feed.bind (fun feed => catalog.folder_id feed.id) =
        some folder.to_string) =
      filter.folder_id.all (fun folder =>
        (catalog.feed_of item).bind (fun feed => catalog.folder_id feed.id) = some folder.to_string) := by
    cases given : filter.folder_id with
    | none => rfl
    | some folder => simp [row_of,ContentItemFilter.query,given]
  simp only [ContentItemFilter.parts,List.all_cons,List.all_nil,Bool.and_true,Option.all_map,Condition.test,
    ContentItemFilter.admits,Bool.and_assoc]
  rw [← content_types,← statuses,← feeds,← folders]
  rfl

/-- The conditions of the query for a filter hold of the items that the filter admits. -/
theorem query_holds : (filter.query columns page).conditions.all (fun condition =>
      condition.holds catalog.lib catalog.folder_id filter.values (catalog.row_of item (filter.query columns page))) =
    filter.admits catalog item := by
  have values : filter.values = (filter.parts.foldl pushed ([],[])).2 := (pushed_values filter.parts ([],[])).symm
  rw [query_conditions,List.all_append,values,pushed_holds (parts_numbered filter) (by simp),List.all_nil,Bool.true_and,
    ← catalog.parts_test filter columns page item]
  congr 1
  cases filter.uncollected with
  | true =>
    simp only [if_true,List.all_cons,List.all_nil,Bool.and_true,Condition.holds,Condition.number,Condition.test,row_of,
      forall_const,Bool.decide_eq_true]
    rfl
  | false => simp

/-- The rows that the query for a filter finds. -/
def admitted : List JoinedRow :=
  (catalog.lib.content_items.filter (fun item => filter.admits catalog item)).map
    (fun item => catalog.row_of item (filter.query .items none))

/-- The items that a filter admits, in its order. -/
def listing : List ItemRow :=
  ((catalog.admitted filter).insertionSort (fun a b => a.before filter.sort b)).map JoinedRow.item

theorem found_query : (filter.query columns page).found catalog.lib catalog.folder_id filter.values =
    catalog.admitted filter := by
  have holds := catalog.query_holds filter columns page
  rw [ItemQuery.found,joined_eq,List.filter_map,admitted]
  congr 2
  funext item
  exact holds item

/-- The subquery of the bulk update finds the same: its numbers have moved up by as many as the values before. -/
theorem found_shift (first : List String) : ((filter.query columns page).shift first.length).found catalog.lib catalog.folder_id
    (first ++ filter.values) = catalog.admitted filter := by
  rw [← catalog.found_query filter columns page,ItemQuery.found,ItemQuery.found]
  have same : ((filter.query columns page).shift first.length).joined catalog.lib =
      (filter.query columns page).joined catalog.lib := rfl
  rw [same]
  congr 1
  funext row
  rw [ItemQuery.shift,List.all_map,Bool.eq_iff_iff,List.all_eq_true,List.all_eq_true]
  refine forall₂_congr (fun condition inside => ?_)
  rw [Function.comp_apply,holds_shift]
  intro n number
  have among := List.mem_filterMap.mpr ⟨condition,inside,number⟩
  rw [query_numbers] at among
  exact (List.mem_range'_1.mp among).1

theorem admitted_items : (catalog.admitted filter).map JoinedRow.item =
    catalog.lib.content_items.filter (fun item => filter.admits catalog item) := by
  rw [admitted,List.map_map]
  exact List.map_id _

theorem admitted_ids : ((catalog.admitted filter).map (fun row => row.item.id)).Nodup := by
  have ids : (catalog.admitted filter).map (fun row => row.item.id) =
      ((catalog.admitted filter).map JoinedRow.item).map ItemRow.id := (List.map_map ..).symm
  rw [ids,admitted_items]
  exact catalog.item_key.sublist (List.filter_sublist.map _)

/-- The listing has each of the admitted items once. -/
theorem listing_perm : (catalog.listing filter).Perm
    (catalog.lib.content_items.filter (fun item => filter.admits catalog item)) := by
  rw [← admitted_items]
  exact (List.perm_insertionSort _ _).map _

theorem rows_found {query : ItemQuery} {params : List String}
    (found : query.found catalog.lib catalog.folder_id params = catalog.admitted filter)
    (sort : query.sort = filter.sort) :
    (query.rows catalog.lib catalog.folder_id params).map JoinedRow.item =
      match query.page with
      | none => catalog.listing filter
      | some (limit,offset) => ((catalog.listing filter).drop (offset.getD 0)).take limit := by
  have by_id := distinct_key (catalog.admitted_ids filter)
  have by_row : distinct JoinedRow.item (catalog.admitted filter) = catalog.admitted filter := by
    refine distinct_key (List.Nodup.of_map ItemRow.id ?_)
    rw [List.map_map]
    exact catalog.admitted_ids filter
  have once : (match query.columns with
      | .items => distinct JoinedRow.item (query.found catalog.lib catalog.folder_id params)
      | _ => distinct (fun row => row.item.id) (query.found catalog.lib catalog.folder_id params)) =
        catalog.admitted filter := by
    rw [found]
    cases query.columns with
    | items => exact by_row
    | ids => exact by_id
    | count => exact by_id
  rw [ItemQuery.rows,once,sort]
  cases query.page with
  | none => rfl
  | some page => exact (List.map_take ..).trans (congrArg _ (List.map_drop ..))

end Catalog

/-! ### Numbers of values -/

theorem foldr_max_range (start n : ℕ) : (List.range' start n).foldr max 0 = if n = 0 then 0 else start + n - 1 := by
  induction n generalizing start with
  | zero => rfl
  | succ n ih =>
    rw [List.range'_succ,List.foldr_cons,ih,if_neg (Nat.succ_ne_zero n)]
    split
    · omega
    · omega

theorem count_select (filter : ContentItemFilter) (columns : Columns) (page : Option (ℕ × Option ℕ)) :
    (Statement.select (filter.query columns page)).bind_parameter_count = filter.values.length := by
  rw [Statement.bind_parameter_count,query_numbers,foldr_max_range]
  split
  · omega
  · omega

/-- The bulk update asks for a fourth value, whatever the filter. -/
theorem count_update (filter : ContentItemFilter) :
    (Statement.update 3 4 ((filter.query .ids none).shift 2)).bind_parameter_count =
      max 4 (filter.values.length + 2) := by
  have numbers : ((filter.query .ids none).shift 2).conditions.filterMap Condition.number =
      List.range' 3 filter.values.length := by
    have shifted : Condition.number ∘ Condition.shift 2 = fun condition => condition.number.map (2 + ·) := by
      funext condition
      rw [Function.comp_apply,Condition.number_shift]
      simp only [Nat.add_comm]
    rw [ItemQuery.shift,List.filterMap_map,shifted,← List.map_filterMap,query_numbers,List.map_add_range']
  rw [Statement.bind_parameter_count,numbers,foldr_max_range]
  split
  · omega
  · omega

/-! ### The three uses -/

/-- A list from an offset on, up to a limit. -/
def slice {α : Type} (limit offset : Option UInt32) (rows : List α) : List α :=
  let rows := rows.drop ((offset.map UInt32.toNat).getD 0)
  match limit with
  | none => rows
  | some limit => rows.take limit.toNat

section
variable (catalog : Catalog) (filter : ContentItemFilter) (limit offset : Option UInt32) (new_status : DocumentStatus)

theorem query_items_eq :
    query_items catalog.lib catalog.folder_id (build_content_item_query (ItemQuery.clause .items) filter limit offset).1
      (build_content_item_query (ItemQuery.clause .items) filter limit offset).2 =
        if offset = none ∨ limit ≠ none then .ok (slice limit offset (catalog.listing filter)) else .error .Sqlite := by
  rw [query_items,(build_spelled .items filter limit offset).1]
  by_cases limited : offset = none ∨ limit ≠ none
  · rw [if_pos limited,prepare_query .items filter limited]
    dsimp only
    rw [if_pos ⟨rfl,(count_select ..).symm⟩,catalog.rows_found filter (catalog.found_query ..) rfl]
    cases limit with
    | none =>
      obtain rfl := limited.resolve_right (fun given => given rfl)
      rfl
    | some limit => rfl
  · obtain ⟨given,none⟩ := not_or.mp limited
    obtain ⟨off,rfl⟩ := Option.ne_none_iff_exists'.mp given
    obtain rfl := not_not.mp none
    rw [if_neg limited,prepare_offset]

/-- The count is the number of items that the filter admits. -/
theorem count_eq : count_content_items_filtered catalog.lib catalog.folder_id filter =
    .ok (catalog.listing filter).length := by
  have prepared := prepare_query .count filter (.inl rfl : (none : Option UInt32) = none ∨ (none : Option UInt32) ≠ none)
  have values := (build_spelled .count filter none none).1
  change query_count catalog.lib catalog.folder_id (build_content_item_query (ItemQuery.clause .count) filter none none).1
    (build_content_item_query (ItemQuery.clause .count) filter none none).2 = _
  rw [query_count,prepared,values]
  dsimp only
  rw [if_pos ⟨rfl,(count_select ..).symm⟩,catalog.found_query,distinct_key (catalog.admitted_ids filter),Catalog.listing,
    List.length_map,List.length_insertionSort]

theorem mem_listing {row : ItemRow} (inside : row ∈ catalog.lib.content_items) :
    row.id ∈ (catalog.listing filter).map ItemRow.id ↔ filter.admits catalog row := by
  have members (other : ItemRow) : other ∈ catalog.listing filter ↔
      other ∈ catalog.lib.content_items ∧ filter.admits catalog other := by
    rw [(catalog.listing_perm filter).mem_iff,List.mem_filter]
  constructor
  · intro listed
    obtain ⟨other,found,same⟩ := List.mem_map.mp listed
    obtain ⟨inside',admitted⟩ := (members other).mp found
    rw [← List.inj_on_of_nodup_map catalog.item_key inside' inside same]
    exact admitted
  · intro admitted
    exact List.mem_map_of_mem ((members row).mpr ⟨inside,admitted⟩)

section
variable [TimeCrate]

/-- The listing for a limit and an offset. -/
theorem list_eq : list_content_items_filtered catalog.lib catalog.folder_id filter limit offset =
    if offset = none ∨ limit ≠ none then
      match (slice limit offset (catalog.listing filter)).mapM Library.row_to_content_item with
      | none => .error .panic
      | some items => .ok items
    else .error (.storage .Sqlite) := by
  have listed := query_items_eq catalog filter limit offset
  change (match query_items catalog.lib catalog.folder_id
      (build_content_item_query (ItemQuery.clause .items) filter limit offset).1
      (build_content_item_query (ItemQuery.clause .items) filter limit offset).2 with
    | .error e => .error (.storage e)
    | .ok rows =>
      match rows.mapM Library.row_to_content_item with
      | none => .error .panic
      | some items => .ok items : Except Failure (List Library.ContentItem)) = _
  rw [listed]
  by_cases limited : offset = none ∨ limit ≠ none
  · rw [if_pos limited,if_pos limited]
  · rw [if_neg limited,if_neg limited]

/-- The bulk update: it needs two values of the filter, and the first of them is the status that it sets. -/
theorem bulk_eq : bulk_update_status catalog.lib catalog.folder_id filter new_status =
    if filter.values.length < 2 then .error .Sqlite
    else if catalog.listing filter = [] then .ok (catalog.lib,0)
    else
      match filter.values.head?.bind status_of with
      | none => .error .Sqlite
      | some status =>
        .ok ({ catalog.lib with content_items := catalog.lib.content_items.map (fun row =>
          if filter.admits catalog row then
            { row with status := status, updated_at := TimeCrate.strftime catalog.lib.now }
          else row) },
          (catalog.listing filter).length) := by
  have values : (build_content_item_query "SELECT DISTINCT ci.id" filter none none).2 = filter.values :=
    (build_spelled .ids filter none none).1
  change execute_update catalog.lib catalog.folder_id
    (reindex_params ("UPDATE content_items SET status = ?1, updated_at = ?2 WHERE id IN (" ++
      (build_content_item_query "SELECT DISTINCT ci.id" filter none none).1 ++ ")") 2)
    ([new_status.as_str,fmt_time catalog.lib.now] ++
      (build_content_item_query "SELECT DISTINCT ci.id" filter none none).2) = _
  rw [execute_update,prepare_reindexed,values]
  dsimp only
  rw [count_update,List.length_append]
  by_cases few : filter.values.length < 2
  · rw [if_pos few,if_neg]
    have : [new_status.as_str,fmt_time catalog.lib.now].length = 2 := rfl
    omega
  · obtain ⟨first,second,rest,given⟩ : ∃ first second rest, filter.values = first :: second :: rest := by
      match filter.values,few with
      | [],few => exact absurd (by decide) few
      | [_],few => exact absurd (Nat.lt_succ_self 1) few
      | first :: second :: rest,_ => exact ⟨first,second,rest,rfl⟩
    have found := catalog.found_shift filter .ids none [new_status.as_str,fmt_time catalog.lib.now]
    have listed : (((filter.query .ids none).shift 2).rows catalog.lib catalog.folder_id
        ([new_status.as_str,fmt_time catalog.lib.now] ++ filter.values)).map (fun row => row.item.id) =
          (catalog.listing filter).map ItemRow.id := by
      have same : (((filter.query .ids none).shift 2).rows catalog.lib catalog.folder_id
        ([new_status.as_str,fmt_time catalog.lib.now] ++ filter.values)).map JoinedRow.item = catalog.listing filter :=
        catalog.rows_found filter found rfl
      rw [← same,List.map_map]
      rfl
    have affected : catalog.lib.content_items.filter (fun row => row.id ∈ (catalog.listing filter).map ItemRow.id) =
        catalog.lib.content_items.filter (fun row => filter.admits catalog row) := by
      refine List.filter_congr (fun row inside => ?_)
      rw [Bool.eq_iff_iff,decide_eq_true_iff]
      exact mem_listing catalog filter inside
    have length := (catalog.listing_perm filter).length_eq
    have nothing : catalog.lib.content_items.filter (fun row => filter.admits catalog row) = [] ↔
        catalog.listing filter = [] := by
      rw [← List.length_eq_zero_iff,← List.length_eq_zero_iff,length]
    have bound : [new_status.as_str,fmt_time catalog.lib.now].length + filter.values.length =
        max 4 (filter.values.length + 2) := by
      have : [new_status.as_str,fmt_time catalog.lib.now].length = 2 := rfl
      omega
    rw [if_neg few,if_pos bound,listed,affected]
    simp only [nothing,← length]
    by_cases none : catalog.listing filter = []
    · rw [if_pos none,if_pos none]
    · have status : ([new_status.as_str,fmt_time catalog.lib.now] ++ filter.values)[3 - 1]? = filter.values.head? := by
        rw [given]
        rfl
      have updated_at : ([new_status.as_str,fmt_time catalog.lib.now] ++ filter.values)[4 - 1]? = some second := by
        rw [given]
        rfl
      rw [if_neg none,if_neg none,status,updated_at]
      cases filter.values.head?.bind status_of with
      | none => rfl
      | some status =>
        dsimp only
        congr 3
        refine List.map_congr_left (fun row inside => ?_)
        simp only [mem_listing catalog filter inside,ItemRow.touched]

end

/-! ### The status that is set -/

theorem status_of_as_str (status : DocumentStatus) : status_of status.as_str = some status := by
  cases status with
  | _ => decide

theorem status_of_content_type (content_type : ContentType) : status_of content_type.as_str = none := by
  cases content_type with
  | _ => decide

theorem status_of_uuid (id : Uuid) : status_of id.to_string = none := by
  rw [status_of,List.find?_eq_none]
  intro status _
  rw [decide_eq_true_iff]
  intro same
  have long := id.shape
  rw [← same] at long
  revert long
  cases status with
  | _ => decide

/-- The first value of a filter is a status just where it names a status and no content type. -/
theorem head_status (filter : ContentItemFilter) (status : DocumentStatus) :
    filter.values.head?.bind status_of = some status ↔ filter.content_type = none ∧ filter.status = some status := by
  obtain ⟨content_type,own,feed_id,folder_id,tag_id,collection_id,uncollected,sort⟩ := filter
  obtain none | content_type := content_type
  · obtain none | own := own
    · refine iff_of_false ?_ (fun given => by cases given.2)
      intro found
      obtain ⟨value,first,read⟩ := Option.bind_eq_some_iff.mp found
      have among := List.mem_of_head? first
      simp only [ContentItemFilter.values,ContentItemFilter.parts,List.mem_filterMap,List.mem_cons,List.not_mem_nil,
        or_false] at among
      obtain ⟨part,one,given⟩ := among
      have from_uuid {id : Option Uuid} (given : id.map Uuid.to_string = some value) : False := by
        obtain ⟨id,-,rfl⟩ := Option.map_eq_some_iff.mp given
        cases (status_of_uuid id).symm.trans read
      obtain rfl | rfl | rfl | rfl | rfl | rfl := one
      · cases given
      · cases given
      · exact from_uuid given
      · exact from_uuid given
      · exact from_uuid given
      · exact from_uuid given
    · have first : (ContentItemFilter.values
          ⟨none,some own,feed_id,folder_id,tag_id,collection_id,uncollected,sort⟩).head?.bind
          status_of = some own := status_of_as_str own
      rw [first]
      simp
  · refine iff_of_false ?_ (fun given => by cases given.1)
    intro found
    cases (status_of_content_type content_type).symm.trans found

/-! ### One filter, three uses -/

section
variable [TimeCrate]

/-- The bulk update sets the new status on what the listing gives and leaves the rest but for the times, the count is
    the length of the listing, and its pages are its slices. -/
def OneFilter (catalog : Catalog) (filter : ContentItemFilter) (new_status : DocumentStatus)
    (limit offset : Option UInt32) : Prop :=
  ∃ items, list_content_items_filtered catalog.lib catalog.folder_id filter none none = .ok items ∧
    (∃ (updated_at : ItemRow → String) (affected : ℕ),
      bulk_update_status catalog.lib catalog.folder_id filter new_status =
      .ok ({ catalog.lib with content_items := catalog.lib.content_items.map (fun row =>
        if row.id ∈ items.map Library.ContentItem.id then { row with status := new_status, updated_at := updated_at row }
        else row) },affected)) ∧
    count_content_items_filtered catalog.lib catalog.folder_id filter = .ok items.length ∧
    list_content_items_filtered catalog.lib catalog.folder_id filter limit offset = .ok (slice limit offset items)

theorem reads_iff {rows : List ItemRow} {items : List Library.ContentItem} :
    rows.mapM Library.row_to_content_item = some items ↔
      List.Forall₂ (fun row item => Library.row_to_content_item row = some item) rows items := by
  induction rows generalizing items with
  | nil =>
    rw [List.mapM_nil,List.forall₂_nil_left_iff]
    exact ⟨fun same => (Option.some.inj same).symm,fun same => by rw [same]; rfl⟩
  | cons row rows ih =>
    rw [List.mapM_cons,List.forall₂_cons_left_iff]
    constructor
    · intro reads
      obtain ⟨item,here,reads⟩ := Option.bind_eq_some_iff.mp reads
      obtain ⟨rest,later,made⟩ := Option.bind_eq_some_iff.mp reads
      cases made
      exact ⟨item,rest,here,ih.mp later,rfl⟩
    · rintro ⟨item,rest,here,later,rfl⟩
      rw [here,ih.mpr later]
      rfl

theorem read_each {rows : List ItemRow} (reads : ∀ row ∈ rows, Library.row_to_content_item row ≠ none) :
    ∃ items, rows.mapM Library.row_to_content_item = some items := by
  rw [← Option.ne_none_iff_exists']
  intro unread
  obtain ⟨row,inside,fails⟩ := read_all.mp unread
  exact reads row inside fails

theorem read_slice {rows : List ItemRow} {items : List Library.ContentItem}
    (reads : rows.mapM Library.row_to_content_item = some items)
    (limit offset : Option UInt32) :
    (slice limit offset rows).mapM Library.row_to_content_item = some (slice limit offset items) := by
  have each := List.forall₂_drop ((offset.map UInt32.toNat).getD 0) (reads_iff.mp reads)
  rw [reads_iff]
  cases limit with
  | none => exact each
  | some limit => exact List.forall₂_take _ each

theorem read_ids {rows : List ItemRow} {items : List Library.ContentItem}
    (reads : rows.mapM Library.row_to_content_item = some items) :
    items.map Library.ContentItem.id = rows.map ItemRow.id := by
  have each := reads_iff.mp reads
  induction each with
  | nil => rfl
  | cons here later ih =>
    rw [List.map_cons,List.map_cons,ih (reads_iff.mpr later)]
    congr 1
    simp only [Library.row_to_content_item,Option.bind_eq_bind,Option.bind_eq_some_iff] at here
    obtain ⟨_,-,_,-,_,-,_,-,made⟩ := here
    cases made
    rfl

/-- One filter has its three uses exactly where it has two values, the first of them the new status unless it admits
    nothing, where an offset comes with a limit and where the stored times of what it admits read. -/
theorem one_filter_iff (catalog : Catalog) (filter : ContentItemFilter) (new_status : DocumentStatus)
    (limit offset : Option UInt32) : OneFilter catalog filter new_status limit offset ↔
      2 ≤ filter.values.length ∧
      ((∀ row ∈ catalog.lib.content_items, filter.admits catalog row = false) ∨
        filter.content_type = none ∧ filter.status = some new_status) ∧
      (offset = none ∨ limit ≠ none) ∧
      ∀ row ∈ catalog.lib.content_items, filter.admits catalog row → Library.row_to_content_item row ≠ none := by
  have members (row : ItemRow) :
      row ∈ catalog.listing filter ↔ row ∈ catalog.lib.content_items ∧ filter.admits catalog row := by
    rw [(catalog.listing_perm filter).mem_iff,List.mem_filter]
  have nothing : catalog.listing filter = [] ↔ ∀ row ∈ catalog.lib.content_items, filter.admits catalog row = false := by
    rw [List.eq_nil_iff_forall_not_mem]
    refine forall_congr' (fun row => ?_)
    rw [members,not_and,Bool.not_eq_true]
  have whole : slice none none (catalog.listing filter) = catalog.listing filter := rfl
  constructor
  · rintro ⟨items,listed,⟨updated_at,affected,updated⟩,-,paged⟩
    have reads : (catalog.listing filter).mapM Library.row_to_content_item = some items := by
      rw [list_eq,if_pos (.inl rfl),whole] at listed
      cases read : (catalog.listing filter).mapM Library.row_to_content_item with
      | none =>
        rw [read] at listed
        cases listed
      | some items' =>
        rw [read] at listed
        cases listed
        rfl
    rw [bulk_eq] at updated
    refine ⟨?_,?_,?_,?_⟩
    · by_contra few
      rw [if_pos (Nat.lt_of_not_le few)] at updated
      cases updated
    · by_cases none : catalog.listing filter = []
      · exact .inl (nothing.mp none)
      · right
        rw [← head_status]
        have enough : ¬ filter.values.length < 2 := by
          intro few
          rw [if_pos few] at updated
          cases updated
        rw [if_neg enough,if_neg none] at updated
        cases given : filter.values.head?.bind status_of with
        | none =>
          rw [given] at updated
          cases updated
        | some status =>
          rw [given] at updated
          obtain ⟨row,found⟩ := List.exists_mem_of_ne_nil _ none
          obtain ⟨inside,admitted⟩ := (members row).mp found
          have same := congrArg (fun result => result.1.content_items) (Except.ok.inj updated)
          have here := List.map_inj_left.mp same row inside
          have listed : row.id ∈ items.map Library.ContentItem.id := by
            rw [read_ids reads]
            exact List.mem_map_of_mem found
          rw [if_pos admitted,if_pos listed] at here
          exact congrArg (fun row => some row.status) here
    · by_contra limited
      rw [list_eq,if_neg limited] at paged
      cases paged
    · intro row inside admitted unread
      have all := read_all.mpr ⟨row,(members row).mpr ⟨inside,admitted⟩,unread⟩
      rw [reads] at all
      cases all
  · rintro ⟨enough,sets,limited,times⟩
    have read : ∀ row ∈ catalog.listing filter, Library.row_to_content_item row ≠ none := by
      intro row found
      obtain ⟨inside,admitted⟩ := (members row).mp found
      exact times row inside admitted
    obtain ⟨items,reads⟩ := read_each read
    have ids := read_ids reads
    refine ⟨items,?_,?_,?_,?_⟩
    · rw [list_eq,if_pos (.inl rfl),whole,reads]
    · rw [bulk_eq,if_neg (Nat.not_lt.mpr enough)]
      by_cases none : catalog.listing filter = []
      · refine ⟨fun row => row.updated_at,0,?_⟩
        rw [if_pos none,ids,none]
        simp
      · obtain ⟨no_type,status⟩ := sets.resolve_left (fun empty => none (nothing.mpr empty))
        refine ⟨fun _ => TimeCrate.strftime catalog.lib.now,(catalog.listing filter).length,?_⟩
        rw [if_neg none,(head_status filter new_status).mpr ⟨no_type,status⟩,ids]
        dsimp only
        congr 3
        refine List.map_congr_left (fun row inside => ?_)
        simp only [mem_listing catalog filter inside]
    · rw [count_eq,read_length reads]
    · rw [list_eq,if_pos limited,read_slice reads]

end

/-- A library of one item. -/
def oneItem : Catalog where
  lib := {
    content_items := [⟨1,"a",none,"one",none,.Article,.Inbox,none,none,none,"now","now",none⟩]
    content_items_fts := [], feeds := [], feed_item_meta := [], bookmark_meta := [], highlight_meta := [], notes := []
    tags := [], collections := [], content_item_tags := [], content_item_collections := [], content_rules := []
    now := ⟨0,0⟩, uuids := fun _ => "b" }
  folder_id := fun _ => none
  item_key := by simp
  meta_key := by simp
  feed_key := by simp

/-- Without criteria the item is listed and counted, and the update asks for values that it does not get. -/
theorem bulk_update_unbound :
    letI := plainTimes
    count_content_items_filtered oneItem.lib oneItem.folder_id .default = .ok 1 ∧
      bulk_update_status oneItem.lib oneItem.folder_id .default .Archived = .error .Sqlite ∧
      ¬ OneFilter oneItem .default .Archived none none := by
  let := plainTimes
  have fails : bulk_update_status oneItem.lib oneItem.folder_id .default .Archived = .error .Sqlite := by
    rw [bulk_eq,if_pos (by decide)]
  refine ⟨by rw [count_eq]; rfl,fails,?_⟩
  rintro ⟨items,-,⟨updated_at,affected,updated⟩,-⟩
  cases fails.symm.trans updated

end
end Pergamon
