import Mathlib.Data.List.Sort
import Pergamon.Listing

/-!
The item listing of the server, page by page (`GET /api/items`, without a search term).

The handler looks up the tag, counts, lists one page and writes links to others. A tag that is not
there is dropped, the offset is a product of 32 bits, the number of pages a quotient, and a link
keeps nothing of the query but the size of its pages. So the pages after the first are those of
the whole library (`follows_bare`), and the listing is exact under the conditions of `exact_iff`.
-/
namespace Pergamon

/-! ### Sorted sublists -/

section
variable {α : Type} {r : α → α → Prop} [DecidableRel r] [IsTrans α r] {p : α → Bool}

theorem filter_orderedInsert (a : α) {l : List α} (sorted : l.Pairwise r) :
    (l.orderedInsert r a).filter p = if p a then (l.filter p).orderedInsert r a else l.filter p := by
  induction l with
  | nil => cases given : p a with
    | _ => simp [given]
  | cons b l ih =>
    obtain ⟨first,rest⟩ := List.pairwise_cons.mp sorted
    rw [List.orderedInsert_cons]
    by_cases before : r a b
    · rw [if_pos before,List.filter_cons]
      split
      · -- What is left of the list comes after `a`, with or without `b`.
        have all : ∀ c ∈ (b :: l).filter p, r a c := by
          intro c inside
          obtain rfl | later := List.mem_cons.mp (List.mem_of_mem_filter inside)
          · exact before
          · exact IsTrans.trans a b c before (first c later)
        cases listed : (b :: l).filter p with
        | nil => rfl
        | cons c rest => rw [List.orderedInsert_cons,if_pos (all c (by rw [listed]; exact List.mem_cons_self))]
      · rfl
    · rw [if_neg before,List.filter_cons,List.filter_cons,ih rest]
      cases inside : p b with
      | false => simp
      | true =>
        simp only [if_true]
        split
        · rw [List.orderedInsert_cons,if_neg before]
        · rfl

/-- A filter and a stable sort may change places. -/
theorem filter_insertionSort [Std.Total r] (l : List α) :
    (l.insertionSort r).filter p = (l.filter p).insertionSort r := by
  induction l with
  | nil => rfl
  | cons a l ih =>
    rw [List.insertionSort_cons,filter_orderedInsert a (List.pairwise_insertionSort r l),ih,List.filter_cons]
    split
    · rw [List.insertionSort_cons]
    · rfl

end

/-- Items with the newest first. -/
def newest_first (rows : List ItemRow) : List ItemRow := rows.insertionSort (fun a b => b.created_at ≤ a.created_at)

/-! ### The handler -/

/-- Query parameters for listing content items; the search term is left out. -/
structure ListItemsQuery where
  status : Option DocumentStatus
  content_type : Option ContentType
  tag : Option String
  feed_id : Option Uuid
  folder_id : Option Uuid
  page : Option UInt32
  per_page : Option UInt32

/-- Pagination query parameters. -/
structure PaginationParams where
  page : Option UInt32
  per_page : Option UInt32

def ListItemsQuery.pagination (query : ListItemsQuery) : PaginationParams := ⟨query.page,query.per_page⟩

/-- Why a request has no response: an operation that overflows, a division by zero, or the library. -/
inductive Fault where
  | overflow
  | division_by_zero
  | failure (e : Failure)

def DEFAULT_PER_PAGE : UInt32 := 50

def MAX_PER_PAGE : UInt32 := 100

namespace PaginationParams
variable (params : PaginationParams)

/-- The page, from 1 on. -/
def resolved_page : UInt32 := max (params.page.getD 1) 1

def resolved_per_page : UInt32 := min (params.per_page.getD DEFAULT_PER_PAGE) MAX_PER_PAGE

/-- The offset, unless the product overflows. -/
def offset : Except Fault UInt32 :=
  let offset := (params.resolved_page - 1).toNat * params.resolved_per_page.toNat
  if offset < 2 ^ 32 then .ok (UInt32.ofNat offset) else .error .overflow

def limit : UInt32 := params.resolved_per_page

end PaginationParams

/-- A link of a page to another. -/
structure Link where
  base_path : String
  page : UInt32
  per_page : UInt32
  rel : String
  deriving DecidableEq

namespace Link
variable (link : Link)

def text : String :=
  "<" ++ link.base_path ++ "?page=" ++ toString link.page.toNat ++ "&per_page=" ++ toString link.per_page.toNat ++
    ">; rel=\"" ++ link.rel ++ "\""

/-- What the link asks for: a page and a size. -/
def query : ListItemsQuery := ⟨none,none,none,none,none,some link.page,some link.per_page⟩

end Link

structure Reply where
  body : List Library.ContentItem
  links : List Link
  X_Total_Count : String

namespace Reply
variable (response : Reply)

/-- The text of the `Link` header. -/
def link_header : String := String.intercalate ", " (response.links.map Link.text)

def link (rel : String) : Option Link := response.links.find? (fun link => link.rel = rel)

end Reply

/-- A body with what its headers say. -/
structure Paginated where
  body : List Library.ContentItem
  total : ℕ
  page : UInt32
  per_page : UInt32
  base_path : String

/-- A quotient, rounded up. -/
def div_ceil (a b : ℕ) : ℕ := if a % b = 0 then a / b else a / b + 1

namespace Paginated
variable (paginated : Paginated)

def new (body : List Library.ContentItem) (total : ℕ) (params : PaginationParams) (base_path : String) : Paginated :=
  ⟨body,total,params.resolved_page,params.resolved_per_page,base_path⟩

/-- The number of pages, of at most as many items as 32 bits count. -/
def total_pages : Except Fault UInt32 :=
  if paginated.total = 0 then .ok 1
  else if paginated.per_page = 0 then .error .division_by_zero
  else .ok (UInt32.ofNat (div_ceil (min paginated.total (2 ^ 32 - 1)) paginated.per_page.toNat))

/-- The links to the first page, the one before, the one after and the last. -/
def links (total_pages : UInt32) : List Link :=
  [⟨paginated.base_path,1,paginated.per_page,"first"⟩] ++
  (if paginated.page > 1 then [⟨paginated.base_path,paginated.page - 1,paginated.per_page,"prev"⟩] else []) ++
  (if paginated.page < total_pages then [⟨paginated.base_path,paginated.page + 1,paginated.per_page,"next"⟩] else []) ++
  [⟨paginated.base_path,total_pages,paginated.per_page,"last"⟩]

def into_response : Except Fault Reply := do
  let total_pages ← paginated.total_pages
  .ok ⟨paginated.body,paginated.links total_pages,toString paginated.total⟩

end Paginated

/-- A library with the times of its tags. -/
structure Served extends Catalog where
  tag_created_at : Tag → String

/-- A tag as it is read. -/
structure Served.Tag where
  id : Uuid
  name : String
  created_at : OffsetDateTime

/-- `Uuid::parse_str`, of the hyphenated texts. -/
def Uuid.parse_str (text : String) : Option Uuid := if shape : text.length = 36 then some ⟨text,shape⟩ else none

namespace Served
variable [TimeCrate] (served : Served)

/-- The row of the tag with a name, but for the case of its letters. -/
def tag_named (name : String) : Option Pergamon.Tag := served.lib.tags.find? (fun tag => Library.same_name tag.name name)

def row_to_tag (tag : Pergamon.Tag) : Option Tag := do
  let id ← Uuid.parse_str tag.id
  let created_at ← TimeCrate.parse_rfc3339 (served.tag_created_at tag)
  some ⟨id,tag.name,created_at⟩

def get_tag_by_name (name : String) : Except Failure (Option Tag) :=
  match served.tag_named name with
  | none => .ok none
  | some row =>
    match served.row_to_tag row with
    | none => .error .panic
    | some tag => .ok (some tag)

/-- What the library does, as the server sees it. -/
def asked {α : Type} (result : Except Failure α) : Except Fault α := result.mapError .failure

/-- `GET /api/items`. -/
def list_items (query : ListItemsQuery) : Except Fault Reply := do
  let pagination := query.pagination
  let tag_id ←
    match query.tag with
    | some tag_name => do
      let tag ← asked (served.get_tag_by_name tag_name)
      pure (tag.map Tag.id)
    | none => pure none
  let filter := { ContentItemFilter.default with
    content_type := query.content_type, status := query.status, feed_id := query.feed_id, folder_id := query.folder_id
    tag_id := tag_id }
  let total ← asked ((count_content_items_filtered served.lib served.folder_id filter).mapError .storage)
  let offset ← pagination.offset
  let items ← asked (list_content_items_filtered served.lib served.folder_id filter (some pagination.limit) (some offset))
  (Paginated.new items total pagination "/api/items").into_response

/-! ### What was asked for -/

/-- The item meets the conditions but that on its tag. -/
def meets (query : ListItemsQuery) (item : ItemRow) : Bool :=
  query.status.all (fun status => item.status = status) &&
  query.content_type.all (fun content_type => item.content_type = content_type) &&
  query.feed_id.all (fun feed => (served.fim_of item).map FeedItemMeta.feed_id = some feed.to_string) &&
  query.folder_id.all (fun folder =>
    (served.feed_of item).bind (fun feed => served.folder_id feed.id) = some folder.to_string)

/-- The tag with a name is one of the item's. -/
def tagged (item : ItemRow) (name : String) : Bool :=
  (served.tag_named name).any (fun tag => (item.id,tag.id) ∈ served.lib.content_item_tags)

/-- The items that satisfy all conditions; a tag that is not there is satisfied by none. -/
def wanted (query : ListItemsQuery) : List ItemRow :=
  newest_first (served.lib.content_items.filter (fun item =>
    served.meets query item && query.tag.all (served.tagged item)))

/-- The tag that a query names, if it names one, is there. -/
def knows (query : ListItemsQuery) : Prop := ∀ name ∈ query.tag, served.tag_named name ≠ none

/-- The item satisfies all conditions but that on a tag that is not there. -/
def admits (query : ListItemsQuery) (item : ItemRow) : Bool :=
  served.meets query item && query.tag.all (fun name => served.tag_named name = none || served.tagged item name)

def selected (query : ListItemsQuery) : List ItemRow :=
  newest_first (served.lib.content_items.filter (served.admits query))

/-- A client follows the links to the next page, from a query to the last one, and sees these items. -/
inductive Follows : ListItemsQuery → List Library.ContentItem → ListItemsQuery → Prop
  | last {query : ListItemsQuery} {response : Reply} (answers : served.list_items query = .ok response)
      (final : response.link "next" = none) : Follows query response.body query
  | next {query ending : ListItemsQuery} {response : Reply} {link : Link} {seen : List Library.ContentItem}
      (answers : served.list_items query = .ok response) (more : response.link "next" = some link)
      (rest : Follows link.query seen ending) : Follows query (response.body ++ seen) ending

/-- The pages from the first on have each of the items once, and the last of them is the one that the first one links to. -/
def Joins (query : ListItemsQuery) : Prop :=
  ∃ (items seen : List Library.ContentItem) (ending : ListItemsQuery) (first : Reply) (last : Link),
    (served.wanted query).mapM Library.row_to_content_item = some items ∧
    served.Follows { query with page := some 1 } seen ending ∧ seen.Perm items ∧
    served.list_items { query with page := some 1 } = .ok first ∧ first.link "last" = some last ∧
    ending.pagination.resolved_page = last.page

/-- The page asked for, the number of items, and the pages joined up. -/
def Exact (query : ListItemsQuery) : Prop :=
  let page := query.pagination.resolved_page.toNat
  let per_page := query.pagination.resolved_per_page.toNat
  (∃ response, served.list_items query = .ok response ∧
    (((served.wanted query).drop ((page - 1) * per_page)).take per_page).mapM Library.row_to_content_item =
      some response.body ∧
    response.X_Total_Count = toString (served.wanted query).length) ∧
  (1 ≤ per_page → served.Joins query)

end Served

/-! ### Numbers of pages -/

theorem lt_div_ceil {a b : ℕ} (positive : 0 < b) (k : ℕ) : k < div_ceil a b ↔ k * b < a := by
  have parts := Nat.div_add_mod' a b
  have small := Nat.mod_lt a positive
  rw [div_ceil]
  split
  · rename_i whole
    rw [Nat.lt_div_iff_mul_lt_of_dvd (Nat.pos_iff_ne_zero.mp positive) (Nat.dvd_of_mod_eq_zero whole)]
  · rw [Nat.lt_succ_iff,Nat.le_div_iff_mul_le positive]
    constructor
    · intro le
      refine Nat.lt_of_le_of_ne le (fun same => ?_)
      have none_over : a % b = 0 := by rw [← same,Nat.mul_mod_left]
      contradiction
    · exact Nat.le_of_lt

theorem toString_injective {m n : ℕ} (same : toString m = toString n) : m = n := by
  have digits : Nat.toDigits 10 m = Nat.toDigits 10 n := by rw [← toList_toString,← toList_toString,same]
  have read := congrArg (Nat.ofDigitChars 10 · 0) digits
  simpa only [Nat.ofDigitChars_toDigits (by decide : 1 < 10) (by decide : 10 ≤ 10)] using read

/-- The number of pages for a number of items. -/
def pages (total per_page : ℕ) : ℕ := if total = 0 then 1 else div_ceil (min total (2 ^ 32 - 1)) per_page

section
variable (total : ℕ) {per_page : ℕ} (positive : 0 < per_page)

include positive

theorem pages_positive : 1 ≤ pages total per_page := by
  rw [pages]
  split
  · exact Nat.le_refl 1
  · exact Nat.succ_le_of_lt ((lt_div_ceil positive 0).mpr (by omega))

theorem lt_pages (k : ℕ) : k < pages total per_page ↔ k = 0 ∨ k * per_page < min total (2 ^ 32 - 1) := by
  by_cases none : total = 0
  · rw [pages,if_pos none,none,Nat.lt_one_iff,Nat.zero_min]
    simp
  · rw [pages,if_neg none,lt_div_ceil positive]
    refine ⟨.inr,fun early => ?_⟩
    obtain rfl | early := early
    · omega
    · exact early

/-- The offset of the last page is one of 32 bits. -/
theorem pages_offset : (pages total per_page - 1) * per_page < 2 ^ 32 - 1 := by
  have some_page := pages_positive total positive
  obtain first | early := (lt_pages total positive (pages total per_page - 1)).mp (by omega)
  · simp [first]
  · exact Nat.lt_of_lt_of_le early (Nat.min_le_right ..)

theorem pages_lt : pages total per_page < 2 ^ 32 := by
  have last := pages_offset total positive
  have := Nat.le_mul_of_pos_right (pages total per_page - 1) positive
  omega

theorem pages_toNat : (UInt32.ofNat (pages total per_page)).toNat = pages total per_page :=
  UInt32.toNat_ofNat_of_lt' (pages_lt total positive)

end

namespace PaginationParams
variable (params : PaginationParams)

theorem resolved_page_pos : 1 ≤ params.resolved_page.toNat := by
  have : max (params.page.getD 1) 1 = if params.page.getD 1 ≤ 1 then 1 else params.page.getD 1 := rfl
  rw [resolved_page,this]
  split
  · decide
  · rename_i more
    rw [UInt32.le_iff_toNat_le] at more
    exact Nat.le_of_lt (Nat.lt_of_not_le more)

theorem offset_eq : params.offset =
    if (params.resolved_page.toNat - 1) * params.resolved_per_page.toNat < 2 ^ 32 then
      .ok (UInt32.ofNat ((params.resolved_page.toNat - 1) * params.resolved_per_page.toNat))
    else .error .overflow := by
  have one : (1 : UInt32) ≤ params.resolved_page := params.resolved_page_pos
  rw [offset,UInt32.toNat_sub_of_le _ _ one]
  rfl

/-- The rows on the page. -/
def paged (rows : List ItemRow) : List ItemRow :=
  (rows.drop ((params.resolved_page.toNat - 1) * params.resolved_per_page.toNat)).take params.resolved_per_page.toNat

/-- The links on the page of so many items. -/
def links (total : ℕ) : List Link :=
  (Paginated.new [] total params "/api/items").links (UInt32.ofNat (pages total params.resolved_per_page.toNat))

end PaginationParams

namespace Paginated
variable (paginated : Paginated)

theorem into_response_iff {items : List Library.ContentItem} {total : ℕ} {params : PaginationParams} {response : Reply} :
    (new items total params "/api/items").into_response = .ok response ↔
      (total = 0 ∨ 0 < params.resolved_per_page.toNat) ∧ response = ⟨items,params.links total,toString total⟩ := by
  by_cases none : total = 0
  · have one : (new items total params "/api/items").total_pages = .ok 1 := if_pos none
    rw [into_response,one,PaginationParams.links,pages,if_pos none]
    simp only [none,true_or,true_and]
    exact ⟨fun answers => (Except.ok.inj answers).symm,fun same => congrArg _ same.symm⟩
  · by_cases zero : params.resolved_per_page = 0
    · have fails : (new items total params "/api/items").total_pages = .error .division_by_zero := by
        rw [total_pages]
        exact (if_neg none).trans (if_pos zero)
      rw [into_response,fails,zero]
      refine iff_of_false (fun answers => by cases answers) (fun given => ?_)
      exact given.1.elim none (by decide)
    · have some_pages : (new items total params "/api/items").total_pages =
          .ok (UInt32.ofNat (pages total params.resolved_per_page.toNat)) := by
        rw [total_pages,pages,if_neg none]
        exact (if_neg none).trans (if_neg zero)
      have positive : 0 < params.resolved_per_page.toNat := by
        refine Nat.pos_of_ne_zero (fun same => zero (UInt32.toNat_inj.mp same))
      rw [into_response,some_pages,PaginationParams.links]
      simp only [positive,or_true,true_and]
      exact ⟨fun answers => (Except.ok.inj answers).symm,fun same => congrArg _ same.symm⟩

theorem link_next (n : UInt32) : (paginated.links n).find? (fun link => link.rel = "next") =
    if paginated.page < n then some ⟨paginated.base_path,paginated.page + 1,paginated.per_page,"next"⟩ else none := by
  rw [links]
  by_cases later : paginated.page > 1
  · by_cases more : paginated.page < n
    · simp [later,more]
    · simp [later,more]
  · by_cases more : paginated.page < n
    · simp [later,more]
    · simp [later,more]

theorem link_last (n : UInt32) : (paginated.links n).find? (fun link => link.rel = "last") =
    some ⟨paginated.base_path,n,paginated.per_page,"last"⟩ := by
  rw [links]
  by_cases later : paginated.page > 1
  · by_cases more : paginated.page < n
    · simp [later,more]
    · simp [later,more]
  · by_cases more : paginated.page < n
    · simp [later,more]
    · simp [later,more]

end Paginated

/-! ### What the server answers -/

theorem Catalog.listing_newest (catalog : Catalog) (filter : ContentItemFilter) (sort : filter.sort = .CreatedDesc) :
    catalog.listing filter =
      newest_first (catalog.lib.content_items.filter (fun item => filter.admits catalog item)) := by
  have same (a b : JoinedRow) : a.before filter.sort b = true ↔ b.item.created_at ≤ a.item.created_at := by
    rw [sort,JoinedRow.before]
    exact decide_eq_true_iff
  rw [Catalog.listing,newest_first,← catalog.admitted_items]
  exact List.map_insertionSort _ (fun a b : ItemRow => b.created_at ≤ a.created_at) _ _ (fun a _ b _ => same a b)

namespace Served
variable (served : Served) (query : ListItemsQuery)

/-- The filter of the handler for what it found of the tag. -/
def filter (tag_id : Option Uuid) : ContentItemFilter := { ContentItemFilter.default with
  content_type := query.content_type, status := query.status, feed_id := query.feed_id, folder_id := query.folder_id
  tag_id := tag_id }

theorem admits_filter (tag_id : Option Uuid) (item : ItemRow) :
    (filter query tag_id).admits served.toCatalog item = (served.meets query item &&
      tag_id.all (fun tag => (item.id,tag.to_string) ∈ served.lib.content_item_tags)) := by
  rw [ContentItemFilter.admits,meets]
  simp [filter,ContentItemFilter.default,Bool.and_comm,Bool.and_left_comm]

theorem listing_selected (tag_id : Option Uuid)
    (tag : ∀ item : ItemRow, tag_id.all (fun tag => (item.id,tag.to_string) ∈ served.lib.content_item_tags) =
      query.tag.all (fun name => served.tag_named name = none || served.tagged item name)) :
    served.listing (filter query tag_id) = served.selected query := by
  rw [Catalog.listing_newest _ _ rfl,selected]
  simp only [admits_filter,tag]
  rfl

variable [TimeCrate]

/-- The tag that a query names reads, if it is there. -/
def tag_reads : Prop := ∀ name ∈ query.tag, ∀ tag ∈ served.tag_named name, served.row_to_tag tag ≠ none

theorem row_to_tag_id {row : Pergamon.Tag} {tag : Tag} (reads : served.row_to_tag row = some tag) :
    tag.id.to_string = row.id := by
  simp only [row_to_tag,Option.bind_eq_bind,Option.bind_eq_some_iff,Uuid.parse_str] at reads
  obtain ⟨id,parsed,created_at,-,made⟩ := reads
  cases made
  split at parsed
  · cases parsed
    rfl
  · cases parsed

/-- What the handler does once it has the filter. -/
def answer (pagination : PaginationParams) (rows : List ItemRow) : Except Fault Reply := do
  let offset ← pagination.offset
  match ((rows.drop offset.toNat).take pagination.limit.toNat).mapM Library.row_to_content_item with
  | none => .error (.failure .panic)
  | some items => (Paginated.new items rows.length pagination "/api/items").into_response

theorem rest_eq (pagination : PaginationParams) (filter : ContentItemFilter) :
    (do
      let total ← asked ((count_content_items_filtered served.lib served.folder_id filter).mapError .storage)
      let offset ← pagination.offset
      let items ← asked (list_content_items_filtered served.lib served.folder_id filter (some pagination.limit) (some offset))
      (Paginated.new items total pagination "/api/items").into_response) = answer pagination (served.listing filter) := by
  rw [count_eq,answer]
  change (do
      let offset ← pagination.offset
      let items ← asked (list_content_items_filtered served.lib served.folder_id filter (some pagination.limit) (some offset))
      (Paginated.new items (served.listing filter).length pagination "/api/items").into_response) = _
  congr 1
  funext offset
  rw [list_eq,if_pos (.inr (by simp))]
  change _ = (match (slice (some pagination.limit) (some offset) (served.listing filter)).mapM Library.row_to_content_item with
    | none => Except.error (Fault.failure .panic)
    | some items => (Paginated.new items (served.listing filter).length pagination "/api/items").into_response)
  cases (slice (some pagination.limit) (some offset) (served.listing filter)).mapM Library.row_to_content_item with
  | _ => rfl

theorem list_unread (unread : ¬ served.tag_reads query) : served.list_items query = .error (.failure .panic) := by
  rw [tag_reads] at unread
  push Not at unread
  obtain ⟨name,named,row,found,unread⟩ := unread
  rw [Option.mem_def] at named found
  rw [list_items,named]
  simp only [get_tag_by_name,found,unread]
  rfl

theorem list_read (reads : served.tag_reads query) :
    served.list_items query = answer query.pagination (served.selected query) := by
  cases named : query.tag with
  | none =>
    rw [← served.listing_selected query none (fun item => by rw [named]; rfl),← rest_eq,list_items,named]
    rfl
  | some name =>
    cases found : served.tag_named name with
    | none =>
      have tag (item : ItemRow) : (none : Option Uuid).all (fun tag =>
          (item.id,tag.to_string) ∈ served.lib.content_item_tags) =
          query.tag.all (fun name => served.tag_named name = none || served.tagged item name) := by
        rw [named,Option.all_some,found]
        rfl
      rw [← served.listing_selected query _ tag,← rest_eq,list_items,named]
      simp only [get_tag_by_name,found]
      rfl
    | some row =>
      obtain ⟨held,read⟩ := Option.ne_none_iff_exists'.mp (reads name named row found)
      have tag (item : ItemRow) : (some held.id).all (fun tag => (item.id,tag.to_string) ∈ served.lib.content_item_tags) =
          query.tag.all (fun name => served.tag_named name = none || served.tagged item name) := by
        rw [named,Option.all_some,Option.all_some,served.row_to_tag_id read,tagged,found]
        rfl
      rw [← served.listing_selected query _ tag,← rest_eq,list_items,named]
      simp only [get_tag_by_name,found,read]
      rfl

/-- When the server answers, and what. -/
theorem answer_iff {pagination : PaginationParams} {rows : List ItemRow} {response : Reply} :
    answer pagination rows = .ok response ↔
      (pagination.resolved_page.toNat - 1) * pagination.resolved_per_page.toNat < 2 ^ 32 ∧
      (rows = [] ∨ 0 < pagination.resolved_per_page.toNat) ∧
      ∃ items, (pagination.paged rows).mapM Library.row_to_content_item = some items ∧
        response = ⟨items,pagination.links rows.length,toString rows.length⟩ := by
  rw [answer,PaginationParams.offset_eq]
  by_cases fits : (pagination.resolved_page.toNat - 1) * pagination.resolved_per_page.toNat < 2 ^ 32
  · have offset : (UInt32.ofNat ((pagination.resolved_page.toNat - 1) * pagination.resolved_per_page.toNat)).toNat =
        (pagination.resolved_page.toNat - 1) * pagination.resolved_per_page.toNat := UInt32.toNat_ofNat_of_lt' fits
    rw [if_pos fits]
    change (match ((rows.drop _).take pagination.resolved_per_page.toNat).mapM Library.row_to_content_item with
      | none => Except.error (Fault.failure .panic)
      | some items => (Paginated.new items rows.length pagination "/api/items").into_response) = _ ↔ _
    rw [offset]
    change (match (pagination.paged rows).mapM Library.row_to_content_item with
      | none => Except.error (Fault.failure .panic)
      | some items => (Paginated.new items rows.length pagination "/api/items").into_response) = _ ↔ _
    cases (pagination.paged rows).mapM Library.row_to_content_item with
    | none => exact iff_of_false (fun answers => by cases answers) (fun ⟨_,_,_,reads,_⟩ => by cases reads)
    | some items =>
      dsimp only
      rw [Paginated.into_response_iff,List.length_eq_zero_iff]
      constructor
      · rintro ⟨enough,made⟩
        exact ⟨fits,enough,items,rfl,made⟩
      · rintro ⟨-,enough,items',same,made⟩
        cases same
        exact ⟨enough,made⟩
  · rw [if_neg fits]
    exact iff_of_false (fun answers => by cases answers) (fun given => fits given.1)

/-- A query has an answer. -/
theorem answers_iff {response : Reply} : served.list_items query = .ok response ↔
    served.tag_reads query ∧
    (query.pagination.resolved_page.toNat - 1) * query.pagination.resolved_per_page.toNat < 2 ^ 32 ∧
    (served.selected query = [] ∨ 0 < query.pagination.resolved_per_page.toNat) ∧
    ∃ items, (query.pagination.paged (served.selected query)).mapM Library.row_to_content_item = some items ∧
      response = ⟨items,query.pagination.links (served.selected query).length,
        toString (served.selected query).length⟩ := by
  by_cases reads : served.tag_reads query
  · rw [list_read _ _ reads,answer_iff]
    simp only [reads,true_and]
  · rw [list_unread _ _ reads]
    exact iff_of_false (fun answers => by cases answers) (fun given => reads given.1)

end Served

/-! ### From page to page -/

/-- What a link asks for. -/
def bare (page per_page : UInt32) : ListItemsQuery := ⟨none,none,none,none,none,some page,some per_page⟩

section
variable (params : PaginationParams)

theorem link_next {total : ℕ} (positive : 0 < params.resolved_per_page.toNat) :
    (params.links total).find? (fun link => link.rel = "next") =
      if params.resolved_page.toNat < pages total params.resolved_per_page.toNat then
        some ⟨"/api/items",params.resolved_page + 1,params.resolved_per_page,"next"⟩
      else none := by
  rw [PaginationParams.links,Paginated.link_next]
  simp only [UInt32.lt_iff_toNat_lt,pages_toNat total positive]
  rfl

theorem link_last {total : ℕ} : (params.links total).find? (fun link => link.rel = "last") =
    some ⟨"/api/items",UInt32.ofNat (pages total params.resolved_per_page.toNat),params.resolved_per_page,"last"⟩ := by
  rw [PaginationParams.links,Paginated.link_last]
  rfl

/-- The size of a page is resolved once. -/
theorem bare_per_page (page : UInt32) :
    (bare page params.resolved_per_page).pagination.resolved_per_page = params.resolved_per_page := by
  have resolved : params.resolved_per_page = if params.per_page.getD DEFAULT_PER_PAGE ≤ MAX_PER_PAGE then
    params.per_page.getD DEFAULT_PER_PAGE else MAX_PER_PAGE := rfl
  change (if params.resolved_per_page ≤ MAX_PER_PAGE then params.resolved_per_page else MAX_PER_PAGE) = _
  rw [resolved]
  split
  · rfl
  · rw [if_pos (UInt32.le_refl _)]

theorem bare_page {page : UInt32} (per_page : UInt32) (later : 1 ≤ page.toNat) :
    (bare page per_page).pagination.resolved_page = page := by
  change (if page ≤ 1 then 1 else page) = page
  split
  · rename_i early
    exact UInt32.le_antisymm later early
  · rfl

end

theorem page_split {α : Type} (l : List α) {k n s : ℕ} (first : 1 ≤ k) (last : k ≤ n) :
    (l.take (n * s)).drop ((k - 1) * s) = (l.drop ((k - 1) * s)).take s ++ (l.take (n * s)).drop (k * s) := by
  have here : (k - 1) * s + s = k * s := by
    rw [← Nat.succ_mul,Nat.succ_eq_add_one,Nat.sub_add_cancel first]
  have inside := Nat.mul_le_mul_right s last
  rw [← List.take_append_drop s ((l.take (n * s)).drop ((k - 1) * s)),List.drop_drop,here,List.drop_take,List.take_take,
    Nat.min_eq_left (by omega)]

theorem page_last {α : Type} (l : List α) {n s : ℕ} (some_page : 1 ≤ n) :
    (l.take (n * s)).drop ((n - 1) * s) = (l.drop ((n - 1) * s)).take s := by
  have all : (l.take (n * s)).drop (n * s) = [] := List.drop_eq_nil_of_le (List.length_take_le ..)
  rw [page_split l some_page (Nat.le_refl n),all,List.append_nil]

theorem page_after {k : UInt32} {n : ℕ} (small : n < 2 ^ 32) (more : k.toNat < n) : (k + 1).toNat = k.toNat + 1 := by
  have one : (1 : UInt32).toNat = 1 := rfl
  rw [UInt32.toNat_add,one]
  exact Nat.mod_eq_of_lt (by omega)

namespace Served
variable (served : Served)

/-- All items of the library. -/
def all : List ItemRow := newest_first served.lib.content_items

theorem selected_bare (page per_page : UInt32) : served.selected (bare page per_page) = served.all := by
  rw [selected,all]
  congr 1
  exact List.filter_eq_self.mpr (fun _ _ => rfl)

variable (params : PaginationParams) {k : UInt32}

theorem bare_next (positive : 0 < params.resolved_per_page.toNat) (first : 1 ≤ k.toNat) :
    ((bare k params.resolved_per_page).pagination.links served.all.length).find? (fun link => link.rel = "next") =
      if k.toNat < pages served.all.length params.resolved_per_page.toNat then
        some ⟨"/api/items",k + 1,params.resolved_per_page,"next"⟩
      else none := by
  have same := bare_per_page params k
  rw [link_next _ (by rw [same]; exact positive),same,bare_page _ first]

end Served

section
variable [TimeCrate]

theorem reads_append {rows more : List ItemRow} {items : List Library.ContentItem} :
    (rows ++ more).mapM Library.row_to_content_item = some items ↔
      ∃ one other, rows.mapM Library.row_to_content_item = some one ∧ more.mapM Library.row_to_content_item = some other ∧
        one ++ other = items := by
  rw [List.mapM_append]
  simp only [Option.bind_eq_bind,Option.bind_eq_some_iff,Option.pure_def,Option.some.injEq]
  constructor
  · rintro ⟨one,first,other,second,made⟩
    exact ⟨one,other,first,second,made⟩
  · rintro ⟨one,other,first,second,made⟩
    exact ⟨one,first,other,second,made⟩

namespace Served
variable (served : Served) (params : PaginationParams) {k : UInt32}

/-- What is on a page that a link asks for. -/
theorem bare_answers (positive : 0 < params.resolved_per_page.toNat) (first : 1 ≤ k.toNat)
    (last : k.toNat ≤ pages served.all.length params.resolved_per_page.toNat) {response : Reply} :
    served.list_items (bare k params.resolved_per_page) = .ok response ↔
      ((served.all.drop ((k.toNat - 1) * params.resolved_per_page.toNat)).take params.resolved_per_page.toNat).mapM
        Library.row_to_content_item = some response.body ∧
      response.links = (bare k params.resolved_per_page).pagination.links served.all.length ∧
      response.X_Total_Count = toString served.all.length := by
  have fits : (k.toNat - 1) * params.resolved_per_page.toNat < 2 ^ 32 := by
    have := pages_offset served.all.length positive
    have := Nat.mul_le_mul_right params.resolved_per_page.toNat (Nat.sub_le_sub_right last 1)
    omega
  have tag : served.tag_reads (bare k params.resolved_per_page) := fun name named => by cases named
  rw [answers_iff,selected_bare,PaginationParams.paged,bare_per_page,bare_page _ first]
  constructor
  · rintro ⟨-,-,-,items,reads,rfl⟩
    exact ⟨reads,rfl,rfl⟩
  · rintro ⟨reads,links,total⟩
    refine ⟨tag,fits,.inr positive,response.body,reads,?_⟩
    rw [← links,← total]

/-- Following the links from a page on shows what is left of the library, up to the last page. -/
theorem bare_follows (positive : 0 < params.resolved_per_page.toNat) {query ending : ListItemsQuery}
    {seen : List Library.ContentItem} (follows : served.Follows query seen ending) :
    ∀ k : UInt32, query = bare k params.resolved_per_page → 1 ≤ k.toNat →
      k.toNat ≤ pages served.all.length params.resolved_per_page.toNat →
      ((served.all.take (pages served.all.length params.resolved_per_page.toNat * params.resolved_per_page.toNat)).drop
        ((k.toNat - 1) * params.resolved_per_page.toNat)).mapM Library.row_to_content_item = some seen := by
  have small := pages_lt served.all.length positive
  induction follows with
  | last answers final =>
    rintro k rfl first last
    obtain ⟨reads,links,-⟩ := (served.bare_answers params positive first last).mp answers
    rw [Reply.link,links,served.bare_next params positive first] at final
    split at final
    · cases final
    · have at_last : k.toNat = pages served.all.length params.resolved_per_page.toNat := by omega
      rw [at_last] at first reads ⊢
      rw [page_last _ first]
      exact reads
  | next answers more rest ih =>
    rintro k rfl first last
    obtain ⟨reads,links,-⟩ := (served.bare_answers params positive first last).mp answers
    rw [Reply.link,links,served.bare_next params positive first] at more
    split at more
    · rename_i later
      cases more
      have after := page_after small later
      have others := ih (k + 1) rfl (by omega) (by omega)
      rw [after,Nat.add_sub_cancel] at others
      rw [page_split _ first last,reads_append]
      exact ⟨_,_,reads,others,rfl⟩
    · cases more

/-- The links can be followed if the items read. -/
theorem follows_bare (positive : 0 < params.resolved_per_page.toNat) {n : ℕ} :
    ∀ (k : UInt32) (seen : List Library.ContentItem), 1 ≤ k.toNat →
      k.toNat + n = pages served.all.length params.resolved_per_page.toNat →
      ((served.all.take (pages served.all.length params.resolved_per_page.toNat * params.resolved_per_page.toNat)).drop
        ((k.toNat - 1) * params.resolved_per_page.toNat)).mapM Library.row_to_content_item = some seen →
      served.Follows (bare k params.resolved_per_page) seen
        (bare (UInt32.ofNat (pages served.all.length params.resolved_per_page.toNat)) params.resolved_per_page) := by
  have small := pages_lt served.all.length positive
  induction n with
  | zero =>
    intro k seen first last reads
    rw [← last,Nat.add_zero,page_last _ first] at reads
    have answers : served.list_items (bare k params.resolved_per_page) = .ok
        ⟨seen,(bare k params.resolved_per_page).pagination.links served.all.length,toString served.all.length⟩ :=
      (served.bare_answers params positive first (by omega)).mpr ⟨reads,rfl,rfl⟩
    rw [← last,Nat.add_zero,UInt32.ofNat_toNat]
    refine .last answers ?_
    rw [Reply.link,served.bare_next params positive first,if_neg (by omega)]
  | succ n ih =>
    intro k seen first last reads
    have after := page_after small (k := k) (by omega)
    rw [page_split _ first (by omega),reads_append] at reads
    obtain ⟨here,others,reads,later,rfl⟩ := reads
    have answers : served.list_items (bare k params.resolved_per_page) = .ok
        ⟨here,(bare k params.resolved_per_page).pagination.links served.all.length,toString served.all.length⟩ :=
      (served.bare_answers params positive first (by omega)).mpr ⟨reads,rfl,rfl⟩
    rw [← Nat.add_sub_cancel k.toNat 1,← after] at later
    have more : Reply.link
        ⟨here,(bare k params.resolved_per_page).pagination.links served.all.length,toString served.all.length⟩ "next" =
          some ⟨"/api/items",k + 1,params.resolved_per_page,"next"⟩ := by
      rw [Reply.link,served.bare_next params positive first,if_pos (by omega)]
    exact .next answers more (ih (k + 1) others (by omega) (by omega) later)

end Served
end

/-! ### When the listing is exact -/

/-- The items on the pages after the first are those of the whole library. So if a page is full and they complete it,
    then nothing was left out. -/
theorem filter_take {α : Type} {l : List α} {p : α → Bool} {s n : ℕ} (later : s ≤ n) (more : s < (l.filter p).length)
    (count : (l.filter p).length = s + ((l.take n).drop s).length) (inside : ∀ a ∈ (l.take n).drop s, p a)
    (once : ∀ a ∈ (l.take n).drop s, a ∉ (l.filter p).take s) : l.filter p = l.take n := by
  have parts : l.take n = l.take s ++ (l.take n).drop s := by
    have start : (l.take n).take s = l.take s := by rw [List.take_take,Nat.min_eq_left later]
    rw [← start]
    exact (List.take_append_drop ..).symm
  have filtered : l.filter p = (l.take s).filter p ++ ((l.take n).drop s ++ (l.drop n).filter p) := by
    rw [← List.filter_eq_self.mpr inside,← List.append_assoc,← List.filter_append,← List.filter_append,← parts,
      List.take_append_drop]
  have short : ((l.take s).filter p).length ≤ (l.take s).length := List.length_filter_le ..
  have full : ((l.take s).filter p).length = s := by
    by_contra missing
    have less : ((l.take s).filter p).length < s := by
      have := List.length_take_le s l
      omega
    cases first : (l.take n).drop s with
    | nil =>
      rw [first] at count
      simp at count
      omega
    | cons b rest =>
      -- The first item of the next page is one of the selected ones, and there is room for it on this page.
      have room : s - ((l.take s).filter p).length = s - ((l.take s).filter p).length - 1 + 1 := by omega
      refine once b (by rw [first]; exact List.mem_cons_self) ?_
      rw [filtered,first,List.take_append,room,List.cons_append,List.take_succ_cons]
      exact List.mem_append_right _ List.mem_cons_self
  have kept : (l.take s).filter p = l.take s := by
    refine List.filter_sublist.eq_of_length_le ?_
    rw [full]
    exact List.length_take_le s l
  have nothing : (l.drop n).filter p = [] := by
    have lengths := congrArg List.length filtered
    rw [List.length_append,List.length_append,full,count] at lengths
    exact List.eq_nil_of_length_eq_zero (by omega)
  rw [filtered,kept,nothing,List.append_nil,← parts]

section
variable {per_page : ℕ} (positive : 0 < per_page)

include positive

/-- The pages hold the items, up to as many as 32 bits count. -/
theorem pages_hold (total : ℕ) : min total (2 ^ 32 - 1) ≤ pages total per_page * per_page := by
  by_contra early
  exact Nat.lt_irrefl _ ((lt_pages total positive _).mpr (.inr (Nat.lt_of_not_le early)))

/-- No more items are on pages than on those of as many as 32 bits count. -/
theorem take_pages {α : Type} (l : List α) :
    l.take (pages l.length per_page * per_page) = l.take (pages (2 ^ 32 - 1) per_page * per_page) := by
  have most := pages_hold positive (2 ^ 32 - 1)
  have mine := pages_hold positive l.length
  by_cases small : l.length ≤ 2 ^ 32 - 1
  · rw [List.take_of_length_le (by omega),List.take_of_length_le (by omega)]
  · have same : min l.length (2 ^ 32 - 1) = min (2 ^ 32 - 1) (2 ^ 32 - 1) := by omega
    rw [pages,pages,same,if_neg (by omega),if_neg (by omega)]

/-- What is on pages takes as many pages. -/
theorem pages_take {α : Type} (l : List α) :
    pages (l.take (pages l.length per_page * per_page)).length per_page = pages l.length per_page := by
  have mine := pages_hold positive l.length
  have same : min (min (pages l.length per_page * per_page) l.length) (2 ^ 32 - 1) = min l.length (2 ^ 32 - 1) := by omega
  have room : 0 < pages l.length per_page * per_page := Nat.mul_pos (pages_positive l.length positive) positive
  have none : min (pages l.length per_page * per_page) l.length = 0 ↔ l.length = 0 := by omega
  rw [pages,List.length_take,same]
  exact if_congr none rfl rfl

/-- One page is enough just where the items fit. -/
theorem one_page {total : ℕ} (small : per_page < 2 ^ 32 - 1) : 1 < pages total per_page ↔ per_page < total := by
  rw [lt_pages total positive]
  omega

end

theorem resolved_per_page_small (params : PaginationParams) : params.resolved_per_page.toNat ≤ 100 := by
  have resolved : params.resolved_per_page = if params.per_page.getD DEFAULT_PER_PAGE ≤ MAX_PER_PAGE then
    params.per_page.getD DEFAULT_PER_PAGE else MAX_PER_PAGE := rfl
  rw [resolved]
  split
  · rename_i small
    exact small
  · exact Nat.le_refl 100

namespace Served
variable (served : Served) (query : ListItemsQuery)

theorem wanted_known (known : served.knows query) : served.wanted query = served.selected query := by
  rw [wanted,selected]
  congr 2
  funext item
  congr 1
  cases named : query.tag with
  | none => rfl
  | some name =>
    have := known name named
    simp [this]

theorem wanted_unknown (unknown : ¬ served.knows query) : served.wanted query = [] := by
  rw [knows] at unknown
  push Not at unknown
  obtain ⟨name,named,missing⟩ := unknown
  rw [Option.mem_def] at named
  rw [wanted,named]
  simp [tagged,missing,newest_first]

theorem first_next (positive : 0 < query.pagination.resolved_per_page.toNat) :
    ((PaginationParams.mk (some 1) query.per_page).links (served.selected query).length).find?
      (fun link => link.rel = "next") =
    if query.pagination.resolved_per_page.toNat < (served.selected query).length then
      some ⟨"/api/items",1 + 1,query.pagination.resolved_per_page,"next"⟩
    else none := by
  have small := resolved_per_page_small query.pagination
  exact (link_next ⟨some 1,query.per_page⟩ positive).trans (if_congr (one_page positive (by omega)) rfl rfl)

theorem selected_filter : served.selected query = served.all.filter (served.admits query) := by
  have newer_trans : IsTrans ItemRow (fun a b => b.created_at ≤ a.created_at) := ⟨fun _ _ _ one two => le_trans two one⟩
  have newer_total : Std.Total (fun a b : ItemRow => b.created_at ≤ a.created_at) :=
      ⟨fun a b => le_total b.created_at a.created_at⟩
  rw [all,newest_first,filter_insertionSort,selected,newest_first]

theorem all_ids : (served.all.map ItemRow.id).Nodup :=
  ((List.perm_insertionSort _ _).map ItemRow.id).nodup_iff.mpr served.item_key

variable [TimeCrate]

/-- The first page of a listing. -/
theorem first_answers {response : Reply} : served.list_items { query with page := some 1 } = .ok response ↔
    served.tag_reads query ∧ (served.selected query = [] ∨ 0 < query.pagination.resolved_per_page.toNat) ∧
    ((served.selected query).take query.pagination.resolved_per_page.toNat).mapM Library.row_to_content_item =
      some response.body ∧
    response.links = (PaginationParams.mk (some 1) query.per_page).links (served.selected query).length ∧
    response.X_Total_Count = toString (served.selected query).length := by
  have page : ({ query with page := some 1 } : ListItemsQuery).pagination.resolved_page.toNat - 1 = 0 := rfl
  have paged : ({ query with page := some 1 } : ListItemsQuery).pagination.paged
      (served.selected { query with page := some 1 }) =
      (served.selected query).take query.pagination.resolved_per_page.toNat := by
    rw [PaginationParams.paged,page,Nat.zero_mul,List.drop_zero]
    rfl
  rw [answers_iff,paged,page,Nat.zero_mul]
  constructor
  · rintro ⟨tag,-,size,items,reads,rfl⟩
    exact ⟨tag,size,reads,rfl,rfl⟩
  · rintro ⟨tag,size,reads,links,total⟩
    refine ⟨tag,by decide,size,response.body,reads,?_⟩
    change response = ⟨response.body,(PaginationParams.mk (some 1) query.per_page).links (served.selected query).length,
      toString (served.selected query).length⟩
    rw [← links,← total]

variable (positive : 0 < query.pagination.resolved_per_page.toNat)

include positive

/-- The pages join up if the items fit on one or are those of the whole library. -/
theorem joins_of (tag : served.tag_reads query) (known : served.wanted query = served.selected query)
    (fits : (served.selected query).length ≤ query.pagination.resolved_per_page.toNat ∨
      served.selected query = served.all.take
        (pages (2 ^ 32 - 1) query.pagination.resolved_per_page.toNat * query.pagination.resolved_per_page.toNat))
    (reads : ∀ row ∈ served.selected query, Library.row_to_content_item row ≠ none) : served.Joins query := by
  obtain ⟨items,read⟩ := read_each reads
  have parts := read
  rw [← List.take_append_drop query.pagination.resolved_per_page.toNat (served.selected query),reads_append] at parts
  obtain ⟨here,others,reads,later,made⟩ := parts
  have answers : served.list_items { query with page := some 1 } =
      .ok ⟨here,(PaginationParams.mk (some 1) query.per_page).links (served.selected query).length,
        toString (served.selected query).length⟩ :=
    (served.first_answers query).mpr ⟨tag,.inr positive,reads,rfl,rfl⟩
  have next := served.first_next query positive
  have small := resolved_per_page_small query.pagination
  rw [Joins,known]
  by_cases more : query.pagination.resolved_per_page.toNat < (served.selected query).length
  · have whole := fits.resolve_left (Nat.not_le.mpr more)
    rw [← take_pages positive] at whole
    rw [if_pos more] at next
    have same : pages (served.selected query).length query.pagination.resolved_per_page.toNat =
        pages served.all.length query.pagination.resolved_per_page.toNat := by
      rw [whole,pages_take positive]
    have some_next := (one_page positive (by omega)).mpr more
    have second : (1 + 1 : UInt32).toNat = 2 := rfl
    have rest := served.follows_bare query.pagination positive (1 + 1) others (by decide)
      (Nat.add_sub_of_le (by omega)) (by rw [second,Nat.one_mul,← whole]; exact later)
    refine ⟨items,_,_,_,_,read,.next answers next rest,by rw [made],answers,link_last _,?_⟩
    rw [bare_page]
    · exact congrArg UInt32.ofNat same.symm
    · rw [pages_toNat _ positive]
      exact pages_positive _ positive
  · have nothing : (served.selected query).drop query.pagination.resolved_per_page.toNat = [] :=
      List.drop_eq_nil_of_le (Nat.le_of_not_lt more)
    rw [nothing] at later
    cases later
    have made : here = items := (List.append_nil here).symm.trans made
    rw [if_neg more] at next
    refine ⟨items,here,_,_,_,read,.last answers next,by rw [made],answers,link_last _,?_⟩
    have one : pages (served.selected query).length query.pagination.resolved_per_page.toNat = 1 := by
      have := pages_positive (served.selected query).length positive
      have := mt (one_page positive (by omega)).mp more
      omega
    change 1 = UInt32.ofNat (pages (served.selected query).length query.pagination.resolved_per_page.toNat)
    rw [one]
    rfl

theorem of_joins (known : served.wanted query = served.selected query) (joins : served.Joins query) :
    ((served.selected query).length ≤ query.pagination.resolved_per_page.toNat ∨
      served.selected query = served.all.take
        (pages (2 ^ 32 - 1) query.pagination.resolved_per_page.toNat * query.pagination.resolved_per_page.toNat)) ∧
    ∀ row ∈ served.selected query, Library.row_to_content_item row ≠ none := by
  obtain ⟨items,seen,ending,first,last,read,follows,perm,answers,-,-⟩ := joins
  rw [known] at read
  have reads : ∀ row ∈ served.selected query, Library.row_to_content_item row ≠ none := by
    intro row inside unread
    cases (read_all.mpr ⟨row,inside,unread⟩).symm.trans read
  refine ⟨?_,reads⟩
  by_cases more : query.pagination.resolved_per_page.toNat < (served.selected query).length
  · right
    have small := resolved_per_page_small query.pagination
    have next := served.first_next query positive
    rw [if_pos more] at next
    cases follows with
    | last answers' final =>
      obtain ⟨-,-,-,links,-⟩ := (served.first_answers query).mp answers'
      rw [Reply.link,links,next] at final
      cases final
    | @next _ _ response link others answers' goes rest =>
      obtain ⟨-,-,here,links,-⟩ := (served.first_answers query).mp answers'
      rw [Reply.link,links,next] at goes
      cases goes
      have longer : query.pagination.resolved_per_page.toNat < served.all.length := by
        rw [selected_filter] at more
        exact Nat.lt_of_lt_of_le more (List.length_filter_le ..)
      have some_next := (one_page positive (by omega)).mpr longer
      have later := served.bare_follows query.pagination positive rest (1 + 1) rfl (by decide) some_next
      have second : (1 + 1 : UInt32).toNat - 1 = 1 := rfl
      rw [second,Nat.one_mul] at later
      have ids := perm.map Library.ContentItem.id
      rw [List.map_append,read_ids here,read_ids later,read_ids read] at ids
      have unique : (((served.all.filter (served.admits query)).take query.pagination.resolved_per_page.toNat).map ItemRow.id ++
          ((served.all.take (pages served.all.length query.pagination.resolved_per_page.toNat *
            query.pagination.resolved_per_page.toNat)).drop query.pagination.resolved_per_page.toNat).map ItemRow.id).Nodup := by
        rw [selected_filter] at ids
        exact ids.nodup_iff.mpr (served.all_ids.sublist (List.filter_sublist.map _))
      rw [← take_pages positive]
      rw [selected_filter] at more ids ⊢
      refine filter_take (Nat.le_mul_of_pos_left _ (by omega)) more ?_ ?_ ?_
      · have lengths := ids.length_eq
        rw [List.length_append,List.length_map,List.length_map,List.length_map,List.length_take,
          Nat.min_eq_left (Nat.le_of_lt more)] at lengths
        exact lengths.symm
      · intro row listed
        obtain ⟨other,selected,same⟩ := List.mem_map.mp
          (ids.subset (List.mem_append_right _ (List.mem_map_of_mem (f := ItemRow.id) listed)))
        obtain ⟨inside,admitted⟩ := List.mem_filter.mp selected
        rw [← List.inj_on_of_nodup_map served.all_ids inside (List.mem_of_mem_take (List.mem_of_mem_drop listed)) same]
        exact admitted
      · intro row listed again
        exact (List.disjoint_of_nodup_append unique) (List.mem_map_of_mem again) (List.mem_map_of_mem listed)
  · exact .inl (Nat.le_of_not_lt more)

omit positive

end Served

/-- A library of one item and no tags. -/
def oneServed : Served where
  toCatalog := oneItem
  tag_created_at := fun _ => "now"

end Pergamon
