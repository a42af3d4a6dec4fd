import Pergamon.Joins
import Pergamon.Rules

/-!
The SQL of smart filters, by what it selects. The items are joined with their feeds where a
predicate asks for the source, and with the rows of the full-text index where one asks for text;
the second join is on row numbers. Each predicate is a condition on a joined row.

The same filters are evaluated in memory by the rules. The two agree on the kinds, the tags and
the statuses of an item; on its dates where the stored text of its creation is the one that its
time is formatted to; and on its source where the pattern has no wildcards and lower case is that
of ASCII (`evaluators_agree`).
-/
namespace Pergamon
open Fallible Joins

/-- What is asked of the full-text engine: whether a query matches a row of the full-text index, and whether
    MATCH takes the alias of a table for the table. -/
class Fts5 where
  fts_match : String → FtsRow → Bool
  match_alias : Bool

/-- An ASCII letter in lower case. -/
def fold_char (c : Char) : Char := if 'A' ≤ c ∧ c ≤ 'Z' then Char.ofNat (c.toNat + 32) else c

/-- The operator LIKE on the characters of a pattern and a text. -/
def like : List Char → List Char → Bool
  | [],text => text.isEmpty
  | p :: pattern,text =>
    if p = '%' then text.tails.any (fun rest => like pattern rest)
    else
      match text with
      | [] => false
      | c :: rest => (p = '_' || fold_char p = fold_char c) && like pattern rest

/-- The tokens of a text query, in quotes unless they have some. -/
def quote_fts_tokens (query : String) : String :=
  let quote := Char.ofNat 34
  " ".intercalate (((query.toList.splitOnP SmartFilter.is_whitespace).filter (fun token => ¬ token.isEmpty)).map (fun token =>
    if quote ∈ token then String.ofList token else String.ofList (quote :: token ++ [quote])))

def FilterPredicate.is_source : FilterPredicate → Bool
  | .Source _ => true
  | _ => false

def FilterPredicate.is_text : FilterPredicate → Bool
  | .Text _ => true
  | _ => false

def SmartFilter.has_source (filter : SmartFilter) : Bool := filter.predicates.any FilterPredicate.is_source

def SmartFilter.has_text_query (filter : SmartFilter) : Bool := filter.predicates.any FilterPredicate.is_text

/-- A row of the joined tables. -/
structure Joined where
  item : ItemRow
  feed : Option Feed
  fts : Option FtsRow
  deriving DecidableEq

namespace Library

/-- The items, with their feeds where they have one and a predicate asks for it. -/
def join_feeds (lib : Library) (has_source : Bool) : List (ItemRow × Option Feed) :=
  if has_source then
    (left_join (fun (row : ItemRow × Option FeedItemMeta) (feed : Feed) => row.2.any (fun m => feed.id = m.feed_id))
      (left_join (fun (row : ItemRow) (m : FeedItemMeta) => decide (m.content_item_id = row.id)) lib.content_items lib.feed_item_meta)
      lib.feeds).map (fun row => (row.1.1,row.2))
  else lib.content_items.map (fun row => (row,none))

/-- Those rows, with the rows of the index under the same number where a predicate asks for text. -/
def join_index (lib : Library) (has_text : Bool) (rows : List (ItemRow × Option Feed)) : List Joined :=
  if has_text then
    (join (fun (row : ItemRow × Option Feed) (fts : FtsRow) => decide (fts.rowid = row.1.rowid)) rows lib.content_items_fts).map
      (fun row => ⟨row.1.1,row.1.2,some row.2⟩)
  else rows.map (fun row => ⟨row.1,row.2,none⟩)

section
variable [Fts5]

/-- The condition of a predicate on a joined row. -/
def selects (lib : Library) (row : Joined) : FilterPredicate → Bool
  | .ContentType types => types.any (fun t => t.as_str = row.item.content_type.as_str)
  | .Tag names => lib.content_item_tags.any (fun edge => edge.1 = row.item.id &&
      lib.tags.any (fun tag => tag.id = edge.2 && names.any (fun name => same_name tag.name name)))
  | .Status statuses => statuses.any (fun s => s.as_str = row.item.status.as_str)
  | .ExcludeStatus statuses => !statuses.any (fun s => s.as_str = row.item.status.as_str)
  | .Source src => row.feed.any (fun feed => like ('%' :: (src.toList ++ ['%'])) feed.title.toList)
  | .CreatedSince date => decide (midnight date ≤ row.item.created_at)
  | .CreatedBefore date => decide (row.item.created_at < midnight date)
  | .Text query => row.fts.any (Fts5.fts_match (quote_fts_tokens query))

/-- The rows that the query of a filter selects. -/
def smart_rows (lib : Library) (filter : SmartFilter) : Except StorageError (List Joined) :=
  if filter.has_text_query ∧ ¬ Fts5.match_alias then .error .Sqlite
  else .ok ((lib.join_index filter.has_text_query (lib.join_feeds filter.has_source)).filter (fun row =>
    filter.predicates.all (lib.selects row)))

/-- Count content items currently matching an arbitrary smart-filter query. -/
def count_items_matching_filter (filter_query : String) : Work ℕ :=
  ask (fun lib =>
    match SmartFilter.parse filter_query with
    | .error e => .error (.Generic ("invalid filter: " ++ e.message))
    | .ok smart => (lib.smart_rows smart).map List.length)

end
end Library

/-! ### Patterns -/

section
variable {part pattern text : List Char}

theorem like_any : like ('%' :: pattern) text = true ↔ ∃ rest, rest <:+ text ∧ like pattern rest = true := by
  have step : like ('%' :: pattern) text = text.tails.any (fun rest => like pattern rest) := rfl
  simp only [step,List.any_eq_true,List.mem_tails]

theorem like_one {p c : Char} (not_any : p ≠ '%') :
    like (p :: pattern) (c :: text) = ((p = '_' || fold_char p = fold_char c) && like pattern text) := by
  rw [like.eq_def]
  exact if_neg not_any

theorem like_none {p : Char} (not_any : p ≠ '%') : like (p :: pattern) [] = false := by
  rw [like.eq_def]
  exact if_neg not_any

theorem like_rest : like ['%'] text = true := like_any.mpr ⟨[],List.nil_suffix,rfl⟩

/-- A text that starts with the characters of a pattern. -/
theorem like_of_start (starts : part.map fold_char <+: text.map fold_char) : like (part ++ ['%']) text = true := by
  induction part generalizing text with
  | nil => exact like_rest
  | cons p part ih =>
    cases text with
    | nil => exact absurd (List.prefix_nil.mp starts) nofun
    | cons c rest =>
      obtain ⟨same,starts⟩ := List.cons_prefix_cons.mp starts
      rw [List.cons_append]
      by_cases any : p = '%'
      · rw [any]
        exact like_any.mpr ⟨rest,List.suffix_cons c rest,ih starts⟩
      · rw [like_one any,ih starts]
        simp [same]

/-- A pattern without wildcards. -/
theorem like_start (plain : ∀ c ∈ part, c ≠ '%' ∧ c ≠ '_') :
    like (part ++ ['%']) text = true ↔ part.map fold_char <+: text.map fold_char := by
  refine ⟨fun likes => ?_,like_of_start⟩
  induction part generalizing text with
  | nil => exact List.nil_prefix
  | cons p part ih =>
    obtain ⟨not_any,not_one⟩ := plain p (.head _)
    rw [List.cons_append] at likes
    cases text with
    | nil =>
      rw [like_none not_any] at likes
      cases likes
    | cons c rest =>
      rw [like_one not_any] at likes
      simp only [not_one,decide_false,Bool.false_or,Bool.and_eq_true,decide_eq_true_eq] at likes
      exact List.cons_prefix_cons.mpr ⟨likes.1,ih (fun c inside => plain c (.tail _ inside)) likes.2⟩

/-- LIKE with a part between two `%` asks for the part, if it has no wildcards. -/
theorem like_contains (plain : ∀ c ∈ part, c ≠ '%' ∧ c ≠ '_') :
    like ('%' :: (part ++ ['%'])) text = true ↔ part.map fold_char <:+: text.map fold_char := by
  rw [like_any,List.infix_iff_prefix_suffix]
  constructor
  · rintro ⟨rest,ends,likes⟩
    exact ⟨rest.map fold_char,(like_start plain).mp likes,ends.map fold_char⟩
  · rintro ⟨rest,starts,ends⟩
    obtain ⟨tail,inside,rfl⟩ := List.suffix_map_iff.mp ends
    exact ⟨tail,inside,(like_start plain).mpr starts⟩

end

namespace Library

/-! ### Joins by unique keys -/

/-- The feed of an item. -/
def feed_of (lib : Library) (id : String) : Option Feed :=
  (lib.feed_item_meta.find? (fun m => m.content_item_id = id)).bind (fun m => lib.feeds.find? (fun feed => feed.id = m.feed_id))

/-- An item has one link to a feed at most, and feeds have different ids. -/
structure Linked (lib : Library) : Prop where
  metas : (lib.feed_item_meta.map FeedItemMeta.content_item_id).Nodup
  feeds : (lib.feeds.map Feed.id).Nodup

theorem join_feeds_eq {lib : Library} (linked : Linked lib) (has_source : Bool) :
    lib.join_feeds has_source = lib.content_items.map (fun row => (row,if has_source then lib.feed_of row.id else none)) := by
  unfold join_feeds
  cases has_source with
  | false => rfl
  | true =>
    have links := left_join_map (l := lib.content_items) (fun row : ItemRow => filter_key linked.metas row.id)
    rw [if_pos rfl,links,left_join_map (fun row => ?_)]
    · rw [List.map_map,List.map_map]
      refine List.map_congr_left (fun row _ => ?_)
      simp only [Function.comp_apply,if_true,feed_of]
      cases lib.feed_item_meta.find? (fun m => m.content_item_id = row.id) with
      | none => simp
      | some m => rfl
    · cases row.2 with
      | none => simp
      | some m => exact filter_key linked.feeds m.feed_id

/-! ### Two evaluators -/

section
variable {lib : Library} {row : ItemRow} {item : Library.ContentItem} {filter : SmartFilter}

/-- The feed title that filters see of an item. -/
def feed_title_for_item (lib : Library) (id : String) : Option String := (lib.feed_of id).map Feed.title

/-- What filters see of an item of the library. -/
def context_of (lib : Library) (item : Library.ContentItem) : MatchContext :=
  ⟨item,(lib.tags_for_item item.id).map Tag.name,lib.feed_title_for_item item.id⟩

section
variable [TimeCrate] [Unicode]

/-- The two evaluators look at the same: no source has a wildcard, and it and the title of the
    feed have the lower case of ASCII; where a date is asked for, the stored text of the time of
    creation is the one that the time is formatted to. -/
structure Alike (lib : Library) (filter : SmartFilter) (row : ItemRow) (item : Library.ContentItem) : Prop where
  plain : ∀ src title, .Source src ∈ filter.predicates → lib.feed_title_for_item row.id = some title → ∀ c ∈ src.toList, c ≠ '%' ∧ c ≠ '_'
  ascii : ∀ src title, .Source src ∈ filter.predicates → lib.feed_title_for_item row.id = some title →
    Unicode.to_lowercase src = String.ofList (folded src) ∧ Unicode.to_lowercase title = String.ofList (folded title)
  dates : ∀ date, .CreatedSince date ∈ filter.predicates ∨ .CreatedBefore date ∈ filter.predicates →
    TimeCrate.format_rfc3339 item.created_at = some row.created_at

omit [Unicode] in
theorem row_to_content_item_eq (reads : Library.row_to_content_item row = some item) :
    item.id = row.id ∧ item.content_type = row.content_type ∧ item.status = row.status := by
  simp only [Library.row_to_content_item,Option.bind_eq_bind,Option.bind_eq_some_iff] at reads
  obtain ⟨published_at,-,created_at,-,updated_at,-,read_at,-,made⟩ := reads
  cases made
  exact ⟨rfl,rfl,rfl⟩

omit [TimeCrate] [Unicode] in
/-- The tags of an item by name, in the two tables and in memory. -/
theorem tagged_iff (id : String) (names : List String) :
    lib.content_item_tags.any (fun edge => edge.1 = id &&
      lib.tags.any (fun tag => tag.id = edge.2 && names.any (fun name => same_name tag.name name))) =
    names.any (fun name => ((lib.tags_for_item id).map Tag.name).any (fun held => same_name held name)) := by
  rw [Bool.eq_iff_iff]
  simp only [List.any_eq_true,Bool.and_eq_true,decide_eq_true_eq,tags_for_item,List.mem_map,List.mem_insertionSort,List.mem_filter]
  constructor
  · rintro ⟨⟨_,_⟩,there,rfl,tag,held,rfl,name,asked,same⟩
    exact ⟨name,asked,tag.name,⟨tag,⟨held,there⟩,rfl⟩,same⟩
  · rintro ⟨name,asked,-,⟨tag,⟨held,there⟩,rfl⟩,same⟩
    exact ⟨(id,tag.id),there,rfl,tag,held,rfl,name,asked,same⟩

omit [TimeCrate] [Unicode] in
theorem asked_iff {α : Type} [DecidableEq α] (asked : List α) (held : α) : asked.any (fun a => a = held) = asked.contains held := by
  rw [Bool.eq_iff_iff,List.any_eq_true,List.contains_iff_mem]
  simp

/-- A predicate other than text, of an item and of its joined row. -/
theorem predicate_agrees [Fts5] (alike : Alike lib filter row item) (reads : Library.row_to_content_item row = some item)
    {p : FilterPredicate} (inside : p ∈ filter.predicates) (no_text : p.is_text = false) {feed : Option Feed}
    (joined : p.is_source → feed = lib.feed_of row.id) :
    lib.selects ⟨row,feed,none⟩ p = matches_predicate (lib.context_of item) p := by
  obtain ⟨key,kind,status⟩ := row_to_content_item_eq reads
  cases p with
  | ContentType types =>
    simp only [selects,matches_predicate,context_of,kind,ContentType.as_str_injective.eq_iff,asked_iff]
  | Tag names =>
    rw [selects,matches_predicate,context_of,key]
    exact tagged_iff row.id names
  | Status statuses =>
    simp only [selects,matches_predicate,context_of,status,DocumentStatus.as_str_injective.eq_iff,asked_iff]
  | ExcludeStatus statuses =>
    simp only [selects,matches_predicate,context_of,status,DocumentStatus.as_str_injective.eq_iff,asked_iff]
  | Source src =>
    rw [selects,matches_predicate,context_of,key,joined rfl,feed_title_for_item]
    cases found : lib.feed_of row.id with
    | none => rfl
    | some feed =>
      have title : lib.feed_title_for_item row.id = some feed.title := by rw [feed_title_for_item,found]; rfl
      obtain ⟨lower,lower'⟩ := alike.ascii src feed.title inside title
      rw [Bool.eq_iff_iff]
      simp only [Option.any_some,Option.map_some,like_contains (alike.plain src feed.title inside title),contains,lower,lower',
        String.toList_ofList,decide_eq_true_eq]
      exact Iff.rfl
  | CreatedSince date =>
    have same := alike.dates date (.inl inside)
    rw [selects,matches_predicate,context_of,format_time,same]
    rfl
  | CreatedBefore date =>
    have same := alike.dates date (.inr inside)
    rw [selects,matches_predicate,context_of,format_time,same]
    rfl
  | Text query => cases no_text

omit [TimeCrate] [Unicode] in
/-- The rows that a filter without text selects. -/
theorem smart_rows_eq [Fts5] (linked : Linked lib) (no_text : filter.has_text_query = false) :
    lib.smart_rows filter = .ok ((lib.content_items.map (fun row => ⟨row,if filter.has_source then lib.feed_of row.id else none,none⟩)).filter
      (fun row => filter.predicates.all (lib.selects row))) := by
  rw [smart_rows,no_text,if_neg (by simp),join_index,if_neg (by simp),join_feeds_eq linked,List.map_map]
  rfl

/-- For a filter without text, what matches in memory is what the query selects, if both look at
    the same. -/
theorem evaluators_agree [Fts5] (linked : Linked lib) (stored : row ∈ lib.content_items) (reads : Library.row_to_content_item row = some item)
    (no_text : filter.has_text_query = false) (alike : Alike lib filter row item) :
    matches_filter (lib.context_of item) filter = true ↔ ∃ rows, lib.smart_rows filter = .ok rows ∧ row ∈ rows.map Joined.item := by
  have each : ∀ p ∈ filter.predicates,
      lib.selects ⟨row,if filter.has_source then lib.feed_of row.id else none,none⟩ p = matches_predicate (lib.context_of item) p := by
    intro p inside
    have not_text : p.is_text = false := by simpa using List.any_eq_false.mp no_text p inside
    refine predicate_agrees alike reads inside not_text (fun source => if_pos ?_)
    exact List.any_eq_true.mpr ⟨p,inside,source⟩
  have all : filter.predicates.all (lib.selects ⟨row,if filter.has_source then lib.feed_of row.id else none,none⟩) =
      matches_filter (lib.context_of item) filter := by
    rw [matches_filter,Bool.eq_iff_iff,List.all_eq_true,List.all_eq_true]
    exact forall₂_congr (fun p inside => by rw [each p inside])
  rw [smart_rows_eq linked no_text,← all]
  constructor
  · intro holds
    exact ⟨_,rfl,List.mem_map.mpr ⟨_,List.mem_filter.mpr ⟨List.mem_map_of_mem stored,holds⟩,rfl⟩⟩
  · rintro ⟨rows,found,there⟩
    obtain rfl := Except.ok.inj found
    obtain ⟨joined,selected,rfl⟩ := List.mem_map.mp there
    obtain ⟨made,holds⟩ := List.mem_filter.mp selected
    obtain ⟨row',-,rfl⟩ := List.mem_map.mp made
    exact holds

end
end

/-! ### A filter with a wildcard -/

section
attribute [local instance] plainTimes

@[reducible] def asciiUnicode : Unicode := ⟨fun text => String.ofList (folded text)⟩

@[reducible] def plainFts : Fts5 := ⟨fun query fts => contains fts.title query,true⟩

attribute [local instance] asciiUnicode plainFts

/-- A library with one item of a feed with the given title. -/
def subscription (title : String) : Library :=
  { shelf [] with
    content_items := [⟨1,"item",none,"Rust",none,.FeedItem,.Inbox,none,none,none,"now","now",none⟩]
    feeds := [⟨"feed",title,"https://news.example/feed"⟩]
    feed_item_meta := [⟨"item","feed",none,none⟩] }

def subscribed_item : Library.ContentItem := ⟨"item",none,"Rust",none,.FeedItem,.Inbox,none,none,none,⟨0,0⟩,⟨0,0⟩,none⟩

def sources (src : String) : SmartFilter := ⟨[.ContentType [.FeedItem],.Source src,.CreatedSince "2024-01-01"]⟩

theorem evaluators_agree_news : matches_filter ((subscription "The NEWS").context_of subscribed_item) (sources "News") = true ↔
    ∃ rows, (subscription "The NEWS").smart_rows (sources "News") = .ok rows ∧
      ⟨1,"item",none,"Rust",none,.FeedItem,.Inbox,none,none,none,"now","now",none⟩ ∈ rows.map Joined.item := by
  refine evaluators_agree ⟨by decide,by decide⟩ (.head _) rfl rfl ⟨?_,fun _ _ _ _ => ⟨rfl,rfl⟩,fun _ _ => rfl⟩
  intro src title inside _
  obtain rfl : src = "News" := by simpa [sources] using inside
  simp

/-- The percent sign of a source is a wildcard for the query only. -/
theorem evaluators_differ : SmartFilter.parse "source:100%" = .ok ⟨[.Source "100%"]⟩ ∧
    matches_filter ((subscription "100 days of Rust").context_of subscribed_item) ⟨[.Source "100%"]⟩ = false ∧
    ((subscription "100 days of Rust").smart_rows ⟨[.Source "100%"]⟩).map (List.map (fun row => row.item.id)) = .ok ["item"] := by
  decide +kernel

end
end Library
end Pergamon
