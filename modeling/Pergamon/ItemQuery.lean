import Pergamon.Library
import Pergamon.Placeholders

/-!
The query for items that match a filter, as text with numbered placeholders and as the values that are
bound to them, and what SQLite reads in such a text.

SQLite is modelled on the statements of this shape: `prepare` reads a text, and finds no statement
where an offset comes without a limit. The text for a filter reads as a query whose conditions are
numbered in the order of the values (`Built`), and after `reindex_params` as the same query with
its numbers moved up, an enclosing update with it (`prepare_update`).
-/
namespace Pergamon
open Placeholders

/-- An identifier, by its hyphenated text. -/
structure Uuid where
  to_string : String
  shape : to_string.length = 36
  deriving DecidableEq

inductive ContentItemSort where
  | CreatedDesc
  | TitleAsc
  | SourceAsc
  deriving DecidableEq

/-- Filter criteria for content items, all of which have to hold. -/
structure ContentItemFilter where
  content_type : Option ContentType
  status : Option DocumentStatus
  feed_id : Option Uuid
  folder_id : Option Uuid
  tag_id : Option Uuid
  collection_id : Option Uuid
  uncollected : Bool
  sort : ContentItemSort
  deriving DecidableEq

/-- `ContentItemFilter::default`. -/
def ContentItemFilter.default : ContentItemFilter := ⟨none,none,none,none,none,none,false,.CreatedDesc⟩

/-! ### The text -/

/-- A condition with a value, where there is one: the value is pushed, and the condition names its number. -/
def narrowed (before after : String) (value : Option String) (built : String × List String) : String × List String :=
  match value with
  | none => built
  | some value => (built.1 ++ before ++ toString (built.2.length + 1) ++ after,built.2 ++ [value])

/-- A query for the items that match a filter, and the values of its placeholders. -/
def build_content_item_query (select_clause : String) (filter : ContentItemFilter) (limit offset : Option UInt32) :
    String × List String :=
  let sort_by_source : Bool := filter.sort = .SourceAsc
  let needs_fim := filter.feed_id.isSome || filter.folder_id.isSome || sort_by_source
  let needs_feeds := filter.folder_id.isSome || sort_by_source
  let sql :=
    if needs_fim then
      select_clause ++ "\n             FROM content_items ci\n             LEFT JOIN feed_item_meta fim ON fim.content_item_id = ci.id"
    else select_clause ++ " FROM content_items ci"
  let sql := if needs_feeds then sql ++ " LEFT JOIN feeds f ON f.id = fim.feed_id" else sql
  let built := (sql ++ " WHERE 1=1",[])
  let built := narrowed " AND ci.content_type = ?" "" (filter.content_type.map ContentType.as_str) built
  let built := narrowed " AND ci.status = ?" "" (filter.status.map DocumentStatus.as_str) built
  let built := narrowed " AND fim.feed_id = ?" "" (filter.feed_id.map Uuid.to_string) built
  let built := narrowed " AND f.folder_id = ?" "" (filter.folder_id.map Uuid.to_string) built
  let built := narrowed " AND EXISTS (SELECT 1 FROM content_item_tags cit WHERE cit.content_item_id = ci.id AND cit.tag_id = ?"
    ")" (filter.tag_id.map Uuid.to_string) built
  let built := narrowed
    " AND EXISTS (SELECT 1 FROM content_item_collections cic WHERE cic.content_item_id = ci.id AND cic.collection_id = ?"
    ")" (filter.collection_id.map Uuid.to_string) built
  let sql :=
    if filter.uncollected then
      built.1 ++ " AND NOT EXISTS (SELECT 1 FROM content_item_collections cic WHERE cic.content_item_id = ci.id)"
    else built.1
  let sql := sql ++ match filter.sort with
    | .CreatedDesc => " ORDER BY ci.created_at DESC"
    | .TitleAsc => " ORDER BY ci.title COLLATE NOCASE ASC, ci.created_at DESC"
    | .SourceAsc => " ORDER BY f.title COLLATE NOCASE ASC, ci.created_at DESC"
  let sql := match limit with
    | some lim => sql ++ " LIMIT " ++ toString lim.toNat
    | none => sql
  let sql := match offset with
    | some off => sql ++ " OFFSET " ++ toString off.toNat
    | none => sql
  (sql,built.2)

/-- Move every placeholder of a statement up. -/
def reindex_params (sql : String) (offset : ℕ) : String := String.ofList (renumber (2 ^ 64) offset sql.toList)

/-! ### What SQLite reads -/

/-- A condition on an item, with the number of its placeholder. -/
inductive Condition where
  | content_type (n : ℕ)
  | status (n : ℕ)
  | feed (n : ℕ)
  | folder (n : ℕ)
  | tag (n : ℕ)
  | collection (n : ℕ)
  | uncollected
  deriving DecidableEq

/-- What a query selects. -/
inductive Columns where
  | items
  | ids
  | count
  deriving DecidableEq

/-- A query for items: its columns, the tables it joins, its conditions, its order and its page. -/
structure ItemQuery where
  columns : Columns
  fim : Bool
  feeds : Bool
  conditions : List Condition
  sort : ContentItemSort
  page : Option (ℕ × Option ℕ)
  deriving DecidableEq

inductive Statement where
  | select (query : ItemQuery)
  | update (status updated_at : ℕ) (query : ItemQuery)
  deriving DecidableEq

namespace Condition

/-- The text before the number, or the whole text where there is none. -/
def before : Condition → String
  | content_type _ => " AND ci.content_type = ?"
  | status _ => " AND ci.status = ?"
  | feed _ => " AND fim.feed_id = ?"
  | folder _ => " AND f.folder_id = ?"
  | tag _ => " AND EXISTS (SELECT 1 FROM content_item_tags cit WHERE cit.content_item_id = ci.id AND cit.tag_id = ?"
  | collection _ =>
    " AND EXISTS (SELECT 1 FROM content_item_collections cic WHERE cic.content_item_id = ci.id AND cic.collection_id = ?"
  | uncollected => " AND NOT EXISTS (SELECT 1 FROM content_item_collections cic WHERE cic.content_item_id = ci.id)"

def after : Condition → String
  | tag _ | collection _ => ")"
  | _ => ""

def number : Condition → Option ℕ
  | content_type n | status n | feed n | folder n | tag n | collection n => some n
  | uncollected => none

/-- The condition with its number moved up. -/
def shift (offset : ℕ) : Condition → Condition
  | content_type n => content_type (n + offset)
  | status n => status (n + offset)
  | feed n => feed (n + offset)
  | folder n => folder (n + offset)
  | tag n => tag (n + offset)
  | collection n => collection (n + offset)
  | uncollected => uncollected

/-- The column that is compared belongs to a table that is joined. -/
def resolves (fim feeds : Bool) : Condition → Bool
  | feed _ => fim
  | folder _ => feeds
  | _ => true

def spelled (condition : Condition) : List Char :=
  match condition.number with
  | none => condition.before.toList
  | some n => condition.before.toList ++ (Nat.toDigits 10 n ++ condition.after.toList)

/-- The kinds of condition, each with number zero. -/
def kinds : List Condition := [content_type 0,status 0,feed 0,folder 0,tag 0,collection 0,uncollected]

/-- Read a condition of one kind. -/
def read_kind (kind : Condition) (text : List Char) : Option (Condition × List Char) := do
  let text ← strip kind.before.toList text
  match kind.number with
  | none => some (kind,text)
  | some _ => do
    let (n,text) ← Placeholders.number text
    let text ← strip kind.after.toList text
    some (kind.shift n,text)

def read (text : List Char) : Option (Condition × List Char) := kinds.findSome? (fun kind => read_kind kind text)

/-- Read conditions as long as there are any. -/
def read_all : ℕ → List Char → List Condition × List Char
  | 0,text => ([],text)
  | fuel + 1,text =>
    match read text with
    | none => ([],text)
    | some (condition,text) =>
      let (conditions,text) := read_all fuel text
      (condition :: conditions,text)

end Condition

namespace ItemQuery

/-- The select clause of the columns. -/
def clause : Columns → String
  | .items => "SELECT DISTINCT ci.id, ci.url, ci.title, ci.author, ci.content_type, ci.status,\n                    ci.content_text, ci.excerpt, ci.published_at, ci.created_at, ci.updated_at, ci.read_at"
  | .ids => "SELECT DISTINCT ci.id"
  | .count => "SELECT COUNT(DISTINCT ci.id)"

/-- The tables, with the item's feed where it is joined. -/
def source (fim : Bool) : String :=
  if fim then "\n             FROM content_items ci\n             LEFT JOIN feed_item_meta fim ON fim.content_item_id = ci.id"
  else " FROM content_items ci"

def order : ContentItemSort → String
  | .CreatedDesc => " ORDER BY ci.created_at DESC"
  | .TitleAsc => " ORDER BY ci.title COLLATE NOCASE ASC, ci.created_at DESC"
  | .SourceAsc => " ORDER BY f.title COLLATE NOCASE ASC, ci.created_at DESC"

/-- Read one of several known parts. -/
def one_of {α : Type} (part : α → String) (choices : List α) (text : List Char) : Option (α × List Char) :=
  choices.findSome? (fun a => (strip (part a).toList text).map (a,·))

/-- Read a limit and an offset, or neither. -/
def read_page (text : List Char) : Option (Option (ℕ × Option ℕ) × List Char) :=
  match strip " LIMIT ".toList text with
  | none => some (none,text)
  | some text => do
    let (limit,text) ← number text
    match strip " OFFSET ".toList text with
    | none => some (some (limit,none),text)
    | some text => do
      let (offset,text) ← number text
      some (some (limit,some offset),text)

/-- The columns that a query names belong to tables that it joins. -/
def resolves (query : ItemQuery) : Bool :=
  (query.feeds → query.fim) && (query.sort = .SourceAsc → query.feeds) &&
    query.conditions.all (Condition.resolves query.fim query.feeds)

/-- Read a query. -/
def read (text : List Char) : Option (ItemQuery × List Char) := do
  let ((columns,fim),text) ← one_of (fun (columns,fim) => clause columns ++ source fim)
    [(.items,true),(.items,false),(.ids,true),(.ids,false),(.count,true),(.count,false)] text
  let (feeds,text) := match strip " LEFT JOIN feeds f ON f.id = fim.feed_id".toList text with
    | none => (false,text)
    | some text => (true,text)
  let text ← strip " WHERE 1=1".toList text
  let (conditions,text) := Condition.read_all text.length text
  let (sort,text) ← one_of order [.CreatedDesc,.TitleAsc,.SourceAsc] text
  let (page,text) ← read_page text
  let query : ItemQuery := ⟨columns,fim,feeds,conditions,sort,page⟩
  if query.resolves then some (query,text) else none

end ItemQuery

/-- The statement that a text is, if it is one of this shape. -/
def prepare (sql : String) : Option Statement :=
  match strip "UPDATE content_items SET status = ?".toList sql.toList with
  | none => do
    let (query,text) ← ItemQuery.read sql.toList
    if text = [] then some (.select query) else none
  | some text => do
    let (status,text) ← number text
    let text ← strip ", updated_at = ?".toList text
    let (updated_at,text) ← number text
    let text ← strip " WHERE id IN (".toList text
    let (query,text) ← ItemQuery.read text
    if text = [')'] then some (.update status updated_at query) else none

/-- The greatest number of a placeholder, which is how many values have to be bound. -/
def Statement.bind_parameter_count : Statement → ℕ
  | .select query => (query.conditions.filterMap Condition.number).foldr max 0
  | .update status updated_at query =>
    max status (max updated_at ((query.conditions.filterMap Condition.number).foldr max 0))

/-! ### Texts that read back -/

theorem findSome_only {α β : Type} {f : α → Option β} {l : List α} {a : α} {b : β} (inside : a ∈ l) (found : f a = some b)
    (others : ∀ x ∈ l, x ≠ a → f x = none) : l.findSome? f = some b := by
  induction l with
  | nil => cases inside
  | cons x l ih =>
    rw [List.findSome?_cons]
    by_cases same : x = a
    · subst same
      rw [found]
    · rw [others x List.mem_cons_self same]
      exact ih ((List.mem_cons.mp inside).resolve_left (Ne.symm same)) (fun y later =>
        others y (List.mem_cons_of_mem _ later))

namespace Condition
variable {condition : Condition} {conditions : List Condition} {text : List Char} {offset n : ℕ}

@[simp] theorem before_shift (condition : Condition) (offset : ℕ) :
    (condition.shift offset).before = condition.before := by
  cases condition with
  | _ => rfl

@[simp] theorem after_shift (condition : Condition) (offset : ℕ) : (condition.shift offset).after = condition.after := by
  cases condition with
  | _ => rfl

@[simp] theorem number_shift (condition : Condition) (offset : ℕ) :
    (condition.shift offset).number = condition.number.map (· + offset) := by
  cases condition with
  | _ => rfl

-- The kernel is slow at the characters of a long text, which the rewriting lists.
theorem differ_kinds : ∀ kind ∈ kinds, ∀ other ∈ kinds, kind ≠ other → differ kind.before.toList other.before.toList := by
  simp only [kinds,List.forall_mem_cons,List.not_mem_nil,false_imp_iff,implies_true,and_true]
  simp only [before,-String.reduceToList]
  repeat rw [String.toList_ofList]
  and_intros
  all_goals decide

theorem before_head : ∀ kind ∈ kinds, kind.before.toList.head? = some ' ' := by
  simp only [kinds,List.forall_mem_cons,List.not_mem_nil,false_imp_iff,implies_true,and_true]
  simp only [before,-String.reduceToList]
  repeat rw [String.toList_ofList]
  decide

/-- A condition is of one of the kinds. -/
theorem of_kind (condition : Condition) : ∃ kind ∈ kinds, ∃ n, kind.shift n = condition ∧
    (kind.number = none ∨ kind.number = some 0) := by
  cases condition with
  | content_type n => exact ⟨content_type 0,by decide,n,by simp [shift],.inr rfl⟩
  | status n => exact ⟨status 0,by decide,n,by simp [shift],.inr rfl⟩
  | feed n => exact ⟨feed 0,by decide,n,by simp [shift],.inr rfl⟩
  | folder n => exact ⟨folder 0,by decide,n,by simp [shift],.inr rfl⟩
  | tag n => exact ⟨tag 0,by decide,n,by simp [shift],.inr rfl⟩
  | collection n => exact ⟨collection 0,by decide,n,by simp [shift],.inr rfl⟩
  | uncollected => exact ⟨uncollected,by decide,0,rfl,.inl rfl⟩

theorem spelled_eq (condition : Condition) : ∃ text, condition.spelled = condition.before.toList ++ text := by
  unfold spelled
  split
  · exact ⟨[],by simp⟩
  · exact ⟨_,rfl⟩

theorem noDigit_spelled (condition : Condition) (text : List Char) : NoDigit (condition.spelled ++ text) := by
  obtain ⟨kind,inside,n,rfl,-⟩ := condition.of_kind
  obtain ⟨later,spells⟩ := (kind.shift n).spelled_eq
  rw [spells,before_shift,List.append_assoc]
  exact noDigit_of_head (before_head kind inside) rfl _

theorem after_eq (condition : Condition) : condition.after = "" ∨ condition.after = ")" := by
  cases condition with
  | content_type | status | feed | folder | uncollected => exact .inl rfl
  | tag | collection => exact .inr rfl

theorem noDigit_after (condition : Condition) (ends : NoDigit text) : NoDigit (condition.after.toList ++ text) := by
  obtain none | closes := condition.after_eq
  · rw [none]
    exact ends
  · rw [closes]
    intro c first
    cases first
    rfl

theorem shift_plain (plain : condition.number = none) : condition.shift offset = condition := by
  cases condition with
  | uncollected => rfl
  | content_type | status | feed | folder | tag | collection => cases plain

/-- A condition reads back from its text. -/
theorem read_spelled (condition : Condition) (ends : NoDigit text) :
    read (condition.spelled ++ text) = some (condition,text) := by
  obtain ⟨kind,inside,n,rfl,numbered⟩ := condition.of_kind
  refine findSome_only inside ?_ ?_
  · obtain plain | zero := numbered
    · rw [shift_plain plain,spelled,read_kind,plain]
      dsimp only
      rw [strip_append,Option.bind_eq_bind,Option.bind_some]
    · have number : (kind.shift n).number = some n := by rw [number_shift,zero,Option.map_some,Nat.zero_add]
      rw [spelled,number,read_kind,zero]
      dsimp only
      rw [before_shift,after_shift,List.append_assoc,strip_append,Option.bind_eq_bind,Option.bind_some,List.append_assoc,
        number_digits n (kind.noDigit_after ends),Option.bind_eq_bind,Option.bind_some]
      dsimp only
      rw [strip_append,Option.bind_some]
  · intro other among different
    obtain ⟨later,spells⟩ := (kind.shift n).spelled_eq
    rw [spells,before_shift,List.append_assoc,read_kind,strip_differ (differ_kinds other among kind inside different)]
    rfl

theorem differ_order : ∀ kind ∈ kinds, ∀ sort, differ kind.before.toList (ItemQuery.order sort).toList := by
  have each : ∀ kind ∈ kinds, ∀ sort ∈ [ContentItemSort.CreatedDesc,.TitleAsc,.SourceAsc],
      differ kind.before.toList (ItemQuery.order sort).toList := by
    simp only [kinds,List.forall_mem_cons,List.not_mem_nil,false_imp_iff,implies_true,and_true]
    simp only [before,ItemQuery.order,-String.reduceToList]
    repeat rw [String.toList_ofList]
    and_intros
    all_goals decide
  intro kind inside sort
  apply each kind inside
  cases sort with
  | _ => decide

/-- No condition comes where the order begins. -/
theorem read_order (sort : ContentItemSort) (text : List Char) : read ((ItemQuery.order sort).toList ++ text) = none := by
  rw [read,List.findSome?_eq_none_iff]
  intro kind inside
  rw [read_kind,strip_differ (differ_order kind inside sort)]
  rfl

theorem length_le_spelled (conditions : List Condition) : conditions.length ≤ (conditions.flatMap spelled).length := by
  induction conditions with
  | nil => exact Nat.le_refl _
  | cons condition conditions ih =>
    have some_text : condition.spelled ≠ [] := by
      obtain ⟨kind,inside,n,rfl,-⟩ := condition.of_kind
      obtain ⟨later,spells⟩ := (kind.shift n).spelled_eq
      have head := before_head kind inside
      intro none
      rw [spells,before_shift,List.append_eq_nil_iff] at none
      rw [none.1] at head
      cases head
    have := List.length_pos_iff.mpr some_text
    rw [List.flatMap_cons,List.length_append,List.length_cons]
    omega

/-- Conditions read back up to where no condition comes. -/
theorem read_all_spelled {fuel : ℕ} (enough : conditions.length ≤ fuel) (unread : read text = none) (ends : NoDigit text) :
    read_all fuel (conditions.flatMap spelled ++ text) = (conditions,text) := by
  induction conditions generalizing fuel with
  | nil =>
    cases fuel with
    | zero => rfl
    | succ fuel =>
      rw [List.flatMap_nil,List.nil_append,read_all,unread]
  | cons condition conditions ih =>
    obtain ⟨fuel,rfl⟩ : ∃ rest, fuel = rest + 1 := Nat.exists_eq_add_one.mpr (Nat.lt_of_lt_of_le (Nat.succ_pos _) enough)
    have later : NoDigit (conditions.flatMap spelled ++ text) := by
      cases conditions with
      | nil => exact ends
      | cons next conditions =>
        rw [List.flatMap_cons,List.append_assoc]
        exact next.noDigit_spelled _
    rw [List.flatMap_cons,List.append_assoc,read_all,condition.read_spelled later]
    dsimp only
    rw [ih (Nat.le_of_succ_le_succ enough)]

/-! ### Numbers moved up -/

theorem before_plain : ∀ kind ∈ kinds, kind.number = none → '?' ∉ kind.before.toList := by
  simp only [kinds,List.forall_mem_cons,List.not_mem_nil,false_imp_iff,implies_true,and_true]
  simp only [before,-String.reduceToList]
  repeat rw [String.toList_ofList]
  decide

theorem before_placeholder : ∀ kind ∈ kinds, kind.number ≠ none →
    kind.before.toList = kind.before.toList.dropLast ++ ['?'] ∧ '?' ∉ kind.before.toList.dropLast := by
  simp only [kinds,List.forall_mem_cons,List.not_mem_nil,false_imp_iff,implies_true,and_true]
  simp only [before,-String.reduceToList]
  repeat rw [String.toList_ofList]
  and_intros
  all_goals decide

theorem after_plain (condition : Condition) : '?' ∉ condition.after.toList := by
  obtain none | closes := condition.after_eq
  · rw [none,String.toList_ofList]
    decide
  · rw [closes,String.toList_ofList]
    decide

/-- A condition is renumbered in its text. -/
theorem renumber_spelled {limit : ℕ} (low : ∀ n, condition.number = some n → n + offset < limit) (ends : NoDigit text) :
    renumber limit offset (condition.spelled ++ text) =
      (condition.shift offset).spelled ++ renumber limit offset text := by
  obtain ⟨kind,inside,n,rfl,numbered⟩ := condition.of_kind
  obtain plain | zero := numbered
  · rw [shift_plain plain,shift_plain plain,spelled,plain]
    exact renumber_part (before_plain kind inside plain)
  · have number : (kind.shift n).number = some n := by rw [number_shift,zero,Option.map_some,Nat.zero_add]
    have number' : ((kind.shift n).shift offset).number = some (n + offset) := by rw [number_shift,number,Option.map_some]
    obtain ⟨parts,plain⟩ := before_placeholder kind inside (by rw [zero]; nofun)
    rw [spelled,number,spelled,number']
    dsimp only
    rw [before_shift,after_shift,before_shift,after_shift,before_shift,after_shift,parts]
    simp only [List.append_assoc,List.cons_append,List.nil_append]
    rw [renumber_part plain,renumber_placeholder (low n number) (kind.noDigit_after ends),renumber_part kind.after_plain]

theorem renumber_all {limit : ℕ} (low : ∀ condition ∈ conditions, ∀ n, condition.number = some n → n + offset < limit)
    (ends : NoDigit text) : renumber limit offset (conditions.flatMap spelled ++ text) =
      (conditions.map (shift offset)).flatMap spelled ++ renumber limit offset text := by
  induction conditions with
  | nil => rfl
  | cons condition conditions ih =>
    have later : NoDigit (conditions.flatMap spelled ++ text) := by
      cases conditions with
      | nil => exact ends
      | cons next conditions =>
        rw [List.flatMap_cons,List.append_assoc]
        exact next.noDigit_spelled _
    rw [List.flatMap_cons,List.append_assoc,renumber_spelled (low condition List.mem_cons_self) later,
      ih (fun next later => low next (List.mem_cons_of_mem _ later)),List.map_cons,List.flatMap_cons,List.append_assoc]

end Condition

namespace ItemQuery
variable {text : List Char} {query : ItemQuery}

/-- One of several parts reads back, if none begins with another. -/
theorem one_of_spelled {α : Type} (part : α → String) {choices : List α} {a : α} (inside : a ∈ choices)
    (differs : ∀ b ∈ choices, b ≠ a → differ (part b).toList (part a).toList) (text : List Char) :
    one_of part choices ((part a).toList ++ text) = some (a,text) := by
  refine findSome_only inside ?_ ?_
  · rw [strip_append]
    rfl
  · intro b among different
    rw [strip_differ (differs b among different)]
    rfl

/-- The text of a page. -/
def page_spelled : Option (ℕ × Option ℕ) → List Char
  | none => []
  | some (limit,none) => " LIMIT ".toList ++ Nat.toDigits 10 limit
  | some (limit,some offset) =>
    " LIMIT ".toList ++ (Nat.toDigits 10 limit ++ (" OFFSET ".toList ++ Nat.toDigits 10 offset))

theorem page_none : page_spelled none = [] := rfl

theorem page_limit (limit : ℕ) : page_spelled (some (limit,none)) = " LIMIT ".toList ++ Nat.toDigits 10 limit := rfl

theorem page_offset (limit offset : ℕ) : page_spelled (some (limit,some offset)) =
    " LIMIT ".toList ++ (Nat.toDigits 10 limit ++ (" OFFSET ".toList ++ Nat.toDigits 10 offset)) := rfl

def spelled (query : ItemQuery) : List Char :=
  (clause query.columns ++ source query.fim).toList ++
    ((if query.feeds then " LEFT JOIN feeds f ON f.id = fim.feed_id".toList else []) ++
      (" WHERE 1=1".toList ++ (query.conditions.flatMap Condition.spelled ++
        ((order query.sort).toList ++ page_spelled query.page))))

/-- What may follow a query: nothing, or the end of a bracket. -/
def Ends (text : List Char) : Prop := text = [] ∨ text = [')']

theorem Ends.noDigit (ends : Ends text) : NoDigit text := by
  obtain rfl | rfl := ends
  · nofun
  · intro c first
    cases first
    rfl

theorem read_page_spelled (page : Option (ℕ × Option ℕ)) (ends : Ends text) :
    read_page (page_spelled page ++ text) = some (page,text) := by
  have no_limit : strip " LIMIT ".toList text = none := by
    rw [String.toList_ofList]
    obtain rfl | rfl := ends
    · rfl
    · rfl
  have no_offset : strip " OFFSET ".toList text = none := by
    rw [String.toList_ofList]
    obtain rfl | rfl := ends
    · rfl
    · rfl
  obtain none | ⟨limit,none | offset⟩ := page
  · rw [page_none,List.nil_append,read_page,no_limit]
  · rw [page_limit,List.append_assoc,read_page,strip_append]
    simp only [number_digits limit ends.noDigit,Option.bind_eq_bind,Option.bind_some,no_offset]
  · have later : NoDigit (" OFFSET ".toList ++ (Nat.toDigits 10 offset ++ text)) :=
      noDigit_of_head (by rw [String.toList_ofList]; rfl) rfl _
    rw [page_offset,List.append_assoc,List.append_assoc,List.append_assoc,read_page,strip_append]
    simp only [number_digits limit later,Option.bind_eq_bind,Option.bind_some,strip_append,
      number_digits offset ends.noDigit]

theorem among_clauses (columns : Columns) (fim : Bool) :
    (columns,fim) ∈ [(Columns.items,true),(.items,false),(.ids,true),(.ids,false),(.count,true),(.count,false)] := by
  cases columns with
  | _ => cases fim with
    | _ => decide

theorem among_sorts (sort : ContentItemSort) : sort ∈ [ContentItemSort.CreatedDesc,.TitleAsc,.SourceAsc] := by
  cases sort with
  | _ => decide

theorem differ_clause : ∀ a ∈ [(Columns.items,true),(.items,false),(.ids,true),(.ids,false),(.count,true),(.count,false)],
    ∀ b ∈ [(Columns.items,true),(.items,false),(.ids,true),(.ids,false),(.count,true),(.count,false)], b ≠ a →
      differ (clause b.1 ++ source b.2).toList (clause a.1 ++ source a.2).toList := by
  simp only [List.forall_mem_cons,List.not_mem_nil,false_imp_iff,implies_true,and_true]
  simp only [clause,source,String.toList_append,if_true,Bool.false_eq_true,if_false,-String.reduceToList]
  repeat rw [String.toList_ofList]
  and_intros
  all_goals decide

theorem differ_sort : ∀ a ∈ [ContentItemSort.CreatedDesc,.TitleAsc,.SourceAsc],
    ∀ b ∈ [ContentItemSort.CreatedDesc,.TitleAsc,.SourceAsc], b ≠ a → differ (order b).toList (order a).toList := by
  simp only [List.forall_mem_cons,List.not_mem_nil,false_imp_iff,implies_true,and_true]
  simp only [order,-String.reduceToList]
  repeat rw [String.toList_ofList]
  decide

theorem noDigit_order (sort : ContentItemSort) (text : List Char) : NoDigit ((order sort).toList ++ text) := by
  cases sort with
  | _ => exact noDigit_of_head (by rw [order,String.toList_ofList]; rfl) rfl _

/-- A query reads back from its text, with a page that reads back. -/
theorem read_paged (resolves : query.resolves)
    (paged : read_page (page_spelled query.page ++ text) = some (query.page,text)) :
    read (query.spelled ++ text) = some (query,text) := by
  obtain ⟨columns,fim,feeds,conditions,sort,page⟩ := query
  have among := among_clauses columns fim
  have ordered := among_sorts sort
  have first := one_of_spelled (fun (columns,fim) => clause columns ++ source fim) among (differ_clause _ among)
  have last := one_of_spelled order ordered (differ_sort _ ordered)
  have no_join (later : List Char) :
      strip " LEFT JOIN feeds f ON f.id = fim.feed_id".toList (" WHERE 1=1".toList ++ later) = none :=
    strip_differ (by repeat rw [String.toList_ofList]; decide) later
  have counted : conditions.length ≤
      (conditions.flatMap Condition.spelled ++ ((order sort).toList ++ (page_spelled page ++ text))).length := by
    rw [List.length_append]
    exact Nat.le_trans (Condition.length_le_spelled conditions) (Nat.le_add_right ..)
  have conditions_read := Condition.read_all_spelled counted (Condition.read_order sort (page_spelled page ++ text))
    (noDigit_order sort _)
  simp only [spelled,List.append_assoc]
  rw [read,first]
  cases feeds with
  | true =>
    simp only [if_true,Option.bind_eq_bind,Option.bind_some,strip_append,conditions_read,last,paged]
    exact if_pos resolves
  | false =>
    simp only [Bool.false_eq_true,if_false,List.nil_append,Option.bind_eq_bind,Option.bind_some,no_join,strip_append,
      conditions_read,last,paged]
    exact if_pos resolves

theorem read_spelled (resolves : query.resolves) (ends : Ends text) : read (query.spelled ++ text) = some (query,text) :=
  read_paged resolves (read_page_spelled query.page ends)

/-- The query with its numbers moved up. -/
def shift (offset : ℕ) (query : ItemQuery) : ItemQuery :=
  { query with conditions := query.conditions.map (Condition.shift offset) }

theorem plain_parts : (∀ a ∈ [(Columns.items,true),(.items,false),(.ids,true),(.ids,false),(.count,true),(.count,false)],
      '?' ∉ (clause a.1 ++ source a.2).toList) ∧
    '?' ∉ " LEFT JOIN feeds f ON f.id = fim.feed_id".toList ∧ '?' ∉ " WHERE 1=1".toList ∧
    (∀ a ∈ [ContentItemSort.CreatedDesc,.TitleAsc,.SourceAsc], '?' ∉ (order a).toList) ∧
    '?' ∉ " LIMIT ".toList ∧ '?' ∉ " OFFSET ".toList := by
  simp only [List.forall_mem_cons,List.not_mem_nil,false_imp_iff,implies_true,and_true]
  simp only [clause,source,order,String.toList_append,if_true,Bool.false_eq_true,if_false,-String.reduceToList]
  repeat rw [String.toList_ofList]
  and_intros
  all_goals decide

theorem digits_plain (n : ℕ) : '?' ∉ Nat.toDigits 10 n := by
  intro inside
  cases Nat.isDigit_of_mem_toDigits (by decide) (by decide) inside

theorem page_plain (page : Option (ℕ × Option ℕ)) : '?' ∉ page_spelled page := by
  obtain ⟨-,-,-,-,limit_plain,offset_plain⟩ := plain_parts
  obtain none | ⟨limit,none | offset⟩ := page
  · exact List.not_mem_nil
  · simp only [page_limit,List.mem_append,limit_plain,digits_plain,or_self,not_false_iff]
  · simp only [page_offset,List.mem_append,limit_plain,offset_plain,digits_plain,or_self,not_false_iff]

/-- A query is renumbered in its text. -/
theorem renumber_spelled {limit offset : ℕ}
    (low : ∀ condition ∈ query.conditions, ∀ n, condition.number = some n → n + offset < limit)
    (text : List Char) :
    renumber limit offset (query.spelled ++ text) = (query.shift offset).spelled ++ renumber limit offset text := by
  obtain ⟨columns,fim,feeds,conditions,sort,page⟩ := query
  obtain ⟨clauses,join,start,orders,-,-⟩ := plain_parts
  have clause_plain : '?' ∉ (clause columns ++ source fim).toList := clauses (columns,fim) (among_clauses columns fim)
  have order_plain := orders sort (among_sorts sort)
  simp only [spelled,shift,List.append_assoc]
  rw [renumber_part clause_plain]
  cases feeds with
  | true =>
    simp only [if_true]
    rw [renumber_part join,renumber_part start,Condition.renumber_all low (noDigit_order sort _),
      renumber_part order_plain,renumber_part (page_plain page)]
  | false =>
    simp only [Bool.false_eq_true,if_false,List.nil_append]
    rw [renumber_part start,Condition.renumber_all low (noDigit_order sort _),renumber_part order_plain,
      renumber_part (page_plain page)]

@[simp] theorem resolves_shift (query : ItemQuery) (offset : ℕ) : (query.shift offset).resolves = query.resolves := by
  have each (condition : Condition) : (condition.shift offset).resolves query.fim query.feeds =
      condition.resolves query.fim query.feeds := by
    cases condition with
    | _ => rfl
  simp only [resolves,shift,List.all_map,Function.comp_def,each]
  rfl

end ItemQuery

/-! ### Statements -/

section
variable {sql : String} {query : ItemQuery}

theorem update_differs :
    ∀ a ∈ [(Columns.items,true),(.items,false),(.ids,true),(.ids,false),(.count,true),(.count,false)],
    differ "UPDATE content_items SET status = ?".toList (ItemQuery.clause a.1 ++ ItemQuery.source a.2).toList := by
  simp only [List.forall_mem_cons,List.not_mem_nil,false_imp_iff,implies_true,and_true]
  simp only [ItemQuery.clause,ItemQuery.source,String.toList_append,if_true,Bool.false_eq_true,if_false,
    -String.reduceToList]
  repeat rw [String.toList_ofList]
  and_intros
  all_goals decide

theorem prepare_select (resolves : query.resolves) (spells : sql.toList = query.spelled) :
    prepare sql = some (.select query) := by
  have reads := ItemQuery.read_spelled resolves (.inl rfl : ItemQuery.Ends [])
  rw [List.append_nil] at reads
  have no_update : strip "UPDATE content_items SET status = ?".toList query.spelled = none :=
    strip_differ (update_differs (query.columns,query.fim) (ItemQuery.among_clauses ..)) _
  rw [prepare,spells,no_update]
  simp only [reads,Option.bind_eq_bind,Option.bind_some,if_true]

theorem prepare_update (resolves : query.resolves) {status updated_at : ℕ}
    (spells : sql.toList = "UPDATE content_items SET status = ?".toList ++ (Nat.toDigits 10 status ++
      (", updated_at = ?".toList ++ (Nat.toDigits 10 updated_at ++
        (" WHERE id IN (".toList ++ (query.spelled ++ [')'])))))) :
    prepare sql = some (.update status updated_at query) := by
  have reads := ItemQuery.read_spelled resolves (.inr rfl : ItemQuery.Ends [')'])
  have comma (text : List Char) : NoDigit (", updated_at = ?".toList ++ text) :=
    noDigit_of_head (by rw [String.toList_ofList]; rfl) rfl text
  have blank (text : List Char) : NoDigit (" WHERE id IN (".toList ++ text) :=
    noDigit_of_head (by rw [String.toList_ofList]; rfl) rfl text
  have start : strip "UPDATE content_items SET status = ?".toList sql.toList =
      some (Nat.toDigits 10 status ++ (", updated_at = ?".toList ++ (Nat.toDigits 10 updated_at ++
        (" WHERE id IN (".toList ++ (query.spelled ++ [')']))))) := by
    rw [spells,strip_append]
  rw [prepare,start]
  simp only [Option.bind_eq_bind]
  rw [number_digits _ (comma _),Option.bind_some,strip_append,Option.bind_some,number_digits _ (blank _),
    Option.bind_some,strip_append,Option.bind_some,reads,Option.bind_some,if_pos rfl]

end

/-! ### The query for a filter -/

/-- A condition on one column, where the filter has a value for it. -/
def pushed (built : List Condition × List String) (part : Condition × Option String) : List Condition × List String :=
  match part.2 with
  | none => built
  | some value => (built.1 ++ [part.1.shift (built.2.length + 1)],built.2 ++ [value])

namespace ContentItemFilter
variable (filter : ContentItemFilter)

/-- The columns that a filter may compare, each with its value. -/
def parts : List (Condition × Option String) :=
  [(.content_type 0,filter.content_type.map ContentType.as_str),(.status 0,filter.status.map DocumentStatus.as_str),
    (.feed 0,filter.feed_id.map Uuid.to_string),(.folder 0,filter.folder_id.map Uuid.to_string),
    (.tag 0,filter.tag_id.map Uuid.to_string),(.collection 0,filter.collection_id.map Uuid.to_string)]

/-- The values of the placeholders. -/
def values : List String := filter.parts.filterMap Prod.snd

def sorts_by_source : Bool := filter.sort = .SourceAsc

/-- The query for a filter. -/
def query (columns : Columns) (page : Option (ℕ × Option ℕ)) : ItemQuery where
  columns := columns
  fim := filter.feed_id.isSome || filter.folder_id.isSome || filter.sorts_by_source
  feeds := filter.folder_id.isSome || filter.sorts_by_source
  conditions := (filter.parts.foldl pushed ([],[])).1 ++ if filter.uncollected then [.uncollected] else []
  sort := filter.sort
  page := page

end ContentItemFilter

section
variable {parts : List (Condition × Option String)} {conditions : List Condition} {params : List String}
  {filter : ContentItemFilter}

theorem query_conditions (filter : ContentItemFilter) (columns : Columns) (page : Option (ℕ × Option ℕ)) :
    (filter.query columns page).conditions = (filter.parts.foldl pushed ([],[])).1 ++
      if filter.uncollected then [.uncollected] else [] := rfl

theorem pushed_values (parts : List (Condition × Option String)) (built : List Condition × List String) :
    (parts.foldl pushed built).2 = built.2 ++ parts.filterMap Prod.snd := by
  induction parts generalizing built with
  | nil => simp
  | cons part parts ih =>
    obtain ⟨kind,none | value⟩ := part
    · rw [List.foldl_cons,ih]
      rfl
    · rw [List.foldl_cons,ih]
      simp [pushed]

/-- The numbers of the conditions are those of the values. -/
theorem pushed_numbers (kinds : ∀ part ∈ parts, part.1.number = some 0) (built : List Condition × List String)
    (numbered : built.1.filterMap Condition.number = List.range' 1 built.2.length) :
    (parts.foldl pushed built).1.filterMap Condition.number = List.range' 1 (parts.foldl pushed built).2.length := by
  induction parts generalizing built with
  | nil => exact numbered
  | cons part parts ih =>
    rw [List.foldl_cons]
    refine ih (fun later inside => kinds later (List.mem_cons_of_mem _ inside)) _ ?_
    obtain ⟨kind,none | value⟩ := part
    · exact numbered
    · have zero : kind.number = some 0 := kinds _ List.mem_cons_self
      simp only [pushed,List.filterMap_append,numbered,List.length_append,List.length_singleton,List.range'_concat]
      simp [zero,Nat.add_comm]

/-- The text of a query is put together as its conditions are. -/
theorem narrowed_spelled (kinds : ∀ part ∈ parts, part.1.number = some 0) (built : String × List String)
    (conditions : List Condition) {start : List Char}
    (spells : built.1.toList = start ++ conditions.flatMap Condition.spelled) :
    let result := parts.foldl (fun built part => narrowed part.1.before part.1.after part.2 built) built
    let numbered := parts.foldl pushed (conditions,built.2)
    result.1.toList = start ++ numbered.1.flatMap Condition.spelled ∧ result.2 = numbered.2 := by
  induction parts generalizing built conditions with
  | nil => exact ⟨spells,rfl⟩
  | cons part parts ih =>
    have rest : ∀ part ∈ parts, part.1.number = some 0 := fun later inside => kinds later (List.mem_cons_of_mem _ inside)
    obtain ⟨kind,none | value⟩ := part
    · exact ih rest _ _ spells
    · have zero : kind.number = some 0 := kinds _ List.mem_cons_self
      rw [List.foldl_cons,List.foldl_cons]
      refine ih rest _ _ ?_
      have number : (kind.shift (built.2.length + 1)).number = some (built.2.length + 1) := by
        rw [Condition.number_shift,zero,Option.map_some,Nat.zero_add]
      simp only [narrowed,String.toList_append,spells,List.flatMap_append,List.flatMap_singleton,Condition.spelled,number,
        Condition.before_shift,Condition.after_shift,List.append_assoc]
      rw [Nat.toString_eq_repr,Nat.toList_repr]

theorem parts_numbered (filter : ContentItemFilter) : ∀ part ∈ filter.parts, part.1.number = some 0 := by
  simp [ContentItemFilter.parts,Condition.number]

/-- The page of a limit and an offset. -/
def paged (limit offset : Option UInt32) : Option (ℕ × Option ℕ) :=
    limit.map (fun lim => (lim.toNat,offset.map UInt32.toNat))

/-- The select clause, the tables and the start of the conditions. -/
def ItemQuery.base (query : ItemQuery) : String :=
  clause query.columns ++ source query.fim ++ (if query.feeds then " LEFT JOIN feeds f ON f.id = fim.feed_id" else "") ++
    " WHERE 1=1"

theorem base_eq (clause : String) (fim feeds : Bool) :
    (if feeds then
      (if fim then clause ++ "\n             FROM content_items ci\n             LEFT JOIN feed_item_meta fim ON fim.content_item_id = ci.id"
        else clause ++ " FROM content_items ci") ++ " LEFT JOIN feeds f ON f.id = fim.feed_id"
    else
      (if fim then clause ++ "\n             FROM content_items ci\n             LEFT JOIN feed_item_meta fim ON fim.content_item_id = ci.id"
        else clause ++ " FROM content_items ci")) =
      clause ++ ItemQuery.source fim ++ (if feeds then " LEFT JOIN feeds f ON f.id = fim.feed_id" else "") := by
  cases feeds with
  | true => cases fim with
    | _ => rfl
  | false => cases fim with
    | true => exact String.append_empty.symm
    | false => exact String.append_empty.symm

theorem build_eq (columns : Columns) (filter : ContentItemFilter) (limit offset : Option UInt32) :
    let built := filter.parts.foldl (fun built part => narrowed part.1.before part.1.after part.2 built)
      ((filter.query columns none).base,[])
    build_content_item_query (ItemQuery.clause columns) filter limit offset =
      ((built.1 ++ (if filter.uncollected then Condition.before .uncollected else "") ++ ItemQuery.order filter.sort ++
        (match limit with
          | some lim => " LIMIT " ++ toString lim.toNat
          | none => "")) ++
        (match offset with
          | some off => " OFFSET " ++ toString off.toNat
          | none => ""),built.2) := by
  intro folded
  have whole : folded = filter.parts.foldl (fun built part => narrowed part.1.before part.1.after part.2 built)
    ((filter.query columns none).base,[]) := rfl
  clear_value folded
  unfold build_content_item_query
  dsimp only
  rw [base_eq]
  generalize chain : narrowed _ ")" (filter.collection_id.map Uuid.to_string) _ = built
  have same : built = folded := by
    rw [whole,← chain]
    rfl
  subst same
  cases filter.uncollected with
  | true => cases filter.sort with
    | _ => cases limit with
      | _ => cases offset with
        | _ =>
          simp only [if_true,Condition.before,ItemQuery.order,String.append_assoc,String.append_empty,
            -String.reduceAppend]
  | false => cases filter.sort with
    | _ => cases limit with
      | _ => cases offset with
        | _ =>
          simp only [Bool.false_eq_true,if_false,ItemQuery.order,String.append_assoc,String.append_empty,
            -String.reduceAppend]

theorem base_spelled (query : ItemQuery) :
    query.spelled = query.base.toList ++ (query.conditions.flatMap Condition.spelled ++
    ((ItemQuery.order query.sort).toList ++ ItemQuery.page_spelled query.page)) := by
  simp only [ItemQuery.spelled,ItemQuery.base,String.toList_append,List.append_assoc,-String.reduceToList]
  cases query.feeds with
  | true => simp only [if_true]
  | false => simp only [Bool.false_eq_true,if_false,String.toList_empty]

theorem uncollected_spelled (uncollected : Bool) : (if uncollected then Condition.before .uncollected else "").toList =
    (if uncollected then [Condition.uncollected] else []).flatMap Condition.spelled := by
  cases uncollected with
  | true => exact (List.append_nil _).symm
  | false => exact String.toList_empty

theorem toList_toString (n : ℕ) : (toString n).toList = Nat.toDigits 10 n := by
  rw [Nat.toString_eq_repr,Nat.toList_repr]

/-- The text for a filter spells its query up to the page, and the page or what there is of it. -/
theorem build_spelled (columns : Columns) (filter : ContentItemFilter) (limit offset : Option UInt32) :
    let built := build_content_item_query (ItemQuery.clause columns) filter limit offset
    built.2 = filter.values ∧ built.1.toList = (filter.query columns none).spelled ++
      ((match limit with
        | some lim => " LIMIT ".toList ++ Nat.toDigits 10 lim.toNat
        | none => []) ++
      (match offset with
        | some off => " OFFSET ".toList ++ Nat.toDigits 10 off.toNat
        | none => [])) := by
  obtain ⟨text,values⟩ := narrowed_spelled (parts_numbered filter) ((filter.query columns none).base,[]) []
    (List.append_nil _).symm
  rw [build_eq]
  refine ⟨values.trans (pushed_values ..),?_⟩
  have sort : (filter.query columns none).sort = filter.sort := rfl
  have page : (filter.query columns none).page = none := rfl
  rw [base_spelled,query_conditions,sort,page,ItemQuery.page_none,List.flatMap_append,← uncollected_spelled]
  simp only [String.toList_append,List.append_assoc,List.nil_append,text,-String.reduceToList]
  cases limit with
  | none => cases offset with
    | none => simp only [String.toList_empty]
    | some off => simp only [String.toList_empty,String.toList_append,toList_toString,-String.reduceToList]
  | some lim => cases offset with
    | none => simp only [String.toList_empty,String.toList_append,toList_toString,-String.reduceToList]
    | some off => simp only [String.toList_append,toList_toString,List.append_assoc,-String.reduceToList]

theorem pushed_resolves {fim feeds : Bool} (joined : ∀ part ∈ parts, part.2 ≠ none → part.1.resolves fim feeds)
    (built : List Condition × List String) (before : built.1.all (Condition.resolves fim feeds)) :
    (parts.foldl pushed built).1.all (Condition.resolves fim feeds) := by
  induction parts generalizing built with
  | nil => exact before
  | cons part parts ih =>
    refine ih (fun later inside => joined later (List.mem_cons_of_mem _ inside)) _ ?_
    obtain ⟨kind,none | value⟩ := part
    · exact before
    · have fits : kind.resolves fim feeds := joined _ List.mem_cons_self nofun
      simp only [pushed,List.all_append,before,List.all_cons,List.all_nil,Bool.and_true,Bool.true_and]
      cases kind with
      | _ => exact fits

/-- Where a filter names a feed, a folder or a source, their tables are joined. -/
theorem query_resolves (filter : ContentItemFilter) (columns : Columns) (page : Option (ℕ × Option ℕ)) :
    (filter.query columns page).resolves := by
  have joined : ∀ part ∈ filter.parts, part.2 ≠ none →
      part.1.resolves (filter.query columns page).fim (filter.query columns page).feeds := by
    simp only [ContentItemFilter.parts,List.forall_mem_cons,List.not_mem_nil,false_imp_iff,implies_true,and_true,
      Condition.resolves,ContentItemFilter.query,true_and]
    constructor
    · intro given
      have present := Option.isSome_iff_ne_none.mpr given
      rw [Option.isSome_map] at present
      rw [present,Bool.true_or,Bool.true_or]
    · intro given
      have present := Option.isSome_iff_ne_none.mpr given
      rw [Option.isSome_map] at present
      rw [present,Bool.true_or]
  have all := pushed_resolves joined ([],[]) rfl
  rw [ItemQuery.resolves,Bool.and_eq_true_iff,Bool.and_eq_true_iff]
  refine ⟨⟨?_,?_⟩,?_⟩
  · simp only [ContentItemFilter.query,decide_eq_true_eq,Bool.or_eq_true]
    rintro (folder | source)
    · exact .inl (.inr folder)
    · exact .inr source
  · simp only [ContentItemFilter.query,ContentItemFilter.sorts_by_source,decide_eq_true_eq,Bool.or_eq_true]
    exact .inr
  · rw [query_conditions,List.all_append,all,Bool.true_and]
    cases filter.uncollected with
    | _ => rfl

theorem query_paged (filter : ContentItemFilter) (columns : Columns) (page : Option (ℕ × Option ℕ)) :
    (filter.query columns page).spelled = (filter.query columns none).spelled ++ ItemQuery.page_spelled page := by
  rw [base_spelled,base_spelled]
  simp only [List.append_assoc]
  rfl

/-- SQLite reads the query for a filter in its text. -/
theorem prepare_query (columns : Columns) (filter : ContentItemFilter) {limit offset : Option UInt32}
    (limited : offset = none ∨ limit ≠ none) :
    prepare (build_content_item_query (ItemQuery.clause columns) filter limit offset).1 =
      some (.select (filter.query columns (paged limit offset))) := by
  refine prepare_select (query_resolves ..) ?_
  rw [(build_spelled columns filter limit offset).2,query_paged filter columns (paged limit offset)]
  cases limit with
  | none =>
    obtain rfl := limited.resolve_right (fun given => given rfl)
    rfl
  | some lim => cases offset with
    | none =>
      rw [List.append_nil]
      rfl
    | some off =>
      rw [List.append_assoc]
      rfl

/-- It finds no statement where an offset comes without a limit. -/
theorem prepare_offset (columns : Columns) (filter : ContentItemFilter) (off : UInt32) :
    prepare (build_content_item_query (ItemQuery.clause columns) filter none (some off)).1 = none := by
  have alone : ItemQuery.read_page (ItemQuery.page_spelled none ++ (" OFFSET ".toList ++ Nat.toDigits 10 off.toNat)) =
      some (none," OFFSET ".toList ++ Nat.toDigits 10 off.toNat) := by
    have differs : strip " LIMIT ".toList (" OFFSET ".toList ++ Nat.toDigits 10 off.toNat) = none :=
      strip_differ (by repeat rw [String.toList_ofList]; decide) _
    rw [ItemQuery.page_none,List.nil_append,ItemQuery.read_page,differs]
  have reads := ItemQuery.read_paged (query_resolves filter columns none) alone
  have no_update : strip "UPDATE content_items SET status = ?".toList ((filter.query columns none).spelled ++
      (" OFFSET ".toList ++ Nat.toDigits 10 off.toNat)) = none := by
    rw [ItemQuery.spelled,List.append_assoc]
    exact strip_differ (update_differs (columns,_) (ItemQuery.among_clauses ..)) _
  have left_over : " OFFSET ".toList ++ Nat.toDigits 10 off.toNat ≠ [] := fun none =>
    Nat.toDigits_ne_nil (List.append_eq_nil_iff.mp none).2
  rw [prepare,(build_spelled columns filter none (some off)).2,List.nil_append,no_update]
  simp only [reads,Option.bind_eq_bind,Option.bind_some,if_neg left_over]

theorem query_numbers (filter : ContentItemFilter) (columns : Columns) (page : Option (ℕ × Option ℕ)) :
    (filter.query columns page).conditions.filterMap Condition.number = List.range' 1 filter.values.length := by
  have numbers := pushed_numbers (parts_numbered filter) ([],[]) rfl
  rw [pushed_values] at numbers
  rw [query_conditions,List.filterMap_append,numbers]
  cases filter.uncollected with
  | true => exact List.append_nil _
  | false => exact List.append_nil _

theorem values_length (filter : ContentItemFilter) : filter.values.length ≤ 6 := List.length_filterMap_le ..

/-- What SQLite reads in the update after `reindex_params`: its own numbers have moved up, too. -/
theorem prepare_reindexed (filter : ContentItemFilter) :
    prepare (reindex_params ("UPDATE content_items SET status = ?1, updated_at = ?2 WHERE id IN (" ++
      (build_content_item_query "SELECT DISTINCT ci.id" filter none none).1 ++ ")") 2) =
        some (.update 3 4 ((filter.query .ids none).shift 2)) := by
  have spells := (build_spelled .ids filter none none).2
  rw [List.append_nil,List.append_nil] at spells
  have low : ∀ condition ∈ (filter.query .ids none).conditions, ∀ n, condition.number = some n → n + 2 < 2 ^ 64 := by
    intro condition inside n number
    have among := List.mem_filterMap.mpr ⟨condition,inside,number⟩
    rw [query_numbers] at among
    have := List.mem_range'_1.mp among
    have := values_length filter
    omega
  have first : "UPDATE content_items SET status = ?1, updated_at = ?2 WHERE id IN (".toList =
      "UPDATE content_items SET status = ".toList ++ '?' :: (Nat.toDigits 10 1 ++ (", updated_at = ".toList ++
        '?' :: (Nat.toDigits 10 2 ++ " WHERE id IN (".toList))) := by
    repeat rw [String.toList_ofList]
    rfl
  have status : "UPDATE content_items SET status = ?".toList = "UPDATE content_items SET status = ".toList ++ ['?'] := by
    repeat rw [String.toList_ofList]
    rfl
  have updated_at : ", updated_at = ?".toList = ", updated_at = ".toList ++ ['?'] := by
    repeat rw [String.toList_ofList]
    rfl
  have plain : '?' ∉ "UPDATE content_items SET status = ".toList ∧ '?' ∉ ", updated_at = ".toList ∧
      '?' ∉ " WHERE id IN (".toList := by
    repeat rw [String.toList_ofList]
    decide
  have comma (text : List Char) : NoDigit (", updated_at = ".toList ++ text) :=
    noDigit_of_head (by rw [String.toList_ofList]; rfl) rfl text
  have blank (text : List Char) : NoDigit (" WHERE id IN (".toList ++ text) :=
    noDigit_of_head (by rw [String.toList_ofList]; rfl) rfl text
  refine prepare_update (by rw [ItemQuery.resolves_shift]; exact query_resolves ..) ?_
  rw [reindex_params,String.toList_ofList,String.toList_append,String.toList_append,first,status,updated_at]
  have subquery : (build_content_item_query "SELECT DISTINCT ci.id" filter none none).1.toList =
      (filter.query .ids none).spelled := spells
  have close : renumber (2 ^ 64) 2 ")".toList = [')'] := by
    rw [String.toList_ofList,renumber,if_neg (by decide),renumber]
  rw [subquery]
  simp only [List.append_assoc,List.cons_append,List.nil_append,-String.reduceToList]
  rw [renumber_part plain.1,renumber_placeholder (by decide) (comma _),renumber_part plain.2.1,
    renumber_placeholder (by decide) (blank _),renumber_part plain.2.2,ItemQuery.renumber_spelled low,close]

end
end Pergamon
