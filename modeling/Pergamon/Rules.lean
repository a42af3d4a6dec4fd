import Pergamon.Library

/-!
Content rules. The rules that are enabled are taken by priority; one whose filter holds of the
item plans its actions, and the tags that it adds are seen by the filters after it. Then the
planned actions are executed on the library, one after the other, and the first that fails
ends the execution.

Executing an action that adds to a collection hands the two ids to `add_to_collection` in the
wrong order, so it looks for a collection under the id of the item and fails
(`apply_collection_fails`). The other actions do what they plan (`apply_rule_action_does`), and
so a plan is executed as a whole iff it names no collection (`execute_iff`).
-/
namespace Pergamon
open Fallible Library

/-- Unicode lower case. -/
class Unicode where
  to_lowercase : String → String

/-- `str::contains`. -/
def contains (text part : String) : Bool := decide (part.toList <:+: text.toList)

/-- What filters see of an item. -/
structure MatchContext where
  item : Library.ContentItem
  tags : List String
  feed_title : Option String

structure PlannedAction where
  rule_id : String
  rule_name : String
  action : RuleAction
  deriving DecidableEq

section
variable [TimeCrate] [Unicode]

/-- Format a timestamp as ISO 8601 for comparison. -/
def format_time (t : OffsetDateTime) : String := (TimeCrate.format_rfc3339 t).getD ""

def midnight (date : String) : String := date ++ "T00:00:00Z"

/-- Evaluate a single predicate against the context. -/
def matches_predicate (ctx : MatchContext) : FilterPredicate → Bool
  | .ContentType types => types.contains ctx.item.content_type
  | .Tag tags => tags.any (fun t => ctx.tags.any (fun held => same_name held t))
  | .Status statuses => statuses.contains ctx.item.status
  | .ExcludeStatus statuses => !statuses.contains ctx.item.status
  | .Source src => ctx.feed_title.any (fun title => contains (Unicode.to_lowercase title) (Unicode.to_lowercase src))
  | .CreatedSince date => midnight date ≤ format_time ctx.item.created_at
  | .CreatedBefore date => format_time ctx.item.created_at < midnight date
  | .Text query =>
    contains (Unicode.to_lowercase ctx.item.title) (Unicode.to_lowercase query) ||
      ctx.item.content_text.any (fun text => contains (Unicode.to_lowercase text) (Unicode.to_lowercase query))

/-- Check whether all predicates in a filter match the context. -/
def matches_filter (ctx : MatchContext) (filter : SmartFilter) : Bool := filter.predicates.all (matches_predicate ctx)

omit [TimeCrate] [Unicode] in
/-- The tags that the context holds after an action. -/
def MatchContext.seen (ctx : MatchContext) : RuleAction → MatchContext
  | .AddTag name => if ctx.tags.any (fun held => same_name held name) then ctx else { ctx with tags := ctx.tags ++ [name] }
  | _ => ctx

/-- Plan the actions of a rule, if its filter parses and matches. -/
def evaluate_rule (acc : MatchContext × List PlannedAction) (rule : ContentRule) : MatchContext × List PlannedAction :=
  match SmartFilter.parse rule.filter_query with
  | .error _ => acc
  | .ok filter =>
    if matches_filter acc.1 filter then
      rule.actions.foldl (fun acc action => (acc.1.seen action,acc.2 ++ [⟨rule.id,rule.name,action⟩])) acc
    else acc

/-- The enabled rules, those of lower priority first. -/
def in_order (rules : List ContentRule) : List ContentRule :=
  (rules.filter (fun rule => rule.enabled)).insertionSort (fun a b => a.priority ≤ b.priority)

/-- Evaluate all enabled rules against a content item. -/
def evaluate_rules (ctx : MatchContext) (rules : List ContentRule) : List PlannedAction :=
  ((in_order rules).foldl evaluate_rule (ctx,[])).2

def planned_actions (ctx : MatchContext) (rules : List ContentRule) : List RuleAction :=
  (evaluate_rules ctx rules).map PlannedAction.action

/-! ### What is planned -/

omit [TimeCrate] [Unicode] in
/-- The names that planned actions add. -/
def added (planned : List PlannedAction) : List String :=
  planned.filterMap (fun pa => match pa.action with
    | .AddTag name => some name
    | _ => none)

omit [TimeCrate] [Unicode] in
/-- The context shows the given tags, whatever their cases and their number. -/
structure Sees (ctx : MatchContext) (tags : List String) (seen : MatchContext) : Prop where
  item : seen.item = ctx.item
  feed_title : seen.feed_title = ctx.feed_title
  tags : ∀ name, seen.tags.any (fun held => same_name held name) = tags.any (fun held => same_name held name)

/-- A filter does not see more of the tags than their names without case. -/
theorem matches_filter_sees {ctx seen : MatchContext} {tags : List String} (sees : Sees ctx tags seen) (filter : SmartFilter) :
    matches_filter seen filter = matches_filter { ctx with tags := tags } filter := by
  have each (p : FilterPredicate) : matches_predicate seen p = matches_predicate { ctx with tags := tags } p := by
    cases p <;> simp only [matches_predicate,sees.item,sees.feed_title,sees.tags]
  rw [matches_filter,matches_filter,funext each]

omit [TimeCrate] [Unicode] in
/-- Planning some actions of a rule. -/
theorem plan_actions {ctx : MatchContext} (rule : ContentRule) {actions : List RuleAction} {acc : MatchContext × List PlannedAction}
    (sees : Sees ctx (ctx.tags ++ added acc.2) acc.1) :
    let after := actions.foldl (fun acc action => (acc.1.seen action,acc.2 ++ [⟨rule.id,rule.name,action⟩])) acc
    after.2 = acc.2 ++ actions.map (fun action => ⟨rule.id,rule.name,action⟩) ∧ Sees ctx (ctx.tags ++ added after.2) after.1 := by
  induction actions generalizing acc with
  | nil => exact ⟨by simp,sees⟩
  | cons action actions ih =>
    have step : Sees ctx (ctx.tags ++ added (acc.2 ++ [⟨rule.id,rule.name,action⟩])) (acc.1.seen action) := by
      cases action with
      | AddTag name =>
        have grown (n : String) : (ctx.tags ++ added (acc.2 ++ [⟨rule.id,rule.name,.AddTag name⟩])).any (fun held => same_name held n) =
            ((ctx.tags ++ added acc.2).any (fun held => same_name held n) || same_name name n) := by
          simp [added,Bool.or_assoc]
        by_cases there : acc.1.tags.any (fun held => same_name held name)
        · rw [MatchContext.seen,if_pos there]
          refine ⟨sees.item,sees.feed_title,fun n => ?_⟩
          rw [grown,← sees.tags]
          -- the tag that is there already has the new name
          cases new : same_name name n with
          | false => rw [Bool.or_false]
          | true =>
            obtain ⟨held,inside,same⟩ := List.any_eq_true.mp there
            rw [Bool.or_true,List.any_eq_true]
            exact ⟨held,inside,same_name_trans same new⟩
        · rw [MatchContext.seen,if_neg there]
          refine ⟨sees.item,sees.feed_title,fun n => ?_⟩
          rw [grown,← sees.tags]
          simp
      | SetStatus status => simpa [added,MatchContext.seen] using sees
      | AddToCollection name => simpa [added,MatchContext.seen] using sees
      | Mute => simpa [added,MatchContext.seen] using sees
    obtain ⟨planned,sees'⟩ := @ih (acc.1.seen action,acc.2 ++ [⟨rule.id,rule.name,action⟩]) step
    refine ⟨?_,sees'⟩
    rw [List.foldl_cons,planned]
    simp

/-- The actions of a rule, if its filter parses and holds of the item with the given tags. -/
def plan_of (ctx : MatchContext) (tags : List String) (rule : ContentRule) : List PlannedAction :=
  match SmartFilter.parse rule.filter_query with
  | .error _ => []
  | .ok filter =>
    if matches_filter { ctx with tags := tags } filter then rule.actions.map (fun action => ⟨rule.id,rule.name,action⟩) else []

/-- Evaluating a rule plans its actions with the tags that are there and those planned so far. -/
theorem evaluate_rule_plans {ctx : MatchContext} {acc : MatchContext × List PlannedAction}
    (sees : Sees ctx (ctx.tags ++ added acc.2) acc.1) (rule : ContentRule) :
    (evaluate_rule acc rule).2 = acc.2 ++ plan_of ctx (ctx.tags ++ added acc.2) rule ∧
      Sees ctx (ctx.tags ++ added (evaluate_rule acc rule).2) (evaluate_rule acc rule).1 := by
  unfold evaluate_rule plan_of
  cases SmartFilter.parse rule.filter_query with
  | error e => exact ⟨by simp,sees⟩
  | ok filter =>
    simp only [matches_filter_sees sees]
    split
    · exact plan_actions rule sees
    · exact ⟨by simp,sees⟩

theorem evaluate_all_sees {ctx : MatchContext} (rules : List ContentRule) (acc : MatchContext × List PlannedAction)
    (sees : Sees ctx (ctx.tags ++ added acc.2) acc.1) :
    Sees ctx (ctx.tags ++ added (rules.foldl evaluate_rule acc).2) (rules.foldl evaluate_rule acc).1 ∧
      ∃ rest, (rules.foldl evaluate_rule acc).2 = acc.2 ++ rest := by
  induction rules generalizing acc with
  | nil => exact ⟨sees,[],by simp⟩
  | cons rule rules ih =>
    obtain ⟨planned,sees'⟩ := evaluate_rule_plans sees rule
    obtain ⟨sees'',rest,more⟩ := ih _ sees'
    refine ⟨sees'',plan_of ctx (ctx.tags ++ added acc.2) rule ++ rest,?_⟩
    rw [List.foldl_cons,more,planned,List.append_assoc]

/-- The actions of the rules before one. -/
def planned_before (ctx : MatchContext) (before : List ContentRule) : List PlannedAction := (before.foldl evaluate_rule (ctx,[])).2

/-- A rule is evaluated in the same pass with the tags that the rules before it have planned. -/
theorem rule_plans (ctx : MatchContext) {rules before after : List ContentRule} {rule : ContentRule}
    (split : in_order rules = before ++ rule :: after) : ∃ rest, evaluate_rules ctx rules =
      planned_before ctx before ++ plan_of ctx (ctx.tags ++ added (planned_before ctx before)) rule ++ rest := by
  have start : Sees ctx (ctx.tags ++ added []) ctx := ⟨rfl,rfl,fun name => by simp [added]⟩
  have sees := (evaluate_all_sees before (ctx,[]) start).1
  obtain ⟨planned,sees'⟩ := evaluate_rule_plans sees rule
  obtain ⟨-,rest,more⟩ := evaluate_all_sees after _ sees'
  refine ⟨rest,?_⟩
  rw [evaluate_rules,split,List.foldl_append,List.foldl_cons,more,planned]
  rfl

end

namespace Library

/-! ### Execution -/

section
variable [TimeCrate]

def get_or_create_collection (name : String) : Work Library.Collection := fun lib =>
  match lib.get_collection_by_name name with
  | some coll => .ok coll lib
  | none =>
    (do
      let id ← new_v4
      let coll : Library.Collection := ⟨id,name,none,0,false,none⟩
      insert_collection coll
      return coll) lib

/-- The items of a collection, which are read to count them. -/
def list_collection_items (collection_id : String) : Work (List Library.ContentItem) := do
  let rows ← ask (fun lib => .ok (lib.collection_rows collection_id))
  read_or_panic (rows.mapM Library.row_to_content_item)

def apply_rule_action (item_id : String) : RuleAction → Work Unit
  | .AddTag name => do
    let tag ← get_or_create_tag name
    tag_content_item item_id tag.id
  | .SetStatus status => update_content_item_status item_id status
  | .AddToCollection name => do
    let coll ← get_or_create_collection name
    let held ← list_collection_items coll.id
    let pos : ℤ := if held.length < 2 ^ 31 then held.length else 0
    -- the collection stands where the item belongs, and the item where the collection belongs
    add_to_collection coll.id item_id pos
  | .Mute => update_content_item_status item_id .Archived

/-- Execute planned actions in their order. -/
def execute (item_id : String) : List RuleAction → Work Unit
  | [] => pure ()
  | action :: rest => do
    apply_rule_action item_id action
    execute item_id rest

/-- The rules by priority and name. -/
def list_rules (lib : Library) : List ContentRule :=
  lib.content_rules.insertionSort (fun a b => a.priority < b.priority ∨ a.priority = b.priority ∧ a.name ≤ b.name)

variable [Unicode]

/-- Apply the content rules to an item. -/
def apply_rules_to_item (item : Library.ContentItem) (feed_title : Option String) : Work Unit := do
  let planned ← ask (fun lib =>
    let ctx : MatchContext := ⟨item,(lib.tags_for_item item.id).map Tag.name,feed_title⟩
    .ok (planned_actions ctx (lib.list_rules.filter (fun rule => rule.enabled))))
  execute item.id planned

end

/-! ### What the statements do -/

/-- The item has a tag of this name, in whatever case. -/
def Named (lib : Library) (id name : String) : Prop :=
  ∃ tag ∈ lib.tags, (id,tag.id) ∈ lib.content_item_tags ∧ same_name tag.name name

def in_collection (lib : Library) (id collection_id : String) : Prop :=
  ∃ m ∈ lib.content_item_collections, m.content_item_id = id ∧ m.collection_id = collection_id

/-- The item is there, tags have their keys and are referred to by them, no collection has the
    id of the item, and the ids to come are different from one another and from all these. -/
structure Ready (id : String) (lib : Library) : Prop where
  item : lib.has_item id
  tag_ids : (lib.tags.map Tag.id).Nodup
  edges : ∀ edge ∈ lib.content_item_tags, edge.2 ∈ lib.tags.map Tag.id
  apart : ∀ coll ∈ lib.collections, coll.id ≠ id
  once : Function.Injective lib.uuids
  fresh : ∀ n, lib.uuids n ∉ lib.tags.map Tag.id ∧ lib.uuids n ≠ id

section
variable {lib : Library} {id : String}

/-- The tag that is found or made, and what that writes. -/
theorem get_or_create_tag_ok (new : lib.uuids 0 ∉ lib.tags.map Tag.id) (name : String) : ∃ tag lib', get_or_create_tag name lib = .ok tag lib' ∧
    lib'.tags.find? (fun tag => same_name tag.name name) = some tag ∧
    (lib' = { lib with uuids := fun n => lib.uuids (n + 1) } ∨
      tag.id = lib.uuids 0 ∧ lib' = { lib with uuids := fun n => lib.uuids (n + 1), tags := lib.tags ++ [tag] }) := by
  cases found : lib.tags.find? (fun tag => same_name tag.name name) with
  | some tag =>
    have held := List.mem_of_find?_eq_some found
    have same : same_name tag.name name := by simpa using List.find?_some found
    have taken : lib.tags.any (fun tag => tag.id = lib.uuids 0 || same_name tag.name name) = true :=
      List.any_eq_true.mpr ⟨tag,held,by simp [same]⟩
    refine ⟨tag,{ lib with uuids := fun n => lib.uuids (n + 1) },?_,found,.inl rfl⟩
    simp only [get_or_create_tag,new_v4,run,ask,work_bind,if_pos taken,found]
  | none =>
    have free : lib.tags.any (fun tag => tag.id = lib.uuids 0 || same_name tag.name name) = false := by
      rw [List.any_eq_false]
      intro tag held
      have apart : tag.id ≠ lib.uuids 0 := fun same => new (same ▸ List.mem_map_of_mem held)
      have other := List.find?_eq_none.mp found tag held
      simp only [apart,decide_false,Bool.false_or]
      exact other
    have made : (lib.tags ++ [(⟨lib.uuids 0,name⟩ : Tag)]).find? (fun tag => same_name tag.name name) =
        some ⟨lib.uuids 0,name⟩ := by
      rw [List.find?_append,found]
      simp [same_name_refl]
    refine ⟨⟨lib.uuids 0,name⟩,_,?_,made,.inr ⟨rfl,rfl⟩⟩
    simp only [get_or_create_tag,new_v4,run,ask,work_bind,free,Bool.false_eq_true,if_false,made]

/-- An item that is there gets a tag that is there. -/
theorem tag_content_item_ok {tag : Tag} (item : lib.has_item id) (held : tag ∈ lib.tags) :
    ∃ fts edges, tag_content_item id tag.id lib = .ok () { lib with content_item_tags := edges, content_items_fts := fts } ∧
      ∀ edge, edge ∈ edges ↔ edge ∈ lib.content_item_tags ∨ edge = (id,tag.id) := by
  obtain ⟨row,there⟩ := has_item_iff.mp item
  have known : lib.tags.any (fun t => t.id = tag.id) = true := List.any_eq_true.mpr ⟨tag,held,by simp⟩
  -- the refresh of the index finds the item, whatever its tags are
  have refreshed (edges : List (String × String)) : ∃ fts, refresh_fts_tags { lib with content_item_tags := edges } id =
      .ok { lib with content_item_tags := edges, content_items_fts := fts } := by
    have same : get_item_row { lib with content_item_tags := edges } id = some row := there
    exact ⟨_,by rw [refresh_fts_tags,same]; rfl⟩
  by_cases already : (id,tag.id) ∈ lib.content_item_tags
  · obtain ⟨fts,refreshed⟩ := refreshed lib.content_item_tags
    refine ⟨fts,lib.content_item_tags,?_,fun edge => ⟨.inl,?_⟩⟩
    · simp only [tag_content_item,run,work_bind,insert_item_tag,if_pos already,refreshed]
    · rintro (inside | rfl)
      · exact inside
      · exact already
  · obtain ⟨fts,refreshed⟩ := refreshed (lib.content_item_tags ++ [(id,tag.id)])
    refine ⟨fts,lib.content_item_tags ++ [(id,tag.id)],?_,fun edge => by simp⟩
    simp only [tag_content_item,run,work_bind,insert_item_tag,if_neg already,item,known,and_self,if_true,refreshed]

end

/-! ### What actions do -/

end Library

def RuleAction.status : RuleAction → Option DocumentStatus
  | .SetStatus status => some status
  | .Mute => some .Archived
  | _ => none

/-- The status that the last of some actions sets. -/
def last_status (actions : List RuleAction) : Option DocumentStatus := (actions.filterMap RuleAction.status).getLast?

theorem last_status_append (first rest : List RuleAction) :
    last_status (first ++ rest) = (last_status rest).or (last_status first) := by
  rw [last_status,List.filterMap_append,List.getLast?_append]
  rfl

namespace Library

/-- The item has its old tags and those that actions add, and the status that the last of them
    sets; no other item, no collection and no membership has changed. -/
structure Applied (id : String) (actions : List RuleAction) (lib lib' : Library) : Prop where
  named : ∀ name, Named lib' id name ↔ Named lib id name ∨ ∃ new, .AddTag new ∈ actions ∧ same_name new name
  status : (lib'.get_item_row id).map ItemRow.status = (last_status actions).or ((lib.get_item_row id).map ItemRow.status)
  rows : ∀ other, other ≠ id → lib'.get_item_row other = lib.get_item_row other
  tags : ∀ other, other ≠ id → lib'.tags_for_item other = lib.tags_for_item other
  members : lib'.content_item_collections = lib.content_item_collections
  collections : lib'.collections = lib.collections

section
variable {lib lib' lib'' : Library} {id : String} {first rest : List RuleAction}

theorem Applied.nil (id : String) (lib : Library) : Applied id [] lib lib :=
  ⟨fun name => by simp,by simp [last_status],fun _ _ => rfl,fun _ _ => rfl,rfl,rfl⟩

theorem Applied.append (one : Applied id first lib lib') (two : Applied id rest lib' lib'') : Applied id (first ++ rest) lib lib'' where
  named name := by
    rw [two.named,one.named,or_assoc]
    refine or_congr_right ?_
    simp only [List.mem_append,or_and_right,exists_or]
  status := by rw [two.status,one.status,last_status_append,Option.or_assoc]
  rows other apart := (two.rows other apart).trans (one.rows other apart)
  tags other apart := (two.tags other apart).trans (one.tags other apart)
  members := two.members.trans one.members
  collections := two.collections.trans one.collections

/-- Adding a tag. -/
theorem add_tag_applied (ready : Ready id lib) (name : String) : ∃ lib', (do
      let tag ← get_or_create_tag name
      tag_content_item id tag.id) lib = .ok () lib' ∧ Ready id lib' ∧ Applied id [.AddTag name] lib lib' := by
  obtain ⟨tag,made,found,first,wrote⟩ := get_or_create_tag_ok (ready.fresh 0).1 name
  have held := List.mem_of_find?_eq_some first
  have same : same_name tag.name name := by simpa using List.find?_some first
  have items : made.content_items = lib.content_items := by rcases wrote with rfl | ⟨-,rfl⟩ <;> rfl
  have old_edges : made.content_item_tags = lib.content_item_tags := by rcases wrote with rfl | ⟨-,rfl⟩ <;> rfl
  have item : made.has_item id := by
    rw [has_item,items]
    exact ready.item
  obtain ⟨fts,edges,tagged,inside⟩ := tag_content_item_ok item held
  -- the keys of the tags are still keys, and the ids to come are not among them
  have uuids : made.uuids = fun n => lib.uuids (n + 1) := by rcases wrote with rfl | ⟨-,rfl⟩ <;> rfl
  have keys : ∀ key, key ∈ made.tags.map Tag.id → key ∈ lib.tags.map Tag.id ∨ key = lib.uuids 0 ∧ key = tag.id := by
    rcases wrote with rfl | ⟨key,rfl⟩
    · exact fun _ => .inl
    · intro k held
      rw [List.map_append,List.mem_append] at held
      rcases held with old | new
      · exact .inl old
      · obtain rfl : k = tag.id := by simpa using new
        exact .inr ⟨key,rfl⟩
  have tag_ids : (made.tags.map Tag.id).Nodup := by
    rcases wrote with rfl | ⟨key,rfl⟩
    · exact ready.tag_ids
    · rw [List.map_append,List.map_cons,List.map_nil,← List.concat_eq_append,List.nodup_concat]
      exact ⟨key ▸ (ready.fresh 0).1,ready.tag_ids⟩
  have grown : ∀ t ∈ lib.tags, t ∈ made.tags := by
    rcases wrote with rfl | ⟨-,rfl⟩
    · exact fun _ held => held
    · exact fun _ => List.mem_append_left _
  refine ⟨_,by rw [work_bind,found]; exact tagged,⟨?_,?_,?_,?_,?_,?_⟩,?_⟩
  · exact item
  · exact tag_ids
  · intro edge there
    rcases (inside edge).mp there with old | rfl
    · rw [old_edges] at old
      obtain ⟨t,held,key⟩ := List.mem_map.mp (ready.edges edge old)
      exact List.mem_map.mpr ⟨t,grown t held,key⟩
    · exact List.mem_map_of_mem held
  · rcases wrote with rfl | ⟨-,rfl⟩ <;> exact ready.apart
  · change Function.Injective made.uuids
    rw [uuids]
    exact fun m n same => Nat.succ.inj (ready.once same)
  · change ∀ n, made.uuids n ∉ made.tags.map Tag.id ∧ made.uuids n ≠ id
    rw [uuids]
    refine fun n => ⟨fun held => ?_,(ready.fresh (n + 1)).2⟩
    rcases keys _ held with old | ⟨new,-⟩
    · exact (ready.fresh (n + 1)).1 old
    · exact absurd (ready.once new) (Nat.succ_ne_zero n)
  -- a tag on an old edge is an old tag
  have old_tag {other : String} {t : Tag} (held : t ∈ made.tags) (edge : (other,t.id) ∈ lib.content_item_tags) : t ∈ lib.tags := by
    rcases wrote with rfl | ⟨key,rfl⟩
    · exact held
    · rcases List.mem_append.mp held with old | new
      · exact old
      · obtain rfl := List.mem_singleton.mp new
        exact absurd (key ▸ ready.edges _ edge) (ready.fresh 0).1
  have edge_iff (other : String) (t : Tag) : (other,t.id) ∈ edges ↔ (other,t.id) ∈ lib.content_item_tags ∨ other = id ∧ t.id = tag.id := by
    rw [inside,old_edges,Prod.mk.injEq]
  have rows : made.get_item_row = lib.get_item_row := by
    funext other
    rw [get_item_row,items,get_item_row]
  refine ⟨fun n => ⟨?_,?_⟩,?_,fun other _ => congrFun rows other,fun other apart => ?_,?_,?_⟩
  · rintro ⟨t,there,edge,named⟩
    rcases (edge_iff id t).mp edge with old | ⟨-,key⟩
    · exact .inl ⟨t,old_tag there old,old,named⟩
    · obtain rfl : t = tag := List.inj_on_of_nodup_map tag_ids there held key
      exact .inr ⟨name,.head _,same_name_trans (same_name_symm same) named⟩
  · rintro (⟨t,there,edge,named⟩ | ⟨new,adds,named⟩)
    · exact ⟨t,grown t there,(edge_iff id t).mpr (.inl edge),named⟩
    · obtain rfl : new = name := by simpa using adds
      exact ⟨tag,held,(edge_iff id tag).mpr (.inr ⟨rfl,rfl⟩),same_name_trans same named⟩
  · change (made.get_item_row id).map ItemRow.status = _
    rw [rows]
    rfl
  · change (made.tags.filter (fun t => (other,t.id) ∈ edges)).insertionSort _ =
      (lib.tags.filter (fun t => (other,t.id) ∈ lib.content_item_tags)).insertionSort _
    have untouched (t : Tag) : (other,t.id) ∈ edges ↔ (other,t.id) ∈ lib.content_item_tags := by
      rw [edge_iff]
      simp [apart]
    simp only [untouched]
    congr 1
    rcases wrote with rfl | ⟨key,rfl⟩
    · rfl
    · have none_yet : (other,tag.id) ∉ lib.content_item_tags := fun edge => (ready.fresh 0).1 (key ▸ ready.edges _ edge)
      rw [List.filter_append,List.filter_cons_of_neg (by simpa using none_yet),List.filter_nil,List.append_nil]
  · rcases wrote with rfl | ⟨-,rfl⟩ <;> rfl
  · rcases wrote with rfl | ⟨-,rfl⟩ <;> rfl

section
variable [TimeCrate]

/-- Setting the status. -/
theorem set_status_applied (ready : Ready id lib) (status : DocumentStatus) {action : RuleAction} (sets : action.status = some status)
    (adds : ∀ name, action ≠ .AddTag name) :
    ∃ lib', update_content_item_status id status lib = .ok () lib' ∧ Ready id lib' ∧ Applied id [action] lib lib' := by
  have keeps (row : ItemRow) : (row.set_status lib.now status).id = row.id := rfl
  obtain ⟨row,there⟩ := has_item_iff.mp ready.item
  have here : (lib.update_item id (fun row => row.set_status lib.now status)).get_item_row id = some (row.set_status lib.now status) := by
    rw [get_item_row_update _ keeps,if_pos rfl,there,Option.map_some]
  refine ⟨lib.update_item id (fun row => row.set_status lib.now status),?_,
    ⟨has_item_iff.mpr ⟨_,here⟩,ready.tag_ids,ready.edges,ready.apart,ready.once,ready.fresh⟩,⟨fun name => ⟨.inl,?_⟩,?_,fun other apart => ?_,fun _ _ => rfl,rfl,rfl⟩⟩
  · exact run_ok.mpr (if_pos ready.item)
  · rintro (before | ⟨new,planned,-⟩)
    · exact before
    · exact absurd (List.mem_singleton.mp planned).symm (adds new)
  · rw [here]
    simp [last_status,sets,ItemRow.set_status]
  · rw [get_item_row_update _ keeps,if_neg apart]

/-- An action that adds to no collection does what it plans. -/
theorem apply_rule_action_does (ready : Ready id lib) (action : RuleAction) (other : ∀ name, action ≠ .AddToCollection name) :
    ∃ lib', apply_rule_action id action lib = .ok () lib' ∧ Ready id lib' ∧ Applied id [action] lib lib' := by
  cases action with
  | AddTag name => exact add_tag_applied ready name
  | SetStatus status => exact set_status_applied ready status rfl nofun
  | AddToCollection name => exact absurd rfl (other name)
  | Mute => exact set_status_applied ready .Archived rfl nofun

/-- A plan that adds to no collection is executed. -/
theorem execute_does (ready : Ready id lib) {actions : List RuleAction} (other : ∀ name, .AddToCollection name ∉ actions) :
    ∃ lib', execute id actions lib = .ok () lib' ∧ Ready id lib' ∧ Applied id actions lib lib' := by
  induction actions generalizing lib with
  | nil => exact ⟨lib,rfl,ready,.nil id lib⟩
  | cons action actions ih =>
    obtain ⟨made,first,ready',one⟩ := apply_rule_action_does ready action (fun name same => other name (same ▸ .head _))
    obtain ⟨lib',later,ready'',two⟩ := ih ready' (fun name inside => other name (.tail _ inside))
    refine ⟨lib',?_,ready'',one.append two⟩
    rw [execute,work_bind,first]
    exact later

/-- An action that adds to a collection looks for one under the id of the item. -/
theorem apply_collection_fails (ready : Ready id lib) {name : String} :
    apply_rule_action id (.AddToCollection name) lib ≠ .ok () lib' := by
  intro ran
  unfold apply_rule_action at ran
  obtain ⟨coll,made,created,counts⟩ := work_bind_ok.mp ran
  obtain ⟨held,counted,listed,adds⟩ := work_bind_ok.mp counts
  -- the collection that was found or made is not the item
  have others : ∀ coll ∈ made.collections, coll.id ≠ id := by
    unfold get_or_create_collection at created
    split at created
    · cases created
      exact ready.apart
    · obtain ⟨new,drawn,draws,created⟩ := work_bind_ok.mp created
      cases draws
      obtain ⟨⟨⟩,made',inserted,same⟩ := work_bind_ok.mp created
      cases same
      unfold insert_collection at inserted
      obtain ⟨-,wrote⟩ := if_ok.mp (run_ok.mp inserted)
      obtain rfl := Except.ok.inj wrote
      intro c inside
      rcases List.mem_append.mp inside with old | new
      · exact ready.apart c old
      · rw [List.mem_singleton.mp new]
        exact (ready.fresh 0).2
  have same : counted = made := by
    unfold list_collection_items at listed
    obtain ⟨rows,asked,found,read⟩ := work_bind_ok.mp listed
    obtain ⟨-,rfl⟩ := ask_ok.mp found
    exact (read_or_panic_ok.mp read).2.symm
  subst same
  unfold add_to_collection at adds
  obtain ⟨c,left,got,-⟩ := work_bind_ok.mp adds
  obtain ⟨got,-⟩ := ask_ok.mp got
  unfold get_collection at got
  split at got
  · next c' here =>
    have key : c'.id = id := by simpa using List.find?_some here
    exact others c' (List.mem_of_find?_eq_some here) key
  · cases got

/-- The item has its old tags and those that the actions add, the status that the last of them
    sets, and is in its old collections and in those that they name; no other item has changed. -/
structure Carried (id : String) (actions : List RuleAction) (lib lib' : Library) : Prop where
  named : ∀ name, Named lib' id name ↔ Named lib id name ∨ ∃ new, .AddTag new ∈ actions ∧ same_name new name
  status : (lib'.get_item_row id).map ItemRow.status = (last_status actions).or ((lib.get_item_row id).map ItemRow.status)
  collections : ∀ collection_id, in_collection lib' id collection_id ↔ in_collection lib id collection_id ∨
    ∃ name coll, .AddToCollection name ∈ actions ∧ lib'.get_collection_by_name name = some coll ∧ coll.id = collection_id
  rows : ∀ other, other ≠ id → lib'.get_item_row other = lib.get_item_row other
  tags : ∀ other, other ≠ id → lib'.tags_for_item other = lib.tags_for_item other
  members : ∀ other, other ≠ id → ∀ collection_id, in_collection lib' other collection_id ↔ in_collection lib other collection_id

omit [TimeCrate] in
theorem Applied.carried {actions : List RuleAction} (applied : Applied id actions lib lib')
    (other : ∀ name, .AddToCollection name ∉ actions) : Carried id actions lib lib' := by
  refine ⟨applied.named,applied.status,fun collection_id => ?_,applied.rows,applied.tags,fun _ _ _ => ?_⟩
  · rw [in_collection,applied.members]
    constructor
    · exact .inl
    · rintro (inside | ⟨name,-,planned,-⟩)
      · exact inside
      · exact absurd planned (other name)
  · rw [in_collection,applied.members]
    rfl

/-- Actions are executed to their end only if none of them adds to a collection. -/
theorem execute_fails {actions : List RuleAction} (ready : Ready id lib) (ran : execute id actions lib = .ok () lib') :
    ∀ name, .AddToCollection name ∉ actions := by
  induction actions generalizing lib with
  | nil => exact fun name => List.not_mem_nil
  | cons action actions ih =>
    obtain ⟨⟨⟩,made,first,later⟩ := work_bind_ok.mp ran
    have other : ∀ name, action ≠ .AddToCollection name := by
      rintro name rfl
      exact apply_collection_fails ready first
    obtain ⟨made',first',ready',-⟩ := apply_rule_action_does ready action other
    obtain rfl : made = made' := by
      rw [first] at first'
      cases first'
      rfl
    intro name inside
    rcases List.mem_cons.mp inside with same | inside
    · exact other name same.symm
    · exact ih ready' later name inside

/-- A plan does what it says iff it adds to no collection. -/
theorem execute_iff {actions : List RuleAction} (ready : Ready id lib) :
    (∃ lib', execute id actions lib = .ok () lib' ∧ Carried id actions lib lib') ↔ ∀ name, .AddToCollection name ∉ actions := by
  constructor
  · rintro ⟨lib',ran,-⟩
    exact execute_fails ready ran
  · intro other
    obtain ⟨lib',ran,-,applied⟩ := execute_does ready other
    exact ⟨lib',ran,applied.carried other⟩

variable [Unicode]

/-- What rules plan for an item is done iff no planned action adds to a collection; and the
    filter of each rule sees the tags that the rules before it have planned in the same pass. -/
theorem rules_do_what_they_plan (ctx : MatchContext) (rules : List ContentRule) (ready : Ready id lib) :
    ((∃ lib', execute id (planned_actions ctx rules) lib = .ok () lib' ∧ Carried id (planned_actions ctx rules) lib lib') ↔
      ∀ name, .AddToCollection name ∉ planned_actions ctx rules) ∧
    ∀ before rule after, in_order rules = before ++ rule :: after → ∃ rest, evaluate_rules ctx rules =
      planned_before ctx before ++ plan_of ctx (ctx.tags ++ added (planned_before ctx before)) rule ++ rest :=
  ⟨execute_iff ready,fun _ _ _ split => rule_plans ctx split⟩

end
end

/-! ### An item and its rules -/

section

/-- A library of items without tags or collections. -/
def shelf (ids : List String) : Library where
  content_items := ids.mapIdx (fun n id => ⟨n + 1,id,none,id,none,.Article,.Inbox,none,none,none,"","",none⟩)
  content_items_fts := []
  feeds := []
  feed_item_meta := []
  bookmark_meta := []
  highlight_meta := []
  notes := []
  tags := []
  collections := []
  content_item_tags := []
  content_item_collections := []
  content_rules := []
  now := ⟨0,0⟩
  uuids := fun n => String.ofList (List.replicate n 'u')

@[reducible] def plainUnicode : Unicode := ⟨fun text => text⟩

attribute [local instance] plainTimes plainUnicode

def rustItem : Library.ContentItem := ⟨"item",none,"Rust",none,.Article,.Inbox,none,none,none,⟨0,0⟩,⟨0,0⟩,none⟩

def rustContext : MatchContext := ⟨rustItem,[],none⟩

def tagging_rules : List ContentRule :=
  [⟨"2","second",true,2,"tag:RUST",[.SetStatus .Later]⟩,⟨"1","first",true,1,"type:article",[.AddTag "rust"]⟩]

def shelving_rules : List ContentRule := [⟨"1","first",true,1,"type:article",[.AddToCollection "Books"]⟩]

theorem shelf_once (ids : List String) : Function.Injective (shelf ids).uuids := by
  intro m n same
  simpa [shelf] using congrArg (fun s => s.toList.length) same

/-- The ids to come have no other letters. -/
theorem shelf_fresh (ids : List String) (n : ℕ) {id : String} {c : Char} (inside : c ∈ id.toList) (other : c ≠ 'u') :
    (shelf ids).uuids n ≠ id := by
  rintro rfl
  rw [shelf,String.toList_ofList] at inside
  exact other (List.eq_of_mem_replicate inside)

theorem shelf_ready : Ready "item" (shelf ["item"]) :=
  ⟨by decide,List.nodup_nil,nofun,nofun,shelf_once _,fun n => ⟨nofun,shelf_fresh _ n (c := 'i') (by decide) (by decide)⟩⟩

theorem rules_do_what_they_plan_tags : planned_actions rustContext tagging_rules = [.AddTag "rust",.SetStatus .Later] ∧
    ∃ lib', execute "item" (planned_actions rustContext tagging_rules) (shelf ["item"]) = .ok () lib' ∧
      Carried "item" (planned_actions rustContext tagging_rules) (shelf ["item"]) lib' := by
  have planned : planned_actions rustContext tagging_rules = [.AddTag "rust",.SetStatus .Later] := by decide +kernel
  refine ⟨planned,(rules_do_what_they_plan rustContext tagging_rules shelf_ready).1.mpr (fun name => ?_)⟩
  rw [planned]
  simp

/-- A rule that names a collection which is not smart: executing its plan fails. -/
theorem rules_fail_to_shelve :
    planned_actions rustContext shelving_rules = [.AddToCollection "Books"] ∧
    ¬ ∃ lib', execute "item" [.AddToCollection "Books"] (shelf ["item"]) = .ok () lib' := by
  refine ⟨by decide +kernel,?_⟩
  rintro ⟨lib',ran⟩
  exact execute_fails shelf_ready ran "Books" (.head _)

end
end Library
end Pergamon
