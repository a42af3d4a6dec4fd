import Mathlib.Data.List.TakeWhile
import Pergamon.Effects
import Pergamon.Newest

/-!
Membership edges. An edge keeps the greatest add and the greatest remove that it has seen
(`merge_set_member`), and its join-table row is there iff the add is the greater one. A
change that is applied decides the row from both clocks; a local change writes the row that
it asks for, which is the same as long as its stamp is above both clocks (`Regular`). Under
that condition the order, the interleaving and the repetition of the changes do not matter
(`edges_converge`).
-/
namespace Pergamon
open Fallible Newest

namespace Replica

/-- The two ends that an edge id names, and nothing else, make up the id. -/
theorem split_edge_id_toList {id left right : String} (ok : split_edge_id id = .ok (left,right)) :
    id.toList = left.toList ++ ':' :: right.toList := by
  unfold split_edge_id at ok
  simp only at ok
  split at ok
  · next colon =>
    obtain ⟨rfl,rfl⟩ := Prod.mk.inj (Except.ok.inj ok)
    simp only [String.toList_ofList]
    have rest : ∃ tail, id.toList.dropWhile (· ≠ ':') = ':' :: tail := by
      cases dropped : id.toList.dropWhile (· ≠ ':') with
      | nil =>
        have all := List.dropWhile_eq_nil_iff.mp dropped ':' colon
        simp at all
      | cons c tail =>
        have head := List.head?_dropWhile_not (· ≠ ':') id.toList
        rw [dropped] at head
        have first : c = ':' := by simpa using head
        exact ⟨tail,by rw [first]⟩
    obtain ⟨tail,dropped⟩ := rest
    conv_lhs => rw [← List.takeWhile_append_dropWhile (p := (· ≠ ':')) (l := id.toList)]
    rw [dropped,List.tail_cons]
  · cases ok

theorem split_edge_id_injective {id id' : String} {ends : String × String} (ok : split_edge_id id = .ok ends)
    (ok' : split_edge_id id' = .ok ends) : id = id' :=
  String.toList_inj.mp ((split_edge_id_toList ok).trans (split_edge_id_toList ok').symm)

/-- The join-table row of an edge is there. -/
def has_member (r : Replica) (entity_type : EntityType) (entity_id : String) : Bool :=
  match entity_type,split_edge_id entity_id with
  | .TagEdge,.ok ends => decide (ends ∈ r.content_item_tags)
  | .CollectionEdge,.ok ends => decide (ends ∈ r.content_item_collections)
  | _,_ => false

/-- The rows at both ends of an edge are there. -/
def ends_held (r : Replica) (entity_type : EntityType) (entity_id : String) : Bool :=
  match entity_type,split_edge_id entity_id with
  | .TagEdge,.ok (left,right) => (r.row .content_items left).isSome && (r.row .tags right).isSome
  | .CollectionEdge,.ok (left,right) => (r.row .content_items left).isSome && (r.row .collections right).isSome
  | _,_ => false

section
variable {r r' : Replica} {ty ty' : EntityType} {id id' : String}

theorem ends_edge (held : r.ends_held ty id) : ty = .TagEdge ∨ ty = .CollectionEdge := by
  unfold ends_held at held
  split at held
  · exact .inl rfl
  · exact .inr rfl
  · cases held

theorem has_member_congr (tags : r'.content_item_tags = r.content_item_tags)
    (collections : r'.content_item_collections = r.content_item_collections) :
    r'.has_member ty id = r.has_member ty id := by
  unfold has_member
  rw [tags,collections]

/-- A delete that leaves both ends of an edge leaves its row. -/
theorem has_member_delete (r : Replica) (t : TableName) (id' : String) (held : (r.delete_row t id').ends_held ty id) :
    (r.delete_row t id').has_member ty id = r.has_member ty id := by
  have gone := row_delete_self r t id'
  unfold has_member
  unfold ends_held at held
  split at held
  · next left right named =>
    rw [Bool.and_eq_true] at held
    have apart : t = .content_items → left ≠ id' := by
      rintro rfl rfl
      simp [gone] at held
    have apart' : t = .tags → right ≠ id' := by
      rintro rfl rfl
      simp [gone] at held
    simp only [named]
    unfold delete_row
    split
    · rfl
    · cases t <;> simp_all
  · next left right named =>
    rw [Bool.and_eq_true] at held
    have apart : t = .content_items → left ≠ id' := by
      rintro rfl rfl
      simp [gone] at held
    have apart' : t = .collections → right ≠ id' := by
      rintro rfl rfl
      simp [gone] at held
    simp only [named]
    unfold delete_row
    split
    · rfl
    · cases t <;> simp_all
  · cases held

theorem has_member_delete_entity (r : Replica) (ty' : EntityType) (id' : String)
    (held : (r.delete_entity_row ty' id').ends_held ty id) :
    (r.delete_entity_row ty' id').has_member ty id = r.has_member ty id := by
  cases ty' <;> first | exact has_member_delete r _ id' held | rfl

/-- What a membership statement leaves: its own row as asked for, every other row. -/
theorem apply_edge_membership_member (ty : EntityType) (id : String) {present : Bool} (ok : r.apply_edge_membership ty' id' present = .ok r') :
    (r'.has_member ty' id' = present) ∧
      (¬(ty' = ty ∧ id' = id) → r'.has_member ty id = r.has_member ty id) := by
  simp only [apply_edge_membership,bind_ok,Prod.exists] at ok
  obtain ⟨left,right,named,ok⟩ := ok
  have other {ends : String × String} (apart : id' ≠ id) (named' : split_edge_id id = .ok ends) :
      ends ≠ (left,right) := by
    rintro rfl
    exact apart (split_edge_id_injective named named')
  cases ty' <;> try cases ok
  all_goals
    simp only at ok
    split at ok
    · next added =>
      obtain ⟨-,ok⟩ := if_ok.mp ok
      obtain rfl := Except.ok.inj ok
      refine ⟨by simp [has_member,named,added],fun apart => ?_⟩
      unfold has_member
      split
      · next ends named' =>
        first
          | rfl
          | simp [other (fun same => apart ⟨rfl,same⟩) named']
      · next ends named' =>
        first
          | rfl
          | simp [other (fun same => apart ⟨rfl,same⟩) named']
      · rfl
    · next removed =>
      obtain rfl := Except.ok.inj ok
      refine ⟨by simp [has_member,named,removed],fun apart => ?_⟩
      unfold has_member
      split
      · next ends named' =>
        first
          | rfl
          | simp [other (fun same => apart ⟨rfl,same⟩) named']
      · next ends named' =>
        first
          | rfl
          | simp [other (fun same => apart ⟨rfl,same⟩) named']
      · rfl

end

/-! ### What an edge has seen -/

/-- The membership that the fields of a change ask for. -/
def asks_member (fields : FieldMap) (default : Bool) : Bool := ((fields["present"]?).bind Value.as_bool).getD default

/-- The stamps of the adds, or of the removes, among the changes seen. -/
def stampsOf (is_add : Bool) (seen : List (Bool × Hlc)) : List Hlc :=
  (seen.filter (fun change => change.1 = is_add)).map Prod.snd

/-- A slot holds the greatest of some stamps. -/
def Greatest (l : List Hlc) (slot : Option Hlc) : Prop :=
  match slot with
  | none => l = []
  | some c => c ∈ l ∧ ∀ other ∈ l, other ≤ c

/-- The row is there iff an add was seen that is above every remove. -/
def Wins (seen : List (Bool × Hlc)) : Prop := ∃ add ∈ stampsOf true seen, ∀ remove ∈ stampsOf false seen, remove < add

/-- The edge is the fold of the changes that it has seen. -/
structure Folded (r : Replica) (ty : EntityType) (id : String) (seen : List (Bool × Hlc)) : Prop where
  added : Greatest (stampsOf true seen) (r.set_edge ty id).add_clock
  removed : Greatest (stampsOf false seen) (r.set_edge ty id).remove_clock
  row : r.has_member ty id ↔ Wins seen

theorem mem_stampsOf {is_add : Bool} {seen : List (Bool × Hlc)} {c : Hlc} :
    c ∈ stampsOf is_add seen ↔ (is_add,c) ∈ seen := by
  simp only [stampsOf,List.mem_map,List.mem_filter,decide_eq_true_eq,Prod.exists,exists_eq_right]

theorem stampsOf_concat (is_add is_add' : Bool) (seen : List (Bool × Hlc)) (c : Hlc) :
    stampsOf is_add (seen ++ [(is_add',c)]) = if is_add' = is_add then stampsOf is_add seen ++ [c] else stampsOf is_add seen := by
  unfold stampsOf
  rw [List.filter_append,List.map_append]
  by_cases same : is_add' = is_add
  · simp [same]
  · simp [same]

namespace Greatest
variable {l l' : List Hlc} {slot slot' : Option Hlc}

theorem merge (greatest : Greatest l slot) (c : Hlc) : Greatest (l ++ [c]) (merge_slot slot c) := by
  cases slot with
  | none =>
    obtain rfl : l = [] := greatest
    exact ⟨by simp,by simp⟩
  | some held =>
    obtain ⟨inside,above⟩ := greatest
    unfold merge_slot
    simp only
    split
    · next below =>
      refine ⟨List.mem_append_left _ inside,fun other there => ?_⟩
      rcases List.mem_append.mp there with earlier | last
      · exact above other earlier
      · exact List.mem_singleton.mp last ▸ below
    · next beaten =>
      refine ⟨by simp,fun other there => ?_⟩
      rcases List.mem_append.mp there with earlier | last
      · exact (above other earlier).trans (not_le.mp beaten).le
      · exact (List.mem_singleton.mp last).le

/-- A stamp that is not older than the slot is the greatest. -/
theorem replace (greatest : Greatest l slot) {c : Hlc} (newer : ∀ held, slot = some held → held ≤ c) :
    Greatest (l ++ [c]) (some c) := by
  refine ⟨by simp,fun other there => ?_⟩
  rcases List.mem_append.mp there with earlier | last
  · cases slot with
    | none =>
      have nothing : l = [] := greatest
      rw [nothing] at earlier
      cases earlier
    | some held => exact (greatest.2 other earlier).trans (newer held rfl)
  · exact (List.mem_singleton.mp last).le

theorem mem (greatest : Greatest l slot) {c : Hlc} (held : slot = some c) : c ∈ l := by
  subst held
  exact greatest.1

/-- The greatest of the same stamps is the same. -/
theorem unique (greatest : Greatest l slot) (greatest' : Greatest l' slot') (same : ∀ c, c ∈ l ↔ c ∈ l') :
    slot = slot' := by
  cases slot with
  | none =>
    obtain rfl : l = [] := greatest
    cases slot' with
    | none => rfl
    | some c => exact absurd ((same c).mpr greatest'.1) (by simp)
  | some c =>
    cases slot' with
    | none =>
      obtain rfl : l' = [] := greatest'
      exact absurd ((same c).mp greatest.1) (by simp)
    | some c' =>
      exact congrArg some (le_antisymm (greatest'.2 c ((same c).mp greatest.1)) (greatest.2 c' ((same c').mpr greatest'.1)))

end Greatest

/-- The decision from both clocks is that of the changes seen. -/
theorem is_present_iff {member : SetMember} {seen : List (Bool × Hlc)} (added : Greatest (stampsOf true seen) member.add_clock)
    (removed : Greatest (stampsOf false seen) member.remove_clock) : member.is_present ↔ Wins seen := by
  obtain ⟨add_clock,remove_clock⟩ := member
  unfold SetMember.is_present Wins
  cases add_clock with
  | none =>
    have none_added : stampsOf true seen = [] := added
    simp [none_added]
  | some add =>
    obtain ⟨inside,above⟩ := added
    cases remove_clock with
    | none =>
      have none_removed : stampsOf false seen = [] := removed
      simp only [none_removed,List.not_mem_nil,false_implies,implies_true,and_true,true_iff]
      exact ⟨add,inside⟩
    | some remove =>
      obtain ⟨there,top⟩ := removed
      simp only [decide_eq_true_eq]
      constructor
      · exact fun wins => ⟨add,inside,fun other seen => (top other seen).trans_lt wins⟩
      · rintro ⟨other,seen,wins⟩
        exact (wins remove there).trans_le (above other seen)

/-- Wall times that a signed column keeps. -/
def Fit (seen : List (Bool × Hlc)) : Prop := ∀ change ∈ seen, change.2.wall_millis.toNat < 2 ^ 63

section
variable {r r' : Replica} {ty : EntityType} {id : String} {seen : List (Bool × Hlc)} {is_add : Bool} {c : Hlc}

/-- One more change merged into the state of an edge. -/
theorem Folded.merged (folded : Folded r ty id seen) (is_add : Bool) (c : Hlc) :
    Greatest (stampsOf true (seen ++ [(is_add,c)])) (merge_set_member (r.set_edge ty id) is_add c).member.add_clock ∧
      Greatest (stampsOf false (seen ++ [(is_add,c)])) (merge_set_member (r.set_edge ty id) is_add c).member.remove_clock := by
  rw [stampsOf_concat,stampsOf_concat]
  cases is_add
  · exact ⟨folded.added,folded.removed.merge c⟩
  · exact ⟨folded.added.merge c,folded.removed⟩

/-- The merged state is stored next to a row that is there as it decides. -/
theorem Folded.saved {w : Replica} (folded : Folded r ty id seen) (fit : Fit (seen ++ [(is_add,c)]))
    (row : w.has_member ty id ↔ Wins (seen ++ [(is_add,c)])) :
    Folded (w.save_set_edge ty id (merge_set_member (r.set_edge ty id) is_add c).member) ty id
      (seen ++ [(is_add,c)]) := by
  obtain ⟨added,removed⟩ := folded.merged is_add c
  have kept {slot : Option Hlc} {is_add' : Bool} (greatest : Greatest (stampsOf is_add' (seen ++ [(is_add,c)])) slot) :
      slot.map Hlc.stored = slot := by
    cases slot with
    | none => rfl
    | some held => exact congrArg some (Hlc.stored_eq (fit _ (mem_stampsOf.mp (greatest.mem rfl))))
  have stored : (w.save_set_edge ty id (merge_set_member (r.set_edge ty id) is_add c).member).set_edge ty id =
      (merge_set_member (r.set_edge ty id) is_add c).member := by
    rw [set_edge_save,if_pos ⟨rfl,rfl⟩,kept added,kept removed]
  exact ⟨stored.symm ▸ added,stored.symm ▸ removed,row⟩

/-- A change that is applied to an edge is folded in. -/
theorem Folded.apply {body : ChangeBody} (folded : Folded r body.entity_type body.entity_id seen)
    (fit : Fit (seen ++ [(asks_member body.fields (decide (body.op ≠ .Delete)),body.clock)]))
    (ok : r.apply_edge body = .ok r') :
    Folded r' body.entity_type body.entity_id
      (seen ++ [(asks_member body.fields (decide (body.op ≠ .Delete)),body.clock)]) := by
  have member := (apply_edge_membership_member body.entity_type body.entity_id ok).1
  obtain ⟨tags,collections,rfl⟩ := apply_edge_membership_rest ok
  obtain ⟨added,removed⟩ := folded.merged (asks_member body.fields (decide (body.op ≠ .Delete))) body.clock
  refine folded.saved (w := { r with content_item_tags := tags, content_item_collections := collections }) fit ?_
  exact (iff_of_eq (congrArg (· = true) member)).trans (is_present_iff added removed)

/-- A change that is above all the others decides. -/
theorem wins_newest (above : ∀ change ∈ seen, change.2 < c) : Wins (seen ++ [(is_add,c)]) ↔ is_add = true := by
  constructor
  · rintro ⟨add,there,wins⟩
    rw [mem_stampsOf] at there
    cases is_add with
    | true => rfl
    | false =>
      have earlier := above (true,add) (by simpa using there)
      exact absurd (wins c (mem_stampsOf.mpr (by simp))) (lt_asymm earlier)
  · rintro rfl
    refine ⟨c,mem_stampsOf.mpr (by simp),fun remove there => ?_⟩
    rw [mem_stampsOf] at there
    exact above (false,remove) (by simpa using there)

/-- A local change to an edge is folded in, where its stamp is above all that the edge has seen. -/
theorem Folded.emit [Sqlite] {op : Op} {fields : FieldMap} {base : Option Hlc} (folded : Folded r ty id seen)
    (edge : ty = .TagEdge ∨ ty = .CollectionEdge) (edit : op ≠ .Delete)
    (fit : Fit (seen ++ [(asks_member fields true,c)]))
    (above : ∀ change ∈ seen, change.2 < c) (emitted : r.emit_local ty id op fields c = .ok (base,r')) :
    Folded r' ty id (seen ++ [(asks_member fields true,c)]) := by
  obtain ⟨w,written,rfl⟩ := emit_local_edge edge emitted
  rw [if_neg edit]
  have member := (apply_edge_membership_member ty id written).1
  obtain ⟨tags,collections,rfl⟩ := apply_edge_membership_rest written
  obtain ⟨clocks,stamped⟩ := stamps_rest ty id
    (r := { r with content_item_tags := tags, content_item_collections := collections }) c fields.toList
  rw [stamped]
  exact folded.saved fit ((iff_of_eq (congrArg (· = true) member)).trans (wins_newest above).symm)

/-- Nothing that an edge has seen is above its two clocks. -/
theorem Folded.above (folded : Folded r ty id seen) (added : ∀ add, (r.set_edge ty id).add_clock = some add → add < c)
    (removed : ∀ remove, (r.set_edge ty id).remove_clock = some remove → remove < c) : ∀ change ∈ seen, change.2 < c := by
  have below {is_add : Bool} {slot : Option Hlc} (greatest : Greatest (stampsOf is_add seen) slot)
      (less : ∀ top, slot = some top → top < c) {held : Hlc} (inside : (is_add,held) ∈ seen) : held < c := by
    rw [← mem_stampsOf] at inside
    cases slot with
    | none =>
      have nothing : stampsOf is_add seen = [] := greatest
      rw [nothing] at inside
      cases inside
    | some top => exact (greatest.2 held inside).trans_lt (less top rfl)
  rintro ⟨is_add,held⟩ inside
  cases is_add
  · exact below folded.removed removed inside
  · exact below folded.added added inside

/-- What leaves an edge and its row alone leaves it folded. -/
theorem Folded.frame (folded : Folded r ty id seen) (edge : r'.set_edge ty id = r.set_edge ty id)
    (row : r'.has_member ty id = r.has_member ty id) : Folded r' ty id seen :=
  ⟨edge ▸ folded.added,edge ▸ folded.removed,row ▸ folded.row⟩

end

/-! ### Runs -/

section
variable [Sqlite] {r r' : Replica} {ty : EntityType} {id : String}

/-- A local change to something else leaves an edge that keeps its ends. -/
theorem emit_local_apart {ty' : EntityType} {id' : String} {op : Op} {fields : FieldMap} {c : Hlc} {base : Option Hlc}
    (apart : ¬(ty' = ty ∧ id' = id)) (ends : r'.ends_held ty id)
    (emitted : r.emit_local ty' id' op fields c = .ok (base,r')) :
    r'.set_edge ty id = r.set_edge ty id ∧ r'.has_member ty id = r.has_member ty id := by
  by_cases edge : ty' = .TagEdge ∨ ty' = .CollectionEdge
  · obtain ⟨w,written,rfl⟩ := emit_local_edge edge emitted
    have member := (apply_edge_membership_member ty id written).2 apart
    obtain ⟨tags,collections,rfl⟩ := apply_edge_membership_rest written
    split
    · exact ⟨rfl,member⟩
    · obtain ⟨clocks,stamped⟩ := stamps_rest ty' id'
        (r := { r with content_item_tags := tags, content_item_collections := collections }) c fields.toList
      rw [stamped]
      refine ⟨?_,member⟩
      rw [set_edge_save,if_neg (fun same => apart ⟨same.1.symm,same.2.symm⟩)]
      rfl
  · have rows := not_or.mp edge
    by_cases delete : op = .Delete
    · subst delete
      obtain ⟨-,rfl⟩ := emit_local_delete rows emitted
      refine ⟨?_,has_member_delete_entity r ty' id' ends⟩
      obtain ⟨tables,tags,collections,same⟩ := delete_entity_row_rest r ty' id'
      rw [same]
      rfl
    · obtain ⟨-,w,written,rfl⟩ := emit_local_edit rows delete emitted
      obtain ⟨tables,rfl⟩ := (write_rowsOnly delete written).rest
      obtain ⟨clocks,stamped⟩ := stamps_rest ty' id' (r := { r with tables := tables }) c fields.toList
      rw [stamped]
      exact ⟨rfl,rfl⟩

/-- Applying a change to something else leaves an edge that keeps its ends. -/
theorem apply_change_apart [Scheduler] {body : ChangeBody} (apart : ¬(body.entity_type = ty ∧ body.entity_id = id))
    (ends : r'.ends_held ty id) (ok : r.apply_change body = .ok r') :
    r'.set_edge ty id = r.set_edge ty id ∧ r'.has_member ty id = r.has_member ty id := by
  by_cases edge : body.entity_type = .TagEdge ∨ body.entity_type = .CollectionEdge
  · rw [apply_change_edge edge] at ok
    have member := (apply_edge_membership_member ty id ok).2 apart
    obtain ⟨tags,collections,rfl⟩ := apply_edge_membership_rest ok
    refine ⟨?_,member⟩
    change (r.save_set_edge body.entity_type body.entity_id _).set_edge ty id = _
    rw [set_edge_save,if_neg (fun same => apart ⟨same.1.symm,same.2.symm⟩)]
  · have rows := not_or.mp edge
    by_cases delete : body.op = .Delete
    · rw [apply_change_delete rows delete] at ok
      obtain ⟨cs,rfl⟩ := apply_delete_cases ok
      split
      · next dominated =>
        rw [if_pos dominated] at ends
        refine ⟨?_,has_member_delete_entity r body.entity_type body.entity_id ends⟩
        obtain ⟨tables,tags,collections,same⟩ := delete_entity_row_rest r body.entity_type body.entity_id
        rw [same]
        rfl
      · exact ⟨rfl,rfl⟩
    · have edited := apply_edit_edited rows delete ok
      exact ⟨edited.edges ty id,has_member_congr edited.tags edited.collections⟩

end
end Replica

namespace Database

section
variable [Sqlite]

/-- The change that a move brings to an edge. -/
def edge_change (ty : EntityType) (id : String) (db : Database) : Move → List (Bool × Hlc)
  | .emit m =>
    if m.entity_type = ty ∧ m.entity_id = id then [(Replica.asks_member m.fields true,db.stamp m.now_millis)] else []
  | .apply body =>
    if body.entity_type = ty ∧ body.entity_id = id then
      [(Replica.asks_member body.fields (decide (body.op ≠ .Delete)),body.clock)]
    else []
  | _ => []

/-- A change to an edge has a wall time that its column keeps, and a local one is no delete
    and has a stamp above the two clocks of the edge. -/
def Regular (ty : EntityType) (id : String) (db : Database) : Move → Prop
  | .emit m => m.entity_type = ty → m.entity_id = id → m.op ≠ .Delete ∧
      (db.stamp m.now_millis).wall_millis.toNat < 2 ^ 63 ∧
      (∀ add, (db.replica.set_edge ty id).add_clock = some add → add < db.stamp m.now_millis) ∧
      ∀ remove, (db.replica.set_edge ty id).remove_clock = some remove → remove < db.stamp m.now_millis
  | .apply body => body.entity_type = ty → body.entity_id = id → body.clock.wall_millis.toNat < 2 ^ 63
  | _ => True

variable [Scheduler]

/-- The states and the changes seen of the runs from an untouched edge whose ends are there
    throughout. -/
inductive EdgeRun (allowed : Database → Move → Prop) (ty : EntityType) (id : String) :
    Database → List (Bool × Hlc) → Prop where
  | start {db : Database} {device_id : String} (device : db.sync_state.device_id = some device_id)
      (untouched : db.replica.set_edge ty id = ⟨none,none⟩) (absent : db.replica.has_member ty id = false)
      (ends : db.replica.ends_held ty id) : EdgeRun allowed ty id db []
  | step {db db' : Database} {seen : List (Bool × Hlc)} {mv : Move} (run : EdgeRun allowed ty id db seen)
      (may : allowed db mv) (moved : db.move mv = .ok db') (ends : db'.replica.ends_held ty id) :
      EdgeRun allowed ty id db' (seen ++ edge_change ty id db mv)

namespace EdgeRun
variable {allowed : Database → Move → Prop} {ty : EntityType} {id : String} {db : Database} {seen : List (Bool × Hlc)}

theorem device (run : EdgeRun allowed ty id db seen) : ∃ device_id, db.sync_state.device_id = some device_id := by
  induction run with
  | start device => exact ⟨_,device⟩
  | step run may moved ends ih =>
    obtain ⟨device_id,device⟩ := ih
    exact ⟨device_id,move_device device moved⟩

/-- The edge is the fold of the changes that it has seen, in every state of a regular run. -/
theorem folded (run : EdgeRun (Regular ty id) ty id db seen) :
    db.replica.Folded ty id seen ∧ Replica.Fit seen := by
  induction run with
  | start device untouched absent ends =>
    refine ⟨⟨?_,?_,?_⟩,by simp [Replica.Fit]⟩
    · rw [untouched]; rfl
    · rw [untouched]; rfl
    · simp [absent,Replica.Wins,Replica.stampsOf]
  | @step db db' seen mv run may moved ends ih =>
    obtain ⟨folded,fit⟩ := ih
    have fits {change : Bool × Hlc} (last : change.2.wall_millis.toNat < 2 ^ 63) : Replica.Fit (seen ++ [change]) := by
      intro other there
      rcases List.mem_append.mp there with earlier | here
      · exact fit other earlier
      · exact List.mem_singleton.mp here ▸ last
    cases mv with
    | emit m =>
      obtain ⟨device_id,device⟩ := run.device
      obtain ⟨base,e,emitted,-,rfl⟩ := (emit_ok device).mp moved
      by_cases here : m.entity_type = ty ∧ m.entity_id = id
      · rw [edge_change,if_pos here]
        obtain ⟨rfl,rfl⟩ := here
        obtain ⟨edit,wall,added,removed⟩ := may rfl rfl
        exact ⟨folded.emit (Replica.ends_edge ends) edit (fits wall) (folded.above added removed) emitted,fits wall⟩
      · rw [edge_change,if_neg here,List.append_nil]
        obtain ⟨edge,row⟩ := Replica.emit_local_apart here ends emitted
        exact ⟨folded.frame edge row,fit⟩
    | apply body =>
      obtain ⟨replica,applied,moved⟩ := bind_ok.mp moved
      obtain rfl := Except.ok.inj moved
      by_cases here : body.entity_type = ty ∧ body.entity_id = id
      · rw [edge_change,if_pos here]
        obtain ⟨rfl,rfl⟩ := here
        rw [Replica.apply_change_edge (Replica.ends_edge ends)] at applied
        exact ⟨folded.apply (fits (may rfl rfl)) applied,fits (may rfl rfl)⟩
      · rw [edge_change,if_neg here,List.append_nil]
        obtain ⟨edge,row⟩ := Replica.apply_change_apart here ends applied
        exact ⟨folded.frame edge row,fit⟩
    | observe remote now_millis =>
      obtain rfl := Except.ok.inj moved
      simp only [edge_change,List.append_nil]
      exact ⟨folded,fit⟩
    | wait now =>
      obtain rfl := Except.ok.inj moved
      simp only [edge_change,List.append_nil]
      exact ⟨folded.frame rfl rfl,fit⟩

end EdgeRun

/-- In every regular run the clocks of an edge are the greatest add and the greatest remove
    that it has seen and its row is there iff the add is above every remove; and two
    replicas that have seen the same changes agree. -/
theorem edges_converge {ty : EntityType} {id : String} {db : Database} {seen : List (Bool × Hlc)}
    (run : EdgeRun (Regular ty id) ty id db seen) : db.replica.Folded ty id seen ∧
      ∀ db' seen', EdgeRun (Regular ty id) ty id db' seen' → (∀ change, change ∈ seen ↔ change ∈ seen') →
        db.replica.set_edge ty id = db'.replica.set_edge ty id ∧
          db.replica.has_member ty id = db'.replica.has_member ty id := by
  refine ⟨run.folded.1,fun db' seen' run' same => ?_⟩
  have folded := run.folded.1
  have folded' := run'.folded.1
  have stamps (is_add : Bool) (c : Hlc) : c ∈ Replica.stampsOf is_add seen ↔ c ∈ Replica.stampsOf is_add seen' := by
    rw [Replica.mem_stampsOf,Replica.mem_stampsOf,same]
  refine ⟨?_,?_⟩
  · have adds := folded.added.unique folded'.added (stamps true)
    have removes := folded.removed.unique folded'.removed (stamps false)
    cases edge : db.replica.set_edge ty id
    cases edge' : db'.replica.set_edge ty id
    simp_all
  · rw [Bool.eq_iff_iff,folded.row,folded'.row]
    simp only [Replica.Wins,stamps]

end

section
attribute [local instance] plainSqlite plainScheduler

/-- A library with a document and a tag. -/
def tagged : Except StorageError Database :=
  (fresh "phone").play
    [.emit ⟨"1",.Document,"d",.Upsert,(∅ : FieldMap).insert "title" (.Str "x"),[],1⟩,
     .emit ⟨"2",.Tag,"t",.Upsert,(∅ : FieldMap).insert "name" (.Str "y"),[],2⟩]

/-- The document gets the tag or loses it. -/
def tagging (change_id : String) (present : Bool) (now_millis : UInt64) : Mutation :=
  ⟨change_id,.TagEdge,"d:t",.Upsert,(∅ : FieldMap).insert "present" (.Boolean present),[],now_millis⟩

def untouched (db : Database) : Bool :=
  decide (db.sync_state.device_id = some "phone") && decide (db.replica.set_edge .TagEdge "d:t" = ⟨none,none⟩) &&
    !db.replica.has_member .TagEdge "d:t" && db.replica.ends_held .TagEdge "d:t"

theorem EdgeRun.of_untouched {allowed : Database → Move → Prop} {db : Database} (start : untouched db) :
    EdgeRun allowed .TagEdge "d:t" db [] := by
  simp only [untouched,Bool.and_eq_true,decide_eq_true_eq,Bool.not_eq_true'] at start
  obtain ⟨⟨⟨device,clocks⟩,absent⟩,ends⟩ := start
  exact .start device clocks absent ends

set_option maxRecDepth 10000 in
/-- A tag that is added once. -/
theorem edges_converge_added : ∃ db : Database, db.replica.Folded .TagEdge "d:t" [(true,⟨3,0,"phone"⟩)] := by
  have runs : ∃ db, tagged = .ok db ∧ ∃ db', db.move (.emit (tagging "3" true 3)) = .ok db' ∧
      untouched db ∧ db.stamp 3 = ⟨3,0,"phone"⟩ ∧ db'.replica.ends_held .TagEdge "d:t" := by decide +kernel
  obtain ⟨db,-,db',moved,start,stamp,ends⟩ := runs
  have clocks : db.replica.set_edge .TagEdge "d:t" = ⟨none,none⟩ := by
    simp only [untouched,Bool.and_eq_true,decide_eq_true_eq] at start
    exact start.1.1.2
  have regular : Regular .TagEdge "d:t" db (.emit (tagging "3" true 3)) := by
    refine fun _ _ => ⟨by decide,?_,?_,?_⟩
    · change (db.stamp 3).wall_millis.toNat < 2 ^ 63
      rw [stamp]
      decide
    · simp [clocks]
    · simp [clocks]
  have run := (EdgeRun.of_untouched start).step regular moved ends
  have seen : edge_change .TagEdge "d:t" db (.emit (tagging "3" true 3)) = [(true,⟨3,0,"phone"⟩)] := by
    rw [← stamp]
    rfl
  rw [seen] at run
  exact ⟨db',(edges_converge run).1⟩

set_option maxRecDepth 10000 in
/-- A remove whose counter is full is observed and applied; the stamp of a later add stays
    below it, and yet the add puts the row back. -/
theorem full_counter_adds_back : ¬∀ (ty : EntityType) (id : String) (db : Database) (seen : List (Bool × Hlc)),
    EdgeRun (fun _ _ => True) ty id db seen → db.replica.Folded ty id seen := by
  intro all
  have runs : ∃ db, tagged = .ok db ∧ ∃ db₁, db.move (.observe ⟨10,Hlc.counterMax,"tablet"⟩ 10) = .ok db₁ ∧
      ∃ db₂, db₁.move (.apply ((tagging "" false 0).body ⟨10,Hlc.counterMax,"tablet"⟩ none)) = .ok db₂ ∧
      ∃ db₃, db₂.move (.emit (tagging "3" true 10)) = .ok db₃ ∧
      untouched db ∧ db₁.replica.ends_held .TagEdge "d:t" ∧ db₂.replica.ends_held .TagEdge "d:t" ∧
      db₃.replica.ends_held .TagEdge "d:t" ∧ db₂.stamp 10 = ⟨10,Hlc.counterMax,"phone"⟩ ∧
      db₃.replica.has_member .TagEdge "d:t" := by decide +kernel
  obtain ⟨db,-,db₁,observed,db₂,applied,db₃,made,start,ends₁,ends₂,ends₃,stamp,member⟩ := runs
  have before : EdgeRun (fun _ _ => True) .TagEdge "d:t" db [] := .of_untouched start
  have run := ((before.step trivial observed ends₁).step trivial applied ends₂).step trivial made ends₃
  have seen : [] ++ edge_change .TagEdge "d:t" db (.observe ⟨10,Hlc.counterMax,"tablet"⟩ 10) ++
      edge_change .TagEdge "d:t" db₁ (.apply ((tagging "" false 0).body ⟨10,Hlc.counterMax,"tablet"⟩ none)) ++
      edge_change .TagEdge "d:t" db₂ (.emit (tagging "3" true 10)) =
      [(false,⟨10,Hlc.counterMax,"tablet"⟩),(true,⟨10,Hlc.counterMax,"phone"⟩)] := by
    rw [← stamp]
    rfl
  rw [seen] at run
  obtain ⟨add,there,wins⟩ := (all _ _ _ _ run).row.mp member
  rw [Replica.mem_stampsOf] at there
  have only : add = ⟨10,Hlc.counterMax,"phone"⟩ := by simpa using there
  have below := wins ⟨10,Hlc.counterMax,"tablet"⟩ (Replica.mem_stampsOf.mpr (by simp))
  rw [only] at below
  exact absurd below (by decide)

end
end Database
end Pergamon
