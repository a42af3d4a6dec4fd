import Pergamon.Membership

/-!
Merge clocks over a run. A stamp that a step writes replaces the one that is there, with no
comparison, in four places: the tombstone of a delete, the fields of a local change, a
field whose row is missing, and prose whose held version the change names as its base. Where
none of these is older than what it replaces (`Forward`), no clock ever goes back and the
tombstone of an entity is the greatest delete that it has seen (`clocks_monotone`).
-/
namespace Pergamon
open Fallible

namespace Replica

/-- No clock went back. -/
structure Advanced (r r' : Replica) : Prop where
  clocks : ∀ ty id f c, r.entity_clock ty id f = some c → ∃ c', r'.entity_clock ty id f = some c' ∧ c ≤ c'
  adds : ∀ ty id c, (r.set_edge ty id).add_clock = some c → ∃ c', (r'.set_edge ty id).add_clock = some c' ∧ c ≤ c'
  removes : ∀ ty id c, (r.set_edge ty id).remove_clock = some c →
    ∃ c', (r'.set_edge ty id).remove_clock = some c' ∧ c ≤ c'
  tombstones : ∀ ty id c, r.tombstone ty id = some c → ∃ c', r'.tombstone ty id = some c' ∧ c ≤ c'

namespace Advanced
variable {r r' r'' : Replica} {ty : EntityType} {id : String} {c : Hlc}

theorem of_same (clocks : ∀ ty id f, r'.entity_clock ty id f = r.entity_clock ty id f)
    (edges : ∀ ty id, r'.set_edge ty id = r.set_edge ty id)
    (tombstones : ∀ ty id, r'.tombstone ty id = r.tombstone ty id) : Advanced r r' :=
  ⟨fun ty id f c held => ⟨c,by rw [clocks,held],le_rfl⟩,fun ty id c held => ⟨c,by rw [edges,held],le_rfl⟩,
    fun ty id c held => ⟨c,by rw [edges,held],le_rfl⟩,fun ty id c held => ⟨c,by rw [tombstones,held],le_rfl⟩⟩

theorem rfl' : Advanced r r := of_same (fun _ _ _ => rfl) (fun _ _ => rfl) (fun _ _ => rfl)

theorem trans {w : Replica} (first : Advanced r w) (second : Advanced w r'') : Advanced r r'' := by
  refine ⟨fun ty id f c held => ?_,fun ty id c held => ?_,fun ty id c held => ?_,fun ty id c held => ?_⟩
  · obtain ⟨c',held',le⟩ := first.clocks ty id f c held
    obtain ⟨c'',held'',le'⟩ := second.clocks ty id f c' held'
    exact ⟨c'',held'',le.trans le'⟩
  · obtain ⟨c',held',le⟩ := first.adds ty id c held
    obtain ⟨c'',held'',le'⟩ := second.adds ty id c' held'
    exact ⟨c'',held'',le.trans le'⟩
  · obtain ⟨c',held',le⟩ := first.removes ty id c held
    obtain ⟨c'',held'',le'⟩ := second.removes ty id c' held'
    exact ⟨c'',held'',le.trans le'⟩
  · obtain ⟨c',held',le⟩ := first.tombstones ty id c held
    obtain ⟨c'',held'',le'⟩ := second.tombstones ty id c' held'
    exact ⟨c'',held'',le.trans le'⟩

theorem set_entity_clock {f : String} (newer : ∀ held, r.entity_clock ty id f = some held → held ≤ c.stored) :
    Advanced r (r.set_entity_clock ty id f c) := by
  refine ⟨fun ty' id' f' held there => ?_,fun ty id c held => ⟨c,held,le_rfl⟩,fun ty id c held => ⟨c,held,le_rfl⟩,
    fun ty id c held => ⟨c,held,le_rfl⟩⟩
  rw [entity_clock_set]
  split
  · next here =>
    obtain ⟨rfl,rfl,rfl⟩ := here
    exact ⟨c.stored,rfl,newer held there⟩
  · exact ⟨held,there,le_rfl⟩

theorem set_tombstone (newer : ∀ held, r.tombstone ty id = some held → held ≤ c.stored) :
    Advanced r (r.set_tombstone ty id c) := by
  refine ⟨fun ty id f c held => ⟨c,held,le_rfl⟩,fun ty id c held => ⟨c,held,le_rfl⟩,fun ty id c held => ⟨c,held,le_rfl⟩,
    fun ty' id' held there => ?_⟩
  rw [tombstone_set]
  split
  · next here =>
    obtain ⟨rfl,rfl⟩ := here
    exact ⟨c.stored,rfl,newer held there⟩
  · exact ⟨held,there,le_rfl⟩

theorem stamps {l : List (String × Value)}
    (newer : ∀ field ∈ l, ∀ held, r.entity_clock ty id field.1 = some held → held ≤ c.stored) :
    Advanced r (Replica.stamps ty id c l r) := by
  obtain ⟨clocks,same⟩ := stamps_rest ty id (r := r) c l
  refine ⟨fun ty' id' f held there => ?_,fun ty id c held => ⟨c,by rw [same]; exact held,le_rfl⟩,
    fun ty id c held => ⟨c,by rw [same]; exact held,le_rfl⟩,fun ty id c held => ⟨c,by rw [same]; exact held,le_rfl⟩⟩
  rw [clock_stamps]
  split
  · next here =>
    obtain ⟨rfl,rfl,named⟩ := here
    obtain ⟨field,inside,rfl⟩ := List.mem_map.mp named
    exact ⟨c.stored,rfl,newer field inside held there⟩
  · exact ⟨held,there,le_rfl⟩

/-- Merging a stamp into an edge takes no clock of it back, if the clocks are in their stored form. -/
theorem save_merged (plain : ∀ slot, (r.set_edge ty id).add_clock = some slot ∨ (r.set_edge ty id).remove_clock = some slot →
    slot.stored = slot) (fits : c.stored = c) (is_add : Bool) :
    Advanced r (r.save_set_edge ty id (merge_set_member (r.set_edge ty id) is_add c).member) := by
  -- a slot after the merge, stored
  have slots {slot : Option Hlc} (plain : ∀ held, slot = some held → held.stored = held) {held : Hlc}
      (there : slot = some held) :
      (∃ c', slot.map Hlc.stored = some c' ∧ held ≤ c') ∧ ∃ c', (merge_slot slot c).map Hlc.stored = some c' ∧ held ≤ c' := by
    subst there
    refine ⟨⟨held,by simp [plain held rfl],le_rfl⟩,?_⟩
    unfold merge_slot
    simp only
    split
    · exact ⟨held,by simp [plain held rfl],le_rfl⟩
    · next beaten => exact ⟨c,by simp [fits],(not_le.mp beaten).le⟩
  refine ⟨fun ty id f c held => ⟨c,held,le_rfl⟩,fun ty' id' held there => ?_,fun ty' id' held there => ?_,
    fun ty id c held => ⟨c,held,le_rfl⟩⟩
  · rw [set_edge_save]
    split
    · next here =>
      obtain ⟨rfl,rfl⟩ := here
      have both := slots (fun slot at_slot => plain slot (.inl at_slot)) there
      cases is_add
      · exact both.1
      · exact both.2
    · exact ⟨held,there,le_rfl⟩
  · rw [set_edge_save]
    split
    · next here =>
      obtain ⟨rfl,rfl⟩ := here
      have both := slots (fun slot at_slot => plain slot (.inr at_slot)) there
      cases is_add
      · exact both.2
      · exact both.1
    · exact ⟨held,there,le_rfl⟩

end Advanced

/-- Clocks in the form in which a column keeps them. -/
abbrev Plain (r : Replica) : Prop := r.Every (fun c => c.stored = c)

theorem lasting_stored : Lasting (fun c => c.stored = c) := fun _ plain => congrArg Hlc.stored plain

section
variable [Sqlite] {r r' : Replica} {body : ChangeBody}

/-- A change that is applied replaces the stamp of a field without comparing the two: there
    is no row, or the change names the stamp as the version of the prose that it edits. -/
def Overwrites (r : Replica) (body : ChangeBody) (f : String) : Prop :=
  (r.read_entity_fields body.entity_type body.entity_id = none ∨
    Prose body.entity_type f ∧ body.base_version = r.entity_clock body.entity_type body.entity_id f) ∧
  ∀ dead, r.tombstone body.entity_type body.entity_id = some dead → ¬Prose body.entity_type f ∧ dead ≤ body.clock

/-- No stamp that an edit replaces is newer than the edit. -/
def ForwardFields (r : Replica) (body : ChangeBody) : Prop :=
  ∀ f ∈ body.fields, Overwrites r body f →
    ∀ held, r.entity_clock body.entity_type body.entity_id f = some held → held ≤ body.clock

omit [Sqlite] in
theorem Advanced.of_rowsOnly {ty : EntityType} {id : String} (only : RowsOnly ty id r r') : Advanced r r' := by
  obtain ⟨tables,rfl⟩ := only.rest
  exact .of_same (fun _ _ _ => rfl) (fun _ _ => rfl) (fun _ _ => rfl)

/-- Merging one field takes no clock back. -/
theorem Advanced.merge_one_field {local_fields : Option FieldMap} {f : String} {v : Value} (plain : Plain r)
    (fits : body.clock.stored = body.clock)
    (forward : local_fields.bind (fun fields => fields[f]?) = none ∧ f ∈ allowed_columns body.entity_type ∨
      Prose body.entity_type f ∧ body.base_version = r.entity_clock body.entity_type body.entity_id f →
      ∀ held, r.entity_clock body.entity_type body.entity_id f = some held → held ≤ body.clock)
    (ok : Replica.merge_one_field body local_fields r (f,v) = .ok r') : Advanced r r' := by
  obtain ⟨others,own⟩ := merge_one_field_clocks ok
  have edited := merge_one_field_edited ok
  refine ⟨fun ty id g c held => ?_,fun ty id c held => ⟨c,by rw [edited.edges]; exact held,le_rfl⟩,
    fun ty id c held => ⟨c,by rw [edited.edges]; exact held,le_rfl⟩,
    fun ty id c held => ⟨c,by rw [edited.tombstones]; exact held,le_rfl⟩⟩
  by_cases here : ty = body.entity_type ∧ id = body.entity_id ∧ g = f
  · obtain ⟨rfl,rfl,rfl⟩ := here
    rcases own with same | ⟨stamped,known,replaced⟩ | ⟨held',slot,stored⟩
    · exact ⟨c,by rw [same,held],le_rfl⟩
    · refine ⟨body.clock,by rw [stamped,fits],?_⟩
      rcases replaced c held with newer | missing | ⟨prose,base⟩
      · exact newer.le
      · exact forward (.inl ⟨missing,known⟩) c held
      · exact forward (.inr ⟨prose,base.trans held.symm⟩) c held
    · obtain rfl := Option.some.inj (slot.symm.trans held)
      exact ⟨held',by rw [stored,plain.clocks _ _ _ _ held],le_rfl⟩
  · exact ⟨c,by rw [others ty id g here,held],le_rfl⟩

/-- Applying an edit takes no clock back. -/
theorem Advanced.apply_fields (plain : Plain r) (fits : body.clock.stored = body.clock) (forward : ForwardFields r body)
    (ok : r.apply_fields body = .ok r') : Advanced r r' := by
  -- the fields that are left have the stamps that they had
  have run (s : Replica) (same : ∀ f, s.entity_clock body.entity_type body.entity_id f =
      r.entity_clock body.entity_type body.entity_id f) (first : Advanced r s) (plain : Plain s)
      (merged : body.fields.toList.foldlM (apply_field body (r.tombstone body.entity_type body.entity_id)
        (r.read_entity_fields body.entity_type body.entity_id)) s = .ok r') : Advanced r r' := by
    refine (foldlM_rest (fun rest t => (Advanced r t ∧ Plain t) ∧ rest.Pairwise (fun a b => a.1 ≠ b.1) ∧
      ∀ field ∈ rest, field ∈ body.fields.toList ∧ t.entity_clock body.entity_type body.entity_id field.1 =
        r.entity_clock body.entity_type body.entity_id field.1) ?_
      ⟨⟨first,plain⟩,toList_distinct _,fun field inside => ⟨inside,same field.1⟩⟩ merged).1.1
    rintro ⟨f,v⟩ rest t t' ⟨⟨advanced,plain⟩,distinct,left⟩ taken
    obtain ⟨apart,distinct⟩ := List.pairwise_cons.mp distinct
    obtain ⟨inside,slot⟩ := left _ (.head _)
    have given : f ∈ body.fields := mem_fields.mpr ⟨v,inside⟩
    have merge (unblocked : ∀ dead, r.tombstone body.entity_type body.entity_id = some dead →
          ¬Prose body.entity_type f ∧ dead ≤ body.clock)
        (taken : Replica.merge_one_field body (r.read_entity_fields body.entity_type body.entity_id) t (f,v) = .ok t') :
        (Advanced r t' ∧ Plain t') ∧ rest.Pairwise (fun a b => a.1 ≠ b.1) ∧
          ∀ field ∈ rest, field ∈ body.fields.toList ∧ t'.entity_clock body.entity_type body.entity_id field.1 =
            r.entity_clock body.entity_type body.entity_id field.1 := by
      refine ⟨⟨advanced.trans (.merge_one_field plain fits ?_ taken),
        plain.merge_one_field lasting_stored (Hlc.stored_stored _) taken⟩,distinct,fun field later => ?_⟩
      · rintro overwrites held there
        rw [slot] at there
        refine forward f given ⟨?_,unblocked⟩ held there
        rcases overwrites with ⟨missing,known⟩ | ⟨prose,base⟩
        · left
          cases shown : r.read_entity_fields body.entity_type body.entity_id with
          | none => rfl
          | some fields =>
            rw [shown] at missing
            exact absurd missing (read_known shown known)
        · exact .inr ⟨prose,base.trans slot⟩
      · obtain ⟨inside',slot'⟩ := left field (.tail _ later)
        refine ⟨inside',((merge_one_field_clocks taken).1 _ _ _ ?_).trans slot'⟩
        exact fun same => apart field later same.2.2.symm
    have kept (same : t'.sync_entity_clock = t.sync_entity_clock) (edges : t'.sync_set_edge = t.sync_set_edge)
        (tombstones : t'.sync_tombstones = t.sync_tombstones) :
        (Advanced r t' ∧ Plain t') ∧ rest.Pairwise (fun a b => a.1 ≠ b.1) ∧
          ∀ field ∈ rest, field ∈ body.fields.toList ∧ t'.entity_clock body.entity_type body.entity_id field.1 =
            r.entity_clock body.entity_type body.entity_id field.1 := by
      refine ⟨⟨advanced.trans (.of_same (fun ty id g => congrFun (congrFun (congrFun same ty) id) g)
        (fun ty id => congrFun (congrFun edges ty) id) (fun ty id => congrFun (congrFun tombstones ty) id)),
        plain.of_same same edges tombstones⟩,distinct,fun field later => ?_⟩
      obtain ⟨inside',slot'⟩ := left field (.tail _ later)
      refine ⟨inside',Eq.trans ?_ slot'⟩
      rw [entity_clock,same]
      rfl
    unfold apply_field at taken
    split at taken
    · next dead killed =>
      split at taken
      · obtain rfl := Except.ok.inj taken
        exact kept rfl rfl rfl
      · next unprosaic =>
        split at taken
        · obtain rfl := Except.ok.inj taken
          exact kept rfl rfl rfl
        · next later =>
          refine merge (fun dead' killed' => ?_) taken
          obtain rfl := Option.some.inj (killed.symm.trans killed')
          exact ⟨unprosaic,not_lt.mp later⟩
    · next alive => exact merge (fun dead killed => by rw [alive] at killed; cases killed) taken
  unfold Replica.apply_fields at ok
  simp only at ok
  split at ok
  · obtain ⟨w,written,merged⟩ := bind_ok.mp ok
    have only := write_rowsOnly (by decide) written
    have kept : Plain w := by
      obtain ⟨tables,rfl⟩ := only.rest
      exact plain.of_same rfl rfl rfl
    exact run w (fun f => only.clock _ _ f) (.of_rowsOnly only) kept merged
  · exact run r (fun _ => rfl) .rfl' plain ok

/-- The change replaces no newer clock by its own. -/
def ForwardChange (r : Replica) (body : ChangeBody) : Prop :=
  match body.entity_type with
  | .TagEdge | .CollectionEdge => True
  | ty =>
    if body.op = .Delete then ∀ dead, r.tombstone ty body.entity_id = some dead → dead ≤ body.clock
    else
      match ty with
      | .ReviewLog | .ReviewCard => True
      | _ => ForwardFields r body

omit [Sqlite] in
theorem ForwardChange.of_delete (forward : ForwardChange r body)
    (rows : body.entity_type ≠ .TagEdge ∧ body.entity_type ≠ .CollectionEdge) (delete : body.op = .Delete) :
    ∀ dead, r.tombstone body.entity_type body.entity_id = some dead → dead ≤ body.clock := by
  unfold ForwardChange at forward
  split at forward
  · next tag => exact absurd tag rows.1
  · next collection => exact absurd collection rows.2
  · rwa [if_pos delete] at forward

/-- Applying a change takes no clock back. -/
theorem Advanced.apply_change [Scheduler] (plain : Plain r) (fits : body.clock.stored = body.clock)
    (forward : ForwardChange r body) (ok : r.apply_change body = .ok r') : Advanced r r' := by
  by_cases edge : body.entity_type = .TagEdge ∨ body.entity_type = .CollectionEdge
  · rw [apply_change_edge edge] at ok
    obtain ⟨tags,collections,rfl⟩ := apply_edge_membership_rest ok
    refine (Advanced.save_merged (fun slot held => ?_) fits _).trans (.of_same (fun _ _ _ => rfl) (fun _ _ => rfl)
      (fun _ _ => rfl))
    rcases held with added | removed
    · exact plain.adds _ _ slot added
    · exact plain.removes _ _ slot removed
  · have rows := not_or.mp edge
    by_cases delete : body.op = .Delete
    · rw [apply_change_delete rows delete] at ok
      have newer := forward.of_delete rows delete
      obtain ⟨cs,rfl⟩ := apply_delete_cases ok
      have killed := Advanced.set_tombstone (c := body.clock) (fun dead held => fits.symm ▸ newer dead held)
      obtain ⟨tables,tags,collections,same⟩ := delete_entity_row_rest r body.entity_type body.entity_id
      refine killed.trans ?_
      split
      · rw [same]
        exact .of_same (fun _ _ _ => rfl) (fun _ _ => rfl) (fun _ _ => rfl)
      · exact .of_same (fun _ _ _ => rfl) (fun _ _ => rfl) (fun _ _ => rfl)
    · by_cases review : body.entity_type = .ReviewCard ∨ body.entity_type = .ReviewLog
      · obtain ⟨tables,rfl⟩ := apply_review_rest review delete ok
        exact .of_same (fun _ _ _ => rfl) (fun _ _ => rfl) (fun _ _ => rfl)
      · rw [apply_change_fields rows (not_or.mp review) delete] at ok
        refine .apply_fields plain fits ?_ ok
        unfold ForwardChange at forward
        split at forward
        · next tag => exact absurd tag rows.1
        · next collection => exact absurd collection rows.2
        · rw [if_neg delete] at forward
          split at forward
          · next log => exact absurd (.inr log) review
          · next card => exact absurd (.inl card) review
          · exact forward

/-- A local change takes no clock back, where its stamp is above those that it replaces. -/
theorem Advanced.emit_local {ty : EntityType} {id : String} {op : Op} {fields : FieldMap} {c : Hlc} {base : Option Hlc}
    (plain : Plain r) (fits : c.stored = c)
    (tombstone : op = .Delete → ∀ dead, r.tombstone ty id = some dead → dead ≤ c)
    (stamped : op ≠ .Delete → ∀ f ∈ fields, ∀ held, r.entity_clock ty id f = some held → held ≤ c)
    (emitted : r.emit_local ty id op fields c = .ok (base,r')) : Advanced r r' := by
  have stamps_newer (edit : op ≠ .Delete) (s : Replica) (same : ∀ f, s.entity_clock ty id f = r.entity_clock ty id f) :
      Advanced s (Replica.stamps ty id c fields.toList s) := by
    refine .stamps (fun field inside held there => ?_)
    rw [same] at there
    rw [fits]
    exact stamped edit field.1 (mem_fields.mpr ⟨field.2,inside⟩) held there
  by_cases edge : ty = .TagEdge ∨ ty = .CollectionEdge
  · obtain ⟨w,written,rfl⟩ := emit_local_edge edge emitted
    obtain ⟨tags,collections,rfl⟩ := apply_edge_membership_rest written
    have first : Advanced r { r with content_item_tags := tags, content_item_collections := collections } :=
      .of_same (fun _ _ _ => rfl) (fun _ _ => rfl) (fun _ _ => rfl)
    split
    · next delete => exact first.trans (.set_tombstone (fun dead held => fits.symm ▸ tombstone delete dead held))
    · next edit =>
      have second := first.trans (stamps_newer edit { r with content_item_tags := tags, content_item_collections := collections }
        (fun _ => rfl))
      obtain ⟨clocks,same⟩ := stamps_rest ty id
        (r := { r with content_item_tags := tags, content_item_collections := collections }) c fields.toList
      rw [same] at second ⊢
      refine second.trans (.save_merged (fun slot held => ?_) fits _)
      rcases held with added | removed
      · exact plain.adds _ _ slot added
      · exact plain.removes _ _ slot removed
  · have rows := not_or.mp edge
    by_cases delete : op = .Delete
    · subst delete
      obtain ⟨-,rfl⟩ := emit_local_delete rows emitted
      obtain ⟨tables,tags,collections,same⟩ := delete_entity_row_rest r ty id
      rw [same]
      refine Advanced.trans (w := { r with tables := tables, content_item_tags := tags, content_item_collections := collections })
        (.of_same (fun _ _ _ => rfl) (fun _ _ => rfl) (fun _ _ => rfl)) ?_
      exact .set_tombstone (fun dead held => fits.symm ▸ tombstone rfl dead held)
    · obtain ⟨-,w,written,rfl⟩ := emit_local_edit rows delete emitted
      have only := write_rowsOnly delete written
      exact (Advanced.of_rowsOnly only).trans (stamps_newer delete w (fun f => only.clock _ _ f))

/-! ### Tombstones -/

/-- A local delete leaves its tombstone, an edit none. -/
theorem emit_local_tombstone {ty : EntityType} {id : String} {op : Op} {fields : FieldMap} {c : Hlc} {base : Option Hlc}
    (emitted : r.emit_local ty id op fields c = .ok (base,r')) (ty' : EntityType) (id' : String) :
    r'.tombstone ty' id' = if ty = ty' ∧ id = id' ∧ op = .Delete then some c.stored else r.tombstone ty' id' := by
  have killed (s : Replica) (delete : op = .Delete) (same : s.sync_tombstones = r.sync_tombstones) :
      (s.set_tombstone ty id c).tombstone ty' id' =
        if ty = ty' ∧ id = id' ∧ op = .Delete then some c.stored else r.tombstone ty' id' := by
    rw [tombstone_set,tombstone,tombstone,same]
    simp only [delete,and_true,eq_comm]
  have kept (s : Replica) (edit : op ≠ .Delete) (same : s.sync_tombstones = r.sync_tombstones) :
      s.tombstone ty' id' = if ty = ty' ∧ id = id' ∧ op = .Delete then some c.stored else r.tombstone ty' id' := by
    rw [if_neg (fun all => edit all.2.2),tombstone,tombstone,same]
  by_cases edge : ty = .TagEdge ∨ ty = .CollectionEdge
  · obtain ⟨w,written,rfl⟩ := emit_local_edge edge emitted
    obtain ⟨tags,collections,rfl⟩ := apply_edge_membership_rest written
    split
    · next delete => exact killed _ delete rfl
    · next edit =>
      obtain ⟨clocks,same⟩ := stamps_rest ty id
        (r := { r with content_item_tags := tags, content_item_collections := collections }) c fields.toList
      rw [same]
      exact kept _ edit rfl
  · have rows := not_or.mp edge
    by_cases delete : op = .Delete
    · subst delete
      obtain ⟨-,rfl⟩ := emit_local_delete rows emitted
      obtain ⟨tables,tags,collections,same⟩ := delete_entity_row_rest r ty id
      rw [same]
      exact killed _ rfl rfl
    · obtain ⟨-,w,written,rfl⟩ := emit_local_edit rows delete emitted
      obtain ⟨tables,rfl⟩ := (write_rowsOnly delete written).rest
      obtain ⟨clocks,same⟩ := stamps_rest ty id (r := { r with tables := tables }) c fields.toList
      rw [same]
      exact kept _ delete rfl

/-- A delete that is applied leaves its tombstone, any other change none. -/
theorem apply_change_tombstone [Scheduler] (ok : r.apply_change body = .ok r') (ty : EntityType) (id : String) :
    r'.tombstone ty id =
      if (body.entity_type = ty ∧ body.entity_id = id ∧ body.op = .Delete) ∧ ty ≠ .TagEdge ∧ ty ≠ .CollectionEdge then
        some body.clock.stored
      else r.tombstone ty id := by
  by_cases edge : body.entity_type = .TagEdge ∨ body.entity_type = .CollectionEdge
  · rw [apply_change_edge edge] at ok
    obtain ⟨tags,collections,rfl⟩ := apply_edge_membership_rest ok
    rw [if_neg]
    · rfl
    · rintro ⟨⟨rfl,-,-⟩,rows⟩
      exact edge.elim rows.1 rows.2
  · have rows := not_or.mp edge
    by_cases delete : body.op = .Delete
    · rw [apply_change_delete rows delete] at ok
      obtain ⟨cs,rfl⟩ := apply_delete_cases ok
      have killed (s : Replica) (same : s.sync_tombstones = r.sync_tombstones) :
          (s.set_tombstone body.entity_type body.entity_id body.clock).tombstone ty id =
            if (body.entity_type = ty ∧ body.entity_id = id ∧ body.op = .Delete) ∧ ty ≠ .TagEdge ∧ ty ≠ .CollectionEdge then
              some body.clock.stored
            else r.tombstone ty id := by
        rw [tombstone_set,tombstone,tombstone,same]
        by_cases here : ty = body.entity_type ∧ id = body.entity_id
        · obtain ⟨rfl,rfl⟩ := here
          simp [delete,rows]
        · rw [if_neg here,if_neg (fun all => here ⟨all.1.1.symm,all.1.2.1.symm⟩)]
      obtain ⟨tables,tags,collections,same⟩ := delete_entity_row_rest r body.entity_type body.entity_id
      split
      · rw [same]
        exact killed _ rfl
      · exact killed _ rfl
    · rw [if_neg (fun all => delete all.1.2.2)]
      exact (apply_edit_edited rows delete ok).tombstones ty id

end
end Replica

namespace Database

section
variable [Sqlite]

/-- The delete that a move brings to an entity. -/
def delete_change (ty : EntityType) (id : String) (db : Database) : Move → List Hlc
  | .emit m => if m.entity_type = ty ∧ m.entity_id = id ∧ m.op = .Delete then [db.stamp m.now_millis] else []
  | .apply body =>
    if (body.entity_type = ty ∧ body.entity_id = id ∧ body.op = .Delete) ∧ ty ≠ .TagEdge ∧ ty ≠ .CollectionEdge then
      [body.clock]
    else []
  | _ => []

/-- The wall time of a move's stamp fits its column, and the stamp is put in place of no newer one. -/
def Forward (db : Database) : Move → Prop
  | .emit m => (db.stamp m.now_millis).wall_millis.toNat < 2 ^ 63 ∧
      (m.op = .Delete → ∀ dead, db.replica.tombstone m.entity_type m.entity_id = some dead → dead ≤ db.stamp m.now_millis) ∧
      (m.op ≠ .Delete → ∀ f ∈ m.fields, ∀ held, db.replica.entity_clock m.entity_type m.entity_id f = some held →
        held ≤ db.stamp m.now_millis)
  | .apply body => body.clock.wall_millis.toNat < 2 ^ 63 ∧ db.replica.ForwardChange body
  | _ => True

variable [Scheduler]

/-- The states of the runs of a device from an empty library, with the deletes of one entity
    that it has made or applied. -/
inductive DeleteRun (allowed : Database → Move → Prop) (ty : EntityType) (id : String) : Database → List Hlc → Prop where
  | fresh (device_id : String) : DeleteRun allowed ty id (Database.fresh device_id) []
  | step {db db' : Database} {seen : List Hlc} {mv : Move} (run : DeleteRun allowed ty id db seen) (may : allowed db mv)
      (moved : db.move mv = .ok db') : DeleteRun allowed ty id db' (seen ++ delete_change ty id db mv)

section
variable {allowed : Database → Move → Prop} {ty : EntityType} {id : String} {db db' : Database} {seen : List Hlc} {mv : Move}

theorem DeleteRun.device (run : DeleteRun allowed ty id db seen) : ∃ device_id, db.sync_state.device_id = some device_id := by
  induction run with
  | fresh device_id => exact ⟨device_id,rfl⟩
  | step run may moved ih =>
    obtain ⟨device_id,device⟩ := ih
    exact ⟨device_id,move_device device moved⟩

/-- A move that replaces no newer stamp takes no clock back. -/
theorem move_advanced {device_id : String} (device : db.sync_state.device_id = some device_id) (plain : db.replica.Plain)
    (forward : Forward db mv) (moved : db.move mv = .ok db') : db.replica.Advanced db'.replica ∧ db'.replica.Plain := by
  cases mv with
  | emit m =>
    obtain ⟨base,e,emitted,-,rfl⟩ := (emit_ok device).mp moved
    obtain ⟨wall,tombstone,stamped⟩ := forward
    exact ⟨.emit_local plain (Hlc.stored_eq wall) tombstone stamped emitted,
      plain.emit_local Replica.lasting_stored (Hlc.stored_stored _) emitted⟩
  | apply body =>
    obtain ⟨replica,applied,moved⟩ := bind_ok.mp moved
    obtain rfl := Except.ok.inj moved
    exact ⟨.apply_change plain (Hlc.stored_eq forward.1) forward.2 applied,
      plain.apply_change Replica.lasting_stored (Hlc.stored_stored _) applied⟩
  | observe remote now_millis =>
    obtain rfl := Except.ok.inj moved
    exact ⟨.rfl',plain⟩
  | wait now =>
    obtain rfl := Except.ok.inj moved
    exact ⟨.of_same (fun _ _ _ => rfl) (fun _ _ => rfl) (fun _ _ => rfl),plain.of_same rfl rfl rfl⟩

end

/-- In every run whose moves replace no newer stamp by theirs, the tombstone of an entity is
    the greatest of the deletes that it has seen, and no such move takes a clock back. -/
theorem clocks_monotone {ty : EntityType} {id : String} {db : Database} {seen : List Hlc}
    (run : DeleteRun Forward ty id db seen) : Replica.Greatest seen (db.replica.tombstone ty id) ∧
      ∀ mv db', Forward db mv → db.move mv = .ok db' → db.replica.Advanced db'.replica := by
  have invariant : Replica.Greatest seen (db.replica.tombstone ty id) ∧ db.replica.Plain := by
    induction run with
    | fresh device_id => exact ⟨rfl,.empty _⟩
    | @step db db' seen mv run may moved ih =>
      obtain ⟨greatest,plain⟩ := ih
      obtain ⟨device_id,device⟩ := run.device
      refine ⟨?_,(move_advanced device plain may moved).2⟩
      cases mv with
      | emit m =>
        obtain ⟨base,e,emitted,-,rfl⟩ := (emit_ok device).mp moved
        obtain ⟨wall,tombstone,-⟩ := may
        change Replica.Greatest _ (e.tombstone ty id)
        rw [Replica.emit_local_tombstone emitted,delete_change]
        split
        · next here =>
          obtain ⟨rfl,rfl,delete⟩ := here
          rw [Hlc.stored_eq wall]
          exact greatest.replace (tombstone delete)
        · rw [List.append_nil]
          exact greatest
      | apply body =>
        obtain ⟨replica,applied,moved⟩ := bind_ok.mp moved
        obtain rfl := Except.ok.inj moved
        obtain ⟨wall,forward⟩ := may
        change Replica.Greatest _ (replica.tombstone ty id)
        rw [Replica.apply_change_tombstone applied,delete_change]
        split
        · next here =>
          obtain ⟨⟨rfl,rfl,delete⟩,tag,collection⟩ := here
          rw [Hlc.stored_eq wall]
          exact greatest.replace (forward.of_delete ⟨tag,collection⟩ delete)
        · rw [List.append_nil]
          exact greatest
      | observe remote now_millis =>
        obtain rfl := Except.ok.inj moved
        simp only [delete_change,List.append_nil]
        exact greatest
      | wait now =>
        obtain rfl := Except.ok.inj moved
        simp only [delete_change,List.append_nil]
        exact greatest
  obtain ⟨device_id,device⟩ := run.device
  exact ⟨invariant.1,fun mv db' forward moved => (move_advanced device invariant.2 forward moved).1⟩

end

section
attribute [local instance] plainSqlite plainScheduler

/-- A tag is deleted by another device. -/
def tagRemoved (clock : Hlc) : ChangeBody := ⟨.Tag,"t",.Delete,clock,none,∅,[]⟩

/-- Two deletes of a tag in the order of their stamps. -/
theorem clocks_monotone_deletes : ∃ db : Database,
    Replica.Greatest [⟨1,0,"a"⟩,⟨2,0,"b"⟩] (db.replica.tombstone .Tag "t") := by
  have runs : ∃ db, (fresh "phone").move (.apply (tagRemoved ⟨1,0,"a"⟩)) = .ok db ∧
      ∃ db', db.move (.apply (tagRemoved ⟨2,0,"b"⟩)) = .ok db' ∧
      db.replica.tombstone .Tag "t" = some ⟨1,0,"a"⟩ := by decide +kernel
  obtain ⟨db,first,db',second,killed⟩ := runs
  have forward : Forward (fresh "phone") (.apply (tagRemoved ⟨1,0,"a"⟩)) := by
    refine ⟨by decide,fun dead held => ?_⟩
    cases held
  have forward' : Forward db (.apply (tagRemoved ⟨2,0,"b"⟩)) := by
    refine ⟨by decide,fun dead held => ?_⟩
    obtain rfl := Option.some.inj (killed.symm.trans held)
    decide
  have start : DeleteRun Forward .Tag "t" (fresh "phone") [] := .fresh "phone"
  exact ⟨db',(clocks_monotone ((start.step forward first).step forward' second)).1⟩

/-- An older delete of a tag after a newer one takes the tombstone back. -/
theorem stale_delete_goes_back : ¬∀ (ty : EntityType) (id : String) (db : Database) (seen : List Hlc),
    DeleteRun (fun _ _ => True) ty id db seen → Replica.Greatest seen (db.replica.tombstone ty id) ∧
      ∀ mv db', db.move mv = .ok db' → db.replica.Advanced db'.replica := by
  intro all
  have runs : ∃ db, (fresh "phone").move (.apply (tagRemoved ⟨2,0,"b"⟩)) = .ok db ∧
      ∃ db', db.move (.apply (tagRemoved ⟨1,0,"a"⟩)) = .ok db' ∧
      db'.replica.tombstone .Tag "t" = some ⟨1,0,"a"⟩ := by decide +kernel
  obtain ⟨db,first,db',second,killed⟩ := runs
  have start : DeleteRun (fun _ _ => True) .Tag "t" (fresh "phone") [] := .fresh "phone"
  have greatest := (all _ _ _ _ ((start.step trivial first).step trivial second)).1
  rw [killed] at greatest
  have top : (⟨2,0,"b"⟩ : Hlc) ≤ ⟨1,0,"a"⟩ := greatest.2 _ (.head _)
  exact absurd top (by decide)

end
end Database
end Pergamon
