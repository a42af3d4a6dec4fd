import Pergamon.Succession

/-!
Runs of one replica: the changes that are made on it, the changes that are applied to it
and the remote stamps that it observes, one after the other from an empty library. A move
that fails is rolled back, so a run goes through moves that succeed.
-/
namespace Pergamon
open Fallible

/-- The arguments of a local change. -/
structure Mutation where
  change_id : String
  entity_type : EntityType
  entity_id : String
  op : Op
  fields : FieldMap
  blob_manifest : List BlobManifestEntry
  now_millis : UInt64

/-- The body of a local change with the given stamp and base version. -/
def Mutation.body (m : Mutation) (clock : Hlc) (base_version : Option Hlc) : ChangeBody :=
  ⟨m.entity_type,m.entity_id,m.op,clock,base_version,m.fields,m.blob_manifest⟩

/-- What moves a replica. Between two moves, the time that column defaults read may pass. -/
inductive Move where
  | emit (m : Mutation)
  | apply (body : ChangeBody)
  | observe (remote : Hlc) (now_millis : UInt64)
  | wait (now : String)

namespace Replica

/-- Every clock that the replica holds has the property. -/
structure Every (p : Hlc → Prop) (r : Replica) : Prop where
  clocks : ∀ ty id f c, r.entity_clock ty id f = some c → p c
  tombstones : ∀ ty id c, r.tombstone ty id = some c → p c
  adds : ∀ ty id c, (r.set_edge ty id).add_clock = some c → p c
  removes : ∀ ty id c, (r.set_edge ty id).remove_clock = some c → p c

/-- No clock that the replica holds is above the bound. -/
def Bounded (r : Replica) (bound : Hlc) : Prop := r.Every (· ≤ bound)

/-- A property that a clock keeps when it is stored. -/
def Lasting (p : Hlc → Prop) : Prop := ∀ c, p c → p c.stored

theorem lasting_le (bound : Hlc) : Lasting (· ≤ bound) := fun c le => (Hlc.stored_le c).trans le

namespace Every
variable {r r' : Replica} {p q : Hlc → Prop} {clock : Hlc} {ty : EntityType} {id : String}

theorem empty (p : Hlc → Prop) : Every p Replica.empty := by
  refine ⟨?_,?_,?_,?_⟩ <;> simp [entity_clock,tombstone,set_edge,Replica.empty]

theorem of_same {w : Replica} (every : Every p r) (clocks : w.sync_entity_clock = r.sync_entity_clock)
    (edges : w.sync_set_edge = r.sync_set_edge) (tombstones : w.sync_tombstones = r.sync_tombstones) :
    Every p w := by
  refine ⟨fun ty id f c held => ?_,fun ty id c held => ?_,fun ty id c held => ?_,fun ty id c held => ?_⟩
  · rw [entity_clock,clocks] at held
    exact every.clocks ty id f c held
  · rw [tombstone,tombstones] at held
    exact every.tombstones ty id c held
  · rw [set_edge,edges] at held
    exact every.adds ty id c held
  · rw [set_edge,edges] at held
    exact every.removes ty id c held

theorem mono (every : Every p r) (weaker : ∀ c, p c → q c) : Every q r :=
  ⟨fun ty id f c held => weaker c (every.clocks ty id f c held),
    fun ty id c held => weaker c (every.tombstones ty id c held),
    fun ty id c held => weaker c (every.adds ty id c held),
    fun ty id c held => weaker c (every.removes ty id c held)⟩

theorem set_entity_clock (every : Every p r) (new : p clock.stored) (f : String) :
    Every p (r.set_entity_clock ty id f clock) := by
  refine ⟨fun ty' id' f' c held => ?_,every.tombstones,every.adds,every.removes⟩
  rw [entity_clock_set] at held
  split at held
  · exact Option.some.inj held ▸ new
  · exact every.clocks ty' id' f' c held

theorem set_tombstone (every : Every p r) (new : p clock.stored) : Every p (r.set_tombstone ty id clock) := by
  refine ⟨every.clocks,fun ty' id' c held => ?_,every.adds,every.removes⟩
  rw [tombstone_set] at held
  split at held
  · exact Option.some.inj held ▸ new
  · exact every.tombstones ty' id' c held

theorem stamps (ty : EntityType) (id : String) (every : Every p r) (new : p clock.stored) (l : List (String × Value)) :
    Every p (Replica.stamps ty id clock l r) := by
  induction l generalizing r with
  | nil => exact every
  | cons field l ih => exact ih (every.set_entity_clock new field.1)

/-- A clock that a slot of an edge holds after a merge is the incoming one or was there. -/
theorem merge_slot_every {slot : Option Hlc} (lasting : Lasting p) (held : ∀ c, slot = some c → p c)
    (new : p clock.stored) : ∀ c, (merge_slot slot clock).map Hlc.stored = some c → p c := by
  intro c merged
  unfold merge_slot at merged
  cases slot with
  | none => exact Option.some.inj merged ▸ new
  | some existing =>
    simp only at merged
    split at merged
    · exact Option.some.inj merged ▸ lasting existing (held existing rfl)
    · exact Option.some.inj merged ▸ new

theorem save_merged (ty : EntityType) (id : String) (every : Every p r) (lasting : Lasting p) (new : p clock.stored) (is_add : Bool) :
    Every p (r.save_set_edge ty id (merge_set_member (r.set_edge ty id) is_add clock).member) := by
  have unmerged {slot : Option Hlc} (held : ∀ c, slot = some c → p c) : ∀ c, slot.map Hlc.stored = some c → p c := by
    intro c kept
    obtain ⟨existing,there,rfl⟩ := Option.map_eq_some_iff.mp kept
    exact lasting existing (held existing there)
  refine ⟨every.clocks,every.tombstones,fun ty' id' c held => ?_,fun ty' id' c held => ?_⟩
  · rw [set_edge_save] at held
    split at held
    · cases is_add
      · exact unmerged (every.adds ty id) c held
      · exact merge_slot_every lasting (every.adds ty id) new c held
    · exact every.adds ty' id' c held
  · rw [set_edge_save] at held
    split at held
    · cases is_add
      · exact merge_slot_every lasting (every.removes ty id) new c held
      · exact unmerged (every.removes ty id) c held
    · exact every.removes ty' id' c held

end Every

section
variable [Sqlite] {ty : EntityType} {id : String} {r e w : Replica} {fields : FieldMap} {op : Op} {c : Hlc}
  {base : Option Hlc}

/-- What a local change to an edge does. -/
theorem emit_local_edge (edge : ty = .TagEdge ∨ ty = .CollectionEdge)
    (emitted : r.emit_local ty id op fields c = .ok (base,e)) :
    ∃ w, r.apply_edge_membership ty id (((fields["present"]?).bind Value.as_bool).getD true) = .ok w ∧
      e = if op = .Delete then w.set_tombstone ty id c else
        (stamps ty id c fields.toList w).save_set_edge ty id
          (merge_set_member (w.set_edge ty id) (((fields["present"]?).bind Value.as_bool).getD true) c).member := by
  simp only [emit_local,bind_ok] at emitted
  obtain ⟨w,written,emitted⟩ := emitted
  refine ⟨w,?_,?_⟩
  · rcases edge with rfl | rfl <;> exact written
  · split at emitted
    · next delete =>
      rw [if_pos delete]
      exact ((Prod.mk.inj (Except.ok.inj emitted)).2).symm
    · next edit =>
      rw [if_neg edit,← (Prod.mk.inj (Except.ok.inj emitted)).2,stamp_fields,if_pos edge]
      have same : (stamps ty id c fields.toList w).set_edge ty id = w.set_edge ty id := by
        obtain ⟨clocks,stamped⟩ := stamps_rest ty id (r := w) c fields.toList
        rw [stamped]
        rfl
      change save_set_edge (stamps ty id c fields.toList w) ty id
        (merge_set_member ((stamps ty id c fields.toList w).set_edge ty id) _ c).member = _
      rw [same]

omit [Sqlite] in
/-- A membership statement moves the membership tables only. -/
theorem apply_edge_membership_rest {present : Bool} (ok : r.apply_edge_membership ty id present = .ok w) :
    ∃ tags collections, w = { r with content_item_tags := tags, content_item_collections := collections } := by
  simp only [apply_edge_membership,bind_ok] at ok
  obtain ⟨⟨left,right⟩,-,ok⟩ := ok
  cases ty <;> try cases ok
  all_goals
    simp only at ok
    split at ok
    · obtain ⟨-,ok⟩ := if_ok.mp ok
      exact ⟨_,_,(Except.ok.inj ok).symm⟩
    · exact ⟨_,_,(Except.ok.inj ok).symm⟩

omit [Sqlite] in
/-- A delete moves rows only. -/
theorem delete_entity_row_rest (r : Replica) (ty : EntityType) (id : String) :
    ∃ tables tags collections, r.delete_entity_row ty id =
      { r with tables := tables, content_item_tags := tags, content_item_collections := collections } := by
  have deleted (t : TableName) : ∃ tables tags collections, r.delete_row t id =
      { r with tables := tables, content_item_tags := tags, content_item_collections := collections } := by
    unfold delete_row
    split
    · exact ⟨_,_,_,rfl⟩
    · exact ⟨_,_,_,rfl⟩
  cases ty <;> first | exact deleted _ | exact ⟨_,_,_,rfl⟩

theorem Every.emit_local {p : Hlc → Prop} (every : Every p r) (lasting : Lasting p) (new : p c.stored)
    (emitted : r.emit_local ty id op fields c = .ok (base,e)) : Every p e := by
  by_cases edge : ty = .TagEdge ∨ ty = .CollectionEdge
  · obtain ⟨w,written,rfl⟩ := emit_local_edge edge emitted
    obtain ⟨tags,collections,rfl⟩ := apply_edge_membership_rest written
    have kept := every.of_same (w := { r with content_item_tags := tags, content_item_collections := collections })
      rfl rfl rfl
    split
    · exact kept.set_tombstone new
    · have merged := (kept.stamps ty id new fields.toList).save_merged ty id lasting new
        (((fields["present"]?).bind Value.as_bool).getD true)
      obtain ⟨clocks,stamped⟩ := stamps_rest ty id
        (r := { r with content_item_tags := tags, content_item_collections := collections }) c fields.toList
      rw [stamped] at merged ⊢
      exact merged
  · have rows := not_or.mp edge
    by_cases delete : op = .Delete
    · subst delete
      obtain ⟨-,rfl⟩ := emit_local_delete rows emitted
      obtain ⟨tables,tags,collections,same⟩ := delete_entity_row_rest r ty id
      rw [same]
      exact (every.of_same (w := { r with tables := tables, content_item_tags := tags, content_item_collections := collections })
        rfl rfl rfl).set_tombstone new
    · obtain ⟨-,w,written,rfl⟩ := emit_local_edit rows delete emitted
      obtain ⟨tables,rfl⟩ := (write_rowsOnly delete written).rest
      exact (every.of_same (w := { r with tables := tables }) rfl rfl rfl).stamps ty id new _

end
end Replica

namespace Database

/-- An empty library on a device that has its identity. -/
def fresh (device_id : String) : Database :=
  ⟨.empty,⟨none,some device_id,0,0,0,0,none,false⟩,[],0,∅⟩

section
variable [Sqlite]

def emit (db : Database) (m : Mutation) : Except StorageError Database := do
  let (_,db) ← db.emit_change m.change_id m.entity_type m.entity_id m.op m.fields m.blob_manifest m.now_millis
  .ok db

/-- The stamp that the next change gets. -/
def stamp (db : Database) (now_millis : UInt64) : Hlc := db.sync_hlc.tick now_millis

/-- The local clock is at least every clock that is held. -/
def Ahead (db : Database) : Prop := db.replica.Bounded db.sync_hlc

/-- The body that the last change left in the outbox. -/
def emitted (db : Database) : Option ChangeBody := db.sync_outbox.getLast?.map OutboxRow.body

/-- What a change that is made on a device with an identity does: the version that it
    observed, the state of the replica it leaves and its row in the outbox. -/
theorem emit_ok {db db' : Database} {m : Mutation} {device_id : String}
    (device : db.sync_state.device_id = some device_id) : db.emit m = .ok db' ↔
      ∃ base e, db.replica.emit_local m.entity_type m.entity_id m.op m.fields (db.stamp m.now_millis) = .ok (base,e) ∧
        (∀ row ∈ db.sync_outbox, row.change_id ≠ m.change_id) ∧
        db' = { db.set_sync_hlc (db.stamp m.now_millis) with
          replica := e
          sync_local_seq := db.sync_local_seq + 1
          sync_outbox := db.sync_outbox ++
            [⟨m.change_id,m.body (db.stamp m.now_millis) base,db.sync_local_seq,none⟩] } := by
  unfold emit emit_change
  rw [device]
  simp only [tick_local_hlc,bind_ok,Prod.exists,Except.ok.injEq,Prod.mk.injEq]
  constructor
  · rintro ⟨sent,db'',⟨base,e,emitted,db₂,enqueued,rfl,rfl⟩,rfl⟩
    unfold enqueue_outbox at enqueued
    split at enqueued
    · cases enqueued
    · next unused =>
      simp only [List.any_eq_true,decide_eq_true_eq,not_exists,not_and] at unused
      exact ⟨base,e,emitted,unused,(Except.ok.inj enqueued).symm⟩
  · rintro ⟨base,e,emitted,unused,rfl⟩
    refine ⟨_,_,⟨base,e,emitted,_,?_,rfl,rfl⟩,rfl⟩
    unfold enqueue_outbox
    rw [if_neg]
    · rfl
    · simp only [List.any_eq_true,decide_eq_true_eq,not_exists,not_and]
      exact unused

/-- The local clock of a device after a change is the stamp of the change, as it is stored. -/
theorem sync_hlc_emit {db db' : Database} {m : Mutation} {device_id : String}
    (device : db.sync_state.device_id = some device_id) (ok : db.emit m = .ok db') :
    db'.sync_hlc = (db.stamp m.now_millis).stored := by
  obtain ⟨base,e,-,-,rfl⟩ := (emit_ok device).mp ok
  have own : (db.stamp m.now_millis).device_id = db.sync_state.device_id.getD "" := by
    unfold stamp Hlc.tick
    split <;> rfl
  change Hlc.mk (db.stamp m.now_millis).stored.wall_millis (db.stamp m.now_millis).counter
    (db.sync_state.device_id.getD "") = _
  rw [← own]
  unfold Hlc.stored
  split <;> rfl

theorem Ahead.emit {db db' : Database} {m : Mutation} {device_id : String} (ahead : db.Ahead)
    (device : db.sync_state.device_id = some device_id) (fits : (db.stamp m.now_millis).wall_millis.toNat < 2 ^ 63)
    (ok : db.emit m = .ok db') : db'.Ahead := by
  have clock := sync_hlc_emit device ok
  rw [Hlc.stored_eq fits] at clock
  unfold Ahead
  rw [clock]
  obtain ⟨base,e,emitted,-,rfl⟩ := (emit_ok device).mp ok
  exact (ahead.mono (fun c le => le.trans (Hlc.le_tick _ _))).emit_local (Replica.lasting_le _) (Hlc.stored_le _) emitted

variable [Scheduler]

def move (db : Database) : Move → Except StorageError Database
  | .emit m => db.emit m
  | .apply body => do
    let replica ← db.replica.apply_change body
    .ok { db with replica := replica }
  | .observe remote now_millis => .ok (db.observe_remote_hlc remote now_millis)
  | .wait now => .ok { db with replica := { db.replica with now := now } }

def play (db : Database) (moves : List Move) : Except StorageError Database := moves.foldlM move db

/-- A device keeps its identity. -/
theorem move_device {db db' : Database} {mv : Move} {device_id : String}
    (device : db.sync_state.device_id = some device_id) (moved : db.move mv = .ok db') :
    db'.sync_state.device_id = some device_id := by
  cases mv with
  | emit m =>
    obtain ⟨base,e,-,-,rfl⟩ := (emit_ok device).mp moved
    exact device
  | apply body =>
    obtain ⟨replica,-,moved⟩ := bind_ok.mp moved
    obtain rfl := Except.ok.inj moved
    exact device
  | observe remote now_millis =>
    obtain rfl := Except.ok.inj moved
    exact device
  | wait now =>
    obtain rfl := Except.ok.inj moved
    exact device

theorem play_device {db db' : Database} {moves : List Move} {device_id : String}
    (device : db.sync_state.device_id = some device_id) (played : db.play moves = .ok db') :
    db'.sync_state.device_id = some device_id :=
  foldlM_keeps (fun db => db.sync_state.device_id = some device_id) (fun _ _ _ _ => move_device) device played

end
end Database
end Pergamon
