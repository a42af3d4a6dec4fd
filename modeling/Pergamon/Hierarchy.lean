import Mathlib.Data.Set.Finite.List
import Pergamon.Effects
import Pergamon.Forest
import Pergamon.Library
import Pergamon.Runs

/-!
The hierarchy of the collections, as the parents in their rows. Moving a collection climbs
from the new parent and refuses where it meets the collection, so a move keeps a forest; the
other statements write whatever parent they are given. Each of them changes the parent of
one collection to the one that it carries, or takes parents away (`Moved`), so a forest stays
one while no parent that is written is the collection or below it, and then every climb comes
to an end (`hierarchy_run`). Two moves that are made at the same time on two devices, each of
which its device allows, leave a cycle on both of them (`concurrent_moves_cycle`).
-/
namespace Pergamon
open Fallible Parents Runs

/-- The parent that a row names. -/
def parentIn (row : Row) : Option String :=
  match row "parent_id" with
  | .Text parent => some parent
  | _ => none

def parentValue (parent : Option String) : Value := parent.elim .Null .Str

/-- What the row of a new collection is given. -/
def Library.Collection.columns (coll : Library.Collection) : FieldMap :=
  (((∅ : FieldMap).insert "name" (.Str coll.name)).insert "parent_id" (parentValue coll.parent_id)).insert "sort_order"
    (.Int coll.sort_order)

namespace Replica

section
variable [Sqlite]

/-- The parent that fields carry. -/
def carried (fields : FieldMap) : Option String := parentIn (assign .collections fields (fun _ => .Null))

theorem carried_columns (coll : Library.Collection) : carried coll.columns = coll.parent_id := by
  have given : coll.columns["parent_id"]? = some (parentValue coll.parent_id) := by
    rw [Library.Collection.columns,Std.ExtTreeMap.getElem?_insert,if_neg (by decide),Std.ExtTreeMap.getElem?_insert_self]
  simp only [carried,parentIn,assign,given]
  cases coll.parent_id <;> rfl

theorem carried_parent (parent : Option String) : carried ((∅ : FieldMap).insert "parent_id" (parentValue parent)) = parent := by
  simp only [carried,parentIn,assign,Std.ExtTreeMap.getElem?_insert_self]
  cases parent <;> rfl

/-- After an assignment a row names the parent that it named, or the one that is carried. -/
theorem parentIn_assign {fields : FieldMap} {row : Row} {parent : String}
    (names : parentIn (assign .collections fields row) = some parent) : parentIn row = some parent ∨ carried fields = some parent := by
  simp only [carried,parentIn,assign] at names ⊢
  cases given : fields["parent_id"]? with
  | none => exact .inl (by simpa [given] using names)
  | some v => exact .inr (by simpa [given] using names)

end

/-- The parent of a collection. -/
def parent_of (r : Replica) (id : String) : Option String := (r.row .collections id).bind parentIn

theorem parent_of_set_row (r : Replica) (id other : String) (row : Row) :
    (r.set_row .collections id row).parent_of other = if other = id then parentIn row else r.parent_of other := by
  unfold parent_of
  rw [row_set_row]
  by_cases here : other = id <;> simp [here]

theorem parents_finite (r : Replica) : {id | r.parent_of id ≠ none}.Finite := by
  refine (List.finite_toSet (r.tables .collections).keys).subset (fun id named => ?_)
  change id ∈ (r.tables .collections).keys
  rw [Std.ExtTreeMap.mem_keys,Std.ExtTreeMap.mem_iff_isSome_getElem?]
  cases held : (r.tables .collections)[id]? with
  | none => exact absurd (by simp [parent_of,row,held]) named
  | some row => rfl

/-- Collections keep their parents or lose them, except one that may get the given one. -/
structure Moved (id : String) (new : Option String) (r r' : Replica) : Prop where
  others : ∀ other, other ≠ id → ∀ parent, r'.parent_of other = some parent → r.parent_of other = some parent
  own : ∀ parent, r'.parent_of id = some parent → r.parent_of id = some parent ∨ new = some parent

namespace Moved
variable {id : String} {new : Option String} {r r' r'' : Replica}

theorem of_same (same : r'.parent_of = r.parent_of) : Moved id new r r' :=
  ⟨fun _ _ _ named => same ▸ named,fun _ named => .inl (same ▸ named)⟩

theorem trans (first : Moved id new r r') (second : Moved id new r' r'') : Moved id new r r'' := by
  refine ⟨fun other apart parent named => first.others other apart parent (second.others other apart parent named),?_⟩
  intro parent named
  rcases second.own parent named with before | carries
  · exact first.own parent before
  · exact .inr carries

theorem of_lost (moved : Moved id none r r') : Moved id new r r' :=
  ⟨moved.others,fun parent named => .inl ((moved.own parent named).resolve_right nofun)⟩

theorem set_row {row : Row} (names : ∀ parent, parentIn row = some parent → r.parent_of id = some parent ∨ new = some parent) :
    Moved id new r (r.set_row .collections id row) := by
  refine ⟨fun other apart parent named => ?_,fun parent named => ?_⟩
  · rwa [parent_of_set_row,if_neg apart] at named
  · rw [parent_of_set_row,if_pos rfl] at named
    exact names parent named

theorem delete_row (r : Replica) (id id' : String) : Moved id' new r (r.delete_row .collections id) := by
  have lost (other parent : String) (named : (r.delete_row .collections id).parent_of other = some parent) :
      r.parent_of other = some parent := by
    unfold Replica.delete_row at named
    split at named
    · exact named
    simp only [parent_of,row,tables_without,Std.ExtTreeMap.getElem?_map,Std.ExtTreeMap.getElem?_erase] at named ⊢
    split at named
    · cases named
    cases held : (r.tables .collections)[other]? with
    | none => simp [held] at named
    | some row =>
      simp only [held,Option.map_some,Option.bind_some,parentIn,clear_reference] at named ⊢
      by_cases cleared : row "parent_id" = .Text id
      · simp [cleared] at named
      · simpa [cleared] using named
  exact ⟨fun other _ => lost other,fun parent named => .inl (lost id' parent named)⟩

/-- A forest stays one where the new parent is not below the collection that gets it. -/
theorem forest (moved : Moved id new r r') (forest : Forest r.parent_of)
    (apart : ∀ parent, new = some parent → ¬ Within r.parent_of parent id) : Forest r'.parent_of :=
  forest.of_moved moved.others (fun parent named => (moved.own parent named).imp_right (apart parent))

end Moved

/-! ### The statements -/

section
variable [Sqlite] {id : String} {fields : FieldMap} {r r' : Replica}

/-- Insert a new collection. The trigger asks for a filter iff the collection is smart. -/
def insert_collection (r : Replica) (coll : Library.Collection) : Except StorageError Replica :=
  let row := new_row r.now .collections (given_values coll.columns [])
  if coll.is_smart = coll.filter_query.isSome ∧ row_admitted .collections row ∧ (r.row .collections coll.id).isNone then
    r.insert_new .collections coll.id row
  else .error .Sqlite

/-- `UPDATE collections SET parent_id`. -/
def set_parent (r : Replica) (id : String) (parent : Option String) : Except StorageError Replica :=
  match r.row .collections id with
  | none => .error (.NotFound "collection" id)
  | some row => r.update_row .collections id row ((∅ : FieldMap).insert "parent_id" (parentValue parent))

/-- Move a collection to a new parent; `none` while the walk over the ancestors of the new
    parent goes on. -/
def move_collection (r : Replica) (fuel : ℕ) (id : String) (new_parent_id : Option String) :
    Option (Except StorageError Replica) :=
  match new_parent_id with
  | some parent =>
    if parent = id then some (.error (.Generic "cannot move a collection under itself"))
    else (climb r.parent_of id fuel parent).map (fun meets =>
      if meets then .error (.Generic "cannot move a collection under one of its descendants")
      else r.set_parent id new_parent_id)
  | none => some (r.set_parent id none)

def delete_collection (r : Replica) (id : String) : Replica := r.delete_row .collections id

theorem parentIn_shown (r : Replica) (id : String) : parentIn (r.shownRow .collections id COLLECTION_DEFAULTS) = r.parent_of id := by
  cases held : r.row .collections id with
  | some row => rw [shownRow_some held,parent_of,held,Option.bind_some]
  | none =>
    rw [shownRow_none held,parent_of,held]
    rfl

theorem insert_moves {coll : Library.Collection} (ok : r.insert_collection coll = .ok r') : Moved coll.id coll.parent_id r r' := by
  unfold insert_collection at ok
  obtain ⟨-,inserted⟩ := if_ok.mp ok
  obtain ⟨-,-,rfl⟩ := insert_new_ok.mp inserted
  refine Moved.set_row (fun parent names => .inr ?_)
  have known : ∀ f ∈ coll.columns, ∃ c ∈ Pergamon.columns .collections, c.name = f := by
    intro f given
    simp only [Library.Collection.columns,Std.ExtTreeMap.mem_insert,Std.ExtTreeMap.not_mem_empty,compare_eq_iff_eq,or_false] at given
    rcases given with rfl | rfl | rfl <;> decide
  rw [new_row_eq known] at names
  rcases parentIn_assign names with blank | carries
  · cases blank
  · rwa [carried_columns] at carries

theorem set_parent_moves {parent : Option String} (ok : r.set_parent id parent = .ok r') : Moved id parent r r' := by
  unfold set_parent at ok
  split at ok
  · cases ok
  next row held =>
  rw [(update_row_ok.mp ok).2]
  refine Moved.set_row (fun p names => ?_)
  rw [← carried_parent parent,parent_of,held]
  exact parentIn_assign names

/-- The climb before a move sees to it that the new parent is not below the collection. -/
theorem move_moves {fuel : ℕ} {parent : Option String} (ok : r.move_collection fuel id parent = some (.ok r')) :
    Moved id parent r r' ∧ ∀ p, parent = some p → ¬ Within r.parent_of p id := by
  unfold move_collection at ok
  cases parent with
  | none => exact ⟨set_parent_moves (Option.some.inj ok),nofun⟩
  | some p =>
    simp only at ok
    split at ok
    · cases ok
    next other =>
    obtain ⟨meets,climbed,ok⟩ := Option.map_eq_some_iff.mp ok
    cases meets with
    | true => cases ok
    | false =>
      refine ⟨set_parent_moves ok,?_⟩
      rintro _ ⟨⟩ within
      rcases Relation.reflTransGen_iff_eq_or_transGen.mp within with same | below
      · exact other same.symm
      · exact climb_missed climbed below

/-- In a forest a move comes to an end. -/
theorem move_returns (forest : Forest r.parent_of) (id : String) (parent : Option String) :
    ∃ fuel result, r.move_collection fuel id parent = some result := by
  cases parent with
  | none => exact ⟨0,_,rfl⟩
  | some p =>
    obtain ⟨fuel,meets,climbed⟩ := forest.climbs r.parents_finite id p
    cases returned : r.move_collection fuel id (some p) with
    | some result => exact ⟨fuel,result,returned⟩
    | none =>
      rw [move_collection,climbed] at returned
      by_cases same : p = id <;> simp [same] at returned

theorem write_moves {op : Op} (edit : op ≠ .Delete) (ok : r.write_entity_fields .Collection id fields op = .ok r') :
    Moved id (carried fields) r r' := by
  obtain ⟨-,rfl⟩ := write_single_ok (t := .collections) rfl edit ok
  refine Moved.set_row (fun parent names => ?_)
  rw [← parentIn_shown]
  exact parentIn_assign names

/-- Writing another field than the parent moves no collection. -/
theorem write_other_moves {f : String} {v : Value} (other : f ≠ "parent_id")
    (ok : r.write_entity_fields .Collection id ((∅ : FieldMap).insert f v) .FieldPatch = .ok r') : Moved id none r r' := by
  have moved := write_moves (by decide) ok
  have nothing : carried ((∅ : FieldMap).insert f v) = none := by
    simp only [carried,parentIn,assign_one,if_neg (Ne.symm other)]
  rwa [nothing] at moved

/-! ### Changes -/

/-- A change whose parent is not taken: the row is there and its stamp is not older, or a
    later delete has been seen. -/
def Outdated (r : Replica) (body : ChangeBody) : Prop :=
  ((r.row .collections body.entity_id).isSome ∧
    ∃ held, r.entity_clock .Collection body.entity_id "parent_id" = some held ∧ ¬ held < body.clock) ∨
  ∃ dead, r.tombstone .Collection body.entity_id = some dead ∧ dead > body.clock

variable {body : ChangeBody}

omit [Sqlite] in
theorem no_prose (f : String) : ¬ Prose .Collection f := by
  simp [Prose,strategy_for]

/-- What merging one field does to the parents, and to the stamp of the parent. -/
theorem merge_one_field_moves {local_fields : Option FieldMap} {f : String} {v : Value} (collection : body.entity_type = .Collection)
    (ok : merge_one_field body local_fields r (f,v) = .ok r') :
    r' = r ∨ ∃ w, r.write_one_field body f v = .ok w ∧ r' = w.set_entity_clock .Collection body.entity_id f body.clock ∧
      ∀ value held, local_fields.bind (fun fields => fields[f]?) = some value →
        r.entity_clock .Collection body.entity_id f = some held → held < body.clock := by
  unfold merge_one_field at ok
  rw [collection] at ok
  simp only [strategy_for,merge_field,merge_lww] at ok
  split at ok
  · exact .inl (Except.ok.inj ok).symm
  · next takes =>
    obtain ⟨w,written,ok⟩ := bind_ok.mp ok
    refine .inr ⟨w,written,(Except.ok.inj ok).symm,fun value held shown slot => ?_⟩
    rw [shown,slot] at takes
    simp only at takes
    split at takes
    · next newer => exact newer
    · cases takes
  · next copies =>
    split at copies
    · cases copies
    · split at copies <;> cases copies

theorem merge_one_field_carries {local_fields : Option FieldMap} {f : String} {v : Value} (collection : body.entity_type = .Collection)
    (given : body.fields[f]? = some v) (ok : merge_one_field body local_fields r (f,v) = .ok r') :
    Moved body.entity_id (carried body.fields) r r' := by
  rcases merge_one_field_moves collection ok with rfl | ⟨w,written,rfl,-⟩
  · exact .of_same rfl
  unfold write_one_field at written
  rw [collection] at written
  suffices before : Moved body.entity_id (carried body.fields) r w from before.trans (.of_same rfl)
  by_cases here : f = "parent_id"
  · subst here
    have moved := write_moves (by decide) written
    have same : carried ((∅ : FieldMap).insert "parent_id" v) = carried body.fields := by
      simp only [carried,parentIn,assign,given,Std.ExtTreeMap.getElem?_insert_self]
    rwa [same] at moved
  · exact (write_other_moves here written).of_lost

/-- Where the stamp that the row has for its parent is not older, no field of the change moves it. -/
theorem merge_one_field_stale {local_fields : FieldMap} {f : String} {v : Value} {held : Hlc} (collection : body.entity_type = .Collection)
    (shown : (local_fields["parent_id"]?).isSome) (slot : r.entity_clock .Collection body.entity_id "parent_id" = some held)
    (stale : ¬ held < body.clock) (ok : merge_one_field body (some local_fields) r (f,v) = .ok r') :
    Moved body.entity_id none r r' ∧ r'.entity_clock .Collection body.entity_id "parent_id" = some held := by
  rcases merge_one_field_moves collection ok with rfl | ⟨w,written,rfl,newer⟩
  · exact ⟨.of_same rfl,slot⟩
  obtain ⟨value,shown⟩ := Option.isSome_iff_exists.mp shown
  have other : f ≠ "parent_id" := by
    rintro rfl
    exact stale (newer value held shown slot)
  unfold write_one_field at written
  rw [collection] at written
  refine ⟨(write_other_moves other written).trans (.of_same rfl),?_⟩
  rw [entity_clock_set,if_neg (fun same => other same.2.2.symm),(write_rowsOnly (by decide) written).clock]
  exact slot

theorem apply_fields_moves (collection : body.entity_type = .Collection) (ok : r.apply_fields body = .ok r') :
    Moved body.entity_id (carried body.fields) r r' := by
  have merges {s : Replica} {tombstone : Option Hlc} {local_fields : Option FieldMap}
      (first : Moved body.entity_id (carried body.fields) r s)
      (merged : body.fields.toList.foldlM (apply_field body tombstone local_fields) s = .ok r') :
      Moved body.entity_id (carried body.fields) r r' := by
    refine foldlM_keeps _ (fun field given t t' moved taken => moved.trans ?_) first merged
    have carries := mem_toList.mp (show (field.1,field.2) ∈ body.fields.toList from given)
    unfold apply_field at taken
    split at taken
    · split at taken
      · next prose => exact absurd (collection ▸ prose) (no_prose field.1)
      · split at taken
        · obtain rfl := Except.ok.inj taken
          exact .of_same rfl
        · exact merge_one_field_carries collection carries taken
    · exact merge_one_field_carries collection carries taken
  unfold apply_fields at ok
  simp only at ok
  split at ok
  · obtain ⟨w,written,merged⟩ := bind_ok.mp ok
    rw [collection] at written
    exact merges (write_moves (by decide) written) merged
  · exact merges (.of_same rfl) ok

/-- An outdated change moves no collection. -/
theorem apply_fields_outdated (collection : body.entity_type = .Collection) (outdated : r.Outdated body)
    (ok : r.apply_fields body = .ok r') : Moved body.entity_id none r r' := by
  unfold apply_fields at ok
  simp only at ok
  rcases outdated with ⟨there,held,slot,stale⟩ | ⟨dead,killed,later⟩
  · obtain ⟨row,there⟩ := Option.isSome_iff_exists.mp there
    have read : r.read_entity_fields body.entity_type body.entity_id = some (field_map COLLECTION_COLS row) := by
      rw [collection,read_single (t := .collections) rfl,there]
      rfl
    have shown : ((field_map COLLECTION_COLS row)["parent_id"]?).isSome := by
      rw [field_map_get,if_pos (by decide)]
      rfl
    rw [read,if_neg (by simp)] at ok
    refine (foldlM_keeps (fun s => Moved body.entity_id none r s ∧
      s.entity_clock .Collection body.entity_id "parent_id" = some held) (fun field _ t t' kept taken => ?_) ⟨.of_same rfl,slot⟩ ok).1
    have merged (taken : merge_one_field body (some (field_map COLLECTION_COLS row)) t field = .ok t') :
        Moved body.entity_id none r t' ∧ t'.entity_clock .Collection body.entity_id "parent_id" = some held := by
      obtain ⟨moved,slot⟩ := merge_one_field_stale (f := field.1) (v := field.2) collection shown kept.2 stale taken
      exact ⟨kept.1.trans moved,slot⟩
    unfold apply_field at taken
    split at taken
    · split at taken
      · next prose => exact absurd (collection ▸ prose) (no_prose field.1)
      · split at taken
        · obtain rfl := Except.ok.inj taken
          exact kept
        · exact merged taken
    · exact merged taken
  · rw [collection,killed,if_neg (by simp)] at ok
    refine foldlM_keeps _ (fun field _ t t' kept taken => ?_) (Moved.of_same rfl) ok
    unfold apply_field at taken
    simp only at taken
    split at taken
    · next prose => exact absurd (collection ▸ prose) (no_prose field.1)
    · obtain rfl := Except.ok.inj taken
      exact kept

variable [Scheduler]

/-- What a change of a collection that is applied does to the parents. -/
theorem apply_change_moves (collection : body.entity_type = .Collection) (ok : r.apply_change body = .ok r') :
    Moved body.entity_id none r r' ∨
      body.op ≠ .Delete ∧ ¬ r.Outdated body ∧ Moved body.entity_id (carried body.fields) r r' := by
  have rows : body.entity_type ≠ .TagEdge ∧ body.entity_type ≠ .CollectionEdge := by
    rw [collection]
    decide
  by_cases delete : body.op = .Delete
  · left
    rw [apply_change_delete rows delete] at ok
    obtain ⟨cs,rfl⟩ := apply_delete_cases ok
    split
    · rw [collection]
      exact (Moved.delete_row r body.entity_id body.entity_id).trans (.of_same rfl)
    · exact .of_same rfl
  · have review : body.entity_type ≠ .ReviewCard ∧ body.entity_type ≠ .ReviewLog := by
      rw [collection]
      decide
    rw [apply_change_fields rows review delete] at ok
    by_cases outdated : r.Outdated body
    · exact .inl (apply_fields_outdated collection outdated ok)
    · exact .inr ⟨delete,outdated,apply_fields_moves collection ok⟩

end

end Replica
/-! ### Runs -/

/-- What is done to the collections of one device: the statements of the library, and the
    changes that are made there or come from other devices. Between two calls, the time that
    column defaults read may pass. -/
inductive CollectionCall where
  | insert (coll : Library.Collection)
  | move (fuel : ℕ) (id : String) (new_parent_id : Option String)
  | delete (id : String)
  | emit (m : Mutation) (collection : m.entity_type = .Collection)
  | apply (body : ChangeBody) (collection : body.entity_type = .Collection)
  | wait (now : String)

namespace CollectionCall
section
variable [Sqlite]

/-- What a statement leaves; it leaves everything where it fails. -/
def store (db : Database) (result : Except StorageError Replica) : Database :=
  match result with
  | .ok r => { db with replica := r }
  | .error _ => db

omit [Sqlite] in
theorem store_cases (db : Database) (result : Except StorageError Replica) :
    store db result = db ∨ ∃ r, result = .ok r ∧ (store db result).replica = r := by
  cases result with
  | ok r => exact .inr ⟨r,rfl,rfl⟩
  | error e => exact .inl rfl

variable [Scheduler]

/-- A call that fails, or a move that does not return, leaves the database. -/
def perform (db : Database) : CollectionCall → Database
  | .insert coll => store db (db.replica.insert_collection coll)
  | .move fuel id new_parent_id =>
    match db.replica.move_collection fuel id new_parent_id with
    | some result => store db result
    | none => db
  | .delete id => store db (.ok (db.replica.delete_collection id))
  | .emit m _ =>
    match db.emit m with
    | .ok db' => db'
    | .error _ => db
  | .apply body _ => store db (db.replica.apply_change body)
  | .wait now => { db with replica := { db.replica with now := now } }

/-- A parent that a call is about to write is neither the collection nor below it. A move
    sees to that itself. -/
def Fits (db : Database) : CollectionCall → Prop
  | .insert coll => ∀ parent, coll.parent_id = some parent → ¬ Within db.replica.parent_of parent coll.id
  | .emit m _ => m.op ≠ .Delete → ∀ parent, Replica.carried m.fields = some parent → ¬ Within db.replica.parent_of parent m.entity_id
  | .apply body _ => body.op ≠ .Delete → ¬ db.replica.Outdated body →
    ∀ parent, Replica.carried body.fields = some parent → ¬ Within db.replica.parent_of parent body.entity_id
  | _ => True

omit [Scheduler] in
/-- What a change of a collection that is made on the device does to the parents. -/
theorem emit_moves {db db' : Database} {m : Mutation} (collection : m.entity_type = .Collection) (ok : db.emit m = .ok db') :
    Replica.Moved m.entity_id (if m.op = .Delete then none else Replica.carried m.fields) db.replica db'.replica := by
  -- what the canonical write does
  have written {w : Replica} (wrote : db.replica.write_entity_fields .Collection m.entity_id m.fields m.op = .ok w) :
      Replica.Moved m.entity_id (if m.op = .Delete then none else Replica.carried m.fields) db.replica w := by
    by_cases delete : m.op = .Delete
    · rw [if_pos delete]
      unfold Replica.write_entity_fields at wrote
      rw [if_pos delete] at wrote
      obtain rfl := Except.ok.inj wrote
      exact .delete_row db.replica m.entity_id m.entity_id
    · rw [if_neg delete]
      exact Replica.write_moves delete wrote
  cases device : db.sync_state.device_id with
  | none =>
    unfold Database.emit Database.emit_change at ok
    rw [device,collection] at ok
    simp only [bind_ok,Prod.exists,Except.ok.injEq,Prod.mk.injEq] at ok
    obtain ⟨sent,db'',⟨w,wrote,rfl,rfl⟩,rfl⟩ := ok
    exact written wrote
  | some device_id =>
    obtain ⟨base,e,emitted,-,rfl⟩ := (Database.emit_ok device).mp ok
    rw [collection] at emitted
    by_cases delete : m.op = .Delete
    · rw [delete] at emitted
      obtain ⟨-,rfl⟩ := Replica.emit_local_delete (by decide) emitted
      rw [if_pos delete]
      exact (Replica.Moved.delete_row db.replica m.entity_id m.entity_id).trans (.of_same rfl)
    · obtain ⟨-,w,wrote,rfl⟩ := Replica.emit_local_edit (by decide) delete emitted
      refine (written wrote).trans (.of_same ?_)
      funext other
      simp [Replica.parent_of]

/-- A call that fits keeps a forest. -/
theorem perform_forest {db : Database} {call : CollectionCall} (forest : Forest db.replica.parent_of) (fits : Fits db call) :
    Forest (perform db call).replica.parent_of := by
  have stored {result : Except StorageError Replica} (moves : ∀ r, result = .ok r → Forest r.parent_of) :
      Forest (store db result).replica.parent_of := by
    rcases store_cases db result with same | ⟨r,done,left⟩
    · rwa [same]
    · rw [left]
      exact moves r done
  cases call with
  | insert coll => exact stored (fun r inserted => (Replica.insert_moves inserted).forest forest fits)
  | move fuel id new_parent_id =>
    cases returned : db.replica.move_collection fuel id new_parent_id with
    | none => simpa only [perform,returned] using forest
    | some result =>
      simp only [perform,returned]
      refine stored (fun r moved => ?_)
      obtain ⟨moves,apart⟩ := Replica.move_moves (moved ▸ returned)
      exact moves.forest forest apart
  | delete id =>
    refine stored (fun r deleted => ?_)
    obtain rfl := Except.ok.inj deleted
    have moved : Replica.Moved id none db.replica _ := Replica.Moved.delete_row db.replica id id
    exact moved.forest forest nofun
  | emit m collection =>
    cases emitted : db.emit m with
    | error e => simpa only [perform,emitted] using forest
    | ok db' =>
      simp only [perform,emitted]
      refine (emit_moves collection emitted).forest forest (fun parent new => ?_)
      split at new
      · cases new
      · next edit => exact fits edit parent new
  | apply body collection =>
    refine stored (fun r applied => ?_)
    rcases Replica.apply_change_moves collection applied with moved | ⟨edit,current,moved⟩
    · exact moved.forest forest nofun
    · exact moved.forest forest (fits edit current)
  | wait now => exact forest

/-- The collections are a forest and every move returns. -/
def Sound (db : Database) : Prop :=
  Forest db.replica.parent_of ∧ ∀ id new_parent_id, ∃ fuel result, db.replica.move_collection fuel id new_parent_id = some result

/-- While the calls fit, the collections stay a forest, where every move returns. -/
theorem hierarchy_run {db : Database} (forest : Forest db.replica.parent_of) {calls : List CollectionCall}
    (fits : Along perform Fits db calls) : Along perform (fun db call => Sound db ∧ Sound (perform db call)) db calls := by
  have sound {db : Database} (forest : Forest db.replica.parent_of) : Sound db := ⟨forest,Replica.move_returns forest⟩
  refine Along.of_keeps (fun db _ => Forest db.replica.parent_of) (fun db call rest forest fits => ?_) forest fits
  have after := perform_forest forest fits
  exact ⟨⟨sound forest,sound after⟩,after⟩

end

/-! ### Two moves at the same time -/

section
attribute [local instance] plainSqlite plainScheduler

/-- A collection is created. -/
def created (id : String) (now_millis : UInt64) : Mutation :=
  ⟨id ++ " new",.Collection,id,.Upsert,(∅ : FieldMap).insert "name" (.Str id),[],now_millis⟩

/-- A collection is put under another one. -/
def put_under (id parent : String) (now_millis : UInt64) : Mutation :=
  ⟨id ++ " moved",.Collection,id,.FieldPatch,(∅ : FieldMap).insert "parent_id" (.Str parent),[],now_millis⟩

/-- The phone creates two collections. -/
def shelves : List CollectionCall := [.emit (created "A" 1) rfl,.emit (created "B" 2) rfl]

/-- The tablet has them from the phone. -/
def shelves_synced : List CollectionCall :=
  [.apply ((created "A" 1).body ⟨1,0,"phone"⟩ none) rfl,.apply ((created "B" 2).body ⟨2,0,"phone"⟩ none) rfl]

/-- The phone moves one of them under the other, which its hierarchy allows. -/
def on_phone : List CollectionCall := shelves ++ [.move 1 "A" (some "B"),.emit (put_under "A" "B" 3) rfl]

/-- Meanwhile the tablet moves the other one under the first. -/
def on_tablet : List CollectionCall := shelves_synced ++ [.move 1 "B" (some "A"),.emit (put_under "B" "A" 4) rfl]

def phone : Database := on_phone.foldl perform (.fresh "phone")
def tablet : Database := on_tablet.foldl perform (.fresh "tablet")

/-- The devices exchange what they have emitted. -/
def phone_synced : Database := perform phone (.apply ((put_under "B" "A" 4).body ⟨4,0,"tablet"⟩ none) rfl)
def tablet_synced : Database := perform tablet (.apply ((put_under "A" "B" 3).body ⟨3,0,"phone"⟩ none) rfl)

theorem cycle_of_parents {parent : String → Option String} (up : parent "A" = some "B") (down : parent "B" = some "A") :
    ¬ Forest parent :=
  fun forest => forest "A" (.head up (.single down))

/-- A collection, one under it, and the way back up refused. -/
def nested : List CollectionCall :=
  [.insert ⟨"A","A",none,0,false,none⟩,.insert ⟨"B","B",some "A",0,false,none⟩,.move 1 "A" (some "B")]

theorem hierarchy_run_nested : Along perform (fun db call => Sound db ∧ Sound (perform db call)) (Database.fresh "phone") nested := by
  have start : Forest (Database.fresh "phone").replica.parent_of := by
    have nothing : (Database.fresh "phone").replica.parent_of = fun _ => none := by
      funext id
      simp [Replica.parent_of,Replica.row,Database.fresh,Replica.empty]
    rw [nothing]
    exact forest_none
  refine hierarchy_run start ⟨(fun parent none_named => by cases none_named),?_,trivial,trivial⟩
  rintro parent ⟨⟩ within
  have root : (perform (Database.fresh "phone") (.insert ⟨"A","A",none,0,false,none⟩)).replica.parent_of "A" = none := by
    decide +kernel
  rcases within.cases_head with same | ⟨b,step,-⟩
  · exact absurd same (by decide)
  · cases root.symm.trans step

/-- Each device makes a move that its hierarchy allows and sends it; then both have a cycle,
    and a move of any collection under one of the two does not return. -/
theorem concurrent_moves_cycle :
    (phone.sync_outbox.map OutboxRow.body).getLast? = some ((put_under "A" "B" 3).body ⟨3,0,"phone"⟩ none) ∧
    (tablet.sync_outbox.map OutboxRow.body).getLast? = some ((put_under "B" "A" 4).body ⟨4,0,"tablet"⟩ none) ∧
    ¬ Forest phone_synced.replica.parent_of ∧ ¬ Forest tablet_synced.replica.parent_of ∧
    ∀ fuel, phone_synced.replica.move_collection fuel "C" (some "A") = none := by
  have up : phone_synced.replica.parent_of "A" = some "B" := by decide +kernel
  have down : phone_synced.replica.parent_of "B" = some "A" := by decide +kernel
  refine ⟨rfl,rfl,cycle_of_parents up down,cycle_of_parents (by decide +kernel) (by decide +kernel),fun fuel => ?_⟩
  have forever : climb phone_synced.replica.parent_of "C" fuel "A" = none := by
    have closed : ∀ a ∈ ({"A","B"} : Set String), ∃ b ∈ ({"A","B"} : Set String), phone_synced.replica.parent_of a = some b := by
      rintro a (rfl | rfl)
      · exact ⟨"B",by simp,up⟩
      · exact ⟨"A",by simp,down⟩
    exact climb_forever closed (by decide) (by decide) fuel
  rw [Replica.move_collection]
  simp [forever]

end
end CollectionCall
end Pergamon
