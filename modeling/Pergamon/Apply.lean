import Pergamon.Fields

/-!
Applying a decrypted change to the local state through the merge policy: edges
fold into their observed-remove state, deletes leave a tombstone and remove the
row that they dominate, review logs are appended and their card recomputed, and
every other change is merged field by field.
-/
namespace Pergamon
namespace Replica

section
variable [Sqlite]

/-- Apply a membership edge add or remove. -/
def apply_edge (r : Replica) (body : ChangeBody) : Except StorageError Replica :=
  let is_add := ((body.fields["present"]?).bind Value.as_bool).getD (decide (body.op ≠ .Delete))
  let outcome := merge_set_member (r.set_edge body.entity_type body.entity_id) is_add body.clock
  (r.save_set_edge body.entity_type body.entity_id outcome.member).apply_edge_membership body.entity_type
    body.entity_id outcome.present

/-- The delete observed this clock iff its base version is at least the clock. -/
def observed (base_version : Option Hlc) (clock : Hlc) : Bool :=
  match base_version with
  | some base => decide (clock ≤ base)
  | none => false

/-- Keep one field in the conflict inbox, if it is prose that the delete did not observe. -/
def preserve_field (body : ChangeBody) (r : Replica) (field : String × Value) : Replica :=
  if Prose body.entity_type field.1 then
    match r.entity_clock body.entity_type body.entity_id field.1 with
    | some clock =>
      if observed body.base_version clock then r
      else r.insert_conflict body.entity_type body.entity_id field.1 field.2 clock
    | none => r
  else r

/-- Record every authored-prose field whose value the delete did not observe. -/
def preserve_unobserved_prose (r : Replica) (body : ChangeBody) : Replica :=
  match r.read_entity_fields body.entity_type body.entity_id with
  | some fields => fields.toList.foldl (preserve_field body) r
  | none => r

/-- No field other than prose was written after the delete. -/
def max_field_clock_dominated (r : Replica) (body : ChangeBody) : Bool :=
  match r.read_entity_fields body.entity_type body.entity_id with
  | some fields => fields.toList.all (fun field =>
      decide (Prose body.entity_type field.1) ||
        match r.entity_clock body.entity_type body.entity_id field.1 with
        | some clock => !decide (clock > body.clock)
        | none => true)
  | none => true

/-- Apply a delete. -/
def apply_delete (r : Replica) (body : ChangeBody) : Except StorageError Replica :=
  let r := (r.set_tombstone body.entity_type body.entity_id body.clock).preserve_unobserved_prose body
  if r.max_field_clock_dominated body then
    r.write_entity_fields body.entity_type body.entity_id ∅ .Delete
  else .ok r

/-- Write a single resolved field into its typed table. -/
def write_one_field (r : Replica) (body : ChangeBody) (field : String) (value : Value) :
    Except StorageError Replica :=
  r.write_entity_fields body.entity_type body.entity_id ((∅ : FieldMap).insert field value) .FieldPatch

/-- Merge one field of a change into the local state. -/
def merge_one_field (body : ChangeBody) (local_fields : Option FieldMap) (r : Replica)
    (field : String × Value) : Except StorageError Replica :=
  let local_value := local_fields.bind (fun fields => fields[field.1]?)
  let local_clock := r.entity_clock body.entity_type body.entity_id field.1
  let local_state :=
    match local_value,local_clock with
    | some v,some c => some (v,c)
    | _,_ => none
  match merge_field (strategy_for body.entity_type field.1) ⟨local_state,field.2,body.clock,body.base_version⟩ with
  | .KeepLocal => .ok r
  | .TakeIncoming => do
    let r ← r.write_one_field body field.1 field.2
    .ok (r.set_entity_clock body.entity_type body.entity_id field.1 body.clock)
  | .ConflictCopy winner winner_clock loser loser_clock => do
    let r ← r.write_one_field body field.1 winner
    .ok ((r.set_entity_clock body.entity_type body.entity_id field.1 winner_clock).insert_conflict
      body.entity_type body.entity_id field.1 loser loser_clock)

/-- Apply one field of a change. On a tombstoned entity, prose goes to the conflict
    inbox and a field that the delete dominates is dropped. -/
def apply_field (body : ChangeBody) (tombstone : Option Hlc) (local_fields : Option FieldMap) (r : Replica)
    (field : String × Value) : Except StorageError Replica :=
  match tombstone with
  | some dead =>
    if Prose body.entity_type field.1 then
      .ok (r.insert_conflict body.entity_type body.entity_id field.1 field.2 body.clock)
    else if dead > body.clock then .ok r
    else merge_one_field body local_fields r field
  | none => merge_one_field body local_fields r field

/-- Apply a normal per-field change. A missing row that no delete has killed is
    inserted in one shot before its fields are merged. -/
def apply_fields (r : Replica) (body : ChangeBody) : Except StorageError Replica := do
  let tombstone := r.tombstone body.entity_type body.entity_id
  let local_fields := r.read_entity_fields body.entity_type body.entity_id
  let r ←
    if local_fields.isNone ∧ tombstone.isNone then
      r.write_entity_fields body.entity_type body.entity_id body.fields .Upsert
    else .ok r
  body.fields.toList.foldlM (apply_field body tombstone local_fields) r

variable [Scheduler]

/-- Append a review log and recompute its card. -/
def apply_review_log (r : Replica) (body : ChangeBody) : Except StorageError Replica := do
  let r ← r.write_entity_fields body.entity_type body.entity_id body.fields .Upsert
  let card_id :=
    match (body.fields["card_id"]?).bind Value.as_str with
    | some id => some id
    | none => r.review_log_card_id body.entity_id
  match card_id with
  | some card_id => .ok (r.recompute_review_card card_id)
  | none => .ok r

/-- Write a review card and derive its schedule again. -/
def apply_review_card (r : Replica) (body : ChangeBody) : Except StorageError Replica := do
  let r ← r.write_entity_fields body.entity_type body.entity_id body.fields .Upsert
  .ok (r.recompute_review_card body.entity_id)

/-- Apply one decrypted change to the local state. -/
def apply_change (r : Replica) (body : ChangeBody) : Except StorageError Replica :=
  match body.entity_type with
  | .TagEdge | .CollectionEdge => r.apply_edge body
  | ty =>
    if body.op = .Delete then r.apply_delete body
    else
      match ty with
      | .ReviewLog => r.apply_review_log body
      | .ReviewCard => r.apply_review_card body
      | _ => r.apply_fields body

end
end Replica
end Pergamon
