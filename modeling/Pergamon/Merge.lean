import Pergamon.Hlc
import Pergamon.Value

/-!
The decrypted body of one synced change and the policy that merges it into the
local state: which strategy governs a field (`strategy_for`), the merge of one
field (`merge_field`) and of one member of an observed-remove set
(`merge_set_member`).
-/
namespace Pergamon

/-- The class of entity a change targets. -/
inductive EntityType where
  | Document
  | Tag
  | Collection
  | TagEdge
  | CollectionEdge
  | Highlight
  | Note
  | ReviewCard
  | ReviewLog
  | FeedSubscription
  | Settings
  deriving DecidableEq

/-- The kind of mutation a change represents. -/
inductive Op where
  | Upsert
  | Delete
  | FieldPatch
  deriving DecidableEq

/-- How to locate and decrypt a blob that a change references. -/
structure BlobManifestEntry where
  ct_hash : String
  role : String
  plaintext_hash : String
  plaintext_len : UInt64
  deriving DecidableEq

/-- The decrypted body of one sync event. -/
structure ChangeBody where
  entity_type : EntityType
  entity_id : String
  op : Op
  clock : Hlc
  base_version : Option Hlc
  fields : FieldMap
  blob_manifest : List BlobManifestEntry

inductive ConflictStrategy where
  | Lww
  | SetUnionTombstone
  | DerivedMerge
  | ConflictCopy
  deriving DecidableEq

/-- The strategy that governs a field of an entity. -/
def strategy_for (entity : EntityType) (field : String) : ConflictStrategy :=
  match entity with
  | .Document =>
    if field = "content_text" ∨ field = "body" ∨ field = "notes" then .ConflictCopy else .Lww
  | .Tag | .Collection => .Lww
  | .TagEdge | .CollectionEdge => .SetUnionTombstone
  | .Highlight => if field = "note" then .ConflictCopy else .Lww
  | .Note => if field = "body" then .ConflictCopy else .Lww
  | .ReviewCard => if field = "enabled" then .Lww else .DerivedMerge
  | .ReviewLog => .Lww
  | .FeedSubscription | .Settings => .Lww

/-- A field of authored prose, the only kind that is ever kept as a conflict copy. -/
abbrev Prose (entity : EntityType) (field : String) : Prop := strategy_for entity field = .ConflictCopy

/-- The inputs to the merge of one field. -/
structure FieldMerge where
  /-- The local value and the stamp that last wrote it, if the field exists. -/
  local_state : Option (Value × Hlc)
  incoming_value : Value
  incoming_clock : Hlc
  base_version : Option Hlc

inductive MergeDecision where
  | KeepLocal
  | TakeIncoming
  | ConflictCopy (winner : Value) (winner_clock : Hlc) (loser : Value) (loser_clock : Hlc)
  deriving DecidableEq

/-- Take the incoming value iff its clock is greater than the local one, or the
    field does not exist locally. -/
def merge_lww (m : FieldMerge) : MergeDecision :=
  match m.local_state with
  | none => .TakeIncoming
  | some (_,local_clock) => if m.incoming_clock > local_clock then .TakeIncoming else .KeepLocal

/-- Keep the winner live and the loser as a conflict copy, unless the values agree
    or the writer edited the version held here. -/
def merge_conflict_copy (m : FieldMerge) : MergeDecision :=
  match m.local_state with
  | none => .TakeIncoming
  | some (local_value,local_clock) =>
    if local_value = m.incoming_value then
      if m.incoming_clock > local_clock then .TakeIncoming else .KeepLocal
    else if m.base_version = some local_clock then .TakeIncoming
    else if m.incoming_clock > local_clock then
      .ConflictCopy m.incoming_value m.incoming_clock local_value local_clock
    else .ConflictCopy local_value local_clock m.incoming_value m.incoming_clock

def merge_field (strategy : ConflictStrategy) (m : FieldMerge) : MergeDecision :=
  match strategy with
  | .ConflictCopy => merge_conflict_copy m
  | _ => merge_lww m

/-- A field that does not exist locally takes the incoming value. -/
@[simp] theorem merge_field_absent (strategy : ConflictStrategy) (v : Value) (c : Hlc) (base : Option Hlc) :
    merge_field strategy ⟨none,v,c,base⟩ = .TakeIncoming := by
  cases strategy <;> rfl

/-- A field that exists locally takes the incoming value iff its clock is beaten,
    where the writer observed an earlier version than its own. -/
theorem merge_field_held (strategy : ConflictStrategy) (held v : Value) (c clock : Hlc) (base : Option Hlc)
    (causal : ∀ b, base = some b → b < clock) :
    (c < clock ∧ merge_field strategy ⟨some (held,c),v,clock,base⟩ = .TakeIncoming) ∨
    (c < clock ∧ strategy = .ConflictCopy ∧
      merge_field strategy ⟨some (held,c),v,clock,base⟩ = .ConflictCopy v clock held c) ∨
    (¬c < clock ∧ merge_field strategy ⟨some (held,c),v,clock,base⟩ = .KeepLocal) ∨
    (¬c < clock ∧ strategy = .ConflictCopy ∧
      merge_field strategy ⟨some (held,c),v,clock,base⟩ = .ConflictCopy held c v clock) := by
  by_cases copies : strategy = .ConflictCopy
  · subst copies
    by_cases newer : c < clock
    · by_cases settled : held = v ∨ base = some c
      · rcases settled with same | same <;> simp [merge_field,merge_conflict_copy,same,newer]
      · rw [not_or] at settled
        simp [merge_field,merge_conflict_copy,settled.1,settled.2,newer]
    · have unobserved : base ≠ some c := fun same => newer (causal c same)
      by_cases same : held = v <;> simp [merge_field,merge_conflict_copy,same,unobserved,newer]
  · have lww : merge_field strategy ⟨some (held,c),v,clock,base⟩ =
        if clock > c then .TakeIncoming else .KeepLocal := by
      cases strategy <;> simp [merge_field,merge_lww] at copies ⊢
    by_cases newer : c < clock <;> simp [lww,newer]

/-- A field that exists locally takes the incoming value if its clock is beaten, or if it is
    prose and the writer edited the version held here. -/
theorem merge_field_takes {strategy : ConflictStrategy} {held v : Value} {c clock : Hlc} {base : Option Hlc}
    (takes : merge_field strategy ⟨some (held,c),v,clock,base⟩ = .TakeIncoming) :
    c < clock ∨ strategy = .ConflictCopy ∧ base = some c := by
  by_cases copies : strategy = .ConflictCopy
  · subst copies
    simp only [merge_field,merge_conflict_copy] at takes
    split at takes
    · split at takes
      · next newer => exact .inl newer
      · cases takes
    · split at takes
      · next observed => exact .inr ⟨rfl,observed⟩
      · split at takes <;> cases takes
  · have lww : merge_field strategy ⟨some (held,c),v,clock,base⟩ = merge_lww ⟨some (held,c),v,clock,base⟩ := by
      cases strategy <;> first | rfl | exact absurd rfl copies
    rw [lww,merge_lww] at takes
    simp only at takes
    split at takes
    · next newer => exact .inl newer
    · cases takes

/-- The winner of a conflict is the incoming value, if the local clock is beaten, or the local one. -/
theorem merge_field_copies {strategy : ConflictStrategy} {held v winner loser : Value} {c clock winner_clock loser_clock : Hlc}
    {base : Option Hlc} (copies : merge_field strategy ⟨some (held,c),v,clock,base⟩ =
      .ConflictCopy winner winner_clock loser loser_clock) :
    strategy = .ConflictCopy ∧ base ≠ some c ∧
      ((c < clock ∧ winner = v ∧ winner_clock = clock ∧ loser = held ∧ loser_clock = c) ∨
        (¬c < clock ∧ winner = held ∧ winner_clock = c ∧ loser = v ∧ loser_clock = clock)) := by
  by_cases prose : strategy = .ConflictCopy
  · subst prose
    simp only [merge_field,merge_conflict_copy] at copies
    split at copies
    · split at copies <;> cases copies
    · split at copies
      · cases copies
      · next unobserved =>
        split at copies
        · next newer =>
          cases copies
          exact ⟨rfl,unobserved,.inl ⟨newer,rfl,rfl,rfl,rfl⟩⟩
        · next older =>
          cases copies
          exact ⟨rfl,unobserved,.inr ⟨older,rfl,rfl,rfl,rfl⟩⟩
  · have lww : merge_field strategy ⟨some (held,c),v,clock,base⟩ = merge_lww ⟨some (held,c),v,clock,base⟩ := by
      cases strategy <;> first | rfl | exact absurd rfl prose
    rw [lww,merge_lww] at copies
    simp only at copies
    split at copies <;> cases copies

/-- The greatest add and the greatest remove seen for a membership edge. -/
structure SetMember where
  add_clock : Option Hlc
  remove_clock : Option Hlc
  deriving DecidableEq

def SetMember.is_present (m : SetMember) : Bool :=
  match m.add_clock,m.remove_clock with
  | none,_ => false
  | some _,none => true
  | some add,some remove => decide (add > remove)

/-- One slot of a member after a stamp is folded in: the greater one stays. -/
def merge_slot (slot : Option Hlc) (incoming_clock : Hlc) : Option Hlc :=
  match slot with
  | some existing => if incoming_clock ≤ existing then slot else some incoming_clock
  | none => some incoming_clock

structure SetMergeOutcome where
  member : SetMember
  present : Bool

/-- Fold a membership add or remove into a member's state. -/
def merge_set_member (local_member : SetMember) (incoming_is_add : Bool) (incoming_clock : Hlc) :
    SetMergeOutcome :=
  let member : SetMember :=
    if incoming_is_add then { local_member with add_clock := merge_slot local_member.add_clock incoming_clock }
    else { local_member with remove_clock := merge_slot local_member.remove_clock incoming_clock }
  ⟨member,member.is_present⟩

end Pergamon
