import Pergamon.Moves

/-!
What a change leaves alone. An edit moves rows, stamps and the conflict inbox, and neither
memberships nor edges nor tombstones (`apply_edit_edited`); a delete moves the rows that it
removes, its tombstone and the inbox (`apply_delete_cases`); a change to an edge moves its
membership row and its clocks (`apply_edge_ok`).
-/
namespace Pergamon
open Fallible

namespace Replica

/-- The states differ at most in rows, stamps and the conflict inbox. -/
def Edited (r r' : Replica) : Prop :=
  ∃ tables clocks cs, r' = { r with tables := tables, sync_entity_clock := clocks, sync_conflicts := cs }

namespace Edited
variable {r r' r'' : Replica} {ty : EntityType} {id : String}

theorem rfl' : Edited r r := ⟨_,_,_,rfl⟩

theorem trans (first : Edited r r') (second : Edited r' r'') : Edited r r'' := by
  obtain ⟨tables,clocks,cs,rfl⟩ := first
  obtain ⟨tables',clocks',cs',rfl⟩ := second
  exact ⟨tables',clocks',cs',rfl⟩

theorem of_rowsOnly (only : RowsOnly ty id r r') : Edited r r' := by
  obtain ⟨tables,rfl⟩ := only.rest
  exact ⟨tables,_,_,rfl⟩

theorem set_entity_clock (f : String) (c : Hlc) : Edited r (r.set_entity_clock ty id f c) := ⟨_,_,_,rfl⟩

theorem insert_conflict (f : String) (v : Value) (c : Hlc) : Edited r (r.insert_conflict ty id f v c) := ⟨_,_,_,rfl⟩

theorem edges (edited : Edited r r') (ty : EntityType) (id : String) : r'.set_edge ty id = r.set_edge ty id := by
  obtain ⟨tables,clocks,cs,rfl⟩ := edited
  rfl

theorem tombstones (edited : Edited r r') (ty : EntityType) (id : String) : r'.tombstone ty id = r.tombstone ty id := by
  obtain ⟨tables,clocks,cs,rfl⟩ := edited
  rfl

theorem tags (edited : Edited r r') : r'.content_item_tags = r.content_item_tags := by
  obtain ⟨tables,clocks,cs,rfl⟩ := edited
  rfl

theorem collections (edited : Edited r r') : r'.content_item_collections = r.content_item_collections := by
  obtain ⟨tables,clocks,cs,rfl⟩ := edited
  rfl

theorem now (edited : Edited r r') : r'.now = r.now := by
  obtain ⟨tables,clocks,cs,rfl⟩ := edited
  rfl

end Edited

section
variable [Sqlite] {r r' : Replica} {body : ChangeBody}

theorem merge_one_field_edited {local_fields : Option FieldMap} {field : String × Value}
    (ok : merge_one_field body local_fields r field = .ok r') : Edited r r' := by
  unfold merge_one_field at ok
  simp only at ok
  split at ok
  · obtain rfl := Except.ok.inj ok
    exact .rfl'
  · obtain ⟨w,written,ok⟩ := bind_ok.mp ok
    obtain rfl := Except.ok.inj ok
    exact (Edited.of_rowsOnly (write_rowsOnly (by decide) written)).trans (.set_entity_clock _ _)
  · obtain ⟨w,written,ok⟩ := bind_ok.mp ok
    obtain rfl := Except.ok.inj ok
    exact ((Edited.of_rowsOnly (write_rowsOnly (by decide) written)).trans (.set_entity_clock _ _)).trans
      (.insert_conflict _ _ _)

/-- What merging a field does to its stamp: nothing, or the stamp of the change is put in
    place of an older one, of one without a row, or of the one that the change names as its
    base; or the stamp is stored again. -/
theorem merge_one_field_clocks {local_fields : Option FieldMap} {f : String} {v : Value}
    (ok : merge_one_field body local_fields r (f,v) = .ok r') :
    (∀ ty id g, ¬(ty = body.entity_type ∧ id = body.entity_id ∧ g = f) →
      r'.entity_clock ty id g = r.entity_clock ty id g) ∧
    (r'.entity_clock body.entity_type body.entity_id f = r.entity_clock body.entity_type body.entity_id f ∨
      (r'.entity_clock body.entity_type body.entity_id f = some body.clock.stored ∧ f ∈ allowed_columns body.entity_type ∧
        ∀ held, r.entity_clock body.entity_type body.entity_id f = some held → held < body.clock ∨
          local_fields.bind (fun fields => fields[f]?) = none ∨
          Prose body.entity_type f ∧ body.base_version = some held) ∨
      ∃ held, r.entity_clock body.entity_type body.entity_id f = some held ∧
        r'.entity_clock body.entity_type body.entity_id f = some held.stored) := by
  -- a write and a stamp on the field
  have stamped {w : Replica} {value : Value} (c : Hlc) (written : r.write_one_field body f value = .ok w) (ty : EntityType)
      (id g : String) : (w.set_entity_clock body.entity_type body.entity_id f c).entity_clock ty id g =
        if ty = body.entity_type ∧ id = body.entity_id ∧ g = f then some c.stored else r.entity_clock ty id g := by
    rw [entity_clock_set,(write_rowsOnly (by decide) written).clock]
  have known {w : Replica} {value : Value} (written : r.write_one_field body f value = .ok w) :
      f ∈ allowed_columns body.entity_type := write_known (by decide) written f (mem_one.mpr rfl)
  unfold merge_one_field at ok
  simp only at ok
  split at ok
  · obtain rfl := Except.ok.inj ok
    exact ⟨fun _ _ _ _ => rfl,.inl rfl⟩
  · next takes =>
    obtain ⟨w,written,ok⟩ := bind_ok.mp ok
    obtain rfl := Except.ok.inj ok
    refine ⟨fun ty id g apart => (stamped _ written ty id g).trans (if_neg apart),
      .inr (.inl ⟨(stamped _ written _ _ _).trans (if_pos ⟨rfl,rfl,rfl⟩),known written,?_⟩)⟩
    intro held slot
    cases shown : local_fields.bind (fun fields => fields[f]?) with
    | none => exact .inr (.inl rfl)
    | some value =>
      rw [shown,slot] at takes
      exact (merge_field_takes takes).imp_right .inr
  · next winner winner_clock loser loser_clock copies =>
    obtain ⟨w,written,ok⟩ := bind_ok.mp ok
    obtain rfl := Except.ok.inj ok
    refine ⟨fun ty id g apart => (stamped _ written ty id g).trans (if_neg apart),.inr ?_⟩
    rw [entity_clock_insert_conflict,stamped _ written,if_pos ⟨rfl,rfl,rfl⟩]
    cases shown : local_fields.bind (fun fields => fields[f]?) with
    | none =>
      rw [shown] at copies
      simp at copies
    | some value =>
      cases slot : r.entity_clock body.entity_type body.entity_id f with
      | none =>
        rw [shown,slot] at copies
        simp at copies
      | some c =>
        rw [shown,slot] at copies
        obtain ⟨-,-,⟨newer,-,rfl,-,-⟩ | ⟨-,-,rfl,-,-⟩⟩ := merge_field_copies copies
        · exact .inl ⟨rfl,known written,fun held same => .inl (Option.some.inj same ▸ newer)⟩
        · exact .inr ⟨_,rfl,rfl⟩

theorem apply_field_edited {tombstone : Option Hlc} {local_fields : Option FieldMap} {field : String × Value}
    (ok : apply_field body tombstone local_fields r field = .ok r') : Edited r r' := by
  unfold apply_field at ok
  split at ok
  · split at ok
    · obtain rfl := Except.ok.inj ok
      exact .insert_conflict _ _ _
    · split at ok
      · obtain rfl := Except.ok.inj ok
        exact .rfl'
      · exact merge_one_field_edited ok
  · exact merge_one_field_edited ok

omit [Sqlite] in
/-- What is read of an entity has all its columns. -/
theorem read_known {ty : EntityType} {id f : String} {fields : FieldMap} (shown : r.read_entity_fields ty id = some fields)
    (known : f ∈ allowed_columns ty) : fields[f]? ≠ none := by
  have columned {row : Row} {cols : List String} (inside : f ∈ cols) : (field_map cols row)[f]? ≠ none := by
    simp [inside]
  have plain {t : TableName} {cols : List String} (read : r.read_columns t id cols = some fields) (inside : f ∈ cols) :
      fields[f]? ≠ none := by
    obtain ⟨row,-,rfl⟩ := Option.map_eq_some_iff.mp read
    exact columned inside
  cases ty
  case Highlight =>
    simp only [read_entity_fields,read_highlight] at shown
    split at shown
    · obtain rfl := Option.some.inj shown
      exact columned known
    · cases shown
  case TagEdge | CollectionEdge => cases known
  all_goals exact plain shown known

theorem apply_fields_edited (ok : r.apply_fields body = .ok r') : Edited r r' := by
  have merges {s : Replica} (first : Edited r s) (merged : body.fields.toList.foldlM
      (apply_field body (r.tombstone body.entity_type body.entity_id)
        (r.read_entity_fields body.entity_type body.entity_id)) s = .ok r') : Edited r r' :=
    foldlM_keeps (Edited r) (fun field _ t t' edited taken => edited.trans (apply_field_edited taken)) first merged
  unfold apply_fields at ok
  simp only at ok
  split at ok
  · obtain ⟨w,written,merged⟩ := bind_ok.mp ok
    exact merges (.of_rowsOnly (write_rowsOnly (by decide) written)) merged
  · exact merges .rfl' ok

/-- What a delete leaves, with some conflicts added. -/
theorem apply_delete_cases (ok : r.apply_delete body = .ok r') :
    ∃ cs, r' = { (if r.max_field_clock_dominated body then r.delete_entity_row body.entity_type body.entity_id
      else r).set_tombstone body.entity_type body.entity_id body.clock with sync_conflicts := cs } := by
  obtain ⟨cs,preserved⟩ := preserve_only (r.set_tombstone body.entity_type body.entity_id body.clock) body
  have same : ({ r.set_tombstone body.entity_type body.entity_id body.clock with sync_conflicts := cs } :
      Replica).max_field_clock_dominated body = r.max_field_clock_dominated body := by
    unfold max_field_clock_dominated
    cases body.entity_type <;> rfl
  refine ⟨cs,?_⟩
  simp only [apply_delete,preserved,same] at ok
  split at ok
  · next dominated =>
    rw [if_pos dominated,← delete_entity_row_bookkeeping]
    exact (Except.ok.inj ok).symm
  · next kept =>
    rw [if_neg kept]
    exact (Except.ok.inj ok).symm

variable [Scheduler]

theorem recompute_rest (r : Replica) (card_id : String) :
    ∃ tables, r.recompute_review_card card_id = { r with tables := tables } := by
  unfold recompute_review_card
  split
  · exact ⟨_,rfl⟩
  · split
    · exact ⟨_,rfl⟩
    · exact ⟨_,rfl⟩

/-- A change to a card or a log moves rows only. -/
theorem apply_review_rest (review : body.entity_type = .ReviewCard ∨ body.entity_type = .ReviewLog)
    (edit : body.op ≠ .Delete) (ok : r.apply_change body = .ok r') : ∃ tables, r' = { r with tables := tables } := by
  unfold apply_change at ok
  rcases review with card | log
  · rw [card] at ok
    simp only [if_neg edit,apply_review_card,bind_ok] at ok
    obtain ⟨w,written,ok⟩ := ok
    obtain rfl := Except.ok.inj ok
    obtain ⟨tables,rfl⟩ := (write_rowsOnly (by decide) written).rest
    exact recompute_rest _ _
  · rw [log] at ok
    simp only [if_neg edit,apply_review_log,bind_ok] at ok
    obtain ⟨w,written,ok⟩ := ok
    obtain ⟨tables,rfl⟩ := (write_rowsOnly (by decide) written).rest
    split at ok
    · obtain rfl := Except.ok.inj ok
      exact recompute_rest _ _
    · obtain rfl := Except.ok.inj ok
      exact ⟨_,rfl⟩

/-- A change to any other entity is merged field by field. -/
theorem apply_change_fields (rows : body.entity_type ≠ .TagEdge ∧ body.entity_type ≠ .CollectionEdge)
    (plain : body.entity_type ≠ .ReviewCard ∧ body.entity_type ≠ .ReviewLog) (edit : body.op ≠ .Delete) :
    r.apply_change body = r.apply_fields body := by
  unfold apply_change
  split
  · next tag => exact absurd tag rows.1
  · next collection => exact absurd collection rows.2
  · rw [if_neg edit]
    split
    · next log => exact absurd log plain.2
    · next card => exact absurd card plain.1
    · rfl

/-- Applying an edit of an entity that has rows. -/
theorem apply_edit_edited (rows : body.entity_type ≠ .TagEdge ∧ body.entity_type ≠ .CollectionEdge)
    (edit : body.op ≠ .Delete) (ok : r.apply_change body = .ok r') : Edited r r' := by
  by_cases review : body.entity_type = .ReviewCard ∨ body.entity_type = .ReviewLog
  · obtain ⟨tables,rfl⟩ := apply_review_rest review edit ok
    exact ⟨tables,_,_,rfl⟩
  · rw [apply_change_fields rows (not_or.mp review) edit] at ok
    exact apply_fields_edited ok

/-- Applying a delete of an entity that has rows. -/
theorem apply_change_delete (rows : body.entity_type ≠ .TagEdge ∧ body.entity_type ≠ .CollectionEdge)
    (delete : body.op = .Delete) : r.apply_change body = r.apply_delete body := by
  unfold apply_change
  split
  · next tag => exact absurd tag rows.1
  · next collection => exact absurd collection rows.2
  · rw [if_pos delete]

/-- Applying a change to an edge. -/
theorem apply_change_edge (edge : body.entity_type = .TagEdge ∨ body.entity_type = .CollectionEdge) :
    r.apply_change body = r.apply_edge body := by
  unfold apply_change
  rcases edge with tag | collection
  · rw [tag]
  · rw [collection]

/-! ### Clocks that are held -/

section
variable {p : Hlc → Prop}

omit [Scheduler] in
theorem Every.merge_one_field {local_fields : Option FieldMap} {field : String × Value} (every : Every p r)
    (lasting : Lasting p) (new : p body.clock.stored)
    (ok : Replica.merge_one_field body local_fields r field = .ok r') : Every p r' := by
  obtain ⟨others,own⟩ := merge_one_field_clocks ok
  have edited := merge_one_field_edited ok
  refine ⟨fun ty id g c held => ?_,fun ty id c held => every.tombstones ty id c (by rwa [edited.tombstones] at held),
    fun ty id c held => every.adds ty id c (by rwa [edited.edges] at held),
    fun ty id c held => every.removes ty id c (by rwa [edited.edges] at held)⟩
  by_cases here : ty = body.entity_type ∧ id = body.entity_id ∧ g = field.1
  · obtain ⟨rfl,rfl,rfl⟩ := here
    rcases own with same | ⟨stamped,-⟩ | ⟨slot,before,stored⟩
    · exact every.clocks _ _ _ c (same ▸ held)
    · exact Option.some.inj (stamped.symm.trans held) ▸ new
    · exact Option.some.inj (stored.symm.trans held) ▸ lasting slot (every.clocks _ _ _ slot before)
  · exact every.clocks ty id g c (others ty id g here ▸ held)

omit [Scheduler] in
theorem Every.apply_fields (every : Every p r) (lasting : Lasting p) (new : p body.clock.stored)
    (ok : r.apply_fields body = .ok r') : Every p r' := by
  have step (tombstone : Option Hlc) (local_fields : Option FieldMap) (field : String × Value) (t t' : Replica)
      (every : Every p t) (taken : apply_field body tombstone local_fields t field = .ok t') : Every p t' := by
    unfold apply_field at taken
    split at taken
    · split at taken
      · obtain rfl := Except.ok.inj taken
        exact every.of_same rfl rfl rfl
      · split at taken
        · obtain rfl := Except.ok.inj taken
          exact every
        · exact every.merge_one_field lasting new taken
    · exact every.merge_one_field lasting new taken
  unfold Replica.apply_fields at ok
  simp only at ok
  split at ok
  · obtain ⟨w,written,merged⟩ := bind_ok.mp ok
    obtain ⟨tables,rfl⟩ := (write_rowsOnly (by decide) written).rest
    exact foldlM_keeps (Every p) (fun field _ t t' => step _ _ field t t')
      (every.of_same (w := { r with tables := tables }) rfl rfl rfl) merged
  · exact foldlM_keeps (Every p) (fun field _ t t' => step _ _ field t t') every ok

theorem Every.apply_change (every : Every p r) (lasting : Lasting p) (new : p body.clock.stored)
    (ok : r.apply_change body = .ok r') : Every p r' := by
  by_cases edge : body.entity_type = .TagEdge ∨ body.entity_type = .CollectionEdge
  · rw [apply_change_edge edge] at ok
    obtain ⟨tags,collections,rfl⟩ := apply_edge_membership_rest ok
    exact (every.save_merged _ _ lasting new _).of_same rfl rfl rfl
  · have rows := not_or.mp edge
    by_cases delete : body.op = .Delete
    · rw [apply_change_delete rows delete] at ok
      obtain ⟨cs,rfl⟩ := apply_delete_cases ok
      obtain ⟨tables,tags,collections,same⟩ := delete_entity_row_rest r body.entity_type body.entity_id
      split
      · rw [same]
        exact ((every.of_same (w := { r with tables := tables, content_item_tags := tags, content_item_collections := collections })
          rfl rfl rfl).set_tombstone new).of_same rfl rfl rfl
      · exact (every.set_tombstone new).of_same rfl rfl rfl
    · by_cases review : body.entity_type = .ReviewCard ∨ body.entity_type = .ReviewLog
      · obtain ⟨tables,rfl⟩ := apply_review_rest review delete ok
        exact every.of_same rfl rfl rfl
      · rw [apply_change_fields rows (not_or.mp review) delete] at ok
        exact every.apply_fields lasting new ok

end
end
end Replica
end Pergamon
