import Pergamon.Apply
import Pergamon.Newest

/-!
Entities that one table keeps. Merging a change into such an entity is merging
each of its fields into a last-writer-wins register (`merge_one_field_ok`,
`apply_fields_ok`): whatever branch the conflict policy goes through, a field takes
the value and the clock of the change iff the entity is missing or the change beats
the field's clock. Nothing else moves but the inbox (`OnlyAt`).
-/
namespace Pergamon
open Fallible Newest

/-- The table of an entity that one table keeps. -/
def tableOf : EntityType → Option TableName
  | .Document => some .content_items
  | .Tag => some .tags
  | .Collection => some .collections
  | .Note => some .notes
  | .FeedSubscription => some .feeds
  | .Settings => some .settings
  | _ => none

/-- The values that its inserts give to columns that the change leaves out. -/
def defaultsOf : EntityType → List (String × String)
  | .Document => DOCUMENT_DEFAULTS
  | .Tag => TAG_DEFAULTS
  | .Collection => COLLECTION_DEFAULTS
  | .Note => NOTE_DEFAULTS
  | .FeedSubscription => FEED_DEFAULTS
  | .Settings => SETTINGS_DEFAULTS
  | _ => []

section
variable {ty ty' : EntityType} {t : TableName} {id f : String}

/-- The entities that one table keeps, with their tables. -/
inductive OneTable : EntityType → TableName → Prop
  | Document : OneTable .Document .content_items
  | Tag : OneTable .Tag .tags
  | Collection : OneTable .Collection .collections
  | Note : OneTable .Note .notes
  | FeedSubscription : OneTable .FeedSubscription .feeds
  | Settings : OneTable .Settings .settings

theorem one_table (single : tableOf ty = some t) : OneTable ty t := by
  cases ty <;> cases single <;> constructor

theorem tableOf_injective (single : tableOf ty = some t) (other : tableOf ty' = some t) : ty = ty' := by
  cases one_table single <;> cases one_table other <;> rfl

theorem known_columns (single : tableOf ty = some t) : ∀ f ∈ allowed_columns ty, ∃ c ∈ columns t, c.name = f := by
  cases one_table single <;> decide

/-- Authored prose is kept in text columns. -/
theorem prose_text (single : tableOf ty = some t) :
    ∀ f ∈ allowed_columns ty, Prose ty f → affinity_of t f = .TEXT := by
  cases one_table single <;> decide

theorem read_single (single : tableOf ty = some t) (r : Replica) (id : String) :
    r.read_entity_fields ty id = (r.row t id).map (field_map (allowed_columns ty)) := by
  cases one_table single <;> rfl

theorem delete_single (single : tableOf ty = some t) (r : Replica) (id : String) :
    r.delete_entity_row ty id = r.delete_row t id := by
  cases one_table single <;> rfl

end

namespace Replica

/-- The states differ at most in one entity and in the conflict inbox. -/
structure OnlyAt (ty : EntityType) (t : TableName) (id : String) (r r' : Replica) : Prop where
  rows : ∀ t' id', ¬(t' = t ∧ id' = id) → r'.row t' id' = r.row t' id'
  clocks : ∀ ty' id' f, ¬(ty' = ty ∧ id' = id) → r'.entity_clock ty' id' f = r.entity_clock ty' id' f
  tombstones : r'.sync_tombstones = r.sync_tombstones
  edges : r'.sync_set_edge = r.sync_set_edge
  tags : r'.content_item_tags = r.content_item_tags
  collections : r'.content_item_collections = r.content_item_collections
  now : r'.now = r.now

namespace OnlyAt

variable {ty : EntityType} {t : TableName} {id : String} {r r' r'' : Replica}

theorem rfl' : OnlyAt ty t id r r :=
  ⟨fun _ _ _ => rfl,fun _ _ _ _ => rfl,rfl,rfl,rfl,rfl,rfl⟩

theorem trans (first : OnlyAt ty t id r r') (second : OnlyAt ty t id r' r'') : OnlyAt ty t id r r'' where
  rows t' id' apart := (second.rows t' id' apart).trans (first.rows t' id' apart)
  clocks ty' id' f apart := (second.clocks ty' id' f apart).trans (first.clocks ty' id' f apart)
  tombstones := second.tombstones.trans first.tombstones
  edges := second.edges.trans first.edges
  tags := second.tags.trans first.tags
  collections := second.collections.trans first.collections
  now := second.now.trans first.now

theorem set_row (row : Row) : OnlyAt ty t id r (r.set_row t id row) :=
  ⟨fun t' id' apart => by simp [row_set_row,apart],fun _ _ _ _ => rfl,rfl,rfl,rfl,rfl,rfl⟩

theorem set_entity_clock (f : String) (c : Hlc) : OnlyAt ty t id r (r.set_entity_clock ty id f c) := by
  refine ⟨fun _ _ _ => rfl,fun ty' id' f' apart => ?_,rfl,rfl,rfl,rfl,rfl⟩
  rw [entity_clock_set,if_neg (fun same => apart ⟨same.1,same.2.1⟩)]

theorem insert_conflict (ty' : EntityType) (id' f : String) (v : Value) (c : Hlc) :
    OnlyAt ty t id r (r.insert_conflict ty' id' f v c) :=
  ⟨fun _ _ _ => rfl,fun _ _ _ _ => rfl,rfl,rfl,rfl,rfl,rfl⟩

variable {ty' : EntityType} {t' : TableName} {id' : String}

theorem shownRow [Sqlite] (only : OnlyAt ty t id r r') (apart : ¬(t' = t ∧ id' = id))
    (defaults : List (String × String)) : r'.shownRow t' id' defaults = r.shownRow t' id' defaults := by
  simp [Replica.shownRow,only.rows t' id' apart,only.now]

theorem tombstone (only : OnlyAt ty t id r r') : r'.tombstone ty' id' = r.tombstone ty' id' :=
  congrFun (congrFun only.tombstones ty') id'

end OnlyAt

section
variable [Sqlite] {ty : EntityType} {t : TableName} {id f : String}

theorem assign_one (t : TableName) (f g : String) (v : Value) (row : Row) :
    assign t ((∅ : FieldMap).insert f v) row g =
      if g = f then coerce (affinity_of t f) (json_to_sql v) else row g := by
  unfold assign
  by_cases here : g = f
  · subst here; simp
  · simp [here,Ne.symm here]

theorem write_single_ok {r r' : Replica} {fields : FieldMap} {op : Op} (single : tableOf ty = some t)
    (edit : op ≠ .Delete) (ok : r.write_entity_fields ty id fields op = .ok r') :
    (∀ f ∈ fields, f ∈ allowed_columns ty) ∧
      r' = r.set_row t id (assign t fields (r.shownRow t id (defaultsOf ty))) := by
  unfold write_entity_fields at ok
  rw [if_neg edit,bind_ok] at ok
  obtain ⟨⟨⟩,known,ok⟩ := ok
  rw [reject_unknown_columns_ok] at known
  refine ⟨known,upsert_single_ok (fun f given => known_columns single f (known f given)) ?_⟩
  cases one_table single <;> exact ok

/-- A write to a missing row inserts it. -/
theorem write_single_missing {r r' : Replica} {fields : FieldMap} {op : Op} (single : tableOf ty = some t)
    (edit : op ≠ .Delete) (missing : r.row t id = none) (ok : r.write_entity_fields ty id fields op = .ok r') :
    r.insert_new t id (assign t fields (blankRow r.now t (defaultsOf ty))) = .ok r' := by
  unfold write_entity_fields at ok
  rw [if_neg edit,bind_ok] at ok
  obtain ⟨⟨⟩,known,ok⟩ := ok
  rw [reject_unknown_columns_ok] at known
  have upserted : r.upsert_single t id fields (defaultsOf ty) = .ok r' := by
    cases one_table single <;> exact ok
  rw [← new_row_eq (fun f given => known_columns single f (known f given))]
  have inserted : r.insert_or_nothing t id (new_row r.now t (given_values fields (defaultsOf ty))) = .ok r' := by
    unfold upsert_single at upserted
    simpa [missing] using upserted
  rw [insert_or_nothing_ok] at inserted
  simpa [missing] using inserted.2

theorem write_one_field_ok {r r' : Replica} {body : ChangeBody} {v : Value}
    (single : tableOf body.entity_type = some t) (ok : r.write_one_field body f v = .ok r') :
    f ∈ allowed_columns body.entity_type ∧ r' = r.set_row t body.entity_id
      (assign t ((∅ : FieldMap).insert f v) (r.shownRow t body.entity_id (defaultsOf body.entity_type))) := by
  obtain ⟨known,written⟩ := write_single_ok single (by decide) ok
  exact ⟨known f (by simp),written⟩

/-- What an entity holds in a field: the value in its row and the clock. -/
def register (r : Replica) (ty : EntityType) (t : TableName) (id f : String) : SqlValue × Option Hlc :=
  (r.shownRow t id (defaultsOf ty) f,r.entity_clock ty id f)

/-- A step that sets one register of an entity, whose row is there afterwards. -/
structure Sets (ty : EntityType) (t : TableName) (id f : String) (x : SqlValue × Option Hlc) (r r' : Replica) :
    Prop where
  known : f ∈ allowed_columns ty
  only : OnlyAt ty t id r r'
  there : (r'.row t id).isSome
  registers : r'.register ty t id = Function.update (r.register ty t id) f x

theorem Sets.insert_conflict {ty' : EntityType} {x : SqlValue × Option Hlc} {r r' : Replica}
    (sets : Sets ty' t id f x r r') (f' : String) (v : Value) (c : Hlc) :
    Sets ty' t id f x r (r'.insert_conflict ty' id f' v c) :=
  ⟨sets.known,sets.only.trans (OnlyAt.insert_conflict ty' id f' v c),sets.there,sets.registers⟩

/-- Writing one field and stamping it. -/
theorem write_and_stamp {r w : Replica} {body : ChangeBody} {v : Value} (c : Hlc)
    (single : tableOf body.entity_type = some t) (written : r.write_one_field body f v = .ok w) :
    Sets body.entity_type t body.entity_id f (coerce (affinity_of t f) (json_to_sql v),some c.stored) r
      (w.set_entity_clock body.entity_type body.entity_id f c) := by
  obtain ⟨known,rfl⟩ := write_one_field_ok single written
  refine ⟨known,(OnlyAt.set_row _).trans (OnlyAt.set_entity_clock f c),by simp,?_⟩
  funext g
  by_cases here : g = f
  · subst here
    simp [register,shownRow,assign_one]
  · simp [register,shownRow,assign_one,entity_clock_set,here]

/-- The local fields that a merge was given show what the row holds in one field. -/
def Shows (ty : EntityType) (t : TableName) (id : String) (local_fields : Option FieldMap) (r : Replica)
    (f : String) : Prop :=
  ∀ fields, local_fields = some fields → ∃ seen row, fields = field_map (allowed_columns ty) seen ∧
    r.row t id = some row ∧ row f = seen f

/-- A register whose clock is as the database keeps it and whose value, where it is
    prose, is one that a text column holds. -/
structure Kept (ty : EntityType) (t : TableName) (f : String) (reg : SqlValue × Option Hlc) : Prop where
  clock : ∀ c, reg.2 = some c → c.stored = c
  text : Prose ty f → f ∈ allowed_columns ty → ∃ w, reg.1 = coerce .TEXT w

/-- A change takes a field: the entity is missing, or the field's clock is beaten. -/
def Takes (local_fields : Option FieldMap) (body : ChangeBody) (slot : Option Hlc) : Prop :=
  local_fields = none ∨ Beats body.clock slot

instance (local_fields : Option FieldMap) (body : ChangeBody) (slot : Option Hlc) :
    Decidable (Takes local_fields body slot) :=
  inferInstanceAs (Decidable (_ ∨ _))

/-- A change that was made after the version it observed and whose clock fits the
    signed column. -/
structure Causal (body : ChangeBody) : Prop where
  base : ∀ base, body.base_version = some base → base < body.clock
  fits : body.clock.stored = body.clock

/-- A register after a change that carries the value was merged into it. -/
def merged (t : TableName) (local_fields : Option FieldMap) (body : ChangeBody) (f : String) (v : Value)
    (reg : SqlValue × Option Hlc) : SqlValue × Option Hlc :=
  if Takes local_fields body reg.2 then (coerce (affinity_of t f) (json_to_sql v),some body.clock) else reg

@[simp] theorem merged_missing (t : TableName) (body : ChangeBody) (f : String) (v : Value)
    (reg : SqlValue × Option Hlc) :
    merged t none body f v reg = (coerce (affinity_of t f) (json_to_sql v),some body.clock) :=
  if_pos (.inl rfl)

/-- Merging one field is merging it into its register. -/
theorem merge_one_field_ok {r r' : Replica} {body : ChangeBody} {local_fields : Option FieldMap} {v : Value}
    (single : tableOf body.entity_type = some t) (causal : Causal body)
    (shown : Shows body.entity_type t body.entity_id local_fields r f)
    (kept : Kept body.entity_type t f (r.register body.entity_type t body.entity_id f))
    (ok : merge_one_field body local_fields r (f,v) = .ok r') :
    Sets body.entity_type t body.entity_id f
      (merged t local_fields body f v (r.register body.entity_type t body.entity_id f)) r r' := by
  -- the branches that write the incoming value
  have taken : ∀ w, r.write_one_field body f v = .ok w →
      Takes local_fields body (r.entity_clock body.entity_type body.entity_id f) →
      Sets body.entity_type t body.entity_id f
        (merged t local_fields body f v (r.register body.entity_type t body.entity_id f)) r
        (w.set_entity_clock body.entity_type body.entity_id f body.clock) := by
    intro w written takes
    have sets := write_and_stamp body.clock single written
    rw [causal.fits] at sets
    rw [merged,register,if_pos takes]
    exact sets
  unfold merge_one_field at ok
  cases local_fields with
  | none =>
    simp only [Option.bind_none,merge_field_absent,bind_ok,Except.ok.injEq] at ok
    obtain ⟨w,written,rfl⟩ := ok
    exact taken w written (.inl rfl)
  | some fields =>
    obtain ⟨seen,row,rfl,held,same⟩ := shown fields rfl
    by_cases known : f ∈ allowed_columns body.entity_type
    swap
    · -- an unknown field has no local value, and its write fails
      simp only [Option.bind_some,field_map_get,if_neg known,merge_field_absent,bind_ok] at ok
      obtain ⟨w,written,-⟩ := ok
      exact absurd (write_one_field_ok single written).1 known
    simp only [Option.bind_some,field_map_get,if_pos known] at ok
    cases slot : r.entity_clock body.entity_type body.entity_id f with
    | none =>
      simp only [slot,merge_field_absent,bind_ok,Except.ok.injEq] at ok
      obtain ⟨w,written,rfl⟩ := ok
      exact taken w written (.inr (by simp [slot]))
    | some c =>
      simp only [slot] at ok
      have lost (older : ¬c < body.clock) :
          merged t (some (field_map (allowed_columns body.entity_type) seen)) body f v
              (r.register body.entity_type t body.entity_id f) =
            r.register body.entity_type t body.entity_id f := by
        rw [merged,if_neg]
        simp [Takes,register,slot,older]
      rcases merge_field_held (strategy_for body.entity_type f) (sql_to_json (seen f)) v c body.clock
        body.base_version causal.base with ⟨newer,take⟩ | ⟨newer,-,copy⟩ | ⟨older,keep⟩ | ⟨older,prose,copy⟩
      · simp only [take,bind_ok,Except.ok.injEq] at ok
        obtain ⟨w,written,rfl⟩ := ok
        exact taken w written (.inr (by simpa [slot] using newer))
      · simp only [copy,bind_ok,Except.ok.injEq] at ok
        obtain ⟨w,written,rfl⟩ := ok
        exact (taken w written (.inr (by simpa [slot] using newer))).insert_conflict f _ c
      · simp only [keep,Except.ok.injEq] at ok
        subst ok
        rw [lost older]
        exact ⟨known,OnlyAt.rfl',by simp [held],(Function.update_eq_self f _).symm⟩
      · -- the local value is written back as it was read
        simp only [copy,bind_ok,Except.ok.injEq] at ok
        obtain ⟨w,written,rfl⟩ := ok
        obtain ⟨text,value⟩ := kept.text prose known
        have back : (coerce (affinity_of t f) (json_to_sql (sql_to_json (seen f))),some c.stored) =
            r.register body.entity_type t body.entity_id f := by
          simp only [register,shownRow_some held] at value ⊢
          rw [← same,value,prose_text single f known prose,coerce_text_read,kept.clock c slot,slot]
        rw [lost older,← back]
        exact (write_and_stamp c single written).insert_conflict f v body.clock

/-- What merging some fields of a change leaves: their registers merged. -/
structure Merges (ty : EntityType) (t : TableName) (local_fields : Option FieldMap) (body : ChangeBody)
    (l : List (String × Value)) (r r' : Replica) : Prop where
  known : ∀ field ∈ l, field.1 ∈ allowed_columns ty
  only : OnlyAt ty t body.entity_id r r'
  carried : ∀ g v, (g,v) ∈ l →
    r'.register ty t body.entity_id g = merged t local_fields body g v (r.register ty t body.entity_id g)
  other : ∀ g, (∀ v, (g,v) ∉ l) → r'.register ty t body.entity_id g = r.register ty t body.entity_id g

/-- A loop that merges some fields of a list, and at most adds to the inbox for the
    others, merges each of the former into its register. -/
theorem merge_fields_ok {body : ChangeBody} {local_fields : Option FieldMap}
    {step : Replica → String × Value → Except StorageError Replica} {p : String × Value → Bool}
    {l : List (String × Value)} {r r' : Replica} (single : tableOf body.entity_type = some t) (causal : Causal body)
    (merging : ∀ field ∈ l, p field → ∀ s, step s field = merge_one_field body local_fields s field)
    (skipping : ∀ field ∈ l, ¬p field → ∀ s, ∃ cs, step s field = .ok { s with sync_conflicts := cs })
    (distinct : l.Pairwise (fun a b => a.1 ≠ b.1))
    (shown : ∀ field ∈ l, Shows body.entity_type t body.entity_id local_fields r field.1)
    (kept : ∀ field ∈ l, Kept body.entity_type t field.1 (r.register body.entity_type t body.entity_id field.1))
    (ok : l.foldlM step r = .ok r') :
    Merges body.entity_type t local_fields body (l.filter p) r r' ∧
      ((r'.row t body.entity_id).isSome ↔ (r.row t body.entity_id).isSome ∨ l.filter p ≠ []) := by
  induction l generalizing r with
  | nil =>
    obtain rfl := foldlM_nil_ok.mp ok
    exact ⟨⟨by simp,OnlyAt.rfl',by simp,fun _ _ => rfl⟩,by simp⟩
  | cons field l ih =>
    obtain ⟨f,v⟩ := field
    obtain ⟨s,first,rest⟩ := foldlM_cons_ok.mp ok
    obtain ⟨apart,distinct⟩ := List.pairwise_cons.mp distinct
    have ih := ih (r := s) (fun field inside => merging field (.tail _ inside))
      (fun field inside => skipping field (.tail _ inside)) distinct
    by_cases chosen : p (f,v)
    · rw [merging _ (.head _) chosen] at first
      have sets := merge_one_field_ok single causal (shown _ (.head _)) (kept _ (.head _)) first
      have unset : ∀ g, g ≠ f → s.register body.entity_type t body.entity_id g =
          r.register body.entity_type t body.entity_id g := by
        intro g different
        rw [sets.registers,Function.update_of_ne different]
      rw [List.filter_cons_of_pos chosen]
      have result := ih ?_ ?_ rest
      · obtain ⟨merges,there⟩ := result
        refine ⟨⟨?_,sets.only.trans merges.only,?_,?_⟩,by simp [there,sets.there]⟩
        · rintro field (_ | ⟨_,inside⟩)
          · exact sets.known
          · exact merges.known field inside
        · rintro g w (_ | ⟨_,inside⟩)
          · rw [merges.other f (fun w inside => apart _ (List.mem_of_mem_filter inside) rfl),sets.registers,
              Function.update_self]
          · rw [merges.carried g w inside,unset g (Ne.symm (apart _ (List.mem_of_mem_filter inside)))]
        · intro g absent
          rw [merges.other g (fun w inside => absent w (.tail _ inside)),
            unset g (fun same => absent v (by simp [same]))]
      · intro field inside fields locals
        obtain ⟨seen,row,rfl,held,same⟩ := shown field (.tail _ inside) fields locals
        obtain ⟨row',held'⟩ := Option.isSome_iff_exists.mp sets.there
        refine ⟨seen,row',rfl,held',?_⟩
        have kept := congrArg Prod.fst (unset field.1 (Ne.symm (apart field inside)))
        simp only [register,shownRow_some held,shownRow_some held'] at kept
        rw [kept,same]
      · intro field inside
        rw [unset field.1 (Ne.symm (apart field inside))]
        exact kept field (.tail _ inside)
    · -- the inbox aside, the state is the one before
      obtain ⟨cs,skipped⟩ := skipping _ (.head _) chosen r
      rw [skipped,Except.ok.injEq] at first
      subst first
      rw [List.filter_cons_of_neg chosen]
      obtain ⟨merges,there⟩ := ih (fun field inside => shown field (.tail _ inside))
        (fun field inside => kept field (.tail _ inside)) rest
      have only : OnlyAt body.entity_type t body.entity_id r { r with sync_conflicts := cs } :=
        ⟨fun _ _ _ => rfl,fun _ _ _ _ => rfl,rfl,rfl,rfl,rfl,rfl⟩
      exact ⟨⟨merges.known,only.trans merges.only,merges.carried,merges.other⟩,there⟩

/-- A change to an entity that no delete has killed: the row is there afterwards,
    and each field of the change is merged into its register. -/
theorem apply_fields_live {body : ChangeBody} {r r' : Replica} (single : tableOf body.entity_type = some t)
    (causal : Causal body) (alive : r.tombstone body.entity_type body.entity_id = none)
    (kept : ∀ f ∈ body.fields, Kept body.entity_type t f (r.register body.entity_type t body.entity_id f))
    (ok : r.apply_fields body = .ok r') :
    Merges body.entity_type t (r.read_entity_fields body.entity_type body.entity_id) body body.fields.toList r r' ∧
      (r'.row t body.entity_id).isSome := by
  have loop := @merge_fields_ok _ t body (r.read_entity_fields body.entity_type body.entity_id)
    (apply_field body none (r.read_entity_fields body.entity_type body.entity_id)) (fun _ => true)
    body.fields.toList
  simp only [apply_fields,alive,read_single single,Option.isNone_none,and_true,List.filter_true] at loop ok ⊢
  cases held : r.row t body.entity_id with
  | some row =>
    simp only [held,Option.map_some,Option.isNone_some,Bool.false_eq_true,if_false] at loop ok ⊢
    have result := loop single causal (fun _ _ _ _ => rfl) (by simp) (toList_distinct _) ?_
      (fun field inside => kept _ (mem_fields.mpr ⟨_,inside⟩)) ok
    · exact ⟨result.1,result.2.mpr (.inl (by simp [held]))⟩
    · rintro field - _ ⟨⟩
      exact ⟨row,row,rfl,held,rfl⟩
  | none =>
    simp only [held,Option.map_none,Option.isNone_none,if_true,bind_ok] at loop ok ⊢
    obtain ⟨s,first,rest⟩ := ok
    obtain ⟨known,rfl⟩ := write_single_ok single (by decide) first
    have result := loop single causal (fun _ _ _ _ => rfl) (by simp) (toList_distinct _) (by rintro _ _ _ ⟨⟩) ?_ rest
    · obtain ⟨merges,there⟩ := result
      refine ⟨⟨merges.known,(OnlyAt.set_row _).trans merges.only,?_,?_⟩,there.mpr (.inl (by simp))⟩
      · intro g v inside
        rw [merges.carried g v inside,merged_missing,merged_missing]
      · intro g absent
        have missing : body.fields[g]? = none :=
          Option.eq_none_iff_forall_ne_some.mpr (fun v given => absent v (mem_toList.mpr given))
        rw [merges.other g absent]
        simp [register,shownRow,assign,missing]
    · -- the values that the insert has just written
      intro field inside
      have given := mem_toList.mp inside
      obtain ⟨clock,-⟩ := kept field.1 (mem_fields.mpr ⟨_,inside⟩)
      refine ⟨clock,fun prose allowed => ⟨json_to_sql field.2,?_⟩⟩
      simp [register,shownRow,assign,given,prose_text single field.1 allowed prose]

/-- The fields of a change that it merges into an entity killed at the given clock. -/
def surviving (body : ChangeBody) (dead : Hlc) : List (String × Value) :=
  body.fields.toList.filter (fun field => !decide (Prose body.entity_type field.1) && !decide (dead > body.clock))

omit [Sqlite] in
theorem mem_surviving {body : ChangeBody} {dead : Hlc} {f : String} {v : Value} :
    (f,v) ∈ surviving body dead ↔
      body.fields[f]? = some v ∧ ¬Prose body.entity_type f ∧ ¬body.clock < dead := by
  simp [surviving]

/-- A change to an entity that a delete has killed: each field that is not prose is
    merged into its register, unless the delete dominates the change. -/
theorem apply_fields_dead {body : ChangeBody} {dead : Hlc} {r r' : Replica}
    (single : tableOf body.entity_type = some t) (causal : Causal body)
    (killed : r.tombstone body.entity_type body.entity_id = some dead)
    (kept : ∀ f ∈ body.fields, Kept body.entity_type t f (r.register body.entity_type t body.entity_id f))
    (ok : r.apply_fields body = .ok r') :
    Merges body.entity_type t (r.read_entity_fields body.entity_type body.entity_id) body (surviving body dead) r r' ∧
      ((r'.row t body.entity_id).isSome ↔ (r.row t body.entity_id).isSome ∨ surviving body dead ≠ []) := by
  simp only [apply_fields,killed,Option.isNone_some,Bool.false_eq_true,and_false,if_false,ok_bind] at ok
  refine merge_fields_ok single causal ?_ ?_ (toList_distinct _) ?_
    (fun field inside => kept _ (mem_fields.mpr ⟨_,inside⟩)) ok
  · intro field inside chosen s
    simp only [Bool.and_eq_true,Bool.not_eq_true',decide_eq_false_iff_not] at chosen
    simp [apply_field,chosen.1,chosen.2]
  · intro field inside chosen s
    simp only [Bool.and_eq_true,Bool.not_eq_true',decide_eq_false_iff_not,not_and,not_not] at chosen
    simp only [apply_field]
    by_cases prose : Prose body.entity_type field.1
    · exact ⟨_,by rw [if_pos prose]; rfl⟩
    · exact ⟨_,by rw [if_neg prose,if_pos (chosen prose)]⟩
  · intro field inside fields locals
    rw [read_single single] at locals
    obtain ⟨row,held,rfl⟩ := Option.map_eq_some_iff.mp locals
    exact ⟨row,row,rfl,held,rfl⟩

/-- The fields of a change that are merged, and not kept in the inbox or dropped. -/
def mergedFields (r : Replica) (body : ChangeBody) : List (String × Value) :=
  match r.tombstone body.entity_type body.entity_id with
  | none => body.fields.toList
  | some dead => surviving body dead

omit [Sqlite] in
theorem mem_mergedFields {r : Replica} {body : ChangeBody} {v : Value} (inside : (f,v) ∈ mergedFields r body) :
    body.fields[f]? = some v := by
  unfold mergedFields at inside
  split at inside
  · exact mem_toList.mp inside
  · exact (mem_surviving.mp inside).1

/-- A change merges its fields into their registers; a missing row is inserted unless
    a delete has killed the entity and no field outlives it. -/
theorem apply_fields_ok {body : ChangeBody} {r r' : Replica} (single : tableOf body.entity_type = some t)
    (causal : Causal body)
    (kept : ∀ f ∈ body.fields, Kept body.entity_type t f (r.register body.entity_type t body.entity_id f))
    (ok : r.apply_fields body = .ok r') :
    Merges body.entity_type t (r.read_entity_fields body.entity_type body.entity_id) body (mergedFields r body) r r' ∧
      ((r'.row t body.entity_id).isSome ↔ (r.row t body.entity_id).isSome ∨
        r.tombstone body.entity_type body.entity_id = none ∨ mergedFields r body ≠ []) := by
  unfold mergedFields
  cases killed : r.tombstone body.entity_type body.entity_id with
  | none =>
    obtain ⟨merges,there⟩ := apply_fields_live single causal killed kept ok
    exact ⟨merges,by simp [there]⟩
  | some dead =>
    obtain ⟨merges,there⟩ := apply_fields_dead single causal killed kept ok
    exact ⟨merges,by simp [there]⟩

end

/-! ### Deletes -/

section
variable {t : TableName}

/-- A delete leaves a row of another entity that does not refer to the deleted one. -/
theorem row_delete_apart {r : Replica} {ty ty' : EntityType} {t t' : TableName} {id id' : String}
    (single : tableOf ty = some t) (other : tableOf ty' = some t') (apart : ¬(t' = t ∧ id' = id))
    (unrelated : ∀ row, r.row t' id' = some row → ∀ c ∈ columns t', c.references = some t → row c.name ≠ .Text id) :
    (r.delete_row t id).row t' id' = r.row t' id' := by
  cases held : r.row t' id' with
  | none => exact row_delete_none held t id
  | some row =>
    have clear := unrelated row held
    unfold Replica.row at held
    unfold delete_row
    split
    · exact held
    · cases one_table single <;> cases one_table other <;>
      simp [columns] at clear apart <;>
      simp [Replica.row,tables_without,held,Std.ExtTreeMap.getElem?_map,Std.ExtTreeMap.getElem?_filter,
        Std.ExtTreeMap.getElem?_erase,clear,apart,Ne.symm,clear_reference_apart]

/-- A row that a delete leaves is the one before, but for a cleared parent. -/
theorem row_delete_some {r : Replica} {ty ty' : EntityType} {t t' : TableName} {id id' : String} {row' : Row}
    (single : tableOf ty = some t) (other : tableOf ty' = some t') (held : (r.delete_row t id).row t' id' = some row') :
    ∃ row, r.row t' id' = some row ∧
      (row' = row ∨ t' = .collections ∧ row' = clear_reference "parent_id" id row) := by
  unfold delete_row at held
  split at held
  · exact ⟨row',held,.inl rfl⟩
  · cases one_table single <;> cases one_table other <;>
      simp only [Replica.row,tables_without,Function.update_self,Std.ExtTreeMap.getElem?_map,
        Std.ExtTreeMap.getElem?_filter,Std.ExtTreeMap.getElem?_erase] at held ⊢ <;>
      first
        | exact ⟨row',held,.inl rfl⟩
        | grind

/-- A delete leaves each shown value or its default. -/
theorem shownRow_delete [Sqlite] {r : Replica} {ty ty' : EntityType} {t t' : TableName} {id : String}
    (single : tableOf ty = some t) (other : tableOf ty' = some t') (id' f : String) :
    (r.delete_row t id).shownRow t' id' (defaultsOf ty') f = r.shownRow t' id' (defaultsOf ty') f ∨
      (r.delete_row t id).shownRow t' id' (defaultsOf ty') f = blankRow r.now t' (defaultsOf ty') f := by
  cases left : (r.delete_row t id).row t' id' with
  | none => exact .inr (by rw [shownRow_none left,now_delete_row])
  | some row' =>
    obtain ⟨row,held,rfl | ⟨rfl,rfl⟩⟩ := row_delete_some single other left
    · exact .inl (by rw [shownRow_some left,shownRow_some held])
    · rw [shownRow_some left,shownRow_some held,clear_reference]
      split
      · next cleared =>
        obtain ⟨rfl,-⟩ := cleared
        have collection : tableOf .Collection = some .collections := rfl
        obtain rfl := tableOf_injective collection other
        exact .inr rfl
      · exact .inl rfl

/-- What a delete keeps of the prose goes to the conflict inbox. -/
theorem preserve_only (r : Replica) (body : ChangeBody) :
    ∃ cs, r.preserve_unobserved_prose body = { r with sync_conflicts := cs } := by
  unfold preserve_unobserved_prose
  split
  · next fields _ =>
    have loop : ∀ (l : List (String × Value)) cs, ∃ cs',
        l.foldl (preserve_field body) { r with sync_conflicts := cs } = { r with sync_conflicts := cs' } := by
      intro l
      induction l with
      | nil => exact fun cs => ⟨cs,rfl⟩
      | cons field l ih =>
        intro cs
        rw [List.foldl_cons]
        unfold preserve_field
        split
        · split
          · split
            · exact ih cs
            · exact ih _
          · exact ih cs
        · exact ih cs
    exact loop fields.toList r.sync_conflicts
  · exact ⟨r.sync_conflicts,rfl⟩

/-- The row of an entity is older than a delete in every field that is not prose. -/
def Dominated (r : Replica) (ty : EntityType) (t : TableName) (id : String) (clock : Hlc) : Prop :=
  ∀ row, r.row t id = some row → ∀ f ∈ allowed_columns ty, ¬Prose ty f →
    ∀ c, r.entity_clock ty id f = some c → c ≤ clock

theorem max_field_clock_dominated_iff {r : Replica} {body : ChangeBody} (single : tableOf body.entity_type = some t) :
    r.max_field_clock_dominated body ↔ r.Dominated body.entity_type t body.entity_id body.clock := by
  unfold max_field_clock_dominated Dominated
  rw [read_single single]
  cases held : r.row t body.entity_id with
  | none => simp
  | some row =>
    simp only [Option.map_some,List.all_eq_true,Prod.forall,mem_toList,field_map_get]
    constructor
    · rintro all _ ⟨⟩ f known plain c slot
      have older := all f (sql_to_json (row f)) (if_pos known)
      simpa [plain,slot] using older
    · intro all f v given
      split at given
      · next known =>
        by_cases prose : Prose body.entity_type f
        · exact Bool.or_eq_true _ _ ▸ .inl (decide_eq_true prose)
        · cases slot : r.entity_clock body.entity_type body.entity_id f with
          | none => simp
          | some c => simpa using .inr (all row rfl f known prose c slot)
      · cases given

/-- A delete leaves its tombstone, and removes the row if it dominates it. -/
theorem apply_delete_ok [Sqlite] {r r' : Replica} {body : ChangeBody} (single : tableOf body.entity_type = some t)
    (ok : r.apply_delete body = .ok r') :
    ∃ cs, if r.max_field_clock_dominated body then
        r' = Replica.delete_row { r.set_tombstone body.entity_type body.entity_id body.clock with
          sync_conflicts := cs } t body.entity_id
      else
        r' = { r.set_tombstone body.entity_type body.entity_id body.clock with sync_conflicts := cs } := by
  obtain ⟨cs,preserved⟩ := preserve_only (r.set_tombstone body.entity_type body.entity_id body.clock) body
  have same : ({ r.set_tombstone body.entity_type body.entity_id body.clock with sync_conflicts := cs } :
      Replica).max_field_clock_dominated body = r.max_field_clock_dominated body := by
    unfold max_field_clock_dominated
    rw [read_single single,read_single single]
    rfl
  refine ⟨cs,?_⟩
  simp only [apply_delete,preserved,same] at ok
  split at ok
  · next dominated =>
    rw [if_pos dominated]
    simpa [write_entity_fields,delete_single single,eq_comm] using ok
  · next kept =>
    rw [if_neg kept]
    simpa [eq_comm] using ok

/-- What a delete leaves: the clocks, a tombstone, and all rows but its own, which goes
    iff the delete dominates it, and those that refer to it. -/
structure Kills [Sqlite] (t : TableName) (body : ChangeBody) (r r' : Replica) : Prop where
  now : r'.now = r.now
  clocks : ∀ ty id f, r'.entity_clock ty id f = r.entity_clock ty id f
  tombstones : ∀ ty id, r'.tombstone ty id =
    if ty = body.entity_type ∧ id = body.entity_id then some body.clock.stored else r.tombstone ty id
  missing : ∀ t' id', r.row t' id' = none → r'.row t' id' = none
  shown : ∀ ty' t', tableOf ty' = some t' → ∀ id' f,
    r'.shownRow t' id' (defaultsOf ty') f = r.shownRow t' id' (defaultsOf ty') f ∨
      r'.shownRow t' id' (defaultsOf ty') f = blankRow r.now t' (defaultsOf ty') f
  dominated : r.Dominated body.entity_type t body.entity_id body.clock → r'.row t body.entity_id = none
  survives : ¬r.Dominated body.entity_type t body.entity_id body.clock → ∀ t' id', r'.row t' id' = r.row t' id'
  apart : ∀ ty' t', tableOf ty' = some t' → ∀ id', ¬(t' = t ∧ id' = body.entity_id) →
    (∀ row, r.row t' id' = some row → ∀ c ∈ columns t', c.references = some t → row c.name ≠ .Text body.entity_id) →
    r'.row t' id' = r.row t' id'

theorem apply_delete_kills [Sqlite] {r r' : Replica} {body : ChangeBody} (single : tableOf body.entity_type = some t)
    (ok : r.apply_delete body = .ok r') : Kills t body r r' := by
  obtain ⟨cs,effect⟩ := apply_delete_ok single ok
  generalize buried : ({ r.set_tombstone body.entity_type body.entity_id body.clock with sync_conflicts := cs } :
    Replica) = dead at effect
  have rows : ∀ t' id', dead.row t' id' = r.row t' id' := fun _ _ => buried ▸ rfl
  have now : dead.now = r.now := buried ▸ rfl
  have clocks : ∀ ty id f, dead.entity_clock ty id f = r.entity_clock ty id f := fun _ _ _ => buried ▸ rfl
  have tombstones : ∀ ty id, dead.tombstone ty id =
      if ty = body.entity_type ∧ id = body.entity_id then some body.clock.stored else r.tombstone ty id :=
    fun _ _ => buried ▸ rfl
  have shown : ∀ t' id' defaults, dead.shownRow t' id' defaults = r.shownRow t' id' defaults := by
    intro t' id' defaults
    simp [shownRow,rows,now]
  split at effect
  · next dominated =>
    rw [max_field_clock_dominated_iff single] at dominated
    subst effect
    refine ⟨by simp [now],by simp [clocks],by simp [tombstones],?_,?_,fun _ => row_delete_self _ _ _,
      fun kept => absurd dominated kept,?_⟩
    · intro t' id' missing
      exact row_delete_none (by rw [rows,missing]) t body.entity_id
    · intro ty' t' other id' f
      rw [← shown,← now]
      exact shownRow_delete single other id' f
    · intro ty' t' other id' apart unrelated
      rw [row_delete_apart single other apart (by simpa [rows] using unrelated),rows]
  · next kept =>
    rw [max_field_clock_dominated_iff single] at kept
    subst effect
    exact ⟨now,clocks,tombstones,fun t' id' missing => by rw [rows,missing],
      fun _ _ _ _ _ => .inl (by rw [shown]),fun dominated => absurd dominated kept,fun _ => rows,
      fun _ _ _ _ _ _ => rows _ _⟩

theorem apply_change_single [Sqlite] [Scheduler] (r : Replica) {body : ChangeBody}
    (single : tableOf body.entity_type = some t) :
    r.apply_change body = if body.op = .Delete then r.apply_delete body else r.apply_fields body := by
  unfold apply_change
  cases ty : body.entity_type <;> rw [ty] at single <;> cases single

end
end Replica
end Pergamon
