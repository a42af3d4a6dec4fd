import Pergamon.SingleTable

/-!
The order in which changes arrive. Over any sequence of changes to entities that one
table keeps, every register holds a value and a clock that some change carried
(`Sourced`), and, entity by entity, a field that a change newer than the entity's
delete carried holds those of the newest such change (`Tracks`).

Without deletes this is a closed form of the final state. With deletes the final
state depends on the order unless each deleted entity is settled (`DeletesSettle`).
-/
namespace Pergamon
open Fallible Newest Replica

/-! ### Sequences of changes -/

section
variable (ty : EntityType) (id f : String)

/-- A change to the entity. -/
def Targets (b : ChangeBody) : Prop := b.entity_type = ty ∧ b.entity_id = id

/-- An upsert or a field patch of the entity. -/
def Edits (b : ChangeBody) : Prop := Targets ty id b ∧ b.op ≠ .Delete

/-- A delete of the entity. -/
def Deletes (b : ChangeBody) : Prop := Targets ty id b ∧ b.op = .Delete

/-- An edit of the entity that carries the field. -/
def Carries (b : ChangeBody) : Prop := Edits ty id b ∧ f ∈ b.fields

instance (b : ChangeBody) : Decidable (Targets ty id b) := inferInstanceAs (Decidable (_ ∧ _))
instance (b : ChangeBody) : Decidable (Edits ty id b) := inferInstanceAs (Decidable (_ ∧ _))
instance (b : ChangeBody) : Decidable (Deletes ty id b) := inferInstanceAs (Decidable (_ ∧ _))
instance (b : ChangeBody) : Decidable (Carries ty id f b) := inferInstanceAs (Decidable (_ ∧ _))

end

/-- Changes to entities of one table with distinct clocks that fit the signed column,
    each made after the version that it observed. -/
structure Mergeable (S : List ChangeBody) : Prop where
  single : ∀ b ∈ S, (tableOf b.entity_type).isSome
  distinct : S.Pairwise (fun a b => a.clock ≠ b.clock)
  base : ∀ b ∈ S, ∀ base, b.base_version = some base → base < b.clock
  fits : ∀ b ∈ S, b.clock.wall_millis.toNat < 2 ^ 63

namespace Mergeable
variable {S S' : List ChangeBody}

theorem causal (mergeable : Mergeable S) {b : ChangeBody} (inside : b ∈ S) : Causal b :=
  ⟨mergeable.base b inside,Hlc.stored_eq (mergeable.fits b inside)⟩

theorem table (mergeable : Mergeable S) {b : ChangeBody} (inside : b ∈ S) :
    ∃ t, tableOf b.entity_type = some t := Option.isSome_iff_exists.mp (mergeable.single b inside)

theorem clock_injective (mergeable : Mergeable S) :
    ∀ a ∈ S, ∀ b ∈ S, a.clock = b.clock → a = b := by
  intro a inside b inside' same
  by_contra different
  have : Std.Symm (fun a b : ChangeBody => a.clock ≠ b.clock) := ⟨fun _ _ apart => Ne.symm apart⟩
  exact mergeable.distinct.forall inside inside' different same

theorem perm (mergeable : Mergeable S) (same : S.Perm S') : Mergeable S' where
  single b inside := mergeable.single b (same.mem_iff.mpr inside)
  distinct := (same.pairwise_iff (fun apart => Ne.symm apart)).mp mergeable.distinct
  base b inside := mergeable.base b (same.mem_iff.mpr inside)
  fits b inside := mergeable.fits b (same.mem_iff.mpr inside)

theorem front {b : ChangeBody} (mergeable : Mergeable (S ++ [b])) : Mergeable S where
  single b inside := mergeable.single b (List.mem_append_left _ inside)
  distinct := (List.pairwise_append.mp mergeable.distinct).1
  base b inside := mergeable.base b (List.mem_append_left _ inside)
  fits b inside := mergeable.fits b (List.mem_append_left _ inside)

end Mergeable

section
variable [Sqlite]

/-- The value and the clock that a change leaves in a field that takes it. -/
def entry (t : TableName) (f : String) (b : ChangeBody) : SqlValue × Option Hlc :=
  (coerce (affinity_of t f) (json_to_sql ((b.fields[f]?).getD .Null)),some b.clock)

/-! ### Where rows and clocks come from -/

/-- Every value is a default or was carried by an edit, every clock is that of an edit,
    and every tombstone that of a delete. -/
structure Sourced (T : List ChangeBody) (r : Replica) : Prop where
  now : r.now = Replica.empty.now
  others : ∀ t, (∀ ty, tableOf ty ≠ some t) → ∀ id, r.row t id = none
  values : ∀ ty t, tableOf ty = some t → ∀ id f,
    r.shownRow t id (defaultsOf ty) f = blankRow r.now t (defaultsOf ty) f ∨
      ∃ b ∈ T, Carries ty id f b ∧ r.shownRow t id (defaultsOf ty) f = (entry t f b).1
  clocks : ∀ ty id f c, r.entity_clock ty id f = some c → ∃ b ∈ T, Carries ty id f b ∧ b.clock = c
  tombstones : ∀ ty id c, r.tombstone ty id = some c → ∃ d ∈ T, Deletes ty id d ∧ d.clock = c

theorem blank_text {ty : EntityType} {t : TableName} {f : String} (single : tableOf ty = some t) (prose : Prose ty f)
    (known : f ∈ allowed_columns ty) (now : String) :
    ∃ w, blankRow now t (defaultsOf ty) f = coerce .TEXT w := by
  cases one_table single <;>
    simp only [Prose,strategy_for] at prose <;> try cases prose
  · split at prose
    · next named =>
      rcases named with rfl | rfl | rfl
      · exact ⟨.Null,rfl⟩
      · simp [allowed_columns,DOCUMENT_COLS] at known
      · simp [allowed_columns,DOCUMENT_COLS] at known
    · cases prose
  · split at prose
    · next named =>
      subst named
      exact ⟨.Text "",rfl⟩
    · cases prose

/-- An edit sets a register to its entry or leaves it as it was. -/
theorem edit_register {r r' : Replica} {b : ChangeBody} {t : TableName}
    (merges : Merges b.entity_type t (r.read_entity_fields b.entity_type b.entity_id) b (mergedFields r b) r r')
    (f : String) : r'.register b.entity_type t b.entity_id f = r.register b.entity_type t b.entity_id f ∨
      (f ∈ b.fields ∧ r'.register b.entity_type t b.entity_id f = entry t f b) := by
  by_cases chosen : ∃ v, (f,v) ∈ mergedFields r b
  · obtain ⟨v,inside⟩ := chosen
    have given := mem_mergedFields inside
    rw [merges.carried f v inside,merged]
    split
    · exact .inr ⟨Std.ExtTreeMap.mem_iff_isSome_getElem?.mpr (by simp [given]),by simp [entry,given]⟩
    · exact .inl rfl
  · exact .inl (merges.other f (fun v inside => chosen ⟨v,inside⟩))

namespace Sourced
variable {T : List ChangeBody} {r r' : Replica} {b : ChangeBody}

theorem kept (sourced : Sourced T r) (mergeable : Mergeable T) {ty : EntityType} {t : TableName}
    (single : tableOf ty = some t) (id f : String) : Kept ty t f (r.register ty t id f) where
  clock c slot := by
    obtain ⟨b,inside,-,rfl⟩ := sourced.clocks ty id f c slot
    exact (mergeable.causal inside).fits
  text prose known := by
    rcases sourced.values ty t single id f with blank | ⟨b,-,-,value⟩
    · rw [register,blank]
      exact blank_text single prose known r.now
    · rw [register,value,entry,prose_text single f known prose]
      exact ⟨_,rfl⟩

theorem empty : Sourced [] Replica.empty where
  now := rfl
  others _ _ _ := by simp [row,Replica.empty]
  values ty t single id f := .inl (by simp [shownRow,row,Replica.empty])
  clocks ty id f c slot := by simp [entity_clock,Replica.empty] at slot
  tombstones ty id c slot := by simp [tombstone,Replica.empty] at slot

theorem edit (sourced : Sourced T r) (mergeable : Mergeable (T ++ [b])) (upserts : b.op ≠ .Delete)
    (ok : r.apply_fields b = .ok r') : Sourced (T ++ [b]) r' := by
  obtain ⟨t,single⟩ := mergeable.table (b := b) (by simp)
  obtain ⟨merges,-⟩ := apply_fields_ok single (mergeable.causal (by simp))
    (fun f _ => sourced.kept mergeable.front single b.entity_id f) ok
  have now : r'.now = r.now := merges.only.now
  refine ⟨now.trans sourced.now,?_,?_,?_,?_⟩
  · intro t' other id'
    rw [merges.only.rows t' id' (fun same => other _ (same.1 ▸ single))]
    exact sourced.others t' other id'
  · intro ty' t' single' id' f
    have before : r.shownRow t' id' (defaultsOf ty') f = blankRow r'.now t' (defaultsOf ty') f ∨
        ∃ a ∈ T ++ [b], Carries ty' id' f a ∧ r.shownRow t' id' (defaultsOf ty') f = (entry t' f a).1 := by
      rw [now]
      exact (sourced.values ty' t' single' id' f).imp_right
        (fun ⟨a,inside,carries⟩ => ⟨a,List.mem_append_left _ inside,carries⟩)
    by_cases here : t' = t ∧ id' = b.entity_id
    · obtain ⟨rfl,rfl⟩ := here
      obtain rfl := tableOf_injective single single'
      rcases edit_register merges f with same | ⟨given,set⟩
      · rw [show r'.shownRow t' b.entity_id _ f = _ from congrArg Prod.fst same]
        exact before
      · exact .inr ⟨b,by simp,⟨⟨⟨rfl,rfl⟩,upserts⟩,given⟩,congrArg Prod.fst set⟩
    · rw [merges.only.shownRow here]
      exact before
  · intro ty' id' f c slot
    by_cases here : ty' = b.entity_type ∧ id' = b.entity_id
    · obtain ⟨rfl,rfl⟩ := here
      rcases edit_register merges f with same | ⟨given,set⟩
      · obtain ⟨a,inside,carries⟩ := sourced.clocks _ _ f c ((congrArg Prod.snd same).symm.trans slot)
        exact ⟨a,List.mem_append_left _ inside,carries⟩
      · exact ⟨b,by simp,⟨⟨⟨rfl,rfl⟩,upserts⟩,given⟩,
          Option.some.inj ((congrArg Prod.snd set).symm.trans slot)⟩
    · rw [merges.only.clocks ty' id' f here] at slot
      obtain ⟨a,inside,carries⟩ := sourced.clocks ty' id' f c slot
      exact ⟨a,List.mem_append_left _ inside,carries⟩
  · intro ty' id' c slot
    rw [merges.only.tombstone] at slot
    obtain ⟨d,inside,deletes⟩ := sourced.tombstones ty' id' c slot
    exact ⟨d,List.mem_append_left _ inside,deletes⟩

theorem delete (sourced : Sourced T r) (mergeable : Mergeable (T ++ [b])) (op : b.op = .Delete)
    (ok : r.apply_delete b = .ok r') : Sourced (T ++ [b]) r' := by
  obtain ⟨t,single⟩ := mergeable.table (b := b) (by simp)
  have kills := apply_delete_kills single ok
  refine ⟨kills.now.trans sourced.now,fun t' other id' => kills.missing t' id' (sourced.others t' other id'),?_,?_,?_⟩
  · intro ty' t' single' id' f
    rw [kills.now]
    rcases kills.shown ty' t' single' id' f with same | blank
    · rw [same]
      exact (sourced.values ty' t' single' id' f).imp_right
        (fun ⟨a,inside,carries⟩ => ⟨a,List.mem_append_left _ inside,carries⟩)
    · exact .inl blank
  · intro ty' id' f c slot
    rw [kills.clocks] at slot
    obtain ⟨a,inside,carries⟩ := sourced.clocks ty' id' f c slot
    exact ⟨a,List.mem_append_left _ inside,carries⟩
  · intro ty' id' c slot
    rw [kills.tombstones] at slot
    split at slot
    · next here =>
      rw [(mergeable.causal (b := b) (by simp)).fits] at slot
      exact ⟨b,by simp,⟨⟨here.1.symm,here.2.symm⟩,op⟩,Option.some.inj slot⟩
    · obtain ⟨d,inside,deletes⟩ := sourced.tombstones ty' id' c slot
      exact ⟨d,List.mem_append_left _ inside,deletes⟩

end Sourced

/-! ### The closed form of one entity -/

/-- The change is newer than every delete of the entity. -/
def Survives (T : List ChangeBody) (ty : EntityType) (id : String) (b : ChangeBody) : Prop :=
  ∀ d ∈ T, Deletes ty id d → d.clock < b.clock

instance (T : List ChangeBody) (ty : EntityType) (id : String) (b : ChangeBody) : Decidable (Survives T ty id b) :=
  inferInstanceAs (Decidable (∀ d ∈ T, Deletes ty id d → d.clock < b.clock))

/-- The changes that carry a field and are newer than every delete of the entity. -/
def survivors (T : List ChangeBody) (ty : EntityType) (id f : String) : List ChangeBody :=
  T.filter (fun b => Carries ty id f b ∧ Survives T ty id b)

/-- The state of an entity, as the changes so far determine it. -/
structure Tracks (T : List ChangeBody) (ty : EntityType) (t : TableName) (id : String) (r : Replica) : Prop where
  killed : ∀ d ∈ T, Deletes ty id d → r.tombstone ty id = some d.clock
  alive : (∀ d ∈ T, ¬Deletes ty id d) → r.tombstone ty id = none
  known : ∀ b ∈ T, Edits ty id b → Survives T ty id b → ∀ f ∈ b.fields, f ∈ allowed_columns ty
  there : (r.row t id).isSome ↔
    ∃ b ∈ T, Edits ty id b ∧ Survives T ty id b ∧ ((∀ d ∈ T, ¬Deletes ty id d) ∨ ∃ f, f ∈ b.fields)
  registers : ∀ f a, newest ChangeBody.clock (survivors T ty id f) = some a → r.register ty t id f = entry t f a

/-- At most one delete of the entity, and none beside an edit of its prose. -/
structure Calm (S : List ChangeBody) (ty : EntityType) (id : String) : Prop where
  once : ∀ d ∈ S, Deletes ty id d → ∀ d' ∈ S, Deletes ty id d' → d' = d
  plain : ∀ d ∈ S, Deletes ty id d → ∀ f, ∀ b ∈ S, Carries ty id f b → ¬Prose ty f

/-- An edit that refers to the entity that the other change is about. -/
def Refers (e d : ChangeBody) : Prop :=
  ∃ t, tableOf e.entity_type = some t ∧ ∃ c ∈ columns t, c.references = tableOf d.entity_type ∧
    ∃ v, e.fields[c.name]? = some v ∧ coerce (affinity_of t c.name) (json_to_sql v) = .Text d.entity_id

/-- No edit of another entity refers to an entity that is deleted. -/
def Unreferenced (S : List ChangeBody) : Prop :=
  ∀ d ∈ S, d.op = .Delete → ∀ e ∈ S, e.op ≠ .Delete → ¬Targets d.entity_type d.entity_id e → ¬Refers e d

section
variable {T : List ChangeBody} {ty : EntityType} {t : TableName} {id f : String} {b : ChangeBody}

omit [Sqlite] in
theorem mem_survivors {a : ChangeBody} :
    a ∈ survivors T ty id f ↔ a ∈ T ∧ Carries ty id f a ∧ Survives T ty id a := by
  simp [survivors]

omit [Sqlite] in
theorem survives_append {a : ChangeBody} :
    Survives (T ++ [b]) ty id a ↔ Survives T ty id a ∧ (Deletes ty id b → b.clock < a.clock) := by
  simp only [Survives,List.mem_append,List.mem_singleton,or_imp,forall_and,forall_eq]

omit [Sqlite] in
/-- A change that is not a delete of the entity adds at most itself. -/
theorem survivors_append (spares : ¬Deletes ty id b) :
    survivors (T ++ [b]) ty id f =
      if Carries ty id f b ∧ Survives T ty id b then survivors T ty id f ++ [b] else survivors T ty id f := by
  simp only [survivors,survives_append,spares,false_imp_iff,and_true,List.filter_append,List.filter_cons,
    List.filter_nil,decide_eq_true_eq]
  split
  · rfl
  · exact List.append_nil _

omit [Sqlite] in
/-- A delete of the entity leaves the changes newer than itself. -/
theorem survivors_delete (kills : Deletes ty id b) :
    survivors (T ++ [b]) ty id f = (survivors T ty id f).filter (fun a => b.clock < a.clock) := by
  have uncarried : ¬Carries ty id f b := fun carries => carries.1.2 kills.2
  simp only [survivors,survives_append,kills,true_imp_iff,List.filter_append,List.filter_cons,uncarried,false_and,
    decide_false,Bool.false_eq_true,if_false,List.filter_nil,List.append_nil,List.filter_filter,
    ← Bool.decide_and]
  refine List.filter_congr (fun a _ => ?_)
  rw [decide_eq_decide]
  constructor
  · rintro ⟨carries,survives,newer⟩
    exact ⟨newer,carries,survives⟩
  · rintro ⟨newer,carries,survives⟩
    exact ⟨carries,survives,newer⟩

end

namespace Tracks
variable {T : List ChangeBody} {ty : EntityType} {t : TableName} {id : String} {b : ChangeBody} {r r' : Replica}

theorem empty : Tracks [] ty t id Replica.empty where
  killed := by simp
  alive _ := rfl
  known := by simp
  there := by simp [row,Replica.empty]
  registers f a top := by simp [survivors] at top

/-- A step that leaves the entity alone. -/
theorem frame (tracks : Tracks T ty t id r) (spares : ¬Targets ty id b)
    (row : r'.row t id = r.row t id) (registers : r'.register ty t id = r.register ty t id)
    (tombstone : r'.tombstone ty id = r.tombstone ty id) : Tracks (T ++ [b]) ty t id r' := by
  have noEdit : ¬Edits ty id b := fun edits => spares edits.1
  have noDelete : ¬Deletes ty id b := fun deletes => spares deletes.1
  have survives (a : ChangeBody) : Survives (T ++ [b]) ty id a ↔ Survives T ty id a := by
    simp [survives_append,noDelete]
  refine ⟨?_,?_,?_,?_,?_⟩
  · intro d inside deletes
    rcases List.mem_append.mp inside with inside | last
    · rw [tombstone,tracks.killed d inside deletes]
    · exact absurd (List.mem_singleton.mp last ▸ deletes) noDelete
  · intro alive
    rw [tombstone,tracks.alive (fun d inside => alive d (List.mem_append_left _ inside))]
  · intro a inside edits lives
    rcases List.mem_append.mp inside with inside | last
    · exact tracks.known a inside edits ((survives a).mp lives)
    · exact absurd (List.mem_singleton.mp last ▸ edits) noEdit
  · rw [row,tracks.there]
    simp [survives,noEdit,noDelete,or_imp,forall_and]
  · intro f a top
    rw [survivors_append noDelete,if_neg (fun carries => noEdit carries.1.1)] at top
    rw [registers,tracks.registers f a top]

/-- The fields that an edit merges: all of them, if it is newer than the deletes. -/
theorem mem_mergedFields_iff (tracks : Tracks T ty t id r) (mergeable : Mergeable (T ++ [b]))
    (calm : Calm (T ++ [b]) ty id) (edits : Edits ty id b) (f : String) (v : Value) :
    (f,v) ∈ mergedFields r b ↔ b.fields[f]? = some v ∧ Survives T ty id b := by
  obtain ⟨⟨rfl,rfl⟩,edit⟩ := edits
  unfold mergedFields
  by_cases alive : ∀ d ∈ T, ¬Deletes b.entity_type b.entity_id d
  · simp only [tracks.alive alive,mem_toList,iff_self_and]
    exact fun _ d inside deletes => absurd deletes (alive d inside)
  · push Not at alive
    obtain ⟨d,inside,deletes⟩ := alive
    simp only [tracks.killed d inside deletes,mem_surviving]
    refine and_congr_right (fun given => ?_)
    have carries : Carries b.entity_type b.entity_id f b :=
      ⟨⟨⟨rfl,rfl⟩,edit⟩,Std.ExtTreeMap.mem_iff_isSome_getElem?.mpr (by simp [given])⟩
    have apart : d.clock ≠ b.clock := by
      intro same
      obtain rfl := mergeable.clock_injective d (by simp [inside]) b (by simp) same
      exact edit deletes.2
    constructor
    · rintro ⟨-,older⟩ d' inside' deletes'
      obtain rfl := calm.once d (by simp [inside]) deletes d' (by simp [inside']) deletes'
      exact lt_of_le_of_ne (not_lt.mp older) apart
    · intro survives
      exact ⟨calm.plain d (by simp [inside]) deletes f b (by simp) carries,not_lt.mpr (survives d inside deletes).le⟩

/-- A register that a newest change determines belongs to a row that is there. -/
theorem there_of_newest (tracks : Tracks T ty t id r) {f : String} {a : ChangeBody}
    (top : newest ChangeBody.clock (survivors T ty id f) = some a) : (r.row t id).isSome := by
  obtain ⟨inside,carries,survives⟩ := mem_survivors.mp (newest_mem top)
  exact tracks.there.mpr ⟨a,inside,carries.1,survives,.inr ⟨f,carries.2⟩⟩

/-- The edit takes the field iff it is the newest of the changes that carry it. -/
theorem takes_iff (tracks : Tracks T ty t id r) (sourced : Sourced T r) (single : tableOf ty = some t)
    (survives : Survives T ty id b) (f : String) :
    Takes (r.read_entity_fields ty id) b (r.register ty t id f).2 ↔
      Beats b.clock ((newest ChangeBody.clock (survivors T ty id f)).map ChangeBody.clock) := by
  cases top : newest ChangeBody.clock (survivors T ty id f) with
  | some a =>
    obtain ⟨row,held⟩ := Option.isSome_iff_exists.mp (tracks.there_of_newest top)
    rw [tracks.registers f a top,read_single single,held]
    simp [Takes,entry]
  | none =>
    simp only [Option.map_none,beats_none,iff_true]
    refine .inr (fun c slot => ?_)
    -- the clock left there is that of a change that some delete dominates
    obtain ⟨o,inside,carries,rfl⟩ := sourced.clocks ty id f c slot
    have dominated : ¬Survives T ty id o := by
      intro lives
      rw [newest_eq_none] at top
      exact List.not_mem_nil (top ▸ mem_survivors.mpr ⟨inside,carries,lives⟩)
    simp only [Survives,not_forall,not_lt] at dominated
    obtain ⟨d,there,deletes,newer⟩ := dominated
    exact newer.trans_lt (survives d there deletes)

/-- An edit of the entity. -/
theorem edit (tracks : Tracks T ty t id r) (sourced : Sourced T r) (mergeable : Mergeable (T ++ [b]))
    (calm : Calm (T ++ [b]) ty id) (single : tableOf ty = some t) (edits : Edits ty id b)
    (ok : r.apply_fields b = .ok r') : Tracks (T ++ [b]) ty t id r' := by
  have chosen := fun f v => tracks.mem_mergedFields_iff mergeable calm edits f v
  have takes := fun (lives : Survives T ty id b) f => tracks.takes_iff sourced single lives f
  have spares : ¬Deletes ty id b := fun deletes => edits.2 deletes.2
  have survives (a : ChangeBody) : Survives (T ++ [b]) ty id a ↔ Survives T ty id a := by
    simp [survives_append,spares]
  obtain ⟨⟨rfl,rfl⟩,upserts⟩ := edits
  obtain ⟨merges,there⟩ := apply_fields_ok single (mergeable.causal (by simp))
    (fun f _ => sourced.kept mergeable.front single b.entity_id f) ok
  refine ⟨?_,?_,?_,?_,?_⟩
  · intro d inside deletes
    rcases List.mem_append.mp inside with inside | last
    · rw [merges.only.tombstone,tracks.killed d inside deletes]
    · exact absurd (List.mem_singleton.mp last ▸ deletes) spares
  · intro alive
    rw [merges.only.tombstone,tracks.alive (fun d inside => alive d (List.mem_append_left _ inside))]
  · intro a inside edits lives f given
    rcases List.mem_append.mp inside with inside | last
    · exact tracks.known a inside edits ((survives a).mp lives) f given
    · obtain rfl := List.mem_singleton.mp last
      obtain ⟨v,carried⟩ := mem_fields.mp given
      exact merges.known _ ((chosen f v).mpr ⟨mem_toList.mp carried,(survives a).mp lives⟩)
  · simp only [there,survives,List.mem_append,List.mem_singleton]
    constructor
    · rintro (held | alive | merging)
      · obtain ⟨a,inside,edits,lives,any⟩ := tracks.there.mp held
        refine ⟨a,.inl inside,edits,lives,any.imp_left (fun alive d inside => ?_)⟩
        rcases inside with inside | rfl
        · exact alive d inside
        · exact spares
      · have spared : ∀ d ∈ T, ¬Deletes b.entity_type b.entity_id d := by
          intro d inside deletes
          rw [tracks.killed d inside deletes] at alive
          cases alive
        refine ⟨b,.inr rfl,⟨⟨rfl,rfl⟩,upserts⟩,fun d inside deletes => absurd deletes (spared d inside),.inl ?_⟩
        rintro d (inside | rfl)
        · exact spared d inside
        · exact spares
      · obtain ⟨⟨f,v⟩,inside⟩ := List.exists_mem_of_ne_nil _ merging
        obtain ⟨given,lives⟩ := (chosen f v).mp inside
        exact ⟨b,.inr rfl,⟨⟨rfl,rfl⟩,upserts⟩,lives,.inr ⟨f,mem_fields.mpr ⟨v,mem_toList.mpr given⟩⟩⟩
    · rintro ⟨a,inside | rfl,edits,lives,any⟩
      · exact .inl (tracks.there.mpr ⟨a,inside,edits,lives,any.imp_left (fun alive d inside => alive d (.inl inside))⟩)
      · rcases any with alive | ⟨f,given⟩
        · exact .inr (.inl (tracks.alive (fun d inside => alive d (.inl inside))))
        · obtain ⟨v,carried⟩ := mem_fields.mp given
          exact .inr (.inr (List.ne_nil_of_mem ((chosen f v).mpr ⟨mem_toList.mp carried,lives⟩)))
  · intro f a top
    rw [survivors_append spares] at top
    split at top
    · next adds =>
      obtain ⟨v,carried⟩ := mem_fields.mp adds.1.2
      rw [merges.carried f v ((chosen f v).mpr ⟨mem_toList.mp carried,adds.2⟩),merged]
      rw [newest_concat] at top
      split at top
      · next beats =>
        rw [if_pos ((takes adds.2 f).mpr beats)]
        cases top
        simp [entry,mem_toList.mp carried]
      · next loses =>
        rw [if_neg (fun taken => loses ((takes adds.2 f).mp taken)),tracks.registers f a top]
    · next stays =>
      rw [merges.other f,tracks.registers f a top]
      intro v inside
      obtain ⟨given,lives⟩ := (chosen f v).mp inside
      exact stays ⟨⟨⟨⟨rfl,rfl⟩,upserts⟩,mem_fields.mpr ⟨v,mem_toList.mpr given⟩⟩,lives⟩

/-- The delete of the entity. -/
theorem delete (tracks : Tracks T ty t id r) (sourced : Sourced T r) (mergeable : Mergeable (T ++ [b]))
    (calm : Calm (T ++ [b]) ty id) (single : tableOf ty = some t) (deletes : Deletes ty id b)
    (ok : r.apply_delete b = .ok r') : Tracks (T ++ [b]) ty t id r' := by
  have first : ∀ d ∈ T, ¬Deletes ty id d := by
    intro d inside deletes'
    obtain rfl := calm.once b (by simp) deletes d (by simp [inside]) deletes'
    exact (List.pairwise_append.mp mergeable.distinct).2.2 d inside d (by simp) rfl
  have lives (a : ChangeBody) : Survives T ty id a := fun d inside deletes => absurd deletes (first d inside)
  have plain : ∀ a ∈ T, ∀ f, Carries ty id f a → ¬Prose ty f :=
    fun a inside f carries => calm.plain b (by simp) deletes f a (by simp [inside]) carries
  have known : ∀ a ∈ T, ∀ f, Carries ty id f a → f ∈ allowed_columns ty :=
    fun a inside f carries => tracks.known a inside carries.1 (lives a) f carries.2
  -- a change newer than the delete saves the row
  have saved : ∀ a ∈ T, ∀ f, Carries ty id f a → b.clock < a.clock → ¬r.Dominated ty t id b.clock := by
    intro a inside f carries newer dominated
    cases top : newest ChangeBody.clock (survivors T ty id f) with
    | none =>
      rw [newest_eq_none] at top
      exact List.not_mem_nil (top ▸ mem_survivors.mpr ⟨inside,carries,lives a⟩)
    | some c =>
      obtain ⟨row,held⟩ := Option.isSome_iff_exists.mp (tracks.there_of_newest top)
      have slot : r.entity_clock ty id f = some c.clock := congrArg Prod.snd (tracks.registers f c top)
      have above := newest_le top (mem_survivors.mpr ⟨inside,carries,lives a⟩)
      exact absurd (dominated row held f (known a inside f carries) (plain a inside f carries) c.clock slot)
        (not_le.mpr (newer.trans_le above))
  obtain ⟨⟨rfl,rfl⟩,op⟩ := deletes
  have kills := apply_delete_kills single ok
  have deletes : Deletes b.entity_type b.entity_id b := ⟨⟨rfl,rfl⟩,op⟩
  refine ⟨?_,?_,?_,?_,?_⟩
  · intro d inside deletes'
    obtain rfl := calm.once d inside deletes' b (by simp) deletes
    rw [kills.tombstones,if_pos ⟨rfl,rfl⟩,(mergeable.causal (b := b) (by simp)).fits]
  · intro alive
    exact absurd deletes (alive b (by simp))
  · intro a inside edits _ f given
    rcases List.mem_append.mp inside with inside | last
    · exact known a inside f ⟨edits,given⟩
    · exact absurd op (List.mem_singleton.mp last ▸ edits.2)
  · constructor
    · intro held
      have kept : ¬r.Dominated b.entity_type t b.entity_id b.clock := by
        intro dominated
        rw [kills.dominated dominated] at held
        cases held
      have newer := kept
      simp only [Dominated,not_forall,not_le] at newer
      obtain ⟨row,-,f,-,-,c,slot,newer⟩ := newer
      obtain ⟨a,inside,carries,rfl⟩ := sourced.clocks _ _ f c slot
      exact ⟨a,by simp [inside],carries.1,survives_append.mpr ⟨lives a,fun _ => newer⟩,.inr ⟨f,carries.2⟩⟩
    · rintro ⟨a,inside,edits,survives,any⟩
      obtain ⟨f,given⟩ := any.resolve_left (fun alive => alive b (by simp) deletes)
      rcases List.mem_append.mp inside with inside | last
      · rw [kills.survives (saved a inside f ⟨edits,given⟩ ((survives_append.mp survives).2 deletes))]
        exact tracks.there.mpr ⟨a,inside,edits,lives a,.inl first⟩
      · exact absurd op (List.mem_singleton.mp last ▸ edits.2)
  · intro f a top
    rw [survivors_delete deletes] at top
    have newer := of_decide_eq_true (List.mem_filter.mp (newest_mem top)).2
    obtain ⟨inside,carries,-⟩ := mem_survivors.mp (List.mem_of_mem_filter (newest_mem top))
    have before := newest_filter_above (fun a inside b inside' =>
      mergeable.front.clock_injective a (mem_survivors.mp inside).1 b (mem_survivors.mp inside').1) top
    have kept := kills.survives (saved a inside f carries newer)
    rw [← tracks.registers f a before]
    simp [register,shownRow,kept,kills.now,kills.clocks]

end Tracks
/-! ### Permuting the changes -/

omit [Sqlite] in
theorem Survives.perm {T T' : List ChangeBody} (same : T.Perm T') {ty : EntityType} {id : String} {b : ChangeBody} :
    Survives T ty id b ↔ Survives T' ty id b :=
  forall_congr' (fun _ => imp_congr_left same.mem_iff)

omit [Sqlite] in
theorem survivors_perm {T T' : List ChangeBody} (same : T.Perm T') (ty : EntityType) (id f : String) :
    (survivors T ty id f).Perm (survivors T' ty id f) := by
  have filtered : survivors T' ty id f = T'.filter (fun b => Carries ty id f b ∧ Survives T ty id b) :=
    List.filter_congr (fun b _ => by rw [decide_eq_decide,Survives.perm same])
  rw [filtered]
  exact same.filter _

theorem Sourced.perm {T T' : List ChangeBody} {r : Replica} (same : T.Perm T') (sourced : Sourced T r) :
    Sourced T' r where
  now := sourced.now
  others := sourced.others
  values ty t single id f := (sourced.values ty t single id f).imp_right
    (fun ⟨b,inside,carries⟩ => ⟨b,same.mem_iff.mp inside,carries⟩)
  clocks ty id f c slot := by
    obtain ⟨b,inside,carries⟩ := sourced.clocks ty id f c slot
    exact ⟨b,same.mem_iff.mp inside,carries⟩
  tombstones ty id c slot := by
    obtain ⟨d,inside,deletes⟩ := sourced.tombstones ty id c slot
    exact ⟨d,same.mem_iff.mp inside,deletes⟩

theorem Tracks.perm {T T' : List ChangeBody} {ty : EntityType} {t : TableName} {id : String} {r : Replica}
    (same : T.Perm T') (mergeable : Mergeable T) (tracks : Tracks T ty t id r) : Tracks T' ty t id r where
  killed d inside := tracks.killed d (same.mem_iff.mpr inside)
  alive undeleted := tracks.alive (fun d inside => undeleted d (same.mem_iff.mp inside))
  known b inside edits lives := tracks.known b (same.mem_iff.mpr inside) edits ((Survives.perm same).mpr lives)
  there := by
    rw [tracks.there]
    simp only [same.mem_iff,Survives.perm same]
  registers f a top := by
    refine tracks.registers f a ?_
    rw [newest_perm ?_ (survivors_perm same ty id f),top]
    intro a inside b inside'
    exact mergeable.clock_injective a (mem_survivors.mp inside).1 b (mem_survivors.mp inside').1

/-- A column that refers to a row is null by default. -/
theorem blank_reference {ty : EntityType} {t : TableName} (single : tableOf ty = some t) (now : String) :
    ∀ c ∈ columns t, c.references.isSome → blankRow now t (defaultsOf ty) c.name = .Null := by
  cases one_table single <;>
    simp [columns] <;> rfl

section
variable {T : List ChangeBody} {r r' : Replica} {b : ChangeBody}

/-- The row of an entity outlives the delete of another one that it does not refer to. -/
theorem row_apart {ty : EntityType} {t : TableName} {id : String} (sourced : Sourced T r)
    (mergeable : Mergeable (T ++ [b])) (unreferenced : Unreferenced (T ++ [b])) (single : tableOf ty = some t)
    (apart : ¬Targets ty id b) (op : b.op = .Delete) (ok : r.apply_delete b = .ok r') :
    r'.row t id = r.row t id := by
  obtain ⟨u,single'⟩ := mergeable.table (b := b) (by simp)
  have kills := apply_delete_kills single' ok
  refine kills.apart ty t single id ?_ ?_
  · rintro ⟨rfl,rfl⟩
    exact apart ⟨tableOf_injective single' single,rfl⟩
  · intro row held c inside refers value
    rcases sourced.values ty t single id c.name with blank | ⟨e,there,carries,carried⟩
    · rw [shownRow_some held,value,blank_reference single _ c inside (by simp [refers])] at blank
      cases blank
    · rw [shownRow_some held,value] at carried
      obtain ⟨v,given⟩ := mem_fields.mp carries.2
      obtain ⟨⟨⟨rfl,rfl⟩,upserts⟩,-⟩ := carries
      refine unreferenced b (by simp) op e (by simp [there]) upserts ?_ ⟨t,single,c,inside,?_,v,mem_toList.mp given,?_⟩
      · rintro ⟨same,same'⟩
        exact apart ⟨same.symm,same'.symm⟩
      · rw [refers,single']
      · rw [carried,entry,mem_toList.mp given]
        rfl

end

/-! ### Runs -/

variable [Scheduler]

/-- Apply changes one after the other. -/
def apply_changes (r : Replica) (l : List ChangeBody) : Except StorageError Replica := l.foldlM apply_change r

section
variable {T : List ChangeBody} {r r' : Replica} {b : ChangeBody}

theorem sourced_run (mergeable : Mergeable T) (run : apply_changes Replica.empty T = .ok r) : Sourced T r := by
  induction T using List.reverseRecOn generalizing r with
  | nil =>
    obtain rfl := foldlM_nil_ok.mp run
    exact Sourced.empty
  | append_singleton T b ih =>
    obtain ⟨s,before,last⟩ := foldlM_concat_ok.mp run
    have sourced := ih mergeable.front before
    obtain ⟨t,single⟩ := mergeable.table (b := b) (by simp)
    rw [apply_change_single s single] at last
    split at last
    · next op => exact sourced.delete mergeable op last
    · next upserts => exact sourced.edit mergeable upserts last

theorem tracks_run {ty : EntityType} {t : TableName} {id : String} (mergeable : Mergeable T)
    (calm : Calm T ty id) (unreferenced : Unreferenced T) (single : tableOf ty = some t)
    (run : apply_changes Replica.empty T = .ok r) : Tracks T ty t id r := by
  induction T using List.reverseRecOn generalizing r with
  | nil =>
    obtain rfl := foldlM_nil_ok.mp run
    exact Tracks.empty
  | append_singleton T b ih =>
    obtain ⟨s,before,last⟩ := foldlM_concat_ok.mp run
    have sourced := sourced_run mergeable.front before
    have tracks : Tracks T ty t id s := by
      refine ih mergeable.front ⟨?_,?_⟩ ?_ before
      · exact fun d inside deletes d' inside' => calm.once d (by simp [inside]) deletes d' (by simp [inside'])
      · exact fun d inside deletes f a inside' => calm.plain d (by simp [inside]) deletes f a (by simp [inside'])
      · exact fun d inside op e inside' => unreferenced d (by simp [inside]) op e (by simp [inside'])
    obtain ⟨u,single'⟩ := mergeable.table (b := b) (by simp)
    rw [apply_change_single s single'] at last
    by_cases here : Targets ty id b
    · split at last
      · next op => exact tracks.delete sourced mergeable calm single ⟨here,op⟩ last
      · next op => exact tracks.edit sourced mergeable calm single ⟨here,op⟩ last
    · split at last
      · next op =>
        have kills := apply_delete_kills single' last
        have row := row_apart sourced mergeable unreferenced single here op last
        refine tracks.frame here row ?_ ?_
        · funext f
          simp [register,shownRow,row,kills.now,kills.clocks]
        · rw [kills.tombstones,if_neg (fun same => here ⟨same.1.symm,same.2.symm⟩)]
      · obtain ⟨merges,-⟩ := apply_fields_ok single' (mergeable.causal (by simp))
          (fun f _ => sourced.kept mergeable.front single' b.entity_id f) last
        have row : ¬(t = u ∧ id = b.entity_id) := by
          rintro ⟨rfl,rfl⟩
          exact here ⟨tableOf_injective single' single,rfl⟩
        refine tracks.frame here (merges.only.rows t id row) ?_ merges.only.tombstone
        funext f
        rw [register,merges.only.shownRow row,
          merges.only.clocks ty id f (fun same => here ⟨same.1.symm,same.2.symm⟩)]
        rfl

end
end
end Pergamon
