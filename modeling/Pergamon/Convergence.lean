import Mathlib.Data.List.Permutation
import Pergamon.Order

/-!
What the order of delivery can change. Edits alone converge: each field ends with the
value and the clock of the newest change that carries it (`edits_closed_form`). With
deletes among them, changes converge iff each deleted entity settles: it is deleted
once, and each field that an edit of it carries is no prose and is carried by an edit
newer than the delete (`order_independent`).
-/
namespace Pergamon
open Fallible Newest Replica

section
variable [Sqlite]

/-! ### Edits alone -/

/-- The live value of a field. -/
def live_value (r : Replica) (ty : EntityType) (id f : String) : Option Value :=
  (r.read_entity_fields ty id).bind (fun fields => fields[f]?)

/-- A carried value as the column of its field gives it back. -/
def stored_form (ty : EntityType) (f : String) (v : Value) : Value :=
  match tableOf ty with
  | some t => read_back (affinity_of t f) v
  | none => v

theorem live_value_single {ty : EntityType} {t : TableName} {id f : String} {r : Replica}
    (single : tableOf ty = some t) (there : (r.row t id).isSome) (known : f ∈ allowed_columns ty) :
    live_value r ty id f = some (sql_to_json (r.shownRow t id (defaultsOf ty) f)) := by
  obtain ⟨row,held⟩ := Option.isSome_iff_exists.mp there
  simp [live_value,read_single single,held,shownRow_some held,known]

variable [Scheduler]

/-- After edits of one entity in any order, the live value and the clock of a field
    are those of the edit with the greatest clock among those that carry it; the value
    is the one that the column stores for the carried one. -/
theorem edits_closed_form {T : List ChangeBody} {ty : EntityType} {id : String} {r : Replica}
    (mergeable : Mergeable T) (edits : ∀ b ∈ T, Edits ty id b) (run : apply_changes Replica.empty T = .ok r) :
    ∀ b ∈ T, ∀ f v, b.fields[f]? = some v → (∀ a ∈ T, f ∈ a.fields → a.clock ≤ b.clock) →
      live_value r ty id f = some (stored_form ty f v) ∧ r.entity_clock ty id f = some b.clock := by
  intro b inside f v given above
  obtain ⟨⟨rfl,rfl⟩,-⟩ := edits b inside
  obtain ⟨t,single⟩ := mergeable.table inside
  have undeleted (d) (there : d ∈ T) : d.op ≠ .Delete := (edits d there).2
  have lives (a : ChangeBody) : Survives T b.entity_type b.entity_id a :=
    fun d there deletes => absurd deletes.2 (undeleted d there)
  have tracks : Tracks T b.entity_type t b.entity_id r := by
    refine tracks_run mergeable ⟨?_,?_⟩ ?_ single run
    · exact fun d there deletes => absurd deletes.2 (undeleted d there)
    · exact fun d there deletes => absurd deletes.2 (undeleted d there)
    · exact fun d there op => absurd op (undeleted d there)
  have top : newest ChangeBody.clock (survivors T b.entity_type b.entity_id f) = some b := by
    refine newest_eq_some ?_ ?_ ?_
    · exact mem_survivors.mpr ⟨inside,⟨edits b inside,mem_fields.mpr ⟨v,mem_toList.mpr given⟩⟩,lives b⟩
    · intro a carrier
      obtain ⟨there,carries,-⟩ := mem_survivors.mp carrier
      exact above a there carries.2
    · intro a carrier tie
      exact mergeable.clock_injective a (mem_survivors.mp carrier).1 b inside tie
  have known := tracks.known b inside (edits b inside) (lives b) f (mem_fields.mpr ⟨v,mem_toList.mpr given⟩)
  have register := tracks.registers f b top
  constructor
  · rw [live_value_single single (tracks.there_of_newest top) known,
      show r.shownRow t b.entity_id _ f = _ from congrArg Prod.fst register]
    simp [stored_form,single,read_back,entry,given]
  · exact congrArg Prod.snd register

end

section
attribute [local instance] plainSqlite plainScheduler

/-- A change that carries a tag's name. -/
def renames (op : Op) (clock : Hlc) (name : Value) : ChangeBody :=
  ⟨.Tag,"t",op,clock,none,(∅ : FieldMap).insert "name" name,[]⟩

/-- Two names of a tag, the newer one first. -/
def twoNames : List ChangeBody := [renames .FieldPatch ⟨1,1,"b"⟩ (.Str "y"),renames .Upsert ⟨1,0,"a"⟩ (.Str "x")]

set_option maxRecDepth 10000 in
/-- The newer of two names wins, although it arrives first. -/
theorem edits_closed_form_renames : ∃ r : Replica, apply_changes Replica.empty twoNames = .ok r ∧
    live_value r .Tag "t" "name" = some (.Str "y") ∧ r.entity_clock .Tag "t" "name" = some ⟨1,1,"b"⟩ := by
  have mergeable : Mergeable twoNames := ⟨by decide,by decide,by simp [twoNames,renames],by decide⟩
  have edits : ∀ b ∈ twoNames, Edits .Tag "t" b := by decide
  have succeeds : ∃ r : Replica, apply_changes Replica.empty twoNames = .ok r ∧ True := by decide +kernel
  obtain ⟨r,run,-⟩ := succeeds
  exact ⟨r,run,edits_closed_form mergeable edits run _ (.head _) "name" (.Str "y") (by decide) (by decide)⟩

set_option maxRecDepth 10000 in
/-- A text column gives back a text, whatever was carried: the live name of a tag that
    was given the name `true` is `"1"`. -/
theorem carried_value_converted :
    ¬∀ (T : List ChangeBody) (ty : EntityType) (id : String) (r : Replica), Mergeable T →
      (∀ b ∈ T, Edits ty id b) → apply_changes Replica.empty T = .ok r →
      ∀ b ∈ T, ∀ f v, b.fields[f]? = some v → (∀ a ∈ T, f ∈ a.fields → a.clock ≤ b.clock) →
        live_value r ty id f = some v ∧ r.entity_clock ty id f = some b.clock := by
  intro claim
  have converted : ∃ r : Replica, apply_changes Replica.empty [renames .Upsert ⟨1,0,"a"⟩ (.Boolean true)] = .ok r ∧
      live_value r .Tag "t" "name" ≠ some (.Boolean true) := by decide +kernel
  obtain ⟨r,run,different⟩ := converted
  have mergeable : Mergeable [renames .Upsert ⟨1,0,"a"⟩ (.Boolean true)] :=
    ⟨by decide,by decide,by simp [renames],by decide⟩
  exact different (claim _ .Tag "t" r mergeable (by decide) run _ (.head _) "name" _ (by decide) (by decide)).1

end

/-! ### Deletes among them -/

section
variable [Sqlite]

/-- The same entity rows, field clocks and tombstones. -/
structure SameState (r r' : Replica) : Prop where
  rows : ∀ ty id, r.read_entity_fields ty id = r'.read_entity_fields ty id
  clocks : ∀ ty id f, r.entity_clock ty id f = r'.entity_clock ty id f
  tombstones : ∀ ty id, r.tombstone ty id = r'.tombstone ty id

/-- Each deleted entity is deleted once, and each field that an edit of it carries is
    no prose and is carried by an edit newer than the delete. -/
def DeletesSettle (S : List ChangeBody) : Prop :=
  ∀ d ∈ S, d.op = .Delete →
    (∀ d' ∈ S, Deletes d.entity_type d.entity_id d' → d' = d) ∧
    ∀ f, ∀ e ∈ S, Carries d.entity_type d.entity_id f e → ¬Prose d.entity_type f ∧
      ∃ n ∈ S, Carries d.entity_type d.entity_id f n ∧ d.clock < n.clock

namespace DeletesSettle
variable {S : List ChangeBody} {ty : EntityType} {t : TableName} {id f : String} {r r' : Replica}

omit [Sqlite] in
theorem calm (settled : DeletesSettle S) (ty : EntityType) (id : String) : Calm S ty id where
  once d inside deletes d' inside' deletes' := by
    obtain ⟨⟨rfl,rfl⟩,op⟩ := deletes
    exact (settled d inside op).1 d' inside' deletes'
  plain d inside deletes f b inside' carries := by
    obtain ⟨⟨rfl,rfl⟩,op⟩ := deletes
    exact ((settled d inside op).2 f b inside' carries).1

omit [Sqlite] in
/-- A field that no surviving edit carries is carried by none. -/
theorem uncarried (settled : DeletesSettle S) (gone : survivors S ty id f = []) :
    ∀ b ∈ S, ¬Carries ty id f b := by
  intro b inside carries
  by_cases lives : Survives S ty id b
  · exact List.not_mem_nil (gone ▸ mem_survivors.mpr ⟨inside,carries,lives⟩)
  · simp only [Survives,not_forall] at lives
    obtain ⟨d,there,deletes,-⟩ := lives
    obtain ⟨⟨rfl,rfl⟩,op⟩ := deletes
    obtain ⟨once,newer⟩ := settled d there op
    obtain ⟨-,n,inside',carries',above⟩ := newer f b inside carries
    have survives : Survives S d.entity_type d.entity_id n := by
      intro d' there' deletes'
      obtain rfl := once d' there' deletes'
      exact above
    exact List.not_mem_nil (gone ▸ mem_survivors.mpr ⟨inside',carries',survives⟩)

/-- Where the deletes settle, the changes alone determine every register. -/
theorem register (settled : DeletesSettle S) (single : tableOf ty = some t) (sourced : Sourced S r)
    (tracks : Tracks S ty t id r) (f : String) : r.register ty t id f =
      match newest ChangeBody.clock (survivors S ty id f) with
      | some b => entry t f b
      | none => (blankRow Replica.empty.now t (defaultsOf ty) f,none) := by
  cases top : newest ChangeBody.clock (survivors S ty id f) with
  | some b => exact tracks.registers f b top
  | none =>
    have none_carries := settled.uncarried (newest_eq_none.mp top)
    have value : r.shownRow t id (defaultsOf ty) f = blankRow Replica.empty.now t (defaultsOf ty) f := by
      rw [← sourced.now]
      exact (sourced.values ty t single id f).resolve_right
        (fun ⟨b,inside,carries,_⟩ => none_carries b inside carries)
    have clock : r.entity_clock ty id f = none := by
      cases slot : r.entity_clock ty id f with
      | none => rfl
      | some c =>
        obtain ⟨b,inside,carries,-⟩ := sourced.clocks ty id f c slot
        exact absurd carries (none_carries b inside)
    exact Prod.ext value clock

end DeletesSettle

/-- Changes whose deletes settle leave one state, in whatever order they succeed. -/
theorem sameState_of_settled {S : List ChangeBody} {r r' : Replica} (mergeable : Mergeable S)
    (settled : DeletesSettle S) (sourced : Sourced S r) (sourced' : Sourced S r')
    (tracks : ∀ ty t id, tableOf ty = some t → Tracks S ty t id r ∧ Tracks S ty t id r') : SameState r r' := by
  have registers (ty t id) (single : tableOf ty = some t) : r.register ty t id = r'.register ty t id := by
    funext f
    rw [settled.register single sourced (tracks ty t id single).1,
      settled.register single sourced' (tracks ty t id single).2]
  -- entities of other types have no clocks
  have unclocked (ty id f) (single : tableOf ty = none) (s : Replica) (sourced : Sourced S s) :
      s.entity_clock ty id f = none := by
    cases slot : s.entity_clock ty id f with
    | none => rfl
    | some c =>
      obtain ⟨b,inside,⟨⟨⟨rfl,-⟩,-⟩,-⟩,-⟩ := sourced.clocks ty id f c slot
      obtain ⟨t,single'⟩ := mergeable.table inside
      cases single.symm.trans single'
  have buried (ty id c) (s s' : Replica) (sourced : Sourced S s)
      (tracks : ∀ ty t id, tableOf ty = some t → Tracks S ty t id s') (slot : s.tombstone ty id = some c) :
      s'.tombstone ty id = some c := by
    obtain ⟨d,inside,deletes,rfl⟩ := sourced.tombstones ty id c slot
    obtain ⟨t,single⟩ := mergeable.table inside
    exact (tracks ty t id (deletes.1.1 ▸ single)).killed d inside deletes
  refine ⟨?_,?_,?_⟩
  · intro ty id
    cases single : tableOf ty with
    | some t =>
      obtain ⟨left,right⟩ := tracks ty t id single
      have there : (r.row t id).isSome = (r'.row t id).isSome := Bool.eq_iff_iff.mpr (left.there.trans right.there.symm)
      rw [read_single single,read_single single]
      cases held : r.row t id with
      | none =>
        rw [held] at there
        have missing : r'.row t id = none := by simpa using there
        rw [missing]
      | some row =>
        rw [held] at there
        obtain ⟨row',held'⟩ := Option.isSome_iff_exists.mp there.symm
        rw [held']
        refine congrArg some (field_map_congr (fun f _ => ?_))
        have value := congrArg Prod.fst (congrFun (registers ty t id single) f)
        simpa [register,shownRow_some held,shownRow_some held'] using value
    | none =>
      have missing (t) (other : ∀ ty, tableOf ty ≠ some t) : r.row t id = r'.row t id := by
        rw [sourced.others t other id,sourced'.others t other id]
      cases ty <;> simp only [tableOf,reduceCtorEq] at single
      · rfl
      · rfl
      · have gone : r.row .highlight_meta id = none := sourced.others _ (by intro ty; cases ty <;> decide) id
        simp [read_entity_fields,read_highlight,gone,← missing .highlight_meta (by intro ty; cases ty <;> decide)]
      · simp [read_entity_fields,read_columns,missing .review_cards (by intro ty; cases ty <;> decide)]
      · simp [read_entity_fields,read_columns,missing .review_logs (by intro ty; cases ty <;> decide)]
  · intro ty id f
    cases single : tableOf ty with
    | some t => exact congrArg Prod.snd (congrFun (registers ty t id single) f)
    | none =>
      rw [unclocked ty id f single r sourced,unclocked ty id f single r' sourced']
  · intro ty id
    refine Option.ext (fun c => ⟨?_,?_⟩)
    · exact buried ty id c r r' sourced (fun ty t id single => (tracks ty t id single).2)
    · exact buried ty id c r' r sourced' (fun ty t id single => (tracks ty t id single).1)

variable [Scheduler]

/-- Any two orders in which the changes succeed leave the same state. -/
def OrderIndependent (S : List ChangeBody) : Prop :=
  ∀ l l' r r', S.Perm l → S.Perm l' → apply_changes Replica.empty l = .ok r →
    apply_changes Replica.empty l' = .ok r' → SameState r r'

/-- No order of the changes breaks a constraint. -/
def NeverFails (S : List ChangeBody) : Prop := ∀ l, S.Perm l → ∃ r, apply_changes Replica.empty l = .ok r

theorem order_independent_of_settled {S : List ChangeBody} (mergeable : Mergeable S) (settled : DeletesSettle S)
    (unreferenced : Unreferenced S) : OrderIndependent S := by
  intro l l' r r' same same' run run'
  have unreferenced_perm {l : List ChangeBody} (same : S.Perm l) : Unreferenced l :=
    fun d inside op e inside' => unreferenced d (same.mem_iff.mpr inside) op e (same.mem_iff.mpr inside')
  have calm_perm {l : List ChangeBody} (same : S.Perm l) (ty id) : Calm l ty id :=
    ⟨fun d inside deletes d' inside' => (settled.calm ty id).once d (same.mem_iff.mpr inside) deletes d'
        (same.mem_iff.mpr inside'),
      fun d inside deletes f b inside' => (settled.calm ty id).plain d (same.mem_iff.mpr inside) deletes f b
        (same.mem_iff.mpr inside')⟩
  have tracked {l : List ChangeBody} {r : Replica} (same : S.Perm l) (run : apply_changes Replica.empty l = .ok r)
      (ty t id) (single : tableOf ty = some t) : Tracks S ty t id r :=
    (tracks_run (mergeable.perm same) (calm_perm same ty id) (unreferenced_perm same) single run).perm same.symm
      (mergeable.perm same)
  refine sameState_of_settled mergeable settled ((sourced_run (mergeable.perm same) run).perm same.symm)
    ((sourced_run (mergeable.perm same') run').perm same'.symm) (fun ty t id single => ⟨?_,?_⟩)
  · exact tracked same run ty t id single
  · exact tracked same' run' ty t id single

/-- An edit that refers to another entity fails where it comes first. -/
theorem unreferenced_of_neverFails {S : List ChangeBody} (mergeable : Mergeable S) (total : NeverFails S) :
    Unreferenced S := by
  rintro d inside op e inside' upserts apart ⟨t,single,c,column,refers,v,given,value⟩
  obtain ⟨u,single'⟩ := mergeable.table inside
  obtain ⟨front,back,rfl⟩ := List.append_of_mem inside'
  obtain ⟨r,run⟩ := total _ List.perm_middle
  obtain ⟨s,first,-⟩ := foldlM_cons_ok.mp run
  rw [apply_change_single _ single,if_neg upserts] at first
  have missing (t id) : Replica.empty.row t id = none := by simp [row,Replica.empty]
  have alive : Replica.empty.tombstone e.entity_type e.entity_id = none := rfl
  simp only [apply_fields,read_single single,missing,alive,Option.map_none,Option.isNone_none,and_self,if_true,
    bind_ok] at first
  obtain ⟨s',inserted,-⟩ := first
  have references := (insert_new_ok.mp (write_single_missing single (by decide) (missing _ _) inserted)).2.1
  have checked := List.all_eq_true.mp references c column
  have holds : assign t e.fields (blankRow Replica.empty.now t (defaultsOf e.entity_type)) c.name =
      .Text d.entity_id := by
    simp [assign,given,value]
  -- the row that is referred to could only be the one just inserted
  simp only [holds,reference_ok,refers.trans single',row_set_row,missing] at checked
  split at checked
  · next here =>
    exact apart ⟨tableOf_injective single (here.1 ▸ single'),here.2.symm⟩
  · cases checked

/-! ### What two orders of a delete show -/

section
variable {l : List ChangeBody} {d : ChangeBody} {r : Replica}

/-- A delete that comes last leaves its own tombstone and the clocks as they were. -/
theorem delete_last (mergeable : Mergeable (l ++ [d])) (op : d.op = .Delete)
    (run : apply_changes Replica.empty (l ++ [d]) = .ok r) :
    r.tombstone d.entity_type d.entity_id = some d.clock ∧
      ∃ s, apply_changes Replica.empty l = .ok s ∧ ∀ ty id f, r.entity_clock ty id f = s.entity_clock ty id f := by
  obtain ⟨s,before,last⟩ := foldlM_concat_ok.mp run
  obtain ⟨t,single⟩ := mergeable.table (b := d) (by simp)
  rw [apply_change_single s single,if_pos op] at last
  have kills := apply_delete_kills single last
  refine ⟨?_,s,before,kills.clocks⟩
  rw [kills.tombstones,if_pos ⟨rfl,rfl⟩,(mergeable.causal (b := d) (by simp)).fits]

/-- A field that some edit carries has a clock, if the delete comes last. -/
theorem stamped_of_delete_last (mergeable : Mergeable (l ++ [d])) (unreferenced : Unreferenced (l ++ [d]))
    (op : d.op = .Delete) (first : ∀ b ∈ l, ¬Deletes d.entity_type d.entity_id b)
    (run : apply_changes Replica.empty (l ++ [d]) = .ok r) {f : String} {e : ChangeBody} (inside : e ∈ l)
    (carries : Carries d.entity_type d.entity_id f e) :
    ∃ c, r.entity_clock d.entity_type d.entity_id f = some c := by
  obtain ⟨-,s,before,same⟩ := delete_last mergeable op run
  obtain ⟨t,single⟩ := mergeable.table (b := d) (by simp)
  have tracks : Tracks l d.entity_type t d.entity_id s := by
    refine tracks_run mergeable.front ⟨?_,?_⟩ ?_ single before
    · exact fun d inside deletes => absurd deletes (first d inside)
    · exact fun d inside deletes => absurd deletes (first d inside)
    · exact fun d inside op e inside' => unreferenced d (by simp [inside]) op e (by simp [inside'])
  have carrier : e ∈ survivors l d.entity_type d.entity_id f :=
    mem_survivors.mpr ⟨inside,carries,fun d inside deletes => absurd deletes (first d inside)⟩
  cases top : newest ChangeBody.clock (survivors l d.entity_type d.entity_id f) with
  | none => exact absurd (newest_eq_none.mp top ▸ carrier) List.not_mem_nil
  | some a => exact ⟨a.clock,by rw [same]; exact congrArg Prod.snd (tracks.registers f a top)⟩

/-- A field gets no clock, if the delete comes first and every edit that carries it is
    older or carries it as prose. -/
theorem unstamped_of_delete_first (mergeable : Mergeable (d :: l)) (op : d.op = .Delete)
    (once : ∀ b ∈ l, ¬Deletes d.entity_type d.entity_id b) {f : String}
    (shielded : ∀ b ∈ l, Carries d.entity_type d.entity_id f b → Prose d.entity_type f ∨ b.clock ≤ d.clock)
    (run : apply_changes Replica.empty (d :: l) = .ok r) :
    r.tombstone d.entity_type d.entity_id = some d.clock ∧ r.entity_clock d.entity_type d.entity_id f = none := by
  induction l using List.reverseRecOn generalizing r with
  | nil =>
    obtain ⟨tomb,s,before,same⟩ := delete_last (l := []) mergeable op run
    obtain rfl := foldlM_nil_ok.mp before
    exact ⟨tomb,same _ _ _⟩
  | append_singleton l b ih =>
    obtain ⟨s,before,last⟩ := foldlM_concat_ok.mp (show apply_changes Replica.empty ((d :: l) ++ [b]) = .ok r from run)
    have front : Mergeable (d :: l) := Mergeable.front (S := d :: l) mergeable
    obtain ⟨tomb,clock⟩ := ih front (fun b inside => once b (by simp [inside]))
      (fun b inside => shielded b (by simp [inside])) before
    have sourced := sourced_run front before
    obtain ⟨t,single⟩ := mergeable.table (b := b) (by simp)
    rw [apply_change_single s single] at last
    split at last
    · next deletes =>
      have kills := apply_delete_kills single last
      have apart : ¬(d.entity_type = b.entity_type ∧ d.entity_id = b.entity_id) :=
        fun same => once b (by simp) ⟨⟨same.1.symm,same.2.symm⟩,deletes⟩
      rw [kills.tombstones,if_neg apart,kills.clocks]
      exact ⟨tomb,clock⟩
    · next upserts =>
      obtain ⟨merges,-⟩ := apply_fields_ok single (mergeable.causal (by simp))
        (fun f _ => sourced.kept front single b.entity_id f) last
      rw [merges.only.tombstone]
      refine ⟨tomb,?_⟩
      by_cases here : d.entity_type = b.entity_type ∧ d.entity_id = b.entity_id
      · rw [here.1,here.2] at tomb clock shielded ⊢
        have unmerged : ∀ v, (f,v) ∉ mergedFields s b := by
          intro v inside
          simp only [mergedFields,tomb,mem_surviving] at inside
          obtain ⟨given,plain,newer⟩ := inside
          have carries : Carries b.entity_type b.entity_id f b :=
            ⟨⟨⟨rfl,rfl⟩,upserts⟩,mem_fields.mpr ⟨v,mem_toList.mpr given⟩⟩
          have older := (shielded b (by simp) carries).resolve_left plain
          have tie := le_antisymm older (not_lt.mp newer)
          have same := mergeable.clock_injective b (by simp) d (by simp) tie
          exact upserts (same ▸ op)
        rw [← clock]
        exact congrArg Prod.snd (merges.other f unmerged)
      · rw [merges.only.clocks _ _ _ here,clock]

end

/-- Two deletes of one entity leave different tombstones, as either comes last. -/
theorem deletes_once {S : List ChangeBody} (mergeable : Mergeable S) (total : NeverFails S)
    (independent : OrderIndependent S) {d d' : ChangeBody} (inside : d ∈ S) (op : d.op = .Delete) (inside' : d' ∈ S)
    (deletes : Deletes d.entity_type d.entity_id d') : d' = d := by
  by_contra different
  obtain ⟨front,back,rfl⟩ := List.append_of_mem inside
  have other : d' ∈ front ++ back := by simpa [different] using inside'
  obtain ⟨front',back',split⟩ := List.append_of_mem other
  have last : (front ++ d :: back).Perm ((front' ++ back') ++ [d,d']) := by
    refine List.perm_middle.trans ?_
    rw [split]
    refine (List.Perm.cons d List.perm_middle).trans ?_
    exact show ([d,d'] ++ (front' ++ back')).Perm _ from List.perm_append_comm
  have swapped : (front ++ d :: back).Perm ((front' ++ back') ++ [d',d]) :=
    last.trans (List.Perm.append_left _ (List.Perm.swap d' d []))
  obtain ⟨r,run⟩ := total _ last
  obtain ⟨r',run'⟩ := total _ swapped
  have same := (independent _ _ r r' last swapped run run').tombstones d.entity_type d.entity_id
  have left := (delete_last (l := (front' ++ back') ++ [d]) (d := d') (by simpa using mergeable.perm last) deletes.2
    (by simpa using run)).1
  have right := (delete_last (l := (front' ++ back') ++ [d']) (d := d) (by simpa using mergeable.perm swapped) op
    (by simpa using run')).1
  rw [deletes.1.1,deletes.1.2] at left
  rw [left,right,Option.some.injEq] at same
  exact different (mergeable.clock_injective d' inside' d inside same)

/-- Where no order of the changes fails, independence of the order asks that the
    deletes settle. -/
theorem settled_of_order_independent {S : List ChangeBody} (mergeable : Mergeable S) (total : NeverFails S)
    (independent : OrderIndependent S) : DeletesSettle S := by
  intro d inside op
  have once : ∀ d' ∈ S, Deletes d.entity_type d.entity_id d' → d' = d :=
    fun d' inside' deletes => deletes_once mergeable total independent inside op inside' deletes
  refine ⟨once,fun f e there carries => ?_⟩
  by_contra unsettled
  have shielded : ∀ b ∈ S, Carries d.entity_type d.entity_id f b → Prose d.entity_type f ∨ b.clock ≤ d.clock := by
    intro b inside' carries
    by_contra newer
    rw [not_or,not_le] at newer
    exact unsettled ⟨newer.1,b,inside',carries,newer.2⟩
  have unreferenced := unreferenced_of_neverFails mergeable total
  obtain ⟨front,back,rfl⟩ := List.append_of_mem inside
  have first : (front ++ d :: back).Perm (d :: (front ++ back)) := List.perm_middle
  have last : (front ++ d :: back).Perm ((front ++ back) ++ [d]) :=
    first.trans (show ([d] ++ (front ++ back)).Perm _ from List.perm_append_comm)
  have apart := (List.pairwise_cons.mp (mergeable.perm first).distinct).1
  have inner {b : ChangeBody} (inside : b ∈ front ++ back) : b ∈ front ++ d :: back :=
    first.mem_iff.mpr (.tail _ inside)
  have others : ∀ b ∈ front ++ back, ¬Deletes d.entity_type d.entity_id b := by
    intro b inside' deletes
    exact apart b inside' (by rw [once b (inner inside') deletes])
  have before : e ∈ front ++ back := by
    rcases List.mem_cons.mp (first.mem_iff.mp there) with rfl | before
    · exact absurd op carries.1.2
    · exact before
  obtain ⟨r,run⟩ := total _ first
  obtain ⟨r',run'⟩ := total _ last
  have same := (independent _ _ r r' first last run run').clocks d.entity_type d.entity_id f
  have unstamped := (unstamped_of_delete_first (mergeable.perm first) op others
    (fun b inside' => shielded b (inner inside')) run).2
  obtain ⟨c,stamped⟩ := stamped_of_delete_last (mergeable.perm last)
    (fun d inside op e inside' => unreferenced d (last.mem_iff.mpr inside) op e (last.mem_iff.mpr inside')) op others
    run' before carries
  rw [unstamped,stamped] at same
  cases same

end

section
attribute [local instance] plainSqlite plainScheduler

/-- A delete of the tag. -/
def removes (clock : Hlc) : ChangeBody := ⟨.Tag,"t",.Delete,clock,none,∅,[]⟩

/-- A tag that is deleted between two changes of its name. -/
def revived : List ChangeBody :=
  [renames .Upsert ⟨1,0,"a"⟩ (.Str "x"),removes ⟨2,0,"b"⟩,renames .FieldPatch ⟨3,0,"a"⟩ (.Str "y")]

end
end Pergamon
