import Pergamon.Emit
import Pergamon.Writes

/-!
Changes that come after everything a replica knows of their entity. Such a change meets
no conflict: each of its fields is written and stamped (`apply_fields_takes`), so that
applying it is a run of writes of single fields. What such a run leaves is what the write
of all its fields at once leaves (`take_single_ok`), but for the shell of a highlight
(`take_highlight_ok`).
-/
namespace Pergamon
open Fallible

namespace Replica

section
variable [Sqlite] {ty : EntityType} {t : TableName} {id : String} {r r' : Replica} {fields : FieldMap}

/-! ### Changes that meet no conflict -/

/-- Write one field of a change and stamp it. -/
def take_field (body : ChangeBody) (r : Replica) (field : String × Value) : Except StorageError Replica := do
  let r ← r.write_one_field body field.1 field.2
  .ok (r.set_entity_clock body.entity_type body.entity_id field.1 body.clock)

/-- The change comes after all that the entity has seen, the version of its prose was in
    view when it was made, and it carries no prose to a dead entity. -/
structure Succeeds (r : Replica) (body : ChangeBody) : Prop where
  newer : ∀ f c, r.entity_clock body.entity_type body.entity_id f = some c → c < body.clock
  observed : ∀ f ∈ body.fields, Prose body.entity_type f →
    body.base_version = r.entity_clock body.entity_type body.entity_id f
  later : ∀ dead, r.tombstone body.entity_type body.entity_id = some dead → dead ≤ body.clock
  living : ∀ dead, r.tombstone body.entity_type body.entity_id = some dead →
    ∀ f ∈ body.fields, ¬Prose body.entity_type f

/-- A field whose clock is beaten and whose prose was in view is taken. -/
theorem merge_takes (body : ChangeBody) (f : String) (v : Value)
    (newer : ∀ c, r.entity_clock body.entity_type body.entity_id f = some c → c < body.clock)
    (observed : Prose body.entity_type f → body.base_version = r.entity_clock body.entity_type body.entity_id f)
    (local_fields : Option FieldMap) : merge_one_field body local_fields r (f,v) = take_field body r (f,v) := by
  unfold merge_one_field
  cases held : local_fields.bind (fun fields => fields[f]?) with
  | none => simp [take_field]
  | some w =>
    cases slot : r.entity_clock body.entity_type body.entity_id f with
    | none => simp [take_field]
    | some c =>
      have taken : merge_field (strategy_for body.entity_type f) ⟨some (w,c),v,body.clock,body.base_version⟩ =
          .TakeIncoming := by
        have beaten := newer c slot
        by_cases prose : Prose body.entity_type f
        · rw [prose,observed prose,slot]
          by_cases same : w = v <;> simp [merge_field,merge_conflict_copy,same,beaten]
        · have lww : merge_field (strategy_for body.entity_type f) ⟨some (w,c),v,body.clock,body.base_version⟩ =
              merge_lww ⟨some (w,c),v,body.clock,body.base_version⟩ := by
            unfold merge_field
            split
            · next copies => exact absurd copies prose
            · rfl
          simp [lww,merge_lww,beaten]
      simp [taken,take_field]

/-- What taking a field leaves of the stamps. -/
theorem take_field_clock {body : ChangeBody} {field : String × Value} (ok : take_field body r field = .ok r')
    {f : String} (apart : f ≠ field.1) :
    r'.entity_clock body.entity_type body.entity_id f = r.entity_clock body.entity_type body.entity_id f := by
  simp only [take_field,bind_ok,Except.ok.injEq] at ok
  obtain ⟨w,written,rfl⟩ := ok
  rw [entity_clock_set,if_neg (fun same => apart same.2.2)]
  exact (write_rowsOnly (by decide) written).clock _ _ _

/-- A change that succeeds all its entity has seen is taken field by field. -/
theorem apply_fields_takes {body : ChangeBody} (succeeds : Succeeds r body) :
    r.apply_fields body = (do
      let r ←
        if (r.read_entity_fields body.entity_type body.entity_id).isNone ∧
            (r.tombstone body.entity_type body.entity_id).isNone then
          r.write_entity_fields body.entity_type body.entity_id body.fields .Upsert
        else .ok r
      body.fields.toList.foldlM (take_field body) r) := by
  -- no field that is left has been stamped yet
  have loop (local_fields : Option FieldMap) (s : Replica)
      (same : ∀ f, s.entity_clock body.entity_type body.entity_id f =
        r.entity_clock body.entity_type body.entity_id f) :
      body.fields.toList.foldlM
          (apply_field body (r.tombstone body.entity_type body.entity_id) local_fields) s =
        body.fields.toList.foldlM (take_field body) s := by
    refine foldlM_congr_rest (fun rest t => rest.Pairwise (fun a b => a.1 ≠ b.1) ∧
      ∀ field ∈ rest, field ∈ body.fields.toList ∧ t.entity_clock body.entity_type body.entity_id field.1 =
        r.entity_clock body.entity_type body.entity_id field.1) ?_
      ⟨toList_distinct _,fun field inside => ⟨inside,same field.1⟩⟩
    rintro ⟨f,v⟩ rest t ⟨distinct,unstamped⟩
    obtain ⟨apart,distinct⟩ := List.pairwise_cons.mp distinct
    obtain ⟨inside,slot⟩ := unstamped _ (.head _)
    have given : f ∈ body.fields := mem_fields.mpr ⟨v,inside⟩
    have merges := merge_takes (r := t) body f v
      (fun c held => succeeds.newer f c (slot ▸ held)) (fun prose => (succeeds.observed f given prose).trans slot.symm)
      local_fields
    refine ⟨?_,fun t' taken => ⟨distinct,fun field later => ?_⟩⟩
    · unfold apply_field
      split
      · next dead killed =>
        rw [if_neg (succeeds.living dead killed f given),if_neg (not_lt.mpr (succeeds.later dead killed)),merges]
      · exact merges
    · obtain ⟨inside',slot'⟩ := unstamped field (.tail _ later)
      exact ⟨inside',(take_field_clock taken (Ne.symm (apart field later))).trans slot'⟩
  unfold apply_fields
  simp only
  split
  · cases written : r.write_entity_fields body.entity_type body.entity_id body.fields .Upsert with
    | error e => rfl
    | ok s => exact loop _ s (fun f => (write_rowsOnly (by decide) written).clock _ _ _)
  · exact loop _ r (fun _ => rfl)

/-! ### A run of single writes -/

/-- Stamp the fields of a list. -/
def stamps (ty : EntityType) (id : String) (c : Hlc) (l : List (String × Value)) (r : Replica) : Replica :=
  l.foldl (fun r field => r.set_entity_clock ty id field.1 c) r

/-- Assign the fields of a list one after the other. -/
def assignAll (t : TableName) (l : List (String × Value)) (row : Row) : Row :=
  l.foldl (fun row field => assign t ((∅ : FieldMap).insert field.1 field.2) row) row

theorem assignAll_get {l : List (String × Value)} (distinct : l.Pairwise (fun a b => a.1 ≠ b.1)) (row : Row) (g : String) :
    (∀ v, (g,v) ∈ l → assignAll t l row g = coerce (affinity_of t g) (json_to_sql v)) ∧
      ((∀ v, (g,v) ∉ l) → assignAll t l row g = row g) := by
  induction l generalizing row with
  | nil => exact ⟨by simp,fun _ => rfl⟩
  | cons field l ih =>
    obtain ⟨apart,distinct⟩ := List.pairwise_cons.mp distinct
    obtain ⟨carried,others⟩ := ih distinct (assign t ((∅ : FieldMap).insert field.1 field.2) row)
    change (∀ v, (g,v) ∈ field :: l → assignAll t l _ g = _) ∧ (_ → assignAll t l _ g = _)
    refine ⟨fun v inside => ?_,fun absent => ?_⟩
    · rcases List.mem_cons.mp inside with rfl | later
      · rw [others (fun w twin => apart _ twin rfl),assign_one,if_pos rfl]
      · exact carried v later
    · rw [others (fun v later => absent v (.tail _ later)),assign_one,if_neg]
      rintro rfl
      exact absent field.2 (.head _)

/-- Assigning the fields of a map one after the other is assigning them at once. -/
theorem assignAll_toList (t : TableName) (fields : FieldMap) (row : Row) :
    assignAll t fields.toList row = assign t fields row := by
  funext g
  obtain ⟨carried,others⟩ := assignAll_get (t := t) (toList_distinct fields) row g
  cases given : fields[g]? with
  | none =>
    rw [others (fun v inside => by rw [mem_toList,given] at inside; cases inside),assign,given]
  | some v => rw [carried v (mem_toList.mpr given),assign,given]

omit [Sqlite] in
theorem stamps_concat (c : Hlc) (l : List (String × Value)) (field : String × Value) :
    stamps ty id c (l ++ [field]) r = (stamps ty id c l r).set_entity_clock ty id field.1 c := List.foldl_append

omit [Sqlite] in
theorem stamps_set_row (c : Hlc) (l : List (String × Value)) (row : Row) :
    stamps ty id c l (r.set_row t id row) = (stamps ty id c l r).set_row t id row := by
  induction l generalizing r with
  | nil => rfl
  | cons field l ih => exact ih (r := r.set_entity_clock ty id field.1 c)

omit [Sqlite] in
theorem stamps_rest (ty : EntityType) (id : String) (c : Hlc) (l : List (String × Value)) :
    ∃ clocks, stamps ty id c l r = { r with sync_entity_clock := clocks } := by
  induction l generalizing r with
  | nil => exact ⟨_,rfl⟩
  | cons field l ih =>
    obtain ⟨clocks,same⟩ := ih (r := r.set_entity_clock ty id field.1 c)
    exact ⟨clocks,same⟩

omit [Sqlite] in
@[simp] theorem row_stamps (c : Hlc) (l : List (String × Value)) (t : TableName) (id' : String) :
    (stamps ty id c l r).row t id' = r.row t id' := by
  obtain ⟨clocks,same⟩ := stamps_rest ty id (r := r) c l
  rw [same]
  rfl

omit [Sqlite] in
@[simp] theorem now_stamps (c : Hlc) (l : List (String × Value)) : (stamps ty id c l r).now = r.now := by
  obtain ⟨clocks,same⟩ := stamps_rest ty id (r := r) c l
  rw [same]

omit [Sqlite] in
theorem clock_stamps (c : Hlc) (l : List (String × Value)) (ty' : EntityType) (id' f : String) :
    (stamps ty id c l r).entity_clock ty' id' f =
      if ty' = ty ∧ id' = id ∧ f ∈ l.map Prod.fst then some c.stored else r.entity_clock ty' id' f := by
  induction l generalizing r with
  | nil => simp [stamps]
  | cons field l ih =>
    change (stamps ty id c l (r.set_entity_clock ty id field.1 c)).entity_clock ty' id' f = _
    rw [ih,entity_clock_set,List.map_cons]
    by_cases here : ty' = ty ∧ id' = id
    · by_cases later : f ∈ l.map Prod.fst
      · simp [here,later]
      · simp [here,later]
    · rw [if_neg (fun all => here ⟨all.1,all.2.1⟩),if_neg (fun all => here ⟨all.1,all.2.1⟩),
        if_neg (fun all => here ⟨all.1,all.2.1⟩)]

/-- Taking some fields of an entity that one table keeps assigns and stamps them. -/
theorem take_single_ok {body : ChangeBody} {l : List (String × Value)} (single : tableOf body.entity_type = some t)
    (written : (r.row t body.entity_id).isSome ∨ l ≠ []) (ok : l.foldlM (take_field body) r = .ok r') :
    (∀ field ∈ l, field.1 ∈ allowed_columns body.entity_type) ∧
      r' = stamps body.entity_type body.entity_id body.clock l (r.set_row t body.entity_id
        (assignAll t l (r.shownRow t body.entity_id (defaultsOf body.entity_type)))) := by
  induction l generalizing r with
  | nil =>
    obtain rfl := foldlM_nil_ok.mp ok
    obtain ⟨row,held⟩ := Option.isSome_iff_exists.mp (written.resolve_right (fun differs => differs rfl))
    refine ⟨by simp,?_⟩
    rw [shownRow_some held]
    exact (set_row_same r t body.entity_id held).symm
  | cons field l ih =>
    obtain ⟨s,first,rest⟩ := foldlM_cons_ok.mp ok
    simp only [take_field,bind_ok,Except.ok.injEq] at first
    obtain ⟨w,written,rfl⟩ := first
    obtain ⟨known,rfl⟩ := write_one_field_ok single written
    obtain ⟨others,same⟩ := ih (.inl (by simp)) rest
    refine ⟨?_,?_⟩
    · rintro other (_ | ⟨_,inside⟩)
      · exact known
      · exact others other inside
    · generalize assigned : assign t ((∅ : FieldMap).insert field.1 field.2)
        (r.shownRow t body.entity_id (defaultsOf body.entity_type)) = row at same
      have shown : (((r.set_row t body.entity_id row).set_entity_clock body.entity_type body.entity_id field.1
          body.clock)).shownRow t body.entity_id (defaultsOf body.entity_type) = row := shownRow_some (by simp)
      rw [same,shown]
      have twice : (r.set_row t body.entity_id row).set_row t body.entity_id (assignAll t l row) = _ := set_row_twice ..
      subst assigned
      exact congrArg (fun s => stamps body.entity_type body.entity_id body.clock l
        (s.set_entity_clock body.entity_type body.entity_id field.1 body.clock)) twice

/-- Fields that their row may take are taken. -/
theorem take_single_total {body : ChangeBody} {l : List (String × Value)} (single : tableOf body.entity_type = some t)
    (there : (r.row t body.entity_id).isSome)
    (lets : ∀ f v, (f,v) ∈ l → f ∈ allowed_columns body.entity_type ∧ r.fits t body.entity_id f v) :
    ∃ r', l.foldlM (take_field body) r = .ok r' := by
  have run := foldlM_total (f := take_field body) (l := l) (s := r)
    (fun rest s => (s.row t body.entity_id).isSome ∧
      ∀ f v, (f,v) ∈ rest → f ∈ allowed_columns body.entity_type ∧ s.fits t body.entity_id f v) ?_ ⟨there,lets⟩
  · obtain ⟨r',ok,-⟩ := run
    exact ⟨r',ok⟩
  rintro ⟨f,v⟩ rest s ⟨there,lets⟩
  obtain ⟨row,held⟩ := Option.isSome_iff_exists.mp there
  obtain ⟨known,fit⟩ := lets f v (.head _)
  have written : s.write_one_field body f v =
      .ok (s.set_row t body.entity_id (assign t ((∅ : FieldMap).insert f v) row)) := by
    refine (update_single_iff single (by decide) held (by simp)).mpr ⟨?_,?_,rfl⟩
    · intro g given
      rw [mem_one.mp given]
      exact known
    · intro g w given
      rw [Std.ExtTreeMap.getElem?_insert] at given
      split at given
      · next same =>
        obtain rfl := compare_eq_iff_eq.mp same
        exact Option.some.inj given ▸ fit
      · simp at given
  refine ⟨_,bind_ok.mpr ⟨_,written,rfl⟩,by simp,fun g w later => ?_⟩
  obtain ⟨known',fit'⟩ := lets g w (.tail _ later)
  exact ⟨known',fits_congr (s := set_entity_clock _ _ _ _ _) (row_set_row_apart _) (set_row_more _) fit'⟩

/-- A field as a map. -/
def one (field : String × Value) : FieldMap := (∅ : FieldMap).insert field.1 field.2

omit [Sqlite] in
theorem one_get (field : String × Value) (f : String) : (one field)[f]? = if f = field.1 then some field.2 else none := by
  simp [one,Std.ExtTreeMap.getElem?_insert,eq_comm (a := f)]

/-- Assign the fields of a list to an annotation one after the other. -/
def annotated (l : List (String × Value)) (row : Row) : Row :=
  l.foldl (fun row field => assign .highlight_meta (annotationFields (one field)) row) row

/-- A shell takes the title and the status of the last write only. -/
theorem shell_twice (fields fields' : FieldMap) (row : Row) :
    assign .content_items (shellFields fields') (assign .content_items (shellFields fields) row) =
      assign .content_items (shellFields fields') row := by
  funext f
  simp only [assign,shellFields_get]
  by_cases status : f = "status"
  · simp [status]
  · by_cases title : f = "title" <;> simp [status,title]

/-- Taking one field of a highlight. -/
theorem take_highlight_one {body : ChangeBody} {field : String × Value} (highlight : body.entity_type = .Highlight) :
    take_field body r field = .ok r' ↔ field.1 ∈ HIGHLIGHT_COLS ∧ HighlightFits r body.entity_id (one field) ∧
      r' = (r.set_highlight body.entity_id
        (assign .content_items (shellFields (one field)) (r.shownShell body.entity_id))
        (assign .highlight_meta (annotationFields (one field)) (r.shownMeta body.entity_id))).set_entity_clock
          body.entity_type body.entity_id field.1 body.clock := by
  have known : (∀ f ∈ one field, f ∈ HIGHLIGHT_COLS) ↔ field.1 ∈ HIGHLIGHT_COLS :=
    ⟨fun all => all _ (mem_one.mpr rfl),fun inside f given => mem_one.mp given ▸ inside⟩
  have written : r.write_one_field body field.1 field.2 =
      r.write_entity_fields .Highlight body.entity_id (one field) .FieldPatch := by
    rw [write_one_field,highlight]
    rfl
  simp only [take_field,bind_ok,Except.ok.injEq,written,write_highlight_iff (by decide : Op.FieldPatch ≠ .Delete),known]
  constructor
  · rintro ⟨w,⟨inside,fits,rfl⟩,rfl⟩
    exact ⟨inside,fits,rfl⟩
  · rintro ⟨inside,fits,rfl⟩
    exact ⟨_,⟨inside,fits,rfl⟩,rfl⟩

omit [Sqlite] in
theorem stamps_set_highlight (c : Hlc) (l : List (String × Value)) (shell annotation : Row) :
    stamps ty id c l (r.set_highlight id shell annotation) = (stamps ty id c l r).set_highlight id shell annotation := by
  rw [set_highlight,stamps_set_row,stamps_set_row]
  rfl

theorem take_highlight_ok {body : ChangeBody} {l : List (String × Value)} {field : String × Value}
    (highlight : body.entity_type = .Highlight) (ok : (l ++ [field]).foldlM (take_field body) r = .ok r') :
    (∀ other ∈ l ++ [field], other.1 ∈ HIGHLIGHT_COLS) ∧
      r' = stamps body.entity_type body.entity_id body.clock (l ++ [field])
        (r.set_highlight body.entity_id (assign .content_items (shellFields (one field)) (r.shownShell body.entity_id))
          (annotated (l ++ [field]) (r.shownMeta body.entity_id))) := by
  induction l using List.reverseRecOn generalizing field r' with
  | nil =>
    obtain ⟨s,first,last⟩ := foldlM_cons_ok.mp ok
    obtain rfl := foldlM_nil_ok.mp last
    obtain ⟨inside,-,rfl⟩ := (take_highlight_one highlight).mp first
    exact ⟨by simpa using inside,rfl⟩
  | append_singleton l last ih =>
    obtain ⟨s,before,taken⟩ := foldlM_concat_ok.mp ok
    obtain ⟨known,rfl⟩ := ih before
    obtain ⟨inside,-,rfl⟩ := (take_highlight_one highlight).mp taken
    refine ⟨fun other member => ?_,?_⟩
    · rcases List.mem_append.mp member with there | there
      · exact known other there
      · exact List.mem_singleton.mp there ▸ inside
    · have shell (s a : Row) : (stamps body.entity_type body.entity_id body.clock (l ++ [last])
          (r.set_highlight body.entity_id s a)).shownShell body.entity_id = s := by
        simp [shownShell,set_highlight,row_set_row]
      have noted (s a : Row) : (stamps body.entity_type body.entity_id body.clock (l ++ [last])
          (r.set_highlight body.entity_id s a)).shownMeta body.entity_id = a := by
        exact shownRow_some (by simp [set_highlight])
      rw [shell,noted,shell_twice,← stamps_set_highlight,set_highlight_twice,annotated,annotated,
        List.foldl_append (l := l ++ [last])]
      exact (stamps_concat _ _ _).symm

theorem annotated_get {l : List (String × Value)} (distinct : l.Pairwise (fun a b => a.1 ≠ b.1)) (row : Row) (g : String) :
    (∀ v, (g,v) ∈ l → annotated l row g =
      if g = "status" ∨ g = "title" then row g else coerce (affinity_of .highlight_meta g) (json_to_sql v)) ∧
      ((∀ v, (g,v) ∉ l) → annotated l row g = row g) := by
  have first (field : String × Value) (row : Row) : assign .highlight_meta (annotationFields (one field)) row g =
      if g = "status" ∨ g = "title" then row g
      else if g = field.1 then coerce (affinity_of .highlight_meta g) (json_to_sql field.2) else row g := by
    rw [assign,annotationFields_get,one_get]
    by_cases shell : g = "status" ∨ g = "title"
    · rw [if_pos shell,if_pos shell]
    · rw [if_neg shell,if_neg shell]
      by_cases here : g = field.1 <;> simp [here]
  induction l generalizing row with
  | nil => exact ⟨by simp,fun _ => rfl⟩
  | cons field l ih =>
    obtain ⟨apart,distinct⟩ := List.pairwise_cons.mp distinct
    obtain ⟨carried,others⟩ := ih distinct (assign .highlight_meta (annotationFields (one field)) row)
    change (∀ v, (g,v) ∈ field :: l → annotated l _ g = _) ∧ (_ → annotated l _ g = _)
    refine ⟨fun v inside => ?_,fun absent => ?_⟩
    · rcases List.mem_cons.mp inside with rfl | later
      · rw [others (fun w twin => apart _ twin rfl),first,if_pos rfl]
      · rw [carried v later,first]
        split
        · rfl
        · rfl
    · rw [others (fun v later => absent v (.tail _ later)),first]
      split
      · rfl
      · rw [if_neg]
        rintro rfl
        exact absent field.2 (.head _)

theorem annotated_toList (fields : FieldMap) (row : Row) :
    annotated fields.toList row = assign .highlight_meta (annotationFields fields) row := by
  funext g
  obtain ⟨carried,others⟩ := annotated_get (toList_distinct fields) row g
  rw [assign,annotationFields_get]
  cases given : fields[g]? with
  | none =>
    rw [others (fun v inside => by rw [mem_toList,given] at inside; cases inside),ite_self]
  | some v =>
    rw [carried v (mem_toList.mpr given)]
    split <;> rfl

theorem HighlightFits.mono {s : Replica} (fits : HighlightFits r id fields)
    (more : ∀ id, (r.row .content_items id).isSome → (s.row .content_items id).isSome) : HighlightFits s id fields :=
  ⟨fits.status,fits.quote,fun v parent given named => (fits.source v parent given named).imp_right (more parent)⟩

/-- Each field of a highlight that may stand with the others may stand alone. -/
theorem HighlightFits.one_field (fits : HighlightFits r id fields) {f : String} {v : Value}
    (given : fields[f]? = some v) : HighlightFits r id (one (f,v)) := by
  have carried {g : String} {w : Value} (held : (one (f,v))[g]? = some w) : fields[g]? = some w := by
    rw [one_get] at held
    split at held
    · next here => rw [here,given]; exact held
    · cases held
  refine ⟨?_,fun w held => fits.quote w (carried held),fun w parent held => fits.source w parent (carried held)⟩
  by_cases status : f = "status"
  · subst status
    have same : shellStatus (one ("status",v)) = shellStatus fields := by simp [shellStatus,one_get,given]
    rw [same]
    exact fits.status
  · have blank : shellStatus (one (f,v)) = "inbox" := by simp [shellStatus,one_get,Ne.symm status]
    rw [blank]
    decide

/-- Fields that a highlight may take are taken. -/
theorem take_highlight_total {body : ChangeBody} {l : List (String × Value)} (highlight : body.entity_type = .Highlight)
    (lets : ∀ field ∈ l, field.1 ∈ HIGHLIGHT_COLS ∧ HighlightFits r body.entity_id (one field)) :
    ∃ r', l.foldlM (take_field body) r = .ok r' := by
  have run := foldlM_total (f := take_field body) (l := l) (s := r)
    (fun rest s => ∀ field ∈ rest, field.1 ∈ HIGHLIGHT_COLS ∧ HighlightFits s body.entity_id (one field)) ?_ lets
  · obtain ⟨r',ok,-⟩ := run
    exact ⟨r',ok⟩
  intro field rest s lets
  obtain ⟨known,fits⟩ := lets field (.head _)
  refine ⟨_,(take_highlight_one highlight).mpr ⟨known,fits,rfl⟩,fun other later => ?_⟩
  obtain ⟨known',fits'⟩ := lets other (.tail _ later)
  exact ⟨known',fits'.mono (fun id held => set_row_more _ _ _ (set_row_more _ _ _ held))⟩

variable {w e : Replica} {op : Op} {c : Hlc} {base : Option Hlc}

/-! ### Deletes -/

omit [Sqlite] in
theorem delete_row_bookkeeping (t : TableName) (ty : EntityType) (id id' : String) (c : Hlc) (cs : List ConflictRow) :
    delete_row { r.set_tombstone ty id c with sync_conflicts := cs } t id' =
      { (r.delete_row t id').set_tombstone ty id c with sync_conflicts := cs } := by
  unfold delete_row
  change (if (r.row t id').isNone then _ else _) = { set_tombstone (if (r.row t id').isNone then _ else _) ty id c with
    sync_conflicts := cs }
  split <;> rfl

omit [Sqlite] in
theorem delete_entity_row_bookkeeping (ty ty' : EntityType) (id id' : String) (c : Hlc) (cs : List ConflictRow) :
    delete_entity_row { r.set_tombstone ty id c with sync_conflicts := cs } ty' id' =
      { (r.delete_entity_row ty' id').set_tombstone ty id c with sync_conflicts := cs } := by
  cases ty' <;> first | exact delete_row_bookkeeping _ _ _ _ _ _ | rfl

omit [Sqlite] in
/-- Nothing of the entity was stamped after the delete. -/
theorem dominated_of_newer {body : ChangeBody}
    (newer : ∀ f c, r.entity_clock body.entity_type body.entity_id f = some c → c ≤ body.clock) :
    r.max_field_clock_dominated body := by
  unfold max_field_clock_dominated
  split
  · simp only [List.all_eq_true,Bool.or_eq_true]
    rintro ⟨f,v⟩ -
    right
    cases slot : r.entity_clock body.entity_type body.entity_id f with
    | none => rfl
    | some c => simpa using newer f c slot
  · rfl

/-- A delete that comes after all that the entity has seen removes its row. -/
theorem apply_delete_newer (body : ChangeBody)
    (newer : ∀ f c, r.entity_clock body.entity_type body.entity_id f = some c → c ≤ body.clock) :
    ∃ cs, (r.set_tombstone body.entity_type body.entity_id body.clock).preserve_unobserved_prose body =
        { r.set_tombstone body.entity_type body.entity_id body.clock with sync_conflicts := cs } ∧
      r.apply_delete body = .ok { (r.delete_entity_row body.entity_type body.entity_id).set_tombstone
        body.entity_type body.entity_id body.clock with sync_conflicts := cs } := by
  obtain ⟨cs,preserved⟩ := preserve_only (r.set_tombstone body.entity_type body.entity_id body.clock) body
  refine ⟨cs,preserved,?_⟩
  have dominated : ({ r.set_tombstone body.entity_type body.entity_id body.clock with sync_conflicts := cs } :
      Replica).max_field_clock_dominated body := dominated_of_newer newer
  simp only [apply_delete,preserved,dominated,if_true,write_entity_fields]
  exact congrArg _ (delete_entity_row_bookkeeping _ _ _ _ _ _)

theorem emit_local_delete (rows : ty ≠ .TagEdge ∧ ty ≠ .CollectionEdge)
    (emitted : r.emit_local ty id .Delete fields c = .ok (base,e)) :
    base = r.observed_prose_version ty id ∧ e = (r.delete_entity_row ty id).set_tombstone ty id c := by
  simp only [emit_local,if_true,bind_ok,Except.ok.injEq,Prod.mk.injEq] at emitted
  obtain ⟨w,written,rfl,rfl⟩ := emitted
  refine ⟨rfl,?_⟩
  cases ty <;> first
    | exact congrArg (set_tombstone · _ _ _) (Except.ok.inj written).symm
    | exact absurd rfl rows.1
    | exact absurd rfl rows.2

/-! ### Edits -/

theorem emit_local_edit (rows : ty ≠ .TagEdge ∧ ty ≠ .CollectionEdge) (edit : op ≠ .Delete)
    (emitted : r.emit_local ty id op fields c = .ok (base,e)) :
    base = r.base_version_for ty id fields ∧ ∃ w, r.write_entity_fields ty id fields op = .ok w ∧
      e = stamps ty id c fields.toList w := by
  simp only [emit_local,if_neg edit,bind_ok,Except.ok.injEq,Prod.mk.injEq] at emitted
  obtain ⟨w,written,rfl,rfl⟩ := emitted
  refine ⟨rfl,w,?_,?_⟩
  · cases ty <;> first
      | exact written
      | exact absurd rfl rows.1
      | exact absurd rfl rows.2
  · rw [stamp_fields,if_neg (not_or.mpr rows)]
    rfl

/-- A write that is no delete does not look at its operation. -/
theorem write_edit (edit : op ≠ .Delete) :
    r.write_entity_fields ty id fields op = r.write_entity_fields ty id fields .Upsert := by
  unfold write_entity_fields
  rw [if_neg edit,if_neg (by decide)]

/-- A write lets columns of its entity in only. -/
theorem write_known {w : Replica} (edit : op ≠ .Delete) (ok : r.write_entity_fields ty id fields op = .ok w) :
    ∀ f ∈ fields, f ∈ allowed_columns ty := by
  unfold write_entity_fields at ok
  rw [if_neg edit,bind_ok] at ok
  obtain ⟨⟨⟩,known,-⟩ := ok
  exact reject_unknown_columns_ok.mp known

omit [Sqlite] in
/-- An entity has one field of prose at most. -/
theorem prose_one : ∀ f ∈ allowed_columns ty, Prose ty f → ∀ f' ∈ allowed_columns ty, Prose ty f' → f = f' := by
  cases ty <;> decide

omit [Sqlite] in
/-- The version that an edit observes is that of its prose. -/
theorem base_version_for_eq (known : ∀ f ∈ fields, f ∈ allowed_columns ty) {f : String} (given : f ∈ fields)
    (prose : Prose ty f) : r.base_version_for ty id fields = r.entity_clock ty id f := by
  unfold base_version_for
  split
  · next g v found =>
    have copies : Prose ty g := by simpa using List.find?_some found
    have inside := mem_fields.mpr ⟨v,List.mem_of_find?_eq_some found⟩
    rw [prose_one g (known g inside) copies f (known f given) prose]
  · next missing =>
    obtain ⟨v,inside⟩ := mem_fields.mp given
    have absent := List.find?_eq_none.mp missing (f,v) inside
    simp only [decide_eq_true_eq] at absent
    exact absurd prose absent

end
end Replica
end Pergamon
