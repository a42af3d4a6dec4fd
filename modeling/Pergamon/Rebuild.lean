import Pergamon.Agreement
import Pergamon.Schedule

/-!
Building a library again from upserts of its rows, on a device that has nothing. A change
to an entity that the device does not know inserts its row and writes each field once more
(`apply_fields_missing`), so what the device holds after some of the upserts is decided by
which rows they carry (`Rebuilt`), whatever their stamps: each step succeeds iff what its
row refers to is there already (`Applicable`).
-/
namespace Pergamon
open Fallible Replica

/-! ### Values that are carried -/

section
variable [Sqlite] {a : Affinity} {v : SqlValue}

/-- What a column holds: a value that its affinity keeps, and integers of 64 bits only. -/
structure Typed (a : Affinity) (v : SqlValue) : Prop where
  kept : coerce a v = v
  fits : ∀ i, v = .Integer i → -(2 ^ 63) ≤ i ∧ i < 2 ^ 63

omit [Sqlite] in
/-- What a peer stores for a value that is read and sent: a double that is not finite is
    lost on the way. -/
def carried (v : SqlValue) : SqlValue :=
  match v with
  | .Real x => if x.is_finite then .Real x else .Null
  | v => v

omit [Sqlite] in
@[simp] theorem carried_null : carried .Null = .Null := rfl
omit [Sqlite] in
@[simp] theorem carried_text (s : String) : carried (.Text s) = .Text s := rfl

theorem carried_read (typed : Typed a v) : coerce a (json_to_sql (sql_to_json v)) = carried v := by
  cases v with
  | Null => exact coerce_null a
  | Integer i =>
    have fits := typed.fits i rfl
    simp only [sql_to_json,json_to_sql,if_pos fits]
    exact typed.kept
  | Real x =>
    by_cases finite : x.is_finite
    · simp only [sql_to_json,carried,if_pos finite]
      exact typed.kept
    · simp [sql_to_json,carried,finite,json_to_sql]
  | Text s => exact typed.kept

omit [Sqlite] in
@[simp] theorem read_carried (v : SqlValue) : sql_to_json (carried v) = sql_to_json v := by
  cases v with
  | Real x => by_cases finite : x.is_finite <;> simp [carried,sql_to_json,finite]
  | _ => rfl

theorem typed_text (typed : Typed .TEXT v) : v = .Null ∨ ∃ s, v = .Text s := typed.kept ▸ coerce_text_cases v

theorem carried_typed_text (typed : Typed .TEXT v) : carried v = v := by
  rcases typed_text typed with rfl | ⟨s,rfl⟩ <;> rfl

omit [Sqlite] in
theorem carried_eq_text {s : String} : carried v = .Text s ↔ v = .Text s := by
  cases v with
  | Real x => by_cases finite : x.is_finite <;> simp [carried,finite]
  | _ => rfl

/-- A value that the column admits passes on the way, unless it must not be null and is
    not finite. -/
theorem admits_carried {c : Column} (admitted : admits c v) :
    admits c (carried v) ↔ (c.not_null → ∀ x, v = .Real x → x.is_finite) := by
  cases v with
  | Real x =>
    by_cases finite : x.is_finite
    · simpa [carried,finite] using admitted
    · simp [carried,finite,admits]
  | _ => simpa [carried] using admitted

/-- The row that a peer stores for a row. -/
def carried_row (t : TableName) (row : Row) : Row := fun f =>
  if f ∈ (columns t).map Column.name then carried (row f) else .Null

omit [Sqlite] in
theorem carried_column {t : TableName} {c : Column} (column : c ∈ columns t) (row : Row) :
    carried_row t row c.name = carried (row c.name) := if_pos (List.mem_map.mpr ⟨c,column,rfl⟩)

theorem row_admitted_carried {t : TableName} {row : Row} :
    row_admitted t (carried_row t row) ↔ ∀ c ∈ columns t, admits c (carried (row c.name)) := by
  simp only [row_admitted,List.all_eq_true]
  exact forall_congr' (fun c => forall_congr' (fun column => by rw [carried_column column]))

omit [Sqlite] in
theorem field_map_known {cols : List String} {row : Row} {f : String} (inside : f ∈ field_map cols row) : f ∈ cols := by
  rw [Std.ExtTreeMap.mem_iff_isSome_getElem?,field_map_get] at inside
  by_contra unknown
  simp [unknown] at inside

omit [Sqlite] in
theorem affinity_column {t : TableName} {c : Column} (column : c ∈ columns t) : affinity_of t c.name = c.affinity := by
  have all : ∀ t, ∀ c ∈ columns t, affinity_of t c.name = c.affinity := by
    intro t
    cases t <;> decide
  exact all t c column

/-- All the columns of a row, read and assigned to any row, are those of the carried row. -/
theorem assign_carried {t : TableName} {fields : FieldMap} {row base : Row}
    (typed : ∀ c ∈ columns t, Typed c.affinity (row c.name))
    (given : ∀ c ∈ columns t, fields[c.name]? = some (sql_to_json (row c.name)))
    (others : ∀ f, f ∉ (columns t).map Column.name → assign t fields base f = .Null) :
    assign t fields base = carried_row t row := by
  funext f
  by_cases column : f ∈ (columns t).map Column.name
  · obtain ⟨c,inside,rfl⟩ := List.mem_map.mp column
    rw [carried_column inside,assign,given c inside]
    simp only [affinity_column inside]
    exact carried_read (typed c inside)
  · rw [others f column,carried_row,if_neg column]

/-- A column that the table does not have is null in a new row. -/
theorem blankRow_other {now : String} {t : TableName} {defaults : List (String × String)} {f : String}
    (other : f ∉ (columns t).map Column.name) : blankRow now t defaults f = .Null := by
  have missing : (columns t).find? (fun c => c.name = f) = none := by
    rw [List.find?_eq_none]
    intro c inside named
    exact other (List.mem_map.mpr ⟨c,inside,by simpa using named⟩)
  simp [blankRow,new_row,missing]

end

/-! ### Libraries -/

/-- What the schema holds of the rows and memberships of a library. -/
structure Sound [Sqlite] (r : Replica) : Prop where
  typed : ∀ t id row, r.row t id = some row → ∀ c ∈ columns t, Typed c.affinity (row c.name)
  admitted : ∀ t id row, r.row t id = some row → ∀ c ∈ columns t, admits c (row c.name)
  unique : ∀ t id row, r.row t id = some row → ∀ c ∈ columns t, r.unique_free t id c (row c.name)
  references : ∀ t id row, r.row t id = some row → ∀ c ∈ columns t, r.reference_ok c (row c.name)
  shells : ∀ id, (r.row .highlight_meta id).isSome → (r.row .content_items id).isSome
  tags : ∀ ends ∈ r.content_item_tags, (r.row .content_items ends.1).isSome ∧ (r.row .tags ends.2).isSome
  collections : ∀ ends ∈ r.content_item_collections,
    (r.row .content_items ends.1).isSome ∧ (r.row .collections ends.2).isSome

/-! ### Changes to entities that are not there -/

section
variable [Sqlite] {t : TableName} {r r' : Replica} {body : ChangeBody}

/-- A change to an entity that is not there, and was not deleted, writes its row and then
    each field once more. -/
theorem apply_fields_missing (missing : r.read_entity_fields body.entity_type body.entity_id = none)
    (alive : r.tombstone body.entity_type body.entity_id = none) :
    r.apply_fields body = (do
      let r ← r.write_entity_fields body.entity_type body.entity_id body.fields .Upsert
      body.fields.toList.foldlM (take_field body) r) := by
  have takes (s : Replica) (field : String × Value) : apply_field body none none s field = take_field body s field := by
    obtain ⟨f,v⟩ := field
    simp [apply_field,merge_one_field,take_field]
  simp only [apply_fields,missing,alive,Option.isNone_none,and_self,if_true]
  exact congrArg _ (funext (fun s => foldlM_congr (fun field _ s => takes s field) s))

/-- A change to an entity of one table that is not there inserts its row. -/
theorem apply_single_missing (single : tableOf body.entity_type = some t) (missing : r.row t body.entity_id = none)
    (alive : r.tombstone body.entity_type body.entity_id = none) :
    r.apply_fields body = .ok r' ↔ ∃ w, r.write_entity_fields body.entity_type body.entity_id body.fields .Upsert = .ok w ∧
      r' = stamps body.entity_type body.entity_id body.clock body.fields.toList w := by
  rw [apply_fields_missing (by rw [read_single single,missing]; rfl) alive,bind_ok]
  refine exists_congr (fun w => and_congr_right (fun written => ?_))
  obtain ⟨known,same⟩ := write_single_ok single (by decide) written
  have there : (w.row t body.entity_id).isSome := by simp [same]
  obtain ⟨s,taken⟩ := take_single_total (l := body.fields.toList) single there (fun f v inside => by
    have given := mem_toList.mp inside
    exact ⟨known f (mem_fields.mpr ⟨v,inside⟩),fits_of_write single (by decide) written given⟩)
  have result := (take_single_ok single (.inl there) taken).2
  have again : w.set_row t body.entity_id (assignAll t body.fields.toList
      (w.shownRow t body.entity_id (defaultsOf body.entity_type))) = w := by
    rw [same,shownRow_some (row_set_row_self ..),assignAll_toList,assign_twice,set_row_twice]
  rw [again] at result
  rw [taken,result,Except.ok.injEq,eq_comm]

/-- A change to a highlight that is not there writes its shell and its annotation, and then
    gives the shell what its last field alone gives it. -/
theorem apply_highlight_missing {l : List (String × Value)} {field : String × Value}
    (highlight : body.entity_type = .Highlight) (missing : r.row .highlight_meta body.entity_id = none)
    (alive : r.tombstone body.entity_type body.entity_id = none) (list : body.fields.toList = l ++ [field]) :
    r.apply_fields body = .ok r' ↔ (∀ f ∈ body.fields, f ∈ HIGHLIGHT_COLS) ∧ HighlightFits r body.entity_id body.fields ∧
      r' = stamps body.entity_type body.entity_id body.clock body.fields.toList (r.set_highlight body.entity_id
        (assign .content_items (shellFields (one field)) (r.shownShell body.entity_id))
        (assign .highlight_meta (annotationFields body.fields) (r.shownMeta body.entity_id))) := by
  have nothing : r.read_entity_fields body.entity_type body.entity_id = none := by
    rw [highlight]
    simp [read_entity_fields,read_highlight,missing]
  rw [apply_fields_missing nothing alive,bind_ok]
  -- what the single writes leave after the write of all fields
  have run {w : Replica} (fits : HighlightFits r body.entity_id body.fields)
      (known : ∀ f ∈ body.fields, f ∈ HIGHLIGHT_COLS) (written : w = r.set_highlight body.entity_id
        (assign .content_items (shellFields body.fields) (r.shownShell body.entity_id))
        (assign .highlight_meta (annotationFields body.fields) (r.shownMeta body.entity_id))) :
      body.fields.toList.foldlM (take_field body) w = .ok (stamps body.entity_type body.entity_id body.clock
        body.fields.toList (r.set_highlight body.entity_id
          (assign .content_items (shellFields (one field)) (r.shownShell body.entity_id))
          (assign .highlight_meta (annotationFields body.fields) (r.shownMeta body.entity_id)))) := by
    obtain ⟨s,taken⟩ := take_highlight_total (r := w) (l := body.fields.toList) highlight (fun field inside => by
      have given := mem_toList.mp inside
      refine ⟨known _ (mem_fields.mpr ⟨_,inside⟩),HighlightFits.one_field (fits.mono fun id there => ?_) given⟩
      rw [written]
      exact set_row_more _ _ _ (set_row_more _ _ _ there))
    have shell : w.shownShell body.entity_id =
        assign .content_items (shellFields body.fields) (r.shownShell body.entity_id) := by
      rw [written]
      simp [shownShell,set_highlight,row_set_row]
    have meta_row : w.shownMeta body.entity_id =
        assign .highlight_meta (annotationFields body.fields) (r.shownMeta body.entity_id) := by
      rw [written]
      exact shownRow_some (by simp [set_highlight])
    rw [taken]
    rw [list] at taken
    obtain ⟨-,rfl⟩ := take_highlight_ok highlight taken
    rw [← list,annotated_toList,shell,meta_row,shell_twice,assign_twice,written,set_highlight_twice]
  have inserts (w : Replica) : r.write_entity_fields body.entity_type body.entity_id body.fields .Upsert = .ok w ↔
      (∀ f ∈ body.fields, f ∈ HIGHLIGHT_COLS) ∧ HighlightFits r body.entity_id body.fields ∧
        w = r.set_highlight body.entity_id
          (assign .content_items (shellFields body.fields) (r.shownShell body.entity_id))
          (assign .highlight_meta (annotationFields body.fields) (r.shownMeta body.entity_id)) := by
    rw [highlight]
    exact write_highlight_iff (by decide)
  constructor
  · rintro ⟨w,written,taken⟩
    obtain ⟨known,fits,same⟩ := (inserts w).mp written
    rw [run fits known same] at taken
    exact ⟨known,fits,(Except.ok.inj taken).symm⟩
  · rintro ⟨known,fits,rfl⟩
    exact ⟨_,(inserts _).mpr ⟨known,fits,rfl⟩,run fits known rfl⟩

end

/-! ### What some of the rows rebuild -/

/-- A row or a membership of a library, by the entity that a change of it names. -/
abbrev Entry := EntityType × String

section
variable (lib : Replica) (now : String) (done : List Entry)

/-- The row of an entity that was sent, as a peer stores it. -/
def kept_row (ty : EntityType) (t : TableName) (id : String) : Option Row :=
  if (ty,id) ∈ done then (lib.row t id).map (carried_row t) else none

variable [Sqlite]

/-- A content item that was sent: as a document, with the shell of a highlight written over
    it, or as the shell alone. The shell is in the inbox. -/
def rebuilt_item (id : String) : Option Row :=
  (lib.row .content_items id).bind (fun item =>
    let shown := if (.Document,id) ∈ done then carried_row .content_items item else blankShell now
    if (.Highlight,id) ∈ done then
      some (fun f => if f = "status" then .Text "inbox" else if f = "title" then item "title" else shown f)
    else if (.Document,id) ∈ done then some shown
    else none)

/-- The rows once some of the entities were sent, but for the schedules of cards. A log that
    is not admitted is ignored. -/
def rebuilt_row (t : TableName) (id : String) : Option Row :=
  match t with
  | .feed_folders => none
  | .feeds => kept_row lib done .FeedSubscription .feeds id
  | .content_items => rebuilt_item lib now done id
  | .highlight_meta => kept_row lib done .Highlight .highlight_meta id
  | .tags => kept_row lib done .Tag .tags id
  | .collections => kept_row lib done .Collection .collections id
  | .notes => kept_row lib done .Note .notes id
  | .settings => kept_row lib done .Settings .settings id
  | .review_cards => kept_row lib done .ReviewCard .review_cards id
  | .review_logs => (kept_row lib done .ReviewLog .review_logs id).filter (row_admitted .review_logs)

variable [Scheduler]

/-- A card with its schedule derived from logs, if it has any. -/
structure FromCard (logs : List ReviewLogEntry) (card card' : Row) : Prop where
  item : card' "content_item_id" = card "content_item_id"
  unlogged : logs = [] → card' = card
  logged : logs ≠ [] → ShowsSchedule card' (derive_card_state logs)

/-- The state holds what was sent, and nothing else. -/
structure Rebuilt (r : Replica) : Prop where
  rows : ∀ t id, t ≠ .review_cards → r.row t id = rebuilt_row lib now done t id
  cards : ∀ id, Option.Rel (FromCard (r.review_log_entries_for_card id)) (rebuilt_row lib now done .review_cards id)
    (r.row .review_cards id)
  alive : ∀ ty id, r.tombstone ty id = none
  added : ∀ ty id, (r.set_edge ty id).remove_clock = none
  tags : ∀ ends, ends ∈ r.content_item_tags ↔ ∃ id, (.TagEdge,id) ∈ done ∧ split_edge_id id = .ok ends
  collections : ∀ ends, ends ∈ r.content_item_collections ↔
    ∃ id, (.CollectionEdge,id) ∈ done ∧ split_edge_id id = .ok ends
  now : r.now = now

end

/-- The entities whose changes bring a row. -/
def Held (done : List Entry) (t : TableName) (id : String) : Prop :=
  match t with
  | .feed_folders => False
  | .feeds => (.FeedSubscription,id) ∈ done
  | .content_items => (.Document,id) ∈ done ∨ (.Highlight,id) ∈ done
  | .highlight_meta => (.Highlight,id) ∈ done
  | .tags => (.Tag,id) ∈ done
  | .collections => (.Collection,id) ∈ done
  | .notes => (.Note,id) ∈ done
  | .settings => (.Settings,id) ∈ done
  | .review_cards => (.ReviewCard,id) ∈ done
  | .review_logs => (.ReviewLog,id) ∈ done

/-- The table of the row that a change sends. -/
def carryingTable : EntityType → Option TableName
  | .Highlight => some .highlight_meta
  | .ReviewCard => some .review_cards
  | .ReviewLog => some .review_logs
  | ty => tableOf ty

/-- What a row refers to is held once the entry is done. -/
def Resolves (done : List Entry) (entry : Entry) (t : TableName) (row : Row) : Prop :=
  ∀ c ∈ columns t, ∀ parent id, c.references = some parent → row c.name = .Text id → Held (done ++ [entry]) parent id

/-- The change of an entry can be applied after those of the others. -/
def Applicable [Sqlite] (lib : Replica) (done : List Entry) (entry : Entry) : Prop :=
  match entry.1 with
  | .TagEdge => ∃ ends, split_edge_id entry.2 = .ok ends ∧ Held done .content_items ends.1 ∧ Held done .tags ends.2
  | .CollectionEdge =>
    ∃ ends, split_edge_id entry.2 = .ok ends ∧ Held done .content_items ends.1 ∧ Held done .collections ends.2
  | .ReviewLog => ∀ row, lib.row .review_logs entry.2 = some row →
    row_admitted .review_logs (carried_row .review_logs row) → Resolves done entry .review_logs row
  | ty => ∀ t row, carryingTable ty = some t → lib.row t entry.2 = some row →
    row_admitted t (carried_row t row) ∧ Resolves done entry t row

/-- The fields that the change of an entry sends. -/
def entryFields (lib : Replica) (entry : Entry) : Option FieldMap :=
  match entry.1 with
  | .TagEdge | .CollectionEdge => some ((∅ : FieldMap).insert "present" (.Boolean true))
  | ty => lib.read_entity_fields ty entry.2

/-- The change is that of the entry, whatever its stamp. -/
structure Sends (lib : Replica) (entry : Entry) (body : ChangeBody) : Prop where
  entity_type : body.entity_type = entry.1
  entity_id : body.entity_id = entry.2
  op : body.op = .Upsert
  fields : entryFields lib entry = some body.fields

/-! ### What one more entry adds -/

section
variable {lib : Replica} {now : String} {done : List Entry} {ty ty' : EntityType} {t t' : TableName} {id id' : String}

theorem mem_done (apart : ¬(ty' = ty ∧ id' = id)) : (ty',id') ∈ done ++ [(ty,id)] ↔ (ty',id') ∈ done := by
  simp only [List.mem_append,List.mem_singleton,Prod.mk.injEq]
  exact or_iff_left apart

theorem kept_row_apart (apart : ¬(ty' = ty ∧ id' = id)) (t : TableName) :
    kept_row lib (done ++ [(ty,id)]) ty' t id' = kept_row lib done ty' t id' := by
  simp only [kept_row,mem_done apart]

theorem kept_row_new (new : (ty,id) ∉ done) (t : TableName) : kept_row lib done ty t id = none := if_neg new

theorem kept_row_done (lib : Replica) (done : List Entry) (ty : EntityType) (t : TableName) (id : String) :
    kept_row lib (done ++ [(ty,id)]) ty t id = (lib.row t id).map (carried_row t) := if_pos (by simp)

variable [Sqlite]

/-- An entry adds rows to its own tables only. -/
theorem rebuilt_row_apart (apart : ¬(t' ∈ tablesOf ty ∧ id' = id)) :
    rebuilt_row lib now (done ++ [(ty,id)]) t' id' = rebuilt_row lib now done t' id' := by
  have other (ty' : EntityType) (kept : t' ∈ tablesOf ty') : ¬(ty' = ty ∧ id' = id) :=
    fun same => apart ⟨same.1 ▸ kept,same.2⟩
  cases t' with
  | feed_folders => rfl
  | content_items =>
    have document := other .Document (by decide)
    have highlight := other .Highlight (by decide)
    simp only [rebuilt_row,rebuilt_item,mem_done document,mem_done highlight]
  | feeds => exact kept_row_apart (other .FeedSubscription (by decide)) _
  | highlight_meta => exact kept_row_apart (other .Highlight (by decide)) _
  | tags => exact kept_row_apart (other .Tag (by decide)) _
  | collections => exact kept_row_apart (other .Collection (by decide)) _
  | notes => exact kept_row_apart (other .Note (by decide)) _
  | settings => exact kept_row_apart (other .Settings (by decide)) _
  | review_cards => exact kept_row_apart (other .ReviewCard (by decide)) _
  | review_logs =>
    have log : kept_row lib (done ++ [(ty,id)]) .ReviewLog .review_logs id' = kept_row lib done .ReviewLog .review_logs id' :=
      kept_row_apart (other .ReviewLog (by decide)) .review_logs
    simp only [rebuilt_row,log]

/-- The row of an entity of one table, before and after its entry is done. -/
theorem rebuilt_row_single (single : tableOf ty = some t) (new : (ty,id) ∉ done)
    (early : ty = .Document → (.Highlight,id) ∉ done) : rebuilt_row lib now done t id = none ∧
      rebuilt_row lib now (done ++ [(ty,id)]) t id = (lib.row t id).map (carried_row t) := by
  cases one_table single
  case Document =>
    have shell := early rfl
    simp only [rebuilt_row,rebuilt_item,new,shell,List.mem_append,List.mem_singleton,Prod.mk.injEq,reduceCtorEq,
      false_and,or_false,or_true,if_true,if_false]
    cases lib.row .content_items id <;> simp
  all_goals exact ⟨kept_row_new new _,kept_row_done ..⟩

omit [Sqlite] in
/-- Only the address of a content item must be unique. -/
theorem item_unique {c : Column} (column : c ∈ columns .content_items) :
    c.name = "url" ∨ ∀ u w, same_key c.unique u w = false := by
  simp only [columns,List.mem_cons,List.not_mem_nil,or_false] at column
  rcases column with rfl | rfl | rfl | rfl | rfl | rfl | rfl | rfl | rfl <;>
    first | exact .inl rfl | exact .inr (fun _ _ => rfl)

/-- Every row comes from the library, and so does each of its values that must be unique. -/
theorem rebuilt_row_from {row' : Row} (held : rebuilt_row lib now done t id = some row') :
    ∃ row, lib.row t id = some row ∧ ∀ c ∈ columns t, (∀ u w, same_key c.unique u w = false) ∨
      row' c.name = carried (row c.name) ∨ row' c.name = .Null := by
  have plain {ty : EntityType} (held : kept_row lib done ty t id = some row') :
      ∃ row, lib.row t id = some row ∧ ∀ c ∈ columns t, (∀ u w, same_key c.unique u w = false) ∨
        row' c.name = carried (row c.name) ∨ row' c.name = .Null := by
    unfold kept_row at held
    split at held
    · obtain ⟨row,there,rfl⟩ := Option.map_eq_some_iff.mp held
      exact ⟨row,there,fun c column => .inr (.inl (carried_column column row))⟩
    · cases held
  cases t with
  | feed_folders => cases held
  | review_logs => exact plain (Option.filter_eq_some_iff.mp held).1
  | content_items =>
    obtain ⟨row,there,shown⟩ := Option.bind_eq_some_iff.mp held
    refine ⟨row,there,fun c column => ?_⟩
    rcases item_unique column with url | free
    swap
    · exact .inl free
    have address : (if (EntityType.Document,id) ∈ done then carried_row .content_items row else blankShell now) "url" =
        carried (row "url") ∨
        (if (EntityType.Document,id) ∈ done then carried_row .content_items row else blankShell now) "url" = .Null := by
      split
      · exact .inl (url ▸ carried_column column row)
      · exact .inr rfl
    rw [url]
    refine .inr ?_
    simp only at shown
    split at shown
    · obtain rfl := Option.some.inj shown
      exact address
    · split at shown
      · next document =>
        rw [if_pos document] at address
        obtain rfl := Option.some.inj shown
        exact address
      · cases shown
  | _ => exact plain held

omit [Sqlite] in
/-- The columns whose values must be unique are text columns. -/
theorem unique_text {c : Column} (column : c ∈ columns t) :
    (∀ u w, same_key c.unique u w = false) ∨ c.affinity = .TEXT := by
  cases t <;> simp only [columns,List.mem_cons,List.not_mem_nil,or_false] at column
  case tags => exact .inr (column ▸ rfl)
  all_goals
    rcases column with rfl | rfl | rfl | rfl | rfl | rfl | rfl | rfl | rfl | rfl | rfl <;>
      first | exact .inr rfl | exact .inl (fun _ _ => rfl)

variable [Scheduler] {r r' : Replica} {row : Row}

omit [Sqlite] [Scheduler] in
/-- An entry that has fields has a row. -/
theorem sent_row {fields : FieldMap} (carrying : carryingTable ty = some t) (sent : entryFields lib (ty,id) = some fields) :
    ∃ row, lib.row t id = some row := by
  have plain {t : TableName} {cols : List String} (read : lib.read_columns t id cols = some fields) :
      ∃ row, lib.row t id = some row := by
    obtain ⟨row,there,-⟩ := Option.map_eq_some_iff.mp read
    exact ⟨row,there⟩
  cases ty <;> simp only [carryingTable,tableOf,Option.some.injEq,reduceCtorEq] at carrying <;> subst carrying
  case Highlight =>
    simp only [entryFields,read_entity_fields,read_highlight] at sent
    split at sent
    · next meta_row => exact ⟨_,meta_row⟩
    · cases sent
  all_goals exact plain sent

omit [Sqlite] [Scheduler] in
theorem sent_shell {fields : FieldMap} (sent : entryFields lib (.Highlight,id) = some fields) :
    ∃ item meta_row, lib.row .content_items id = some item ∧ lib.row .highlight_meta id = some meta_row ∧
      fields = field_map HIGHLIGHT_COLS (fun col => if col = "title" ∨ col = "status" then item col else meta_row col) := by
  simp only [entryFields,read_entity_fields,read_highlight] at sent
  split at sent
  · next item meta_row => exact ⟨_,_,item,meta_row,(Option.some.inj sent).symm⟩
  · cases sent

namespace Rebuilt

theorem from_library (rebuilt : Rebuilt lib now done r) {row' : Row} (held : r.row t id = some row') :
    ∃ row, lib.row t id = some row ∧ ∀ c ∈ columns t, (∀ u w, same_key c.unique u w = false) ∨
      row' c.name = carried (row c.name) ∨ row' c.name = .Null := by
  by_cases card : t = .review_cards
  · subst card
    have from_card := rebuilt.cards id
    rw [held] at from_card
    cases sent : rebuilt_row lib now done .review_cards id with
    | none =>
      rw [sent] at from_card
      cases from_card
    | some stored =>
      rw [sent] at from_card
      obtain ⟨derived⟩ := from_card
      obtain ⟨row,there,same⟩ := rebuilt_row_from sent
      refine ⟨row,there,fun c column => ?_⟩
      have owner : (∀ u w, same_key c.unique u w = false) ∨ c.name = "content_item_id" := by
        simp only [columns,List.mem_cons,List.not_mem_nil,or_false] at column
        rcases column with rfl | rfl | rfl | rfl | rfl | rfl | rfl | rfl | rfl <;>
          first | exact .inr rfl | exact .inl (fun _ _ => rfl)
      rcases owner with free | named
      · exact .inl free
      · have value := same c column
        rw [named] at value ⊢
        rw [derived.item]
        exact value
  · rw [rebuilt.rows t id card] at held
    exact rebuilt_row_from held

/-- A row of the library takes no value that the rebuilt state has given away. -/
theorem unique (rebuilt : Rebuilt lib now done r) (sound : Sound lib) (there : lib.row t id = some row) {c : Column}
    (column : c ∈ columns t) : r.unique_free t id c (carried (row c.name)) := by
  rcases unique_text column with free | text
  · exact unique_free_of_null (.inr free)
  have typed := sound.typed t id row there c column
  rw [text] at typed
  rw [carried_typed_text typed,unique_free_iff]
  intro other row' apart held
  obtain ⟨own,inside,same⟩ := rebuilt.from_library held
  have typed' := sound.typed t other own inside c column
  rw [text] at typed'
  rcases same c column with free | value | null
  · exact free _ _
  · rw [value,carried_typed_text typed']
    exact unique_free_iff.mp (sound.unique t id row there c column) other own apart inside
  · rw [null]
    unfold same_key
    split <;> simp_all

/-- The rows that are there are those of the entries that are done. -/
theorem held (rebuilt : Rebuilt lib now done r) (sent : ∀ entry ∈ done, (entryFields lib entry).isSome)
    (other : t ≠ .review_logs) (id : String) : (r.row t id).isSome ↔ Held done t id := by
  have there {ty : EntityType} (t : TableName) (carrying : carryingTable ty = some t) (inside : (ty,id) ∈ done) :
      (lib.row t id).isSome := by
    obtain ⟨fields,given⟩ := Option.isSome_iff_exists.mp (sent _ inside)
    exact Option.isSome_iff_exists.mpr (sent_row carrying given)
  have kept {ty : EntityType} (t : TableName) (carrying : carryingTable ty = some t) :
      (kept_row lib done ty t id).isSome ↔ (ty,id) ∈ done := by
    unfold kept_row
    by_cases inside : (ty,id) ∈ done
    · simp [inside,there t carrying inside]
    · simp [inside]
  cases t with
  | review_logs => exact absurd rfl other
  | review_cards =>
    have same : (r.row .review_cards id).isSome ↔ (rebuilt_row lib now done .review_cards id).isSome := by
      have from_card := rebuilt.cards id
      generalize r.row .review_cards id = card at from_card ⊢
      generalize rebuilt_row lib now done .review_cards id = stored at from_card ⊢
      cases from_card <;> rfl
    rw [same]
    exact kept _ rfl
  | feed_folders =>
    rw [rebuilt.rows _ _ (by decide)]
    exact ⟨fun held => absurd held (by simp [rebuilt_row]),False.elim⟩
  | content_items =>
    rw [rebuilt.rows _ _ (by decide)]
    simp only [rebuilt_row,rebuilt_item,Held]
    by_cases highlight : (EntityType.Highlight,id) ∈ done
    · obtain ⟨fields,given⟩ := Option.isSome_iff_exists.mp (sent _ highlight)
      obtain ⟨item,-,inside,-⟩ := sent_shell given
      simp [highlight,inside]
    · by_cases document : (EntityType.Document,id) ∈ done
      · obtain ⟨item,inside⟩ := Option.isSome_iff_exists.mp (there .content_items rfl document)
        simp [document,highlight,inside]
      · simp only [document,highlight,if_false,or_self,iff_false]
        cases lib.row .content_items id <;> simp
  | _ =>
    rw [rebuilt.rows _ _ (by decide)]
    exact kept _ rfl

/-- What an edit leaves, where its rows are those of one more entry. -/
theorem edit (rebuilt : Rebuilt lib now done r) (plain : ty ≠ .TagEdge ∧ ty ≠ .CollectionEdge) (edited : Edited r r')
    (rows : ∀ t id', t ≠ .review_cards → r'.row t id' = rebuilt_row lib now (done ++ [(ty,id)]) t id')
    (cards : ∀ id', Option.Rel (FromCard (r'.review_log_entries_for_card id'))
      (rebuilt_row lib now (done ++ [(ty,id)]) .review_cards id') (r'.row .review_cards id')) :
    Rebuilt lib now (done ++ [(ty,id)]) r' where
  rows := rows
  cards := cards
  alive ty' id' := (edited.tombstones ty' id').trans (rebuilt.alive ty' id')
  added ty' id' := by rw [edited.edges]; exact rebuilt.added ty' id'
  tags ends := by
    rw [edited.tags,rebuilt.tags]
    simp only [mem_done (fun same => plain.1 same.1.symm)]
  collections ends := by
    rw [edited.collections,rebuilt.collections]
    simp only [mem_done (fun same => plain.2 same.1.symm)]
  now := edited.now.trans rebuilt.now

/-- The cards are as before where neither cards nor logs have changed. -/
theorem cards_apart (rebuilt : Rebuilt lib now done r) (plain : ty ≠ .ReviewCard ∧ ty ≠ .ReviewLog)
    (rows : ∀ t' id', ¬(t' ∈ tablesOf ty ∧ id' = id) → r'.row t' id' = r.row t' id') (id' : String) : Option.Rel (FromCard (r'.review_log_entries_for_card id'))
      (rebuilt_row lib now (done ++ [(ty,id)]) .review_cards id') (r'.row .review_cards id') := by
  have apart : ¬(TableName.review_cards ∈ tablesOf ty ∧ id' = id) := by
    rintro ⟨kept,-⟩
    cases ty <;> simp [tablesOf] at kept plain
  have logs : SameLogs r r' id' := by
    intro log row names
    rw [rows]
    rintro ⟨kept,-⟩
    cases ty <;> simp [tablesOf] at kept plain
  rw [logs.entries,rows _ _ apart,rebuilt_row_apart apart]
  exact rebuilt.cards id'

end Rebuilt

omit [Sqlite] [Scheduler] in
theorem held_done : Held (done ++ [(ty,id)]) t' id' ↔ Held done t' id' ∨ (t' ∈ tablesOf ty ∧ id' = id) := by
  cases t' <;> cases ty <;> simp [Held,tablesOf,or_assoc,or_left_comm,or_comm]

omit [Sqlite] [Scheduler] in
theorem references_row {c : Column} (column : c ∈ columns t) : c.references ≠ some .review_logs := by
  have all : ∀ t, ∀ c ∈ columns t, c.references ≠ some .review_logs := by
    intro t
    cases t <;> decide
  exact all t c column

/-- The references of a carried row hold where its entry has brought its rows. -/
theorem resolves_iff {w : Replica} (rebuilt : Rebuilt lib now done r)
    (sent : ∀ entry ∈ done, (entryFields lib entry).isSome)
    (rows : ∀ t' id', (w.row t' id').isSome ↔ (r.row t' id').isSome ∨ (t' ∈ tablesOf ty ∧ id' = id)) (row : Row) :
    (∀ c ∈ columns t, w.reference_ok c (carried (row c.name))) ↔ Resolves done (ty,id) t row := by
  refine forall_congr' (fun c => forall_congr' (fun column => ?_))
  unfold reference_ok
  constructor
  · intro ok parent p references names
    rw [references,carried_eq_text.mpr names] at ok
    rw [held_done,← rebuilt.held sent (fun logs => references_row column (logs ▸ references))]
    exact (rows parent p).mp ok
  · intro refers
    split
    · next parent p references names =>
      have held := refers parent p references (carried_eq_text.mp names)
      rw [held_done,← rebuilt.held sent (fun logs => references_row column (logs ▸ references))] at held
      exact (rows parent p).mpr held
    · rfl

end

end Pergamon
