import Pergamon.SingleTable

/-!
What the canonical writes do and when they succeed. A write moves the rows of its entity
only (`write_rowsOnly`). A write to an entity that one table keeps succeeds iff each of
its fields may stand in its column (`update_single_iff`), or the whole row where it is
inserted (`insert_single_iff`); a write to a highlight replaces the title and the status
of its shell by what the fields say or by their defaults, and assigns the rest
(`write_highlight_iff`).
-/
namespace Pergamon
open Fallible

/-- The tables that keep an entity. -/
def tablesOf : EntityType → List TableName
  | .Document => [.content_items]
  | .Highlight => [.content_items,.highlight_meta]
  | .Tag => [.tags]
  | .Collection => [.collections]
  | .Note => [.notes]
  | .FeedSubscription => [.feeds]
  | .Settings => [.settings]
  | .ReviewCard => [.review_cards]
  | .ReviewLog => [.review_logs]
  | .TagEdge | .CollectionEdge => []

namespace Replica

/-! ### What a write leaves alone -/

/-- The states differ at most in the rows of one entity. -/
structure RowsOnly (ty : EntityType) (id : String) (r r' : Replica) : Prop where
  rest : ∃ tables, r' = { r with tables := tables }
  rows : ∀ t' id', ¬(t' ∈ tablesOf ty ∧ id' = id) → r'.row t' id' = r.row t' id'

namespace RowsOnly
variable {ty : EntityType} {t : TableName} {id : String} {r r' r'' : Replica}

theorem rfl' : RowsOnly ty id r r := ⟨⟨r.tables,rfl⟩,fun _ _ _ => rfl⟩

theorem trans (first : RowsOnly ty id r r') (second : RowsOnly ty id r' r'') : RowsOnly ty id r r'' := by
  obtain ⟨tables,rfl⟩ := first.rest
  obtain ⟨tables',rfl⟩ := second.rest
  exact ⟨⟨tables',rfl⟩,fun t' id' apart => (second.rows t' id' apart).trans (first.rows t' id' apart)⟩

theorem set_row (kept : t ∈ tablesOf ty) (row : Row) : RowsOnly ty id r (r.set_row t id row) := by
  refine ⟨⟨_,rfl⟩,fun t' id' apart => ?_⟩
  rw [row_set_row,if_neg]
  rintro ⟨rfl,rfl⟩
  exact apart ⟨kept,rfl⟩

variable (only : RowsOnly ty id r r')
include only

theorem clock (ty' : EntityType) (id' f : String) : r'.entity_clock ty' id' f = r.entity_clock ty' id' f := by
  obtain ⟨tables,rfl⟩ := only.rest
  rfl

theorem tombstone (ty' : EntityType) (id' : String) : r'.tombstone ty' id' = r.tombstone ty' id' := by
  obtain ⟨tables,rfl⟩ := only.rest
  rfl

theorem conflicts : r'.sync_conflicts = r.sync_conflicts := by
  obtain ⟨tables,rfl⟩ := only.rest
  rfl

theorem now : r'.now = r.now := by
  obtain ⟨tables,rfl⟩ := only.rest
  rfl

end RowsOnly

section
variable [Sqlite] {ty : EntityType} {t : TableName} {id : String} {r r' : Replica} {fields : FieldMap}

omit [Sqlite] in
theorem unique_free_iff {c : Column} {v : SqlValue} : r.unique_free t id c v ↔
    ∀ other row, other ≠ id → r.row t other = some row → same_key c.unique (row c.name) v = false := by
  simp only [unique_free,List.all_eq_true,Prod.forall,Std.ExtTreeMap.mem_toList_iff_getElem?_eq_some,
    Bool.or_eq_true,decide_eq_true_eq,Bool.not_eq_true']
  exact ⟨fun all other row apart held => (all other row held).resolve_left apart,
    fun all other row held => or_iff_not_imp_left.mpr (fun apart => all other row apart held)⟩

omit [Sqlite] in
theorem unique_free_congr {s : Replica} {c : Column} {v : SqlValue}
    (same : ∀ other, other ≠ id → s.row t other = r.row t other) (free : r.unique_free t id c v) :
    s.unique_free t id c v := by
  rw [unique_free_iff] at free ⊢
  intro other row apart held
  exact free other row apart (same other apart ▸ held)

omit [Sqlite] in
theorem reference_ok_mono {s : Replica} {c : Column} {v : SqlValue}
    (more : ∀ t' id', (r.row t' id').isSome → (s.row t' id').isSome) (held : r.reference_ok c v) :
    s.reference_ok c v := by
  unfold reference_ok at held ⊢
  split at held
  · exact more _ _ held
  · rfl

omit [Sqlite] in
/-- A null is never taken, nor is a value of a column that is not unique. -/
theorem unique_free_of_null {c : Column} {v : SqlValue} (free : v = .Null ∨ ∀ u w, same_key c.unique u w = false) :
    r.unique_free t id c v := by
  rw [unique_free_iff]
  intro other row _ _
  rcases free with rfl | never
  · unfold same_key
    cases c.unique <;> cases row c.name <;> rfl
  · exact never _ _

omit [Sqlite] in
theorem reference_ok_of_plain {c : Column} {v : SqlValue} (plain : v = .Null ∨ c.references = none) :
    r.reference_ok c v := by
  unfold reference_ok
  rcases plain with rfl | none_
  · split <;> simp_all
  · rw [none_]

omit [Sqlite] in
theorem set_row_twice (row row' : Row) : (r.set_row t id row).set_row t id row' = r.set_row t id row' := by
  have same : ((r.tables t).insert id row).insert id row' = (r.tables t).insert id row' := by
    ext key found
    simp only [Std.ExtTreeMap.getElem?_insert]
    split <;> simp_all
  simp [set_row,same]

/-! ### Values that a row may take -/

/-- The constraints on a field of a row let the value in. -/
def fits (r : Replica) (t : TableName) (id f : String) (v : Value) : Prop :=
  ∀ c ∈ columns t, c.name = f → admits c (coerce (affinity_of t f) (json_to_sql v)) ∧
    r.unique_free t id c (coerce (affinity_of t f) (json_to_sql v)) ∧
    r.reference_ok c (coerce (affinity_of t f) (json_to_sql v))

theorem fits_congr {s : Replica} {f : String} {v : Value} (same : ∀ other, other ≠ id → s.row t other = r.row t other)
    (more : ∀ t' id', (r.row t' id').isSome → (s.row t' id').isSome) (let_in : r.fits t id f v) : s.fits t id f v := by
  intro c inside named
  obtain ⟨admitted,free,refers⟩ := let_in c inside named
  exact ⟨admitted,unique_free_congr same free,reference_ok_mono more refers⟩

omit [Sqlite] in
theorem row_set_row_apart (row : Row) (other : String) (apart : other ≠ id) :
    (r.set_row t id row).row t other = r.row t other := by
  rw [row_set_row,if_neg (fun same => apart same.2)]

omit [Sqlite] in
theorem set_row_more (row : Row) (t' : TableName) (id' : String) (held : (r.row t' id').isSome) :
    ((r.set_row t id row).row t' id').isSome := by
  rw [row_set_row]
  split
  · rfl
  · exact held

theorem write_single_iff {op : Op} (single : tableOf ty = some t) (edit : op ≠ .Delete) :
    r.write_entity_fields ty id fields op = .ok r' ↔
      (∀ f ∈ fields, f ∈ allowed_columns ty) ∧ r.upsert_single t id fields (defaultsOf ty) = .ok r' := by
  unfold write_entity_fields
  rw [if_neg edit,bind_ok,← reject_unknown_columns_ok]
  constructor
  · rintro ⟨⟨⟩,known,ok⟩
    refine ⟨known,?_⟩
    cases one_table single <;> exact ok
  · rintro ⟨known,ok⟩
    refine ⟨(),known,?_⟩
    cases one_table single <;> exact ok

/-- An upsert of a missing row passes every constraint on the row that it inserts. -/
theorem upsert_missing_iff {defaults : List (String × String)} (known : ∀ f ∈ fields, ∃ c ∈ columns t, c.name = f)
    (missing : r.row t id = none) : r.upsert_single t id fields defaults = .ok r' ↔
      (∀ c ∈ columns t, admits c (assign t fields (blankRow r.now t defaults) c.name) ∧
        r.unique_free t id c (assign t fields (blankRow r.now t defaults) c.name) ∧
        (r.set_row t id (assign t fields (blankRow r.now t defaults))).reference_ok c
          (assign t fields (blankRow r.now t defaults) c.name)) ∧
      r' = r.set_row t id (assign t fields (blankRow r.now t defaults)) := by
  have inserts : r.upsert_single t id fields defaults =
      r.insert_or_nothing t id (new_row r.now t (given_values fields defaults)) := by
    simp [upsert_single,missing]
  rw [inserts,new_row_eq known,insert_or_nothing_ok,missing,Option.isSome_none,if_neg Bool.false_ne_true,insert_new_ok]
  simp only [row_admitted,row_unique,row_references,List.all_eq_true]
  constructor
  · rintro ⟨admitted,unique,refers,same⟩
    exact ⟨fun c inside => ⟨admitted c inside,unique c inside,refers c inside⟩,same⟩
  · rintro ⟨all,same⟩
    exact ⟨fun c inside => (all c inside).1,fun c inside => (all c inside).2.1,fun c inside => (all c inside).2.2,same⟩

/-- A write to a missing row passes every constraint on the row that it inserts. -/
theorem insert_single_iff {op : Op} (single : tableOf ty = some t) (edit : op ≠ .Delete)
    (missing : r.row t id = none) : r.write_entity_fields ty id fields op = .ok r' ↔
      (∀ f ∈ fields, f ∈ allowed_columns ty) ∧
        (∀ c ∈ columns t, admits c (assign t fields (blankRow r.now t (defaultsOf ty)) c.name) ∧
          r.unique_free t id c (assign t fields (blankRow r.now t (defaultsOf ty)) c.name) ∧
          (r.set_row t id (assign t fields (blankRow r.now t (defaultsOf ty)))).reference_ok c
            (assign t fields (blankRow r.now t (defaultsOf ty)) c.name)) ∧
        r' = r.set_row t id (assign t fields (blankRow r.now t (defaultsOf ty))) := by
  rw [write_single_iff single edit]
  exact and_congr_right (fun known => upsert_missing_iff (fun f given => known_columns single f (known f given)) missing)

/-- An update of some fields of a row that is there passes the constraints on these. -/
theorem update_row_iff {row : Row} (held : r.row t id = some row) : r.update_row t id row fields = .ok r' ↔
    (∀ f v, fields[f]? = some v → r.fits t id f v) ∧ r' = r.set_row t id (assign t fields row) := by
  have present (t' : TableName) (id' : String) (new : Row) (there : ((r.set_row t id new).row t' id').isSome) :
      (r.row t' id').isSome := by
    rw [row_set_row] at there
    split at there
    · next here =>
      obtain ⟨rfl,rfl⟩ := here
      simp [held]
    · exact there
  rw [update_row_ok]
  refine and_congr_left (fun _ => ?_)
  constructor
  · rintro checks f v given c column rfl
    have value : assign t fields row c.name = coerce (affinity_of t c.name) (json_to_sql v) := by simp [assign,given]
    obtain ⟨admitted,free,refers⟩ := checks c column (Std.ExtTreeMap.mem_iff_isSome_getElem?.mpr (by simp [given]))
    rw [value] at admitted free refers
    exact ⟨admitted,free,reference_ok_mono (present · · _) refers⟩
  · intro lets c column inside
    obtain ⟨v,given⟩ := Option.isSome_iff_exists.mp (Std.ExtTreeMap.mem_iff_isSome_getElem?.mp inside)
    have value : assign t fields row c.name = coerce (affinity_of t c.name) (json_to_sql v) := by simp [assign,given]
    obtain ⟨admitted,free,refers⟩ := lets c.name v given c column rfl
    rw [value]
    exact ⟨admitted,free,reference_ok_mono (set_row_more _) refers⟩

/-- A write of some fields to a row that is there passes the constraints on these. -/
theorem update_single_iff {op : Op} {row : Row} (single : tableOf ty = some t) (edit : op ≠ .Delete)
    (held : r.row t id = some row) (some_field : fields.isEmpty = false) :
    r.write_entity_fields ty id fields op = .ok r' ↔
      (∀ f ∈ fields, f ∈ allowed_columns ty) ∧ (∀ f v, fields[f]? = some v → r.fits t id f v) ∧
        r' = r.set_row t id (assign t fields row) := by
  rw [write_single_iff single edit]
  refine and_congr_right (fun known => ?_)
  have updates : r.upsert_single t id fields (defaultsOf ty) = r.update_row t id row fields := by
    simp [upsert_single,held,some_field]
  rw [updates,update_row_iff held]

/-- What a write has let in, its row may take. -/
theorem fits_of_write {op : Op} (single : tableOf ty = some t) (edit : op ≠ .Delete)
    (ok : r.write_entity_fields ty id fields op = .ok r') {f : String} {v : Value} (given : fields[f]? = some v) :
    r'.fits t id f v := by
  have some_field : fields.isEmpty = false := by
    rw [← Bool.not_eq_true,Std.ExtTreeMap.isEmpty_iff]
    rintro rfl
    simp at given
  cases held : r.row t id with
  | none =>
    obtain ⟨-,all,rfl⟩ := (insert_single_iff single edit held).mp ok
    rintro c column rfl
    have value : assign t fields (blankRow r.now t (defaultsOf ty)) c.name =
        coerce (affinity_of t c.name) (json_to_sql v) := by simp [assign,given]
    obtain ⟨admitted,free,refers⟩ := all c column
    rw [value] at admitted free refers
    exact ⟨admitted,unique_free_congr (row_set_row_apart _) free,refers⟩
  | some row =>
    obtain ⟨-,lets,rfl⟩ := (update_single_iff single edit held some_field).mp ok
    exact fits_congr (row_set_row_apart _) (set_row_more _) (lets f v given)

/-! ### Highlights -/

/-- The shell that an insert without title and status stores. -/
def blankShell (now : String) : Row :=
  new_row now .content_items (fun name => if name = "content_type" then some (.Text "highlight") else none)

/-- The shell of a highlight: its row, or the blank one. -/
def shownShell (r : Replica) (id : String) : Row := (r.row .content_items id).getD (blankShell r.now)

/-- The title and the status that a write to a highlight gives its shell. -/
def shellTitle (fields : FieldMap) : String := ((fields["title"]?).bind Value.as_str).getD ""
def shellStatus (fields : FieldMap) : String := ((fields["status"]?).bind Value.as_str).getD "inbox"

def shellFields (fields : FieldMap) : FieldMap :=
  ((∅ : FieldMap).insert "title" (.Str (shellTitle fields))).insert "status" (.Str (shellStatus fields))

/-- The fields of a highlight that are not in its shell. -/
def annotationFields (fields : FieldMap) : FieldMap := (fields.erase "title").erase "status"

omit [Sqlite] in
theorem shellFields_get (fields : FieldMap) (f : String) : (shellFields fields)[f]? =
    if f = "status" then some (.Str (shellStatus fields))
    else if f = "title" then some (.Str (shellTitle fields)) else none := by
  simp only [shellFields,Std.ExtTreeMap.getElem?_insert,compare_eq_iff_eq,eq_comm (b := f)]
  split
  · rfl
  · split <;> rfl

omit [Sqlite] in
theorem annotationFields_get (fields : FieldMap) (f : String) : (annotationFields fields)[f]? =
    if f = "status" ∨ f = "title" then none else fields[f]? := by
  simp only [annotationFields,Std.ExtTreeMap.getElem?_erase,compare_eq_iff_eq,eq_comm (b := f)]
  split
  · next status => simp [status]
  · next status =>
    split
    · next title => simp [title]
    · next title => simp [status,title]

/-- The shell of an insert is the blank one with title and status assigned. -/
theorem shell_row (now : String) (fields : FieldMap) :
    new_row now .content_items (fun name => if name = "content_type" then some (.Text "highlight")
      else ((shellFields fields)[name]?).map json_to_sql) =
      assign .content_items (shellFields fields) (blankShell now) := by
  refine new_row_assign ?_ ?_ ?_
  · intro f given
    rw [Std.ExtTreeMap.mem_iff_isSome_getElem?,shellFields_get] at given
    split at given
    · next status => subst status; decide
    · split at given
      · next title => subst title; decide
      · cases given
  · intro f v given
    have apart : f ≠ "content_type" := by
      rintro rfl
      simp [shellFields_get] at given
    rw [if_neg apart,given,Option.map_some]
  · intro f missing
    rw [missing,Option.map_none]

theorem upsert_shell_ok (ok : r.upsert_shell id fields = .ok r') :
    r' = r.set_row .content_items id (assign .content_items (shellFields fields) (r.shownShell id)) := by
  simp only [upsert_shell,if_ok] at ok
  obtain ⟨-,ok⟩ := ok
  cases held : r.row .content_items id with
  | some row =>
    rw [held] at ok
    rw [shownShell,held]
    exact (update_row_ok.mp ok).2
  | none =>
    rw [held] at ok
    rw [(insert_new_ok.mp ok).2.2,shownShell,held,Option.getD_none,← shell_row]
    rfl

omit [Sqlite] in
theorem annotation_known (known : ∀ f ∈ fields, f ∈ HIGHLIGHT_COLS) :
    ∀ f ∈ annotationFields fields, ∃ c ∈ columns .highlight_meta, c.name = f := by
  intro f given
  rw [Std.ExtTreeMap.mem_iff_isSome_getElem?,annotationFields_get] at given
  split at given
  · cases given
  · next apart =>
    have inside := known f (Std.ExtTreeMap.mem_iff_isSome_getElem?.mpr given)
    rw [not_or] at apart
    simp only [HIGHLIGHT_COLS,List.mem_cons,List.not_mem_nil,or_false] at inside
    rcases inside with rfl | rfl | rfl | rfl | rfl | rfl | rfl | rfl
    case inl => exact absurd rfl apart.2
    case inr.inl => exact absurd rfl apart.1
    all_goals decide

omit [Sqlite] in
theorem set_row_comm {t' : TableName} {id' : String} (apart : t ≠ t') (row row' : Row) :
    (r.set_row t id row).set_row t' id' row' = (r.set_row t' id' row').set_row t id row := by
  simp only [set_row]
  rw [Function.update_of_ne (Ne.symm apart),Function.update_of_ne apart,Function.update_comm apart]

/-- The constraints of the tables of a highlight let its fields in. -/
structure HighlightFits (r : Replica) (id : String) (fields : FieldMap) : Prop where
  status : shellStatus fields ∈ ["inbox","later","reference","reading","archived","discarded"]
  quote : ∀ v, fields["quote_text"]? = some v → coerce .TEXT (json_to_sql v) ≠ .Null
  source : ∀ v parent, fields["source_item_id"]? = some v → coerce .TEXT (json_to_sql v) = .Text parent →
    parent = id ∨ (r.row .content_items parent).isSome

/-- Store a shell and an annotation. -/
def set_highlight (r : Replica) (id : String) (shell annotation : Row) : Replica :=
  (r.set_row .content_items id shell).set_row .highlight_meta id annotation

omit [Sqlite] in
theorem set_highlight_twice (shell shell' annotation annotation' : Row) :
    (r.set_highlight id shell annotation).set_highlight id shell' annotation' = r.set_highlight id shell' annotation' := by
  unfold set_highlight
  rw [set_row_comm (by decide) annotation shell',set_row_twice,set_row_twice]

/-- A shell is admitted with any title and one of the statuses. -/
theorem shell_admits {now : String} {c : Column} (column : c ∈ columns .content_items) :
    admits c (assign .content_items (shellFields fields) (blankShell now) c.name) ↔
      (c.name = "status" → shellStatus fields ∈ ["inbox","later","reference","reading","archived","discarded"]) := by
  have status : assign .content_items (shellFields fields) (blankShell now) "status" = .Text (shellStatus fields) := by
    rw [assign,shellFields_get]
    rfl
  have title : assign .content_items (shellFields fields) (blankShell now) "title" = .Text (shellTitle fields) := by
    rw [assign,shellFields_get]
    rfl
  have other {f : String} (apart : f ≠ "status") (apart' : f ≠ "title") :
      assign .content_items (shellFields fields) (blankShell now) f = blankShell now f := by
    rw [assign,shellFields_get,if_neg apart,if_neg apart']
  simp only [columns,List.mem_cons,List.not_mem_nil,or_false] at column
  rcases column with rfl | rfl | rfl | rfl | rfl | rfl | rfl | rfl | rfl
  case inr.inl => simp [title,admits]
  case inr.inr.inr.inr.inl => simp [status,admits]
  all_goals
    rw [other (by decide) (by decide)]
    exact ⟨fun _ same => absurd same (by decide),fun _ => rfl⟩

theorem upsert_shell_iff : r.upsert_shell id fields = .ok r' ↔
    shellStatus fields ∈ ["inbox","later","reference","reading","archived","discarded"] ∧
      r' = r.set_row .content_items id (assign .content_items (shellFields fields) (r.shownShell id)) := by
  have candidate : row_admitted .content_items (assign .content_items (shellFields fields) (blankShell r.now)) ↔
      shellStatus fields ∈ ["inbox","later","reference","reading","archived","discarded"] := by
    simp only [row_admitted,List.all_eq_true]
    constructor
    · intro all
      obtain ⟨c,column,named⟩ : ∃ c ∈ columns .content_items, c.name = "status" := by simp [columns]
      exact (shell_admits column).mp (all c column) named
    · exact fun status c column => (shell_admits column).mpr (fun _ => status)
  rw [← shell_row] at candidate
  constructor
  · intro ok
    refine ⟨?_,upsert_shell_ok ok⟩
    simp only [upsert_shell,if_ok] at ok
    exact candidate.mp ok.1
  · rintro ⟨status,rfl⟩
    simp only [upsert_shell,if_ok]
    refine ⟨candidate.mpr status,?_⟩
    have plain (c : Column) (column : c ∈ columns .content_items) : c.references = none ∧
        (c.name = "url" ∨ ∀ u w, same_key c.unique u w = false) := by
      simp only [columns,List.mem_cons,List.not_mem_nil,or_false] at column
      rcases column with rfl | rfl | rfl | rfl | rfl | rfl | rfl | rfl | rfl <;>
        exact ⟨rfl,by first | exact .inl rfl | exact .inr (fun _ _ => rfl)⟩
    cases held : r.row .content_items id with
    | some row =>
      refine update_row_ok.mpr ⟨fun c column given => ?_,by rw [shownShell,held]; rfl⟩
      change c.name ∈ shellFields fields at given
      have assigned : assign .content_items (shellFields fields) row c.name =
          assign .content_items (shellFields fields) (blankShell r.now) c.name := by
        obtain ⟨v,value⟩ := Option.isSome_iff_exists.mp (Std.ExtTreeMap.mem_iff_isSome_getElem?.mp given)
        simp [assign,value]
      refine ⟨?_,unique_free_of_null (.inr ((plain c column).2.resolve_left ?_)),
        reference_ok_of_plain (.inr (plain c column).1)⟩
      · exact assigned ▸ (shell_admits column).mpr (fun _ => status)
      · intro url
        rw [Std.ExtTreeMap.mem_iff_isSome_getElem?,url] at given
        simp [shellFields_get] at given
    | none =>
      rw [shownShell,held,Option.getD_none,← shell_row]
      refine insert_new_ok.mpr ⟨?_,?_,rfl⟩
      · simp only [row_unique,List.all_eq_true]
        intro c column
        refine unique_free_of_null ((plain c column).2.imp_left (fun url => ?_))
        rw [url]
        rfl
      · simp only [row_references,List.all_eq_true]
        exact fun c column => reference_ok_of_plain (.inr (plain c column).1)

/-- The annotation of an insert without fields. -/
def shownMeta (r : Replica) (id : String) : Row := r.shownRow .highlight_meta id [("quote_text","")]

/-- The constraints on the fields of an annotation. -/
theorem annotation_admits {now : String} {c : Column} (column : c ∈ columns .highlight_meta) :
    admits c (assign .highlight_meta (annotationFields fields) (blankRow now .highlight_meta [("quote_text","")]) c.name) ↔
      (c.name = "quote_text" → ∀ v, fields["quote_text"]? = some v → coerce .TEXT (json_to_sql v) ≠ .Null) := by
  have text {v : SqlValue} : admits { name := "quote_text", not_null := true } (coerce .TEXT v) ↔ coerce .TEXT v ≠ .Null := by
    rcases coerce_text_cases v with null | ⟨s,text⟩
    · rw [null]; simp [admits]
    · rw [text]; simp [admits]
  simp only [columns,List.mem_cons,List.not_mem_nil,or_false] at column
  rcases column with rfl | rfl | rfl | rfl | rfl | rfl
  case inr.inl =>
    rw [assign,annotationFields_get,if_neg (by decide)]
    cases given : fields["quote_text"]? with
    | none => simp [blankRow,new_row,columns,given_values,admits]
    | some v => simpa [show affinity_of .highlight_meta "quote_text" = .TEXT from rfl] using text
  all_goals
    refine ⟨fun _ same => absurd same (by decide),fun _ => ?_⟩
    unfold admits
    split <;> rfl

omit [Sqlite] in
theorem annotation_columns {c : Column} (column : c ∈ columns .highlight_meta) :
    (c.references = none ∨ c.name = "source_item_id" ∧ c.references = some .content_items) ∧
      ∀ u w, same_key c.unique u w = false := by
  simp only [columns,List.mem_cons,List.not_mem_nil,or_false] at column
  rcases column with rfl | rfl | rfl | rfl | rfl | rfl <;>
    exact ⟨by first | exact .inl rfl | exact .inr ⟨rfl,rfl⟩,fun _ _ => rfl⟩

/-- The source of an annotation is there. -/
def SourceHeld (r : Replica) (fields : FieldMap) : Prop :=
  ∀ v parent, fields["source_item_id"]? = some v → coerce .TEXT (json_to_sql v) = .Text parent →
    (r.row .content_items parent).isSome

theorem source_held_iff {row : Row} (present : ∀ id, (r'.row .content_items id).isSome ↔ (r.row .content_items id).isSome) :
    (∀ c ∈ columns .highlight_meta, c.name ∈ annotationFields fields →
      r'.reference_ok c (assign .highlight_meta (annotationFields fields) row c.name)) ↔ r.SourceHeld fields := by
  have value {v : Value} (given : fields["source_item_id"]? = some v) :
      assign .highlight_meta (annotationFields fields) row "source_item_id" = coerce .TEXT (json_to_sql v) := by
    rw [assign,annotationFields_get,if_neg (by decide),given]
    rfl
  constructor
  · intro all v parent given named
    obtain ⟨c,column,name,parents⟩ : ∃ c ∈ columns .highlight_meta, c.name = "source_item_id" ∧
        c.references = some .content_items := by simp [columns]
    have held := all c column (by
      rw [name,Std.ExtTreeMap.mem_iff_isSome_getElem?,annotationFields_get,if_neg (by decide),given]
      rfl)
    rw [name,value given,named] at held
    simp only [reference_ok,parents] at held
    exact (present parent).mp held
  · intro source c column carried
    rcases (annotation_columns column).1 with plain | ⟨name,parents⟩
    · exact reference_ok_of_plain (.inr plain)
    · rw [name,Std.ExtTreeMap.mem_iff_isSome_getElem?,annotationFields_get,if_neg (by decide)] at carried
      obtain ⟨v,given⟩ := Option.isSome_iff_exists.mp carried
      rw [name,value given]
      cases text : coerce .TEXT (json_to_sql v) with
      | Text parent => simpa only [reference_ok,parents] using (present parent).mpr (source v parent given text)
      | _ => simp only [reference_ok,parents]

theorem upsert_highlight_meta_iff (known : ∀ f ∈ fields, f ∈ HIGHLIGHT_COLS) :
    r.upsert_highlight_meta id fields = .ok r' ↔
      ((∀ v, fields["quote_text"]? = some v → coerce .TEXT (json_to_sql v) ≠ .Null) ∧ r.SourceHeld fields) ∧
      r' = r.set_row .highlight_meta id (assign .highlight_meta (annotationFields fields) (r.shownMeta id)) := by
  have new_row_candidate : new_row r.now .highlight_meta (given_values (annotationFields fields) [("quote_text","")]) =
      assign .highlight_meta (annotationFields fields) (blankRow r.now .highlight_meta [("quote_text","")]) :=
    new_row_eq (annotation_known known)
  have candidate : row_admitted .highlight_meta
      (new_row r.now .highlight_meta (given_values (annotationFields fields) [("quote_text","")])) ↔
        ∀ v, fields["quote_text"]? = some v → coerce .TEXT (json_to_sql v) ≠ .Null := by
    rw [new_row_candidate]
    simp only [row_admitted,List.all_eq_true]
    constructor
    · intro all
      obtain ⟨c,column,named⟩ : ∃ c ∈ columns .highlight_meta, c.name = "quote_text" := by simp [columns]
      exact (annotation_admits column).mp (all c column) named
    · exact fun quote c column => (annotation_admits column).mpr (fun _ => quote)
  have present (new : Row) (id' : String) : ((r.set_row .highlight_meta id new).row .content_items id').isSome ↔
      (r.row .content_items id').isSome := by
    rw [row_set_row,if_neg (fun same => absurd same.1 (by decide))]
  have source (new : Row) : (∀ c ∈ columns .highlight_meta, c.name ∈ annotationFields fields →
      (r.set_row .highlight_meta id new).reference_ok c
        (assign .highlight_meta (annotationFields fields) new c.name)) ↔ r.SourceHeld fields :=
    source_held_iff (present new)
  have twice (row : Row) (f : String) : assign .highlight_meta (annotationFields fields)
      (assign .highlight_meta (annotationFields fields) row) f = assign .highlight_meta (annotationFields fields) row f := by
    unfold assign
    split <;> simp_all
  simp only [upsert_highlight_meta,if_ok]
  rw [and_assoc]
  change row_admitted .highlight_meta
    (new_row r.now .highlight_meta (given_values (annotationFields fields) [("quote_text","")])) ∧ _ ↔ _
  rw [candidate]
  refine and_congr_right (fun quote => ?_)
  cases held : r.row .highlight_meta id with
  | some row =>
    rw [shownMeta,shownRow_some held]
    change (if (annotationFields fields).isEmpty then Except.ok r
      else r.update_row .highlight_meta id row (annotationFields fields)) = .ok r' ↔ _
    split
    · next empty =>
      have nothing := Std.ExtTreeMap.isEmpty_iff.mp empty
      have unassigned : assign .highlight_meta (annotationFields fields) row = row := by
        rw [nothing]
        funext f
        simp [assign]
      have sourceless : r.SourceHeld fields := by
        intro v parent given
        have absent : (annotationFields fields)["source_item_id"]? = none := by simp [nothing]
        rw [annotationFields_get,if_neg (by decide),given] at absent
        cases absent
      rw [unassigned,set_row_same r .highlight_meta id held,Except.ok.injEq,eq_comm (a := r)]
      exact (and_iff_right sourceless).symm
    · rw [update_row_ok,← source (assign .highlight_meta (annotationFields fields) row)]
      refine and_congr_left (fun _ => ⟨fun checks c column given => ?_,fun refers c column given => ?_⟩)
      · rw [twice]
        exact (checks c column given).2.2
      · have value := refers c column given
        rw [twice] at value
        refine ⟨?_,unique_free_of_null (.inr (annotation_columns column).2),value⟩
        have same : assign .highlight_meta (annotationFields fields) row c.name =
            assign .highlight_meta (annotationFields fields) (blankRow r.now .highlight_meta [("quote_text","")])
              c.name := by
          obtain ⟨v,carried⟩ := Option.isSome_iff_exists.mp (Std.ExtTreeMap.mem_iff_isSome_getElem?.mp given)
          simp [assign,carried]
        rw [same]
        exact (annotation_admits column).mpr (fun _ => quote)
  | none =>
    rw [shownMeta,shownRow_none held]
    change r.insert_new .highlight_meta id
      (new_row r.now .highlight_meta (given_values (annotationFields fields) [("quote_text","")])) = .ok r' ↔ _
    rw [new_row_candidate,insert_new_ok,
      ← source (assign .highlight_meta (annotationFields fields) (blankRow r.now .highlight_meta [("quote_text","")]))]
    simp only [row_unique,row_references,List.all_eq_true]
    constructor
    · rintro ⟨-,refers,same⟩
      refine ⟨fun c column given => ?_,same⟩
      rw [twice]
      exact refers c column
    · rintro ⟨refers,same⟩
      refine ⟨fun c column => unique_free_of_null (.inr (annotation_columns column).2),fun c column => ?_,same⟩
      by_cases given : c.name ∈ annotationFields fields
      · have value := refers c column given
        rwa [twice] at value
      · rcases (annotation_columns column).1 with plain | ⟨name,-⟩
        · exact reference_ok_of_plain (.inr plain)
        · refine reference_ok_of_plain (.inl ?_)
          rw [assign,Std.ExtTreeMap.getElem?_eq_none given,name]
          rfl

theorem upsert_highlight_iff (known : ∀ f ∈ fields, f ∈ HIGHLIGHT_COLS) :
    r.upsert_highlight id fields = .ok r' ↔ HighlightFits r id fields ∧
      r' = r.set_highlight id (assign .content_items (shellFields fields) (r.shownShell id))
        (assign .highlight_meta (annotationFields fields) (r.shownMeta id)) := by
  have held (new : Row) (parent : String) : ((r.set_row .content_items id new).row .content_items parent).isSome ↔
      parent = id ∨ (r.row .content_items parent).isSome := by
    rw [row_set_row]
    by_cases here : parent = id <;> simp [here]
  simp only [upsert_highlight,bind_ok,upsert_shell_iff]
  constructor
  · rintro ⟨w,⟨status,rfl⟩,written⟩
    obtain ⟨⟨quote,source⟩,rfl⟩ := (upsert_highlight_meta_iff known).mp written
    exact ⟨⟨status,quote,fun v parent given named => (held _ _).mp (source v parent given named)⟩,rfl⟩
  · rintro ⟨fits,rfl⟩
    refine ⟨_,⟨fits.status,rfl⟩,(upsert_highlight_meta_iff known).mpr ⟨⟨fits.quote,?_⟩,rfl⟩⟩
    exact fun v parent given named => (held _ _).mpr (fits.source v parent given named)

theorem write_highlight_iff {op : Op} (edit : op ≠ .Delete) :
    r.write_entity_fields .Highlight id fields op = .ok r' ↔ (∀ f ∈ fields, f ∈ HIGHLIGHT_COLS) ∧
      HighlightFits r id fields ∧ r' = r.set_highlight id (assign .content_items (shellFields fields) (r.shownShell id))
        (assign .highlight_meta (annotationFields fields) (r.shownMeta id)) := by
  unfold write_entity_fields
  rw [if_neg edit,bind_ok]
  constructor
  · rintro ⟨⟨⟩,known,ok⟩
    rw [reject_unknown_columns_ok] at known
    exact ⟨known,(upsert_highlight_iff known).mp ok⟩
  · rintro ⟨known,ok⟩
    exact ⟨(),reject_unknown_columns_ok.mpr known,(upsert_highlight_iff known).mpr ok⟩

omit [Sqlite] in
theorem review_card_columns : ∀ f ∈ allowed_columns .ReviewCard, ∃ c ∈ columns .review_cards, c.name = f := by decide

/-- A write that is no delete moves the rows of its entity only. -/
theorem write_rowsOnly {op : Op} (edit : op ≠ .Delete) (ok : r.write_entity_fields ty id fields op = .ok r') :
    RowsOnly ty id r r' := by
  cases single : tableOf ty with
  | some t =>
    rw [(write_single_ok single edit ok).2]
    refine RowsOnly.set_row ?_ _
    cases one_table single <;> decide
  | none =>
    have written := ok
    unfold write_entity_fields at written
    rw [if_neg edit,bind_ok] at written
    obtain ⟨⟨⟩,known,written⟩ := written
    rw [reject_unknown_columns_ok] at known
    cases ty <;> simp only [tableOf,reduceCtorEq] at single
    case Highlight =>
      rw [((write_highlight_iff edit).mp ok).2.2]
      exact (RowsOnly.set_row (by decide) _).trans (RowsOnly.set_row (by decide) _)
    case TagEdge =>
      obtain rfl := Except.ok.inj written
      exact RowsOnly.rfl'
    case CollectionEdge =>
      obtain rfl := Except.ok.inj written
      exact RowsOnly.rfl'
    case ReviewCard =>
      rw [upsert_single_ok (fun f given => review_card_columns f (known f given)) written]
      exact RowsOnly.set_row (by decide) _
    case ReviewLog =>
      simp only [insert_append_only,insert_or_ignore] at written
      split at written
      · rw [(insert_new_ok.mp written).2.2]
        exact RowsOnly.set_row (by decide) _
      · obtain rfl := Except.ok.inj written
        exact RowsOnly.rfl'

end
end Replica
end Pergamon
