import Pergamon.Writes

/-!
A patch of an entity that is there, and what the entity reads as after it.

A patch is refused where a constraint of the schema keeps one of its values out (`Lets`). Of one that
is not, each value reads as its column keeps it, and the rest as before; a review log is only
appended to and stays as it is. The shell of a highlight gets its title and status from every
patch, also from one that does not name them (`patch_read_back` leaves these two open).
-/
namespace Pergamon
open Fallible

/-- Null, a 64-bit integer or a text. -/
def Value.Plain : Value → Prop
  | .Null | .Str _ => True
  | .Int i => -(2 ^ 63) ≤ i ∧ i < 2 ^ 63
  | _ => False

/-- The table that keeps a column of an entity. -/
def home : EntityType → String → TableName
  | .Highlight,f => if f = "title" ∨ f = "status" then .content_items else .highlight_meta
  | .ReviewCard,_ => .review_cards
  | .ReviewLog,_ => .review_logs
  | ty,_ => (tableOf ty).getD .content_items

section
variable [Sqlite]

/-- A plain value as a column keeps it: an integer in a text column as its digits, a text that reads as a number in
    a column of numbers as that number, any other as it is. -/
def kept (a : Affinity) (v : Value) : Value :=
  match a,v with
  | .TEXT,.Int i => .Str (toString i)
  | .REAL,.Int i => sql_to_json (.Real (Sqlite.real_of_int i))
  | .INTEGER,.Str s =>
    match Sqlite.number_of_text s with
    | some (.inl i) => .Int i
    | some (.inr r) => sql_to_json (integer_or_real r)
    | none => .Str s
  | .REAL,.Str s =>
    match Sqlite.number_of_text s with
    | some (.inl i) => sql_to_json (.Real (Sqlite.real_of_int i))
    | some (.inr r) => sql_to_json (.Real r)
    | none => .Str s
  | _,v => v

theorem read_back_kept (a : Affinity) {v : Value} (plain : v.Plain) : read_back a v = kept a v := by
  cases v with
  | Null => cases a with
    | _ => rfl
  | Int i =>
    have stored : json_to_sql (.Int i) = .Integer i := if_pos plain
    rw [read_back,stored]
    cases a with
    | _ => rfl
  | Str s =>
    cases a with
    | TEXT => rfl
    | INTEGER =>
      simp only [read_back,json_to_sql,coerce,kept]
      cases Sqlite.number_of_text s with
      | none => rfl
      | some number => cases number with
        | _ => rfl
    | REAL =>
      simp only [read_back,json_to_sql,coerce,kept]
      cases Sqlite.number_of_text s with
      | none => rfl
      | some number => cases number with
        | _ => rfl
  | Boolean b => cases plain
  | Float r => cases plain
  | Compound json => cases plain

/-- The old fields overridden by the patch. -/
def patched (ty : EntityType) (old patch : FieldMap) (f : String) : Option Value :=
  match patch[f]? with
  | some v => some (kept (affinity_of (home ty f) f) v)
  | none => old[f]?

namespace Replica

/-- The constraints of the schema let the values of a patch in. A review log is never refused. -/
def Lets (r : Replica) (ty : EntityType) (id : String) (patch : FieldMap) : Prop :=
  match ty with
  | .Highlight => HighlightFits r id patch
  | .ReviewLog => True
  | ty => ∀ f v, patch[f]? = some v → r.fits (home ty f) id f v

section
variable {r r' : Replica} {ty : EntityType} {t : TableName} {id : String} {patch : FieldMap} {row : Row}
  {cols : List String}

/-- A row that a patch has been assigned to reads as the patch and then as it did. -/
theorem assigned_read (plain : ∀ (f : String) (v : Value), patch[f]? = some v → v.Plain)
    (inside : ∀ f ∈ patch, f ∈ cols) (f : String) :
    (field_map cols (assign t patch row))[f]? =
      match patch[f]? with
      | some v => some (kept (affinity_of t f) v)
      | none => (field_map cols row)[f]? := by
  rw [field_map_get,field_map_get,assign]
  cases given : patch[f]? with
  | none => rfl
  | some v =>
    have column := inside f (Std.ExtTreeMap.mem_iff_isSome_getElem?.mpr (by simp [given]))
    rw [if_pos column]
    exact congrArg some (read_back_kept _ (plain f v given))

/-- A title or a status of a highlight that a patch does not give as text stays open. -/
def Covered (ty : EntityType) (patch : FieldMap) (f : String) : Prop :=
  ty = .Highlight → f = "title" ∨ f = "status" → ∃ s, patch[f]? = some (.Str s)

/-- What an entity reads as after a patch that was not refused. -/
def Overridden (r' : Replica) (ty : EntityType) (id : String) (old patch : FieldMap) : Prop :=
  ∃ new, r'.read_entity_fields ty id = some new ∧
    if ty = .ReviewLog then new = old else ∀ f, Covered ty patch f → new[f]? = patched ty old patch f

variable {old : FieldMap} (plain : ∀ (f : String) (v : Value), patch[f]? = some v → v.Plain)

include plain

theorem patch_single (single : tableOf ty = some t) (shown : r.read_entity_fields ty id = some old)
    (known : ∀ f ∈ patch, f ∈ allowed_columns ty) :
    (patch.isEmpty = false → ((∃ r', r.write_entity_fields ty id patch .FieldPatch = .ok r') ↔ r.Lets ty id patch)) ∧
    ∀ r', r.write_entity_fields ty id patch .FieldPatch = .ok r' → r'.Overridden ty id old patch := by
  have kept_in (f : String) : home ty f = t := by
    cases one_table single <;> rfl
  have lets : r.Lets ty id patch ↔ ∀ f v, patch[f]? = some v → r.fits t id f v := by
    cases one_table single <;> rfl
  have no_log : ty ≠ .ReviewLog := by
    rintro rfl
    cases single
  rw [read_single single,Option.map_eq_some_iff] at shown
  obtain ⟨row,held,rfl⟩ := shown
  constructor
  · intro some_field
    have edit : Op.FieldPatch ≠ .Delete := by decide
    simp only [update_single_iff single edit held some_field,lets,exists_and_left,exists_eq,and_true]
    exact and_iff_right known
  · intro r' written
    obtain ⟨-,rfl⟩ := write_single_ok single (by decide) written
    refine ⟨_,by rw [read_single single,row_set_row_self]; rfl,?_⟩
    rw [if_neg no_log,shownRow_some held]
    intro f _
    rw [assigned_read plain known,patched,kept_in]

theorem patch_card (shown : r.read_entity_fields .ReviewCard id = some old)
    (known : ∀ f ∈ patch, f ∈ allowed_columns .ReviewCard) :
    (patch.isEmpty = false →
      ((∃ r', r.write_entity_fields .ReviewCard id patch .FieldPatch = .ok r') ↔ r.Lets .ReviewCard id patch)) ∧
    ∀ r', r.write_entity_fields .ReviewCard id patch .FieldPatch = .ok r' → r'.Overridden .ReviewCard id old patch := by
  obtain ⟨row,held,rfl⟩ := Option.map_eq_some_iff.mp shown
  have writes : r.write_entity_fields .ReviewCard id patch .FieldPatch =
      r.upsert_single .review_cards id patch REVIEW_CARD_DEFAULTS := by
    rw [write_entity_fields,if_neg (by decide),reject_unknown_columns_ok.mpr known]
    rfl
  rw [writes]
  constructor
  · intro some_field
    have updates : r.upsert_single .review_cards id patch REVIEW_CARD_DEFAULTS =
        r.update_row .review_cards id row patch := by
      simp [upsert_single,held,some_field]
    simp only [updates,update_row_iff held,exists_and_left,exists_eq,and_true]
    rfl
  · intro r' written
    rw [upsert_single_ok (fun f given => review_card_columns f (known f given)) written,shownRow_some held]
    refine ⟨_,congrArg (Option.map _) (row_set_row_self ..),?_⟩
    rw [if_neg (by decide)]
    intro f _
    exact assigned_read plain known f

omit plain in
/-- A review log is only appended to. -/
theorem patch_log (shown : r.read_entity_fields .ReviewLog id = some old)
    (known : ∀ f ∈ patch, f ∈ allowed_columns .ReviewLog) :
    r.write_entity_fields .ReviewLog id patch .FieldPatch = .ok r := by
  obtain ⟨row,held,-⟩ := Option.map_eq_some_iff.mp shown
  rw [write_entity_fields,if_neg (by decide),reject_unknown_columns_ok.mpr known]
  change r.insert_append_only .review_logs id patch REVIEW_LOG_DEFAULTS = .ok r
  rw [insert_append_only,insert_or_ignore,if_neg]
  simp [held]

theorem patch_highlight (shown : r.read_entity_fields .Highlight id = some old)
    (known : ∀ f ∈ patch, f ∈ allowed_columns .Highlight) :
    ((∃ r', r.write_entity_fields .Highlight id patch .FieldPatch = .ok r') ↔ r.Lets .Highlight id patch) ∧
    ∀ r', r.write_entity_fields .Highlight id patch .FieldPatch = .ok r' → r'.Overridden .Highlight id old patch := by
  have edit : Op.FieldPatch ≠ .Delete := by decide
  constructor
  · simp only [write_highlight_iff edit,exists_and_left,exists_eq,and_true]
    exact and_iff_right known
  · intro r' written
    obtain ⟨-,-,rfl⟩ := (write_highlight_iff edit).mp written
    change r.read_highlight id = some old at shown
    rw [read_highlight] at shown
    split at shown
    · rename_i item data shell annotation
      cases shown
      have shell' : (r.set_highlight id (assign .content_items (shellFields patch) (r.shownShell id))
          (assign .highlight_meta (annotationFields patch) (r.shownMeta id))).row .content_items id =
            some (assign .content_items (shellFields patch) item) := by
        rw [set_highlight,row_set_row,if_neg (fun same => by cases same.1),row_set_row_self,shownShell,shell]
        rfl
      have annotation' : (r.set_highlight id (assign .content_items (shellFields patch) (r.shownShell id))
          (assign .highlight_meta (annotationFields patch) (r.shownMeta id))).row .highlight_meta id =
            some (assign .highlight_meta (annotationFields patch) data) := by
        rw [set_highlight,row_set_row_self,shownMeta,shownRow_some annotation]
      refine ⟨field_map HIGHLIGHT_COLS (fun col => if col = "title" ∨ col = "status" then
        assign .content_items (shellFields patch) item col
        else assign .highlight_meta (annotationFields patch) data col),?_,?_⟩
      · change read_highlight _ id = _
        rw [read_highlight,shell',annotation']
      · rw [if_neg (by decide)]
        intro f covered
        by_cases in_shell : f = "title" ∨ f = "status"
        · -- The patch gives the title or the status as text, and the shell takes it.
          obtain ⟨s,given⟩ := covered rfl in_shell
          have inside : f ∈ HIGHLIGHT_COLS := known f (Std.ExtTreeMap.mem_iff_isSome_getElem?.mpr (by simp [given]))
          have taken : (shellFields patch)[f]? = some (.Str s) := by
            obtain rfl | rfl := in_shell
            · simp [shellFields_get,shellTitle,given,Value.as_str]
            · simp [shellFields_get,shellStatus,given,Value.as_str]
          have text : affinity_of .content_items f = .TEXT := by
            obtain rfl | rfl := in_shell
            · rfl
            · rfl
          rw [field_map_get,if_pos inside,if_pos in_shell,assign,taken,patched,given,home,if_pos in_shell]
          dsimp only
          rw [text]
          rfl
        · have rest : (annotationFields patch)[f]? = patch[f]? := by
            rw [annotationFields_get,if_neg (fun one => in_shell one.symm)]
          rw [field_map_get,if_neg in_shell,assign,rest,patched]
          cases given : patch[f]? with
          | none =>
            dsimp only
            rw [field_map_get,if_neg in_shell]
          | some v =>
            have inside : f ∈ HIGHLIGHT_COLS := known f (Std.ExtTreeMap.mem_iff_isSome_getElem?.mpr (by simp [given]))
            rw [if_pos inside,home,if_neg in_shell]
            exact congrArg some (read_back_kept _ (plain f v given))
    · cases shown

/-- A patch of an entity that is there succeeds just where the schema lets its values in, and then the entity reads as
    it did, overridden by the values of the patch as the columns keep them. -/
theorem patch_read_back (shown : r.read_entity_fields ty id = some old) (known : ∀ f ∈ patch, f ∈ allowed_columns ty) :
    (patch.isEmpty = false → (∀ f ∈ patch, Covered ty patch f) →
      ((∃ r', r.write_entity_fields ty id patch .FieldPatch = .ok r') ↔ r.Lets ty id patch)) ∧
    ∀ r', r.write_entity_fields ty id patch .FieldPatch = .ok r' → r'.Overridden ty id old patch := by
  cases single : tableOf ty with
  | some t =>
    obtain ⟨succeeds,overridden⟩ := patch_single plain single shown known
    exact ⟨fun some_field _ => succeeds some_field,overridden⟩
  | none =>
    cases ty <;> simp only [tableOf,reduceCtorEq] at single
    case Highlight =>
      obtain ⟨succeeds,overridden⟩ := patch_highlight plain shown known
      exact ⟨fun _ _ => succeeds,overridden⟩
    case ReviewCard =>
      obtain ⟨succeeds,overridden⟩ := patch_card plain shown known
      exact ⟨fun some_field _ => succeeds some_field,overridden⟩
    case ReviewLog =>
      have appends := patch_log shown known
      refine ⟨fun _ _ => ⟨fun _ => trivial,fun _ => ⟨r,appends⟩⟩,fun r' written => ?_⟩
      cases appends.symm.trans written
      refine ⟨old,shown,?_⟩
      rw [if_pos rfl]
    case TagEdge => cases shown
    case CollectionEdge => cases shown

end

/-- The entity reads as it did, overridden by the values of the patch as they are given. -/
def OverriddenAsGiven (r : Replica) (ty : EntityType) (id : String) (patch : FieldMap) : Prop :=
  ∀ old, r.read_entity_fields ty id = some old →
    ∃ r' new, r.write_entity_fields ty id patch .FieldPatch = .ok r' ∧ r'.read_entity_fields ty id = some new ∧
      ∀ f : String, new[f]? = (patch[f]?).or old[f]?

end Replica
end

/-- A library of one tag. -/
def oneTag : Replica := Replica.empty.set_row .tags "t" (fun _ => .Text "a")

theorem oneTag_row : oneTag.row .tags "t" = some (fun _ => .Text "a") := Replica.row_set_row_self ..

section
variable {v : Value}

theorem named_known : ∀ f ∈ (∅ : FieldMap).insert "name" v, f ∈ allowed_columns .Tag := by
  intro f given
  rw [mem_one.mp given]
  decide

theorem named_plain (plain : v.Plain) :
    ∀ (f : String) (w : Value), ((∅ : FieldMap).insert "name" v)[f]? = some w → w.Plain := by
  intro f w given
  rw [Std.ExtTreeMap.getElem?_insert] at given
  split at given
  · cases given
    exact plain
  · simp at given

/-- The tag takes every name but null. -/
theorem oneTag_lets [Sqlite] : oneTag.Lets .Tag "t" ((∅ : FieldMap).insert "name" v) ↔
    coerce .TEXT (json_to_sql v) ≠ .Null := by
  have column : columns .tags = [{ name := "name", not_null := true, unique := .nocase }] := rfl
  have text : affinity_of .tags "name" = .TEXT := rfl
  have free (w : SqlValue) : oneTag.unique_free .tags "t" { name := "name", not_null := true, unique := .nocase } w := by
    rw [Replica.unique_free_iff]
    intro other row apart held
    rw [oneTag,Replica.row_set_row,if_neg (fun same => apart same.2)] at held
    cases held
  constructor
  · intro lets null
    obtain ⟨admitted,-⟩ := lets "name" v (by simp) _
        (by rw [show home .Tag "name" = .tags from rfl,column]; exact List.mem_cons_self) rfl
    rw [show home .Tag "name" = .tags from rfl,text,null] at admitted
    cases admitted
  · intro some_text f w given c inside named
    rw [Std.ExtTreeMap.getElem?_insert] at given
    split at given
    · rename_i same
      cases given
      obtain rfl := compare_eq_iff_eq.mp same
      change c ∈ columns .tags at inside
      rw [column,List.mem_singleton] at inside
      subst inside
      refine ⟨?_,free _,rfl⟩
      change admits _ (coerce .TEXT (json_to_sql v))
      obtain null | ⟨s,text⟩ := coerce_text_cases (json_to_sql v)
      · exact absurd null some_text
      · rw [text]
        rfl
    · simp at given

end

/-- A tag is renamed. -/
theorem patch_read_back_tag :
    letI := plainSqlite
    ∃ r', oneTag.write_entity_fields .Tag "t" ((∅ : FieldMap).insert "name" (.Str "b")) .FieldPatch = .ok r' ∧
      r'.Overridden .Tag "t" (field_map TAG_COLS (fun _ => .Text "a")) ((∅ : FieldMap).insert "name" (.Str "b")) := by
  let := plainSqlite
  have shown : oneTag.read_entity_fields .Tag "t" = some (field_map TAG_COLS (fun _ => .Text "a")) :=
    congrArg (Option.map _) oneTag_row
  have plain : Value.Plain (.Str "b") := trivial
  have some_name : coerce .TEXT (json_to_sql (.Str "b")) ≠ .Null := by decide
  obtain ⟨succeeds,overridden⟩ := Replica.patch_read_back (named_plain plain) shown named_known
  obtain ⟨r',written⟩ := (succeeds (by simp) (fun _ _ other => by cases other)).mpr (oneTag_lets.mpr some_name)
  exact ⟨r',written,overridden r' written⟩

/-- A text column keeps an integer as its digits, and a column that is not null keeps no null. -/
theorem patch_not_as_given :
    letI := plainSqlite
    ¬ oneTag.OverriddenAsGiven .Tag "t" ((∅ : FieldMap).insert "name" (.Int 5)) ∧
      ¬ oneTag.OverriddenAsGiven .Tag "t" ((∅ : FieldMap).insert "name" .Null) := by
  let := plainSqlite
  have edit : Op.FieldPatch ≠ .Delete := by decide
  have shown : oneTag.read_entity_fields .Tag "t" = some (field_map TAG_COLS (fun _ => .Text "a")) :=
    congrArg (Option.map _) oneTag_row
  constructor
  · intro as_given
    obtain ⟨r',new,written,shown',all⟩ := as_given _ shown
    have plain : Value.Plain (.Int 5) := ⟨by decide,by decide⟩
    obtain ⟨read,shown'',kept_all⟩ := (Replica.patch_single (named_plain plain) rfl shown named_known).2 r' written
    rw [shown'] at shown''
    cases shown''
    rw [if_neg (by decide)] at kept_all
    have digits := kept_all "name" (fun other => by cases other)
    have five := all "name"
    rw [digits,patched,Std.ExtTreeMap.getElem?_insert_self] at five
    cases five
  · intro as_given
    obtain ⟨r',new,written,-⟩ := as_given _ shown
    obtain ⟨-,fits,-⟩ := (Replica.update_single_iff rfl edit oneTag_row (by simp)).mp written
    exact oneTag_lets.mp fits rfl

end Pergamon
