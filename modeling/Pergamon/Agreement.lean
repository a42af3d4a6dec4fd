import Pergamon.Moves

/-!
The two ways of a change: the device that makes it writes its rows and stamps its fields,
every other device merges it. A device that gets back its own change in the state it was
made in ends where it ended when it made it, the conflict inbox aside, for deletes and
for most edits (`emit_apply_agree`). They differ for the memberships, which only the
maker stamps, for review cards and logs, for prose written to a dead entity and for a
highlight whose shell a write of a single field resets.
-/
namespace Pergamon
open Fallible

namespace Replica

section
variable [Sqlite] {ty : EntityType} {t : TableName} {id : String} {r w : Replica} {fields : FieldMap} {op : Op}
  {c : Hlc}

/-! ### Entities of one table -/

/-- Assigning fields twice is assigning them once. -/
theorem assign_twice (t : TableName) (fields : FieldMap) (row : Row) :
    assign t fields (assign t fields row) = assign t fields row := by
  funext g
  unfold assign
  split <;> simp_all

/-- The blank row of an entity is let in, next to the given value of the first field. -/
def BlankFits (r : Replica) (ty : EntityType) (t : TableName) (id : String) (fields : FieldMap) : Prop :=
  ∀ f ∈ fields, ∀ c ∈ columns t, c.name ∈ fields → c.name ≠ f →
    admits c (blankRow r.now t (defaultsOf ty) c.name) ∧ r.unique_free t id c (blankRow r.now t (defaultsOf ty) c.name) ∧
      r.reference_ok c (blankRow r.now t (defaultsOf ty) c.name)

/-- The first field of an insert that succeeds can be inserted alone. -/
theorem insert_first {f : String} {v : Value} (single : tableOf ty = some t) (edit : op ≠ .Delete)
    (missing : r.row t id = none) (blank : BlankFits r ty t id fields) (given : fields[f]? = some v)
    (ok : r.write_entity_fields ty id fields op = .ok w) :
    r.write_entity_fields ty id ((∅ : FieldMap).insert f v) .FieldPatch =
      .ok (r.set_row t id (assign t ((∅ : FieldMap).insert f v) (blankRow r.now t (defaultsOf ty)))) := by
  obtain ⟨known,all,-⟩ := (insert_single_iff single edit missing).mp ok
  have inside : f ∈ fields := Std.ExtTreeMap.mem_iff_isSome_getElem?.mpr (by simp [given])
  refine (insert_single_iff single (by decide) missing).mpr ⟨?_,fun c column => ?_,rfl⟩
  · intro g one
    rw [mem_one.mp one]
    exact known f inside
  · obtain ⟨admitted,free,refers⟩ := all c column
    have more (new : Row) (t' : TableName) (id' : String)
        (held : ((r.set_row t id new).row t' id').isSome) (new' : Row) : ((r.set_row t id new').row t' id').isSome := by
      rw [row_set_row] at held ⊢
      split at held
      · next here => rw [if_pos here]; rfl
      · next apart => rw [if_neg apart]; exact held
    rw [assign_one]
    split
    · next named =>
      have value : assign t fields (blankRow r.now t (defaultsOf ty)) c.name =
          coerce (affinity_of t f) (json_to_sql v) := by simp [assign,named,given]
      rw [value] at admitted free refers
      exact ⟨admitted,free,reference_ok_mono (fun t' id' held => more _ t' id' held _) refers⟩
    · next other =>
      by_cases carried : c.name ∈ fields
      · obtain ⟨admitted,free,refers⟩ := blank f inside c column carried other
        exact ⟨admitted,free,reference_ok_mono (set_row_more _) refers⟩
      · have value : assign t fields (blankRow r.now t (defaultsOf ty)) c.name =
            blankRow r.now t (defaultsOf ty) c.name := by
          rw [assign,Std.ExtTreeMap.getElem?_eq_none carried]
        rw [value] at admitted free refers
        exact ⟨admitted,free,reference_ok_mono (fun t' id' held => more _ t' id' held _) refers⟩

/-- A change to an entity of one table that succeeds all that the entity has seen leaves
    what the write of all its fields leaves. -/
theorem apply_single_succeeds {body : ChangeBody} (single : tableOf body.entity_type = some t)
    (succeeds : Succeeds r body)
    (ok : r.write_entity_fields body.entity_type body.entity_id body.fields .Upsert = .ok w)
    (settled : r.tombstone body.entity_type body.entity_id = none ∨ (r.row t body.entity_id).isSome ∨
      body.fields.isEmpty = false ∧ BlankFits r body.entity_type t body.entity_id body.fields) :
    r.apply_fields body = .ok (stamps body.entity_type body.entity_id body.clock body.fields.toList w) := by
  obtain ⟨known,rfl⟩ := write_single_ok single (by decide) ok
  set row := assign t body.fields (r.shownRow t body.entity_id (defaultsOf body.entity_type)) with assigned
  -- the fields are let in one by one where the row is there
  have run (s : Replica) (there : (s.row t body.entity_id).isSome)
      (others : ∀ other, other ≠ body.entity_id → s.row t other = (r.set_row t body.entity_id row).row t other)
      (more : ∀ t' id', ((r.set_row t body.entity_id row).row t' id').isSome → (s.row t' id').isSome)
      (l : List (String × Value)) (part : ∀ field ∈ l, field ∈ body.fields.toList) :
      ∃ r', l.foldlM (take_field body) s = .ok r' := by
    refine take_single_total single there (fun f v inside => ?_)
    have given := mem_toList.mp (part _ inside)
    refine ⟨known f (Std.ExtTreeMap.mem_iff_isSome_getElem?.mpr (by simp [given])),?_⟩
    exact fits_congr others more (fits_of_write single (by decide) ok given)
  rw [apply_fields_takes succeeds,read_single single]
  cases held : r.row t body.entity_id with
  | some old =>
    simp only [Option.map_some,Option.isNone_some,Bool.false_eq_true,false_and,if_false,ok_bind]
    have more (t' : TableName) (id' : String)
        (there : ((r.set_row t body.entity_id row).row t' id').isSome) : (r.row t' id').isSome := by
      rw [row_set_row] at there
      split at there
      · next here =>
        obtain ⟨rfl,rfl⟩ := here
        simp [held]
      · exact there
    obtain ⟨r',taken⟩ := run r (by simp [held]) (fun other apart => (row_set_row_apart row other apart).symm) more _
      (fun _ => id)
    obtain ⟨-,rfl⟩ := take_single_ok single (.inl (by simp [held])) taken
    rw [taken,assignAll_toList]
  | none =>
    simp only [Option.map_none,Option.isNone_none,true_and]
    split
    · -- inserted in one shot, and each field written once more
      rw [ok,ok_bind]
      obtain ⟨r',taken⟩ := run (r.set_row t body.entity_id row) (by simp) (fun _ _ => rfl) (fun _ _ there => there) _
        (fun _ => id)
      obtain ⟨-,rfl⟩ := take_single_ok single (.inl (by simp)) taken
      rw [taken,assignAll_toList,shownRow_some (row_set_row_self r t body.entity_id row),set_row_twice,assigned,
        assign_twice]
    · next killed =>
      have first : body.fields.isEmpty = false ∧ BlankFits r body.entity_type t body.entity_id body.fields := by
        rcases settled with alive | there | first
        · exact absurd (by simp [alive]) killed
        · simp [held] at there
        · exact first
      obtain ⟨some_field,blank⟩ := first
      rw [ok_bind]
      cases list : body.fields.toList with
      | nil =>
        rw [← Std.ExtTreeMap.isEmpty_toList,list] at some_field
        cases some_field
      | cons field l =>
        obtain ⟨f,v⟩ := field
        have given : body.fields[f]? = some v := mem_toList.mp (list ▸ .head _)
        have written := insert_first single (by decide) held blank given ok
        generalize first : assign t ((∅ : FieldMap).insert f v) (blankRow r.now t (defaultsOf body.entity_type)) = new
          at written
        have others (other : String) (apart : other ≠ body.entity_id) :
            (r.set_row t body.entity_id new).row t other = (r.set_row t body.entity_id row).row t other := by
          rw [row_set_row_apart new other apart,row_set_row_apart row other apart]
        have more (t' : TableName) (id' : String)
            (there : ((r.set_row t body.entity_id row).row t' id').isSome) :
            ((r.set_row t body.entity_id new).row t' id').isSome := by
          rw [row_set_row] at there ⊢
          split at there
          · next here => rw [if_pos here]; rfl
          · next apart => rw [if_neg apart]; exact there
        obtain ⟨r',rest⟩ := run ((r.set_row t body.entity_id new).set_entity_clock body.entity_type body.entity_id f
          body.clock) (by simp) others more l (fun field inside => list ▸ .tail _ inside)
        have taken : ((f,v) :: l).foldlM (take_field body) r = .ok r' :=
          foldlM_cons_ok.mpr ⟨_,bind_ok.mpr ⟨_,written,rfl⟩,rest⟩
        obtain ⟨-,rfl⟩ := take_single_ok single (.inr (List.cons_ne_nil _ _)) taken
        rw [taken,← list,assignAll_toList]

/-- The blank row of each kind of entity is let in, but for the url of a feed. -/
theorem blank_fits (single : tableOf ty = some t) (known : ∀ f ∈ fields, f ∈ allowed_columns ty)
    (plain : ∀ f ∈ fields, ¬Prose ty f)
    (feed : ty = .FeedSubscription → (∃ f ∈ fields, f ≠ "url") →
      ∀ other row, other ≠ id → r.row .feeds other = some row → row "url" ≠ .Text "") : BlankFits r ty t id fields := by
  intro f given c column inside other'
  have allowed := known f given
  have allowed' := known c.name inside
  have unprosaic := plain f given
  have unprosaic' := plain c.name inside
  cases one_table single
  case Tag | Settings =>
    simp [allowed_columns,TAG_COLS,SETTINGS_COLS] at allowed allowed'
    exact absurd (allowed'.trans allowed.symm) other'
  case Note =>
    simp [allowed_columns,NOTE_COLS,Prose,strategy_for] at allowed allowed' unprosaic unprosaic'
    simp_all
  case Document =>
    simp only [columns,List.mem_cons,List.not_mem_nil,or_false] at column
    rcases column with rfl | rfl | rfl | rfl | rfl | rfl | rfl | rfl | rfl <;>
      exact ⟨rfl,unique_free_of_null (by first | exact .inl rfl | exact .inr (fun _ _ => rfl)),
        reference_ok_of_plain (by first | exact .inl rfl | exact .inr rfl)⟩
  case Collection =>
    simp only [columns,List.mem_cons,List.not_mem_nil,or_false] at column
    rcases column with rfl | rfl | rfl <;>
      exact ⟨rfl,unique_free_of_null (by first | exact .inl rfl | exact .inr (fun _ _ => rfl)),
        reference_ok_of_plain (by first | exact .inl rfl | exact .inr rfl)⟩
  case FeedSubscription =>
    simp only [columns,List.mem_cons,List.not_mem_nil,or_false] at column
    rcases column with rfl | rfl | rfl | rfl | rfl
    case inr.inl =>
      refine ⟨rfl,unique_free_iff.mpr (fun other row apart held => ?_),reference_ok_of_plain (.inr rfl)⟩
      have taken := feed rfl ⟨f,given,Ne.symm other'⟩ other row apart held
      change same_key .binary (row "url") (.Text "") = false
      cases url : row "url" with
      | Text s => simpa [same_key,url] using taken
      | _ => rfl
    all_goals
      exact ⟨rfl,unique_free_of_null (by first | exact .inl rfl | exact .inr (fun _ _ => rfl)),
        reference_ok_of_plain (by first | exact .inl rfl | exact .inr rfl)⟩

/-! ### Highlights -/

omit [Sqlite] in
theorem title_last : ∀ f ∈ HIGHLIGHT_COLS, compare "title" f ≠ .lt := by decide

omit [Sqlite] in
theorem after_status : ∀ f ∈ HIGHLIGHT_COLS, compare "status" f = .lt → f = "title" := by decide

omit [Sqlite] in
/-- The names of the fields are in order. -/
theorem before_last {l : List (String × Value)} {field : String × Value} (list : fields.toList = l ++ [field])
    {g : String} {w : Value} (held : fields[g]? = some w) : g = field.1 ∨ compare g field.1 = .lt := by
  have member := mem_toList.mpr held
  rw [list] at member
  rcases List.mem_append.mp member with before | here
  · have ordered : fields.toList.Pairwise (fun a b => compare a.1 b.1 = .lt) := Std.ExtTreeMap.ordered_keys_toList
    rw [list] at ordered
    exact .inr ((List.pairwise_append.mp ordered).2.2 _ before field (by simp))
  · exact .inl (congrArg Prod.fst (List.mem_singleton.mp here))

omit [Sqlite] in
/-- The last field of a highlight's change gives its shell what all its fields give it. -/
theorem shellFields_last {l : List (String × Value)} {field : String × Value} (known : ∀ f ∈ fields, f ∈ HIGHLIGHT_COLS)
    (settled : "title" ∈ fields → shellStatus fields = "inbox") (list : fields.toList = l ++ [field]) :
    shellFields (one field) = shellFields fields := by
  obtain ⟨f,v⟩ := field
  have given : fields[f]? = some v := mem_toList.mp (by simp [list])
  have inside : f ∈ HIGHLIGHT_COLS := known f (mem_fields.mpr ⟨v,by simp [list]⟩)
  -- the names are in order, and that of the title is the last of all
  have last (g : String) (w : Value) (held : fields[g]? = some w) : g = f ∨ compare g f = .lt := before_last list held
  have title (w : Value) (held : fields["title"]? = some w) : f = "title" := by
    rcases last _ w held with same | less
    · exact same.symm
    · exact absurd less (title_last f inside)
  have status (w : Value) (held : fields["status"]? = some w) : f = "status" ∨ f = "title" := by
    rcases last _ w held with same | less
    · exact .inl same.symm
    · exact .inr (after_status f inside less)
  have titles : shellTitle (one (f,v)) = shellTitle fields := by
    unfold shellTitle
    rw [one_get]
    cases held : fields["title"]? with
    | some w =>
      obtain rfl := title w held
      rw [if_pos rfl,← held,given]
    | none =>
      rw [if_neg]
      rintro rfl
      rw [held] at given
      cases given
  have statuses : shellStatus (one (f,v)) = shellStatus fields := by
    by_cases here : f = "status"
    · subst here
      simp [shellStatus,one_get,given]
    · have blank : shellStatus (one (f,v)) = "inbox" := by simp [shellStatus,one_get,Ne.symm here]
      rw [blank]
      cases held : fields["status"]? with
      | none => simp [shellStatus,held]
      | some w =>
        obtain rfl := (status w held).resolve_left here
        exact (settled (mem_fields.mpr ⟨v,by simp [list]⟩)).symm
  simp only [shellFields,titles,statuses]

/-- The shell of a highlight, with the annotation next to it, is as an insert leaves it. -/
def BlankHighlight (r : Replica) (id : String) : Prop :=
  ∃ shell annotation, r.row .content_items id = some shell ∧ r.row .highlight_meta id = some annotation ∧
    shell "title" = .Text "" ∧ shell "status" = .Text "inbox"

/-- A change to a highlight that succeeds all that the highlight has seen leaves what the
    write of all its fields leaves, where the shell ends in the inbox if it is given a title. -/
theorem apply_highlight_succeeds {body : ChangeBody} (highlight : body.entity_type = .Highlight)
    (succeeds : Succeeds r body)
    (ok : r.write_entity_fields body.entity_type body.entity_id body.fields .Upsert = .ok w)
    (shell : "title" ∈ body.fields → shellStatus body.fields = "inbox")
    (settled : body.fields.isEmpty → (r.read_entity_fields body.entity_type body.entity_id = none ∧
      r.tombstone body.entity_type body.entity_id = none) ∨ BlankHighlight r body.entity_id) :
    r.apply_fields body = .ok (stamps body.entity_type body.entity_id body.clock body.fields.toList w) := by
  have written := ok
  rw [highlight] at written
  obtain ⟨known,fits,same⟩ := (write_highlight_iff (by decide)).mp written
  rw [apply_fields_takes succeeds]
  -- what a run over all the fields leaves, from a state that holds at least the same items
  have run (s : Replica) (more : ∀ id, (r.row .content_items id).isSome → (s.row .content_items id).isSome)
      (some_field : body.fields.isEmpty = false) :
      body.fields.toList.foldlM (take_field body) s = .ok (stamps body.entity_type body.entity_id body.clock
        body.fields.toList (s.set_highlight body.entity_id
          (assign .content_items (shellFields body.fields) (s.shownShell body.entity_id))
          (assign .highlight_meta (annotationFields body.fields) (s.shownMeta body.entity_id)))) := by
    rcases List.eq_nil_or_concat' body.fields.toList with nothing | ⟨l,field,list⟩
    · rw [← Std.ExtTreeMap.isEmpty_toList,nothing] at some_field
      cases some_field
    · obtain ⟨r',taken⟩ := take_highlight_total (r := s) (l := body.fields.toList) highlight (fun field inside => by
        have given := mem_toList.mp inside
        exact ⟨known _ (mem_fields.mpr ⟨_,inside⟩),(fits.mono more).one_field given⟩)
      rw [taken]
      rw [list] at taken
      obtain ⟨-,rfl⟩ := take_highlight_ok highlight taken
      rw [shellFields_last known shell list,← list,annotated_toList]
  cases empty : body.fields.isEmpty with
  | true =>
    have nothing : body.fields.toList = [] := by
      rw [← List.isEmpty_iff,Std.ExtTreeMap.isEmpty_toList]
      exact empty
    rw [nothing]
    rcases settled empty with ⟨missing,alive⟩ | ⟨old,noted,item,data,title,status⟩
    · rw [missing,alive,if_pos ⟨rfl,rfl⟩,ok]
      rfl
    · have there : r.read_entity_fields body.entity_type body.entity_id ≠ none := by
        rw [highlight]
        simp [read_entity_fields,read_highlight,item,data]
      rw [if_neg (fun missing => there (Option.isNone_iff_eq_none.mp missing.1))]
      have unchanged : w = r := by
        have blank := Std.ExtTreeMap.isEmpty_iff.mp empty
        have items : assign .content_items (shellFields body.fields) old = old := by
          funext f
          rw [assign,shellFields_get,blank]
          by_cases at_status : f = "status"
          · rw [at_status,status]
            rfl
          · by_cases at_title : f = "title"
            · rw [at_title,title]
              rfl
            · rw [if_neg at_status,if_neg at_title]
        have datas : assign .highlight_meta (annotationFields body.fields) noted = noted := by
          funext f
          have nowhere : (annotationFields ∅)[f]? = none := by simp [annotationFields_get]
          rw [assign,blank,nowhere]
        rw [same,shownShell,item,Option.getD_some,items,shownMeta,shownRow_some data,datas,set_highlight,
          set_row_same r _ _ item,set_row_same r _ _ data]
      rw [unchanged]
      rfl
  | false =>
    split
    · rw [ok]
      refine (run w (fun id there => ?_) empty).trans ?_
      · rw [same]
        exact set_row_more _ _ _ (set_row_more _ _ _ there)
      · have shells : w.shownShell body.entity_id =
            assign .content_items (shellFields body.fields) (r.shownShell body.entity_id) := by
          rw [same]
          simp [shownShell,set_highlight,row_set_row]
        have annotations : w.shownMeta body.entity_id =
            assign .highlight_meta (annotationFields body.fields) (r.shownMeta body.entity_id) := by
          rw [same]
          exact shownRow_some (by simp [set_highlight])
        rw [shells,annotations,shell_twice,assign_twice,same,set_highlight_twice]
    · refine (run r (fun _ there => there) empty).trans ?_
      rw [same]

/-! ### One change, two ways -/

/-- The change carries no prose to a dead entity. -/
def ProseLives (r : Replica) (ty : EntityType) (id : String) (fields : FieldMap) : Prop :=
  r.tombstone ty id = none ∨ ∀ f ∈ fields, ¬Prose ty f

variable [Scheduler]

/-- An edit that a device merges as it made it. -/
def EditAgrees (r : Replica) (ty : EntityType) (id : String) (fields : FieldMap) : Prop :=
  match ty with
  | .TagEdge | .CollectionEdge | .ReviewCard => False
  | .ReviewLog => fields.isEmpty ∧
      ∀ card, r.review_log_card_id id = some card → r.recompute_review_card card = r
  | .Highlight => ProseLives r .Highlight id fields ∧ ("title" ∈ fields → shellStatus fields = "inbox") ∧
      (fields.isEmpty → (r.read_entity_fields .Highlight id = none ∧ r.tombstone .Highlight id = none) ∨
        BlankHighlight r id)
  | ty => ProseLives r ty id fields ∧ (r.tombstone ty id = none ∨ (r.read_entity_fields ty id).isSome ∨
      fields.isEmpty = false ∧ (ty = .FeedSubscription → (∃ f ∈ fields, f ≠ "url") →
        ∀ other row, other ≠ id → r.row .feeds other = some row → row "url" ≠ .Text ""))

/-- A change that a device merges as it made it. -/
def ChangeAgrees (r : Replica) (ty : EntityType) (id : String) (op : Op) (fields : FieldMap) : Prop :=
  if op = .Delete then ty ≠ .TagEdge ∧ ty ≠ .CollectionEdge else EditAgrees r ty id fields

omit [Scheduler] in
/-- A log without a card is not appended. -/
theorem log_unlogged (ok : r.write_entity_fields .ReviewLog id ∅ .Upsert = .ok w) : r = w := by
  unfold write_entity_fields at ok
  rw [if_neg (by decide),bind_ok] at ok
  obtain ⟨⟨⟩,-,ok⟩ := ok
  have cardless : row_admitted .review_logs (new_row r.now .review_logs (given_values ∅ REVIEW_LOG_DEFAULTS)) = false :=
    rfl
  simp only [insert_append_only,insert_or_ignore,cardless] at ok
  simpa using ok

/-- A change comes back to the state it was made in and leaves what it left. -/
theorem apply_emitted (blobs : List BlobManifestEntry) {e : Replica} {base : Option Hlc}
    (newer : ∀ f held, r.entity_clock ty id f = some held → held < c)
    (later : ∀ dead, r.tombstone ty id = some dead → dead < c) (agrees : ChangeAgrees r ty id op fields)
    (emitted : r.emit_local ty id op fields c = .ok (base,e)) :
    ∃ cs, r.apply_change ⟨ty,id,op,c,base,fields,blobs⟩ = .ok { e with sync_conflicts := cs } := by
  unfold ChangeAgrees at agrees
  split at agrees
  · next delete =>
    subst delete
    obtain ⟨cs,-,applied⟩ := apply_delete_newer (r := r) ⟨ty,id,.Delete,c,base,fields,blobs⟩
      (fun f held slot => (newer f held slot).le)
    obtain ⟨-,rfl⟩ := emit_local_delete agrees emitted
    refine ⟨cs,?_⟩
    rw [← applied]
    cases ty <;> first | rfl | exact absurd rfl agrees.1 | exact absurd rfl agrees.2
  · next edit =>
    have rows : ty ≠ .TagEdge ∧ ty ≠ .CollectionEdge := by
      refine ⟨?_,?_⟩ <;> rintro rfl <;> exact agrees
    obtain ⟨rfl,w,written,rfl⟩ := emit_local_edit rows edit emitted
    have known := write_known edit written
    rw [write_edit edit] at written
    have succeeds (lives : ProseLives r ty id fields) :
        Succeeds r ⟨ty,id,op,c,r.base_version_for ty id fields,fields,blobs⟩ := by
      refine ⟨newer,fun f given prose => base_version_for_eq known given prose,fun dead killed => (later dead killed).le,
        fun dead killed => ?_⟩
      have killed : r.tombstone ty id = some dead := killed
      exact lives.resolve_left (by simp [killed])
    have table {t : TableName} (single : tableOf ty = some t) (lives : ProseLives r ty id fields)
        (settled : r.tombstone ty id = none ∨ (r.read_entity_fields ty id).isSome ∨
          fields.isEmpty = false ∧ (ty = .FeedSubscription → (∃ f ∈ fields, f ≠ "url") →
            ∀ other row, other ≠ id → r.row .feeds other = some row → row "url" ≠ .Text "")) :
        ∃ cs, r.apply_change ⟨ty,id,op,c,r.base_version_for ty id fields,fields,blobs⟩ =
          .ok { stamps ty id c fields.toList w with sync_conflicts := cs } := by
      refine ⟨(stamps ty id c fields.toList w).sync_conflicts,?_⟩
      rw [apply_change_single r single,if_neg edit]
      refine apply_single_succeeds single (succeeds lives) written ?_
      rcases settled with alive | there | ⟨some_field,feed⟩
      · exact .inl alive
      · rw [read_single single,Option.isSome_map] at there
        exact .inr (.inl there)
      · rcases lives with alive | plain
        · exact .inl alive
        · exact .inr (.inr ⟨some_field,blank_fits single known plain feed⟩)
    cases ty
    case TagEdge | CollectionEdge | ReviewCard => exact agrees.elim
    case Highlight =>
      obtain ⟨lives,shell,settled⟩ := agrees
      refine ⟨(stamps .Highlight id c fields.toList w).sync_conflicts,?_⟩
      change (if op = .Delete then _ else _) = _
      rw [if_neg edit]
      exact apply_highlight_succeeds rfl (succeeds lives) written shell settled
    case ReviewLog =>
      obtain ⟨empty,recomputed⟩ := agrees
      obtain rfl := Std.ExtTreeMap.isEmpty_iff.mp empty
      obtain rfl := log_unlogged written
      refine ⟨r.sync_conflicts,?_⟩
      change (if op = .Delete then _ else apply_review_log r _) = _
      rw [if_neg edit,apply_review_log,written]
      change Except.bind (Except.ok r) _ = Except.ok r
      cases logged : r.review_log_card_id id with
      | none =>
        simp only [Except.bind,logged]
        rfl
      | some card =>
        simp only [Except.bind,logged]
        exact congrArg Except.ok (recomputed card logged)
    all_goals
      obtain ⟨lives,settled⟩ := agrees
      exact table rfl lives settled

end

/-- The replicas hold the same library: the same entities, memberships, clocks, edges and
    tombstones. -/
structure SameLibrary (r r' : Replica) : Prop where
  entities : ∀ ty id, r.read_entity_fields ty id = r'.read_entity_fields ty id
  tags : r.content_item_tags = r'.content_item_tags
  collections : r.content_item_collections = r'.content_item_collections
  clocks : ∀ ty id f, r.entity_clock ty id f = r'.entity_clock ty id f
  edges : ∀ ty id, r.set_edge ty id = r'.set_edge ty id
  tombstones : ∀ ty id, r.tombstone ty id = r'.tombstone ty id

theorem SameLibrary.of_conflicts (r : Replica) (cs : List ConflictRow) :
    SameLibrary { r with sync_conflicts := cs } r := by
  refine ⟨fun ty id => ?_,rfl,rfl,fun _ _ _ => rfl,fun _ _ => rfl,fun _ _ => rfl⟩
  cases ty <;> rfl

end Replica

namespace Database

section
variable [Sqlite] [Scheduler]

/-- The change that led from one state to the other, applied to a copy of the first, leaves
    the library of the second. -/
def Agrees (db db' : Database) : Prop :=
  ∃ body r, db'.emitted = some body ∧ db.replica.apply_change body = .ok r ∧ r.SameLibrary db'.replica

/-- In every run of a device that ends in a local change, that change agrees with its own
    application. -/
theorem emit_apply_agree {device_id : String} {moves : List Move} {m : Mutation} {db' : Database}
    (run : (fresh device_id).play (moves ++ [.emit m]) = .ok db') :
    ∃ db, (fresh device_id).play moves = .ok db ∧
      (db.Ahead → db.sync_hlc.Advances m.now_millis →
        db.replica.ChangeAgrees m.entity_type m.entity_id m.op m.fields → Agrees db db') := by
  obtain ⟨db,before,made⟩ := foldlM_concat_ok.mp run
  refine ⟨db,before,fun ahead advances agrees => ?_⟩
  obtain ⟨base,e,emitted,-,rfl⟩ := (emit_ok (play_device rfl before)).mp made
  have beaten {held : Hlc} (le : held ≤ db.sync_hlc) : held < db.stamp m.now_millis :=
    lt_of_le_of_lt le (Hlc.lt_tick advances)
  obtain ⟨cs,applied⟩ := Replica.apply_emitted m.blob_manifest
    (fun f held slot => beaten (ahead.clocks _ _ f held slot)) (fun dead killed => beaten (ahead.tombstones _ _ dead killed))
    agrees emitted
  exact ⟨m.body (db.stamp m.now_millis) base,_,by simp [Database.emitted],applied,.of_conflicts e cs⟩

end

section
attribute [local instance] plainSqlite plainScheduler

/-- A change to a document at the given time. -/
def documentChange (change_id : String) (op : Op) (fields : FieldMap) (now_millis : UInt64) : Mutation :=
  ⟨change_id,.Document,"d",op,fields,[],now_millis⟩

def written (text : String) : FieldMap := (∅ : FieldMap).insert "content_text" (.Str text)

/-- The clock stays ahead while changes are only made and the wall readings fit the column. -/
theorem ahead_emits {device_id : String} {l : List Mutation} {db : Database}
    (fits : ∀ m ∈ l, m.now_millis.toNat < 2 ^ 63) (run : (fresh device_id).play (l.map Move.emit) = .ok db) :
    db.Ahead ∧ db.sync_state.hlc_wall_millis.toNat < 2 ^ 63 := by
  induction l using List.reverseRecOn generalizing db with
  | nil =>
    obtain rfl := foldlM_nil_ok.mp run
    exact ⟨.empty _,show (0 : UInt64).toNat < 2 ^ 63 by decide⟩
  | append_singleton l m ih =>
    rw [List.map_append] at run
    obtain ⟨db₁,before,made⟩ := foldlM_concat_ok.mp run
    obtain ⟨ahead,wall⟩ := ih (fun m inside => fits m (List.mem_append_left _ inside)) before
    have device : db₁.sync_state.device_id = some device_id := play_device rfl before
    have fitting : (db₁.stamp m.now_millis).wall_millis.toNat < 2 ^ 63 := by
      unfold stamp Hlc.tick
      split
      · exact fits m (by simp)
      · exact wall
    refine ⟨ahead.emit device fitting made,?_⟩
    have clock := sync_hlc_emit device made
    rw [Hlc.stored_eq fitting] at clock
    exact (congrArg (fun c => c.wall_millis.toNat) clock).trans_lt fitting

/-- Whether a text that is written, deleted and written again leaves another library on
    its device than on a copy that the last change is applied to. -/
def rewriteDiffers : Bool :=
  match (fresh "phone").play ([documentChange "1" .Upsert (written "x") 1,
      documentChange "2" .Delete ∅ 2].map Move.emit) with
  | .ok db =>
    match db.emit (documentChange "3" .Upsert (written "y") 3) with
    | .ok db' =>
      match db'.emitted with
      | some body =>
        match db.replica.apply_change body with
        | .ok r => (r.read_entity_fields .Document "d").isSome != (db'.replica.read_entity_fields .Document "d").isSome
        | .error _ => false
      | none => false
    | .error _ => false
  | .error _ => false

set_option maxRecDepth 10000 in
/-- The copy keeps the document dead. -/
theorem rewritten_text_disagrees : ¬∀ (device_id : String) (moves : List Move) (m : Mutation) (db db' : Database),
    (fresh device_id).play moves = .ok db → db.Ahead → db.emit m = .ok db' → Agrees db db' := by
  intro all
  have runs : rewriteDiffers = true := by decide +kernel
  unfold rewriteDiffers at runs
  split at runs <;> try cases runs
  next db before =>
  split at runs <;> try cases runs
  next db' made =>
  obtain ⟨body,r,emitted,applied,same⟩ := all _ _ _ _ _ before (ahead_emits (by decide) before).1 made
  simp only [emitted,applied,same.entities,bne_self_eq_false,Bool.false_eq_true] at runs

set_option maxRecDepth 10000 in
/-- A text that is written and then written over agrees. -/
theorem emit_apply_agree_text : ∃ db db', (fresh "phone").play [.emit (documentChange "1" .Upsert (written "x") 1)] = .ok db ∧
    db.emit (documentChange "2" .FieldPatch (written "y") 2) = .ok db' ∧ Agrees db db' := by
  have runs : ∃ db, (fresh "phone").play ([documentChange "1" .Upsert (written "x") 1].map Move.emit) = .ok db ∧
      ∃ db', db.emit (documentChange "2" .FieldPatch (written "y") 2) = .ok db' ∧
      db.sync_hlc.Advances 2 ∧ (db.replica.tombstone .Document "d").isNone := by decide +kernel
  obtain ⟨db,before,db',made,runs⟩ := runs
  rw [Option.isNone_iff_eq_none] at runs
  obtain ⟨db₁,again,agrees⟩ := emit_apply_agree (foldlM_concat_ok.mpr ⟨db,before,made⟩)
  obtain rfl := Except.ok.inj (again.symm.trans before)
  refine ⟨db₁,db',before,made,agrees (ahead_emits (by decide) before).1 runs.1 ?_⟩
  exact ⟨.inl runs.2,.inl runs.2⟩

end
end Database
end Pergamon
