import Pergamon.Membership
import Pergamon.Rebuild

/-!
One more upsert on a device that builds a library again: after the upserts of some rows, the
upsert of another one succeeds iff what its row refers to is there, and adds its row
(`adds`). One lemma stands for each kind of entity: the entities of one table, highlights,
whose shell ends in the inbox, cards, logs, which put their card on schedule, and edges.
-/
namespace Pergamon
open Fallible Replica

section
variable [Sqlite] [Scheduler] {lib : Replica} {now : String} {done : List Entry} {ty : EntityType} {t : TableName}
  {id : String} {r : Replica} {row : Row}

/-- After what is done, the change of an entry succeeds iff it follows, and adds the entry. -/
def Adds (lib : Replica) (now : String) (done : List Entry) (entry : Entry) (r : Replica) (body : ChangeBody) : Prop :=
  (∀ r', r.apply_change body = .ok r' → Applicable lib done entry ∧ Rebuilt lib now (done ++ [entry]) r') ∧
    (Applicable lib done entry → ∃ r', r.apply_change body = .ok r')

omit [Sqlite] [Scheduler] in
theorem tablesOf_single (single : tableOf ty = some t) : tablesOf ty = [t] := by
  cases one_table single <;> rfl

omit [Sqlite] [Scheduler] in
theorem columns_single (single : tableOf ty = some t) : ∀ c ∈ columns t, c.name ∈ allowed_columns ty := by
  cases one_table single <;> decide

omit [Sqlite] [Scheduler] in
theorem entryFields_row (plain : ty ≠ .TagEdge ∧ ty ≠ .CollectionEdge) :
    entryFields lib (ty,id) = lib.read_entity_fields ty id := by
  cases ty <;> first | rfl | simp at plain

omit [Scheduler] in
/-- All columns of a row assigned to a new row of the entity. -/
theorem assign_read {t : TableName} {cols : List String} {row base : Row} (sound : Sound lib) (there : lib.row t id = some row)
    (all : ∀ c ∈ columns t, c.name ∈ cols) (only : ∀ f ∈ cols, ∃ c ∈ columns t, c.name = f)
    (others : ∀ f, f ∉ (columns t).map Column.name → base f = .Null) :
    assign t (field_map cols row) base = carried_row t row := by
  refine assign_carried (sound.typed t id row there) (fun c column => ?_) (fun f other => ?_)
  · rw [field_map_get,if_pos (all c column)]
  · have missing : f ∉ cols := by
      intro inside
      obtain ⟨c,column,named⟩ := only f inside
      exact other (List.mem_map.mpr ⟨c,column,named⟩)
    rw [assign,field_map_get,if_neg missing]
    exact others f other

omit [Scheduler] in
/-- What an entry whose row cannot be ignored asks for. -/
theorem applicable_row (plain : (ty ≠ .TagEdge ∧ ty ≠ .CollectionEdge) ∧ ty ≠ .ReviewLog)
    (carrying : carryingTable ty = some t) (there : lib.row t id = some row) : Applicable lib done (ty,id) ↔
      row_admitted t (carried_row t row) ∧ Resolves done (ty,id) t row := by
  have one : Applicable lib done (ty,id) ↔ ∀ t row, carryingTable ty = some t → lib.row t id = some row →
      row_admitted t (carried_row t row) ∧ Resolves done (ty,id) t row := by
    cases ty <;> first | exact Iff.rfl | simp at plain
  rw [one]
  constructor
  · intro all
    exact all t row carrying there
  · rintro holds t' row' carrying' there'
    obtain rfl := Option.some.inj (carrying.symm.trans carrying')
    obtain rfl := Option.some.inj (there.symm.trans there')
    exact holds

omit [Sqlite] [Scheduler] in
theorem carrying_single (single : tableOf ty = some t) :
    carryingTable ty = some t ∧ t ≠ .review_cards ∧ (ty ≠ .TagEdge ∧ ty ≠ .CollectionEdge) ∧
      ty ≠ .ReviewCard ∧ ty ≠ .ReviewLog := by
  cases one_table single <;> simp [carryingTable,tableOf]

theorem adds_single {body : ChangeBody} (rebuilt : Rebuilt lib now done r) (sound : Sound lib)
    (sent : ∀ entry ∈ done, (entryFields lib entry).isSome) (single : tableOf ty = some t) (new : (ty,id) ∉ done)
    (early : ty = .Document → (.Highlight,id) ∉ done) (sends : Sends lib (ty,id) body) :
    Adds lib now done (ty,id) r body := by
  obtain ⟨carrying,uncarded,rows,plain⟩ := carrying_single single
  have read := sends.fields
  rw [entryFields_row rows,read_single single] at read
  obtain ⟨row,there,given⟩ := Option.map_eq_some_iff.mp read
  obtain ⟨before,after⟩ : rebuilt_row lib now done t id = none ∧
      rebuilt_row lib now (done ++ [(ty,id)]) t id = (lib.row t id).map (carried_row t) :=
    rebuilt_row_single single new early
  have follows : Applicable lib done (ty,id) ↔ row_admitted t (carried_row t row) ∧ Resolves done (ty,id) t row :=
    applicable_row ⟨rows,plain.2⟩ carrying there
  obtain ⟨rfl,rfl,upsert,-⟩ := sends
  have missing : r.row t body.entity_id = none := (rebuilt.rows _ _ uncarded).trans before
  have stored : assign t body.fields (blankRow r.now t (defaultsOf body.entity_type)) = carried_row t row :=
    given ▸ assign_read sound there (columns_single single) (known_columns single) (fun f => blankRow_other)
  have known : ∀ f ∈ body.fields, f ∈ allowed_columns body.entity_type := given ▸ fun _ => field_map_known
  have more (t' : TableName) (id' : String) : ((r.set_row t body.entity_id (carried_row t row)).row t' id').isSome ↔
      (r.row t' id').isSome ∨ (t' ∈ tablesOf body.entity_type ∧ id' = body.entity_id) := by
    rw [row_set_row,tablesOf_single single,List.mem_singleton]
    by_cases here : t' = t ∧ id' = body.entity_id <;> simp [here]
  have succeeds (r' : Replica) : r.apply_change body = .ok r' ↔ Applicable lib done (body.entity_type,body.entity_id) ∧
      r' = stamps body.entity_type body.entity_id body.clock body.fields.toList
        (r.set_row t body.entity_id (carried_row t row)) := by
    rw [apply_change_fields rows plain (by rw [upsert]; decide),apply_single_missing single missing (rebuilt.alive _ _),
      follows,row_admitted_carried,← resolves_iff rebuilt sent more]
    simp only [insert_single_iff single (by decide : Op.Upsert ≠ .Delete) missing,stored]
    constructor
    · rintro ⟨w,⟨-,all,rfl⟩,rfl⟩
      refine ⟨⟨fun c column => ?_,fun c column => ?_⟩,rfl⟩
      · exact carried_column column row ▸ (all c column).1
      · exact carried_column column row ▸ (all c column).2.2
    · rintro ⟨⟨lets,refers⟩,rfl⟩
      refine ⟨_,⟨known,fun c column => ?_,rfl⟩,rfl⟩
      rw [carried_column column]
      exact ⟨lets c column,rebuilt.unique sound there column,refers c column⟩
  refine ⟨fun r' ok => ?_,fun follow => ⟨_,(succeeds _).mpr ⟨follow,rfl⟩⟩⟩
  obtain ⟨follow,rfl⟩ := (succeeds r').mp ok
  refine ⟨follow,rebuilt.edit rows (apply_edit_edited rows (by rw [upsert]; decide) ok) (fun t' id' other => ?_)
    (rebuilt.cards_apart plain (fun t' id' apart => ?_))⟩
  · rw [row_stamps,row_set_row]
    by_cases here : t' = t ∧ id' = body.entity_id
    · rw [if_pos here,here.1,here.2,after,there]
      rfl
    · rw [if_neg here,rebuilt_row_apart (by simpa [tablesOf_single single] using here)]
      exact rebuilt.rows t' id' other
  · rw [row_stamps,row_set_row,if_neg (by simpa [tablesOf_single single] using apart)]

omit [Scheduler] in
/-- A text column that must not be null holds a text. -/
theorem Sound.text (sound : Sound lib) (there : lib.row t id = some row) {c : Column} (column : c ∈ columns t)
    (text : c.affinity = .TEXT) (required : c.not_null = true) : ∃ s, row c.name = .Text s ∧ admits c (.Text s) := by
  have admitted := sound.admitted t id row there c column
  have typed := sound.typed t id row there c column
  rw [text] at typed
  rcases typed_text typed with null | ⟨s,same⟩
  · rw [null] at admitted
    simp [admits,required] at admitted
  · exact ⟨s,same,same ▸ admitted⟩

omit [Sqlite] [Scheduler] in
/-- The fields of a highlight as they were sent, the title last. -/
theorem highlight_fields {fields : FieldMap} {item meta_row : Row}
    (given : fields = field_map HIGHLIGHT_COLS (fun col => if col = "title" ∨ col = "status" then item col else meta_row col)) :
    (∀ f ∈ fields, f ∈ HIGHLIGHT_COLS) ∧ fields["title"]? = some (sql_to_json (item "title")) ∧
      fields["status"]? = some (sql_to_json (item "status")) ∧
      (∀ c ∈ columns .highlight_meta, fields[c.name]? = some (sql_to_json (meta_row c.name))) ∧
      ∃ l, fields.toList = l ++ [("title",sql_to_json (item "title"))] := by
  have get (f : String) : fields[f]? = if f ∈ HIGHLIGHT_COLS then
      some (sql_to_json (if f = "title" ∨ f = "status" then item f else meta_row f)) else none := by
    rw [given,field_map_get]
  have known : ∀ f ∈ fields, f ∈ HIGHLIGHT_COLS := by
    intro f inside
    rw [Std.ExtTreeMap.mem_iff_isSome_getElem?,get] at inside
    by_contra unknown
    simp [unknown] at inside
  have title : fields["title"]? = some (sql_to_json (item "title")) := by rw [get]; rfl
  refine ⟨known,title,by rw [get]; rfl,?_,?_⟩
  · intro c column
    simp only [columns,List.mem_cons,List.not_mem_nil,or_false] at column
    rcases column with rfl | rfl | rfl | rfl | rfl | rfl <;> (rw [get]; rfl)
  · rcases List.eq_nil_or_concat' fields.toList with nothing | ⟨l,⟨f,v⟩,list⟩
    · have inside := mem_toList.mpr title
      rw [nothing] at inside
      cases inside
    · have last : fields[f]? = some v := mem_toList.mp (by simp [list])
      have named : "title" = f :=
        (before_last list title).resolve_right (title_last f (known f (mem_fields.mpr ⟨v,by simp [list]⟩)))
      subst named
      obtain rfl := Option.some.inj (title.symm.trans last)
      exact ⟨l,list⟩

theorem adds_highlight {body : ChangeBody} (rebuilt : Rebuilt lib now done r) (sound : Sound lib)
    (sent : ∀ entry ∈ done, (entryFields lib entry).isSome) (new : (.Highlight,id) ∉ done)
    (sends : Sends lib (.Highlight,id) body) : Adds lib now done (.Highlight,id) r body := by
  obtain ⟨highlight,rfl,upsert,given⟩ := sends
  change body.entity_type = .Highlight at highlight
  obtain ⟨item,meta_row,shell,there,given⟩ := sent_shell given
  obtain ⟨known,title,status,others,l,list⟩ := highlight_fields given
  have missing : r.row .highlight_meta body.entity_id = none :=
    (rebuilt.rows _ _ (by decide)).trans (kept_row_new new _)
  have typed := sound.typed _ _ _ there
  have shown : r.row .content_items body.entity_id =
      if (.Document,body.entity_id) ∈ done then some (carried_row .content_items item) else none := by
    rw [rebuilt.rows _ _ (by decide)]
    by_cases document : (EntityType.Document,body.entity_id) ∈ done <;>
      simp [rebuilt_row,rebuilt_item,shell,new,document]
  -- the texts that the schema asks for
  obtain ⟨name,named,-⟩ := sound.text (c := { name := "title", not_null := true }) shell (by simp [columns]) rfl rfl
  obtain ⟨state,stated,allowed⟩ := sound.text (c := ⟨"status",.TEXT,true,.value (.Text "inbox"),
    .one_of ["inbox","later","reference","reading","archived","discarded"],.no,none⟩) shell (by simp [columns]) rfl rfl
  obtain ⟨quote,quoted,-⟩ := sound.text (c := { name := "quote_text", not_null := true }) there (by simp [columns]) rfl rfl
  have follows : Applicable lib done (.Highlight,body.entity_id) ↔
      ∀ parent, meta_row "source_item_id" = .Text parent →
        parent = body.entity_id ∨ (r.row .content_items parent).isSome := by
    rw [applicable_row (by decide) rfl there]
    have passes : row_admitted .highlight_meta (carried_row .highlight_meta meta_row) := by
      rw [row_admitted_carried]
      intro c column
      rw [admits_carried (sound.admitted _ _ _ there c column)]
      intro required x real
      simp only [columns,List.mem_cons,List.not_mem_nil,or_false] at column
      rcases column with rfl | rfl | rfl | rfl | rfl | rfl <;> cases required
      rw [quoted] at real
      cases real
    rw [and_iff_right passes]
    constructor
    · intro refers parent names
      have held := refers ⟨"source_item_id",.TEXT,false,.value .Null,.any,.no,some .content_items⟩ (by simp [columns])
        .content_items parent rfl names
      rw [held_done,← rebuilt.held sent (by decide)] at held
      exact held.symm.imp_left And.right
    · intro source c column parent id references names
      rcases (annotation_columns column).1 with plain | ⟨owner,items⟩
      · rw [plain] at references
        cases references
      · obtain rfl := Option.some.inj (items.symm.trans references)
        rw [owner] at names
        rw [held_done,← rebuilt.held sent (by decide)]
        exact (source id names).symm.imp_right (fun same => ⟨by decide,same⟩)
  have fits : HighlightFits r body.entity_id body.fields ↔ Applicable lib done (.Highlight,body.entity_id) := by
    rw [follows]
    have sent_source := others ⟨"source_item_id",.TEXT,false,.value .Null,.any,.no,some .content_items⟩ (by simp [columns])
    have sent_quote := others { name := "quote_text", not_null := true } (by simp [columns])
    have read (parent : String) : coerce .TEXT (json_to_sql (sql_to_json (meta_row "source_item_id"))) = .Text parent ↔
        meta_row "source_item_id" = .Text parent := by
      rw [carried_read (typed ⟨"source_item_id",.TEXT,false,.value .Null,.any,.no,some .content_items⟩ (by simp [columns])),
        carried_eq_text]
    constructor
    · intro fits parent names
      exact fits.source _ parent sent_source ((read parent).mpr names)
    · intro source
      refine ⟨?_,?_,?_⟩
      · rw [shellStatus,status,stated]
        simpa [admits,sql_to_json,Value.as_str] using allowed
      · intro v given
        obtain rfl := Option.some.inj (sent_quote.symm.trans given)
        rw [quoted]
        simp [sql_to_json,json_to_sql]
      · intro v parent given names
        obtain rfl := Option.some.inj (sent_source.symm.trans given)
        exact source parent ((read parent).mp names)
  -- what is left of the shell and of the annotation
  have noted : assign .highlight_meta (annotationFields body.fields) (r.shownMeta body.entity_id) =
      carried_row .highlight_meta meta_row := by
    rw [shownMeta,shownRow_none missing]
    refine assign_carried typed (fun c column => ?_) (fun f other => ?_)
    · rw [annotationFields_get,if_neg,others c column]
      simp only [columns,List.mem_cons,List.not_mem_nil,or_false] at column
      rcases column with rfl | rfl | rfl | rfl | rfl | rfl <;> decide
    · have absent : (annotationFields body.fields)[f]? = none := by
        rw [annotationFields_get]
        by_cases shell : f = "status" ∨ f = "title"
        · rw [if_pos shell]
        · rw [if_neg shell,given,field_map_get,if_neg]
          intro inside
          simp only [HIGHLIGHT_COLS,List.mem_cons,List.not_mem_nil,or_false] at inside
          rcases inside with rfl | rfl | rfl | rfl | rfl | rfl | rfl | rfl <;> simp [columns] at shell other
      rw [assign,absent]
      exact blankRow_other other
  have shelled (base : Row) : assign .content_items (shellFields (one ("title",sql_to_json (item "title")))) base =
      fun f => if f = "status" then .Text "inbox" else if f = "title" then item "title" else base f := by
    have settled : shellStatus (one ("title",sql_to_json (item "title"))) = "inbox" := by simp [shellStatus,one_get]
    have titled : shellTitle (one ("title",sql_to_json (item "title"))) = name := by
      simp [shellTitle,one_get,show item "title" = .Text name from named,sql_to_json,Value.as_str]
    funext f
    rw [assign,shellFields_get,settled,titled]
    by_cases at_status : f = "status"
    · simp [at_status,json_to_sql,show affinity_of .content_items "status" = .TEXT from rfl]
    · by_cases at_title : f = "title"
      · simp [at_title,json_to_sql,show affinity_of .content_items "title" = .TEXT from rfl,
          show item "title" = .Text name from named]
      · simp [at_status,at_title]
  have succeeds (r' : Replica) : r.apply_change body = .ok r' ↔ Applicable lib done (.Highlight,body.entity_id) ∧
      r' = stamps body.entity_type body.entity_id body.clock body.fields.toList (r.set_highlight body.entity_id
        (fun f => if f = "status" then .Text "inbox" else if f = "title" then item "title"
          else r.shownShell body.entity_id f) (carried_row .highlight_meta meta_row)) := by
    rw [apply_change_fields (by rw [highlight]; decide) (by rw [highlight]; decide) (by rw [upsert]; decide),
      apply_highlight_missing highlight missing (rebuilt.alive _ _) list,fits,noted,shelled]
    exact and_iff_right known
  refine ⟨fun r' ok => ?_,fun follow => ⟨_,(succeeds _).mpr ⟨follow,rfl⟩⟩⟩
  have edited := apply_edit_edited (by rw [highlight]; decide) (by rw [upsert]; decide) ok
  obtain ⟨follow,rfl⟩ := (succeeds r').mp ok
  have apart {t' : TableName} {id' : String} (apart : ¬(t' ∈ tablesOf .Highlight ∧ id' = body.entity_id)) (s a : Row) :
      (r.set_highlight body.entity_id s a).row t' id' = r.row t' id' := by
    have annotations : ¬(t' = .highlight_meta ∧ id' = body.entity_id) := by
      rintro ⟨rfl,rfl⟩
      exact apart ⟨by decide,rfl⟩
    have items : ¬(t' = .content_items ∧ id' = body.entity_id) := by
      rintro ⟨rfl,rfl⟩
      exact apart ⟨by decide,rfl⟩
    rw [set_highlight,row_set_row,if_neg annotations,row_set_row,if_neg items]
  refine ⟨follow,rebuilt.edit (by decide) edited (fun t' id' other => ?_)
    (rebuilt.cards_apart (by decide) (fun t' id' elsewhere => by rw [row_stamps,apart elsewhere]))⟩
  rw [row_stamps]
  by_cases here : t' ∈ tablesOf .Highlight ∧ id' = body.entity_id
  · obtain ⟨kept,rfl⟩ := here
    simp only [tablesOf,List.mem_cons,List.not_mem_nil,or_false] at kept
    rcases kept with rfl | rfl
    · rw [set_highlight,row_set_row,if_neg (by simp),row_set_row_self]
      by_cases document : (EntityType.Document,body.entity_id) ∈ done <;>
        simp [rebuilt_row,rebuilt_item,shell,shownShell,shown,rebuilt.now,document]
    · rw [set_highlight,row_set_row_self]
      simp [rebuilt_row,kept_row,there]
  · rw [apart here,rebuilt_row_apart here]
    exact rebuilt.rows t' id' other

/-! ### Cards and logs -/

/-- A device that has got no log has no log of any card. -/
theorem Rebuilt.unlogged (rebuilt : Rebuilt lib now done r) (none_done : ∀ id, (.ReviewLog,id) ∉ done) (card : String) :
    r.review_log_entries_for_card card = [] := by
  rw [List.eq_nil_iff_forall_not_mem]
  intro entry inside
  obtain ⟨log,listed,-⟩ := List.mem_filterMap.mp inside
  have stored : r.row .review_logs log.1 = some log.2 :=
    Std.ExtTreeMap.mem_toList_iff_getElem?_eq_some.mp (List.mem_filter.mp listed).1
  rw [rebuilt.rows _ _ (by decide)] at stored
  simp [rebuilt_row,kept_row_new (none_done log.1)] at stored

omit [Scheduler] in
theorem write_card_iff {w : Replica} {fields : FieldMap} : r.write_entity_fields .ReviewCard id fields .Upsert = .ok w ↔
    (∀ f ∈ fields, f ∈ REVIEW_CARD_COLS) ∧ r.upsert_single .review_cards id fields REVIEW_CARD_DEFAULTS = .ok w := by
  unfold write_entity_fields
  rw [if_neg (by decide),bind_ok,show REVIEW_CARD_COLS = allowed_columns .ReviewCard from rfl,← reject_unknown_columns_ok]
  exact ⟨fun ⟨_,known,ok⟩ => ⟨known,ok⟩,fun ⟨known,ok⟩ => ⟨(),known,ok⟩⟩

theorem adds_card {body : ChangeBody} (rebuilt : Rebuilt lib now done r) (sound : Sound lib)
    (sent : ∀ entry ∈ done, (entryFields lib entry).isSome) (new : (.ReviewCard,id) ∉ done)
    (early : ∀ id, (.ReviewLog,id) ∉ done) (sends : Sends lib (.ReviewCard,id) body) :
    Adds lib now done (.ReviewCard,id) r body := by
  obtain ⟨card,rfl,upsert,given⟩ := sends
  change body.entity_type = .ReviewCard at card
  obtain ⟨row,there,given⟩ := Option.map_eq_some_iff.mp given
  have missing : r.row .review_cards body.entity_id = none := by
    have from_card := rebuilt.cards body.entity_id
    rw [show rebuilt_row lib now done .review_cards body.entity_id = none from kept_row_new new _] at from_card
    generalize r.row .review_cards body.entity_id = held at from_card ⊢
    cases from_card
    rfl
  have stored : assign .review_cards body.fields (blankRow r.now .review_cards REVIEW_CARD_DEFAULTS) =
      carried_row .review_cards row :=
    given ▸ assign_read sound there (by decide) review_card_columns (fun f => blankRow_other)
  have known : ∀ f ∈ body.fields, f ∈ REVIEW_CARD_COLS := given ▸ fun _ => field_map_known
  have applicable : Applicable lib done (.ReviewCard,body.entity_id) ↔
      row_admitted .review_cards (carried_row .review_cards row) ∧
        Resolves done (.ReviewCard,body.entity_id) .review_cards row := applicable_row (by decide) rfl there
  set w := r.set_row .review_cards body.entity_id (carried_row .review_cards row) with stored_row
  have more (t' : TableName) (id' : String) :
      (w.row t' id').isSome ↔ (r.row t' id').isSome ∨ (t' ∈ tablesOf .ReviewCard ∧ id' = body.entity_id) := by
    rw [stored_row,row_set_row,tablesOf,List.mem_singleton]
    by_cases here : t' = .review_cards ∧ id' = body.entity_id <;> simp [here]
  have logs (other : String) : SameLogs r w other := fun log _ _ => by rw [stored_row]; simp [row_set_row]
  have nothing (other : String) : w.review_log_entries_for_card other = [] :=
    (logs other).entries.trans (rebuilt.unlogged early other)
  have unmoved : w.recompute_review_card body.entity_id = w := by
    have held : w.row .review_cards body.entity_id = some (carried_row .review_cards row) := row_set_row_self ..
    rw [recompute_review_card,held]
    simp only [nothing]
  have succeeds (r' : Replica) : r.apply_change body = .ok r' ↔
      Applicable lib done (.ReviewCard,body.entity_id) ∧ r' = w := by
    have applies : r.apply_change body = r.apply_review_card body := by
      unfold apply_change
      rw [card,upsert]
      rfl
    rw [applies,apply_review_card,bind_ok,card]
    simp only [write_card_iff,upsert_missing_iff (fun f given => review_card_columns f (known f given)) missing,stored,
      Except.ok.injEq]
    rw [applicable,row_admitted_carried,← resolves_iff rebuilt sent more]
    constructor
    · rintro ⟨w',⟨-,all,rfl⟩,rfl⟩
      refine ⟨⟨fun c column => ?_,fun c column => ?_⟩,unmoved⟩
      · exact carried_column column row ▸ (all c column).1
      · exact carried_column column row ▸ (all c column).2.2
    · rintro ⟨⟨lets,refers⟩,rfl⟩
      refine ⟨w,⟨known,fun c column => ?_,rfl⟩,unmoved⟩
      rw [carried_column column]
      exact ⟨lets c column,rebuilt.unique sound there column,refers c column⟩
  refine ⟨fun r' ok => ?_,fun follow => ⟨_,(succeeds _).mpr ⟨follow,rfl⟩⟩⟩
  have edited := apply_edit_edited (by rw [card]; decide) (by rw [upsert]; decide) ok
  obtain ⟨follow,rfl⟩ := (succeeds r').mp ok
  refine ⟨follow,rebuilt.edit (by decide) edited (fun t' id' other => ?_) (fun id' => ?_)⟩
  · rw [stored_row,row_set_row,if_neg (fun same => other same.1),rebuilt_row_apart (by simp [tablesOf,other])]
    exact rebuilt.rows t' id' other
  · rw [nothing]
    by_cases here : id' = body.entity_id
    · subst here
      rw [stored_row,row_set_row_self,show rebuilt_row lib now (done ++ [(.ReviewCard,body.entity_id)]) .review_cards
        body.entity_id = some (carried_row .review_cards row) from (kept_row_done ..).trans (by rw [there]; rfl)]
      exact .some ⟨rfl,fun _ => rfl,fun logged => absurd rfl logged⟩
    · rw [stored_row,row_set_row,if_neg (fun same => here same.2),rebuilt_row_apart (fun same => here same.2),
        ← rebuilt.unlogged early id']
      exact rebuilt.cards id'

omit [Sqlite] [Scheduler] in
theorem review_log_columns : ∀ f ∈ REVIEW_LOG_COLS, ∃ c ∈ columns .review_logs, c.name = f := by decide

omit [Scheduler] in
/-- A new log is stored if it is admitted, and ignored otherwise. -/
theorem write_log_iff {w : Replica} {fields : FieldMap} {log : Row} (known : ∀ f ∈ fields, f ∈ REVIEW_LOG_COLS)
    (missing : r.row .review_logs id = none) (unique : r.row_unique .review_logs id log)
    (same : new_row r.now .review_logs (given_values fields REVIEW_LOG_DEFAULTS) = log) :
    r.write_entity_fields .ReviewLog id fields .Upsert = .ok w ↔
      (row_admitted .review_logs log → (r.set_row .review_logs id log).row_references .review_logs log) ∧
        w = if row_admitted .review_logs log then r.set_row .review_logs id log else r := by
  unfold write_entity_fields
  have passes : reject_unknown_columns .ReviewLog fields = .ok () := reject_unknown_columns_ok.mpr known
  rw [if_neg (by decide),passes]
  change r.insert_append_only .review_logs id fields REVIEW_LOG_DEFAULTS = .ok w ↔ _
  rw [insert_append_only,same,insert_or_ignore,missing]
  by_cases admitted : row_admitted .review_logs log
  · rw [if_pos ⟨admitted,rfl,unique⟩,insert_new_ok,if_pos admitted]
    simp [admitted,unique]
  · rw [if_neg (fun all => admitted all.1),if_neg admitted,Except.ok.injEq,eq_comm (a := r)]
    simp [admitted]

/-- Recomputing a card derives its schedule from the logs that it has now. -/
theorem recompute_from {card : String} {stored : Option Row} {before : List ReviewLogEntry}
    (from_card : Option.Rel (FromCard before) stored (r.row .review_cards card))
    (fewer : r.review_log_entries_for_card card = [] → before = []) :
    Option.Rel (FromCard (r.review_log_entries_for_card card)) stored
      ((r.recompute_review_card card).row .review_cards card) := by
  cases held : r.row .review_cards card with
  | none =>
    rw [held] at from_card
    have same : r.recompute_review_card card = r := by simp [recompute_review_card,held]
    rw [same,held]
    cases from_card
    exact .none
  | some old =>
    rw [held] at from_card
    by_cases nothing : r.review_log_entries_for_card card = []
    · have same : r.recompute_review_card card = r := by
        rw [recompute_review_card,held]
        simp only [nothing]
      rw [same,held,nothing,← fewer nothing]
      exact from_card
    · obtain ⟨card',recomputed,shows,item⟩ := recompute_row held nothing
      rw [recomputed]
      cases from_card with
      | some derived => exact .some ⟨item.trans derived.item,fun empty => absurd empty nothing,fun _ => shows⟩

theorem adds_log {body : ChangeBody} (rebuilt : Rebuilt lib now done r) (sound : Sound lib)
    (sent : ∀ entry ∈ done, (entryFields lib entry).isSome) (new : (.ReviewLog,id) ∉ done)
    (sends : Sends lib (.ReviewLog,id) body) : Adds lib now done (.ReviewLog,id) r body := by
  obtain ⟨log,rfl,upsert,given⟩ := sends
  change body.entity_type = .ReviewLog at log
  obtain ⟨row,there,given⟩ := Option.map_eq_some_iff.mp given
  change lib.row .review_logs body.entity_id = some row at there
  have missing : r.row .review_logs body.entity_id = none := by
    rw [rebuilt.rows _ _ (by decide)]
    simp [rebuilt_row,kept_row_new new]
  have known : ∀ f ∈ body.fields, f ∈ REVIEW_LOG_COLS := given ▸ fun _ => field_map_known
  have stored : new_row r.now .review_logs (given_values body.fields REVIEW_LOG_DEFAULTS) =
      carried_row .review_logs row := by
    rw [new_row_eq (fun f inside => review_log_columns f (known f inside))]
    exact given ▸ assign_read sound there (by decide) review_log_columns (fun f => blankRow_other)
  have unique : r.row_unique .review_logs body.entity_id (carried_row .review_logs row) := by
    simp only [row_unique,List.all_eq_true]
    intro c column
    rw [carried_column column]
    exact rebuilt.unique sound there column
  obtain ⟨card,owned,-⟩ := sound.text (c := ⟨"card_id",.TEXT,true,.value .Null,.any,.no,some .review_cards⟩) there
    (by simp [columns]) rfl rfl
  change row "card_id" = .Text card at owned
  have named : (body.fields["card_id"]?).bind Value.as_str = some card := by
    rw [← given,field_map_get,if_pos (by decide),owned]
    rfl
  set log_row := r.set_row .review_logs body.entity_id (carried_row .review_logs row) with stored_row
  have more (t' : TableName) (id' : String) :
      (log_row.row t' id').isSome ↔ (r.row t' id').isSome ∨ (t' ∈ tablesOf .ReviewLog ∧ id' = body.entity_id) := by
    rw [stored_row,row_set_row,tablesOf,List.mem_singleton]
    by_cases here : t' = .review_logs ∧ id' = body.entity_id <;> simp [here]
  have follows : Applicable lib done (.ReviewLog,body.entity_id) ↔
      (row_admitted .review_logs (carried_row .review_logs row) →
        log_row.row_references .review_logs (carried_row .review_logs row)) := by
    have references : log_row.row_references .review_logs (carried_row .review_logs row) ↔
        Resolves done (.ReviewLog,body.entity_id) .review_logs row := by
      rw [← resolves_iff rebuilt sent more]
      simp only [row_references,List.all_eq_true]
      exact forall_congr' (fun c => forall_congr' (fun column => by rw [carried_column column]))
    rw [references]
    constructor
    · intro all
      exact all row there
    · intro holds row' there'
      obtain rfl := Option.some.inj (there.symm.trans there')
      exact holds
  have succeeds (r' : Replica) : r.apply_change body = .ok r' ↔ Applicable lib done (.ReviewLog,body.entity_id) ∧
      r' = (if row_admitted .review_logs (carried_row .review_logs row) then log_row else r).recompute_review_card card := by
    have applies : r.apply_change body = r.apply_review_log body := by
      unfold apply_change
      rw [log,upsert]
      rfl
    rw [applies,apply_review_log,bind_ok,log]
    simp only [named,Except.ok.injEq,write_log_iff known missing unique stored]
    rw [follows]
    constructor
    · rintro ⟨w,⟨holds,rfl⟩,rfl⟩
      exact ⟨holds,rfl⟩
    · rintro ⟨holds,rfl⟩
      exact ⟨_,⟨holds,rfl⟩,rfl⟩
  refine ⟨fun r' ok => ?_,fun follow => ⟨_,(succeeds _).mpr ⟨follow,rfl⟩⟩⟩
  have edited := apply_edit_edited (by rw [log]; decide) (by rw [upsert]; decide) ok
  obtain ⟨follow,rfl⟩ := (succeeds r').mp ok
  have belongs : carried_row .review_logs row "card_id" = .Text card :=
    (carried_column (c := ⟨"card_id",.TEXT,true,.value .Null,.any,.no,some .review_cards⟩) (by simp [columns]) row).trans
      (by rw [owned]; rfl)
  have uncarded (id' : String) :
      (if row_admitted .review_logs (carried_row .review_logs row) then log_row else r).row .review_cards id' =
        r.row .review_cards id' := by
    split
    · rw [stored_row,row_set_row,if_neg (fun same => absurd same.1 (by decide))]
    · rfl
  refine ⟨follow,rebuilt.edit (by decide) edited (fun t' id' other => ?_) (fun id' => ?_)⟩
  · rw [recompute_rows other]
    by_cases here : t' = .review_logs ∧ id' = body.entity_id
    · obtain ⟨rfl,rfl⟩ := here
      have sent_log : rebuilt_row lib now (done ++ [(.ReviewLog,body.entity_id)]) .review_logs body.entity_id =
          (some (carried_row .review_logs row)).filter (row_admitted .review_logs) := by
        rw [rebuilt_row,kept_row_done,there]
        rfl
      rw [sent_log]
      by_cases admitted : row_admitted .review_logs (carried_row .review_logs row)
      · rw [if_pos admitted,stored_row,row_set_row_self,Option.filter_some,if_pos admitted]
      · rw [if_neg admitted,missing,Option.filter_some,if_neg admitted]
    · rw [rebuilt_row_apart (by simpa [tablesOf] using here),← rebuilt.rows t' id' other]
      split
      · rw [stored_row,row_set_row,if_neg here]
      · rfl
  · rw [(recompute_sameLogs _ card id').entries,rebuilt_row_apart (by simp [tablesOf])]
    have before := rebuilt.cards id'
    rw [← uncarded id'] at before
    by_cases here : id' = card
    · subst here
      refine recompute_from before (fun nothing => List.eq_nil_of_subset_nil (nothing ▸ entries_more (fun id log held => ?_)))
      split
      · rw [stored_row,row_set_row,if_neg]
        · exact held
        · rintro ⟨-,rfl⟩
          rw [missing] at held
          cases held
      · exact held
    · have same : SameLogs r
          (if row_admitted .review_logs (carried_row .review_logs row) then log_row else r) id' := by
        split
        · exact sameLogs_set_log missing belongs here
        · exact fun _ _ _ => Iff.rfl
      rw [recompute_apart here,same.entries]
      exact before

/-! ### Edges -/

omit [Sqlite] [Scheduler] in
/-- An add to a member that was never removed makes it present. -/
theorem add_present {member : SetMember} (kept : member.remove_clock = none) (c : Hlc) :
    (merge_set_member member true c).present = true ∧ (merge_set_member member true c).member.remove_clock = none := by
  obtain ⟨add,remove⟩ := member
  obtain rfl : remove = none := kept
  refine ⟨?_,rfl⟩
  cases add with
  | none => rfl
  | some held =>
    by_cases older : c ≤ held <;> simp [merge_set_member,merge_slot,SetMember.is_present,older]

omit [Sqlite] [Scheduler] in
/-- A membership that is not there yet is added iff its ends are. -/
theorem add_tag {r' : Replica} (new : ∀ ends, split_edge_id id = .ok ends → ends ∉ r.content_item_tags) :
    r.apply_edge_membership .TagEdge id true = .ok r' ↔ ∃ ends, split_edge_id id = .ok ends ∧
      ((r.row .content_items ends.1).isSome ∧ (r.row .tags ends.2).isSome) ∧
      r' = { r with content_item_tags := insert ends r.content_item_tags } := by
  simp only [apply_edge_membership,bind_ok]
  refine exists_congr (fun ends => and_congr_right (fun parts => ?_))
  obtain ⟨left,right⟩ := ends
  simp only [if_true,if_ok,Except.ok.injEq,new _ parts,false_or,eq_comm (b := r')]

omit [Sqlite] [Scheduler] in
theorem add_collection {r' : Replica} (new : ∀ ends, split_edge_id id = .ok ends → ends ∉ r.content_item_collections) :
    r.apply_edge_membership .CollectionEdge id true = .ok r' ↔ ∃ ends, split_edge_id id = .ok ends ∧
      ((r.row .content_items ends.1).isSome ∧ (r.row .collections ends.2).isSome) ∧
      r' = { r with content_item_collections := insert ends r.content_item_collections } := by
  simp only [apply_edge_membership,bind_ok]
  refine exists_congr (fun ends => and_congr_right (fun parts => ?_))
  obtain ⟨left,right⟩ := ends
  simp only [if_true,if_ok,Except.ok.injEq,new _ parts,false_or,eq_comm (b := r')]

/-- What a membership leaves, with its edge stamped. -/
theorem Rebuilt.edge {tags collections : Finset (String × String)} {edges : EntityType → String → SetMember}
    (rebuilt : Rebuilt lib now done r) (edge : ty = .TagEdge ∨ ty = .CollectionEdge)
    (added : ∀ ty id, (edges ty id).remove_clock = none)
    (tagged : ∀ ends, ends ∈ tags ↔ ∃ other, (.TagEdge,other) ∈ done ++ [(ty,id)] ∧ split_edge_id other = .ok ends)
    (collected : ∀ ends, ends ∈ collections ↔
      ∃ other, (.CollectionEdge,other) ∈ done ++ [(ty,id)] ∧ split_edge_id other = .ok ends) :
    Rebuilt lib now (done ++ [(ty,id)])
      { r with content_item_tags := tags, content_item_collections := collections, sync_set_edge := edges } := by
  have apart (t : TableName) (id' : String) : ¬(t ∈ tablesOf ty ∧ id' = id) := by
    rcases edge with rfl | rfl <;> simp [tablesOf]
  refine ⟨fun t id' other => ?_,fun id' => ?_,rebuilt.alive,added,tagged,collected,rebuilt.now⟩
  · rw [rebuilt_row_apart (apart t id')]
    exact rebuilt.rows t id' other
  · rw [rebuilt_row_apart (apart _ id')]
    exact rebuilt.cards id'

omit [Sqlite] [Scheduler] in
/-- The memberships once one more edge is done. -/
theorem edges_done {members : Finset (String × String)} {ends : String × String} (parts : split_edge_id id = .ok ends)
    (before : ∀ ends, ends ∈ members ↔ ∃ other, (ty,other) ∈ done ∧ split_edge_id other = .ok ends) (ends' : String × String) :
    ends' ∈ insert ends members ↔ ∃ other, (ty,other) ∈ done ++ [(ty,id)] ∧ split_edge_id other = .ok ends' := by
  rw [Finset.mem_insert,before]
  constructor
  · rintro (rfl | ⟨other,inside,parts'⟩)
    · exact ⟨id,by simp,parts⟩
    · exact ⟨other,by simp [inside],parts'⟩
  · rintro ⟨other,inside,parts'⟩
    rcases List.mem_append.mp inside with there | there
    · exact .inr ⟨other,there,parts'⟩
    · obtain rfl : other = id := by simpa using there
      exact .inl (Except.ok.inj (parts'.symm.trans parts))

theorem adds_edge {body : ChangeBody} (rebuilt : Rebuilt lib now done r)
    (sent : ∀ entry ∈ done, (entryFields lib entry).isSome) (new : (ty,id) ∉ done)
    (edge : ty = .TagEdge ∨ ty = .CollectionEdge) (sends : Sends lib (ty,id) body) : Adds lib now done (ty,id) r body := by
  obtain ⟨type,rfl,-,given⟩ := sends
  change body.entity_type = ty at type
  have fields : body.fields = (∅ : FieldMap).insert "present" (.Boolean true) := by
    rcases edge with rfl | rfl <;> exact (Option.some.inj given).symm
  obtain ⟨present,kept⟩ := add_present (rebuilt.added ty body.entity_id) body.clock
  set saved := r.save_set_edge ty body.entity_id
    (merge_set_member (r.set_edge ty body.entity_id) true body.clock).member with stamped
  have applies : r.apply_change body = saved.apply_edge_membership ty body.entity_id true := by
    have adds : (((body.fields)["present"]?).bind Value.as_bool).getD (decide (body.op ≠ .Delete)) = true := by
      rw [fields]
      simp [Value.as_bool]
    rw [apply_change_edge (by rw [type]; exact edge),apply_edge,adds,type]
    simp only [present]
    rfl
  have added (ty' : EntityType) (id' : String) : (saved.set_edge ty' id').remove_clock = none := by
    rw [stamped,set_edge_save]
    split
    · rw [kept]
      rfl
    · exact rebuilt.added ty' id'
  have unseen {members : Finset (String × String)} (before : ∀ ends, ends ∈ members ↔
      ∃ other, (ty,other) ∈ done ∧ split_edge_id other = .ok ends) (ends : String × String)
      (parts : split_edge_id body.entity_id = .ok ends) : ends ∉ members := by
    intro inside
    obtain ⟨other,there,parts'⟩ := (before ends).mp inside
    exact new (split_edge_id_injective parts' parts ▸ there)
  have held {t : TableName} (other : t ≠ .review_logs) (id' : String) : (saved.row t id').isSome ↔ Held done t id' :=
    rebuilt.held sent other id'
  rcases edge with rfl | rfl
  · have succeeds (r' : Replica) : r.apply_change body = .ok r' ↔ ∃ ends, split_edge_id body.entity_id = .ok ends ∧
        ((saved.row .content_items ends.1).isSome ∧ (saved.row .tags ends.2).isSome) ∧
        r' = { saved with content_item_tags := insert ends saved.content_item_tags } :=
      applies ▸ add_tag (unseen rebuilt.tags)
    simp only [held (t := .content_items) (by decide),held (t := .tags) (by decide)] at succeeds
    refine ⟨fun r' ok => ?_,fun ⟨ends,parts,follow⟩ => ⟨_,(succeeds _).mpr ⟨ends,parts,follow,rfl⟩⟩⟩
    obtain ⟨ends,parts,follow,rfl⟩ := (succeeds r').mp ok
    refine ⟨⟨ends,parts,follow⟩,rebuilt.edge (.inl rfl) added (edges_done parts rebuilt.tags) (fun ends' => ?_)⟩
    show ends' ∈ r.content_item_collections ↔ _
    rw [rebuilt.collections]
    exact exists_congr (fun _ => and_congr_left (fun _ => (mem_done (by simp)).symm))
  · have succeeds (r' : Replica) : r.apply_change body = .ok r' ↔ ∃ ends, split_edge_id body.entity_id = .ok ends ∧
        ((saved.row .content_items ends.1).isSome ∧ (saved.row .collections ends.2).isSome) ∧
        r' = { saved with content_item_collections := insert ends saved.content_item_collections } :=
      applies ▸ add_collection (unseen rebuilt.collections)
    simp only [held (t := .content_items) (by decide),held (t := .collections) (by decide)] at succeeds
    refine ⟨fun r' ok => ?_,fun ⟨ends,parts,follow⟩ => ⟨_,(succeeds _).mpr ⟨ends,parts,follow,rfl⟩⟩⟩
    obtain ⟨ends,parts,follow,rfl⟩ := (succeeds r').mp ok
    refine ⟨⟨ends,parts,follow⟩,rebuilt.edge (.inr rfl) added (fun ends' => ?_) (edges_done parts rebuilt.collections)⟩
    show ends' ∈ r.content_item_tags ↔ _
    rw [rebuilt.tags]
    exact exists_congr (fun _ => and_congr_left (fun _ => (mem_done (by simp)).symm))

/-- One more entry, of whatever kind, where documents come before highlights and cards
    before logs. -/
theorem adds {body : ChangeBody} (rebuilt : Rebuilt lib now done r) (sound : Sound lib)
    (sent : ∀ entry ∈ done, (entryFields lib entry).isSome) (new : (ty,id) ∉ done)
    (documents : ty = .Document → ∀ id, (.Highlight,id) ∉ done) (cards : ty = .ReviewCard → ∀ id, (.ReviewLog,id) ∉ done)
    (sends : Sends lib (ty,id) body) : Adds lib now done (ty,id) r body := by
  have single {t : TableName} (single : tableOf ty = some t) : Adds lib now done (ty,id) r body :=
    adds_single rebuilt sound sent single new (fun document => documents document id) sends
  cases ty
  case TagEdge => exact adds_edge rebuilt sent new (.inl rfl) sends
  case CollectionEdge => exact adds_edge rebuilt sent new (.inr rfl) sends
  case Highlight => exact adds_highlight rebuilt sound sent new sends
  case ReviewCard => exact adds_card rebuilt sound sent new (cards rfl) sends
  case ReviewLog => exact adds_log rebuilt sound sent new sends
  all_goals exact single rfl

end

end Pergamon
