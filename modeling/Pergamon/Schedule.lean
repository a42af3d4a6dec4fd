import Pergamon.Effects

/-!
The schedules of review cards. A card that has logs shows the schedule that its logs derive
(`Derived`): every log that is stored counts, so recomputing a card decides all its scalars,
and a change to a card or to a log recomputes the one card whose logs or scalars it moves
(`schedules_derived`).
-/
namespace Pergamon
open Fallible

namespace Replica

section
variable [Sqlite] [Scheduler]

/-- The scalars of a card are those of a schedule. -/
structure ShowsSchedule (card : Row) (derived : DerivedCard) : Prop where
  state : card "state" = .Text derived.state.as_str
  stability : card "stability" = bind_real derived.stability
  difficulty : card "difficulty" = bind_real derived.difficulty
  due_at : ∃ ms, derived.due_at_ms = some ms ∧ card "due_at" = .Text (Scheduler.millis_to_rfc3339 ms)
  last_reviewed_at : card "last_reviewed_at" =
    derived.last_reviewed_at_ms.elim .Null (fun ms => .Text (Scheduler.millis_to_rfc3339 ms))
  review_count : card "review_count" = .Integer derived.review_count
  lapse_count : card "lapse_count" = .Integer derived.lapse_count
  scheduled_days : card "scheduled_days" = bind_real derived.scheduled_days

/-- The card has a stored log. -/
def Logged (r : Replica) (card_id : String) : Prop :=
  ∃ id log, r.row .review_logs id = some log ∧ log "card_id" = .Text card_id

/-- The card, if it is there and has a log, shows the schedule that its logs derive. -/
def Derived (r : Replica) (card_id : String) : Prop :=
  ∀ card, r.row .review_cards card_id = some card → r.Logged card_id →
    ShowsSchedule card (derive_card_state (r.review_log_entries_for_card card_id))

/-- Every stored log counts. -/
def Counted (r : Replica) : Prop := ∀ id log, r.row .review_logs id = some log → (log_entry id log).isSome

variable {r r' : Replica} {card_id id : String}

/-- The states hold the same logs of a card. -/
def SameLogs (r r' : Replica) (card_id : String) : Prop :=
  ∀ id log, log "card_id" = .Text card_id → (r'.row .review_logs id = some log ↔ r.row .review_logs id = some log)

theorem SameLogs.entries (same : SameLogs r r' card_id) :
    r'.review_log_entries_for_card card_id = r.review_log_entries_for_card card_id := by
  have filtered (s : Replica) : (s.tables .review_logs).toList.filter (fun log => log.2 "card_id" = .Text card_id) =
      ((s.tables .review_logs).filter (fun _ log => log "card_id" = .Text card_id)).toList := by
    rw [Std.ExtTreeMap.toList_filter]
  have logs : (r'.tables .review_logs).filter (fun _ log => log "card_id" = .Text card_id) =
      (r.tables .review_logs).filter (fun _ log => log "card_id" = .Text card_id) := by
    ext id log
    simp only [Std.ExtTreeMap.getElem?_filter,Option.pfilter_eq_filter,Option.filter_eq_some_iff,decide_eq_true_eq]
    exact and_congr_left (same id log)
  unfold review_log_entries_for_card
  rw [filtered,filtered,logs]

omit [Sqlite] [Scheduler] in
theorem SameLogs.logged (same : SameLogs r r' card_id) (logged : r'.Logged card_id) : r.Logged card_id := by
  obtain ⟨id,log,held,names⟩ := logged
  exact ⟨id,log,(same id log names).mp held,names⟩

omit [Sqlite] [Scheduler] in
/-- A new log is one of its own card only. -/
theorem sameLogs_set_log {other : String} {log : Row} (missing : r.row .review_logs id = none)
    (belongs : log "card_id" = .Text card_id) (apart : other ≠ card_id) :
    SameLogs r (r.set_row .review_logs id log) other := by
  intro id' held names
  rw [row_set_row]
  split
  · next here =>
    have elsewhere : held ≠ log := by
      rintro rfl
      exact apart (SqlValue.Text.inj (names.symm.trans belongs))
    rw [here.2,missing]
    simp [Ne.symm elsewhere]
  · rfl

/-- More logs give more entries. -/
theorem entries_more (more : ∀ id log, r.row .review_logs id = some log → r'.row .review_logs id = some log) :
    r.review_log_entries_for_card card_id ⊆ r'.review_log_entries_for_card card_id := by
  intro entry inside
  obtain ⟨log,listed,counts⟩ := List.mem_filterMap.mp inside
  obtain ⟨there,names⟩ := List.mem_filter.mp listed
  refine List.mem_filterMap.mpr ⟨log,List.mem_filter.mpr ⟨?_,names⟩,counts⟩
  exact Std.ExtTreeMap.mem_toList_iff_getElem?_eq_some.mpr
    (more _ _ (Std.ExtTreeMap.mem_toList_iff_getElem?_eq_some.mp there))

/-- A card whose row and logs are as before shows its schedule as before. -/
theorem Derived.congr (derived : r.Derived card_id) (card : r'.row .review_cards card_id = r.row .review_cards card_id)
    (same : SameLogs r r' card_id) : r'.Derived card_id := by
  intro held there logged
  rw [same.entries]
  exact derived held (card ▸ there) (same.logged logged)

omit [Scheduler] in
/-- The logs of a card that has one are not empty. -/
theorem entries_of_logged [Scheduler] (counted : r.Counted) (logged : r.Logged card_id) :
    r.review_log_entries_for_card card_id ≠ [] := by
  obtain ⟨id,log,there,names⟩ := logged
  obtain ⟨entry,counts⟩ := Option.isSome_iff_exists.mp (counted id log there)
  have inside : entry ∈ r.review_log_entries_for_card card_id := by
    refine List.mem_filterMap.mpr ⟨(id,log),List.mem_filter.mpr ⟨?_,by simpa using names⟩,counts⟩
    exact Std.ExtTreeMap.mem_toList_iff_getElem?_eq_some.mpr there
  exact List.ne_nil_of_mem inside

/-- Recomputing a card leaves the logs. -/
theorem recompute_logs (r : Replica) (card_id : String) :
    (r.recompute_review_card card_id).tables .review_logs = r.tables .review_logs := by
  unfold recompute_review_card
  split
  · rfl
  · split
    · rfl
    · simp [write_derived_card_state,set_row]

/-- Recomputing a card leaves the other cards. -/
theorem recompute_apart {other : String} (apart : other ≠ card_id) :
    (r.recompute_review_card card_id).row .review_cards other = r.row .review_cards other := by
  unfold recompute_review_card
  split
  · rfl
  · split
    · rfl
    · exact row_set_row_apart _ other apart

theorem recompute_sameLogs (r : Replica) (card_id other : String) :
    SameLogs r (r.recompute_review_card card_id) other := by
  intro id log _
  rw [row,recompute_logs]
  rfl

/-- A card that is recomputed from some logs shows their schedule, and belongs to the item that
    it belonged to. -/
theorem recompute_row {card : Row} (held : r.row .review_cards card_id = some card)
    (some_log : r.review_log_entries_for_card card_id ≠ []) :
    ∃ card', (r.recompute_review_card card_id).row .review_cards card_id = some card' ∧
      ShowsSchedule card' (derive_card_state (r.review_log_entries_for_card card_id)) ∧
      card' "content_item_id" = card "content_item_id" := by
  obtain ⟨ms,due⟩ := derive_card_state_due some_log
  unfold recompute_review_card
  rw [held]
  simp only [write_derived_card_state]
  exact ⟨_,row_set_row_self ..,⟨rfl,rfl,rfl,⟨ms,due,by simp [due]⟩,rfl,rfl,rfl,rfl⟩,rfl⟩

/-- A recomputed card shows its schedule. -/
theorem derived_recompute (counted : r.Counted) : (r.recompute_review_card card_id).Derived card_id := by
  intro card there logged
  have same := recompute_sameLogs r card_id card_id
  have some_log := entries_of_logged counted (same.logged logged)
  rw [same.entries]
  cases held : r.row .review_cards card_id with
  | none =>
    have missing : r.recompute_review_card card_id = r := by simp [recompute_review_card,held]
    rw [missing,held] at there
    cases there
  | some old =>
    obtain ⟨card',stored,shows,-⟩ := recompute_row held some_log
    obtain rfl := Option.some.inj (there.symm.trans stored)
    exact shows

/-- Recomputing a card leaves the rows of the other tables. -/
theorem recompute_rows {t : TableName} (other : t ≠ .review_cards) (card_id id : String) :
    (r.recompute_review_card card_id).row t id = r.row t id := by
  unfold recompute_review_card
  split
  · rfl
  · split
    · rfl
    · rw [write_derived_card_state,row_set_row,if_neg (fun same => other same.1)]

/-- Every log counts and every card with a log shows the schedule that its logs derive. -/
structure Scheduled (r : Replica) : Prop where
  counted : r.Counted
  derived : ∀ card_id, r.Derived card_id

/-- A state in which every card but one shows its schedule, with that one recomputed. -/
theorem scheduled_recompute (counted : r.Counted) (others : ∀ other, other ≠ card_id → r.Derived other) :
    (r.recompute_review_card card_id).Scheduled := by
  refine ⟨fun id log held => ?_,fun other => ?_⟩
  · rw [row,recompute_logs] at held
    exact counted id log held
  · by_cases here : other = card_id
    · exact here ▸ derived_recompute counted
    · exact (others other here).congr (recompute_apart here) (recompute_sameLogs r card_id other)

/-! ### Changes to cards and logs -/

/-- A rating that the column admits is one of the four. -/
def CastsRatings : Prop := ∀ x : F64, Sqlite.real_between 1 4 x → 1 ≤ Sqlite.truncate_real x ∧ Sqlite.truncate_real x ≤ 4

omit [Sqlite] [Scheduler] in
theorem rating_of_bounds {i : Int} (low : 1 ≤ i) (high : i ≤ 4) : (Rating.from_value i).isSome := by
  obtain rfl | rfl | rfl | rfl : i = 1 ∨ i = 2 ∨ i = 3 ∨ i = 4 := by omega
  all_goals rfl

/-- A log that is admitted counts, and belongs to the card that its fields name, if they do. -/
theorem admitted_log (id : String) (casts : CastsRatings) {now : String} {fields : FieldMap}
    (admitted : row_admitted .review_logs (new_row now .review_logs (given_values fields REVIEW_LOG_DEFAULTS))) :
    (log_entry id (new_row now .review_logs (given_values fields REVIEW_LOG_DEFAULTS))).isSome ∧
      ∃ card_id, new_row now .review_logs (given_values fields REVIEW_LOG_DEFAULTS) "card_id" = .Text card_id ∧
        ∀ named, (fields["card_id"]?).bind Value.as_str = some named → named = card_id := by
  set log := new_row now .review_logs (given_values fields REVIEW_LOG_DEFAULTS) with new
  simp only [row_admitted,List.all_eq_true] at admitted
  have not_null {c : Column} (inside : c ∈ columns .review_logs) (required : c.not_null = true) : log c.name ≠ .Null := by
    intro null
    have held := admitted c inside
    simp [null,admits,required] at held
  have card : log "card_id" = (fields["card_id"]?).elim .Null (fun v => coerce .TEXT (json_to_sql v)) := by
    rw [new]
    cases given : fields["card_id"]? with
    | none =>
      have left_out : given_values fields REVIEW_LOG_DEFAULTS "card_id" = none := by rw [given_values,given]; rfl
      simp only [new_row,left_out]
      rfl
    | some v =>
      have carried : given_values fields REVIEW_LOG_DEFAULTS "card_id" = some (json_to_sql v) := by rw [given_values,given]
      simp only [new_row,carried]
      rfl
  have reviewed : log "reviewed_at" =
      (given_values fields REVIEW_LOG_DEFAULTS "reviewed_at").elim (.Text now) (coerce .TEXT) := by
    rw [new]
    cases given : given_values fields REVIEW_LOG_DEFAULTS "reviewed_at" <;> simp only [new_row,given] <;> rfl
  have belongs := not_null (c := { name := "card_id", not_null := true, references := some .review_cards }) (by simp [columns]) rfl
  have timed := not_null (c := { name := "reviewed_at", not_null := true, default := .now }) (by simp [columns]) rfl
  refine ⟨?_,?_⟩
  · obtain ⟨at_,text⟩ : ∃ s, log "reviewed_at" = .Text s := by
      cases given : given_values fields REVIEW_LOG_DEFAULTS "reviewed_at" with
      | none => exact ⟨now,by rw [reviewed,given]; rfl⟩
      | some v =>
        rw [given] at reviewed
        rcases coerce_text_cases v with null | text
        · exact absurd (reviewed.trans null) timed
        · exact text.imp (fun s same => reviewed.trans same)
    have rating := admitted { name := "rating", affinity := .INTEGER, not_null := true, check := .between 1 4 } (by simp [columns])
    simp only [log_entry,text,Option.isSome_map]
    cases stored : log "rating" with
    | Null => simp [stored,admits] at rating
    | Integer i =>
      simp only [stored,admits,decide_eq_true_eq] at rating
      exact rating_of_bounds rating.1 rating.2
    | Real x =>
      simp only [stored,admits] at rating
      exact rating_of_bounds (casts x rating).1 (casts x rating).2
    | Text s => simp [stored,admits] at rating
  · cases given : fields["card_id"]? with
    | none =>
      rw [given] at card
      exact absurd card belongs
    | some v =>
      rw [given] at card
      rcases coerce_text_cases (json_to_sql v) with null | ⟨s,text⟩
      · exact absurd (card.trans null) belongs
      · refine ⟨s,card.trans text,fun named names => ?_⟩
        cases v with
        | Str s' =>
          obtain rfl := Option.some.inj names
          exact SqlValue.Text.inj text
        | _ => cases names

/-- A log is ignored, or stored under a new id as a log that counts. -/
theorem write_log_ok {w : Replica} {fields : FieldMap} (casts : CastsRatings)
    (ok : r.write_entity_fields .ReviewLog id fields .Upsert = .ok w) :
    w = r ∨ ∃ log card_id, r.row .review_logs id = none ∧ w = r.set_row .review_logs id log ∧ (log_entry id log).isSome ∧
      log "card_id" = .Text card_id ∧ ∀ named, (fields["card_id"]?).bind Value.as_str = some named → named = card_id := by
  unfold write_entity_fields at ok
  rw [if_neg (by decide),bind_ok] at ok
  obtain ⟨⟨⟩,-,ok⟩ := ok
  simp only [insert_append_only,insert_or_ignore] at ok
  split at ok
  · next new =>
    obtain ⟨admitted,missing,-⟩ := new
    obtain ⟨counts,card_id,belongs,named⟩ := admitted_log id casts admitted
    exact .inr ⟨_,card_id,Option.isNone_iff_eq_none.mp missing,(insert_new_ok.mp ok).2.2,counts,belongs,named⟩
  · exact .inl (Except.ok.inj ok).symm

/-- A change to a log keeps every card with a log on the schedule of its logs. -/
theorem Scheduled.apply_review_log {body : ChangeBody} (casts : CastsRatings) (scheduled : r.Scheduled)
    (log : body.entity_type = .ReviewLog) (ok : r.apply_review_log body = .ok r') : r'.Scheduled := by
  simp only [Replica.apply_review_log,bind_ok,log] at ok
  obtain ⟨w,written,ok⟩ := ok
  rcases write_log_ok casts written with rfl | ⟨new,card_id,missing,rfl,counts,belongs,named⟩
  · split at ok
    · obtain rfl := Except.ok.inj ok
      exact scheduled_recompute scheduled.counted (fun other _ => scheduled.derived other)
    · obtain rfl := Except.ok.inj ok
      exact scheduled
  · -- the log is new, so its card is the one that is recomputed
    have recomputed : r' = (r.set_row .review_logs body.entity_id new).recompute_review_card card_id := by
      cases names : (body.fields["card_id"]?).bind Value.as_str with
      | some other =>
        rw [names] at ok
        rw [← named other names]
        exact (Except.ok.inj ok).symm
      | none =>
        have own : (r.set_row .review_logs body.entity_id new).review_log_card_id body.entity_id = some card_id := by
          simp [review_log_card_id,belongs]
        rw [names] at ok
        simp only [own] at ok
        exact (Except.ok.inj ok).symm
    rw [recomputed]
    refine scheduled_recompute (fun id' held there => ?_) (fun other apart => ?_)
    · rw [row_set_row] at there
      split at there
      · next here =>
        obtain rfl := Option.some.inj there
        exact here.2 ▸ counts
      · exact scheduled.counted id' held there
    · exact (scheduled.derived other).congr (by simp [row_set_row]) (sameLogs_set_log missing belongs apart)

/-- A change to a card keeps every card with a log on the schedule of its logs. -/
theorem Scheduled.apply_review_card {body : ChangeBody} (scheduled : r.Scheduled) (card : body.entity_type = .ReviewCard)
    (ok : r.apply_review_card body = .ok r') : r'.Scheduled := by
  simp only [Replica.apply_review_card,bind_ok,card] at ok
  obtain ⟨w,written,ok⟩ := ok
  obtain rfl := Except.ok.inj ok
  have only := write_rowsOnly (by decide) written
  have logs (id : String) : w.row .review_logs id = r.row .review_logs id :=
    only.rows _ _ (fun same => absurd same.1 (by decide))
  refine scheduled_recompute (fun id held there => scheduled.counted id held (logs id ▸ there)) (fun other apart => ?_)
  refine (scheduled.derived other).congr (only.rows _ _ (fun same => apart same.2)) (fun id held _ => ?_)
  rw [logs]

/-- The delete of a card takes its logs along. -/
theorem Scheduled.delete_card (scheduled : r.Scheduled) (card_id : String) :
    (r.delete_row .review_cards card_id).Scheduled := by
  have gone := row_delete_self r .review_cards card_id
  by_cases missing : (r.row .review_cards card_id).isNone
  · unfold delete_row
    rw [if_pos missing]
    exact scheduled
  · have logs (id : String) (log : Row) : (r.delete_row .review_cards card_id).row .review_logs id = some log ↔
        r.row .review_logs id = some log ∧ log "card_id" ≠ .Text card_id := by
      unfold delete_row
      rw [if_neg missing]
      change ((r.tables .review_logs).filter (fun _ log => decide (log "card_id" ≠ .Text card_id)))[id]? = some log ↔ _
      simp only [Std.ExtTreeMap.getElem?_filter,Option.pfilter_eq_filter,Option.filter_eq_some_iff,decide_eq_true_eq]
      exact Iff.rfl
    refine ⟨fun id log held => scheduled.counted id log ((logs id log).mp held).1,fun other => ?_⟩
    by_cases here : other = card_id
    · intro card there
      rw [here,gone] at there
      cases there
    · refine (scheduled.derived other).congr ?_ (fun id log names => ?_)
      · unfold delete_row
        rw [if_neg missing]
        change ((r.tables .review_cards).erase card_id)[other]? = (r.tables .review_cards)[other]?
        rw [Std.ExtTreeMap.getElem?_erase,if_neg (fun same => here (compare_eq_iff_eq.mp same).symm)]
      · rw [logs]
        refine and_iff_left (fun same => here ?_)
        exact SqlValue.Text.inj (names.symm.trans same)

theorem Scheduled.of_same (scheduled : r.Scheduled) (tables : r'.tables = r.tables) : r'.Scheduled := by
  have rows (t : TableName) (id : String) : r'.row t id = r.row t id := by rw [row,tables]; rfl
  refine ⟨fun id log held => scheduled.counted id log (rows _ id ▸ held),fun other => ?_⟩
  exact (scheduled.derived other).congr (rows _ _) (fun id log _ => by rw [rows])

/-- A change to a card or a log, of any kind, keeps every card with a log on the schedule of
    its logs. -/
theorem Scheduled.apply_change {body : ChangeBody} (casts : CastsRatings) (scheduled : r.Scheduled)
    (review : body.entity_type = .ReviewLog ∨ body.entity_type = .ReviewCard) (ok : r.apply_change body = .ok r') :
    r'.Scheduled := by
  have rows : body.entity_type ≠ .TagEdge ∧ body.entity_type ≠ .CollectionEdge := by
    rcases review with log | card
    · rw [log]; decide
    · rw [card]; decide
  by_cases delete : body.op = .Delete
  · rw [apply_change_delete rows delete] at ok
    obtain ⟨cs,rfl⟩ := apply_delete_cases ok
    refine of_same (r := if r.max_field_clock_dominated body then r.delete_entity_row body.entity_type body.entity_id else r)
      ?_ rfl
    split
    · rcases review with log | card
      · rw [log]
        exact scheduled
      · rw [card]
        exact scheduled.delete_card body.entity_id
    · exact scheduled
  · unfold Replica.apply_change at ok
    rcases review with log | card
    · rw [log] at ok
      simp only [if_neg delete] at ok
      exact scheduled.apply_review_log casts log ok
    · rw [card] at ok
      simp only [if_neg delete] at ok
      exact scheduled.apply_review_card card ok

/-- Apply a change; one that fails is rolled back. -/
def attempt (r : Replica) (body : ChangeBody) : Replica :=
  match r.apply_change body with
  | .ok r' => r'
  | .error _ => r

/-- After any changes to cards and logs, on a library that had no log before, every card with
    a log shows the schedule that its logs derive. -/
theorem schedules_derived {bodies : List ChangeBody} (casts : CastsRatings) (unlogged : r.tables .review_logs = ∅)
    (review : ∀ body ∈ bodies, body.entity_type = .ReviewLog ∨ body.entity_type = .ReviewCard) (card_id : String) :
    (bodies.foldl attempt r).Derived card_id := by
  have start : r.Scheduled := by
    have no_log (id : String) : r.row .review_logs id = none := by simp [row,unlogged]
    refine ⟨fun id log held => ?_,fun card_id card there logged => ?_⟩
    · rw [no_log] at held
      cases held
    · obtain ⟨id,log,held,-⟩ := logged
      rw [no_log] at held
      cases held
  have run : (bodies.foldl attempt r).Scheduled := by
    clear unlogged
    induction bodies generalizing r with
    | nil => exact start
    | cons body bodies ih =>
      refine ih (fun other later => review other (.tail _ later)) ?_
      unfold attempt
      split
      · next applied => exact start.apply_change casts (review body (.head _)) applied
      · exact start
  exact run.derived card_id

end

section
attribute [local instance] plainSqlite plainScheduler

/-- A library with a highlight. -/
def highlighted : Replica :=
  (Replica.empty.set_row .content_items "h" (fun _ => .Text "")).set_row .highlight_meta "h" (fun _ => .Null)

/-- The card of the highlight, with a count of its own. -/
def seeded : ChangeBody :=
  ⟨.ReviewCard,"c",.Upsert,⟨1,0,"a"⟩,none,
    ((∅ : FieldMap).insert "content_item_id" (.Str "h")).insert "review_count" (.Int 7),[]⟩

/-- A review of the card. -/
def reviewed : ChangeBody :=
  ⟨.ReviewLog,"l",.Upsert,⟨2,0,"a"⟩,none,
    (((((((((∅ : FieldMap).insert "card_id" (.Str "c")).insert "rating" (.Int 3)).insert "state_before" (.Str "new")).insert
      "state_after" (.Str "review")).insert "stability_after" (.Float ⟨0⟩)).insert "difficulty_after" (.Float ⟨0⟩)).insert
      "elapsed_days" (.Float ⟨0⟩)).insert "scheduled_days" (.Float ⟨0⟩)).insert "reviewed_at" (.Str "2026-01-01T00:00:00Z"),[]⟩

set_option maxRecDepth 10000 in
/-- A card, its review, the card once more and the review once more. -/
theorem schedules_derived_reviewed :
    ((([seeded,reviewed,seeded,reviewed].foldl attempt highlighted).row .review_logs "l").isSome = true) ∧
      ([seeded,reviewed,seeded,reviewed].foldl attempt highlighted).Derived "c" := by
  refine ⟨by decide +kernel,schedules_derived ?_ rfl ?_ "c"⟩
  · intro x between
    cases between
  · intro body inside
    simp only [List.mem_cons,List.not_mem_nil,or_false] at inside
    rcases inside with rfl | rfl | rfl | rfl
    · exact .inr rfl
    · exact .inl rfl
    · exact .inr rfl
    · exact .inl rfl

end
end Replica
end Pergamon
