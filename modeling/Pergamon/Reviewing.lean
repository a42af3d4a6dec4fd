import Std.Data.String.ToInt
import Mathlib.Tactic.Positivity
import Mathlib.Tactic.Ring
import Pergamon.Runs
import Pergamon.Schedule

/-!
Review sessions. A session takes cards from the database into a queue, steps the copy in the
queue at each rating, updates the row of the card with the result and stores a log beside it;
a lapsed card goes to the end of the queue as it is now.

The row, the copy that is still in the queue and the logs stay in step (`InStep`): one more
log moves the schedule that the logs derive as a rating moves a card (`derive_card_state_log`).
So a card that begins in step with its logs is in step after every rating (`sessions_agree`).
-/
namespace Pergamon
open Fallible Runs

/-- What a session takes from its libraries: the text of an instant in nanoseconds and back,
    the double of a number of days, and the instant a number of days later. -/
class Instants where
  fmt_time : ℤ → String
  parse : String → Option ℤ
  real_of_days : ℚ → F64
  after_days : ℤ → F64 → ℤ

/-- The milliseconds from the epoch of the instants whose year has four digits. -/
def Dated (ms : ℤ) : Prop := -62167219200000 ≤ ms ∧ ms < 253402300800000

instance (ms : ℤ) : Decidable (Dated ms) := by
  unfold Dated
  infer_instance

/-- A whole millisecond that has a text. -/
abbrev Moment := {ms : ℤ // Dated ms}

def Moment.nanos (now : Moment) : ℤ := now.val * 1000000

def CardState.from_str : String → Option CardState
  | "new" => some .New
  | "learning" => some .Learning
  | "review" => some .Review
  | "relearning" => some .Relearning
  | _ => none

@[simp] theorem CardState.from_str_as_str (state : CardState) : from_str state.as_str = some state := by
  cases state <;> rfl

def Rating.value : Rating → ℤ
  | .Again => 1
  | .Hard => 2
  | .Good => 3
  | .Easy => 4

@[simp] theorem Rating.from_value_value (rating : Rating) : from_value rating.value = some rating := by
  cases rating <;> rfl

/-- The memory of a card, which it has when both its numbers are there. -/
def memory_of : Option F64 → Option F64 → Option MemoryState
  | some s,some d => some ⟨s,d⟩
  | _,_ => none

/-- A card as the queue holds it. -/
structure ReviewCard where
  id : String
  state : CardState
  stability : Option F64
  difficulty : Option F64
  due_at : ℤ
  last_reviewed_at : Option ℤ
  review_count : ℤ
  lapse_count : ℤ
  scheduled_days : Option F64
  deriving DecidableEq

structure ReviewLog where
  id : String
  card_id : String
  rating : Rating
  state_before : CardState
  stability_before : Option F64
  difficulty_before : Option F64
  state_after : CardState
  stability_after : F64
  difficulty_after : F64
  elapsed_days : ℚ
  scheduled_days : F64
  reviewed_at : ℤ

/-! ### One more log -/

section
variable [Scheduler]

/-- The schedule after a review. -/
def DerivedCard.reviewed (d : DerivedCard) (reviewed_at_ms : ℤ) (rating : Rating) : DerivedCard :=
  let output := Scheduler.schedule d.state (memory_of d.stability d.difficulty)
    (elapsed_days d.last_reviewed_at_ms reviewed_at_ms) rating
  { state := output.next_state
    stability := some output.memory.stability
    difficulty := some output.memory.difficulty
    last_reviewed_at_ms := some reviewed_at_ms
    due_at_ms := some (saturate (reviewed_at_ms + Scheduler.due_delta_ms output.scheduled_days))
    scheduled_days := some output.scheduled_days
    review_count := d.review_count + 1
    lapse_count := d.lapse_count + if rating = .Again then 1 else 0 }

/-- The schedule that the replay has found. -/
def Replay.card (acc : Replay) : DerivedCard :=
  { acc.derived with
    state := acc.state
    stability := acc.memory.map MemoryState.stability
    difficulty := acc.memory.map MemoryState.difficulty
    last_reviewed_at_ms := acc.last.map Prod.fst }

def Replay.start : Replay := { derived := ⟨.New,none,none,none,none,none,0,0⟩, memory := none, state := .New, last := none }

theorem derive_card_state_eq (logs : List ReviewLogEntry) :
    derive_card_state logs = ((logs.insertionSort (fun a b => entry_le a b)).foldl replay_step .start).card := rfl

theorem card_replay_step {acc : Replay} {entry : ReviewLogEntry} (news : acc.last ≠ some (entry.reviewed_at_ms,entry.id)) :
    (replay_step acc entry).card = acc.card.reviewed entry.reviewed_at_ms entry.rating := by
  have memory : memory_of (acc.memory.map MemoryState.stability) (acc.memory.map MemoryState.difficulty) = acc.memory := by
    cases acc.memory <;> rfl
  simp only [replay_step,if_neg news,Replay.card,DerivedCard.reviewed,memory]
  rfl

/-- The last review of a replay is one of its logs. -/
theorem replay_last {logs : List ReviewLogEntry} {last : ℤ × String} (here : (logs.foldl replay_step .start).last = some last) :
    ∃ entry ∈ logs, last = (entry.reviewed_at_ms,entry.id) := by
  induction logs using List.reverseRecOn with
  | nil => cases here
  | append_singleton logs entry ih =>
    rw [List.foldl_concat] at here
    unfold replay_step at here
    split at here
    · obtain ⟨found,inside,same⟩ := ih here
      exact ⟨found,List.mem_append_left _ inside,same⟩
    · exact ⟨entry,by simp,(Option.some.inj here).symm⟩

theorem derive_last {logs : List ReviewLogEntry} {ms : ℤ} (here : (derive_card_state logs).last_reviewed_at_ms = some ms) :
    ∃ entry ∈ logs, ms = entry.reviewed_at_ms := by
  rw [derive_card_state_eq,Replay.card] at here
  obtain ⟨last,found,rfl⟩ := Option.map_eq_some_iff.mp here
  obtain ⟨entry,inside,rfl⟩ := replay_last found
  exact ⟨entry,(List.mem_insertionSort _).mp inside,rfl⟩

omit [Scheduler] in
theorem entry_le_iff {a b : ReviewLogEntry} :
    entry_le a b ↔ a.reviewed_at_ms < b.reviewed_at_ms ∨ a.reviewed_at_ms = b.reviewed_at_ms ∧ a.id ≤ b.id := by
  simp [entry_le]

instance : Std.Total (fun a b : ReviewLogEntry => (entry_le a b : Prop)) where
  total a b := by
    rw [entry_le_iff,entry_le_iff]
    rcases lt_trichotomy a.reviewed_at_ms b.reviewed_at_ms with before | same | after
    · exact .inl (.inl before)
    · exact (le_total a.id b.id).imp (fun le => .inr ⟨same,le⟩) (fun le => .inr ⟨same.symm,le⟩)
    · exact .inr (.inl after)

instance : IsTrans ReviewLogEntry (fun a b => (entry_le a b : Prop)) where
  trans a b c first next := by
    rw [entry_le_iff] at first next ⊢
    rcases first with first | ⟨first,le⟩
    · exact .inl (by omega)
    · rcases next with next | ⟨next,le'⟩
      · exact .inl (by omega)
      · exact .inr ⟨first.trans next,le.trans le'⟩

omit [Scheduler] in
/-- A log that is later than the others comes last in their order. -/
theorem sort_later {logs logs' : List ReviewLogEntry} {entry : ReviewLogEntry} (more : logs'.Perm (entry :: logs))
    (later : ∀ other ∈ logs, other.reviewed_at_ms < entry.reviewed_at_ms) (once : (logs'.map (·.id)).Nodup) :
    logs'.insertionSort (fun a b => entry_le a b) = logs.insertionSort (fun a b => entry_le a b) ++ [entry] := by
  have sorted := List.perm_insertionSort (fun a b => (entry_le a b : Prop)) logs
  have all : (logs'.insertionSort (fun a b => entry_le a b)).Perm (logs.insertionSort (fun a b => entry_le a b) ++ [entry]) := by
    refine (List.perm_insertionSort _ _).trans (more.trans ?_)
    exact (List.perm_append_singleton entry logs).symm.trans (sorted.symm.append_right [entry])
  refine all.eq_of_pairwise ?_ (List.pairwise_insertionSort _ _) (List.pairwise_append.mpr
    ⟨List.pairwise_insertionSort _ _,List.pairwise_singleton _ _,?_⟩)
  · intro a b inside inside' le le'
    have here := (List.perm_insertionSort _ _).mem_iff.mp inside
    have there := (List.perm_insertionSort _ _).mem_iff.mp (all.mem_iff.mpr inside')
    refine List.inj_on_of_nodup_map once here there ?_
    rw [entry_le_iff] at le le'
    rcases le with before | ⟨same,le⟩
    · rcases le' with after | ⟨same,-⟩ <;> omega
    · rcases le' with after | ⟨-,le'⟩
      · omega
      · exact le_antisymm le le'
  · intro a inside b last
    rw [List.mem_singleton.mp last]
    exact entry_le_iff.mpr (.inl (later a (sorted.mem_iff.mp inside)))

/-- One more log, later than the others, is one more review. -/
theorem derive_card_state_log {logs logs' : List ReviewLogEntry} {entry : ReviewLogEntry} (more : logs'.Perm (entry :: logs))
    (later : ∀ other ∈ logs, other.reviewed_at_ms < entry.reviewed_at_ms) (once : (logs'.map (·.id)).Nodup) :
    derive_card_state logs' = (derive_card_state logs).reviewed entry.reviewed_at_ms entry.rating := by
  rw [derive_card_state_eq,sort_later more later once,List.foldl_concat,derive_card_state_eq]
  refine card_replay_step (fun repeated => ?_)
  obtain ⟨other,inside,same⟩ := replay_last repeated
  have before := later other ((List.mem_insertionSort _).mp inside)
  have time := congrArg Prod.fst same
  simp only at time
  omega

end

/-! ### Reading columns -/

section
variable [Sqlite]

/-- A text, or the empty one where there is none. -/
def SqlValue.text : SqlValue → String
  | .Text s => s
  | _ => ""

def SqlValue.real : SqlValue → Option F64
  | .Real r => some r
  | .Integer i => some (Sqlite.real_of_int i)
  | _ => none

def SqlValue.integer : SqlValue → ℤ
  | .Integer i => i
  | _ => 0

variable [Instants]

/-- A time that may be missing; a malformed one is not read. -/
def SqlValue.instant : SqlValue → Option (Option ℤ)
  | .Text s => (Instants.parse s).map some
  | _ => some none

/-- A card as its row gives it; a malformed time ends the program. -/
def Reviewing.row_to_review_card (id : String) (row : Row) : Option ReviewCard := do
  let due_at ← Instants.parse (row "due_at").text
  let last_reviewed_at ← (row "last_reviewed_at").instant
  return {
    id := id
    state := (CardState.from_str (row "state").text).getD .New
    stability := (row "stability").real
    difficulty := (row "difficulty").real
    due_at := due_at
    last_reviewed_at := last_reviewed_at
    review_count := (row "review_count").integer
    lapse_count := (row "lapse_count").integer
    scheduled_days := (row "scheduled_days").real }

end

namespace Replica

section
variable [Instants]

/-- The row of a card after a review; the values fit their columns. -/
def reviewed_row (row : Row) (state : CardState) (memory : MemoryState) (due_at last_reviewed_at review_count lapse_count : ℤ)
    (scheduled_days : F64) : Row := fun col =>
  match col with
  | "state" => .Text state.as_str
  | "stability" => bind_real (some memory.stability)
  | "difficulty" => bind_real (some memory.difficulty)
  | "due_at" => .Text (Instants.fmt_time due_at)
  | "last_reviewed_at" => .Text (Instants.fmt_time last_reviewed_at)
  | "review_count" => .Integer review_count
  | "lapse_count" => .Integer lapse_count
  | "scheduled_days" => bind_real (some scheduled_days)
  | other => row other

def update_review_card (r : Replica) (id : String) (state : CardState) (memory : MemoryState)
    (due_at last_reviewed_at review_count lapse_count : ℤ) (scheduled_days : F64) : Except StorageError Replica :=
  match r.row .review_cards id with
  | none => .error (.NotFound "review_card" id)
  | some row => .ok (r.set_row .review_cards id
      (reviewed_row row state memory due_at last_reviewed_at review_count lapse_count scheduled_days))

variable [Sqlite]

/-- The row that a log is stored as. -/
def log_row (now : String) (log : ReviewLog) : Row :=
  new_row now .review_logs (fun col =>
    match col with
    | "card_id" => some (.Text log.card_id)
    | "rating" => some (.Integer log.rating.value)
    | "state_before" => some (.Text log.state_before.as_str)
    | "stability_before" => some (bind_real log.stability_before)
    | "difficulty_before" => some (bind_real log.difficulty_before)
    | "state_after" => some (.Text log.state_after.as_str)
    | "stability_after" => some (bind_real (some log.stability_after))
    | "difficulty_after" => some (bind_real (some log.difficulty_after))
    | "elapsed_days" => some (bind_real (some (Instants.real_of_days log.elapsed_days)))
    | "scheduled_days" => some (bind_real (some log.scheduled_days))
    | "reviewed_at" => some (.Text (Instants.fmt_time log.reviewed_at))
    | _ => none)

def insert_review_log (r : Replica) (log : ReviewLog) : Except StorageError Replica :=
  let row := log_row r.now log
  if row_admitted .review_logs row ∧ r.row .review_logs log.id = none then r.insert_new .review_logs log.id row
  else .error .Sqlite

/-- The cards that are due, the earliest first. -/
def list_due_review_cards (r : Replica) (now : ℤ) : Option (List ReviewCard) :=
  let due (row : Row) : Bool := decide ((row "due_at").text ≤ Instants.fmt_time now)
  (((r.tables .review_cards).toList.filter (fun card => due card.2)).insertionSort
    (fun a b => (a.2 "due_at").text ≤ (b.2 "due_at").text)).mapM (fun card => Reviewing.row_to_review_card card.1 card.2)

end

/-! ### What the two writes do -/

section
variable [Sqlite] [Scheduler] {r : Replica} {id card_id : String}

theorem entries_set_card (row : Row) :
    (r.set_row .review_cards id row).review_log_entries_for_card card_id = r.review_log_entries_for_card card_id := by
  have same : (r.set_row .review_cards id row).tables .review_logs = r.tables .review_logs := by simp [set_row]
  rw [review_log_entries_for_card,same,review_log_entries_for_card]

/-- The entries of a card have the ids of its logs. -/
theorem entries_once (r : Replica) (card_id : String) : ((r.review_log_entries_for_card card_id).map (·.id)).Nodup := by
  have ids (l : List (String × Row)) (apart : l.Pairwise (fun a b => a.1 ≠ b.1)) :
      ((l.filterMap (fun log => log_entry log.1 log.2)).map (·.id)).Nodup := by
    rw [List.Nodup,List.pairwise_map,List.pairwise_filterMap]
    refine apart.imp (fun ne entry named entry' named' same => ne ?_)
    have owns {log : String × Row} {e : ReviewLogEntry} (named : log_entry log.1 log.2 = some e) : e.id = log.1 := by
      unfold log_entry at named
      split at named
      · obtain ⟨rating,-,rfl⟩ := Option.map_eq_some_iff.mp named
        rfl
      · cases named
    rw [← owns named,← owns named',same]
  exact ids _ ((Std.ExtTreeMap.distinct_keys_toList.imp (fun apart same => apart (by simp [same]))).filter _)

/-- A new log of a card is one more entry of it. -/
theorem entries_set_log {log : Row} {entry : ReviewLogEntry} (missing : r.row .review_logs id = none)
    (belongs : log "card_id" = .Text card_id) (counts : log_entry id log = some entry) :
    ((r.set_row .review_logs id log).review_log_entries_for_card card_id).Perm (entry :: r.review_log_entries_for_card card_id) := by
  have perm : ((r.set_row .review_logs id log).tables .review_logs).toList.Perm ((id,log) :: (r.tables .review_logs).toList) := by
    have distinct (m : Std.ExtTreeMap String Row) : m.toList.Nodup :=
      Std.ExtTreeMap.distinct_keys_toList.imp (fun apart same => apart (by simp [same]))
    have fresh : (id,log) ∉ (r.tables .review_logs).toList := by
      rw [Std.ExtTreeMap.mem_toList_iff_getElem?_eq_some]
      exact fun there => by simp [row,there] at missing
    refine (List.perm_ext_iff_of_nodup (distinct _) (List.nodup_cons.mpr ⟨fresh,distinct _⟩)).mpr (fun pair => ?_)
    obtain ⟨id',log'⟩ := pair
    have here := row_set_row r .review_logs .review_logs id id' log
    rw [row,row] at here
    rw [Std.ExtTreeMap.mem_toList_iff_getElem?_eq_some,here,List.mem_cons,Std.ExtTreeMap.mem_toList_iff_getElem?_eq_some]
    by_cases same : id' = id
    · subst same
      rw [row] at missing
      simp [missing,eq_comm (a := log)]
    · simp [same]
  unfold review_log_entries_for_card
  refine ((perm.filter _).filterMap _).trans (.of_eq ?_)
  simp [belongs,counts]

theorem entries_of_unlogged (unlogged : ¬ r.Logged card_id) : r.review_log_entries_for_card card_id = [] := by
  refine List.eq_nil_iff_forall_not_mem.mpr (fun entry inside => ?_)
  obtain ⟨log,listed,-⟩ := List.mem_filterMap.mp inside
  obtain ⟨there,names⟩ := List.mem_filter.mp listed
  exact unlogged ⟨log.1,log.2,Std.ExtTreeMap.mem_toList_iff_getElem?_eq_some.mp there,by simpa using names⟩

variable [Instants]

omit [Sqlite] [Scheduler] in
/-- The update of a card that is there. -/
theorem update_review_card_ok {row : Row} (held : r.row .review_cards id = some row) (state : CardState) (memory : MemoryState)
    (due_at last_reviewed_at review_count lapse_count : ℤ) (scheduled_days : F64) :
    r.update_review_card id state memory due_at last_reviewed_at review_count lapse_count scheduled_days =
      .ok (r.set_row .review_cards id
        (reviewed_row row state memory due_at last_reviewed_at review_count lapse_count scheduled_days)) := by
  rw [update_review_card,held]

omit [Scheduler] in
/-- A log whose numbers are numbers, of a card that is there, is stored under an id that is free. -/
theorem insert_review_log_ok {log : ReviewLog} (card : (r.row .review_cards log.card_id).isSome)
    (free : r.row .review_logs log.id = none)
    (numbers : ∀ x ∈ [log.stability_after,log.difficulty_after,Instants.real_of_days log.elapsed_days,log.scheduled_days],
      x.is_nan = false) :
    r.insert_review_log log = .ok (r.set_row .review_logs log.id (log_row r.now log)) := by
  simp only [List.forall_mem_cons,List.not_mem_nil,false_implies,implies_true,and_true] at numbers
  obtain ⟨stability,difficulty,elapsed,scheduled⟩ := numbers
  have real {x : F64} (number : x.is_nan = false) : bind_real (some x) = .Real x := by simp [bind_real,number]
  have columns_text : log_row r.now log "card_id" = .Text log.card_id ∧ log_row r.now log "rating" = .Integer log.rating.value ∧
      log_row r.now log "state_before" = .Text log.state_before.as_str ∧
      log_row r.now log "state_after" = .Text log.state_after.as_str ∧
      log_row r.now log "reviewed_at" = .Text (Instants.fmt_time log.reviewed_at) := ⟨rfl,rfl,rfl,rfl,rfl⟩
  have columns_real : log_row r.now log "stability_after" = .Real log.stability_after ∧
      log_row r.now log "difficulty_after" = .Real log.difficulty_after ∧
      log_row r.now log "elapsed_days" = .Real (Instants.real_of_days log.elapsed_days) ∧
      log_row r.now log "scheduled_days" = .Real log.scheduled_days := by
    refine ⟨?_,?_,?_,?_⟩
    · exact congrArg (coerce .REAL) (real stability)
    · exact congrArg (coerce .REAL) (real difficulty)
    · exact congrArg (coerce .REAL) (real elapsed)
    · exact congrArg (coerce .REAL) (real scheduled)
  have rating : 1 ≤ log.rating.value ∧ log.rating.value ≤ 4 := by cases log.rating <;> decide
  have admitted : row_admitted .review_logs (log_row r.now log) := by
    simp only [row_admitted,columns,columns_text,columns_real,admits,rating,List.all_cons,List.all_nil]
    cases log_row r.now log "stability_before" <;> cases log_row r.now log "difficulty_before" <;> simp
  have unique : r.row_unique .review_logs log.id (log_row r.now log) := by
    simp [row_unique,columns,unique_free,same_key]
  have there : ((r.set_row .review_logs log.id (log_row r.now log)).row .review_cards log.card_id).isSome := by
    rwa [row_set_row,if_neg (by simp)]
  have refers : (r.set_row .review_logs log.id (log_row r.now log)).row_references .review_logs (log_row r.now log) := by
    simp [row_references,columns,reference_ok,columns_text,there]
  rw [insert_review_log,if_pos ⟨admitted,free⟩]
  exact insert_new_ok.mpr ⟨unique,refers,rfl⟩

omit [Scheduler] in
theorem log_row_card (now : String) (log : ReviewLog) : log_row now log "card_id" = .Text log.card_id := rfl

theorem log_entry_log_row (now : String) (log : ReviewLog) : log_entry log.id (log_row now log) =
    some ⟨log.id,Scheduler.parse_epoch_millis (Instants.fmt_time log.reviewed_at),log.rating⟩ := by
  have rating : log_row now log "rating" = .Integer log.rating.value := rfl
  have reviewed_at : log_row now log "reviewed_at" = .Text (Instants.fmt_time log.reviewed_at) := rfl
  simp [log_entry,rating,reviewed_at,cast_integer]

end
end Replica

/-! ### The session -/

/-- A session over the database, with its queue and how far it has come in it. -/
structure ReviewSession where
  db : Replica
  queue : List ReviewCard
  current_idx : ℕ

namespace ReviewSession

section
variable [Sqlite] [Scheduler] [Instants]

/-- The days since the last review. -/
def days_since (last : Option ℤ) (now : ℤ) : ℚ := last.elim 0 (fun last => ((now - last : ℤ) : ℚ) / 1000000000 / 86400)

/-- Rate the card at hand. -/
def rate (log_id : String) (now : ℤ) (rating : Rating) : EStateM StorageError ReviewSession Unit := do
  let s ← get
  match s.queue[s.current_idx]? with
  | none => return ()
  | some card =>
    let elapsed_days := days_since card.last_reviewed_at now
    let output := Scheduler.schedule card.state (memory_of card.stability card.difficulty) elapsed_days rating
    let due_at := Instants.after_days now output.scheduled_days
    let new_review_count := card.review_count + 1
    let new_lapse_count := if rating = .Again then card.lapse_count + 1 else card.lapse_count
    match s.db.update_review_card card.id output.next_state output.memory due_at now new_review_count new_lapse_count
        output.scheduled_days with
    | .error e => throw e
    | .ok updated =>
      set { s with db := updated }
      let log : ReviewLog := ⟨log_id,card.id,rating,card.state,card.stability,card.difficulty,output.next_state,
        output.memory.stability,output.memory.difficulty,elapsed_days,output.scheduled_days,now⟩
      match updated.insert_review_log log with
      | .error e => throw e
      | .ok logged =>
        let updated_card : ReviewCard := { card with
          state := output.next_state
          stability := some output.memory.stability
          difficulty := some output.memory.difficulty
          due_at := due_at
          last_reviewed_at := some now
          review_count := new_review_count
          lapse_count := new_lapse_count
          scheduled_days := some output.scheduled_days }
        set (ReviewSession.mk logged (if rating = .Again then s.queue ++ [updated_card] else s.queue) (s.current_idx + 1))

/-! ### What a rating does -/

/-- The copy of a card after a review. -/
def reviewed_card (card : ReviewCard) (now : ℤ) (rating : Rating) : ReviewCard :=
  let output := Scheduler.schedule card.state (memory_of card.stability card.difficulty)
    (days_since card.last_reviewed_at now) rating
  { card with
    state := output.next_state
    stability := some output.memory.stability
    difficulty := some output.memory.difficulty
    due_at := Instants.after_days now output.scheduled_days
    last_reviewed_at := some now
    review_count := card.review_count + 1
    lapse_count := if rating = .Again then card.lapse_count + 1 else card.lapse_count
    scheduled_days := some output.scheduled_days }

/-- The row of a card has the numbers of a copy of it. -/
structure Stores (row : Row) (card : ReviewCard) : Prop where
  state : row "state" = .Text card.state.as_str
  stability : row "stability" = Replica.bind_real card.stability
  difficulty : row "difficulty" = Replica.bind_real card.difficulty
  last_reviewed_at : row "last_reviewed_at" = card.last_reviewed_at.elim .Null (fun t => .Text (Instants.fmt_time t))
  review_count : row "review_count" = .Integer card.review_count
  lapse_count : row "lapse_count" = .Integer card.lapse_count

/-- What the libraries document: the text of an instant gives it back, the double of a
    rational is a number, and so are the numbers of a schedule. -/
structure Lawful : Prop where
  parse_fmt_time (now : Moment) : Instants.parse (Instants.fmt_time now.nanos) = some now.nanos
  epoch_millis (now : Moment) : Scheduler.parse_epoch_millis (Instants.fmt_time now.nanos) = now.val
  real_of_days (days : ℚ) : (Instants.real_of_days days).is_nan = false
  numbers (state : CardState) (memory : Option MemoryState) (days : ℚ) (rating : Rating) :
    let output := Scheduler.schedule state memory days rating
    output.memory.stability.is_nan = false ∧ output.memory.difficulty.is_nan = false ∧ output.scheduled_days.is_nan = false

/-- The database after a review: the row of the card has the numbers of its new copy, one
    more log of the card is stored, and the rest is as it was. -/
structure Recorded (log_id : String) (now : Moment) (rating : Rating) (card : ReviewCard) (db db' : Replica) : Prop where
  row : ∃ row, db'.row .review_cards card.id = some row ∧ Stores row (reviewed_card card now.nanos rating)
  others : ∀ id, id ≠ card.id → db'.row .review_cards id = db.row .review_cards id
  logs : ∀ id, id ≠ log_id → db'.row .review_logs id = db.row .review_logs id
  entries : (db'.review_log_entries_for_card card.id).Perm
    (⟨log_id,now.val,rating⟩ :: db.review_log_entries_for_card card.id)
  entries_apart : ∀ id, id ≠ card.id → db'.review_log_entries_for_card id = db.review_log_entries_for_card id

variable {s : ReviewSession} {card : ReviewCard} {log_id : String}

/-- A rating of a card that is there, under a log id that is free, is recorded. -/
theorem rate_ok (lawful : Lawful) (current : s.queue[s.current_idx]? = some card)
    (there : (s.db.row .review_cards card.id).isSome) (free : s.db.row .review_logs log_id = none) (now : Moment)
    (rating : Rating) : ∃ db', Recorded log_id now rating card s.db db' ∧
      rate log_id now.nanos rating s = .ok ()
        ⟨db',if rating = .Again then s.queue ++ [reviewed_card card now.nanos rating] else s.queue,s.current_idx + 1⟩ := by
  obtain ⟨row,held⟩ := Option.isSome_iff_exists.mp there
  have numbers := lawful.numbers card.state (memory_of card.stability card.difficulty)
    (days_since card.last_reviewed_at now.nanos) rating
  set output := Scheduler.schedule card.state (memory_of card.stability card.difficulty)
    (days_since card.last_reviewed_at now.nanos) rating with stepped
  set row' := Replica.reviewed_row row output.next_state output.memory (Instants.after_days now.nanos output.scheduled_days)
    now.nanos (card.review_count + 1) (if rating = .Again then card.lapse_count + 1 else card.lapse_count)
    output.scheduled_days with new
  set updated := s.db.set_row .review_cards card.id row' with update
  set log : ReviewLog := ⟨log_id,card.id,rating,card.state,card.stability,card.difficulty,output.next_state,
    output.memory.stability,output.memory.difficulty,days_since card.last_reviewed_at now.nanos,output.scheduled_days,
    now.nanos⟩ with beside
  have free' : updated.row .review_logs log.id = none := by
    rw [update,Replica.row_set_row,if_neg (by simp)]
    exact free
  have logged : updated.insert_review_log log = .ok (updated.set_row .review_logs log.id (Replica.log_row updated.now log)) := by
    refine Replica.insert_review_log_ok ?_ free' ?_
    · simp [update,beside]
    · simp only [beside,List.forall_mem_cons,List.not_mem_nil,false_implies,implies_true,and_true]
      exact ⟨numbers.1,numbers.2.1,lawful.real_of_days _,numbers.2.2⟩
  refine ⟨updated.set_row .review_logs log.id (Replica.log_row updated.now log),?_,?_⟩
  · have entry := Replica.log_entry_log_row updated.now log
    rw [show log.reviewed_at = now.nanos from rfl,lawful.epoch_millis now] at entry
    refine ⟨⟨row',?_,?_⟩,fun id apart => ?_,fun id apart => ?_,?_,fun id apart => ?_⟩
    · rw [Replica.row_set_row,if_neg (by simp),update,Replica.row_set_row_self]
    · constructor <;> rfl
    · rw [Replica.row_set_row,if_neg (by simp),update,Replica.row_set_row,if_neg (by simp [apart])]
    · rw [Replica.row_set_row,if_neg (by simp [beside,apart]),update,Replica.row_set_row,if_neg (by simp)]
    · have more := Replica.entries_set_log free' (Replica.log_row_card updated.now log) entry
      rwa [update,Replica.entries_set_card] at more
    · have same := Replica.sameLogs_set_log free' (Replica.log_row_card updated.now log) apart
      rw [same.entries,update,Replica.entries_set_card]
  · unfold rate
    rw [get_bind]
    simp only [current,← stepped]
    rw [Replica.update_review_card_ok held]
    simp only
    rw [set_bind,← new,← update,← beside,logged]
    rfl

/-! ### In step with the logs -/

/-- The row of a card shows what a schedule derives. -/
structure Shows (row : Row) (d : DerivedCard) : Prop where
  state : row "state" = .Text d.state.as_str
  stability : row "stability" = Replica.bind_real d.stability
  difficulty : row "difficulty" = Replica.bind_real d.difficulty
  last_reviewed_at : row "last_reviewed_at" =
    d.last_reviewed_at_ms.elim .Null (fun ms => .Text (Instants.fmt_time (ms * 1000000)))
  review_count : row "review_count" = .Integer d.review_count
  lapse_count : row "lapse_count" = .Integer d.lapse_count

/-- A copy of a card has what a schedule derives. -/
structure Copies (card : ReviewCard) (d : DerivedCard) : Prop where
  state : card.state = d.state
  stability : card.stability = d.stability
  difficulty : card.difficulty = d.difficulty
  last_reviewed_at : card.last_reviewed_at = d.last_reviewed_at_ms.map (· * 1000000)
  review_count : card.review_count = d.review_count
  lapse_count : card.lapse_count = d.lapse_count

variable {row : Row} {d : DerivedCard}

omit [Sqlite] [Scheduler] in
theorem Stores.shows (stores : Stores row card) (copies : Copies card d) : Shows row d where
  state := by rw [stores.state,copies.state]
  stability := by rw [stores.stability,copies.stability]
  difficulty := by rw [stores.difficulty,copies.difficulty]
  last_reviewed_at := by
    rw [stores.last_reviewed_at,copies.last_reviewed_at]
    cases d.last_reviewed_at_ms <;> rfl
  review_count := by rw [stores.review_count,copies.review_count]
  lapse_count := by rw [stores.lapse_count,copies.lapse_count]

omit [Scheduler] [Instants] in
theorem real_bind_real {x : Option F64} (numbers : ∀ r ∈ x, r.is_nan = false) : (Replica.bind_real x).real = x := by
  cases x with
  | none => rfl
  | some r => simp [Replica.bind_real,numbers r rfl,SqlValue.real]

/-- A card that is read has what its row shows. -/
theorem Shows.copies (lawful : Lawful) {id : String} (shows : Shows row d) (read : Reviewing.row_to_review_card id row = some card)
    (dated : ∀ ms ∈ d.last_reviewed_at_ms, Dated ms) (stability : ∀ r ∈ d.stability, r.is_nan = false)
    (difficulty : ∀ r ∈ d.difficulty, r.is_nan = false) : card.id = id ∧ Copies card d := by
  unfold Reviewing.row_to_review_card at read
  obtain ⟨due_at,-,read⟩ := Option.bind_eq_some_iff.mp read
  obtain ⟨last,parsed,read⟩ := Option.bind_eq_some_iff.mp read
  obtain rfl := Option.some.inj read
  have last_read : last = d.last_reviewed_at_ms.map (· * 1000000) := by
    rw [shows.last_reviewed_at] at parsed
    cases reviewed : d.last_reviewed_at_ms with
    | none =>
      rw [reviewed] at parsed
      exact (Option.some.inj parsed).symm
    | some ms =>
      rw [reviewed] at parsed
      have text := lawful.parse_fmt_time ⟨ms,dated ms reviewed⟩
      simp only [Moment.nanos] at text
      simp only [Option.elim_some,SqlValue.instant,text,Option.map_some,Option.some.injEq] at parsed
      exact parsed.symm
  refine ⟨rfl,⟨?_,?_,?_,last_read,?_,?_⟩⟩
  · simp [shows.state,SqlValue.text]
  · simp [shows.stability,real_bind_real stability]
  · simp [shows.difficulty,real_bind_real difficulty]
  · simp [shows.review_count,SqlValue.integer]
  · simp [shows.lapse_count,SqlValue.integer]

omit [Sqlite] [Scheduler] [Instants] in
/-- The days between two reviews are the same to the session and to the replay. -/
theorem days_since_eq {last : Option ℤ} (now : Moment) (before : ∀ ms ∈ last, Dated ms ∧ ms < now.val) :
    days_since (last.map (· * 1000000)) now.nanos = elapsed_days last now.val := by
  cases last with
  | none => rfl
  | some ms =>
    obtain ⟨⟨low,high⟩,less⟩ := before ms rfl
    obtain ⟨low',high'⟩ := now.property
    have exact_difference : saturate (now.val - ms) = now.val - ms := by
      unfold saturate
      omega
    have positive : (0 : ℚ) ≤ ((now.val - ms : ℤ) : ℚ) / 86400000 := by
      have : (0 : ℚ) ≤ ((now.val - ms : ℤ) : ℚ) := by exact_mod_cast (by omega : 0 ≤ now.val - ms)
      positivity
    simp only [days_since,elapsed_days,Option.map_some,Option.elim_some,Moment.nanos]
    rw [exact_difference,max_eq_right positive,← sub_mul]
    push_cast
    ring

omit [Sqlite] in
theorem Copies.reviewed (copies : Copies card d) (now : Moment) (rating : Rating)
    (before : ∀ ms ∈ d.last_reviewed_at_ms, Dated ms ∧ ms < now.val) :
    Copies (reviewed_card card now.nanos rating) (d.reviewed now.val rating) := by
  have days : days_since card.last_reviewed_at now.nanos = elapsed_days d.last_reviewed_at_ms now.val := by
    rw [copies.last_reviewed_at,days_since_eq now before]
  unfold reviewed_card DerivedCard.reviewed
  rw [copies.state,copies.stability,copies.difficulty,days]
  refine ⟨rfl,rfl,rfl,rfl,?_,?_⟩
  · simp [copies.review_count]
  · split <;> simp [copies.lapse_count]

omit [Sqlite] in
theorem replay_numbers (lawful : Lawful) (logs : List ReviewLogEntry) :
    ∀ m ∈ (logs.foldl replay_step .start).memory, m.stability.is_nan = false ∧ m.difficulty.is_nan = false := by
  have step (acc : Replay) (entry : ReviewLogEntry)
      (before : ∀ m ∈ acc.memory, m.stability.is_nan = false ∧ m.difficulty.is_nan = false) :
      ∀ m ∈ (replay_step acc entry).memory, m.stability.is_nan = false ∧ m.difficulty.is_nan = false := by
    unfold replay_step
    split
    · exact before
    · intro m stepped
      cases stepped
      have numbers := lawful.numbers acc.state acc.memory (elapsed_days (acc.last.map Prod.fst) entry.reviewed_at_ms) entry.rating
      exact ⟨numbers.1,numbers.2.1⟩
  induction logs using List.reverseRecOn with
  | nil =>
    intro m none_yet
    cases none_yet
  | append_singleton logs entry ih =>
    rw [List.foldl_concat]
    exact step _ entry ih

omit [Sqlite] in
theorem derive_numbers (lawful : Lawful) (logs : List ReviewLogEntry) :
    (∀ r ∈ (derive_card_state logs).stability, r.is_nan = false) ∧ ∀ r ∈ (derive_card_state logs).difficulty, r.is_nan = false := by
  rw [derive_card_state_eq]
  constructor
  · intro r held
    obtain ⟨m,there,rfl⟩ := Option.map_eq_some_iff.mp held
    exact (replay_numbers lawful _ m there).1
  · intro r held
    obtain ⟨m,there,rfl⟩ := Option.map_eq_some_iff.mp held
    exact (replay_numbers lawful _ m there).2

/-! ### Runs -/

/-- A session begins with cards from the database; then ratings are given. -/
inductive ReviewEvent where
  | start (cards : List ReviewCard)
  | rate (log_id : String) (now : Moment) (rating : Rating)

namespace ReviewEvent

def time : ReviewEvent → Option Moment
  | .start _ => none
  | .rate _ now _ => some now

def log : ReviewEvent → Option String
  | .start _ => none
  | .rate log_id _ _ => some log_id

end ReviewEvent

/-- A rating that fails ends the session. -/
def perform (s : ReviewSession) : ReviewEvent → ReviewSession
  | .start cards => ⟨s.db,cards,0⟩
  | .rate log_id now rating =>
    match rate log_id now.nanos rating s with
    | .ok _ t => t
    | .error _ t => ⟨t.db,[],0⟩

/-- The cards that a session begins with have been read, each of them once. -/
def Listed (db : Replica) (cards : List ReviewCard) : Prop :=
  (cards.map (·.id)).Nodup ∧
    ∀ card ∈ cards, ∃ row, db.row .review_cards card.id = some row ∧ Reviewing.row_to_review_card card.id row = some card

def Begins (s : ReviewSession) : ReviewEvent → Prop
  | .start cards => Listed s.db cards
  | .rate _ _ _ => True

/-- What is left of the queue. -/
def pending (s : ReviewSession) : List ReviewCard := s.queue.drop s.current_idx

/-- The card, the copy of it that is still in the queue and its logs are in step, and what is
    left of the run is later than the logs and has ids of its own. -/
structure InStep (id : String) (s : ReviewSession) (rest : List ReviewEvent) : Prop where
  once : (s.pending.map (·.id)).Nodup
  there : ∀ card ∈ s.pending, (s.db.row .review_cards card.id).isSome
  row : ∃ row, s.db.row .review_cards id = some row ∧
    Shows row (derive_card_state (s.db.review_log_entries_for_card id))
  copy : ∀ card ∈ s.pending, card.id = id → Copies card (derive_card_state (s.db.review_log_entries_for_card id))
  before : ∀ entry ∈ s.db.review_log_entries_for_card id,
    Dated entry.reviewed_at_ms ∧ ∀ now ∈ rest.filterMap ReviewEvent.time, entry.reviewed_at_ms < now.val
  free : ∀ log_id ∈ rest.filterMap ReviewEvent.log, s.db.row .review_logs log_id = none
  times : (rest.filterMap ReviewEvent.time).Pairwise (fun a b => a.val < b.val)
  logs : (rest.filterMap ReviewEvent.log).Nodup

/-- After a rating of the card its row shows what its logs derive, and the rating is one of them. -/
def Agrees (id : String) (s : ReviewSession) : ReviewEvent → Prop
  | .start _ => True
  | .rate log_id now rating => ∀ card, s.queue[s.current_idx]? = some card → card.id = id →
    let db := (perform s (.rate log_id now rating)).db
    ⟨log_id,now.val,rating⟩ ∈ db.review_log_entries_for_card id ∧
      ∃ row, db.row .review_cards id = some row ∧ Shows row (derive_card_state (db.review_log_entries_for_card id))

variable {id : String} {rest : List ReviewEvent}

theorem InStep.start (lawful : Lawful) {cards : List ReviewCard} (step : InStep id s (.start cards :: rest))
    (listed : Listed s.db cards) : InStep id ⟨s.db,cards,0⟩ rest where
  once := listed.1
  there card inside := by
    obtain ⟨row,held,-⟩ := listed.2 card inside
    simp [held]
  row := step.row
  copy card inside same := by
    obtain ⟨row,held,read⟩ := listed.2 card inside
    obtain ⟨row',held',shows⟩ := step.row
    rw [same,held'] at held
    cases held
    obtain ⟨stability,difficulty⟩ := derive_numbers lawful (s.db.review_log_entries_for_card id)
    refine (shows.copies lawful read (fun ms reviewed => ?_) stability difficulty).2
    obtain ⟨entry,logged,rfl⟩ := derive_last reviewed
    exact (step.before entry logged).1
  before := step.before
  free := step.free
  times := step.times
  logs := step.logs

/-- A rating when the queue has come to its end does nothing. -/
theorem rate_done (done : s.queue[s.current_idx]? = none) (now : ℤ) (rating : Rating) : rate log_id now rating s = .ok () s := by
  unfold rate
  rw [get_bind]
  simp only [done]
  rfl

omit [Sqlite] [Scheduler] [Instants] in
/-- What is left of the queue begins with the card at hand. -/
theorem pending_cons (current : s.queue[s.current_idx]? = some card) : s.pending = card :: s.queue.drop (s.current_idx + 1) := by
  obtain ⟨inside,same⟩ := List.getElem?_eq_some_iff.mp current
  rw [pending,List.drop_eq_getElem_cons inside,same]

/-- The steps that are left, without the first. -/
theorem InStep.tail {event : ReviewEvent} (step : InStep id s (event :: rest)) : InStep id s rest where
  once := step.once
  there := step.there
  row := step.row
  copy := step.copy
  before entry inside := by
    obtain ⟨dated,later⟩ := step.before entry inside
    refine ⟨dated,fun now inside' => later now ?_⟩
    obtain ⟨e,there,same⟩ := List.mem_filterMap.mp inside'
    exact List.mem_filterMap.mpr ⟨e,.tail _ there,same⟩
  free log_id inside := by
    obtain ⟨e,there,same⟩ := List.mem_filterMap.mp inside
    exact step.free log_id (List.mem_filterMap.mpr ⟨e,.tail _ there,same⟩)
  times := by
    have times := step.times
    rw [List.filterMap_cons] at times
    split at times
    · exact times
    · exact times.of_cons
  logs := by
    have logs := step.logs
    rw [List.filterMap_cons] at logs
    split at logs
    · exact logs
    · exact logs.of_cons

omit [Sqlite] [Scheduler] [Instants] in
/-- What is left of the queue after a rating: a lapsed card has gone to its end. -/
theorem mem_pending_after (current : s.queue[s.current_idx]? = some card) {db : Replica} {again : Prop} [Decidable again]
    (copy : ReviewCard) (same : copy.id = card.id) {t : ReviewSession}
    (after : t = ⟨db,if again then s.queue ++ [copy] else s.queue,s.current_idx + 1⟩) :
    ((s.pending.map (·.id)).Nodup → (t.pending.map (·.id)).Nodup) ∧
      ∀ c ∈ t.pending, c = copy ∨ c ∈ s.queue.drop (s.current_idx + 1) := by
  have inside := (List.getElem?_eq_some_iff.mp current).1
  rw [pending_cons current,after,pending]
  split
  · rw [List.drop_append_of_le_length inside]
    refine ⟨fun once => ?_,fun c there => (List.mem_append.mp there).symm.imp_left List.mem_singleton.mp⟩
    rw [List.map_append,List.map_singleton,same]
    exact (List.perm_append_singleton _ _).nodup_iff.mpr once
  · exact ⟨List.Nodup.of_cons,fun c there => .inr there⟩

/-- A rating of the card at hand keeps the card, its copies and its logs in step. -/
theorem InStep.rate (lawful : Lawful) {now : Moment} {rating : Rating} (step : InStep id s (.rate log_id now rating :: rest)) :
    Agrees id s (.rate log_id now rating) ∧ InStep id (perform s (.rate log_id now rating)) rest := by
  cases current : s.queue[s.current_idx]? with
  | none =>
    have same : perform s (.rate log_id now rating) = s := by rw [perform,rate_done current]
    rw [same]
    refine ⟨fun card at_hand => ?_,step.tail⟩
    rw [current] at at_hand
    cases at_hand
  | some card =>
    have left := pending_cons current
    have there := step.there card (by rw [left]; exact .head _)
    have free := step.free log_id (by simp [ReviewEvent.log])
    obtain ⟨db,recorded,rated⟩ := rate_ok lawful current there free now rating
    set t := perform s (.rate log_id now rating) with performed
    have after : t =
        ⟨db,if rating = .Again then s.queue ++ [reviewed_card card now.nanos rating] else s.queue,s.current_idx + 1⟩ := by
      rw [performed,perform,rated]
    have written : t.db = db := by rw [after]
    obtain ⟨once,queued⟩ := mem_pending_after current (reviewed_card card now.nanos rating) rfl after
    obtain ⟨row,held,stores⟩ := recorded.row
    have tail := step.tail
    have stored (c : ReviewCard) (inside : c ∈ t.pending) : (t.db.row .review_cards c.id).isSome := by
      rw [written]
      by_cases same : c.id = card.id
      · simp [same,held]
      · rw [recorded.others c.id same]
        rcases queued c inside with rfl | inside'
        · exact absurd rfl same
        · exact step.there c (by rw [left]; exact .tail _ inside')
    have free' (other : String) (inside : other ∈ rest.filterMap ReviewEvent.log) : t.db.row .review_logs other = none := by
      rw [written,recorded.logs other ?_]
      · exact tail.free other inside
      · rintro rfl
        exact (List.nodup_cons.mp step.logs).1 inside
    by_cases mine : card.id = id
    · subst mine
      have before (entry : ReviewLogEntry) (inside : entry ∈ s.db.review_log_entries_for_card card.id) :
          Dated entry.reviewed_at_ms ∧ entry.reviewed_at_ms < now.val :=
        (step.before entry inside).imp_right (fun later => later now (by simp [ReviewEvent.time]))
      have derived := derive_card_state_log recorded.entries (fun entry inside => (before entry inside).2)
        (Replica.entries_once db card.id)
      have copies := (step.copy card (by rw [left]; exact .head _) rfl).reviewed now rating (fun ms reviewed => by
        obtain ⟨entry,inside,rfl⟩ := derive_last reviewed
        exact before entry inside)
      rw [← derived] at copies
      have shows := stores.shows copies
      refine ⟨fun card' at_hand _ => ?_,⟨once step.once,stored,?_,fun c inside same => ?_,fun entry inside => ?_,free',
        tail.times,tail.logs⟩⟩
      · change _ ∈ Replica.review_log_entries_for_card t.db card.id ∧ _
        rw [written]
        exact ⟨recorded.entries.mem_iff.mpr (.head _),row,held,shows⟩
      · rw [written]
        exact ⟨row,held,shows⟩
      · rw [written]
        rcases queued c inside with rfl | inside'
        · exact copies
        · -- the queue held the card once
          have apart := step.once
          rw [left,List.map_cons,List.nodup_cons] at apart
          exact absurd (List.mem_map.mpr ⟨c,inside',same⟩) apart.1
      · rw [written] at inside
        rcases List.mem_cons.mp (recorded.entries.mem_iff.mp inside) with rfl | earlier
        · exact ⟨now.property,fun later there => List.rel_of_pairwise_cons step.times there⟩
        · exact tail.before entry earlier
    · have entries := recorded.entries_apart id (Ne.symm mine)
      refine ⟨fun card' at_hand same => ?_,⟨once step.once,stored,?_,fun c inside same => ?_,fun entry inside => ?_,free',
        tail.times,tail.logs⟩⟩
      · cases current.symm.trans at_hand
        exact absurd same mine
      · rw [written,entries,recorded.others id (Ne.symm mine)]
        exact step.row
      · rw [written,entries]
        rcases queued c inside with rfl | inside'
        · exact absurd same mine
        · exact step.copy c (by rw [left]; exact .tail _ inside') same
      · rw [written,entries] at inside
        exact tail.before entry inside

omit [Scheduler] in
/-- The cards that are due are cards of the database, each of them once, and so are the first of them. -/
theorem listed_due {db : Replica} {now : ℤ} {cards : List ReviewCard} (due : db.list_due_review_cards now = some cards)
    (limit : ℕ) : Listed db (cards.take limit) := by
  have reads (l : List (String × Row)) (cards : List ReviewCard)
      (read : l.mapM (fun card => Reviewing.row_to_review_card card.1 card.2) = some cards) :
      cards.map (·.id) = l.map Prod.fst ∧ ∀ card ∈ cards, ∃ row, (card.id,row) ∈ l ∧ Reviewing.row_to_review_card card.id row = some card := by
    induction l generalizing cards with
    | nil =>
      obtain rfl : [] = cards := by simpa using read
      simp
    | cons x l ih =>
      rw [List.mapM_cons] at read
      obtain ⟨card,first,read⟩ := Option.bind_eq_some_iff.mp read
      obtain ⟨rest,later,same⟩ := Option.bind_eq_some_iff.mp read
      obtain rfl := Option.some.inj same
      obtain ⟨ids,all⟩ := ih rest later
      have named : card.id = x.1 := by
        unfold Reviewing.row_to_review_card at first
        obtain ⟨due_at,-,first⟩ := Option.bind_eq_some_iff.mp first
        obtain ⟨last,-,first⟩ := Option.bind_eq_some_iff.mp first
        exact (Option.some.inj first).symm ▸ rfl
      refine ⟨by simp [ids,named],fun c inside => ?_⟩
      rcases List.mem_cons.mp inside with rfl | inside'
      · exact ⟨x.2,by simp [named],named ▸ first⟩
      · obtain ⟨row,there,read'⟩ := all c inside'
        exact ⟨row,.tail _ there,read'⟩
  obtain ⟨ids,all⟩ := reads _ _ due
  constructor
  · have once : (cards.map (·.id)).Nodup := by
      rw [ids]
      refine ((List.perm_insertionSort _ _).map Prod.fst).nodup_iff.mpr ?_
      refine ((List.filter_sublist.map Prod.fst).nodup ?_)
      rw [List.Nodup,List.pairwise_map]
      exact Std.ExtTreeMap.distinct_keys_toList.imp (fun apart same => apart (by simp [same]))
    exact (List.take_sublist limit cards).map _ |>.nodup once
  · intro card inside
    obtain ⟨row,there,read⟩ := all card (List.mem_of_mem_take inside)
    have stored := (List.mem_filter.mp ((List.mem_insertionSort _).mp there)).1
    exact ⟨row,Std.ExtTreeMap.mem_toList_iff_getElem?_eq_some.mp stored,read⟩

end

/-! ### A new card and a provisional one -/

section

@[reducible] def plainInstants : Instants := ⟨Int.repr,String.toInt?,fun _ => ⟨0⟩,fun now _ => now⟩

/-- Every review gives the same memory. -/
@[reducible] def steadyScheduler : Scheduler :=
  ⟨fun _ _ _ _ => ⟨.Review,⟨⟨0⟩,⟨0⟩⟩,⟨0⟩⟩,fun _ => 0,fun s => s.toInt?.getD 0 / 1000000,fun ms => (ms * 1000000).repr⟩

attribute [local instance] plainSqlite steadyScheduler plainInstants

theorem steady_lawful : Lawful where
  parse_fmt_time now := Int.toInt?_repr _
  epoch_millis now := by
    change (Int.repr (now.val * 1000000)).toInt?.getD 0 / 1000000 = now.val
    simp
  real_of_days _ := (by decide : F64.is_nan ⟨0⟩ = false)
  numbers _ _ _ _ := (by decide : F64.is_nan ⟨0⟩ = false ∧ F64.is_nan ⟨0⟩ = false ∧ F64.is_nan ⟨0⟩ = false)

/-- A card of a new state that has been reviewed a number of times, without memory. -/
def cardRow (count : ℕ) : Row
  | "state" => .Text "new"
  | "due_at" => .Text (Int.repr 0)
  | "review_count" => .Integer count
  | "lapse_count" => .Integer 0
  | _ => .Null

def deck (count : ℕ) : Replica := Replica.empty.set_row .review_cards "c" (cardRow count)

def cardOf (count : ℕ) : ReviewCard := ⟨"c",.New,none,none,0,none,count,0,none⟩

/-- One session: the card lapses and comes again. -/
def session (count : ℕ) : List ReviewEvent :=
  [.start [cardOf count],.rate "l" ⟨1,by decide⟩ .Again,.rate "l'" ⟨2,by decide⟩ .Good]

theorem session_begins (count : ℕ) : Along perform Begins ⟨deck count,[],0⟩ (session count) := by
  refine ⟨⟨by simp,fun card inside => ?_⟩,trivial,trivial,trivial⟩
  obtain rfl := List.mem_singleton.mp inside
  have zero : Instants.parse (Int.repr 0) = some 0 := Int.toInt?_repr 0
  refine ⟨cardRow count,by simp [deck,cardOf],?_⟩
  simp [zero,Reviewing.row_to_review_card,cardRow,SqlValue.text,SqlValue.instant,SqlValue.real,SqlValue.integer,CardState.from_str,cardOf]

theorem deck_unlogged (count : ℕ) : ¬ (deck count).Logged "c" := by
  rintro ⟨id,log,held,-⟩
  rw [deck,Replica.row_set_row,if_neg (by simp)] at held
  simp [Replica.row,Replica.empty] at held

end
end ReviewSession
end Pergamon
