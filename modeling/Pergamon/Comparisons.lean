import Pergamon.SmartCollections
import Pergamon.Timestamps

/-!
Comparisons of times by their texts: due cards, items since or before a date, in lists and in rules,
and earlier times of creation. Each asks which of two texts comes first, so each selects a row as the
instants would iff the two times are in order (`selected_iff`).
-/
namespace Pergamon
open Decimal OffsetDateTime

/-! ### The comparisons -/

/-- A row of `review_cards`. -/
structure DueRow where
  id : String
  due_at : String

section
variable [TimeCrate]

/-- List all review cards due on or before the given time. -/
def list_due_review_cards (rows : List DueRow) (now : OffsetDateTime) : List DueRow :=
  (rows.filter (fun row => row.due_at ≤ fmt_time now)).insertionSort (fun a b => a.due_at ≤ b.due_at)

end

/-- Midnight UTC of a day. -/
def midnight_of (d : Day) : OffsetDateTime := ⟨(d.number - 2440588) * 86400 * 10 ^ 9,0⟩

/-- The rule engine, which writes no text for an offset that RFC 3339 cannot write, sees a time and
    a midnight in order. -/
def RuleInOrder (a : OffsetDateTime) (d : Day) : Prop :=
  if a.Plain then a.InOrder (midnight_of d) else a.nanos < (midnight_of d).nanos

/-! ### Midnight -/

section
variable {a b : OffsetDateTime} {d : Day}

theorem midnight_parts (d : Day) : (midnight_of d).local_day = d.number ∧ (midnight_of d).second_of_day = 0 ∧
    (midnight_of d).fraction = 0 := by
  have second : (midnight_of d).local_second = (d.number - 2440588) * 86400 := by
    unfold local_second midnight_of
    simp only [add_zero]
    exact Int.mul_ediv_cancel _ (by decide)
  refine ⟨?_,?_,?_⟩
  · rw [local_day,second]
    omega
  · rw [second_of_day,second]
    omega
  · unfold fraction midnight_of
    simp only []
    rw [Int.mul_emod_left]
    rfl

theorem midnight_usual (d : Day) : (midnight_of d).Usual :=
  ⟨⟨d,(midnight_parts d).1.symm⟩,show (0 : ℕ) < 93600 by decide⟩

variable [TimeCrate] (writes : WritesTimes)
include writes

theorem fmt_time_midnight (d : Day) : fmt_time (midnight_of d) = midnight d.text := by
  obtain ⟨day,second,fraction⟩ := midnight_parts d
  have plain : (midnight_of d).Plain := by
    unfold Plain midnight_of
    exact ⟨rfl,show (0 : ℕ) < 86400 by decide⟩
  have clock : 'T' :: (clock_text 0 ++ (fraction_text 0 ++ zone_text 0)) = "T00:00:00Z".toList := by decide
  have utc : (midnight_of d).offset = 0 := rfl
  rw [fmt_time_eq writes (midnight_usual d),date_part_eq day.symm,time_part,if_pos plain,second,fraction,utc,clock,midnight,
    ← String.toList_append,String.ofList_toList]

/-- The order of two texts is that of the instants iff the times are in order. -/
theorem text_order_iff (usual : a.Usual) (usual' : b.Usual) : (fmt_time a < fmt_time b ↔ a.nanos < b.nanos) ↔ a.InOrder b := by
  rw [fmt_time_lt writes usual usual',spelled_iff]

theorem text_order_iff' (usual : a.Usual) (usual' : b.Usual) : (fmt_time b ≤ fmt_time a ↔ b.nanos ≤ a.nanos) ↔ a.InOrder b := by
  rw [← text_order_iff writes usual usual',← not_lt,← not_lt,not_iff_not]

/-- A text of a time stands before a midnight as the instants do iff the two are in order. -/
theorem before_midnight_iff (usual : a.Usual) :
    (fmt_time a < midnight d.text ↔ a.nanos < (midnight_of d).nanos) ↔ a.InOrder (midnight_of d) := by
  rw [← fmt_time_midnight writes,text_order_iff writes usual (midnight_usual d)]

theorem since_midnight_iff (usual : a.Usual) :
    (midnight d.text ≤ fmt_time a ↔ (midnight_of d).nanos ≤ a.nanos) ↔ a.InOrder (midnight_of d) := by
  rw [← fmt_time_midnight writes,text_order_iff' writes usual (midnight_usual d)]

/-- The cards due by a time, if the times are in order. -/
theorem due_iff {rows : List DueRow} {row : DueRow} (inside : row ∈ rows) (due : row.due_at = fmt_time a) (usual : a.Usual)
    (usual' : b.Usual) : (row ∈ list_due_review_cards rows b ↔ a.nanos ≤ b.nanos) ↔ b.InOrder a := by
  rw [list_due_review_cards,List.mem_insertionSort,List.mem_filter,due,← text_order_iff' writes usual' usual]
  simp [inside]

/-- The time of creation after dating back, if the times are in order. -/
theorem backdate_iff {lib : Library} {id : String} {row : ItemRow} (found : lib.get_item_row id = some row)
    (created : row.created_at = fmt_time a) (usual : a.Usual) (usual' : b.Usual) :
    ((Library.backdate id b lib).get_item_row id).map ItemRow.created_at =
        some (fmt_time (if b.nanos < a.nanos then b else a)) ↔ b.InOrder a := by
  rw [Library.backdate,Library.get_item_row_update _ (fun row => by split <;> rfl),if_pos rfl,found,Option.map_some,
    Option.map_some,Option.some_inj,created,← text_order_iff writes usual' usual]
  by_cases text : fmt_time b < fmt_time a
  · by_cases instant : b.nanos < a.nanos
    · simp [text,instant]
    · simp [text,instant,text.ne]
  · by_cases instant : b.nanos < a.nanos
    · have differ : fmt_time a ≠ fmt_time b := by
        intro same
        have forth := fmt_time_lt writes usual usual'
        have back := fmt_time_lt writes usual' usual
        rw [same] at forth back
        have equal := spelled_total (fun before => lt_irrefl _ (forth.mpr before)) (fun before => lt_irrefl _ (back.mpr before))
        omega
      simp [text,instant,created,differ]
    · simp [text,instant,created]

end

/-! ### Predicates -/

section
variable [TimeCrate] {a : OffsetDateTime} {d : Day} (writes : WritesTimes) (usual : a.Usual)
include writes usual

/-- What the rule engine compares. -/
theorem rule_before_iff : (format_time a < midnight d.text ↔ a.nanos < (midnight_of d).nanos) ↔ RuleInOrder a d := by
  unfold RuleInOrder
  split_ifs with plain
  · have same : format_time a = fmt_time a := by
      rw [format_time,fmt_time,writes.rfc3339 a usual,rfc3339,if_pos plain]
      rfl
    rw [same,before_midnight_iff writes usual]
  · have none : format_time a = "" := by
      rw [format_time,writes.rfc3339 a usual,rfc3339,if_neg plain]
      rfl
    have first : "" < midnight d.text := by
      rw [String.lt_iff_toList_lt,midnight,String.toList_append]
      cases text : d.text.toList with
      | nil => exact List.nil_lt_cons _ _
      | cons c rest => exact List.nil_lt_cons _ _
    rw [none]
    simp [first]

theorem rule_since_iff : (midnight d.text ≤ format_time a ↔ (midnight_of d).nanos ≤ a.nanos) ↔ RuleInOrder a d := by
  rw [← rule_before_iff writes usual,← not_lt,← not_lt,not_iff_not]

end

/-- Texts compare as the instants do, and every comparison selects what it should, iff the two times
    are in order. -/
theorem selected_iff [TimeCrate] [Unicode] [Fts5] (writes : WritesTimes) {a b : OffsetDateTime} (usual : a.Usual)
    (usual' : b.Usual) (d : Day) :
    ((fmt_time a < fmt_time b ↔ a.nanos < b.nanos) ↔ a.InOrder b) ∧
      ((midnight d.text ≤ fmt_time a ↔ (midnight_of d).nanos ≤ a.nanos) ↔ a.InOrder (midnight_of d)) ∧
      (∀ (rows : List DueRow) (row : DueRow), row ∈ rows → row.due_at = fmt_time a →
        ((row ∈ list_due_review_cards rows b ↔ a.nanos ≤ b.nanos) ↔ b.InOrder a)) ∧
      (∀ (lib : Library) (row : ItemRow), row.created_at = fmt_time a →
        ((lib.satisfies row (.CreatedSince d.text) ↔ (midnight_of d).nanos ≤ a.nanos) ↔ a.InOrder (midnight_of d)) ∧
          ((lib.satisfies row (.CreatedBefore d.text) ↔ a.nanos < (midnight_of d).nanos) ↔ a.InOrder (midnight_of d))) ∧
      (∀ ctx : MatchContext, ctx.item.created_at = a →
        ((matches_predicate ctx (.CreatedSince d.text) ↔ (midnight_of d).nanos ≤ a.nanos) ↔ RuleInOrder a d) ∧
          ((matches_predicate ctx (.CreatedBefore d.text) ↔ a.nanos < (midnight_of d).nanos) ↔ RuleInOrder a d)) ∧
      ∀ (lib : Library) (id : String) (row : ItemRow), lib.get_item_row id = some row → row.created_at = fmt_time a →
        (((Library.backdate id b lib).get_item_row id).map ItemRow.created_at =
          some (fmt_time (if b.nanos < a.nanos then b else a)) ↔ b.InOrder a) := by
  refine ⟨text_order_iff writes usual usual',since_midnight_iff writes usual,?_,?_,?_,?_⟩
  · intro rows row inside due
    exact due_iff writes inside due usual usual'
  · intro lib row created
    rw [Library.satisfies,Library.satisfies,created,decide_eq_true_eq,decide_eq_true_eq]
    exact ⟨since_midnight_iff writes usual,before_midnight_iff writes usual⟩
  · rintro ctx rfl
    rw [matches_predicate,matches_predicate,decide_eq_true_eq,decide_eq_true_eq]
    exact ⟨rule_since_iff writes usual,rule_before_iff writes usual⟩
  · intro lib id row found created
    exact backdate_iff writes found created usual usual'

/-! ### Half a second -/

/-- The time crate, as it documents what it writes. -/
@[reducible] def documentedTimes : TimeCrate := { plainTimes with format_rfc3339 := rfc3339, to_string := display }

section
attribute [local instance] documentedTimes

theorem writes_documented : WritesTimes := ⟨fun _ _ => rfl,fun _ _ => rfl⟩

def epoch : Day := ⟨1970,1,1,by constructor <;> decide,by decide⟩

/-- A UTC time within the first day of 1970. -/
def on_epoch (nanos : ℤ) : OffsetDateTime := ⟨nanos,0⟩

theorem on_epoch_usual {nanos : ℤ} (low : 0 ≤ nanos) (high : nanos < 86400 * 10 ^ 9) : (on_epoch nanos).Usual := by
  refine ⟨⟨epoch,?_⟩,show (0 : ℕ) < 93600 by decide⟩
  have number : epoch.number = 2440588 := by decide
  rw [number,local_day,local_second]
  simp only [on_epoch]
  omega

theorem selected_iff_second : (fmt_time (on_epoch 0) < fmt_time (on_epoch 1000000000) ↔ (0 : ℤ) < 1000000000) ↔
    (on_epoch 0).InOrder (on_epoch 1000000000) :=
  (@selected_iff documentedTimes Library.plainUnicode Library.plainFts writes_documented _ _ (on_epoch_usual le_rfl (by decide))
    (on_epoch_usual (by decide) (by decide)) epoch).1

/-- Half a second past midnight stands before midnight, and is not found since its date. -/
theorem half_second_first : ¬ (fmt_time (on_epoch 0) < fmt_time (on_epoch 500000000) ↔
      (on_epoch 0).nanos < (on_epoch 500000000).nanos) ∧
    ¬ (midnight epoch.text ≤ fmt_time (on_epoch 500000000) ↔ (midnight_of epoch).nanos ≤ (on_epoch 500000000).nanos) := by
  rw [text_order_iff writes_documented (on_epoch_usual le_rfl (by decide)) (on_epoch_usual (by decide) (by decide)),
    since_midnight_iff writes_documented (on_epoch_usual (by decide) (by decide))]
  constructor
  · intro order
    unfold InOrder at order
    rw [if_pos (by decide),if_pos (by decide),if_pos (by decide)] at order
    exact (order rfl).1 (by decide) (by decide)
  · intro order
    unfold InOrder at order
    rw [if_pos (by decide),if_pos (by decide),if_pos (by decide)] at order
    exact (order rfl).2 (by decide) (by decide)

end

end Pergamon
