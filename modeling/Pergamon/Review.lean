import Mathlib.Data.Rat.Defs
import Mathlib.Algebra.Order.Ring.Rat
import Mathlib.Data.List.Sort
import Pergamon.Value

/-!
The schedule that a card's review logs derive: the logs are put in the order of
their review times and ids and replayed through the scheduler. The numeric step
of the scheduler and the RFC 3339 routines are the parameters `Scheduler`.
-/
namespace Pergamon

/-- The lifecycle state of a card. -/
inductive CardState where
  | New
  | Learning
  | Review
  | Relearning
  deriving DecidableEq

def CardState.as_str : CardState → String
  | .New => "new"
  | .Learning => "learning"
  | .Review => "review"
  | .Relearning => "relearning"

inductive Rating where
  | Again
  | Hard
  | Good
  | Easy
  deriving DecidableEq

def Rating.from_value : Int → Option Rating
  | 1 => some .Again
  | 2 => some .Hard
  | 3 => some .Good
  | 4 => some .Easy
  | _ => none

structure MemoryState where
  stability : F64
  difficulty : F64
  deriving DecidableEq

structure SchedulingOutput where
  next_state : CardState
  memory : MemoryState
  scheduled_days : F64

/-- The step of the FSRS scheduler on a card's state, its memory, the days since
    the last review and the rating; the milliseconds in a number of days; and the
    epoch milliseconds of an RFC 3339 text (`0` for a malformed one) and back. -/
class Scheduler where
  schedule : CardState → Option MemoryState → ℚ → Rating → SchedulingOutput
  due_delta_ms : F64 → Int
  parse_epoch_millis : String → Int
  millis_to_rfc3339 : Int → String

/-- A scheduler for libraries without reviews. -/
@[reducible] def plainScheduler : Scheduler :=
  ⟨fun state _ _ _ => ⟨state,⟨⟨0⟩,⟨0⟩⟩,⟨0⟩⟩,fun _ => 0,fun _ => 0,fun _ => ""⟩

structure ReviewLogEntry where
  id : String
  reviewed_at_ms : Int
  rating : Rating
  deriving DecidableEq

structure DerivedCard where
  state : CardState
  stability : Option F64
  difficulty : Option F64
  last_reviewed_at_ms : Option Int
  due_at_ms : Option Int
  scheduled_days : Option F64
  review_count : Nat
  lapse_count : Nat
  deriving DecidableEq

/-- A value kept within the range of `i64`. -/
def saturate (i : Int) : Int := max (-(2 ^ 63)) (min i (2 ^ 63 - 1))

/-- The order in which the logs are replayed. -/
def entry_le (a b : ReviewLogEntry) : Bool :=
  decide (a.reviewed_at_ms < b.reviewed_at_ms) ||
    (decide (a.reviewed_at_ms = b.reviewed_at_ms) && decide (a.id ≤ b.id))

section
variable [Scheduler]

/-- The days between two reviews. -/
def elapsed_days (last_ms : Option Int) (reviewed_at_ms : Int) : ℚ :=
  match last_ms with
  | none => 0
  | some prev => max 0 ((saturate (reviewed_at_ms - prev) : ℚ) / 86400000)

/-- What the replay holds between two logs. -/
structure Replay where
  derived : DerivedCard
  memory : Option MemoryState
  state : CardState
  last : Option (Int × String)

/-- Replay one log; a log that repeats the one before it is skipped. -/
def replay_step (acc : Replay) (entry : ReviewLogEntry) : Replay :=
  if acc.last = some (entry.reviewed_at_ms,entry.id) then acc
  else
    let output := Scheduler.schedule acc.state acc.memory
      (elapsed_days (acc.last.map Prod.fst) entry.reviewed_at_ms) entry.rating
    { derived :=
        { acc.derived with
          scheduled_days := some output.scheduled_days
          due_at_ms := some (saturate (entry.reviewed_at_ms + Scheduler.due_delta_ms output.scheduled_days))
          review_count := acc.derived.review_count + 1
          lapse_count := acc.derived.lapse_count + if entry.rating = .Again then 1 else 0 }
      memory := some output.memory
      state := output.next_state
      last := some (entry.reviewed_at_ms,entry.id) }

/-- Fold a card's logs into its schedule. -/
def derive_card_state (logs : List ReviewLogEntry) : DerivedCard :=
  let ordered := logs.insertionSort (fun a b => entry_le a b)
  let replayed := ordered.foldl replay_step
    { derived := ⟨.New,none,none,none,none,none,0,0⟩, memory := none, state := .New, last := none }
  { replayed.derived with
    state := replayed.state
    stability := replayed.memory.map MemoryState.stability
    difficulty := replayed.memory.map MemoryState.difficulty
    last_reviewed_at_ms := replayed.last.map Prod.fst }

/-- A card with a log falls due. -/
theorem derive_card_state_due {logs : List ReviewLogEntry} (some_log : logs ≠ []) :
    ∃ ms, (derive_card_state logs).due_at_ms = some ms := by
  have step (acc : Replay) (entry : ReviewLogEntry) (due : acc.derived.due_at_ms.isSome ∨ acc.last = none) :
      (replay_step acc entry).derived.due_at_ms.isSome := by
    unfold replay_step
    split
    · next repeated => exact due.resolve_right (by simp [repeated])
    · rfl
  have run (l : List ReviewLogEntry) (acc : Replay) (due : acc.derived.due_at_ms.isSome) :
      (l.foldl replay_step acc).derived.due_at_ms.isSome := by
    induction l generalizing acc with
    | nil => exact due
    | cons entry l ih => exact ih _ (step acc entry (.inl due))
  rw [← Option.isSome_iff_exists]
  unfold derive_card_state
  cases ordered : logs.insertionSort (fun a b => entry_le a b) with
  | nil =>
    have same := (List.perm_insertionSort (fun a b => (entry_le a b : Prop)) logs).length_eq
    rw [ordered] at same
    exact absurd (List.length_eq_zero_iff.mp same.symm) some_log
  | cons entry rest => exact run rest _ (step _ entry (.inr rfl))

end
end Pergamon
