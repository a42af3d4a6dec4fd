import Mathlib.Data.List.Basic
import Mathlib.Tactic.Common

/-!
A list of rows that is kept by hand beside a table: for each key of the table one row, which
shows what the table has under the key, and no other rows (`MirrorsAt`). A change of the table
leaves that so at the keys where the table and the rows stay as they are; at the others a row
has to be put in the place of the old ones, or taken out.
-/
namespace Mirrors

section
variable {κ ρ α : Type*} [DecidableEq κ] (key : ρ → κ) (view : ρ → α) (what what' : κ → Option α) (rows rows' : List ρ)

/-- The rows under a key. -/
def under (k : κ) : List ρ := rows.filter (fun row => key row = k)

/-- The rows under a key show what the table has there: one row, or none. -/
def MirrorsAt (k : κ) : Prop := (under key rows k).map view = (what k).toList

/-- Without the rows under a key. -/
def drop (k : κ) : List ρ := rows.filter (fun row => key row ≠ k)

/-- A row in the place of those under its key. -/
def replace (row : ρ) : List ρ := drop key rows (key row) ++ [row]

variable {key view what what' rows rows'} {k other : κ} {row : ρ}

theorem under_drop : under key (drop key rows k) other = if other = k then [] else under key rows other := by
  unfold under drop
  rw [List.filter_filter]
  split
  · next same =>
    subst same
    exact List.filter_eq_nil_iff.mpr (fun row _ => by simp)
  · next apart =>
    refine List.filter_congr (fun row _ => ?_)
    rw [Bool.eq_iff_iff,Bool.and_eq_true,decide_eq_true_eq,decide_eq_true_eq]
    exact and_iff_left_of_imp (fun here gone => apart (here.symm.trans gone))

theorem under_concat : under key (rows ++ [row]) other = if other = key row then under key rows other ++ [row] else under key rows other := by
  unfold under
  rw [List.filter_append]
  split
  · next same => simp [same]
  · next apart => simp [Ne.symm apart]

theorem under_replace : under key (replace key rows row) other = if other = key row then [row] else under key rows other := by
  rw [replace,under_concat,under_drop]
  split <;> simp

theorem MirrorsAt.frame (mirrors : MirrorsAt key view what rows k) (same : what' k = what k) (kept : under key rows' k = under key rows k) :
    MirrorsAt key view what' rows' k := by
  rw [MirrorsAt,same,kept]
  exact mirrors

/-- A row that shows what the table has, in the place of the old ones. -/
theorem mirrorsAt_replace (shows : what (key row) = some (view row)) : MirrorsAt key view what (replace key rows row) (key row) := by
  rw [MirrorsAt,under_replace,if_pos rfl,shows]
  rfl

/-- A key of which the table knows nothing, and whose rows are taken out. -/
theorem mirrorsAt_drop (nothing : what k = none) : MirrorsAt key view what (drop key rows k) k := by
  rw [MirrorsAt,under_drop,if_pos rfl,nothing]
  rfl

/-- Where the table knows nothing there are no rows. -/
theorem MirrorsAt.none_under (mirrors : MirrorsAt key view what rows k) (nothing : what k = none) : under key rows k = [] := by
  rw [MirrorsAt,nothing] at mirrors
  exact List.map_eq_nil_iff.mp mirrors

/-- A row for a key that is new to the table. -/
theorem mirrorsAt_concat (nothing : under key rows (key row) = []) (shows : what (key row) = some (view row)) :
    MirrorsAt key view what (rows ++ [row]) (key row) := by
  rw [MirrorsAt,under_concat,if_pos rfl,nothing,shows]
  rfl

end
end Mirrors
