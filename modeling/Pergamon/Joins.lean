import Mathlib.Data.List.Basic
import Mathlib.Data.List.Nodup
import Mathlib.Tactic.Common

/-!
Joins of lists, row by row. Where the condition leaves each row of the left list at most one row
of the right one, as an equation with a unique key does, a join is a map.
-/
namespace Joins

section
variable {α β κ : Type*}

/-- All rows of the left list, each with those of the right list that fit, or with none. -/
def left_join (on : α → β → Bool) (l : List α) (r : List β) : List (α × Option β) :=
  l.flatMap (fun a =>
    match r.filter (on a) with
    | [] => [(a,none)]
    | b :: bs => (b :: bs).map (fun b => (a,some b)))

/-- The pairs of rows that fit. -/
def join (on : α → β → Bool) (l : List α) (r : List β) : List (α × β) :=
  l.flatMap (fun a => (r.filter (on a)).map (fun b => (a,b)))

/-- At most one row of a list with unique keys has a given key. -/
theorem filter_key [DecidableEq κ] {key : β → κ} {r : List β} (unique : (r.map key).Nodup) (k : κ) :
    r.filter (fun b => key b = k) = (r.find? (fun b => key b = k)).toList := by
  induction r with
  | nil => rfl
  | cons b r ih =>
    obtain ⟨apart,unique⟩ := List.nodup_cons.mp unique
    by_cases here : key b = k
    · have none_later : r.filter (fun b => key b = k) = [] := by
        refine List.filter_eq_nil_iff.mpr (fun c later same => apart ?_)
        rw [here,← of_decide_eq_true same]
        exact List.mem_map_of_mem later
      rw [List.filter_cons_of_pos (by simpa using here),none_later,List.find?_cons_of_pos (by simpa using here)]
      rfl
    · rw [List.filter_cons_of_neg (by simpa using here),List.find?_cons_of_neg (by simpa using here)]
      exact ih unique

theorem left_join_map {on : α → β → Bool} {l : List α} {r : List β} (one : ∀ a, r.filter (on a) = (r.find? (on a)).toList) :
    left_join on l r = l.map (fun a => (a,r.find? (on a))) := by
  unfold left_join
  induction l with
  | nil => rfl
  | cons a l ih =>
    rw [List.flatMap_cons,List.map_cons,ih,one a]
    cases r.find? (on a) <;> rfl

/-- The rows of the left list that a condition leaves of a join with at most one fitting row. -/
theorem join_select {on : α → β → Bool} {l : List α} {r : List β} (one : ∀ a ∈ l, (r.filter (on a)).length ≤ 1) (p : α → β → Bool) :
    ((join on l r).filter (fun x => p x.1 x.2)).map Prod.fst = l.filter (fun a => (r.filter (on a)).any (p a)) := by
  unfold join
  induction l with
  | nil => rfl
  | cons a l ih =>
    rw [List.flatMap_cons,List.filter_append,List.map_append,ih (fun b later => one b (.tail _ later))]
    match fits : r.filter (on a),one a (.head _) with
    | [],_ => rw [List.filter_cons_of_neg (by simp [fits])]; rfl
    | [b],_ =>
      cases holds : p a b with
      | true => rw [List.filter_cons_of_pos (by simp [fits,holds])]; simp [holds]
      | false => rw [List.filter_cons_of_neg (by simp [fits,holds])]; simp [holds]

end
end Joins
