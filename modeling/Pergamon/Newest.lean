import Mathlib.Data.List.MinMax
import Mathlib.Tactic.Common

/-!
Last-writer-wins registers. A register that holds a stamp takes an entry iff the
entry's stamp is greater (`Beats`); after any sequence of entries with distinct
stamps it holds the newest of them (`newest_concat`), whatever their order
(`newest_perm`).
-/
namespace Newest

section
variable {α κ : Type*} [LinearOrder κ]

/-- A register with the stamp `slot`, if any, gives way to the stamp `k`. -/
def Beats (k : κ) (slot : Option κ) : Prop := ∀ c, slot = some c → c < k

instance (k : κ) (slot : Option κ) : Decidable (Beats k slot) :=
  match slot with
  | none => .isTrue (by simp [Beats])
  | some c => decidable_of_iff (c < k) (by simp [Beats])

@[simp] theorem beats_none (k : κ) : Beats k none := by simp [Beats]

@[simp] theorem beats_some (k c : κ) : Beats k (some c) ↔ c < k := by simp [Beats]

/-- The entry with the greatest stamp. -/
def newest (stamp : α → κ) (l : List α) : Option α := l.argmax stamp

variable {stamp : α → κ}

@[simp] theorem newest_nil : newest stamp [] = none := rfl

theorem newest_eq_none {l : List α} : newest stamp l = none ↔ l = [] := List.argmax_eq_none

theorem newest_mem {l : List α} {a : α} (top : newest stamp l = some a) : a ∈ l := List.argmax_mem top

theorem newest_le {l : List α} {a b : α} (top : newest stamp l = some a) (inside : b ∈ l) : stamp b ≤ stamp a :=
  List.le_of_mem_argmax inside top

/-- A new entry is the newest iff it beats the one before. -/
theorem newest_concat (l : List α) (a : α) :
    newest stamp (l ++ [a]) = if Beats (stamp a) ((newest stamp l).map stamp) then some a else newest stamp l := by
  unfold newest
  rw [List.argmax_concat]
  cases List.argmax stamp l <;> simp

/-- An entry that no other one reaches is the newest. -/
theorem newest_eq_some {l : List α} {a : α} (inside : a ∈ l) (above : ∀ b ∈ l, stamp b ≤ stamp a)
    (distinct : ∀ b ∈ l, stamp b = stamp a → b = a) : newest stamp l = some a := by
  cases top : newest stamp l with
  | none => rw [newest_eq_none.mp top] at inside; cases inside
  | some b =>
    have tie : stamp b = stamp a := le_antisymm (above b (newest_mem top)) (newest_le top inside)
    rw [distinct b (newest_mem top) tie]

/-- The newest of the entries above a stamp is the newest of all. -/
theorem newest_filter_above {l : List α} {a : α} {k : κ} (distinct : ∀ a ∈ l, ∀ b ∈ l, stamp a = stamp b → a = b)
    (top : newest stamp (l.filter (fun b => k < stamp b)) = some a) : newest stamp l = some a := by
  obtain ⟨inside,above⟩ := List.mem_filter.mp (newest_mem top)
  refine newest_eq_some inside ?_ (fun b other tie => distinct b other a inside tie)
  intro b other
  by_contra higher
  have passes : b ∈ l.filter (fun b => k < stamp b) :=
    List.mem_filter.mpr ⟨other,by simpa using (of_decide_eq_true above).trans (not_le.mp higher)⟩
  exact higher (newest_le top passes)

/-- The newest entry does not depend on the order of the entries. -/
theorem newest_perm {l l' : List α} (distinct : ∀ a ∈ l, ∀ b ∈ l, stamp a = stamp b → a = b) (same : l.Perm l') :
    newest stamp l = newest stamp l' := by
  cases top : newest stamp l with
  | none =>
    rw [newest_eq_none] at top
    subst top
    rw [List.nil_perm.mp same,newest_nil]
  | some a =>
    have inside := newest_mem top
    refine (newest_eq_some (same.mem_iff.mp inside) ?_ ?_).symm
    · intro b other
      exact newest_le top (same.mem_iff.mpr other)
    · intro b other tie
      exact distinct b (same.mem_iff.mpr other) a inside tie

end
end Newest
