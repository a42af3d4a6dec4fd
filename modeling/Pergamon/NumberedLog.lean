import Mathlib.Data.List.Range
import Mathlib.Data.List.Basic
import Mathlib.Tactic.Common

/-!
Logs whose entries are numbered 1, 2, … in the order of the list, and reading them
page by page. The entries after a number are what is left once that many are dropped
(`after_eq_drop`), so a reader that goes on from the last number it saw gets the next
entries (`take_page`) and knows how many it has (`foldl_max_page`).
-/
namespace NumberedLog

section
variable {α : Type*} {seq : α → ℕ}

/-- The entries are numbered from 1 on. -/
def Numbered (seq : α → ℕ) (l : List α) : Prop := l.map seq = List.range' 1 l.length

theorem numbered_nil : Numbered seq [] := rfl

theorem numbered_concat {l : List α} {a : α} (numbered : Numbered seq l) (next : seq a = l.length + 1) :
    Numbered seq (l ++ [a]) := by
  unfold Numbered at *
  rw [List.map_append,numbered,List.length_append,List.length_singleton,List.range'_concat]
  simp [next,Nat.add_comm]

theorem seq_getElem {l : List α} (numbered : Numbered seq l) {i : ℕ} (inside : i < l.length) : seq l[i] = i + 1 := by
  have same : (l.map seq)[i]? = (List.range' 1 l.length)[i]? := congrArg (·[i]?) numbered
  simp [inside] at same
  omega

/-- Each number up to the length is that of an entry. -/
theorem exists_seq {l : List α} (numbered : Numbered seq l) {n : ℕ} (positive : 0 < n) (inside : n ≤ l.length) :
    ∃ a ∈ l, seq a = n :=
  ⟨l[n - 1],List.getElem_mem _,by rw [seq_getElem numbered]; omega⟩

theorem seq_le {l : List α} (numbered : Numbered seq l) {a : α} (inside : a ∈ l) : seq a ≤ l.length := by
  obtain ⟨i,bound,rfl⟩ := List.getElem_of_mem inside
  rw [seq_getElem numbered bound]
  omega

theorem seq_sorted {l : List α} (numbered : Numbered seq l) : l.Pairwise (fun a b => seq a < seq b) := by
  rw [← List.pairwise_map,numbered]
  exact List.pairwise_lt_range'

private theorem filter_after {l : List α} {s : ℕ} (numbered : l.map seq = List.range' (s + 1) l.length) (c : ℕ) :
    l.filter (fun a => c < seq a) = l.drop (c - s) := by
  induction l generalizing s with
  | nil => simp
  | cons a l ih =>
    rw [List.map_cons,List.length_cons,List.range'_succ,List.cons.injEq] at numbered
    obtain ⟨first,rest⟩ := numbered
    by_cases after : c < seq a
    · rw [List.filter_cons_of_pos (by simpa using after),ih rest,show c - s = 0 by omega,
        show c - (s + 1) = 0 by omega]
      rfl
    · rw [List.filter_cons_of_neg (by simpa using after),ih rest,show c - s = (c - (s + 1)) + 1 by omega]
      rfl

/-- The entries after a number. -/
theorem after_eq_drop {l : List α} (numbered : Numbered seq l) (c : ℕ) :
    l.filter (fun a => c < seq a) = l.drop c :=
  filter_after (s := 0) numbered c

/-- A page of at most `k` entries after the first `c`. -/
def page (l : List α) (c k : ℕ) : List α := (l.drop c).take k

theorem take_page (l : List α) (c k : ℕ) : l.take c ++ page l c k = l.take (c + k) := (List.take_add).symm

theorem length_page (l : List α) (c k : ℕ) : (page l c k).length = min k (l.length - c) := by
  simp [page]

theorem page_numbers {l : List α} (numbered : Numbered seq l) (c k : ℕ) :
    (page l c k).map seq = List.range' (c + 1) (page l c k).length := by
  rw [length_page,page,List.map_take,List.map_drop,numbered,List.drop_range',Nat.mul_one,Nat.add_comm 1 c]
  rcases Nat.le_total k (l.length - c) with short | long
  · rw [List.take_range'_of_length_ge short,min_eq_left short]
  · rw [List.take_range'_of_length_le long,min_eq_right long]

private theorem foldl_max_range {l : List α} {c : ℕ} (numbers : l.map seq = List.range' (c + 1) l.length) :
    l.foldl (fun m a => max m (seq a)) c = c + l.length := by
  induction l generalizing c with
  | nil => rfl
  | cons a l ih =>
    rw [List.map_cons,List.length_cons,List.range'_succ,List.cons.injEq] at numbers
    obtain ⟨first,rest⟩ := numbers
    rw [List.foldl_cons,first,max_eq_right (by omega),ih rest,List.length_cons]
    omega

/-- The greatest number of a page and of the cursor before it. -/
theorem foldl_max_page {l : List α} (numbered : Numbered seq l) (c k : ℕ) :
    (page l c k).foldl (fun m a => max m (seq a)) c = c + (page l c k).length :=
  foldl_max_range (page_numbers numbered c k)

/-- The greatest number of a log is its length. -/
theorem foldl_max {l : List α} (numbered : Numbered seq l) : l.foldl (fun m a => max m (seq a)) 0 = l.length := by
  have whole := foldl_max_page numbered 0 l.length
  simpa [page] using whole

end
end NumberedLog
