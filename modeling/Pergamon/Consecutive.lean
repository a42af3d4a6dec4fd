import Mathlib.Data.Finset.Lattice.Fold
import Mathlib.Data.Finset.Max
import Mathlib.Order.Interval.Finset.Nat
import Mathlib.Order.Lattice.Nat
import Mathlib.Tactic.Common

/-!
Runs of consecutive numbers in a finite set: the length of the run that ends at a number (`run`),
and of the longest one (`longest`). Scans of a sorted list find both: forward for the longest run
(`longest_of_scan`), and back from the last number for the run that ends there (`run_of_back`).
-/
namespace Consecutive

variable {S : Finset ℤ} {n : ℤ} {k : ℕ}

theorem countdown_injective (n : ℤ) : Function.Injective (fun k : ℕ => n - k) := by
  intro a b same
  have equal : (a : ℤ) = b := by simpa using same
  exact_mod_cast equal

theorem exists_gap (S : Finset ℤ) (n : ℤ) : ∃ k : ℕ, n - k ∉ S := by
  by_contra all
  push Not at all
  exact Set.infinite_of_injective_forall_mem (countdown_injective n) all S.finite_toSet

/-- The length of the run of consecutive numbers that ends at a number. -/
def run (S : Finset ℤ) (n : ℤ) : ℕ := Nat.find (exists_gap S n)

/-- The length of the longest run of consecutive numbers. -/
def longest (S : Finset ℤ) : ℕ := S.sup (run S)

theorem run_eq_iff : run S n = k ↔ (∀ i : ℕ, i < k → n - i ∈ S) ∧ n - k ∉ S := by
  rw [run,Nat.find_eq_iff,and_comm]
  simp

theorem run_of_notMem (outside : n ∉ S) : run S n = 0 := by
  rw [run_eq_iff]
  simpa using outside

theorem run_of_mem (inside : n ∈ S) : run S n = run S (n - 1) + 1 := by
  obtain ⟨all,gap⟩ := run_eq_iff.mp (rfl : run S (n - 1) = run S (n - 1))
  rw [run_eq_iff]
  refine ⟨?_,?_⟩
  · intro i below
    cases i with
    | zero => simpa using inside
    | succ i =>
      have := all i (by omega)
      rwa [sub_sub,add_comm] at this
  · rw [sub_sub,add_comm] at gap
    exact_mod_cast gap

theorem run_pos (inside : n ∈ S) : 0 < run S n := by
  rw [run_of_mem inside]
  omega

theorem run_le_longest (S : Finset ℤ) (n : ℤ) : run S n ≤ longest S := by
  by_cases inside : n ∈ S
  · exact Finset.le_sup inside
  · rw [run_of_notMem inside]
    exact Nat.zero_le _

theorem run_le_card (S : Finset ℤ) (n : ℤ) : run S n ≤ S.card := by
  have all := (run_eq_iff.mp (rfl : run S n = run S n)).1
  have image : (Finset.range (run S n)).image (fun i : ℕ => n - i) ⊆ S := by
    intro m inside
    obtain ⟨i,below,rfl⟩ := Finset.mem_image.mp inside
    exact all i (Finset.mem_range.mp below)
  have size := Finset.card_le_card image
  rwa [Finset.card_image_of_injective _ (countdown_injective n),Finset.card_range] at size

/-! ### Scans -/

/-- Neighbours of a sorted list from the front, with the longest run so far and the one that ends
    here. -/
def scan : ℕ → ℕ → List ℤ → ℕ
  | longest,current,a :: b :: rest =>
    if b - a = 1 then scan (if longest < current + 1 then current + 1 else longest) (current + 1) (b :: rest)
    else scan longest 1 (b :: rest)
  | longest,_,_ => longest

theorem scan_eq {longest current : ℕ} {a : ℤ} {rest : List ℤ} (sorted : (a :: rest).Pairwise (· < ·))
    (later : ∀ n, a ≤ n → (n ∈ S ↔ n ∈ a :: rest)) (here : current = run S a)
    (best : longest = (S.filter (· ≤ a)).sup (run S)) : scan longest current (a :: rest) = Consecutive.longest S := by
  induction rest generalizing longest current a with
  | nil =>
    have whole : S.filter (· ≤ a) = S := by
      refine Finset.filter_true_of_mem ?_
      intro n inside
      by_contra beyond
      have := (later n (by omega)).mp inside
      simp only [List.mem_singleton] at this
      omega
    rw [scan,best,whole,Consecutive.longest]
    rintro _ _ _ ⟨⟩
  | cons b rest ih =>
    obtain ⟨before,sorted'⟩ := List.pairwise_cons.mp sorted
    have less : a < b := before b List.mem_cons_self
    have first : a ∈ S := (later a le_rfl).mpr List.mem_cons_self
    have next : b ∈ S := (later b less.le).mpr (by simp)
    have between : ∀ n, a < n → n < b → n ∉ S := by
      intro n after short inside
      rcases List.mem_cons.mp ((later n after.le).mp inside) with rfl | inside
      · exact lt_irrefl _ after
      · rcases List.mem_cons.mp inside with rfl | inside
        · exact lt_irrefl _ short
        · exact absurd (List.rel_of_pairwise_cons sorted' inside) (not_lt.mpr short.le)
    have later' : ∀ n, b ≤ n → (n ∈ S ↔ n ∈ b :: rest) := by
      intro n beyond
      rw [later n (by omega),List.mem_cons]
      have : n ≠ a := by omega
      simp [this]
    have upto : S.filter (· ≤ b) = insert b (S.filter (· ≤ a)) := by
      ext n
      simp only [Finset.mem_filter,Finset.mem_insert]
      constructor
      · rintro ⟨inside,below⟩
        by_cases short : n ≤ a
        · exact Or.inr ⟨inside,short⟩
        · by_cases last : n = b
          · exact Or.inl last
          · exact absurd inside (between n (by omega) (by omega))
      · rintro (rfl | ⟨inside,below⟩)
        · exact ⟨next,le_rfl⟩
        · exact ⟨inside,by omega⟩
    have most : run S a ≤ longest := by
      rw [best]
      exact Finset.le_sup (f := run S) (by simpa using first)
    rw [scan]
    split_ifs with near more
    · have step : run S b = current + 1 := by
        rw [run_of_mem next,here,show b - 1 = a by omega]
      refine ih sorted' later' step.symm ?_
      rw [upto,Finset.sup_insert,← best,step]
      exact (max_eq_left more.le).symm
    · have step : run S b = current + 1 := by
        rw [run_of_mem next,here,show b - 1 = a by omega]
      refine ih sorted' later' step.symm ?_
      rw [upto,Finset.sup_insert,← best,step]
      exact (max_eq_right (by omega)).symm
    · have step : run S b = 1 := by
        rw [run_of_mem next,run_of_notMem (between _ (by omega) (by omega))]
      refine ih sorted' later' step.symm ?_
      have := run_pos first
      rw [upto,Finset.sup_insert,← best,step]
      exact (max_eq_right (by omega)).symm

/-- A scan of the sorted numbers finds the longest run. -/
theorem longest_of_scan {a : ℤ} {rest : List ℤ} (sorted : (a :: rest).Pairwise (· < ·)) (all : ∀ n, n ∈ S ↔ n ∈ a :: rest) :
    scan 1 1 (a :: rest) = longest S := by
  have least : ∀ n ∈ S, a ≤ n := by
    intro n inside
    rcases List.mem_cons.mp ((all n).mp inside) with rfl | later
    · exact le_rfl
    · exact (List.rel_of_pairwise_cons sorted later).le
  have first : run S a = 1 := by
    have before : a - 1 ∉ S := by
      intro inside
      have := least _ inside
      omega
    rw [run_of_mem ((all a).mpr List.mem_cons_self),run_of_notMem before]
  refine scan_eq sorted (fun n _ => all n) first.symm ?_
  have only : S.filter (· ≤ a) = {a} := by
    ext n
    simp only [Finset.mem_filter,Finset.mem_singleton]
    constructor
    · rintro ⟨inside,below⟩
      have := least n inside
      omega
    · rintro rfl
      exact ⟨(all n).mpr List.mem_cons_self,le_rfl⟩
  rw [only,Finset.sup_singleton,first]

/-- The numbers of a falling list that follow one another down from a number. -/
def back (prev : ℤ) : List ℤ → ℕ
  | [] => 0
  | n :: rest => if prev - n = 1 then back n rest + 1 else 0

/-- Going back from the last number finds the run that ends there. -/
theorem run_of_back {last : ℤ} {rest : List ℤ} (sorted : (last :: rest).Pairwise (· > ·))
    (all : ∀ n, n ≤ last → (n ∈ S ↔ n ∈ last :: rest)) : run S last = back last rest + 1 := by
  induction rest generalizing last with
  | nil =>
    have before : last - 1 ∉ S := by
      rw [all _ (by omega)]
      simp
    rw [run_of_mem ((all last le_rfl).mpr List.mem_cons_self),run_of_notMem before,back]
  | cons n rest ih =>
    obtain ⟨after,sorted'⟩ := List.pairwise_cons.mp sorted
    have less : n < last := after n List.mem_cons_self
    have all' : ∀ m, m ≤ n → (m ∈ S ↔ m ∈ n :: rest) := by
      intro m below
      rw [all m (by omega),List.mem_cons]
      have : m ≠ last := by omega
      simp [this]
    rw [run_of_mem ((all last le_rfl).mpr List.mem_cons_self),back]
    split_ifs with near
    · rw [show last - 1 = n by omega,ih sorted' all']
    · have gap : last - 1 ∉ S := by
        intro inside
        rcases List.mem_cons.mp ((all _ (by omega)).mp inside) with same | later
        · omega
        · rcases List.mem_cons.mp later with same | later
          · omega
          · have := List.rel_of_pairwise_cons sorted' later
            omega
      rw [run_of_notMem gap]

end Consecutive
