import Mathlib.Data.List.Basic
import Mathlib.Tactic.Common

/-!
Runs of a machine as lists of its calls. A property of the single calls, each with the
state before it, holds along a run (`Along`); it is found from what one call preserves
while it meets a condition (`Along.of_keeps`). What a machine has done may be kept as a
list that grows at its end, where each act is allowed by those before it (`Justified`).
-/
namespace Runs

section
variable {σ α : Type*} {step : σ → α → σ}

/-- This holds of each call of a run and of the state before it. -/
def Along (step : σ → α → σ) (holds : σ → α → Prop) : σ → List α → Prop
  | _,[] => True
  | s,a :: calls => holds s a ∧ Along step holds (step s a) calls

instance decidable_along {holds : σ → α → Prop} [∀ s a, Decidable (holds s a)] (s : σ) (calls : List α) :
    Decidable (Along step holds s calls) :=
  match calls with
  | [] => .isTrue trivial
  | a :: rest => @instDecidableAnd _ _ _ (decidable_along (step s a) rest)

theorem along_append {holds : σ → α → Prop} {s : σ} {first rest : List α} :
    Along step holds s (first ++ rest) ↔ Along step holds s first ∧ Along step holds (first.foldl step s) rest := by
  induction first generalizing s with
  | nil => simp [Along]
  | cons a first ih => simp [Along,ih,and_assoc]

/-- An invariant of the state and of the calls that are left, which a call preserves while
    it meets a condition, and with which each call has a property. -/
theorem Along.of_keeps (inv : σ → List α → Prop) {meets holds : σ → α → Prop}
    (keeps : ∀ s a rest, inv s (a :: rest) → meets s a → holds s a ∧ inv (step s a) rest) {s : σ} {calls : List α}
    (start : inv s calls) (all : Along step meets s calls) : Along step holds s calls := by
  induction calls generalizing s with
  | nil => trivial
  | cons a calls ih =>
    obtain ⟨here,next⟩ := keeps s a calls start all.1
    exact ⟨here,ih next all.2⟩

theorem Along.and {first second : σ → α → Prop} {s : σ} {calls : List α} (all : Along step first s calls)
    (all' : Along step second s calls) : Along step (fun s a => first s a ∧ second s a) s calls := by
  induction calls generalizing s with
  | nil => trivial
  | cons a calls ih => exact ⟨⟨all.1,all'.1⟩,ih all.2 all'.2⟩

end

section
variable {α : Type*} {allowed : List α → α → Prop} {acts : List α} {a : α}

/-- Each act of a list is allowed by the acts before it. -/
def Justified (allowed : List α → α → Prop) (acts : List α) : Prop :=
  ∀ before a after, acts = before ++ a :: after → allowed before a

theorem Justified.nil : Justified allowed [] := by
  intro before a after split
  simp at split

theorem Justified.concat (all : Justified allowed acts) (last : allowed acts a) : Justified allowed (acts ++ [a]) := by
  intro before b after split
  rcases List.eq_nil_or_concat after with rfl | ⟨rest,c,rfl⟩
  · obtain ⟨rfl,same⟩ := List.append_inj' split rfl
    rwa [← (List.cons.inj same).1]
  · rw [List.concat_eq_append,← List.cons_append,← List.append_assoc] at split
    exact all before b rest (List.append_inj' split rfl).1

end
end Runs
