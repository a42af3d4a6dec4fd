import Mathlib.Data.Set.Card
import Mathlib.Logic.Relation
import Mathlib.Tactic.Common

/-!
Forests given by parents. A node has at most one parent, and a forest is where no node is an
ancestor of itself. Taking parents away keeps a forest, and so does giving a node a parent
that is neither the node nor below it (`Forest.of_moved`). Where finitely many nodes have a
parent, climbing from a node in a forest comes to an end (`Forest.climbs`), and it never does
where all nodes above it have a parent and none is the goal (`climb_forever`).
-/
namespace Parents

section
variable {α : Type*} {parent parent' : α → Option α} {a b goal : α}

/-- One step up. -/
def Up (parent : α → Option α) (a b : α) : Prop := parent a = some b

/-- The first node is the second or below it. -/
def Within (parent : α → Option α) : α → α → Prop := Relation.ReflTransGen (Up parent)

/-- No node is below itself. -/
def Forest (parent : α → Option α) : Prop := ∀ a, ¬ Relation.TransGen (Up parent) a a

theorem forest_none : Forest (fun _ : α => none) := by
  intro a below
  obtain ⟨b,step,-⟩ := Relation.TransGen.head'_iff.mp below
  cases step

/-- A forest where some nodes have lost their parents. -/
theorem Forest.of_fewer (forest : Forest parent) (fewer : ∀ a b, parent' a = some b → parent a = some b) : Forest parent' :=
  fun a below => forest a (Relation.TransGen.mono fewer _ _ below)

/-- Nodes other than one keep their parents or lose them, and that one keeps its own, loses it
    or gets one that is not within it. -/
theorem Forest.of_moved (forest : Forest parent) {moved : α} (others : ∀ a, a ≠ moved → ∀ b, parent' a = some b → parent a = some b)
    (new : ∀ b, parent' moved = some b → parent moved = some b ∨ ¬ Within parent b moved) : Forest parent' := by
  classical
  by_cases same : ∀ b, parent' moved = some b → parent moved = some b
  · refine forest.of_fewer (fun a b step => ?_)
    by_cases here : a = moved
    · subst here
      exact same b step
    · exact others a here b step
  -- the moved node has a parent from which the old steps do not lead to it
  push Not at same
  obtain ⟨top,given,other⟩ := same
  have apart : ¬ Within parent top moved := (new top given).resolve_left other
  -- above the new parent nothing has been moved
  have above {c : α} (up : Relation.ReflTransGen (Up parent') top c) : Within parent top c := by
    induction up with
    | refl => exact .refl
    | @tail c d _ step ih =>
      by_cases here : c = moved
      · subst here
        exact absurd ih apart
      · exact ih.tail (others c here d step)
  -- so the moved node is not below itself
  have clear : ¬ Relation.TransGen (Up parent') moved moved := by
    intro below
    obtain ⟨c,step,rest⟩ := Relation.TransGen.head'_iff.mp below
    obtain rfl : top = c := Option.some.inj (given.symm.trans step)
    exact apart (above rest)
  -- and a way from a node back to itself does not pass by it
  intro a below
  have old {c : α} (up : Relation.TransGen (Up parent') a c) :
      Relation.TransGen (Up parent) a c ∨ Relation.ReflTransGen (Up parent') a moved ∧ Relation.TransGen (Up parent') moved c := by
    induction up with
    | @single c step =>
      by_cases here : a = moved
      · subst here
        exact .inr ⟨.refl,.single step⟩
      · exact .inl (.single (others a here c step))
    | @tail c d up step ih =>
      rcases ih with kept | ⟨reaches,leaves⟩
      · by_cases here : c = moved
        · subst here
          exact .inr ⟨up.to_reflTransGen,.single step⟩
        · exact .inl (kept.tail (others c here d step))
      · exact .inr ⟨reaches,leaves.tail step⟩
  rcases old below with kept | ⟨reaches,leaves⟩
  · exact forest a kept
  · exact clear (leaves.trans_left reaches)

/-! ### Climbing -/

section
variable [DecidableEq α]

/-- Climb from a node until the goal is a parent (`true`) or there is none (`false`); `none`
    while the climb goes on. -/
def climb (parent : α → Option α) (goal : α) : ℕ → α → Option Bool
  | 0,_ => none
  | n + 1,a =>
    match parent a with
    | some b => if b = goal then some true else climb parent goal n b
    | none => some false

theorem climb_missed {n : ℕ} (missed : climb parent goal n a = some false) : ¬ Relation.TransGen (Up parent) a goal := by
  induction n generalizing a with
  | zero => cases missed
  | succ n ih =>
    unfold climb at missed
    split at missed
    · next b step =>
      split at missed
      · cases missed
      · next apart =>
        intro below
        obtain ⟨c,step',rest⟩ := Relation.TransGen.head'_iff.mp below
        obtain rfl : b = c := Option.some.inj (step.symm.trans step')
        rcases Relation.reflTransGen_iff_eq_or_transGen.mp rest with same | above
        · exact apart same.symm
        · exact ih missed above
    · next root =>
      intro below
      obtain ⟨c,step,-⟩ := Relation.TransGen.head'_iff.mp below
      cases root.symm.trans step

/-- Where every node of a set has a parent in the set, and the goal is not in it. -/
theorem climb_forever {nodes : Set α} (closed : ∀ a ∈ nodes, ∃ b ∈ nodes, parent a = some b) (apart : goal ∉ nodes)
    (here : a ∈ nodes) (n : ℕ) : climb parent goal n a = none := by
  induction n generalizing a with
  | zero => rfl
  | succ n ih =>
    obtain ⟨b,inside,step⟩ := closed a here
    have other : b ≠ goal := fun same => apart (same ▸ inside)
    rw [climb,step]
    simp only [if_neg other]
    exact ih inside

/-- A climb in a forest where finitely many nodes have a parent comes to an end. -/
theorem Forest.climbs (forest : Forest parent) (finite : {a | parent a ≠ none}.Finite) (goal a : α) :
    ∃ n found, climb parent goal n a = some found := by
  -- the nodes above a node are fewer than those above a node below it
  have above_finite (a : α) : {b | Relation.TransGen (Up parent) a b}.Finite := by
    refine (finite.image (fun a => (parent a).getD a)).subset (fun b above => ?_)
    obtain ⟨c,-,step⟩ := Relation.TransGen.tail'_iff.mp above
    have held : parent c = some b := step
    exact ⟨c,by simp [held],by simp [held]⟩
  induction count : {b | Relation.TransGen (Up parent) a b}.ncard using Nat.strong_induction_on generalizing a with
  | _ size ih =>
    cases step : parent a with
    | none => exact ⟨1,false,by simp [climb,step]⟩
    | some b =>
      by_cases here : b = goal
      · exact ⟨1,true,by simp [climb,step,here]⟩
      · have fewer : {c | Relation.TransGen (Up parent) b c}.ncard < size := by
          rw [← count]
          refine Set.ncard_lt_ncard ?_ (above_finite a)
          refine ⟨fun c above => .head step above,fun all => forest b ?_⟩
          exact all (show Relation.TransGen (Up parent) a b from .single step)
        obtain ⟨n,found,climbed⟩ := ih _ fewer b rfl
        exact ⟨n + 1,found,by rw [climb,step]; simpa [here] using climbed⟩

end
end
end Parents
