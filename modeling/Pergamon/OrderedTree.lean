import Mathlib.Data.List.Basic
import Mathlib.Data.List.TakeWhile
import Mathlib.Tactic.Common

/-!
Forests of labelled trees, whose children stand in order, read from the front with the depth of
each label (`places`). The labels in order with their depths make up the whole forest
(`places_inj`).
-/
namespace OrderedTree

inductive Tree (α : Type) where
  | node (label : α) (children : List (Tree α))

variable {α β : Type}

def Tree.label : Tree α → α
  | .node a _ => a

def Tree.children : Tree α → List (Tree α)
  | .node _ children => children

mutual
/-- The labels of a tree whose root is at the given depth. -/
def Tree.places (d : ℕ) : Tree α → List (ℕ × α)
  | .node a children => (d,a) :: places (d + 1) children
/-- The labels of a forest, each with its depth. -/
def places (d : ℕ) : List (Tree α) → List (ℕ × α)
  | [] => []
  | t :: ts => t.places d ++ places d ts
end

@[simp] theorem places_nil (d : ℕ) : places d ([] : List (Tree α)) = [] := by rw [places]

@[simp] theorem places_cons (d : ℕ) (a : α) (children rest : List (Tree α)) :
    places d (.node a children :: rest) = (d,a) :: (places (d + 1) children ++ places d rest) := by
  rw [places,Tree.places,List.cons_append]

theorem places_append (d : ℕ) (f g : List (Tree α)) : places d (f ++ g) = places d f ++ places d g := by
  induction f with
  | nil => simp
  | cons t f ih =>
    cases t
    simp [ih]

/-- A forest is taken apart into the children of its first tree and the trees after it. -/
theorem forest_induction {motive : List (Tree α) → Prop} (nil : motive [])
    (cons : ∀ a children rest, motive children → motive rest → motive (.node a children :: rest)) (f : List (Tree α)) :
    motive f := by
  refine @Tree.rec_1 α (fun t => motive t.children) motive ?_ nil ?_ f
  · intro a children below
    exact below
  · intro t rest below after
    cases t with
    | node a children => exact cons a children rest below after

theorem depth_le {d : ℕ} {f : List (Tree α)} : ∀ p ∈ places d f, d ≤ p.1 := by
  induction f using forest_induction generalizing d with
  | nil => simp
  | cons a children rest ih ih' =>
    intro p inside
    rw [places_cons] at inside
    rcases List.mem_cons.mp inside with rfl | later
    · exact le_rfl
    · rcases List.mem_append.mp later with below | after
      · have := ih p below
        omega
      · exact ih' p after

/-- The children of a first tree end where a label is no deeper than the tree. -/
theorem takeWhile_deeper (d : ℕ) (children rest : List (Tree α)) :
    (places (d + 1) children ++ places d rest).takeWhile (fun p => d < p.1) = places (d + 1) children := by
  rw [List.takeWhile_append_of_pos (fun p inside => by have := depth_le p inside; simp; omega)]
  have ends : (places d rest).takeWhile (fun p => d < p.1) = [] := by
    cases rest with
    | nil => simp
    | cons t rest =>
      cases t
      simp
  rw [ends,List.append_nil]

/-- The labels with their depths make up the forest. -/
theorem places_inj {d : ℕ} {f g : List (Tree α)} : places d f = places d g ↔ f = g := by
  refine ⟨fun same => ?_,congrArg _⟩
  induction f using forest_induction generalizing d g with
  | nil =>
    cases g with
    | nil => rfl
    | cons t g =>
      cases t
      simp at same
  | cons a children rest ih ih' =>
    cases g with
    | nil => simp at same
    | cons t g =>
      obtain ⟨b,children'⟩ := t
      rw [places_cons,places_cons] at same
      obtain ⟨first,more⟩ := List.cons.inj same
      have below : places (d + 1) children = places (d + 1) children' := by
        rw [← takeWhile_deeper d children rest,more,takeWhile_deeper]
      rw [below,List.append_cancel_left_eq] at more
      rw [(Prod.mk.inj first).2,ih below,ih' more]

/-! ### Other labels -/

mutual
/-- A tree with other labels. -/
def Tree.relabel (f : α → β) : Tree α → Tree β
  | .node a children => .node (f a) (relabel f children)
/-- A forest with other labels. -/
def relabel (f : α → β) : List (Tree α) → List (Tree β)
  | [] => []
  | t :: ts => t.relabel f :: relabel f ts
end

@[simp] theorem relabel_nil (f : α → β) : relabel f ([] : List (Tree α)) = [] := by rw [relabel]

@[simp] theorem relabel_cons (f : α → β) (a : α) (children rest : List (Tree α)) :
    relabel f (.node a children :: rest) = .node (f a) (relabel f children) :: relabel f rest := by
  rw [relabel,Tree.relabel]

/-- The labels of a forest. -/
def labels (f : List (Tree α)) : List α := (places 0 f).map Prod.snd

theorem labels_depth (d : ℕ) (f : List (Tree α)) : (places d f).map Prod.snd = labels f := by
  have any (d e : ℕ) : (places d f).map Prod.snd = (places e f).map Prod.snd := by
    induction f using forest_induction generalizing d e with
    | nil => simp
    | cons a children rest ih ih' => simp [ih (d + 1) (e + 1),ih' d e]
  exact any d 0

@[simp] theorem labels_cons (a : α) (children rest : List (Tree α)) :
    labels (.node a children :: rest) = a :: (labels children ++ labels rest) := by
  rw [labels,places_cons,List.map_cons,List.map_append,labels_depth,labels_depth]

/-! ### Leaves -/

mutual
/-- The trees whose labels satisfy the predicate have no children. -/
def Tree.LeavesAt (P : α → Prop) : Tree α → Prop
  | .node a children => (P a → children = []) ∧ LeavesAt P children
def LeavesAt (P : α → Prop) : List (Tree α) → Prop
  | [] => True
  | t :: ts => t.LeavesAt P ∧ LeavesAt P ts
end

theorem leavesAt_cons {P : α → Prop} {a : α} {children rest : List (Tree α)} :
    LeavesAt P (.node a children :: rest) ↔ (P a → children = []) ∧ LeavesAt P children ∧ LeavesAt P rest := by
  rw [LeavesAt,Tree.LeavesAt,and_assoc]

end OrderedTree
