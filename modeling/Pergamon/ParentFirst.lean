import Mathlib.Data.List.Nodup
import Mathlib.Data.List.Infix
import Mathlib.Data.List.Perm.Subperm
import Mathlib.Data.Set.Card
import Mathlib.Logic.Relation
import Mathlib.Tactic.Common

/-!
Putting the nodes of a forest in an order in which each one comes after its parent. The
nodes are gone through again and again, and each time those are placed whose parent is
placed already or is no node at all; what is left when nothing moves any more is appended
as it is. The placed nodes are the ones whose chain of parents ends (`mem_placed`), which are
those that are not on or below a cycle (`rooted_of_not_circular`), so the order is parent first up to what
a cycle holds back (`orderOf_parent_first`).
-/
namespace ParentFirst

section
variable {α : Type*} [DecidableEq α] {ids order : List α} {nodes : List (α × Option α)} {a b : α}

/-- The parent is no node, or placed already. -/
def ready (ids order : List α) (parent : Option α) : Bool :=
  match parent with
  | none => true
  | some p => decide (p ∉ ids) || decide (p ∈ order)

def step (ids order : List α) (node : α × Option α) : List α :=
  if node.1 ∈ order then order
  else if ready ids order node.2 then order ++ [node.1]
  else order

/-- Go through the nodes once. -/
def pass (ids : List α) (nodes : List (α × Option α)) (order : List α) : List α := nodes.foldl (step ids) order

/-- Go through the nodes until nothing moves. Each pass that moves something places a
    node, so as many passes as there are nodes are enough (`pass_placed`). -/
def place (ids : List α) (nodes : List (α × Option α)) : ℕ → List α → List α
  | 0,order => order
  | passes + 1,order =>
    let next := pass ids nodes order
    if next.length = order.length then order else place ids nodes passes next

def placed (nodes : List (α × Option α)) : List α := place (nodes.map Prod.fst) nodes nodes.length []

/-- The placed nodes, then the others. -/
def orderOf (nodes : List (α × Option α)) : List α :=
  placed nodes ++ (nodes.map Prod.fst).filter (fun a => decide (a ∉ placed nodes))

/-- The chain of parents ends. -/
inductive Rooted (nodes : List (α × Option α)) : α → Prop where
  | root {a : α} {parent : Option α} (node : (a,parent) ∈ nodes)
      (outside : ∀ b, parent = some b → b ∉ nodes.map Prod.fst) : Rooted nodes a
  | child {a b : α} (node : (a,some b) ∈ nodes) (above : Rooted nodes b) : Rooted nodes a

/-! ### Passes -/

/-- What the passes keep: an order of nodes without repetition, each one rooted and after
    its parent. -/
structure Placing (nodes : List (α × Option α)) (order : List α) : Prop where
  distinct : order.Nodup
  inside : order ⊆ nodes.map Prod.fst
  rooted : ∀ a ∈ order, Rooted nodes a
  after : ∀ a ∈ order, ∃ parent, (a,parent) ∈ nodes ∧
    ∀ b, parent = some b → b ∈ nodes.map Prod.fst → [b,a].Sublist order

omit [DecidableEq α] in
theorem Placing.nil : Placing nodes [] := ⟨List.nodup_nil,by simp,by simp,by simp⟩

theorem prefix_step (node : α × Option α) : order <+: step ids order node := by
  unfold step
  split
  · exact List.prefix_rfl
  · split
    · exact List.prefix_append _ _
    · exact List.prefix_rfl

theorem Placing.step (placing : Placing nodes order) {node : α × Option α} (inside : node ∈ nodes) :
    Placing nodes (step (nodes.map Prod.fst) order node) := by
  obtain ⟨a,parent⟩ := node
  unfold ParentFirst.step
  split
  · exact placing
  next new =>
  split
  swap
  · exact placing
  next free =>
  have above : ∀ b, parent = some b → b ∈ nodes.map Prod.fst → b ∈ order := by
    rintro b rfl node
    simpa [ready,node] using free
  refine ⟨?_,?_,?_,?_⟩
  · refine List.nodup_append.mpr ⟨placing.distinct,List.nodup_singleton a,?_⟩
    rintro b there _ (_ | ⟨_,⟨⟩⟩) rfl
    exact new there
  · intro b there
    rcases List.mem_append.mp there with there | there
    · exact placing.inside there
    · rw [List.mem_singleton.mp there]
      exact List.mem_map.mpr ⟨_,inside,rfl⟩
  · intro b there
    rcases List.mem_append.mp there with there | there
    · exact placing.rooted b there
    · rw [List.mem_singleton.mp there]
      by_cases outside : ∀ b, parent = some b → b ∉ nodes.map Prod.fst
      · exact .root inside outside
      · push Not at outside
        obtain ⟨b,rfl,node⟩ := outside
        exact .child inside (placing.rooted b (above b rfl node))
  · intro b there
    rcases List.mem_append.mp there with there | there
    · obtain ⟨parent',node,earlier⟩ := placing.after b there
      exact ⟨parent',node,fun c same held => (earlier c same held).trans (List.sublist_append_left _ _)⟩
    · rw [List.mem_singleton.mp there]
      refine ⟨parent,inside,fun c same held => ?_⟩
      exact (List.singleton_sublist.mpr (above c same held)).append (List.Sublist.refl [a])

theorem prefix_foldl (l : List (α × Option α)) : order <+: l.foldl (step ids) order := by
  induction l generalizing order with
  | nil => exact List.prefix_rfl
  | cons node l ih => exact (prefix_step node).trans ih

theorem Placing.pass (placing : Placing nodes order) : Placing nodes (pass (nodes.map Prod.fst) nodes order) := by
  have run (l : List (α × Option α)) (inside : l ⊆ nodes) {order : List α} (placing : Placing nodes order) :
      Placing nodes (l.foldl (ParentFirst.step (nodes.map Prod.fst)) order) := by
    induction l generalizing order with
    | nil => exact placing
    | cons node l ih =>
      exact ih (fun other there => inside (.tail _ there)) (placing.step (inside (.head _)))
  exact run nodes (fun _ there => there) placing

/-- A pass that leaves the order leaves it at each node. -/
theorem step_of_pass {l : List (α × Option α)} (still : l.foldl (step ids) order = order) {node : α × Option α}
    (inside : node ∈ l) : step ids order node = order := by
  induction l with
  | nil => cases inside
  | cons first l ih =>
    rw [List.foldl_cons] at still
    have here : step ids order first = order := by
      have onward : step ids order first <+: order := by
        have rest : step ids order first <+: l.foldl (step ids) (step ids order first) := prefix_foldl l
        rwa [still] at rest
      exact onward.eq_of_length_le (prefix_step first).length_le
    rcases List.mem_cons.mp inside with rfl | there
    · exact here
    · rw [here] at still
      exact ih still there

/-- Passes enough bring the order to rest. -/
theorem Placing.place (passes : ℕ) (placing : Placing nodes order) (enough : nodes.length ≤ passes + order.length) :
    Placing nodes (place (nodes.map Prod.fst) nodes passes order) ∧
      ParentFirst.pass (nodes.map Prod.fst) nodes (place (nodes.map Prod.fst) nodes passes order) =
        place (nodes.map Prod.fst) nodes passes order := by
  have grows : order.length ≤ (ParentFirst.pass (nodes.map Prod.fst) nodes order).length :=
    (prefix_foldl nodes).length_le
  induction passes generalizing order with
  | zero =>
    refine ⟨placing,((prefix_foldl nodes).eq_of_length ?_).symm⟩
    have room := (List.subperm_of_subset placing.pass.distinct placing.pass.inside).length_le
    rw [List.length_map] at room
    change order.length = (ParentFirst.pass (nodes.map Prod.fst) nodes order).length
    omega
  | succ passes ih =>
    unfold ParentFirst.place
    simp only
    split
    · next still => exact ⟨placing,((prefix_foldl nodes).eq_of_length still.symm).symm⟩
    · next moved => exact ih placing.pass (by omega) (prefix_foldl nodes).length_le

theorem placing_placed (nodes : List (α × Option α)) : Placing nodes (placed nodes) :=
  (Placing.nil.place nodes.length (by simp)).1

theorem pass_placed (nodes : List (α × Option α)) :
    pass (nodes.map Prod.fst) nodes (placed nodes) = placed nodes :=
  (Placing.nil.place nodes.length (by simp)).2

/-- The placed nodes are the rooted ones. -/
theorem mem_placed : a ∈ placed nodes ↔ Rooted nodes a := by
  have rest {node : α × Option α} (inside : node ∈ nodes)
      (free : ready (nodes.map Prod.fst) (placed nodes) node.2 = true) : node.1 ∈ placed nodes := by
    have still := step_of_pass (pass_placed nodes) inside
    unfold step at still
    split at still
    · next there => exact there
    · simpa using congrArg List.length still
  constructor
  · exact (placing_placed nodes).rooted a
  · intro rooted
    induction rooted with
    | @root a parent node outside =>
      refine rest node ?_
      cases parent with
      | none => rfl
      | some b => simpa [ready] using .inl (by simpa using outside b rfl)
    | child node above ih => exact rest node (by simp [ready,ih])

/-- The passes as they are written, without a bound: the one that moves nothing is the last one. -/
inductive Ends (nodes : List (α × Option α)) : List α → List α → Prop where
  | rest {order : List α} (still : pass (nodes.map Prod.fst) nodes order = order) : Ends nodes order order
  | again {order last : List α} (moved : pass (nodes.map Prod.fst) nodes order ≠ order)
      (later : Ends nodes (pass (nodes.map Prod.fst) nodes order) last) : Ends nodes order last

theorem ends_place {passes : ℕ} (still : pass (nodes.map Prod.fst) nodes (place (nodes.map Prod.fst) nodes passes order) =
    place (nodes.map Prod.fst) nodes passes order) : Ends nodes order (place (nodes.map Prod.fst) nodes passes order) := by
  induction passes generalizing order with
  | zero => exact .rest still
  | succ passes ih =>
    unfold place at still ⊢
    simp only at still ⊢
    split at still
    · next same =>
      rw [if_pos same]
      exact .rest still
    · next moved =>
      rw [if_neg moved]
      exact .again (fun same => moved (by rw [same])) (ih still)

/-- The passes come to an end, with the placed nodes. -/
theorem ends_placed (nodes : List (α × Option α)) : Ends nodes [] (placed nodes) := ends_place (pass_placed nodes)

/-! ### Cycles -/

/-- One step up, to a parent that is a node. -/
def Above (nodes : List (α × Option α)) (a b : α) : Prop := (a,some b) ∈ nodes ∧ b ∈ nodes.map Prod.fst

/-- On a cycle of parents, or below one. -/
def Circular (nodes : List (α × Option α)) (a : α) : Prop :=
  ∃ b, Relation.ReflTransGen (Above nodes) a b ∧ Relation.TransGen (Above nodes) b b

omit [DecidableEq α] in
theorem Circular.of_above (step : Above nodes a b) (circular : Circular nodes b) : Circular nodes a := by
  obtain ⟨c,up,around⟩ := circular
  exact ⟨c,.head step up,around⟩

omit [DecidableEq α] in
/-- What is on or below a cycle has a parent that is. -/
theorem Circular.step (circular : Circular nodes a) : ∃ b, Above nodes a b ∧ Circular nodes b := by
  obtain ⟨c,up,around⟩ := circular
  obtain ⟨b,step,rest⟩ : ∃ b, Above nodes a b ∧ Relation.ReflTransGen (Above nodes) b c := by
    rcases Relation.ReflTransGen.cases_head_iff.mp up with rfl | ⟨b,step,rest⟩
    · exact Relation.TransGen.head'_iff.mp around
    · exact ⟨b,step,rest⟩
  exact ⟨b,step,c,rest,around⟩

omit [DecidableEq α] in
theorem one_parent (distinct : (nodes.map Prod.fst).Nodup) {parent parent' : Option α} (node : (a,parent) ∈ nodes)
    (node' : (a,parent') ∈ nodes) : parent = parent' :=
  congrArg Prod.snd (List.inj_on_of_nodup_map distinct node node' rfl)

omit [DecidableEq α] in
theorem Rooted.not_circular (distinct : (nodes.map Prod.fst).Nodup) (rooted : Rooted nodes a) : ¬ Circular nodes a := by
  induction rooted with
  | root node outside =>
    intro circular
    obtain ⟨b,⟨node',inside⟩,-⟩ := circular.step
    exact outside b (one_parent distinct node node') inside
  | child node _ ih =>
    intro circular
    obtain ⟨b,⟨node',-⟩,around⟩ := circular.step
    obtain rfl := Option.some.inj (one_parent distinct node node')
    exact ih around

omit [DecidableEq α] in
/-- A chain of parents without a cycle ends, since there are fewer nodes above each next one. -/
theorem rooted_of_not_circular (node : a ∈ nodes.map Prod.fst) (free : ¬ Circular nodes a) : Rooted nodes a := by
  have above_finite (a : α) : {b | Relation.TransGen (Above nodes) a b}.Finite := by
    refine (nodes.map Prod.fst).finite_toSet.subset (fun b above => ?_)
    obtain ⟨c,-,step⟩ := Relation.TransGen.tail'_iff.mp above
    exact step.2
  induction count : {b | Relation.TransGen (Above nodes) a b}.ncard using Nat.strong_induction_on generalizing a with
  | _ size ih =>
    obtain ⟨⟨_,parent⟩,inside,rfl⟩ := List.mem_map.mp node
    by_cases outside : ∀ b, parent = some b → b ∉ nodes.map Prod.fst
    · exact .root inside outside
    · push Not at outside
      obtain ⟨b,rfl,held⟩ := outside
      have step : Above nodes _ b := ⟨inside,held⟩
      have free' : ¬ Circular nodes b := fun circular => free (circular.of_above step)
      refine .child inside (ih _ ?_ held free' rfl)
      rw [← count]
      refine Set.ncard_lt_ncard ⟨fun c above => .head step above,fun all => free' ?_⟩ (above_finite _)
      exact ⟨b,.refl,all (show Relation.TransGen (Above nodes) _ b from .single step)⟩

/-! ### The order -/

theorem mem_orderOf : a ∈ orderOf nodes ↔ a ∈ nodes.map Prod.fst := by
  rw [orderOf,List.mem_append,List.mem_filter]
  by_cases there : a ∈ placed nodes
  · simp [there,(placing_placed nodes).inside there]
  · simp [there]

/-- What is placed after all its ancestors is not held back by a cycle. -/
theorem orderOf_after (distinct : (nodes.map Prod.fst).Nodup) (above : Above nodes a b) (free : ¬ Circular nodes a) :
    [b,a].Sublist (orderOf nodes) := by
  have rooted := rooted_of_not_circular (List.mem_map.mpr ⟨_,above.1,rfl⟩) free
  obtain ⟨parent,node,earlier⟩ := (placing_placed nodes).after a (mem_placed.mpr rooted)
  exact (earlier b (one_parent distinct node above.1) above.2).trans (List.sublist_append_left _ _)

theorem nodup_orderOf (distinct : (nodes.map Prod.fst).Nodup) : (orderOf nodes).Nodup := by
  refine List.nodup_append.mpr ⟨(placing_placed nodes).distinct,distinct.filter _,?_⟩
  rintro a there b left rfl
  exact of_decide_eq_true (List.mem_filter.mp left).2 there

theorem perm_orderOf (distinct : (nodes.map Prod.fst).Nodup) : (orderOf nodes).Perm (nodes.map Prod.fst) :=
  (List.perm_ext_iff_of_nodup (nodup_orderOf distinct) distinct).mpr (fun _ => mem_orderOf)

/-- The nodes that a cycle holds back come last. -/
theorem orderOf_split (distinct : (nodes.map Prod.fst).Nodup) :
    ∃ first last, orderOf nodes = first ++ last ∧ (∀ a ∈ first, ¬ Circular nodes a) ∧ ∀ a ∈ last, Circular nodes a := by
  refine ⟨_,_,rfl,fun a inside => ((mem_placed.mp inside).not_circular distinct),fun a inside => ?_⟩
  obtain ⟨node,left⟩ := List.mem_filter.mp inside
  by_contra free
  exact of_decide_eq_true left (mem_placed.mpr (rooted_of_not_circular node free))

/-- Every node comes after its parent iff those whose chain does not end were given so,
    but for nodes that are their own parents. -/
theorem orderOf_parent_first (distinct : (nodes.map Prod.fst).Nodup) :
    (∀ a b, (a,some b) ∈ nodes → b ∈ nodes.map Prod.fst → b = a ∨ [b,a].Sublist (orderOf nodes)) ↔
      ∀ a b, (a,some b) ∈ nodes → b ∈ nodes.map Prod.fst → ¬Rooted nodes a →
        b = a ∨ [b,a].Sublist (nodes.map Prod.fst) := by
  have left {a b : α} (unrooted : ¬Rooted nodes a) (above : ¬Rooted nodes b) :
      [b,a].Sublist (orderOf nodes) ↔ [b,a].Sublist (nodes.map Prod.fst) := by
    rw [← mem_placed] at unrooted above
    constructor
    · intro earlier
      obtain ⟨before,after,parts,first,second⟩ := List.sublist_append_iff.mp earlier
      cases before with
      | nil =>
        rw [List.nil_append] at parts
        exact (parts ▸ second).trans List.filter_sublist
      | cons c before =>
        obtain ⟨rfl,-⟩ := List.cons.inj parts
        exact absurd (first.subset (.head _)) above
    · intro earlier
      have kept := earlier.filter (fun a => decide (a ∉ placed nodes))
      simp only [unrooted,above,List.filter_cons,not_false_eq_true,decide_true,if_true,List.filter_nil] at kept
      exact kept.trans (List.sublist_append_right _ _)
  constructor
  · intro all a b node held unrooted
    have above : ¬Rooted nodes b := fun above => unrooted (.child node above)
    exact (all a b node held).imp_right (left unrooted above).mp
  · intro others a b node held
    by_cases rooted : Rooted nodes a
    · obtain ⟨parent,node',earlier⟩ := (placing_placed nodes).after a (mem_placed.mpr rooted)
      exact .inr ((earlier b (one_parent distinct node' node) held).trans (List.sublist_append_left _ _))
    · have above : ¬Rooted nodes b := fun above => rooted (.child node above)
      exact (others a b node held rooted).imp_right (left rooted above).mpr

end
end ParentFirst
