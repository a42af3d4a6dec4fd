import Mathlib.Data.List.Nodup

/-!
Lists in sections: the entries of one key after those of another, the keys in a given order.
What stands before an entry is decided by the order of the keys and by its own section.
-/
namespace Sections

section
variable {α : Type*} {a b c : α} {l l' done rest : List α}

theorem pair_cons : [a,b].Sublist (c :: l) ↔ (a = c ∧ b ∈ l) ∨ [a,b].Sublist l := by
  rw [List.sublist_cons_iff]
  constructor
  · rintro (later | ⟨tail,same,inside⟩)
    · exact .inr later
    · obtain ⟨rfl,rfl⟩ := List.cons.inj same
      exact .inl ⟨rfl,List.singleton_sublist.mp inside⟩
  · rintro (⟨rfl,inside⟩ | later)
    · exact .inr ⟨[b],rfl,List.singleton_sublist.mpr inside⟩
    · exact .inl later

theorem pair_append : [a,b].Sublist (l ++ l') ↔ [a,b].Sublist l ∨ (a ∈ l ∧ b ∈ l') ∨ [a,b].Sublist l' := by
  induction l with
  | nil => simp
  | cons c l ih =>
    rw [List.cons_append,pair_cons,pair_cons,ih,List.mem_append,List.mem_cons]
    simp only [and_or_left,or_and_right,or_assoc,or_left_comm]

/-- In a list that repeats nothing, what was done before an entry is what stands before it. -/
theorem mem_before (distinct : l.Nodup) (split : done ++ b :: rest = l) : a ∈ done ↔ [a,b].Sublist l := by
  subst split
  obtain ⟨-,later,apart⟩ := List.nodup_append.mp distinct
  have new : b ∉ done := fun inside => apart b inside b (by simp) rfl
  have once : b ∉ rest := (List.nodup_cons.mp later).1
  rw [pair_append,pair_cons]
  constructor
  · intro inside
    exact .inr (.inl ⟨inside,by simp⟩)
  · rintro (before | ⟨inside,-⟩ | ⟨-,again⟩ | after)
    · exact absurd (before.subset (by simp)) new
    · exact inside
    · exact absurd again once
    · exact absurd (after.subset (by simp)) once

end

variable {κ α : Type*} {order : List κ} {part : κ → List α} {k k' : κ} {a b : α}

/-- The sections of the keys, in their order. -/
def all (order : List κ) (part : κ → List α) : List (κ × α) := order.flatMap (fun k => (part k).map (fun a => (k,a)))

@[simp] theorem mem_all : (k,a) ∈ all order part ↔ k ∈ order ∧ a ∈ part k := by
  simp only [all,List.mem_flatMap,List.mem_map,Prod.mk.injEq]
  constructor
  · rintro ⟨k,here,a,inside,rfl,rfl⟩
    exact ⟨here,inside⟩
  · rintro ⟨here,inside⟩
    exact ⟨k,here,a,inside,rfl,rfl⟩

theorem nodup_all (distinct : order.Nodup) (parts : ∀ k ∈ order, (part k).Nodup) : (all order part).Nodup := by
  refine List.nodup_flatMap.mpr ⟨fun k here => (parts k here).map (fun a b same => congrArg Prod.snd same),?_⟩
  refine distinct.imp (fun {k k'} apart => ?_)
  intro entry inside inside'
  obtain ⟨a,-,rfl⟩ := List.mem_map.mp inside
  obtain ⟨a',-,same⟩ := List.mem_map.mp inside'
  exact apart (congrArg Prod.fst same).symm

theorem pair_map : [(k',a),(k,b)].Sublist ((part c).map (fun a => (c,a))) ↔ k' = c ∧ k = c ∧ [a,b].Sublist (part c) := by
  rw [List.sublist_map_iff]
  constructor
  · rintro ⟨l,inside,same⟩
    obtain ⟨a',rest,rfl,first,later⟩ := List.map_eq_cons_iff.mp same.symm
    obtain ⟨b',nothing,rfl,second,last⟩ := List.map_eq_cons_iff.mp later
    obtain rfl := List.map_eq_nil_iff.mp last
    obtain ⟨rfl,rfl⟩ := Prod.mk.inj first
    obtain ⟨rfl,rfl⟩ := Prod.mk.inj second
    exact ⟨rfl,rfl,inside⟩
  · rintro ⟨rfl,rfl,inside⟩
    exact ⟨[a,b],inside,rfl⟩

/-- An entry stands before another one iff its key does, or in one section with it. -/
theorem before_iff : [(k',a),(k,b)].Sublist (all order part) ↔
    ([k',k].Sublist order ∧ a ∈ part k' ∧ b ∈ part k) ∨ (k' = k ∧ k ∈ order ∧ [a,b].Sublist (part k)) := by
  induction order with
  | nil => simp [all]
  | cons c order ih =>
    have parts : all (c :: order) part = (part c).map (fun a => (c,a)) ++ all order part := List.flatMap_cons
    rw [parts,pair_append,ih,pair_map,pair_cons,mem_all,List.mem_map,List.mem_cons]
    constructor
    · rintro (⟨rfl,rfl,inside⟩ | ⟨⟨a',inside,same⟩,there,inside'⟩ | ⟨before,inside,inside'⟩ | ⟨rfl,there,before⟩)
      · exact .inr ⟨rfl,.inl rfl,inside⟩
      · obtain ⟨rfl,rfl⟩ := Prod.mk.inj same
        exact .inl ⟨.inl ⟨rfl,there⟩,inside,inside'⟩
      · exact .inl ⟨.inr before,inside,inside'⟩
      · exact .inr ⟨rfl,.inr there,before⟩
    · rintro (⟨⟨rfl,there⟩ | before,inside,inside'⟩ | ⟨rfl,rfl | there,before⟩)
      · exact .inr (.inl ⟨⟨a,inside,rfl⟩,there,inside'⟩)
      · exact .inr (.inr (.inl ⟨before,inside,inside'⟩))
      · exact .inl ⟨rfl,rfl,before⟩
      · exact .inr (.inr (.inr ⟨rfl,there,before⟩))

end Sections
