import Mathlib.Data.Finset.Card
import Pergamon.Reviewing

/-!
The schedule of a card and the set of its logs. The logs are put in order and replayed, and a log
that repeats the one before it is skipped; in their order all repetitions of a log stand together,
so the replay is that of the logs without repetitions (`replay_dedup`), and these have one order
only (`sorted_dedup_eq`). So devices that hold the same logs, in whatever order and however often,
derive the same card (`derive_card_state_set`).
-/
namespace Pergamon

section
variable {logs logs' : List ReviewLogEntry} {a b entry : ReviewLogEntry}

/-- An id belongs to one log. -/
def Determined (logs : List ReviewLogEntry) : Prop := ∀ a ∈ logs, ∀ b ∈ logs, a.id = b.id → a = b

/-- The order of the replay. -/
abbrev InOrder (logs : List ReviewLogEntry) : Prop := logs.Pairwise (fun a b => (entry_le a b : Prop))

theorem entry_le_antisymm (determined : Determined logs) (inside : a ∈ logs) (inside' : b ∈ logs) (le : entry_le a b)
    (le' : entry_le b a) : a = b := by
  refine determined a inside b inside' ?_
  rw [entry_le_iff] at le le'
  rcases le with before | ⟨same,le⟩
  · rcases le' with after | ⟨same,-⟩ <;> omega
  · rcases le' with after | ⟨-,le'⟩
    · omega
    · exact le_antisymm le le'

/-- Two lists in order, without repetitions and of the same logs, are one. -/
theorem sorted_dedup_eq (determined : Determined logs) (ordered : InOrder logs) (ordered' : InOrder logs')
    (same : ∀ entry, entry ∈ logs ↔ entry ∈ logs') : logs.dedup = logs'.dedup := by
  have all : logs.dedup.Perm logs'.dedup :=
    (List.perm_ext_iff_of_nodup (List.nodup_dedup _) (List.nodup_dedup _)).mpr (fun entry => by simp [same])
  refine all.eq_of_pairwise ?_ (ordered.sublist (List.dedup_sublist _)) (ordered'.sublist (List.dedup_sublist _))
  intro a b inside inside' le le'
  rw [List.mem_dedup] at inside inside'
  exact entry_le_antisymm determined inside ((same b).mpr inside') le le'

end

section
variable [Scheduler] {logs logs' : List ReviewLogEntry} {entry : ReviewLogEntry} {acc : Replay}

theorem replay_step_last (acc : Replay) (entry : ReviewLogEntry) :
    (replay_step acc entry).last = some (entry.reviewed_at_ms,entry.id) := by
  unfold replay_step
  split
  · assumption
  · rfl

theorem replay_step_twice (acc : Replay) (entry : ReviewLogEntry) :
    replay_step (replay_step acc entry) entry = replay_step acc entry := if_pos (replay_step_last acc entry)

/-- A replay in order does not see that a log is there more than once. -/
theorem replay_dedup (determined : Determined logs) (ordered : InOrder logs) (acc : Replay) :
    logs.foldl replay_step acc = logs.dedup.foldl replay_step acc := by
  induction logs generalizing acc with
  | nil => rfl
  | cons entry logs ih =>
    obtain ⟨first,ordered⟩ := List.pairwise_cons.mp ordered
    have rest := ih (fun a inside b inside' => determined a (.tail _ inside) b (.tail _ inside')) ordered
    by_cases again : entry ∈ logs
    · rw [List.dedup_cons_of_mem again,← rest]
      -- what stands between two occurrences of a log is that log
      cases logs with
      | nil => cases again
      | cons next logs =>
        have here : entry = next := by
          rcases List.mem_cons.mp again with same | later
          · exact same
          · exact entry_le_antisymm determined (.head _) (.tail _ (.head _)) (first next (.head _))
              ((List.pairwise_cons.mp ordered).1 entry later)
        rw [List.foldl_cons,List.foldl_cons,List.foldl_cons,here,replay_step_twice]
    · rw [List.dedup_cons_of_notMem again,List.foldl_cons,List.foldl_cons,rest]

/-- What a replay counts when no log repeats the one before it. -/
theorem replay_counts (once : logs.Nodup) (determined : Determined logs)
    (news : ∀ entry ∈ logs, acc.last ≠ some (entry.reviewed_at_ms,entry.id)) :
    (logs.foldl replay_step acc).derived.review_count = acc.derived.review_count + logs.length ∧
      (logs.foldl replay_step acc).derived.lapse_count =
        acc.derived.lapse_count + (logs.filter (fun entry => entry.rating = .Again)).length := by
  induction logs generalizing acc with
  | nil => simp
  | cons entry logs ih =>
    obtain ⟨apart,once⟩ := List.nodup_cons.mp once
    have other : ∀ next ∈ logs, (replay_step acc entry).last ≠ some (next.reviewed_at_ms,next.id) := by
      intro next inside same
      rw [replay_step_last] at same
      have ids := congrArg Prod.snd (Option.some.inj same)
      exact apart (determined entry (.head _) next (.tail _ inside) ids ▸ inside)
    obtain ⟨reviews,lapses⟩ := ih once
      (fun a inside b inside' => determined a (.tail _ inside) b (.tail _ inside')) other
    rw [List.foldl_cons,reviews,lapses]
    unfold replay_step
    rw [if_neg (news entry (.head _))]
    refine ⟨by simp only [List.length_cons]; omega,?_⟩
    by_cases again : entry.rating = .Again
    · simp only [again,if_true,List.filter_cons,decide_true,List.length_cons]
      omega
    · simp only [again,if_false,List.filter_cons,decide_false,Nat.add_zero]
      rfl

/-- The derived card depends on the set of the logs alone. It counts each log of the set once, and
    each one that is rated Again as a lapse. -/
theorem derive_card_state_set (determined : ∀ a ∈ logs, ∀ b ∈ logs, a.id = b.id → a = b)
    (same : ∀ entry, entry ∈ logs ↔ entry ∈ logs') :
    derive_card_state logs = derive_card_state logs' ∧
    (derive_card_state logs).review_count = (logs.map ReviewLogEntry.id).toFinset.card ∧
    (derive_card_state logs).lapse_count = (logs.toFinset.filter (fun entry => entry.rating = .Again)).card := by
  have inside (l : List ReviewLogEntry) (entry : ReviewLogEntry) :
      entry ∈ l.insertionSort (fun a b => entry_le a b) ↔ entry ∈ l := List.mem_insertionSort _
  have ordered (l : List ReviewLogEntry) : InOrder (l.insertionSort (fun a b => entry_le a b)) :=
    List.pairwise_insertionSort _ _
  have sorted : Determined (logs.insertionSort (fun a b => entry_le a b)) := by
    intro a here b there
    exact determined a ((inside _ _).mp here) b ((inside _ _).mp there)
  have sorted' : Determined (logs'.insertionSort (fun a b => entry_le a b)) := by
    intro a here b there
    exact determined a ((same a).mpr ((inside _ _).mp here)) b ((same b).mpr ((inside _ _).mp there))
  have one := sorted_dedup_eq sorted (ordered logs) (ordered logs') (fun entry => by rw [inside,inside,same])
  have replayed := replay_dedup sorted (ordered logs) .start
  refine ⟨?_,?_⟩
  · rw [derive_card_state_eq,derive_card_state_eq,replayed,replay_dedup sorted' (ordered logs'),one]
  · have distinct := List.nodup_dedup (logs.insertionSort (fun a b => entry_le a b))
    have members (entry : ReviewLogEntry) : entry ∈ (logs.insertionSort (fun a b => entry_le a b)).dedup ↔
        entry ∈ logs := by
      rw [List.mem_dedup,inside]
    obtain ⟨reviews,lapses⟩ := @replay_counts _ _ .start distinct
      (fun a here b there => sorted a (List.mem_dedup.mp here) b (List.mem_dedup.mp there)) (fun _ _ => nofun)
    rw [derive_card_state_eq,replayed]
    constructor
    · have ids : ((logs.insertionSort (fun a b => entry_le a b)).dedup.map ReviewLogEntry.id).Nodup := by
        refine distinct.map_on (fun a here b there => ?_)
        exact sorted a (List.mem_dedup.mp here) b (List.mem_dedup.mp there)
      have all : (logs.map ReviewLogEntry.id).toFinset =
          ((logs.insertionSort (fun a b => entry_le a b)).dedup.map ReviewLogEntry.id).toFinset := by
        ext id
        simp only [List.mem_toFinset,List.mem_map,members]
      rw [all,List.toFinset_card_of_nodup ids,List.length_map]
      exact reviews.trans (Nat.zero_add _)
    · have all : logs.toFinset.filter (fun entry => entry.rating = .Again) =
          ((logs.insertionSort (fun a b => entry_le a b)).dedup.filter
            (fun entry => entry.rating = .Again)).toFinset := by
        ext entry
        simp only [Finset.mem_filter,List.mem_toFinset,List.mem_filter,members,decide_eq_true_eq]
      rw [all,List.toFinset_card_of_nodup (distinct.filter _)]
      exact lapses.trans (Nat.zero_add _)

end

section
attribute [local instance] plainScheduler

/-- Two reviews of one instant, given in either order and once or twice. -/
theorem derive_card_state_set_twice :
    derive_card_state [⟨"y",5,.Easy⟩,⟨"x",5,.Again⟩,⟨"y",5,.Easy⟩] = derive_card_state [⟨"x",5,.Again⟩,⟨"y",5,.Easy⟩] ∧
    (derive_card_state [⟨"y",5,.Easy⟩,⟨"x",5,.Again⟩,⟨"y",5,.Easy⟩]).review_count = 2 ∧
    (derive_card_state [⟨"y",5,.Easy⟩,⟨"x",5,.Again⟩,⟨"y",5,.Easy⟩]).lapse_count = 1 :=
  derive_card_state_set (by decide +kernel) (fun entry => by simp; tauto)

end
end Pergamon
