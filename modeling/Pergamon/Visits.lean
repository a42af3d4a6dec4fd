import Mathlib.Data.List.Count
import Mathlib.Logic.Function.Basic
import Mathlib.Tactic.Common

/-!
Rows that visits put at places. A visit names the key of a row and a place: a row that is missing is
added there, and one that is elsewhere is moved. What a list of visits leaves, the same list leaves
again (`Served.again`). A rehearsal of the visits, which adds and moves nothing, counts as they do iff
no key that is missing is visited twice, and as many visits go elsewhere than the row is as go
elsewhere than the visit before (`rehearsal_iff`).
-/
namespace Visits

/-! ### Rows -/

/-- Rows with a key and a place. To be put at a place twice is to be put at the second. -/
structure Rows (ρ κ π : Type*) where
  key : ρ → κ
  place : ρ → π
  put : π → ρ → ρ
  key_put : ∀ p r, key (put p r) = key r
  place_put : ∀ p r, place (put p r) = p
  put_put : ∀ p q r, put p (put q r) = put p r

section
variable {ρ κ π : Type*} [DecidableEq κ] [DecidableEq π] (R : Rows ρ κ π)

/-- A row after a visit. -/
def Rows.touch (r : ρ) (v : κ × π) : ρ := if v.1 = R.key r ∧ v.2 ≠ R.place r then R.put v.2 r else r

/-- A row after visits. -/
def Rows.settle (l : List (κ × π)) (r : ρ) : ρ := l.foldl R.touch r

omit [DecidableEq κ] [DecidableEq π] in
/-- No visit moves the row. -/
def Rows.Quiet (l : List (κ × π)) (r : ρ) : Prop := ∀ v ∈ l, v.1 = R.key r → v.2 = R.place r

section
variable {R} {l l' : List (κ × π)} {r : ρ} {v : κ × π}

theorem key_touch : R.key (R.touch r v) = R.key r := by
  unfold Rows.touch
  split_ifs
  · exact R.key_put v.2 r
  · rfl

/-- A row that is visited is at the place of the visit. -/
theorem place_touch (same : v.1 = R.key r) : R.place (R.touch r v) = v.2 := by
  unfold Rows.touch
  split_ifs with moves
  · exact R.place_put v.2 r
  · by_contra elsewhere
    exact moves ⟨same,fun equal => elsewhere equal.symm⟩

theorem touch_still (still : v.1 = R.key r → v.2 = R.place r) : R.touch r v = r := if_neg (fun moves => moves.2 (still moves.1))

theorem key_settle (l : List (κ × π)) (r : ρ) : R.key (R.settle l r) = R.key r := by
  induction l generalizing r with
  | nil => rfl
  | cons v l ih => exact (ih (R.touch r v)).trans key_touch

theorem settle_append (l l' : List (κ × π)) (r : ρ) : R.settle (l ++ l') r = R.settle l' (R.settle l r) := List.foldl_append

theorem settle_quiet (quiet : R.Quiet l r) : R.settle l r = r := by
  induction l with
  | nil => rfl
  | cons v l ih =>
    have first : R.touch r v = r := touch_still (quiet v List.mem_cons_self)
    change R.settle l (R.touch r v) = r
    rw [first]
    exact ih (fun w inside => quiet w (List.mem_cons_of_mem _ inside))

/-- A row that is moved ends at a place that all rows with its key end at. -/
theorem settle_moved (moved : ¬ R.Quiet l r) :
    ∃ p, R.settle l r = R.put p r ∧ ∀ r', R.key r' = R.key r → R.place (R.settle l r') = p := by
  induction l generalizing r with
  | nil => exact absurd (fun _ inside => nomatch inside) moved
  | cons v l ih =>
    by_cases quiet : R.Quiet l (R.touch r v)
    · -- the visit itself moves the row, and no later one does
      have moves : v.1 = R.key r ∧ v.2 ≠ R.place r := by
        by_contra still
        have first : R.touch r v = r := if_neg still
        refine moved (fun w inside same => ?_)
        rcases List.mem_cons.mp inside with rfl | later
        · by_contra elsewhere
          exact still ⟨same,elsewhere⟩
        · exact (first ▸ quiet) w later same
      refine ⟨v.2,?_,?_⟩
      · change R.settle l (R.touch r v) = _
        rw [settle_quiet quiet]
        exact if_pos moves
      · intro r' same
        have quiet' : R.Quiet l (R.touch r' v) := by
          intro w inside equal
          rw [place_touch (moves.1.trans same.symm),quiet w inside (by rw [equal,key_touch,key_touch,same]),place_touch moves.1]
        change R.place (R.settle l (R.touch r' v)) = _
        rw [settle_quiet quiet',place_touch (moves.1.trans same.symm)]
    · obtain ⟨p,ends,all⟩ := ih quiet
      refine ⟨p,?_,fun r' same => all (R.touch r' v) (by rw [key_touch,key_touch,same])⟩
      change R.settle l (R.touch r v) = _
      rw [ends]
      unfold Rows.touch
      split_ifs
      · exact R.put_put p v.2 r
      · rfl

/-- What visits leave, they leave again. -/
theorem settle_again (l : List (κ × π)) (r : ρ) : R.settle l (R.settle l r) = R.settle l r := by
  by_cases quiet : R.Quiet l r
  · rw [settle_quiet quiet,settle_quiet quiet]
  · obtain ⟨p,ends,all⟩ := settle_moved quiet
    by_cases quiet' : R.Quiet l (R.settle l r)
    · exact settle_quiet quiet'
    · obtain ⟨q,ends',-⟩ := settle_moved quiet'
      have same : q = p := by
        have last := all (R.settle l r) (key_settle l r)
        rw [ends',R.place_put] at last
        exact last
      rw [ends',ends,R.put_put,same]

end

/-! ### Tables -/

/-- What visits make of a table: its rows are settled, and rows that were missing stand behind them. -/
def Rows.Served (l : List (κ × π)) (rows rows' : List ρ) : Prop :=
  (∃ new, rows' = rows.map (R.settle l) ++ new ∧
    ∀ r ∈ new, (∃ first, r = R.settle l first) ∧ R.key r ∉ rows.map R.key ∧ ∃ v ∈ l, v.1 = R.key r) ∧
  ∀ v ∈ l, v.1 ∈ rows'.map R.key

variable {R} {l l' : List (κ × π)} {rows rows' rows'' : List ρ}

theorem Rows.Served.refl (rows : List ρ) : R.Served [] rows rows := by
  refine ⟨⟨[],?_,nofun⟩,nofun⟩
  rw [List.append_nil]
  exact (List.map_id rows).symm

theorem Rows.Served.keys (served : R.Served l rows rows') : rows.map R.key ⊆ rows'.map R.key := by
  obtain ⟨⟨new,rfl,-⟩,-⟩ := served
  intro k inside
  obtain ⟨r,there,rfl⟩ := List.mem_map.mp inside
  exact List.mem_map.mpr ⟨R.settle l r,List.mem_append_left _ (List.mem_map_of_mem there),key_settle l r⟩

theorem Rows.Served.trans (one : R.Served l rows rows') (two : R.Served l' rows' rows'') : R.Served (l ++ l') rows rows'' := by
  have keys := one.keys
  have keys' := two.keys
  obtain ⟨⟨new,rfl,made⟩,there⟩ := one
  obtain ⟨⟨new',rfl,made'⟩,there'⟩ := two
  refine ⟨⟨new.map (R.settle l') ++ new',?_,?_⟩,?_⟩
  · have both : R.settle (l ++ l') = R.settle l' ∘ R.settle l := funext (settle_append l l')
    rw [List.map_append,List.map_map,both,List.append_assoc]
  · intro r inside
    rcases List.mem_append.mp inside with old | last
    · obtain ⟨r,before,rfl⟩ := List.mem_map.mp old
      obtain ⟨⟨first,rfl⟩,outside,v,visited,same⟩ := made r before
      refine ⟨⟨first,(settle_append l l' first).symm⟩,?_,v,List.mem_append_left _ visited,?_⟩
      · rwa [key_settle]
      · rw [same,key_settle l']
    · obtain ⟨⟨first,rfl⟩,outside,v,visited,same⟩ := made' r last
      have quiet : R.Quiet l first := by
        intro w inside equal
        refine absurd (there w inside) ?_
        rwa [equal,← key_settle l' first]
      exact ⟨⟨first,by rw [settle_append,settle_quiet quiet]⟩,fun inside => outside (keys inside),v,List.mem_append_right _ visited,same⟩
  · intro v inside
    rcases List.mem_append.mp inside with before | last
    · exact keys' (there v before)
    · exact there' v last

/-- What visits leave of a table, they leave again. -/
theorem Rows.Served.again (one : R.Served l rows rows') (two : R.Served l rows' rows'') : rows'' = rows' := by
  obtain ⟨⟨new,rfl,made⟩,there⟩ := one
  obtain ⟨⟨new',rfl,made'⟩,-⟩ := two
  have none_new : new' = [] := by
    rw [List.eq_nil_iff_forall_not_mem]
    intro r inside
    obtain ⟨-,outside,v,visited,same⟩ := made' r inside
    exact outside (same ▸ there v visited)
  rw [none_new,List.append_nil,List.map_append,List.map_map]
  congr 1
  · exact List.map_congr_left (fun r _ => settle_again l r)
  · refine (List.map_congr_left (fun r inside => ?_)).trans (List.map_id new)
    obtain ⟨⟨first,rfl⟩,-⟩ := made r inside
    exact settle_again l first

/-- A row that is missing is added at the place of the visit. -/
theorem served_added {v : κ × π} {r : ρ} (missing : v.1 ∉ rows.map R.key) (key : R.key r = v.1) (place : R.place r = v.2) :
    R.Served [v] rows (rows ++ [r]) := by
  have still (other : ρ) (inside : other ∈ rows) : R.settle [v] other = other :=
    touch_still (fun same => absurd (same ▸ List.mem_map_of_mem inside) missing)
  refine ⟨⟨[r],?_,?_⟩,?_⟩
  · rw [List.map_congr_left still,List.map_id']
  · intro other inside
    cases List.mem_singleton.mp inside
    exact ⟨⟨r,(touch_still (fun _ => place.symm)).symm⟩,key ▸ missing,v,List.mem_singleton_self v,key.symm⟩
  · intro w inside
    cases List.mem_singleton.mp inside
    exact List.mem_map.mpr ⟨r,List.mem_append_right _ List.mem_cons_self,key⟩

/-- A row that is there is put at the place of the visit. -/
theorem served_found {v : κ × π} (there : v.1 ∈ rows.map R.key) : R.Served [v] rows (rows.map (fun r => R.touch r v)) := by
  refine ⟨⟨[],(List.append_nil _).symm,nofun⟩,?_⟩
  intro w inside
  cases List.mem_singleton.mp inside
  obtain ⟨r,held,same⟩ := List.mem_map.mp there
  exact List.mem_map.mpr ⟨R.touch r v,List.mem_map_of_mem held,key_touch.trans same⟩

end

/-! ### Counts -/

/-- What a visit finds. -/
inductive Found where
  | Added
  | Existing
  | Moved
  deriving DecidableEq

section
variable {κ π : Type*} [DecidableEq κ] [DecidableEq π]

omit [DecidableEq κ] in
/-- What is found where rows are at these places. -/
def found (s : κ → Option π) (v : κ × π) : Found :=
  match s v.1 with
  | none => .Added
  | some p => if p = v.2 then .Existing else .Moved

/-- What is found along visits. -/
def track (s : κ → Option π) : List (κ × π) → List Found
  | [] => []
  | v :: l => found s v :: track (Function.update s v.1 (some v.2)) l

omit [DecidableEq κ] in
/-- The visits that go elsewhere than the row is. -/
def elsewhere (s : κ → Option π) (l : List (κ × π)) : ℕ := l.countP (fun v => s v.1 ≠ none ∧ s v.1 ≠ some v.2)

/-- The visits to rows that are there that go elsewhere than the visit before, or than the row is if
    there is none before. -/
def turns (s : κ → Option π) : List (κ × π) → ℕ
  | [] => 0
  | v :: l =>
    match s v.1 with
    | none => turns s l
    | some p => (if p = v.2 then 0 else 1) + turns (Function.update s v.1 (some v.2)) l

variable {s t : κ → Option π} {l : List (κ × π)} {v : κ × π}

omit [DecidableEq κ] in
theorem found_missing (missing : s v.1 = none) : found s v = .Added := by simp only [found,missing]

omit [DecidableEq κ] in
theorem found_there {p : π} (there : s v.1 = some p) : found s v = if p = v.2 then .Existing else .Moved := by simp only [found,there]

theorem turns_missing (missing : s v.1 = none) : turns s (v :: l) = turns s l := by simp only [turns,missing]

theorem turns_there {p : π} (there : s v.1 = some p) :
    turns s (v :: l) = (if p = v.2 then 0 else 1) + turns (Function.update s v.1 (some v.2)) l := by simp only [turns,there]

omit [DecidableEq κ] in
/-- The rehearsal counts as moved what goes elsewhere. -/
theorem moved_rehearsed (s : κ → Option π) (l : List (κ × π)) : (l.map (found s)).count .Moved = elsewhere s l := by
  rw [List.count,List.countP_map,elsewhere]
  refine List.countP_congr (fun v _ => ?_)
  cases here : s v.1 with
  | none => simp [found,here]
  | some p => by_cases same : p = v.2 <;> simp [found,here,same]

/-- No more are added than the rehearsal counts, and as many iff no missing row is visited twice. -/
theorem added_iff (there : ∀ k, t k ≠ none → s k ≠ none) (l : List (κ × π)) :
    (track s l).count .Added ≤ (l.map (found t)).count .Added ∧
      ((track s l).count .Added = (l.map (found t)).count .Added ↔
        (∀ v ∈ l, t v.1 = none → s v.1 = none) ∧ (l.filter (fun v => t v.1 = none)).Pairwise (fun v w => v.1 ≠ w.1)) := by
  induction l generalizing s with
  | nil => simp [track]
  | cons v l ih =>
    have later : ∀ k, t k ≠ none → Function.update s v.1 (some v.2) k ≠ none := by
      intro k held
      rw [Function.update_apply]
      split_ifs
      · exact Option.some_ne_none _
      · exact there k held
    obtain ⟨le,equal⟩ := ih later
    rw [track,List.map_cons,List.forall_mem_cons]
    cases known : t v.1 with
    | some p =>
      obtain ⟨q,held⟩ := Option.ne_none_iff_exists'.mp (there v.1 (by simp [known]))
      have one : found s v ≠ .Added := by
        rw [found_there held]
        split_ifs <;> nofun
      have two : found t v ≠ .Added := by
        rw [found_there known]
        split_ifs <;> nofun
      rw [List.count_cons_of_ne one,List.count_cons_of_ne two,List.filter_cons_of_neg (by simp [known])]
      refine ⟨le,equal.trans (and_congr_left (fun _ => ?_))⟩
      have same (w : κ × π) (new : t w.1 = none) : Function.update s v.1 (some v.2) w.1 = s w.1 := by
        rw [Function.update_of_ne]
        intro equal
        rw [equal,known] at new
        cases new
      constructor
      · exact fun all => ⟨nofun,fun w inside new => same w new ▸ all w inside new⟩
      · exact fun all w inside new => (same w new).trans (all.2 w inside new)
    | none =>
      rw [found_missing known,List.count_cons_self,List.filter_cons_of_pos (by simp [known]),List.pairwise_cons]
      cases held : s v.1 with
      | some q =>
        have one : found s v ≠ .Added := by
          rw [found_there held]
          split_ifs <;> nofun
        rw [List.count_cons_of_ne one]
        exact ⟨by omega,iff_of_false (by omega) (fun all => nomatch all.1.1 rfl)⟩
      | none =>
        rw [found_missing held,List.count_cons_self]
        refine ⟨by omega,(Nat.add_right_cancel_iff.trans equal).trans ?_⟩
        constructor
        · rintro ⟨all,pairs⟩
          have apart (w : κ × π) (inside : w ∈ l) (new : t w.1 = none) : v.1 ≠ w.1 := by
            intro same
            have := all w inside new
            rw [← same,Function.update_self] at this
            cases this
          refine ⟨⟨fun _ => rfl,?_⟩,?_,pairs⟩
          · intro w inside new
            rw [← all w inside new,Function.update_of_ne (apart w inside new).symm]
          · intro w inside
            obtain ⟨inside,new⟩ := List.mem_filter.mp inside
            exact apart w inside (by simpa using new)
        · rintro ⟨⟨-,all⟩,apart,pairs⟩
          refine ⟨?_,pairs⟩
          intro w inside new
          have other := apart w (List.mem_filter.mpr ⟨inside,by simpa using new⟩)
          rw [Function.update_of_ne other.symm]
          exact all w inside new

/-- Where no missing row is visited twice, what is moved are the turns. -/
theorem moved_tracked (same : ∀ v ∈ l, t v.1 = s v.1) (apart : (l.filter (fun v => t v.1 = none)).Pairwise (fun v w => v.1 ≠ w.1)) :
    (track s l).count .Moved = turns t l := by
  induction l generalizing s t with
  | nil => rfl
  | cons v l ih =>
    have here := same v List.mem_cons_self
    rw [track]
    cases known : t v.1 with
    | none =>
      rw [List.filter_cons_of_pos (by simp [known]),List.pairwise_cons] at apart
      rw [found_missing (here.symm.trans known),List.count_cons_of_ne (by nofun),turns_missing known]
      refine ih (fun w inside => ?_) apart.2
      have other : w.1 ≠ v.1 := by
        intro equal
        exact apart.1 w (List.mem_filter.mpr ⟨inside,by simp [equal,known]⟩) equal.symm
      rw [Function.update_of_ne other]
      exact same w (List.mem_cons_of_mem _ inside)
    | some p =>
      rw [List.filter_cons_of_neg (by simp [known])] at apart
      have rest : (track (Function.update s v.1 (some v.2)) l).count .Moved = turns (Function.update t v.1 (some v.2)) l := by
        refine ih (fun w inside => ?_) ?_
        · rw [Function.update_apply,Function.update_apply,same w (List.mem_cons_of_mem _ inside)]
        · have filters : l.filter (fun w => Function.update t v.1 (some v.2) w.1 = none) = l.filter (fun w => t w.1 = none) := by
            refine List.filter_congr (fun w _ => ?_)
            by_cases equal : w.1 = v.1
            · simp [equal,known]
            · simp [Function.update_of_ne equal]
          rwa [filters]
      rw [found_there (here.symm.trans known),turns_there known,List.count_cons,rest,Nat.add_comm]
      by_cases equal : p = v.2 <;> simp [equal]

omit [DecidableEq κ] in
theorem count_all (l : List Found) : l.count .Added + l.count .Existing + l.count .Moved = l.length := by
  induction l with
  | nil => rfl
  | cons f l ih => cases f <;> simp <;> omega

theorem length_track (s : κ → Option π) (l : List (κ × π)) : (track s l).length = l.length := by
  induction l generalizing s with
  | nil => rfl
  | cons v l ih => rw [track,List.length_cons,List.length_cons,ih]

/-- A rehearsal of visits counts as they do iff no missing row is visited twice, and as many visits go
    elsewhere than the row is as go elsewhere than the visit before. -/
theorem rehearsal_iff (s : κ → Option π) (l : List (κ × π)) : (∀ f, (track s l).count f = (l.map (found s)).count f) ↔
    (l.filter (fun v => s v.1 = none)).Pairwise (fun v w => v.1 ≠ w.1) ∧ elsewhere s l = turns s l := by
  have added := (added_iff (s := s) (t := s) (fun _ held => held) l).2
  have all := count_all (track s l)
  have all' := count_all (l.map (found s))
  rw [length_track] at all
  rw [List.length_map] at all'
  constructor
  · intro same
    have apart := (added.mp (same .Added)).2
    refine ⟨apart,?_⟩
    rw [← moved_rehearsed,← moved_tracked (fun _ _ => rfl) apart,same .Moved]
  · rintro ⟨apart,moved⟩
    have one := added.mpr ⟨fun _ _ new => new,apart⟩
    have two : (track s l).count .Moved = (l.map (found s)).count .Moved := by
      rw [moved_rehearsed,moved_tracked (fun _ _ => rfl) apart,moved]
    intro f
    cases f with
    | Added => exact one
    | Moved => exact two
    | Existing => omega

end
end Visits
