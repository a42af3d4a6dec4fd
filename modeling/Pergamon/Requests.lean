import Mathlib.Data.Option.Basic
import Mathlib.Logic.Function.Basic
import Mathlib.Tactic.Common

/-!
Lists of requests to a store that makes what it does not have. A request is for a source, which is
remembered once it was met, for an entry, or for a remark under a key. What is made can be read or
cannot, and to come upon something that cannot be read ends the list. A rehearsal goes over the list
and makes nothing. It counts as the real run does iff a thing that cannot be read is there from the
beginning, so that both end, or no request meets what one before it makes (`rehearsal_iff`).
-/
namespace Requests

inductive Request (κ β : Type*) where
  | source (key : κ) (reads : Bool)
  | entry (key : κ) (reads : Bool)
  | remark (key : κ) (body : β) (reads : Bool)

/-- How many were made and how many were there. -/
structure Counts where
  sources_created : ℕ
  sources_existing : ℕ
  entries_created : ℕ
  entries_existing : ℕ
  remarks_created : ℕ
  deriving DecidableEq

def Counts.zero : Counts := ⟨0,0,0,0,0⟩

/-- All that was made. -/
def Counts.made (c : Counts) : ℕ := c.sources_created + c.entries_created + c.remarks_created

/-- What a store shows: whether it has a key and can read what is there, and the remarks under a key,
    if they can be read. -/
@[ext] structure Shelf (κ β : Type*) where
  held : κ → Option Bool
  noted : κ → Option (List β)

/-- A run: what the store shows, the sources that were met, and the counts. -/
structure Run (κ β : Type*) extends Shelf κ β where
  met : List κ
  counts : Counts

section
variable {κ β : Type*}

/-! ### What requests meet -/

/-- A source was asked for. -/
def Sought (past : List (Request κ β)) (k : κ) : Prop := ∃ reads, .source k reads ∈ past

/-- An entry was asked for. -/
def Listed (past : List (Request κ β)) (k : κ) : Prop := ∃ reads, .entry k reads ∈ past

def Remarked (past : List (Request κ β)) (k : κ) (b : β) : Prop := ∃ reads, .remark k b reads ∈ past

/-- A request comes upon something on the shelf that cannot be read. -/
def Shelf.Unreadable (s : Shelf κ β) : Request κ β → Prop
  | .source key _ => s.held key = some false
  | .entry key _ => s.held key = some false
  | .remark key _ _ => s.noted key = none

/-- A request meets what one of the requests before it makes. A source that was met before is not
    looked up again; to come upon the remarks under a key is to come upon all of them. -/
def Shelf.Meets (s : Shelf κ β) (past : List (Request κ β)) : Request κ β → Prop
  | .source key _ => s.held key = none ∧ Listed past key ∧ ¬ Sought past key
  | .entry key _ => s.held key = none ∧ (Listed past key ∨ Sought past key)
  | .remark key body _ => ∃ bodies, s.noted key = some bodies ∧
      (body ∉ bodies ∧ Remarked past key body ∨ ∃ other, .remark key other false ∈ past ∧ other ∉ bodies)

/-- No request meets what one before it makes. -/
def Shelf.Apart (s : Shelf κ β) (past : List (Request κ β)) : List (Request κ β) → Prop
  | [] => True
  | a :: rest => ¬ s.Meets past a ∧ s.Apart (past ++ [a]) rest

section
variable {past : List (Request κ β)} {k key : κ} {b body : β} {reads : Bool}

@[simp] theorem sought_source : Sought (past ++ [.source key reads]) k ↔ Sought past k ∨ k = key := by
  simp [Sought,exists_or]

@[simp] theorem sought_entry : Sought (past ++ [.entry key reads]) k ↔ Sought past k := by
  simp [Sought]

@[simp] theorem sought_remark : Sought (past ++ [.remark key body reads]) k ↔ Sought past k := by
  simp [Sought]

@[simp] theorem listed_source : Listed (past ++ [.source key reads]) k ↔ Listed past k := by
  simp [Listed]

@[simp] theorem listed_entry : Listed (past ++ [.entry key reads]) k ↔ Listed past k ∨ k = key := by
  simp [Listed,exists_or]

@[simp] theorem listed_remark : Listed (past ++ [.remark key body reads]) k ↔ Listed past k := by
  simp [Listed]

@[simp] theorem remarked_source : Remarked (past ++ [.source key reads]) k b ↔ Remarked past k b := by
  simp [Remarked]

@[simp] theorem remarked_entry : Remarked (past ++ [.entry key reads]) k b ↔ Remarked past k b := by
  simp [Remarked]

@[simp] theorem remarked_remark : Remarked (past ++ [.remark key body reads]) k b ↔ Remarked past k b ∨ k = key ∧ b = body := by
  simp [Remarked,exists_or]

end

/-! ### Runs -/

variable [DecidableEq κ] [DecidableEq β]

/-- What a store shows when a key was made. -/
def Shelf.hold (s : Shelf κ β) (real : Bool) (key : κ) (reads : Bool) : Shelf κ β :=
  if real then { s with held := Function.update s.held key (some reads) } else s

/-- What a store shows when a remark was made beside others. -/
def Shelf.note (s : Shelf κ β) (real : Bool) (key : κ) (bodies : List β) (reads : Bool) : Shelf κ β :=
  if real then { s with noted := Function.update s.noted key (if reads then some bodies else none) } else s

/-- One request. Nothing is made in a rehearsal. -/
def step (real : Bool) (s : Run κ β) : Request κ β → Option (Run κ β)
  | .source key reads =>
    if key ∈ s.met then some s
    else
      match s.held key with
      | some true => some ⟨s.toShelf,key :: s.met,{ s.counts with sources_existing := s.counts.sources_existing + 1 }⟩
      | some false => none
      | none => some ⟨s.hold real key reads,key :: s.met,{ s.counts with sources_created := s.counts.sources_created + 1 }⟩
  | .entry key reads =>
    match s.held key with
    | some true => some ⟨s.toShelf,s.met,{ s.counts with entries_existing := s.counts.entries_existing + 1 }⟩
    | some false => none
    | none => some ⟨s.hold real key reads,s.met,{ s.counts with entries_created := s.counts.entries_created + 1 }⟩
  | .remark key body reads =>
    match s.noted key with
    | none => none
    | some bodies =>
      if body ∈ bodies then some s
      else some ⟨s.note real key (bodies ++ [body]) reads,s.met,{ s.counts with remarks_created := s.counts.remarks_created + 1 }⟩

section
variable {real : Bool} {s : Run κ β} {key : κ} {reads : Bool} {body : β} {bodies : List β}

theorem step_met (inside : key ∈ s.met) : step real s (.source key reads) = some s := by simp [step,inside]

theorem step_found (new : key ∉ s.met) (there : s.held key = some true) : step real s (.source key reads) =
    some ⟨s.toShelf,key :: s.met,{ s.counts with sources_existing := s.counts.sources_existing + 1 }⟩ := by
  simp [step,new,there]

theorem step_made (new : key ∉ s.met) (missing : s.held key = none) : step real s (.source key reads) =
    some ⟨s.hold real key reads,key :: s.met,{ s.counts with sources_created := s.counts.sources_created + 1 }⟩ := by
  simp [step,new,missing]

theorem step_source_none : step real s (.source key reads) = none ↔ key ∉ s.met ∧ s.held key = some false := by
  by_cases inside : key ∈ s.met
  · simp [step,inside]
  · cases here : s.held key with
    | none => simp [step,inside,here]
    | some b => cases b <;> simp [step,inside,here]

theorem entry_found (there : s.held key = some true) : step real s (.entry key reads) =
    some ⟨s.toShelf,s.met,{ s.counts with entries_existing := s.counts.entries_existing + 1 }⟩ := by
  simp [step,there]

theorem entry_made (missing : s.held key = none) : step real s (.entry key reads) =
    some ⟨s.hold real key reads,s.met,{ s.counts with entries_created := s.counts.entries_created + 1 }⟩ := by
  simp [step,missing]

theorem step_entry_none : step real s (.entry key reads) = none ↔ s.held key = some false := by
  cases here : s.held key with
  | none => simp [step,here]
  | some b => cases b <;> simp [step,here]

theorem remark_found (there : s.noted key = some bodies) (old : body ∈ bodies) : step real s (.remark key body reads) = some s := by
  simp [step,there,old]

theorem remark_made (there : s.noted key = some bodies) (new : body ∉ bodies) : step real s (.remark key body reads) =
    some ⟨s.note real key (bodies ++ [body]) reads,s.met,{ s.counts with remarks_created := s.counts.remarks_created + 1 }⟩ := by
  simp [step,there,new]

theorem step_remark_none : step real s (.remark key body reads) = none ↔ s.noted key = none := by
  cases here : s.noted key with
  | none => simp [step,here]
  | some bodies => by_cases old : body ∈ bodies <;> simp [step,here,old]

end

/-- A list of requests. -/
def run (real : Bool) (s : Run κ β) (requests : List (Request κ β)) : Option (Run κ β) := requests.foldlM (step real) s

/-- What a list of requests reports, unless it ends before. -/
def report (real : Bool) (s : Shelf κ β) (requests : List (Request κ β)) : Option Counts :=
  (run real ⟨s,[],.zero⟩ requests).map Run.counts

/-! ### Runs that agree -/

omit [DecidableEq κ] [DecidableEq β] in
/-- A rehearsal and a real run after requests that did not meet anything. -/
structure Agree (s : Shelf κ β) (past : List (Request κ β)) (d r : Run κ β) : Prop where
  shelf : d.toShelf = s
  met : ∀ k, k ∈ d.met ↔ Sought past k
  same_met : r.met = d.met
  same_counts : r.counts = d.counts
  held : ∀ k b, s.held k = some b → r.held k = some b
  made : ∀ k, s.held k = none → (r.held k ≠ none ↔ Listed past k ∨ Sought past k)
  noted : ∀ k bodies, s.noted k = some bodies →
    (∃ bodies', r.noted k = some bodies' ∧ (∀ b, b ∈ bodies' ↔ b ∈ bodies ∨ Remarked past k b) ∧
      ∀ b, .remark k b false ∈ past → b ∈ bodies) ∨
    r.noted k = none ∧ ∃ b, .remark k b false ∈ past ∧ b ∉ bodies

omit [DecidableEq κ] [DecidableEq β] in
/-- A real run that has made less than the rehearsal. -/
structure Behind (d r : Run κ β) : Prop where
  same_met : r.met = d.met
  held : ∀ k, r.held k = none → d.held k = none
  noted : ∀ k bodies bodies', d.noted k = some bodies → r.noted k = some bodies' → bodies ⊆ bodies'
  less : r.counts.made < d.counts.made

section
variable {s : Shelf κ β} {past : List (Request κ β)} {d r d' r' : Run κ β} {a : Request κ β}

omit [DecidableEq κ] [DecidableEq β] in
/-- The beginning of both. -/
theorem Agree.start (s : Shelf κ β) : Agree s [] ⟨s,[],.zero⟩ ⟨s,[],.zero⟩ where
  shelf := rfl
  met := by simp [Sought]
  same_met := rfl
  same_counts := rfl
  held _ _ there := there
  made k missing := by simp [missing,Listed,Sought]
  noted k bodies there := .inl ⟨bodies,there,by simp [Remarked],by simp⟩

/-- A request that is readable and meets nothing: both runs do the same. -/
theorem agree_step (agree : Agree s past d r) (readable : ¬ s.Unreadable a) (apart : ¬ s.Meets past a) :
    ∃ d' r', step false d a = some d' ∧ step true r a = some r' ∧ Agree s (past ++ [a]) d' r' := by
  obtain ⟨shelf,met,same_met,same_counts,held,made,noted⟩ := agree
  subst shelf
  cases a with
  | source key reads =>
    by_cases inside : key ∈ d.met
    · refine ⟨d,r,step_met inside,step_met (same_met ▸ inside),rfl,?_,same_met,same_counts,held,?_,by simpa using noted⟩
      · intro k
        rw [met,sought_source]
        exact ⟨.inl,fun either => either.elim id (fun same => same ▸ (met key).mp inside)⟩
      · intro k missing
        rw [made k missing,listed_source,sought_source]
        exact ⟨fun either => either.imp id .inl,fun either => either.imp id (fun either => either.elim id (fun same => same ▸ (met key).mp inside))⟩
    · have unsought : ¬ Sought past key := fun sought => inside ((met key).mpr sought)
      have new_met (k : κ) : k ∈ key :: d.met ↔ Sought (past ++ [.source key reads]) k := by
        rw [List.mem_cons,met,sought_source,or_comm]
      cases here : d.held key with
      | some b =>
        cases b with
        | false => exact absurd here readable
        | true =>
          have also := held key true here
          refine ⟨_,_,step_found inside here,step_found (same_met ▸ inside) also,rfl,new_met,by rw [same_met],by rw [same_counts],held,?_,by simpa using noted⟩
          intro k missing
          rw [made k missing,listed_source,sought_source]
          have other : k ≠ key := by
            rintro rfl
            cases here.symm.trans missing
          simp [other]
      | none =>
        have free : r.held key = none := by
          by_contra some_here
          rcases (made key here).mp some_here with listed | sought
          · exact apart ⟨here,listed,unsought⟩
          · exact unsought sought
        refine ⟨_,_,step_made inside here,step_made (same_met ▸ inside) free,rfl,new_met,by rw [same_met],by rw [same_counts],?_,?_,?_⟩
        · intro k b there
          have other : k ≠ key := by
            rintro rfl
            cases here.symm.trans there
          simpa [Shelf.hold,other] using held k b there
        · intro k missing
          by_cases same : k = key
          · simp [Shelf.hold,same]
          · simpa [Shelf.hold,same] using made k missing
        · simpa [Shelf.hold] using noted
  | entry key reads =>
    have same_sought (k : κ) : k ∈ d.met ↔ Sought (past ++ [.entry key reads]) k := by rw [met,sought_entry]
    cases here : d.held key with
    | some b =>
      cases b with
      | false => exact absurd here readable
      | true =>
        have also := held key true here
        refine ⟨_,_,entry_found here,entry_found also,rfl,same_sought,same_met,by rw [same_counts],held,?_,by simpa using noted⟩
        intro k missing
        rw [made k missing,listed_entry,sought_entry]
        have other : k ≠ key := by
          rintro rfl
          cases here.symm.trans missing
        simp [other]
    | none =>
      have free : r.held key = none := by
        by_contra some_here
        exact apart ⟨here,(made key here).mp some_here⟩
      refine ⟨_,_,entry_made here,entry_made free,rfl,same_sought,same_met,by rw [same_counts],?_,?_,?_⟩
      · intro k b there
        have other : k ≠ key := by
          rintro rfl
          cases here.symm.trans there
        simpa [Shelf.hold,other] using held k b there
      · intro k missing
        by_cases same : k = key
        · simp [Shelf.hold,same]
        · simpa [Shelf.hold,same] using made k missing
      · simpa [Shelf.hold] using noted
  | remark key body reads =>
    have same_sought (k : κ) : k ∈ d.met ↔ Sought (past ++ [.remark key body reads]) k := by rw [met,sought_remark]
    have same_made (k : κ) (missing : d.held k = none) : r.held k ≠ none ↔
        Listed (past ++ [.remark key body reads]) k ∨ Sought (past ++ [.remark key body reads]) k := by
      rw [made k missing,listed_remark,sought_remark]
    cases here : d.noted key with
    | none => exact absurd here readable
    | some bodies =>
      -- no remark that was made under the key is unreadable
      obtain ⟨bodies',also,all,read⟩ : ∃ bodies', r.noted key = some bodies' ∧ (∀ b, b ∈ bodies' ↔ b ∈ bodies ∨ Remarked past key b) ∧
          ∀ b, .remark key b false ∈ past → b ∈ bodies := by
        rcases noted key bodies here with sound | ⟨-,b,there,new⟩
        · exact sound
        · exact absurd ⟨bodies,here,.inr ⟨b,there,new⟩⟩ apart
      by_cases old : body ∈ bodies
      · refine ⟨d,r,remark_found here old,remark_found also ((all body).mpr (.inl old)),rfl,same_sought,same_met,same_counts,held,
          same_made,?_⟩
        intro k others there
        by_cases same : k = key
        · subst same
          cases here.symm.trans there
          refine .inl ⟨bodies',also,?_,?_⟩
          · intro b
            rw [all,remarked_remark]
            constructor
            · exact fun either => either.imp id .inl
            · rintro (inside | made | ⟨-,rfl⟩)
              · exact .inl inside
              · exact .inr made
              · exact .inl old
          · intro b there
            rcases List.mem_append.mp there with there | there
            · exact read b there
            · cases List.mem_singleton.mp there
              exact old
        · simpa [same] using noted k others there
      · have new : body ∉ bodies' := by
          rw [all]
          rintro (inside | made)
          · exact old inside
          · exact apart ⟨bodies,here,.inl ⟨old,made⟩⟩
        refine ⟨_,_,remark_made here old,remark_made also new,rfl,same_sought,same_met,by rw [same_counts],held,same_made,?_⟩
        intro k others there
        by_cases same : k = key
        · subst same
          cases here.symm.trans there
          cases reads with
          | true =>
            refine .inl ⟨bodies' ++ [body],by simp [Shelf.note],?_,by simpa using read⟩
            intro b
            rw [List.mem_append,List.mem_singleton,all,remarked_remark,or_assoc]
            simp
          | false => exact .inr ⟨by simp [Shelf.note],body,by simp,old⟩
        · simpa [Shelf.note,same] using noted k others there

omit [DecidableEq κ] [DecidableEq β] in
theorem Agree.behind_held (agree : Agree s past d r) (k : κ) (missing : r.held k = none) : d.held k = none := by
  cases here : s.held k with
  | none => rw [agree.shelf,here]
  | some b => cases (agree.held k b here).symm.trans missing

omit [DecidableEq κ] [DecidableEq β] in
theorem Agree.behind_noted (agree : Agree s past d r) (k : κ) (bodies bodies' : List β) (there : d.noted k = some bodies)
    (there' : r.noted k = some bodies') : bodies ⊆ bodies' := by
  rw [agree.shelf] at there
  rcases agree.noted k bodies there with ⟨others,also,all,-⟩ | ⟨missing,-⟩
  · cases there'.symm.trans also
    exact fun b inside => (all b).mpr (.inl inside)
  · cases there'.symm.trans missing

/-- A request that meets something: the rehearsal makes what the real run does not, unless that ends. -/
theorem meets_step (agree : Agree s past d r) (meets : s.Meets past a) :
    ∃ d', step false d a = some d' ∧ ∀ r', step true r a = some r' → Behind d' r' := by
  have shelf := agree.shelf
  have same_counts := agree.same_counts
  cases a with
  | source key reads =>
    obtain ⟨here,listed,unsought⟩ := meets
    have inside : key ∉ d.met := fun met => unsought ((agree.met key).mp met)
    refine ⟨_,step_made inside (shelf ▸ here),?_⟩
    intro r' ran
    obtain ⟨b,also⟩ := Option.ne_none_iff_exists'.mp ((agree.made key here).mpr (.inl listed))
    cases b with
    | false => cases (step_source_none.mpr ⟨agree.same_met ▸ inside,also⟩).symm.trans ran
    | true =>
      cases (step_found (agree.same_met ▸ inside) also).symm.trans ran
      exact ⟨by rw [agree.same_met],agree.behind_held,agree.behind_noted,by simp [Counts.made,same_counts]⟩
  | entry key reads =>
    obtain ⟨here,asked⟩ := meets
    refine ⟨_,entry_made (shelf ▸ here),?_⟩
    intro r' ran
    obtain ⟨b,also⟩ := Option.ne_none_iff_exists'.mp ((agree.made key here).mpr asked)
    cases b with
    | false => cases (step_entry_none.mpr also).symm.trans ran
    | true =>
      cases (entry_found also).symm.trans ran
      exact ⟨agree.same_met,agree.behind_held,agree.behind_noted,by simp [Counts.made,same_counts]⟩
  | remark key body reads =>
    obtain ⟨bodies,here,either⟩ := meets
    rcases agree.noted key bodies here with ⟨bodies',also,all,read⟩ | ⟨missing,-⟩
    · rcases either with ⟨new,made⟩ | ⟨other,there,new⟩
      · refine ⟨_,remark_made (shelf ▸ here) new,?_⟩
        intro r' ran
        cases (remark_found also ((all body).mpr (.inr made))).symm.trans ran
        exact ⟨agree.same_met,agree.behind_held,agree.behind_noted,by simp [Counts.made,same_counts]⟩
      · exact absurd (read other there) new
    · by_cases old : body ∈ bodies
      · refine ⟨_,remark_found (shelf ▸ here) old,?_⟩
        intro r' ran
        cases (step_remark_none.mpr missing).symm.trans ran
      · refine ⟨_,remark_made (shelf ▸ here) old,?_⟩
        intro r' ran
        cases (step_remark_none.mpr missing).symm.trans ran

/-- A real run does not catch up. -/
theorem behind_step (behind : Behind d r) (ran : step false d a = some d') (ran' : step true r a = some r') : Behind d' r' := by
  obtain ⟨same_met,held,noted,less⟩ := behind
  cases a with
  | source key reads =>
    by_cases inside : key ∈ d.met
    · cases (step_met inside).symm.trans ran
      cases (step_met (same_met ▸ inside)).symm.trans ran'
      exact ⟨same_met,held,noted,less⟩
    · have inside' : key ∉ r.met := same_met ▸ inside
      cases here : d.held key with
      | none =>
        cases (step_made inside here).symm.trans ran
        cases here' : r.held key with
        | none =>
          cases (step_made inside' here').symm.trans ran'
          refine ⟨by rw [same_met],?_,by simpa [Shelf.hold] using noted,by simp only [Counts.made] at less ⊢; omega⟩
          intro k missing
          by_cases same : k = key
          · simp [Shelf.hold,same] at missing
          · exact held k (by simpa [Shelf.hold,same] using missing)
        | some b =>
          cases b with
          | false => cases (step_source_none.mpr ⟨inside',here'⟩).symm.trans ran'
          | true =>
            cases (step_found inside' here').symm.trans ran'
            exact ⟨by rw [same_met],held,noted,by simp only [Counts.made] at less ⊢; omega⟩
      | some b =>
        cases b with
        | false => cases (step_source_none.mpr ⟨inside,here⟩).symm.trans ran
        | true =>
          cases (step_found inside here).symm.trans ran
          cases here' : r.held key with
          | none => cases here.symm.trans (held key here')
          | some b =>
            cases b with
            | false => cases (step_source_none.mpr ⟨inside',here'⟩).symm.trans ran'
            | true =>
              cases (step_found inside' here').symm.trans ran'
              exact ⟨by rw [same_met],held,noted,less⟩
  | entry key reads =>
    cases here : d.held key with
    | none =>
      cases (entry_made here).symm.trans ran
      cases here' : r.held key with
      | none =>
        cases (entry_made here').symm.trans ran'
        refine ⟨same_met,?_,by simpa [Shelf.hold] using noted,by simp only [Counts.made] at less ⊢; omega⟩
        intro k missing
        by_cases same : k = key
        · simp [Shelf.hold,same] at missing
        · exact held k (by simpa [Shelf.hold,same] using missing)
      | some b =>
        cases b with
        | false => cases (step_entry_none.mpr here').symm.trans ran'
        | true =>
          cases (entry_found here').symm.trans ran'
          exact ⟨same_met,held,noted,by simp only [Counts.made] at less ⊢; omega⟩
    | some b =>
      cases b with
      | false => cases (step_entry_none.mpr here).symm.trans ran
      | true =>
        cases (entry_found here).symm.trans ran
        cases here' : r.held key with
        | none => cases here.symm.trans (held key here')
        | some b =>
          cases b with
          | false => cases (step_entry_none.mpr here').symm.trans ran'
          | true =>
            cases (entry_found here').symm.trans ran'
            exact ⟨same_met,held,noted,less⟩
  | remark key body reads =>
    cases here : d.noted key with
    | none => cases (step_remark_none.mpr here).symm.trans ran
    | some bodies =>
      cases here' : r.noted key with
      | none => cases (step_remark_none.mpr here').symm.trans ran'
      | some bodies' =>
        have more := noted key bodies bodies' here here'
        by_cases old' : body ∈ bodies'
        · cases (remark_found here' old').symm.trans ran'
          by_cases old : body ∈ bodies
          · cases (remark_found here old).symm.trans ran
            exact ⟨same_met,held,noted,less⟩
          · cases (remark_made here old).symm.trans ran
            exact ⟨same_met,held,noted,by simp only [Counts.made] at less ⊢; omega⟩
        · cases (remark_made here' old').symm.trans ran'
          cases (remark_made here (fun old => old' (more old))).symm.trans ran
          refine ⟨same_met,held,?_,by simp only [Counts.made] at less ⊢; omega⟩
          intro k others others' there there'
          by_cases same : k = key
          · subst same
            cases here.symm.trans there
            cases reads with
            | false => simp [Shelf.note] at there'
            | true =>
              simp only [Shelf.note,if_true,Function.update_self,Option.some.injEq] at there'
              subst there'
              exact fun b inside => List.mem_append_left _ (more inside)
          · exact noted k others others' there (by simpa [Shelf.note,same] using there')

theorem run_cons (real : Bool) (d : Run κ β) (a : Request κ β) (rest : List (Request κ β)) :
    run real d (a :: rest) = (step real d a).bind (fun d => run real d rest) := rfl

theorem run_one (real : Bool) (d : Run κ β) (a : Request κ β) : run real d [a] = step real d a := by
  rw [run_cons]
  exact Option.bind_fun_some (step real d a)

theorem run_append (real : Bool) (d : Run κ β) (l l' : List (Request κ β)) :
    run real d (l ++ l') = (run real d l).bind (fun d => run real d l') := List.foldlM_append

theorem behind_run {rest : List (Request κ β)} (behind : Behind d r) (ran : run false d rest = some d') (ran' : run true r rest = some r') :
    Behind d' r' := by
  induction rest generalizing d r with
  | nil =>
    cases ran
    cases ran'
    exact behind
  | cons a rest ih =>
    rw [run_cons] at ran ran'
    obtain ⟨mid,first,ran⟩ := Option.bind_eq_some_iff.mp ran
    obtain ⟨mid',first',ran'⟩ := Option.bind_eq_some_iff.mp ran'
    exact ih (behind_step behind first first') ran ran'

/-- A rehearsal does not touch the shelf, and ends only at what cannot be read. -/
theorem rehearsal_step (shelf : d.toShelf = s) (readable : ¬ s.Unreadable a) : ∃ d', step false d a = some d' ∧ d'.toShelf = s := by
  subst shelf
  cases a with
  | source key reads =>
    by_cases inside : key ∈ d.met
    · exact ⟨d,step_met inside,rfl⟩
    · cases here : d.held key with
      | none => exact ⟨_,step_made inside here,rfl⟩
      | some b =>
        cases b with
        | false => exact absurd here readable
        | true => exact ⟨_,step_found inside here,rfl⟩
  | entry key reads =>
    cases here : d.held key with
    | none => exact ⟨_,entry_made here,rfl⟩
    | some b =>
      cases b with
      | false => exact absurd here readable
      | true => exact ⟨_,entry_found here,rfl⟩
  | remark key body reads =>
    cases here : d.noted key with
    | none => exact absurd here readable
    | some bodies =>
      by_cases old : body ∈ bodies
      · exact ⟨d,remark_found here old,rfl⟩
      · exact ⟨_,remark_made here old,rfl⟩

theorem rehearsal_total {rest : List (Request κ β)} (shelf : d.toShelf = s) (readable : ∀ a ∈ rest, ¬ s.Unreadable a) :
    ∃ d', run false d rest = some d' := by
  induction rest generalizing d with
  | nil => exact ⟨d,rfl⟩
  | cons a rest ih =>
    obtain ⟨mid,first,same⟩ := rehearsal_step shelf (readable a List.mem_cons_self)
    obtain ⟨d',ran⟩ := ih same (fun a inside => readable a (List.mem_cons_of_mem _ inside))
    exact ⟨d',by rw [run_cons,first]; exact ran⟩

/-- Runs that have agreed so far end with the same counts iff no later request meets anything. -/
theorem lockstep {rest : List (Request κ β)} (agree : Agree s past d r) (readable : ∀ a ∈ rest, ¬ s.Unreadable a) :
    (run true r rest).map Run.counts = (run false d rest).map Run.counts ↔ s.Apart past rest := by
  induction rest generalizing past d r with
  | nil => exact iff_of_true (congrArg some agree.same_counts) trivial
  | cons a rest ih =>
    have later : ∀ a ∈ rest, ¬ s.Unreadable a := fun a inside => readable a (List.mem_cons_of_mem _ inside)
    rw [run_cons,run_cons,Shelf.Apart]
    by_cases meets : s.Meets past a
    · obtain ⟨d',first,behind⟩ := meets_step agree meets
      have shelf : d'.toShelf = s := by
        obtain ⟨other,also,same⟩ := rehearsal_step agree.shelf (readable a List.mem_cons_self)
        cases first.symm.trans also
        exact same
      obtain ⟨last,ran⟩ := rehearsal_total shelf later
      refine iff_of_false ?_ (fun apart => apart.1 meets)
      rw [first,Option.bind_some,ran]
      intro same
      obtain ⟨last',ran',equal⟩ := Option.map_eq_some_iff.mp same
      obtain ⟨r',first',ran'⟩ := Option.bind_eq_some_iff.mp ran'
      have less := (behind_run (behind r' first') ran ran').less
      rw [equal] at less
      exact Nat.lt_irrefl _ less
    · obtain ⟨d',r',first,first',still⟩ := agree_step agree (readable a List.mem_cons_self) meets
      rw [first,first',Option.bind_some,Option.bind_some,ih still later]
      exact (and_iff_right meets).symm

/-- A run in which what could not be read on the shelf still cannot, and was not met. -/
structure Above (s : Shelf κ β) (r : Run κ β) : Prop where
  held : ∀ k, s.held k = some false → r.held k = some false
  noted : ∀ k, s.noted k = none → r.noted k = none
  met : ∀ k ∈ r.met, s.held k ≠ some false

theorem above_step {real : Bool} (above : Above s r) (ran : step real r a = some r') : Above s r' ∧ ¬ s.Unreadable a := by
  have held {key : κ} {reads : Bool} (missing : r.held key = none) (k : κ) (there : s.held k = some false) :
      (r.hold real key reads).held k = some false := by
    have other : k ≠ key := by
      rintro rfl
      cases missing.symm.trans (above.held k there)
    cases real <;> simpa [Shelf.hold,other] using above.held k there
  have noted {key : κ} {reads : Bool} (k : κ) (there : s.noted k = none) : (r.hold real key reads).noted k = none := by
    cases real <;> exact above.noted k there
  cases a with
  | source key reads =>
    by_cases inside : key ∈ r.met
    · cases (step_met inside).symm.trans ran
      exact ⟨above,above.met key inside⟩
    · have readable : ¬ s.Unreadable (.source (β := β) key reads) := by
        intro unreadable
        cases (step_source_none.mpr ⟨inside,above.held key unreadable⟩).symm.trans ran
      have met (k : κ) (there : k ∈ key :: r.met) : s.held k ≠ some false := by
        rcases List.mem_cons.mp there with rfl | there
        · exact readable
        · exact above.met k there
      cases here : r.held key with
      | none =>
        cases (step_made inside here).symm.trans ran
        exact ⟨⟨held here,noted,met⟩,readable⟩
      | some b =>
        cases b with
        | false => cases (step_source_none.mpr ⟨inside,here⟩).symm.trans ran
        | true =>
          cases (step_found inside here).symm.trans ran
          exact ⟨⟨above.held,above.noted,met⟩,readable⟩
  | entry key reads =>
    have readable : ¬ s.Unreadable (.entry (β := β) key reads) := by
      intro unreadable
      cases (step_entry_none.mpr (above.held key unreadable)).symm.trans ran
    cases here : r.held key with
    | none =>
      cases (entry_made here).symm.trans ran
      exact ⟨⟨held here,noted,above.met⟩,readable⟩
    | some b =>
      cases b with
      | false => cases (step_entry_none.mpr here).symm.trans ran
      | true =>
        cases (entry_found here).symm.trans ran
        exact ⟨⟨above.held,above.noted,above.met⟩,readable⟩
  | remark key body reads =>
    have readable : ¬ s.Unreadable (.remark key body reads) := by
      intro unreadable
      cases (step_remark_none.mpr (above.noted key unreadable)).symm.trans ran
    cases here : r.noted key with
    | none => cases (step_remark_none.mpr here).symm.trans ran
    | some bodies =>
      by_cases old : body ∈ bodies
      · cases (remark_found here old).symm.trans ran
        exact ⟨above,readable⟩
      · cases (remark_made here old).symm.trans ran
        refine ⟨⟨?_,?_,above.met⟩,readable⟩
        · cases real <;> exact above.held
        · intro k there
          have other : k ≠ key := by
            rintro rfl
            cases here.symm.trans (above.noted k there)
          cases real <;> simpa [Shelf.note,other] using above.noted k there

/-- What cannot be read ends every run that comes upon it. -/
theorem run_readable {real : Bool} {rest : List (Request κ β)} (above : Above s r) (ran : run real r rest = some r') :
    ∀ a ∈ rest, ¬ s.Unreadable a := by
  induction rest generalizing r with
  | nil => simp
  | cons a rest ih =>
    rw [run_cons] at ran
    obtain ⟨mid,first,ran⟩ := Option.bind_eq_some_iff.mp ran
    obtain ⟨still,readable⟩ := above_step above first
    intro b inside
    rcases List.mem_cons.mp inside with rfl | inside
    · exact readable
    · exact ih still ran b inside

/-- What cannot be read on the shelf ends every run that asks for it. -/
theorem report_none {s : Shelf κ β} {real : Bool} {requests : List (Request κ β)} (unreadable : ∃ a ∈ requests, s.Unreadable a) :
    report real s requests = none := by
  rw [report,Option.map_eq_none_iff]
  by_contra goes
  obtain ⟨r',ran⟩ := Option.ne_none_iff_exists'.mp goes
  obtain ⟨a,inside,there⟩ := unreadable
  exact run_readable ⟨fun _ there => there,fun _ there => there,nofun⟩ ran a inside there

/-- A rehearsal reports what the real run reports iff both end at what could not be read before, or no
    request meets what one before it makes. -/
theorem rehearsal_iff (s : Shelf κ β) (requests : List (Request κ β)) :
    report true s requests = report false s requests ↔ (∃ a ∈ requests, s.Unreadable a) ∨ s.Apart [] requests := by
  by_cases unreadable : ∃ a ∈ requests, s.Unreadable a
  · refine iff_of_true ?_ (.inl unreadable)
    rw [report_none unreadable,report_none unreadable]
  · rw [or_iff_right unreadable]
    exact lockstep (.start s) (fun a inside there => unreadable ⟨a,inside,there⟩)

/-- A request is for an entry that is not on the shelf. -/
def Shelf.New (s : Shelf κ β) : Request κ β → Prop
  | .entry key _ => s.held key = none
  | _ => False

theorem new_step (shelf : d.toShelf = s) (ran : step false d a = some d') : d'.toShelf = s ∧
    (s.New a ∧ d'.counts.entries_created = d.counts.entries_created + 1 ∨ ¬ s.New a ∧ d'.counts.entries_created = d.counts.entries_created) := by
  subst shelf
  cases a with
  | source key reads =>
    by_cases inside : key ∈ d.met
    · cases (step_met inside).symm.trans ran
      exact ⟨rfl,.inr ⟨nofun,rfl⟩⟩
    · cases here : d.held key with
      | none =>
        cases (step_made inside here).symm.trans ran
        exact ⟨rfl,.inr ⟨nofun,rfl⟩⟩
      | some b =>
        cases b with
        | false => cases (step_source_none.mpr ⟨inside,here⟩).symm.trans ran
        | true =>
          cases (step_found inside here).symm.trans ran
          exact ⟨rfl,.inr ⟨nofun,rfl⟩⟩
  | entry key reads =>
    cases here : d.held key with
    | none =>
      cases (entry_made here).symm.trans ran
      exact ⟨rfl,.inl ⟨here,rfl⟩⟩
    | some b =>
      cases b with
      | false => cases (step_entry_none.mpr here).symm.trans ran
      | true =>
        cases (entry_found here).symm.trans ran
        refine ⟨rfl,.inr ⟨?_,rfl⟩⟩
        intro new
        cases here.symm.trans new
  | remark key body reads =>
    cases here : d.noted key with
    | none => cases (step_remark_none.mpr here).symm.trans ran
    | some bodies =>
      by_cases old : body ∈ bodies
      · cases (remark_found here old).symm.trans ran
        exact ⟨rfl,.inr ⟨nofun,rfl⟩⟩
      · cases (remark_made here old).symm.trans ran
        exact ⟨rfl,.inr ⟨nofun,rfl⟩⟩

/-- A rehearsal makes no entry iff no request is for one that is not there. -/
theorem no_new_iff {rest : List (Request κ β)} (shelf : d.toShelf = s) (ran : run false d rest = some d') :
    d.counts.entries_created ≤ d'.counts.entries_created ∧
      (d'.counts.entries_created = d.counts.entries_created ↔ ∀ a ∈ rest, ¬ s.New a) := by
  induction rest generalizing d with
  | nil =>
    cases ran
    exact ⟨Nat.le_refl _,by simp⟩
  | cons a rest ih =>
    rw [run_cons] at ran
    obtain ⟨mid,first,ran⟩ := Option.bind_eq_some_iff.mp ran
    obtain ⟨same,either⟩ := new_step shelf first
    obtain ⟨le,none_new⟩ := ih same ran
    rw [List.forall_mem_cons]
    rcases either with ⟨new,one⟩ | ⟨old,zero⟩
    · refine ⟨by omega,iff_of_false (by omega) (fun both => both.1 new)⟩
    · rw [zero] at le none_new
      exact ⟨le,none_new.trans (and_iff_right old).symm⟩

/-! ### Entries alone -/

section
variable {α : Type*}

omit [DecidableEq κ] [DecidableEq β] in
/-- Entries meet nothing iff no key that is not on the shelf is listed twice. -/
theorem apart_entries (s : Shelf κ β) (key : α → κ) (reads : α → Bool) (l : List α) (past : List (Request κ β)) :
    s.Apart past (l.map (fun a => .entry (key a) (reads a))) ↔
      (∀ a ∈ l, s.held (key a) = none → ¬ (Listed past (key a) ∨ Sought past (key a))) ∧
        (l.filter (fun a => s.held (key a) = none)).Pairwise (fun a b => key a ≠ key b) := by
  induction l generalizing past with
  | nil => simp [Shelf.Apart]
  | cons a l ih =>
    rw [List.map_cons,Shelf.Apart,ih,List.forall_mem_cons]
    simp only [Shelf.Meets,listed_entry,sought_entry]
    by_cases missing : s.held (key a) = none
    · rw [List.filter_cons_of_pos (by simpa using missing),List.pairwise_cons]
      constructor
      · rintro ⟨first,later,pairs⟩
        refine ⟨⟨fun _ met => first ⟨missing,met⟩,?_⟩,?_,pairs⟩
        · intro b inside free met
          exact later b inside free (met.imp .inl id)
        · intro b inside same
          obtain ⟨there,free⟩ := List.mem_filter.mp inside
          exact later b there (by simpa using free) (.inl (.inr same.symm))
      · rintro ⟨⟨first,later⟩,apart,pairs⟩
        refine ⟨fun meets => first meets.1 meets.2,?_,pairs⟩
        rintro b inside free ((met | same) | met)
        · exact later b inside free (.inl met)
        · exact apart b (List.mem_filter.mpr ⟨inside,by simpa using free⟩) same.symm
        · exact later b inside free (.inr met)
    · rw [List.filter_cons_of_neg (by simpa using missing)]
      constructor
      · rintro ⟨-,later,pairs⟩
        refine ⟨⟨fun free => absurd free missing,?_⟩,pairs⟩
        intro b inside free met
        exact later b inside free (met.imp .inl id)
      · rintro ⟨⟨-,later⟩,pairs⟩
        refine ⟨fun meets => missing meets.1,?_,pairs⟩
        rintro b inside free ((met | same) | met)
        · exact later b inside free (.inl met)
        · exact missing (same ▸ free)
        · exact later b inside free (.inr met)

/-- Entries alone count as nothing else. -/
theorem entries_count {real : Bool} (key : α → κ) (reads : α → Bool) {l : List α} {r r' : Run κ β}
    (ran : run real r (l.map (fun a => .entry (key a) (reads a))) = some r') : r'.counts = { r.counts with
      entries_created := r'.counts.entries_created
      entries_existing := r'.counts.entries_existing } := by
  induction l generalizing r with
  | nil =>
    cases ran
    rfl
  | cons a l ih =>
    rw [List.map_cons,run_cons] at ran
    obtain ⟨mid,first,ran⟩ := Option.bind_eq_some_iff.mp ran
    rw [ih ran]
    cases here : r.held (key a) with
    | none =>
      cases (entry_made here).symm.trans first
      rfl
    | some b =>
      cases b with
      | false => cases (step_entry_none.mpr here).symm.trans first
      | true =>
        cases (entry_found here).symm.trans first
        rfl

end

/-! ### Requests that are repeated -/

omit [DecidableEq κ] [DecidableEq β] in
/-- What is asked for is there, or it cannot be read. -/
def Shelf.Served (s : Shelf κ β) : Request κ β → Prop
  | .source key _ => s.held key ≠ none
  | .entry key _ => s.held key ≠ none
  | .remark key body _ => ∀ bodies, s.noted key = some bodies → body ∈ bodies

omit [DecidableEq κ] [DecidableEq β] in
/-- A shelf that went on. What could not be read still cannot. -/
structure Shelf.Onward (s s' : Shelf κ β) : Prop where
  held : ∀ k, s.held k ≠ none → s'.held k ≠ none
  noted : ∀ k bodies', s'.noted k = some bodies' → ∃ bodies, s.noted k = some bodies ∧ bodies ⊆ bodies'

omit [DecidableEq κ] [DecidableEq β] in
theorem Shelf.Onward.refl (s : Shelf κ β) : s.Onward s := ⟨fun _ there => there,fun _ bodies there => ⟨bodies,there,fun _ inside => inside⟩⟩

omit [DecidableEq κ] [DecidableEq β] in
theorem Shelf.Served.onward {s' : Shelf κ β} (served : s.Served a) (onward : s.Onward s') : s'.Served a := by
  cases a with
  | source key reads => exact onward.held key served
  | entry key reads => exact onward.held key served
  | remark key body reads =>
    intro bodies' there
    obtain ⟨bodies,before,more⟩ := onward.noted key bodies' there
    exact more (served bodies before)

omit [DecidableEq β] in
theorem onward_hold (real : Bool) (s : Shelf κ β) (key : κ) (reads : Bool) : s.Onward (s.hold real key reads) := by
  cases real with
  | false => exact .refl s
  | true =>
    refine ⟨?_,(Shelf.Onward.refl s).noted⟩
    intro k there
    by_cases same : k = key
    · simp [Shelf.hold,same]
    · simpa [Shelf.hold,same] using there

omit [DecidableEq β] in
theorem onward_note (real : Bool) {s : Shelf κ β} {key : κ} {bodies : List β} (there : s.noted key = some bodies) (body : β) (reads : Bool) :
    s.Onward (s.note real key (bodies ++ [body]) reads) := by
  cases real with
  | false => exact .refl s
  | true =>
    refine ⟨(Shelf.Onward.refl s).held,?_⟩
    intro k bodies' now_there
    by_cases same : k = key
    · subst same
      refine ⟨bodies,there,?_⟩
      cases reads with
      | false => simp [Shelf.note] at now_there
      | true =>
        simp only [Shelf.note,if_true,Function.update_self,Option.some.injEq] at now_there
        exact now_there ▸ List.subset_append_left bodies [body]
    · exact ⟨bodies',by simpa [Shelf.note,same] using now_there,fun _ inside => inside⟩

/-- A request leaves what is asked for, and all that was there. -/
theorem served_step (met : ∀ k ∈ r.met, r.held k ≠ none) (ran : step true r a = some r') :
    r'.toShelf.Served a ∧ r.toShelf.Onward r'.toShelf ∧ ∀ k ∈ r'.met, r'.held k ≠ none := by
  have also {key : κ} {reads : Bool} (there : (r.hold true key reads).held key ≠ none) (k : κ) (inside : k ∈ key :: r.met) :
      (r.hold true key reads).held k ≠ none := by
    rcases List.mem_cons.mp inside with rfl | inside
    · exact there
    · exact (onward_hold true r.toShelf key reads).held k (met k inside)
  cases a with
  | source key reads =>
    by_cases inside : key ∈ r.met
    · cases (step_met inside).symm.trans ran
      exact ⟨met key inside,.refl _,met⟩
    · cases here : r.held key with
      | none =>
        cases (step_made inside here).symm.trans ran
        have there : (r.hold true key reads).held key ≠ none := by simp [Shelf.hold]
        exact ⟨there,onward_hold true r.toShelf key reads,also there⟩
      | some b =>
        cases b with
        | false => cases (step_source_none.mpr ⟨inside,here⟩).symm.trans ran
        | true =>
          cases (step_found inside here).symm.trans ran
          have there : r.held key ≠ none := by simp [here]
          refine ⟨there,.refl _,?_⟩
          intro k inside
          rcases List.mem_cons.mp inside with rfl | inside
          · exact there
          · exact met k inside
  | entry key reads =>
    cases here : r.held key with
    | none =>
      cases (entry_made here).symm.trans ran
      have there : (r.hold true key reads).held key ≠ none := by simp [Shelf.hold]
      exact ⟨there,onward_hold true r.toShelf key reads,fun k inside => also there k (List.mem_cons_of_mem _ inside)⟩
    | some b =>
      cases b with
      | false => cases (step_entry_none.mpr here).symm.trans ran
      | true =>
        cases (entry_found here).symm.trans ran
        exact ⟨by simp [Shelf.Served,here],.refl _,met⟩
  | remark key body reads =>
    cases here : r.noted key with
    | none => cases (step_remark_none.mpr here).symm.trans ran
    | some bodies =>
      by_cases old : body ∈ bodies
      · cases (remark_found here old).symm.trans ran
        refine ⟨?_,.refl _,met⟩
        intro others there
        cases here.symm.trans there
        exact old
      · cases (remark_made here old).symm.trans ran
        refine ⟨?_,onward_note true here body reads,met⟩
        intro others there
        cases reads with
        | false => simp [Shelf.note] at there
        | true =>
          simp only [Shelf.note,if_true,Function.update_self,Option.some.injEq] at there
          exact there ▸ List.mem_append_right bodies List.mem_cons_self

omit [DecidableEq κ] [DecidableEq β] in
theorem Shelf.Onward.trans {s s' s'' : Shelf κ β} (one : s.Onward s') (two : s'.Onward s'') : s.Onward s'' := by
  refine ⟨fun k there => two.held k (one.held k there),?_⟩
  intro k bodies'' there
  obtain ⟨bodies',before,more⟩ := two.noted k bodies'' there
  obtain ⟨bodies,first,more'⟩ := one.noted k bodies' before
  exact ⟨bodies,first,fun b inside => more (more' inside)⟩

/-- After a run all that was asked for is there. -/
theorem served_run {rest : List (Request κ β)} (met : ∀ k ∈ r.met, r.held k ≠ none) (ran : run true r rest = some r') :
    r.toShelf.Onward r'.toShelf ∧ ∀ a ∈ rest, r'.toShelf.Served a := by
  induction rest generalizing r with
  | nil =>
    cases ran
    exact ⟨.refl _,nofun⟩
  | cons a rest ih =>
    rw [run_cons] at ran
    obtain ⟨mid,first,ran⟩ := Option.bind_eq_some_iff.mp ran
    obtain ⟨served,onward,met'⟩ := served_step met first
    obtain ⟨onward',later⟩ := ih met' ran
    refine ⟨onward.trans onward',?_⟩
    intro b inside
    rcases List.mem_cons.mp inside with rfl | inside
    · exact served.onward onward'
    · exact later b inside

/-- Where all that is asked for is there, nothing is made. -/
theorem again_step (served : r.toShelf.Served a) (ran : step true r a = some r') :
    r'.toShelf = r.toShelf ∧ r'.counts.made = r.counts.made := by
  cases a with
  | source key reads =>
    by_cases inside : key ∈ r.met
    · cases (step_met inside).symm.trans ran
      exact ⟨rfl,rfl⟩
    · obtain ⟨b,here⟩ := Option.ne_none_iff_exists'.mp served
      cases b with
      | false => cases (step_source_none.mpr ⟨inside,here⟩).symm.trans ran
      | true =>
        cases (step_found inside here).symm.trans ran
        exact ⟨rfl,rfl⟩
  | entry key reads =>
    obtain ⟨b,here⟩ := Option.ne_none_iff_exists'.mp served
    cases b with
    | false => cases (step_entry_none.mpr here).symm.trans ran
    | true =>
      cases (entry_found here).symm.trans ran
      exact ⟨rfl,rfl⟩
  | remark key body reads =>
    cases here : r.noted key with
    | none => cases (step_remark_none.mpr here).symm.trans ran
    | some bodies =>
      cases (remark_found here (served bodies here)).symm.trans ran
      exact ⟨rfl,rfl⟩

theorem again_run {rest : List (Request κ β)} (served : ∀ a ∈ rest, r.toShelf.Served a) (ran : run true r rest = some r') :
    r'.counts.made = r.counts.made := by
  induction rest generalizing r with
  | nil =>
    cases ran
    rfl
  | cons a rest ih =>
    rw [run_cons] at ran
    obtain ⟨mid,first,ran⟩ := Option.bind_eq_some_iff.mp ran
    obtain ⟨same,made⟩ := again_step (served a List.mem_cons_self) first
    exact (ih (fun b inside => same ▸ served b (List.mem_cons_of_mem _ inside)) ran).trans made

/-- A list of requests that is repeated makes nothing. -/
theorem repeated {s : Shelf κ β} {requests : List (Request κ β)} {first second : Run κ β} (ran : run true ⟨s,[],.zero⟩ requests = some first)
    (again : run true ⟨first.toShelf,[],.zero⟩ requests = some second) : second.counts.made = 0 :=
  again_run (r := ⟨first.toShelf,[],.zero⟩) (served_run nofun ran).2 again

end
end
end Requests
