import Pergamon.Moves

/-!
The stamps of a hybrid logical clock. A tick goes strictly forward unless the counter is
full and the wall reading is not later; observing a stamp never goes below it, the device
tiebreak aside; saving and reloading the clock keeps it while the wall time fits the signed
column. So where no tick meets a full counter and no reload cuts a wall time off, every
stamp is above all that came before it (`stamps_increase`).
-/
namespace Pergamon

namespace Hlc

/-- The key `(wall_millis, counter)` used for ordering before the device tiebreak. -/
def causal_key (h : Hlc) : ℕ ×ₗ ℕ := toLex (h.wall_millis.toNat,h.counter.toNat)

theorem causal_key_le {a b : Hlc} : a.causal_key ≤ b.causal_key ↔
    a.wall_millis.toNat < b.wall_millis.toNat ∨
      (a.wall_millis.toNat = b.wall_millis.toNat ∧ a.counter.toNat ≤ b.counter.toNat) := by
  simp only [causal_key,Prod.Lex.toLex_le_toLex]

theorem causal_key_lt {a b : Hlc} : a.causal_key < b.causal_key ↔
    a.wall_millis.toNat < b.wall_millis.toNat ∨
      (a.wall_millis.toNat = b.wall_millis.toNat ∧ a.counter.toNat < b.counter.toNat) := by
  simp only [causal_key,Prod.Lex.toLex_lt_toLex]

theorem lt_of_causal_key {a b : Hlc} (less : a.causal_key < b.causal_key) : a < b := by
  rw [lt_iff]
  simp only [UInt64.lt_iff_toNat_lt,UInt32.lt_iff_toNat_lt,← UInt64.toNat_inj]
  rcases causal_key_lt.mp less with wall | ⟨wall,counter⟩
  · exact .inl wall
  · exact .inr ⟨wall,.inl counter⟩

/-- A tick that advances goes strictly forward. -/
theorem causal_key_tick {h : Hlc} {now_millis : UInt64} (advances : h.Advances now_millis) :
    h.causal_key < (h.tick now_millis).causal_key := by
  rw [causal_key_lt]
  unfold tick
  split
  · next later => exact .inl (UInt64.lt_iff_toNat_lt.mp later)
  · next here =>
    have room := lt_saturating_succ (advances.resolve_left here)
    exact .inr ⟨rfl,UInt32.lt_iff_toNat_lt.mp room⟩

theorem le_saturating_succ (c : UInt32) : c.toNat ≤ (saturating_succ c).toNat := by
  have bound := c.toNat_lt
  rw [saturating_succ_toNat]
  omega

theorem toNat_max64 (a b : UInt64) : (max a b).toNat = max a.toNat b.toNat := by
  have unfolded : max a b = if a ≤ b then b else a := rfl
  rw [unfolded]
  split
  · next le => rw [max_eq_right (UInt64.le_iff_toNat_le.mp le)]
  · next more => rw [max_eq_left (UInt64.lt_iff_toNat_lt.mp (UInt64.not_le.mp more)).le]

theorem toNat_max32 (a b : UInt32) : (max a b).toNat = max a.toNat b.toNat := by
  have unfolded : max a b = if a ≤ b then b else a := rfl
  rw [unfolded]
  split
  · next le => rw [max_eq_right (UInt32.le_iff_toNat_le.mp le)]
  · next more => rw [max_eq_left (UInt32.lt_iff_toNat_lt.mp (UInt32.not_le.mp more)).le]

/-- A clock that has observed a stamp is neither below itself nor below the stamp. -/
theorem causal_key_observe (h remote : Hlc) (now_millis : UInt64) :
    h.causal_key ≤ (h.observe remote now_millis).causal_key ∧
      remote.causal_key ≤ (h.observe remote now_millis).causal_key := by
  have wall : (h.observe remote now_millis).wall_millis.toNat =
      max (max h.wall_millis.toNat remote.wall_millis.toNat) now_millis.toNat := by
    change (max (max h.wall_millis remote.wall_millis) now_millis).toNat = _
    rw [toNat_max64,toNat_max64]
  have counter : (h.observe remote now_millis).wall_millis = h.wall_millis →
      h.counter.toNat ≤ (h.observe remote now_millis).counter.toNat := by
    intro own
    change max (max h.wall_millis remote.wall_millis) now_millis = h.wall_millis at own
    simp only [observe,own,true_and]
    split
    · exact le_trans (by rw [toNat_max32]; exact le_max_left _ _) (le_saturating_succ _)
    · rw [if_pos trivial]
      exact le_saturating_succ _
  have counter' : (h.observe remote now_millis).wall_millis = remote.wall_millis →
      remote.counter.toNat ≤ (h.observe remote now_millis).counter.toNat := by
    intro theirs
    change max (max h.wall_millis remote.wall_millis) now_millis = remote.wall_millis at theirs
    simp only [observe,theirs,and_true]
    split
    · exact le_trans (by rw [toNat_max32]; exact le_max_right _ _) (le_saturating_succ _)
    · rw [if_pos trivial]
      exact le_saturating_succ _
  simp only [← UInt64.toNat_inj] at counter counter'
  rw [causal_key_le,causal_key_le]
  refine ⟨?_,?_⟩
  · by_cases own : (h.observe remote now_millis).wall_millis.toNat = h.wall_millis.toNat
    · exact .inr ⟨own.symm,counter own⟩
    · left
      omega
  · by_cases theirs : (h.observe remote now_millis).wall_millis.toNat = remote.wall_millis.toNat
    · exact .inr ⟨theirs.symm,counter' theirs⟩
    · left
      omega

end Hlc

/-- What happens to the clock of a device: a local event, a remote stamp, or that it is
    saved in the database and loaded from it again. -/
inductive ClockCall where
  | tick (now_millis : UInt64)
  | observe (remote : Hlc) (now_millis : UInt64)
  | reload

namespace Database

/-- The clock after a call. -/
def clock_call (db : Database) (h : Hlc) : ClockCall → Hlc
  | .tick now_millis => h.tick now_millis
  | .observe remote now_millis => h.observe remote now_millis
  | .reload => (db.set_sync_hlc h).sync_hlc

/-- The stamp that a call emits or observes. -/
def stamp_call (h : Hlc) : ClockCall → List Hlc
  | .tick now_millis => [h.tick now_millis]
  | .observe remote _ => [remote]
  | .reload => []

/-- The clocks of the runs of a device, each with the stamps emitted or observed so far. -/
inductive ClockRun (allowed : Hlc → ClockCall → Prop) (db : Database) : Hlc → List Hlc → Prop where
  | start : ClockRun allowed db db.sync_hlc []
  | call {h : Hlc} {seen : List Hlc} {c : ClockCall} (run : ClockRun allowed db h seen) (may : allowed h c) :
      ClockRun allowed db (db.clock_call h c) (seen ++ stamp_call h c)

/-- A tick finds a later wall reading or room in the counter, and a reload a wall time that
    the column holds. -/
def Steady (h : Hlc) : ClockCall → Prop
  | .tick now_millis => h.Advances now_millis
  | .observe _ _ => True
  | .reload => h.wall_millis.toNat < 2 ^ 63

variable {db : Database} {h : Hlc} {seen : List Hlc}

/-- Nothing that was emitted or observed is above the clock. -/
theorem ClockRun.above (run : ClockRun Steady db h seen) :
    h.device_id = db.sync_hlc.device_id ∧ ∀ earlier ∈ seen, earlier.causal_key ≤ h.causal_key := by
  induction run with
  | start => exact ⟨rfl,by simp⟩
  | @call h seen c run may ih =>
    obtain ⟨device,above⟩ := ih
    have further {h' : Hlc} {new : List Hlc} (forward : h.causal_key ≤ h'.causal_key)
        (last : ∀ stamp ∈ new, stamp.causal_key ≤ h'.causal_key) :
        ∀ earlier ∈ seen ++ new, earlier.causal_key ≤ h'.causal_key := by
      intro earlier inside
      rcases List.mem_append.mp inside with before | there
      · exact (above earlier before).trans forward
      · exact last earlier there
    cases c with
    | tick now_millis =>
      refine ⟨?_,further (Hlc.causal_key_tick may).le (by simp [stamp_call,clock_call])⟩
      change (h.tick now_millis).device_id = _
      unfold Hlc.tick
      split <;> exact device
    | observe remote now_millis =>
      obtain ⟨own,theirs⟩ := Hlc.causal_key_observe h remote now_millis
      exact ⟨device,further own (by simpa [stamp_call,clock_call] using theirs)⟩
    | reload =>
      have same : db.clock_call h .reload = h := by
        have kept := Hlc.stored_eq may
        change Hlc.mk h.stored.wall_millis h.counter db.sync_hlc.device_id = h
        rw [kept,← device]
      rw [same]
      exact ⟨device,further le_rfl (by simp [stamp_call])⟩

/-- In every steady run, the stamp that a tick emits is greater than every stamp that was
    emitted or observed before it. -/
theorem stamps_increase (run : ClockRun Steady db h seen) (now_millis : UInt64) (steady : Steady h (.tick now_millis)) :
    ∀ earlier ∈ seen, earlier < h.tick now_millis := by
  intro earlier inside
  exact Hlc.lt_of_causal_key ((run.above.2 earlier inside).trans_lt (Hlc.causal_key_tick steady))

/-- A tick, a remote stamp from the future and a tick with a stalled wall clock. -/
theorem stamps_increase_stalled :
    (⟨5,0,"phone"⟩ : Hlc) < ⟨9,5,"phone"⟩ ∧ (⟨9,3,"tablet"⟩ : Hlc) < ⟨9,5,"phone"⟩ := by
  have unmoved : ClockRun Steady (fresh "phone") (fresh "phone").sync_hlc [] := .start
  have ticked := unmoved.call (c := .tick 5) (show Hlc.Advances _ 5 by decide)
  have observed := ticked.call (c := .observe ⟨9,3,"tablet"⟩ 5) trivial
  have below := stamps_increase observed 5 (show Hlc.Advances _ 5 by decide)
  exact ⟨below _ (.head _),below _ (.tail _ (.head _))⟩

/-- After a remote stamp with a full counter, a tick with a stalled wall clock stays below it. -/
theorem full_counter_stalls : ¬∀ (db : Database) (h : Hlc) (seen : List Hlc) (now_millis : UInt64),
    ClockRun (fun _ _ => True) db h seen → ∀ earlier ∈ seen, earlier < h.tick now_millis := by
  intro all
  have unmoved : ClockRun (fun _ _ => True) (fresh "phone") (fresh "phone").sync_hlc [] := .start
  have observed := unmoved.call (c := .observe ⟨10,Hlc.counterMax,"tablet"⟩ 5) trivial
  have less := all _ _ _ 5 observed ⟨10,Hlc.counterMax,"tablet"⟩ (.head _)
  exact absurd less (by decide)

end Database
end Pergamon
