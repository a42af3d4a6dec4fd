import Mathlib.Data.Prod.Lex
import Mathlib.Order.Lattice
import Mathlib.Data.String.Basic
import Mathlib.Tactic.Common

/-!
The hybrid logical clock, the ordering primitive of sync. A stamp is a wall
time, a counter and the handle of the device that made it; stamps are ordered
lexicographically, so the order is total. `tick` advances a device's clock for a
local event and `observe` on receiving a remote stamp. The database keeps a wall
time in a signed column, so a stamp read back is the stamp with its wall time
cut off there (`stored`).
-/
namespace Pergamon

/-- A stamp attached to every change. -/
structure Hlc where
  wall_millis : UInt64
  counter : UInt32
  device_id : String
  deriving DecidableEq

namespace Hlc

/-- The greatest counter, where `saturating_add` stops. -/
def counterMax : UInt32 := 4294967295
/-- The greatest wall time that a signed column holds. -/
def wallMax : UInt64 := 9223372036854775807

/-- `(wall_millis, counter, device_id)`, compared lexicographically. -/
def key (h : Hlc) : ℕ ×ₗ ℕ ×ₗ String := toLex (h.wall_millis.toNat,toLex (h.counter.toNat,h.device_id))

theorem key_injective : Function.Injective key := by
  intro a b same
  cases a; cases b
  simpa [key,UInt64.toNat_inj,UInt32.toNat_inj] using same

instance : LinearOrder Hlc := LinearOrder.lift' key key_injective

theorem lt_iff {a b : Hlc} :
    a < b ↔ a.wall_millis < b.wall_millis ∨ (a.wall_millis = b.wall_millis ∧
      (a.counter < b.counter ∨ (a.counter = b.counter ∧ a.device_id < b.device_id))) := by
  change a.key < b.key ↔ _
  simp only [key,Prod.Lex.toLex_lt_toLex,UInt64.lt_iff_toNat_lt,UInt32.lt_iff_toNat_lt,UInt64.toNat_inj,
    UInt32.toNat_inj]

/-- `u32::saturating_add(1)`. -/
def saturating_succ (c : UInt32) : UInt32 := if c = counterMax then c else c + 1

theorem saturating_succ_toNat (c : UInt32) : (saturating_succ c).toNat = min (c.toNat + 1) 4294967295 := by
  have bound := c.toNat_lt
  unfold saturating_succ counterMax
  split
  · next full => subst full; rfl
  · next room =>
    have below : c.toNat ≠ 4294967295 := fun same => room (UInt32.toNat_inj.mp same)
    rw [UInt32.toNat_add,UInt32.toNat_one,Nat.mod_eq_of_lt (by omega)]
    omega

/-- Advance the clock for a new local event at the given wall reading. -/
def tick (h : Hlc) (now_millis : UInt64) : Hlc :=
  if now_millis > h.wall_millis then ⟨now_millis,0,h.device_id⟩
  else ⟨h.wall_millis,saturating_succ h.counter,h.device_id⟩

/-- Advance the clock on receiving a remote stamp. -/
def observe (h remote : Hlc) (now_millis : UInt64) : Hlc :=
  let wall := max (max h.wall_millis remote.wall_millis) now_millis
  let counter :=
    if wall = h.wall_millis ∧ wall = remote.wall_millis then saturating_succ (max h.counter remote.counter)
    else if wall = h.wall_millis then saturating_succ h.counter
    else if wall = remote.wall_millis then saturating_succ remote.counter
    else 0
  ⟨wall,counter,h.device_id⟩

/-- A stamp as a signed column gives it back: `i64::try_from(wall).unwrap_or(i64::MAX)`. -/
def stored (h : Hlc) : Hlc :=
  if h.wall_millis ≤ wallMax then h else { h with wall_millis := wallMax }

theorem stored_eq {h : Hlc} (fits : h.wall_millis.toNat < 2 ^ 63) : stored h = h := by
  have le : h.wall_millis ≤ wallMax := by
    rw [UInt64.le_iff_toNat_le]
    have : wallMax.toNat = 2 ^ 63 - 1 := rfl
    omega
  simp [stored,le]

theorem stored_le (h : Hlc) : h.stored ≤ h := by
  unfold stored
  split
  · exact le_rfl
  · next past => exact (lt_iff.mpr (.inl (UInt64.not_le.mp past))).le

theorem stored_stored (h : Hlc) : h.stored.stored = h.stored := by
  by_cases fits : h.wall_millis ≤ wallMax
  · simp [stored,fits]
  · simp [stored,fits]

/-- The clock can still advance at the given wall reading. -/
def Advances (h : Hlc) (now_millis : UInt64) : Prop := now_millis > h.wall_millis ∨ h.counter ≠ counterMax

instance (h : Hlc) (now_millis : UInt64) : Decidable (h.Advances now_millis) := inferInstanceAs (Decidable (_ ∨ _))

theorem lt_saturating_succ {c : UInt32} (room : c ≠ counterMax) : c < saturating_succ c := by
  rw [UInt32.lt_iff_toNat_lt,saturating_succ_toNat]
  have bound := c.toNat_lt
  have below : c.toNat ≠ 4294967295 := fun same => room (UInt32.toNat_inj.mp same)
  omega

theorem lt_tick {h : Hlc} {now_millis : UInt64} (advances : h.Advances now_millis) : h < h.tick now_millis := by
  unfold tick
  rw [lt_iff]
  split
  · next later => exact .inl later
  · next here => exact .inr ⟨rfl,.inl (lt_saturating_succ (advances.resolve_left here))⟩

theorem le_tick (h : Hlc) (now_millis : UInt64) : h ≤ h.tick now_millis := by
  by_cases advances : h.Advances now_millis
  · exact (lt_tick advances).le
  · simp only [Advances,not_or,not_not] at advances
    rw [tick,if_neg advances.1,saturating_succ,if_pos advances.2]

end Pergamon.Hlc
