import Mathlib.Algebra.Order.Ring.Nat
import Mathlib.Data.Vector.Basic
import Mathlib.Tactic.Ring
import Pergamon.Fallible

/-!
Numbers and fields as bytes. A number is written with its most significant byte first;
a reader takes what it reads from the front of the bytes and leaves the rest.

A reader gives back what was written if it does so field by field (`Reads.bind`), and a
reader that takes the whole input ends where nothing is left (`Reads.whole`). What a reader
has read is found field by field too (`reader_bind_ok`).
-/
namespace Wire
open Fallible

/-! ### Numbers -/

/-- The last `k` bytes of a number, the most significant first. -/
def be_bytes (k n : ℕ) : List UInt8 := (List.range k).reverse.map (fun i => .ofNat (n / 2 ^ (8 * i)))

/-- The number that bytes stand for. -/
def value (bytes : List UInt8) : ℕ := bytes.foldl (fun n b => n * 256 + b.toNat) 0

@[simp] theorem length_be_bytes (k n : ℕ) : (be_bytes k n).length = k := by simp [be_bytes]

theorem be_bytes_succ (k n : ℕ) : be_bytes (k + 1) n = .ofNat (n / 256 ^ k) :: be_bytes k n := by
  simp [be_bytes,List.range_succ,pow_mul]

theorem value_cons (b : UInt8) (bytes : List UInt8) : value (b :: bytes) = b.toNat * 256 ^ bytes.length + value bytes := by
  have from_start (start : ℕ) : bytes.foldl (fun n b => n * 256 + b.toNat) start =
      start * 256 ^ bytes.length + value bytes := by
    unfold value
    induction bytes generalizing start with
    | nil => simp
    | cons b bytes ih =>
      rw [List.foldl_cons,ih,List.foldl_cons,ih (0 * 256 + b.toNat),List.length_cons,pow_succ]
      ring
  rw [value,List.foldl_cons,from_start]
  simp

theorem value_lt (bytes : List UInt8) : value bytes < 256 ^ bytes.length := by
  induction bytes with
  | nil => simp [value]
  | cons b bytes ih =>
    have small := b.toNat_lt
    rw [value_cons,List.length_cons,pow_succ]
    have : b.toNat * 256 ^ bytes.length ≤ 255 * 256 ^ bytes.length := Nat.mul_le_mul_right _ (by omega)
    omega

theorem value_be_bytes (k n : ℕ) : value (be_bytes k n) = n % 256 ^ k := by
  induction k with
  | zero => simp [be_bytes,value,Nat.mod_one]
  | succ k ih =>
    rw [be_bytes_succ,value_cons,ih,length_be_bytes,Nat.mod_pow_succ,UInt8.toNat_ofNat',Nat.mul_comm,Nat.add_comm]

theorem be_bytes_value (bytes : List UInt8) : be_bytes bytes.length (value bytes) = bytes := by
  have low (k m n : ℕ) : be_bytes k (m * 256 ^ k + n) = be_bytes k n := by
    induction k generalizing m with
    | zero => rfl
    | succ k ih =>
      have split : m * 256 ^ (k + 1) + n = 256 ^ k * (m * 256) + n := by ring
      rw [be_bytes_succ,be_bytes_succ,split,Nat.mul_add_div (Nat.pow_pos (by decide)),Nat.mul_comm (256 ^ k),ih]
      congr 1
      apply UInt8.toNat_inj.mp
      simp
  induction bytes with
  | nil => rfl
  | cons b bytes ih =>
    rw [List.length_cons,be_bytes_succ,value_cons,low,ih,Nat.mul_comm,Nat.mul_add_div (Nat.pow_pos (by decide)),
      Nat.div_eq_of_lt (value_lt bytes)]
    simp

theorem be_bytes_congr {k m n : ℕ} (same : m % 256 ^ k = n % 256 ^ k) : be_bytes k m = be_bytes k n := by
  have low (n : ℕ) : be_bytes k n = be_bytes k (n % 256 ^ k) := by
    have whole := be_bytes_value (be_bytes k n)
    rw [length_be_bytes,value_be_bytes] at whole
    exact whole.symm
  rw [low m,low n,same]

theorem be_bytes_inj {k m n : ℕ} (low : m < 256 ^ k) (low' : n < 256 ^ k) (same : be_bytes k m = be_bytes k n) : m = n := by
  have := congrArg value same
  rwa [value_be_bytes,value_be_bytes,Nat.mod_eq_of_lt low,Nat.mod_eq_of_lt low'] at this

/-! ### Readers -/

section
variable {ε α β : Type}

/-- A computation that takes bytes from the front of what is left. -/
abbrev Reader (ε α : Type) := StateT (List UInt8) (Except ε) α

/-- Take `n` bytes, if they are there. -/
def take (short : ε) (n : ℕ) : Reader ε (List UInt8) := fun bytes =>
  if n ≤ bytes.length then .ok (bytes.take n,bytes.drop n) else .error short

/-- The reader takes these bytes for this value, whatever comes after them. -/
def Reads (read : Reader ε α) (bytes : List UInt8) (a : α) : Prop := ∀ rest, read (bytes ++ rest) = .ok (a,rest)

variable {read : Reader ε α} {next : α → Reader ε β} {bytes bytes' : List UInt8} {a : α} {b : β}

theorem bind_apply (read : Reader ε α) (next : α → Reader ε β) (bytes : List UInt8) :
    (read >>= next) bytes = (read bytes >>= fun (a,rest) => next a rest) := rfl

theorem reader_bind_ok {rest : List UInt8} : (read >>= next) bytes = .ok (b,rest) ↔
    ∃ a mid, read bytes = .ok (a,mid) ∧ next a mid = .ok (b,rest) := by
  rw [bind_apply,bind_ok]
  exact ⟨fun ⟨(a,mid),first,then_⟩ => ⟨a,mid,first,then_⟩,fun ⟨a,mid,first,then_⟩ => ⟨(a,mid),first,then_⟩⟩

theorem reader_map_ok {f : α → β} {rest : List UInt8} : (f <$> read) bytes = .ok (b,rest) ↔
    ∃ a, read bytes = .ok (a,rest) ∧ f a = b := by
  show Except.map _ _ = _ ↔ _
  rw [map_ok]
  constructor
  · rintro ⟨⟨a,mid⟩,first,made⟩
    cases made
    exact ⟨a,first,rfl⟩
  · rintro ⟨a,first,rfl⟩
    exact ⟨(a,rest),first,rfl⟩

theorem Reads.bind (first : Reads read bytes a) (then_ : Reads (next a) bytes' b) :
    Reads (read >>= next) (bytes ++ bytes') b := by
  intro rest
  rw [bind_apply,List.append_assoc,first,ok_bind]
  exact then_ rest

theorem Reads.map {f : α → β} (first : Reads read bytes a) : Reads (f <$> read) bytes (f a) := by
  intro rest
  show Except.map _ _ = _
  rw [first]
  rfl

theorem reads_pure (a : α) : Reads (pure a : Reader ε α) [] a := fun _ => rfl

theorem reads_take (short : ε) (bytes : List UInt8) : Reads (take short bytes.length) bytes bytes := by
  intro rest
  simp [take]

/-- A reader that is run on what it reads, and on nothing else, leaves nothing. -/
theorem Reads.whole (reads : Reads read bytes a) : read bytes = .ok (a,[]) := by
  simpa using reads []

/-- What a reader takes is not the beginning of something else that it takes. -/
theorem Reads.prefix_free {a' : α} (reads : Reads read bytes a) (reads' : Reads read bytes' a') (begins : bytes <+: bytes') :
    bytes = bytes' := by
  obtain ⟨more,rfl⟩ := begins
  have whole := (reads more).symm.trans reads'.whole
  cases whole
  rw [List.append_nil]

theorem take_ok {short : ε} {n : ℕ} {taken rest : List UInt8} :
    take short n bytes = .ok (taken,rest) ↔ bytes = taken ++ rest ∧ taken.length = n := by
  unfold take
  constructor
  · intro ok
    split at ok
    · next fits =>
      cases ok
      exact ⟨(List.take_append_drop ..).symm,List.length_take_of_le fits⟩
    · cases ok
  · rintro ⟨rfl,rfl⟩
    simp

end
end Wire
