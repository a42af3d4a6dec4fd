import Mathlib.Data.Nat.Digits.Defs
import Mathlib.Tactic.Common
import Mathlib.Tactic.Ring

/-!
Numbers written with decimal digits and zeros in front (`pad`), and the dictionary order of what is
written: digits of one length stand in the order of their numbers (`digits_lt_iff`).
-/
namespace Decimal

/-! ### Dictionary order -/

section
variable {p p' s s' : List Char}

/-- Texts that begin with equally many characters are ordered by these first. -/
theorem append_lt_iff (same : p.length = p'.length) : p ++ s < p' ++ s' ↔ p < p' ∨ p = p' ∧ s < s' := by
  induction p generalizing p' with
  | nil =>
    obtain rfl : p' = [] := List.length_eq_zero_iff.mp same.symm
    simp
  | cons c p ih =>
    cases p' with
    | nil => simp at same
    | cons c' p' =>
      simp only [List.cons_append,List.cons_lt_cons_iff,List.cons.injEq]
      rw [ih (by simpa using same)]
      tauto

theorem append_lt_left : p ++ s < p ++ s' ↔ s < s' := by
  rw [append_lt_iff rfl]
  simp

end

/-! ### Digits -/

/-- The number that digits stand for. -/
def value (l : List Char) : ℕ := Nat.ofDigitChars 10 l 0

/-- Nothing but digits. -/
def Digits (l : List Char) : Prop := ∀ c ∈ l, c.isDigit

section
variable {c d : Char} {l l' : List Char} {n w : ℕ}

theorem digit_range (digit : c.isDigit) : 48 ≤ c.toNat ∧ c.toNat ≤ 57 := by
  simp only [Char.isDigit,Bool.and_eq_true,decide_eq_true_eq,ge_iff_le] at digit
  exact ⟨digit.1,digit.2⟩

theorem char_lt_iff : c < d ↔ c.toNat < d.toNat := Iff.rfl

theorem value_cons (c : Char) (l : List Char) : value (c :: l) = 10 ^ l.length * (c.toNat - 48) + value l := by
  rw [value,Nat.ofDigitChars_cons,Nat.ofDigitChars_eq_ofDigitChars_zero]
  simp [value,Char.reduceToNat]

theorem value_lt (digits : Digits l) : value l < 10 ^ l.length := by
  induction l with
  | nil => simp [value]
  | cons c l ih =>
    have first := digit_range (digits c List.mem_cons_self)
    have rest := ih (fun d inside => digits d (List.mem_cons_of_mem _ inside))
    have most : 10 ^ l.length * (c.toNat - 48) ≤ 10 ^ l.length * 9 := Nat.mul_le_mul_left _ (by omega)
    rw [value_cons,List.length_cons,pow_succ]
    omega

/-- Digits of one length are ordered like their numbers. -/
theorem digits_lt_iff (digits : Digits l) (digits' : Digits l') (same : l.length = l'.length) :
    l < l' ↔ value l < value l' := by
  induction l generalizing l' with
  | nil =>
    obtain rfl : l' = [] := List.length_eq_zero_iff.mp same.symm
    simp
  | cons c l ih =>
    cases l' with
    | nil => simp at same
    | cons d l' =>
      have long : l.length = l'.length := by simpa using same
      have rest : Digits l := fun e inside => digits e (List.mem_cons_of_mem _ inside)
      have rest' : Digits l' := fun e inside => digits' e (List.mem_cons_of_mem _ inside)
      have below := value_lt rest
      have below' := value_lt rest'
      have first := digit_range (digits c List.mem_cons_self)
      have first' := digit_range (digits' d List.mem_cons_self)
      rw [List.cons_lt_cons_iff,char_lt_iff,value_cons,value_cons,ih rest rest' long,long]
      rw [long] at below
      generalize 10 ^ l'.length = b at *
      rcases lt_trichotomy c.toNat d.toNat with less | equal | more
      · have step : b * (c.toNat - 48 + 1) ≤ b * (d.toNat - 48) := Nat.mul_le_mul_left _ (by omega)
        rw [Nat.mul_add] at step
        simp only [less,true_or,true_iff]
        omega
      · have same_char : c = d := Char.ext (UInt32.toNat_inj.mp equal)
        subst same_char
        simp
      · have step : b * (d.toNat - 48 + 1) ≤ b * (c.toNat - 48) := Nat.mul_le_mul_left _ (by omega)
        have apart : c ≠ d := fun same_char => by simp [same_char] at more
        rw [Nat.mul_add] at step
        simp only [apart,false_and,or_false]
        constructor
        · intro less
          omega
        · intro less
          omega

/-! ### Zeros in front -/

/-- A number in decimal, with zeros in front up to a width. -/
def pad (w n : ℕ) : List Char := (Nat.toDigits 10 n).leftpad w '0'

theorem digits_pad (w n : ℕ) : Digits (pad w n) := by
  intro c inside
  rw [pad,List.leftpad,List.mem_append] at inside
  rcases inside with zero | digit
  · rw [List.eq_of_mem_replicate zero]
    rfl
  · exact Nat.isDigit_of_mem_toDigits (by decide) (by decide) digit

@[simp] theorem value_pad (w n : ℕ) : value (pad w n) = n := by
  rw [pad,List.leftpad,value,Nat.ofDigitChars_append,Nat.ofDigitChars_replicate_zero,Nat.mul_zero,
    Nat.ofDigitChars_toDigits (by decide) (by decide)]

theorem length_pad (some : 0 < w) (short : n < 10 ^ w) : (pad w n).length = w := by
  rw [pad,List.length_leftpad]
  exact max_eq_left ((Nat.length_toDigits_le_iff (by decide) some).mpr short)

/-- Numbers that are padded to one width are ordered as they are. -/
theorem pad_lt_iff {m : ℕ} (some : 0 < w) (short : m < 10 ^ w) (short' : n < 10 ^ w) : pad w m < pad w n ↔ m < n := by
  rw [digits_lt_iff (digits_pad w m) (digits_pad w n) (by rw [length_pad some short,length_pad some short']),
    value_pad,value_pad]

theorem pad_inj {m : ℕ} (same : pad w m = pad w n) : m = n := by
  rw [← value_pad w m,same,value_pad]

end

/-! ### Decimals -/

/-- Digits without the zeros at their end. -/
def drop_zeros : List Char → List Char
  | [] => []
  | c :: rest => if c = '0' ∧ drop_zeros rest = [] then [] else c :: drop_zeros rest

section
variable {l l' : List Char} {x x' : Char} {t t' : List Char}

theorem digits_drop_zeros (digits : Digits l) : Digits (drop_zeros l) := by
  induction l with
  | nil => exact digits
  | cons c l ih =>
    have rest := ih (fun d inside => digits d (List.mem_cons_of_mem _ inside))
    rw [drop_zeros]
    split_ifs
    · exact nofun
    · intro d inside
      rcases List.mem_cons.mp inside with rfl | later
      · exact digits d List.mem_cons_self
      · exact rest d later

theorem drop_zeros_inj (same : l.length = l'.length) (equal : drop_zeros l = drop_zeros l') : l = l' := by
  induction l generalizing l' with
  | nil => exact (List.length_eq_zero_iff.mp same.symm).symm
  | cons c l ih =>
    cases l' with
    | nil => simp at same
    | cons c' l' =>
      have long : l.length = l'.length := by simpa using same
      rw [drop_zeros,drop_zeros] at equal
      split_ifs at equal with null null'
      · rw [null.1,null'.1,ih long (null.2.trans null'.2.symm)]
      · obtain ⟨first,rest⟩ := List.cons.inj equal
        rw [first,ih long rest]

/-- Decimals of one length keep their order without the zeros at their end. -/
theorem drop_zeros_lt (digits : Digits l) (digits' : Digits l') (same : l.length = l'.length) :
    drop_zeros l < drop_zeros l' ↔ l < l' := by
  induction l generalizing l' with
  | nil =>
    obtain rfl : l' = [] := List.length_eq_zero_iff.mp same.symm
    simp [drop_zeros]
  | cons c l ih =>
    cases l' with
    | nil => simp at same
    | cons c' l' =>
      have first := digit_range (digits c List.mem_cons_self)
      have first' := digit_range (digits' c' List.mem_cons_self)
      have order := ih (fun d inside => digits d (List.mem_cons_of_mem _ inside))
        (fun d inside => digits' d (List.mem_cons_of_mem _ inside)) (by simpa using same)
      have zero {d : Char} (least : d.toNat = 48) : d = '0' := Char.ext (UInt32.toNat_inj.mp least)
      rw [List.cons_lt_cons_iff,← order,drop_zeros,drop_zeros]
      by_cases equal : c = c'
      · subst equal
        simp only [Char.lt_irrefl,true_and,false_or]
        by_cases null : c = '0'
        · cases none : drop_zeros l <;> cases none' : drop_zeros l' <;> simp [null]
        · simp [null]
      · simp only [equal,false_and,or_false,char_lt_iff]
        by_cases less : c.toNat < c'.toNat
        · have kept : ¬ (c' = '0' ∧ drop_zeros l' = []) := by
            rintro ⟨rfl,-⟩
            simp at less first
            omega
          rw [if_neg kept]
          split_ifs
          · simp [less]
          · simp [List.cons_lt_cons_iff,char_lt_iff,less]
        · have kept : ¬ (c = '0' ∧ drop_zeros l = []) := by
            rintro ⟨rfl,-⟩
            refine equal (zero ?_).symm
            simp at less
            omega
          rw [if_neg kept]
          split_ifs
          · simp [less]
          · simp [List.cons_lt_cons_iff,char_lt_iff,less,equal]

/-- Digits with something after them that is no digit: a number whose digits go on is smaller iff
    what follows the other's digits is above the digits. -/
theorem digits_append_lt_iff (digits : Digits l) (digits' : Digits l') (other : l ≠ l') (low : x < '0' ∨ '9' < x)
    (low' : x' < '0' ∨ '9' < x') :
    l ++ x :: t < l' ++ x' :: t' ↔ l < l' ∧ ¬ (l <+: l' ∧ '9' < x) ∨ l' < l ∧ l' <+: l ∧ '9' < x' := by
  have nine : '9'.toNat = 57 := rfl
  have nought : '0'.toNat = 48 := rfl
  induction l generalizing l' with
  | nil =>
    cases l' with
    | nil => exact absurd rfl other
    | cons c' l' =>
      have first' := digit_range (digits' c' List.mem_cons_self)
      have apart : x ≠ c' := by
        rintro rfl
        rw [char_lt_iff,char_lt_iff] at low
        omega
      rw [char_lt_iff,char_lt_iff] at low
      simp only [List.nil_append,List.cons_append,List.cons_lt_cons_iff,apart,false_and,or_false,List.nil_lt_cons,
        List.nil_prefix,true_and,List.not_lt_nil,char_lt_iff]
      omega
  | cons c l ih =>
    have first := digit_range (digits c List.mem_cons_self)
    cases l' with
    | nil =>
      have apart : c ≠ x' := by
        rintro rfl
        rw [char_lt_iff,char_lt_iff] at low'
        omega
      rw [char_lt_iff,char_lt_iff] at low'
      simp only [List.nil_append,List.cons_append,List.cons_lt_cons_iff,apart,false_and,or_false,List.nil_lt_cons,
        List.nil_prefix,true_and,List.not_lt_nil,char_lt_iff,false_or]
      omega
    | cons c' l' =>
      have order := @ih l' (fun d inside => digits d (List.mem_cons_of_mem _ inside))
        (fun d inside => digits' d (List.mem_cons_of_mem _ inside))
      by_cases equal : c = c'
      · subst equal
        have rest : l ≠ l' := fun same => other (by rw [same])
        simp only [List.cons_append,List.cons_lt_cons_iff,Char.lt_irrefl,true_and,false_or,List.cons_prefix_cons]
        exact order rest
      · simp only [List.cons_append,List.cons_lt_cons_iff,equal,Ne.symm equal,false_and,or_false,List.cons_prefix_cons,
          not_false_iff,and_true,and_false]

end

end Decimal
