import Mathlib.Data.List.Basic
import Mathlib.Tactic.Common

/-!
Texts with numbered placeholders, read from the front: a part that is known (`strip`), a number in
decimal (`number`), and the numbers of all placeholders moved up (`renumber`). A text that is put
together from known parts and placeholders is renumbered part by part, as long as no part holds a
question mark and none begins with a digit after a placeholder.
-/
namespace Placeholders

/-! ### Known parts and numbers -/

/-- What is left after a part that the text begins with. -/
def strip : List Char → List Char → Option (List Char)
  | [],text => some text
  | _ :: _,[] => none
  | c :: part,d :: text => if c = d then strip part text else none

@[simp] theorem strip_append (part text : List Char) : strip part (part ++ text) = some text := by
  induction part with
  | nil => rfl
  | cons c part ih => rw [List.cons_append,strip,if_pos rfl,ih]

@[simp] theorem strip_self (part : List Char) : strip part part = some [] := by
  simpa using strip_append part []

/-- Neither part begins with the other. -/
def differ : List Char → List Char → Bool
  | c :: part,d :: other => c ≠ d || differ part other
  | _,_ => false

theorem strip_differ {part other : List Char} (differs : differ part other) (text : List Char) :
    strip part (other ++ text) = none := by
  induction part generalizing other with
  | nil => cases differs
  | cons c part ih =>
    cases other with
    | nil => cases differs
    | cons d other =>
      rw [List.cons_append,strip]
      split
      · next same =>
        have later : differ part other := by simpa [differ,same] using differs
        exact ih later
      · rfl

/-- The text does not begin with a digit. -/
def NoDigit (text : List Char) : Prop := ∀ c ∈ text.head?, c.isDigit = false

/-- A number in decimal, and the text after it. -/
def number (text : List Char) : Option (ℕ × List Char) :=
  match text.takeWhile Char.isDigit with
  | [] => none
  | digits => some (Nat.ofDigitChars 10 digits 0,text.dropWhile Char.isDigit)

section
variable {text : List Char}

theorem noDigit_of_head {c : Char} (head : text.head? = some c) (plain : c.isDigit = false) (later : List Char) :
    NoDigit (text ++ later) := by
  intro d first
  rw [List.head?_append,head] at first
  cases first
  exact plain

theorem takeWhile_digits (n : ℕ) (ends : NoDigit text) :
    (Nat.toDigits 10 n ++ text).takeWhile Char.isDigit = Nat.toDigits 10 n := by
  rw [List.takeWhile_append_of_pos (fun c inside => Nat.isDigit_of_mem_toDigits (by decide) (by decide) inside)]
  cases text with
  | nil => simp
  | cons c text => simp [ends c rfl]

theorem dropWhile_digits (n : ℕ) (ends : NoDigit text) :
    (Nat.toDigits 10 n ++ text).dropWhile Char.isDigit = text := by
  rw [List.dropWhile_append_of_pos (fun c inside => Nat.isDigit_of_mem_toDigits (by decide) (by decide) inside)]
  cases text with
  | nil => rfl
  | cons c text => simp [ends c rfl]

/-- A number reads back from its digits. -/
theorem number_digits (n : ℕ) (ends : NoDigit text) : number (Nat.toDigits 10 n ++ text) = some (n,text) := by
  rw [number,takeWhile_digits n ends,dropWhile_digits n ends]
  split
  · next none => cases Nat.toDigits_ne_nil none
  · rw [Nat.ofDigitChars_toDigits (by decide) (by decide)]

end

/-! ### Renumbering -/

/-- The placeholder with these digits, moved up, for numbers below a limit; one without such a number stays. -/
def moved (limit offset : ℕ) (digits : List Char) : List Char :=
  let n := Nat.ofDigitChars 10 digits 0
  '?' :: if digits = [] ∨ limit ≤ n then digits else Nat.toDigits 10 ((n + offset) % limit)

/-- Every placeholder of the text, moved up. -/
def renumber (limit offset : ℕ) : List Char → List Char
  | [] => []
  | c :: text =>
    if c = '?' then moved limit offset (text.takeWhile Char.isDigit) ++
      renumber limit offset (text.dropWhile Char.isDigit)
    else c :: renumber limit offset text
termination_by text => text.length
decreasing_by
  · have := (List.dropWhile_sublist Char.isDigit (l := text)).length_le
    rw [List.length_cons]
    omega
  · rw [List.length_cons]
    omega

section
variable {limit offset : ℕ} {part text : List Char}

/-- A part without a question mark stays. -/
theorem renumber_part (plain : '?' ∉ part) :
    renumber limit offset (part ++ text) = part ++ renumber limit offset text := by
  induction part with
  | nil => rfl
  | cons c part ih =>
    have other : c ≠ '?' := fun same => plain (by simp [same])
    have rest : '?' ∉ part := fun inside => plain (List.mem_cons_of_mem _ inside)
    rw [List.cons_append,renumber,if_neg other,ih rest,List.cons_append]

/-- A placeholder is moved up. -/
theorem renumber_placeholder {n : ℕ} (low : n + offset < limit) (ends : NoDigit text) :
    renumber limit offset ('?' :: (Nat.toDigits 10 n ++ text)) =
      '?' :: (Nat.toDigits 10 (n + offset) ++ renumber limit offset text) := by
  have fits : ¬ (Nat.toDigits 10 n = [] ∨ limit ≤ n) := by
    rintro (none | high)
    · exact Nat.toDigits_ne_nil none
    · omega
  rw [renumber,if_pos rfl,takeWhile_digits n ends,dropWhile_digits n ends,moved,
    Nat.ofDigitChars_toDigits (by decide) (by decide),if_neg fits,Nat.mod_eq_of_lt low,List.cons_append]

end
end Placeholders
