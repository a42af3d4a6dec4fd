import Mathlib.Data.List.Chain
import Mathlib.Data.List.TakeWhile
import Mathlib.Tactic.IntervalCases
import Pergamon.Texts

/-!
Slugs, the readable part of the names of exported files. All stages keep to letters, digits and
hyphens, of which no two stand side by side, and a slug does not end with a hyphen however it is cut
(`slugify_shape`). Texts are lists of characters here.
-/
namespace Pergamon

/-! ### Slugs -/

def is_ascii_alphanumeric (c : Char) : Bool := ('a' ≤ c ∧ c ≤ 'z') ∨ ('A' ≤ c ∧ c ≤ 'Z') ∨ ('0' ≤ c ∧ c ≤ '9')

/-- A letter or a digit of a slug, or a hyphen for any other character. -/
def slug_char (c : Char) : Char := if is_ascii_alphanumeric c then to_ascii_lowercase c else '-'

/-- Collapse consecutive hyphens. -/
def collapse : Bool → List Char → List Char
  | _,[] => []
  | prev_hyphen,c :: rest =>
    if c = '-' then if prev_hyphen then collapse true rest else '-' :: collapse true rest
    else c :: collapse false rest

/-- `str::trim_matches` with a character. -/
def trim_matches (c : Char) (l : List Char) : List Char := ((l.dropWhile (· = c)).reverse.dropWhile (· = c)).reverse

/-- `str::rfind` with a character, where every character is one byte. -/
def rfind (c : Char) (l : List Char) : Option ℕ := (l.reverse.findIdx? (· = c)).map (fun i => l.length - 1 - i)

/-- Truncate a slug, preferring to break on a hyphen if this keeps at least half of the length. -/
def truncate_on_boundary (s : List Char) (max_len : ℕ) : List Char :=
  if s.length ≤ max_len then s
  else
    let candidate := s.take max_len
    match rfind '-' candidate with
    | some pos => if max_len / 2 ≤ pos then candidate.take pos else candidate
    | none => candidate

/-- Generate a filename-safe slug. -/
def slugify (input : List Char) (max_len : ℕ) : List Char :=
  let trimmed := trim_matches '-' (collapse false (input.map slug_char))
  if trimmed = [] then "untitled".toList else truncate_on_boundary trimmed max_len

example : slugify "Hello,  World! (2nd)".toList 60 = "hello-world-2nd".toList := by decide
example : slugify "one two three".toList 9 = "one-two".toList := by decide

/-! ### Their shape -/

/-- A letter, a digit or a hyphen. -/
def SlugChar (c : Char) : Prop := ('a' ≤ c ∧ c ≤ 'z') ∨ ('0' ≤ c ∧ c ≤ '9') ∨ c = '-'

instance (c : Char) : Decidable (SlugChar c) := by
  unfold SlugChar
  infer_instance

/-- No two hyphens stand side by side. -/
def Single (l : List Char) : Prop := l.IsChain (fun a b => a ≠ '-' ∨ b ≠ '-')

instance (l : List Char) : Decidable (Single l) := by
  unfold Single
  infer_instance

/-- A text of letters, digits and single hyphens that is not empty and does not end with a hyphen. -/
structure SlugShape (l : List Char) : Prop where
  chars : ∀ c ∈ l, SlugChar c
  single : Single l
  some_char : l ≠ []
  last : l.getLast? ≠ some '-'

section
variable {l s : List Char} {c : Char} {n : ℕ}

theorem slug_char_shape (c : Char) : SlugChar (slug_char c) := by
  unfold slug_char
  split_ifs with plain
  · unfold to_ascii_lowercase
    split_ifs with upper
    · have low : 65 ≤ c.toNat := upper.1
      have high : c.toNat ≤ 90 := upper.2
      refine Or.inl ?_
      generalize c.toNat = n at low high
      interval_cases n <;> decide
    · simp only [is_ascii_alphanumeric,decide_eq_true_eq,upper,false_or] at plain
      rcases plain with letter | digit
      · exact Or.inl letter
      · exact Or.inr (Or.inl digit)
  · exact Or.inr (Or.inr rfl)

theorem collapse_chars {prev : Bool} (inside : c ∈ collapse prev l) : c ∈ l := by
  induction l generalizing prev with
  | nil => cases inside
  | cons d l ih =>
    unfold collapse at inside
    split_ifs at inside with hyphen again
    · exact List.mem_cons_of_mem d (ih inside)
    · rcases List.mem_cons.mp inside with rfl | later
      · rw [hyphen]
        exact List.mem_cons_self
      · exact List.mem_cons_of_mem d (ih later)
    · rcases List.mem_cons.mp inside with rfl | later
      · exact List.mem_cons_self
      · exact List.mem_cons_of_mem d (ih later)

theorem collapse_single (prev : Bool) (l : List Char) : Single (collapse prev l) ∧ (prev = true → (collapse prev l).head? ≠ some '-') := by
  induction l generalizing prev with
  | nil => exact ⟨List.isChain_nil,by simp [collapse]⟩
  | cons d l ih =>
    unfold collapse
    split_ifs with hyphen again
    · exact ⟨(ih true).1,fun _ => (ih true).2 rfl⟩
    · refine ⟨(ih true).1.cons (fun c first => Or.inr ?_),fun prev_hyphen => absurd prev_hyphen again⟩
      rintro rfl
      exact (ih true).2 rfl first
    · exact ⟨(ih false).1.cons (fun c _ => Or.inl hyphen),fun _ => by simpa using hyphen⟩

/-- What is left of a text without a character at its ends. -/
theorem trim_matches_ends (c : Char) (l : List Char) : trim_matches c l <:+: l ∧ (trim_matches c l).head? ≠ some c ∧
    (trim_matches c l).getLast? ≠ some c := by
  have ends (m : List Char) : (m.dropWhile (· = c)).head? ≠ some c := by
    intro first
    have none := List.head?_dropWhile_not (· = c) m
    rw [first] at none
    simp at none
  have inner : trim_matches c l <+: l.dropWhile (· = c) := by
    rw [trim_matches,← List.reverse_suffix,List.reverse_reverse]
    exact List.dropWhile_suffix _
  refine ⟨inner.isInfix.trans (List.dropWhile_suffix _).isInfix,?_,?_⟩
  · intro first
    obtain ⟨rest,same⟩ := inner
    cases trimmed : trim_matches c l with
    | nil =>
      rw [trimmed] at first
      cases first
    | cons d more =>
      rw [trimmed] at first same
      cases first
      exact ends l (by rw [← same]; rfl)
  · rw [trim_matches,List.getLast?_reverse]
    exact ends _

theorem rfind_some {pos : ℕ} (found : rfind c l = some pos) : l[pos]? = some c ∧ ∀ i, pos < i → l[i]? ≠ some c := by
  obtain ⟨back,first,rfl⟩ := Option.map_eq_some_iff.mp found
  obtain ⟨inside,here,before⟩ := List.findIdx?_eq_some_iff_getElem.mp first
  rw [List.length_reverse] at inside
  rw [List.getElem_reverse] at here
  refine ⟨?_,fun i later there => ?_⟩
  · rw [List.getElem?_eq_getElem (by omega)]
    exact congrArg some (of_decide_eq_true here)
  · obtain ⟨short,same⟩ := List.getElem?_eq_some_iff.mp there
    refine before (l.length - 1 - i) (by omega) (decide_eq_true ?_)
    rw [List.getElem_reverse]
    simpa [show l.length - 1 - (l.length - 1 - i) = i by omega] using same

theorem rfind_none (missing : rfind c l = none) : c ∉ l := by
  intro inside
  have none : ∀ d ∈ l, ¬ d = c := by simpa [rfind] using missing
  exact none c inside rfl

theorem last_take (short : n < l.length) : (l.take (n + 1)).getLast? = l[n]? := by
  rw [List.getLast?_eq_getElem?,List.length_take,List.getElem?_take,if_pos (by omega)]
  congr 1
  omega

theorem truncate_shape (shape : SlugShape s) (two : 2 ≤ n) : SlugShape (truncate_on_boundary s n) := by
  have cut (k : ℕ) (some_char : 0 < k) (last : (s.take k).getLast? ≠ some '-') : SlugShape (s.take k) := by
    refine ⟨fun c inside => shape.chars c (List.mem_of_mem_take inside),shape.single.take k,?_,last⟩
    have := shape.some_char
    simpa [List.take_eq_nil_iff] using ⟨by omega,this⟩
  unfold truncate_on_boundary
  split_ifs with fits
  · exact shape
  obtain ⟨m,rfl⟩ : ∃ m, n = m + 1 := ⟨n - 1,by omega⟩
  have last := @last_take s m (by omega)
  simp only
  split
  · next pos found =>
    obtain ⟨here,after⟩ := rfind_some found
    obtain ⟨inside,_⟩ := List.getElem?_eq_some_iff.mp here
    rw [List.length_take] at inside
    rw [List.getElem?_take,if_pos (by omega)] at here
    split_ifs with half
    · obtain ⟨k,rfl⟩ : ∃ k, pos = k + 1 := ⟨pos - 1,by omega⟩
      rw [List.take_take,min_eq_left (by omega)]
      refine cut (k + 1) (by omega) ?_
      rw [last_take (by omega)]
      intro hyphen
      obtain ⟨_,one⟩ := List.getElem?_eq_some_iff.mp hyphen
      obtain ⟨_,two⟩ := List.getElem?_eq_some_iff.mp here
      rcases List.isChain_iff_getElem.mp shape.single k (by omega) with no | no
      · exact no one
      · exact no two
    · refine cut (m + 1) (by omega) ?_
      rw [last]
      have none := after m (by omega)
      rwa [List.getElem?_take,if_pos (by omega)] at none
  · next missing =>
    refine cut (m + 1) (by omega) ?_
    rw [last]
    intro hyphen
    refine rfind_none missing (List.mem_of_getElem? (i := m) ?_)
    rw [List.getElem?_take,if_pos (by omega),hyphen]

/-- Slugs have their shape whatever they are made of. -/
theorem slugify_shape (input : List Char) (two : 2 ≤ n) : SlugShape (slugify input n) := by
  unfold slugify
  obtain ⟨part,_,last⟩ := trim_matches_ends '-' (collapse false (input.map slug_char))
  by_cases empty : trim_matches '-' (collapse false (input.map slug_char)) = []
  · rw [if_pos empty]
    have chars : ∀ c ∈ "untitled".toList, SlugChar c := by
      have all : "untitled".toList.all (fun c => decide (SlugChar c)) = true := by decide
      intro c inside
      exact of_decide_eq_true (List.all_eq_true.mp all c inside)
    exact ⟨chars,by decide,by decide,by decide⟩
  · rw [if_neg empty]
    have single : Single (trim_matches '-' (collapse false (input.map slug_char))) := by
      have whole := (collapse_single false (input.map slug_char)).1
      obtain ⟨front,back,same⟩ := part
      rw [← same] at whole
      exact whole.left_of_append.right_of_append
    refine truncate_shape ⟨fun c inside => ?_,single,empty,last⟩ two
    obtain ⟨d,_,rfl⟩ := List.mem_map.mp (collapse_chars (part.subset inside))
    exact slug_char_shape d

/-! ### Slugs of slugs -/

theorem truncate_front (s : List Char) (n : ℕ) : truncate_on_boundary s n <+: s ∧ (truncate_on_boundary s n).length ≤ n := by
  unfold truncate_on_boundary
  by_cases fits : s.length ≤ n
  · rw [if_pos fits]
    exact ⟨List.prefix_rfl,fits⟩
  · have short : (s.take n).length ≤ n := List.length_take_le n s
    rw [if_neg fits]
    simp only
    cases rfind '-' (s.take n) with
    | none => exact ⟨List.take_prefix n s,short⟩
    | some pos =>
      by_cases half : n / 2 ≤ pos
      · simp only [if_pos half]
        exact ⟨(List.take_prefix pos _).trans (List.take_prefix n s),(List.take_prefix pos _).length_le.trans short⟩
      · simp only [if_neg half]
        exact ⟨List.take_prefix n s,short⟩

theorem slugify_length (input : List Char) (least : 8 ≤ n) : (slugify input n).length ≤ n := by
  unfold slugify
  simp only
  split_ifs with empty
  · have eight : "untitled".toList.length = 8 := by decide
    omega
  · exact (truncate_front _ n).2

/-- No slug begins with a hyphen. -/
theorem slugify_head (input : List Char) (n : ℕ) : (slugify input n).head? ≠ some '-' := by
  unfold slugify
  simp only
  split_ifs with empty
  · decide
  · intro hyphen
    obtain ⟨rest,cut⟩ := List.head?_eq_some_iff.mp hyphen
    obtain ⟨more,whole⟩ := (truncate_front (trim_matches '-' (collapse false (input.map slug_char))) n).1
    refine (trim_matches_ends '-' (collapse false (input.map slug_char))).2.1 ?_
    rw [← whole,cut]
    rfl

theorem slug_char_same (shape : SlugChar c) : slug_char c = c := by
  rcases shape with letter | digit | rfl
  · have plain : is_ascii_alphanumeric c = true := decide_eq_true (Or.inl letter)
    rw [slug_char,if_pos plain,to_ascii_lowercase,if_neg]
    rintro ⟨_,upper⟩
    have low : 97 ≤ c.toNat := letter.1
    have high : c.toNat ≤ 90 := upper
    omega
  · have plain : is_ascii_alphanumeric c = true := decide_eq_true (Or.inr (Or.inr digit))
    rw [slug_char,if_pos plain,to_ascii_lowercase,if_neg]
    rintro ⟨upper,_⟩
    have low : 65 ≤ c.toNat := upper
    have high : c.toNat ≤ 57 := digit.2
    omega
  · decide

theorem collapse_same {prev : Bool} (single : Single l) (first : prev = true → l.head? ≠ some '-') : collapse prev l = l := by
  induction l generalizing prev with
  | nil => rfl
  | cons d l ih =>
    have later : d = '-' → l.head? ≠ some '-' := by
      intro hyphen next
      obtain ⟨rest,rfl⟩ := List.head?_eq_some_iff.mp next
      rcases (List.isChain_cons_cons.mp single).1 with no | no
      · exact no hyphen
      · exact no rfl
    unfold collapse
    by_cases hyphen : d = '-'
    · have fresh : ¬ prev = true := by
        intro again
        exact first again (by rw [hyphen]; rfl)
      rw [if_pos hyphen,if_neg fresh,ih single.tail (fun _ => later hyphen),hyphen]
    · rw [if_neg hyphen,ih single.tail (fun no => absurd no (by decide))]

theorem trim_matches_same (first : l.head? ≠ some c) (last : l.getLast? ≠ some c) : trim_matches c l = l := by
  have front (m : List Char) (begins : m.head? ≠ some c) : m.dropWhile (· = c) = m := by
    cases m with
    | nil => rfl
    | cons d m =>
      have other : ¬ d = c := by simpa using begins
      simp [other]
  rw [trim_matches,front l first,front l.reverse (by simpa using last),List.reverse_reverse]

/-- A slug that is not too long is its own slug. -/
theorem slugify_same (shape : SlugShape l) (first : l.head? ≠ some '-') (fits : l.length ≤ n) : slugify l n = l := by
  have chars : l.map slug_char = l := by
    conv_rhs => rw [← List.map_id l]
    exact List.map_congr_left (fun c inside => slug_char_same (shape.chars c inside))
  have single : collapse false l = l := collapse_same shape.single (fun no => absurd no (by decide))
  unfold slugify
  simp only [chars,single,trim_matches_same first shape.last]
  rw [if_neg shape.some_char,truncate_on_boundary,if_pos fits]

/-- Slugs are safe names of bounded length, and their own slugs. -/
theorem slugify_safe (input : List Char) (least : 8 ≤ n) :
    (slugify input n ≠ [] ∧ (slugify input n).length ≤ n ∧ ∀ c ∈ slugify input n, SlugChar c) ∧
      ((slugify input n).head? ≠ some '-' ∧ (slugify input n).getLast? ≠ some '-' ∧ Single (slugify input n)) ∧
      slugify (slugify input n) n = slugify input n := by
  have shape : SlugShape (slugify input n) := slugify_shape input (by omega)
  have first := slugify_head input n
  have length := slugify_length input least
  exact ⟨⟨shape.some_char,length,shape.chars⟩,⟨first,shape.last,shape.single⟩,slugify_same shape first length⟩

theorem slugify_safe_words : slugify "One two, three".toList 8 = "one-two".toList ∧
    slugify (slugify "One two, three".toList 8) 8 = slugify "One two, three".toList 8 :=
  ⟨by decide,(slugify_safe "One two, three".toList le_rfl).2.2⟩

end

end Pergamon
