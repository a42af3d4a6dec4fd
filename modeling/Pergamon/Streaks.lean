import Mathlib.Data.List.Sort
import Mathlib.Data.String.Basic
import Pergamon.Calendar
import Pergamon.Consecutive

/-!
Streaks: runs of days with activity. Reviews and reading each have their own loop. The reviews' loop
looks for dates backwards from today or yesterday, and only if the last date is one of these; the
reading loop counts back from the last date, unless that is before yesterday. They find the run that
ends today, or else yesterday, unless a date lies after today (`streaks_iff`).
-/
namespace Pergamon
open Decimal Consecutive

/-! ### Reading dates -/

/-- A number below a bound that digits spell. -/
def read_number (bound : ℕ) (digits : List Char) : Option ℕ :=
  if digits ≠ [] ∧ digits.all Char.isDigit ∧ value digits < bound then some (value digits) else none

/-- `str::parse::<u32>`. -/
def parse_u32 : List Char → Option ℕ
  | '+' :: digits => read_number (2 ^ 32) digits
  | digits => read_number (2 ^ 32) digits

/-- `str::parse::<i32>`. -/
def parse_i32 : List Char → Option ℤ
  | '-' :: digits => (read_number (2 ^ 31 + 1) digits).map (fun n => -n)
  | '+' :: digits => (read_number (2 ^ 31) digits).map (fun n => n)
  | digits => (read_number (2 ^ 31) digits).map (fun n => n)

/-- The day number of a date string. -/
def parse_jd (d : String) : Option ℤ := do
  let y ← parse_i32 (← Utf8.slice d.toList 0 4)
  let m ← parse_u32 (← Utf8.slice d.toList 5 7)
  let day ← parse_u32 (← Utf8.slice d.toList 8 10)
  some (julian_day y m day)

/-! ### The two loops -/

/-- `Vec::dedup`. -/
def dedup : List ℤ → List ℤ
  | a :: b :: rest => if a = b then dedup (b :: rest) else a :: dedup (b :: rest)
  | l => l

/-- The day numbers of date strings, in ascending order. -/
def sorted_days (dates : List String) : List ℤ := dedup ((dates.filterMap parse_jd).insertionSort (· ≤ ·))

/-- Compute the longest consecutive-day streak. -/
def compute_longest_streak (dates : List String) : ℕ :=
  match sorted_days dates with
  | [] => 0
  | jds => scan 1 1 jds

/-- Compute current and longest reading streaks. The current streak counts backwards from the last
    date, unless that is before yesterday. -/
def compute_reading_streaks (dates : List String) (today : String) : ℕ × ℕ :=
  let jds := sorted_days dates
  match jds.reverse with
  | [] => (0,0)
  | last :: rest =>
    if (parse_jd today).getD 0 - last > 1 then (0,scan 1 1 jds)
    else (back last rest + 1,scan 1 1 jds)

/-- The date some days before today. It panics where the parts of today's text are no texts. -/
def expect_date (today : String) (offset : ℕ) : Option String := do
  let year ← Utf8.slice today.toList 0 4
  let month ← Utf8.slice today.toList 5 7
  let day ← Utf8.slice today.toList 8 10
  let jd := julian_day ((parse_i32 year).getD 2026) ((parse_u32 month).getD 1) ((parse_u32 day).getD 1) - offset
  let (y,m,d) := from_julian_day jd
  some (String.ofList (date_text y m d))

/-- Count dates backwards until one is missing. The loop has no bound of its own: the fuel is one. -/
def count_back (dates : List String) (today : String) (start_offset : ℕ) : ℕ → ℕ → Option ℕ
  | 0,_ => none
  | fuel + 1,i => do
    let expected ← expect_date today (start_offset + i)
    if expected ∈ dates then count_back dates today start_offset fuel (i + 1) else some i

/-- `SELECT DISTINCT date(reviewed_at) AS d FROM review_logs ORDER BY d DESC`. -/
def review_dates (reviewed : List String) : List String := reviewed.dedup.insertionSort (· ≥ ·)

/-- Compute current and longest review streaks from the dates of the review logs. -/
def compute_streaks (fuel : ℕ) (reviewed : List String) (today_date : String) : Option (ℕ × ℕ) :=
  let dates := review_dates reviewed
  match dates with
  | [] => some (0,0)
  | first :: _ => do
    let start_offset ← if first = today_date then some (some 0)
      else (expect_date today_date 1).map (fun yesterday => if first = yesterday then some 1 else none)
    match start_offset with
    | none => some (0,compute_longest_streak dates)
    | some start_offset => do
      let current_streak ← count_back dates today_date start_offset fuel 0
      some (current_streak,max (compute_longest_streak dates) current_streak)

/-! ### What is meant -/

/-- The run that ends today, or else yesterday. -/
def current_streak (S : Finset ℤ) (today : ℤ) : ℕ :=
  if today ∈ S then run S today else if today - 1 ∈ S then run S (today - 1) else 0

/-- The numbers of days. -/
def numbers (days : List Day) : Finset ℤ := (days.map Day.number).toFinset

def texts (days : List Day) : List String := days.map Day.text

/-! ### Texts of days are read -/

section
variable {l : List Char}

theorem size_digits (digits : Digits l) : Utf8.size l = l.length := by
  induction l with
  | nil => rfl
  | cons c l ih =>
    have small := digit_range (digits c List.mem_cons_self)
    have one : c.utf8Size = 1 := by
      rw [Char.utf8Size_eq_one_iff]
      exact UInt32.le_iff_toNat_le.mpr (by change c.toNat ≤ 127; omega)
    rw [Utf8.size_cons,one,ih (fun d inside => digits d (List.mem_cons_of_mem _ inside)),List.length_cons,add_comm]

theorem read_digits {bound : ℕ} (digits : Digits l) (something : l ≠ []) (small : value l < bound) :
    read_number bound l = some (value l) := by
  rw [read_number,if_pos ⟨something,List.all_eq_true.mpr digits,small⟩]

theorem parse_digits (digits : Digits l) (something : l ≠ []) (small : value l < 10 ^ 4) :
    parse_i32 l = some (value l) ∧ parse_u32 l = some (value l) := by
  have unsigned : ∀ c rest, l = c :: rest → c ≠ '-' ∧ c ≠ '+' := by
    rintro c rest rfl
    have first := digit_range (digits c List.mem_cons_self)
    refine ⟨?_,?_⟩
    · rintro rfl
      simp at first
    · rintro rfl
      simp at first
  constructor
  · unfold parse_i32
    split
    · exact absurd rfl (unsigned _ _ rfl).1
    · exact absurd rfl (unsigned _ _ rfl).2
    · rw [read_digits digits something (by omega)]
      rfl
  · unfold parse_u32
    split
    · exact absurd rfl (unsigned _ _ rfl).2
    · exact read_digits digits something (by omega)

theorem parse_pad {w n : ℕ} (small : n < 10 ^ 4) : parse_i32 (pad w n) = some (n : ℤ) ∧ parse_u32 (pad w n) = some n := by
  have something : pad w n ≠ [] := by
    intro none
    have size := congrArg List.length none
    rw [pad,List.length_leftpad] at size
    simp at size
  simpa using parse_digits (digits_pad w n) something (by simpa using small)

end

namespace Day

/-- The slices of a date string. -/
theorem slices (a : Day) : Utf8.slice a.text.toList 0 4 = some (pad 4 a.year) ∧
    Utf8.slice a.text.toList 5 7 = some (pad 2 a.month) ∧ Utf8.slice a.text.toList 8 10 = some (pad 2 a.day) := by
  obtain ⟨year,month,day⟩ := a.length_parts
  have size (w n : ℕ) : Utf8.size (pad w n) = (pad w n).length := size_digits (digits_pad w n)
  have hyphen : '-'.utf8Size = 1 := rfl
  simp only [Utf8.slice_eq_some,toList_text]
  refine ⟨⟨[],'-' :: (pad 2 a.month ++ '-' :: pad 2 a.day),by simp,rfl,by rw [size,year]⟩,
    ⟨pad 4 a.year ++ ['-'],'-' :: pad 2 a.day,by simp,?_,?_⟩,
    ⟨pad 4 a.year ++ '-' :: (pad 2 a.month ++ ['-']),[],by simp,?_,?_⟩⟩
  · simp [size,year,hyphen]
  · rw [size,month]
  · simp [size,year,month,hyphen]
  · rw [size,day]

theorem parse_parts (a : Day) : parse_i32 (pad 4 a.year) = some (a.year : ℤ) ∧ parse_u32 (pad 2 a.month) = some a.month ∧
    parse_u32 (pad 2 a.day) = some a.day := by
  have month := a.valid.month_le
  have day := a.valid.day_le.trans (days_in_month_le _ _)
  exact ⟨(parse_pad a.four_digits).1,(parse_pad (by omega)).2,(parse_pad (by omega)).2⟩

theorem parse_text (a : Day) : parse_jd a.text = some a.number := by
  obtain ⟨year,month,day⟩ := a.slices
  obtain ⟨read_year,read_month,read_day⟩ := a.parse_parts
  simp only [parse_jd,year,month,day,read_year,read_month,read_day,Option.bind_eq_bind,Option.bind_some]
  rfl

theorem text_inj {a b : Day} (same : a.text = b.text) : a = b := by
  have number := a.parse_text
  rw [same,b.parse_text,Option.some_inj] at number
  exact number_inj.mp number.symm

theorem text_lt_text {a b : Day} : a.text < b.text ↔ a.number < b.number := by
  have order := @text_lt_iff a b [] []
  rw [List.append_nil,List.append_nil] at order
  rw [String.lt_iff_toList_lt,order]
  simp

end Day

theorem parse_texts (days : List Day) : (texts days).filterMap parse_jd = days.map Day.number := by
  rw [texts,List.filterMap_map]
  induction days with
  | nil => rfl
  | cons d days => simp [Day.parse_text]

/-! ### Sorted days -/

theorem mem_dedup {l : List ℤ} {n : ℤ} : n ∈ dedup l ↔ n ∈ l := by
  fun_induction dedup l with
  | case1 b rest ih => simp [ih]
  | case2 a b rest other ih => simp [ih]
  | case3 l short => rfl

theorem dedup_sorted {l : List ℤ} (sorted : l.Pairwise (· ≤ ·)) : (dedup l).Pairwise (· < ·) := by
  fun_induction dedup l with
  | case1 b rest ih => exact ih (List.pairwise_cons.mp sorted).2
  | case2 a b rest other ih =>
    obtain ⟨first,later⟩ := List.pairwise_cons.mp sorted
    refine List.pairwise_cons.mpr ⟨?_,ih later⟩
    intro n inside
    have close := first b List.mem_cons_self
    rcases List.mem_cons.mp (mem_dedup.mp inside) with rfl | rest
    · omega
    · have := List.rel_of_pairwise_cons later rest
      omega
  | case3 l short =>
    match l,short with
    | [],_ => exact List.Pairwise.nil
    | [a],_ => exact List.pairwise_singleton _ a
    | a :: b :: rest,short => exact absurd rfl (short a b rest)

theorem sorted_days_sorted (dates : List String) : (sorted_days dates).Pairwise (· < ·) :=
  dedup_sorted (List.pairwise_insertionSort (· ≤ ·) _)

theorem mem_sorted_days {dates : List String} {n : ℤ} : n ∈ sorted_days dates ↔ n ∈ dates.filterMap parse_jd := by
  rw [sorted_days,mem_dedup,List.mem_insertionSort]

/-- The longest streak of dates with these day numbers. -/
theorem longest_streak_eq {dates : List String} {S : Finset ℤ} (all : ∀ n, n ∈ S ↔ n ∈ dates.filterMap parse_jd) :
    compute_longest_streak dates = longest S := by
  have sorted := sorted_days_sorted dates
  have all : ∀ n, n ∈ S ↔ n ∈ sorted_days dates := fun n => (all n).trans mem_sorted_days.symm
  unfold compute_longest_streak
  split
  · next none =>
    have empty : S = ∅ := by
      refine Finset.eq_empty_of_forall_notMem ?_
      intro n inside
      simpa [none] using (all n).mp inside
    rw [empty]
    rfl
  · next something =>
    obtain ⟨a,rest,found⟩ := List.exists_cons_of_ne_nil something
    rw [found] at sorted all ⊢
    exact longest_of_scan sorted all

section
variable {days : List Day} {today : Day} {n : ℤ}

theorem mem_numbers : n ∈ numbers days ↔ n ∈ (texts days).filterMap parse_jd := by
  rw [numbers,parse_texts,List.mem_toFinset]

/-- A list that is not empty has a last day. -/
theorem exists_last (some : days ≠ []) : ∃ last ∈ days, ∀ d ∈ days, d.number ≤ last.number := by
  obtain ⟨n,inside,most⟩ := (numbers days).exists_max_image id (by simpa [numbers,Finset.nonempty_iff_ne_empty] using some)
  obtain ⟨last,here,rfl⟩ := List.mem_map.mp (List.mem_toFinset.mp inside)
  refine ⟨last,here,?_⟩
  intro d there
  exact most d.number (List.mem_toFinset.mpr (List.mem_map_of_mem there))

/-- The reading loop counts back from the last day. -/
theorem reading_streaks_eq {last : Day} (inside : last ∈ days) (most : ∀ d ∈ days, d.number ≤ last.number) :
    compute_reading_streaks (texts days) today.text =
      (if today.number - last.number > 1 then 0 else run (numbers days) last.number,longest (numbers days)) := by
  have sorted := sorted_days_sorted (texts days)
  have all : ∀ n, n ∈ numbers days ↔ n ∈ sorted_days (texts days) := fun n => mem_numbers.trans mem_sorted_days.symm
  have whole : scan 1 1 (sorted_days (texts days)) = longest (numbers days) := by
    cases found : sorted_days (texts days) with
    | nil =>
      have there : last.number ∈ numbers days := List.mem_toFinset.mpr (List.mem_map_of_mem inside)
      simpa [found] using (all _).mp there
    | cons a rest =>
      rw [found] at sorted all
      exact longest_of_scan sorted all
  unfold compute_reading_streaks
  simp only [whole,Day.parse_text,Option.getD_some]
  have falling : (sorted_days (texts days)).reverse.Pairwise (· > ·) := List.pairwise_reverse.mpr sorted
  cases backwards : (sorted_days (texts days)).reverse with
  | nil =>
    have there := (all last.number).mp (List.mem_toFinset.mpr (List.mem_map_of_mem inside))
    rw [← List.mem_reverse,backwards] at there
    cases there
  | cons last' rest =>
    rw [backwards] at falling
    have all' : ∀ n, n ∈ numbers days ↔ n ∈ last' :: rest := by
      intro n
      rw [all,← backwards,List.mem_reverse]
    have same : last' = last.number := by
      have there := (all' last').mpr List.mem_cons_self
      obtain ⟨d,here,number⟩ := List.mem_map.mp (List.mem_toFinset.mp there)
      have above := most d here
      rcases List.mem_cons.mp ((all' last.number).mp (List.mem_toFinset.mpr (List.mem_map_of_mem inside))) with equal | later
      · exact equal.symm
      · have := List.rel_of_pairwise_cons falling later
        omega
    subst same
    simp only []
    split_ifs
    · rfl
    · rw [run_of_back falling (fun n _ => all' n)]

/-- Dates backwards from today are those of the days before. -/
theorem expect_date_eq (today : Day) (offset : ℕ) : expect_date today.text offset =
    some (String.ofList (date_text (from_julian_day (today.number - offset)).1 (from_julian_day (today.number - offset)).2.1
      (from_julian_day (today.number - offset)).2.2)) := by
  obtain ⟨year,month,day⟩ := today.slices
  obtain ⟨read_year,read_month,read_day⟩ := today.parse_parts
  simp only [expect_date,year,month,day,read_year,read_month,read_day,Option.bind_eq_bind,Option.bind_some,Option.getD_some]
  rfl

theorem takeWhile_pad (w n : ℕ) (rest : List Char) : (pad w n ++ '-' :: rest).takeWhile Char.isDigit = pad w n := by
  rw [List.takeWhile_append_of_pos (digits_pad w n)]
  simp

theorem pad_append_inj {w m n : ℕ} {rest rest' : List Char} (same : pad w m ++ '-' :: rest = pad w n ++ '-' :: rest') :
    m = n ∧ rest = rest' := by
  have numbers : pad w m = pad w n := by rw [← takeWhile_pad w m rest,same,takeWhile_pad]
  rw [numbers,List.append_cancel_left_eq] at same
  exact ⟨pad_inj numbers,(List.cons.inj same).2⟩

/-- A text of a date is that of a day only for this day. -/
theorem date_text_inj {year : ℤ} {month day : ℕ} {d : Day} (same : date_text year month day = d.text.toList) :
    (year,month,day) = ((d.year : ℤ),d.month,d.day) := by
  rw [Day.toList_text,date_text,year_text] at same
  split_ifs at same with negative
  · have size := congrArg List.length (takeWhile_pad 4 d.year (pad 2 d.month ++ '-' :: pad 2 d.day))
    rw [← same,d.length_parts.1] at size
    simp at size
  · obtain ⟨years,same⟩ := pad_append_inj same
    obtain ⟨months,same⟩ := pad_append_inj same
    have days := pad_inj same
    rw [months,days,← years,Int.natAbs_of_nonneg (by omega)]

/-- A day is expected iff its number is. -/
theorem expected_iff {offset : ℕ} (inside : 0 ≤ today.number - offset + 32044) {expected : String}
    (looked : expect_date today.text offset = some expected) (d : Day) :
    d.text = expected ↔ d.number = today.number - offset := by
  rw [expect_date_eq,Option.some_inj] at looked
  subst looked
  constructor
  · intro same
    have found := date_text_inj (d := d) (String.ofList_injective (by rw [String.ofList_toList]; exact same.symm))
    have number := julian_day_from_julian_day inside
    rw [Prod.mk.injEq,Prod.mk.injEq] at found
    rw [found.1,found.2.1,found.2.2] at number
    exact number
  · intro number
    rw [← number,Day.number,from_julian_day_julian_day d.valid d.march_nonneg]
    rfl

theorem number_nonneg (d : Day) : 0 ≤ d.number := by
  have days := (march_day_range d.valid).1
  have year : 4799 ≤ march_year d.year d.month := by
    unfold march_year
    split_ifs
    · omega
    · omega
  have before : 32044 ≤ days_before (march_year d.year d.month) := by
    unfold days_before
    omega
  rw [Day.number,julian_day_eq d.valid d.march_nonneg]
  omega

theorem mem_numbers_iff : n ∈ numbers days ↔ ∃ d ∈ days, d.number = n := by
  simp [numbers]

theorem mem_texts_iff {s : String} : s ∈ texts days ↔ ∃ d ∈ days, d.text = s := by
  simp [texts]

/-- Dates backwards from a day are counted until one is missing. -/
theorem count_back_eq {dates : List String} {start fuel i : ℕ} (all : ∀ s, s ∈ dates ↔ s ∈ texts days)
    (early : 0 ≤ today.number - (start + i : ℕ) + 32044)
    (enough : run (numbers days) (today.number - (start + i : ℕ)) < fuel) :
    count_back dates today.text start fuel i = some (i + run (numbers days) (today.number - (start + i : ℕ))) := by
  induction fuel generalizing i with
  | zero => omega
  | succ fuel ih =>
    obtain ⟨expected,looked⟩ : ∃ expected, expect_date today.text (start + i) = some expected := ⟨_,expect_date_eq today _⟩
    have here : expected ∈ dates ↔ today.number - (start + i : ℕ) ∈ numbers days := by
      rw [all,mem_texts_iff,mem_numbers_iff]
      simp only [expected_iff early looked]
    rw [count_back,looked,Option.bind_eq_bind,Option.bind_some]
    by_cases inside : today.number - (start + i : ℕ) ∈ numbers days
    · have step := run_of_mem inside
      have next : today.number - (start + i : ℕ) - 1 = today.number - (start + (i + 1) : ℕ) := by
        push_cast
        ring
      obtain ⟨d,-,number⟩ := mem_numbers_iff.mp inside
      have later := number_nonneg d
      rw [next] at step
      rw [if_pos (here.mpr inside),ih (by rw [← next]; omega) (by omega),step]
      congr 1
      omega
    · rw [if_neg (fun there => inside (here.mp there)),run_of_notMem inside,Nat.add_zero]

theorem mem_review_dates {reviewed : List String} {s : String} : s ∈ review_dates reviewed ↔ s ∈ reviewed := by
  rw [review_dates,List.mem_insertionSort,List.mem_dedup]

/-- The reviews' loop counts back from today or yesterday if that is the last day. -/
theorem streaks_eq {last : Day} (inside : last ∈ days) (most : ∀ d ∈ days, d.number ≤ last.number) {fuel : ℕ}
    (enough : days.length < fuel) : compute_streaks fuel (texts days) today.text =
      some (if last.number = today.number ∨ last.number = today.number - 1 then run (numbers days) last.number else 0,
        longest (numbers days)) := by
  have short (n : ℤ) : run (numbers days) n < fuel := by
    have := run_le_card (numbers days) n
    have := List.toFinset_card_le (days.map Day.number)
    rw [List.length_map] at this
    unfold numbers at *
    omega
  have whole : compute_longest_streak (review_dates (texts days)) = longest (numbers days) := by
    refine longest_streak_eq ?_
    intro n
    rw [mem_numbers]
    simp only [List.mem_filterMap,mem_review_dates]
  have sorted : (review_dates (texts days)).Pairwise (· ≥ ·) := List.pairwise_insertionSort _ _
  have head : ∃ rest, review_dates (texts days) = last.text :: rest := by
    have there : last.text ∈ review_dates (texts days) := mem_review_dates.mpr (mem_texts_iff.mpr ⟨last,inside,rfl⟩)
    cases dates : review_dates (texts days) with
    | nil => simp [dates] at there
    | cons first rest =>
      refine ⟨rest,?_⟩
      rw [dates] at sorted there
      obtain ⟨d,here,rfl⟩ := mem_texts_iff.mp (mem_review_dates.mp (dates ▸ List.mem_cons_self : first ∈ review_dates (texts days)))
      rcases List.mem_cons.mp there with same | later
      · rw [same]
      · have above : last.text ≤ d.text := List.rel_of_pairwise_cons sorted later
        have not_less : ¬ d.number < last.number := by
          rw [← Day.text_lt_text]
          exact not_lt.mpr above
        have := most d here
        rw [Day.number_inj.mp (show d.number = last.number by omega)]
  obtain ⟨rest,dates⟩ := head
  have all (s : String) : s ∈ review_dates (texts days) ↔ s ∈ texts days := mem_review_dates
  have first := number_nonneg last
  obtain ⟨yesterday,looked⟩ : ∃ yesterday, expect_date today.text 1 = some yesterday := ⟨_,expect_date_eq today 1⟩
  rw [dates] at whole all
  unfold compute_streaks
  simp only [dates,looked,Option.map_some]
  by_cases ends : last.number = today.number
  · have counted := @count_back_eq days today (last.text :: rest) 0 fuel 0 all
      (by rw [← ends]; push_cast; omega) (short _)
    rw [if_pos (by rw [Day.number_inj.mp ends]),if_pos (Or.inl ends)]
    simp only [Option.bind_eq_bind,Option.bind_some,counted,whole,Nat.add_zero,Nat.cast_zero,sub_zero,Nat.zero_add,ends]
    rw [max_eq_left (run_le_longest _ _)]
  · have apart : last.text ≠ today.text := by
      intro same
      exact ends (congrArg Day.number (Day.text_inj same))
    have early := number_nonneg today
    have before : last.text = yesterday ↔ last.number = today.number - 1 := by
      simpa using expected_iff (by push_cast; omega) looked last
    rw [if_neg apart]
    by_cases close : last.number = today.number - 1
    · have counted := @count_back_eq days today (last.text :: rest) 1 fuel 0 all (by push_cast; omega) (short _)
      simp only [before.mpr close,if_true,Option.bind_eq_bind,Option.bind_some]
      rw [← before.mpr close,counted,if_pos (Or.inr close),close]
      simp only [Option.bind_some,whole,Nat.add_zero,Nat.cast_one,Nat.zero_add]
      rw [max_eq_left (run_le_longest _ _)]
    · have other : ¬ last.text = yesterday := fun same => close (before.mp same)
      simp [other,ends,close,whole]

/-- Both loops find the streaks, with enough fuel for the one that has no bound, iff no day lies
    after today. -/
theorem streaks_iff (days : List Day) (today : Day) :
    ((∀ fuel, days.length < fuel → compute_streaks fuel (texts days) today.text =
        some (current_streak (numbers days) today.number,longest (numbers days))) ∧
      compute_reading_streaks (texts days) today.text = (current_streak (numbers days) today.number,longest (numbers days))) ↔
        ∀ d ∈ days, d.number ≤ today.number := by
  by_cases none : days = []
  · subst none
    simp only [List.not_mem_nil,false_implies,implies_true,iff_true]
    exact ⟨fun _ _ => rfl,rfl⟩
  · obtain ⟨last,inside,most⟩ := exists_last none
    have there : last.number ∈ numbers days := mem_numbers_iff.mpr ⟨last,inside,rfl⟩
    have beyond : ∀ n, last.number < n → n ∉ numbers days := by
      intro n after found
      obtain ⟨d,here,rfl⟩ := mem_numbers_iff.mp found
      have := most d here
      omega
    rw [reading_streaks_eq inside most]
    constructor
    · rintro ⟨reviews,reading⟩
      have reviews := reviews (days.length + 1) (by omega)
      rw [streaks_eq inside most (by omega),Option.some_inj,Prod.mk.injEq] at reviews
      rw [Prod.mk.injEq] at reading
      by_contra later
      push Not at later
      obtain ⟨d,here,after⟩ := later
      have above := most d here
      have some := run_pos there
      rw [if_neg (by omega)] at reviews reading
      omega
    · intro all
      have upto := all last inside
      have current : current_streak (numbers days) today.number =
          if last.number = today.number ∨ last.number = today.number - 1 then run (numbers days) last.number else 0 := by
        unfold current_streak
        by_cases ends : last.number = today.number
        · rw [if_pos (ends ▸ there),if_pos (Or.inl ends),ends]
        · rw [if_neg (beyond _ (by omega))]
          by_cases close : last.number = today.number - 1
          · rw [if_pos (close ▸ there),if_pos (Or.inr close),close]
          · rw [if_neg (beyond _ (by omega)),if_neg (by omega)]
      rw [current]
      refine ⟨fun fuel enough => streaks_eq inside most enough,?_⟩
      congr 1
      split_ifs
      · omega
      · rfl
      · rfl
      · omega

end

/-! ### A date after today -/

def july_1 : Day := ⟨2025,7,1,by constructor <;> decide,by decide⟩

def july_2 : Day := ⟨2025,7,2,by constructor <;> decide,by decide⟩

/-- With activity today and tomorrow, the streak of reviews is 0 and the reading streak is 2, and not
    1. -/
theorem streaks_after_today :
    compute_streaks 3 (texts [july_1,july_2]) july_1.text ≠
        some (current_streak (numbers [july_1,july_2]) july_1.number,longest (numbers [july_1,july_2])) ∧
      compute_reading_streaks (texts [july_1,july_2]) july_1.text ≠
        (current_streak (numbers [july_1,july_2]) july_1.number,longest (numbers [july_1,july_2])) := by
  have today : july_1.number = 2460858 := by decide
  have tomorrow : july_2.number = 2460859 := by decide
  have inside (n : ℤ) : n ∈ numbers [july_1,july_2] ↔ n = 2460858 ∨ n = 2460859 := by simp [numbers,today,tomorrow]
  have most : ∀ d ∈ [july_1,july_2], d.number ≤ july_2.number := by
    simp only [List.mem_cons,List.not_mem_nil,or_false,forall_eq_or_imp,forall_eq]
    omega
  have one : run (numbers [july_1,july_2]) 2460858 = 1 := by
    rw [run_of_mem ((inside _).mpr (by omega)),run_of_notMem (by rw [inside]; omega)]
  have two : run (numbers [july_1,july_2]) 2460859 = 2 := by
    rw [run_of_mem ((inside _).mpr (by omega)),show (2460859 : ℤ) - 1 = 2460858 by norm_num,one]
  have current : current_streak (numbers [july_1,july_2]) july_1.number = 1 := by
    rw [current_streak,today,if_pos ((inside _).mpr (by omega)),one]
  rw [streaks_eq (by simp) most (by simp),reading_streaks_eq (by simp) most,current,today,tomorrow,two]
  simp

end Pergamon
