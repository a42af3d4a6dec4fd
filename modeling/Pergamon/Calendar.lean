import Mathlib.Tactic.IntervalCases
import Mathlib.Tactic.Ring
import Pergamon.Decimal
import Pergamon.Utf8

/-!
Days of the Gregorian calendar and their Julian day numbers. A day number counts the days before the
March in which the day's year begins, and the days since; from the number, the centuries, the years
and the months are found again (`from_julian_day_number`).

Ten characters spell a day whose year has four digits, and such texts stand in the order of the days
(`text_lt_iff`).
-/
namespace Pergamon
open Decimal

/-! ### Day numbers -/

/-- The Julian day number of a calendar date. -/
def julian_day (year : ℤ) (month day : ℕ) : ℤ :=
  let a := (14 - (month : ℤ)).tdiv 12
  let y := year + 4800 - a
  let m := month + 12 * a - 3
  day + (153 * m + 2).tdiv 5 + 365 * y + y.tdiv 4 - y.tdiv 100 + y.tdiv 400 - 32045

def as_u32 (n : ℤ) : ℕ := (n % 2 ^ 32).toNat

/-- The calendar date of a Julian day number. -/
def from_julian_day (jd : ℤ) : ℤ × ℕ × ℕ :=
  let a := jd + 32044
  let b := (4 * a + 3).tdiv 146097
  let c := a - (146097 * b).tdiv 4
  let d := (4 * c + 3).tdiv 1461
  let e := c - (1461 * d).tdiv 4
  let m := (5 * e + 2).tdiv 153
  (100 * b + d - 4800 + m.tdiv 10,as_u32 (m + 3 - 12 * m.tdiv 10),as_u32 (e - (153 * m + 2).tdiv 5 + 1))

def leap_year (year : ℤ) : Bool := year % 4 = 0 ∧ (year % 100 = 0 → year % 400 = 0)

def days_in_month (year : ℤ) (month : ℕ) : ℕ :=
  match month with
  | 2 => if leap_year year then 29 else 28
  | 4 | 6 | 9 | 11 => 30
  | _ => 31

theorem days_in_month_le (year : ℤ) (month : ℕ) : days_in_month year month ≤ 31 := by
  unfold days_in_month
  split
  · split_ifs
    · omega
    · omega
  all_goals omega

/-- A date of the Gregorian calendar. -/
structure ValidDate (year : ℤ) (month day : ℕ) : Prop where
  month_pos : 1 ≤ month
  month_le : month ≤ 12
  day_pos : 1 ≤ day
  day_le : day ≤ days_in_month year month

/-! ### Years that begin in March -/

/-- The year that began last March, from the year -4800 on. -/
def march_year (year : ℤ) (month : ℕ) : ℤ := if month ≤ 2 then year + 4799 else year + 4800

/-- The months since March. -/
def march_month (month : ℕ) : ℤ := if month ≤ 2 then month + 9 else month - 3

/-- The days since the first of March. -/
def march_day (month day : ℕ) : ℤ := (153 * march_month month + 2) / 5 + day - 1

/-- The days before the March in which a year begins. -/
def days_before (Y : ℤ) : ℤ := 365 * Y + Y / 4 - Y / 100 + Y / 400

section
variable {year : ℤ} {month day : ℕ}

theorem march_month_range (valid : ValidDate year month day) : 0 ≤ march_month month ∧ march_month month ≤ 11 := by
  obtain ⟨pos,le,-,-⟩ := valid
  unfold march_month
  split_ifs
  · omega
  · omega

/-- All months but February end where the next one begins. -/
theorem month_length (pos : 1 ≤ month) (le : month ≤ 12) (other : month ≠ 2) :
    (153 * march_month month + 2) / 5 + days_in_month year month = (153 * (march_month month + 1) + 2) / 5 := by
  unfold march_month
  interval_cases month
  case «2» => exact absurd rfl other
  all_goals rfl

theorem march_month_february : march_month 2 = 11 := rfl

theorem february_day_le (day_le : day ≤ days_in_month year 2) : day ≤ 29 ∧ (day = 29 → year % 4 = 0 ∧ (year % 100 = 0 → year % 400 = 0)) := by
  simp only [days_in_month,leap_year,Bool.decide_and,Bool.and_eq_true,decide_eq_true_eq] at day_le
  split_ifs at day_le with leap
  · exact ⟨day_le,fun _ => leap⟩
  · exact ⟨by omega,by omega⟩

theorem february_last : day < days_in_month year 2 ↔ day < 28 ∨ day = 28 ∧ year % 4 = 0 ∧ (year % 100 = 0 → year % 400 = 0) := by
  simp only [days_in_month,leap_year,Bool.decide_and,Bool.and_eq_true,decide_eq_true_eq]
  split_ifs with leap
  · rw [and_iff_left leap]
    omega
  · rw [iff_false_intro (fun both : day = 28 ∧ _ => leap both.2),or_false]

/-- A month ends before the next one begins. -/
theorem march_day_lt (valid : ValidDate year month day) :
    (153 * march_month month + 2) / 5 ≤ march_day month day ∧ march_day month day < (153 * (march_month month + 1) + 2) / 5 := by
  obtain ⟨pos,le,day_pos,day_le⟩ := valid
  unfold march_day
  refine ⟨by omega,?_⟩
  by_cases february : month = 2
  · subst february
    have short := (february_day_le day_le).1
    rw [march_month_february]
    omega
  · have := @month_length year month pos le february
    omega

theorem march_month_le (le : month ≤ 12) (other : month ≠ 2) (pos : 1 ≤ month) : march_month month ≤ 10 := by
  unfold march_month
  split_ifs
  · omega
  · omega

/-- A year that begins in March has a day 366 at the end of February of a leap year only. -/
theorem march_day_range (valid : ValidDate year month day) : 0 ≤ march_day month day ∧ march_day month day ≤ 365 ∧
    (march_day month day = 365 → march_year year month % 4 = 3 ∧
      (march_year year month % 100 = 99 → march_year year month % 400 = 399)) := by
  have months := march_month_range valid
  obtain ⟨low,high⟩ := march_day_lt valid
  obtain ⟨pos,le,day_pos,day_le⟩ := valid
  by_cases february : month = 2
  · subst february
    obtain ⟨short,leap⟩ := february_day_le day_le
    have found : march_day 2 day = 336 + day := by
      unfold march_day
      rw [march_month_february]
      omega
    rw [found,march_year,if_pos le_rfl]
    clear low high found
    refine ⟨by omega,by omega,fun last => ?_⟩
    obtain ⟨fours,centuries⟩ := leap (by omega)
    clear leap
    exact ⟨by omega,fun at_end => by have := centuries (by omega); omega⟩
  · have := march_month_le le february pos
    refine ⟨by omega,by omega,fun last => by omega⟩

theorem month_of_march_day (valid : ValidDate year month day) : (5 * march_day month day + 2) / 153 = march_month month := by
  have months := march_month_range valid
  obtain ⟨low,high⟩ := march_day_lt valid
  have := (march_day_range valid).2.1
  omega

theorem julian_day_eq (valid : ValidDate year month day) (nonneg : 0 ≤ march_year year month) :
    julian_day year month day = days_before (march_year year month) + march_day month day - 32044 := by
  have months := (march_month_range valid).1
  obtain ⟨pos,le,-,-⟩ := valid
  have a : (14 - (month : ℤ)).tdiv 12 = if month ≤ 2 then 1 else 0 := by
    interval_cases month <;> rfl
  have y : year + 4800 - (if month ≤ 2 then 1 else 0) = march_year year month := by
    unfold march_year
    split_ifs
    · omega
    · omega
  have m : (month : ℤ) + 12 * (if month ≤ 2 then 1 else 0) - 3 = march_month month := by
    unfold march_month
    split_ifs
    · omega
    · omega
  unfold julian_day days_before march_day
  simp only [a,y,m]
  rw [Int.tdiv_eq_ediv_of_nonneg nonneg,Int.tdiv_eq_ediv_of_nonneg nonneg,Int.tdiv_eq_ediv_of_nonneg nonneg,
    Int.tdiv_eq_ediv_of_nonneg (by omega)]
  omega

/-- The days before a year of a century. -/
theorem days_before_century {b q : ℤ} (low : 0 ≤ q) (high : q < 100) :
    days_before (100 * b + q) = 36524 * b + b / 4 + (365 * q + q / 4) := by
  have centuries : (100 * b + q) / 100 = b := by omega
  have eras : (100 * b + q) / 400 = b / 4 := by omega
  have cycles : (100 * b + q) / 4 = 25 * b + q / 4 := by omega
  rw [days_before,centuries,eras,cycles]
  ring

/-- A century has a day 36525 only if its last year has a day 366. -/
theorem century_day_range {b q e : ℤ} (low : 0 ≤ q) (high : q < 100) (low' : 0 ≤ e) (high' : e ≤ 365) (last : e = 365 → q = 99 → b % 4 = 3) :
    0 ≤ 365 * q + q / 4 + e ∧ 365 * q + q / 4 + e ≤ 36524 ∧ (365 * q + q / 4 + e = 36524 → b % 4 = 3) := by
  refine ⟨by omega,by omega,fun full => ?_⟩
  have final : q = 99 := by omega
  exact last (by omega) final

/-- A number of days is taken apart into centuries, years and the days of one year. -/
theorem split_days {Y e a : ℤ} (low : 0 ≤ e) (high : e ≤ 365)
    (leap : e = 365 → Y % 4 = 3 ∧ (Y % 100 = 99 → Y % 400 = 399)) (sum : a = days_before Y + e) :
    (4 * a + 3) / 146097 = Y / 100 ∧ (4 * (a - 146097 * (Y / 100) / 4) + 3) / 1461 = Y % 100 ∧
      a - 146097 * (Y / 100) / 4 - 1461 * (Y % 100) / 4 = e := by
  obtain ⟨b,q,rfl,low',high'⟩ : ∃ b q, Y = 100 * b + q ∧ 0 ≤ q ∧ q < 100 :=
    ⟨Y / 100,Y % 100,(Int.mul_ediv_add_emod Y 100).symm,Int.emod_nonneg Y (by decide),Int.emod_lt_of_pos Y (by decide)⟩
  have fourth : e = 365 → q % 4 = 3 := by
    intro last
    have := (leap last).1
    omega
  have final : e = 365 → q = 99 → b % 4 = 3 := by
    intro last at_end
    have := (leap last).2 (by omega)
    omega
  clear leap
  have centuries : (100 * b + q) / 100 = b := by omega
  have years : (100 * b + q) % 100 = q := by omega
  have turn : 146097 * b / 4 = 36524 * b + b / 4 := by omega
  have turn' : 1461 * q / 4 = 365 * q + q / 4 := by omega
  rw [days_before_century low' high'] at sum
  rw [centuries,years,turn,turn']
  obtain ⟨first,full,century⟩ := century_day_range low' high' low high final
  have in_century : a - (36524 * b + b / 4) = 365 * q + q / 4 + e := by
    rw [sum]
    ring
  refine ⟨?_,?_,?_⟩
  · clear in_century turn turn' centuries years fourth final
    generalize 365 * q + q / 4 = r at *
    omega
  · rw [in_century]
    clear in_century sum turn turn' centuries years final century full first
    omega
  · rw [in_century]
    ring

theorem days_before_nonneg {Y : ℤ} (nonneg : 0 ≤ Y) : 0 ≤ days_before Y := by
  unfold days_before
  omega

theorem as_u32_eq {n : ℤ} {k : ℕ} (same : n = k) (small : k < 2 ^ 32) : as_u32 n = k := by
  rw [same,as_u32,← Nat.cast_ofNat,← Nat.cast_pow,← Int.natCast_mod,Int.toNat_natCast,Nat.mod_eq_of_lt small]

/-- A date is found again from its number. -/
theorem from_julian_day_julian_day (valid : ValidDate year month day) (nonneg : 0 ≤ march_year year month) :
    from_julian_day (julian_day year month day) = (year,month,day) := by
  obtain ⟨low,high,leap⟩ := march_day_range valid
  have number := julian_day_eq valid nonneg
  obtain ⟨centuries,years,days⟩ := split_days low high leap
    (show julian_day year month day + 32044 = days_before (march_year year month) + march_day month day by omega)
  have month_range := march_month_range valid
  have before := days_before_nonneg nonneg
  obtain ⟨A,at_day⟩ : ∃ A, A = julian_day year month day + 32044 := ⟨_,rfl⟩
  rw [← at_day] at centuries years days
  have b : (4 * A + 3).tdiv 146097 = march_year year month / 100 := by
    rw [Int.tdiv_eq_ediv_of_nonneg (by omega),centuries]
  have turn : (146097 * (march_year year month / 100)).tdiv 4 = 146097 * (march_year year month / 100) / 4 :=
    Int.tdiv_eq_ediv_of_nonneg (by omega)
  have turn' : (1461 * (march_year year month % 100)).tdiv 4 = 1461 * (march_year year month % 100) / 4 :=
    Int.tdiv_eq_ediv_of_nonneg (by omega)
  have d : (4 * (A - 146097 * (march_year year month / 100) / 4) + 3).tdiv 1461 = march_year year month % 100 := by
    rw [Int.tdiv_eq_ediv_of_nonneg (by omega),years]
  have m : (5 * march_day month day + 2).tdiv 153 = march_month month := by
    rw [Int.tdiv_eq_ediv_of_nonneg (by omega),month_of_march_day valid]
  have ten : (march_month month).tdiv 10 = march_month month / 10 := Int.tdiv_eq_ediv_of_nonneg month_range.1
  have five : (153 * march_month month + 2).tdiv 5 = (153 * march_month month + 2) / 5 := Int.tdiv_eq_ediv_of_nonneg (by omega)
  unfold from_julian_day
  simp only [← at_day,b,turn,d,turn',days,m,ten,five,Prod.mk.injEq]
  obtain ⟨pos,le,day_pos,day_le⟩ := valid
  have short := day_le.trans (days_in_month_le year month)
  refine ⟨?_,as_u32_eq ?_ (by omega),as_u32_eq (by unfold march_day; omega) (by omega)⟩
  · unfold march_year march_month
    split_ifs
    · omega
    · omega
  · unfold march_month
    split_ifs
    · omega
    · omega

/-- Every number of days is made up of years that begin in March and the days of one more. -/
theorem exists_march_day {a : ℤ} (nonneg : 0 ≤ a) : ∃ Y e, 0 ≤ Y ∧ 0 ≤ e ∧ e ≤ 365 ∧
    (e = 365 → Y % 4 = 3 ∧ (Y % 100 = 99 → Y % 400 = 399)) ∧ a = days_before Y + e := by
  obtain ⟨b,century⟩ : ∃ b, b = (4 * a + 3) / 146097 := ⟨_,rfl⟩
  have b_nonneg : 0 ≤ b := by omega
  obtain ⟨c,days⟩ : ∃ c, c = a - (36524 * b + b / 4) := ⟨_,rfl⟩
  have c_range : 0 ≤ c ∧ c ≤ 36524 ∧ (c = 36524 → b % 4 = 3) := by omega
  clear century
  obtain ⟨low,high,full⟩ := c_range
  obtain ⟨q,year⟩ : ∃ q, q = (4 * c + 3) / 1461 := ⟨_,rfl⟩
  have q_range : 0 ≤ q ∧ q < 100 := by omega
  obtain ⟨e,rest⟩ : ∃ e, e = c - (365 * q + q / 4) := ⟨_,rfl⟩
  have e_range : 0 ≤ e ∧ e ≤ 365 ∧ (e = 365 → q % 4 = 3) := by
    clear days full nonneg
    omega
  obtain ⟨e_low,e_high,fourth⟩ := e_range
  refine ⟨100 * b + q,e,by omega,e_low,e_high,fun last => ?_,?_⟩
  · have fourth := fourth last
    refine ⟨by omega,fun at_end => ?_⟩
    have final : q = 99 := by omega
    have := full (by omega)
    omega
  · rw [days_before_century q_range.1 q_range.2]
    omega

/-- Every number of days is that of a date. -/
theorem exists_date {jd : ℤ} (nonneg : 0 ≤ jd + 32044) :
    ∃ (year : ℤ) (month day : ℕ), ValidDate year month day ∧ 0 ≤ march_year year month ∧ julian_day year month day = jd := by
  obtain ⟨Y,e,first,low,high,leap,sum⟩ := exists_march_day nonneg
  obtain ⟨M,month⟩ : ∃ M, M = (5 * e + 2) / 153 := ⟨_,rfl⟩
  have M_range : 0 ≤ M ∧ M ≤ 11 := by omega
  have in_month : (153 * M + 2) / 5 ≤ e ∧ e < (153 * (M + 1) + 2) / 5 := by
    clear leap sum nonneg first
    omega
  obtain ⟨year',month',pos,le,in_year,named⟩ :
      ∃ (year : ℤ) (month : ℕ), 1 ≤ month ∧ month ≤ 12 ∧ march_year year month = Y ∧ march_month month = M := by
    clear leap sum nonneg first month in_month low high
    by_cases late : 10 ≤ M
    · refine ⟨Y - 4799,(M - 9).toNat,by omega,by omega,?_,?_⟩
      · rw [march_year,if_pos (by omega)]
        omega
      · rw [march_month,if_pos (by omega)]
        omega
    · refine ⟨Y - 4800,(M + 3).toNat,by omega,by omega,?_,?_⟩
      · rw [march_year,if_neg (by omega)]
        omega
      · rw [march_month,if_neg (by omega)]
        omega
  clear month
  obtain ⟨day,day_eq⟩ : ∃ day : ℕ, (day : ℤ) = e - (153 * M + 2) / 5 + 1 := ⟨_,Int.toNat_of_nonneg (by omega)⟩
  have whole : march_day month' day = e := by
    rw [march_day,named]
    omega
  have valid : ValidDate year' month' day := by
    refine ⟨pos,le,by omega,?_⟩
    by_cases february : month' = 2
    · subst february
      obtain rfl : M = 11 := named.symm.trans march_month_february
      rw [march_year,if_pos le_rfl] at in_year
      have short : day ≤ 29 := by omega
      rw [← Nat.sub_add_cancel (show 1 ≤ day by omega)]
      refine february_last.mpr ?_
      clear sum nonneg in_month whole
      by_cases last : e = 365
      · obtain ⟨fours,centuries⟩ := leap last
        refine Or.inr ⟨by omega,by omega,fun hundred => ?_⟩
        have := centuries (by omega)
        omega
      · clear leap
        omega
    · have := @month_length year' month' pos le february
      rw [named] at this
      omega
  refine ⟨year',month',day,valid,by rw [in_year]; exact first,?_⟩
  rw [julian_day_eq valid (by rw [in_year]; exact first),in_year,whole]
  omega

/-- A number is found again from its date. -/
theorem julian_day_from_julian_day {jd : ℤ} (nonneg : 0 ≤ jd + 32044) :
    julian_day (from_julian_day jd).1 (from_julian_day jd).2.1 (from_julian_day jd).2.2 = jd := by
  obtain ⟨year,month,day,valid,later,rfl⟩ := exists_date nonneg
  rw [from_julian_day_julian_day valid later]

/-! ### The order of days -/

theorem days_before_lt {Y Y' e e' : ℤ} (earlier : Y < Y') (high : e ≤ 365)
    (leap : e = 365 → Y % 4 = 3 ∧ (Y % 100 = 99 → Y % 400 = 399)) (low : 0 ≤ e') :
    days_before Y + e < days_before Y' + e' := by
  have next : days_before Y + e < days_before (Y + 1) := by
    unfold days_before
    omega
  have later : days_before (Y + 1) ≤ days_before Y' := by
    unfold days_before
    omega
  omega

/-- The dates before a date have smaller numbers. -/
theorem julian_day_lt {year' : ℤ} {month' day' : ℕ} (valid : ValidDate year month day) (valid' : ValidDate year' month' day')
    (nonneg : 0 ≤ march_year year month) (nonneg' : 0 ≤ march_year year' month')
    (earlier : year < year' ∨ year = year' ∧ (month < month' ∨ month = month' ∧ day < day')) :
    julian_day year month day < julian_day year' month' day' := by
  obtain ⟨low,high,leap⟩ := march_day_range valid
  obtain ⟨low',-,-⟩ := march_day_range valid'
  rw [julian_day_eq valid nonneg,julian_day_eq valid' nonneg']
  have march : march_year year month < march_year year' month' ∨ march_year year month = march_year year' month' ∧
      (march_month month < march_month month' ∨ march_month month = march_month month' ∧ day < day') := by
    have := valid.month_pos
    have := valid'.month_pos
    have := valid.month_le
    have := valid'.month_le
    unfold march_year march_month
    split_ifs
    all_goals omega
  rcases march with before | ⟨same,before | ⟨same',before⟩⟩
  · have := days_before_lt before high leap low'
    omega
  · have month_range := march_month_range valid'
    have := (march_day_lt valid).2
    have := valid'.day_pos
    have : march_day month day < march_day month' day' := by
      rw [march_day.eq_def month' day']
      omega
    rw [same]
    omega
  · rw [same,march_day,march_day,same']
    omega

/-- The day after a date. -/
def next_day (year : ℤ) (month day : ℕ) : ℤ × ℕ × ℕ :=
  if day < days_in_month year month then (year,month,day + 1)
  else if month < 12 then (year,month + 1,1)
  else (year + 1,1,1)

theorem next_day_valid (valid : ValidDate year month day) :
    ValidDate (next_day year month day).1 (next_day year month day).2.1 (next_day year month day).2.2 := by
  have days (year : ℤ) (month : ℕ) : 1 ≤ days_in_month year month := by
    unfold days_in_month
    split
    · split_ifs
      · omega
      · omega
    all_goals omega
  obtain ⟨pos,le,day_pos,day_le⟩ := valid
  unfold next_day
  split_ifs with inside before
  · exact ⟨pos,le,by simp,inside⟩
  · exact ⟨by simp,before,le_rfl,days _ _⟩
  · exact ⟨le_rfl,by simp,le_rfl,days _ _⟩

/-- The day after a date has the next number. -/
theorem julian_day_next (valid : ValidDate year month day) (nonneg : 0 ≤ march_year year month) :
    julian_day (next_day year month day).1 (next_day year month day).2.1 (next_day year month day).2.2 =
      julian_day year month day + 1 := by
  have valid' := next_day_valid valid
  have nonneg' : 0 ≤ march_year (next_day year month day).1 (next_day year month day).2.1 := by
    have := valid.month_le
    unfold march_year at nonneg ⊢
    unfold next_day
    split_ifs at nonneg ⊢
    all_goals
      simp only [] at *
      omega
  rw [julian_day_eq valid' nonneg',julian_day_eq valid nonneg]
  obtain ⟨pos,le,day_pos,day_le⟩ := valid
  clear valid' nonneg' nonneg
  unfold next_day
  split_ifs with inside before
  · unfold march_day
    push_cast
    omega
  · have last : day = days_in_month year month := by omega
    by_cases february : month = 2
    · subst february
      rw [february_last] at inside
      have short := february_day_le day_le
      unfold march_day march_month march_year days_before
      norm_num
      omega
    · have ends := @month_length year month pos le february
      have next : march_year year (month + 1) = march_year year month ∧ march_month (month + 1) = march_month month + 1 := by
        clear ends last inside day_le
        unfold march_year march_month
        split_ifs
        all_goals
          push_cast
          omega
      simp only [march_day,next.1,next.2]
      rw [← last] at ends
      push_cast
      omega
  · obtain rfl : month = 12 := by omega
    have last : day = 31 := le_antisymm day_le (not_lt.mp inside)
    have next : march_year (year + 1) 1 = march_year year 12 := by
      rw [march_year,march_year,if_pos (by decide),if_neg (by decide)]
      ring
    have turn : march_day 1 1 = march_day 12 31 + 1 := rfl
    rw [last,next]
    dsimp only
    rw [turn]
    ring

end

/-! ### Texts of days -/

/-- A year with at least four characters, a minus sign among them. -/
def year_text (year : ℤ) : List Char := if year < 0 then '-' :: pad 3 year.natAbs else pad 4 year.natAbs

/-- `{y:04}-{m:02}-{d:02}`. -/
def date_text (year : ℤ) (month day : ℕ) : List Char := year_text year ++ '-' :: (pad 2 month ++ '-' :: pad 2 day)

/-- A day whose year has four digits. -/
structure Day where
  year : ℕ
  month : ℕ
  day : ℕ
  valid : ValidDate year month day
  four_digits : year < 10000

namespace Day
variable {a b : Day}

/-- The number of a day. -/
def number (a : Day) : ℤ := julian_day a.year a.month a.day

def text (a : Day) : String := String.ofList (date_text a.year a.month a.day)

theorem march_nonneg (a : Day) : 0 ≤ march_year a.year a.month := by
  unfold march_year
  split_ifs
  · omega
  · omega

/-- The order of years, months and days. -/
def Earlier (a b : Day) : Prop := a.year < b.year ∨ a.year = b.year ∧ (a.month < b.month ∨ a.month = b.month ∧ a.day < b.day)

theorem ext_iff : a = b ↔ a.year = b.year ∧ a.month = b.month ∧ a.day = b.day := by
  cases a
  cases b
  simp

theorem number_of_earlier (earlier : a.Earlier b) : a.number < b.number := by
  refine julian_day_lt a.valid b.valid a.march_nonneg b.march_nonneg ?_
  rcases earlier with before | ⟨same,rest⟩
  · exact Or.inl (by exact_mod_cast before)
  · exact Or.inr ⟨by exact_mod_cast same,rest⟩

theorem number_lt_iff : a.number < b.number ↔ a.Earlier b := by
  refine ⟨fun less => ?_,number_of_earlier⟩
  by_contra late
  by_cases same : a = b
  · rw [same] at less
    exact lt_irrefl _ less
  · have later : b.Earlier a := by
      rw [ext_iff] at same
      unfold Earlier at late ⊢
      omega
    exact lt_asymm less (number_of_earlier later)

theorem number_inj : a.number = b.number ↔ a = b := by
  refine ⟨fun same => ?_,congrArg _⟩
  have back := from_julian_day_julian_day a.valid a.march_nonneg
  have back' := from_julian_day_julian_day b.valid b.march_nonneg
  rw [number,number] at same
  rw [same,back'] at back
  simp only [Prod.mk.injEq,Nat.cast_inj] at back
  exact ext_iff.mpr ⟨back.1.symm,back.2.1.symm,back.2.2.symm⟩

/-- The parts of a text of a day, which have fixed lengths. -/
theorem length_parts (a : Day) : (pad 4 a.year).length = 4 ∧ (pad 2 a.month).length = 2 ∧ (pad 2 a.day).length = 2 := by
  have month := a.valid.month_le
  have day := a.valid.day_le.trans (days_in_month_le _ _)
  exact ⟨length_pad (by decide) (by have := a.four_digits; omega),length_pad (by decide) (by omega),
    length_pad (by decide) (by omega)⟩

theorem toList_text (a : Day) : a.text.toList = pad 4 a.year ++ '-' :: (pad 2 a.month ++ '-' :: pad 2 a.day) := by
  simp [text,date_text,year_text]

/-- Texts of days stand in the order of the days. -/
theorem text_lt_iff {s s' : List Char} :
    a.text.toList ++ s < b.text.toList ++ s' ↔ a.number < b.number ∨ a = b ∧ s < s' := by
  obtain ⟨year,month,day⟩ := a.length_parts
  obtain ⟨year',month',day'⟩ := b.length_parts
  have month_le := a.valid.month_le
  have month_le' := b.valid.month_le
  have day_le := a.valid.day_le.trans (days_in_month_le _ _)
  have day_le' := b.valid.day_le.trans (days_in_month_le _ _)
  rw [toList_text,toList_text,List.append_assoc,List.append_assoc,append_lt_iff (year.trans year'.symm),List.cons_append,
    List.cons_append,List.cons_lt_cons_iff,List.append_assoc,List.append_assoc,append_lt_iff (month.trans month'.symm),
    List.cons_append,List.cons_append,List.cons_lt_cons_iff,append_lt_iff (day.trans day'.symm),
    pad_lt_iff (by decide) a.four_digits b.four_digits,pad_lt_iff (by decide) (by omega) (by omega),
    pad_lt_iff (by decide) (by omega) (by omega),number_lt_iff,Earlier,ext_iff]
  have inj (w m n : ℕ) : pad w m = pad w n ↔ m = n := ⟨pad_inj,congrArg _⟩
  simp only [inj,true_and]
  tauto

end Day

end Pergamon
