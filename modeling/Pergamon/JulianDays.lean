import Pergamon.Calendar

/-!
Day numbers in 32 bits. Each operation on numbers is an overflow where its result does not fit, except
the one that wraps. The greatest intermediate number is that from which the century is found, so the
functions are exact for all days whose numbers are below a quarter of the range, and that is for more
than a million years (`julian_days_exact`).
-/
namespace Pergamon

/-! ### Numbers of 32 bits -/

/-- The result of an operation on `i32`, unless it overflows. -/
def i32 (n : ℤ) : Option ℤ := if -2 ^ 31 ≤ n ∧ n < 2 ^ 31 then some n else none

/-- `n as i32` and the operations that wrap. -/
def as_i32 (n : ℤ) : ℤ := Int.bmod n (2 ^ 32)

section
variable {n m : ℤ}

theorem i32_eq_some : i32 n = some m ↔ (-2 ^ 31 ≤ n ∧ n < 2 ^ 31) ∧ n = m := by
  unfold i32
  by_cases fits : -2 ^ 31 ≤ n ∧ n < 2 ^ 31
  · simp only [fits,if_true,Option.some.injEq,and_self,true_and]
  · simp only [fits,if_false,reduceCtorEq,false_and]

theorem i32_ok (low : -2 ^ 31 ≤ n) (high : n < 2 ^ 31) : i32 n = some n := i32_eq_some.mpr ⟨⟨low,high⟩,rfl⟩

theorem as_i32_same (low : -2 ^ 31 ≤ n) (high : n < 2 ^ 31) : as_i32 n = n := by
  unfold as_i32
  exact Int.bmod_eq_of_le (by omega) (by omega)

end

/-! ### Day numbers -/

/-- Convert a calendar date to a Julian Day Number. -/
def julian_day_i32 (year : ℤ) (month day : ℕ) : Option ℤ := do
  let a := (as_i32 (14 - as_i32 month)).tdiv 12
  let y ← i32 ((← i32 (year + 4800)) - a)
  let m ← i32 ((← i32 (as_i32 month + (← i32 (12 * a)))) - 3)
  let months ← i32 ((← i32 (153 * m)) + 2)
  let in_year ← i32 (as_i32 day + months.tdiv 5)
  let years ← i32 (in_year + (← i32 (365 * y)))
  let fours ← i32 (years + y.tdiv 4)
  let centuries ← i32 (fours - y.tdiv 100)
  let leaps ← i32 (centuries + y.tdiv 400)
  i32 (leaps - 32045)

example : julian_day_i32 2000 1 1 = some 2451545 ∧ julian_day_i32 5900000 1 1 = none := by decide

/-- Convert a Julian Day Number back to a date. -/
def from_julian_day_i32 (jd : ℤ) : Option (ℤ × ℕ × ℕ) := do
  let a ← i32 (jd + 32044)
  let centuries ← i32 ((← i32 (4 * a)) + 3)
  let b := centuries.tdiv 146097
  let c ← i32 (a - (← i32 (146097 * b)).tdiv 4)
  let years ← i32 ((← i32 (4 * c)) + 3)
  let d := years.tdiv 1461
  let e ← i32 (c - (← i32 (1461 * d)).tdiv 4)
  let months ← i32 ((← i32 (5 * e)) + 2)
  let m := months.tdiv 153
  let before ← i32 ((← i32 (153 * m)) + 2)
  let day ← i32 ((← i32 (e - before.tdiv 5)) + 1)
  let month ← i32 ((← i32 (m + 3)) - (← i32 (12 * m.tdiv 10)))
  let year ← i32 ((← i32 ((← i32 ((← i32 (100 * b)) + d)) - 4800)) + m.tdiv 10)
  some (year,as_u32 month,as_u32 day)

section
variable {year jd : ℤ} {month day : ℕ} {date : ℤ × ℕ × ℕ}

theorem casts (month_le : month ≤ 12) (day_le : day ≤ 31) :
    as_i32 month = month ∧ as_i32 day = day ∧ as_i32 (14 - (month : ℤ)) = 14 - month :=
  ⟨as_i32_same (by omega) (by omega),as_i32_same (by omega) (by omega),as_i32_same (by omega) (by omega)⟩

/-- A day number that does not overflow is the day number. -/
theorem julian_day_i32_some (month_le : month ≤ 12) (day_le : day ≤ 31) (some_day : julian_day_i32 year month day = some jd) :
    julian_day year month day = jd := by
  obtain ⟨same,same',wraps⟩ := casts month_le day_le
  unfold julian_day_i32 at some_day
  simp only [same,same',wraps,Option.bind_eq_bind,Option.bind_eq_some_iff,i32_eq_some,and_assoc,exists_and_left,exists_eq_left'] at some_day
  unfold julian_day
  dsimp only
  omega

theorem julian_day_i32_ok (month_pos : 1 ≤ month) (month_le : month ≤ 12) (day_le : day ≤ 31) (low : 0 ≤ year) (high : year ≤ 5000000) :
    julian_day_i32 year month day = some (julian_day year month day) := by
  obtain ⟨same,same',wraps⟩ := casts month_le day_le
  obtain ⟨a,a_eq⟩ : ∃ a, a = (14 - (month : ℤ)).tdiv 12 := ⟨_,rfl⟩
  have a_div : a = (14 - (month : ℤ)) / 12 := a_eq.trans (Int.tdiv_eq_ediv_of_nonneg (by omega))
  obtain ⟨y,y_eq⟩ : ∃ y, y = year + 4800 - a := ⟨_,rfl⟩
  obtain ⟨m,m_eq⟩ : ∃ m, m = month + 12 * a - 3 := ⟨_,rfl⟩
  have y_range : 0 ≤ y ∧ y ≤ 5004800 := by omega
  have m_range : 0 ≤ m ∧ m ≤ 11 := by omega
  have fifths : (153 * m + 2).tdiv 5 = (153 * m + 2) / 5 := Int.tdiv_eq_ediv_of_nonneg (by omega)
  have years (k : ℤ) : y.tdiv k = y / k := Int.tdiv_eq_ediv_of_nonneg (by omega)
  have whole : julian_day year month day =
      day + (153 * m + 2).tdiv 5 + 365 * y + y.tdiv 4 - y.tdiv 100 + y.tdiv 400 - 32045 := by
    rw [y_eq,m_eq,a_eq]
    rfl
  rw [whole]
  unfold julian_day_i32
  simp only [same,same',wraps,← a_eq,Option.bind_eq_bind,Option.bind_eq_some_iff,i32_eq_some,and_assoc,exists_and_left,exists_eq_left',
    ← y_eq,← m_eq,fifths,years,and_true]
  have a_range : 0 ≤ a ∧ a ≤ 1 := by omega
  have months : 0 ≤ (153 * m + 2) / 5 ∧ (153 * m + 2) / 5 ≤ 337 := by omega
  have quarters : 0 ≤ y / 4 ∧ y / 4 ≤ 5004800 := by omega
  have centuries : 0 ≤ y / 100 ∧ y / 100 ≤ 5004800 := by omega
  have eras : 0 ≤ y / 400 ∧ y / 400 ≤ 5004800 := by omega
  clear whole same same' wraps a_eq a_div fifths years
  generalize (153 * m + 2) / 5 = w at months ⊢
  generalize y / 4 = r at quarters ⊢
  generalize y / 100 = s at centuries ⊢
  generalize y / 400 = t at eras ⊢
  and_intros
  all_goals omega

/-- The number from which the century is found is the greatest. -/
theorem from_julian_day_i32_fits (some_date : from_julian_day_i32 jd = some date) : 4 * (jd + 32044) + 3 < 2 ^ 31 := by
  obtain ⟨a,first,some_date⟩ := Option.bind_eq_some_iff.mp some_date
  obtain ⟨four,second,some_date⟩ := Option.bind_eq_some_iff.mp some_date
  obtain ⟨centuries,third,_⟩ := Option.bind_eq_some_iff.mp some_date
  obtain ⟨_,rfl⟩ := i32_eq_some.mp first
  obtain ⟨_,rfl⟩ := i32_eq_some.mp second
  obtain ⟨⟨_,small⟩,_⟩ := i32_eq_some.mp third
  exact small

/-- Nothing overflows after the number from which the century is found. -/
theorem from_julian_day_i32_ok (low : 0 ≤ jd + 32044) (high : 4 * (jd + 32044) + 3 < 2 ^ 31) :
    from_julian_day_i32 jd = some (from_julian_day jd) := by
  obtain ⟨a,a_eq⟩ : ∃ a, a = jd + 32044 := ⟨_,rfl⟩
  obtain ⟨b,b_eq⟩ : ∃ b, b = (4 * a + 3).tdiv 146097 := ⟨_,rfl⟩
  have b_div : b = (4 * a + 3) / 146097 := b_eq.trans (Int.tdiv_eq_ediv_of_nonneg (by omega))
  obtain ⟨c,c_eq⟩ : ∃ c, c = a - (146097 * b).tdiv 4 := ⟨_,rfl⟩
  have c_div : c = a - 146097 * b / 4 := by rw [c_eq,Int.tdiv_eq_ediv_of_nonneg (by omega)]
  obtain ⟨d,d_eq⟩ : ∃ d, d = (4 * c + 3).tdiv 1461 := ⟨_,rfl⟩
  have d_div : d = (4 * c + 3) / 1461 := d_eq.trans (Int.tdiv_eq_ediv_of_nonneg (by omega))
  obtain ⟨e,e_eq⟩ : ∃ e, e = c - (1461 * d).tdiv 4 := ⟨_,rfl⟩
  have e_div : e = c - 1461 * d / 4 := by rw [e_eq,Int.tdiv_eq_ediv_of_nonneg (by omega)]
  obtain ⟨m,m_eq⟩ : ∃ m, m = (5 * e + 2).tdiv 153 := ⟨_,rfl⟩
  have m_div : m = (5 * e + 2) / 153 := m_eq.trans (Int.tdiv_eq_ediv_of_nonneg (by omega))
  have tens : m.tdiv 10 = m / 10 := Int.tdiv_eq_ediv_of_nonneg (by omega)
  have fifths : (153 * m + 2).tdiv 5 = (153 * m + 2) / 5 := Int.tdiv_eq_ediv_of_nonneg (by omega)
  have c_range : 0 ≤ c ∧ c ≤ 36524 := by omega
  have e_range : 0 ≤ e ∧ e ≤ 365 := by omega
  have m_range : 0 ≤ m ∧ m ≤ 11 := by omega
  have whole : from_julian_day jd =
      (100 * b + d - 4800 + m.tdiv 10,as_u32 (m + 3 - 12 * m.tdiv 10),as_u32 (e - (153 * m + 2).tdiv 5 + 1)) := by
    rw [m_eq,e_eq,d_eq,c_eq,b_eq,a_eq]
    rfl
  have a_range : 0 ≤ a ∧ 4 * a + 3 < 2 ^ 31 := by omega
  have b_range : 0 ≤ b ∧ b ≤ 14699 ∧ 0 ≤ 146097 * b ∧ 146097 * b ≤ 4 * a + 3 := by omega
  have d_range : 0 ≤ d ∧ d ≤ 99 := by omega
  have w_range : 0 ≤ (153 * m + 2) / 5 ∧ (153 * m + 2) / 5 ≤ 337 := by omega
  have t_range : 0 ≤ m / 10 ∧ m / 10 ≤ 1 := by omega
  rw [fifths,tens] at whole
  clear b_div c_div d_div e_div m_div
  have first : i32 (jd + 32044) = some a := by
    rw [← a_eq]
    exact i32_ok (by omega) (by omega)
  have century : i32 (4 * a) = some (4 * a) ∧ i32 (4 * a + 3) = some (4 * a + 3) :=
    ⟨i32_ok (by omega) (by omega),i32_ok (by omega) (by omega)⟩
  have in_century : i32 (146097 * b) = some (146097 * b) ∧ i32 c = some c :=
    ⟨i32_ok (by omega) (by omega),i32_ok (by omega) (by omega)⟩
  have year : i32 (4 * c) = some (4 * c) ∧ i32 (4 * c + 3) = some (4 * c + 3) :=
    ⟨i32_ok (by omega) (by omega),i32_ok (by omega) (by omega)⟩
  have in_year : i32 (1461 * d) = some (1461 * d) ∧ i32 e = some e :=
    ⟨i32_ok (by omega) (by omega),i32_ok (by omega) (by omega)⟩
  have month : i32 (5 * e) = some (5 * e) ∧ i32 (5 * e + 2) = some (5 * e + 2) :=
    ⟨i32_ok (by omega) (by omega),i32_ok (by omega) (by omega)⟩
  have before : i32 (153 * m) = some (153 * m) ∧ i32 (153 * m + 2) = some (153 * m + 2) :=
    ⟨i32_ok (by omega) (by omega),i32_ok (by omega) (by omega)⟩
  have in_month : i32 (e - (153 * m + 2) / 5) = some (e - (153 * m + 2) / 5) ∧
      i32 (e - (153 * m + 2) / 5 + 1) = some (e - (153 * m + 2) / 5 + 1) :=
    ⟨i32_ok (by omega) (by omega),i32_ok (by omega) (by omega)⟩
  have turned : i32 (m + 3) = some (m + 3) ∧ i32 (12 * (m / 10)) = some (12 * (m / 10)) ∧
      i32 (m + 3 - 12 * (m / 10)) = some (m + 3 - 12 * (m / 10)) :=
    ⟨i32_ok (by omega) (by omega),i32_ok (by omega) (by omega),i32_ok (by omega) (by omega)⟩
  have years : i32 (100 * b) = some (100 * b) ∧ i32 (100 * b + d) = some (100 * b + d) ∧
      i32 (100 * b + d - 4800) = some (100 * b + d - 4800) ∧
      i32 (100 * b + d - 4800 + m / 10) = some (100 * b + d - 4800 + m / 10) :=
    ⟨i32_ok (by omega) (by omega),i32_ok (by omega) (by omega),i32_ok (by omega) (by omega),i32_ok (by omega) (by omega)⟩
  rw [whole]
  unfold from_julian_day_i32
  dsimp only [bind]
  rw [first,Option.bind_some,century.1,Option.bind_some,century.2,Option.bind_some,← b_eq,in_century.1,Option.bind_some,← c_eq,
    in_century.2,Option.bind_some]
  rw [year.1,Option.bind_some,year.2,Option.bind_some,← d_eq,in_year.1,Option.bind_some,← e_eq,in_year.2,Option.bind_some]
  rw [month.1,Option.bind_some,month.2,Option.bind_some,← m_eq,before.1,Option.bind_some,before.2,Option.bind_some,fifths,in_month.1,
    Option.bind_some,in_month.2,Option.bind_some]
  rw [tens,turned.1,Option.bind_some,turned.2.1,Option.bind_some,turned.2.2,Option.bind_some,years.1,Option.bind_some,years.2.1,
    Option.bind_some,years.2.2.1,Option.bind_some,years.2.2.2,Option.bind_some]

/-- A date whose day number is found, and from which the date is found, without an overflow. -/
def Fits (year : ℤ) (month day : ℕ) : Prop :=
  ∃ jd date, julian_day_i32 year month day = some jd ∧ from_julian_day_i32 jd = some date

/-- Dates that fit are found again from their day numbers, the next day has the next number, and all
    dates whose years have at most four digits fit. -/
theorem julian_days_exact (valid : ValidDate year month day) (first : 1 ≤ year) :
    (Fits year month day → ∃ jd, julian_day_i32 year month day = some jd ∧ from_julian_day_i32 jd = some (year,month,day) ∧
      julian_day_i32 (next_day year month day).1 (next_day year month day).2.1 (next_day year month day).2.2 = some (jd + 1)) ∧
      (year ≤ 9999 → Fits year month day) := by
  have day_le : day ≤ 31 := valid.day_le.trans (days_in_month_le year month)
  have nonneg : 0 ≤ march_year year month := by
    unfold march_year
    split_ifs
    all_goals omega
  have number := julian_day_eq valid nonneg
  obtain ⟨low,high,leap⟩ := march_day_range valid
  have years : march_year year month ≤ year + 4800 ∧ year + 4799 ≤ march_year year month := by
    unfold march_year
    split_ifs
    all_goals omega
  unfold days_before at number
  constructor
  · rintro ⟨jd,date,some_day,some_date⟩
    have same := julian_day_i32_some valid.month_le day_le some_day
    have small := from_julian_day_i32_fits some_date
    have big : year ≤ 5000000 := by omega
    have valid' := next_day_valid valid
    have next_year : 0 ≤ (next_day year month day).1 ∧ (next_day year month day).1 ≤ 5000000 := by
      unfold next_day
      split_ifs
      all_goals
        simp only
        omega
    have next := julian_day_next valid nonneg
    refine ⟨jd,some_day,?_,?_⟩
    · rw [from_julian_day_i32_ok (by omega) (by omega),← same,from_julian_day_julian_day valid nonneg]
    · rw [julian_day_i32_ok valid'.month_pos valid'.month_le (valid'.day_le.trans (days_in_month_le _ _)) next_year.1 next_year.2,next,same]
  · intro four_digits
    have some_day := julian_day_i32_ok valid.month_pos valid.month_le day_le (by omega) (by omega : year ≤ 5000000)
    exact ⟨_,_,some_day,from_julian_day_i32_ok (by omega) (by omega)⟩

/-- The 29th of February. -/
theorem julian_days_exact_leap : ∃ jd, julian_day_i32 2024 2 29 = some jd ∧ from_julian_day_i32 jd = some (2024,2,29) ∧
    julian_day_i32 2024 3 1 = some (jd + 1) := by
  have both := @julian_days_exact 2024 2 29 ⟨by decide,by decide,by decide,by decide⟩ (by decide)
  exact both.1 (both.2 (by decide))

end

end Pergamon
