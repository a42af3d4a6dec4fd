import Pergamon.Calendar
import Pergamon.Library

/-!
The texts of times. A time is written with the clock of its own offset: in RFC 3339 if its offset is
of whole minutes and less than a day, without a fraction that is zero and without the zeros at the
end of any other; and in a longer form of the time crate otherwise. The dictionary order of such
texts goes by the day of the clock first (`fmt_time_lt`), and it is the order of the instants for
times of one offset, unless they differ only in the fractions of one UTC second, and one fraction
goes on where the other ends (`spelled_iff`).
-/
namespace Pergamon
open Decimal

/-! ### Clocks -/

namespace OffsetDateTime

/-- The seconds since 1970 on the clock of the time's own offset. -/
def local_second (t : OffsetDateTime) : ℤ := t.nanos / 10 ^ 9 + t.offset

/-- The Julian day number of the clock. -/
def local_day (t : OffsetDateTime) : ℤ := t.local_second / 86400 + 2440588

def second_of_day (t : OffsetDateTime) : ℕ := (t.local_second % 86400).toNat

/-- The nanoseconds of the second. -/
def fraction (t : OffsetDateTime) : ℕ := (t.nanos % 10 ^ 9).toNat

/-- An offset that RFC 3339 can write: of whole minutes, and less than a day. -/
def Plain (t : OffsetDateTime) : Prop := t.offset % 60 = 0 ∧ t.offset.natAbs < 86400

instance (t : OffsetDateTime) : Decidable t.Plain := by
  unfold Plain
  infer_instance

/-- A time whose year has four digits, with an offset of the time crate. -/
structure Usual (t : OffsetDateTime) : Prop where
  year : ∃ d : Day, d.number = t.local_day
  offset : t.offset.natAbs < 93600

end OffsetDateTime

/-! ### Texts -/

/-- Minutes and seconds. -/
def minute_text (s : ℕ) : List Char := pad 2 (s / 60) ++ ':' :: pad 2 (s % 60)

/-- Hours, minutes and seconds. -/
def clock_text (s : ℕ) : List Char := pad 2 (s / 3600) ++ ':' :: minute_text (s % 3600)

/-- The nine decimals of a fraction without the zeros at their end. -/
def decimals (fraction : ℕ) : List Char := drop_zeros (pad 9 fraction)

def fraction_text (fraction : ℕ) : List Char := if fraction = 0 then [] else '.' :: decimals fraction

def sign (offset : ℤ) : Char := if offset < 0 then '-' else '+'

def zone_text (offset : ℤ) : List Char :=
  if offset = 0 then ['Z']
  else sign offset :: (pad 2 (offset.natAbs / 3600) ++ ':' :: pad 2 (offset.natAbs / 60 % 60))

/-- The decimals of a fraction, at least one. -/
def display_fraction (fraction : ℕ) : List Char :=
  match pad 9 fraction with
  | [] => []
  | c :: rest => c :: drop_zeros rest

namespace OffsetDateTime

def date_part (t : OffsetDateTime) : List Char :=
  date_text (from_julian_day t.local_day).1 (from_julian_day t.local_day).2.1 (from_julian_day t.local_day).2.2

/-- The RFC 3339 text of a time. -/
def rfc3339 (t : OffsetDateTime) : Option String :=
  if t.Plain then
    some (String.ofList (t.date_part ++ 'T' :: (clock_text t.second_of_day ++ (fraction_text t.fraction ++ zone_text t.offset))))
  else none

/-- The text that every time has. -/
def display (t : OffsetDateTime) : String :=
  String.ofList (t.date_part ++ ' ' :: (Nat.toDigits 10 (t.second_of_day / 3600) ++ ':' :: (minute_text (t.second_of_day % 3600) ++
    '.' :: (display_fraction t.fraction ++ ' ' :: sign t.offset :: clock_text t.offset.natAbs))))

end OffsetDateTime

/-- The time crate writes times as it documents, if their years have four digits. -/
structure WritesTimes [TimeCrate] : Prop where
  rfc3339 : ∀ t : OffsetDateTime, t.Usual → TimeCrate.format_rfc3339 t = t.rfc3339
  display : ∀ t : OffsetDateTime, t.Usual → TimeCrate.to_string t = t.display

/-! ### The order of the parts -/

section
variable {r r' : List Char}

theorem minute_text_lt {s s' : ℕ} (short : s < 3600) (short' : s' < 3600) :
    minute_text s ++ r < minute_text s' ++ r' ↔ s < s' ∨ s = s' ∧ r < r' := by
  have minutes : (pad 2 (s / 60)).length = (pad 2 (s' / 60)).length := by
    rw [length_pad (by decide) (by omega),length_pad (by decide) (by omega)]
  have seconds : (pad 2 (s % 60)).length = (pad 2 (s' % 60)).length := by
    rw [length_pad (by decide) (by omega),length_pad (by decide) (by omega)]
  have inj (m n : ℕ) : pad 2 m = pad 2 n ↔ m = n := ⟨pad_inj,congrArg _⟩
  rw [minute_text,minute_text,List.append_assoc,List.append_assoc,append_lt_iff minutes,List.cons_append,List.cons_append,
    List.cons_lt_cons_iff,append_lt_iff seconds,pad_lt_iff (by decide) (by omega) (by omega),
    pad_lt_iff (by decide) (by omega) (by omega),inj,inj]
  simp only [Char.lt_irrefl,false_or,true_and]
  by_cases tail : r < r'
  · simp only [tail,and_true]
    omega
  · simp only [tail,and_false,or_false]
    omega

theorem clock_text_lt {s s' : ℕ} (short : s < 360000) (short' : s' < 360000) :
    clock_text s ++ r < clock_text s' ++ r' ↔ s < s' ∨ s = s' ∧ r < r' := by
  have hours : (pad 2 (s / 3600)).length = (pad 2 (s' / 3600)).length := by
    rw [length_pad (by decide) (by omega),length_pad (by decide) (by omega)]
  have inj (m n : ℕ) : pad 2 m = pad 2 n ↔ m = n := ⟨pad_inj,congrArg _⟩
  rw [clock_text,clock_text,List.append_assoc,List.append_assoc,append_lt_iff hours,List.cons_append,List.cons_append,
    List.cons_lt_cons_iff,minute_text_lt (by omega) (by omega),pad_lt_iff (by decide) (by omega) (by omega),inj]
  simp only [Char.lt_irrefl,false_or,true_and]
  by_cases tail : r < r'
  · simp only [tail,and_true]
    omega
  · simp only [tail,and_false,or_false]
    omega

theorem pad_9 {f f' : ℕ} (small : f < 10 ^ 9) (small' : f' < 10 ^ 9) :
    (pad 9 f).length = (pad 9 f').length ∧ (pad 9 f < pad 9 f' ↔ f < f') :=
  ⟨by rw [length_pad (by decide) small,length_pad (by decide) small'],pad_lt_iff (by decide) small small'⟩

theorem decimals_lt {f f' : ℕ} (small : f < 10 ^ 9) (small' : f' < 10 ^ 9) : decimals f < decimals f' ↔ f < f' := by
  obtain ⟨length,order⟩ := pad_9 small small'
  rw [decimals,decimals,drop_zeros_lt (digits_pad 9 f) (digits_pad 9 f') length,order]

theorem decimals_inj {f f' : ℕ} (small : f < 10 ^ 9) (small' : f' < 10 ^ 9) (same : decimals f = decimals f') : f = f' :=
  pad_inj (drop_zeros_inj (pad_9 small small').1 same)

/-- Fractions of RFC 3339, with a zone after them. -/
theorem fraction_text_lt {f f' : ℕ} {x x' : Char} (small : f < 10 ^ 9) (small' : f' < 10 ^ 9) (low : x < '.' ∨ '9' < x)
    (low' : x' < '.' ∨ '9' < x') :
    fraction_text f ++ x :: r < fraction_text f' ++ x' :: r' ↔
      f < f' ∧ ¬ (decimals f <+: decimals f' ∧ '9' < x) ∨ f' < f ∧ decimals f' <+: decimals f ∧ '9' < x' ∨
        f = f' ∧ x :: r < x' :: r' := by
  have none : decimals 0 = [] := by decide
  have dot : '.'.toNat = 46 := rfl
  have nine : '9'.toNat = 57 := rfl
  have nought : '0'.toNat = 48 := rfl
  have digits (f : ℕ) : Digits (decimals f) := digits_drop_zeros (digits_pad 9 f)
  have apart {y : Char} (low : y < '.' ∨ '9' < y) : y ≠ '.' ∧ (y < '0' ∨ '9' < y) := by
    refine ⟨?_,?_⟩
    · rintro rfl
      simp only [char_lt_iff] at low
      omega
    · simp only [char_lt_iff] at low ⊢
      omega
  by_cases same : f = f'
  · subst same
    rw [append_lt_left]
    simp
  · have differ : decimals f ≠ decimals f' := fun equal => same (decimals_inj small small' equal)
    unfold fraction_text
    by_cases zero : f = 0
    · subst zero
      rw [if_pos rfl,if_neg (Ne.symm same),none]
      have apart := (apart low).1
      simp only [char_lt_iff] at low
      simp only [List.nil_append,List.cons_append,List.cons_lt_cons_iff,apart,same,false_and,or_false,List.nil_prefix,true_and,
        char_lt_iff]
      omega
    · by_cases zero' : f' = 0
      · subst zero'
        rw [if_pos rfl,if_neg same,none]
        have apart := Ne.symm (apart low').1
        simp only [char_lt_iff] at low'
        simp only [List.nil_append,List.cons_append,List.cons_lt_cons_iff,apart,same,false_and,or_false,List.nil_prefix,
          true_and,char_lt_iff]
        omega
      · rw [if_neg zero,if_neg zero',List.cons_append,List.cons_append,List.cons_lt_cons_iff,
          digits_append_lt_iff (digits f) (digits f') differ (apart low).2 (apart low').2,decimals_lt small small',
          decimals_lt small' small]
        simp only [Char.lt_irrefl,true_and,false_or,same,false_and,or_false]

/-- Fractions of the longer form, with a blank after them. -/
theorem display_fraction_lt {f f' : ℕ} (small : f < 10 ^ 9) (small' : f' < 10 ^ 9) :
    display_fraction f ++ ' ' :: r < display_fraction f' ++ ' ' :: r' ↔ f < f' ∨ f = f' ∧ r < r' := by
  obtain ⟨length,order⟩ := pad_9 small small'
  have digits := digits_pad 9 f
  have digits' := digits_pad 9 f'
  by_cases same : f = f'
  · subst same
    rw [append_lt_left,List.cons_lt_cons_iff]
    simp
  · have differ : pad 9 f ≠ pad 9 f' := fun equal => same (pad_inj equal)
    simp only [same,false_and,or_false]
    rw [← order]
    unfold display_fraction
    cases text : pad 9 f with
    | nil =>
      have none := length_pad (by decide) small
      simp [text] at none
    | cons c rest =>
      cases text' : pad 9 f' with
      | nil =>
        have none := length_pad (by decide) small'
        simp [text'] at none
      | cons c' rest' =>
        rw [text] at digits length differ
        rw [text'] at digits' length differ
        have rest_digits : Digits rest := fun d inside => digits d (List.mem_cons_of_mem _ inside)
        have rest_digits' : Digits rest' := fun d inside => digits' d (List.mem_cons_of_mem _ inside)
        have long : rest.length = rest'.length := by simpa using length
        simp only [List.cons_append,List.cons_lt_cons_iff]
        by_cases first : c = c'
        · subst first
          have other : rest ≠ rest' := fun equal => differ (by rw [equal])
          have differ : drop_zeros rest ≠ drop_zeros rest' := fun equal => other (drop_zeros_inj long equal)
          have blank : ¬ '9' < ' ' := by decide
          rw [digits_append_lt_iff (digits_drop_zeros rest_digits) (digits_drop_zeros rest_digits') differ (Or.inl (by decide))
            (Or.inl (by decide)),drop_zeros_lt rest_digits rest_digits' long]
          simp [blank]
        · simp [first]

/-- One zone is spelled before another: behind UTC after ahead of it, and UTC itself last. -/
def ZoneBefore (o o' : ℤ) : Prop := o ≠ 0 ∧ (o' = 0 ∨ 0 < o ∧ (o' < 0 ∨ o < o') ∨ o < 0 ∧ o' < o)

instance (o o' : ℤ) : Decidable (ZoneBefore o o') := by
  unfold ZoneBefore
  infer_instance

theorem sign_lt {o o' : ℤ} {l l' : List Char} :
    sign o :: l < sign o' :: l' ↔ 0 ≤ o ∧ o' < 0 ∨ (o < 0 ↔ o' < 0) ∧ l < l' := by
  have plus : '+' < '-' := by decide
  have minus : ¬ '-' < '+' := by decide
  have apart : '+' ≠ '-' := by decide
  unfold sign
  split_ifs with behind behind' behind'
  · simp [behind,behind']
  · simp [List.cons_lt_cons_iff,behind,behind',minus,Ne.symm apart]
  · simp only [List.cons_lt_cons_iff,plus,true_or,true_iff]
    exact Or.inl ⟨by omega,behind'⟩
  · simp [behind,behind']

theorem zone_text_lt {o o' : ℤ} (whole : o % 60 = 0) (whole' : o' % 60 = 0) (short : o.natAbs < 86400) (short' : o'.natAbs < 86400) :
    zone_text o < zone_text o' ↔ ZoneBefore o o' := by
  have zulu (o : ℤ) : sign o < 'Z' ∧ sign o ≠ 'Z' ∧ ¬ 'Z' < sign o := by
    unfold sign
    split_ifs
    · decide
    · decide
  have hours : (pad 2 (o.natAbs / 3600)).length = (pad 2 (o'.natAbs / 3600)).length := by
    rw [length_pad (by decide) (by omega),length_pad (by decide) (by omega)]
  have inj (m n : ℕ) : pad 2 m = pad 2 n ↔ m = n := ⟨pad_inj,congrArg _⟩
  unfold zone_text ZoneBefore
  split_ifs with zero zero' zero'
  · simp [zero]
  · obtain ⟨-,apart,above⟩ := zulu o'
    simp [List.cons_lt_cons_iff,Ne.symm apart,above,zero]
  · obtain ⟨below,-,-⟩ := zulu o
    simp [List.cons_lt_cons_iff,below,zero,zero']
  · rw [sign_lt,append_lt_iff hours,List.cons_lt_cons_iff,pad_lt_iff (by decide) (by omega) (by omega),
      pad_lt_iff (by decide) (by omega) (by omega),inj]
    simp only [Char.lt_irrefl,false_or,true_and]
    omega

/-- Zones of the longer form, which differ from UTC. -/
theorem display_zone_lt {o o' : ℤ} (some : o ≠ 0) (some' : o' ≠ 0) (short : o.natAbs < 93600) (short' : o'.natAbs < 93600) :
    sign o :: clock_text o.natAbs < sign o' :: clock_text o'.natAbs ↔ ZoneBefore o o' := by
  have clocks := @clock_text_lt [] [] o.natAbs o'.natAbs (by omega) (by omega)
  rw [List.append_nil,List.append_nil] at clocks
  rw [sign_lt,clocks,ZoneBefore]
  simp only [List.lt_irrefl,and_false,or_false]
  omega

/-- One hour without zeros in front is spelled before another, with the colon after it. -/
def HourBefore (h h' : ℕ) : Prop := Nat.toDigits 10 h ++ [':'] < Nat.toDigits 10 h' ++ [':']

theorem hour_lt {h h' : ℕ} :
    Nat.toDigits 10 h ++ ':' :: r < Nat.toDigits 10 h' ++ ':' :: r' ↔ HourBefore h h' ∨ h = h' ∧ r < r' := by
  have digits (h : ℕ) : Digits (Nat.toDigits 10 h) := fun c inside => Nat.isDigit_of_mem_toDigits (by decide) (by decide) inside
  have colon : '9' < ':' := by decide
  by_cases same : h = h'
  · subst same
    rw [append_lt_left,HourBefore,append_lt_left,List.cons_lt_cons_iff]
    simp
  · have differ : Nat.toDigits 10 h ≠ Nat.toDigits 10 h' := by
      intro equal
      have numbers := congrArg (fun l => Nat.ofDigitChars 10 l 0) equal
      simp only [Nat.ofDigitChars_ten_toDigits] at numbers
      exact same numbers
    rw [HourBefore,digits_append_lt_iff (digits h) (digits h') differ (Or.inr colon) (Or.inr colon),
      digits_append_lt_iff (digits h) (digits h') differ (Or.inr colon) (Or.inr colon)]
    simp [same]

end

/-! ### The order of the texts -/

namespace OffsetDateTime
variable {a b : OffsetDateTime}

/-- Of two times with the same second on their clocks, one is spelled before the other: a fraction
    goes before those that are larger, except that of a UTC time before those that go on where it
    ends. -/
def FractionBefore (a b : OffsetDateTime) : Prop :=
  a.fraction < b.fraction ∧ ¬ (decimals a.fraction <+: decimals b.fraction ∧ a.offset = 0) ∨
    b.fraction < a.fraction ∧ decimals b.fraction <+: decimals a.fraction ∧ b.offset = 0 ∨
    a.fraction = b.fraction ∧ ZoneBefore a.offset b.offset

/-- One time is spelled before another. -/
def SpelledBefore (a b : OffsetDateTime) : Prop :=
  a.local_day < b.local_day ∨ a.local_day = b.local_day ∧
    if a.Plain then
      b.Plain ∧ (a.second_of_day < b.second_of_day ∨ a.second_of_day = b.second_of_day ∧ a.FractionBefore b)
    else
      b.Plain ∨ HourBefore (a.second_of_day / 3600) (b.second_of_day / 3600) ∨
        a.second_of_day / 3600 = b.second_of_day / 3600 ∧ (a.second_of_day % 3600 < b.second_of_day % 3600 ∨
          a.second_of_day % 3600 = b.second_of_day % 3600 ∧ (a.fraction < b.fraction ∨
            a.fraction = b.fraction ∧ ZoneBefore a.offset b.offset))

theorem second_of_day_lt (t : OffsetDateTime) : t.second_of_day < 86400 := by
  unfold second_of_day
  omega

theorem fraction_lt (t : OffsetDateTime) : t.fraction < 10 ^ 9 := by
  unfold fraction
  omega

theorem date_part_eq {t : OffsetDateTime} {d : Day} (here : d.number = t.local_day) : t.date_part = d.text.toList := by
  rw [date_part,← here,Day.number,from_julian_day_julian_day d.valid d.march_nonneg,Day.text,String.toList_ofList]

/-- What follows the date. -/
def time_part (t : OffsetDateTime) : List Char :=
  if t.Plain then 'T' :: (clock_text t.second_of_day ++ (fraction_text t.fraction ++ zone_text t.offset))
  else ' ' :: (Nat.toDigits 10 (t.second_of_day / 3600) ++ ':' :: (minute_text (t.second_of_day % 3600) ++
    '.' :: (display_fraction t.fraction ++ ' ' :: sign t.offset :: clock_text t.offset.natAbs)))

theorem zone_low (o : ℤ) : ∃ x rest, zone_text o = x :: rest ∧ (x < '.' ∨ '9' < x) ∧ ('9' < x ↔ o = 0) := by
  unfold zone_text
  split_ifs with zero
  · exact ⟨'Z',[],rfl,Or.inr (by decide),by simp [zero]⟩
  · refine ⟨sign o,_,rfl,Or.inl ?_,?_⟩
    · unfold sign
      split_ifs
      · decide
      · decide
    · simp only [zero,iff_false]
      unfold sign
      split_ifs
      · decide
      · decide

theorem plain_lt (plain : a.Plain) (plain' : b.Plain) :
    fraction_text a.fraction ++ zone_text a.offset < fraction_text b.fraction ++ zone_text b.offset ↔ a.FractionBefore b := by
  obtain ⟨x,rest,zone,low,utc⟩ := zone_low a.offset
  obtain ⟨x',rest',zone',low',utc'⟩ := zone_low b.offset
  rw [zone,zone',fraction_text_lt a.fraction_lt b.fraction_lt low low',FractionBefore,utc,utc',← zone,← zone',
    zone_text_lt plain.1 plain'.1 plain.2 plain'.2]

theorem time_part_lt (usual : a.Usual) (usual' : b.Usual) (same : a.local_day = b.local_day) :
    a.time_part < b.time_part ↔ a.SpelledBefore b := by
  have nonzero {t : OffsetDateTime} (long : ¬ t.Plain) : t.offset ≠ 0 := by
    intro zero
    exact long ⟨by rw [zero]; rfl,by rw [zero]; decide⟩
  have day := a.second_of_day_lt
  have day' := b.second_of_day_lt
  have letter : ¬ 'T' < ' ' := by decide
  have letter' : ' ' < 'T' := by decide
  have letters : 'T' ≠ ' ' := by decide
  unfold time_part SpelledBefore
  simp only [same,lt_irrefl,false_or,true_and]
  by_cases plain : a.Plain
  · by_cases plain' : b.Plain
    · rw [if_pos plain,if_pos plain',if_pos plain,List.cons_lt_cons_iff,clock_text_lt (by omega) (by omega),plain_lt plain plain']
      simp [plain']
    · rw [if_pos plain,if_neg plain',if_pos plain,List.cons_lt_cons_iff]
      simp [letter,letters,plain']
  · by_cases plain' : b.Plain
    · rw [if_neg plain,if_pos plain',if_neg plain,List.cons_lt_cons_iff]
      simp [letter',plain']
    · rw [if_neg plain,if_neg plain',if_neg plain,List.cons_lt_cons_iff,hour_lt,minute_text_lt (by omega) (by omega),
        List.cons_lt_cons_iff,display_fraction_lt a.fraction_lt b.fraction_lt,
        display_zone_lt (nonzero plain) (nonzero plain') usual.offset usual'.offset]
      simp [plain']

section
variable [TimeCrate] (writes : WritesTimes)
include writes

theorem fmt_time_eq {t : OffsetDateTime} (usual : t.Usual) : fmt_time t = String.ofList (t.date_part ++ t.time_part) := by
  rw [fmt_time,writes.rfc3339 t usual,writes.display t usual,rfc3339,time_part]
  split_ifs
  · rfl
  · rfl

/-- Texts of times stand in the order in which they are spelled. -/
theorem fmt_time_lt (usual : a.Usual) (usual' : b.Usual) : fmt_time a < fmt_time b ↔ a.SpelledBefore b := by
  obtain ⟨d,here⟩ := usual.year
  obtain ⟨d',here'⟩ := usual'.year
  rw [fmt_time_eq writes usual,fmt_time_eq writes usual',String.lt_iff_toList_lt,String.toList_ofList,String.toList_ofList,
    date_part_eq here,date_part_eq here',Day.text_lt_iff,here,here',← Day.number_inj,here,here']
  by_cases same : a.local_day = b.local_day
  · rw [time_part_lt usual usual' same]
    simp only [same,lt_irrefl,false_or,true_and]
  · simp [SpelledBefore,same]

end

/-- Of two times that are not spelled the same, one is spelled before the other. -/
theorem spelled_total (not_before : ¬ a.SpelledBefore b) (not_after : ¬ b.SpelledBefore a) :
    a.nanos = b.nanos := by
  have whole (second : a.local_second = b.local_second) (fraction : a.fraction = b.fraction) (zone : a.offset = b.offset) :
      a.nanos = b.nanos := by
    unfold local_second at second
    unfold OffsetDateTime.fraction at fraction
    omega
  have second (day : a.local_day = b.local_day) (time : a.second_of_day = b.second_of_day) : a.local_second = b.local_second := by
    unfold local_day at day
    unfold second_of_day at time
    omega
  have zones (forth : ¬ ZoneBefore a.offset b.offset) (back : ¬ ZoneBefore b.offset a.offset) : a.offset = b.offset := by
    unfold ZoneBefore at forth back
    omega
  unfold SpelledBefore at not_before not_after
  have day : a.local_day = b.local_day := by
    by_contra other
    rcases lt_or_gt_of_ne other with less | more
    · exact not_before (Or.inl less)
    · exact not_after (Or.inl more)
  simp only [day,lt_irrefl,false_or,true_and] at not_before not_after
  by_cases plain : a.Plain
  · by_cases plain' : b.Plain
    · simp only [plain,plain',if_true,true_and] at not_before not_after
      have time : a.second_of_day = b.second_of_day := by omega
      simp only [time,lt_irrefl,false_or,true_and] at not_before not_after
      have fraction : a.fraction = b.fraction := by
        by_contra other
        unfold FractionBefore at not_before not_after
        rcases lt_or_gt_of_ne other with less | more
        · by_cases goes_on : decimals a.fraction <+: decimals b.fraction ∧ a.offset = 0
          · exact not_after (Or.inr (Or.inl ⟨less,goes_on⟩))
          · exact not_before (Or.inl ⟨less,goes_on⟩)
        · by_cases goes_on : decimals b.fraction <+: decimals a.fraction ∧ b.offset = 0
          · exact not_before (Or.inr (Or.inl ⟨more,goes_on⟩))
          · exact not_after (Or.inl ⟨more,goes_on⟩)
      refine whole (second day time) fraction (zones ?_ ?_)
      · exact fun before => not_before (Or.inr (Or.inr ⟨fraction,before⟩))
      · exact fun before => not_after (Or.inr (Or.inr ⟨fraction.symm,before⟩))
    · simp [plain,plain'] at not_before not_after
  · by_cases plain' : b.Plain
    · simp [plain,plain'] at not_before not_after
    · simp only [plain,plain',if_false,false_or] at not_before not_after
      have hour : a.second_of_day / 3600 = b.second_of_day / 3600 := by
        have forth : ¬ HourBefore (a.second_of_day / 3600) (b.second_of_day / 3600) := fun before => not_before (Or.inl before)
        have back : ¬ HourBefore (b.second_of_day / 3600) (a.second_of_day / 3600) := fun before => not_after (Or.inl before)
        have same := List.append_cancel_right (List.le_antisymm back forth)
        have numbers := congrArg (fun l => Nat.ofDigitChars 10 l 0) same
        simpa only [Nat.ofDigitChars_ten_toDigits] using numbers
      simp only [hour,true_and] at not_before not_after
      push Not at not_before not_after
      have rest : a.second_of_day % 3600 = b.second_of_day % 3600 := by omega
      have fraction : a.fraction = b.fraction := by
        have forth := (not_before.2.2 rest).1
        have back := (not_after.2.2 rest.symm).1
        omega
      exact whole (second day (by omega)) fraction (zones ((not_before.2.2 rest).2 fraction) ((not_after.2.2 rest.symm).2 fraction.symm))

/-! ### The order of the instants -/

/-- Two times are in order: with different seconds on their clocks, the clocks stand in the order of
    the instants, as they do for one offset. With the same second and one offset, they are not UTC
    times of which one fraction goes on where the other ends; with the same second and different
    offsets, the fractions and the offsets happen to be spelled the right way around. -/
def InOrder (a b : OffsetDateTime) : Prop :=
  if a.Plain ∧ b.Plain then
    if a.local_second = b.local_second then
      if a.offset = b.offset then
        a.offset = 0 → (a.fraction < b.fraction → ¬ decimals a.fraction <+: decimals b.fraction) ∧
          (b.fraction < a.fraction → ¬ decimals b.fraction <+: decimals a.fraction)
      else (a.FractionBefore b ↔ b.offset < a.offset)
    else (a.local_second < b.local_second ↔ a.nanos < b.nanos)
  else (a.SpelledBefore b ↔ a.nanos < b.nanos)

theorem instant_lt (same : a.offset = b.offset) :
    a.nanos < b.nanos ↔ a.local_second < b.local_second ∨ a.local_second = b.local_second ∧ a.fraction < b.fraction := by
  unfold local_second fraction
  omega

theorem spelled_plain (plain : a.Plain) (plain' : b.Plain) : a.SpelledBefore b ↔
    a.local_second < b.local_second ∨ a.local_second = b.local_second ∧ a.FractionBefore b := by
  have clock : a.local_day < b.local_day ∨ a.local_day = b.local_day ∧ a.second_of_day < b.second_of_day ↔
      a.local_second < b.local_second := by
    unfold local_day second_of_day
    omega
  have clock' : a.local_day = b.local_day ∧ a.second_of_day = b.second_of_day ↔ a.local_second = b.local_second := by
    unfold local_day second_of_day
    omega
  rw [SpelledBefore,if_pos plain,← clock,← clock']
  simp only [plain',true_and]
  tauto

/-- Two times are spelled in the order of the instants iff they are in order. -/
theorem spelled_iff : (a.SpelledBefore b ↔ a.nanos < b.nanos) ↔ a.InOrder b := by
  unfold InOrder
  split_ifs with plain second zone
  · have last (o : ℤ) : ¬ ZoneBefore o o := by
      unfold ZoneBefore
      omega
    rw [spelled_plain plain.1 plain.2,instant_lt zone,FractionBefore,← zone]
    by_cases utc : a.offset = 0
    · simp only [second,utc,last,lt_irrefl,false_or,true_and,and_true,true_imp_iff,and_false,or_false]
      rcases lt_trichotomy a.fraction b.fraction with less | equal | more
      · simp [less,less.not_gt]
      · simp [equal]
      · simp [more,more.not_gt]
    · simp only [second,utc,last,lt_irrefl,false_or,true_and,and_false,or_false,not_false_iff,and_true,false_imp_iff]
  · have instants : a.nanos < b.nanos ↔ b.offset < a.offset := by
      have whole := plain.1.1
      have whole' := plain.2.1
      unfold local_second at second
      omega
    rw [spelled_plain plain.1 plain.2,instants]
    simp [second]
  · rw [spelled_plain plain.1 plain.2]
    simp [second]
  · rfl

end OffsetDateTime

end Pergamon
