import Pergamon.Calendar
import Pergamon.ImportKeys
import Pergamon.Slugs

/-!
Templates for the names of exported files. A template shows some of the title, the date, the type and
the identifier of an item between literal texts. Two items have the same name only if they agree in
each of these that the template shows (`render_eq_iff`), although slugs and types are of different
lengths: a longer title puts one name ahead of the other, and nothing that follows can bring them
together again (`ahead`).
-/
namespace Pergamon.Export
open Decimal

/-! ### Identifiers and dates -/

/-- An identifier of 128 bits. -/
structure Uuid where
  high : UInt64
  low : UInt64
  deriving DecidableEq

/-- The hyphenated text of an identifier. -/
def Uuid.to_string (id : Uuid) : List Char :=
  let high := hex_digits 16 id.high.toNat
  let low := hex_digits 16 id.low.toNat
  high.take 8 ++ '-' :: ((high.drop 8).take 4 ++ '-' :: (high.drop 12 ++ '-' :: (low.take 4 ++ '-' :: low.drop 4)))

/-- The first eight characters, which are hexadecimal digits. -/
def Uuid.short (id : Uuid) : List Char := id.to_string.take 8

/-- The date of a time on the clock of its own offset. Years of the time crate have at most four digits. -/
structure Date where
  year : ℤ
  month : ℕ
  day : ℕ
  valid : ValidDate year month day
  four_digits : year.natAbs < 10000

/-- `{:04}-{:02}-{:02}`. -/
def Date.text (d : Date) : List Char := date_text d.year d.month d.day

/-! ### Templates -/

/-- A segment of a parsed template. -/
inductive Segment where
  | Literal (text : List Char)
  | Title
  | Date
  | Id
  | Type
  deriving DecidableEq

/-- A validated filename template, with the mark whether it shows the identifier. -/
structure SlugTemplate where
  segments : List Segment
  has_id : Bool
  marked : has_id = decide (Segment.Id ∈ segments)

inductive TemplateError where
  | UnknownPlaceholder (name : List Char)
  | UnclosedBrace
  | Empty
  deriving DecidableEq

/-- What was read of a template: the segments, the literal text after them, and the name of a
    placeholder that is not closed yet. -/
structure TemplateReader where
  segments : List Segment
  literal : List Char
  name : Option (List Char)

/-- The segments with the literal text, if there is one. -/
def TemplateReader.flushed (r : TemplateReader) : List Segment :=
  if r.literal = [] then r.segments else r.segments ++ [.Literal r.literal]

def placeholder (name : List Char) : Except TemplateError Segment :=
  if name = "title".toList then .ok .Title
  else if name = "date".toList then .ok .Date
  else if name = "id".toList then .ok .Id
  else if name = "type".toList then .ok .Type
  else .error (.UnknownPlaceholder name)

def TemplateReader.step (r : TemplateReader) (c : Char) : Except TemplateError TemplateReader :=
  match r.name with
  | none => .ok (if c = '{' then { r with name := some [] } else { r with literal := r.literal ++ [c] })
  | some name =>
    if c = '}' then do
      let segment ← placeholder name
      .ok ⟨r.flushed ++ [segment],[],none⟩
    else .ok { r with name := some (name ++ [c]) }

namespace SlugTemplate

/-- Parse and validate a template. -/
def parse (template : List Char) : Except TemplateError SlugTemplate :=
  if template = [] then .error .Empty
  else do
    let r ← template.foldlM TemplateReader.step ⟨[],[],none⟩
    match r.name with
    | some _ => .error .UnclosedBrace
    | none => .ok ⟨r.flushed,decide (.Id ∈ r.flushed),rfl⟩

/-- `{title}--{id}`. -/
def default : SlugTemplate := ⟨[.Title,.Literal "--".toList,.Id],true,by decide⟩

end SlugTemplate

/-- What a segment expands to. -/
def Segment.shown (title : List Char) (id : Uuid) (date : Export.Date) (content_type : List Char) : Segment → List Char
  | .Literal text => text
  | .Title => slugify title 60
  | .Date => date.text
  | .Id => id.short
  | .Type => slugify content_type 30

/-- Render the template with concrete values. -/
def SlugTemplate.render (t : SlugTemplate) (title : List Char) (id : Uuid) (date : Date) (content_type : List Char) : List Char :=
  t.segments.flatMap (Segment.shown title id date content_type)

/-- Render a full filename. -/
def SlugTemplate.render_filename (t : SlugTemplate) (title : List Char) (id : Uuid) (date : Date) (content_type : List Char) : List Char :=
  t.render title id date content_type ++ ".md".toList

example : (SlugTemplate.parse "{date} - {title}".toList).map (fun t => t.segments) =
    .ok [.Date,.Literal " - ".toList,.Title] := by decide

/-! ### The parts of names -/

theorem hex_char {w n : ℕ} {c : Char} (inside : c ∈ hex_digits w n) : c ≠ '-' ∧ c ≠ '.' := by
  induction w generalizing n with
  | zero => cases inside
  | succ w ih =>
    rw [hex_digits,List.mem_append,List.mem_singleton] at inside
    rcases inside with before | rfl
    · exact ih before
    · exact ⟨Nat.digitChar_ne '-' rfl,Nat.digitChar_ne '.' rfl⟩

theorem short_eq (id : Uuid) : id.short = (hex_digits 16 id.high.toNat).take 8 := by
  have long : ((hex_digits 16 id.high.toNat).take 8).length = 8 := by rw [List.length_take,length_hex_digits]; rfl
  unfold Uuid.short Uuid.to_string
  simp only
  rw [List.take_append_of_le_length (by omega),List.take_of_length_le (by omega)]

theorem length_short (id : Uuid) : id.short.length = 8 := by
  rw [short_eq,List.length_take,length_hex_digits]
  rfl

theorem short_char {id : Uuid} {c : Char} (inside : c ∈ id.short) : c ≠ '-' ∧ c ≠ '.' := by
  rw [short_eq] at inside
  exact hex_char (List.mem_of_mem_take inside)

/-- The slug of a content type. -/
def type_slug (t : ContentType) : List Char := slugify t.as_str.toList 30

/-- No type is part of another. -/
theorem type_slug_within {t t' : ContentType} (part : type_slug t <:+: type_slug t') : t = t' := by
  revert part
  cases t <;> cases t' <;> decide

section
variable {d d' : Date} {y z R R' : List Char}

theorem digit_plain {c : Char} (digit : c.isDigit) : c ≠ '-' ∧ c ≠ '.' := by
  constructor
  · rintro rfl
    exact absurd digit (by decide)
  · rintro rfl
    exact absurd digit (by decide)

theorem date_rest_length (d : Date) : (pad 2 d.month ++ '-' :: pad 2 d.day).length = 5 := by
  have month := d.valid.month_le
  have day := d.valid.day_le.trans (days_in_month_le _ _)
  rw [List.length_append,List.length_cons,length_pad (by decide) (by omega),length_pad (by decide) (by omega)]

/-- A year takes four characters, or five with a minus sign. -/
theorem year_text_length (d : Date) : (year_text d.year).length = 4 ∨
    (year_text d.year).length = 5 ∧ (year_text d.year).head? = some '-' := by
  have small := d.four_digits
  unfold year_text
  split_ifs with negative
  · by_cases short : d.year.natAbs < 1000
    · left
      rw [List.length_cons,length_pad (by decide) (by omega)]
    · right
      have digits := (Nat.length_toDigits_le_iff (by decide : 1 < 10) (by decide : 0 < 4)).mpr (by omega : d.year.natAbs < 10 ^ 4)
      have more : ¬ (Nat.toDigits 10 d.year.natAbs).length ≤ 3 := by
        rw [Nat.length_toDigits_le_iff (by decide) (by decide)]
        omega
      rw [List.length_cons,pad,List.length_leftpad]
      exact ⟨by omega,rfl⟩
  · left
    rw [length_pad (by decide) (by omega)]

theorem date_length (d : Date) : d.text.length = 10 ∨ d.text.length = 11 ∧ d.text.head? = some '-' := by
  have rest := date_rest_length d
  rw [Date.text,date_text,List.length_append,List.length_cons,rest]
  rcases year_text_length d with four | ⟨five,minus⟩
  · omega
  · right
    refine ⟨by omega,?_⟩
    rw [List.head?_append,minus]
    rfl

/-- Years are told apart from what follows them. -/
theorem date_front (same : d'.text = d.text ++ z) : z = [] := by
  have rest := date_rest_length d
  have rest' := date_rest_length d'
  rw [Date.text,Date.text,date_text,date_text,List.append_assoc,List.cons_append] at same
  have plain (n m : ℕ) : '-' ∉ pad n m := fun inside => (digit_plain (digits_pad n m _ inside)).1 rfl
  have lengths : (year_text d.year).length = (year_text d'.year).length := by
    have small := d.four_digits
    have small' := d'.four_digits
    unfold year_text at same ⊢
    by_cases negative : d.year < 0
    · by_cases negative' : d'.year < 0
      · rw [if_pos negative,if_pos negative',List.cons_append,List.cons_append] at same
        obtain ⟨years,_⟩ := separated (plain _ _) (plain _ _) (List.cons.inj same).2
        rw [if_pos negative,if_pos negative',List.length_cons,List.length_cons,years]
      · rw [if_pos negative,if_neg negative',List.cons_append] at same
        cases digits : pad 4 d'.year.natAbs with
        | nil =>
          have := length_pad (by decide : 0 < 4) (by omega : d'.year.natAbs < 10 ^ 4)
          simp [digits] at this
        | cons c more =>
          rw [digits,List.cons_append] at same
          have minus := (List.cons.inj same).1
          exact absurd (by rw [digits,minus]; exact List.mem_cons_self) (plain 4 d'.year.natAbs)
    · by_cases negative' : d'.year < 0
      · rw [if_neg negative,if_pos negative',List.cons_append] at same
        cases digits : pad 4 d.year.natAbs with
        | nil =>
          have := length_pad (by decide : 0 < 4) (by omega : d.year.natAbs < 10 ^ 4)
          simp [digits] at this
        | cons c more =>
          rw [digits,List.cons_append] at same
          have minus := (List.cons.inj same).1
          exact absurd (by rw [digits,← minus]; exact List.mem_cons_self) (plain 4 d.year.natAbs)
      · rw [if_neg negative,if_neg negative',length_pad (by decide) (by omega),length_pad (by decide) (by omega)]
  have total := congrArg List.length same
  simp only [List.length_append,List.length_cons] at total rest rest'
  exact List.eq_nil_of_length_eq_zero (by omega)

end

/-! ### Names that are the same -/

/-- What a template can show of an item. -/
structure Shown where
  title : List Char
  id : Uuid
  date : Date
  content_type : ContentType

def Shown.part (x : Shown) : Segment → List Char := Segment.shown x.title x.id x.date x.content_type.as_str.toList

def Shown.slug (x : Shown) : List Char := slugify x.title 60

/-- Two items agree in all that a template shows of them. -/
def Agree (t : SlugTemplate) (x x' : Shown) : Prop := ∀ segment ∈ t.segments, x.part segment = x'.part segment

section
variable {x x' : Shown} {segment : Segment} {segments : List Segment} {y z : List Char}

theorem part_literal {text : List Char} (x : Shown) : x.part (.Literal text) = text := rfl

/-- What is not literal is not empty, and does not end with a hyphen. -/
theorem part_last (other : ∀ text, segment ≠ .Literal text) : x.part segment ≠ [] ∧ (x.part segment).getLast? ≠ some '-' := by
  have of_plain {l : List Char} (long : l ≠ []) (plain : ∀ c ∈ l, c ≠ '-') : l ≠ [] ∧ l.getLast? ≠ some '-' :=
    ⟨long,fun last => plain '-' (List.mem_of_getLast? last) rfl⟩
  cases segment with
  | Literal text => exact absurd rfl (other text)
  | Title =>
    have shape := slugify_shape x.title (by decide : 2 ≤ 60)
    exact ⟨shape.some_char,shape.last⟩
  | Date =>
    have day := x.date.valid.day_le.trans (days_in_month_le _ _)
    have two := length_pad (by decide : 0 < 2) (by omega : x.date.day < 10 ^ 2)
    have long : pad 2 x.date.day ≠ [] := List.ne_nil_of_length_pos (by omega)
    have ends : ∃ before, x.part .Date = before ++ pad 2 x.date.day := by
      refine ⟨year_text x.date.year ++ '-' :: (pad 2 x.date.month ++ ['-']),?_⟩
      change date_text _ _ _ = _
      simp [date_text]
    obtain ⟨before,same⟩ := ends
    rw [same]
    refine ⟨by simp [long],?_⟩
    rw [List.getLast?_append_of_ne_nil _ long]
    exact (of_plain long (fun c inside => (digit_plain (digits_pad 2 _ c inside)).1)).2
  | Id =>
    show x.id.short ≠ [] ∧ x.id.short.getLast? ≠ some '-'
    refine of_plain (List.ne_nil_of_length_pos ?_) (fun c inside => (short_char inside).1)
    rw [length_short]
    decide
  | «Type» =>
    have shape := slugify_shape x.content_type.as_str.toList (by decide : 2 ≤ 30)
    exact ⟨shape.some_char,shape.last⟩

/-- A part of an item that has no longer title is not inside the same part of another item, unless it
    stands at its start or only a minus sign is before it. -/
theorem not_inside (shorter : x'.slug.length ≤ x.slug.length) (some_char : y ≠ []) (no_minus : y ≠ ['-']) :
    x'.part segment ≠ y ++ x.part segment ++ z := by
  intro same
  have lengths := congrArg List.length same
  have ahead := List.length_pos_of_ne_nil some_char
  simp only [List.length_append] at lengths
  cases segment with
  | Literal text =>
    rw [part_literal,part_literal] at lengths
    omega
  | Title =>
    change x'.slug.length = y.length + x.slug.length + z.length at lengths
    omega
  | Id =>
    change x'.id.short.length = y.length + x.id.short.length + z.length at lengths
    rw [length_short,length_short] at lengths
    omega
  | «Type» =>
    have part : type_slug x.content_type <:+: type_slug x'.content_type := ⟨y,z,same.symm⟩
    have equal : x.part .Type = x'.part .Type := by
      change type_slug _ = type_slug _
      rw [type_slug_within part]
    rw [equal] at lengths
    omega
  | Date =>
    change x'.date.text = y ++ x.date.text ++ z at same
    change x'.date.text.length = y.length + x.date.text.length + z.length at lengths
    rcases date_length x'.date with ten | ⟨eleven,minus⟩
    · rcases date_length x.date with short | ⟨short,_⟩
      · omega
      · omega
    · rcases date_length x.date with short | ⟨short,_⟩
      · obtain ⟨c,only⟩ := List.length_eq_one_iff.mp (by omega : y.length = 1)
        rw [same,only] at minus
        cases minus
        exact no_minus only
      · omega

/-- A character that is moved from the front of a text to its end. -/
theorem rotate {c e : Char} {l : List Char} (same : c :: l = l ++ [e]) : c = e := by
  induction l generalizing c with
  | nil => exact (List.cons.inj same).1
  | cons a l ih =>
    obtain ⟨rfl,rest⟩ := List.cons.inj same
    exact ih rest

/-- A name that is ahead of another stays ahead. -/
theorem ahead (shorter : x'.slug.length ≤ x.slug.length) (segments : List Segment) (some_char : y ≠ []) (no_minus : y ≠ ['-']) :
    y ++ segments.flatMap x.part ≠ segments.flatMap x'.part := by
  induction segments generalizing y with
  | nil => simpa using some_char
  | cons segment rest ih =>
    intro same
    rw [List.flatMap_cons,List.flatMap_cons,← List.append_assoc] at same
    rcases List.append_eq_append_iff.mp same with ⟨z,inside,_⟩ | ⟨z,further,later⟩
    · exact not_inside shorter some_char no_minus inside
    · by_cases none : z = []
      · rw [none,List.append_nil] at further
        exact @not_inside x x' segment y [] shorter some_char no_minus (by rw [further,List.append_nil])
      · refine ih none ?_ later.symm
        rintro rfl
        by_cases literal : ∃ text, segment = .Literal text
        · obtain ⟨text,rfl⟩ := literal
          rw [part_literal,part_literal] at further
          have one := congrArg List.length further
          simp only [List.length_append,List.length_singleton] at one
          obtain ⟨c,only⟩ := List.length_eq_one_iff.mp (by omega : y.length = 1)
          rw [only] at further
          rw [rotate further] at only
          exact no_minus only
        · obtain ⟨long,last⟩ := @part_last x segment (fun text same => literal ⟨text,same⟩)
          have ends := congrArg List.getLast? further
          rw [List.getLast?_append_of_ne_nil _ long,List.getLast?_concat] at ends
          exact last ends

/-- A part that another item's part begins with is this part, or names differ from there on. -/
theorem same_start (same : (segment :: segments).flatMap x.part = (segment :: segments).flatMap x'.part)
    (longer : x'.part segment = x.part segment ++ z) : z = [] := by
  by_contra more
  cases segment with
  | Literal text =>
    rw [part_literal,part_literal] at longer
    exact more (by simpa using longer)
  | Title =>
    rw [List.flatMap_cons,List.flatMap_cons,longer,List.append_assoc,List.append_cancel_left_eq] at same
    have shorter : x.slug.length ≤ x'.slug.length := by
      have := congrArg List.length longer
      rw [List.length_append] at this
      change x'.slug.length = x.slug.length + z.length at this
      omega
    refine ahead shorter segments more ?_ same.symm
    rintro rfl
    have last := (@part_last x' .Title (fun _ => by simp)).2
    rw [longer,List.getLast?_concat] at last
    exact last rfl
  | Date => exact more (date_front longer)
  | Id =>
    have lengths := congrArg List.length longer
    rw [List.length_append] at lengths
    change x'.id.short.length = x.id.short.length + z.length at lengths
    rw [length_short,length_short] at lengths
    exact more (List.eq_nil_of_length_eq_zero (by omega))
  | «Type» =>
    have part : type_slug x.content_type <:+: type_slug x'.content_type := ⟨[],z,longer.symm⟩
    have equal : x.part .Type = x'.part .Type := by
      change type_slug _ = type_slug _
      rw [type_slug_within part]
    rw [equal] at longer
    exact more (by simpa using longer)

theorem flatMap_part_iff : segments.flatMap x.part = segments.flatMap x'.part ↔ ∀ segment ∈ segments, x.part segment = x'.part segment := by
  constructor
  · intro same
    induction segments with
    | nil => simp
    | cons segment rest ih =>
      have first : x.part segment = x'.part segment := by
        have whole := same
        rw [List.flatMap_cons,List.flatMap_cons] at whole
        rcases List.append_eq_append_iff.mp whole with ⟨z,longer,_⟩ | ⟨z,longer,_⟩
        · rw [longer,same_start same longer,List.append_nil]
        · rw [longer,same_start same.symm longer,List.append_nil]
      rw [List.flatMap_cons,List.flatMap_cons,first,List.append_cancel_left_eq] at same
      intro segment' inside
      rcases List.mem_cons.mp inside with rfl | later
      · exact first
      · exact ih same segment' later
  · intro agree
    exact List.flatMap_congr agree

/-- Items have the same name iff they agree in all that the template shows. -/
theorem render_eq_iff (t : SlugTemplate) : t.render x.title x.id x.date x.content_type.as_str.toList =
    t.render x'.title x'.id x'.date x'.content_type.as_str.toList ↔ Agree t x x' := flatMap_part_iff

end

instance (t : SlugTemplate) (x x' : Shown) : Decidable (Agree t x x') := by
  unfold Agree
  infer_instance

theorem agree_symm {t : SlugTemplate} {x x' : Shown} (agree : Agree t x x') : Agree t x' x :=
  fun segment inside => (agree segment inside).symm

/-- Only literals have dots. -/
theorem no_dot (x : Shown) {segment : Segment} (other : ∀ text, segment ≠ .Literal text) : '.' ∉ x.part segment := by
  have slug (input : List Char) (n : ℕ) (two : 2 ≤ n) : '.' ∉ slugify input n :=
    fun inside => absurd ((slugify_shape input two).chars '.' inside) (by decide)
  cases segment with
  | Literal text => exact absurd rfl (other text)
  | Title => exact slug x.title 60 (by decide)
  | Date =>
    have plain (w n : ℕ) : '.' ∉ pad w n := fun inside => (digit_plain (digits_pad w n _ inside)).2 rfl
    show '.' ∉ date_text _ _ _
    unfold date_text year_text
    split_ifs <;> simp [plain]
  | Id =>
    show '.' ∉ x.id.short
    exact fun inside => (short_char inside).2 rfl
  | «Type» => exact slug x.content_type.as_str.toList 30 (by decide)

/-- All names of a template have the same number of dots. -/
theorem dots_part (x x' : Shown) (segment : Segment) : (x.part segment).count '.' = (x'.part segment).count '.' := by
  by_cases literal : ∃ text, segment = .Literal text
  · obtain ⟨text,rfl⟩ := literal
    rfl
  · have other (text : List Char) : segment ≠ .Literal text := fun same => literal ⟨text,same⟩
    rw [List.count_eq_zero.mpr (no_dot x other),List.count_eq_zero.mpr (no_dot x' other)]

theorem dots_render (x x' : Shown) (segments : List Segment) : (segments.flatMap x.part).count '.' = (segments.flatMap x'.part).count '.' := by
  induction segments with
  | nil => rfl
  | cons segment rest ih => rw [List.flatMap_cons,List.flatMap_cons,List.count_append,List.count_append,ih,dots_part x x']

end Pergamon.Export
