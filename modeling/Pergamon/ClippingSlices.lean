import Mathlib.Data.List.ReduceOption
import Mathlib.Tactic.IntervalCases
import Pergamon.Clippings

/-!
The slices of the import of clippings. The slices of titles and dates are at offsets that are found in
the text itself, and never panic. The other offsets are not: a prefix test cuts the metadata line and
its segments after as many bytes as the prefix has, and the place of a clipping is cut out of a segment
at an offset that is found in its copy in lower case. So the import does what it should iff these
offsets are not inside characters, and a page is not cut out of the middle of a word (`imports_iff`).
-/
namespace Pergamon.Kindle
open Fallible SmartFilter Utf8

/-! ### Slices -/

/-- An offset that is not inside a character. -/
def Clear (text : List Char) (n : ℕ) : Prop := n ≤ size text → Boundary text n

instance (text : List Char) (n : ℕ) : Decidable (Clear text n) := by
  unfold Clear
  infer_instance

/-- A text that begins with another, up to the case of ASCII letters. -/
def Begins (text needle : List Char) : Prop := eq_ignore_ascii_case (text.take needle.length) needle

instance (text needle : List Char) : Decidable (Begins text needle) := by
  unfold Begins
  infer_instance

section
variable {text part needle a b : List Char} {n : ℕ} {answer : Bool}

theorem checked_ok {α : Type} {part : Option α} {value : α} : checked part = .ok value ↔ part = some value := by
  cases part <;> simp [checked]

theorem slice_to_ok : slice_to text n = .ok part ↔ ∃ after, text = part ++ after ∧ size part = n := by
  rw [slice_to,checked_ok,Option.map_eq_some_iff]
  constructor
  · rintro ⟨⟨before,after⟩,cut,rfl⟩
    exact ⟨after,split_at_eq_some.mp cut⟩
  · rintro ⟨after,whole,length⟩
    exact ⟨(part,after),split_at_eq_some.mpr ⟨whole,length⟩,rfl⟩

theorem slice_from_ok : slice_from text n = .ok part ↔ ∃ before, text = before ++ part ∧ size before = n := by
  rw [slice_from,checked_ok,Option.map_eq_some_iff]
  constructor
  · rintro ⟨⟨before,after⟩,cut,rfl⟩
    exact ⟨before,split_at_eq_some.mp cut⟩
  · rintro ⟨before,whole,length⟩
    exact ⟨(before,part),split_at_eq_some.mpr ⟨whole,length⟩,rfl⟩

theorem slice_to_total : (∃ part, slice_to text n = .ok part) ↔ Boundary text n := by
  simp only [slice_to_ok]
  rfl

theorem slice_from_total : (∃ part, slice_from text n = .ok part) ↔ Boundary text n := by
  simp only [slice_from_ok]
  exact exists_comm

theorem to_ascii_lowercase_size (c : Char) : (to_ascii_lowercase c).utf8Size = c.utf8Size := by
  unfold to_ascii_lowercase
  split_ifs with upper
  · have low : 65 ≤ c.toNat := upper.1
    have high : c.toNat ≤ 90 := upper.2
    have same : c = Char.ofNat c.toNat := (Char.ofNat_toNat c).symm
    generalize c.toNat = m at low high same
    subst same
    interval_cases m <;> decide
  · rfl

/-- Texts that are the same up to the case of ASCII letters are as long as each other. -/
theorem size_ignore_case (same : eq_ignore_ascii_case a b) : size a = size b ∧ a.length = b.length := by
  have lowered : a.map to_ascii_lowercase = b.map to_ascii_lowercase := of_decide_eq_true same
  have sizes (l : List Char) : size (l.map to_ascii_lowercase) = size l := by
    simp [size,Function.comp_def,to_ascii_lowercase_size]
  constructor
  · rw [← sizes a,lowered,sizes b]
  · simpa using congrArg List.length lowered

theorem Begins.size_le (begins : Begins text needle) : size needle ≤ size text := by
  obtain ⟨sizes,_⟩ := size_ignore_case begins
  rw [← sizes]
  conv_rhs => rw [← List.take_append_drop needle.length text,size_append]
  omega

/-- The characters of a text that another begins with end where those of the other do. -/
theorem Begins.boundary (begins : Begins text needle) (ends : Boundary needle n) : Boundary text n := by
  obtain ⟨before,after,rfl,rfl⟩ := ends
  have lowered : (text.take (before ++ after).length).map to_ascii_lowercase = (before ++ after).map to_ascii_lowercase :=
    of_decide_eq_true begins
  have front : eq_ignore_ascii_case (text.take before.length) before := by
    refine decide_eq_true ?_
    have shorter := congrArg (List.take before.length) lowered
    simpa [← List.map_take,List.take_take] using shorter
  exact ⟨_,_,(List.take_append_drop before.length text).symm,(size_ignore_case front).1⟩

theorem begins_start {start after : List Char} (length : size start = size needle) :
    eq_ignore_ascii_case start needle = decide (Begins (start ++ after) needle) := by
  rw [Bool.eq_iff_iff,decide_eq_true_iff]
  constructor
  · intro same
    rw [Begins,← (size_ignore_case same).2,List.take_left]
    exact same
  · intro begins
    have parts := List.take_append_drop needle.length (start ++ after)
    obtain ⟨first,_⟩ := split_unique parts ((size_ignore_case begins).1.trans length.symm)
    rw [← first]
    exact begins

/-- A prefix is tested without a panic iff no character is where it would end. -/
theorem starts_with_ok : starts_with_ignore_case text needle = .ok answer ↔
    Clear text (size needle) ∧ answer = decide (Begins text needle) := by
  unfold starts_with_ignore_case
  by_cases fits : size needle ≤ size text
  · rw [if_pos fits,bind_ok]
    constructor
    · rintro ⟨start,cut,tested⟩
      obtain ⟨after,rfl,length⟩ := slice_to_ok.mp cut
      refine ⟨fun _ => ⟨start,after,rfl,length⟩,?_⟩
      rw [← Except.ok.inj tested,begins_start length]
    · rintro ⟨clear,rfl⟩
      obtain ⟨start,after,rfl,length⟩ := clear fits
      exact ⟨start,slice_to_ok.mpr ⟨after,rfl,length⟩,congrArg Except.ok (begins_start length)⟩
  · have apart : ¬ Begins text needle := fun begins => fits begins.size_le
    rw [if_neg fits]
    simp [Clear,fits,apart,eq_comm]

theorem strip_prefix_ok {rest : Option (List Char)} : strip_prefix_ignore_case text needle = .ok rest ↔
    Clear text (size needle) ∧ rest = if Begins text needle then some (text.drop needle.length) else none := by
  unfold strip_prefix_ignore_case
  rw [bind_ok]
  simp only [starts_with_ok]
  by_cases begins : Begins text needle
  · have ends : size (text.take needle.length) = size needle := (size_ignore_case begins).1
    have cut : slice_from text (size needle) = .ok (text.drop needle.length) :=
      slice_from_ok.mpr ⟨_,(List.take_append_drop needle.length text).symm,ends⟩
    simp [begins,cut,ok_bind,eq_comm]
  · simp [begins,eq_comm]

/-! ### Titles and dates -/

/-- The slices of a title line are at the places of parentheses. -/
theorem parse_title_author_total (line : List Char) : ∃ title author, parse_title_author line = .ok (title,author) := by
  unfold parse_title_author
  generalize (trim line).dropWhile (· = '\uFEFF') = line
  cases paren : Utf8.rfind '(' line with
  | none => exact ⟨line,none,by simp only [paren]⟩
  | some paren_pos =>
    by_cases closed : line.getLast? = some ')' ∧ 0 < paren_pos
    · obtain ⟨before,after,rfl,length⟩ := rfind_eq_some paren
      obtain ⟨author,rfl⟩ : ∃ author, after = author ++ [')'] := by
        have last := closed.1
        rw [List.getLast?_append] at last
        cases after with
        | nil => simp at last
        | cons c after => exact List.getLast?_eq_some_iff.mp (by simpa using last)
      have one : ('(' : Char).utf8Size = 1 := by decide
      have one' : (')' : Char).utf8Size = 1 := by decide
      have cut : slice_to (before ++ '(' :: (author ++ [')'])) paren_pos = .ok before :=
        slice_to_ok.mpr ⟨_,rfl,length⟩
      have cut' : slice_between (before ++ '(' :: (author ++ [')'])) (paren_pos + 1)
          (size (before ++ '(' :: (author ++ [')'])) - 1) = .ok author := by
        refine checked_ok.mpr (slice_eq_some.mpr ⟨before ++ ['('],[')'],by simp,?_,?_⟩)
        · simp [length,one]
        · simp only [size_append,size_cons,size_nil,one,one']
          omega
      simp only [paren,if_pos closed,cut,cut',ok_bind]
      by_cases empty : trim author = []
      · exact ⟨trim before,none,by simp [empty]⟩
      · exact ⟨trim before,some (trim author),by simp [empty]⟩
    · exact ⟨line,none,by simp only [paren,if_neg closed]⟩

theorem parse_kindle_date_total [Dates] (raw : List Char) : ∃ date, parse_kindle_date raw = .ok date := by
  unfold parse_kindle_date
  generalize trim raw = raw
  cases comma : find ", ".toList raw with
  | none => exact ⟨_,by simp only [comma]; rfl⟩
  | some comma_pos =>
    obtain ⟨⟨before,after,rfl,length⟩,_⟩ := find_eq_some comma
    have two : size ", ".toList = 2 := by decide
    have cut : slice_to (before ++ ", ".toList ++ after) comma_pos = .ok before :=
      slice_to_ok.mpr ⟨", ".toList ++ after,by simp,length⟩
    have cut' : slice_from (before ++ ", ".toList ++ after) (comma_pos + 2) = .ok after :=
      slice_from_ok.mpr ⟨before ++ ", ".toList,rfl,by rw [size_append,length,two]⟩
    simp only [comma,cut,cut',ok_bind]
    by_cases day : before.all Dates.is_alphabetic
    · exact ⟨_,by rw [if_pos day]⟩
    · exact ⟨_,by rw [if_neg day]⟩

end

/-! ### Words -/

/-- A cut that makes no new word: it is beside white space or at an end, or what is left of the word
    that it cuts is a word of the text, too. -/
def KeepsWord (text : List Char) (n : ℕ) : Prop := ∀ before after, text = before ++ after → size before = n →
  (∀ c, before.getLast? = some c → is_whitespace c) ∨ (∀ c, after.head? = some c → is_whitespace c) ∨
    after.takeWhile (fun c => !is_whitespace c) ∈ split_whitespace text

/-- What a location may be: the end of a segment, trimmed, or one of its words as a page. -/
def LocationOf (loc seg : List Char) : Prop :=
  (∃ rest, rest <:+ seg ∧ loc = trim rest) ∨ ∃ word ∈ split_whitespace seg, loc = "Page ".toList ++ word

section
variable {before after seg word : List Char} {n : ℕ}

theorem split_whitespace_word (some_char : word ≠ []) (inside : ∀ c ∈ word, is_whitespace c = false) :
    split_whitespace word = [word] := by
  rw [split_whitespace,List.splitOnP_eq_singleton inside]
  simp [some_char]

theorem trim_begins {text rest : List Char} {c : Char} (trims : trim text = c :: rest) : is_whitespace c = false :=
  (trim_eq_iff.mp (trim_trim text)).1 c (by rw [trims]; rfl)

/-- The end of a segment is not blank. -/
theorem trim_end (trimmed : trim (before ++ after) = before ++ after) : trim after = [] ↔ size (before ++ after) ≤ size before := by
  constructor
  · intro none
    rcases List.eq_nil_or_concat after with empty | ⟨front,c,rfl⟩
    · rw [empty,List.append_nil]
    · obtain ⟨left,right,blank,blank',parts⟩ := trim_parts (front.concat c)
      rw [none,List.append_nil] at parts
      have last := (trim_eq_iff.mp trimmed).2 c (by simp)
      have inside : c ∈ left ++ right := by
        rw [← parts]
        simp
      rcases List.mem_append.mp inside with there | there
      · rw [blank c there] at last
        cases last
      · rw [blank' c there] at last
        cases last
  · intro short
    rw [size_append] at short
    rw [size_eq_zero.mp (by omega : size after = 0)]
    rfl

/-- The first word of a text has no white space. -/
theorem head_word (first : (split_whitespace after).head? = some word) : word ≠ [] ∧ ∀ c ∈ word, is_whitespace c = false := by
  rw [← split_whitespace_trim] at first
  cases trims : trim after with
  | nil =>
    rw [trims] at first
    cases first
  | cons c rest =>
    rw [trims,split_whitespace_head (trim_begins trims)] at first
    cases first
    refine ⟨by simp [trim_begins trims],?_⟩
    intro d inside
    simpa using List.mem_takeWhile_imp inside

/-- The first word after a cut is a word of the text iff the cut makes no new word. -/
theorem keeps_word_iff (first : (split_whitespace after).head? = some word) :
    KeepsWord (before ++ after) (size before) ↔ word ∈ split_whitespace (before ++ after) := by
  have listed : word ∈ split_whitespace after := List.mem_of_mem_head? first
  cases after with
  | nil => cases first
  | cons d after =>
    by_cases blank : is_whitespace d
    · have there : word ∈ split_whitespace (before ++ d :: after) := by
        rw [split_whitespace_blank blank] at listed
        rw [split_whitespace_at blank]
        exact List.mem_append_right _ listed
      refine iff_of_true ?_ there
      intro before' after' parts sizes
      obtain ⟨rfl,rfl⟩ := split_unique parts sizes.symm
      exact Or.inr (Or.inl (fun c here => by cases here; exact blank))
    · have begins : is_whitespace d = false := by simpa using blank
      rw [split_whitespace_head begins] at first
      cases first
      constructor
      · intro keeps
        rcases keeps before (d :: after) rfl rfl with last | next | other
        · rcases List.eq_nil_or_concat before with none | ⟨front,c,rfl⟩
          · rw [none]
            exact listed
          · have blank' : is_whitespace c := last c (by simp)
            rw [List.concat_eq_append,List.append_assoc,List.singleton_append,split_whitespace_at blank']
            exact List.mem_append_right _ listed
        · exact absurd (next d rfl) blank
        · exact other
      · intro there before' after' parts sizes
        obtain ⟨rfl,rfl⟩ := split_unique parts sizes.symm
        exact Or.inr (Or.inr there)

/-- A page is a place of a segment iff it is one of its words. -/
theorem location_of_page (some_char : word ≠ []) (inside : ∀ c ∈ word, is_whitespace c = false) :
    LocationOf ("Page ".toList ++ word) seg ↔ word ∈ split_whitespace seg := by
  constructor
  · rintro (⟨rest,⟨front,rfl⟩,same⟩ | ⟨word',there,same⟩)
    · obtain ⟨before,after,_,blank',parts⟩ := trim_parts rest
      have space : is_whitespace ' ' = true := by decide
      have whole : front ++ rest = (front ++ before ++ "Page".toList) ++ ' ' :: (word ++ after) := by
        rw [parts,← same]
        simp
      rw [whole,split_whitespace_at space,split_whitespace_after blank',split_whitespace_word some_char inside]
      simp
    · rw [List.append_cancel_left same]
      exact there
  · intro there
    exact Or.inr ⟨word,there,rfl⟩

end

/-! ### Types -/

/-- A line that begins with a type. -/
def typed (line : List Char) : Bool :=
  decide (Begins line "your highlight".toList) || decide (Begins line "your note".toList) || decide (Begins line "your bookmark".toList)

section
variable {line text needle : List Char} {answer : Option KindleClippingType}

theorem tested_ok {α : Type} {x y : Except Panic α} {value : α} :
    (starts_with_ignore_case text needle >>= fun answer => if answer then x else y) = .ok value ↔
      Clear text (size needle) ∧ ((Begins text needle ∧ x = .ok value) ∨ (¬ Begins text needle ∧ y = .ok value)) := by
  simp only [bind_ok,starts_with_ok]
  by_cases begins : Begins text needle <;> simp [begins]

/-- The tests of the types, in their order. -/
theorem parse_type_ok : parse_type line = .ok answer ↔ Clear line 14 ∧
    ((Begins line "your highlight".toList ∧ some .Highlight = answer) ∨
      (¬ Begins line "your highlight".toList ∧ Clear line 9 ∧
        ((Begins line "your note".toList ∧ some .Note = answer) ∨
          (¬ Begins line "your note".toList ∧ Clear line 13 ∧
            ((Begins line "your bookmark".toList ∧ some .Bookmark = answer) ∨ (¬ Begins line "your bookmark".toList ∧ none = answer)))))) := by
  have fourteen : size "your highlight".toList = 14 := by decide
  have nine : size "your note".toList = 9 := by decide
  have thirteen : size "your bookmark".toList = 13 := by decide
  unfold parse_type
  rw [tested_ok,tested_ok,tested_ok,fourteen,nine,thirteen]
  simp only [Except.ok.injEq]

/-- A line that begins with a type has no other characters where the other types are tested. -/
theorem parse_type_total : (∃ answer, parse_type line = .ok answer) ↔
    Clear line 14 ∧ Clear line 9 ∧ (Begins line "your note".toList ∨ Clear line 13) := by
  simp only [parse_type_ok]
  constructor
  · rintro ⟨answer,high,⟨highlight,_⟩ | ⟨_,low,⟨note,_⟩ | ⟨_,middle,_⟩⟩⟩
    · exact ⟨high,fun _ => highlight.boundary (by decide),Or.inr (fun _ => highlight.boundary (by decide))⟩
    · exact ⟨high,low,Or.inl note⟩
    · exact ⟨high,low,Or.inr middle⟩
  · rintro ⟨high,low,middle⟩
    by_cases highlight : Begins line "your highlight".toList
    · exact ⟨_,high,Or.inl ⟨highlight,rfl⟩⟩
    · by_cases note : Begins line "your note".toList
      · exact ⟨_,high,Or.inr ⟨highlight,low,Or.inl ⟨note,rfl⟩⟩⟩
      · have clear : Clear line 13 := middle.resolve_left note
        by_cases bookmark : Begins line "your bookmark".toList
        · exact ⟨_,high,Or.inr ⟨highlight,low,Or.inr ⟨note,clear,Or.inl ⟨bookmark,rfl⟩⟩⟩⟩
        · exact ⟨_,high,Or.inr ⟨highlight,low,Or.inr ⟨note,clear,Or.inr ⟨bookmark,rfl⟩⟩⟩⟩

theorem parse_type_isSome (ok : parse_type line = .ok answer) : answer.isSome = typed line := by
  unfold typed
  obtain ⟨_,⟨highlight,rfl⟩ | ⟨highlight,_,⟨note,rfl⟩ | ⟨note,_,⟨bookmark,rfl⟩ | ⟨bookmark,rfl⟩⟩⟩⟩ := parse_type_ok.mp ok
  · rw [decide_eq_true highlight]
    rfl
  · rw [decide_eq_true note,Bool.or_true]
    rfl
  · rw [decide_eq_true bookmark,Bool.or_true]
    rfl
  · rw [decide_eq_false highlight,decide_eq_false note,decide_eq_false bookmark]
    rfl

end

/-! ### Places -/

/-- A segment that tells the date. -/
def dated (seg : List Char) : Bool := decide (Begins seg "added on ".toList)

theorem strip_added {seg : List Char} {rest : Option (List Char)} : strip_prefix_ignore_case seg "added on ".toList = .ok rest ↔
    Clear seg 9 ∧ rest = if dated seg then some (seg.drop 9) else none := by
  have nine : size "added on ".toList = 9 := by decide
  have nine' : "added on ".toList.length = 9 := by decide
  rw [strip_prefix_ok,nine,nine',dated]
  simp only [decide_eq_true_iff]

section
variable [Unicode]

/-- The offset after a marker, where the copy of a segment in lower case has the first one. -/
def after_marker (marker : String) (seg : List Char) : Option ℕ :=
  (find marker.toList (to_lowercase seg)).map (· + size marker.toList)

/-- A segment with a text after "location ". -/
def located (seg : List Char) : Bool := (after_marker "location " seg).any (· < size seg)

/-- A segment with a text after "page ". -/
def paged (seg : List Char) : Bool := (after_marker "page " seg).any (· < size seg)

def names_location (seg : List Char) : Bool := decide ("location ".toList <:+: to_lowercase seg)

/-- A segment that offers a place. -/
def offers (seg : List Char) : Bool := !dated seg && (located seg || paged seg)

/-- The segment whose place is kept: the last that names a location, or else the first. -/
def kept (segs : List (List Char)) : Option (List Char) :=
  ((segs.filter offers).filter names_location).getLast?.or (segs.filter offers).head?

/-- A segment none of whose slices is inside a character. -/
structure SegmentReadable (seg : List Char) : Prop where
  date : Clear seg 9
  location : dated seg = false → ∀ n, after_marker "location " seg = some n → Boundary seg n
  page : dated seg = false → located seg = false → ∀ n, after_marker "page " seg = some n → Boundary seg n

variable {seg before after loc word : List Char} {segs : List (List Char)}

theorem extract_named_eq (seg : List Char) : extract_named seg =
    match after_marker "location " seg with
    | some n => slice_from seg n >>= fun rest => if trim rest ≠ [] then .ok (some (trim rest)) else .ok none
    | none => .ok none := by
  unfold extract_named after_marker
  cases find "location ".toList (to_lowercase seg) <;> rfl

theorem extract_page_eq (seg : List Char) : extract_page seg =
    match after_marker "page " seg with
    | some n => slice_from seg n >>= fun rest =>
      let page := (split_whitespace (trim rest)).head?.getD (trim rest)
      if page ≠ [] then .ok (some ("Page ".toList ++ page)) else .ok none
    | none => .ok none := by
  unfold extract_page after_marker
  cases find "page ".toList (to_lowercase seg) <;> rfl

theorem extract_named_total : (∃ r, extract_named seg = .ok r) ↔ ∀ n, after_marker "location " seg = some n → Boundary seg n := by
  rw [extract_named_eq]
  cases mark : after_marker "location " seg with
  | none => simp
  | some n =>
    simp only [bind_ok]
    constructor
    · rintro ⟨r,rest,cut,_⟩ m same
      cases same
      exact slice_from_total.mp ⟨rest,cut⟩
    · intro clear
      obtain ⟨rest,cut⟩ := slice_from_total.mpr (clear n rfl)
      by_cases empty : trim rest = []
      · exact ⟨none,rest,cut,by simp [empty]⟩
      · exact ⟨some (trim rest),rest,cut,by simp [empty]⟩

theorem extract_page_total : (∃ r, extract_page seg = .ok r) ↔ ∀ n, after_marker "page " seg = some n → Boundary seg n := by
  rw [extract_page_eq]
  cases mark : after_marker "page " seg with
  | none => simp
  | some n =>
    simp only [bind_ok]
    constructor
    · rintro ⟨r,rest,cut,_⟩ m same
      cases same
      exact slice_from_total.mp ⟨rest,cut⟩
    · intro clear
      obtain ⟨rest,cut⟩ := slice_from_total.mpr (clear n rfl)
      by_cases empty : (split_whitespace (trim rest)).head?.getD (trim rest) = []
      · exact ⟨none,rest,cut,by simp [empty]⟩
      · exact ⟨_,rest,cut,if_pos empty⟩

theorem extract_named_some (ok : extract_named seg = .ok (some loc)) :
    located seg = true ∧ ∃ rest, rest <:+ seg ∧ loc = trim rest := by
  rw [extract_named_eq] at ok
  cases mark : after_marker "location " seg with
  | none =>
    rw [mark] at ok
    cases ok
  | some n =>
    rw [mark] at ok
    obtain ⟨rest,cut,made⟩ := bind_ok.mp ok
    obtain ⟨before,rfl,length⟩ := slice_from_ok.mp cut
    by_cases empty : trim rest = []
    · simp [empty] at made
    · have some_char : size rest ≠ 0 := by
        intro none
        rw [size_eq_zero.mp none] at empty
        exact empty rfl
      have same : trim rest = loc := by simpa [empty] using made
      refine ⟨?_,rest,List.suffix_append before rest,same.symm⟩
      rw [located,mark,Option.any_some,decide_eq_true_iff,size_append]
      omega

theorem extract_named_none (trimmed : trim seg = seg) (ok : extract_named seg = .ok none) : located seg = false := by
  rw [extract_named_eq] at ok
  rw [located]
  cases mark : after_marker "location " seg with
  | none => rfl
  | some n =>
    rw [mark] at ok
    obtain ⟨rest,cut,made⟩ := bind_ok.mp ok
    obtain ⟨before,rfl,rfl⟩ := slice_from_ok.mp cut
    have empty : trim rest = [] := by simpa using made
    have short := (trim_end trimmed).mp empty
    rw [Option.any_some,decide_eq_false_iff_not]
    omega

theorem extract_page_some (ok : extract_page seg = .ok (some loc)) : paged seg = true ∧ ∃ before after word,
    seg = before ++ after ∧ after_marker "page " seg = some (size before) ∧ (split_whitespace after).head? = some word ∧
      loc = "Page ".toList ++ word := by
  rw [extract_page_eq] at ok
  cases mark : after_marker "page " seg with
  | none =>
    rw [mark] at ok
    cases ok
  | some n =>
    rw [mark] at ok
    obtain ⟨rest,cut,made⟩ := bind_ok.mp ok
    obtain ⟨before,rfl,rfl⟩ := slice_from_ok.mp cut
    cases first : (split_whitespace rest).head? with
    | none =>
      -- a text without words is blank
      have blank : trim rest = [] := by
        cases trims : trim rest with
        | nil => rfl
        | cons c more =>
          rw [← split_whitespace_trim,trims,split_whitespace_head (trim_begins trims)] at first
          cases first
      simp [blank,split_whitespace] at made
    | some word =>
      have some_char : size rest ≠ 0 := by
        intro none
        rw [size_eq_zero.mp none] at first
        cases first
      have same : "Page ".toList ++ word = loc := by
        rw [split_whitespace_trim,first] at made
        simpa [(head_word first).1] using made
      refine ⟨?_,before,rest,word,rfl,rfl,first,same.symm⟩
      rw [paged,mark,Option.any_some,decide_eq_true_iff,size_append]
      omega

theorem extract_page_none (trimmed : trim seg = seg) (ok : extract_page seg = .ok none) : paged seg = false := by
  rw [extract_page_eq] at ok
  rw [paged]
  cases mark : after_marker "page " seg with
  | none => rfl
  | some n =>
    rw [mark] at ok
    obtain ⟨rest,cut,made⟩ := bind_ok.mp ok
    obtain ⟨before,rfl,rfl⟩ := slice_from_ok.mp cut
    have none : (split_whitespace (trim rest)).head?.getD (trim rest) = [] := by simpa using made
    have empty : trim rest = [] := by
      cases trims : trim rest with
      | nil => rfl
      | cons c more =>
        rw [trims,split_whitespace_head (trim_begins trims)] at none
        simp [trim_begins trims] at none
    have short := (trim_end trimmed).mp empty
    rw [Option.any_some,decide_eq_false_iff_not]
    omega

/-- The place of a segment: the end of it, or the word after a cut. -/
theorem extract_location_some (trimmed : trim seg = seg) (ok : extract_location seg = .ok (some loc)) :
    (located seg = true ∧ ∃ rest, rest <:+ seg ∧ loc = trim rest) ∨
      (located seg = false ∧ paged seg = true ∧ ∃ before after word, seg = before ++ after ∧
        after_marker "page " seg = some (size before) ∧ (split_whitespace after).head? = some word ∧ loc = "Page ".toList ++ word) := by
  obtain ⟨named,first,ok⟩ := bind_ok.mp ok
  cases named with
  | some loc' =>
    cases ok
    exact Or.inl (extract_named_some first)
  | none => exact Or.inr ⟨extract_named_none trimmed first,extract_page_some ok⟩

theorem extract_location_isSome (trimmed : trim seg = seg) {r : Option (List Char)} (ok : extract_location seg = .ok r) :
    r.isSome = (located seg || paged seg) := by
  cases r with
  | some loc =>
    rcases extract_location_some trimmed ok with ⟨here,_⟩ | ⟨_,here,_⟩
    · simp [here]
    · simp [here]
  | none =>
    obtain ⟨named,first,ok⟩ := bind_ok.mp ok
    cases named with
    | some loc => cases ok
    | none => simp [extract_named_none trimmed first,extract_page_none trimmed ok]

theorem extract_location_total (trimmed : trim seg = seg) : (∃ r, extract_location seg = .ok r) ↔
    (∀ n, after_marker "location " seg = some n → Boundary seg n) ∧
      (located seg = false → ∀ n, after_marker "page " seg = some n → Boundary seg n) := by
  rw [← extract_named_total,← extract_page_total]
  unfold extract_location
  simp only [bind_ok]
  constructor
  · rintro ⟨r,named,first,ok⟩
    refine ⟨⟨named,first⟩,?_⟩
    intro unlocated
    cases named with
    | some loc =>
      rw [(extract_named_some first).1] at unlocated
      cases unlocated
    | none => exact ⟨r,ok⟩
  · rintro ⟨⟨named,first⟩,page⟩
    cases named with
    | some loc => exact ⟨some loc,some loc,first,rfl⟩
    | none =>
      obtain ⟨r,ok⟩ := page (extract_named_none trimmed first)
      exact ⟨r,none,first,ok⟩

/-! ### Segments -/

/-- The place that a segment offers. -/
def place (seg : List Char) : Option (List Char) :=
  if dated seg then none
  else
    match extract_location seg with
    | .ok place => place
    | .error _ => none

theorem names_location_iff {seg : List Char} : names_location seg = true ↔ "location ".toList <:+: to_lowercase seg :=
  decide_eq_true_iff

theorem place_isSome (trimmed : trim seg = seg) (readable : SegmentReadable seg) : (place seg).isSome = offers seg := by
  unfold place offers
  cases date : dated seg with
  | true => simp
  | false =>
    obtain ⟨r,ok⟩ := (extract_location_total trimmed).mpr ⟨readable.location date,readable.page date⟩
    rw [ok]
    simp [extract_location_isSome trimmed ok]

theorem place_extract (placed : place seg = some loc) : extract_location seg = .ok (some loc) := by
  unfold place at placed
  cases date : dated seg with
  | true => simp [date] at placed
  | false =>
    cases read : extract_location seg with
    | error e => simp [date,read] at placed
    | ok r => simpa [date,read] using placed

/-- The segment that is kept of one more. -/
theorem kept_concat (segs : List (List Char)) (seg : List Char) : kept (segs ++ [seg]) =
    if offers seg ∧ (kept segs = none ∨ names_location seg) then some seg else kept segs := by
  unfold kept
  cases here : offers seg with
  | false => simp [here,List.filter_append]
  | true =>
    cases named : names_location seg with
    | true => simp [here,named,List.filter_append]
    | false =>
      cases before : segs.filter offers with
      | nil => simp [here,named,before,List.filter_append]
      | cons first rest =>
        have some_kept : (((first :: rest).filter names_location).getLast?.or (some first)) ≠ none := by
          cases ((first :: rest).filter names_location).getLast? <;> simp
        rw [List.filter_append,before,List.filter_append]
        simp [here,named]

theorem kept_mem {seg : List Char} (keeps : kept segs = some seg) : seg ∈ segs ∧ offers seg = true := by
  rcases Option.or_eq_some_iff.mp keeps with last | ⟨_,first⟩
  · have inside := (List.mem_filter.mp (List.mem_of_mem_getLast? last)).1
    exact List.mem_filter.mp inside
  · exact List.mem_filter.mp (List.mem_of_mem_head? first)

end

section
variable [Unicode] [Dates] {segment line block : List Char} {segs : List (List Char)}
  {found found' : Option (List Char) × Option OffsetDateTime}

theorem read_segment_total : (∃ found', read_segment found segment = .ok found') ↔ SegmentReadable (trim segment) := by
  unfold read_segment
  simp only [bind_ok,strip_added]
  cases date : dated (trim segment) with
  | true =>
    constructor
    · rintro ⟨found',rest,⟨clear,_⟩,_⟩
      exact ⟨clear,fun no => absurd (date.symm.trans no) (by decide),fun no => absurd (date.symm.trans no) (by decide)⟩
    · intro readable
      obtain ⟨added_at,read⟩ := parse_kindle_date_total ((trim segment).drop 9)
      exact ⟨(found.1,added_at),some _,⟨readable.date,rfl⟩,bind_ok.mpr ⟨added_at,read,rfl⟩⟩
  | false =>
    constructor
    · rintro ⟨found',rest,⟨clear,rfl⟩,ok⟩
      obtain ⟨r,extracted,_⟩ := bind_ok.mp ok
      obtain ⟨location,page⟩ := (extract_location_total (trim_trim segment)).mp ⟨r,extracted⟩
      exact ⟨clear,fun _ => location,fun _ => page⟩
    · intro readable
      obtain ⟨r,extracted⟩ := (extract_location_total (trim_trim segment)).mpr ⟨readable.location date,readable.page date⟩
      cases r with
      | none => exact ⟨found,none,⟨readable.date,rfl⟩,bind_ok.mpr ⟨none,extracted,rfl⟩⟩
      | some loc =>
        by_cases override : found.1 = none ∨ "location ".toList <:+: to_lowercase (trim segment)
        · exact ⟨_,none,⟨readable.date,rfl⟩,bind_ok.mpr ⟨some loc,extracted,if_pos override⟩⟩
        · exact ⟨_,none,⟨readable.date,rfl⟩,bind_ok.mpr ⟨some loc,extracted,if_neg override⟩⟩

/-- What a segment does to the place that is known. -/
theorem read_segment_place (ok : read_segment found segment = .ok found') :
    found'.1 = if (place (trim segment)).isSome ∧ (found.1 = none ∨ names_location (trim segment)) then
      place (trim segment) else found.1 := by
  unfold read_segment at ok
  obtain ⟨rest,stripped,read⟩ := bind_ok.mp ok
  obtain ⟨_,rfl⟩ := strip_added.mp stripped
  unfold place
  cases date : dated (trim segment) with
  | true =>
    rw [date] at read
    obtain ⟨added_at,_,same⟩ := bind_ok.mp read
    cases same
    simp
  | false =>
    rw [date] at read
    obtain ⟨r,extracted,same⟩ := bind_ok.mp read
    rw [extracted]
    cases r with
    | none =>
      cases same
      simp
    | some loc =>
      by_cases override : found.1 = none ∨ "location ".toList <:+: to_lowercase (trim segment)
      · have new := (if_pos override).symm.trans same
        cases new
        have names : found.1 = none ∨ names_location (trim segment) = true :=
          override.imp_right names_location_iff.mpr
        simp [names]
      · have old := (if_neg override).symm.trans same
        cases old
        have names : ¬ (found.1 = none ∨ names_location (trim segment) = true) :=
          fun names => override (names.imp_right names_location_iff.mp)
        simp [names]

/-- The segments are read iff none is cut inside a character, and then the place is that of the segment
    that is kept. -/
theorem read_segments (segs : List (List Char)) :
    ((∃ found, segs.foldlM read_segment (none,none) = .ok found) ↔ ∀ seg ∈ segs.map trim, SegmentReadable seg) ∧
      ∀ found, segs.foldlM read_segment (none,none) = .ok found → found.1 = (kept (segs.map trim)).bind place := by
  have run := @foldlM_done _ _ _ read_segment
    (fun done found => (∀ seg ∈ done.map trim, SegmentReadable seg) ∧ found.1 = (kept (done.map trim)).bind place)
    (fun _ segment => SegmentReadable (trim segment)) segs (none,none) ?_ ⟨by simp,rfl⟩
  · constructor
    · rw [run.1]
      constructor
      · intro each seg inside
        obtain ⟨segment,there,rfl⟩ := List.mem_map.mp inside
        obtain ⟨before,after,rfl⟩ := List.append_of_mem there
        exact each before segment after rfl
      · rintro each done segment rest rfl
        exact each _ (List.mem_map_of_mem (by simp))
    · exact fun found ok => (run.2 found ok).2
  · rintro done segment rest found _ ⟨readable,known⟩
    refine ⟨fun found' ok => ?_,read_segment_total.mpr⟩
    have here : SegmentReadable (trim segment) := read_segment_total.mp ⟨found',ok⟩
    refine ⟨here,?_,?_⟩
    · intro seg inside
      rw [List.map_append,List.mem_append] at inside
      rcases inside with before | last
      · exact readable seg before
      · rw [List.map_singleton,List.mem_singleton] at last
        rw [last]
        exact here
    · have unknown : found.1 = none ↔ kept (done.map trim) = none := by
        cases keeps : kept (done.map trim) with
        | none => simp [known,keeps]
        | some seg =>
          obtain ⟨inside,offered⟩ := kept_mem keeps
          obtain ⟨segment',_,rfl⟩ := List.mem_map.mp inside
          have some_place := place_isSome (trim_trim segment') (readable _ inside)
          rw [offered,Option.isSome_iff_ne_none] at some_place
          simp [known,keeps,some_place]
      rw [read_segment_place ok,place_isSome (trim_trim segment) here,List.map_append,List.map_singleton,kept_concat]
      by_cases new : offers (trim segment) = true ∧ (kept (done.map trim) = none ∨ names_location (trim segment) = true)
      · rw [if_pos new,if_pos ⟨new.1,new.2.imp_left unknown.mpr⟩]
        rfl
      · rw [if_neg new,if_neg (fun old => new ⟨old.1,old.2.imp_left unknown.mp⟩)]
        exact known

/-! ### Blocks -/

/-- The segments of a metadata line without its bullet. -/
def segments (line : List Char) : List (List Char) := (split_str " | ".toList line).map trim

/-- The metadata line of a block that has a title. -/
def line_of (block : List Char) : Option (List Char) :=
  match lines block with
  | first :: second :: _ =>
    match parse_title_author first with
    | .ok (title,_) => if title = [] then none else some (meta_text (trim second))
    | .error _ => none
  | _ => none

/-- A metadata line none of whose slices is inside a character, and from which no page is taken that is
    not a word. -/
structure LineReadable (line : List Char) : Prop where
  highlight : Clear line 14
  note : Clear line 9
  bookmark : Begins line "your note".toList ∨ Clear line 13
  segments : ∀ seg ∈ segments line, SegmentReadable seg
  page : typed line → ∀ seg, kept (Kindle.segments line) = some seg → located seg = false →
    ∀ n, after_marker "page " seg = some n → KeepsWord seg n

/-- A block with a title gives a clipping if its line has a type, with the place that its segments give. -/
theorem parse_block_line (reads : line_of block = some line) :
    ∃ make : KindleClippingType → Option (List Char) × Option OffsetDateTime → KindleClipping,
      (∀ t found, (make t found).location = found.1) ∧
        ∀ result, parse_block block = .ok result ↔ ∃ answer found, parse_type line = .ok answer ∧
          (split_str " | ".toList line).foldlM read_segment (none,none) = .ok found ∧ answer.map (fun t => make t found) = result := by
  unfold line_of at reads
  unfold parse_block
  cases parts : lines block with
  | nil =>
    rw [parts] at reads
    cases reads
  | cons first more =>
    cases more with
    | nil =>
      rw [parts] at reads
      cases reads
    | cons second rest =>
      obtain ⟨title,author,titled⟩ := parse_title_author_total first
      simp only [parts,titled] at reads
      by_cases empty : title = []
      · rw [if_pos empty] at reads
        cases reads
      · rw [if_neg empty] at reads
        have same : meta_text (trim second) = line := Option.some.inj reads
        refine ⟨fun t found => ⟨title,author,t,found.1,found.2,trim (['\n'].intercalate rest)⟩,fun _ _ => rfl,fun result => ?_⟩
        simp only [titled,ok_bind,if_neg empty,parse_meta_line,same,bind_ok]
        constructor
        · rintro ⟨read,⟨answer,typing,found,run,whole⟩,made⟩
          cases whole
          refine ⟨answer,found,typing,run,?_⟩
          cases answer with
          | none => exact Except.ok.inj made
          | some t => exact Except.ok.inj made
        · rintro ⟨answer,found,typing,run,rfl⟩
          refine ⟨_,⟨answer,typing,found,run,rfl⟩,?_⟩
          cases answer <;> rfl

theorem parse_block_plain (unread : line_of block = none) : parse_block block = .ok none := by
  unfold line_of at unread
  unfold parse_block
  cases parts : lines block with
  | nil => rfl
  | cons first more =>
    cases more with
    | nil => rfl
    | cons second rest =>
      obtain ⟨title,author,titled⟩ := parse_title_author_total first
      simp only [parts,titled] at unread
      by_cases empty : title = []
      · simp only [titled,ok_bind,if_pos empty]
      · simp [empty] at unread

/-- The place of a clipping is that of the segment of its line that is kept. -/
def Located (block : List Char) (clipping : KindleClipping) : Prop := ∀ loc, clipping.location = some loc →
  ∃ line seg, line_of block = some line ∧ kept (segments line) = some seg ∧ LocationOf loc seg

/-- A block is parsed as it should be iff its metadata line is cut where it can be. -/
theorem block_iff : (∃ result, parse_block block = .ok result ∧ ∀ clipping, result = some clipping → Located block clipping) ↔
    ∀ line, line_of block = some line → LineReadable line := by
  cases reads : line_of block with
  | none =>
    refine iff_of_true ⟨none,parse_block_plain reads,by simp⟩ ?_
    intro line here
    cases here
  | some line =>
    obtain ⟨make,place_of,gives⟩ := parse_block_line reads
    obtain ⟨runs,location⟩ := read_segments (split_str " | ".toList line)
    change _ ↔ ∀ seg ∈ segments line, SegmentReadable seg at runs
    change ∀ found : Option (List Char) × Option OffsetDateTime, _ → found.1 = (kept (segments line)).bind place at location
    have trimmed (seg : List Char) (inside : seg ∈ segments line) : trim seg = seg := by
      obtain ⟨segment,_,rfl⟩ := List.mem_map.mp inside
      exact trim_trim segment
    constructor
    · rintro ⟨result,ok,located_all⟩ line' same
      cases same
      obtain ⟨answer,found,typing,run,rfl⟩ := (gives result).mp ok
      obtain ⟨high,low,middle⟩ := parse_type_total.mp ⟨answer,typing⟩
      have readable := runs.mp ⟨found,run⟩
      refine ⟨high,low,middle,readable,?_⟩
      intro some_type seg keeps unlocated n mark
      rw [← parse_type_isSome typing] at some_type
      obtain ⟨t,rfl⟩ := Option.isSome_iff_exists.mp some_type
      obtain ⟨inside,offered⟩ := kept_mem keeps
      rw [← place_isSome (trimmed seg inside) (readable seg inside)] at offered
      obtain ⟨loc,placed⟩ := Option.isSome_iff_exists.mp offered
      have known : (make t found).location = some loc := by
        rw [place_of,location found run,keeps]
        exact placed
      obtain ⟨line',seg',same,keeps',holds⟩ := located_all (make t found) rfl loc known
      cases reads.symm.trans same
      cases keeps.symm.trans keeps'
      rcases extract_location_some (trimmed seg inside) (place_extract placed) with ⟨there,_⟩ | ⟨_,_,before,after,word,rfl,mark',first,rfl⟩
      · cases unlocated.symm.trans there
      · cases mark.symm.trans mark'
        obtain ⟨some_char,chars⟩ := head_word first
        exact (keeps_word_iff first).mpr ((location_of_page some_char chars).mp holds)
    · intro readable
      obtain ⟨high,low,middle,segs_readable,page⟩ := readable line rfl
      obtain ⟨answer,typing⟩ := parse_type_total.mpr ⟨high,low,middle⟩
      obtain ⟨found,run⟩ := runs.mpr segs_readable
      refine ⟨_,(gives _).mpr ⟨answer,found,typing,run,rfl⟩,?_⟩
      intro clipping made loc known
      obtain ⟨t,rfl,rfl⟩ := Option.map_eq_some_iff.mp made
      rw [place_of,location found run] at known
      obtain ⟨seg,keeps,placed⟩ := Option.bind_eq_some_iff.mp known
      refine ⟨line,seg,reads,keeps,?_⟩
      obtain ⟨inside,_⟩ := kept_mem keeps
      rcases extract_location_some (trimmed seg inside) (place_extract placed) with ⟨_,ends⟩ | ⟨unlocated,_,before,after,word,rfl,mark,first,rfl⟩
      · exact Or.inl ends
      · obtain ⟨some_char,chars⟩ := head_word first
        have some_type : typed line = true := (parse_type_isSome typing).symm
        exact (location_of_page some_char chars).mpr ((keeps_word_iff first).mp (page some_type _ keeps unlocated _ mark))

/-! ### Files -/

/-- The import gives an error or the clippings of the blocks, with places from their metadata lines. -/
def Imports (bytes : List UInt8) : Prop := ∃ result, parse_kindle_clippings bytes = .ok result ∧
  ∀ clippings, result = .ok clippings → ∃ text found, decode_utf8_bom bytes = .ok text ∧ clippings = found.reduceOption ∧
    List.Forall₂ (fun block result => parse_block block = .ok result ∧ ∀ clipping, result = some clipping → Located block clipping)
      (blocks text) found

/-- The import panics at no metadata line, and takes no part of a word for a page, iff each block that has
    a title has a metadata line that is cut where it can be. -/
theorem imports_iff (bytes : List UInt8) : Imports bytes ↔ ∀ text, decode_utf8_bom bytes = .ok text →
    ∀ block ∈ blocks text, ∀ line, line_of block = some line → LineReadable line := by
  unfold Imports parse_kindle_clippings
  cases decodes : decode_utf8_bom bytes with
  | error e =>
    refine iff_of_true ⟨_,rfl,?_⟩ ?_
    · intro clippings same
      cases same
    · intro text same
      cases same
  | ok text =>
    simp only [bind_ok,Except.ok.injEq,forall_eq',← block_iff,← mapM_each]
    constructor
    · rintro ⟨result,⟨found,run,rfl⟩,holds⟩
      obtain ⟨text',found',rfl,_,each⟩ := holds _ rfl
      exact ⟨found',each⟩
    · rintro ⟨found,each⟩
      refine ⟨_,⟨found,mapM_forall₂ each,rfl⟩,?_⟩
      intro clippings same
      exact ⟨text,found,rfl,(Except.ok.inj same).symm,each⟩

end

section

/-- The lower case of ASCII letters, and of the capital I with a dot, which is longer. -/
@[reducible] def dottedUnicode : Unicode :=
  ⟨fun text => String.ofList (text.toList.flatMap (fun c => if c = 'İ' then ['i','\u0307'] else [to_ascii_lowercase c]))⟩

@[reducible] def plainDates : Dates := ⟨Char.isAlpha,fun _ _ => none⟩

attribute [local instance] dottedUnicode plainDates

def germanFile : List Char :=
  "Buch (Autor)\n- Ihre Markierung auf Seite 23 | Hinzugefügt am Montag, 27. Mai 2024 22:21:26\n\nText\n==========\n".toList

def turkishFile : List Char := "Book (Author)\n- Your Note in İ on Page 23\n\nText\n==========\n".toList

theorem decode_encode {b : UInt8} {c : Char} {text : List Char} (first : text.head? = some c) (written : String.utf8EncodeChar c = [b])
    (unmarked : b ≠ 0xEF) : decode_utf8_bom (encode text) = .ok text := by
  obtain ⟨rest,rfl⟩ := List.head?_eq_some_iff.mp first
  have bytes : encode (c :: rest) = b :: encode rest := by rw [encode_cons,written,List.singleton_append]
  have whole : from_utf8 (encode (c :: rest)) = some (c :: rest) := from_utf8_eq_some.mpr rfl
  unfold decode_utf8_bom
  dsimp only
  split
  · next marked =>
    split at marked
    · next same => exact absurd (List.cons.inj (bytes.symm.trans same)).1 unmarked
    · rw [whole] at marked
      cases marked
      rfl
  · next marked =>
    split at marked
    · next same => exact absurd (List.cons.inj (bytes.symm.trans same)).1 unmarked
    · rw [whole] at marked
      cases marked

theorem german_panics (result : Except ImportError (List KindleClipping)) : parse_kindle_clippings (encode germanFile) ≠ .ok result := by
  intro ok
  have decodes : decode_utf8_bom (encode germanFile) = .ok germanFile := @decode_encode 66 'B' _ (by decide) (by decide) (by decide)
  rw [parse_kindle_clippings,decodes] at ok
  obtain ⟨found,run,_⟩ := bind_ok.mp ok
  have one : blocks germanFile =
      ["Buch (Autor)\n- Ihre Markierung auf Seite 23 | Hinzugefügt am Montag, 27. Mai 2024 22:21:26\n\nText".toList] := by decide +kernel
  rw [one] at run
  obtain ⟨block,_,read,_⟩ := mapM_cons_ok.mp run
  have line : line_of "Buch (Autor)\n- Ihre Markierung auf Seite 23 | Hinzugefügt am Montag, 27. Mai 2024 22:21:26\n\nText".toList =
      some "Ihre Markierung auf Seite 23 | Hinzugefügt am Montag, 27. Mai 2024 22:21:26".toList := by decide +kernel
  obtain ⟨make,_,gives⟩ := parse_block_line line
  obtain ⟨_,found',_,run',_⟩ := (gives block).mp read
  have readable := (read_segments _).1.mp ⟨found',run'⟩ "Hinzugefügt am Montag, 27. Mai 2024 22:21:26".toList (by decide +kernel)
  exact absurd readable.date (by decide +kernel)

/-- The ninth byte of a segment that tells the date in German is inside a character, and a capital letter
    that is longer in lower case cuts a page in two. -/
theorem import_panics : (parse_kindle_clippings (encode germanFile) = .error .Slice ∧ ¬ Imports (encode germanFile)) ∧
    ¬ Imports (encode turkishFile) := by
  refine ⟨⟨?_,?_⟩,?_⟩
  · cases parsed : parse_kindle_clippings (encode germanFile) with
    | error e => cases e; rfl
    | ok result => exact absurd parsed (german_panics result)
  · rintro ⟨result,ok,_⟩
    exact german_panics result ok
  · rintro ⟨result,ok,holds⟩
    have turkish : decode_utf8_bom (encode turkishFile) = .ok turkishFile := @decode_encode 66 'B' _ (by decide) (by decide) (by decide)
    rw [parse_kindle_clippings,turkish] at ok
    obtain ⟨clippings,_,same⟩ := bind_ok.mp ok
    cases same
    obtain ⟨text,found,same,_,each⟩ := holds _ rfl
    cases turkish.symm.trans same
    have one : blocks turkishFile = ["Book (Author)\n- Your Note in İ on Page 23\n\nText".toList] := by decide +kernel
    rw [one] at each
    cases each with
    | cons here _ =>
      have line : line_of "Book (Author)\n- Your Note in İ on Page 23\n\nText".toList = some "Your Note in İ on Page 23".toList := by
        decide +kernel
      have readable := block_iff.mp ⟨_,here⟩ _ line
      have keeps : KeepsWord "Your Note in İ on Page 23".toList 25 :=
        readable.page (by decide +kernel) _ (by decide +kernel) (by decide +kernel) 25 (by decide +kernel)
      rcases keeps "Your Note in İ on Page 2".toList "3".toList (by decide) (by decide) with last | next | other
      · exact absurd (last '2' (by decide)) (by decide)
      · exact absurd (next '3' rfl) (by decide)
      · exact absurd other (by decide +kernel)

end

end Pergamon.Kindle
