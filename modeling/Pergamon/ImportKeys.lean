import Pergamon.Rules
import Pergamon.Texts

/-!
The keys by which imported highlights and their sources are known again: hashes of 64 bits over the
bytes of the fields. No byte of a text is 0xFF or 0xFE, so these keep fields apart; and the key of a
Readwise source that is hashed has a fixed length. Nothing keeps the location of a Kindle highlight
and its quote apart, so a location may go on into the quote (`keys_iff`).
-/
namespace Pergamon

/-! ### Hashes -/

/-- One more value in a hash. -/
def fold_value (hash : UInt64) (b : UInt8) : UInt64 := hash * 31 + b.toUInt64

def fold_values (values : List UInt8) : UInt64 := values.foldl fold_value 0

/-- Hexadecimal digits, with zeros in front. -/
def hex_digits : ℕ → ℕ → List Char
  | 0,_ => []
  | w + 1,n => hex_digits w (n / 16) ++ [Nat.digitChar (n % 16)]

/-- `{hash:016x}`. -/
def hex16 (hash : UInt64) : String := String.ofList (hex_digits 16 hash.toNat)

/-- The bytes of a text. -/
def text_bytes (s : String) : List UInt8 := Utf8.encode s.toList

section
variable [Unicode]

/-- A text in lower case without the blanks around it. -/
def normalized (text : String) : String := Unicode.to_lowercase (trimmed text)

/-- An optional text that is normalized, or nothing. -/
def normalized_or_empty (text : Option String) : String := (text.map normalized).getD ""

/-! ### Kindle -/

def kindle_source_values (title : String) (author : Option String) : List UInt8 :=
  text_bytes (normalized title) ++ 0xFF :: text_bytes (normalized_or_empty author)

/-- Generate a stable synthetic URL for a Kindle book. -/
def kindle_source_key (title : String) (author : Option String) : String :=
  "kindle://book/" ++ hex16 (fold_values (kindle_source_values title author))

def kindle_highlight_values (location : Option String) (quote : String) : List UInt8 :=
  text_bytes (location.getD "unknown") ++ text_bytes (normalized quote)

/-- Generate a stable synthetic URL for a Kindle highlight, with the hash of the source key. -/
def kindle_highlight_key (title : String) (author location : Option String) (quote : String) : String :=
  let source := kindle_source_key title author
  "kindle://highlight/" ++ String.ofList (source.toList.drop "kindle://book/".length) ++ ":" ++
    hex16 (fold_values (kindle_highlight_values location quote))

/-! ### Readwise -/

def readwise_source_values (title : String) (author source_type : Option String) : List UInt8 :=
  text_bytes (normalized title) ++ 0xFF :: (text_bytes (normalized_or_empty author) ++ 0xFE :: text_bytes (normalized_or_empty source_type))

/-- Generate a stable synthetic URL for a Readwise source: the source URL if there is one. -/
def readwise_source_key (source_url : Option String) (title : String) (author source_type : Option String) : String :=
  match (source_url.map trimmed).filter (fun url => url ≠ "") with
  | some url => url
  | none => "readwise://source/" ++ hex16 (fold_values (readwise_source_values title author source_type))

def readwise_highlight_values (source : String) (highlight_text : String) : List UInt8 :=
  text_bytes source ++ text_bytes (normalized highlight_text)

/-- Generate a stable synthetic URL for a Readwise highlight: by its UUID if there is one. -/
def readwise_highlight_key (uuid source_url : Option String) (title : String) (author source_type : Option String)
    (highlight_text : String) : String :=
  match (uuid.map trimmed).filter (fun uuid => uuid ≠ "") with
  | some uuid => "readwise://highlight/" ++ uuid
  | none =>
    let source := readwise_source_key source_url title author source_type
    "readwise://highlight/" ++ hex16 (fold_values (readwise_highlight_values source highlight_text))

end

/-! ### Values and fields -/

section
variable {s s' t t' : List UInt8} {a b : UInt64}

/-- A value that cannot occur keeps two parts apart. -/
theorem separated {α : Type} [DecidableEq α] {s s' t t' : List α} {sep : α} (outside : sep ∉ s) (outside' : sep ∉ s')
    (same : s ++ sep :: t = s' ++ sep :: t') : s = s' ∧ t = t' := by
  have first (u v : List α) (outside : sep ∉ u) : (u ++ sep :: v).takeWhile (fun b => b ≠ sep) = u := by
    rw [List.takeWhile_append_of_pos]
    · simp
    · intro b inside
      simp only [decide_eq_true_eq]
      rintro rfl
      exact outside inside
  have begins : s = s' := by rw [← first s t outside,same,first s' t' outside']
  rw [begins,List.append_cancel_left_eq] at same
  exact ⟨begins,(List.cons.inj same).2⟩

theorem text_bytes_inj {s t : String} : text_bytes s = text_bytes t ↔ s = t := by
  rw [text_bytes,text_bytes,Utf8.encode_inj,String.toList_inj]

theorem text_bytes_append (s t : String) : text_bytes (s ++ t) = text_bytes s ++ text_bytes t := by
  rw [text_bytes,String.toList_append,Utf8.encode_append]
  rfl

/-- The two separators are in no text. -/
theorem separator_outside (s : String) : 0xFF ∉ text_bytes s ∧ 0xFE ∉ text_bytes s := by
  constructor
  · intro inside
    have := Utf8.encode_lt inside
    simp at this
  · intro inside
    have := Utf8.encode_lt inside
    simp at this

theorem length_hex_digits (w n : ℕ) : (hex_digits w n).length = w := by
  induction w generalizing n with
  | zero => rfl
  | succ w ih => simp [hex_digits,ih]

theorem hex_digits_inj {w m n : ℕ} (small : m < 16 ^ w) (small' : n < 16 ^ w) (same : hex_digits w m = hex_digits w n) : m = n := by
  have digit : ∀ m < 16, ∀ n < 16, Nat.digitChar m = Nat.digitChar n → m = n := by decide
  induction w generalizing m n with
  | zero =>
    rw [pow_zero] at small small'
    omega
  | succ w ih =>
    rw [pow_succ] at small small'
    rw [hex_digits,hex_digits] at same
    obtain ⟨before,last⟩ := List.append_inj same (by rw [length_hex_digits,length_hex_digits])
    have high := ih (by omega) (by omega) before
    have low := digit _ (Nat.mod_lt m (by decide)) _ (Nat.mod_lt n (by decide)) (List.cons.inj last).1
    omega

theorem hex16_inj : hex16 a = hex16 b ↔ a = b := by
  refine ⟨fun same => ?_,congrArg hex16⟩
  have digits := hex_digits_inj (by simpa using a.toNat_lt) (by simpa using b.toNat_lt) (String.ofList_injective same)
  exact UInt64.toNat_inj.mp digits

theorem length_hex16 (a : UInt64) : (hex16 a).toList.length = 16 := by
  rw [hex16,String.toList_ofList,length_hex_digits]

end

/-! ### What the keys tell apart -/

structure KindleHighlight where
  title : String
  author : Option String
  location : Option String
  quote : String

structure ReadwiseHighlight where
  title : String
  author : Option String
  source_type : Option String
  text : String

/-- Different values with one hash. -/
def Collide (s t : List UInt8) : Prop := s ≠ t ∧ fold_values s = fold_values t

section
variable [Unicode]

namespace KindleHighlight
variable (x y : KindleHighlight)

def source_values : List UInt8 := kindle_source_values x.title x.author

def quote_values : List UInt8 := kindle_highlight_values x.location x.quote

def source_key : String := kindle_source_key x.title x.author

def key : String := kindle_highlight_key x.title x.author x.location x.quote

/-- The normalized title and author. -/
def source : String × String := (normalized x.title,normalized_or_empty x.author)

omit [Unicode] in
/-- The location as the key takes it. -/
def place : String := x.location.getD "unknown"

/-- The location of one highlight goes on into the quote of the other. -/
def RunsInto : Prop := ∃ part, part ≠ "" ∧ y.place = x.place ++ part ∧ normalized x.quote = part ++ normalized y.quote

/-- The keys tell two sources apart: by what is folded, and but for a collision. -/
def SourceApart : Prop :=
  (x.source_values = y.source_values → x.source = y.source) ∧
    (x.source_key = y.source_key → x.source = y.source ∨ Collide x.source_values y.source_values)

/-- The keys tell two highlights apart: by what is folded, and but for a collision. -/
def Apart : Prop :=
  (x.source_values = y.source_values → x.quote_values = y.quote_values →
    x.source = y.source ∧ x.place = y.place ∧ normalized x.quote = normalized y.quote) ∧
  (x.key = y.key → (x.source = y.source ∧ x.place = y.place ∧ normalized x.quote = normalized y.quote) ∨
    Collide x.source_values y.source_values ∨ Collide x.quote_values y.quote_values)

end KindleHighlight

namespace ReadwiseHighlight
variable (x y : ReadwiseHighlight)

def source_values : List UInt8 := readwise_source_values x.title x.author x.source_type

/-- The key of the source, without a source URL. -/
def source_key : String := readwise_source_key none x.title x.author x.source_type

def quote_values : List UInt8 := readwise_highlight_values x.source_key x.text

/-- The key, without a UUID or a source URL. -/
def key : String := readwise_highlight_key none none x.title x.author x.source_type x.text

/-- The normalized title, author and type. -/
def source : String × String × String := (normalized x.title,normalized_or_empty x.author,normalized_or_empty x.source_type)

/-- The keys tell two sources apart: by what is folded, and but for a collision. -/
def SourceApart : Prop :=
  (x.source_values = y.source_values → x.source = y.source) ∧
    (x.source_key = y.source_key → x.source = y.source ∨ Collide x.source_values y.source_values)

/-- The keys tell two highlights apart: by what is folded, and but for a collision. -/
def Apart : Prop :=
  (x.source_values = y.source_values → x.quote_values = y.quote_values → x.source = y.source ∧ normalized x.text = normalized y.text) ∧
    (x.key = y.key → (x.source = y.source ∧ normalized x.text = normalized y.text) ∨
      Collide x.source_values y.source_values ∨ Collide x.quote_values y.quote_values)

end ReadwiseHighlight

/-- A text in other letter case, with blanks around it. -/
def Restyled (s t : String) : Prop := ∃ before core after : String, Blank before.toList ∧ Blank after.toList ∧
  t = before ++ core ++ after ∧ Unicode.to_lowercase (trimmed core) = Unicode.to_lowercase (trimmed s)

theorem Restyled.normalized_eq {s t : String} (restyled : Restyled s t) : normalized t = normalized s := by
  obtain ⟨before,core,after,blank,blank',rfl,same⟩ := restyled
  rw [normalized,trimmed_blanks blank blank',same,normalized]

/-- The same highlight in other letter case, with blanks around its title, author and quote. -/
structure KindleHighlight.Restyles (x y : KindleHighlight) : Prop where
  title : Restyled x.title y.title
  author : Option.Rel Restyled x.author y.author
  location : x.location = y.location
  quote : Restyled x.quote y.quote

structure ReadwiseHighlight.Restyles (r s : ReadwiseHighlight) : Prop where
  title : Restyled r.title s.title
  author : Option.Rel Restyled r.author s.author
  source_type : r.source_type = s.source_type
  text : Restyled r.text s.text

theorem normalized_or_empty_eq {s t : Option String} (restyled : Option.Rel Restyled s t) :
    normalized_or_empty t = normalized_or_empty s := by
  cases restyled with
  | some restyled => exact restyled.normalized_eq
  | none => rfl

section
variable {x y : KindleHighlight}

theorem kindle_source_values_iff : x.source_values = y.source_values ↔ x.source = y.source := by
  rw [KindleHighlight.source,KindleHighlight.source,Prod.mk.injEq]
  constructor
  · intro same
    obtain ⟨title,author⟩ := separated (separator_outside _).1 (separator_outside _).1 same
    exact ⟨text_bytes_inj.mp title,text_bytes_inj.mp author⟩
  · rintro ⟨title,author⟩
    rw [KindleHighlight.source_values,KindleHighlight.source_values,kindle_source_values,kindle_source_values,title,author]

theorem kindle_quote_values_iff : x.quote_values = y.quote_values ↔ x.place ++ normalized x.quote = y.place ++ normalized y.quote := by
  rw [KindleHighlight.quote_values,KindleHighlight.quote_values,kindle_highlight_values,kindle_highlight_values,
    ← text_bytes_append,← text_bytes_append,text_bytes_inj]
  rfl

theorem kindle_source_key_iff : x.source_key = y.source_key ↔ fold_values x.source_values = fold_values y.source_values := by
  change "kindle://book/" ++ hex16 (fold_values x.source_values) = "kindle://book/" ++ hex16 (fold_values y.source_values) ↔ _
  rw [String.append_right_inj,hex16_inj]

theorem kindle_key_eq : x.key =
    "kindle://highlight/" ++ hex16 (fold_values x.source_values) ++ ":" ++ hex16 (fold_values x.quote_values) := by
  have hash (h : String) : String.ofList (("kindle://book/" ++ h).toList.drop "kindle://book/".length) = h := by
    rw [String.toList_append,List.drop_left' String.length_toList,String.ofList_toList]
  change "kindle://highlight/" ++
    String.ofList (("kindle://book/" ++ hex16 (fold_values x.source_values)).toList.drop "kindle://book/".length) ++ ":" ++ _ = _
  rw [hash]
  rfl

/-- A key of a highlight holds both hashes. -/
theorem kindle_key_iff : x.key = y.key ↔ fold_values x.source_values = fold_values y.source_values ∧
    fold_values x.quote_values = fold_values y.quote_values := by
  rw [kindle_key_eq,kindle_key_eq]
  constructor
  · intro same
    simp only [String.append_assoc,String.append_right_inj] at same
    have texts := congrArg String.toList same
    simp only [String.toList_append] at texts
    obtain ⟨source,rest⟩ := List.append_inj texts ((length_hex16 _).trans (length_hex16 _).symm)
    exact ⟨hex16_inj.mp (String.toList_inj.mp source),hex16_inj.mp (String.toList_inj.mp (List.append_cancel_left rest))⟩
  · rintro ⟨source,quote⟩
    rw [source,quote]

omit [Unicode] in
/-- Two ways to cut one text. -/
theorem cut_iff {a b c d : String} : a ++ b = c ++ d ↔ a = c ∧ b = d ∨
    (∃ part, part ≠ "" ∧ c = a ++ part ∧ b = part ++ d) ∨ ∃ part, part ≠ "" ∧ a = c ++ part ∧ d = part ++ b := by
  constructor
  · intro same
    rw [← String.toList_inj,String.toList_append,String.toList_append,List.append_eq_append_iff] at same
    rcases same with ⟨part,first,last⟩ | ⟨part,first,last⟩
    · by_cases none : part = []
      · subst none
        refine Or.inl ⟨?_,?_⟩
        · exact String.toList_inj.mp (by simpa using first.symm)
        · exact String.toList_inj.mp (by simpa using last)
      · refine Or.inr (Or.inl ⟨String.ofList part,by simpa using none,?_,?_⟩)
        · simpa [← String.toList_inj] using first
        · simpa [← String.toList_inj] using last
    · by_cases none : part = []
      · subst none
        refine Or.inl ⟨?_,?_⟩
        · exact String.toList_inj.mp (by simpa using first)
        · exact String.toList_inj.mp (by simpa using last.symm)
      · refine Or.inr (Or.inr ⟨String.ofList part,by simpa using none,?_,?_⟩)
        · simpa [← String.toList_inj] using first
        · simpa [← String.toList_inj] using last
  · rintro (⟨rfl,rfl⟩ | ⟨part,-,rfl,rfl⟩ | ⟨part,-,rfl,rfl⟩)
    · rfl
    · rw [String.append_assoc]
    · rw [String.append_assoc]

omit [Unicode] in
theorem longer {s part : String} (something : part ≠ "") : s ≠ s ++ part := by
  intro same
  have length := congrArg String.length same
  rw [String.length_append] at length
  have none : part.length = 0 := by omega
  exact something (by simpa using none)

/-- The keys tell two Kindle highlights apart iff neither location goes on into the other's quote
    where the sources are the same. -/
theorem kindle_apart_iff : x.Apart y ↔ ¬ (x.source = y.source ∧ (x.RunsInto y ∨ y.RunsInto x)) := by
  constructor
  · rintro ⟨values,-⟩ ⟨source,runs⟩
    have sources := kindle_source_values_iff.mpr source
    rcases runs with ⟨part,something,place,quote⟩ | ⟨part,something,place,quote⟩
    · have quotes : x.quote_values = y.quote_values :=
        kindle_quote_values_iff.mpr (cut_iff.mpr (Or.inr (Or.inl ⟨part,something,place,quote⟩)))
      have same := (values sources quotes).2.1
      exact longer something (same.trans place)
    · have quotes : x.quote_values = y.quote_values :=
        kindle_quote_values_iff.mpr (cut_iff.mpr (Or.inr (Or.inr ⟨part,something,place,quote⟩)))
      have same := (values sources quotes).2.1
      exact longer something (same.symm.trans place)
  · intro straight
    have values (sources : x.source_values = y.source_values) (quotes : x.quote_values = y.quote_values) :
        x.source = y.source ∧ x.place = y.place ∧ normalized x.quote = normalized y.quote := by
      have source := kindle_source_values_iff.mp sources
      rcases cut_iff.mp (kindle_quote_values_iff.mp quotes) with same | forth | back
      · exact ⟨source,same⟩
      · exact absurd ⟨source,Or.inl forth⟩ straight
      · exact absurd ⟨source,Or.inr back⟩ straight
    refine ⟨values,?_⟩
    intro keys
    obtain ⟨hash,hash'⟩ := kindle_key_iff.mp keys
    by_cases sources : x.source_values = y.source_values
    · by_cases quotes : x.quote_values = y.quote_values
      · exact Or.inl (values sources quotes)
      · exact Or.inr (Or.inr ⟨quotes,hash'⟩)
    · exact Or.inr (Or.inl ⟨sources,hash⟩)

end

section
variable {r s : ReadwiseHighlight}

theorem readwise_source_values_iff : r.source_values = s.source_values ↔ r.source = s.source := by
  rw [ReadwiseHighlight.source,ReadwiseHighlight.source,Prod.mk.injEq,Prod.mk.injEq]
  constructor
  · intro same
    obtain ⟨title,rest⟩ := separated (separator_outside _).1 (separator_outside _).1 same
    obtain ⟨author,source_type⟩ := separated (separator_outside _).2 (separator_outside _).2 rest
    exact ⟨text_bytes_inj.mp title,text_bytes_inj.mp author,text_bytes_inj.mp source_type⟩
  · rintro ⟨title,author,source_type⟩
    rw [ReadwiseHighlight.source_values,ReadwiseHighlight.source_values,readwise_source_values,readwise_source_values,title,
      author,source_type]

theorem readwise_source_key_eq : r.source_key = "readwise://source/" ++ hex16 (fold_values r.source_values) := rfl

theorem readwise_source_key_iff : r.source_key = s.source_key ↔ fold_values r.source_values = fold_values s.source_values := by
  rw [readwise_source_key_eq,readwise_source_key_eq,String.append_right_inj,hex16_inj]

/-- A hashed source key has a fixed length, so nothing of it goes on into the quote. -/
theorem readwise_quote_values_iff : r.quote_values = s.quote_values ↔ r.source_key = s.source_key ∧ normalized r.text = normalized s.text := by
  rw [ReadwiseHighlight.quote_values,ReadwiseHighlight.quote_values,readwise_highlight_values,readwise_highlight_values,
    ← text_bytes_append,← text_bytes_append,text_bytes_inj]
  constructor
  · intro same
    rw [← String.toList_inj,String.toList_append,String.toList_append] at same
    have long (r : ReadwiseHighlight) : r.source_key.toList.length = 34 := by
      rw [readwise_source_key_eq,String.toList_append,List.length_append,length_hex16]
      rfl
    obtain ⟨source,text⟩ := List.append_inj same (by rw [long,long])
    exact ⟨String.toList_inj.mp source,String.toList_inj.mp text⟩
  · rintro ⟨source,text⟩
    rw [source,text]

theorem readwise_key_iff : r.key = s.key ↔ fold_values r.quote_values = fold_values s.quote_values := by
  have form (r : ReadwiseHighlight) : r.key = "readwise://highlight/" ++ hex16 (fold_values r.quote_values) := rfl
  rw [form,form,String.append_right_inj,hex16_inj]

theorem readwise_apart (r s : ReadwiseHighlight) : r.Apart s := by
  have values (sources : r.source_values = s.source_values) (quotes : r.quote_values = s.quote_values) :
      r.source = s.source ∧ normalized r.text = normalized s.text :=
    ⟨readwise_source_values_iff.mp sources,(readwise_quote_values_iff.mp quotes).2⟩
  refine ⟨values,?_⟩
  intro keys
  by_cases quotes : r.quote_values = s.quote_values
  · by_cases sources : r.source_values = s.source_values
    · exact Or.inl (values sources quotes)
    · exact Or.inr (Or.inl ⟨sources,readwise_source_key_iff.mp (readwise_quote_values_iff.mp quotes).1⟩)
  · exact Or.inr (Or.inr ⟨quotes,readwise_key_iff.mp keys⟩)

theorem readwise_source_apart (r s : ReadwiseHighlight) : r.SourceApart s := by
  refine ⟨readwise_source_values_iff.mp,?_⟩
  intro keys
  by_cases sources : r.source_values = s.source_values
  · exact Or.inl (readwise_source_values_iff.mp sources)
  · exact Or.inr ⟨sources,readwise_source_key_iff.mp keys⟩

theorem kindle_source_apart (x y : KindleHighlight) : x.SourceApart y := by
  refine ⟨kindle_source_values_iff.mp,?_⟩
  intro keys
  by_cases sources : x.source_values = y.source_values
  · exact Or.inl (kindle_source_values_iff.mp sources)
  · exact Or.inr ⟨sources,kindle_source_key_iff.mp keys⟩

/-- Letter case and blanks do not change the keys. -/
theorem kindle_restyled {x y : KindleHighlight} (restyles : x.Restyles y) : x.source_key = y.source_key ∧ x.key = y.key := by
  obtain ⟨title,author,location,quote⟩ := restyles
  have sources : x.source_values = y.source_values := by
    rw [kindle_source_values_iff,KindleHighlight.source,KindleHighlight.source,title.normalized_eq,normalized_or_empty_eq author]
  have quotes : x.quote_values = y.quote_values := by
    rw [kindle_quote_values_iff,KindleHighlight.place,KindleHighlight.place,location,quote.normalized_eq]
  exact ⟨kindle_source_key_iff.mpr (by rw [sources]),kindle_key_iff.mpr ⟨by rw [sources],by rw [quotes]⟩⟩

theorem readwise_restyled (restyles : r.Restyles s) : r.source_key = s.source_key ∧ r.key = s.key := by
  obtain ⟨title,author,source_type,text⟩ := restyles
  have sources : r.source_values = s.source_values := by
    rw [readwise_source_values_iff,ReadwiseHighlight.source,ReadwiseHighlight.source,title.normalized_eq,
      normalized_or_empty_eq author,source_type]
  have keys := readwise_source_key_iff.mpr (congrArg fold_values sources)
  have quotes : r.quote_values = s.quote_values := readwise_quote_values_iff.mpr ⟨keys,text.normalized_eq.symm⟩
  exact ⟨keys,readwise_key_iff.mpr (congrArg fold_values quotes)⟩

end

/-- The keys tell highlights and sources apart, and do not change with letter case and blanks, iff
    the location of neither Kindle highlight goes on into the quote of the other, from the same
    source. -/
theorem keys_iff (x y : KindleHighlight) (r s : ReadwiseHighlight) :
    (x.SourceApart y ∧ x.Apart y ∧ r.SourceApart s ∧ r.Apart s ∧
      (x.Restyles y → x.source_key = y.source_key ∧ x.key = y.key) ∧
        (r.Restyles s → r.source_key = s.source_key ∧ r.key = s.key)) ↔
      ¬ (x.source = y.source ∧ (x.RunsInto y ∨ y.RunsInto x)) := by
  rw [← kindle_apart_iff]
  constructor
  · exact fun all => all.2.1
  · exact fun apart => ⟨kindle_source_apart x y,apart,readwise_source_apart r s,readwise_apart r s,kindle_restyled,readwise_restyled⟩

end

/-! ### A location that goes on into a quote -/

def emma (location quote : String) : KindleHighlight := ⟨"emma",some "jane austen",some location,quote⟩

/-- Location 12 with the quote "3friends" and location 123 with the quote "friends" have one key. -/
theorem location_into_quote :
    ¬ @KindleHighlight.Apart Library.plainUnicode (emma "12" "3friends") (emma "123" "friends") := by
  rw [@kindle_apart_iff Library.plainUnicode,not_not]
  refine ⟨rfl,Or.inl ⟨"3",by decide,by decide,?_⟩⟩
  decide

end Pergamon
