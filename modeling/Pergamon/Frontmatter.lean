import Mathlib
import Pergamon.Exports
import Pergamon.Yaml

/-!
Frontmatter that is read again. The writer puts all texts in double quotes and escapes the two characters
that mean something there and the three that could not stand in a line. Other characters stand as they are,
so a block is read back iff all its characters are printable, its keys are distinct and no key is a word
that YAML reads as something else (`frontmatter_iff`).
-/
namespace Pergamon.Export
open Yaml Decimal

/-! ### Characters -/

/-- What is written for a character of a text. -/
def escape_char (c : Char) : List Char :=
  match c with
  | '\\' => ['\\','\\']
  | '"' => ['\\','"']
  | '\n' => ['\\','n']
  | '\r' => ['\\','r']
  | '\t' => ['\\','t']
  | c => [c]

/-- Characters of a text that may stand in a line. -/
def line_char (c : Char) : Bool := printable c && c ≠ '\r' && c ≠ '\n'

section
variable {c : Char} {s rest : List Char} {text : String}

theorem yaml_escape_toList (text : String) : (yaml_escape text).toList = text.toList.flatMap escape_char := by
  rw [yaml_escape,String.toList_ofList]
  rfl

theorem char_cases (c : Char) : (escape_char c = [c] ∧ c ≠ '\\' ∧ c ≠ '"' ∧ c ≠ '\n' ∧ c ≠ '\r') ∨
    c = '\\' ∨ c = '"' ∨ c = '\n' ∨ c = '\r' ∨ c = '\t' := by
  unfold escape_char
  split
  · exact Or.inr (Or.inl rfl)
  · exact Or.inr (Or.inr (Or.inl rfl))
  · exact Or.inr (Or.inr (Or.inr (Or.inl rfl)))
  · exact Or.inr (Or.inr (Or.inr (Or.inr (Or.inl rfl))))
  · exact Or.inr (Or.inr (Or.inr (Or.inr (Or.inr rfl))))
  · next back quote feed ret _ => exact Or.inl ⟨rfl,back,quote,feed,ret⟩

/-- An escaped text is read as the text. -/
theorem read_escaped (s rest : List Char) : read_quoted .Plain (s.flatMap escape_char ++ '"' :: rest) = some (s,rest) := by
  induction s with
  | nil => rfl
  | cons c s ih =>
    rw [List.flatMap_cons,List.append_assoc]
    rcases char_cases c with ⟨same,back,quote,_⟩ | rfl | rfl | rfl | rfl | rfl
    · rw [same,List.singleton_append,read_quoted,if_neg quote,if_neg back,ih]
      rfl
    all_goals simp [escape_char,read_quoted,escaped,ih]

/-- The characters that are written may stand in a line iff the text is printable. -/
theorem line_char_escaped (s : List Char) : (∀ c ∈ s.flatMap escape_char, line_char c = true) ↔ ∀ c ∈ s, printable c = true := by
  have each (c : Char) : (∀ d ∈ escape_char c, line_char d = true) ↔ printable c = true := by
    rcases char_cases c with ⟨same,_,_,feed,ret⟩ | rfl | rfl | rfl | rfl | rfl
    · rw [same]
      simp [line_char,feed,ret]
    all_goals exact iff_of_true (List.all_eq_true.mp (by decide)) (by decide)
  simp only [List.mem_flatMap]
  constructor
  · intro written c inside
    exact (each c).mp (fun d there => written d ⟨c,inside,there⟩)
  · rintro plain d ⟨c,inside,there⟩
    exact (each c).mpr (plain c inside) d there

/-- No line ends in a text that is written. -/
theorem no_break_char (c : Char) : '\n' ∉ escape_char c := by
  rcases char_cases c with ⟨same,_,_,feed,_⟩ | rfl | rfl | rfl | rfl | rfl
  · rw [same,List.mem_singleton]
    exact feed.symm
  all_goals decide

end

/-! ### Values -/

/-- The texts of a value. -/
def value_texts : FrontmatterValue → List (List Char)
  | .Str s => [s.toList]
  | .List items => items.map String.toList
  | .Int _ => []

/-- What a value is read as. -/
def value_node : FrontmatterValue → Node
  | .Str s => .Str s.toList
  | .List items => .Seq (items.map String.toList)
  | .Int n => .Int n

section
variable {s : String} {items : List String} {n : ℤ} {v : FrontmatterValue} {rest : List Char} {fuel : ℕ}

theorem quoted_toList (s : String) : (quoted s).toList = '"' :: (s.toList.flatMap escape_char ++ ['"']) := by
  rw [quoted,String.toList_append,String.toList_append,yaml_escape_toList]
  simp

/-- Items with commas between them, up to the bracket. -/
def items_text (items : List String) : List Char := [',',' '].intercalate (items.map (fun s => (quoted s).toList)) ++ [']']

theorem text_list (items : List String) : (FrontmatterValue.List items).text.toList = '[' :: items_text items := by
  cases items with
  | nil => decide
  | cons s items =>
    have comma : ", ".toList = [',',' '] := by decide
    simp only [FrontmatterValue.text,String.toList_append,String.toList_intercalate,items_text,comma,List.map_map]
    simp [Function.comp_def]

theorem items_text_cons (s : String) (items : List String) : items_text (s :: items) =
    '"' :: (s.toList.flatMap escape_char ++ '"' :: (if items = [] then [']'] else ',' :: ' ' :: items_text items)) := by
  cases items with
  | nil => simp [items_text,quoted_toList]
  | cons t items => simp [items_text,quoted_toList,List.intercalate_cons_cons]

/-- A sequence is read up to its bracket, if there is fuel for its items. -/
theorem read_items_text (enough : items.length < fuel) : read_items fuel (items_text items) = some (items.map String.toList,[]) := by
  induction items generalizing fuel with
  | nil =>
    obtain ⟨fuel,rfl⟩ : ∃ k, fuel = k + 1 := ⟨fuel - 1,by omega⟩
    rfl
  | cons s items ih =>
    obtain ⟨fuel,rfl⟩ : ∃ k, fuel = k + 1 := ⟨fuel - 1,by omega⟩
    rw [items_text_cons]
    by_cases last : items = []
    · subst last
      simp [read_items,skip,read_escaped]
    · have later := @ih fuel (by simpa using enough)
      have space : read_items fuel (' ' :: items_text items) = read_items fuel (items_text items) := by
        cases fuel with
        | zero => rfl
        | succ fuel => rfl
      rw [if_neg last,read_items]
      simp [skip,read_escaped,space,later]

theorem length_items_text (items : List String) : items.length < (items_text items).length := by
  induction items with
  | nil => decide
  | cons s items ih =>
    rw [items_text_cons]
    by_cases last : items = []
    · subst last
      simp
    · rw [if_neg last]
      simp only [List.length_cons,List.length_append]
      omega

theorem toString_int (n : ℤ) : (toString n).toList = if n < 0 then '-' :: Nat.toDigits 10 n.natAbs else Nat.toDigits 10 n.natAbs := by
  cases n with
  | ofNat m =>
    have nonneg : ¬ (Int.ofNat m < 0) := by simp
    have written : toString (Int.ofNat m) = Nat.repr m := rfl
    rw [if_neg nonneg,written,Nat.repr,String.toList_ofList]
    rfl
  | negSucc m =>
    have negative : Int.negSucc m < 0 := Int.negSucc_lt_zero m
    have written : toString (Int.negSucc m) = "-" ++ Nat.repr (m + 1) := rfl
    rw [if_pos negative,written,String.toList_append,Nat.repr]
    simp

theorem read_to_digits (n : ℕ) : Yaml.read_digits (Nat.toDigits 10 n) = some n := by
  have some_digit : Nat.toDigits 10 n ≠ [] := Nat.toDigits_ne_nil
  have digits : (Nat.toDigits 10 n).all Char.isDigit = true :=
    List.all_eq_true.mpr (fun c inside => Nat.isDigit_of_mem_toDigits (by decide) (by decide) inside)
  rw [Yaml.read_digits,if_pos ⟨some_digit,digits⟩]
  exact congrArg some (Nat.ofDigitChars_toDigits (by decide) (by decide))

theorem digit_char {c : Char} (digit : c.isDigit) : c.isAlpha = false ∧ line_char c = true ∧
    c ≠ '_' ∧ c ≠ ' ' ∧ c ≠ '\t' ∧ c ≠ '"' ∧ c ≠ '[' ∧ c ≠ '-' ∧ c ≠ '+' := by
  obtain ⟨low,high⟩ := digit_range digit
  have same : c = Char.ofNat c.toNat := (Char.ofNat_toNat c).symm
  generalize c.toNat = m at low high same
  subst same
  interval_cases m <;> decide

/-- A digit begins nothing but a number. -/
theorem read_value_digits {c : Char} {digits : List Char} (digit : c.isDigit) :
    read_value (c :: digits) = (Yaml.read_digits (c :: digits)).map (fun n => .Int n) := by
  obtain ⟨alpha,_,underscore,space,tab,quote,bracket,minus,plus⟩ := digit_char digit
  have plain : is_word (c :: digits) = false := by simp [is_word,letter,alpha,underscore]
  have kept : skip (c :: digits) = c :: digits := by simp [skip,space,tab]
  unfold read_value
  rw [kept]
  split
  · next same => exact absurd (List.cons.inj same).1 quote
  · next same => exact absurd (List.cons.inj same).1 bracket
  · rw [read_plain,plain,if_neg Bool.false_ne_true]
    unfold read_int
    split
    · next same => exact absurd (List.cons.inj same).1 minus
    · next same => exact absurd (List.cons.inj same).1 plus
    · cases Yaml.read_digits (c :: digits) <;> rfl

theorem skip_mark {c : Char} {l : List Char} (space : c ≠ ' ') (tab : c ≠ '\t') : skip (c :: l) = c :: l := by
  unfold skip
  rw [List.dropWhile_cons_of_neg (by simp [space,tab])]

theorem read_value_text (v : FrontmatterValue) : read_value v.text.toList = some (value_node v) := by
  cases v with
  | Str s =>
    rw [FrontmatterValue.text,quoted_toList,read_value,skip_mark (by decide) (by decide)]
    change (read_quoted .Plain (s.toList.flatMap escape_char ++ ['"']) >>= _) = _
    rw [read_escaped]
    rfl
  | List items =>
    rw [text_list]
    rw [read_value,skip_mark (by decide) (by decide)]
    change (read_items (items_text items).length (items_text items) >>= _) = _
    rw [read_items_text (length_items_text items)]
    rfl
  | Int n =>
    rw [FrontmatterValue.text,toString_int]
    by_cases negative : n < 0
    · rw [if_pos negative]
      have read := read_to_digits n.natAbs
      simp [read_value,skip,read_plain,is_word,letter,read_int,read,abs_of_neg negative,value_node]
    · rw [if_neg negative]
      obtain ⟨c,digits,whole⟩ := List.exists_cons_of_ne_nil (Nat.toDigits_ne_nil : Nat.toDigits 10 n.natAbs ≠ [])
      have digit : c.isDigit = true :=
        @Nat.isDigit_of_mem_toDigits 10 _ _ (by decide) (by decide) (by rw [whole]; exact List.mem_cons_self)
      have number : (n.natAbs : ℤ) = n := by omega
      rw [whole,read_value_digits digit,← whole,read_to_digits,Option.map_some,number]
      rfl

theorem line_char_digits {n : ℕ} : ∀ c ∈ Nat.toDigits 10 n, line_char c = true := by
  intro c inside
  exact (digit_char (Nat.isDigit_of_mem_toDigits (by decide) (by decide) inside)).2.1

/-- The characters of a value may stand in a line iff its texts are printable. -/
theorem line_char_value (v : FrontmatterValue) : (∀ c ∈ v.text.toList, line_char c = true) ↔
    ∀ text ∈ value_texts v, ∀ c ∈ text, printable c = true := by
  have quote : line_char '"' = true := by decide
  cases v with
  | Str s =>
    rw [FrontmatterValue.text,quoted_toList]
    simp only [List.forall_mem_cons,List.forall_mem_append,quote,true_and,line_char_escaped,value_texts]
    simp
  | List items =>
    have others : line_char '[' = true ∧ line_char ']' = true ∧ line_char ',' = true ∧ line_char ' ' = true := by decide
    rw [text_list,List.forall_mem_cons,value_texts]
    simp only [others,true_and]
    induction items with
    | nil =>
      have bracket : (items_text []).all line_char = true := by decide
      exact iff_of_true (List.all_eq_true.mp bracket) (by simp)
    | cons s items ih =>
      rw [items_text_cons]
      by_cases last : items = []
      · subst last
        simp only [List.forall_mem_cons,List.forall_mem_append,quote,true_and,line_char_escaped,if_true]
        simp [others]
      · rw [if_neg last]
        simp only [List.forall_mem_cons,List.forall_mem_append,quote,others,true_and,line_char_escaped,ih,List.map_cons]
  | Int n =>
    refine iff_of_true ?_ (by simp [value_texts])
    rw [FrontmatterValue.text,toString_int]
    by_cases negative : n < 0
    · rw [if_pos negative,List.forall_mem_cons]
      exact ⟨by decide,line_char_digits⟩
    · rw [if_neg negative]
      exact line_char_digits

theorem no_break_value (v : FrontmatterValue) : '\n' ∉ v.text.toList := by
  cases v with
  | Str s =>
    rw [FrontmatterValue.text,quoted_toList]
    simp [no_break_char]
  | List items =>
    rw [text_list]
    induction items with
    | nil => decide
    | cons s items ih =>
      rw [items_text_cons]
      by_cases last : items = []
      · subst last
        simp [no_break_char]
      · rw [if_neg last]
        simpa [no_break_char] using ih
  | Int n =>
    have digits : ∀ c ∈ Nat.toDigits 10 n.natAbs, line_char c = true := line_char_digits
    have apart : line_char '\n' = false := by decide
    rw [FrontmatterValue.text,toString_int]
    intro inside
    have there : '\n' ∈ Nat.toDigits 10 n.natAbs := by
      by_cases negative : n < 0
      · simpa [negative] using inside
      · simpa [negative] using inside
    rw [digits _ there] at apart
    cases apart

end

/-! ### Blocks -/

/-- A plain identifier. -/
def Identifier (key : String) : Prop := is_word key.toList

/-- A line of a block. -/
def line (pair : String × FrontmatterValue) : List Char := pair.1.toList ++ ':' :: ' ' :: pair.2.text.toList

section
variable {pairs : List (String × FrontmatterValue)} {pair : String × FrontmatterValue}

theorem render_toList (pairs : List (String × FrontmatterValue)) : (render_frontmatter pairs).toList =
    marker ++ '\n' :: (pairs.flatMap (fun pair => line pair ++ ['\n']) ++ (marker ++ ['\n'])) := by
  simp only [render_frontmatter,String.toList_append,String.toList_join]
  simp [marker,line,List.flatMap_map]

theorem render_lines (pairs : List (String × FrontmatterValue)) : (render_frontmatter pairs).toList =
    ['\n'].intercalate (marker :: (pairs.map line ++ [marker,[]])) := by
  have feeds (lines : List (List Char)) : ['\n'].intercalate (lines ++ [marker,[]]) =
      lines.flatMap (fun line => line ++ ['\n']) ++ (marker ++ ['\n']) := by
    induction lines with
    | nil => rfl
    | cons first lines ih =>
      cases lines with
      | nil => simp [List.intercalate_cons_cons]
      | cons second lines => simpa [List.intercalate_cons_cons] using ih
  rw [← List.cons_append,feeds,render_toList]
  simp [List.flatMap_map]

theorem word_char {c : Char} (inside : letter c = true ∨ c.isDigit = true ∨ c = '-') : line_char c = true ∧ c ≠ ':' := by
  have range : c = '_' ∨ c = '-' ∨ (48 ≤ c.toNat ∧ c.toNat ≤ 57) ∨ (65 ≤ c.toNat ∧ c.toNat ≤ 90) ∨ (97 ≤ c.toNat ∧ c.toNat ≤ 122) := by
    rcases inside with letters | digit | rfl
    · simp only [letter,Char.isAlpha,Char.isUpper,Char.isLower,Bool.or_eq_true,Bool.and_eq_true,decide_eq_true_eq,ge_iff_le] at letters
      rcases letters with (upper | lower) | rfl
      · exact Or.inr (Or.inr (Or.inr (Or.inl upper)))
      · exact Or.inr (Or.inr (Or.inr (Or.inr lower)))
      · exact Or.inl rfl
    · exact Or.inr (Or.inr (Or.inl (digit_range digit)))
    · exact Or.inr (Or.inl rfl)
  have same : c = Char.ofNat c.toNat := (Char.ofNat_toNat c).symm
  rcases range with rfl | rfl | ⟨low,high⟩ | ⟨low,high⟩ | ⟨low,high⟩
  · decide
  · decide
  all_goals
    generalize c.toNat = m at low high same
    subst same
    interval_cases m <;> decide

theorem identifier_char {key : String} (id : Identifier key) : ∀ c ∈ key.toList, line_char c = true ∧ c ≠ ':' := by
  intro c inside
  unfold Identifier is_word at id
  cases whole : key.toList with
  | nil => simp [whole] at inside
  | cons first rest =>
    simp only [whole,Bool.and_eq_true,List.all_eq_true,Bool.or_eq_true,decide_eq_true_eq] at id
    rw [whole] at inside
    rcases List.mem_cons.mp inside with rfl | later
    · exact word_char (Or.inl id.1)
    · rcases id.2 c later with (letters | digit) | hyphen
      · exact word_char (Or.inl letters)
      · exact word_char (Or.inr (Or.inl digit))
      · exact word_char (Or.inr (Or.inr hyphen))

theorem no_break_line (id : Identifier pair.1) : '\n' ∉ line pair := by
  have apart : line_char '\n' = false := by decide
  have key : '\n' ∉ pair.1.toList := by
    intro inside
    rw [(identifier_char id _ inside).1] at apart
    cases apart
  simp [line,key,no_break_value]

/-- The closing marker is the first line after the opening one that is a marker. -/
theorem lines_of_block (ids : ∀ pair ∈ pairs, Identifier pair.1) : (render_frontmatter pairs).toList.splitOn '\n' =
    marker :: (pairs.map line ++ [marker,[]]) ∧ marker ∉ pairs.map line := by
  have feed : '\n' ∉ marker := by decide
  constructor
  · rw [render_lines,List.splitOn_intercalate]
    · intro part inside
      rcases List.mem_cons.mp inside with rfl | later
      · exact feed
      · rcases List.mem_append.mp later with entry | last
        · obtain ⟨pair,there,rfl⟩ := List.mem_map.mp entry
          exact no_break_line (ids pair there)
        · rcases List.mem_pair.mp last with rfl | rfl
          · exact feed
          · exact List.not_mem_nil
    · exact List.cons_ne_nil _ _
  · intro inside
    obtain ⟨pair,_,same⟩ := List.mem_map.mp inside
    have colon : ':' ∈ line pair := by simp [line]
    rw [same] at colon
    exact absurd colon (by decide)

theorem read_line (id : Identifier pair.1) : read_entry (line pair) =
    some ((Yaml.reserved pair.1.toList).getD (.Str pair.1.toList),value_node pair.2) := by
  have kept (c : Char) (inside : c ∈ pair.1.toList) : decide (c ≠ ':') = true := decide_eq_true (identifier_char id c inside).2
  have key : read_plain pair.1.toList = some ((Yaml.reserved pair.1.toList).getD (.Str pair.1.toList)) := by
    have word : is_word pair.1.toList = true := id
    rw [read_plain,if_pos word]
  have spaced : read_value (' ' :: pair.2.text.toList) = read_value pair.2.text.toList := rfl
  unfold read_entry line
  rw [List.dropWhile_append_of_pos kept,List.takeWhile_append_of_pos kept]
  simp [key,read_value_text]

/-- All characters of the block may stand in it iff the texts are printable. -/
theorem block_chars (ids : ∀ pair ∈ pairs, Identifier pair.1) :
    (render_frontmatter pairs).toList.all (fun c => printable c && c ≠ '\r') = true ↔
      ∀ pair ∈ pairs, ∀ text ∈ value_texts pair.2, ∀ c ∈ text, printable c = true := by
  have split (c : Char) (feed : c ≠ '\n') : (printable c && decide (c ≠ '\r')) = line_char c := by simp [line_char,feed]
  have entry (pair : String × FrontmatterValue) (inside : pair ∈ pairs) :
      (∀ c ∈ line pair, (printable c && decide (c ≠ '\r')) = true) ↔ ∀ text ∈ value_texts pair.2, ∀ c ∈ text, printable c = true := by
    have each : (∀ c ∈ line pair, (printable c && decide (c ≠ '\r')) = true) ↔ ∀ c ∈ line pair, line_char c = true := by
      refine forall₂_congr (fun c there => ?_)
      rw [split c (fun same => no_break_line (ids pair inside) (same ▸ there))]
    have others : line_char ':' = true ∧ line_char ' ' = true := by decide
    rw [each,line,← line_char_value]
    simp only [List.forall_mem_append,List.forall_mem_cons,others,true_and]
    exact and_iff_right (fun c there => (identifier_char (ids pair inside) c there).1)
  have mark : ∀ c ∈ marker, (printable c && decide (c ≠ '\r')) = true := List.all_eq_true.mp (by decide)
  have feed : (printable '\n' && decide ('\n' ≠ '\r')) = true := by decide
  rw [render_toList,List.all_eq_true]
  simp only [List.forall_mem_append,List.forall_mem_cons,List.mem_flatMap]
  constructor
  · rintro ⟨_,_,body,_⟩ pair inside
    exact (entry pair inside).mp (fun c there => body c ⟨pair,inside,List.mem_append_left _ there⟩)
  · intro plain
    refine ⟨mark,feed,?_,mark,feed,by simp⟩
    rintro c ⟨pair,inside,there⟩
    rcases List.mem_append.mp there with here | last
    · exact (entry pair inside).mpr (plain pair inside) c here
    · rw [List.mem_singleton.mp last]
      exact feed

theorem read_render (ids : ∀ pair ∈ pairs, Identifier pair.1) : read_block (render_frontmatter pairs).toList =
    if (∀ pair ∈ pairs, ∀ text ∈ value_texts pair.2, ∀ c ∈ text, printable c = true) ∧
        (pairs.map (fun pair => (Yaml.reserved pair.1.toList).getD (.Str pair.1.toList))).Nodup then
      some (pairs.map (fun pair => ((Yaml.reserved pair.1.toList).getD (.Str pair.1.toList),value_node pair.2)))
    else none := by
  obtain ⟨lines,apart⟩ := lines_of_block ids
  have kept (l : List Char) (inside : l ∈ pairs.map line) : decide (l ≠ marker) = true := by
    refine decide_eq_true ?_
    rintro rfl
    exact apart inside
  have body : (pairs.map line ++ [marker,[]]).takeWhile (fun line => decide (line ≠ marker)) = pairs.map line := by
    rw [List.takeWhile_append_of_pos kept]
    simp
  have entries : (pairs.map line).mapM read_entry =
      some (pairs.map (fun pair => ((Yaml.reserved pair.1.toList).getD (.Str pair.1.toList),value_node pair.2))) := by
    clear lines apart kept body
    induction pairs with
    | nil => rfl
    | cons pair pairs ih =>
      rw [List.map_cons,List.mapM_cons,read_line (ids pair List.mem_cons_self),
        ih (fun other inside => ids other (List.mem_cons_of_mem pair inside))]
      rfl
  have marked : True ∧ marker ∈ pairs.map line ++ [marker,[]] := ⟨trivial,by simp⟩
  unfold read_block
  simp only [lines,body,entries,block_chars ids]
  by_cases plain : ∀ pair ∈ pairs, ∀ text ∈ value_texts pair.2, ∀ c ∈ text, printable c = true
  · rw [if_pos plain]
    simp only [Option.bind_eq_bind,Option.bind_some,List.map_map,Function.comp_def]
    by_cases distinct : (pairs.map (fun pair => (Yaml.reserved pair.1.toList).getD (.Str pair.1.toList))).Nodup
    · rw [if_pos marked,if_pos distinct,if_pos ⟨plain,distinct⟩]
    · rw [if_pos marked,if_neg distinct,if_neg (fun both => distinct both.2)]
  · rw [if_neg plain,if_neg (fun both => plain both.1)]

/-! ### What is read back -/

theorem reserved_other {l : List Char} {node : Node} (other : Yaml.reserved l = some node) : node ≠ .Str l := by
  unfold Yaml.reserved at other
  split_ifs at other <;> cases other <;> exact nofun

/-- The block is read as its keys and values, and its closing marker is the first line after the opening
    one that is a marker. -/
def ReadsBack (pairs : List (String × FrontmatterValue)) : Prop :=
  read_block (render_frontmatter pairs).toList = some (pairs.map (fun pair => (.Str pair.1.toList,value_node pair.2))) ∧
    ∃ body, (render_frontmatter pairs).toList.splitOn '\n' = marker :: (body ++ [marker,[]]) ∧ body.length = pairs.length ∧ marker ∉ body

/-- Frontmatter is read back iff its texts are printable and its keys are distinct and stand for themselves. -/
theorem frontmatter_iff (ids : ∀ pair ∈ pairs, Identifier pair.1) : ReadsBack pairs ↔
    (∀ pair ∈ pairs, ∀ text ∈ value_texts pair.2, ∀ c ∈ text, printable c = true) ∧
      (pairs.map Prod.fst).Nodup ∧ ∀ pair ∈ pairs, Yaml.reserved pair.1.toList = none := by
  obtain ⟨lines,apart⟩ := lines_of_block ids
  have closed : ∃ body, (render_frontmatter pairs).toList.splitOn '\n' = marker :: (body ++ [marker,[]]) ∧
      body.length = pairs.length ∧ marker ∉ body := ⟨pairs.map line,lines,List.length_map _,apart⟩
  have keys : (pairs.map (fun pair => Node.Str pair.1.toList)).Nodup ↔ (pairs.map Prod.fst).Nodup := by
    have apart : Function.Injective (fun key : String => Node.Str key.toList) :=
      fun key key' same => String.toList_inj.mp (Node.Str.inj same)
    rw [← List.nodup_map_iff apart,List.map_map]
    rfl
  rw [ReadsBack,and_iff_left closed,read_render ids]
  constructor
  · intro read
    obtain ⟨⟨plain,distinct⟩,same⟩ := Option.ite_none_right_eq_some.mp read
    have each := List.map_inj_left.mp (Option.some.inj same)
    have own (pair : String × FrontmatterValue) (inside : pair ∈ pairs) : Yaml.reserved pair.1.toList = none := by
      have first := (Prod.mk.inj (each pair inside)).1
      cases other : Yaml.reserved pair.1.toList with
      | none => rfl
      | some node =>
        rw [other] at first
        exact absurd first (reserved_other other)
    refine ⟨plain,?_,own⟩
    rw [← keys]
    have strings : pairs.map (fun pair => (Yaml.reserved pair.1.toList).getD (.Str pair.1.toList)) =
        pairs.map (fun pair => Node.Str pair.1.toList) :=
      List.map_congr_left (fun pair inside => by rw [own pair inside]; rfl)
    rwa [← strings]
  · rintro ⟨plain,distinct,own⟩
    have strings (pair : String × FrontmatterValue) (inside : pair ∈ pairs) :
        (Yaml.reserved pair.1.toList).getD (.Str pair.1.toList) = Node.Str pair.1.toList := by
      rw [own pair inside]
      rfl
    rw [List.map_congr_left strings,if_pos ⟨plain,keys.mpr distinct⟩]
    exact congrArg some (List.map_congr_left (fun pair inside => by rw [strings pair inside]))

theorem frontmatter_iff_note : ReadsBack [("title",.Str "Say \"hi\""),("tags",.List ["a","b"]),("count",.Int 3)] := by
  have both := @frontmatter_iff [("title",.Str "Say \"hi\""),("tags",.List ["a","b"]),("count",.Int 3)] (by
    unfold Identifier
    decide)
  have texts (text : List Char) (shown : text.all printable = true) : ∀ c ∈ text, printable c = true := List.all_eq_true.mp shown
  refine both.mpr ⟨?_,by decide,by decide⟩
  simp only [List.forall_mem_cons,value_texts,List.map_cons,List.map_nil]
  exact ⟨⟨texts _ (by decide),nofun⟩,⟨texts _ (by decide),texts _ (by decide),nofun⟩,nofun,nofun⟩

/-- A vertical tab stands in the block as it is. -/
theorem frontmatter_lost : (∀ pair ∈ [("title",FrontmatterValue.Str "one\x0btwo")], Identifier pair.1) ∧
    ¬ ReadsBack [("title",.Str "one\x0btwo")] := by
  constructor
  · unfold Identifier
    decide
  · rintro ⟨read,_⟩
    have unread : read_block (render_frontmatter [("title",.Str "one\x0btwo")]).toList = none := by decide +kernel
    rw [unread] at read
    cases read

end

end Pergamon.Export
