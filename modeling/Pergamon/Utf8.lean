import Mathlib.Algebra.GroupWithZero.Nat
import Mathlib.Data.List.Infix
import Mathlib.Tactic.Common

/-!
Texts as lists of characters and the bytes that UTF-8 writes for them.

No byte after the first of a character can begin one, so a text occurs at an offset of the bytes
only where a character begins (`occursAt_iff`), and a text is cut at an offset iff a character ends
there (`split_at_eq_some`).
-/
namespace Utf8

/-! ### Bytes of characters -/

/-- A byte that does not begin a character. -/
def Continues (b : UInt8) : Prop := 128 ≤ b.toNat ∧ b.toNat < 192

/-- The bytes of a character: one that begins it, and others that do not. -/
theorem encode_char (c : Char) : ∃ b rest, String.utf8EncodeChar c = b :: rest ∧ ¬ Continues b ∧ b.toNat < 248 ∧
    ∀ b' ∈ rest, Continues b' := by
  have top : c.val.toNat < 1114112 := by
    have := c.valid
    simp only [UInt32.isValidChar,Nat.isValidChar] at this
    omega
  unfold String.utf8EncodeChar Continues
  generalize c.val.toNat = v at top ⊢
  simp only
  split_ifs with one two three
  · refine ⟨_,_,rfl,?_,?_,by simp⟩ <;> simp <;> omega
  · refine ⟨_,_,rfl,?_,?_,?_⟩ <;> simp <;> omega
  · refine ⟨_,_,rfl,?_,?_,?_⟩ <;> simp <;> omega
  · refine ⟨_,_,rfl,?_,?_,?_⟩ <;> simp <;> omega

theorem encode_char_inj {c d : Char} {rest rest' : List UInt8}
    (same : String.utf8EncodeChar c ++ rest = String.utf8EncodeChar d ++ rest') : c = d ∧ rest = rest' := by
  have first : c = d := by
    have read (e : Char) (l : List UInt8) : ByteArray.utf8DecodeChar? (String.utf8EncodeChar e ++ l).toByteArray 0 = some e := by
      rw [List.toByteArray_append]
      exact ByteArray.utf8DecodeChar?_utf8EncodeChar_append
    have := read c rest
    rw [same,read d rest'] at this
    exact (Option.some.inj this).symm
  subst first
  exact ⟨rfl,List.append_cancel_left same⟩

/-- The bytes of a text. -/
def encode (text : List Char) : List UInt8 := text.flatMap String.utf8EncodeChar

@[simp] theorem encode_nil : encode [] = [] := rfl

@[simp] theorem encode_cons (c : Char) (text : List Char) : encode (c :: text) = String.utf8EncodeChar c ++ encode text := rfl

@[simp] theorem encode_append (text text' : List Char) : encode (text ++ text') = encode text ++ encode text' := by
  simp [encode]

theorem encode_prefix {text text' : List Char} : encode text <+: encode text' ↔ text <+: text' := by
  constructor
  · intro front
    induction text generalizing text' with
    | nil => exact List.nil_prefix
    | cons c text ih =>
      obtain ⟨rest,whole⟩ := front
      cases text' with
      | nil =>
        obtain ⟨b,later,written,-⟩ := encode_char c
        simp [written] at whole
      | cons d text' =>
        rw [encode_cons,encode_cons,List.append_assoc] at whole
        obtain ⟨same,more⟩ := encode_char_inj whole
        subst same
        exact List.cons_prefix_cons.mpr ⟨rfl,ih ⟨rest,more⟩⟩
  · rintro ⟨rest,rfl⟩
    exact ⟨encode rest,(encode_append _ _).symm⟩

theorem encode_inj {text text' : List Char} : encode text = encode text' ↔ text = text' := by
  refine ⟨fun same => ?_,congrArg encode⟩
  have front : text <+: text' := encode_prefix.mp (same ▸ List.prefix_rfl)
  have back : text' <+: text := encode_prefix.mp (same ▸ List.prefix_rfl)
  exact front.eq_of_length (le_antisymm front.length_le back.length_le)

/-- The greatest bytes belong to no text. -/
theorem encode_lt {text : List Char} {b : UInt8} (inside : b ∈ encode text) : b.toNat < 248 := by
  obtain ⟨c,-,written⟩ := List.mem_flatMap.mp inside
  obtain ⟨first,rest,whole,-,low,later⟩ := encode_char c
  rw [whole] at written
  rcases List.mem_cons.mp written with rfl | after
  · exact low
  · have := later b after
    unfold Continues at this
    omega

/-- `str::from_utf8`: the text of bytes that are UTF-8. -/
def from_utf8 (bytes : List UInt8) : Option (List Char) := bytes.toByteArray.utf8Decode?.map Array.toList

theorem from_utf8_eq_some {bytes : List UInt8} {text : List Char} : from_utf8 bytes = some text ↔ bytes = encode text := by
  have read (text : List Char) : from_utf8 (encode text) = some text := by
    have written : (encode text).toByteArray = text.utf8Encode := rfl
    rw [from_utf8,written,List.utf8Decode?_utf8Encode]
    rfl
  constructor
  · intro decoded
    obtain ⟨chars,found,-⟩ := Option.map_eq_some_iff.mp decoded
    obtain ⟨text',written⟩ := ByteArray.isSome_utf8Decode?_iff.mp (Option.isSome_iff_exists.mpr ⟨chars,found⟩)
    have same : bytes = encode text' := by
      have := congrArg (fun b => b.data.toList) written
      simpa [List.utf8Encode,encode] using this
    rw [same,read] at decoded
    rw [same,Option.some.inj decoded]
  · rintro rfl
    exact read text

/-! ### Offsets -/

/-- The length of a text in bytes. -/
def size (text : List Char) : ℕ := (text.map Char.utf8Size).sum

@[simp] theorem size_nil : size [] = 0 := rfl

@[simp] theorem size_cons (c : Char) (text : List Char) : size (c :: text) = c.utf8Size + size text := rfl

@[simp] theorem size_append (text text' : List Char) : size (text ++ text') = size text + size text' := by
  simp [size]

theorem length_encode (text : List Char) : (encode text).length = size text := by
  induction text with
  | nil => rfl
  | cons c text ih => simp [ih]

theorem size_eq_zero {text : List Char} : size text = 0 ↔ text = [] := by
  cases text with
  | nil => simp
  | cons c text =>
    have := c.utf8Size_pos
    simp
    omega

/-- Two beginnings of a text are apart by their sizes. -/
theorem split_unique {before before' after after' : List Char} (same : before ++ after = before' ++ after')
    (size_same : size before = size before') : before = before' ∧ after = after' := by
  have bytes : encode before ++ encode after = encode before' ++ encode after' := by
    rw [← encode_append,same,encode_append]
  obtain ⟨front,back⟩ := List.append_inj bytes (by rw [length_encode,length_encode,size_same])
  exact ⟨encode_inj.mp front,encode_inj.mp back⟩

/-- The text before an offset and the text after it, unless the offset is past the end or inside a character. -/
def split_at : List Char → ℕ → Option (List Char × List Char)
  | text,0 => some ([],text)
  | [],_ + 1 => none
  | c :: text,n + 1 =>
    if c.utf8Size ≤ n + 1 then (split_at text (n + 1 - c.utf8Size)).map (fun parts => (c :: parts.1,parts.2)) else none

theorem split_at_eq_some {text before after : List Char} {n : ℕ} :
    split_at text n = some (before,after) ↔ text = before ++ after ∧ size before = n := by
  fun_induction split_at text n generalizing before with
  | case1 text =>
    simp only [Option.some.injEq,Prod.mk.injEq]
    constructor
    · rintro ⟨rfl,rfl⟩
      simp
    · rintro ⟨rfl,none⟩
      rw [size_eq_zero.mp none]
      simp
  | case2 n =>
    simp only [reduceCtorEq,false_iff,not_and]
    intro whole
    rw [(List.append_eq_nil_iff.mp whole.symm).1]
    simp
  | case3 c text n fits ih =>
    have pos := c.utf8Size_pos
    constructor
    · intro cut
      obtain ⟨⟨front,back⟩,found,made⟩ := Option.map_eq_some_iff.mp cut
      cases made
      obtain ⟨whole,length⟩ := ih.mp found
      refine ⟨by rw [whole]; rfl,?_⟩
      rw [size_cons,length]
      omega
    · rintro ⟨whole,length⟩
      cases before with
      | nil => simp at length
      | cons d before =>
        cases whole
        rw [size_cons] at length
        rw [ih.mpr ⟨rfl,by omega⟩]
        rfl
  | case4 c text n short =>
    simp only [reduceCtorEq,false_iff,not_and]
    intro whole length
    cases before with
    | nil => simp at length
    | cons d before =>
      cases whole
      rw [size_cons] at length
      omega

@[simp] theorem split_at_zero (text : List Char) : split_at text 0 = some ([],text) := by rw [split_at]

/-- The part of a text from one offset to another. -/
def slice (text : List Char) (start stop : ℕ) : Option (List Char) :=
  (split_at text stop).bind (fun parts => (split_at parts.1 start).map Prod.snd)

theorem slice_eq_some {text part : List Char} {start stop : ℕ} :
    slice text start stop = some part ↔
      ∃ before after, text = before ++ part ++ after ∧ size before = start ∧ start + size part = stop := by
  constructor
  · intro cut
    obtain ⟨⟨front,after⟩,outer,inner⟩ := Option.bind_eq_some_iff.mp cut
    obtain ⟨⟨before,part'⟩,here,same⟩ := Option.map_eq_some_iff.mp inner
    change part' = part at same
    subst same
    obtain ⟨rfl,length⟩ := split_at_eq_some.mp outer
    obtain ⟨whole,begins⟩ := split_at_eq_some.mp here
    cases whole
    refine ⟨before,after,rfl,begins,?_⟩
    have := size_append before part'
    change size (before ++ part') = stop at length
    omega
  · rintro ⟨before,after,rfl,begins,ends⟩
    have outer : split_at (before ++ part ++ after) stop = some (before ++ part,after) :=
      split_at_eq_some.mpr ⟨rfl,by rw [size_append,begins,ends]⟩
    have inner : split_at (before ++ part) start = some (before,part) := split_at_eq_some.mpr ⟨rfl,begins⟩
    rw [slice,outer,Option.bind_some,inner]
    rfl

/-- An offset where a character ends. -/
def Boundary (text : List Char) (n : ℕ) : Prop := ∃ before after, text = before ++ after ∧ size before = n

theorem split_at_isSome {text : List Char} {n : ℕ} : (split_at text n).isSome ↔ Boundary text n := by
  rw [Option.isSome_iff_exists]
  constructor
  · rintro ⟨⟨before,after⟩,cut⟩
    exact ⟨before,after,split_at_eq_some.mp cut⟩
  · rintro ⟨before,after,here⟩
    exact ⟨(before,after),split_at_eq_some.mpr here⟩

instance (text : List Char) (n : ℕ) : Decidable (Boundary text n) := decidable_of_iff _ split_at_isSome

/-! ### Occurrences -/

/-- The bytes of a text hold those of another from an offset. -/
def OccursAt (part text : List Char) (n : ℕ) : Prop := encode part <+: (encode text).drop n

instance (part text : List Char) (n : ℕ) : Decidable (OccursAt part text n) :=
  decidable_of_iff ((encode part).isPrefixOf ((encode text).drop n)) List.isPrefixOf_iff_prefix

/-- The offset of a byte that begins a character. -/
theorem boundary_of_begins {text : List Char} {n : ℕ} {b : UInt8} {rest : List UInt8} (begins : ¬ Continues b)
    (here : (encode text).drop n = b :: rest) : Boundary text n := by
  induction text generalizing n with
  | nil => simp at here
  | cons c text ih =>
    by_cases start : n = 0
    · exact ⟨[],c :: text,rfl,start.symm⟩
    · by_cases past : c.utf8Size ≤ n
      · rw [encode_cons,List.drop_append,String.length_utf8EncodeChar,List.drop_eq_nil_of_le (by simpa using past),
          List.nil_append] at here
        obtain ⟨before,after,whole,length⟩ := ih here
        refine ⟨c :: before,after,by rw [whole]; rfl,?_⟩
        rw [size_cons,length]
        omega
      · obtain ⟨first,later,written,-,-,continues⟩ := encode_char c
        have long : (String.utf8EncodeChar c).length = c.utf8Size := String.length_utf8EncodeChar c
        obtain ⟨m,rfl⟩ := Nat.exists_eq_succ_of_ne_zero start
        rw [written,List.length_cons] at long
        -- the byte is one of the later bytes of the character
        rw [encode_cons,written,List.cons_append,Nat.succ_eq_add_one,List.drop_succ_cons,
          List.drop_append_of_le_length (by omega),List.drop_eq_getElem_cons (by omega),List.cons_append] at here
        refine absurd (continues b ?_) begins
        rw [← (List.cons.inj here).1]
        exact List.getElem_mem _

/-- A text occurs only where characters begin. -/
theorem occursAt_iff {part text : List Char} (something : part ≠ []) {n : ℕ} :
    OccursAt part text n ↔ ∃ before after, text = before ++ part ++ after ∧ size before = n := by
  constructor
  · rintro ⟨rest,here⟩
    obtain ⟨c,tail,rfl⟩ := List.exists_cons_of_ne_nil something
    obtain ⟨b,later,written,begins,-⟩ := encode_char c
    obtain ⟨before,after,rfl,rfl⟩ : Boundary text n := by
      rw [encode_cons,written] at here
      exact boundary_of_begins begins here.symm
    rw [encode_append,← length_encode,List.drop_left] at here
    obtain ⟨more,rfl⟩ := encode_prefix.mp ⟨rest,here⟩
    exact ⟨before,more,by rw [List.append_assoc],rfl⟩
  · rintro ⟨before,after,rfl,rfl⟩
    rw [OccursAt,encode_append,encode_append,List.append_assoc,← length_encode,List.drop_left]
    exact List.prefix_append _ _

/-- The offset of the first occurrence. -/
def find (part : List Char) : List Char → Option ℕ
  | [] => if part = [] then some 0 else none
  | c :: text => if part.isPrefixOf (c :: text) then some 0 else (find part text).map (c.utf8Size + ·)

theorem find_nil (text : List Char) : find [] text = some 0 := by
  cases text <;> simp [find]

/-- The first occurrence, and none is earlier. -/
theorem find_eq_some {part text : List Char} {n : ℕ} (found : find part text = some n) :
    (∃ before after, text = before ++ part ++ after ∧ size before = n) ∧
      ∀ before after, text = before ++ part ++ after → n ≤ size before := by
  induction text generalizing n with
  | nil =>
    rw [find] at found
    split_ifs at found with none
    cases found
    exact ⟨⟨[],[],by simp [none],rfl⟩,fun _ _ _ => Nat.zero_le _⟩
  | cons c text ih =>
    rw [find] at found
    split_ifs at found with here
    · cases found
      obtain ⟨after,whole⟩ := List.isPrefixOf_iff_prefix.mp here
      exact ⟨⟨[],after,by simp [whole],rfl⟩,fun _ _ _ => Nat.zero_le _⟩
    · obtain ⟨m,later,rfl⟩ := Option.map_eq_some_iff.mp found
      obtain ⟨⟨before,after,whole,length⟩,first⟩ := ih later
      refine ⟨⟨c :: before,after,by simp [whole],by rw [size_cons,length]⟩,fun before' after' other => ?_⟩
      cases before' with
      | nil => exact absurd (List.isPrefixOf_iff_prefix.mpr ⟨after',by simpa using other.symm⟩) here
      | cons d before' =>
        rw [List.cons_append,List.cons_append] at other
        obtain ⟨rfl,rest⟩ := List.cons.inj other
        have := first before' after' rest
        rw [size_cons]
        omega

theorem find_eq_none {part text : List Char} : find part text = none ↔ ¬ part <:+: text := by
  induction text with
  | nil => by_cases none : part = [] <;> simp [find,none]
  | cons c text ih =>
    rw [find,List.infix_cons_iff]
    by_cases here : part.isPrefixOf (c :: text)
    · simp [here,List.isPrefixOf_iff_prefix.mp here]
    · have apart : ¬ part <+: c :: text := fun front => here (List.isPrefixOf_iff_prefix.mpr front)
      simp [here,apart,ih]

/-- The text is found iff it occurs. -/
theorem find_isSome {part text : List Char} : (find part text).isSome ↔ part <:+: text := by
  rw [← not_iff_not,← find_eq_none]
  simp

/-- `str::rfind` with a character: the offset of its last occurrence. -/
def rfind (c : Char) : List Char → Option ℕ
  | [] => none
  | d :: text =>
    match rfind c text with
    | some n => some (d.utf8Size + n)
    | none => if d = c then some 0 else none

theorem rfind_eq_some {c : Char} {text : List Char} {n : ℕ} (found : rfind c text = some n) :
    ∃ before after, text = before ++ c :: after ∧ size before = n := by
  induction text generalizing n with
  | nil => cases found
  | cons d text ih =>
    rw [rfind] at found
    split at found
    · next m later =>
      cases found
      obtain ⟨before,after,whole,length⟩ := ih later
      exact ⟨d :: before,after,by rw [whole]; rfl,by rw [size_cons,length]⟩
    · split_ifs at found with here
      cases found
      exact ⟨[],text,by rw [here]; rfl,rfl⟩

end Utf8
