import Mathlib.Algebra.GroupWithZero.Nat
import Mathlib.Algebra.Order.BigOperators.Group.List
import Mathlib.Algebra.Order.Ring.Nat
import Mathlib.Data.List.TakeWhile
import Mathlib.Tactic.Common

/-!
Pairs that are written into one text and read from it again. The text is split at one character, and
each part at the first of another, and then decoded, which never makes a part longer. Writing puts no
escapes, so what is read may be shorter than what was written, but never longer: the same pairs are read
iff nothing in them is a separator, a blank's sign or an escape (`Reader.reads_back`).
-/
namespace QueryPairs

section
variable {α : Type*} [DecidableEq α]

/-- A part, cut at the first of a character. -/
def cut (eq : α) (part : List α) : List α × List α := (part.takeWhile (· ≠ eq),(part.dropWhile (· ≠ eq)).tail)

/-- A pair as it is written. -/
def write (eq : α) (pair : List α × List α) : List α := if pair.2 = [] then pair.1 else pair.1 ++ eq :: pair.2

/-- Pairs as they are written. -/
def join (amp eq : α) (pairs : List (List α × List α)) : List α := [amp].intercalate (pairs.map (write eq))

def size (pair : List α × List α) : ℕ := pair.1.length + pair.2.length

def total (pairs : List (List α × List α)) : ℕ := (pairs.map size).sum

/-- What the parts of a text hold. -/
def content (amp eq : α) (text : List α) : ℕ := total ((text.splitOn amp).map (cut eq))

variable {amp eq : α} {pair : List α × List α} {pairs pairs' : List (List α × List α)} {text a b : List α}

omit [DecidableEq α] in
theorem total_perm (same : pairs.Perm pairs') : total pairs = total pairs' := (same.map size).sum_eq

omit [DecidableEq α] in
theorem total_append : total (pairs ++ pairs') = total pairs + total pairs' := by
  rw [total,List.map_append,List.sum_append,total,total]

omit [DecidableEq α] in
@[simp] theorem total_cons : total (pair :: pairs) = size pair + total pairs := rfl

/-- Cutting takes away no more than the character that it cuts at. -/
theorem size_cut (eq : α) (part : List α) : size (cut eq part) + (if eq ∈ part then 1 else 0) = part.length := by
  induction part with
  | nil => rfl
  | cons c part ih =>
    by_cases here : c = eq
    · subst here
      simp [size,cut]
    · have there : eq ∈ c :: part ↔ eq ∈ part := by simp [Ne.symm here]
      simp only [size,cut,List.takeWhile_cons,List.dropWhile_cons,there,here,ne_eq,not_false_eq_true,decide_true,if_true,
        List.length_cons] at ih ⊢
      omega

/-- Writing keeps of the key what stands before the character that it is cut at. -/
theorem key_cut_write (pair : List α × List α) : (cut eq (write eq pair)).1 = pair.1.takeWhile (· ≠ eq) := by
  obtain ⟨k,v⟩ := pair
  unfold cut write
  by_cases empty : v = []
  · rw [if_pos empty]
  · rw [if_neg empty]
    dsimp only
    induction k with
    | nil => simp
    | cons c k ih =>
      rw [List.cons_append,List.takeWhile_cons,List.takeWhile_cons]
      split_ifs
      · rw [ih]
      · rfl

omit [DecidableEq α] in
theorem takeWhile_whole {p : α → Bool} (same : (text.takeWhile p).length = text.length) : ∀ c ∈ text, p c = true := by
  have whole : text.takeWhile p = text := (List.takeWhile_prefix p).eq_of_length same
  exact List.takeWhile_eq_self_iff.mp whole

/-- A pair is cut where it was written together, unless its key is cut before. -/
theorem cut_write (free : eq ∉ pair.1) : cut eq (write eq pair) = pair := by
  have kept : ∀ c ∈ pair.1, decide (c ≠ eq) = true := by
    intro c inside
    exact decide_eq_true (fun same => free (same ▸ inside))
  have key : (cut eq (write eq pair)).1 = pair.1 := by
    rw [key_cut_write]
    exact List.takeWhile_eq_self_iff.mpr kept
  refine Prod.ext key ?_
  unfold cut write
  by_cases empty : pair.2 = []
  · rw [if_pos empty,List.dropWhile_eq_nil_iff.mpr kept,empty]
    rfl
  · rw [if_neg empty,List.dropWhile_append_of_pos kept]
    simp

/-! ### What is written holds no more than the pairs -/

theorem content_append (a b : List α) : content amp eq (a ++ amp :: b) = content amp eq a + content amp eq b := by
  rw [content,List.splitOn_append_cons_self,List.map_append,total_append,content,content]

theorem content_whole (free : amp ∉ text) : content amp eq text = size (cut eq text) := by
  rw [content,List.splitOn_eq_singleton free]
  rfl

/-- Each separator takes one character away, and so does the first character that parts are cut at. -/
theorem content_le (apart : amp ≠ eq) (text : List α) :
    content amp eq text + text.count amp + (if eq ∈ text then 1 else 0) ≤ text.length := by
  by_cases inside : amp ∈ text
  · obtain ⟨a,b,rfl,free⟩ := List.eq_append_cons_of_mem inside
    have first := size_cut eq a
    have rest := content_le apart b
    have both : eq ∈ a ++ amp :: b ↔ eq ∈ a ∨ eq ∈ b := by simp [apart.symm]
    rw [content_append,content_whole free,List.count_append,List.count_eq_zero.mpr free,List.count_cons_self,List.length_append,
      List.length_cons]
    simp only [both]
    by_cases one : eq ∈ a <;> by_cases two : eq ∈ b <;> simp only [one,two,or_true,or_false,if_true,if_false] at first rest ⊢ <;>
      omega
  · have whole := size_cut eq text
    rw [content_whole inside,List.count_eq_zero.mpr inside]
    omega
termination_by text.length
decreasing_by
  subst_vars
  simp
  omega

omit [DecidableEq α] in
theorem length_write (pair : List α × List α) : (write eq pair).length = size pair + (if pair.2 = [] then 0 else 1) := by
  unfold write size
  split_ifs with empty
  · simp [empty]
  · rw [List.length_append,List.length_cons]
    omega

/-- A pair that is written holds as much as before iff it holds no separator, and its key is not cut
    where there is no value. -/
theorem content_write (apart : amp ≠ eq) (pair : List α × List α) : content amp eq (write eq pair) ≤ size pair ∧
    (content amp eq (write eq pair) = size pair → amp ∉ write eq pair ∧ (pair.2 = [] → eq ∉ pair.1)) := by
  have bound := content_le apart (write eq pair)
  have none_left (none_there : (write eq pair).count amp = 0) : amp ∉ write eq pair := List.count_eq_zero.mp none_there
  rw [length_write] at bound
  by_cases empty : pair.2 = []
  · have key : write eq pair = pair.1 := if_pos empty
    rw [if_pos empty] at bound
    refine ⟨by omega,fun same => ⟨none_left (by omega),fun _ inside => ?_⟩⟩
    rw [key,if_pos inside] at bound
    rw [key] at same
    omega
  · have cuts : eq ∈ write eq pair := by
      rw [write,if_neg empty]
      exact List.mem_append_right _ List.mem_cons_self
    rw [if_neg empty,if_pos cuts] at bound
    exact ⟨by omega,fun same => ⟨none_left (by omega),fun none_there => absurd none_there empty⟩⟩

/-- A character at the end takes nothing away, and adds to what a text holds if it is no separator. -/
theorem content_concat (apart : amp ≠ eq) (text : List α) (c : α) : content amp eq text ≤ content amp eq (text ++ [c]) ∧
    (c ≠ amp → c ≠ eq → content amp eq text < content amp eq (text ++ [c])) := by
  by_cases inside : amp ∈ text
  · obtain ⟨a,b,rfl,free⟩ := List.eq_append_cons_of_mem inside
    obtain ⟨le,lt⟩ := content_concat apart b c
    rw [List.append_assoc,List.cons_append,content_append,content_append]
    exact ⟨by omega,fun one two => by have := lt one two; omega⟩
  · by_cases separator : c = amp
    · subst separator
      rw [content_append]
      exact ⟨by omega,fun one => absurd rfl one⟩
    · have free : amp ∉ text ++ [c] := by simp [inside,Ne.symm separator]
      have before := size_cut eq text
      have after := size_cut eq (text ++ [c])
      rw [content_whole inside,content_whole free]
      rw [List.length_append,List.length_singleton] at after
      by_cases cuts : c = eq
      · subst cuts
        rw [if_pos (List.mem_append_right _ List.mem_cons_self)] at after
        exact ⟨by omega,fun _ two => absurd rfl two⟩
      · have same : eq ∈ text ++ [c] ↔ eq ∈ text := by simp [Ne.symm cuts]
        simp only [same] at after
        exact ⟨by omega,fun _ _ => by omega⟩
termination_by text.length
decreasing_by
  subst_vars
  simp
  omega

theorem content_append_le (apart : amp ≠ eq) (text more : List α) : content amp eq text ≤ content amp eq (text ++ more) := by
  induction more generalizing text with
  | nil => rw [List.append_nil]
  | cons c more ih =>
    have first := (content_concat apart text c).1
    have rest := ih (text ++ [c])
    rw [List.append_assoc,List.singleton_append] at rest
    exact first.trans rest

omit [DecidableEq α] in
theorem join_cons (pair next : List α × List α) (pairs : List (List α × List α)) :
    join amp eq (pair :: next :: pairs) = write eq pair ++ amp :: join amp eq (next :: pairs) := by
  simp [join,List.intercalate_cons_cons]

omit [DecidableEq α] in
theorem mem_join {c : α} (inside : c ∈ join amp eq pairs) : c = amp ∨ ∃ pair ∈ pairs, c ∈ write eq pair := by
  induction pairs with
  | nil => cases inside
  | cons pair pairs ih =>
    cases pairs with
    | nil => exact .inr ⟨pair,List.mem_cons_self,by simpa [join] using inside⟩
    | cons next pairs =>
      rw [join_cons] at inside
      rcases List.mem_append.mp inside with here | later
      · exact .inr ⟨pair,List.mem_cons_self,here⟩
      · rcases List.mem_cons.mp later with same | later
        · exact .inl same
        · exact (ih later).imp_right (fun ⟨other,there,held⟩ => ⟨other,List.mem_cons_of_mem _ there,held⟩)

theorem content_join (pairs : List (List α × List α)) :
    content amp eq (join amp eq pairs) = (pairs.map (fun pair => content amp eq (write eq pair))).sum := by
  induction pairs with
  | nil => rfl
  | cons pair pairs ih =>
    cases pairs with
    | nil => simp [join]
    | cons next pairs =>
      rw [join_cons,content_append,ih]
      rfl

/-- Pairs that are written hold no more than before, and as much iff each does. -/
theorem content_join_le (apart : amp ≠ eq) (pairs : List (List α × List α)) : content amp eq (join amp eq pairs) ≤ total pairs ∧
    (content amp eq (join amp eq pairs) = total pairs → ∀ pair ∈ pairs, amp ∉ write eq pair ∧ (pair.2 = [] → eq ∉ pair.1)) := by
  rw [content_join]
  induction pairs with
  | nil => exact ⟨le_rfl,fun _ => nofun⟩
  | cons pair pairs ih =>
    obtain ⟨le,kept⟩ := content_write apart pair
    obtain ⟨le',kept'⟩ := ih
    rw [List.map_cons,List.sum_cons,total_cons]
    refine ⟨by omega,fun same => ?_⟩
    rw [List.forall_mem_cons]
    exact ⟨kept (by omega),kept' (by omega)⟩

/-- Where no pair holds a separator, the parts are the pairs. -/
theorem splitOn_join (free : ∀ pair ∈ pairs, amp ∉ write eq pair) (some_pair : pairs ≠ []) :
    (join amp eq pairs).splitOn amp = pairs.map (write eq) := by
  refine List.splitOn_intercalate amp ?_ (by simpa using some_pair)
  intro part inside
  obtain ⟨pair,there,rfl⟩ := List.mem_map.mp inside
  exact free pair there

end

/-! ### Readers -/

/-- How pairs are read: at which characters a text is split and its parts are cut, how they are decoded,
    and which parts are pairs. Decoding makes nothing longer; where it makes nothing shorter, it is
    character by character. -/
structure Reader (α : Type*) [DecidableEq α] where
  amp : α
  eq : α
  plus : α
  apart : amp ≠ eq
  plain : α → α
  plain_ne : ∀ c, plain c ≠ plus
  plain_self : ∀ c, c ≠ plus → plain c = c
  decode : List α → List α
  decode_le : ∀ part, (decode part).length ≤ part.length
  decode_clear : ∀ part, (decode part).length = part.length → decode part = part.map plain
  shown : List α → Bool
  shown_nil : shown [] = false
  shown_clear : ∀ part, part ≠ [] → (decode (cut eq part).1).length = (cut eq part).1.length →
    (decode (cut eq part).2).length = (cut eq part).2.length → shown part = true

namespace Reader
variable {α : Type*} [DecidableEq α] (r : Reader α)

/-- Nothing is lost of a part when it is decoded. -/
def Clear (part : List α) : Prop := (r.decode part).length = part.length

instance (part : List α) : Decidable (r.Clear part) := inferInstanceAs (Decidable (_ = _))

def pair_of (part : List α) : List α × List α := (r.decode (cut r.eq part).1,r.decode (cut r.eq part).2)

/-- The pairs that are read from a text. -/
def reading (text : List α) : List (List α × List α) := ((text.splitOn r.amp).filter r.shown).map r.pair_of

/-- A pair that is read as it was written. -/
structure Written (pair : List α × List α) : Prop where
  some_part : pair ≠ ([],[])
  key_amp : r.amp ∉ pair.1
  value_amp : r.amp ∉ pair.2
  key_eq : r.eq ∉ pair.1
  key_clear : r.Clear pair.1
  value_clear : r.Clear pair.2
  key_plus : r.plus ∉ pair.1
  value_plus : r.plus ∉ pair.2

variable {r} {pair : List α × List α} {pairs : List (List α × List α)} {text : List α}

theorem Clear.plain {part : List α} (clear : r.Clear part) (free : r.plus ∉ part) : r.decode part = part := by
  rw [r.decode_clear part clear]
  conv_rhs => rw [← List.map_id part]
  exact List.map_congr_left (fun c inside => r.plain_self c (fun same => free (same ▸ inside)))

theorem Clear.free {part : List α} (clear : r.Clear part) : r.plus ∉ r.decode part := by
  rw [r.decode_clear part clear,List.mem_map]
  rintro ⟨c,-,same⟩
  exact r.plain_ne c same

/-- What is read of parts holds no more than they do, and as much only if nothing is lost of any. -/
theorem total_parts_le (parts : List (List α)) : total ((parts.filter r.shown).map r.pair_of) ≤ total (parts.map (cut r.eq)) ∧
    (total ((parts.filter r.shown).map r.pair_of) = total (parts.map (cut r.eq)) →
      ∀ part ∈ parts, r.Clear (cut r.eq part).1 ∧ r.Clear (cut r.eq part).2) := by
  induction parts with
  | nil => exact ⟨le_rfl,fun _ => nofun⟩
  | cons part parts ih =>
    obtain ⟨le,kept⟩ := ih
    have key := r.decode_le (cut r.eq part).1
    have value := r.decode_le (cut r.eq part).2
    rw [List.map_cons,total_cons,List.forall_mem_cons]
    by_cases shows : r.shown part = true
    · rw [List.filter_cons_of_pos shows,List.map_cons,total_cons]
      unfold Clear
      simp only [size,pair_of]
      exact ⟨by omega,fun same => ⟨⟨by omega,by omega⟩,kept (by omega)⟩⟩
    · rw [List.filter_cons_of_neg shows]
      unfold Clear
      simp only [size]
      exact ⟨by omega,fun same => ⟨⟨by omega,by omega⟩,kept (by omega)⟩⟩

theorem total_reading_le (text : List α) : total (r.reading text) ≤ content r.amp r.eq text := (r.total_parts_le (text.splitOn r.amp)).1

theorem Written.apart (written : r.Written pair) : r.amp ∉ write r.eq pair := by
  rw [write]
  split_ifs
  · exact written.key_amp
  · simp [written.key_amp,written.value_amp,r.apart]

theorem Written.pair_of (written : r.Written pair) : r.pair_of (write r.eq pair) = pair := by
  rw [Reader.pair_of,cut_write written.key_eq,written.key_clear.plain written.key_plus,written.value_clear.plain written.value_plus]

theorem write_ne_nil (some_part : pair ≠ ([],[])) : write r.eq pair ≠ [] := by
  intro empty
  rw [write] at empty
  split_ifs at empty with value
  · exact some_part (Prod.ext empty value)
  · simp at empty

/-- Pairs that are read as they were written are read from their text. -/
theorem reading_join (written : ∀ pair ∈ pairs, r.Written pair) : r.reading (join r.amp r.eq pairs) = pairs := by
  by_cases empty : pairs = []
  · subst empty
    simp [reading,join,r.shown_nil]
  · have shows : (pairs.map (write r.eq)).filter r.shown = pairs.map (write r.eq) := by
      rw [List.filter_eq_self]
      intro part inside
      obtain ⟨pair,there,rfl⟩ := List.mem_map.mp inside
      have here := written pair there
      refine r.shown_clear _ (write_ne_nil here.some_part) ?_ ?_
      · rw [cut_write here.key_eq]
        exact here.key_clear
      · rw [cut_write here.key_eq]
        exact here.value_clear
    rw [reading,splitOn_join (fun pair inside => (written pair inside).apart) empty,shows,List.map_map]
    exact (List.map_congr_left (fun pair inside => (written pair inside).pair_of)).trans (List.map_id pairs)

/-- The keys that are read are no longer than those that were written, and as long only if none is cut. -/
theorem key_total_le (pairs : List (List α × List α)) :
    (pairs.map (fun pair => (r.pair_of (write r.eq pair)).1.length)).sum ≤ (pairs.map (fun pair => pair.1.length)).sum ∧
      ((pairs.map (fun pair => (r.pair_of (write r.eq pair)).1.length)).sum = (pairs.map (fun pair => pair.1.length)).sum →
        ∀ pair ∈ pairs, r.eq ∉ pair.1) := by
  induction pairs with
  | nil => exact ⟨le_rfl,fun _ => nofun⟩
  | cons pair pairs ih =>
    obtain ⟨le,kept⟩ := ih
    have decoded : (r.pair_of (write r.eq pair)).1.length ≤ (pair.1.takeWhile (· ≠ r.eq)).length := by
      rw [← key_cut_write]
      exact r.decode_le _
    have short : (pair.1.takeWhile (· ≠ r.eq)).length ≤ pair.1.length := (List.takeWhile_prefix _).length_le
    rw [List.map_cons,List.map_cons,List.sum_cons,List.sum_cons,List.forall_mem_cons]
    refine ⟨by omega,fun same => ⟨?_,kept (by omega)⟩⟩
    intro inside
    have all := takeWhile_whole (show (pair.1.takeWhile (· ≠ r.eq)).length = pair.1.length by omega) r.eq inside
    simp at all

/-- Some of the pairs are read from their text, and they are all of the pairs, iff each pair is read as it
    was written. -/
theorem reads_back (keep : List α × List α → Bool) (kept : ∀ pair ∈ pairs, keep pair = true) :
    ((r.reading (join r.amp r.eq pairs)).filter keep).Perm pairs ↔ ∀ pair ∈ pairs, r.Written pair := by
  constructor
  · intro same
    by_cases empty : pairs = []
    · subst empty
      exact nofun
    -- nothing is lost on the way, since nothing is won
    have filtered : total ((r.reading (join r.amp r.eq pairs)).filter keep) ≤ total (r.reading (join r.amp r.eq pairs)) :=
      (List.filter_sublist.map size).sum_le_sum (fun _ _ => Nat.zero_le _)
    have read := r.total_parts_le ((join r.amp r.eq pairs).splitOn r.amp)
    have joined := content_join_le r.apart pairs
    have equal := total_perm same
    change total (r.reading (join r.amp r.eq pairs)) ≤ content r.amp r.eq (join r.amp r.eq pairs) ∧ _ at read
    have parts := joined.2 (by omega)
    have clear := read.2 (by change total (r.reading (join r.amp r.eq pairs)) = content r.amp r.eq (join r.amp r.eq pairs); omega)
    have split := splitOn_join (fun pair inside => (parts pair inside).1) empty
    rw [split,List.forall_mem_map] at clear
    have all : r.reading (join r.amp r.eq pairs) = ((pairs.map (write r.eq)).filter r.shown).map r.pair_of := by rw [reading,split]
    -- as many pairs are read as there are, so all are shown and kept
    have fewer := same.length_eq
    have fewer' : ((r.reading (join r.amp r.eq pairs)).filter keep).length ≤ (r.reading (join r.amp r.eq pairs)).length :=
      List.length_filter_le _ _
    have fewer'' : ((pairs.map (write r.eq)).filter r.shown).length ≤ (pairs.map (write r.eq)).length := List.length_filter_le _ _
    have shows : (pairs.map (write r.eq)).filter r.shown = pairs.map (write r.eq) := by
      refine List.filter_sublist.eq_of_length (le_antisymm fewer'' ?_)
      rw [List.length_map,← fewer]
      refine fewer'.trans ?_
      rw [all,List.length_map]
    rw [shows,List.map_map] at all
    have whole : (r.reading (join r.amp r.eq pairs)).filter keep = r.reading (join r.amp r.eq pairs) := by
      refine List.filter_sublist.eq_of_length ?_
      rw [fewer,all,List.length_map]
    rw [whole,all] at same
    -- the keys are as long as before, so none is cut
    have keys : (pairs.map (fun pair => (r.pair_of (write r.eq pair)).1.length)).sum = (pairs.map (fun pair => pair.1.length)).sum := by
      have lengths := (same.map (fun pair => pair.1.length)).sum_eq
      rwa [List.map_map] at lengths
    have uncut := (r.key_total_le pairs).2 keys
    have known (pair : List α × List α) (inside : pair ∈ pairs) : r.Clear pair.1 ∧ r.Clear pair.2 := by
      have here := clear pair inside
      rwa [cut_write (uncut pair inside)] at here
    have read_as : pairs.map (r.pair_of ∘ write r.eq) = pairs.map (fun pair => (r.decode pair.1,r.decode pair.2)) := by
      refine List.map_congr_left (fun pair inside => ?_)
      rw [Function.comp_apply,pair_of,cut_write (uncut pair inside)]
    rw [read_as] at same
    have free (pair : List α × List α) (inside : pair ∈ pairs) : r.plus ∉ pair.1 ∧ r.plus ∉ pair.2 := by
      obtain ⟨other,there,rfl⟩ := List.mem_map.mp (same.mem_iff.mpr inside)
      exact ⟨(known other there).1.free,(known other there).2.free⟩
    intro pair inside
    have amp := (parts pair inside).1
    have amps : r.amp ∉ pair.1 ∧ r.amp ∉ pair.2 := by
      rw [write] at amp
      split_ifs at amp with value
      · exact ⟨amp,by simp [value]⟩
      · simp only [List.mem_append,List.mem_cons,not_or] at amp
        exact ⟨amp.1,amp.2.2⟩
    refine ⟨?_,amps.1,amps.2,uncut pair inside,(known pair inside).1,(known pair inside).2,(free pair inside).1,(free pair inside).2⟩
    rintro rfl
    have shown : r.shown (write r.eq ([],[])) = true := by
      have there : write r.eq ([],[]) ∈ (pairs.map (write r.eq)).filter r.shown := by
        rw [shows]
        exact List.mem_map_of_mem inside
      exact (List.mem_filter.mp there).2
    rw [write,if_pos rfl,r.shown_nil] at shown
    cases shown
  · intro written
    rw [reading_join written,List.filter_eq_self.mpr kept]

/-- A text that ends before the text of the pairs does is not read as them. -/
theorem reading_short (keep : List α × List α → Bool) {c : α} {more : List α} (amp : c ≠ r.amp) (eq : c ≠ r.eq)
    (whole : join r.amp r.eq pairs = text ++ c :: more) : ¬ ((r.reading text).filter keep).Perm pairs := by
  have longer := (content_concat r.apart text c).2 amp eq
  have longest := content_append_le r.apart (text ++ [c]) more
  have joined := (content_join_le r.apart pairs).1
  rw [List.append_assoc,List.singleton_append,← whole] at longest
  intro same
  have equal := total_perm same
  have filtered : total ((r.reading text).filter keep) ≤ total (r.reading text) :=
    (List.filter_sublist.map size).sum_le_sum (fun _ _ => Nat.zero_le _)
  have read := r.total_reading_le text
  omega

end Reader
end QueryPairs
