import Mathlib.Data.List.TakeWhile
import Pergamon.SmartFilter
import Pergamon.Utf8

/-!
Operations of the standard library on texts, which are lists of characters here.
-/
namespace Pergamon
open SmartFilter

/-! ### White space -/

/-- `str::trim`. -/
def trimmed (text : String) : String := String.ofList (trim text.toList)

/-- Nothing but white space. -/
def Blank (l : List Char) : Prop := ∀ c ∈ l, is_whitespace c

section
variable {l before after : List Char}

theorem dropWhile_blank (blank : Blank before) : (before ++ l).dropWhile is_whitespace = l.dropWhile is_whitespace := by
  rw [List.dropWhile_append,if_pos]
  rw [List.isEmpty_iff,List.dropWhile_eq_nil_iff]
  exact blank

theorem trim_before (blank : Blank before) : trim (before ++ l) = trim l := by
  rw [trim,trim,dropWhile_blank blank]

theorem trim_after (blank : Blank after) : trim (l ++ after) = trim l := by
  rw [trim,trim,List.dropWhile_append]
  split_ifs with none
  · rw [List.isEmpty_iff] at none
    rw [none,List.dropWhile_eq_nil_iff.mpr blank]
  · rw [List.reverse_append,dropWhile_blank (fun c inside => blank c (List.mem_reverse.mp inside))]

/-- What trimming takes off is white space. -/
theorem trim_parts (l : List Char) : ∃ before after, Blank before ∧ Blank after ∧ l = before ++ trim l ++ after := by
  refine ⟨l.takeWhile is_whitespace,((l.dropWhile is_whitespace).reverse.takeWhile is_whitespace).reverse,?_,?_,?_⟩
  · exact fun c inside => List.mem_takeWhile_imp inside
  · exact fun c inside => List.mem_takeWhile_imp (List.mem_reverse.mp inside)
  · rw [trim,List.append_assoc,← List.reverse_append,List.takeWhile_append_dropWhile,List.reverse_reverse,
      List.takeWhile_append_dropWhile]

theorem trim_trim (l : List Char) : trim (trim l) = trim l := by
  obtain ⟨before,after,blank,blank',parts⟩ := trim_parts l
  conv_rhs => rw [parts,trim_after blank',trim_before blank]

theorem trim_sublist (l : List Char) : (trim l).Sublist l := by
  obtain ⟨before,after,_,_,parts⟩ := trim_parts l
  conv_rhs => rw [parts]
  exact (List.sublist_append_right _ _).trans (List.sublist_append_left _ _)

theorem trim_eq_iff : trim l = l ↔ (∀ c, l.head? = some c → is_whitespace c = false) ∧
    ∀ c, l.getLast? = some c → is_whitespace c = false := by
  constructor
  · intro same
    refine ⟨fun c first => ?_,fun c last => ?_⟩
    · by_contra blank
      obtain ⟨rest,rfl⟩ := List.head?_eq_some_iff.mp first
      have shorter := (trim_sublist rest).length_le
      rw [← @trim_before rest [c] (by simpa [Blank] using blank)] at shorter
      rw [List.singleton_append,same,List.length_cons] at shorter
      omega
    · by_contra blank
      obtain ⟨rest,rfl⟩ := List.getLast?_eq_some_iff.mp last
      have shorter := (trim_sublist rest).length_le
      rw [← @trim_after rest [c] (by simpa [Blank] using blank),same,List.length_append,List.length_singleton] at shorter
      omega
  · rintro ⟨first,last⟩
    obtain ⟨before,after,blank,blank',parts⟩ := trim_parts l
    have no_before : before = [] := by
      cases before with
      | nil => rfl
      | cons c before =>
        have none := first c (by rw [parts]; rfl)
        rw [blank c List.mem_cons_self] at none
        cases none
    have no_after : after = [] := by
      rcases List.eq_nil_or_concat after with none | ⟨after,c,rfl⟩
      · exact none
      · have none := last c (by rw [parts,List.concat_eq_append,← List.append_assoc]; simp)
        rw [blank' c (by simp)] at none
        cases none
    rw [no_before,no_after] at parts
    simpa using parts.symm

theorem trimmed_blanks {s t u : String} (blank : Blank s.toList) (blank' : Blank u.toList) : trimmed (s ++ t ++ u) = trimmed t := by
  rw [trimmed,trimmed,String.toList_append,String.toList_append,trim_after blank',trim_before blank]

end

/-! ### Words -/

/-- `str::split_whitespace`. -/
def split_whitespace (text : List Char) : List (List Char) := (text.splitOnP is_whitespace).filter (fun word => word ≠ [])

section
variable {before l after : List Char} {c : Char}

theorem split_whitespace_at (blank : is_whitespace c) :
    split_whitespace (before ++ c :: after) = split_whitespace before ++ split_whitespace after := by
  rw [split_whitespace,List.splitOnP_append_cons before after blank,List.filter_append]
  rfl

theorem split_whitespace_blank (blank : is_whitespace c) : split_whitespace (c :: after) = split_whitespace after := by
  have apart := @split_whitespace_at [] after c blank
  simpa [split_whitespace] using apart

theorem split_whitespace_before (blank : Blank before) : split_whitespace (before ++ l) = split_whitespace l := by
  induction before with
  | nil => rfl
  | cons c before ih =>
    rw [List.cons_append,split_whitespace_blank (blank c List.mem_cons_self),ih (fun d inside => blank d (List.mem_cons_of_mem c inside))]

theorem split_whitespace_after (blank : Blank after) : split_whitespace (l ++ after) = split_whitespace l := by
  cases after with
  | nil => rw [List.append_nil]
  | cons c after =>
    have none := @split_whitespace_before after [] (fun d inside => blank d (List.mem_cons_of_mem c inside))
    rw [List.append_nil] at none
    rw [split_whitespace_at (blank c List.mem_cons_self),none]
    simp [split_whitespace]

/-- Trimming takes no word off. -/
theorem split_whitespace_trim (text : List Char) : split_whitespace (trim text) = split_whitespace text := by
  obtain ⟨before,after,blank,blank',parts⟩ := trim_parts text
  conv_rhs => rw [parts,split_whitespace_after blank',split_whitespace_before blank]

/-- The first word of a text that begins with one. -/
theorem split_whitespace_head (begins : is_whitespace c = false) :
    (split_whitespace (c :: after)).head? = some ((c :: after).takeWhile (fun d => !is_whitespace d)) := by
  have inside (d : Char) (there : d ∈ (c :: after).takeWhile (fun d => !is_whitespace d)) : is_whitespace d = false := by
    simpa using List.mem_takeWhile_imp there
  have some_char : (c :: after).takeWhile (fun d => !is_whitespace d) ≠ [] := by simp [begins]
  have whole := List.takeWhile_append_dropWhile (p := fun d => !is_whitespace d) (l := c :: after)
  cases rest : (c :: after).dropWhile (fun d => !is_whitespace d) with
  | nil =>
    rw [rest,List.append_nil] at whole
    rw [whole] at inside
    rw [split_whitespace,List.splitOnP_eq_singleton inside,whole]
    simp
  | cons d rest' =>
    have blank : is_whitespace d := by
      have none := List.head?_dropWhile_not (fun d => !is_whitespace d) (c :: after)
      rw [rest] at none
      simpa using none
    rw [rest] at whole
    rw [split_whitespace]
    nth_rewrite 1 [← whole]
    rw [List.splitOnP_append_cons_of_forall_mem inside d blank]
    simp [some_char]

end

/-! ### Parts -/

/-- `str::split` with a text: the parts between its occurrences, taken from the left without overlap.
    The characters of an occurrence that are still to be left out are counted. -/
def split_from (sep : List Char) : ℕ → List Char → List (List Char)
  | _,[] => [[]]
  | n + 1,_ :: text => split_from sep n text
  | 0,c :: text =>
    if sep.isPrefixOf (c :: text) then [] :: split_from sep (sep.length - 1) text
    else (split_from sep 0 text).modifyHead (c :: ·)

def split_str (sep text : List Char) : List (List Char) := split_from sep 0 text

example : split_str " | ".toList "a | b | | c | ".toList = ["a".toList,"b".toList,"| c".toList,[]] := by decide

/-! ### Lines -/

/-- A line without its carriage return. -/
def strip_return (line : List Char) : List Char := if line.getLast? = some '\r' then line.dropLast else line

/-- `str::lines`: a line that is not ended by a line feed keeps its carriage return, and is no line if it is empty. -/
def lines (text : List Char) : List (List Char) :=
  let parts := text.splitOn '\n'
  parts.dropLast.map strip_return ++ (parts.getLast?.toList.filter (fun last => last ≠ []))

/-- `str::to_lowercase` on ASCII letters alone: `str::to_ascii_lowercase`. -/
def to_ascii_lowercase (c : Char) : Char := if 'A' ≤ c ∧ c ≤ 'Z' then Char.ofNat (c.toNat + 32) else c

example : lines "one\r\ntwo\n\nthree\r".toList = ["one".toList,"two".toList,[],"three\r".toList] := by decide

end Pergamon
