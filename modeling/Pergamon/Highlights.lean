import Pergamon.Library
import Pergamon.Texts

/-!
Highlights. A highlight records where its quote stands in the source, if the quote is found there
and is not found again. The second search begins after the end of the first occurrence, so an
occurrence that overlaps it is missed (`positioned_iff`).
-/
namespace Pergamon
open Fallible Library Utf8

/-- The title of a highlight: the first line of its quote, cut if it is long. -/
def truncate_for_title (text : String) : String :=
  let first_line := (lines text.toList).head?.getD text.toList
  if size first_line ≤ 80 then String.ofList first_line else String.ofList (first_line.take 77 ++ ['…'])

/-- The offsets of a quote that is found and is not found again after its end. Texts are shorter
    than 2^63 bytes, so an offset is a number of 64 bits. -/
def detect_position (text quote_text : List Char) : Option (ℕ × ℕ) := do
  let first ← find quote_text text
  let (_,rest) ← split_at text (first + size quote_text)
  if (find quote_text rest).isSome then none else some (first,first + size quote_text)

namespace Library

/-- Insert a row of `highlight_meta`. -/
def insert_highlight_meta (info : HighlightMeta) : Work Unit :=
  run (fun lib =>
    if lib.highlight_meta.all (fun h => h.content_item_id ≠ info.content_item_id) ∧ lib.has_item info.content_item_id ∧
        info.source_item_id.all lib.has_item then
      .ok { lib with highlight_meta := lib.highlight_meta ++ [info] }
    else .error .Sqlite)

/-- Create a highlight from a source content item. -/
def create_highlight [TimeCrate] (source_item_id quote_text : String) (note color : Option String) : Work ContentItem := do
  let source ← get_content_item source_item_id
  let position := source.content_text.bind (fun text => detect_position text.toList quote_text.toList)
  let now := (← get).now
  let id ← new_v4
  let item : ContentItem :=
    { id := id, url := none, title := truncate_for_title quote_text, author := source.author, content_type := .Highlight,
      status := .Inbox, content_text := some quote_text, excerpt := note, published_at := none, created_at := now,
      updated_at := now, read_at := none }
  insert_content_item item
  insert_highlight_meta
    { content_item_id := item.id, source_item_id := some source_item_id, quote_text := quote_text, note := note,
      position_start := position.map (fun p => (p.1 : ℤ)), position_end := position.map (fun p => (p.2 : ℤ)), color := color }
  pure item

end Library

/-! ### Positions -/

/-- The quote is not empty, and this is the one offset where it occurs. -/
def Sole (quote text : List Char) (n : ℕ) : Prop := quote ≠ [] ∧ ∀ m, OccursAt quote text m ↔ m = n

/-- A quote that occurs again occurs again after the end of its first occurrence. -/
def RepeatsApart (quote text : List Char) : Prop :=
  ∀ n, OccursAt quote text n → (∀ m, OccursAt quote text m → n ≤ m) → ∀ m, n < m → OccursAt quote text m →
    ∃ k, n + size quote ≤ k ∧ OccursAt quote text k

/-- The position of the quote, where it has one, and none otherwise. -/
structure Positioned (quote text : List Char) (position_start position_end : Option ℤ) : Prop where
  recorded : ∀ n, Sole quote text n → position_start = some (n : ℤ) ∧ position_end = some ((n + size quote : ℕ) : ℤ) ∧
    Utf8.slice text n (n + size quote) = some quote
  unrecorded : (∀ n, ¬ Sole quote text n) → position_start = none ∧ position_end = none

section
variable {quote text : List Char}

theorem Sole.slice {n : ℕ} (sole : Sole quote text n) : Utf8.slice text n (n + size quote) = some quote := by
  obtain ⟨something,only⟩ := sole
  obtain ⟨before,after,whole,here⟩ := (occursAt_iff something).mp ((only n).mpr rfl)
  exact slice_eq_some.mpr ⟨before,after,whole,here,rfl⟩

/-- The first occurrence of a quote, as it is found. -/
theorem find_first {n : ℕ} (something : quote ≠ []) (found : find quote text = some n) :
    OccursAt quote text n ∧ ∀ m, OccursAt quote text m → n ≤ m := by
  obtain ⟨⟨before,after,whole,here⟩,first⟩ := find_eq_some found
  refine ⟨(occursAt_iff something).mpr ⟨before,after,whole,here⟩,fun m occurs => ?_⟩
  obtain ⟨before',after',other,there⟩ := (occursAt_iff something).mp occurs
  exact there ▸ first before' after' other

/-- What is found after an offset occurs there or later. -/
theorem infix_after (front rest : List Char) (something : quote ≠ []) :
    quote <:+: rest ↔ ∃ k, size front ≤ k ∧ OccursAt quote (front ++ rest) k := by
  constructor
  · rintro ⟨before,after,rfl⟩
    refine ⟨size (front ++ before),by simp,(occursAt_iff something).mpr ⟨front ++ before,after,by simp,rfl⟩⟩
  · rintro ⟨k,past,occurs⟩
    obtain ⟨before,after,whole,rfl⟩ := (occursAt_iff something).mp occurs
    -- the front ends before the occurrence begins
    obtain ⟨more,rfl⟩ : front <+: before := by
      rw [List.append_assoc] at whole
      rcases List.append_eq_append_iff.mp whole with ⟨more,rfl,-⟩ | ⟨more,rfl,-⟩
      · exact List.prefix_append _ _
      · rw [size_append] at past
        have none : more = [] := size_eq_zero.mp (by omega)
        simp [none]
    rw [List.append_assoc,List.append_assoc,List.append_cancel_left_eq] at whole
    exact ⟨more,after,by rw [whole,List.append_assoc]⟩

/-- A position is detected iff no occurrence begins after the end of the first one. -/
theorem detect_position_eq {n : ℕ} (something : quote ≠ []) (found : find quote text = some n) :
    ((∃ k, n + size quote ≤ k ∧ OccursAt quote text k) → detect_position text quote = none) ∧
      ((¬ ∃ k, n + size quote ≤ k ∧ OccursAt quote text k) → detect_position text quote = some (n,n + size quote)) := by
  obtain ⟨⟨before,after,whole,here⟩,-⟩ := find_eq_some found
  have cut : split_at text (n + size quote) = some (before ++ quote,after) :=
    split_at_eq_some.mpr ⟨whole,by rw [size_append,here]⟩
  have again : quote <:+: after ↔ ∃ k, n + size quote ≤ k ∧ OccursAt quote text k := by
    have after_quote := infix_after (before ++ quote) after something
    rw [size_append,here,← whole] at after_quote
    exact after_quote
  rw [← again]
  constructor
  · intro more
    simp [detect_position,found,cut,find_isSome.mpr more]
  · intro apart
    simp [detect_position,found,cut,find_eq_none.mpr apart]

theorem detect_position_empty (text : List Char) : detect_position text [] = none := by
  simp [detect_position,find_nil]

/-- The detected position is the one offset of the quote iff the quote does not merely overlap itself. -/
theorem positioned_detect : Positioned quote text ((detect_position text quote).map (fun p => (p.1 : ℤ)))
    ((detect_position text quote).map (fun p => (p.2 : ℤ))) ↔ RepeatsApart quote text := by
  by_cases something : quote = []
  · subst something
    rw [detect_position_empty]
    refine iff_of_true ⟨fun n sole => absurd rfl sole.1,fun _ => ⟨rfl,rfl⟩⟩ ?_
    intro n _ _ m later _
    exact ⟨m,by simp; omega,List.nil_prefix⟩
  · cases found : find quote text with
    | none =>
      have nowhere (n : ℕ) : ¬ OccursAt quote text n := by
        intro occurs
        obtain ⟨before,after,whole,-⟩ := (occursAt_iff something).mp occurs
        exact find_eq_none.mp found ⟨before,after,whole.symm⟩
      have missed : detect_position text quote = none := by simp [detect_position,found]
      rw [missed]
      refine iff_of_true ⟨fun n sole => absurd ((sole.2 n).mpr rfl) (nowhere n),fun _ => ⟨rfl,rfl⟩⟩ ?_
      exact fun n occurs => absurd occurs (nowhere n)
    | some n =>
      obtain ⟨occurs,first⟩ := find_first something found
      obtain ⟨hidden,shown⟩ := detect_position_eq something found
      constructor
      · intro positioned n' occurs' first' m later again
        obtain rfl : n' = n := le_antisymm (first' n occurs) (first n' occurs')
        by_contra apart
        -- the quote occurs again, and yet a position is recorded
        have none := (positioned.unrecorded (fun k sole => by
          have one := (sole.2 n').mp occurs
          have two := (sole.2 m).mp again
          omega)).1
        rw [shown apart] at none
        cases none
      · intro apart
        by_cases again : ∃ m, n < m ∧ OccursAt quote text m
        · obtain ⟨m,later,twice⟩ := again
          rw [hidden (apart n occurs first m later twice)]
          refine ⟨fun k sole => ?_,fun _ => ⟨rfl,rfl⟩⟩
          have one := (sole.2 n).mp occurs
          have two := (sole.2 m).mp twice
          omega
        · have once (m : ℕ) (also : OccursAt quote text m) : m = n := by
            have := first m also
            by_contra other
            exact again ⟨m,by omega,also⟩
          have sole : Sole quote text n := ⟨something,fun m => ⟨once m,fun same => same ▸ occurs⟩⟩
          have alone : ¬ ∃ k, n + size quote ≤ k ∧ OccursAt quote text k := by
            rintro ⟨k,past,also⟩
            have := once k also
            have := mt size_eq_zero.mp something
            omega
          rw [shown alone]
          refine ⟨fun k other => ?_,fun none => absurd sole (none n)⟩
          obtain rfl := (other.2 n).mp occurs
          exact ⟨rfl,rfl,other.slice⟩

end

/-! ### The function -/

section
variable {lib lib' : Library} {source_item_id quote_text : String} {note color : Option String} {item : Library.ContentItem}

theorem insert_highlight_meta_ok {info : HighlightMeta} (ok : insert_highlight_meta info lib = .ok () lib') :
    lib'.highlight_meta = lib.highlight_meta ++ [info] := by
  have stored := run_ok.mp ok
  split_ifs at stored
  cases stored
  rfl

variable [TimeCrate]

theorem insert_content_item_highlights (ok : insert_content_item item lib = .ok () lib') :
    lib'.highlight_meta = lib.highlight_meta := by
  obtain ⟨_,mid,one,two⟩ := work_bind_ok.mp ok
  have stored := run_ok.mp one
  have indexed := run_ok.mp two
  split_ifs at stored
  cases stored
  cases indexed
  rfl

/-- What a highlight is created with. -/
theorem create_highlight_ok (ok : create_highlight source_item_id quote_text note color lib = .ok item lib') :
    ∃ row info, lib.get_item_row source_item_id = some row ∧ lib'.highlight_meta = lib.highlight_meta ++ [info] ∧
      info.content_item_id = item.id ∧ info.source_item_id = some source_item_id ∧ info.quote_text = quote_text ∧
      let position := row.content_text.bind (fun text => detect_position text.toList quote_text.toList)
      info.position_start = position.map (fun p => (p.1 : ℤ)) ∧ info.position_end = position.map (fun p => (p.2 : ℤ)) := by
  unfold create_highlight at ok
  obtain ⟨source,mid,got,created⟩ := work_bind_ok.mp ok
  obtain ⟨row,found,reads,rfl⟩ : ∃ row, lib.get_item_row source_item_id = some row ∧
      Library.row_to_content_item row = some source ∧ lib = mid := by
    obtain ⟨row,one,asked,read⟩ := work_bind_ok.mp got
    obtain ⟨held,rfl⟩ := ask_ok.mp asked
    obtain ⟨reads,rfl⟩ := read_or_panic_ok.mp read
    cases there : lib.get_item_row source_item_id with
    | none => simp [there] at held
    | some row' =>
      rw [there] at held
      cases held
      exact ⟨row,rfl,reads,rfl⟩
  have text : source.content_text = row.content_text := by
    unfold Library.row_to_content_item at reads
    obtain ⟨_,-,reads⟩ := Option.bind_eq_some_iff.mp reads
    obtain ⟨_,-,reads⟩ := Option.bind_eq_some_iff.mp reads
    obtain ⟨_,-,reads⟩ := Option.bind_eq_some_iff.mp reads
    obtain ⟨_,-,reads⟩ := Option.bind_eq_some_iff.mp reads
    cases reads
    rfl
  simp only [text,get_bind] at created
  obtain ⟨id,drawn,new,created⟩ := work_bind_ok.mp created
  obtain ⟨_,shelved,inserted,created⟩ := work_bind_ok.mp created
  obtain ⟨_,last,annotated,done⟩ := work_bind_ok.mp created
  cases done
  cases new
  have whole := insert_highlight_meta_ok annotated
  rw [insert_content_item_highlights inserted] at whole
  exact ⟨row,_,found,whole,rfl,rfl,rfl,rfl,rfl⟩

/-- A highlight records the one offset of its quote iff the quote does not merely overlap itself. A
    source without text holds no quote. -/
theorem positioned_iff {row : ItemRow} (found : lib.get_item_row source_item_id = some row)
    (ok : create_highlight source_item_id quote_text note color lib = .ok item lib') :
    (∃ info, lib'.highlight_meta = lib.highlight_meta ++ [info] ∧ info.content_item_id = item.id ∧
      Positioned quote_text.toList (row.content_text.getD "").toList info.position_start info.position_end) ↔
    RepeatsApart quote_text.toList (row.content_text.getD "").toList := by
  obtain ⟨row',info,there,whole,named,-,-,start,stop⟩ := create_highlight_ok ok
  rw [found] at there
  cases there
  have same : row.content_text.bind (fun text => detect_position text.toList quote_text.toList) =
      detect_position (row.content_text.getD "").toList quote_text.toList := by
    cases row.content_text with
    | some text => rfl
    | none =>
      cases quote_text.toList with
      | nil => exact (detect_position_empty _).symm
      | cons c quote => rfl
  rw [same] at start stop
  rw [← positioned_detect,← start,← stop]
  constructor
  · rintro ⟨info',whole',-,positioned⟩
    rw [whole] at whole'
    obtain rfl := (List.cons.inj (List.append_cancel_left whole')).1
    exact positioned
  · intro positioned
    exact ⟨info,whole,named,positioned⟩

end

section
attribute [local instance] plainTimes

def articleRow (text : String) : ItemRow :=
  ⟨1,"source",none,"Source",none,.Article,.Inbox,some text,none,none,"now","now",none⟩

/-- A library with one article of the given text. -/
def articleOf (text : String) : Library :=
  ⟨[articleRow text],[],[],[],[],[],[],[],[],[],[],[],⟨0,0⟩,
    fun n => String.ofList (List.replicate (n + 1) 'h')⟩

/-- A quote that stands twice, apart, has no position, and one that stands once has it. -/
theorem positioned_iff_fox :
    (RepeatsApart "fox".toList "fox and fox".toList ∧ RepeatsApart "and".toList "fox and fox".toList) ∧
      ∃ item lib', create_highlight "source" "and" none none (articleOf "fox and fox") = .ok item lib' ∧
        ∃ info, lib'.highlight_meta = [info] ∧ Positioned "and".toList "fox and fox".toList info.position_start info.position_end := by
  have apart : RepeatsApart "fox".toList "fox and fox".toList := positioned_detect.mp
    ⟨fun n sole => by
      have zero := (sole.2 0).mp (by decide)
      have eight := (sole.2 8).mp (by decide)
      omega,fun _ => by decide⟩
  have once : RepeatsApart "and".toList "fox and fox".toList := by
    intro n occurs _ m later again
    have only (k : ℕ) (occurs : OccursAt "and".toList "fox and fox".toList k) : k = 4 := by
      have short : k < 12 := by
        by_contra past
        have none : List.drop k (encode "fox and fox".toList) = [] := List.drop_eq_nil_of_le (by
          have : (encode "fox and fox".toList).length = 11 := by decide
          omega)
        rw [OccursAt,none] at occurs
        exact absurd (List.prefix_nil.mp occurs) (by decide)
      have each : ∀ k < 12, OccursAt "and".toList "fox and fox".toList k → k = 4 := by decide
      exact each k short occurs
    have := only n occurs
    have := only m again
    omega
  refine ⟨⟨apart,once⟩,_,_,rfl,?_⟩
  have found : (articleOf "fox and fox").get_item_row "source" = some (articleRow "fox and fox") := rfl
  obtain ⟨info,whole,-,positioned⟩ := (positioned_iff found rfl).mpr once
  exact ⟨info,whole,positioned⟩

/-- A quote that overlaps itself gets the position of its first occurrence. -/
theorem overlapping_quote_positioned :
    ∃ item lib', create_highlight "source" "aa" none none (articleOf "aaa") = .ok item lib' ∧
      ¬ ∃ info, lib'.highlight_meta = (articleOf "aaa").highlight_meta ++ [info] ∧ info.content_item_id = item.id ∧
        Positioned "aa".toList "aaa".toList info.position_start info.position_end := by
  refine ⟨_,_,rfl,?_⟩
  rintro ⟨info,whole,-,positioned⟩
  obtain rfl := (List.cons.inj whole).1
  have nowhere (n : ℕ) : ¬ Sole "aa".toList "aaa".toList n := by
    intro sole
    have zero := (sole.2 0).mp (by decide)
    have one := (sole.2 1).mp (by decide)
    omega
  exact absurd (positioned.unrecorded nowhere).1 (by decide)

end
end Pergamon
