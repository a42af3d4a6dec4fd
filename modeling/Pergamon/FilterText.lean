import Pergamon.Fallible
import Pergamon.Texts

/-!
Writing a filter as text and reading it again. Values are written as they are, without quotes. So a
filter is read back iff each value stays in its token: all white space in it is inside a quote that
is opened right after a colon, and closed unless the value is the last; a value is not in quotes as a
whole; and the text does not end with white space (`reparses_iff`). The reason is that no predicate
is written longer than a token that reads as it, so a text that reads as a filter is cut exactly into
the predicates.
-/
namespace Pergamon.SmartFilter
open Fallible

/-! ### Display -/

/-- Values with commas between them. -/
def commas (vals : List String) : List Char := [','].intercalate (vals.map String.toList)

def display_predicate : FilterPredicate → List Char
  | .ContentType types => "type:".toList ++ commas (types.map ContentType.as_str)
  | .Tag tags => "tag:".toList ++ commas tags
  | .Status statuses => "status:".toList ++ commas (statuses.map DocumentStatus.as_str)
  | .ExcludeStatus statuses => "-status:".toList ++ commas (statuses.map DocumentStatus.as_str)
  | .Source src => "source:".toList ++ src.toList
  | .CreatedSince date => "since:".toList ++ date.toList
  | .CreatedBefore date => "before:".toList ++ date.toList
  | .Text q => "text:".toList ++ q.toList

/-- Display of a filter. -/
def display (f : SmartFilter) : String := String.ofList ([' '].intercalate (f.predicates.map display_predicate))

/-! ### Cutting into tokens -/

/-- Where the tokenizer is after a character that it keeps in the token. The token ends before a
    character that it does not keep. -/
def TokenMode.next (m : TokenMode) (c : Char) : Option TokenMode :=
  match m with
  | .Quoted q => some (if c = q then .Plain else .Quoted q)
  | .Plain => if is_whitespace c then none else some (if c = ':' then .AfterColon else .Plain)
  | .AfterColon =>
    if c = '"' ∨ c = '\'' then some (.Quoted c)
    else if is_whitespace c then none else some (if c = ':' then .AfterColon else .Plain)

/-- Where the tokenizer is after a text that it keeps in the token. -/
def TokenMode.keeps (m : TokenMode) (l : List Char) : Option TokenMode := l.foldlM TokenMode.next m

/-- The tokens from here on, with one that was begun. -/
def cut (current : List Char) (m : TokenMode) (l : List Char) : List (List Char) :=
  (l.foldl Tokenizer.step ⟨[],current,m⟩).flush.reverse

/-- The token that was begun, if there is one. -/
def begun (current : List Char) : List (List Char) := if current = [] then [] else [current.reverse]

section
variable {current l t : List Char} {m m' : TokenMode} {c : Char}

theorem step_keep (s : Tokenizer) (keeps : s.mode.next c = some m') : s.step c = ⟨s.tokens,c :: s.current,m'⟩ := by
  obtain ⟨tokens,current,mode⟩ := s
  cases mode with
  | Quoted q =>
    cases keeps
    rfl
  | Plain =>
    by_cases blank : is_whitespace c
    · simp [TokenMode.next,blank] at keeps
    · simpa [TokenMode.next,Tokenizer.step,Tokenizer.plain,blank] using keeps
  | AfterColon =>
    by_cases quote : c = '"' ∨ c = '\''
    · simpa [TokenMode.next,Tokenizer.step,quote] using keeps
    · by_cases blank : is_whitespace c
      · simp [TokenMode.next,quote,blank] at keeps
      · simpa [TokenMode.next,Tokenizer.step,Tokenizer.plain,quote,blank] using keeps

theorem step_cut (s : Tokenizer) (ends : s.mode.next c = none) : s.step c = ⟨s.flush,[],.Plain⟩ := by
  obtain ⟨tokens,current,mode⟩ := s
  cases mode with
  | Quoted q => simp [TokenMode.next] at ends
  | Plain =>
    by_cases blank : is_whitespace c
    · simp [Tokenizer.step,Tokenizer.plain,blank]
    · simp [TokenMode.next,blank] at ends
  | AfterColon =>
    by_cases quote : c = '"' ∨ c = '\''
    · simp [TokenMode.next,quote] at ends
    · by_cases blank : is_whitespace c
      · simp [Tokenizer.step,Tokenizer.plain,quote,blank]
      · simp [TokenMode.next,quote,blank] at ends

/-- Tokens that are complete stay. -/
theorem flush_run (tokens : List (List Char)) : (l.foldl Tokenizer.step ⟨tokens,current,m⟩).flush.reverse =
    tokens.reverse ++ cut current m l := by
  unfold cut
  induction l generalizing tokens current m with
  | nil =>
    by_cases none : current = [] <;> simp [Tokenizer.flush,none]
  | cons c l ih =>
    simp only [List.foldl_cons]
    cases next : m.next c with
    | some m' =>
      rw [step_keep ⟨tokens,current,m⟩ next,step_keep ⟨[],current,m⟩ next]
      exact ih tokens
    | none =>
      rw [step_cut ⟨tokens,current,m⟩ next,step_cut ⟨[],current,m⟩ next,ih,ih (Tokenizer.flush _),← List.append_assoc]
      congr 1
      by_cases none : current = [] <;> simp [Tokenizer.flush,none]

theorem cut_nil : cut current m [] = begun current := by
  by_cases none : current = [] <;> simp [cut,begun,Tokenizer.flush,none]

theorem cut_keep (next : m.next c = some m') : cut current m (c :: l) = cut (c :: current) m' l := by
  unfold cut
  rw [List.foldl_cons,step_keep _ next]

theorem cut_here (next : m.next c = none) : cut current m (c :: l) = begun current ++ cut [] .Plain l := by
  have tokens : (⟨[],current,m⟩ : Tokenizer).flush.reverse = begun current := cut_nil
  rw [cut,List.foldl_cons,step_cut _ next,flush_run,tokens]

theorem cut_keeps (keeps : m.keeps t = some m') : cut current m (t ++ l) = cut (t.reverse ++ current) m' l := by
  induction t generalizing current m with
  | nil =>
    cases keeps
    rfl
  | cons c t ih =>
    obtain ⟨next,first,rest⟩ := Option.bind_eq_some_iff.mp keeps
    rw [List.cons_append,cut_keep first,ih rest]
    simp

/-- A token that was begun goes on. -/
theorem cut_begun (some_begun : current ≠ []) : ∃ more rest, cut current m l = (current.reverse ++ more) :: rest := by
  induction l generalizing current m with
  | nil => exact ⟨[],[],by rw [cut_nil,begun,if_neg some_begun,List.append_nil]⟩
  | cons c l ih =>
    cases next : m.next c with
    | some m' =>
      obtain ⟨more,rest,same⟩ := @ih (c :: current) m' (List.cons_ne_nil c current)
      exact ⟨c :: more,rest,by rw [cut_keep next,same]; simp⟩
    | none => exact ⟨[],cut [] .Plain l,by rw [cut_here next,begun,if_neg some_begun,List.append_nil]; rfl⟩

/-- The last token is one iff the tokenizer keeps all of it. -/
theorem cut_last (some_begun : current ≠ []) : cut current m t = [current.reverse ++ t] ↔ (m.keeps t).isSome := by
  induction t generalizing current m with
  | nil => simp [cut_nil,begun,some_begun,TokenMode.keeps]
  | cons c t ih =>
    cases next : m.next c with
    | some m' =>
      have later := @ih (c :: current) m' (List.cons_ne_nil c current)
      rw [cut_keep next]
      simpa [TokenMode.keeps,next] using later
    | none =>
      rw [cut_here next,begun,if_neg some_begun]
      simp [TokenMode.keeps,next]

/-- A token before others is one iff the tokenizer keeps all of it, and ends it at the space. -/
theorem cut_before (some_begun : current ≠ []) (rest : List (List Char)) :
    cut current m (t ++ ' ' :: l) = (current.reverse ++ t) :: rest ↔
      (∃ m', m.keeps t = some m' ∧ m'.next ' ' = none) ∧ cut [] .Plain l = rest := by
  induction t generalizing current m with
  | nil =>
    cases next : m.next ' ' with
    | some m' =>
      obtain ⟨more,rest',same⟩ := @cut_begun (' ' :: current) l m' (List.cons_ne_nil ' ' current)
      rw [List.nil_append,cut_keep next,same]
      simp [TokenMode.keeps,next]
    | none =>
      rw [List.nil_append,cut_here next,begun,if_neg some_begun]
      simp [TokenMode.keeps,next]
  | cons c t ih =>
    cases next : m.next c with
    | some m' =>
      have later := @ih (c :: current) m' (List.cons_ne_nil c current)
      rw [List.cons_append,cut_keep next]
      simpa [TokenMode.keeps,next] using later
    | none =>
      rw [List.cons_append,cut_here next,begun,if_neg some_begun]
      simp [TokenMode.keeps,next]

/-- The tokens and what parts them are at most as long as the text. -/
theorem cut_size : ((cut current m l).map (fun token => token.length + 1)).sum ≤ current.length + l.length + 1 := by
  induction l generalizing current m with
  | nil =>
    rw [cut_nil,begun]
    split_ifs <;> simp
  | cons c l ih =>
    cases next : m.next c with
    | some m' =>
      have later := @ih (c :: current) m'
      rw [cut_keep next]
      simp only [List.length_cons] at later ⊢
      omega
    | none =>
      have later := @ih [] .Plain
      rw [cut_here next,List.map_append,List.sum_append,begun]
      split_ifs
      · simp only [List.map_nil,List.sum_nil,List.length_nil,List.length_cons] at later ⊢
        omega
      · simp only [List.map_cons,List.map_nil,List.sum_cons,List.sum_nil,List.length_reverse,List.length_nil,List.length_cons] at later ⊢
        omega

end

/-! ### Predicates as tokens -/

def key : FilterPredicate → List Char
  | .ContentType _ => "type".toList
  | .Tag _ => "tag".toList
  | .Status _ => "status".toList
  | .ExcludeStatus _ => "-status".toList
  | .Source _ => "source".toList
  | .CreatedSince _ => "since".toList
  | .CreatedBefore _ => "before".toList
  | .Text _ => "text".toList

/-- What is written after the colon. -/
def value : FilterPredicate → List Char
  | .ContentType types => commas (types.map ContentType.as_str)
  | .Tag tags => commas tags
  | .Status statuses | .ExcludeStatus statuses => commas (statuses.map DocumentStatus.as_str)
  | .Source src => src.toList
  | .CreatedSince date | .CreatedBefore date => date.toList
  | .Text q => q.toList

theorem display_predicate_eq (p : FilterPredicate) : display_predicate p = key p ++ ':' :: value p := by
  cases p <;> rfl

theorem key_keeps (p : FilterPredicate) : TokenMode.Plain.keeps (key p ++ [':']) = some .AfterColon := by
  cases p <;> rfl

/-- All white space of the values is inside quotes that the tokenizer sees, and such a quote is
    closed before the next predicate. -/
def Unbroken : List FilterPredicate → Prop
  | [] => True
  | [p] => (TokenMode.AfterColon.keeps (value p)).isSome
  | p :: rest => (∃ m, TokenMode.AfterColon.keeps (value p) = some m ∧ m.next ' ' = none) ∧ Unbroken rest

/-- Filters whose values are unbroken are cut into their predicates, and no others. -/
theorem cut_display {ps : List FilterPredicate} (some_predicate : ps ≠ []) :
    cut [] .Plain ([' '].intercalate (ps.map display_predicate)) = ps.map display_predicate ↔ Unbroken ps := by
  have start (p : FilterPredicate) (l : List Char) :
      cut [] .Plain (key p ++ ':' :: l) = cut ((key p ++ [':']).reverse ++ []) .AfterColon l := by
    rw [← cut_keeps (key_keeps p),List.append_assoc]
    rfl
  have begun (p : FilterPredicate) : (key p ++ [':']).reverse ++ [] ≠ [] := by simp
  induction ps with
  | nil => exact absurd rfl some_predicate
  | cons p rest ih =>
    have written : ((key p ++ [':']).reverse ++ []).reverse ++ value p = display_predicate p := by
      rw [display_predicate_eq]
      simp
    cases rest with
    | nil =>
      rw [List.map_cons,List.map_nil,List.intercalate_singleton,Unbroken,display_predicate_eq,start,← cut_last (begun p),written,
        display_predicate_eq]
    | cons q rest =>
      have parted : [' '].intercalate ((p :: q :: rest).map display_predicate) =
          key p ++ ':' :: (value p ++ ' ' :: [' '].intercalate ((q :: rest).map display_predicate)) := by
        simp [display_predicate_eq p,List.intercalate_cons_cons]
      have whole : (p :: q :: rest).map display_predicate =
          (((key p ++ [':']).reverse ++ []).reverse ++ value p) :: (q :: rest).map display_predicate := by
        rw [written,List.map_cons]
      rw [parted,start,Unbroken,whole]
      · exact (cut_before (begun p) _).trans (and_congr_right (fun _ => ih (List.cons_ne_nil q rest)))
      · exact List.cons_ne_nil q rest

/-! ### Values -/

/-- A value without the quotes around it. -/
def stripped (raw : List Char) : List Char := ((strip_quotes '"' raw).orElse (fun _ => strip_quotes '\'' raw)).getD raw

section
variable {l inner raw : List Char} {vals : List String}

theorem strip_quotes_some {q : Char} (strips : strip_quotes q l = some inner) : l = q :: (inner ++ [q]) := by
  unfold strip_quotes at strips
  cases l with
  | nil => cases strips
  | cons c rest =>
    simp only [Option.ite_none_right_eq_some,Option.some.injEq] at strips
    obtain ⟨⟨rfl,last⟩,rfl⟩ := strips
    rw [← List.dropLast_append_getLast? _ last]
    simp

theorem stripped_cases (raw : List Char) : (stripped raw = raw ∧ strip_quotes '"' raw = none ∧ strip_quotes '\'' raw = none) ∨
    ∃ q, raw = q :: (stripped raw ++ [q]) := by
  unfold stripped
  cases double : strip_quotes '"' raw with
  | some inner => exact Or.inr ⟨'"',strip_quotes_some double⟩
  | none =>
    cases single : strip_quotes '\'' raw with
    | some inner => exact Or.inr ⟨'\'',strip_quotes_some single⟩
    | none => exact Or.inl ⟨rfl,rfl,rfl⟩

theorem stripped_sublist (raw : List Char) : (stripped raw).Sublist raw := by
  rcases stripped_cases raw with ⟨same,_⟩ | ⟨q,same⟩
  · rw [same]
  · conv_rhs => rw [same]
    exact (List.sublist_append_left _ _).cons q

theorem stripped_eq_iff : stripped raw = raw ↔ strip_quotes '"' raw = none ∧ strip_quotes '\'' raw = none := by
  constructor
  · intro same
    rcases stripped_cases raw with ⟨_,none⟩ | ⟨q,longer⟩
    · exact none
    · have := congrArg List.length (same.trans longer)
      simp only [List.length_cons,List.length_append,List.length_nil] at this
      omega
  · rintro ⟨double,single⟩
    simp [stripped,double,single]

theorem intercalate_sublist {f : List Char → List Char} (shorter : ∀ l, (f l).Sublist l) (sep : List Char) (parts : List (List Char)) :
    (sep.intercalate (parts.map f)).Sublist (sep.intercalate parts) := by
  induction parts with
  | nil => exact List.Sublist.refl _
  | cons part rest ih =>
    cases rest with
    | nil => simpa using shorter part
    | cons next rest =>
      rw [List.map_cons,List.map_cons,List.intercalate_cons_cons,List.intercalate_cons_cons]
      exact ((shorter part).append (List.Sublist.refl sep)).append ih

theorem commas_values (value : List Char) : (commas (comma_values value)).Sublist value := by
  have shorter := intercalate_sublist trim_sublist [','] (value.splitOn ',')
  rw [List.intercalate_splitOn] at shorter
  unfold commas comma_values
  rw [List.map_map]
  simpa [Function.comp_def] using shorter

/-- Values that are trimmed and have no commas are told apart again. -/
theorem values_commas (some_value : vals ≠ []) (clean : ∀ v ∈ vals, ',' ∉ v.toList ∧ trim v.toList = v.toList) :
    comma_values (commas vals) = vals := by
  unfold comma_values commas
  rw [List.splitOn_intercalate ',' (by simpa using fun v inside => (clean v inside).1) (by simpa using some_value),List.map_map]
  conv_rhs => rw [← List.map_id vals]
  refine List.map_congr_left (fun v inside => ?_)
  simp [(clean v inside).2]

theorem not_mem_splitOn {sep : Char} {value : List Char} (part : List Char) (there : part ∈ value.splitOn sep) : sep ∉ part := by
  induction value generalizing part with
  | nil =>
    rw [List.splitOn_nil,List.mem_singleton] at there
    simp [there]
  | cons c value ih =>
    rw [List.splitOn_cons_eq_if_modifyHead] at there
    cases parts : value.splitOn sep with
    | nil => exact absurd parts (List.splitOn_ne_nil sep value)
    | cons first rest =>
      rw [parts] at there ih
      by_cases same : c = sep
      · simp only [same,beq_self_eq_true,if_true,List.mem_cons] at there
        rcases there with rfl | here
        · exact List.not_mem_nil
        · exact ih part (List.mem_cons.mpr here)
      · simp only [beq_iff_eq,same,if_false,List.modifyHead_cons,List.mem_cons] at there
        rcases there with rfl | here
        · intro inside
          rcases List.mem_cons.mp inside with rfl | later
          · exact same rfl
          · exact ih first List.mem_cons_self later
        · exact ih part (List.mem_cons_of_mem _ here)

theorem comma_values_clean (value : List Char) : comma_values value ≠ [] ∧
    ∀ v ∈ comma_values value, ',' ∉ v.toList ∧ trim v.toList = v.toList := by
  unfold comma_values
  refine ⟨by simp [List.splitOn_ne_nil],?_⟩
  intro v inside
  obtain ⟨part,there,rfl⟩ := List.mem_map.mp inside
  have no_comma := not_mem_splitOn part there
  refine ⟨?_,by simp [trim_trim]⟩
  rw [String.toList_ofList]
  exact fun comma => no_comma ((trim_sublist part).subset comma)

end

/-! ### Reading a token -/

/-- A token with its sign, its key and its value. -/
def parse_parts (negated : Bool) (key : String) (value : List Char) : Except FilterParseError FilterPredicate :=
  if value = [] then .error (invalid key "" "value cannot be empty")
  else
    match key with
    | "type" => parse_type_predicate value negated
    | "tag" => parse_tag_predicate value negated
    | "status" => parse_status_predicate value negated
    | "source" => parse_simple_predicate "source" value negated .Source
    | "since" => parse_date_predicate "since" value negated .CreatedSince
    | "before" => parse_date_predicate "before" value negated .CreatedBefore
    | "text" => parse_simple_predicate "text" value negated .Text
    | _ => .error (.UnknownKey key)

/-- What the parser makes of values: lists are not empty, tags are trimmed and have no commas, and
    dates are dates. -/
def Parsed : FilterPredicate → Prop
  | .ContentType types => types ≠ []
  | .Tag tags => tags ≠ [] ∧ ∀ tag ∈ tags, ',' ∉ tag.toList ∧ trim tag.toList = tag.toList
  | .Status statuses | .ExcludeStatus statuses => statuses ≠ []
  | .Source _ | .Text _ => True
  | .CreatedSince date | .CreatedBefore date => validate_date date.toList = .ok ⟨⟩

/-- A value that the parser takes as it is written. -/
def Bare (p : FilterPredicate) : Prop :=
  value p ≠ [] ∧ strip_quotes '"' (value p) = none ∧ strip_quotes '\'' (value p) = none

/-- A token after its sign. -/
def parse_rest (negated : Bool) (token : List Char) : Except FilterParseError FilterPredicate :=
  if ':' ∉ token then .error (.MissingSeparator (String.ofList token))
  else parse_parts negated (String.ofList (token.takeWhile (· ≠ ':'))) (stripped (token.dropWhile (· ≠ ':')).tail)

/-- The sign of a token. -/
def sign (negated : Bool) : List Char := if negated then ['-'] else []

section
variable {negated : Bool} {k raw v : List Char} {p : FilterPredicate}

theorem parse_token_eq (u : List Char) : parse_token u = if u.head? = some '-' then parse_rest true u.tail else parse_rest false u := by
  by_cases negated : u.head? = some '-'
  · unfold parse_token
    simp only [negated,decide_true,if_true]
    rfl
  · unfold parse_token
    simp only [negated,decide_false,if_false]
    rfl

theorem parse_rest_colon (no_colon : ':' ∉ k) : parse_rest negated (k ++ ':' :: raw) = parse_parts negated (String.ofList k) (stripped raw) := by
  have kept (c : Char) (inside : c ∈ k) : decide (c ≠ ':') = true := by
    refine decide_eq_true ?_
    rintro rfl
    exact no_colon inside
  unfold parse_rest
  rw [if_neg (by simp),List.takeWhile_append_of_pos kept,List.dropWhile_append_of_pos kept]
  simp

theorem parse_token_colon (no_colon : ':' ∉ k) (unsigned : k.head? ≠ some '-') :
    parse_token (sign negated ++ k ++ ':' :: raw) = parse_parts negated (String.ofList k) (stripped raw) := by
  rw [parse_token_eq]
  cases negated with
  | true => simpa [sign] using parse_rest_colon no_colon
  | false =>
    have plain : (k ++ ':' :: raw).head? ≠ some '-' := by
      cases k with
      | nil => simp
      | cons c k => simpa using unsigned
    rw [sign,if_neg Bool.false_ne_true,List.nil_append,if_neg plain]
    exact parse_rest_colon no_colon

theorem parse_token_parts {u : List Char} (ok : parse_token u = .ok p) : ∃ negated k raw,
    u = sign negated ++ k ++ ':' :: raw ∧ parse_parts negated (String.ofList k) (stripped raw) = .ok p := by
  have parts {negated : Bool} {l : List Char} (ok : parse_rest negated l = .ok p) : ∃ k raw,
      l = k ++ ':' :: raw ∧ parse_parts negated (String.ofList k) (stripped raw) = .ok p := by
    have colon : ':' ∈ l := by
      by_contra missing
      rw [parse_rest,if_pos missing] at ok
      cases ok
    obtain ⟨k,raw,rfl,no_colon⟩ := List.eq_append_cons_of_mem colon
    exact ⟨k,raw,rfl,(parse_rest_colon no_colon).symm.trans ok⟩
  rw [parse_token_eq] at ok
  split_ifs at ok with signed
  · obtain ⟨k,raw,same,ok⟩ := parts ok
    refine ⟨true,k,raw,?_,ok⟩
    rw [sign,if_pos rfl,List.append_assoc,← same]
    cases u with
    | nil => cases signed
    | cons c u =>
      cases signed
      rfl
  · obtain ⟨k,raw,same,ok⟩ := parts ok
    exact ⟨false,k,raw,same,ok⟩

/-! ### Reading values -/

theorem type_back (s : String) (t : ContentType) (ok : ContentType.from_str s = .ok t) : t.as_str = s := by
  unfold ContentType.from_str at ok
  split at ok <;> cases ok <;> rfl

theorem status_back (s : String) (t : DocumentStatus) (ok : DocumentStatus.from_str s = .ok t) : t.as_str = s := by
  unfold DocumentStatus.from_str at ok
  split at ok <;> cases ok <;> rfl

theorem comma_list_ok {T : Type} {parser : String → Except String T} {write : T → String} (back : ∀ s t, parser s = .ok t → write t = s)
    {ts : List T} (ok : parse_comma_list v parser = .ok ts) : ts ≠ [] ∧ (commas (ts.map write)).Sublist v := by
  have same := mapM_map (g := write) (h := id) ok (fun s _ t read => back s t read)
  rw [List.map_id] at same
  refine ⟨?_,?_⟩
  · rintro rfl
    exact (comma_values_clean v).1 same.symm
  · rw [same]
    exact commas_values v

theorem comma_list_back {T : Type} {parser : String → Except String T} {write : T → String} (forth : ∀ t, parser (write t) = .ok t)
    (clean : ∀ t, ',' ∉ (write t).toList ∧ trim (write t).toList = (write t).toList) {ts : List T} (some_value : ts ≠ []) :
    parse_comma_list (commas (ts.map write)) parser = .ok ts := by
  unfold parse_comma_list
  rw [values_commas (by simpa using some_value)]
  · exact mapM_back (fun t _ => forth t)
  · intro v inside
    obtain ⟨t,_,rfl⟩ := List.mem_map.mp inside
    exact clean t

theorem not_negated {key value : String} {u : Unit} (ok : reject_negation key value negated = .ok u) : negated = false := by
  unfold reject_negation at ok
  cases negated with
  | false => rfl
  | true => cases ok

/-- What is read from a token has the key of the token, and a value that is not longer. -/
theorem parse_parts_ok (ok : parse_parts negated (String.ofList k) v = .ok p) :
    v ≠ [] ∧ sign negated ++ k = key p ∧ (value p).Sublist v ∧ Parsed p := by
  have named {l : List Char} (same : String.ofList k = String.ofList l) : k = l := by simpa using congrArg String.toList same
  unfold parse_parts at ok
  by_cases empty : v = []
  · rw [if_pos empty] at ok
    cases ok
  rw [if_neg empty] at ok
  refine ⟨empty,?_⟩
  split at ok
  · next name =>
    obtain ⟨types,read,ok⟩ := bind_ok.mp ok
    obtain ⟨_,plain,⟨⟩⟩ := bind_ok.mp ok
    obtain ⟨some_type,shorter⟩ := comma_list_ok type_back (mapError_ok.mp read)
    rw [not_negated plain,named name]
    exact ⟨rfl,shorter,some_type⟩
  · next name =>
    obtain ⟨_,plain,⟨⟩⟩ := bind_ok.mp ok
    rw [not_negated plain,named name]
    exact ⟨rfl,commas_values v,comma_values_clean v⟩
  · next name =>
    obtain ⟨statuses,read,ok⟩ := bind_ok.mp ok
    obtain ⟨some_status,shorter⟩ := comma_list_ok status_back (mapError_ok.mp read)
    rw [named name]
    cases negated with
    | true =>
      cases ok
      exact ⟨rfl,shorter,some_status⟩
    | false =>
      cases ok
      exact ⟨rfl,shorter,some_status⟩
  · next name =>
    obtain ⟨_,plain,⟨⟩⟩ := bind_ok.mp ok
    rw [not_negated plain,named name]
    refine ⟨rfl,?_,trivial⟩
    simp [value]
  · next name =>
    obtain ⟨_,plain,ok⟩ := bind_ok.mp ok
    obtain ⟨_,dated,⟨⟩⟩ := bind_ok.mp ok
    rw [not_negated plain,named name]
    refine ⟨rfl,?_,?_⟩
    · simp [value]
    · simpa [Parsed] using dated
  · next name =>
    obtain ⟨_,plain,ok⟩ := bind_ok.mp ok
    obtain ⟨_,dated,⟨⟩⟩ := bind_ok.mp ok
    rw [not_negated plain,named name]
    refine ⟨rfl,?_,?_⟩
    · simp [value]
    · simpa [Parsed] using dated
  · next name =>
    obtain ⟨_,plain,⟨⟩⟩ := bind_ok.mp ok
    rw [not_negated plain,named name]
    refine ⟨rfl,?_,trivial⟩
    simp [value]
  · cases ok

theorem type_clean (t : ContentType) : ',' ∉ t.as_str.toList ∧ trim t.as_str.toList = t.as_str.toList := by
  cases t <;> decide

theorem status_clean (t : DocumentStatus) : ',' ∉ t.as_str.toList ∧ trim t.as_str.toList = t.as_str.toList := by
  cases t <;> decide

/-- A bare value is read as it is written. -/
theorem parse_display (parsed : Parsed p) (bare : Bare p) : parse_token (display_predicate p) = .ok p := by
  have whole : stripped (value p) = value p := stripped_eq_iff.mpr bare.2
  have colon (negated : Bool) (name : String) (no_colon : ':' ∉ name.toList) (unsigned : name.toList.head? ≠ some '-')
      (keyed : key p = sign negated ++ name.toList) : parse_token (display_predicate p) = parse_parts negated name (value p) := by
    rw [display_predicate_eq,keyed,parse_token_colon no_colon unsigned,whole,String.ofList_toList]
  have some_value := bare.1
  cases p with
  | ContentType types =>
    have back : parse_comma_list (value (.ContentType types)) ContentType.from_str = .ok types :=
      comma_list_back (fun t => by cases t <;> rfl) type_clean parsed
    rw [colon false "type" (by decide) (by decide) rfl,parse_parts,if_neg some_value]
    simp only [parse_type_predicate,back]
    rfl
  | Tag tags =>
    have back : comma_values (value (.Tag tags)) = tags := values_commas parsed.1 parsed.2
    rw [colon false "tag" (by decide) (by decide) rfl,parse_parts,if_neg some_value]
    simp only [parse_tag_predicate,back]
    rfl
  | Status statuses =>
    have back : parse_comma_list (value (.Status statuses)) DocumentStatus.from_str = .ok statuses :=
      comma_list_back (fun t => by cases t <;> rfl) status_clean parsed
    rw [colon false "status" (by decide) (by decide) rfl,parse_parts,if_neg some_value]
    simp only [parse_status_predicate,back]
    rfl
  | ExcludeStatus statuses =>
    have back : parse_comma_list (value (.ExcludeStatus statuses)) DocumentStatus.from_str = .ok statuses :=
      comma_list_back (fun t => by cases t <;> rfl) status_clean parsed
    rw [colon true "status" (by decide) (by decide) rfl,parse_parts,if_neg some_value]
    simp only [parse_status_predicate,back]
    rfl
  | Source src =>
    rw [colon false "source" (by decide) (by decide) rfl,parse_parts,if_neg some_value]
    simp [parse_simple_predicate,reject_negation,value,bind,Except.bind]
  | CreatedSince date =>
    rw [colon false "since" (by decide) (by decide) rfl,parse_parts,if_neg some_value]
    have dated : validate_date (value (.CreatedSince date)) = .ok ⟨⟩ := parsed
    simp only [parse_date_predicate,dated]
    simp [reject_negation,value,bind,Except.bind]
  | CreatedBefore date =>
    rw [colon false "before" (by decide) (by decide) rfl,parse_parts,if_neg some_value]
    have dated : validate_date (value (.CreatedBefore date)) = .ok ⟨⟩ := parsed
    simp only [parse_date_predicate,dated]
    simp [reject_negation,value,bind,Except.bind]
  | Text q =>
    rw [colon false "text" (by decide) (by decide) rfl,parse_parts,if_neg some_value]
    simp [parse_simple_predicate,reject_negation,value,bind,Except.bind]

/-- A token reads as a predicate that is not written longer. -/
theorem token_shortens {u : List Char} (ok : parse_token u = .ok p) : Parsed p ∧ (display_predicate p).Sublist u ∧
    (u = display_predicate p → Bare p) := by
  obtain ⟨negated,k,raw,rfl,read⟩ := parse_token_parts ok
  obtain ⟨some_value,keyed,shorter,parsed⟩ := parse_parts_ok read
  refine ⟨parsed,?_,fun same => ?_⟩
  · rw [display_predicate_eq,keyed]
    exact (List.Sublist.refl (key p)).append ((shorter.trans (stripped_sublist raw)).cons_cons ':')
  · rw [display_predicate_eq,keyed] at same
    have written : raw = value p := by simpa using same
    rw [written] at shorter some_value
    have whole := (stripped_sublist (value p)).antisymm shorter
    rw [whole] at some_value
    exact ⟨some_value,stripped_eq_iff.mp whole⟩

end

/-! ### Reading a filter -/

section
variable {l : List Char} {q : String} {f : SmartFilter} {us ls : List (List Char)} {ps : List FilterPredicate}

/-- The characters of texts, and what parts them. -/
def size (ls : List (List Char)) : ℕ := (ls.map (fun l => l.length + 1)).sum

theorem intercalate_size (some_part : ls ≠ []) : ([' '].intercalate ls).length + 1 = size ls := by
  induction ls with
  | nil => exact absurd rfl some_part
  | cons part rest ih =>
    cases rest with
    | nil => simp [size]
    | cons next rest =>
      have later := ih (List.cons_ne_nil next rest)
      rw [List.intercalate_cons_cons]
      simp only [List.length_append,List.length_singleton,size,List.map_cons,List.sum_cons] at later ⊢
      omega

/-- Tokens that read as predicates are at least as long as these are written. If they are not longer they are the
    predicates as they are written, which are bare. -/
theorem tokens_longer (read : us.mapM parse_token = .ok ps) : size (ps.map display_predicate) ≤ size us ∧
    (size us ≤ size (ps.map display_predicate) → us = ps.map display_predicate ∧ ∀ p ∈ ps, Bare p) := by
  induction us generalizing ps with
  | nil =>
    rw [mapM_nil_ok.mp read]
    simp
  | cons u us ih =>
    obtain ⟨p,rest,first,later,rfl⟩ := mapM_cons_ok.mp read
    obtain ⟨_,shorter,bare⟩ := token_shortens first
    obtain ⟨rest_shorter,rest_same⟩ := ih later
    have le := shorter.length_le
    simp only [size,List.map_cons,List.sum_cons] at rest_shorter rest_same ⊢
    refine ⟨by omega,fun most => ?_⟩
    have same : u = display_predicate p := (shorter.eq_of_length (by omega)).symm
    obtain ⟨rest_eq,rest_bare⟩ := rest_same (by omega)
    refine ⟨by rw [same,rest_eq],?_⟩
    intro p' inside
    rcases List.mem_cons.mp inside with rfl | later
    · exact bare same
    · exact rest_bare p' later

theorem parse_ok : parse q = .ok f ↔ (cut [] .Plain (trim q.toList)).mapM parse_token = .ok f.predicates ∧ f.predicates ≠ [] := by
  have steps : parse q = if trim q.toList = [] then .error .Empty
      else (cut [] .Plain (trim q.toList)).mapM parse_token >>= fun predicates =>
        if predicates = [] then .error .Empty else .ok ⟨predicates⟩ := rfl
  rw [steps]
  split_ifs with empty
  · rw [empty,cut_nil]
    simp only [begun,if_true,mapM_nil_ok]
    simp
  · rw [bind_ok]
    constructor
    · rintro ⟨predicates,read,made⟩
      split_ifs at made with none
      cases made
      exact ⟨read,none⟩
    · rintro ⟨read,some_predicate⟩
      exact ⟨f.predicates,read,if_neg some_predicate⟩

/-- A filter that is written starts with a key. -/
theorem display_head (ps : List FilterPredicate) (c : Char) (first : ([' '].intercalate (ps.map display_predicate)).head? = some c) :
    is_whitespace c = false := by
  have keyed (p : FilterPredicate) : ∃ c rest, key p = c :: rest ∧ is_whitespace c = false := by
    cases p <;> exact ⟨_,_,rfl,by decide⟩
  cases ps with
  | nil => cases first
  | cons p rest =>
    obtain ⟨c',more,same,plain⟩ := keyed p
    have starts : ∃ more, [' '].intercalate ((p :: rest).map display_predicate) = c' :: more := by
      cases rest with
      | nil => exact ⟨_,by rw [List.map_cons,List.map_nil,List.intercalate_singleton,display_predicate_eq,same]; rfl⟩
      | cons q rest =>
        exact ⟨_,by rw [List.map_cons,List.map_cons,List.intercalate_cons_cons,display_predicate_eq,same]; rfl⟩
    obtain ⟨more,whole⟩ := starts
    rw [whole] at first
    cases first
    exact plain

/-- A filter that is written ends with the value of the last predicate. -/
theorem display_last {p : FilterPredicate} (last : ps.getLast? = some p) (some_value : value p ≠ []) :
    ([' '].intercalate (ps.map display_predicate)).getLast? = (value p).getLast? := by
  have ends : ∃ before, [' '].intercalate (ps.map display_predicate) = before ++ value p := by
    induction ps with
    | nil => cases last
    | cons q rest ih =>
      cases rest with
      | nil =>
        cases last
        exact ⟨key q ++ [':'],by rw [List.map_cons,List.map_nil,List.intercalate_singleton,display_predicate_eq]; simp⟩
      | cons r rest =>
        obtain ⟨before,same⟩ := ih (by simpa using last)
        rw [List.map_cons] at same
        exact ⟨display_predicate q ++ [' '] ++ before,by
          rw [List.map_cons,List.map_cons,List.intercalate_cons_cons,same]; simp⟩
  obtain ⟨before,same⟩ := ends
  rw [same,List.getLast?_append_of_ne_nil _ some_value]

/-- A filter that was parsed is read back as it was iff every value is bare, all white space of the
    values is inside quotes that the tokenizer sees, and the last value does not end with white space. -/
theorem reparses_iff (ok : parse q = .ok f) : parse (display f) = .ok f ↔
    (∀ p ∈ f.predicates, Bare p) ∧ Unbroken f.predicates ∧
      ∀ p, f.predicates.getLast? = some p → ∀ c, (value p).getLast? = some c → is_whitespace c = false := by
  obtain ⟨read,some_predicate⟩ := parse_ok.mp ok
  rw [parse_ok,display,String.toList_ofList]
  generalize written : [' '].intercalate (f.predicates.map display_predicate) = text
  have sized : text.length + 1 = size (f.predicates.map display_predicate) := by
    rw [← written,intercalate_size (by simpa using some_predicate)]
  have last (bare : ∀ p ∈ f.predicates, Bare p) (p : FilterPredicate) (ends : f.predicates.getLast? = some p) :
      text.getLast? = (value p).getLast? := by
    rw [← written,display_last ends (bare p (List.mem_of_getLast? ends)).1]
  constructor
  · rintro ⟨reread,_⟩
    -- The tokens are the predicates as they are written, since there is no room for longer ones.
    have room := @cut_size [] (trim text) .Plain
    have shorter := (trim_sublist text).length_le
    obtain ⟨least,exact_fit⟩ := tokens_longer reread
    simp only [List.length_nil] at room
    obtain ⟨tokens,bare⟩ := exact_fit (by unfold size at sized ⊢; omega)
    have whole : trim text = text := (trim_sublist text).eq_of_length (by unfold size at sized least; omega)
    rw [whole,← written] at tokens
    refine ⟨bare,(cut_display some_predicate).mp tokens,fun p ends c here => ?_⟩
    exact (trim_eq_iff.mp whole).2 c ((last bare p ends).trans here)
  · rintro ⟨bare,unbroken,plain⟩
    have whole : trim text = text := by
      refine trim_eq_iff.mpr ⟨fun c first => display_head f.predicates c (written ▸ first),fun c here => ?_⟩
      obtain ⟨p,ends⟩ := Option.ne_none_iff_exists'.mp (fun none => some_predicate (List.getLast?_eq_none_iff.mp none))
      exact plain p ends c ((last bare p ends).symm.trans here)
    refine ⟨?_,some_predicate⟩
    rw [whole,← written,(cut_display some_predicate).mpr unbroken]
    refine mapM_back (fun p inside => ?_)
    obtain ⟨u,_,from_token⟩ := (mapM_mem read).1 p inside
    exact parse_display (token_shortens from_token).1 (bare p inside)

/-- A value with a space inside quotes of its own. -/
theorem reparses_iff_quoted : parse "tag:rust,async text:a:\"two words\"" = .ok ⟨[.Tag ["rust","async"],.Text "a:\"two words\""]⟩ ∧
    parse (display ⟨[.Tag ["rust","async"],.Text "a:\"two words\""]⟩) = .ok ⟨[.Tag ["rust","async"],.Text "a:\"two words\""]⟩ := by
  have ok : parse "tag:rust,async text:a:\"two words\"" = .ok ⟨[.Tag ["rust","async"],.Text "a:\"two words\""]⟩ := by decide +kernel
  refine ⟨ok,(reparses_iff ok).mpr ⟨?_,⟨⟨.Plain,by decide +kernel,by decide⟩,?_⟩,?_⟩⟩
  · intro p inside
    rcases List.mem_pair.mp inside with rfl | rfl
    · exact ⟨by decide +kernel,by decide +kernel,by decide +kernel⟩
    · exact ⟨by decide +kernel,by decide +kernel,by decide +kernel⟩
  · show (TokenMode.AfterColon.keeps (value (.Text "a:\"two words\""))).isSome
    decide +kernel
  · intro p ends c last
    have quote : (value (.Text "a:\"two words\"")).getLast? = some '"' := by decide +kernel
    cases ends
    cases quote.symm.trans last
    decide

/-- A quoted value with a space is written without its quotes, and is not read back. -/
theorem reparse_fails : parse "text:\"hello world\"" = .ok ⟨[.Text "hello world"]⟩ ∧
    parse (display ⟨[.Text "hello world"]⟩) = .error (.MissingSeparator "world") := by
  decide +kernel

end

end Pergamon.SmartFilter
