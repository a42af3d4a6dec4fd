import Mathlib.Data.Prod.Lex
import Mathlib.Data.String.Basic
import Pergamon.Canonical
import Pergamon.QueryPairs

/-!
What canonical urls tell apart. The pairs of a query are decoded and written back as they are, and a
slash at the end is cut off whatever it belongs to. So a canonical url is its own canonical url, and is
the same url as the one that it was made of, iff the pairs that are kept hold no separators, no plus
signs, no escapes and nothing that is dropped, and the slash that is cut off ends a path
(`canonical_form`).
-/
namespace Pergamon
open QueryPairs

/-! ### The url crate -/

/-- `char::is_ascii_hexdigit` -/
def is_ascii_hexdigit (c : Char) : Bool := c.isDigit || ('a' ≤ c && c ≤ 'f') || ('A' ≤ c && c ≤ 'F')

/-- Two hexadecimal digits stand after a percent sign. -/
def HasEscape (text : List Char) : Prop :=
  ∃ a b h l, text = a ++ '%' :: h :: l :: b ∧ is_ascii_hexdigit h = true ∧ is_ascii_hexdigit l = true

/-- How characters are stored in a query, and how a part of a query is decoded. Separators and slashes are
    stored as they are and nothing else is stored as one. Where nothing is dropped and there are no escapes
    before, what is stored is decoded again, with blanks for plus signs; otherwise less is. -/
structure QueryCoding where
  escape : Char → List Char
  decode : List Char → List Char
  escape_amp : ∀ c, if c = '&' then escape c = ['&'] else '&' ∉ escape c
  escape_eq : ∀ c, if c = '=' then escape c = ['='] else '=' ∉ escape c
  escape_slash : ∀ c, if c = '/' then escape c = ['/'] else (escape c).getLast? ≠ some '/'
  decode_plain : ∀ text : List Char, (∀ c ∈ text, escape c ≠ []) → ¬ HasEscape text →
    decode (text.flatMap escape) = text.map (fun c => if c = '+' then ' ' else c)
  decode_less : ∀ text : List Char, ¬ ((∀ c ∈ text, escape c ≠ []) ∧ ¬ HasEscape text) →
    (decode (text.flatMap escape)).length < text.length

namespace Url

/-- A url that is fetched from the web. -/
def web (u : Url) : Prop := u.scheme = "http" ∨ u.scheme = "https"

/-- The url whose text is shorter by the last character. -/
def shortened (u : Url) : Url :=
  match u.query with
  | none => { u with path := String.ofList u.path.toList.dropLast }
  | some query => { u with query := some (String.ofList query.toList.dropLast) }

end Url

/-- What the url crate documents, for urls of the form that it parses to: the pairs of a query, the query
    that is stored, the text of a url, and that such a url is read again from its text. -/
structure UrlCrate.Documented [UrlCrate] (coding : QueryCoding) (authority : String → String → String → Option ℕ → List Char)
    (normal : Url → Prop) : Prop where
  pairs : ∀ query : String, UrlCrate.query_pairs query = ((query.toList.splitOn '&').filter (fun part => decide (part ≠ []))).map
    (fun part => (String.ofList (coding.decode (cut '=' part).1),String.ofList (coding.decode (cut '=' part).2)))
  stored : ∀ text : String, UrlCrate.stored_query text = String.ofList (text.toList.flatMap coding.escape)
  parsed : ∀ {raw u}, UrlCrate.parse raw = .ok u → normal u
  changed : ∀ {u : Url} {query : Option String}, normal u → (∀ q ∈ query, ∃ text, q = UrlCrate.stored_query text) →
    normal { u with port := if u.is_default_port then none else u.port, query := query, fragment := none }
  shortened : ∀ {u : Url}, normal u → u.web → u.fragment = none → (UrlCrate.to_string u).toList.getLast? = some '/' → u.path ≠ "/" →
    normal u.shortened
  text : ∀ {u : Url}, normal u → u.fragment = none → (UrlCrate.to_string u).toList =
    authority u.scheme u.credentials u.host u.port ++ u.path.toList ++ u.query.elim [] (fun query => '?' :: query.toList)
  rooted : ∀ {u : Url}, normal u → u.web → u.path.toList.head? = some '/'
  reparsed : ∀ {u : Url}, normal u → u.fragment = none → UrlCrate.parse (UrlCrate.to_string u) = .ok u

namespace QueryCoding
variable (coding : QueryCoding)

theorem plain_or_less (text : List Char) : ((coding.decode (text.flatMap coding.escape)).length = text.length ↔
    (∀ c ∈ text, coding.escape c ≠ []) ∧ ¬ HasEscape text) ∧ (coding.decode (text.flatMap coding.escape)).length ≤ text.length := by
  by_cases plain : (∀ c ∈ text, coding.escape c ≠ []) ∧ ¬ HasEscape text
  · have same : (coding.decode (text.flatMap coding.escape)).length = text.length := by
      rw [coding.decode_plain text plain.1 plain.2,List.length_map]
    exact ⟨iff_of_true same plain,same.le⟩
  · have less := coding.decode_less text plain
    exact ⟨iff_of_false less.ne plain,less.le⟩

/-- The pairs of a query, read through what is stored. -/
def reader : Reader Char where
  amp := '&'
  eq := '='
  plus := '+'
  apart := by decide
  plain c := if c = '+' then ' ' else c
  plain_ne c := by
    split_ifs with plus
    · decide
    · exact plus
  plain_self c other := if_neg other
  decode part := coding.decode (part.flatMap coding.escape)
  decode_le part := (coding.plain_or_less part).2
  decode_clear part clear := by
    obtain ⟨kept,free⟩ := (coding.plain_or_less part).1.mp clear
    exact coding.decode_plain part kept free
  shown part := decide (part.flatMap coding.escape ≠ [])
  shown_nil := rfl
  shown_clear part some_part key value := by
    have kept := ((coding.plain_or_less _).1.mp key).1
    refine decide_eq_true (fun empty => ?_)
    cases part with
    | nil => exact some_part rfl
    | cons c part =>
      have dropped : coding.escape c = [] := List.flatMap_eq_nil_iff.mp empty c List.mem_cons_self
      have cuts := coding.escape_eq c
      split_ifs at cuts with same
      · rw [cuts] at dropped
        cases dropped
      · refine kept c ?_ dropped
        simp [cut,same]

variable {coding} {text : List Char}

/-- What is stored is split where the text is. -/
theorem splitOn_stored (text : List Char) :
    (text.flatMap coding.escape).splitOn '&' = (text.splitOn '&').map (fun part => part.flatMap coding.escape) := by
  have prepend (free more : List Char) (apart : '&' ∉ free) : (free ++ more).splitOn '&' = (more.splitOn '&').modifyHead (free ++ ·) := by
    induction free with
    | nil =>
      rw [List.nil_append]
      cases more.splitOn '&' <;> rfl
    | cons c free ih =>
      rw [List.mem_cons,not_or] at apart
      rw [List.cons_append,List.splitOn_cons_eq_if_modifyHead,if_neg (by simpa using Ne.symm apart.1),ih apart.2]
      cases more.splitOn '&' <;> rfl
  induction text with
  | nil => rfl
  | cons c text ih =>
    have amp := coding.escape_amp c
    rw [List.flatMap_cons,List.splitOn_cons_eq_if_modifyHead]
    by_cases same : c = '&'
    · rw [if_pos same] at amp
      rw [amp,List.singleton_append,List.splitOn_cons_eq_if_modifyHead,ih]
      simp [same]
    · rw [if_neg same] at amp
      rw [prepend _ _ amp,ih,if_neg (by simpa using same)]
      cases text.splitOn '&' with
      | nil => rfl
      | cons first rest => simp

/-- What is stored of a part is cut where the part is. -/
theorem cut_stored (part : List Char) : cut '=' (part.flatMap coding.escape) =
    ((cut '=' part).1.flatMap coding.escape,(cut '=' part).2.flatMap coding.escape) := by
  induction part with
  | nil => rfl
  | cons c part ih =>
    have cuts := coding.escape_eq c
    rw [List.flatMap_cons]
    by_cases same : c = '='
    · subst same
      rw [if_pos rfl] at cuts
      rw [cuts]
      simp [cut]
    · rw [if_neg same] at cuts
      have free : ∀ d ∈ coding.escape c, decide (d ≠ '=') = true := fun d inside => decide_eq_true (fun here => cuts (here ▸ inside))
      have key := congrArg Prod.fst ih
      have value := congrArg Prod.snd ih
      unfold cut at key value ⊢
      dsimp only at key value ⊢
      rw [List.takeWhile_append_of_pos free,List.dropWhile_append_of_pos free,key,value]
      simp [same]

end QueryCoding

/-- A pair of texts. -/
def as_texts (pair : List Char × List Char) : String × String := (String.ofList pair.1,String.ofList pair.2)

def as_chars (pair : String × String) : List Char × List Char := (pair.1.toList,pair.2.toList)

@[simp] theorem as_texts_chars (pair : String × String) : as_texts (as_chars pair) = pair := by simp [as_texts,as_chars]

@[simp] theorem as_chars_texts (pair : List Char × List Char) : as_chars (as_texts pair) = pair := by simp [as_texts,as_chars]

namespace Url
variable [UrlCrate] [Unicode]

/-- The pairs that are kept, in order. -/
def sorted_pairs (u : Url) : List (String × String) := u.query_pairs.insertionSort pair_le

/-- The query that is written back, before it is stored. -/
def joined (u : Url) : List Char := join '&' '=' (u.sorted_pairs.map as_chars)

/-- The canonical text of a url. -/
def canonical (u : Url) : String :=
  let result := UrlCrate.to_string u.stripped
  if result.toList.getLast? = some '/' ∧ u.path ≠ "/" then String.ofList result.toList.dropLast else result

/-- The url that the canonical text is read as. -/
def left (u : Url) : Url :=
  if (UrlCrate.to_string u.stripped).toList.getLast? = some '/' ∧ u.path ≠ "/" then u.stripped.shortened else u.stripped

omit [UrlCrate] [Unicode] in
/-- The port that is asked, if none is given. -/
def effective_port (u : Url) : ℕ := u.port.getD (if u.scheme = "http" then 80 else 443)

omit [UrlCrate] [Unicode] in
/-- Paths that are the same, or that one slash at the end tells apart. -/
def SamePath (p q : String) : Prop := p.toList = q.toList ∨ p.toList = q.toList ++ ['/'] ∨ q.toList = p.toList ++ ['/']

/-- Urls of the same page. -/
structure SamePage (u v : Url) : Prop where
  scheme : u.scheme = v.scheme
  host : u.host = v.host
  port : u.effective_port = v.effective_port
  path : SamePath u.path v.path
  pairs : u.query_pairs.Perm v.query_pairs

/-- The canonical text is the canonical text of itself, and stands for the same page. -/
def Settles (raw : String) (u : Url) : Prop :=
  ∃ r w, canonicalize_url raw = .ok r ∧ canonicalize_url r = .ok r ∧ UrlCrate.parse r = .ok w ∧ w.SamePage u

/-- The pairs that are kept are read as they are written, and a slash that is cut off ends a path that
    does not end with two, or that is only these two. -/
structure Plain (u : Url) (coding : QueryCoding) : Prop where
  written : ∀ pair ∈ u.query_pairs, coding.reader.Written (as_chars pair)
  unslashed : u.query_pairs ≠ [] → u.path ≠ "/" → u.joined.getLast? ≠ some '/'
  once : u.query_pairs = [] → u.path ≠ "//" → ∀ p, u.path.toList ≠ p ++ ['/','/']

variable {coding : QueryCoding} {authority : String → String → String → Option ℕ → List Char} {normal : Url → Prop}
variable {raw raw' : String} {u v w : Url}

/-! ### The text -/

theorem canonicalize_ok (parsed : UrlCrate.parse raw = .ok u) (web : u.web) : canonicalize_url raw = .ok u.canonical := by
  unfold canonicalize_url
  rw [parsed]
  exact if_pos web

theorem sorted_perm (u : Url) : u.sorted_pairs.Perm u.query_pairs := List.perm_insertionSort pair_le u.query_pairs

omit [UrlCrate] [Unicode] in
theorem write_chars (pair : String × String) : (write_pair pair).toList = write '=' (as_chars pair) := by
  unfold write_pair write as_chars
  by_cases empty : pair.2 = ""
  · rw [if_pos empty,if_pos (by simp [empty])]
  · rw [if_neg empty,if_neg (by simpa using empty)]
    simp

theorem joined_eq (u : Url) : ("&".intercalate (u.sorted_pairs.map write_pair)).toList = u.joined := by
  have amp : "&".toList = ['&'] := by decide
  rw [String.toList_intercalate,amp,joined,join,List.map_map,List.map_map]
  exact congrArg _ (List.map_congr_left (fun pair _ => write_chars pair))

theorem kept_query_none (none_kept : u.query_pairs = []) : u.stripped.query = none := if_pos none_kept

theorem kept_query_some (docs : UrlCrate.Documented coding authority normal) (some_kept : u.query_pairs ≠ []) :
    u.stripped.query = some (String.ofList (u.joined.flatMap coding.escape)) := by
  have stored := docs.stored ("&".intercalate (u.sorted_pairs.map write_pair))
  rw [joined_eq] at stored
  exact (if_neg some_kept).trans (congrArg some stored)

theorem stripped_normal (docs : UrlCrate.Documented coding authority normal) (form : normal u) : normal u.stripped := by
  refine docs.changed form ?_
  intro query there
  have kept : u.kept_query = some query := there
  unfold kept_query at kept
  split_ifs at kept
  exact ⟨_,(Option.some.inj kept).symm⟩

omit [Unicode] in
/-- What is read of a text that is stored as a query. -/
theorem pairs_stored (docs : UrlCrate.Documented coding authority normal) (text : List Char) :
    UrlCrate.query_pairs (String.ofList (text.flatMap coding.escape)) = (coding.reader.reading text).map as_texts := by
  rw [docs.pairs,String.toList_ofList,QueryCoding.splitOn_stored,List.filter_map,List.map_map]
  unfold Reader.reading
  rw [List.map_map]
  refine List.map_congr_left (fun part _ => ?_)
  rw [Function.comp_apply,QueryCoding.cut_stored]
  rfl

/-- The pairs that are kept of a text that is stored as a query. -/
theorem query_pairs_stored (docs : UrlCrate.Documented coding authority normal) {text : List Char}
    (query : u.query = some (String.ofList (text.flatMap coding.escape))) :
    u.query_pairs = ((coding.reader.reading text).filter (fun pair => decide (Unicode.to_lowercase (as_texts pair).1 ∉ TRACKING_PARAMS))).map as_texts := by
  rw [query_pairs,decoded_pairs,query,Option.elim_some,pairs_stored docs,List.filter_map]
  rfl

/-! ### The text that is left -/

omit [Unicode] in
/-- A url that is shortened has the shorter text. -/
theorem shortened_text (docs : UrlCrate.Documented coding authority normal) (form : normal w) (web : w.web) (fragment : w.fragment = none)
    (slash : (UrlCrate.to_string w).toList.getLast? = some '/') (path : w.path ≠ "/") :
    (UrlCrate.to_string w.shortened).toList = (UrlCrate.to_string w).toList.dropLast := by
  have form' := docs.shortened form web fragment slash path
  have rooted := docs.rooted form web
  have text := docs.text form fragment
  obtain ⟨scheme,credentials,host,port,p,query,f⟩ := w
  have some_path : p.toList ≠ [] := by
    intro empty
    rw [empty] at rooted
    cases rooted
  cases query with
  | none =>
    have text' := docs.text form' fragment
    simp only [shortened,Option.elim_none,List.append_nil,String.toList_ofList] at text text' ⊢
    rw [text,text',List.dropLast_append_of_ne_nil some_path]
  | some q =>
    have text' := docs.text form' fragment
    simp only [shortened,Option.elim_some,String.toList_ofList] at text text' ⊢
    have some_query : q.toList ≠ [] := by
      intro empty
      rw [text,empty,List.getLast?_append,List.getLast?_singleton] at slash
      cases slash
    rw [text,text',List.dropLast_append_of_ne_nil (List.cons_ne_nil _ _),List.dropLast_cons_of_ne_nil some_query]

theorem stripped_web (web : u.web) : u.stripped.web := web

theorem left_normal (docs : UrlCrate.Documented coding authority normal) (form : normal u) (web : u.web) :
    normal u.left ∧ u.left.fragment = none ∧ u.left.web := by
  have stripped := stripped_normal docs form
  unfold left
  split_ifs with slash
  · refine ⟨docs.shortened stripped (stripped_web web) rfl slash.1 slash.2,?_,?_⟩
    · unfold shortened
      split <;> rfl
    · unfold shortened
      split <;> exact web
  · exact ⟨stripped,rfl,web⟩

theorem left_text (docs : UrlCrate.Documented coding authority normal) (form : normal u) (web : u.web) :
    UrlCrate.to_string u.left = u.canonical := by
  unfold left canonical
  dsimp only
  split_ifs with slash
  · refine String.toList_injective ?_
    rw [shortened_text docs (stripped_normal docs form) (stripped_web web) rfl slash.1 slash.2,String.toList_ofList]
  · rfl

theorem parse_canonical (docs : UrlCrate.Documented coding authority normal) (form : normal u) (web : u.web) :
    UrlCrate.parse u.canonical = .ok u.left := by
  obtain ⟨form',fragment,-⟩ := left_normal docs form web
  rw [← left_text docs form web]
  exact docs.reparsed form' fragment

theorem settles_iff (docs : UrlCrate.Documented coding authority normal) (parsed : UrlCrate.parse raw = .ok u) (web : u.web) :
    Settles raw u ↔ u.left.canonical = u.canonical ∧ u.left.SamePage u := by
  have form := docs.parsed parsed
  have again := parse_canonical docs form web
  have first := canonicalize_ok parsed web
  have second := canonicalize_ok again (left_normal docs form web).2.2
  constructor
  · rintro ⟨r,w,one,two,read,same⟩
    obtain rfl : u.canonical = r := Except.ok.inj (first.symm.trans one)
    obtain rfl : u.left = w := Except.ok.inj (again.symm.trans read)
    exact ⟨Except.ok.inj (second.symm.trans two),same⟩
  · rintro ⟨same,page⟩
    exact ⟨u.canonical,u.left,first,second.trans (congrArg _ same),again,page⟩

/-- What a canonical url keeps of a url. -/
theorem left_keeps (u : Url) : u.left.scheme = u.scheme ∧ u.left.host = u.host ∧ u.left.port = u.stripped.port := by
  unfold left shortened
  split_ifs
  · split <;> exact ⟨rfl,rfl,rfl⟩
  · exact ⟨rfl,rfl,rfl⟩

theorem left_port (u : Url) : u.left.effective_port = u.effective_port := by
  obtain ⟨scheme,-,port⟩ := left_keeps u
  rw [effective_port,port,scheme,effective_port,stripped]
  dsimp only
  split_ifs with default_port http http
  · unfold is_default_port at default_port
    rcases of_decide_eq_true default_port with ⟨-,there⟩ | ⟨https,-⟩
    · rw [there]
      rfl
    · rw [http] at https
      simp at https
  · unfold is_default_port at default_port
    rcases of_decide_eq_true default_port with ⟨here,-⟩ | ⟨-,there⟩
    · exact absurd here http
    · rw [there]
      rfl
  · rfl
  · rfl

/-- A url without a default port or a fragment, and with a query that is kept as it is, is left as it is. -/
theorem stripped_left (w : Url) (scheme : w.scheme = u.scheme) (port : w.port = u.stripped.port) (fragment : w.fragment = none)
    (query : w.kept_query = w.query) : w.stripped = w := by
  have ports : (if w.is_default_port then none else w.port) = w.port := by
    split_ifs with default_port
    · rw [port,stripped]
      dsimp only
      split_ifs with before
      · rfl
      · refine absurd ?_ before
        unfold is_default_port at default_port ⊢
        rw [port,scheme,stripped] at default_port
        dsimp only at default_port
        rwa [if_neg before] at default_port
    · rfl
  rw [stripped,ports,query]
  cases w
  cases fragment
  rfl

omit [Unicode] in
theorem text_last_none (docs : UrlCrate.Documented coding authority normal) (form : normal w) (web : w.web) (fragment : w.fragment = none)
    (query : w.query = none) : w.path.toList ≠ [] ∧ (UrlCrate.to_string w).toList.getLast? = w.path.toList.getLast? := by
  have rooted := docs.rooted form web
  have some_path : w.path.toList ≠ [] := by
    intro empty
    rw [empty] at rooted
    cases rooted
  refine ⟨some_path,?_⟩
  rw [docs.text form fragment,query,Option.elim_none,List.append_nil,List.getLast?_append_of_ne_nil _ some_path]

omit [Unicode] in
theorem text_last_some (docs : UrlCrate.Documented coding authority normal) (form : normal w) (fragment : w.fragment = none)
    {text : List Char} (query : w.query = some (String.ofList text)) :
    (UrlCrate.to_string w).toList.getLast? = some '/' ↔ text.getLast? = some '/' := by
  rw [docs.text form fragment,query,Option.elim_some,String.toList_ofList,List.getLast?_append_of_ne_nil _ (List.cons_ne_nil _ _)]
  cases text with
  | nil => simp
  | cons c text => rw [List.getLast?_cons_cons]

omit [UrlCrate] [Unicode] in
/-- A slash at the end of a list. -/
theorem getLast_slash {l : List Char} (slash : l.getLast? = some '/') : l = l.dropLast ++ ['/'] := by
  obtain ⟨l',rfl⟩ := List.getLast?_eq_some_iff.mp slash
  rw [List.dropLast_concat]

theorem left_page (u : Url) (path : SamePath u.left.path u.path) : u.left.SamePage u ↔ u.left.query_pairs.Perm u.query_pairs := by
  obtain ⟨scheme,host,-⟩ := left_keeps u
  exact ⟨fun page => page.pairs,fun pairs => ⟨scheme,host,left_port u,path,pairs⟩⟩

/-- The path of a canonical url, which has lost a slash where the text did and there is no query. -/
theorem left_path (docs : UrlCrate.Documented coding authority normal) (form : normal u) (web : u.web) :
    u.left.path = u.path ∨ u.path.toList = u.left.path.toList ++ ['/'] := by
  unfold left
  split_ifs with slash
  · unfold shortened
    split
    · next query =>
      refine .inr ?_
      have last := (text_last_none docs (stripped_normal docs form) web rfl query).2
      rw [slash.1] at last
      dsimp only
      rw [String.toList_ofList]
      exact getLast_slash last.symm
    · exact .inl rfl
  · exact .inl rfl

theorem left_same_path (docs : UrlCrate.Documented coding authority normal) (form : normal u) (web : u.web) : SamePath u.left.path u.path := by
  rcases left_path docs form web with same | longer
  · exact .inl (congrArg String.toList same)
  · exact .inr (.inr longer)

/-- Where no pairs are kept, a canonical url settles unless its path ended with two slashes. -/
theorem settles_pathless (docs : UrlCrate.Documented coding authority normal) (form : normal u) (web : u.web) (none_kept : u.query_pairs = []) :
    u.left.canonical = u.canonical ∧ u.left.SamePage u ↔ (u.path ≠ "//" → ∀ p, u.path.toList ≠ p ++ ['/','/']) := by
  obtain ⟨form',fragment,web'⟩ := left_normal docs form web
  obtain ⟨scheme,-,port⟩ := left_keeps u
  have stripped_query : u.stripped.query = none := kept_query_none none_kept
  have query : u.left.query = none := by
    unfold left shortened
    split_ifs
    · rw [stripped_query]
    · exact stripped_query
  have pairs : u.left.query_pairs = [] := by rw [query_pairs,decoded_pairs,query]; rfl
  have again := stripped_left u.left scheme port fragment ((kept_query_none pairs).trans query.symm)
  have page : u.left.SamePage u := by
    rw [left_page u (left_same_path docs form web),pairs,none_kept]
  rw [and_iff_left page]
  -- the text is cut once more iff the path that is left ends with a slash
  obtain ⟨some_path,last⟩ := text_last_none docs form' web' fragment query
  have settled : u.left.canonical = u.canonical ↔ ¬ (u.left.path.toList.getLast? = some '/' ∧ u.left.path ≠ "/") := by
    rw [canonical,again,left_text docs form web,← left_text docs form web,last]
    split_ifs with slash
    · refine iff_of_false ?_ (not_not_intro slash)
      intro same
      have lengths := congrArg (fun text => text.toList.length) same
      have nonempty : (UrlCrate.to_string u.left).toList ≠ [] := by
        intro empty
        rw [empty,slash.1] at last
        cases last
      have positive := List.length_pos_iff.mpr nonempty
      rw [String.toList_ofList,List.length_dropLast] at lengths
      omega
    · exact iff_of_true rfl slash
  rw [settled]
  have whole := text_last_none docs (stripped_normal docs form) web rfl stripped_query
  by_cases pops : (UrlCrate.to_string u.stripped).toList.getLast? = some '/' ∧ u.path ≠ "/"
  · have shorter : u.path.toList = u.left.path.toList ++ ['/'] := by
      have end_slash := pops.1
      rw [whole.2] at end_slash
      have left_is : u.left.path = String.ofList u.path.toList.dropLast := by
        unfold left shortened
        rw [if_pos pops,stripped_query]
        rfl
      rw [left_is,String.toList_ofList]
      exact getLast_slash end_slash
    constructor
    · intro once two p ends
      rw [shorter,show p ++ ['/','/'] = (p ++ ['/']) ++ ['/'] by simp] at ends
      have inner := (List.append_inj' ends rfl).1
      refine once ⟨by rw [inner]; simp,fun root => two ?_⟩
      refine String.toList_injective ?_
      rw [shorter,root]
      decide
    · rintro once ⟨slash,root⟩
      refine once (fun two => root ?_) (u.left.path.toList.dropLast) ?_
      · refine String.toList_injective ?_
        have same := shorter
        rw [two,show ("//" : String).toList = "/".toList ++ ['/'] by decide] at same
        exact ((List.append_inj' same rfl).1).symm
      · rw [shorter,getLast_slash slash,List.dropLast_concat]
        simp
  · have left_is : u.left = u.stripped := if_neg pops
    have path : u.left.path = u.path := by rw [left_is]; rfl
    constructor
    · intro _ _ p ends
      refine pops ⟨?_,?_⟩
      · rw [whole.2]
        change u.path.toList.getLast? = _
        rw [ends]
        simp
      · intro root
        have lengths := congrArg List.length ends
        rw [root,List.length_append] at lengths
        have one : "/".toList.length = 1 := by decide
        simp only [List.length_cons,List.length_nil] at lengths
        omega
    · rintro - ⟨slash,root⟩
      rw [path] at slash root
      refine pops ⟨?_,root⟩
      rw [whole.2]
      exact slash

/-! ### Queries -/

instance : IsTrans (String × String) pair_le := ⟨fun _ _ _ one two => Prod.Lex.toLex_le_toLex.mp
  (le_trans (Prod.Lex.toLex_le_toLex.mpr one) (Prod.Lex.toLex_le_toLex.mpr two))⟩

instance : Std.Total (α := String × String) pair_le := ⟨fun a b => (le_total (toLex a) (toLex b)).imp Prod.Lex.toLex_le_toLex.mp
  Prod.Lex.toLex_le_toLex.mp⟩

/-- The pairs do not track. -/
def untracked (pair : List Char × List Char) : Bool := decide (Unicode.to_lowercase (as_texts pair).1 ∉ TRACKING_PARAMS)

omit [UrlCrate] [Unicode] in
/-- A slash that ends what is stored is the last character that is not dropped. -/
theorem stored_slash {text : List Char} (slash : (text.flatMap coding.escape).getLast? = some '/') :
    ∃ before dropped, text = before ++ '/' :: dropped ∧ (∀ c ∈ dropped, coding.escape c = []) ∧
      (text.flatMap coding.escape).dropLast = before.flatMap coding.escape := by
  induction text using List.reverseRecOn with
  | nil => cases slash
  | append_singleton text c ih =>
    rw [List.flatMap_append,List.flatMap_singleton] at slash ⊢
    by_cases drops : coding.escape c = []
    · rw [drops,List.append_nil] at slash ⊢
      obtain ⟨before,dropped,rfl,all,shorter⟩ := ih slash
      refine ⟨before,dropped ++ [c],by simp,?_,shorter⟩
      intro d inside
      rcases List.mem_append.mp inside with early | last
      · exact all d early
      · rw [List.mem_singleton.mp last]
        exact drops
    · rw [List.getLast?_append_of_ne_nil _ drops] at slash
      have stored := coding.escape_slash c
      by_cases same : c = '/'
      · rw [if_pos same] at stored
        rw [stored,List.dropLast_concat]
        exact ⟨text,[],by rw [same],nofun,rfl⟩
      · rw [if_neg same] at stored
        exact absurd slash stored

omit [UrlCrate] [Unicode] in
/-- Nothing is dropped of pairs that are read as they were written. -/
theorem join_kept {pairs : List (List Char × List Char)} (written : ∀ pair ∈ pairs, coding.reader.Written pair) :
    ∀ c ∈ join '&' '=' pairs, coding.escape c ≠ [] := by
  have amp := coding.escape_amp '&'
  have equals := coding.escape_eq '='
  rw [if_pos rfl] at amp equals
  have part (pair : List Char × List Char) (inside : pair ∈ pairs) : ∀ c ∈ write '=' pair, coding.escape c ≠ [] := by
    have key := ((coding.plain_or_less _).1.mp (written pair inside).key_clear).1
    have value := ((coding.plain_or_less _).1.mp (written pair inside).value_clear).1
    intro c there
    rw [write] at there
    split_ifs at there
    · exact key c there
    · rcases List.mem_append.mp there with first | rest
      · exact key c first
      · rcases List.mem_cons.mp rest with rfl | last
        · simp [equals]
        · exact value c last
  intro c inside
  rcases mem_join inside with rfl | ⟨pair,there,here⟩
  · simp [amp]
  · exact part pair there c here

/-- The pairs that are kept do not track. -/
theorem untracked_sorted (u : Url) : ∀ pair ∈ u.sorted_pairs.map as_chars, untracked pair = true := by
  intro pair inside
  obtain ⟨kept,there,rfl⟩ := List.mem_map.mp inside
  have held := (List.mem_filter.mp (u.sorted_perm.mem_iff.mp there)).2
  rw [untracked,as_texts_chars]
  exact held

theorem written_sorted (u : Url) : (∀ pair ∈ u.sorted_pairs.map as_chars, coding.reader.Written pair) ↔
    ∀ pair ∈ u.query_pairs, coding.reader.Written (as_chars pair) := by
  rw [List.forall_mem_map]
  exact forall_congr' (fun pair => imp_congr_left u.sorted_perm.mem_iff)

/-- The pairs of a stored text are those of a url iff they are the pairs that it writes. -/
theorem pairs_perm (docs : UrlCrate.Documented coding authority normal) {text : List Char}
    (query : w.query = some (String.ofList (text.flatMap coding.escape))) : w.query_pairs.Perm u.query_pairs ↔
      ((coding.reader.reading text).filter untracked).Perm (u.sorted_pairs.map as_chars) := by
  have kept := query_pairs_stored docs query
  have back : (u.sorted_pairs.map as_chars).map as_texts = u.sorted_pairs := by
    rw [List.map_map]
    exact (List.map_congr_left (fun pair _ => as_texts_chars pair)).trans (List.map_id _)
  change w.query_pairs = ((coding.reader.reading text).filter untracked).map as_texts at kept
  rw [kept]
  constructor
  · intro same
    have both := (same.trans u.sorted_perm.symm).map as_chars
    rw [List.map_map] at both
    have here : ((coding.reader.reading text).filter untracked).map (as_chars ∘ as_texts) = (coding.reader.reading text).filter untracked :=
      (List.map_congr_left (fun pair _ => as_chars_texts pair)).trans (List.map_id _)
    rwa [here] at both
  · intro same
    have both := same.map as_texts
    rw [back] at both
    exact both.trans u.sorted_perm

/-- Where pairs are kept, a canonical url settles iff they are read as they are written, and the text is
    not cut. -/
theorem settles_query (docs : UrlCrate.Documented coding authority normal) (form : normal u) (web : u.web) (some_kept : u.query_pairs ≠ []) :
    u.left.canonical = u.canonical ∧ u.left.SamePage u ↔
      (∀ pair ∈ u.query_pairs, coding.reader.Written (as_chars pair)) ∧ (u.path ≠ "/" → u.joined.getLast? ≠ some '/') := by
  have stripped_query := kept_query_some docs some_kept
  have ends := text_last_some docs (stripped_normal docs form) rfl stripped_query
  by_cases pops : (UrlCrate.to_string u.stripped).toList.getLast? = some '/' ∧ u.path ≠ "/"
  · obtain ⟨before,dropped,whole,drops,shorter⟩ := stored_slash (ends.mp pops.1)
    have query : u.left.query = some (String.ofList (before.flatMap coding.escape)) := by
      unfold left shortened
      rw [if_pos pops,stripped_query]
      dsimp only
      rw [String.toList_ofList,shorter]
    refine iff_of_false ?_ ?_
    · rintro ⟨-,page⟩
      have same := (pairs_perm docs query).mp page.pairs
      exact coding.reader.reading_short untracked (show '/' ≠ '&' by decide) (show '/' ≠ '=' by decide) whole same
    · rintro ⟨written,unslashed⟩
      have all := join_kept ((written_sorted u).mpr written)
      have none_dropped : dropped = [] := by
        rw [List.eq_nil_iff_forall_not_mem]
        intro c inside
        refine all c ?_ (drops c inside)
        change c ∈ u.joined
        rw [whole]
        exact List.mem_append_right _ (List.mem_cons_of_mem _ inside)
      refine unslashed pops.2 ?_
      rw [whole,none_dropped]
      simp
  · have left_is : u.left = u.stripped := if_neg pops
    have query : u.left.query = some (String.ofList (u.joined.flatMap coding.escape)) := by
      rw [left_is]
      exact stripped_query
    have page : u.left.SamePage u ↔ ∀ pair ∈ u.query_pairs, coding.reader.Written (as_chars pair) := by
      rw [left_page u (left_same_path docs form web),pairs_perm docs query,← written_sorted]
      exact coding.reader.reads_back untracked u.untracked_sorted
    constructor
    · rintro ⟨-,same⟩
      refine ⟨page.mp same,fun path slash => pops ⟨ends.mpr ?_,path⟩⟩
      have stored := coding.escape_slash '/'
      rw [if_pos rfl] at stored
      rw [getLast_slash slash,List.flatMap_append,List.flatMap_singleton,stored]
      simp
    · rintro ⟨written,-⟩
      refine ⟨?_,page.mpr written⟩
      -- the pairs are read in the order in which they were written
      have read : u.left.query_pairs = u.sorted_pairs := by
        have kept := query_pairs_stored docs query
        change u.left.query_pairs = ((coding.reader.reading (join coding.reader.amp coding.reader.eq (u.sorted_pairs.map as_chars))).filter
          untracked).map as_texts at kept
        rw [kept,Reader.reading_join ((written_sorted u).mpr written),List.filter_eq_self.mpr u.untracked_sorted,List.map_map]
        exact (List.map_congr_left (fun pair _ => as_texts_chars pair)).trans (List.map_id _)
      have sorted : u.left.sorted_pairs = u.sorted_pairs := by
        rw [sorted_pairs,read]
        exact (List.pairwise_insertionSort pair_le u.query_pairs).insertionSort_eq
      have some_left : u.left.query_pairs ≠ [] := by
        rw [read]
        intro empty
        exact some_kept (List.perm_nil.mp (empty ▸ u.sorted_perm.symm))
      have again : u.left.kept_query = u.left.query := by
        refine (kept_query_some docs some_left).trans ?_
        rw [query,joined,sorted,joined]
      obtain ⟨scheme,-,port⟩ := left_keeps u
      have fragment : u.left.fragment = none := by rw [left_is]; rfl
      have path : u.left.path = u.path := by rw [left_is]; rfl
      rw [canonical,stripped_left u.left scheme port fragment again,path,left_is]
      rfl

/-! ### The normal form -/

theorem settles_plain (docs : UrlCrate.Documented coding authority normal) (parsed : UrlCrate.parse raw = .ok u) (web : u.web) :
    Settles raw u ↔ u.Plain coding := by
  have form := docs.parsed parsed
  rw [settles_iff docs parsed web]
  by_cases none_kept : u.query_pairs = []
  · rw [settles_pathless docs form web none_kept]
    constructor
    · intro once
      refine ⟨?_,fun some_kept => absurd none_kept some_kept,fun _ => once⟩
      rw [none_kept]
      exact nofun
    · exact fun plain => plain.once none_kept
  · rw [settles_query docs form web none_kept]
    exact ⟨fun both => ⟨both.1,fun _ => both.2,fun empty => absurd empty none_kept⟩,fun plain => ⟨plain.written,plain.unslashed none_kept⟩⟩

end Url

/-! ### One site -/

def hex_digit_value (c : Char) : ℕ := if c.isDigit then c.toNat - 48 else if 'a' ≤ c then c.toNat - 87 else c.toNat - 55

/-- Percent escapes and plus signs are decoded. -/
def form_decode : List Char → List Char
  | '%' :: h :: l :: rest =>
    if is_ascii_hexdigit h && is_ascii_hexdigit l then
      let code := 16 * hex_digit_value h + hex_digit_value l
      (if code < 128 then Char.ofNat code else '\uFFFD') :: form_decode rest
    else '%' :: form_decode (h :: l :: rest)
  | c :: rest => (if c = '+' then ' ' else c) :: form_decode rest
  | [] => []

/-- Blanks and number signs are escaped in a query. -/
def form_escape (c : Char) : List Char := if c = ' ' then ['%','2','0'] else if c = '#' then ['%','2','3'] else [c]

theorem form_escape_hex {c : Char} (hex : is_ascii_hexdigit c = true) : form_escape c = [c] := by
  unfold form_escape
  rw [if_neg,if_neg]
  · rintro rfl
    revert hex
    decide
  · rintro rfl
    revert hex
    decide

/-- What begins with a hexadecimal digit was stored of a text that does. -/
theorem form_stored_hex {text rest : List Char} {h : Char} (hex : is_ascii_hexdigit h = true)
    (stored : text.flatMap form_escape = h :: rest) : ∃ more, text = h :: more ∧ more.flatMap form_escape = rest := by
  cases text with
  | nil => cases stored
  | cons c more =>
    rw [List.flatMap_cons] at stored
    have percent : ¬ is_ascii_hexdigit '%' = true := by decide
    unfold form_escape at stored
    split_ifs at stored
    · exact absurd ((List.cons.inj stored).1 ▸ hex) percent
    · exact absurd ((List.cons.inj stored).1 ▸ hex) percent
    · obtain ⟨rfl,same⟩ := List.cons.inj stored
      exact ⟨more,rfl,same⟩

theorem form_decode_cons {c : Char} (percent : c ≠ '%') (rest : List Char) :
    form_decode (c :: rest) = (if c = '+' then ' ' else c) :: form_decode rest := by
  rw [form_decode]
  rintro _ _ _ rfl
  exact absurd rfl percent

/-- What is stored begins with an escape that was there before, or with one character. -/
theorem form_decode_step (c : Char) (text : List Char) : (∃ h l more d, c = '%' ∧ text = h :: l :: more ∧ is_ascii_hexdigit h = true ∧
      is_ascii_hexdigit l = true ∧ form_decode ((c :: text).flatMap form_escape) = d :: form_decode (more.flatMap form_escape)) ∨
    (HasEscape (c :: text) → HasEscape text) ∧
      form_decode ((c :: text).flatMap form_escape) = (if c = '+' then ' ' else c) :: form_decode (text.flatMap form_escape) := by
  have later (escapes : HasEscape (c :: text)) (other : ¬ ∃ h l more, c = '%' ∧ text = h :: l :: more ∧ is_ascii_hexdigit h = true ∧
      is_ascii_hexdigit l = true) : HasEscape text := by
    obtain ⟨a,b,h,l,whole,one,two⟩ := escapes
    cases a with
    | nil =>
      obtain ⟨same,rest⟩ := List.cons.inj whole
      exact absurd ⟨h,l,b,same,rest,one,two⟩ other
    | cons d a => exact ⟨a,b,h,l,(List.cons.inj whole).2,one,two⟩
  by_cases percent : c = '%'
  · subst percent
    by_cases escaped : ∃ h l more, text = h :: l :: more ∧ is_ascii_hexdigit h = true ∧ is_ascii_hexdigit l = true
    · obtain ⟨h,l,more,rfl,one,two⟩ := escaped
      refine .inl ⟨h,l,more,if 16 * hex_digit_value h + hex_digit_value l < 128 then Char.ofNat (16 * hex_digit_value h +
        hex_digit_value l) else '\uFFFD',rfl,rfl,one,two,?_⟩
      simp only [List.flatMap_cons,form_escape_hex one,form_escape_hex two]
      change form_decode ('%' :: h :: l :: more.flatMap form_escape) = _
      rw [form_decode,if_pos (by simp [one,two])]
    · refine .inr ⟨fun escapes => later escapes (fun ⟨h,l,more,_,same,one,two⟩ => escaped ⟨h,l,more,same,one,two⟩),?_⟩
      rw [List.flatMap_cons]
      change form_decode ('%' :: text.flatMap form_escape) = _
      rcases stored : text.flatMap form_escape with _ | ⟨h,_ | ⟨l,rest⟩⟩
      · rfl
      · rfl
      · rw [form_decode,if_neg,if_neg (by decide)]
        intro both
        rw [Bool.and_eq_true] at both
        obtain ⟨more,rfl,stored'⟩ := form_stored_hex both.1 stored
        obtain ⟨more',rfl,-⟩ := form_stored_hex both.2 stored'
        exact escaped ⟨h,l,more',rfl,both⟩
  · refine .inr ⟨fun escapes => later escapes (fun ⟨h,l,more,same,_⟩ => percent same),?_⟩
    rw [List.flatMap_cons]
    by_cases blank : c = ' '
    · subst blank
      change form_decode ('%' :: '2' :: '0' :: text.flatMap form_escape) = _
      rw [form_decode,if_pos (by decide)]
      rfl
    · by_cases number : c = '#'
      · subst number
        change form_decode ('%' :: '2' :: '3' :: text.flatMap form_escape) = _
        rw [form_decode,if_pos (by decide)]
        rfl
      · rw [form_escape,if_neg blank,if_neg number]
        exact form_decode_cons percent _

/-- What is stored is decoded to what it was stored of, with blanks for plus signs, or it is shorter. -/
theorem form_decoded (text : List Char) : (form_decode (text.flatMap form_escape)).length ≤ text.length ∧
    (HasEscape text → (form_decode (text.flatMap form_escape)).length < text.length) ∧
    (¬ HasEscape text → form_decode (text.flatMap form_escape) = text.map (fun c => if c = '+' then ' ' else c)) := by
  cases text with
  | nil =>
    refine ⟨le_rfl,?_,fun _ => rfl⟩
    rintro ⟨a,b,h,l,whole,-⟩
    cases a <;> cases whole
  | cons c text =>
    rcases form_decode_step c text with ⟨h,l,more,d,rfl,rfl,one,two,decoded⟩ | ⟨later,decoded⟩
    · have rest := (form_decoded more).1
      have escapes : HasEscape ('%' :: h :: l :: more) := ⟨[],more,h,l,rfl,one,two⟩
      rw [decoded]
      simp only [List.length_cons]
      exact ⟨by omega,fun _ => by omega,fun free => absurd escapes free⟩
    · obtain ⟨le,less,plain⟩ := form_decoded text
      rw [decoded]
      simp only [List.length_cons]
      refine ⟨by omega,fun escapes => by have := less (later escapes); omega,fun free => ?_⟩
      rw [List.map_cons,plain]
      rintro ⟨a,b,h,l,whole,one,two⟩
      exact free ⟨c :: a,b,h,l,by rw [whole,List.cons_append],one,two⟩
termination_by text.length

theorem form_escape_other {c d : Char} (percent : d ≠ '%') (digits : d.isDigit = false) :
    if c = d then d ≠ ' ' → d ≠ '#' → form_escape c = [d] else d ∉ form_escape c := by
  split_ifs with same
  · intro blank number
    rw [form_escape,if_neg (same ▸ blank),if_neg (same ▸ number),same]
  · unfold form_escape
    split_ifs with blank number
    · rintro inside
      simp only [List.mem_cons,List.not_mem_nil,or_false] at inside
      rcases inside with rfl | rfl | rfl <;> simp_all
    · rintro inside
      simp only [List.mem_cons,List.not_mem_nil,or_false] at inside
      rcases inside with rfl | rfl | rfl <;> simp_all
    · simpa using Ne.symm same

/-- Queries are stored and decoded as forms are. -/
def form_coding : QueryCoding where
  escape := form_escape
  decode := form_decode
  escape_amp c := by
    have other := form_escape_other (c := c) (show '&' ≠ '%' by decide) (by decide)
    split_ifs at other ⊢ with same
    · exact other (by decide) (by decide)
    · exact other
  escape_eq c := by
    have other := form_escape_other (c := c) (show '=' ≠ '%' by decide) (by decide)
    split_ifs at other ⊢ with same
    · exact other (by decide) (by decide)
    · exact other
  escape_slash c := by
    have other := form_escape_other (c := c) (show '/' ≠ '%' by decide) (by decide)
    split_ifs at other ⊢ with same
    · exact other (by decide) (by decide)
    · exact fun last => other (List.mem_of_getLast? last)
  decode_plain text _ free := (form_decoded text).2.2 free
  decode_less text other := by
    refine (form_decoded text).2.1 (not_not.mp (fun free => other ⟨?_,free⟩))
    intro c _
    unfold form_escape
    split_ifs <;> exact List.cons_ne_nil _ _

/-- The front page of a site. -/
def front_page (query fragment : Option String) : Url := ⟨"https","","a",none,"/",query,fragment⟩

/-- What stands before the query. -/
def site_text : List Char := "https://a/".toList

/-- Front pages are read, with any query. -/
def site_parse (raw : List Char) : Except String Url :=
  if raw.take 10 = site_text then
    match raw.drop 10 with
    | [] => .ok (front_page none none)
    | '?' :: query => .ok (front_page (some (String.ofList ((query.takeWhile (· ≠ '#')).flatMap form_escape)))
        (if '#' ∈ query then some (String.ofList (query.dropWhile (· ≠ '#')).tail) else none))
    | _ => .error "no such page"
  else .error "relative URL without a base"

theorem site_parse_query {query : List Char} (free : '#' ∉ query) :
    site_parse (site_text ++ '?' :: query) = .ok (front_page (some (String.ofList (query.flatMap form_escape))) none) := by
  have whole : query.takeWhile (· ≠ '#') = query :=
    List.takeWhile_eq_self_iff.mpr (fun c inside => decide_eq_true (fun same => free (same ▸ inside)))
  have text : site_text.length = 10 := by decide
  rw [site_parse,List.take_left' text,List.drop_left' text,if_pos rfl]
  simp only [whole,if_neg free]

/-- One site. -/
@[reducible] def siteUrls : UrlCrate where
  parse raw := site_parse raw.toList
  to_string u := String.ofList (u.scheme.toList ++ "://".toList ++ u.host.toList ++ u.path.toList ++
    u.query.elim [] (fun query => '?' :: query.toList) ++ u.fragment.elim [] (fun fragment => '#' :: fragment.toList))
  query_pairs query := ((query.toList.splitOn '&').filter (fun part => decide (part ≠ []))).map
    (fun part => (String.ofList (form_decode (cut '=' part).1),String.ofList (form_decode (cut '=' part).2)))
  stored_query text := String.ofList (text.toList.flatMap form_escape)

/-- Front pages whose query is stored. -/
def Stored (u : Url) : Prop := u = front_page u.query u.fragment ∧ ∀ query ∈ u.query, ∃ text : List Char, query.toList = text.flatMap form_escape

/-- What is stored holds no blanks and no number signs. -/
theorem form_stored_free (text : List Char) : ∀ c ∈ text.flatMap form_escape, c ≠ ' ' ∧ c ≠ '#' := by
  intro c inside
  obtain ⟨d,-,here⟩ := List.mem_flatMap.mp inside
  unfold form_escape at here
  split_ifs at here with blank number
  · simp only [List.mem_cons,List.not_mem_nil,or_false] at here
    rcases here with rfl | rfl | rfl <;> decide
  · simp only [List.mem_cons,List.not_mem_nil,or_false] at here
    rcases here with rfl | rfl | rfl <;> decide
  · rw [List.mem_singleton.mp here]
    exact ⟨blank,number⟩

/-- What is stored is stored as it is. -/
theorem form_stored_again (text : List Char) : (text.flatMap form_escape).flatMap form_escape = text.flatMap form_escape := by
  have free := form_stored_free text
  generalize text.flatMap form_escape = stored at free
  induction stored with
  | nil => rfl
  | cons c stored ih =>
    rw [List.forall_mem_cons] at free
    rw [List.flatMap_cons,ih free.2,form_escape,if_neg free.1.1,if_neg free.1.2]
    rfl

theorem site_documented : @UrlCrate.Documented siteUrls form_coding (fun scheme _ host _ => scheme.toList ++ "://".toList ++ host.toList) Stored := by
  refine @UrlCrate.Documented.mk siteUrls _ _ _ (fun _ => rfl) (fun _ => rfl) ?_ ?_ ?_ ?_ ?_ ?_
  · intro raw u parsed
    change site_parse raw.toList = _ at parsed
    unfold site_parse at parsed
    split_ifs at parsed
    split at parsed
    · obtain rfl := Except.ok.inj parsed
      exact ⟨rfl,nofun⟩
    · obtain rfl := Except.ok.inj parsed
      refine ⟨rfl,fun query there => ?_⟩
      obtain rfl := Option.some.inj there
      exact ⟨_,String.toList_ofList⟩
    · cases parsed
  · rintro u query ⟨form,-⟩ stored
    rw [form]
    refine ⟨rfl,fun q there => ?_⟩
    obtain ⟨text,rfl⟩ := stored q there
    exact ⟨_,String.toList_ofList⟩
  · rintro u ⟨form,-⟩ - - - path
    exact absurd (congrArg Url.path form) path
  · rintro u - fragment
    change (String.ofList _).toList = _
    rw [String.toList_ofList,fragment,Option.elim_none,List.append_nil]
  · rintro u ⟨form,-⟩ -
    rw [congrArg Url.path form]
    exact (by decide : "/".toList.head? = some '/')
  · rintro u ⟨form,stored⟩ fragment
    have front : "https".toList ++ "://".toList ++ "a".toList ++ "/".toList = site_text := by decide
    change site_parse (String.ofList _).toList = _
    rw [form,fragment,String.toList_ofList]
    dsimp only [front_page]
    rw [front,Option.elim_none,List.append_nil]
    cases query : u.query with
    | none => decide
    | some q =>
      obtain ⟨text,same⟩ := stored q query
      have free := form_stored_free text
      rw [← same] at free
      have none_there : '#' ∉ q.toList := fun inside => (free '#' inside).2 rfl
      rw [Option.elim_some,site_parse_query none_there,same,form_stored_again,← same,String.ofList_toList]
      rfl

section
attribute [local instance] siteUrls Library.plainUnicode

/-- Short pairs of letters and digits are read as they are written. -/
theorem front_page_plain {query : String} {fragment : Option String} {pairs : List (String × String)} (some_pair : pairs ≠ [])
    (kept : (front_page (some query) fragment).query_pairs = pairs) (written : ∀ pair ∈ pairs, form_coding.reader.Written (as_chars pair)) :
    (front_page (some query) fragment).Plain form_coding := by
  refine ⟨?_,fun _ path => absurd rfl path,fun none_kept => absurd (kept.symm.trans none_kept) some_pair⟩
  rw [kept]
  exact written

end

end Pergamon
