import Pergamon.Fallible
import Pergamon.Rules
import Pergamon.Texts

/-!
The import of Kindle clippings. A file is cut into blocks, a block into lines, and the second line of
a block into segments that tell the place and the date. Offsets are numbers of bytes: those of the
prefixes that are tested are the lengths of texts of ASCII letters, and those of the markers of a
place are found in a copy of the segment in lower case. A slice that does not begin and end where
characters do panics. Texts are lists of characters here.
-/
namespace Pergamon.Kindle
open SmartFilter Utf8

/-! ### Slices -/

inductive Panic
  | Slice
  deriving DecidableEq

def checked {α : Type} (part : Option α) : Except Panic α :=
  match part with
  | some part => .ok part
  | none => .error .Slice

/-- `text[..stop]` -/
def slice_to (text : List Char) (stop : ℕ) : Except Panic (List Char) := checked ((split_at text stop).map Prod.fst)

/-- `text[start..]` -/
def slice_from (text : List Char) (start : ℕ) : Except Panic (List Char) := checked ((split_at text start).map Prod.snd)

/-- `text[start..stop]` -/
def slice_between (text : List Char) (start stop : ℕ) : Except Panic (List Char) := checked (Utf8.slice text start stop)

/-- `str::eq_ignore_ascii_case` -/
def eq_ignore_ascii_case (a b : List Char) : Bool := a.map to_ascii_lowercase = b.map to_ascii_lowercase

/-- Case-insensitive `starts_with`. -/
def starts_with_ignore_case (haystack needle : List Char) : Except Panic Bool := do
  if size needle ≤ size haystack then
    let start ← slice_to haystack (size needle)
    .ok (eq_ignore_ascii_case start needle)
  else .ok false

/-- Case-insensitive prefix strip. -/
def strip_prefix_ignore_case (haystack front : List Char) : Except Panic (Option (List Char)) := do
  if ← starts_with_ignore_case haystack front then
    let rest ← slice_from haystack (size front)
    .ok (some rest)
  else .ok none

/-! ### Clippings -/

inductive KindleClippingType
  | Highlight
  | Note
  | Bookmark
  deriving DecidableEq

/-- A single parsed entry. -/
structure KindleClipping where
  book_title : List Char
  author : Option (List Char)
  clipping_type : KindleClippingType
  location : Option (List Char)
  added_at : Option OffsetDateTime
  content : List Char
  deriving DecidableEq

inductive ImportError
  | Utf8Str
  deriving DecidableEq

/-- The texts of dates that are tried, in this order. -/
inductive DateFormat
  | Fmt12h
  | Fmt24h
  | FmtIntl
  deriving DecidableEq

/-- Letters of all languages, and the dates that the time crate reads, in UTC. -/
class Dates where
  is_alphabetic : Char → Bool
  parse : List Char → DateFormat → Option OffsetDateTime

/-- Decode bytes as UTF-8, stripping a BOM if present. -/
def decode_utf8_bom (bytes : List UInt8) : Except ImportError (List Char) :=
  let stripped :=
    match bytes with
    | 0xEF :: 0xBB :: 0xBF :: rest => rest
    | _ => bytes
  match from_utf8 stripped with
  | some text => .ok text
  | none => .error .Utf8Str

/-- Parse the title line: split on the last parenthesis. -/
def parse_title_author (line : List Char) : Except Panic (List Char × Option (List Char)) := do
  let line := (trim line).dropWhile (· = '\uFEFF')
  match Utf8.rfind '(' line with
  | some paren_pos =>
    if line.getLast? = some ')' ∧ 0 < paren_pos then
      let title ← slice_to line paren_pos
      let author ← slice_between line (paren_pos + 1) (size line - 1)
      if trim author ≠ [] then .ok (trim title,some (trim author)) else .ok (trim title,none)
    else .ok (line,none)
  | none => .ok (line,none)

example : parse_title_author "\uFEFFA (Short) Title ( One Author )".toList = .ok ("A (Short) Title".toList,some "One Author".toList) := by
  decide +kernel

section
variable [Dates]

/-- Parse a Kindle date string. -/
def parse_kindle_date (raw : List Char) : Except Panic (Option OffsetDateTime) := do
  let raw := trim raw
  -- strip the day of the week, if there is one
  let date_str ← match find ", ".toList raw with
    | some comma_pos => do
      let before_comma ← slice_to raw comma_pos
      if before_comma.all Dates.is_alphabetic then
        let rest ← slice_from raw (comma_pos + 2)
        .ok (trim rest)
      else .ok raw
    | none => .ok raw
  .ok ([DateFormat.Fmt12h,.Fmt24h,.FmtIntl].findSome? (Dates.parse date_str))

end

section
variable [Unicode]

/-- `str::to_lowercase` -/
def to_lowercase (text : List Char) : List Char := (Unicode.to_lowercase (String.ofList text)).toList

/-- What follows the first "location " of a segment. -/
def extract_named (segment : List Char) : Except Panic (Option (List Char)) := do
  match find "location ".toList (to_lowercase segment) with
  | some idx =>
    let rest ← slice_from segment (idx + size "location ".toList)
    if trim rest ≠ [] then .ok (some (trim rest)) else .ok none
  | none => .ok none

/-- The word after the first "page " of a segment. -/
def extract_page (segment : List Char) : Except Panic (Option (List Char)) := do
  match find "page ".toList (to_lowercase segment) with
  | some idx =>
    let rest ← slice_from segment (idx + size "page ".toList)
    let page := (split_whitespace (trim rest)).head?.getD (trim rest)
    if page ≠ [] then .ok (some ("Page ".toList ++ page)) else .ok none
  | none => .ok none

/-- Extract location from a metadata segment. -/
def extract_location (segment : List Char) : Except Panic (Option (List Char)) := do
  match ← extract_named segment with
  | some loc => .ok (some loc)
  | none => extract_page segment

variable [Dates]

/-- What is known of the place and the date after one more segment. -/
def read_segment (found : Option (List Char) × Option OffsetDateTime) (segment : List Char) :
    Except Panic (Option (List Char) × Option OffsetDateTime) := do
  let seg := trim segment
  match ← strip_prefix_ignore_case seg "added on ".toList with
  | some rest =>
    let added_at ← parse_kindle_date rest
    .ok (found.1,added_at)
  | none =>
    match ← extract_location seg with
    | some loc =>
      -- a later segment that names a location overrides a page
      if found.1 = none ∨ "location ".toList <:+: to_lowercase seg then .ok (some loc,found.2) else .ok found
    | none => .ok found

/-- The type of a clipping, from the beginning of its metadata line. -/
def parse_type (line : List Char) : Except Panic (Option KindleClippingType) := do
  if ← starts_with_ignore_case line "your highlight".toList then .ok (some .Highlight)
  else if ← starts_with_ignore_case line "your note".toList then .ok (some .Note)
  else if ← starts_with_ignore_case line "your bookmark".toList then .ok (some .Bookmark)
  else .ok none

/-- A metadata line without its bullet. -/
def meta_text (line : List Char) : List Char := trim (if "- ".toList.isPrefixOf line then line.drop 2 else line)

/-- Parse the metadata line to extract clipping type, location, and date. -/
def parse_meta_line (line : List Char) :
    Except Panic (Option KindleClippingType × Option (List Char) × Option OffsetDateTime) := do
  let clipping_type ← parse_type (meta_text line)
  let (location,added_at) ← (split_str " | ".toList (meta_text line)).foldlM read_segment (none,none)
  .ok (clipping_type,location,added_at)

/-- Parse a single clipping block. -/
def parse_block (block : List Char) : Except Panic (Option KindleClipping) := do
  match lines block with
  | first :: second :: rest =>
    let (book_title,author) ← parse_title_author first
    if book_title = [] then .ok none
    else
      let (clipping_type,location,added_at) ← parse_meta_line (trim second)
      match clipping_type with
      | some clipping_type =>
        .ok (some ⟨book_title,author,clipping_type,location,added_at,trim (['\n'].intercalate rest)⟩)
      | none => .ok none
  | _ => .ok none

/-- The blocks between the separators, trimmed, without those that are empty. -/
def blocks (text : List Char) : List (List Char) :=
  ((split_str "==========".toList text).map trim).filter (fun block => block ≠ [])

/-- Parse a clippings file from raw bytes. Entries that cannot be parsed are skipped. -/
def parse_kindle_clippings (bytes : List UInt8) : Except Panic (Except ImportError (List KindleClipping)) := do
  match decode_utf8_bom bytes with
  | .ok text =>
    let found ← (blocks text).mapM parse_block
    .ok (.ok found.reduceOption)
  | .error e => .ok (.error e)

end

end Pergamon.Kindle
