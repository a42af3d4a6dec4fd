import Pergamon.Schema

/-!
The filter language of smart collections and content rules: `key:value` pairs between white
space, values of one key between commas, and `-status:` for an exclusion. A query is cut into
tokens, where a quote after a colon takes everything up to its like, and each token is one
predicate; the predicates of a filter hold together.
-/
namespace Pergamon

/-- Discriminator for the unified `content_items` table. -/
inductive ContentType where
  | FeedItem
  | Article
  | Bookmark
  | Highlight
  | Pdf
  | PodcastEpisode
  deriving DecidableEq

def ContentType.as_str : ContentType → String
  | .FeedItem => "feed_item"
  | .Article => "article"
  | .Bookmark => "bookmark"
  | .Highlight => "highlight"
  | .Pdf => "pdf"
  | .PodcastEpisode => "podcast_episode"

/-- Lifecycle status of a content item in the triage workflow. -/
inductive DocumentStatus where
  | Inbox
  | Later
  | Reference
  | Reading
  | Archived
  | Discarded
  deriving DecidableEq

def DocumentStatus.as_str : DocumentStatus → String
  | .Inbox => "inbox"
  | .Later => "later"
  | .Reference => "reference"
  | .Reading => "reading"
  | .Archived => "archived"
  | .Discarded => "discarded"

def ContentType.from_str : String → Except String ContentType
  | "feed_item" => .ok .FeedItem
  | "article" => .ok .Article
  | "bookmark" => .ok .Bookmark
  | "highlight" => .ok .Highlight
  | "pdf" => .ok .Pdf
  | "podcast_episode" => .ok .PodcastEpisode
  | other => .error ("unknown content type: " ++ other)

def DocumentStatus.from_str : String → Except String DocumentStatus
  | "inbox" => .ok .Inbox
  | "later" => .ok .Later
  | "reference" => .ok .Reference
  | "reading" => .ok .Reading
  | "archived" => .ok .Archived
  | "discarded" => .ok .Discarded
  | other => .error ("unknown document status: " ++ other)

theorem ContentType.as_str_injective : Function.Injective ContentType.as_str := by
  intro a b same
  revert same
  cases a <;> cases b <;> decide

theorem DocumentStatus.as_str_injective : Function.Injective DocumentStatus.as_str := by
  intro a b same
  revert same
  cases a <;> cases b <;> decide

/-- A parsed predicate. A list of values holds where one of them does. -/
inductive FilterPredicate where
  | ContentType (types : List ContentType)
  | Tag (tags : List String)
  | Status (statuses : List DocumentStatus)
  | ExcludeStatus (statuses : List DocumentStatus)
  /-- Items from feeds whose title contains this substring. -/
  | Source (src : String)
  /-- Items created on or after this date. -/
  | CreatedSince (date : String)
  /-- Items created before this date. -/
  | CreatedBefore (date : String)
  /-- A full-text search query. -/
  | Text (query : String)
  deriving DecidableEq

/-- A parsed filter: all its predicates must hold. -/
structure SmartFilter where
  predicates : List FilterPredicate
  deriving DecidableEq

inductive FilterParseError where
  | UnknownKey (key : String)
  | MissingSeparator (token : String)
  | InvalidValue (key value reason : String)
  | Empty
  deriving DecidableEq

/-- Display of a parse error. -/
def FilterParseError.message : FilterParseError → String
  | .UnknownKey key => "unknown filter key: " ++ key
  | .MissingSeparator token => "filter must be key:value, got: " ++ token
  | .InvalidValue key value reason => "invalid value for " ++ key ++ ": " ++ value ++ " (" ++ reason ++ ")"
  | .Empty => "empty filter"

namespace SmartFilter

/-! ### Characters -/

/-- Unicode white space. -/
def is_whitespace (c : Char) : Bool :=
  let n := c.toNat
  (9 ≤ n && n ≤ 13) || n = 32 || n = 0x85 || n = 0xA0 || n = 0x1680 || (0x2000 ≤ n && n ≤ 0x200A) ||
    n = 0x2028 || n = 0x2029 || n = 0x202F || n = 0x205F || n = 0x3000

def trim (l : List Char) : List Char := ((l.dropWhile is_whitespace).reverse.dropWhile is_whitespace).reverse

/-- The values between the commas, trimmed. -/
def comma_values (value : List Char) : List String :=
  (value.splitOn ',').map (fun v => String.ofList (trim v))

/-- What is left after a character at the front and the same one at the end. -/
def strip_quotes (q : Char) (l : List Char) : Option (List Char) :=
  match l with
  | c :: rest => if c = q ∧ rest.getLast? = some q then some rest.dropLast else none
  | [] => none

/-! ### Tokens -/

/-- Where the tokenizer is in a token. -/
inductive TokenMode where
  | Plain
  | AfterColon
  | Quoted (quote : Char)
  deriving DecidableEq

/-- The tokens that are complete and the one that is being read, both backwards. -/
structure Tokenizer where
  tokens : List (List Char)
  current : List Char
  mode : TokenMode

/-- The current token is complete, if there is one. -/
def Tokenizer.flush (s : Tokenizer) : List (List Char) :=
  if s.current = [] then s.tokens else s.current.reverse :: s.tokens

def Tokenizer.plain (s : Tokenizer) (c : Char) : Tokenizer :=
  if is_whitespace c then ⟨s.flush,[],.Plain⟩
  else ⟨s.tokens,c :: s.current,if c = ':' then .AfterColon else .Plain⟩

def Tokenizer.step (s : Tokenizer) (c : Char) : Tokenizer :=
  match s.mode with
  | .Plain => s.plain c
  | .AfterColon => if c = '"' ∨ c = '\'' then ⟨s.tokens,c :: s.current,.Quoted c⟩ else s.plain c
  | .Quoted q => ⟨s.tokens,c :: s.current,if c = q then .Plain else .Quoted q⟩

/-- Split the query into tokens. -/
def tokenize (query : List Char) : List (List Char) := (query.foldl Tokenizer.step ⟨[],[],.Plain⟩).flush.reverse

/-! ### The parser -/

def invalid (key value reason : String) : FilterParseError := .InvalidValue key value reason

def reject_negation (key value : String) (negated : Bool) : Except FilterParseError Unit :=
  if negated then .error (invalid key value ("negation is not supported for " ++ key ++ " filters")) else .ok ()

/-- Parse the values between the commas. -/
def parse_comma_list {T : Type} (value : List Char) (parser : String → Except String T) : Except String (List T) :=
  (comma_values value).mapM parser

def parse_type_predicate (value : List Char) (negated : Bool) : Except FilterParseError FilterPredicate := do
  let types ← (parse_comma_list value ContentType.from_str).mapError (invalid "type" (String.ofList value))
  reject_negation "type" (String.ofList value) negated
  .ok (.ContentType types)

def parse_tag_predicate (value : List Char) (negated : Bool) : Except FilterParseError FilterPredicate := do
  reject_negation "tag" (String.ofList value) negated
  .ok (.Tag (comma_values value))

def parse_status_predicate (value : List Char) (negated : Bool) : Except FilterParseError FilterPredicate := do
  let statuses ← (parse_comma_list value DocumentStatus.from_str).mapError (invalid "status" (String.ofList value))
  if negated then .ok (.ExcludeStatus statuses) else .ok (.Status statuses)

def parse_simple_predicate (key : String) (value : List Char) (negated : Bool) (make : String → FilterPredicate) :
    Except FilterParseError FilterPredicate := do
  reject_negation key (String.ofList value) negated
  .ok (make (String.ofList value))

/-- A part of a date reads as an unsigned number, which may have a plus sign. -/
def numeric (part : List Char) : Bool :=
  let digits := if part.head? = some '+' then part.tail else part
  digits ≠ [] && digits.all Char.isDigit

/-- Validate that a date looks like YYYY-MM-DD. The lengths are in bytes. -/
def validate_date (date : List Char) : Except FilterParseError Unit :=
  let size (l : List Char) : ℕ := (String.ofList l).utf8ByteSize
  let parts := date.splitOn '-'
  if size date ≠ 10 ∨ parts.map size ≠ [4,2,2] then .error (invalid "date" (String.ofList date) "expected YYYY-MM-DD format")
  else if parts.all numeric then .ok ()
  else .error (invalid "date" (String.ofList date) "expected numeric components in YYYY-MM-DD")

def parse_date_predicate (key : String) (value : List Char) (negated : Bool) (make : String → FilterPredicate) :
    Except FilterParseError FilterPredicate := do
  reject_negation key (String.ofList value) negated
  validate_date value
  .ok (make (String.ofList value))

/-- Parse a single `key:value` token. -/
def parse_token (token : List Char) : Except FilterParseError FilterPredicate :=
  let negated := token.head? = some '-'
  let token := if negated then token.tail else token
  if ':' ∉ token then .error (.MissingSeparator (String.ofList token))
  else
    let key := String.ofList (token.takeWhile (· ≠ ':'))
    let raw_value := (token.dropWhile (· ≠ ':')).tail
    let value := ((strip_quotes '"' raw_value).orElse (fun _ => strip_quotes '\'' raw_value)).getD raw_value
    if value = [] then .error (invalid key "" "value cannot be empty")
    else
      match key with
      | "type" => parse_type_predicate value negated
      | "tag" => parse_tag_predicate value negated
      | "status" => parse_status_predicate value negated
      | "source" => parse_simple_predicate "source" value negated .Source
      | "since" => parse_date_predicate "since" value negated .CreatedSince
      | "before" => parse_date_predicate "before" value negated .CreatedBefore
      | "text" => parse_simple_predicate "text" value negated .Text
      | _ => .error (.UnknownKey key)

/-- Parse a filter query. -/
def parse (query : String) : Except FilterParseError SmartFilter :=
  let query := trim query.toList
  if query = [] then .error .Empty
  else do
    let predicates ← (tokenize query).mapM parse_token
    if predicates = [] then .error .Empty else .ok ⟨predicates⟩

example : parse "type:article tag:rust, -status:discarded text:\"two words\"" =
    .ok ⟨[.ContentType [.Article],.Tag ["rust",""],.ExcludeStatus [.Discarded],.Text "two words"]⟩ := by decide +kernel

end SmartFilter
end Pergamon
