import Mathlib.Data.List.Nodup
import Pergamon.Decimal

/-!
A part of YAML 1.2: mappings of plain keys to scalars and to sequences of texts, with one entry on each
line. Texts stand in double quotes, where escapes stand for characters; a sequence is a flow sequence of
such texts; a plain scalar is null, a truth value, a decimal number or a word (core schema). Characters
that are not printable do not stand in a block as they are. Comments, nesting and scalars of more than one
line are not read.
-/
namespace Yaml
open Decimal

/-! ### Characters -/

/-- Characters that may stand in a stream. -/
def printable (c : Char) : Bool :=
  let n := c.toNat
  n = 0x09 || n = 0x0A || n = 0x0D || (0x20 ≤ n && n ≤ 0x7E) || n = 0x85 || (0xA0 ≤ n && n ≤ 0xD7FF) ||
    (0xE000 ≤ n && n ≤ 0xFFFD) || (0x10000 ≤ n && n ≤ 0x10FFFF)

/-- The character that one character escapes. -/
def escaped (c : Char) : Option Char :=
  match c with
  | '0' => some '\x00'
  | 'a' => some '\x07'
  | 'b' => some '\x08'
  | 't' | '\t' => some '\t'
  | 'n' => some '\n'
  | 'v' => some '\x0b'
  | 'f' => some '\x0c'
  | 'r' => some '\r'
  | 'e' => some '\x1b'
  | ' ' | '"' | '/' | '\\' => some c
  | 'N' => some '\u0085'
  | '_' => some '\u00a0'
  | 'L' => some '\u2028'
  | 'P' => some '\u2029'
  | _ => none

/-- The number of hexadecimal digits after an escape. -/
def code_digits (c : Char) : Option ℕ :=
  match c with
  | 'x' => some 2
  | 'u' => some 4
  | 'U' => some 8
  | _ => none

def hex_value (c : Char) : Option ℕ :=
  if '0' ≤ c ∧ c ≤ '9' then some (c.toNat - 48)
  else if 'a' ≤ c ∧ c ≤ 'f' then some (c.toNat - 87)
  else if 'A' ≤ c ∧ c ≤ 'F' then some (c.toNat - 55)
  else none

/-- The character of a code, unless it is a surrogate or too great. -/
def char_of_code (n : ℕ) : Option Char := if n.isValidChar then some (Char.ofNat n) else none

/-! ### Texts in double quotes -/

/-- Where a reader is in a text: after a backslash, or with so many digits of a code to come. -/
inductive Mode
  | Plain
  | Escape
  | Code (left value : ℕ)

/-- The text up to the closing quote, and what follows it. -/
def read_quoted : Mode → List Char → Option (List Char × List Char)
  | _,[] => none
  | .Plain,c :: rest =>
    if c = '"' then some ([],rest)
    else if c = '\\' then read_quoted .Escape rest
    else (read_quoted .Plain rest).map (fun r => (c :: r.1,r.2))
  | .Escape,c :: rest =>
    match escaped c with
    | some d => (read_quoted .Plain rest).map (fun r => (d :: r.1,r.2))
    | none =>
      match code_digits c with
      | some left => read_quoted (.Code left 0) rest
      | none => none
  | .Code left value,c :: rest =>
    match hex_value c with
    | some d =>
      if left ≤ 1 then
        match char_of_code (16 * value + d) with
        | some e => (read_quoted .Plain rest).map (fun r => (e :: r.1,r.2))
        | none => none
      else read_quoted (.Code (left - 1) (16 * value + d)) rest
    | none => none

example : read_quoted .Plain "a\\\"\\x42\\u0043\" rest".toList = some ("a\"BC".toList," rest".toList) := by decide

/-! ### Values -/

inductive Node
  | Null
  | Bool (b : Bool)
  | Int (n : ℤ)
  | Str (text : List Char)
  | Seq (items : List (List Char))
  deriving DecidableEq

/-- Spaces and tabs between tokens. -/
def skip (l : List Char) : List Char := l.dropWhile (fun c => c = ' ' ∨ c = '\t')

/-- The entries of a sequence after its bracket. There are no more of them than characters. -/
def read_items : ℕ → List Char → Option (List (List Char) × List Char)
  | 0,_ => none
  | fuel + 1,l =>
    match skip l with
    | ']' :: rest => some ([],rest)
    | '"' :: rest => do
      let (text,rest) ← read_quoted .Plain rest
      match skip rest with
      | ']' :: rest => some ([text],rest)
      | ',' :: rest => do
        let (items,rest) ← read_items fuel rest
        some (text :: items,rest)
      | _ => none
    | _ => none

/-- Letters and underscores. -/
def letter (c : Char) : Bool := c.isAlpha || c = '_'

/-- A word of letters, digits, underscores and hyphens that begins with a letter or an underscore. -/
def is_word (l : List Char) : Bool :=
  match l with
  | c :: rest => letter c && rest.all (fun d => letter d || d.isDigit || d = '-')
  | [] => false

/-- Words that do not stand for themselves. -/
def reserved (l : List Char) : Option Node :=
  if l ∈ ["null".toList,"Null".toList,"NULL".toList] then some .Null
  else if l ∈ ["true".toList,"True".toList,"TRUE".toList] then some (.Bool true)
  else if l ∈ ["false".toList,"False".toList,"FALSE".toList] then some (.Bool false)
  else none

/-- Decimal digits. -/
def read_digits (l : List Char) : Option ℕ := if l ≠ [] ∧ l.all Char.isDigit then some (value l) else none

def read_int : List Char → Option ℤ
  | '-' :: digits => (read_digits digits).map (fun n => -n)
  | '+' :: digits => (read_digits digits).map (fun n => n)
  | digits => (read_digits digits).map (fun n => n)

/-- A plain scalar. -/
def read_plain (l : List Char) : Option Node :=
  if is_word l then some ((reserved l).getD (.Str l)) else (read_int l).map .Int

/-- A value up to the end of its line. -/
def read_value (l : List Char) : Option Node :=
  match skip l with
  | '"' :: rest => do
    let (text,rest) ← read_quoted .Plain rest
    if skip rest = [] then some (.Str text) else none
  | '[' :: rest => do
    let (items,rest) ← read_items rest.length rest
    if skip rest = [] then some (.Seq items) else none
  | plain => read_plain plain

/-! ### Blocks -/

/-- An entry of a mapping. -/
def read_entry (line : List Char) : Option (Node × Node) :=
  match line.dropWhile (fun c => c ≠ ':') with
  | ':' :: ' ' :: rest => do
    let key ← read_plain (line.takeWhile (fun c => c ≠ ':'))
    let value ← read_value rest
    some (key,value)
  | _ => none

def marker : List Char := "---".toList

/-- The mapping between the marker in the first line and the next one. Its keys are distinct. A carriage
    return ends a line, too, so a text with one is not read here. -/
def read_block (text : List Char) : Option (List (Node × Node)) :=
  if text.all (fun c => printable c && c ≠ '\r') then
    match text.splitOn '\n' with
    | first :: rest =>
      if first = marker ∧ marker ∈ rest then do
        let entries ← (rest.takeWhile (fun line => line ≠ marker)).mapM read_entry
        if (entries.map Prod.fst).Nodup then some entries else none
      else none
    | [] => none
  else none

example : read_block "---\na: \"x: y\"\nb_2: [\"one\", \"two\"]\nc: -7\ntrue: []\n---\n".toList =
    some [(.Str ['a'],.Str "x: y".toList),(.Str "b_2".toList,.Seq ["one".toList,"two".toList]),(.Str ['c'],.Int (-7)),
      (.Bool true,.Seq [])] := by decide +kernel

end Yaml
