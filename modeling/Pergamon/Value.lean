import Std.Data.ExtTreeMap
import Mathlib.Algebra.Group.Int.Defs
import Mathlib.Tactic.Common

/-!
The values that changes carry and the values that the database keeps. A change
carries JSON values; a column keeps an SQL value, after the conversion that the
affinity of the column asks for (`coerce`). What a column gives back for a value
written to it is `read_back`.

Floating point stays outside: a double is its bit pattern, and the conversions of
SQLite between numbers and their texts are the parameters `Sqlite`.
-/
namespace Pergamon

/-- An IEEE double, by its bits. -/
structure F64 where
  bits : UInt64
  deriving DecidableEq

/-- Neither infinite nor a NaN: the exponent bits are not all set. -/
def F64.is_finite (r : F64) : Bool := (r.bits >>> 52) &&& 2047 != 2047
def F64.is_nan (r : F64) : Bool := !r.is_finite && r.bits &&& 4503599627370495 != 0

/-- A JSON value. A number is an integer in the range of `i64` and `u64` together,
    or a double; an array or an object is given by its compact text. -/
inductive Value where
  | Null
  | Boolean (b : Bool)
  | Int (i : Int)
  | Float (r : F64)
  | Str (s : String)
  | Compound (json : String)
  deriving DecidableEq

def Value.as_str : Value → Option String
  | .Str s => some s
  | _ => none

def Value.as_bool : Value → Option Bool
  | .Boolean b => some b
  | _ => none

/-- The fields of a change, by name. -/
abbrev FieldMap := Std.ExtTreeMap String Value

theorem mem_toList {fields : FieldMap} {f : String} {v : Value} :
    (f,v) ∈ fields.toList ↔ fields[f]? = some v := Std.ExtTreeMap.mem_toList_iff_getElem?_eq_some

theorem toList_distinct (fields : FieldMap) : fields.toList.Pairwise (fun a b => a.1 ≠ b.1) :=
  Std.ExtTreeMap.distinct_keys_toList.imp (fun apart same => apart (by simp [same]))

theorem mem_fields {fields : FieldMap} {f : String} : f ∈ fields ↔ ∃ v, (f,v) ∈ fields.toList := by
  simp only [mem_toList,Std.ExtTreeMap.mem_iff_isSome_getElem?,Option.isSome_iff_exists]

/-- The only field of a map of one field. -/
theorem mem_one {f g : String} {v : Value} : f ∈ (∅ : FieldMap).insert g v ↔ f = g := by
  rw [Std.ExtTreeMap.mem_insert]
  simp [eq_comm (a := f)]

/-- A value in a column. No synced column ever holds a blob. -/
inductive SqlValue where
  | Null
  | Integer (i : Int)
  | Real (r : F64)
  | Text (s : String)
  deriving DecidableEq

/-- The declared types of the synced columns. -/
inductive Affinity where
  | TEXT
  | INTEGER
  | REAL
  deriving DecidableEq

/-- The numeric conversions of SQLite: an integer as a double, the integer that a
    double is exactly, the integer part of a double, the text of a double, the number
    that a text is a literal of, and whether a double lies between two integers. -/
class Sqlite where
  real_of_int : Int → F64
  int_of_real : F64 → Option Int
  truncate_real : F64 → Int
  text_of_real : F64 → String
  number_of_text : String → Option (Int ⊕ F64)
  real_between : Int → Int → F64 → Bool

/-- The conversions where no double occurs and no text is a number. -/
@[reducible] def plainSqlite : Sqlite :=
  ⟨fun _ => ⟨0⟩,fun _ => none,fun _ => 0,fun _ => "0.0",fun _ => none,fun _ _ _ => false⟩

section
variable [Sqlite]

/-- Convert a JSON value to a value SQLite can store. -/
def json_to_sql : Value → SqlValue
  | .Null => .Null
  | .Boolean b => .Integer (if b then 1 else 0)
  | .Int i => if -(2 ^ 63) ≤ i ∧ i < 2 ^ 63 then .Integer i else .Real (Sqlite.real_of_int i)
  | .Float r => .Real r
  | .Str s => .Text s
  | .Compound json => .Text json

/-- Convert a value of a column to JSON. -/
def sql_to_json : SqlValue → Value
  | .Null => .Null
  | .Integer i => .Int i
  | .Real r => if r.is_finite then .Float r else .Null
  | .Text s => .Str s

/-- A double in a column of integer affinity: an integer when it is one exactly. -/
def integer_or_real (r : F64) : SqlValue :=
  match Sqlite.int_of_real r with
  | some i => .Integer i
  | none => .Real r

/-- The conversion that SQLite applies before it stores a value in a column. -/
def coerce : Affinity → SqlValue → SqlValue
  | .TEXT, .Integer i => .Text (toString i)
  | .TEXT, .Real r => .Text (Sqlite.text_of_real r)
  | .INTEGER, .Real r => integer_or_real r
  | .INTEGER, .Text s =>
    match Sqlite.number_of_text s with
    | some (.inl i) => .Integer i
    | some (.inr r) => integer_or_real r
    | none => .Text s
  | .REAL, .Integer i => .Real (Sqlite.real_of_int i)
  | .REAL, .Text s =>
    match Sqlite.number_of_text s with
    | some (.inl i) => .Real (Sqlite.real_of_int i)
    | some (.inr r) => .Real r
    | none => .Text s
  | _, v => v

/-- What a column gives back for a JSON value written to it. -/
def read_back (a : Affinity) (v : Value) : Value := sql_to_json (coerce a (json_to_sql v))

@[simp] theorem coerce_null (a : Affinity) : coerce a .Null = .Null := by cases a <;> rfl

@[simp] theorem coerce_text (s : String) : coerce .TEXT (.Text s) = .Text s := rfl

/-- A text column holds null or a text. -/
theorem coerce_text_cases (v : SqlValue) : coerce .TEXT v = .Null ∨ ∃ s, coerce .TEXT v = .Text s := by
  cases v with
  | Null => exact .inl rfl
  | Integer i => exact .inr ⟨_,rfl⟩
  | Real r => exact .inr ⟨_,rfl⟩
  | Text s => exact .inr ⟨_,rfl⟩

/-- A text column read and written back keeps its value. -/
theorem coerce_text_read (v : SqlValue) :
    coerce .TEXT (json_to_sql (sql_to_json (coerce .TEXT v))) = coerce .TEXT v := by
  rcases coerce_text_cases v with null | ⟨s,text⟩
  · rw [null]; rfl
  · rw [text]; rfl

end
end Pergamon
