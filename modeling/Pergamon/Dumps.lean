import Pergamon.Fallible

/-!
Tables that are dumped to records and loaded again. A column reads the values that it can hold
and writes what it has read. Where what it writes reads the same (`Column.Faithful`), so does a
row that is read and written again (`read_write`).

A table takes a row that it admits and that clashes with none of its rows. It takes a list of rows
iff it admits every one and no two of them clash (`take_ok`). So a dump of a table loads into an
empty one iff no two of the rows written for it clash, and is then the dump of what was loaded
(`load_dump`). Rows that are left out where their key is taken are all kept iff their keys differ
(`keep_all`).
-/
namespace Dumps
open Fallible

universe u
variable {ε V C : Type u}

/-- A column: the values it can hold, how a value is read and how what was read is written. -/
structure Column (ε V C : Type u) where
  holds : V → Bool
  read : V → Except ε C
  write : C → V

/-- What is read of a value that the column holds is written as a value that it holds and that
    reads the same. -/
def Column.Faithful (c : Column ε V C) : Prop :=
  ∀ v a, c.holds v → c.read v = .ok a → c.holds (c.write a) ∧ c.read (c.write a) = .ok a

def holds_row : List (Column ε V C) → List V → Bool
  | [],[] => true
  | c :: columns,v :: row => c.holds v && holds_row columns row
  | _,_ => false

def read_row : List (Column ε V C) → List V → Except ε (List C)
  | c :: columns,v :: row => do
    let a ← c.read v
    let record ← read_row columns row
    .ok (a :: record)
  | _,_ => .ok []

def write_row : List (Column ε V C) → List C → List V
  | c :: columns,a :: record => c.write a :: write_row columns record
  | _,_ => []

theorem read_row_cons {c : Column ε V C} {columns : List (Column ε V C)} {v : V} {row : List V} {record : List C} :
    read_row (c :: columns) (v :: row) = .ok record ↔
      ∃ a rest, c.read v = .ok a ∧ read_row columns row = .ok rest ∧ record = a :: rest := by
  rw [read_row,bind_ok]
  constructor
  · rintro ⟨a,first,later⟩
    obtain ⟨rest,reads,made⟩ := bind_ok.mp later
    exact ⟨a,rest,first,reads,(Except.ok.inj made).symm⟩
  · rintro ⟨a,rest,first,reads,rfl⟩
    exact ⟨a,first,bind_ok.mpr ⟨rest,reads,rfl⟩⟩

/-- A row reads iff each of its values does. -/
theorem reads_row {columns : List (Column ε V C)} {row : List V} (held : holds_row columns row) :
    (∃ record, read_row columns row = .ok record) ↔ ∀ p ∈ columns.zip row, ∃ a, p.1.read p.2 = .ok a := by
  induction columns generalizing row with
  | nil => exact iff_of_true ⟨[],rfl⟩ nofun
  | cons c columns ih =>
    cases row with
    | nil => cases held
    | cons v row =>
      simp only [holds_row,Bool.and_eq_true] at held
      rw [List.zip_cons_cons,List.forall_mem_cons,← ih held.2]
      constructor
      · rintro ⟨record,reads⟩
        obtain ⟨a,rest,first,later,rfl⟩ := read_row_cons.mp reads
        exact ⟨⟨a,first⟩,⟨rest,later⟩⟩
      · rintro ⟨⟨a,first⟩,⟨rest,later⟩⟩
        exact ⟨_,read_row_cons.mpr ⟨a,rest,first,later,rfl⟩⟩

/-- A row that is read and written again is held and reads the same. -/
theorem read_write {columns : List (Column ε V C)} (faithful : ∀ c ∈ columns, c.Faithful) {row : List V} {record : List C}
    (held : holds_row columns row) (reads : read_row columns row = .ok record) :
    holds_row columns (write_row columns record) ∧ read_row columns (write_row columns record) = .ok record := by
  induction columns generalizing row record with
  | nil =>
    cases reads
    exact ⟨rfl,rfl⟩
  | cons c columns ih =>
    cases row with
    | nil => cases held
    | cons v row =>
      simp only [holds_row,Bool.and_eq_true] at held
      obtain ⟨a,rest,first,later,rfl⟩ := read_row_cons.mp reads
      obtain ⟨holds,same⟩ := faithful c (.head _) v a held.1 first
      obtain ⟨holds_rest,same_rest⟩ := ih (fun c' inside => faithful c' (.tail _ inside)) held.2 later
      refine ⟨?_,?_⟩
      · rw [write_row,holds_row,holds,holds_rest]
        rfl
      · rw [write_row]
        exact read_row_cons.mpr ⟨a,rest,same,same_rest,rfl⟩

/-! ### Tables -/

/-- A table: how its rows are read and written, the rows that it admits, and which two rows it
    does not take together. -/
structure Table (ε ρ α : Type u) where
  read : ρ → Except ε α
  write : α → ρ
  admits : ρ → Bool
  clash : ρ → ρ → Bool

namespace Table
variable {ρ α : Type u} (t : Table ε ρ α)

/-- What is read of a row that the table admits is written as a row that it admits and that reads
    the same. -/
def Faithful : Prop := ∀ row record, t.admits row → t.read row = .ok record → t.admits (t.write record) ∧ t.read (t.write record) = .ok record

/-- No row clashes with a later one. -/
def Apart (rows : List ρ) : Prop := rows.Pairwise (fun row later => t.clash row later = false)

instance (rows : List ρ) : Decidable (t.Apart rows) := inferInstanceAs (Decidable (rows.Pairwise _))

/-- Take a row at the end, or refuse it. -/
def take (refusal : ε) (rows : List ρ) (row : ρ) : Except ε (List ρ) :=
  if t.admits row ∧ rows.all (fun held => !t.clash held row) then .ok (rows ++ [row]) else .error refusal

def dump (rows : List ρ) : Except ε (List α) := rows.mapM t.read

variable {t} {refusal : ε} {rows rows' new : List ρ} {row : ρ}

theorem take_one : t.take refusal rows row = .ok rows' ↔
    t.admits row ∧ (∀ held ∈ rows, t.clash held row = false) ∧ rows' = rows ++ [row] := by
  rw [take,if_ok,Except.ok.injEq,eq_comm (a := rows'),and_assoc]
  simp only [List.all_eq_true,Bool.not_eq_true']

/-- Two rows that clash both ways are one row. -/
theorem Apart.unique (apart : t.Apart rows) {row' : ρ} (inside : row ∈ rows) (inside' : row' ∈ rows) (clash : t.clash row row')
    (clash' : t.clash row' row) : row = row' := by
  induction apart with
  | nil => cases inside
  | cons free _ ih =>
    rcases List.mem_cons.mp inside with rfl | later
    · rcases List.mem_cons.mp inside' with rfl | later'
      · rfl
      · rw [free _ later'] at clash
        cases clash
    · rcases List.mem_cons.mp inside' with rfl | later'
      · rw [free _ later] at clash'
        cases clash'
      · exact ih later later'

theorem apart_append_one : t.Apart (rows ++ [row]) ↔ t.Apart rows ∧ ∀ held ∈ rows, t.clash held row = false := by
  simp [Apart,List.pairwise_append]

/-- Rows are all taken iff each is admitted and none clashes with one before it. -/
theorem take_ok (apart : t.Apart rows) :
    new.foldlM (t.take refusal) rows = .ok rows' ↔ (∀ row ∈ new, t.admits row) ∧ t.Apart (rows ++ new) ∧ rows' = rows ++ new := by
  induction new generalizing rows with
  | nil =>
    rw [foldlM_nil_ok,List.append_nil,eq_comm]
    exact ⟨fun same => ⟨nofun,apart,same⟩,fun taken => taken.2.2⟩
  | cons row new ih =>
    have onward : rows ++ row :: new = rows ++ [row] ++ new := by simp
    rw [foldlM_cons_ok,onward,List.forall_mem_cons]
    constructor
    · rintro ⟨held,first,later⟩
      obtain ⟨admitted,free,rfl⟩ := take_one.mp first
      obtain ⟨all,apart',made⟩ := (ih (apart_append_one.mpr ⟨apart,free⟩)).mp later
      exact ⟨⟨admitted,all⟩,apart',made⟩
    · rintro ⟨⟨admitted,all⟩,apart',made⟩
      have apart_first := (List.pairwise_append.mp apart').1
      exact ⟨_,take_one.mpr ⟨admitted,(apart_append_one.mp apart_first).2,rfl⟩,(ih apart_first).mpr ⟨all,apart',made⟩⟩

/-- A table dumps iff each of its rows reads. -/
theorem dumps : (∃ records, t.dump rows = .ok records) ↔ ∀ row ∈ rows, ∃ record, t.read row = .ok record :=
  ⟨fun ⟨_,dumped⟩ row inside => (mapM_mem dumped).2 row inside |>.imp fun _ both => both.2,mapM_total⟩

/-- A table of admitted rows takes admitted rows only. -/
theorem take_admits (admitted : ∀ row ∈ rows, t.admits row) (taken : new.foldlM (t.take refusal) rows = .ok rows') :
    ∀ row ∈ rows', t.admits row := by
  refine foldlM_keeps (fun rows => ∀ row ∈ rows, t.admits row) (fun row _ rows rows' all first => ?_) admitted taken
  obtain ⟨admits,-,rfl⟩ := take_one.mp first
  exact List.forall_mem_append.mpr ⟨all,by simpa using admits⟩

/-- What is dumped of admitted rows is written as admitted rows, and these dump the same. -/
theorem dump_written (faithful : t.Faithful) (admitted : ∀ row ∈ rows, t.admits row) {records : List α} (dumps : t.dump rows = .ok records) :
    (∀ row ∈ records.map t.write, t.admits row) ∧ t.dump (records.map t.write) = .ok records := by
  induction rows generalizing records with
  | nil =>
    obtain rfl := mapM_nil_ok.mp dumps
    exact ⟨nofun,rfl⟩
  | cons row rows ih =>
    obtain ⟨record,rest,first,later,rfl⟩ := mapM_cons_ok.mp dumps
    obtain ⟨admits,same⟩ := faithful row record (admitted row (.head _)) first
    obtain ⟨all,same_rest⟩ := ih (fun row' inside => admitted row' (.tail _ inside)) later
    exact ⟨List.forall_mem_cons.mpr ⟨admits,all⟩,mapM_cons_ok.mpr ⟨record,rest,same,same_rest,rfl⟩⟩

/-- A dump loads into an empty table iff no two of the rows written for it clash, and then it is
    the dump of what was loaded. -/
theorem load_dump (faithful : t.Faithful) (admitted : ∀ row ∈ rows, t.admits row) {records : List α} (dumps : t.dump rows = .ok records) :
    (∀ loaded, (records.map t.write).foldlM (t.take refusal) [] = .ok loaded ↔
      t.Apart (records.map t.write) ∧ loaded = records.map t.write) ∧ t.dump (records.map t.write) = .ok records := by
  obtain ⟨all,same⟩ := dump_written faithful admitted dumps
  refine ⟨fun loaded => ?_,same⟩
  rw [take_ok .nil,List.nil_append]
  exact and_iff_right all

end Table

/-! ### Rows that are left out where their key is taken -/

section
variable {ρ κ : Type u} [DecidableEq κ] {key : ρ → κ} {rows : List ρ}

def keep_new (key : ρ → κ) (rows : List ρ) (row : ρ) : List ρ := if key row ∈ rows.map key then rows else rows ++ [row]

theorem keep_new_sublist {new : List ρ} : (new.foldl (keep_new key) rows).Sublist (rows ++ new) := by
  induction new generalizing rows with
  | nil => simp
  | cons row new ih =>
    have one : (keep_new key rows row).Sublist (rows ++ [row]) := by
      unfold keep_new
      split <;> simp
    have rest := ih.trans (one.append_right new)
    rwa [List.append_assoc,List.singleton_append] at rest

/-- Rows are all kept iff no two have one key. -/
theorem keep_all {new : List ρ} (distinct : (rows.map key).Nodup) :
    new.foldl (keep_new key) rows = rows ++ new ↔ ((rows ++ new).map key).Nodup := by
  induction new generalizing rows with
  | nil => simpa using distinct
  | cons row new ih =>
    have onward : rows ++ row :: new = rows ++ [row] ++ new := by simp
    rw [List.foldl_cons]
    by_cases taken : key row ∈ rows.map key
    · rw [keep_new,if_pos taken]
      refine iff_of_false (fun all => ?_) (fun apart => ?_)
      · have short := (@keep_new_sublist _ _ _ key rows new).length_le
        rw [all,List.length_append,List.length_append,List.length_cons] at short
        omega
      · rw [List.map_append,List.map_cons] at apart
        exact (List.nodup_append.mp apart).2.2 _ taken _ (.head _) rfl
    · rw [keep_new,if_neg taken,onward]
      refine ih ?_
      rw [List.map_append,List.map_singleton]
      refine List.nodup_append.mpr ⟨distinct,by simp,fun k held k' last same => ?_⟩
      rw [same,List.mem_singleton.mp last] at held
      exact taken held

theorem keep_all_nil {new : List ρ} : new.foldl (keep_new key) [] = new ↔ (new.map key).Nodup := by
  have all := @keep_all _ _ _ key [] new List.nodup_nil
  rwa [List.nil_append] at all

/-- As many rows are kept as there were iff no two have one key. -/
theorem keep_all_length {new : List ρ} : (new.foldl (keep_new key) []).length = new.length ↔ (new.map key).Nodup := by
  rw [← keep_all_nil]
  exact ⟨keep_new_sublist.eq_of_length,congrArg List.length⟩

end
end Dumps
