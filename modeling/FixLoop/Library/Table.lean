import Mathlib.Data.List.AList

namespace FixLoop
namespace Library

/-!
# Tables with a primary key

A table maps each key to one row.  Rows are inserted under new keys or
changed in place; a table that only ever gains rows keeps every row it had.
-/

abbrev Table (Row : Type) := AList fun _ : String => Row

namespace Table

variable {Row : Type}

/-- `UPDATE ... WHERE id = key`: no row, no effect. -/
def modify (key : String) (change : Row -> Row) (table : Table Row) : Table Row :=
  match table.lookup key with
  | some row => table.insert key (change row)
  | none => table

/-- The keys and rows in the order of the table. -/
def rows (table : Table Row) : List (String × Row) :=
  table.entries.map fun entry => (entry.1, entry.2)

/-- The rows in the order of the table. -/
def values (table : Table Row) : List Row :=
  table.entries.map fun entry => entry.2

variable {table : Table Row} {key : String} {row : Row}

theorem mem_rows : (key, row) ∈ table.rows <-> table.lookup key = some row := by
  rw [<- Option.mem_def, AList.mem_lookup_iff]
  constructor
  · intro member
    rcases List.mem_map.mp member with ⟨⟨other, value⟩, listed, same⟩
    cases same
    exact listed
  · intro listed
    exact List.mem_map.mpr ⟨⟨key, row⟩, listed, rfl⟩

theorem modify_of_some {change : Row -> Row} (stored : table.lookup key = some row) :
    table.modify key change = table.insert key (change row) := by
  simp only [modify, stored]

theorem modify_of_none {change : Row -> Row} (missing : table.lookup key = none) :
    table.modify key change = table := by
  simp only [modify, missing]

/-- A row after an insertion is the new row or an old one. -/
theorem lookup_insert_some {other : String} {new : Row}
    (stored : (table.insert key new).lookup other = some row) :
    (other = key ∧ row = new) ∨ (other ≠ key ∧ table.lookup other = some row) := by
  by_cases same : other = key
  · subst same
    rw [AList.lookup_insert] at stored
    exact Or.inl ⟨rfl, (Option.some.inj stored).symm⟩
  · rw [AList.lookup_insert_ne same] at stored
    exact Or.inr ⟨same, stored⟩

theorem lookup_of_notMem (fresh : key ∉ table) : table.lookup key = none :=
  AList.lookup_eq_none.mpr fresh

theorem ne_of_stored {other : String} (fresh : key ∉ table) (stored : table.lookup other = some row) :
    other ≠ key := by
  rintro rfl
  rw [lookup_of_notMem fresh] at stored
  cases stored

theorem mem_of_lookup (stored : table.lookup key = some row) : key ∈ table := by
  rw [<- AList.lookup_isSome, stored]
  rfl

theorem values_insert_fresh (fresh : table.lookup key = none) (row : Row) :
    values (table.insert key row) = row :: table.values := by
  rw [values, AList.entries_insert_of_notMem (AList.lookup_eq_none.mp fresh)]
  rfl

/-- Replacing a row exchanges it for the new one among the rows. -/
theorem values_insert_stored {old : Row} (stored : table.lookup key = some old) (new : Row) :
    ∃ rest : List Row,
      table.values.Perm (old :: rest) ∧ values (table.insert key new) = new :: rest := by
  rcases List.exists_of_kerase (mem_of_lookup stored) with ⟨held, front, back, -, split, erased⟩
  have here : table.lookup key = some held :=
    AList.mem_lookup_iff.mpr (by rw [split]; exact List.mem_append_right _ List.mem_cons_self)
  rw [stored] at here
  cases here
  refine ⟨(front ++ back).map (fun entry => entry.2), ?_, ?_⟩
  · rw [values, split]
    exact List.perm_middle.map fun entry : Sigma fun _ : String => Row => entry.2
  · rw [values, AList.entries_insert, erased]
    rfl

/-- Every row of the first table is in the second one, unchanged. -/
def Keeps (before after : Table Row) : Prop :=
  ∀ key row, before.lookup key = some row -> after.lookup key = some row

theorem Keeps.refl (table : Table Row) : Keeps table table :=
  fun _ _ stored => stored

theorem Keeps.trans {first second third : Table Row} (earlier : Keeps first second)
    (later : Keeps second third) : Keeps first third :=
  fun key row stored => later key row (earlier key row stored)

theorem keeps_insert (fresh : key ∉ table) (row : Row) : Keeps table (table.insert key row) := by
  intro other value stored
  rw [AList.lookup_insert_ne (ne_of_stored fresh stored)]
  exact stored

end Table

end Library
end FixLoop
