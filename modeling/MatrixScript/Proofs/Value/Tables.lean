import Mathlib.Tactic.Choose
import MatrixScript.Proofs.Value.Nesting

/-!
# Tables

A table is an array whose members are arrays of one length, whatever stands in them.  It is
given by its cells, and `table` puts them together.  The transpose of a table is the table of
the same cells with rows and columns exchanged.

An array without rows does not tell how long they would be, and it counts as a table without
columns.  So a table with rows but without columns is lost when it is transposed: it
becomes empty, and stays so.
-/

namespace MatrixScript.Value

/-- The array with these cells. -/
def table {height width : Nat} (cells : Fin height → Fin width → Value) : Value :=
  .array (List.ofFn fun row => .array (List.ofFn (cells row)))

/-- The value is an array of rows, which are arrays of one width; without rows it has none. -/
structure IsTable (height width : Nat) (value : Value) : Prop where
  rows : value.ArrayOf (ArrayOf (fun _ => True) (· = width)) (· = height)
  sized : height = 0 → width = 0

variable {height width : Nat} {value transposed : Value}
    {cells : Fin height → Fin width → Value}

/-! ## Cells -/

theorem map_range_eq_ofFn {α : Type} (entry : Nat → α) (length : Nat) :
    (List.range length).map entry = List.ofFn fun place : Fin length => entry place := by
  apply List.ext_getElem
  · simp
  · simp

/-- The members of an array with a given number of them. -/
theorem ArrayOf.exists_ofFn {member : Value → Prop} {length : Nat}
    (array : value.ArrayOf member (· = length)) :
    ∃ members : Fin length → Value,
      value = .array (List.ofFn members) ∧ ∀ place, member (members place) := by
  rcases array.exists_items with ⟨items, rfl, itemsHave, rfl⟩
  refine ⟨fun place => items[place.val], ?_, ?_⟩
  · rw [List.ofFn_getElem]
  · intro place
    exact itemsHave _ (List.getElem_mem place.isLt)

theorem arrayOf_ofFn {member : Value → Prop} {length : Nat} {members : Fin length → Value}
    (each : ∀ place, member (members place)) :
    (Value.array (List.ofFn members)).ArrayOf member (· = length) := by
  refine ⟨?_, List.length_ofFn⟩
  intro item found
  rcases List.mem_ofFn.mp found with ⟨place, rfl⟩
  exact each place

theorem IsTable.exists_cells (isTable : value.IsTable height width) :
    ∃ cells : Fin height → Fin width → Value, value = table cells := by
  rcases isTable.rows.exists_ofFn with ⟨rows, rfl, arrays⟩
  choose cells rowIs _ using fun row => (arrays row).exists_ofFn
  refine ⟨cells, ?_⟩
  rw [table, funext rowIs]

theorem table_rows (cells : Fin height → Fin width → Value) :
    (table cells).ArrayOf (ArrayOf (fun _ => True) (· = width)) (· = height) :=
  arrayOf_ofFn fun _ => arrayOf_ofFn fun _ => trivial

theorem part?_table (row : Fin height) (column : Fin width) :
    (table cells).part? [row, column] = some (cells row column) := by
  simp [table, part?]

theorem table_without_rows (cells : Fin 0 → Fin width → Value) :
    table cells = .array [] := by
  rw [table, List.ofFn_zero]

/-! ## Transposes -/

/-- A column is read off the rows, which all reach that far. -/
theorem column_ofFn (cells : Fin height → Fin width → Value) (column : Fin width) :
    (List.ofFn fun row => List.ofFn (cells row)).filterMap (fun row => row[column.val]?) =
      List.ofFn fun row => cells row column := by
  induction height with
  | zero => rfl
  | succ height ih =>
      have found : (List.ofFn (cells 0))[column.val]? = some (cells 0 column) := by
        simp
      simp only [List.ofFn_succ, List.filterMap_cons, found]
      rw [ih fun row => cells row.succ]

theorem columns_ofFn (cells : Fin height → Fin width → Value) :
    columns width (List.ofFn fun row => List.ofFn (cells row)) =
      List.ofFn fun column => List.ofFn fun row => cells row column := by
  rw [columns, map_range_eq_ofFn]
  exact congrArg List.ofFn (funext (column_ofFn cells))

theorem transpose_table (cells : Fin height → Fin width → Value)
    (sized : height = 0 → width = 0) :
    transpose (table cells) = .ok (table fun row column => cells column row) := by
  have widthIs : ((List.ofFn fun row => List.ofFn (cells row)).head?.map List.length).getD 0 =
      width := by
    cases height with
    | zero => exact (sized rfl).symm
    | succ height => simp
  have rows : table cells = .array ((List.ofFn fun row => List.ofFn (cells row)).map .array) := by
    rw [table, List.map_ofFn]
    rfl
  rw [rows, transpose_rows, widthIs, columns_ofFn, if_pos, List.map_ofFn]
  · rfl
  · rw [List.all_eq_true]
    intro row member
    rcases List.mem_ofFn.mp member with ⟨place, rfl⟩
    simp

/-- Only arrays have cells. -/
theorem eq_of_mapM_rowCells {items : List Value} {rows : List (List Value)}
    (read : items.mapM rowCells = .ok rows) : items = rows.map .array := by
  induction items generalizing rows with
  | nil =>
      cases read
      rfl
  | cons head tail ih =>
      rw [List.mapM_cons] at read
      rcases exists_of_bind read with ⟨cells, first, read⟩
      rcases exists_of_bind read with ⟨others, rest, read⟩
      cases read
      cases head with
      | array items =>
          cases first
          rw [List.map_cons, ih rest]
      | _ => cases first

theorem exists_rows_of_transpose (computed : transpose value = .ok transposed) :
    ∃ rows : List (List Value), value = .array (rows.map .array) := by
  rw [transpose] at computed
  rcases exists_of_bind computed with ⟨items, found, computed⟩
  rcases exists_of_bind computed with ⟨rows, read, _⟩
  cases value with
  | array items =>
      cases found
      exact ⟨rows, by rw [eq_of_mapM_rowCells read]⟩
  | _ => cases found

theorem isTable_of_transpose (computed : transpose value = .ok transposed) :
    ∃ height width, value.IsTable height width := by
  rcases exists_rows_of_transpose computed with ⟨rows, rfl⟩
  rw [transpose_rows] at computed
  split at computed
  · rename_i rectangle
    simp only [List.all_eq_true, beq_iff_eq] at rectangle
    refine ⟨rows.length, (rows.head?.map List.length).getD 0, ⟨?_, ?_⟩, ?_⟩
    · intro row member
      rcases List.mem_map.mp member with ⟨cells, found, rfl⟩
      exact ⟨fun _ _ => trivial, rectangle cells found⟩
    · rw [List.length_map]
    · intro none
      cases List.eq_nil_of_length_eq_zero none
      rfl
  · cases computed

/-- To transpose a table twice restores it, unless it has rows but no columns. -/
theorem transpose_back_iff (cells : Fin height → Fin width → Value) :
    transpose (table fun row column => cells column row) = .ok (table cells) ↔
      height = 0 ∨ 1 ≤ width := by
  constructor
  · intro restored
    rcases Nat.eq_zero_or_pos width with rfl | positive
    -- Without columns the transpose is empty, and an empty array is all that comes back.
    · rw [table_without_rows] at restored
      have empty : [] = List.ofFn fun row => Value.array (List.ofFn (cells row)) :=
        Value.array.inj (Except.ok.inj restored)
      exact .inl (by simpa using congrArg List.length empty.symm)
    · exact .inr positive
  · intro kept
    exact transpose_table _ (by omega)

/--
A value has a transpose just if it is a table.  The transpose has a row for each column and
in it the cells of this column.  To transpose twice restores the value if it is empty or has
columns, and else leaves the empty array.
-/
theorem transposes (value : Value) :
    ((∃ transposed, transpose value = .ok transposed) ↔
      ∃ height width, value.IsTable height width) ∧
    ∀ height width, value.IsTable height width →
      ∃ transposed, transpose value = .ok transposed ∧
        transposed.ArrayOf (ArrayOf (fun _ => True) (· = height)) (· = width) ∧
        (∀ row < width, ∀ column < height, ∃ cell,
          transposed.part? [row, column] = some cell ∧ value.part? [column, row] = some cell) ∧
        (transpose transposed = .ok value ↔ height = 0 ∨ 1 ≤ width) ∧
        (height ≠ 0 → width = 0 → transpose transposed = .ok (.array [])) := by
  refine ⟨⟨?_, ?_⟩, ?_⟩
  · rintro ⟨transposed, computed⟩
    exact isTable_of_transpose computed
  · rintro ⟨height, width, isTable⟩
    rcases isTable.exists_cells with ⟨cells, rfl⟩
    exact ⟨_, transpose_table cells isTable.sized⟩
  · intro height width isTable
    rcases isTable.exists_cells with ⟨cells, rfl⟩
    refine ⟨_, transpose_table cells isTable.sized, table_rows _, ?_, transpose_back_iff cells, ?_⟩
    · intro row inside column below
      exact ⟨cells ⟨column, below⟩ ⟨row, inside⟩, part?_table ⟨row, inside⟩ ⟨column, below⟩,
        part?_table ⟨column, below⟩ ⟨row, inside⟩⟩
    · rintro - rfl
      rw [table_without_rows]
      rfl

/-- The row `[1, "a"]` becomes a column and a row again; two rows without cells are lost. -/
theorem transposes_row :
    (IsTable 1 2 (.array [.array [.int 1, .string "a"]]) ∧
      ∃ transposed, transpose (.array [.array [.int 1, .string "a"]]) = .ok transposed ∧
        transposed.part? [1, 0] = some (.string "a") ∧
        transpose transposed = .ok (.array [.array [.int 1, .string "a"]])) ∧
    (IsTable 2 0 (.array [.array [], .array []]) ∧
      ∃ transposed, transpose (.array [.array [], .array []]) = .ok transposed ∧
        transpose transposed = .ok (.array [])) := by
  have row : IsTable 1 2 (.array [.array [.int 1, .string "a"]]) :=
    ⟨by simp, by rintro ⟨⟩⟩
  have gaps : IsTable 2 0 (.array [.array [], .array []]) :=
    ⟨by simp, by rintro ⟨⟩⟩
  refine ⟨⟨row, ?_⟩, gaps, ?_⟩
  · rcases (transposes _).2 1 2 row with ⟨transposed, computed, _, cells, back, _⟩
    rcases cells 1 (by omega) 0 (by omega) with ⟨cell, found, is⟩
    cases is
    exact ⟨transposed, computed, found, back.mpr (.inr (by omega))⟩
  · rcases (transposes _).2 2 0 gaps with ⟨transposed, computed, _, _, _, lost⟩
    exact ⟨transposed, computed, lost (by rintro ⟨⟩) rfl⟩

end MatrixScript.Value
