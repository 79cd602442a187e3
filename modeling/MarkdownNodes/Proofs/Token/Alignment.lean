import MarkdownNodes.Token.Make
import Mathlib.Data.List.Forall2

/-! Alignments of tables. A table that is given alignments for its columns passes them on to its cells and
changes nothing else about them. A cell beyond the last column is not reached and keeps the alignment it
had, so that the table is in step with its cells just if no such cell had one. -/

namespace MarkdownNodes

namespace Cell

variable {τ : Type}

/-- Every cell has the alignment of its column, and none beyond the last column. -/
def InStep (columns : List (Option Align)) (cells : List (Cell τ)) : Prop :=
  ∀ (i : Nat) (cell : Cell τ), cells[i]? = some cell → cell.align = columns[i]?.join

/-- The cell but for its alignment. -/
def unaligned (cell : Cell τ) : Cell τ := { cell with align := none }

/-- What becomes of the cells of a row when the columns are given alignments. -/
structure Aligned (columns : List (Option Align)) (cells cells' : List (Cell τ)) : Prop where
  /-- The row keeps its length, and each cell all but its alignment. -/
  kept : cells'.map unaligned = cells.map unaligned
  within : ∀ (i : Nat) (column : Option Align) (cell' : Cell τ),
    columns[i]? = some column → cells'[i]? = some cell' → cell'.align = column
  beyond : ∀ i : Nat, columns.length ≤ i → cells'[i]? = cells[i]?
  inStep_iff : InStep columns cells' ↔ ∀ cell ∈ cells.drop columns.length, cell.align = none

theorem getElem?_alignRow (columns : List (Option Align)) (cells : List (Cell τ)) (i : Nat) :
    (alignRow columns cells)[i]? = cells[i]?.map fun cell => { cell with align := columns[i]?.getD cell.align } := by
  induction columns generalizing cells i with
  | nil => simp [alignRow]
  | cons column columns ih =>
      cases cells with
      | nil => simp [alignRow]
      | cons cell cells =>
          cases i with
          | zero => simp [alignRow]
          | succ i => simpa [alignRow] using ih cells i

theorem map_unaligned_alignRow (columns : List (Option Align)) (cells : List (Cell τ)) :
    (alignRow columns cells).map unaligned = cells.map unaligned := by
  ext1 i
  rw [List.getElem?_map, List.getElem?_map, getElem?_alignRow, Option.map_map]
  rfl

theorem getElem?_alignRow_of_length_le {columns : List (Option Align)} {i : Nat} (h : columns.length ≤ i)
    (cells : List (Cell τ)) : (alignRow columns cells)[i]? = cells[i]? := by
  rw [getElem?_alignRow, List.getElem?_eq_none h]
  exact Option.map_id_apply

/-- A row is in step with the columns just if its cells beyond them had no alignment before. -/
theorem inStep_alignRow_iff (columns : List (Option Align)) (cells : List (Cell τ)) :
    InStep columns (alignRow columns cells) ↔ ∀ cell ∈ cells.drop columns.length, cell.align = none := by
  constructor
  · intro h cell hcell
    obtain ⟨i, hi⟩ := List.mem_iff_getElem?.mp hcell
    rw [List.getElem?_drop] at hi
    have hbeyond : columns.length ≤ columns.length + i := Nat.le_add_right _ i
    have halign := h _ cell ((getElem?_alignRow_of_length_le hbeyond cells).trans hi)
    rwa [List.getElem?_eq_none hbeyond] at halign
  · intro h i cell' hcell'
    rw [getElem?_alignRow, Option.map_eq_some_iff] at hcell'
    obtain ⟨cell, hcell, rfl⟩ := hcell'
    by_cases hi : i < columns.length
    · simp [List.getElem?_eq_getElem hi]
    · have hbeyond : cell ∈ cells.drop columns.length := by
        refine List.mem_iff_getElem?.mpr ⟨i - columns.length, ?_⟩
        rwa [List.getElem?_drop, Nat.add_sub_cancel' (Nat.le_of_not_lt hi)]
      simp [List.getElem?_eq_none (Nat.le_of_not_lt hi), h cell hbeyond]

theorem aligned_alignRow (columns : List (Option Align)) (cells : List (Cell τ)) :
    Aligned columns cells (alignRow columns cells) where
  kept := map_unaligned_alignRow columns cells
  within i column cell' hcolumn hcell' := by
    rw [getElem?_alignRow, hcolumn, Option.map_eq_some_iff] at hcell'
    obtain ⟨cell, _, rfl⟩ := hcell'
    rfl
  beyond i hi := getElem?_alignRow_of_length_le hi cells
  inStep_iff := inStep_alignRow_iff columns cells

/-- A row whose cells have no alignment gets in step with the columns, however many there are. -/
theorem inStep_alignRow_of_unaligned (columns : List (Option Align)) {cells : List (Cell τ)}
    (h : ∀ cell ∈ cells, cell.align = none) : InStep columns (alignRow columns cells) :=
  (inStep_alignRow_iff columns cells).mpr fun cell hcell => h cell (List.mem_of_mem_drop hcell)

end Cell

namespace Token

/-- A table that is given alignments has these, and the same source as before. The cells of its header and of
every row have the alignments of their columns and are otherwise unchanged; those beyond the last column keep
their alignment, and where none had one the row is in step with the columns. -/
theorem withAlignment_aligns_cells (columns : List (Option Align)) (raw : String) (align : List (Option Align))
    (header : List (Cell Token)) (rows : List (List (Cell Token))) :
    ∃ header' rows', (Token.table raw align header rows).withAlignment columns =
        .table raw columns header' rows' ∧
      Cell.Aligned columns header header' ∧ List.Forall₂ (Cell.Aligned columns) rows rows' := by
  refine ⟨_, _, rfl, Cell.aligned_alignRow columns header, ?_⟩
  rw [List.forall₂_map_right_iff, List.forall₂_same]
  exact fun row _ => Cell.aligned_alignRow columns row

/-- A table with two aligned columns that is then given an alignment for the first only: the second cell of
its header still has the alignment that the table has lost. -/
theorem second_alignment_leaves_cells_out_of_step :
    ¬ ∀ (columns : List (Option Align)) (raw : String) (align : List (Option Align)) (header : List (Cell Token))
        (rows : List (List (Cell Token))), ∃ header' rows',
      (Token.table raw align header rows).withAlignment columns = .table raw columns header' rows' ∧
        Cell.InStep columns header' ∧ ∀ row' ∈ rows', Cell.InStep columns row' := by
  intro h
  obtain ⟨header', rows', htable, hstep, _⟩ := h [some .center] "" [some .left, some .right]
    [{ align := some .left }, { align := some .right }] []
  cases htable
  exact absurd (hstep 1 { align := some .right } rfl) (by decide)

/-- A table made by hand is in step once it is given alignments. -/
theorem inStep_withAlignment_ofCells (columns : List (Option Align)) (header : List (List Token))
    (rows : List (List (List Token))) : ∃ header' rows',
      (Token.ofCells header rows).withAlignment columns = .table "" columns header' rows' ∧
        Cell.InStep columns header' ∧ ∀ row' ∈ rows', Cell.InStep columns row' := by
  have hcells : ∀ isHeader (row : List (List Token)), ∀ cell ∈ row.map (Cell.ofTokens isHeader), cell.align = none := by
    intro isHeader row cell hcell
    obtain ⟨tokens, _, rfl⟩ := List.mem_map.mp hcell
    rfl
  refine ⟨_, _, rfl, Cell.inStep_alignRow_of_unaligned columns (hcells true header), ?_⟩
  intro row' hrow'
  obtain ⟨_, hrow, rfl⟩ := List.mem_map.mp hrow'
  obtain ⟨row, _, rfl⟩ := List.mem_map.mp hrow
  exact Cell.inStep_alignRow_of_unaligned columns (hcells false row)

end Token
end MarkdownNodes
