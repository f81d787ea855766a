import Mathlib.Data.Nat.Find
import Mathlib.Tactic.Common

/-!
# Cells in a grid

Cells that span some rows and columns are placed row by row, every one at the first column of its row that no cell
placed before covers. `Fits` says that they stay within a number of rows and columns and never cover a slot twice.
-/

namespace Grid

structure Cell where
  (row column colspan rowspan : Nat)

def Cell.Covers (cell : Cell) (row column : Nat) : Prop :=
  cell.row ≤ row ∧ row < cell.row + cell.rowspan ∧ cell.column ≤ column ∧ column < cell.column + cell.colspan

def Covered (placed : List Cell) (row column : Nat) : Prop :=
  ∃ cell ∈ placed, cell.Covers row column

variable {placed : List Cell} {cell : Cell} {row column rows columns : Nat} {spans : List (Nat × Nat)}

@[simp]
theorem covered_nil : ¬ Covered [] row column :=
  fun ⟨_, h, _⟩ => List.not_mem_nil h

@[simp]
theorem covered_append_one : Covered (placed ++ [cell]) row column ↔ Covered placed row column ∨ cell.Covers row column := by
  simp [Covered, or_and_right, exists_or]

theorem exists_free (placed : List Cell) (row : Nat) : ∃ column, ¬ Covered placed row column := by
  have hbound : ∃ bound, ∀ cell ∈ placed, cell.column + cell.colspan ≤ bound := by
    induction placed with
    | nil => exact ⟨0, fun _ h => absurd h List.not_mem_nil⟩
    | cons first placed ih =>
      obtain ⟨bound, hbound⟩ := ih
      refine ⟨max (first.column + first.colspan) bound, List.forall_mem_cons.mpr ⟨le_max_left _ _, fun cell hcell => ?_⟩⟩
      exact le_trans (hbound cell hcell) (le_max_right _ _)
  obtain ⟨bound, hbound⟩ := hbound
  refine ⟨bound, fun ⟨cell, hcell, hcovers⟩ => ?_⟩
  exact absurd hcovers.2.2.2 (Nat.not_lt.mpr (hbound cell hcell))

open Classical in
/-- The first column of a row that nothing covers. -/
noncomputable def firstFree (placed : List Cell) (row : Nat) : Nat :=
  Nat.find (exists_free placed row)

open Classical in
theorem firstFree_eq (hfree : ¬ Covered placed row column) (hbefore : ∀ c < column, Covered placed row c) :
    firstFree placed row = column := by
  rw [firstFree, Nat.find_eq_iff]
  exact ⟨hfree, fun c hc => not_not.mpr (hbefore c hc)⟩

/-- The cells of one row are placed, each given by the columns and the rows it spans. -/
noncomputable def placeRow (row : Nat) (placed : List Cell) : List (Nat × Nat) → List Cell
  | [] => placed
  | (colspan, rowspan) :: rest => placeRow row (placed ++ [⟨row, firstFree placed row, colspan, rowspan⟩]) rest

/-- The cells of all rows are placed. -/
noncomputable def placeRows (row : Nat) (placed : List Cell) : List (List (Nat × Nat)) → List Cell
  | [] => placed
  | spans :: rest => placeRows (row + 1) (placeRow row placed spans) rest

structure Fits (rows columns : Nat) (placed : List Cell) : Prop where
  inside : ∀ cell ∈ placed, cell.row + cell.rowspan ≤ rows ∧ cell.column + cell.colspan ≤ columns
  apart : placed.Pairwise fun a b => ∀ row column, ¬ (a.Covers row column ∧ b.Covers row column)

theorem Fits.nil : Fits rows columns [] :=
  ⟨fun _ h => absurd h List.not_mem_nil, .nil⟩

theorem fits_append_one :
    Fits rows columns (placed ++ [cell])
      ↔ Fits rows columns placed ∧ (cell.row + cell.rowspan ≤ rows ∧ cell.column + cell.colspan ≤ columns)
        ∧ ∀ row column, ¬ (Covered placed row column ∧ cell.Covers row column) := by
  constructor
  · rintro ⟨hinside, hapart⟩
    obtain ⟨hplaced, -, hcell⟩ := List.pairwise_append.mp hapart
    refine ⟨⟨fun c hc => hinside c (List.mem_append_left _ hc), hplaced⟩, hinside cell (by simp), ?_⟩
    rintro row column ⟨⟨other, hother, hcovers⟩, hcovers'⟩
    exact hcell other hother cell (List.mem_singleton_self _) row column ⟨hcovers, hcovers'⟩
  · rintro ⟨hplaced, hinside, hcell⟩
    refine ⟨fun c hc => ?_, List.pairwise_append.mpr ⟨hplaced.apart, List.pairwise_singleton _ _, ?_⟩⟩
    · rcases List.mem_append.mp hc with hc | hc
      · exact hplaced.inside c hc
      · rwa [List.mem_singleton.mp hc]
    · rintro other hother c hc row column ⟨hcovers, hcovers'⟩
      obtain rfl := List.mem_singleton.mp hc
      exact hcell row column ⟨⟨other, hother, hcovers⟩, hcovers'⟩

theorem Fits.lt_columns (h : Fits rows columns placed) (hcovered : Covered placed row column) :
    row < rows ∧ column < columns := by
  obtain ⟨cell, hcell, hcovers⟩ := hcovered
  have hinside := h.inside cell hcell
  have := hcovers.2.1
  have := hcovers.2.2.2
  omega

theorem fits_of_placeRow (h : Fits rows columns (placeRow row placed spans)) : Fits rows columns placed := by
  induction spans generalizing placed with
  | nil => exact h
  | cons span spans ih => exact (fits_append_one.mp (ih h)).1

theorem fits_of_placeRows {table : List (List (Nat × Nat))} (h : Fits rows columns (placeRows row placed table)) :
    Fits rows columns placed := by
  induction table generalizing row placed with
  | nil => exact h
  | cons spans table ih => exact fits_of_placeRow (ih h)

theorem covered_placeRow {r : Nat} (hr : r < row) :
    Covered (placeRow row placed spans) r column ↔ Covered placed r column := by
  induction spans generalizing placed with
  | nil => rfl
  | cons span spans ih =>
    rw [placeRow, ih, covered_append_one]
    exact or_iff_left fun hcovers => absurd hcovers.1 (by simpa using hr)

theorem covered_placeRows {table : List (List (Nat × Nat))} {r : Nat} (hr : r < row) :
    Covered (placeRows row placed table) r column ↔ Covered placed r column := by
  induction table generalizing row placed with
  | nil => rfl
  | cons spans table ih => rw [placeRows, ih (by omega), covered_placeRow hr]

end Grid
