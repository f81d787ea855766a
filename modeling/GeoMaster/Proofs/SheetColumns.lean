import GeoMaster.Domain.OfficeParse
import GeoMaster.Proofs.ProjectPages

/-!
# Columns of a sheet

The letters of a column are the digits of its number to the base 26, from one to 26 and without a zero. One function
writes them from the last to the first, another reads them from the first to the last. What the first writes for a
column and a row of 32 bits the second reads back, so a reference names one cell, and a header from one reference to
another covers the columns between the two.
-/

namespace GeoMaster

open List Option

/-! ### Letters -/

/-- A letter of a column. -/
def isColumnLetter (c : Char) : Bool :=
  'A' ≤ c && c ≤ 'Z'

/-- The column that some letters name. -/
def lettersColumn (letters : List Char) : Nat :=
  letters.foldl (fun n c => 26 * n + (c.toNat - 64)) 0

theorem columnLetter : ∀ digit < 26,
    isColumnLetter (Char.ofNat (65 + digit)) = true ∧ (Char.ofNat (65 + digit)).toNat = 65 + digit := by
  decide

theorem lettersColumn_concat (letters : List Char) {digit : Nat} (h : digit < 26) :
    lettersColumn (letters ++ [Char.ofNat (65 + digit)]) = 26 * lettersColumn letters + digit + 1 := by
  rw [lettersColumn, foldl_append, foldl_cons, foldl_nil, (columnLetter digit h).2]
  show 26 * lettersColumn letters + (65 + digit - 64) = _
  omega

theorem xlsxColumnLetters_succ (fuel column : Nat) :
    xlsxColumnLetters (fuel + 1) column = if column = 0 then []
      else xlsxColumnLetters fuel ((column - 1) / 26) ++ [Char.ofNat (65 + (column - 1) % 26)] :=
  rfl

theorem lettersColumn_letters {fuel column : Nat} (h : column < 26 ^ fuel) :
    lettersColumn (xlsxColumnLetters fuel column) = column := by
  induction fuel generalizing column with
  | zero =>
    have hzero : column = 0 := by omega
    rw [hzero]
    rfl
  | succ fuel ih =>
    rw [xlsxColumnLetters_succ]
    split
    · next hzero => exact hzero.symm
    · next hpos =>
      -- the digit of the last letter counts from one, so one is taken off before the division
      have hrest : (column - 1) / 26 < 26 ^ fuel := by
        rw [pow_succ] at h
        omega
      rw [lettersColumn_concat _ (Nat.mod_lt _ (by decide)), ih hrest]
      omega

theorem xlsxColumnLetters_all {fuel column : Nat} : ∀ c ∈ xlsxColumnLetters fuel column, isColumnLetter c = true := by
  induction fuel generalizing column with
  | zero => nofun
  | succ fuel ih =>
    rw [xlsxColumnLetters_succ]
    split
    · simp
    · intro c hc
      rcases mem_append.mp hc with hc | hc
      · exact ih c hc
      · rw [mem_singleton.mp hc]
        exact (columnLetter _ (Nat.mod_lt _ (by decide))).1

theorem xlsxColumnLetters_ne_nil {fuel column : Nat} (h : 0 < column) : xlsxColumnLetters (fuel + 1) column ≠ [] := by
  rw [xlsxColumnLetters_succ, if_neg h.ne']
  exact append_ne_nil_of_right_ne_nil _ (cons_ne_nil _ _)

/-! ### Rows -/

theorem not_columnLetter_of_digit {c : Char} (h : Text.isAsciiDigit c = true) : isColumnLetter c = false := by
  simp only [Text.isAsciiDigit, isColumnLetter, Bool.and_eq_true, decide_eq_true_eq, Char.le_def,
    UInt32.le_iff_toNat_le, Bool.and_eq_false_iff, decide_eq_false_iff_not] at h ⊢
  have hnine : '9'.val.toNat < 'A'.val.toNat := by decide
  omega

/-- The digits of a row are read back. -/
theorem parseU32_repr {row : Nat} (h : row < UInt32.size) : parseU32 row.repr.toList = some row := by
  have hdecimal := decimal_repr row
  rw [Text.decimal] at hdecimal
  split at hdecimal
  · next hdigits =>
    have hsign : row.repr.toList.head? ≠ some '+' := by
      intro hhead
      have hdigit := repr_digits row '+' (mem_of_mem_head? hhead)
      exact absurd hdigit (by decide)
    have hvalue := some.inj hdecimal
    simp only [parseU32, if_neg hsign, hvalue]
    rw [if_pos ⟨hdigits.1, hdigits.2, h⟩]
  · cases hdecimal

/-! ### References -/

variable {column row column' row' : UInt32}

theorem toList_xlsxCellReference (column row : UInt32) :
    (xlsxCellReference column row).toList = xlsxColumnLetters 7 column.toNat ++ row.toNat.repr.toList := by
  rw [xlsxCellReference, String.toList_append, String.toList_ofList]
  rfl

theorem takeWhile_reference (column row : UInt32) :
    (xlsxCellReference column row).toList.takeWhile isColumnLetter = xlsxColumnLetters 7 column.toNat := by
  have hrow : row.toNat.repr.toList.takeWhile isColumnLetter = [] := by
    cases hdigits : row.toNat.repr.toList with
    | nil => rfl
    | cons c rest =>
      have hdigit := repr_digits row.toNat c (by rw [hdigits]; exact mem_cons_self)
      exact takeWhile_cons_of_neg (by rw [not_columnLetter_of_digit hdigit]; decide)
  rw [toList_xlsxCellReference, takeWhile_append_of_pos xlsxColumnLetters_all, hrow, append_nil]

theorem xlsxColumnOf_eq (reference : List Char) : xlsxColumnOf reference =
    match parseU32 (reference.drop (reference.takeWhile isColumnLetter).length) with
    | some row =>
      if reference.takeWhile isColumnLetter ≠ []
          ∧ lettersColumn (reference.takeWhile isColumnLetter) < UInt32.size ∧ 0 < row then
        some (lettersColumn (reference.takeWhile isColumnLetter))
      else none
    | none => none :=
  rfl

theorem drop_reference (column row : UInt32) :
    (xlsxCellReference column row).toList.drop (xlsxColumnLetters 7 column.toNat).length = row.toNat.repr.toList := by
  rw [toList_xlsxCellReference, drop_left]

theorem xlsxColumnOf_reference (hcolumn : 0 < column) (hrow : 0 < row) :
    xlsxColumnOf (xlsxCellReference column row).toList = some column.toNat := by
  have hvalue : lettersColumn (xlsxColumnLetters 7 column.toNat) = column.toNat :=
    lettersColumn_letters (column.toNat_lt.trans (by decide))
  rw [xlsxColumnOf_eq, takeWhile_reference, drop_reference, parseU32_repr row.toNat_lt, hvalue]
  exact if_pos ⟨xlsxColumnLetters_ne_nil hcolumn, column.toNat_lt, hrow⟩

theorem xlsxCellReference_inj (hcolumn : 0 < column) (hrow : 0 < row) (hcolumn' : 0 < column') (hrow' : 0 < row')
    (h : xlsxCellReference column row = xlsxCellReference column' row') : column = column' ∧ row = row' := by
  have hread := xlsxColumnOf_reference hcolumn hrow
  rw [h, xlsxColumnOf_reference hcolumn' hrow'] at hread
  obtain rfl : column' = column := UInt32.toNat_inj.mp (some.inj hread)
  have hdigits := drop_reference column' row
  rw [h, drop_reference] at hdigits
  have hvalue := parseU32_repr row.toNat_lt
  rw [← hdigits, parseU32_repr row'.toNat_lt] at hvalue
  exact ⟨rfl, UInt32.toNat_inj.mp (some.inj hvalue.symm)⟩

theorem colon_not_mem_reference (column row : UInt32) : ':' ∉ (xlsxCellReference column row).toList := by
  rw [toList_xlsxCellReference]
  intro h
  rcases mem_append.mp h with h | h
  · exact absurd (xlsxColumnLetters_all _ h) (by decide)
  · exact absurd (repr_digits _ _ h) (by decide)

/-- Coordinates of 32 bits go to a reference and back: the column is read from the reference, no two cells have one
reference, and a header between two references covers the columns from the first to the last. -/
theorem xlsxCellReference_exact (hcolumn : 0 < column) (hrow : 0 < row) :
    xlsxColumnOf (xlsxCellReference column row).toList = some column.toNat
      ∧ ∀ column' row', 0 < column' → 0 < row' →
        (xlsxCellReference column row = xlsxCellReference column' row' → column = column' ∧ row = row')
        ∧ ∀ c, xlsxHeaderCoversColumn (xlsxCellReference column row ++ ":" ++ xlsxCellReference column' row') c = true
          ↔ column ≤ c ∧ c ≤ column' := by
  refine ⟨xlsxColumnOf_reference hcolumn hrow, fun column' row' hcolumn' hrow' =>
    ⟨xlsxCellReference_inj hcolumn hrow hcolumn' hrow', fun c => ?_⟩⟩
  have hrange : (xlsxCellReference column row ++ ":" ++ xlsxCellReference column' row').toList
      = (xlsxCellReference column row).toList ++ ':' :: (xlsxCellReference column' row').toList := by
    simp
  have hfirst : ((xlsxCellReference column row).toList ++ ':' :: (xlsxCellReference column' row').toList).takeWhile
      (· ≠ ':') = (xlsxCellReference column row).toList := by
    rw [takeWhile_append_of_pos, takeWhile_cons_of_neg (by decide), append_nil]
    intro d hd
    exact decide_eq_true fun h => colon_not_mem_reference column row (h ▸ hd)
  have hlast : ((xlsxCellReference column row).toList ++ ':' :: (xlsxCellReference column' row').toList).drop
      ((xlsxCellReference column row).toList.length + 1) = (xlsxCellReference column' row').toList := by
    simp
  unfold xlsxHeaderCoversColumn
  simp only [hrange, hfirst, hlast, xlsxColumnOf_reference hcolumn hrow, xlsxColumnOf_reference hcolumn' hrow']
  simp [UInt32.le_iff_toNat_le]

/-- The last column of 32 bits, in the row after the last one of a sheet. -/
theorem xlsxCellReference_exact_last : xlsxColumnOf (xlsxCellReference 4294967295 1048577).toList = some 4294967295 :=
  (xlsxCellReference_exact (by decide) (by decide)).1

end GeoMaster
