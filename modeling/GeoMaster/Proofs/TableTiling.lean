import GeoMaster.Domain.RichContent
import GeoMaster.Lib.Grid
import Mathlib.Data.List.GetD
import Mathlib.Data.List.Induction

/-!
# Tables tile a rectangle

The validation of a table keeps one number for each column: the row up to which the column is covered. `Tracks` says
that this number is all that is known of the cells placed so far, as far as the rows from the current one on are
concerned. So a table is accepted when its cells, each placed at the first free column of its row, tile a rectangle.
-/

namespace GeoMaster

open Except List Option Nat

open Grid (Covered Fits firstFree placeRow placeRows)

/-! ### Entries of lists -/

/-- How far a prefix of entries with a property goes. -/
theorem takeWhile_length_spec (p : Nat → Bool) (hp : p 0 = false) (l : List Nat) :
    (∀ i < (l.takeWhile p).length, p (l.getD i 0) = true) ∧ p (l.getD (l.takeWhile p).length 0) = false := by
  induction l with
  | nil => simpa using hp
  | cons x l ih =>
    by_cases hx : p x = true
    · rw [takeWhile_cons_of_pos hx]
      refine ⟨fun i hi => ?_, by simpa using ih.2⟩
      cases i with
      | zero => simpa using hx
      | succ i => simpa using ih.1 i (by simpa using hi)
    · rw [takeWhile_cons_of_neg hx]
      simpa using hx

/-- What follows the last entry without a property. -/
theorem dropWhile_reverse_length_spec (p : Nat → Bool) (hp : p 0 = true) (l : List Nat) :
    (∀ i, (l.reverse.dropWhile p).length ≤ i → p (l.getD i 0) = true)
      ∧ ∀ n, (l.reverse.dropWhile p).length = n + 1 → p (l.getD n 0) = false := by
  induction l using List.reverseRecOn with
  | nil => simpa using hp
  | append_singleton l x ih =>
    rw [reverse_append, reverse_singleton, singleton_append]
    by_cases hx : p x = true
    · rw [dropWhile_cons_of_pos hx]
      refine ⟨fun i hi => ?_, fun n hn => ?_⟩
      · rcases lt_trichotomy i l.length with hlt | rfl | hgt
        · rw [getD_append _ _ _ _ hlt]
          exact ih.1 i hi
        · simpa using hx
        · rw [getD_eq_default _ _ (by simp; omega)]
          exact hp
      · have hle : (l.reverse.dropWhile p).length ≤ l.length := by
          simpa using (dropWhile_sublist p (l := l.reverse)).length_le
        rw [getD_append _ _ _ _ (by omega)]
        exact ih.2 n hn
    · rw [dropWhile_cons_of_neg hx, length_cons, length_reverse]
      refine ⟨fun i hi => ?_, fun n hn => ?_⟩
      · rw [getD_eq_default _ _ (by simp; omega)]
        exact hp
      · obtain rfl : n = l.length := by omega
        simpa using hx

/-- A range of entries is replaced. -/
theorem getD_splice {l : List Nat} {column colspan until_ : Nat} (hlength : column + colspan ≤ l.length) (c : Nat) :
    (l.take column ++ List.replicate colspan until_ ++ l.drop (column + colspan)).getD c 0
      = if column ≤ c ∧ c < column + colspan then until_ else l.getD c 0 := by
  rcases lt_or_ge c column with hlt | hge
  · rw [if_neg (by omega), append_assoc, getD_append _ _ _ _ (by simp; omega)]
    simp [getD_eq_getElem?_getD, List.getElem?_take_of_lt hlt]
  · rcases lt_or_ge c (column + colspan) with hlt | hge'
    · rw [if_pos ⟨hge, hlt⟩, append_assoc, getD_append_right _ _ _ _ (by simp; omega),
        getD_append _ _ _ _ (by simp; omega), getD_replicate _ (by simp; omega)]
    · rw [if_neg (by omega), getD_append_right _ _ _ _ (by simp; omega)]
      simp only [length_append, length_take, length_replicate, getD_eq_getElem?_getD, List.getElem?_drop]
      congr 2
      omega

/-! ### One cell -/

namespace RichNode

/-- The columns and the rows a cell spans. -/
def span (cell : RichNode) : Nat × Nat :=
  (cell.cellAttrs.elim 1 (·.colspan.toNat), cell.cellAttrs.elim 1 (·.rowspan.toNat))

/-- From a row on, the occupancy of a column is the row up to which the column is covered. -/
structure Tracks (row : Nat) (placed : List Grid.Cell) (occupancy : List Nat) : Prop where
  length : occupancy.length = maxTableColumns
  covered : ∀ r, row ≤ r → ∀ c, Covered placed r c ↔ r < occupancy.getD c 0

variable {row rows column : Nat} {placed : List Grid.Cell} {occupancy : List Nat}

/-- The column at which the next cell of a row is placed. -/
def nextColumn (row column : Nat) (occupancy : List Nat) : Nat :=
  column + ((occupancy.drop column).takeWhile (· > row)).length

theorem Tracks.next (h : Tracks row placed occupancy) (hbefore : ∀ c < column, Covered placed row c) :
    firstFree placed row = nextColumn row column occupancy
      ∧ ∀ c < nextColumn row column occupancy, Covered placed row c := by
  have hspec := takeWhile_length_spec (· > row) (by simp) (occupancy.drop column)
  simp only [getD_eq_getElem?_getD, List.getElem?_drop, decide_eq_true_eq, decide_eq_false_iff_not] at hspec
  have hcovered : ∀ c < nextColumn row column occupancy, Covered placed row c := by
    intro c hc
    rcases lt_or_ge c column with hlt | hge
    · exact hbefore c hlt
    · have := hspec.1 (c - column) (by unfold nextColumn at hc; omega)
      rw [Nat.add_sub_cancel' hge] at this
      exact (h.covered row le_rfl c).mpr (by rwa [getD_eq_getElem?_getD])
  refine ⟨Grid.firstFree_eq (fun hfree => ?_) hcovered, hcovered⟩
  exact hspec.2 (by rw [← getD_eq_getElem?_getD]; exact (h.covered row le_rfl _).mp hfree)

theorem any_covered (row : Nat) {colspan : Nat} (hlength : column + colspan ≤ occupancy.length) :
    ((occupancy.drop column).take colspan).any (· > row) = true
      ↔ ∃ c, column ≤ c ∧ c < column + colspan ∧ row < occupancy.getD c 0 := by
  simp only [List.any_eq_true, decide_eq_true_eq, List.mem_iff_getElem?]
  constructor
  · rintro ⟨_, ⟨i, hi⟩, hlt⟩
    have hlen : i < colspan := by
      have := (List.getElem?_eq_some_iff.mp hi).1
      simp at this
      omega
    rw [List.getElem?_take_of_lt hlen, List.getElem?_drop] at hi
    exact ⟨column + i, by omega, by omega, by rwa [getD_eq_getElem?_getD, hi]⟩
  · rintro ⟨c, hge, _, hcovered⟩
    refine ⟨_, ⟨c - column, ?_⟩, hcovered⟩
    rw [List.getElem?_take_of_lt (by omega), List.getElem?_drop, Nat.add_sub_cancel' hge,
      List.getElem?_eq_getElem (by omega), getD_eq_getElem _ _ (by omega)]

/-- A cell can be placed when it stays within the table and covers nothing twice, and the occupancy follows it. -/
theorem Tracks.place {colspan rowspan : Nat} (h : Tracks row placed occupancy)
    (hfits : Fits rows maxTableColumns placed) (hbefore : ∀ c < column, Covered placed row c) (hcolspan : 0 < colspan)
    (hrowspan : 0 < rowspan) :
    let next := nextColumn row column occupancy
    let placed' := placed ++ [⟨row, firstFree placed row, colspan, rowspan⟩]
    (¬ (next + colspan > maxTableColumns ∨ row + rowspan > rows)
        ∧ ((occupancy.drop next).take colspan).any (· > row) = false
      ↔ Fits rows maxTableColumns placed')
    ∧ (Fits rows maxTableColumns placed' →
      Tracks row placed' (occupancy.take next ++ List.replicate colspan (row + rowspan)
          ++ occupancy.drop (next + colspan))
        ∧ ∀ c < next + colspan, Covered placed' row c) := by
  obtain ⟨hfree, hcovered⟩ := h.next hbefore
  simp only [hfree]
  generalize nextColumn row column occupancy = next at hcovered
  have hfitsIff : ¬ (next + colspan > maxTableColumns ∨ row + rowspan > rows)
        ∧ ((occupancy.drop next).take colspan).any (· > row) = false
      ↔ Fits rows maxTableColumns (placed ++ [⟨row, next, colspan, rowspan⟩]) := by
    rw [Grid.fits_append_one, and_iff_right hfits]
    constructor
    · rintro ⟨hinside, hapart⟩
      refine ⟨by simp only; omega, fun r c ⟨hold, hnew⟩ => ?_⟩
      obtain ⟨hr, -, hge, hlt⟩ := hnew
      simp only at hr hge hlt
      have hcolumn := (h.covered r hr c).mp hold
      have hany := (any_covered row (by rw [h.length]; omega)).mpr ⟨c, hge, hlt, by omega⟩
      rw [hapart] at hany
      cases hany
    · rintro ⟨hinside, hapart⟩
      simp only at hinside
      refine ⟨by omega, Bool.eq_false_iff.mpr fun hany => ?_⟩
      obtain ⟨c, hge, hlt, hcolumn⟩ := (any_covered row (by rw [h.length]; omega)).mp hany
      exact hapart row c ⟨(h.covered row le_rfl c).mpr hcolumn, le_rfl, by simp only; omega, hge, hlt⟩
  refine ⟨hfitsIff, fun hplaced => ?_⟩
  have hchecks := hfitsIff.mpr hplaced
  have hlength : next + colspan ≤ occupancy.length := by rw [h.length]; omega
  refine ⟨⟨?_, fun r hr c => ?_⟩, fun c hc => ?_⟩
  · have := h.length
    simp only [length_append, length_take, length_replicate, length_drop]
    omega
  · rw [Grid.covered_append_one, h.covered r hr c, getD_splice hlength]
    simp only [Grid.Cell.Covers]
    split
    · next hin =>
      have hfreeColumn : ¬ row < occupancy.getD c 0 := fun hlt => by
        have := (any_covered row hlength).mpr ⟨c, hin.1, hin.2, hlt⟩
        rw [hchecks.2] at this
        cases this
      omega
    · next hout => omega
  · rw [Grid.covered_append_one]
    rcases lt_or_ge c next with hlt | hge
    · exact .inl (hcovered c hlt)
    · exact .inr ⟨le_rfl, by simp only; omega, hge, hc⟩

/-! ### The cells of a row -/

/-- Every cell spans some columns and some rows. -/
def Spans (cells : List RichNode) : Prop :=
  ∀ cell ∈ cells, 0 < cell.span.1 ∧ 0 < cell.span.2

theorem placeCells_cons {cell : RichNode} {rest : List RichNode} {occupancy' : List Nat} :
    placeCells row rows (cell :: rest) column occupancy = .ok occupancy'
      ↔ (¬ (nextColumn row column occupancy + cell.span.1 > maxTableColumns ∨ row + cell.span.2 > rows)
          ∧ ((occupancy.drop (nextColumn row column occupancy)).take cell.span.1).any (· > row) = false)
        ∧ placeCells row rows rest (nextColumn row column occupancy + cell.span.1)
            (occupancy.take (nextColumn row column occupancy) ++ List.replicate cell.span.1 (row + cell.span.2)
              ++ occupancy.drop (nextColumn row column occupancy + cell.span.1)) = .ok occupancy' := by
  simp only [placeCells, eq_ok_iff, Bool.not_eq_true, and_assoc]
  constructor
  · rintro ⟨_, hinside, _, hrest⟩
    exact ⟨hinside, hrest⟩
  · rintro ⟨hinside, hrest⟩
    exact ⟨(), hinside, (), hrest⟩

theorem placeCells_iff {cells : List RichNode} (hspans : Spans cells) (h : Tracks row placed occupancy)
    (hfits : Fits rows maxTableColumns placed) (hbefore : ∀ c < column, Covered placed row c) :
    ((∃ occupancy', placeCells row rows cells column occupancy = .ok occupancy')
        ↔ Fits rows maxTableColumns (placeRow row placed (cells.map span)))
      ∧ ∀ occupancy', placeCells row rows cells column occupancy = .ok occupancy' →
        Tracks row (placeRow row placed (cells.map span)) occupancy' := by
  induction cells generalizing placed column occupancy with
  | nil =>
    refine ⟨iff_of_true ⟨_, rfl⟩ hfits, fun occupancy' heq => ?_⟩
    obtain rfl := Except.ok.inj heq
    exact h
  | cons _ _ ih =>
    obtain ⟨⟨hcolspan, hrowspan⟩, hrest⟩ := forall_mem_cons.mp hspans
    obtain ⟨hchecks, hplace⟩ := h.place hfits hbefore hcolspan hrowspan
    simp only [placeCells_cons, map_cons, placeRow]
    constructor
    · constructor
      · rintro ⟨occupancy', hallowed, heq⟩
        have hplaced := hchecks.mp hallowed
        obtain ⟨htracks, hcovered⟩ := hplace hplaced
        exact (ih hrest htracks hplaced hcovered).1.mp ⟨occupancy', heq⟩
      · intro hall
        have hplaced := Grid.fits_of_placeRow hall
        obtain ⟨htracks, hcovered⟩ := hplace hplaced
        obtain ⟨occupancy', heq⟩ := (ih hrest htracks hplaced hcovered).1.mpr hall
        exact ⟨occupancy', hchecks.mpr hplaced, heq⟩
    · rintro occupancy' ⟨hallowed, heq⟩
      have hplaced := hchecks.mp hallowed
      obtain ⟨htracks, hcovered⟩ := hplace hplaced
      exact (ih hrest htracks hplaced hcovered).2 occupancy' heq

/-! ### The rows of a table -/

theorem rowWidth_iff (h : Tracks row placed occupancy) {width : Nat} :
    rowWidth row occupancy = width ∧ (occupancy.take width).any (· ≤ row) = false
      ↔ ∀ c, Covered placed row c ↔ c < width := by
  obtain ⟨hafter, hlast⟩ := dropWhile_reverse_length_spec (· ≤ row) (by simp) occupancy
  simp only [decide_eq_true_eq, decide_eq_false_iff_not, ← rowWidth.eq_1] at hafter hlast
  have hlength : rowWidth row occupancy ≤ occupancy.length := by
    simpa [rowWidth] using (dropWhile_sublist (· ≤ row) (l := occupancy.reverse)).length_le
  have hcovered := h.covered row le_rfl
  constructor
  · rintro ⟨rfl, hgap⟩ c
    rw [hcovered]
    constructor
    · intro hlt
      by_contra hge
      exact absurd (hafter c (by omega)) (by omega)
    · intro hlt
      by_contra hge
      have hany : (occupancy.take (rowWidth row occupancy)).any (· ≤ row) = true := by
        refine any_eq_true.mpr ⟨occupancy.getD c 0, ?_, by simpa using hge⟩
        rw [getD_eq_getElem _ _ (by omega)]
        exact mem_iff_getElem.mpr ⟨c, by simp; omega, by simp⟩
      rw [hany] at hgap
      cases hgap
  · intro hiff
    have hwidth : rowWidth row occupancy = width := by
      rcases lt_trichotomy (rowWidth row occupancy) width with hlt | heq | hgt
      · have := (hcovered _).mp ((hiff _).mpr hlt)
        exact absurd (hafter _ le_rfl) (by omega)
      · exact heq
      · obtain ⟨n, hn⟩ := exists_eq_succ_of_ne_zero (show rowWidth row occupancy ≠ 0 by omega)
        have := (hiff n).mp ((hcovered n).mpr (not_le.mp (hlast n hn)))
        omega
    refine ⟨hwidth, Bool.eq_false_iff.mpr fun hany => ?_⟩
    obtain ⟨_, hvalue, hle⟩ := any_eq_true.mp hany
    obtain ⟨c, hc, rfl⟩ := mem_iff_getElem.mp hvalue
    rw [length_take] at hc
    have := (hcovered c).mp ((hiff c).mpr (by omega))
    rw [getD_eq_getElem _ _ (by omega)] at this
    simp at hle
    omega

/-- The rows from one on cover the same columns, as the rows before did. -/
def Rectangular (row count : Nat) (width : Option Nat) (placed : List Grid.Cell) : Prop :=
  ∃ w, 1 ≤ w ∧ (∀ previous ∈ width, previous = w) ∧ ∀ r, row ≤ r → r < row + count → ∀ c, Covered placed r c ↔ c < w

variable {width : Option Nat} {table : List RichNode}

theorem validateRows_iff (hspans : ∀ row ∈ table, Spans row.children)
    (h : Tracks row placed occupancy) (hfits : Fits rows maxTableColumns placed)
    (hwidth : ∀ previous ∈ width, 1 ≤ previous) :
    validateRows rows table row width occupancy = .ok ()
      ↔ Fits rows maxTableColumns (placeRows row placed (table.map fun row => row.children.map span))
        ∧ Rectangular row table.length width (placeRows row placed (table.map fun row => row.children.map span)) := by
  induction table generalizing row placed occupancy width with
  | nil =>
    refine iff_of_true rfl ⟨hfits, width.getD 1, ?_, fun previous hprevious => ?_, fun r hge hlt => ?_⟩
    · cases width with
      | none => exact le_rfl
      | some w => exact hwidth w rfl
    · rw [hprevious, getD_some]
    · simp at hlt
      omega
  | cons cells rest ih =>
    obtain ⟨hcells, hrest⟩ := forall_mem_cons.mp hspans
    obtain ⟨hplaces, htracks⟩ := placeCells_iff hcells h hfits fun c (hlt : c < 0) => absurd hlt (not_lt_zero c)
    simp only [validateRows, eq_ok_iff, map_cons, placeRows, length_cons]
    set placed' := placeRow row placed (cells.children.map span) with hplaced'
    have hrow (c : Nat) : Covered (placeRows (row + 1) placed' (rest.map fun row => row.children.map span)) row c
        ↔ Covered placed' row c := Grid.covered_placeRows (by omega)
    have hnext {occupancy' : List Nat} (ht : Tracks row placed' occupancy') : Tracks (row + 1) placed' occupancy' :=
      ⟨ht.length, fun r hr => ht.covered r (by omega)⟩
    constructor
    · rintro ⟨occupancy', heq, -, hsame, -, hgap, hrows⟩
      have ht := htracks occupancy' heq
      have hpos : 1 ≤ rowWidth row occupancy' := by omega
      have hcovers := (rowWidth_iff ht).mp ⟨rfl, by simpa using hgap⟩
      obtain ⟨hall, _, hw, hprevious, hothers⟩ := (ih hrest (hnext ht) (hplaces.mp ⟨_, heq⟩) (by simpa using hpos)).mp hrows
      obtain rfl := hprevious _ rfl
      refine ⟨hall, _, hw, fun previous hmem => ?_, fun r hge hlt => ?_⟩
      · by_contra hne
        exact hsame (.inr ⟨previous, hmem, hne⟩)
      · rcases lt_or_ge row r with hgt | hle
        · exact hothers r hgt (by omega)
        · obtain rfl : r = row := by omega
          exact fun c => (hrow c).trans (hcovers c)
    · rintro ⟨hall, _, hw, hprevious, hrows⟩
      obtain ⟨occupancy', heq⟩ := hplaces.mpr (Grid.fits_of_placeRows hall)
      have ht := htracks occupancy' heq
      obtain ⟨rfl, hgap⟩ := (rowWidth_iff ht).mpr fun c => (hrow c).symm.trans (hrows row le_rfl (by omega) c)
      refine ⟨occupancy', heq, (), ?_, (), by simpa using hgap, ?_⟩
      · rintro (hzero | ⟨previous, hmem, hne⟩)
        · omega
        · exact hne (hprevious previous hmem)
      · exact (ih hrest (hnext ht) (hplaces.mp ⟨_, heq⟩) (by simpa using hw)).mpr
          ⟨hall, _, hw, by simp, fun r hge hlt => hrows r (by omega) (by omega)⟩

/-! ### Indices -/

/-- The entries of a range. An index out of range is no answer. -/
def slice (occupancy : List Nat) (start stop : Nat) : Option (List Nat) := do
  guard (start ≤ stop ∧ stop ≤ occupancy.length)
  pure ((occupancy.drop start).take (stop - start))

/-- The columns that are left are tried one after the other. -/
def skipCovered (row : Nat) (occupancy : List Nat) : Nat → Nat → Option Nat
  | 0, column => pure column
  | left + 1, column => do
    let covered ← occupancy[column]?
    if covered > row then skipCovered row occupancy left (column + 1) else pure column

/-- `placeCells` with every index that is used. -/
def placeCellsIndexed (row rows : Nat) : List RichNode → Nat → List Nat → Option (Except AppError (List Nat))
  | [], _, occupancy => pure (pure occupancy)
  | cell :: rest, column, occupancy => do
    let column ← skipCovered row occupancy (maxTableColumns - column) column
    let colspan := cell.cellAttrs.elim 1 (·.colspan.toNat)
    let rowspan := cell.cellAttrs.elim 1 (·.rowspan.toNat)
    if column + colspan > maxTableColumns ∨ row + rowspan > rows then
      pure (.error (.invalidRequest "table cell extends past table boundary"))
    else
      let covered ← slice occupancy column (column + colspan)
      if covered.any (· > row) then pure (.error (.invalidRequest "overlapping table cell span"))
      else
        placeCellsIndexed row rows rest (column + colspan)
          (occupancy.take column ++ List.replicate colspan (row + rowspan) ++ occupancy.drop (column + colspan))

/-- `validateRows` with every index that is used. -/
def validateRowsIndexed (rows : Nat) : List RichNode → Nat → Option Nat → List Nat → Option (Except AppError Unit)
  | [], _, _, _ => pure (pure ())
  | cells :: rest, row, width, occupancy => do
    match ← placeCellsIndexed row rows cells.children 0 occupancy with
    | .error e => pure (.error e)
    | .ok occupancy =>
      let w := rowWidth row occupancy
      if w = 0 ∨ ∃ previous ∈ width, previous ≠ w then
        pure (.error (.invalidRequest "table rows must have equal column widths"))
      else
        let covered ← slice occupancy 0 w
        if covered.any (· ≤ row) then pure (.error (.invalidRequest "table row has a missing cell"))
        else validateRowsIndexed rows rest (row + 1) (some w) occupancy

theorem skipCovered_eq (hlength : occupancy.length = maxTableColumns) (hcolumn : column ≤ maxTableColumns) :
    skipCovered row occupancy (maxTableColumns - column) column = some (nextColumn row column occupancy) := by
  generalize hleft : maxTableColumns - column = left
  induction left generalizing column with
  | zero => simp [skipCovered, nextColumn, drop_of_length_le (show occupancy.length ≤ column by omega)]
  | succ left ih =>
    have hlt : column < occupancy.length := by omega
    rw [skipCovered, List.getElem?_eq_getElem hlt, nextColumn, drop_eq_getElem_cons hlt]
    by_cases hcovered : occupancy[column] > row
    · have hnext := @ih (column + 1) (by omega) (by omega)
      rw [takeWhile_cons_of_pos (by simpa using hcovered), length_cons]
      simp only [bind_eq_bind, bind_some, if_pos hcovered, hnext, nextColumn]
      congr 1
      omega
    · rw [takeWhile_cons_of_neg (by simpa using hcovered)]
      simp [hcovered]

theorem nextColumn_le (row : Nat) (hlength : occupancy.length = maxTableColumns) (hcolumn : column ≤ maxTableColumns) :
    nextColumn row column occupancy ≤ maxTableColumns := by
  have hle := (takeWhile_sublist (· > row) (l := occupancy.drop column)).length_le
  rw [length_drop] at hle
  unfold nextColumn
  omega

theorem placeCellsIndexed_eq (rows row : Nat) (cells : List RichNode) (hlength : occupancy.length = maxTableColumns)
    (hcolumn : column ≤ maxTableColumns) :
    placeCellsIndexed row rows cells column occupancy = some (placeCells row rows cells column occupancy)
      ∧ ∀ occupancy', placeCells row rows cells column occupancy = .ok occupancy' →
        occupancy'.length = maxTableColumns := by
  induction cells generalizing column occupancy with
  | nil => exact ⟨rfl, fun _ heq => Except.ok.inj heq ▸ hlength⟩
  | cons cell _ ih =>
    have hnext := nextColumn_le row hlength hcolumn
    simp only [placeCellsIndexed, placeCells, skipCovered_eq hlength hcolumn, bind_eq_bind, bind_some,
      failIf, ← nextColumn.eq_1]
    generalize nextColumn row column occupancy = next at hnext
    generalize cell.cellAttrs.elim 1 (·.colspan.toNat) = colspan
    generalize cell.cellAttrs.elim 1 (·.rowspan.toNat) = rowspan
    by_cases hinside : next + colspan > maxTableColumns ∨ row + rowspan > rows
    · rw [if_pos hinside, if_pos hinside]
      exact ⟨rfl, fun _ heq => nomatch heq⟩
    · rw [if_neg hinside, if_neg hinside]
      have hslice : slice occupancy next (next + colspan) = some ((occupancy.drop next).take colspan) := by
        simp [slice, show next + colspan ≤ occupancy.length by omega]
      rw [hslice]
      by_cases hoverlap : ((occupancy.drop next).take colspan).any (· > row) = true
      · simp only [bind_some, hoverlap, if_true]
        exact ⟨rfl, fun _ heq => nomatch heq⟩
      · simp only [bind_some, hoverlap]
        refine ih ?_ (by omega)
        simp only [length_append, length_take, length_replicate, length_drop]
        omega

/-- No index that the validation of a table uses is out of range. -/
theorem validateRowsIndexed_eq (hlength : occupancy.length = maxTableColumns) :
    validateRowsIndexed rows table row width occupancy = some (validateRows rows table row width occupancy) := by
  induction table generalizing row occupancy width with
  | nil => rfl
  | cons cells _ ih =>
    obtain ⟨hplaced, hkept⟩ := placeCellsIndexed_eq rows row cells.children hlength (zero_le maxTableColumns)
    simp only [validateRowsIndexed, validateRows, hplaced, bind, Option.bind, Except.bind, failIf]
    cases hcells : placeCells row rows cells.children 0 occupancy with
    | error e => rfl
    | ok occupancy' =>
      have hwidth : rowWidth row occupancy' ≤ occupancy'.length := by
        simpa [rowWidth] using (dropWhile_sublist (· ≤ row) (l := occupancy'.reverse)).length_le
      by_cases hsame : rowWidth row occupancy' = 0 ∨ ∃ previous ∈ width, previous ≠ rowWidth row occupancy'
      · simp only [if_pos hsame]
        rfl
      · have hslice : slice occupancy' 0 (rowWidth row occupancy')
            = some (occupancy'.take (rowWidth row occupancy')) := by
          simp [slice, hwidth]
        simp only [if_neg hsame, hslice]
        by_cases hgap : (occupancy'.take (rowWidth row occupancy')).any (· ≤ row) = true
        · simp only [hgap, if_true]
          rfl
        · simp only [hgap]
          exact ih (hkept occupancy' hcells)

/-- `validateTable` with every index that is used. -/
def validateTableIndexed (rows : List RichNode) : Option (Except AppError Unit) :=
  if rows.length > maxTableRows then pure (.error (.invalidRequest "table row limit exceeded"))
  else validateRowsIndexed rows.length rows 0 none (List.replicate maxTableColumns 0)

/-! ### Tables -/

/-- The cells of a table, placed in the order of the slots, fill a rectangle as high as the table and cover no slot
twice. -/
def Tiles (table : List RichNode) : Prop :=
  let placed := placeRows 0 [] (table.map fun row => row.children.map span)
  Fits table.length maxTableColumns placed
    ∧ ∃ width, 1 ≤ width ∧ ∀ row column, Covered placed row column ↔ row < table.length ∧ column < width

/-- Validation accepts the tables of at most a hundred rows that tile a rectangle, and no others. -/
theorem validateTable_tiles (table : List RichNode) (hspans : ∀ row ∈ table, Spans row.children) :
    (validateTable table = .ok () ↔ table.length ≤ 100 ∧ Tiles table)
      ∧ validateTableIndexed table = some (validateTable table) := by
  have htracks : Tracks 0 [] (List.replicate maxTableColumns 0) :=
    ⟨length_replicate, fun r _ c => by simp [getD_eq_getElem?_getD, List.getElem?_replicate]; split <;> simp⟩
  constructor
  · simp only [validateTable, eq_ok_iff, exists_and_left, exists_const]
    refine and_congr (by simp [maxTableRows]) ?_
    rw [validateRows_iff hspans htracks .nil (by simp), Tiles]
    refine and_congr_right fun hfits => ?_
    constructor
    · rintro ⟨width, hwidth, -, hrows⟩
      refine ⟨width, hwidth, fun row column => ?_⟩
      constructor
      · intro hcovered
        have hrow := (hfits.lt_columns hcovered).1
        exact ⟨hrow, (hrows row (zero_le _) (by omega) column).mp hcovered⟩
      · rintro ⟨hrow, hcolumn⟩
        exact (hrows row (zero_le _) (by omega) column).mpr hcolumn
    · rintro ⟨width, hwidth, hcovered⟩
      refine ⟨width, hwidth, by simp, fun row _ hrow column => ?_⟩
      rw [hcovered]
      exact and_iff_right (by omega)
  · unfold validateTableIndexed validateTable failIf
    split
    · rfl
    · exact validateRowsIndexed_eq length_replicate

/-- A table whose first cell spans both rows and whose second one spans two columns. -/
def spanningTable : List RichNode :=
  [.tableRow [.tableHeader (some ⟨1, 2, none, none⟩) [.paragraph []], .tableCell (some ⟨2, 1, none, none⟩) [.paragraph []]],
    .tableRow [.tableCell none [.paragraph []], .tableCell none [.paragraph []]]]

theorem validateTable_tiles_spanning : spanningTable.length ≤ 100 ∧ Tiles spanningTable :=
  (validateTable_tiles spanningTable (by unfold Spans; decide)).1.mp (by rfl)

end RichNode

end GeoMaster
