import Mathlib.Algebra.BigOperators.Group.List.Basic
import Mathlib.Data.List.GetD
import Mathlib.Tactic.Linarith

/-!
# Rectangular grids addressed by integer coordinates

A grid is a list of rows of one common length. Coordinates are integers, as in a program that
computes them by signed arithmetic, so reading is partial: `get?` succeeds exactly on the
coordinates inside the grid. Two grids of the same size with the same readings are equal, which
makes every later statement about grids a statement about readings.

The last section sums a weight over all cells in an arbitrary commutative monoid. Instantiated
with numbers it counts or values the contents of a grid, and instantiated with multisets it
collects them.
-/

namespace KongFuChess

/-- A list of rows which all have the length of the first row. -/
@[ext]
structure Grid (α : Type*) where
  cells : List (List α)
  rectangular : ∀ row ∈ cells, row.length = (cells.headD []).length
deriving DecidableEq

namespace Grid

variable {α β : Type*}

def rows (grid : Grid α) : ℕ := grid.cells.length

def cols (grid : Grid α) : ℕ := (grid.cells.headD []).length

def InBounds (grid : Grid α) (row col : ℤ) : Prop :=
  0 ≤ row ∧ row < grid.rows ∧ 0 ≤ col ∧ col < grid.cols

instance (grid : Grid α) (row col : ℤ) : Decidable (grid.InBounds row col) :=
  inferInstanceAs (Decidable (_ ∧ _))

/-- Checked reading. -/
def get? (grid : Grid α) (row col : ℤ) : Option α :=
  if 0 ≤ row ∧ 0 ≤ col then
    grid.cells[row.toNat]?.bind fun cells ↦ cells[col.toNat]?
  else none

/-- Reading with a default value outside the grid. -/
def getD (grid : Grid α) (row col : ℤ) (default : α) : α := (grid.get? row col).getD default

/-- Overwrite one cell; outside the grid nothing is written. -/
def set (grid : Grid α) (row col : ℤ) (value : α) : Grid α where
  cells :=
    if 0 ≤ row ∧ 0 ≤ col then grid.cells.modify row.toNat fun cells ↦ cells.set col.toNat value
    else grid.cells
  rectangular := by
    have hlength : ∀ index (cells : List (List α)),
        (cells.modify index fun row ↦ row.set col.toNat value).map List.length =
          cells.map List.length := by
      intro index cells
      induction cells generalizing index with
      | nil => simp
      | cons head tail ih => cases index <;> simp [ih]
    split
    · intro written hwritten
      have hmem := List.mem_map_of_mem (f := List.length) hwritten
      rw [hlength] at hmem
      obtain ⟨original, horiginal, heq⟩ := List.mem_map.1 hmem
      rw [← heq, grid.rectangular original horiginal]
      cases hcells : grid.cells with
      | nil => simp [hcells] at horiginal
      | cons head tail => cases h : row.toNat <;> simp
    · exact grid.rectangular

/-- Apply a function to every cell. -/
def map (f : α → β) (grid : Grid α) : Grid β where
  cells := grid.cells.map (List.map f)
  rectangular := by
    intro row hrow
    obtain ⟨original, horiginal, rfl⟩ := List.mem_map.1 hrow
    have h := grid.rectangular original horiginal
    cases hcells : grid.cells with
    | nil => simp [hcells] at horiginal
    | cons head tail => simpa [hcells] using h

/-- Reverse the order of the rows. -/
def flip (grid : Grid α) : Grid α where
  cells := grid.cells.reverse
  rectangular := by
    intro row hrow
    have hrow' := grid.rectangular row (List.mem_reverse.1 hrow)
    cases hlast : grid.cells.reverse with
    | nil => simp [hlast] at hrow
    | cons last rest =>
      have hmem : last ∈ grid.cells := List.mem_reverse.1 (by simp [hlast])
      rw [hrow', List.headD_cons, grid.rectangular last hmem]

/-! ## Reading -/

theorem row_length (grid : Grid α) {index : ℕ} {row : List α}
    (h : grid.cells[index]? = some row) : row.length = grid.cols :=
  grid.rectangular row (List.mem_of_getElem? h)

theorem exists_row (grid : Grid α) {row col : ℤ} (h : grid.InBounds row col) :
    ∃ cells, grid.cells[row.toNat]? = some cells := by
  obtain ⟨hnonneg, hrows, -, -⟩ := h
  have hlt : row.toNat < grid.cells.length := by
    unfold rows at hrows
    omega
  exact ⟨_, List.getElem?_eq_getElem hlt⟩

@[simp]
theorem isSome_get? (grid : Grid α) (row col : ℤ) :
    (grid.get? row col).isSome ↔ grid.InBounds row col := by
  unfold get?
  by_cases hsign : 0 ≤ row ∧ 0 ≤ col
  · rw [if_pos hsign]
    by_cases hrow : row.toNat < grid.cells.length
    · have hread := List.getElem?_eq_getElem hrow
      have hlength := grid.row_length hread
      have hrow' : row.toNat < grid.rows := hrow
      rw [hread, Option.bind_some, isSome_getElem?, hlength]
      unfold InBounds
      omega
    · rw [List.getElem?_eq_none (by omega)]
      have : ¬ row.toNat < grid.rows := hrow
      simp only [Option.bind_none, Option.isSome_none, Bool.false_eq_true, false_iff]
      rintro ⟨hnonneg, hrows, -, -⟩
      omega
  · rw [if_neg hsign]
    simp only [Option.isSome_none, Bool.false_eq_true, false_iff]
    rintro ⟨hrow, -, hcol, -⟩
    exact hsign ⟨hrow, hcol⟩

theorem get?_eq_none_iff (grid : Grid α) (row col : ℤ) :
    grid.get? row col = none ↔ ¬ grid.InBounds row col := by
  rw [← isSome_get?, Option.not_isSome_iff_eq_none]

theorem getD_of_not_inBounds (grid : Grid α) {row col : ℤ} (default : α)
    (h : ¬ grid.InBounds row col) : grid.getD row col default = default := by
  rw [getD, (grid.get?_eq_none_iff row col).2 h, Option.getD_none]

theorem get?_of_inBounds (grid : Grid α) {row col : ℤ} (default : α)
    (h : grid.InBounds row col) : grid.get? row col = some (grid.getD row col default) := by
  obtain ⟨value, hvalue⟩ := Option.isSome_iff_exists.1 ((grid.isSome_get? row col).2 h)
  simp [getD, hvalue]

/-- What holds of all entries and of the default value holds of every reading. -/
theorem getD_of_forall {p : α → Prop} (grid : Grid α)
    (hcells : ∀ row ∈ grid.cells, ∀ value ∈ row, p value) {default : α} (hdefault : p default)
    (row col : ℤ) : p (grid.getD row col default) := by
  rw [getD]
  cases hread : grid.get? row col with
  | none => exact hdefault
  | some value =>
    rw [get?, Option.ite_none_right_eq_some, Option.bind_eq_some_iff] at hread
    obtain ⟨-, cells, hrow, hvalue⟩ := hread
    exact hcells cells (List.mem_of_getElem? hrow) value (List.mem_of_getElem? hvalue)

/-- Grids of one size with the same readings are equal. -/
theorem ext_get? {left right : Grid α} (hrows : left.rows = right.rows)
    (hread : ∀ row col, left.get? row col = right.get? row col) : left = right := by
  apply Grid.ext
  apply List.ext_getElem hrows
  intro index hleft hright
  have hreadLeft := List.getElem?_eq_getElem hleft
  have hreadRight := List.getElem?_eq_getElem hright
  apply List.ext_getElem?
  intro col
  have h := hread index col
  simpa [get?, hreadLeft, hreadRight] using h

/-! ## Sizes -/

@[simp]
theorem rows_set (grid : Grid α) (row col : ℤ) (value : α) :
    (grid.set row col value).rows = grid.rows := by
  unfold set rows
  split <;> simp

@[simp]
theorem cols_set (grid : Grid α) (row col : ℤ) (value : α) :
    (grid.set row col value).cols = grid.cols := by
  simp only [set, cols]
  split
  · generalize grid.cells = cells
    cases cells with
    | nil => simp
    | cons head tail => cases row.toNat <;> simp
  · rfl

@[simp]
theorem rows_map (f : α → β) (grid : Grid α) : (grid.map f).rows = grid.rows := by
  simp [map, rows]

@[simp]
theorem cols_map (f : α → β) (grid : Grid α) : (grid.map f).cols = grid.cols := by
  simp only [map, cols]
  generalize grid.cells = cells
  cases cells <;> simp

@[simp]
theorem rows_flip (grid : Grid α) : grid.flip.rows = grid.rows := by
  simp [flip, rows]

@[simp]
theorem cols_flip (grid : Grid α) : grid.flip.cols = grid.cols := by
  cases hcells : grid.cells.reverse with
  | nil => simp_all [flip, cols]
  | cons last rest =>
    have hmem : last ∈ grid.cells := List.mem_reverse.1 (by simp [hcells])
    simpa [flip, cols, hcells] using grid.rectangular last hmem

@[simp]
theorem inBounds_set (grid : Grid α) (row col : ℤ) (value : α) (row' col' : ℤ) :
    (grid.set row col value).InBounds row' col' ↔ grid.InBounds row' col' := by
  simp [InBounds]

@[simp]
theorem inBounds_map (f : α → β) (grid : Grid α) (row col : ℤ) :
    (grid.map f).InBounds row col ↔ grid.InBounds row col := by
  simp [InBounds]

@[simp]
theorem inBounds_flip (grid : Grid α) (row col : ℤ) :
    grid.flip.InBounds row col ↔ grid.InBounds (grid.rows - 1 - row) col := by
  simp only [InBounds, rows_flip, cols_flip]
  omega

/-! ## Reading after an update -/

/-- Writing outside the grid changes nothing. -/
theorem set_of_not_inBounds (grid : Grid α) {row col : ℤ} (value : α)
    (h : ¬ grid.InBounds row col) : grid.set row col value = grid := by
  apply Grid.ext
  simp only [set]
  split
  · apply List.ext_getElem?
    intro index
    rw [List.getElem?_modify]
    cases hread : grid.cells[index]? with
    | none => simp
    | some cells =>
      have hlength := grid.row_length hread
      have hindex : index < grid.rows := (List.getElem?_eq_some_iff.1 hread).1
      by_cases hrow : row.toNat = index
      · have hcol : cells.length ≤ col.toNat := by
          unfold InBounds at h
          omega
        simp [hrow, List.set_eq_of_length_le hcol]
      · simp [hrow]
  · rfl

theorem get?_set (grid : Grid α) (row col : ℤ) (value : α) (row' col' : ℤ) :
    (grid.set row col value).get? row' col' =
      if row = row' ∧ col = col' ∧ grid.InBounds row col then some value
      else grid.get? row' col' := by
  by_cases hin : grid.InBounds row col
  · have hsign : 0 ≤ row ∧ 0 ≤ col := ⟨hin.1, hin.2.2.1⟩
    by_cases hsign' : 0 ≤ row' ∧ 0 ≤ col'
    · simp only [get?, set, if_pos hsign, if_pos hsign', List.getElem?_modify]
      by_cases hrow : row = row'
      · subst hrow
        obtain ⟨cells, hread⟩ := grid.exists_row hin
        have hlt : col.toNat < cells.length := by
          have hlength := grid.row_length hread
          have hcols := hin.2.2.2
          omega
        simp only [hread, if_true, Option.map_eq_map, Option.map_some, Option.bind_some, true_and]
        by_cases hcol : col = col'
        · subst hcol
          rw [if_pos ⟨rfl, hin⟩, List.getElem?_set_self hlt]
        · rw [if_neg (fun h ↦ hcol h.1), List.getElem?_set_ne (by omega)]
      · have hne : row.toNat ≠ row'.toNat := by omega
        rw [if_neg (fun h ↦ hrow h.1)]
        simp [hne]
    · have hne : ¬ (row = row' ∧ col = col' ∧ grid.InBounds row col) := by
        rintro ⟨rfl, rfl, -⟩
        exact hsign' hsign
      rw [if_neg hne]
      simp only [get?, if_neg hsign']
  · rw [if_neg (fun h ↦ hin h.2.2), grid.set_of_not_inBounds value hin]

@[simp]
theorem get?_map (f : α → β) (grid : Grid α) (row col : ℤ) :
    (grid.map f).get? row col = (grid.get? row col).map f := by
  simp only [get?, map, List.getElem?_map]
  split
  · cases grid.cells[row.toNat]? <;> simp
  · rfl

@[simp]
theorem get?_flip (grid : Grid α) (row col : ℤ) :
    grid.flip.get? row col = grid.get? (grid.rows - 1 - row) col := by
  by_cases hin : grid.InBounds row col
  · obtain ⟨hnonneg, hrows, hcol, -⟩ := hin
    have hlt : row.toNat < grid.cells.length := by
      unfold rows at hrows
      omega
    have hindex : grid.cells.length - 1 - row.toNat = (grid.rows - 1 - row : ℤ).toNat := by
      unfold rows
      omega
    simp only [get?, flip, List.getElem?_reverse hlt, hindex]
    rw [if_pos ⟨hnonneg, hcol⟩, if_pos ⟨by omega, hcol⟩]
  · have hmirror : ¬ grid.InBounds (grid.rows - 1 - row) col := by
      unfold InBounds at hin ⊢
      omega
    rw [(get?_eq_none_iff _ _ _).2 hmirror, get?_eq_none_iff, inBounds_flip]
    exact hmirror

/-! ## Weights of all cells together -/

section Total

variable {M : Type*} [AddCommMonoid M]

/-- Sum of a weight over all cells. -/
def total (weight : α → M) (grid : Grid α) : M :=
  (grid.cells.map fun row ↦ (row.map weight).sum).sum

/-- A change of one entry changes the sum of the weights the way it changes that weight. -/
theorem sum_map_modify {γ : Type*} (weight : γ → M) (entries : List γ) (change : γ → γ)
    {index : ℕ} {old : γ} {removed added : M} (h : entries[index]? = some old)
    (hchange : weight (change old) + removed = weight old + added) :
    ((entries.modify index change).map weight).sum + removed =
      (entries.map weight).sum + added := by
  induction entries generalizing index with
  | nil => simp at h
  | cons head tail ih =>
    cases index with
    | zero =>
      obtain rfl : head = old := by simpa using h
      simp only [List.modify_zero_cons, List.map_cons, List.sum_cons]
      rw [add_right_comm, hchange, add_right_comm]
    | succ index =>
      have htail := @ih index (by simpa using h)
      simp only [List.modify_succ_cons, List.map_cons, List.sum_cons, add_assoc, htail]

/-- Overwriting a cell exchanges the weight of its old content for that of its new content. -/
theorem total_set (weight : α → M) (grid : Grid α) {row col : ℤ} {old : α} (value : α)
    (h : grid.get? row col = some old) :
    (grid.set row col value).total weight + weight old = grid.total weight + weight value := by
  have hin : grid.InBounds row col := (grid.isSome_get? row col).1 (by simp [h])
  have hsign : 0 ≤ row ∧ 0 ≤ col := ⟨hin.1, hin.2.2.1⟩
  obtain ⟨cells, hcells⟩ := grid.exists_row hin
  have hold : cells[col.toNat]? = some old := by simpa [get?, hsign, hcells] using h
  have hrow : ((cells.set col.toNat value).map weight).sum + weight old =
      (cells.map weight).sum + weight value := by
    have hmodify := sum_map_modify weight cells (fun _ ↦ value) hold (add_comm _ (weight old))
    rwa [List.modify_eq_set_getElem?, hold] at hmodify
  simp only [total, set, if_pos hsign]
  exact sum_map_modify (fun row ↦ (row.map weight).sum) grid.cells
    (fun row ↦ row.set col.toNat value) hcells hrow

@[simp]
theorem total_map (weight : β → M) (f : α → β) (grid : Grid α) :
    (grid.map f).total weight = grid.total (weight ∘ f) := by
  simp [total, map, Function.comp_def]

end Total

end Grid

end KongFuChess
