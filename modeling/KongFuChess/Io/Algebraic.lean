import KongFuChess.Model.Board

/-!
# Texts and squares

Strings of the program are lists of characters. A square is written as a file letter and a rank;
the writer accepts every square with nonnegative coordinates, the reader only the 64 squares of a
standard board.
-/

namespace KongFuChess

abbrev StdString := List Char

namespace Io

open Model

/-- A number in decimal notation, as `std::to_string` and streams write it. -/
def decimal (value : ℤ) : StdString :=
  if value < 0 then '-' :: Nat.toDigits 10 value.natAbs else Nat.toDigits 10 value.natAbs

/-- A number is written with digits and a sign. -/
theorem notMem_decimal {ch : Char} (hdigit : ch.isDigit = false) (hsign : ch ≠ '-') (value : ℤ) :
    ch ∉ decimal value := by
  have hdigits : ch ∉ Nat.toDigits 10 value.natAbs := by
    intro hmem
    rw [Nat.isDigit_of_mem_toDigits (by decide) (by decide) hmem] at hdigit
    exact Bool.true_eq_false.mp hdigit
  rw [decimal]
  split
  · exact List.not_mem_cons_of_ne_of_not_mem hsign hdigits
  · exact hdigits

/-- Out-of-range columns wrap the way the cast to `char` does. -/
def positionToAlgebraic (pos : Position) : StdString :=
  if pos.row < 0 ∨ pos.col < 0 then "??".toList
  else
    let file := Char.ofNat ((97 + pos.col.toNat) % 256)
    let rank := 8 - pos.row
    file :: decimal rank

def algebraicToPosition : StdString → Position
  | [file, rankChar] =>
    if file < 'a' ∨ 'h' < file ∨ rankChar < '1' ∨ '8' < rankChar then ⟨-1, -1⟩
    else
      let col := (file.toNat : ℤ) - 97
      let rank := (rankChar.toNat : ℤ) - 48
      ⟨8 - rank, col⟩
  | _ => ⟨-1, -1⟩

/-- The squares of a standard board. -/
def OnStandardBoard (pos : Position) : Prop :=
  0 ≤ pos.row ∧ pos.row < 8 ∧ 0 ≤ pos.col ∧ pos.col < 8

instance (pos : Position) : Decidable (OnStandardBoard pos) :=
  inferInstanceAs (Decidable (_ ∧ _ ∧ _ ∧ _))

/-- A property of the squares of a standard board can be checked square by square. -/
theorem onStandardBoard_induction {P : Position → Prop}
    (h : ∀ row : Fin 8, ∀ col : Fin 8, P ⟨row.val, col.val⟩) {pos : Position}
    (hpos : OnStandardBoard pos) : P pos := by
  obtain ⟨row, col⟩ := pos
  obtain ⟨hrow, hrow', hcol, hcol'⟩ := hpos
  lift row to ℕ using hrow
  lift col to ℕ using hcol
  exact h ⟨row, by simpa using hrow'⟩ ⟨col, by simpa using hcol'⟩

/-- Reading a written square gives the square back. -/
theorem algebraicToPosition_positionToAlgebraic {pos : Position} (h : OnStandardBoard pos) :
    algebraicToPosition (positionToAlgebraic pos) = pos :=
  onStandardBoard_induction
    (P := fun pos ↦ algebraicToPosition (positionToAlgebraic pos) = pos) (by decide) h

theorem positionToAlgebraic_of_fin (row col : Fin 8) :
    positionToAlgebraic ⟨row.val, col.val⟩ =
      [Char.ofNat (97 + col.val), Char.ofNat (56 - row.val)] := by
  revert row col
  decide

/-- A text that does not name a square of a standard board is read as no square. -/
theorem algebraicToPosition_cases (text : StdString) :
    algebraicToPosition text = ⟨-1, -1⟩ ∨
      OnStandardBoard (algebraicToPosition text) ∧
        positionToAlgebraic (algebraicToPosition text) = text := by
  match text with
  | [] | [_] | _ :: _ :: _ :: _ => exact .inl rfl
  | [file, rank] =>
    by_cases hrange : file < 'a' ∨ 'h' < file ∨ rank < '1' ∨ '8' < rank
    · exact .inl (if_pos hrange)
    right
    simp only [not_or] at hrange
    obtain ⟨hfile, hfile', hrank, hrank'⟩ := hrange
    have hfile : 97 ≤ file.toNat := not_lt.1 hfile
    have hfile' : file.toNat ≤ 104 := not_lt.1 hfile'
    have hrank : 49 ≤ rank.toNat := not_lt.1 hrank
    have hrank' : rank.toNat ≤ 56 := not_lt.1 hrank'
    let row : Fin 8 := ⟨56 - rank.toNat, by omega⟩
    let col : Fin 8 := ⟨file.toNat - 97, by omega⟩
    have hname : positionToAlgebraic ⟨row.val, col.val⟩ = [file, rank] := by
      have hcol : 97 + (file.toNat - 97) = file.toNat := by omega
      have hrow : 56 - (56 - rank.toNat) = rank.toNat := by omega
      rw [positionToAlgebraic_of_fin, hcol, hrow, Char.ofNat_toNat, Char.ofNat_toNat]
    have hrow : (row.val : ℤ) < 8 := by exact_mod_cast row.isLt
    have hcol : (col.val : ℤ) < 8 := by exact_mod_cast col.isLt
    have hsquare : OnStandardBoard ⟨row.val, col.val⟩ :=
      ⟨Int.natCast_nonneg _, hrow, Int.natCast_nonneg _, hcol⟩
    rw [← hname, algebraicToPosition_positionToAlgebraic hsquare]
    exact ⟨hsquare, rfl⟩

end Io

end KongFuChess
