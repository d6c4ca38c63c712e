import KongFuChess.Io.TokenGrids

/-!
# Writing a board

A written board is read back as it was, apart from what its pieces remember: their cooldowns and
whether they have moved are not written. Between the two marks that the reader looks for, nothing
but the board is read, and nothing after them.
-/

namespace KongFuChess.Io

open Model

namespace BoardPrinter

def colorToChar (color : Color) : Char := if color = .white then 'w' else 'b'

def pieceTypeToChar : PieceType → Char
  | .king => BoardTokens.kKing
  | .queen => BoardTokens.kQueen
  | .rook => BoardTokens.kRook
  | .bishop => BoardTokens.kBishop
  | .knight => BoardTokens.kKnight
  | .pawn => BoardTokens.kPawn
  | .empty => BoardTokens.kEmpty

def pieceToToken (piece : Piece) : StdString :=
  if piece.isEmpty then [BoardTokens.kEmpty]
  else [colorToChar piece.color, pieceTypeToChar piece.type]

def print (board : Board) : StdString :=
  (List.range board.rows).flatMap fun row : ℕ ↦
    ((List.range board.cols).flatMap fun col : ℕ ↦
      (if 0 < col then [' '] else []) ++ pieceToToken (board.cell ⟨row, col⟩)) ++ ['\n']

/-! ## Tokens -/

/-- The piece as it is when a board is set up. -/
def renewed (piece : Piece) : Piece :=
  if piece.isEmpty then Piece.empty else .of piece.type piece.color

@[simp]
theorem pieceToToken_renewed (piece : Piece) :
    pieceToToken (renewed piece) = pieceToToken piece := by
  unfold renewed
  split
  · rename_i hempty
    rw [pieceToToken, pieceToToken, if_pos hempty]
    rfl
  · rfl

/-- A token that is written is read as the piece. -/
theorem decodes_pieceToToken (piece : Piece) : Decodes (pieceToToken piece) (renewed piece) := by
  unfold pieceToToken renewed
  split
  · exact .empty
  · rename_i hfull
    rw [Piece.isEmpty_iff] at hfull
    have hcolor : (colorToChar piece.color, piece.color) ∈ colorLetters := by
      cases piece.color <;> decide
    have htype : (pieceTypeToChar piece.type, piece.type) ∈ typeLetters := by
      cases htype : piece.type with
      | empty => exact absurd htype hfull
      | king | queen | rook | bishop | knight | pawn => decide
    exact .piece hcolor htype

theorem isLegal_pieceToToken (piece : Piece) : IsLegal (pieceToToken piece) :=
  ⟨renewed piece, decodes_pieceToToken piece⟩

theorem parseToken_pieceToToken (piece : Piece) :
    BoardParser.parseToken (pieceToToken piece) = renewed piece :=
  (BoardParser.decodes_iff.1 (decodes_pieceToToken piece)).2

theorem pieceToToken_ne_nil (piece : Piece) : pieceToToken piece ≠ [] := by
  unfold pieceToToken
  split
  · exact List.cons_ne_nil _ _
  · exact List.cons_ne_nil _ _

/-- The characters of the tokens. -/
def IsTokenChar (char : Char) : Prop :=
  char ∈ BoardTokens.kEmpty :: (BoardTokens.kColors ++ BoardTokens.kPieceTypes)

instance (char : Char) : Decidable (IsTokenChar char) := inferInstanceAs (Decidable (_ ∈ _))

theorem isTokenChar_of_isLegal {token : StdString} (h : IsLegal token) :
    ∀ char ∈ token, IsTokenChar char := by
  obtain ⟨piece, hdecodes⟩ := h
  cases hdecodes with
  | empty => exact List.forall_mem_singleton.2 (by decide)
  | piece hcolor htype =>
    have hcolors : ∀ entry ∈ colorLetters, IsTokenChar entry.1 := by decide
    have htypes : ∀ entry ∈ typeLetters, IsTokenChar entry.1 := by decide
    simp only [List.forall_mem_cons]
    exact ⟨hcolors _ hcolor, htypes _ htype, List.forall_mem_nil _⟩

/-- No character of a token separates tokens or rows or occurs at the end of the marks. -/
theorem IsTokenChar.plain {char : Char} (h : IsTokenChar char) :
    Network.Protocol.isSpace char = false ∧ Text.kWhitespace.contains char = false ∧
      char ≠ '\n' ∧ char ≠ ':' := by
  have htable : ∀ char ∈ BoardTokens.kEmpty :: (BoardTokens.kColors ++ BoardTokens.kPieceTypes),
      Network.Protocol.isSpace char = false ∧ Text.kWhitespace.contains char = false ∧
        char ≠ '\n' ∧ char ≠ ':' :=
    List.all_iff_forall_prop.1 (by decide)
  exact htable char h

/-! ## Rows -/

def rowTokens (row : List Piece) : List StdString := row.map pieceToToken

def rowText (row : List Piece) : StdString := [' '].intercalate (rowTokens row)

theorem cell_eq_getD (board : Board) {row : ℕ} (hrow : row < board.cells.length) (col : ℕ) :
    board.cell ⟨row, col⟩ = (board.cells.getD row []).getD col Piece.empty := by
  have hindex : (0 : ℤ) ≤ row ∧ (0 : ℤ) ≤ col := by omega
  rw [Board.cell, Grid.getD, Grid.get?, if_pos hindex]
  simp [hrow]

/-- The loops over the indices write the rows of the board. -/
theorem print_eq (board : Board) :
    print board = board.cells.flatMap fun row ↦ rowText row ++ ['\n'] := by
  rw [print, ← Writer.flatMap_range _ board.cells []]
  apply List.flatMap_congr
  intro row hrow
  have hcells : row < board.cells.length := List.mem_range.1 hrow
  have hread : board.cells[row]? = some (board.cells.getD row []) := by simp [hcells]
  have hlength : board.cols = (board.cells.getD row []).length := (board.row_length hread).symm
  rw [rowText, rowTokens, ← Writer.flatMap_range_separated ' ' _ _ Piece.empty, ← hlength]
  congr 1
  apply List.flatMap_congr
  intro col _
  rw [cell_eq_getD board hcells]

theorem tokens_rowText (row : List Piece) : BoardParser.tokens (rowText row) = rowTokens row := by
  apply Reader.items_intercalate rfl
  intro text hmem
  obtain ⟨piece, -, rfl⟩ := List.mem_map.1 hmem
  exact ⟨pieceToToken_ne_nil piece, fun char hchar ↦
    (isTokenChar_of_isLegal (isLegal_pieceToToken piece) char hchar).plain.1⟩

theorem forall_mem_rowText (row : List Piece) :
    ∀ char ∈ rowText row, char = ' ' ∨ IsTokenChar char := by
  refine Writer.forall_mem_intercalate ' ' (p := fun char ↦ char = ' ' ∨ IsTokenChar char)
    (.inl rfl) ?_
  intro text hmem char hchar
  obtain ⟨piece, -, rfl⟩ := List.mem_map.1 hmem
  exact .inr (isTokenChar_of_isLegal (isLegal_pieceToToken piece) char hchar)

theorem trimLine_rowText {row : List Piece} (hne : row ≠ []) :
    BoardParser.trimLine (rowText row) = rowText row := by
  obtain ⟨⟨head, tail, hstart, hhead⟩, front, last, hend, hlast⟩ :=
    Writer.ends_intercalate (p := IsTokenChar) ' ' (show rowTokens row ≠ [] by
      simpa [rowTokens] using hne) fun text hmem ↦ by
        obtain ⟨piece, -, rfl⟩ := List.mem_map.1 hmem
        exact ⟨pieceToToken_ne_nil piece, isTokenChar_of_isLegal (isLegal_pieceToToken piece)⟩
  have hdrop : (rowText row).dropWhile Text.kWhitespace.contains = rowText row := by
    rw [rowText, hstart]
    exact List.dropWhile_cons_of_neg (ne_true_of_eq_false hhead.plain.2.1)
  rw [BoardParser.trimLine, hdrop, rowText, hend]
  exact List.rdropWhile_concat_neg _ _ _ (ne_true_of_eq_false hlast.plain.2.1)

/-! ## Reading back -/

open BoardParser

theorem loop_line {line : StdString} (h : '\n' ∉ line) (state : ParseState) (rest : StdString) :
    lineReader.loop parseLine state (line ++ '\n' :: rest) =
      match parseLine state line with
      | .error entry => (.error entry, rest)
      | .ok next => lineReader.loop parseLine next rest := by
  rw [lineReader, Reader.loop_of_some _ _ (Reader.read_lines_append h rest)]
  cases parseLine state line with
  | error entry => rfl
  | ok next => rfl

/-- A row that is written is added to the board. -/
theorem parseLine_rowText {row : List Piece} (hne : row ≠ []) (board : Board) :
    parseLine ⟨true, board⟩ (rowText row) =
      (addTokens board (rowTokens row)).map (ParseState.mk true) := by
  have hmark : ∀ mark : StdString, ':' ∈ mark → rowText row ≠ mark := by
    rintro mark hcolon rfl
    rcases forall_mem_rowText row ':' hcolon with hspace | hchar
    · exact absurd hspace (by decide)
    · exact hchar.plain.2.2.2 rfl
  rw [parseLine, trimLine_rowText hne, ← tokens_rowText]
  apply parseTrimmed_row (hmark _ (by decide)) (hmark _ (by decide))
  rw [tokens_rowText, rowTokens]
  simpa using hne

/-- The rows that are written are read one by one, and what follows them is left. -/
theorem loop_rows {past : List (List StdString)} {board : Board} (hshows : Shows board past)
    {rows : List (List Piece)} (hgrid : TokenGrid (past ++ rows.map rowTokens))
    (hne : ∀ row ∈ rows, row ≠ []) (rest : StdString) :
    ∃ next, Shows next (past ++ rows.map rowTokens) ∧
      lineReader.loop parseLine ⟨true, board⟩
          ((rows.flatMap fun row ↦ rowText row ++ ['\n']) ++ rest) =
        lineReader.loop parseLine ⟨true, next⟩ rest := by
  induction rows generalizing past board with
  | nil => exact ⟨board, by simpa using hshows, rfl⟩
  | cons row rows ih =>
    rw [List.map_cons, ← List.singleton_append, ← List.append_assoc] at hgrid
    obtain ⟨-, next, hadd, hnext⟩ :=
      (addTokens_cases hshows hgrid.of_append.of_append (rowTokens row)).resolve_right
        fun hbad ↦ hbad.1 hgrid.of_append
    obtain ⟨last, hlast, hloop⟩ := ih hnext hgrid fun other hmem ↦
      hne other (List.mem_cons_of_mem _ hmem)
    refine ⟨last, by simpa using hlast, ?_⟩
    have hline : '\n' ∉ rowText row := by
      intro hmem
      rcases forall_mem_rowText row '\n' hmem with hspace | hchar
      · exact absurd hspace (by decide)
      · exact hchar.plain.2.2.1 rfl
    rw [List.flatMap_cons, List.append_assoc, List.append_assoc, List.singleton_append,
      loop_line hline, parseLine_rowText (hne row (List.mem_cons_self ..)), hadd]
    exact hloop

/-- The board that has been read shows what the other shows, and is written in the same way. -/
structure ReadBack (board parsed : Board) : Prop where
  rows : parsed.rows = board.rows
  cols : parsed.cols = board.cols
  occupied : ∀ pos, (board.cell pos).isEmpty = false →
    (parsed.cell pos).Is (board.cell pos).type (board.cell pos).color
  empty : ∀ pos, (board.cell pos).isEmpty = true → parsed.cell pos = Piece.empty
  print : print parsed = print board

theorem cell_map_renewed (board : Board) (pos : Position) :
    Board.cell (board.map renewed) pos = renewed (board.cell pos) := by
  rw [Board.cell, Grid.getD, Grid.get?_map, Board.cell, Grid.getD, ← Option.getD_map renewed]
  rfl

theorem readBack_renewed (board : Board) : ReadBack board (board.map renewed) where
  rows := Grid.rows_map renewed board
  cols := Grid.cols_map renewed board
  occupied := by
    intro pos hfull
    rw [cell_map_renewed, renewed, hfull]
    exact ⟨hfull, rfl, rfl⟩
  empty := by
    intro pos hempty
    rw [cell_map_renewed, renewed, if_pos hempty]
  print := by
    have hrow : ∀ row : List Piece, rowText (row.map renewed) = rowText row := by
      intro row
      rw [rowText, rowTokens, List.map_map]
      simp [Function.comp_def, rowText, rowTokens]
    rw [print_eq, print_eq, Grid.map, List.flatMap_map]
    simp only [hrow]

theorem row_ne_nil {board : Board} (hcols : 0 < board.rows → 0 < board.cols) :
    ∀ row ∈ board.cells, row ≠ [] := by
  rintro row hrow rfl
  have hlength : 0 = board.cols := board.rectangular [] hrow
  exact absurd (hcols (List.length_pos_of_mem hrow)) (by omega)

theorem tokenGrid_rowTokens (board : Board) : TokenGrid (board.cells.map rowTokens) := by
  constructor
  · intro texts hmem text htext
    obtain ⟨row, -, rfl⟩ := List.mem_map.1 hmem
    obtain ⟨piece, -, rfl⟩ := List.mem_map.1 htext
    exact isLegal_pieceToToken piece
  · intro texts hmem others hmem'
    obtain ⟨row, hrow, rfl⟩ := List.mem_map.1 hmem
    obtain ⟨other, hother, rfl⟩ := List.mem_map.1 hmem'
    rw [rowTokens, rowTokens, List.length_map, List.length_map, board.rectangular row hrow,
      board.rectangular other hother]

theorem eq_renewed_of_shows {board parsed : Board} (h : Shows parsed (board.cells.map rowTokens)) :
    parsed = board.map renewed := by
  have htokens : ∀ row : List Piece, (rowTokens row).map parseToken = row.map renewed := by
    intro row
    rw [rowTokens, List.map_map]
    exact List.map_congr_left fun piece _ ↦ parseToken_pieceToToken piece
  apply Grid.ext
  rw [show parsed.cells = _ from h, List.map_map, Grid.map]
  exact List.map_congr_left fun row _ ↦ htokens row

theorem parseLine_boardSection (board : Board) :
    parseLine { board := board } InputMarkers.kBoardSection = .ok ⟨true, board⟩ := by
  have htrim : trimLine InputMarkers.kBoardSection = InputMarkers.kBoardSection := by decide
  rw [parseLine, htrim, parseTrimmed, if_pos rfl]

theorem parseLine_commandsSection (state : ParseState) :
    parseLine state InputMarkers.kCommandsSection = .error (.ok, state.board) := by
  have htrim : trimLine InputMarkers.kCommandsSection = InputMarkers.kCommandsSection := by decide
  rw [parseLine, htrim, parseTrimmed, if_neg (by decide), if_pos rfl]

/-- Written between the marks, a board whose rows are not empty is read back. What follows the line
of the second mark, if that line has an end, is left unread. -/
theorem parseFromInput_print (board old : Board) (hcols : 0 < board.rows → 0 < board.cols)
    (rest : Option StdString) :
    ∃ parsed,
      parseFromInput (InputMarkers.kBoardSection ++ '\n' :: (print board ++
          (InputMarkers.kCommandsSection ++ rest.elim [] ('\n' :: ·)))) old =
        (.ok, parsed, rest.getD []) ∧
      ReadBack board parsed := by
  have hgrid : TokenGrid ([] ++ board.cells.map rowTokens) := tokenGrid_rowTokens board
  obtain ⟨parsed, hshows, hloop⟩ := loop_rows (show Shows old.clear [] from rfl) hgrid
    (row_ne_nil hcols) (InputMarkers.kCommandsSection ++ rest.elim [] ('\n' :: ·))
  have hlast : lineReader.read (InputMarkers.kCommandsSection ++ rest.elim [] ('\n' :: ·)) =
      some (InputMarkers.kCommandsSection, rest.getD []) := by
    cases rest with
    | none => exact Reader.read_lines_last (by decide) (by decide)
    | some rest => exact Reader.read_lines_append (by decide) rest
  have hread := calc
    lineReader.loop parseLine { board := old.clear } (InputMarkers.kBoardSection ++ '\n' ::
        (print board ++ (InputMarkers.kCommandsSection ++ rest.elim [] ('\n' :: ·))))
      = lineReader.loop parseLine ⟨true, old.clear⟩
        (print board ++ (InputMarkers.kCommandsSection ++ rest.elim [] ('\n' :: ·))) := by
      rw [loop_line (by decide), parseLine_boardSection]
    _ = lineReader.loop parseLine ⟨true, parsed⟩
        (InputMarkers.kCommandsSection ++ rest.elim [] ('\n' :: ·)) := by
      rw [print_eq, hloop]
    _ = (.error (.ok, parsed), rest.getD []) := by
      rw [Reader.loop_of_some _ _ hlast, parseLine_commandsSection]
  refine ⟨parsed, ?_, ?_⟩
  · rw [parseFromInput, hread]
  · rw [eq_renewed_of_shows hshows]
    exact readBack_renewed board

/-- A king and three pawns. -/
def kingAndPawnsBoard : Board where
  cells := [[.of .pawn .white, .empty, .of .king .white],
    [.of .pawn .white, .empty, .of .pawn .white]]
  rectangular := by decide

theorem parseFromInput_print_kingAndPawns :
    let input := "Board:\nwP . wK\nwP . wP\nCommands:\nclick 61 64\n".toList
    ∃ parsed, parseFromInput input kingAndPawnsBoard = (.ok, parsed, "click 61 64\n".toList) ∧
      ReadBack kingAndPawnsBoard parsed :=
  parseFromInput_print kingAndPawnsBoard kingAndPawnsBoard (by decide)
    (some "click 61 64\n".toList)

end BoardPrinter

end KongFuChess.Io
