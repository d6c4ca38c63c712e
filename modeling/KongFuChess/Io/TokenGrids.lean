import KongFuChess.Io.BoardParser
import Mathlib.Data.Bool.AllAny

/-!
# Which texts are boards

The rows of a text are the lines with tokens from the first `Board:` line up to the first
`Commands:` line or to the end. The reader accepts the text if the tokens are legal and the rows are
equally long, and then the board shows what the tokens stand for. Otherwise the first row that does
not go with the rows before it decides about the error.
-/

namespace KongFuChess.Io

open Model

/-! ## What the tokens stand for -/

def colorLetters : List (Char × Color) := [('w', .white), ('b', .black)]

def typeLetters : List (Char × PieceType) :=
  [('K', .king), ('Q', .queen), ('R', .rook), ('B', .bishop), ('N', .knight), ('P', .pawn)]

/-- The token stands for the piece. -/
inductive Decodes : StdString → Piece → Prop
  | empty : Decodes ['.'] Piece.empty
  | piece {colorChar typeChar : Char} {color : Color} {type : PieceType}
      (hcolor : (colorChar, color) ∈ colorLetters) (htype : (typeChar, type) ∈ typeLetters) :
      Decodes [colorChar, typeChar] (.of type color)

def IsLegal (token : StdString) : Prop := ∃ piece, Decodes token piece

/-- All tokens are legal, and all rows have the same number of them. -/
structure TokenGrid (rows : List (List StdString)) : Prop where
  legal : ∀ row ∈ rows, ∀ token ∈ row, IsLegal token
  width : ∀ row ∈ rows, ∀ other ∈ rows, row.length = other.length

theorem tokenGrid_nil : TokenGrid [] :=
  ⟨List.forall_mem_nil _, List.forall_mem_nil _⟩

theorem tokenGrid_concat {past : List (List StdString)} (h : TokenGrid past)
    (row : List StdString) :
    TokenGrid (past ++ [row]) ↔
      (∀ token ∈ row, IsLegal token) ∧ ∀ other ∈ past, other.length = row.length := by
  constructor
  · intro hgrid
    have hrow : row ∈ past ++ [row] := List.mem_append_right _ (List.mem_singleton_self row)
    exact ⟨hgrid.legal row hrow, fun other hother ↦
      hgrid.width other (List.mem_append_left _ hother) row hrow⟩
  · rintro ⟨hlegal, hwidth⟩
    constructor
    · intro other hother
      rcases List.mem_append.1 hother with hold | hnew
      · exact h.legal other hold
      · rw [List.mem_singleton.1 hnew]
        exact hlegal
    · have hsame : ∀ other ∈ past ++ [row], other.length = row.length := by
        intro other hother
        rcases List.mem_append.1 hother with hold | hnew
        · exact hwidth other hold
        · rw [List.mem_singleton.1 hnew]
      intro left hleft right hright
      exact (hsame left hleft).trans (hsame right hright).symm

theorem TokenGrid.of_append {past future : List (List StdString)} (h : TokenGrid (past ++ future)) :
    TokenGrid past :=
  ⟨fun row hrow ↦ h.legal row (List.mem_append_left _ hrow), fun row hrow other hother ↦
    h.width row (List.mem_append_left _ hrow) other (List.mem_append_left _ hother)⟩

namespace BoardParser

theorem decodes_iff {token : StdString} {piece : Piece} :
    Decodes token piece ↔ isValidToken token = true ∧ parseToken token = piece := by
  constructor
  · intro h
    cases h with
    | empty => exact ⟨rfl, rfl⟩
    | piece hcolor htype =>
      have htable : ∀ color ∈ colorLetters, ∀ type ∈ typeLetters,
          isValidToken [color.1, type.1] = true ∧
            parseToken [color.1, type.1] = .of type.2 color.2 := by
        decide
      exact htable _ hcolor _ htype
  · rintro ⟨hvalid, rfl⟩
    have hcolors : ∀ char ∈ BoardTokens.kColors, (char, parseColor char) ∈ colorLetters :=
      List.all_iff_forall_prop.1 (by decide)
    have htypes : ∀ char ∈ BoardTokens.kPieceTypes, (char, parsePieceType char) ∈ typeLetters :=
      List.all_iff_forall_prop.1 (by decide)
    unfold isValidToken at hvalid
    split at hvalid
    · obtain rfl := of_decide_eq_true hvalid
      exact .empty
    · rename_i colorChar typeChar
      rw [Bool.and_eq_true, List.contains_iff_mem, List.contains_iff_mem] at hvalid
      rw [parseToken, if_neg (by simp)]
      exact .piece (hcolors _ hvalid.1) (htypes _ hvalid.2)
    · exact absurd hvalid Bool.false_ne_true

theorem isLegal_iff (token : StdString) : IsLegal token ↔ isValidToken token = true := by
  simp only [IsLegal, decodes_iff, exists_and_left, exists_eq', and_true]

instance (token : StdString) : Decidable (IsLegal token) :=
  decidable_of_iff _ (isLegal_iff token).symm

/-! ## The rows of a text -/

def tokens (line : StdString) : List StdString := tokenReader.items line

/-- The rows that some lines of the board section hold. -/
def sectionRows (lines : List StdString) : List (List StdString) :=
  ((lines.filter (· ≠ InputMarkers.kBoardSection)).map tokens).filter (· ≠ [])

/-- The rows of a text. -/
def boardRows (input : StdString) : List (List StdString) :=
  sectionRows ((((lineReader.items input).map trimLine).takeWhile
    (· ≠ InputMarkers.kCommandsSection)).dropWhile (· ≠ InputMarkers.kBoardSection))

/-- The result and the board are those that the rows call for. -/
structure Judged (rows : List (List StdString)) (result : ParseResult) (board : Board) : Prop where
  ok_iff : result = .ok ↔ TokenGrid rows
  decoded : result = .ok → List.Forall₂ (List.Forall₂ Decodes) rows board.cells
  offending : result ≠ .ok → ∃ past row future, rows = past ++ row :: future ∧
    TokenGrid past ∧ ¬ TokenGrid (past ++ [row]) ∧
      result = if ∃ token ∈ row, ¬ IsLegal token then .errorUnknownToken
        else .errorRowWidthMismatch

/-! ## A row -/

theorem foldlM_readToken (row : List Piece) (texts : List StdString) :
    texts.foldlM readToken row =
      if ∀ token ∈ texts, IsLegal token then .ok (row ++ texts.map parseToken)
      else .error .errorUnknownToken := by
  induction texts generalizing row with
  | nil =>
    rw [if_pos (List.forall_mem_nil _), List.map_nil, List.append_nil]
    rfl
  | cons token rest ih =>
    rw [List.foldlM_cons, readToken]
    cases hvalid : isValidToken token with
    | true =>
      have hlegal : IsLegal token := (isLegal_iff token).2 hvalid
      have hstep := ih (row ++ [parseToken token])
      simp only [List.append_assoc, List.singleton_append] at hstep
      simp only [List.forall_mem_cons, hlegal, true_and, List.map_cons]
      exact hstep
    | false =>
      have hillegal : ¬ ∀ other ∈ token :: rest, IsLegal other := by
        intro h
        have hlegal := (isLegal_iff token).1 (h token (List.mem_cons_self ..))
        exact absurd (hvalid.symm.trans hlegal) Bool.false_ne_true
      rw [if_neg hillegal]
      rfl

/-- What a row of tokens does to the board. -/
def addTokens (board : Board) (texts : List StdString) : Except (ParseResult × Board) Board :=
  match texts.foldlM readToken [] with
  | .error result => .error (result, board)
  | .ok row =>
    if h : 0 < board.rows ∧ row.length ≠ board.cols then .error (.errorRowWidthMismatch, board)
    else .ok (board.addRow row fun hrows ↦ not_not.1 fun hne ↦ h ⟨hrows, hne⟩)

/-- The result of a loop that has been left or has come to its end. -/
def outcome : Except (ParseResult × Board) ParseState → ParseResult × Board
  | .error entry => entry
  | .ok state => (.ok, state.board)

theorem parseTrimmed_row {line : StdString} (hboard : line ≠ InputMarkers.kBoardSection)
    (hcommands : line ≠ InputMarkers.kCommandsSection) (hne : tokens line ≠ []) (board : Board) :
    parseTrimmed ⟨true, board⟩ line = (addTokens board (tokens line)).map (ParseState.mk true) := by
  have hline : line.isEmpty = false := by
    rw [List.isEmpty_eq_false_iff]
    rintro rfl
    exact hne (Reader.items_of_none Reader.read_words_nil)
  rw [parseTrimmed, if_neg hboard, if_neg hcommands, if_neg (by simp [hline]), Reader.fst_loop]
  rw [addTokens, show tokenReader.items line = tokens line from rfl, foldlM_readToken]
  by_cases hlegal : ∀ token ∈ tokens line, IsLegal token
  · simp only [if_pos hlegal, List.nil_append]
    rw [if_neg (by simpa using hne)]
    split
    · rfl
    · rfl
  · simp only [if_neg hlegal]
    rfl

theorem parseTrimmed_blank {line : StdString} (hboard : line ≠ InputMarkers.kBoardSection)
    (hcommands : line ≠ InputMarkers.kCommandsSection) (hempty : tokens line = [])
    (state : ParseState) : parseTrimmed state line = .ok state := by
  rw [parseTrimmed, if_neg hboard, if_neg hcommands]
  split
  · rfl
  · rw [Reader.fst_loop, show tokenReader.items line = tokens line from rfl, hempty]
    rfl

/-! ## The sections of a text -/

/-- Inside the board section, the lines before the end of the section matter, and of these the rows
that they hold. -/
theorem outcome_parsing (lines : List StdString) (board : Board) :
    outcome (lines.foldlM parseTrimmed ⟨true, board⟩) =
      outcome (((sectionRows (lines.takeWhile (· ≠ InputMarkers.kCommandsSection))).foldlM addTokens
        board).map (ParseState.mk true)) := by
  induction lines generalizing board with
  | nil => rfl
  | cons line rest ih =>
    rw [List.foldlM_cons]
    by_cases hcommands : line = InputMarkers.kCommandsSection
    · subst hcommands
      rfl
    rw [List.takeWhile_cons_of_pos (by simpa using hcommands), sectionRows]
    by_cases hboard : line = InputMarkers.kBoardSection
    · rw [List.filter_cons_of_neg (by simpa using hboard), parseTrimmed, if_pos hboard]
      exact ih board
    rw [List.filter_cons_of_pos (by simpa using hboard), List.map_cons]
    by_cases hempty : tokens line = []
    · rw [List.filter_cons_of_neg (by simpa using hempty),
        parseTrimmed_blank hboard hcommands hempty]
      exact ih board
    · rw [List.filter_cons_of_pos (by simpa using hempty),
        parseTrimmed_row hboard hcommands hempty, List.foldlM_cons]
      cases addTokens board (tokens line) with
      | error entry => rfl
      | ok next => exact ih next

/-- Before the board section nothing matters but the two marks. -/
theorem outcome_searching (lines : List StdString) (board : Board) :
    outcome (lines.foldlM parseTrimmed ⟨false, board⟩) =
      outcome (((sectionRows ((lines.takeWhile (· ≠ InputMarkers.kCommandsSection)).dropWhile
        (· ≠ InputMarkers.kBoardSection))).foldlM addTokens board).map (ParseState.mk true)) := by
  induction lines with
  | nil => rfl
  | cons line rest ih =>
    by_cases hcommands : line = InputMarkers.kCommandsSection
    · subst hcommands
      rfl
    rw [List.takeWhile_cons_of_pos (by simpa using hcommands)]
    by_cases hboard : line = InputMarkers.kBoardSection
    · rw [List.dropWhile_cons_of_neg (by simpa using hboard), sectionRows,
        List.filter_cons_of_neg (by simpa using hboard), List.foldlM_cons, parseTrimmed,
        if_pos hboard]
      exact outcome_parsing rest board
    · rw [List.dropWhile_cons_of_pos (by simpa using hboard), List.foldlM_cons, parseTrimmed,
        if_neg hboard, if_neg hcommands]
      exact ih

/-! ## The verdict -/

section Verdict

variable {past : List (List StdString)} {board : Board}

/-- The board shows the rows. -/
def Shows (board : Board) (rows : List (List StdString)) : Prop :=
  board.cells = rows.map (List.map parseToken)

/-- The comparison with the first row stands for all comparisons. -/
theorem Shows.width_iff (h : Shows board past) (hgrid : TokenGrid past) (length : ℕ) :
    (0 < board.rows → length = board.cols) ↔ ∀ other ∈ past, other.length = length := by
  unfold Shows at h
  cases past with
  | nil =>
    rw [Grid.rows, h]
    simp
  | cons first rest =>
    have hrows : 0 < board.rows := by simp [Grid.rows, h]
    have hcols : board.cols = first.length := by simp [Grid.cols, h]
    rw [hcols, forall_prop_of_true hrows]
    constructor
    · rintro rfl other hother
      exact hgrid.width other hother first (List.mem_cons_self ..)
    · intro hsame
      exact (hsame first (List.mem_cons_self ..)).symm

/-- A row is added to the board if it goes with the rows before it. -/
theorem addTokens_cases (h : Shows board past) (hgrid : TokenGrid past) (row : List StdString) :
    (TokenGrid (past ++ [row]) ∧
        ∃ next, addTokens board row = .ok next ∧ Shows next (past ++ [row])) ∨
      (¬ TokenGrid (past ++ [row]) ∧ addTokens board row =
        .error (if ∃ token ∈ row, ¬ IsLegal token then .errorUnknownToken
          else .errorRowWidthMismatch, board)) := by
  have hwidth := h.width_iff hgrid (row.map parseToken).length
  rw [tokenGrid_concat hgrid, addTokens, foldlM_readToken]
  by_cases hbad : ∃ token ∈ row, ¬ IsLegal token
  · have hillegal : ¬ ∀ token ∈ row, IsLegal token := by
      obtain ⟨token, hmem, hbad⟩ := hbad
      exact fun hlegal ↦ hbad (hlegal token hmem)
    refine .inr ⟨fun hgrid ↦ hillegal hgrid.1, ?_⟩
    simp only [if_neg hillegal, if_pos hbad]
  have hlegal : ∀ token ∈ row, IsLegal token := by simpa using hbad
  simp only [if_pos hlegal, if_neg hbad, List.nil_append]
  rw [List.length_map] at hwidth
  split
  · rename_i hmismatch
    refine .inr ⟨fun hgrid ↦ ?_, rfl⟩
    rw [List.length_map] at hmismatch
    exact hmismatch.2 (hwidth.2 hgrid.2 hmismatch.1)
  · rename_i hfits
    rw [List.length_map, not_and, not_not] at hfits
    refine .inl ⟨⟨hlegal, hwidth.1 hfits⟩, _, rfl, ?_⟩
    unfold Shows at h ⊢
    rw [List.map_append, ← h]
    rfl

theorem Shows.forall₂ (h : Shows board past) (hgrid : TokenGrid past) :
    List.Forall₂ (List.Forall₂ Decodes) past board.cells := by
  rw [show board.cells = _ from h, List.forall₂_map_right_iff, List.forall₂_same]
  intro row hrow
  rw [List.forall₂_map_right_iff, List.forall₂_same]
  intro token htoken
  exact decodes_iff.2 ⟨(isLegal_iff token).1 (hgrid.legal row hrow token htoken), rfl⟩

/-- The rows that are left are judged together with the rows that the board shows. -/
theorem judged_foldlM (h : Shows board past) (hgrid : TokenGrid past)
    (future : List (List StdString)) :
    Judged (past ++ future)
      (outcome ((future.foldlM addTokens board).map (ParseState.mk true))).1
      (outcome ((future.foldlM addTokens board).map (ParseState.mk true))).2 := by
  induction future generalizing past board with
  | nil =>
    rw [List.append_nil]
    exact ⟨iff_of_true rfl hgrid, fun _ ↦ h.forall₂ hgrid, fun hne ↦ absurd rfl hne⟩
  | cons row rest ih =>
    rw [List.foldlM_cons]
    rcases addTokens_cases h hgrid row with ⟨hnext, next, heq, hshows⟩ | ⟨hbad, heq⟩
    · rw [heq, ← List.singleton_append, ← List.append_assoc]
      exact ih hshows hnext
    · rw [heq]
      have herror : (if ∃ token ∈ row, ¬ IsLegal token then ParseResult.errorUnknownToken
          else .errorRowWidthMismatch) ≠ .ok := by
        split
        · exact ParseResult.noConfusion
        · exact ParseResult.noConfusion
      have hnot : ¬ TokenGrid (past ++ row :: rest) := by
        rw [← List.singleton_append, ← List.append_assoc]
        exact fun hall ↦ hbad hall.of_append
      exact ⟨iff_of_false herror hnot, fun hok ↦ absurd hok herror,
        fun _ ↦ ⟨past, row, rest, rfl, hgrid, hbad, rfl⟩⟩

end Verdict

theorem parseFromInput_eq (input : StdString) (board : Board) :
    ((parseFromInput input board).1, (parseFromInput input board).2.1) =
      outcome (lineReader.loop parseLine { board := board.clear } input).1 := by
  rw [parseFromInput]
  split
  · rename_i heq
    rw [heq, outcome]
  · rename_i heq
    rw [heq, outcome]

/-- The reader accepts a text if its rows form a grid of legal tokens, and only then. The board then
shows what they stand for; else the first row that breaks the grid decides about the error. -/
theorem judged_parseFromInput (input : StdString) (board : Board) :
    Judged (boardRows input) (parseFromInput input board).1 (parseFromInput input board).2.1 := by
  have houtcome := calc
    ((parseFromInput input board).1, (parseFromInput input board).2.1)
      = outcome ((lineReader.items input).foldlM parseLine { board := board.clear }) := by
      rw [parseFromInput_eq, Reader.fst_loop]
    _ = outcome (((lineReader.items input).map trimLine).foldlM parseTrimmed
          { board := board.clear }) := by
      rw [List.foldlM_map]
      rfl
    _ = _ := outcome_searching _ board.clear
  have hjudged := judged_foldlM (show Shows board.clear [] from rfl) tokenGrid_nil (boardRows input)
  rw [List.nil_append, boardRows, ← houtcome] at hjudged
  exact hjudged

end BoardParser

end KongFuChess.Io
