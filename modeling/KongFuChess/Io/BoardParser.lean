import KongFuChess.Library.Reader
import KongFuChess.Network.JsonUtil
import Mathlib.Data.List.DropRight

/-!
# Reading a board

A board is written as rows of tokens, one row a line, between a line that says `Board:` and one
that says `Commands:`. The reader leaves at the first row that does not fit.
-/

namespace KongFuChess

namespace BoardTokens

def kEmpty : Char := '.'

def kColors : StdString := "wb".toList

def kPieceTypes : StdString := "KQRBNP".toList

def kKing : Char := 'K'

def kQueen : Char := 'Q'

def kRook : Char := 'R'

def kBishop : Char := 'B'

def kKnight : Char := 'N'

def kPawn : Char := 'P'

end BoardTokens

def InputMarkers.kBoardSection : StdString := "Board:".toList

def InputMarkers.kCommandsSection : StdString := "Commands:".toList

def Text.kWhitespace : StdString := " \t\r\n".toList

namespace Io

open Model

inductive ParseResult
  | ok
  | errorUnknownToken
  | errorRowWidthMismatch
deriving DecidableEq, Repr

namespace BoardParser

def isValidToken (token : StdString) : Bool :=
  match token with
  | [char] => char = BoardTokens.kEmpty
  | [colorChar, typeChar] =>
    BoardTokens.kColors.contains colorChar && BoardTokens.kPieceTypes.contains typeChar
  | _ => false

def parseColor (colorChar : Char) : Color := if colorChar = 'w' then .white else .black

def parsePieceType (typeChar : Char) : PieceType :=
  if typeChar = BoardTokens.kKing then .king
  else if typeChar = BoardTokens.kQueen then .queen
  else if typeChar = BoardTokens.kRook then .rook
  else if typeChar = BoardTokens.kBishop then .bishop
  else if typeChar = BoardTokens.kKnight then .knight
  else if typeChar = BoardTokens.kPawn then .pawn
  else .empty

/-- Called for valid tokens only. The character after the end of a string is read as zero. -/
def parseToken (token : StdString) : Piece :=
  if token = [BoardTokens.kEmpty] then Piece.empty
  else
    .of (parsePieceType (token.getD 1 (Char.ofNat 0))) (parseColor (token.getD 0 (Char.ofNat 0)))

def trimLine (line : StdString) : StdString :=
  (line.dropWhile Text.kWhitespace.contains).rdropWhile Text.kWhitespace.contains

/-- `std::getline`. -/
def lineReader : Reader Char StdString := .lines '\n'

/-- `>>` into a string. -/
def tokenReader : Reader Char StdString := .words Network.Protocol.isSpace

def readToken (row : List Piece) (token : StdString) : Except ParseResult (List Piece) :=
  if !isValidToken token then .error .errorUnknownToken else .ok (row ++ [parseToken token])

structure ParseState where
  isParsingBoard : Bool := false
  board : Board

/-- A trimmed line. An error stands for leaving the loop, with the result and the board so far. -/
def parseTrimmed (state : ParseState) (line : StdString) :
    Except (ParseResult × Board) ParseState :=
  if line = InputMarkers.kBoardSection then .ok { state with isParsingBoard := true }
  else if line = InputMarkers.kCommandsSection then .error (.ok, state.board)
  else if !state.isParsingBoard || line.isEmpty then .ok state
  else
    match (tokenReader.loop readToken [] line).1 with
    | .error result => .error (result, state.board)
    | .ok row =>
      if row.isEmpty then .ok state
      else if h : 0 < state.board.rows ∧ row.length ≠ state.board.cols then
        .error (.errorRowWidthMismatch, state.board)
      else
        .ok { state with
          board := state.board.addRow row fun hrows ↦ not_not.1 fun hne ↦ h ⟨hrows, hne⟩ }

def parseLine (state : ParseState) (line : StdString) : Except (ParseResult × Board) ParseState :=
  parseTrimmed state (trimLine line)

/-- The result, the board and what is left unread. -/
def parseFromInput (input : StdString) (board : Board) : ParseResult × Board × StdString :=
  match lineReader.loop parseLine { board := board.clear } input with
  | (.error (result, board), rest) => (result, board, rest)
  | (.ok state, rest) => (.ok, state.board, rest)

end BoardParser

end Io

end KongFuChess
