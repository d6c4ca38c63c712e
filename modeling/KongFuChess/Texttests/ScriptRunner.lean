import KongFuChess.Engine.Poised
import KongFuChess.Input.Session
import KongFuChess.Io.BoardPrinter
import KongFuChess.Library.Commands
import KongFuChess.Texttests.ScriptParser

/-!
# Running a script

A script is a board and a list of commands. The runner plays the commands on an engine of its own,
with the controller in front of it, and writes the boards that it is asked to print, or the reason
why the board of the script could not be read.

Printing a board first advances the time by nothing. This is of no consequence: what a script prints
depends on the commands that act, and not on what was printed before.
-/

namespace KongFuChess

namespace ErrorMessages

def kUnknownToken : StdString := "ERROR UNKNOWN_TOKEN".toList

def kRowWidthMismatch : StdString := "ERROR ROW_WIDTH_MISMATCH".toList

end ErrorMessages

namespace Texttests

open Model Realtime Engine Input Io

structure ScriptRunner where
  gameEngine : GameEngine
  controller : Controller := {}

namespace ScriptRunner

/-- A command and what it writes. -/
def perform (runner : ScriptRunner) : ScriptCommand → ScriptRunner × StdString
  | .click x y =>
    let (controller, gameEngine) := runner.controller.handleClick runner.gameEngine x y none
    ({ gameEngine := gameEngine, controller := controller }, [])
  | .jump x y =>
    let (controller, gameEngine) := runner.controller.handleJump runner.gameEngine x y none
    ({ gameEngine := gameEngine, controller := controller }, [])
  | .wait ms => ({ runner with gameEngine := runner.gameEngine.advanceTime ms }, [])
  | .printBoard =>
    let gameEngine := runner.gameEngine.advanceTime 0
    ({ runner with gameEngine := gameEngine }, BoardPrinter.print gameEngine.board)
  | .unknown => (runner, [])

def processLine (runner : ScriptRunner) (line : StdString) : ScriptRunner × StdString :=
  runner.perform (ScriptParser.parseLine line)

/-- The loop over the lines that the reader of the board has left. -/
def processLines (runner : ScriptRunner) (lines : List StdString) : ScriptRunner × StdString :=
  lines.foldl (fun (runner, out) line ↦
    let (runner, text) := runner.processLine line
    (runner, out ++ text)) (runner, [])

def run (runner : ScriptRunner) (input : StdString) : ScriptRunner × StdString :=
  let (result, board, rest) := BoardParser.parseFromInput input runner.gameEngine.board
  let gameEngine := { runner.gameEngine with board := board }
  match result with
  | .errorUnknownToken =>
    ({ runner with gameEngine := gameEngine }, ErrorMessages.kUnknownToken)
  | .errorRowWidthMismatch =>
    ({ runner with gameEngine := gameEngine }, ErrorMessages.kRowWidthMismatch)
  | .ok =>
    { runner with gameEngine := gameEngine.reset }.processLines (BoardParser.lineReader.items rest)

/-! ## The language of the commands -/

/-- The commands of a script as a language. -/
def language : Language ScriptRunner ScriptCommand Char := ⟨perform⟩

/-- The commands that change something. -/
def acts : ScriptCommand → Bool
  | .click _ _ | .jump _ _ | .wait _ => true
  | .printBoard | .unknown => false

theorem processLines_eq (runner : ScriptRunner) (lines : List StdString) :
    runner.processLines lines =
      (language.run runner (lines.map ScriptParser.parseLine),
        language.output runner (lines.map ScriptParser.parseLine)) := by
  have hfold : ∀ (lines : List StdString) (runner : ScriptRunner) (out : StdString),
      lines.foldl (fun (runner, out) line ↦
          let (runner, text) := processLine runner line
          (runner, out ++ text)) (runner, out) =
        (language.run runner (lines.map ScriptParser.parseLine),
          out ++ language.output runner (lines.map ScriptParser.parseLine)) := by
    intro lines
    induction lines with
    | nil => simp
    | cons line lines ih =>
      intro runner out
      rw [List.foldl_cons, ih, List.append_assoc]
      rfl
  rw [processLines, hfold, List.nil_append]

/-- The runner at the first command of a script. -/
def start (runner : ScriptRunner) (board : Board) : ScriptRunner :=
  { runner with gameEngine := { runner.gameEngine with board := board }.reset }

/-- The commands of a text whose board can be read. -/
def commands (rest : StdString) : List ScriptCommand :=
  (BoardParser.lineReader.items rest).map ScriptParser.parseLine

theorem run_of_ok {runner : ScriptRunner} {input rest : StdString} {board : Board}
    (h : BoardParser.parseFromInput input runner.gameEngine.board = (.ok, board, rest)) :
    runner.run input =
      (language.run (runner.start board) (commands rest),
        language.output (runner.start board) (commands rest)) := by
  rw [run, h]
  exact processLines_eq _ _

/-! ## Printing is an observation -/

/-- Time may be advanced by nothing. -/
def Poised (runner : ScriptRunner) : Prop := runner.gameEngine.Poised

theorem keeps_poised : language.Keeps Poised := by
  intro runner command h
  cases command with
  | click x y =>
    apply handleClick_induction runner.controller runner.gameEngine (P := GameEngine.Poised)
    · exact h
    · exact fun fromPos toPos ↦ GameEngine.Poised.requestMove h fromPos toPos
    · exact fun source destination toPos _ ↦
        GameEngine.Poised.queuePremove h source destination toPos
  | jump x y =>
    rcases handleJump_cases runner.controller runner.gameEngine x y none with heq | heq
    · change GameEngine.Poised (runner.controller.handleJump runner.gameEngine x y none).2
      rw [heq]
      exact h
    · change GameEngine.Poised (runner.controller.handleJump runner.gameEngine x y none).2
      rw [heq]
      exact GameEngine.Poised.requestJump h _
  | wait ms => exact GameEngine.Poised.advanceTime h ms
  | printBoard => exact GameEngine.Poised.advanceTime h 0
  | unknown => exact h

theorem observes_of_not_acts {command : ScriptCommand} (h : acts command = false) :
    language.Observes Poised command := by
  intro runner hpoised
  cases command with
  | click | jump | wait => simp [acts] at h
  | unknown => rfl
  | printBoard =>
    change { runner with gameEngine := runner.gameEngine.advanceTime 0 } = runner
    rw [GameEngine.Poised.advanceTime_zero hpoised]

/-- Only prints write, and they write the board as it is. -/
theorem writes_of_poised {runner : ScriptRunner} (h : runner.Poised) (command : ScriptCommand) :
    language.writes runner command =
      if command = .printBoard then BoardPrinter.print runner.gameEngine.board else [] := by
  cases command with
  | click | jump | wait | unknown => rfl
  | printBoard =>
    change BoardPrinter.print (runner.gameEngine.advanceTime 0).board = _
    rw [GameEngine.Poised.advanceTime_zero h, if_pos rfl]

/-- The pieces of a board that has been read are at rest. -/
theorem nonnegCooldowns_of_decodes {rows : List (List StdString)} {cells : List (List Piece)}
    (h : List.Forall₂ (List.Forall₂ Decodes) rows cells) :
    ∀ row ∈ cells, ∀ piece ∈ row, GameEngine.NonnegCooldowns piece := by
  have hpieces : ∀ {tokens : List StdString} {row : List Piece}, List.Forall₂ Decodes tokens row →
      ∀ piece ∈ row, GameEngine.NonnegCooldowns piece := by
    intro tokens row hrow
    induction hrow with
    | nil => exact List.forall_mem_nil _
    | cons hhead _ ih =>
      refine List.forall_mem_cons.2 ⟨?_, ih⟩
      cases hhead with
      | empty => exact ⟨le_rfl, le_rfl⟩
      | piece _ _ => exact ⟨le_rfl, le_rfl⟩
  induction h with
  | nil => exact List.forall_mem_nil _
  | cons hhead _ ih => exact List.forall_mem_cons.2 ⟨hpieces hhead, ih⟩

theorem poised_start (runner : ScriptRunner) {input rest : StdString} {old board : Board}
    (h : BoardParser.parseFromInput input old = (.ok, board, rest)) :
    (runner.start board).Poised := by
  refine ⟨fun _ hmem ↦ absurd hmem List.not_mem_nil, ?_⟩
  have hjudged := BoardParser.judged_parseFromInput input old
  rw [h] at hjudged
  have hcells := nonnegCooldowns_of_decodes (hjudged.decoded rfl)
  intro pos
  exact Grid.getD_of_forall (p := GameEngine.NonnegCooldowns) board hcells ⟨le_rfl, le_rfl⟩
    pos.row pos.col

/-- What a script writes: the reason why its board cannot be read, or for each print the board that
the clicks, jumps and waits before it lead to. Prints and lines that are no commands have no effect
on what is printed later. -/
theorem output_run (runner : ScriptRunner) (input : StdString) :
    (runner.run input).2 =
      match BoardParser.parseFromInput input runner.gameEngine.board with
      | (.errorUnknownToken, _, _) => ErrorMessages.kUnknownToken
      | (.errorRowWidthMismatch, _, _) => ErrorMessages.kRowWidthMismatch
      | (.ok, board, rest) =>
        ((commands rest).inits.zip (commands rest)).flatMap fun entry ↦
          if entry.2 = .printBoard then
            BoardPrinter.print
              (language.run (runner.start board) (entry.1.filter acts)).gameEngine.board
          else [] := by
  rcases hparse : BoardParser.parseFromInput input runner.gameEngine.board with
    ⟨result, board, rest⟩
  cases result with
  | errorUnknownToken => simp only [run, hparse]
  | errorRowWidthMismatch => simp only [run, hparse]
  | ok =>
    have hpoised := runner.poised_start hparse
    rw [run_of_ok hparse]
    simp only
    rw [language.output_eq_flatMap keeps_poised (fun _ ↦ observes_of_not_acts) hpoised]
    apply List.flatMap_congr
    intro entry _
    exact writes_of_poised (keeps_poised.run hpoised _) entry.2

end ScriptRunner

end Texttests

end KongFuChess
