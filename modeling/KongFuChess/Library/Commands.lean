import KongFuChess.Library.Transition
import Mathlib.Data.List.Infix

/-!
# Languages of commands

A program is a list of commands, each of which changes a state and writes some output. The module
has the rules of pre- and postconditions for such programs, with the output as a part of what is
specified, and the rules for commands that only observe: they may be inserted into a program or left
out of it, and what the others write stays the same.
-/

namespace KongFuChess

/-- What the commands of a language do. -/
structure Language (State Cmd Out : Type*) where
  perform : State → Cmd → State × List Out

namespace Language

variable {State Cmd Out : Type*} (language : Language State Cmd Out)

def effect (state : State) (command : Cmd) : State := (language.perform state command).1

def writes (state : State) (command : Cmd) : List Out := (language.perform state command).2

def run (state : State) (program : List Cmd) : State :=
  Transition.run language.effect state program

def output (state : State) (program : List Cmd) : List Out :=
  Transition.emissions language.effect language.writes state program

@[simp]
theorem run_nil (state : State) : language.run state [] = state := rfl

@[simp]
theorem run_cons (state : State) (command : Cmd) (program : List Cmd) :
    language.run state (command :: program) =
      language.run (language.effect state command) program := rfl

theorem run_append (state : State) (first second : List Cmd) :
    language.run state (first ++ second) = language.run (language.run state first) second :=
  Transition.run_append _ state first second

@[simp]
theorem output_nil (state : State) : language.output state [] = [] := rfl

@[simp]
theorem output_cons (state : State) (command : Cmd) (program : List Cmd) :
    language.output state (command :: program) =
      language.writes state command ++
        language.output (language.effect state command) program := rfl

theorem output_append (state : State) (first second : List Cmd) :
    language.output state (first ++ second) =
      language.output state first ++ language.output (language.run state first) second := by
  induction first generalizing state with
  | nil => rfl
  | cons command first ih =>
    rw [List.cons_append, output_cons, output_cons, run_cons, ih, List.append_assoc]

/-! ## Pre- and postconditions -/

section Triples

/-- From every state with the precondition the program writes the text and ends in a state with the
postcondition. -/
def Triple (before : State → Prop) (program : List Cmd) (text : List Out) (after : State → Prop) :
    Prop :=
  ∀ state, before state →
    after (language.run state program) ∧ language.output state program = text

namespace Triple

variable {language} {P Q R : State → Prop} {first second : List Cmd}
  {text text' : List Out}

theorem skip (P : State → Prop) : language.Triple P [] [] P := fun _ h ↦ ⟨h, rfl⟩

/-- The rule for a single command. -/
theorem single {command : Cmd}
    (h : ∀ state, P state →
      Q (language.effect state command) ∧ language.writes state command = text) :
    language.Triple P [command] text Q := by
  intro state hstate
  obtain ⟨hafter, htext⟩ := h state hstate
  refine ⟨hafter, ?_⟩
  rw [output_cons, output_nil, htext, List.append_nil]

/-- The rule of composition. -/
theorem append (hfirst : language.Triple P first text Q)
    (hsecond : language.Triple Q second text' R) :
    language.Triple P (first ++ second) (text ++ text') R := by
  intro state hstate
  obtain ⟨hmiddle, htext⟩ := hfirst state hstate
  obtain ⟨hafter, htext'⟩ := hsecond _ hmiddle
  rw [run_append, output_append, htext, htext']
  exact ⟨hafter, rfl⟩

end Triple

end Triples

/-! ## Observations -/

section Observations

/-- Every command keeps the invariant. -/
def Keeps (I : State → Prop) : Prop := ∀ state command, I state → I (language.effect state command)

/-- Where the invariant holds, the command leaves the state as it is. -/
def Observes (I : State → Prop) (command : Cmd) : Prop :=
  ∀ state, I state → language.effect state command = state

variable {language} {I : State → Prop}

theorem Keeps.run (hkeeps : language.Keeps I) {state : State} (h : I state) (program : List Cmd) :
    I (language.run state program) :=
  Transition.run_invariant _ hkeeps h program

/-- Commands that observe can be left out. -/
theorem run_filter (hkeeps : language.Keeps I) {acts : Cmd → Bool}
    (hobserves : ∀ command, acts command = false → language.Observes I command) {state : State}
    (h : I state) (program : List Cmd) :
    language.run state (program.filter acts) = language.run state program := by
  induction program generalizing state with
  | nil => rfl
  | cons command program ih =>
    cases hacts : acts command with
    | true =>
      rw [List.filter_cons_of_pos hacts]
      exact ih (hkeeps state command h)
    | false =>
      rw [List.filter_cons_of_neg (by simp [hacts]), run_cons, hobserves command hacts state h]
      exact ih h

/-- What a command writes depends on the commands before it that act, and on no others. -/
theorem output_eq_flatMap (hkeeps : language.Keeps I) {acts : Cmd → Bool}
    (hobserves : ∀ command, acts command = false → language.Observes I command) {state : State}
    (h : I state) (program : List Cmd) :
    language.output state program =
      (program.inits.zip program).flatMap fun entry ↦
        language.writes (language.run state (entry.1.filter acts)) entry.2 := by
  induction program generalizing state with
  | nil => rfl
  | cons command program ih =>
    have hhead : ∀ past : List Cmd, language.run state ((command :: past).filter acts) =
        language.run (language.effect state command) (past.filter acts) := by
      intro past
      rw [run_filter hkeeps hobserves h, run_cons,
        run_filter hkeeps hobserves (hkeeps state command h)]
    rw [output_cons, ih (hkeeps state command h), List.inits_cons, List.zip_cons_cons,
      List.flatMap_cons, List.zip_map_left, List.flatMap_map]
    simp only [List.filter_nil, run_nil, hhead, Prod.map_fst, Prod.map_snd, id_eq]

end Observations

end Language

end KongFuChess
