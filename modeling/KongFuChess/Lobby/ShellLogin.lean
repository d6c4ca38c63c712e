import KongFuChess.Io.BoardParser

/-!
# Logging in on the console

A prompt is repeated until a line with something else than white space is typed, or until the input
ends. So the answers are the lines that are not blank, without the space around them, however many
blank lines stand between them, and a second player is asked again for as long as the name is that
of the first.
-/

namespace KongFuChess.Session

/-- What is still to be read from the console, and what has been written to it. -/
structure Console where
  input : StdString
  output : StdString := []
deriving DecidableEq, Repr

def Console.write (console : Console) (text : StdString) : Console :=
  { console with output := console.output ++ text }

structure PlayerCredentials where
  username : StdString := []
  password : StdString := []
deriving DecidableEq, Repr

structure TwoPlayerNames where
  whiteUser : StdString := []
  whitePassword : StdString := []
  blackUser : StdString := []
  blackPassword : StdString := []
deriving DecidableEq, Repr

namespace ShellLogin

/-- The board parser trims its lines in the same way. -/
def trimCopy (value : StdString) : StdString := Io.BoardParser.trimLine value

/-- The loop of `readNonEmptyLine`, which a line that is not blank leaves. -/
def takeLine (prompt emptyMessage : StdString) (output line : StdString) :
    Except (StdString × StdString) StdString :=
  let value := trimCopy line
  if value = [] then .ok (output ++ emptyMessage ++ ['\n'] ++ prompt) else .error (value, output)

/-- The answer, which is empty if the input has ended, and the console afterwards. -/
def readNonEmptyLine (console : Console) (prompt emptyMessage : StdString) :
    StdString × Console :=
  match Io.BoardParser.lineReader.loop (takeLine prompt emptyMessage) (console.output ++ prompt)
    console.input with
  | (.error (value, output), rest) => (value, ⟨rest, output⟩)
  | (.ok output, rest) => ([], ⟨rest, output⟩)

def readNonEmptyUsername (console : Console) (prompt : StdString) : StdString × Console :=
  readNonEmptyLine console prompt "Username cannot be empty.".toList

def readPassword (console : Console) (prompt : StdString) : StdString × Console :=
  readNonEmptyLine console prompt "Password cannot be empty.".toList

def readPlayerCredentials (console : Console) : PlayerCredentials × Console :=
  let (username, console) := readNonEmptyUsername console "Username: ".toList
  if username = [] then ({ username := username }, console)
  else
    let (password, console) := readPassword console "Password: ".toList
    let username := if password = [] then [] else username
    ({ username := username, password := password }, console)

/-! ## Answers -/

/-- The lines that are not blank, without the space around them. -/
def spoken (lines : List StdString) : List StdString :=
  (lines.map trimCopy).filter fun value ↦ value ≠ []

/-- What is answered to all questions together. -/
def answers (input : StdString) : List StdString := spoken (Io.BoardParser.lineReader.items input)

/-- A question takes the first answer, and none if there is none left. -/
def Takes (before : List StdString) (value : StdString) (after : List StdString) : Prop :=
  (before = [] ∧ value = [] ∧ after = []) ∨ (before = value :: after ∧ value ≠ [])

theorem spoken_append {blank : List StdString} (h : ∀ line ∈ blank, trimCopy line = [])
    (lines : List StdString) : spoken (blank ++ lines) = spoken lines := by
  have hnone : spoken blank = [] := by
    rw [spoken, List.filter_eq_nil_iff]
    intro value hmem
    obtain ⟨line, hline, rfl⟩ := List.mem_map.1 hmem
    simp [h line hline]
  rw [spoken, List.map_append, List.filter_append]
  exact congrArg (· ++ spoken lines) hnone

theorem spoken_cons {line : StdString} (h : trimCopy line ≠ []) (lines : List StdString) :
    spoken (line :: lines) = trimCopy line :: spoken lines := by
  rw [spoken, List.map_cons, List.filter_cons_of_pos (by simpa using h)]
  rfl

/-- The loop goes on over blank lines only. -/
theorem blank_of_foldlM {prompt emptyMessage output reached : StdString} {lines : List StdString}
    (h : lines.foldlM (takeLine prompt emptyMessage) output = .ok reached) :
    ∀ line ∈ lines, trimCopy line = [] := by
  induction lines generalizing output with
  | nil => exact fun _ hmem ↦ absurd hmem List.not_mem_nil
  | cons first lines ih =>
    rw [List.foldlM_cons] at h
    by_cases hblank : trimCopy first = []
    · simp only [takeLine, if_pos hblank] at h
      intro line hmem
      rcases List.mem_cons.1 hmem with rfl | htail
      · exact hblank
      · exact ih h line htail
    · simp only [takeLine, if_neg hblank] at h
      exact absurd h (by simp [bind, Except.bind])

/-- Over blank lines the question is repeated until it is answered or the input ends. -/
theorem readNonEmptyLine_spec (console : Console) (prompt emptyMessage : StdString) :
    Takes (answers console.input) (readNonEmptyLine console prompt emptyMessage).1
        (answers (readNonEmptyLine console prompt emptyMessage).2.input) ∧
      ((readNonEmptyLine console prompt emptyMessage).1 ≠ [] →
        (readNonEmptyLine console prompt emptyMessage).2.input.length < console.input.length) := by
  rw [readNonEmptyLine]
  rcases Reader.loop_cases (takeLine prompt emptyMessage) (console.output ++ prompt)
    console.input with ⟨final, rest, hloop, hrest, hfold⟩ |
      ⟨skipped, line, result, rest, hloop, hshorter, hitems, reached, hfold, hexit⟩
  · have hnone := spoken_append (blank_of_foldlM hfold) []
    rw [List.append_nil] at hnone
    rw [hloop]
    refine ⟨.inl ⟨hnone, rfl, ?_⟩, fun h ↦ absurd rfl h⟩
    rw [answers, hrest]
    rfl
  · rw [hloop]
    by_cases hline : trimCopy line = []
    · simp [takeLine, hline] at hexit
    · simp only [takeLine, if_neg hline, Except.error.injEq] at hexit
      subst hexit
      refine ⟨.inr ⟨?_, hline⟩, fun _ ↦ hshorter⟩
      rw [answers, hitems, spoken_append (blank_of_foldlM hfold), spoken_cons hline]
      rfl

/-! ## Two players -/

/-- The loop of `readTwoPlayerNames` that asks for a name other than that of the first player. -/
def readBlackUser (whiteUser : StdString) (console : Console) : StdString × Console :=
  let asked := readNonEmptyUsername console "Player 2 (Black) username: ".toList
  if _ : asked.1 = [] then asked
  else if asked.1 = whiteUser then
    readBlackUser whiteUser
      (asked.2.write ("Username must differ from Player 1.".toList ++ ['\n']))
  else asked
termination_by console.input.length
decreasing_by exact (readNonEmptyLine_spec console _ _).2 ‹_›

def readTwoPlayerNames (console : Console) : TwoPlayerNames × Console :=
  let (whiteUser, console) := readNonEmptyUsername console "Player 1 (White) username: ".toList
  if whiteUser = [] then ({ whiteUser := whiteUser }, console)
  else
    let (whitePassword, console) := readPassword console "Password: ".toList
    if whitePassword = [] then ({ whiteUser := [], whitePassword := whitePassword }, console)
    else
      let names : TwoPlayerNames := { whiteUser := whiteUser, whitePassword := whitePassword }
      let (blackUser, console) := readBlackUser whiteUser console
      if blackUser = [] then ({ names with blackUser := blackUser }, console)
      else
        let (blackPassword, console) := readPassword console "Password: ".toList
        let blackUser := if blackPassword = [] then [] else blackUser
        ({ names with blackUser := blackUser, blackPassword := blackPassword }, console)

theorem readBlackUser_spec (whiteUser : StdString) (console : Console) :
    Takes ((answers console.input).dropWhile fun value ↦ value = whiteUser)
      (readBlackUser whiteUser console).1
      (answers (readBlackUser whiteUser console).2.input) := by
  induction hlength : console.input.length using Nat.strong_induction_on generalizing console with
  | _ length ih =>
    rw [readBlackUser]
    have hspec := readNonEmptyLine_spec console "Player 2 (Black) username: ".toList
      "Username cannot be empty.".toList
    rw [← readNonEmptyUsername] at hspec
    generalize readNonEmptyUsername console "Player 2 (Black) username: ".toList = asked at hspec ⊢
    obtain ⟨⟨hbefore, hvalue, hafter⟩ | ⟨hbefore, hvalue⟩, hshorter⟩ := hspec
    · rw [dif_pos hvalue, hbefore]
      exact .inl ⟨rfl, hvalue, hafter⟩
    · rw [dif_neg hvalue, hbefore]
      by_cases hsame : asked.1 = whiteUser
      · rw [if_pos hsame, List.dropWhile_cons_of_pos (by simpa using hsame)]
        exact ih _ (hlength ▸ hshorter hvalue) (asked.2.write _) rfl
      · rw [if_neg hsame, List.dropWhile_cons_of_neg (by simpa using hsame)]
        exact .inr ⟨rfl, hvalue⟩

/-! ## What is read -/

def credentialsOf : List StdString → PlayerCredentials
  | username :: password :: _ => { username := username, password := password }
  | _ => {}

def namesOf : List StdString → TwoPlayerNames
  | whiteUser :: whitePassword :: later =>
    match later.dropWhile fun value ↦ value = whiteUser with
    | blackUser :: blackPassword :: _ =>
      { whiteUser := whiteUser
        whitePassword := whitePassword
        blackUser := blackUser
        blackPassword := blackPassword }
    | _ => { whiteUser := whiteUser, whitePassword := whitePassword }
  | _ => {}

theorem readPlayerCredentials_eq (console : Console) :
    (readPlayerCredentials console).1 = credentialsOf (answers console.input) := by
  rw [readPlayerCredentials]
  have hname := (readNonEmptyLine_spec console "Username: ".toList
    "Username cannot be empty.".toList).1
  rw [← readNonEmptyUsername] at hname
  generalize readNonEmptyUsername console "Username: ".toList = name at hname ⊢
  obtain ⟨username, later⟩ := name
  rcases hname with ⟨hbefore, rfl, -⟩ | ⟨hbefore, hvalue⟩
  · rw [hbefore]
    rfl
  · have hpassword := (readNonEmptyLine_spec later "Password: ".toList
      "Password cannot be empty.".toList).1
    rw [← readPassword] at hpassword
    simp only [if_neg hvalue]
    generalize readPassword later "Password: ".toList = typed at hpassword ⊢
    obtain ⟨password, last⟩ := typed
    dsimp only at hbefore hpassword ⊢
    rcases hpassword with ⟨hnone, rfl, -⟩ | ⟨hsome, hvalue'⟩
    · rw [hbefore, hnone]
      rfl
    · rw [hbefore, hsome, if_neg hvalue']
      rfl

theorem readTwoPlayerNames_eq (console : Console) :
    (readTwoPlayerNames console).1 = namesOf (answers console.input) := by
  rw [readTwoPlayerNames]
  have hwhite := (readNonEmptyLine_spec console "Player 1 (White) username: ".toList
    "Username cannot be empty.".toList).1
  rw [← readNonEmptyUsername] at hwhite
  generalize readNonEmptyUsername console "Player 1 (White) username: ".toList = white at hwhite ⊢
  obtain ⟨whiteUser, later⟩ := white
  rcases hwhite with ⟨hbefore, rfl, -⟩ | ⟨hbefore, hvalue⟩
  · rw [hbefore]
    rfl
  have hpassword := (readNonEmptyLine_spec later "Password: ".toList
    "Password cannot be empty.".toList).1
  rw [← readPassword] at hpassword
  simp only [if_neg hvalue]
  generalize readPassword later "Password: ".toList = typed at hpassword ⊢
  obtain ⟨whitePassword, last⟩ := typed
  dsimp only at hbefore hpassword ⊢
  rcases hpassword with ⟨hnone, rfl, -⟩ | ⟨hsome, hvalue'⟩
  · rw [hbefore, hnone]
    rfl
  have hblack := readBlackUser_spec whiteUser last
  rw [hbefore, hsome, if_neg hvalue', namesOf]
  generalize readBlackUser whiteUser last = black at hblack ⊢
  obtain ⟨blackUser, left⟩ := black
  dsimp only at hblack ⊢
  rcases hblack with ⟨hnone, rfl, -⟩ | ⟨hfound, hblackUser⟩
  · rw [hnone]
    rfl
  have hpassword' := (readNonEmptyLine_spec left "Password: ".toList
    "Password cannot be empty.".toList).1
  rw [← readPassword] at hpassword'
  rw [hfound, if_neg hblackUser]
  generalize readPassword left "Password: ".toList = typed' at hpassword' ⊢
  obtain ⟨blackPassword, end'⟩ := typed'
  dsimp only at hpassword' ⊢
  rcases hpassword' with ⟨hnone, rfl, -⟩ | ⟨hlast, hvalue''⟩
  · rw [hnone]
    rfl
  · rw [hlast, if_neg hvalue'']

theorem ne_nil_of_mem_answers {input value : StdString} (h : value ∈ answers input) :
    value ≠ [] := by
  simpa using (List.mem_filter.1 h).2

/-- A second player has another name than the first one, and everything that was asked for. -/
theorem namesOf_complete {values : List StdString} (hvalues : ∀ value ∈ values, value ≠ [])
    (h : (namesOf values).blackUser ≠ []) :
    (namesOf values).blackUser ≠ (namesOf values).whiteUser ∧ (namesOf values).whiteUser ≠ [] ∧
      (namesOf values).whitePassword ≠ [] ∧ (namesOf values).blackPassword ≠ [] := by
  match values with
  | [] | [_] => exact absurd rfl h
  | whiteUser :: whitePassword :: later =>
    rw [namesOf] at h ⊢
    cases hlater : later.dropWhile fun value ↦ value = whiteUser with
    | nil =>
      rw [hlater] at h
      exact absurd rfl h
    | cons blackUser left =>
      cases left with
      | nil =>
        rw [hlater] at h
        exact absurd rfl h
      | cons blackPassword left =>
        have hmem : ∀ value ∈ blackUser :: blackPassword :: left, value ∈ later :=
          fun value hvalue ↦ (List.dropWhile_suffix _).subset (hlater ▸ hvalue)
        have hother := List.head?_dropWhile_not (fun value ↦ decide (value = whiteUser)) later
        rw [hlater] at hother
        exact ⟨by simpa using hother, hvalues whiteUser (by simp), hvalues whitePassword (by simp),
          hvalues blackPassword (by simp [hmem blackPassword (by simp)])⟩

/-- What is typed on the console, with any space around it and any blank lines in between, is read
answer by answer. Where the input ends too early there is no name without its password, and two
players never have one name. -/
theorem reads_answers (console : Console) :
    let names := (readTwoPlayerNames console).1
    (readPlayerCredentials console).1 = credentialsOf (answers console.input) ∧
    names = namesOf (answers console.input) ∧
    (names.blackUser ≠ [] → names.blackUser ≠ names.whiteUser ∧ names.whiteUser ≠ [] ∧
      names.whitePassword ≠ [] ∧ names.blackPassword ≠ []) := by
  intro names
  have hnames : names = namesOf (answers console.input) := readTwoPlayerNames_eq console
  refine ⟨readPlayerCredentials_eq console, hnames, fun h ↦ ?_⟩
  rw [hnames] at h ⊢
  exact namesOf_complete (fun _ hmem ↦ ne_nil_of_mem_answers hmem) h

end ShellLogin

end KongFuChess.Session
