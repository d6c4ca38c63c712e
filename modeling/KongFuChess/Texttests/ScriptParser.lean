import KongFuChess.Io.BoardParser

/-!
# The commands of a script

A line of a script is read as a word and its arguments, whatever follows them. A number may be
preceded by a sign, and it ends where its digits end, with or without a blank before what follows.
A line that is not a command is a command that does nothing.
-/

namespace KongFuChess

namespace Commands

def kClick : StdString := "click".toList

def kJump : StdString := "jump".toList

def kWait : StdString := "wait".toList

def kPrint : StdString := "print".toList

def kPrintBoard : StdString := "board".toList

end Commands

namespace Texttests

open Io Network.Protocol

inductive ScriptCommand
  | unknown
  | click (x y : ℤ)
  | jump (x y : ℤ)
  | wait (ms : ℤ)
  | printBoard
deriving DecidableEq, Repr

/-- The sign of a number, if there is one: whether it is negative, and what follows. -/
def readSign : StdString → Bool × StdString
  | '-' :: cursor => (true, cursor)
  | '+' :: cursor => (false, cursor)
  | cursor => (false, cursor)

/-- The digits after the sign. A number out of range fails like a text that is no number. -/
def readMagnitude (negative : Bool) (cursor : StdString) : Option (ℤ × StdString) :=
  (readDigits cursor).bind fun magnitude ↦
    let value := if negative then -magnitude else magnitude
    if InIntRange value then some (value, cursor.dropWhile Char.isDigit) else none

/-- `>>` into an `int`. -/
def readInt (text : StdString) : Option (ℤ × StdString) :=
  let (negative, cursor) := readSign (skipWhitespace text)
  readMagnitude negative cursor

def readPair (text : StdString) : Option (ℤ × ℤ) :=
  (readInt text).bind fun (x, text) ↦ (readInt text).map fun (y, _) ↦ (x, y)

namespace ScriptParser

/-- A trimmed line that is not empty. -/
def parseWords (text : StdString) : ScriptCommand :=
  match BoardParser.tokenReader.read text with
  | none => .unknown
  | some (cmd, ss) =>
    if cmd = Commands.kClick then
      match readPair ss with
      | some (x, y) => .click x y
      | none => .unknown
    else if cmd = Commands.kJump then
      match readPair ss with
      | some (x, y) => .jump x y
      | none => .unknown
    else if cmd = Commands.kWait then
      match readInt ss with
      | some (ms, _) => .wait ms
      | none => .unknown
    else if cmd = Commands.kPrint then
      match BoardParser.tokenReader.read ss with
      | some (subcmd, _) => if subcmd = Commands.kPrintBoard then .printBoard else .unknown
      | none => .unknown
    else .unknown

def parseLine (line : StdString) : ScriptCommand :=
  let trimmed := BoardParser.trimLine line
  if trimmed.isEmpty then .unknown else parseWords trimmed

end ScriptParser

/-! ## The grammar of a line -/

def Blank (text : StdString) : Prop := ∀ char ∈ text, isSpace char = true

/-- Nothing follows, or something that the test rejects. -/
def EndsBefore (test : Char → Bool) (rest : StdString) : Prop :=
  ∀ char ∈ rest.head?, test char = false

/-- The number that a sign, if there is one, and digits spell. -/
inductive Numeral : StdString → ℤ → Prop
  | plain {digits : StdString} (hne : digits ≠ []) (h : ∀ char ∈ digits, char.isDigit = true)
      (hrange : InIntRange (Nat.ofDigitChars 10 digits 0)) :
      Numeral digits (Nat.ofDigitChars 10 digits 0)
  | plus {digits : StdString} (hne : digits ≠ []) (h : ∀ char ∈ digits, char.isDigit = true)
      (hrange : InIntRange (Nat.ofDigitChars 10 digits 0)) :
      Numeral ('+' :: digits) (Nat.ofDigitChars 10 digits 0)
  | minus {digits : StdString} (hne : digits ≠ []) (h : ∀ char ∈ digits, char.isDigit = true)
      (hrange : InIntRange (-Nat.ofDigitChars 10 digits 0)) :
      Numeral ('-' :: digits) (-Nat.ofDigitChars 10 digits 0)

/-- Two numbers, each of them after blanks. The second one may follow the first one at once if it
has a sign. -/
inductive Pair : StdString → ℤ → ℤ → Prop
  | mk {gap first gap' second : StdString} {x y : ℤ} (hgap : Blank gap) (hfirst : Numeral first x)
      (hgap' : Blank gap') (hsecond : Numeral second y)
      (hapart : EndsBefore Char.isDigit (gap' ++ second)) :
      Pair (gap ++ (first ++ (gap' ++ second))) x y

/-- What is read of a line, from its first word on. Its arguments begin with a blank. -/
inductive Phrase : StdString → ScriptCommand → Prop
  | click {arguments : StdString} {x y : ℤ} (h : Pair arguments x y)
      (hblank : EndsBefore (!isSpace ·) arguments) :
      Phrase (Commands.kClick ++ arguments) (.click x y)
  | jump {arguments : StdString} {x y : ℤ} (h : Pair arguments x y)
      (hblank : EndsBefore (!isSpace ·) arguments) :
      Phrase (Commands.kJump ++ arguments) (.jump x y)
  | wait {gap numeral : StdString} {ms : ℤ} (hgap : Blank gap) (h : Numeral numeral ms)
      (hblank : EndsBefore (!isSpace ·) (gap ++ numeral)) :
      Phrase (Commands.kWait ++ (gap ++ numeral)) (.wait ms)
  | printBoard {gap : StdString} (hgap : Blank gap) (hne : gap ≠ []) :
      Phrase (Commands.kPrint ++ (gap ++ Commands.kPrintBoard)) .printBoard

/-- What may follow the last item that is read. -/
def Stops : ScriptCommand → StdString → Prop
  | .printBoard => EndsBefore (!isSpace ·)
  | _ => EndsBefore Char.isDigit

/-- The lines that say a command: blanks, what is read, and anything that does not continue it. -/
def Says (line : StdString) (command : ScriptCommand) : Prop :=
  ∃ indent phrase rest, line = indent ++ (phrase ++ rest) ∧ Blank indent ∧ Phrase phrase command ∧
    Stops command rest

/-! ## Numbers -/

theorem Numeral.exists_cons {numeral : StdString} {value : ℤ} (h : Numeral numeral value) :
    ∃ head tail, numeral = head :: tail ∧ isSpace head = false := by
  cases h with
  | plain hne hdigits _ =>
    obtain ⟨head, tail, rfl⟩ := List.exists_cons_of_ne_nil hne
    exact ⟨head, tail, rfl, not_isSpace_of_isDigit (hdigits head (List.mem_cons_self ..))⟩
  | plus _ _ _ => exact ⟨'+', _, rfl, by decide⟩
  | minus _ _ _ => exact ⟨'-', _, rfl, by decide⟩

/-- The last character of a number is a digit. -/
theorem Numeral.exists_concat {numeral : StdString} {value : ℤ} (h : Numeral numeral value) :
    ∃ front last, numeral = front ++ [last] ∧ last.isDigit = true := by
  have hlast : ∀ {digits : StdString}, digits ≠ [] → (∀ char ∈ digits, char.isDigit = true) →
      ∃ front last, digits = front ++ [last] ∧ last.isDigit = true := by
    intro digits hne hdigits
    refine ⟨digits.dropLast, digits.getLast hne, ?_, hdigits _ (List.getLast_mem hne)⟩
    rw [List.dropLast_concat_getLast]
  cases h with
  | plain hne hdigits _ => exact hlast hne hdigits
  | plus hne hdigits _ =>
    obtain ⟨front, last, rfl, hdigit⟩ := hlast hne hdigits
    exact ⟨'+' :: front, last, rfl, hdigit⟩
  | minus hne hdigits _ =>
    obtain ⟨front, last, rfl, hdigit⟩ := hlast hne hdigits
    exact ⟨'-' :: front, last, rfl, hdigit⟩

theorem readDigits_iff {cursor rest : StdString} {magnitude : ℤ} :
    readDigits cursor = some magnitude ∧ cursor.dropWhile Char.isDigit = rest ↔
      ∃ digits, cursor = digits ++ rest ∧ digits ≠ [] ∧ (∀ char ∈ digits, char.isDigit = true) ∧
        EndsBefore Char.isDigit rest ∧ magnitude = Nat.ofDigitChars 10 digits 0 := by
  constructor
  · rintro ⟨hread, hrest⟩
    obtain ⟨hcursor, hdigits, hend⟩ := Reader.span_iff.1 ⟨rfl, hrest⟩
    simp only [readDigits] at hread
    split at hread
    · simp at hread
    · rename_i hne
      exact ⟨_, hcursor, hne, hdigits, hend, (Option.some.inj hread).symm⟩
  · rintro ⟨digits, hcursor, hne, hdigits, hend, rfl⟩
    obtain ⟨htake, hdrop⟩ := Reader.span_iff.2 ⟨hcursor, hdigits, hend⟩
    refine ⟨?_, hdrop⟩
    simp only [readDigits, htake, if_neg hne]

theorem skipWhitespace_append {gap text : StdString} (hgap : Blank gap)
    (htext : EndsBefore isSpace text) : skipWhitespace (gap ++ text) = text :=
  (Reader.span_iff.2 ⟨rfl, hgap, htext⟩).2

/-- The number that digits after a sign spell. -/
def signed (negative : Bool) (digits : StdString) : ℤ :=
  if negative then -Nat.ofDigitChars 10 digits 0 else Nat.ofDigitChars 10 digits 0

theorem readMagnitude_iff {negative : Bool} {cursor rest : StdString} {value : ℤ} :
    readMagnitude negative cursor = some (value, rest) ↔
      ∃ digits, cursor = digits ++ rest ∧ digits ≠ [] ∧ (∀ char ∈ digits, char.isDigit = true) ∧
        EndsBefore Char.isDigit rest ∧ InIntRange value ∧ value = signed negative digits := by
  constructor
  · intro h
    obtain ⟨magnitude, hread, hvalue⟩ := Option.bind_eq_some_iff.1 h
    by_cases hrange : InIntRange (if negative then -magnitude else magnitude)
    · rw [if_pos hrange] at hvalue
      obtain ⟨rfl, hrest⟩ := Prod.mk.inj (Option.some.inj hvalue)
      obtain ⟨digits, hcursor, hne, hall, hend, rfl⟩ := readDigits_iff.1 ⟨hread, hrest⟩
      exact ⟨digits, hcursor, hne, hall, hend, hrange, rfl⟩
    · rw [if_neg hrange] at hvalue
      exact absurd hvalue (Option.some_ne_none _).symm
  · rintro ⟨digits, hcursor, hne, hall, hend, hrange, rfl⟩
    obtain ⟨hread, hrest⟩ := readDigits_iff.2 ⟨digits, hcursor, hne, hall, hend, rfl⟩
    rw [readMagnitude, hread, hrest, Option.bind_some]
    exact if_pos hrange

theorem readSign_cases (cursor : StdString) :
    cursor = '-' :: (readSign cursor).2 ∧ (readSign cursor).1 = true ∨
      cursor = '+' :: (readSign cursor).2 ∧ (readSign cursor).1 = false ∨
        readSign cursor = (false, cursor) := by
  unfold readSign
  split
  · exact .inl ⟨rfl, rfl⟩
  · exact .inr (.inl ⟨rfl, rfl⟩)
  · exact .inr (.inr rfl)

theorem readSign_of_isDigit {head : Char} (h : head.isDigit = true) (tail : StdString) :
    readSign (head :: tail) = (false, head :: tail) := by
  rcases readSign_cases (head :: tail) with ⟨heq, -⟩ | ⟨heq, -⟩ | hsame
  · obtain ⟨rfl, -⟩ := List.cons.inj heq
    exact absurd h (by decide)
  · obtain ⟨rfl, -⟩ := List.cons.inj heq
    exact absurd h (by decide)
  · exact hsame

theorem readSign_iff {cursor rest : StdString} {value : ℤ} :
    readMagnitude (readSign cursor).1 (readSign cursor).2 = some (value, rest) ↔
      ∃ numeral, cursor = numeral ++ rest ∧ Numeral numeral value ∧
        EndsBefore Char.isDigit rest := by
  constructor
  · intro h
    obtain ⟨digits, hcursor, hne, hall, hend, hrange, rfl⟩ := readMagnitude_iff.1 h
    rcases readSign_cases cursor with ⟨hsplit, hsign⟩ | ⟨hsplit, hsign⟩ | hsame
    · rw [hsign] at hrange ⊢
      exact ⟨'-' :: digits, by rw [hsplit, hcursor, List.cons_append], .minus hne hall hrange, hend⟩
    · rw [hsign] at hrange ⊢
      exact ⟨'+' :: digits, by rw [hsplit, hcursor, List.cons_append], .plus hne hall hrange, hend⟩
    · rw [hsame] at hcursor hrange ⊢
      exact ⟨digits, hcursor, .plain hne hall hrange, hend⟩
  · rintro ⟨numeral, rfl, hnumeral, hend⟩
    apply readMagnitude_iff.2
    cases hnumeral with
    | @plain digits hne hall hrange =>
      obtain ⟨head, tail, rfl⟩ := List.exists_cons_of_ne_nil hne
      rw [List.cons_append, readSign_of_isDigit (hall head (List.mem_cons_self ..))]
      exact ⟨head :: tail, rfl, hne, hall, hend, hrange, rfl⟩
    | @plus digits hne hall hrange => exact ⟨digits, rfl, hne, hall, hend, hrange, rfl⟩
    | @minus digits hne hall hrange => exact ⟨digits, rfl, hne, hall, hend, hrange, rfl⟩

/-- A number is read exactly where it stands after blanks, up to the end of its digits. -/
theorem readInt_iff {text rest : StdString} {value : ℤ} :
    readInt text = some (value, rest) ↔
      ∃ gap numeral, text = gap ++ (numeral ++ rest) ∧ Blank gap ∧ Numeral numeral value ∧
        EndsBefore Char.isDigit rest := by
  constructor
  · intro h
    obtain ⟨htext, hgap, -⟩ := Reader.span_iff.1 ⟨(rfl : text.takeWhile isSpace = _), rfl⟩
    obtain ⟨numeral, hsplit, hnumeral, hend⟩ := readSign_iff.1 h
    refine ⟨text.takeWhile isSpace, numeral, ?_, hgap, hnumeral, hend⟩
    rw [← hsplit]
    exact htext
  · rintro ⟨gap, numeral, rfl, hgap, hnumeral, hend⟩
    have hstart : EndsBefore isSpace (numeral ++ rest) := by
      obtain ⟨head, tail, rfl, hhead⟩ := hnumeral.exists_cons
      intro char hmem
      obtain rfl : head = char := by simpa using hmem
      exact hhead
    have hread := readSign_iff.2 ⟨numeral, rfl, hnumeral, hend⟩
    rwa [← skipWhitespace_append hgap hstart] at hread

theorem endsBefore_append {test : Char → Bool} {front : StdString} (hne : front ≠ [])
    (rest : StdString) : EndsBefore test (front ++ rest) ↔ EndsBefore test front := by
  obtain ⟨head, tail, rfl⟩ := List.exists_cons_of_ne_nil hne
  rfl

theorem readPair_iff {text : StdString} {x y : ℤ} :
    readPair text = some (x, y) ↔
      ∃ arguments rest, text = arguments ++ rest ∧ Pair arguments x y ∧
        EndsBefore Char.isDigit rest := by
  have hpair : readPair text = some (x, y) ↔
      ∃ middle, readInt text = some (x, middle) ∧ ∃ rest, readInt middle = some (y, rest) := by
    simp [readPair, Option.bind_eq_some_iff]
  rw [hpair]
  constructor
  · rintro ⟨middle, hx, rest, hy⟩
    obtain ⟨gap, first, rfl, hgap, hfirst, hapart⟩ := readInt_iff.1 hx
    obtain ⟨gap', second, rfl, hgap', hsecond, hend⟩ := readInt_iff.1 hy
    obtain ⟨head, tail, rfl, -⟩ := hsecond.exists_cons
    rw [← List.append_assoc, endsBefore_append (by simp)] at hapart
    exact ⟨_, rest, by simp, .mk hgap hfirst hgap' hsecond hapart, hend⟩
  · rintro ⟨arguments, rest, rfl, ⟨hgap, hfirst, hgap', hsecond, hapart⟩, hend⟩
    obtain ⟨head, tail, rfl, -⟩ := hsecond.exists_cons
    refine ⟨_, readInt_iff.2 ⟨_, _, ?_, hgap, hfirst, ?_⟩, rest,
      readInt_iff.2 ⟨_, _, rfl, hgap', hsecond, hend⟩⟩
    · simp only [List.append_assoc]
    · rwa [← List.append_assoc, endsBefore_append (by simp)]

/-! ## Lines -/

theorem Pair.ne_nil {arguments : StdString} {x y : ℤ} (h : Pair arguments x y) :
    arguments ≠ [] := by
  obtain ⟨-, hfirst, -, -, -⟩ := h
  obtain ⟨head, tail, rfl, -⟩ := hfirst.exists_cons
  simp

/-- A keyword that a blank follows is the first word of a text. -/
theorem read_keyword {keyword : StdString} (hne : keyword ≠ [])
    (hkeyword : ∀ char ∈ keyword, isSpace char = false) {indent : StdString}
    (hindent : Blank indent) {rest : StdString} (hrest : EndsBefore (!isSpace ·) rest) :
    BoardParser.tokenReader.read (indent ++ (keyword ++ rest)) = some (keyword, rest) :=
  Reader.read_words_iff.2 ⟨indent, rfl, hindent, hne, hkeyword, by simpa [EndsBefore] using hrest⟩

namespace ScriptParser

/-- The keywords have no blanks. -/
theorem not_isSpace_keyword :
    ∀ keyword ∈ [Commands.kClick, Commands.kJump, Commands.kWait, Commands.kPrint,
      Commands.kPrintBoard], keyword ≠ [] ∧ ∀ char ∈ keyword, isSpace char = false := by
  have hall : ∀ keyword ∈ [Commands.kClick, Commands.kJump, Commands.kWait, Commands.kPrint,
      Commands.kPrintBoard], keyword ≠ [] ∧ keyword.all (!isSpace ·) = true :=
    List.forall_mem_cons.2 ⟨by decide, by decide⟩
  intro keyword hmem
  obtain ⟨hne, hchars⟩ := hall keyword hmem
  exact ⟨hne, by simpa using hchars⟩

/-- The first word of a text that says a command is its keyword. -/
theorem read_phrase {keyword arguments rest indent : StdString}
    (hmem : keyword ∈ [Commands.kClick, Commands.kJump, Commands.kWait, Commands.kPrint])
    (hindent : Blank indent) (hne : arguments ≠ [])
    (hblank : EndsBefore (!isSpace ·) arguments) :
    BoardParser.tokenReader.read (indent ++ ((keyword ++ arguments) ++ rest)) =
      some (keyword, arguments ++ rest) := by
  obtain ⟨hkeyword, hchars⟩ := not_isSpace_keyword keyword (List.mem_append_left [_] hmem)
  rw [List.append_assoc]
  exact read_keyword hkeyword hchars hindent ((endsBefore_append hne rest).2 hblank)

theorem parseWords_of_says {text : StdString} {command : ScriptCommand} (h : Says text command) :
    parseWords text = command := by
  obtain ⟨indent, phrase, rest, rfl, hindent, hphrase, hstops⟩ := h
  cases hphrase with
  | click hpair hblank =>
    rw [parseWords, read_phrase (by simp) hindent hpair.ne_nil hblank]
    simp only [if_true, readPair_iff.2 ⟨_, rest, rfl, hpair, hstops⟩]
  | jump hpair hblank =>
    rw [parseWords, read_phrase (by simp) hindent hpair.ne_nil hblank]
    simp only [show Commands.kJump ≠ Commands.kClick by decide, if_false, if_true,
      readPair_iff.2 ⟨_, rest, rfl, hpair, hstops⟩]
  | @wait gap numeral ms hgap hnumeral hblank =>
    obtain ⟨head, tail, hcons, -⟩ := hnumeral.exists_cons
    have hread := readInt_iff.2 ⟨gap, numeral, rfl, hgap, hnumeral, hstops⟩
    rw [parseWords, read_phrase (by simp) hindent (by simp [hcons]) hblank]
    simp only [show Commands.kWait ≠ Commands.kClick by decide,
      show Commands.kWait ≠ Commands.kJump by decide, if_false, if_true, List.append_assoc, hread]
  | @printBoard gap hgap hne =>
    obtain ⟨hword, hchars⟩ := not_isSpace_keyword Commands.kPrintBoard (by simp)
    have hblank : EndsBefore (!isSpace ·) (gap ++ Commands.kPrintBoard) := by
      rw [endsBefore_append hne]
      intro char hmem
      simpa using hgap char (List.mem_of_head? hmem)
    have hread := read_keyword hword hchars hgap hstops
    rw [parseWords, read_phrase (by simp) hindent (by simp [hne]) hblank]
    simp only [show Commands.kPrint ≠ Commands.kClick by decide,
      show Commands.kPrint ≠ Commands.kJump by decide,
      show Commands.kPrint ≠ Commands.kWait by decide, if_false, if_true, List.append_assoc, hread]

/-- The line that says a command is made of its first word and what is read after it. -/
theorem says_of_read {text cmd ss arguments rest : StdString} {command : ScriptCommand}
    (hread : BoardParser.tokenReader.read text = some (cmd, ss)) (hss : ss = arguments ++ rest)
    (hne : arguments ≠ [])
    (hphrase : EndsBefore (!isSpace ·) arguments → Phrase (cmd ++ arguments) command)
    (hstops : Stops command rest) : Says text command := by
  obtain ⟨indent, rfl, hindent, -, -, hend⟩ := Reader.read_words_iff.1 hread
  have hblank : EndsBefore (!isSpace ·) ss := by simpa [EndsBefore] using hend
  rw [hss, endsBefore_append hne] at hblank
  exact ⟨indent, cmd ++ arguments, rest, by rw [hss, List.append_assoc], hindent, hphrase hblank,
    hstops⟩

theorem says_parseWords {text : StdString} {command : ScriptCommand} (hne : command ≠ .unknown)
    (h : parseWords text = command) : Says text command := by
  unfold parseWords at h
  split at h
  · exact absurd h.symm hne
  rename_i cmd ss hread
  split_ifs at h with hclick hjump hwait hprint
  · split at h
    · rename_i x y hpair
      obtain ⟨arguments, rest, hss, hpair, hend⟩ := readPair_iff.1 hpair
      subst h
      exact says_of_read hread hss hpair.ne_nil (hclick ▸ .click hpair) hend
    · exact absurd h.symm hne
  · split at h
    · rename_i x y hpair
      obtain ⟨arguments, rest, hss, hpair, hend⟩ := readPair_iff.1 hpair
      subst h
      exact says_of_read hread hss hpair.ne_nil (hjump ▸ .jump hpair) hend
    · exact absurd h.symm hne
  · split at h
    · rename_i ms rest hint
      obtain ⟨gap, numeral, hss, hgap, hnumeral, hend⟩ := readInt_iff.1 hint
      obtain ⟨head, tail, hcons, -⟩ := hnumeral.exists_cons
      subst h
      rw [← List.append_assoc] at hss
      refine says_of_read hread hss (by simp [hcons]) ?_ hend
      rw [hwait]
      exact .wait hgap hnumeral
    · exact absurd h.symm hne
  · split at h
    · rename_i subcmd rest hsub
      split at h
      · rename_i hboard
        obtain ⟨gap, hss, hgap, -, -, hend⟩ := Reader.read_words_iff.1 hsub
        rw [hboard, ← List.append_assoc] at hss
        subst h
        refine says_of_read hread hss (by simp [Commands.kPrintBoard]) ?_
          (by simpa [Stops, EndsBefore] using hend)
        intro hblank
        rw [hprint]
        refine .printBoard hgap ?_
        rintro rfl
        exact absurd (hblank 'b' rfl) (by decide)
      · exact absurd h.symm hne
    · exact absurd h.symm hne
  · exact absurd h.symm hne

theorem says_iff_parseWords {text : StdString} {command : ScriptCommand}
    (hne : command ≠ .unknown) : parseWords text = command ↔ Says text command :=
  ⟨says_parseWords hne, parseWords_of_says⟩

end ScriptParser

/-! ## Trimming -/

theorem isSpace_of_mem_kWhitespace {char : Char} (h : Text.kWhitespace.contains char = true) :
    isSpace char = true := by
  have hall : Text.kWhitespace.all isSpace = true := by decide
  exact List.all_eq_true.1 hall char (by simpa using h)

theorem not_mem_kWhitespace {char : Char} (h : isSpace char = false) :
    ¬ Text.kWhitespace.contains char = true := by
  intro hmem
  rw [isSpace_of_mem_kWhitespace hmem] at h
  exact absurd h (by decide)

/-- The first and the last character of what is read are no blanks. -/
theorem Phrase.ends {phrase : StdString} {command : ScriptCommand} (h : Phrase phrase command) :
    EndsBefore isSpace phrase ∧ ∃ front last, phrase = front ++ [last] ∧ isSpace last = false := by
  have hdigit : ∀ {numeral : StdString} {value : ℤ}, Numeral numeral value →
      ∀ before : StdString, ∃ front last, before ++ numeral = front ++ [last] ∧
        isSpace last = false := by
    intro numeral value hnumeral before
    obtain ⟨front, last, rfl, hlast⟩ := hnumeral.exists_concat
    exact ⟨before ++ front, last, by simp, not_isSpace_of_isDigit hlast⟩
  have hpair : ∀ {arguments : StdString} {x y : ℤ}, Pair arguments x y → ∀ before : StdString,
      ∃ front last, before ++ arguments = front ++ [last] ∧ isSpace last = false := by
    intro arguments x y hpair before
    cases hpair with
    | @mk gap first gap' second _ _ _ _ _ hsecond _ =>
      obtain ⟨front, last, heq, hlast⟩ := hdigit hsecond (before ++ (gap ++ (first ++ gap')))
      exact ⟨front, last, by rw [← heq]; simp only [List.append_assoc], hlast⟩
  cases h with
  | click h _ => exact ⟨fun char hmem ↦ by cases hmem; decide, hpair h _⟩
  | jump h _ => exact ⟨fun char hmem ↦ by cases hmem; decide, hpair h _⟩
  | @wait gap _ _ _ h _ =>
    refine ⟨fun char hmem ↦ by cases hmem; decide, ?_⟩
    rw [← List.append_assoc]
    exact hdigit h _
  | @printBoard gap _ _ =>
    refine ⟨fun char hmem ↦ by cases hmem; decide, Commands.kPrint ++ (gap ++ "boar".toList), 'd',
      ?_, by decide⟩
    simp only [List.append_assoc]
    rfl

theorem dropWhile_append_cons {p : Char → Bool} {head : Char} (h : ¬ p head = true)
    (front tail : StdString) :
    (front ++ head :: tail).dropWhile p = front.dropWhile p ++ head :: tail := by
  rw [List.dropWhile_append]
  split
  · rename_i hempty
    rw [List.isEmpty_iff.1 hempty, List.nil_append, List.dropWhile_cons_of_neg h]
  · rfl

theorem rdropWhile_append_cons {p : Char → Bool} {last : Char} (h : ¬ p last = true)
    (front tail : StdString) :
    (front ++ last :: tail).rdropWhile p = front ++ last :: tail.rdropWhile p := by
  have hreverse : (front ++ last :: tail).reverse = tail.reverse ++ last :: front.reverse := by simp
  rw [List.rdropWhile, hreverse, dropWhile_append_cons h]
  simp [List.rdropWhile]

/-- Trimming takes blanks off both ends, and leaves everything from the first to the last character
that is no blank. -/
theorem trimLine_append {phrase : StdString} (hstart : EndsBefore isSpace phrase)
    (hend : ∃ front last, phrase = front ++ [last] ∧ isSpace last = false)
    (indent rest : StdString) :
    BoardParser.trimLine (indent ++ (phrase ++ rest)) =
      indent.dropWhile Text.kWhitespace.contains ++
        (phrase ++ rest.rdropWhile Text.kWhitespace.contains) := by
  obtain ⟨front, last, rfl, hlast⟩ := hend
  have hright : ∀ before : StdString,
      (before ++ ((front ++ [last]) ++ rest)).rdropWhile Text.kWhitespace.contains =
        before ++ ((front ++ [last]) ++ rest.rdropWhile Text.kWhitespace.contains) := by
    intro before
    have h := rdropWhile_append_cons (not_mem_kWhitespace hlast) (before ++ front) rest
    simpa only [List.append_assoc, List.singleton_append] using h
  have hleft : ∀ tail : StdString,
      (indent ++ ((front ++ [last]) ++ tail)).dropWhile Text.kWhitespace.contains =
        indent.dropWhile Text.kWhitespace.contains ++ ((front ++ [last]) ++ tail) := by
    intro tail
    cases front with
    | nil => exact dropWhile_append_cons (not_mem_kWhitespace hlast) indent tail
    | cons head front =>
      exact dropWhile_append_cons (not_mem_kWhitespace (hstart head rfl)) indent _
  rw [BoardParser.trimLine, hleft, hright]

/-- What trimming takes off is blank. -/
theorem exists_trimLine (line : StdString) :
    ∃ left right, line = left ++ (BoardParser.trimLine line ++ right) ∧ Blank left ∧
      Blank right := by
  refine ⟨line.takeWhile Text.kWhitespace.contains,
    (line.dropWhile Text.kWhitespace.contains).rtakeWhile Text.kWhitespace.contains, ?_, ?_, ?_⟩
  · rw [BoardParser.trimLine, List.rdropWhile_append_rtakeWhile, List.takeWhile_append_dropWhile]
  · exact fun char hmem ↦ isSpace_of_mem_kWhitespace (List.mem_takeWhile_imp hmem)
  · exact fun char hmem ↦ isSpace_of_mem_kWhitespace (List.mem_rtakeWhile_imp hmem)

theorem Stops.append_blank {command : ScriptCommand} {rest right : StdString}
    (h : Stops command rest) (hright : Blank right) : Stops command (rest ++ right) := by
  cases rest with
  | cons head tail => cases command <;> exact h
  | nil =>
    have hspace : ∀ char ∈ right.head?, isSpace char = true :=
      fun char hmem ↦ hright char (List.mem_of_head? hmem)
    cases command with
    | printBoard => exact fun char hmem ↦ by simp [hspace char hmem]
    | unknown | click | jump | wait =>
      intro char hmem
      by_contra hdigit
      have hnone := not_isSpace_of_isDigit (by simpa using hdigit : char.isDigit = true)
      rw [hspace char hmem] at hnone
      exact absurd hnone (by decide)

theorem Stops.of_append {command : ScriptCommand} {rest right : StdString}
    (h : Stops command (rest ++ right)) : Stops command rest := by
  cases rest with
  | cons head tail => cases command <;> exact h
  | nil => cases command <;> exact fun char hmem ↦ absurd hmem (Option.not_mem_none _)

/-- Whether a line says a command does not depend on the blanks at its ends. -/
theorem says_trimLine {line : StdString} {command : ScriptCommand} :
    Says (BoardParser.trimLine line) command ↔ Says line command := by
  constructor
  · rintro ⟨indent, phrase, rest, htrim, hindent, hphrase, hstops⟩
    obtain ⟨left, right, hline, hleft, hright⟩ := exists_trimLine line
    refine ⟨left ++ indent, phrase, rest ++ right, ?_, ?_, hphrase, hstops.append_blank hright⟩
    · rw [htrim] at hline
      rw [hline]
      simp only [List.append_assoc]
    · exact List.forall_mem_append.2 ⟨hleft, hindent⟩
  · rintro ⟨indent, phrase, rest, rfl, hindent, hphrase, hstops⟩
    rw [trimLine_append hphrase.ends.1 hphrase.ends.2]
    refine ⟨_, phrase, _, rfl, ?_, hphrase, ?_⟩
    · exact fun char hmem ↦ hindent char (List.dropWhile_suffix _ |>.subset hmem)
    · have hsplit := List.rdropWhile_append_rtakeWhile (p := Text.kWhitespace.contains) (l := rest)
      rw [← hsplit] at hstops
      exact hstops.of_append

/-- No blank line says a command. -/
theorem not_says_nil (command : ScriptCommand) : ¬ Says [] command := by
  rintro ⟨indent, phrase, rest, heq, -, hphrase, -⟩
  obtain ⟨front, last, rfl, -⟩ := hphrase.ends.2
  simp at heq

theorem not_says_unknown (line : StdString) : ¬ Says line .unknown := by
  rintro ⟨_, _, _, -, -, hphrase, -⟩
  cases hphrase

/-- The reader understands exactly the lines of the grammar. All others do nothing. -/
theorem parseLine_iff (line : StdString) (command : ScriptCommand) :
    ScriptParser.parseLine line = command ↔
      Says line command ∨ command = .unknown ∧ ∀ other, ¬ Says line other := by
  have hwords : ∀ other, other ≠ .unknown →
      (ScriptParser.parseLine line = other ↔ Says line other) := by
    intro other hne
    rw [← says_trimLine, ScriptParser.parseLine]
    split
    · rename_i hempty
      rw [List.isEmpty_iff.1 hempty]
      exact ⟨fun h ↦ absurd h.symm hne, fun h ↦ absurd h (not_says_nil other)⟩
    · exact ScriptParser.says_iff_parseWords hne
  by_cases hne : command = .unknown
  · subst hne
    rw [or_iff_right (not_says_unknown line), and_iff_right rfl]
    constructor
    · intro h other hsays
      have hother : other ≠ .unknown := fun heq ↦ not_says_unknown line (heq ▸ hsays)
      exact hother (((hwords other hother).2 hsays).symm.trans h)
    · intro h
      by_contra hother
      exact h _ ((hwords _ hother).1 rfl)
  · rw [hwords command hne, or_iff_left fun h ↦ hne h.1]

example : ScriptParser.parseLine "  click 61+64 \t".toList = .click 61 64 := by decide

example : ScriptParser.parseLine "wait 2147483648".toList = .unknown := by decide

end Texttests

end KongFuChess
