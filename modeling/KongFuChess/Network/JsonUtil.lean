import KongFuChess.Io.Algebraic
import KongFuChess.Library.Search
import Mathlib.Data.List.DropRight

/-!
# Writing and finding JSON values

Messages are written by concatenation and read by searching for a quoted key. A reader stops at the
end of the text or at a NUL character, whichever comes first, since the program reads through a C
string.
-/

namespace KongFuChess.Network.Protocol

open Search

def escapeJsonString (value : StdString) : StdString :=
  value.flatMap fun ch ↦
    if ch = '\\' then ['\\', '\\'] else if ch = '"' then ['\\', '"'] else [ch]

def quoteJsonString (value : StdString) : StdString := '"' :: (escapeJsonString value ++ ['"'])

/-- The white space of the C locale. -/
def isSpace (ch : Char) : Bool := ch = ' ' || (9 ≤ ch.toNat && ch.toNat ≤ 13)

def skipWhitespace (cursor : StdString) : StdString := cursor.dropWhile isSpace

/-- The characters of a string value up to its closing quotation mark. -/
def readJsonStringLoop : StdString → StdString → Option StdString
  | [], _ => none
  | '\x00' :: _, _ => none
  | '"' :: _, value => some value
  | ['\\'], _ => none
  | '\\' :: '\x00' :: _, _ => none
  | '\\' :: ch :: cursor, value => readJsonStringLoop cursor (value ++ [ch])
  | ch :: cursor, value => readJsonStringLoop cursor (value ++ [ch])

def readJsonStringValue (cursor : StdString) : Option StdString :=
  match skipWhitespace cursor with
  | '"' :: cursor => readJsonStringLoop cursor []
  | _ => none

/-- What follows the colon after the first occurrence of a key. -/
def findJsonKey (json key : StdString) : Option StdString :=
  (afterFirst (quoteJsonString key) json).bind fun cursor ↦
    match skipWhitespace cursor with
    | ':' :: cursor => some cursor
    | _ => none

def extractJsonString (json key : StdString) : Option StdString :=
  (findJsonKey json key).bind readJsonStringValue

/-- The conversion of `long` to `int`. -/
def toInt (value : ℤ) : ℤ := (value + 2 ^ 31) % 2 ^ 32 - 2 ^ 31

/-- The range of `int`. -/
def InIntRange (value : ℤ) : Prop := -2 ^ 31 ≤ value ∧ value < 2 ^ 31

instance (value : ℤ) : Decidable (InIntRange value) := inferInstanceAs (Decidable (_ ∧ _))

/-- The digits at the cursor, as a number; `none` where there is no digit. -/
def readDigits (cursor : StdString) : Option ℤ :=
  let digits := cursor.takeWhile Char.isDigit
  if digits = [] then none else some (Nat.ofDigitChars 10 digits 0)

/-- The number of base 10 at the cursor, limited to the range of a `long` of 64 bits; `none` where
nothing is converted. -/
def strtol (cursor : StdString) : Option ℤ :=
  let value :=
    match skipWhitespace cursor with
    | '-' :: cursor => (readDigits cursor).map (-·)
    | '+' :: cursor => readDigits cursor
    | cursor => readDigits cursor
  value.map fun value ↦ max (-2 ^ 63) (min (2 ^ 63 - 1) value)

def extractJsonInt (json key : StdString) : Option ℤ :=
  (findJsonKey json key).bind fun cursor ↦ (strtol (skipWhitespace cursor)).map toInt

/-! ## Written texts -/

theorem escapeJsonString_cons (ch : Char) (value : StdString) :
    escapeJsonString (ch :: value) =
      (if ch = '\\' then ['\\', '\\'] else if ch = '"' then ['\\', '"'] else [ch]) ++
        escapeJsonString value :=
  List.flatMap_cons

theorem readJsonStringLoop_cons {ch : Char} (hnul : ch ≠ '\x00') (hquote : ch ≠ '"')
    (hbackslash : ch ≠ '\\') (cursor value : StdString) :
    readJsonStringLoop (ch :: cursor) value = readJsonStringLoop cursor (value ++ [ch]) := by
  rw [readJsonStringLoop]
  · exact fun heq ↦ hnul heq
  · exact fun heq ↦ hquote heq
  · exact fun heq _ ↦ hbackslash heq
  · exact fun _ heq _ ↦ hbackslash heq
  · exact fun _ _ heq _ ↦ hbackslash heq

/-- A written text is read back, unless the reader stops at a NUL character in it. -/
theorem readJsonStringLoop_escape (value rest start : StdString) :
    readJsonStringLoop (escapeJsonString value ++ '"' :: rest) start =
      if '\x00' ∈ value then none else some (start ++ value) := by
  induction value generalizing start with
  | nil =>
    rw [if_neg List.not_mem_nil, List.append_nil]
    rfl
  | cons ch value ih =>
    by_cases hnul : ch = '\x00'
    · rw [hnul, if_pos (List.mem_cons_self ..)]
      rfl
    · have hstep : readJsonStringLoop (escapeJsonString (ch :: value) ++ '"' :: rest) start =
          readJsonStringLoop (escapeJsonString value ++ '"' :: rest) (start ++ [ch]) := by
        rw [escapeJsonString_cons]
        split
        · rename_i heq
          rw [heq]
          rfl
        · rename_i hbackslash
          split
          · rename_i heq
            rw [heq]
            rfl
          · rename_i hquote
            exact readJsonStringLoop_cons hnul hquote hbackslash _ _
      have hmem : '\x00' ∈ ch :: value ↔ '\x00' ∈ value := by
        rw [List.mem_cons]
        exact or_iff_right fun heq ↦ hnul heq.symm
      simp only [hstep, ih, hmem, List.append_assoc, List.singleton_append]

theorem readJsonStringValue_quote (value rest : StdString) :
    readJsonStringValue (quoteJsonString value ++ rest) =
      if '\x00' ∈ value then none else some value := by
  have hread : readJsonStringValue (quoteJsonString value ++ rest) =
      readJsonStringLoop (escapeJsonString value ++ '"' :: rest) [] := by
    rw [quoteJsonString, List.cons_append, List.append_assoc, List.singleton_append,
      readJsonStringValue, skipWhitespace, List.dropWhile_cons_of_neg (by decide)]
    rfl
  rw [hread, readJsonStringLoop_escape, List.nil_append]

/-! ## Plain values -/

/-- A text that needs no escapes. -/
def Plain (value : StdString) : Prop := '"' ∉ value ∧ '\\' ∉ value ∧ '\x00' ∉ value

instance (value : StdString) : Decidable (Plain value) := inferInstanceAs (Decidable (_ ∧ _ ∧ _))

theorem escapeJsonString_of_plain {value : StdString} (h : Plain value) :
    escapeJsonString value = value := by
  obtain ⟨hquote, hbackslash, -⟩ := h
  induction value with
  | nil => rfl
  | cons ch rest ih =>
    rw [List.mem_cons, not_or] at hquote hbackslash
    rw [escapeJsonString_cons, if_neg (Ne.symm hbackslash.1), if_neg (Ne.symm hquote.1),
      ih hquote.2 hbackslash.2, List.singleton_append]

theorem quoteJsonString_of_plain {value : StdString} (h : Plain value) :
    quoteJsonString value = quoted '"' value := by
  rw [quoteJsonString, escapeJsonString_of_plain h, quoted]

theorem readJsonStringValue_of_plain {text : StdString} (h : Plain text) (rest : StdString) :
    readJsonStringValue ('"' :: (text ++ '"' :: rest)) = some text := by
  have hquote : '"' :: (text ++ '"' :: rest) = quoteJsonString text ++ rest := by
    rw [quoteJsonString_of_plain h, quoted, List.cons_append, List.append_assoc,
      List.singleton_append]
  rw [hquote, readJsonStringValue_quote, if_neg h.2.2]

/-! ## Numbers -/

theorem not_isSpace_of_isDigit {ch : Char} (h : ch.isDigit = true) : isSpace ch = false := by
  simp only [Char.isDigit, Bool.and_eq_true, decide_eq_true_eq] at h
  have hlow : 48 ≤ ch.toNat := h.1
  have hne : ch ≠ ' ' := by
    rintro rfl
    exact absurd hlow (by decide)
  simp only [isSpace, Bool.or_eq_false_iff, decide_eq_false_iff_not, Bool.and_eq_false_iff]
  exact ⟨hne, .inr (by omega)⟩

theorem readDigits_toDigits (number : ℕ) {next : Char} (hnext : next.isDigit = false)
    (rest : StdString) :
    readDigits (Nat.toDigits 10 number ++ next :: rest) = some (number : ℤ) := by
  have htake : (Nat.toDigits 10 number ++ next :: rest).takeWhile Char.isDigit =
      Nat.toDigits 10 number := by
    rw [List.takeWhile_append_of_pos fun ch hch ↦
        Nat.isDigit_of_mem_toDigits (by decide) (by decide) hch,
      List.takeWhile_cons_of_neg (by simp [hnext]), List.append_nil]
  simp only [readDigits, htake, Nat.toDigits_ne_nil, if_false, Nat.ofDigitChars_ten_toDigits]

/-- A written number that something else than a digit follows is read back. -/
theorem strtol_decimal (value : ℤ) {next : Char} (hnext : next.isDigit = false)
    (rest : StdString) :
    strtol (Io.decimal value ++ next :: rest) = some (max (-2 ^ 63) (min (2 ^ 63 - 1) value)) := by
  by_cases hneg : value < 0
  · have hvalue : -(value.natAbs : ℤ) = value := by omega
    rw [strtol, Io.decimal, if_pos hneg, List.cons_append, skipWhitespace,
      List.dropWhile_cons_of_neg (by decide)]
    simp only [readDigits_toDigits _ hnext, Option.map_some, hvalue]
  · have hvalue : (value.natAbs : ℤ) = value := by omega
    have hread := readDigits_toDigits value.natAbs hnext rest
    obtain ⟨ch, digits, hcons⟩ := List.exists_cons_of_ne_nil
      (Nat.toDigits_ne_nil (n := value.natAbs) (b := 10))
    have hdigit : ch.isDigit = true := Nat.isDigit_of_mem_toDigits (by decide) (by decide)
      (hcons ▸ List.mem_cons_self ..)
    rw [strtol, Io.decimal, if_neg hneg, hcons, List.cons_append, skipWhitespace,
      List.dropWhile_cons_of_neg (by simp [not_isSpace_of_isDigit hdigit])]
    rw [hcons, List.cons_append, hvalue] at hread
    split
    · exact absurd hdigit (by simp_all)
    · exact absurd hdigit (by simp_all)
    · rw [hread, Option.map_some]

theorem strtol_skipWhitespace (cursor : StdString) :
    strtol (skipWhitespace cursor) = strtol cursor := by
  simp only [strtol, skipWhitespace, List.dropWhile_idempotent]

/-- The conversions of a reader leave an `int` as it is. -/
theorem toInt_of_inIntRange {value : ℤ} (h : InIntRange value) :
    toInt (max (-2 ^ 63) (min (2 ^ 63 - 1) value)) = value := by
  obtain ⟨hlow, hhigh⟩ := h
  have hlong : max (-2 ^ 63) (min (2 ^ 63 - 1) value) = value := by omega
  have hmod : (value + 2 ^ 31) % 2 ^ 32 = value + 2 ^ 31 :=
    Int.emod_eq_of_lt (by omega) (by omega)
  rw [hlong, toInt, hmod, add_sub_cancel_right]

/-! ## Values in a message -/

section Message

variable {key : StdString} {first : StdString} {segments : List StdString}

/-- Keys are found among the segments of a message. -/
theorem findJsonKey_message (hkey : Plain key) (hfirst : '"' ∉ first)
    (hsegments : ∀ segment ∈ segments, '"' ∉ segment) :
    findJsonKey (joined '"' (first :: segments)) key =
      (afterSegment key segments).bind fun rest ↦
        match skipWhitespace (joined '"' rest) with
        | ':' :: cursor => some cursor
        | _ => none := by
  rw [findJsonKey, quoteJsonString_of_plain hkey, afterFirst_joined hkey.1 hfirst hsegments,
    Option.bind_map]
  rfl

/-- The text after a key and a colon, up to the next quotation mark. -/
theorem extractJsonString_message (hkey : Plain key) (hfirst : '"' ∉ first)
    (hsegments : ∀ segment ∈ segments, '"' ∉ segment) {value next : StdString}
    {rest : List StdString} (hvalue : Plain value)
    (hfound : afterSegment key segments = some ([':'] :: value :: next :: rest)) :
    extractJsonString (joined '"' (first :: segments)) key = some value := by
  have hcolon : skipWhitespace (joined '"' ([':'] :: value :: next :: rest)) =
      ':' :: '"' :: (value ++ '"' :: joined '"' (next :: rest)) := by
    rw [joined_cons_cons, joined_cons_cons, List.singleton_append, skipWhitespace,
      List.dropWhile_cons_of_neg (by decide)]
  rw [extractJsonString, findJsonKey_message hkey hfirst hsegments, hfound, Option.bind_some,
    hcolon]
  exact readJsonStringValue_of_plain hvalue _

/-- The number after a key and a colon. -/
theorem extractJsonInt_message (hkey : Plain key) (hfirst : '"' ∉ first)
    (hsegments : ∀ segment ∈ segments, '"' ∉ segment) {value : ℤ} {stop : Char}
    {rest : List StdString} (hstop : stop.isDigit = false)
    (hfound : afterSegment key segments = some ((':' :: (Io.decimal value ++ [stop])) :: rest)) :
    extractJsonInt (joined '"' (first :: segments)) key =
      some (toInt (max (-2 ^ 63) (min (2 ^ 63 - 1) value))) := by
  obtain ⟨text, htext⟩ := exists_joined '"' (':' :: (Io.decimal value ++ [stop])) rest
  have hcolon : skipWhitespace (joined '"' ((':' :: (Io.decimal value ++ [stop])) :: rest)) =
      ':' :: (Io.decimal value ++ stop :: text) := by
    rw [htext, List.cons_append, List.append_assoc, List.singleton_append, skipWhitespace,
      List.dropWhile_cons_of_neg (by decide)]
  rw [extractJsonInt, findJsonKey_message hkey hfirst hsegments, hfound, Option.bind_some, hcolon]
  simp only [Option.bind_some, strtol_skipWhitespace, strtol_decimal value hstop, Option.map_some]

/-- A key that is no segment of the message is not found. -/
theorem extractJsonString_of_not_found (hkey : Plain key) (hfirst : '"' ∉ first)
    (hsegments : ∀ segment ∈ segments, '"' ∉ segment)
    (hfound : afterSegment key segments = none) :
    extractJsonString (joined '"' (first :: segments)) key = none := by
  rw [extractJsonString, findJsonKey_message hkey hfirst hsegments, hfound]
  rfl

end Message

end KongFuChess.Network.Protocol
