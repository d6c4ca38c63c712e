import KongFuChess.Network.LobbyMessages

/-!
# Texts that need escapes

A username can be any text. Where it stands in front of a key it can make the reader lose the key,
and a NUL character makes it lose the value, but a value that is read is always the value that was
written.
-/

namespace KongFuChess.Network.Protocol

open Search

/-- A value that ends like this in quotation marks hides the key from the reader. -/
def Hides (value key : StdString) : Prop := '"' :: key <:+ '"' :: value

instance (value key : StdString) : Decidable (Hides value key) :=
  inferInstanceAs (Decidable (_ <:+ _))

section Search

variable {key : StdString} (hkey : Plain key)
include hkey

/-- A key that begins a written value, up to a quotation mark, is the whole value. -/
theorem start_escape {value rest : StdString} :
    key ++ ['"'] <+: escapeJsonString value ++ '"' :: rest ↔ key = value := by
  constructor
  · obtain ⟨hquote, hbackslash, -⟩ := hkey
    intro h
    induction value generalizing key with
    | nil =>
      cases key with
      | nil => rfl
      | cons first key =>
        have hfirst := (List.cons_prefix_cons.1 h).1
        exact absurd (hfirst ▸ List.mem_cons_self ..) hquote
    | cons ch value ih =>
      rw [escapeJsonString_cons] at h
      have hescaped : ∀ {text : StdString}, ¬ key ++ ['"'] <+: '\\' :: text := by
        intro text hprefix
        cases key with
        | nil => exact absurd (List.cons_prefix_cons.1 hprefix).1 (by decide)
        | cons first key =>
          have hfirst := (List.cons_prefix_cons.1 hprefix).1
          exact absurd (hfirst ▸ List.mem_cons_self ..) hbackslash
      split at h
      · exact absurd h hescaped
      · split at h
        · exact absurd h hescaped
        · rename_i hmark
          cases key with
          | nil => exact absurd (List.cons_prefix_cons.1 h).1.symm hmark
          | cons first key =>
            rw [List.mem_cons, not_or] at hquote hbackslash
            obtain ⟨hfirst, hrest⟩ := List.cons_prefix_cons.1 h
            rw [hfirst, ih hquote.2 hbackslash.2 hrest]
  · rintro rfl
    rw [escapeJsonString_of_plain hkey]
    exact ⟨rest, by simp⟩

variable (hcomma : key.head? ≠ some ',')
include hcomma

/-- The search for a key passes over a written value, or stops right behind it. -/
theorem afterFirst_escape (value rest : StdString) :
    afterFirst (quoted '"' key) (escapeJsonString value ++ '"' :: ',' :: rest) =
      if '"' :: key <:+ value then some (',' :: rest)
      else afterFirst (quoted '"' key) rest := by
  have hskip : ∀ {ch : Char} (text : StdString), ch ≠ '"' →
      afterFirst (quoted '"' key) (ch :: text) = afterFirst (quoted '"' key) text := by
    intro ch text hne
    have hmark : '"' ∉ [ch] := by simpa using hne.symm
    exact afterFirst_append hmark text
  have hinside : ∀ {ch : Char} (text : StdString), ch ≠ '"' →
      ('"' :: key <:+ ch :: text ↔ '"' :: key <:+ text) := by
    intro ch text hne
    rw [List.suffix_cons_iff]
    exact or_iff_right fun heq ↦ hne (List.cons.inj heq).1.symm
  induction value with
  | nil =>
    have hclosing : ¬ key ++ ['"'] <+: ',' :: rest := by
      intro hprefix
      cases key with
      | nil => exact absurd (List.cons_prefix_cons.1 hprefix).1 (by decide)
      | cons first key => exact hcomma (congrArg some (List.cons_prefix_cons.1 hprefix).1)
    have hnil : ¬ '"' :: key <:+ [] := fun h ↦ List.cons_ne_nil _ _ (List.suffix_nil.1 h)
    rw [if_neg hnil]
    exact (afterFirst_mark_of_not_start hclosing).trans (hskip rest (by decide))
  | cons ch value ih =>
    rw [escapeJsonString_cons]
    split
    · -- An escaped backslash.
      rename_i heq
      rw [List.append_assoc, List.cons_append, List.singleton_append, hskip _ (by decide),
        hskip _ (by decide), ih]
      simp only [hinside value (show ch ≠ '"' by rw [heq]; decide)]
    · split
      · -- An escaped quotation mark, where the key can begin.
        rename_i heq
        rw [List.append_assoc, List.cons_append, List.singleton_append, hskip _ (by decide), heq]
        by_cases hvalue : key = value
        · rw [if_pos (hvalue ▸ List.suffix_refl _),
            afterFirst_mark_of_start ((start_escape hkey).2 hvalue), ← hvalue,
            escapeJsonString_of_plain hkey]
          simp
        · have hends : '"' :: key <:+ '"' :: value ↔ '"' :: key <:+ value := by
            rw [List.suffix_cons_iff]
            exact or_iff_right fun heq ↦ hvalue (List.cons.inj heq).2
          rw [afterFirst_mark_of_not_start (mt (start_escape hkey).1 hvalue), ih]
          simp only [hends]
      · rename_i hmark
        rw [List.singleton_append, List.cons_append, hskip _ hmark, ih]
        simp only [hinside value hmark]

/-- A key is found behind a written value in front of it, unless the value hides it. -/
theorem findJsonKey_quote (value rest : StdString) :
    findJsonKey (quoteJsonString value ++ ',' :: rest) key =
      if Hides value key then none else findJsonKey rest key := by
  have hquote := afterFirst_escape hkey hcomma ('"' :: value) rest
  have hstart : escapeJsonString ('"' :: value) = '\\' :: '"' :: escapeJsonString value := rfl
  have hmark : '"' ∉ ['\\'] := by decide
  have htext : '\\' :: '"' :: (escapeJsonString value ++ '"' :: ',' :: rest) =
      ['\\'] ++ (quoteJsonString value ++ ',' :: rest) := by
    simp [quoteJsonString]
  -- The opening quotation mark is searched like an escaped one.
  have hafter : afterFirst (quoted '"' key) (quoteJsonString value ++ ',' :: rest) =
      if Hides value key then some (',' :: rest) else afterFirst (quoted '"' key) rest := by
    rw [hstart, List.cons_append, List.cons_append, htext, afterFirst_append hmark] at hquote
    exact hquote
  rw [findJsonKey, quoteJsonString_of_plain hkey, hafter, findJsonKey,
    quoteJsonString_of_plain hkey]
  split
  · rfl
  · rfl

end Search

namespace JsonFields

variable {key : StdString}

/-- The punctuation in front of a field is no part of a quoted key. -/
theorem findJsonKey_cons (hkey : Plain key) {ch : Char} (hch : ch ≠ '"') (text : StdString) :
    findJsonKey (ch :: text) key = findJsonKey text key := by
  have hmark : '"' ∉ [ch] := by simpa using hch.symm
  have hskip : afterFirst (quoted '"' key) (ch :: text) = afterFirst (quoted '"' key) text :=
    afterFirst_append hmark text
  rw [findJsonKey, quoteJsonString_of_plain hkey, hskip, findJsonKey,
    quoteJsonString_of_plain hkey]

theorem findJsonKey_self (hkey : Plain key) (text : StdString) :
    findJsonKey (quoteJsonString key ++ ':' :: text) key = some text := by
  have hstart : key ++ ['"'] <+: key ++ '"' :: ':' :: text := ⟨':' :: text, by simp⟩
  have hafter : afterFirst (quoted '"' key) ('"' :: (key ++ '"' :: ':' :: text)) =
      some (':' :: text) := by
    rw [afterFirst_mark_of_start hstart]
    simp
  have htext : quoted '"' key ++ ':' :: text = '"' :: (key ++ '"' :: ':' :: text) := by
    simp [quoted]
  rw [findJsonKey, quoteJsonString_of_plain hkey, htext, hafter]
  rfl

theorem findJsonKey_other (hkey : IsKey key) {other : StdString} (hother : Plain other)
    (hne : other ≠ key) (text : StdString) :
    findJsonKey (quoteJsonString other ++ ':' :: text) key = findJsonKey text key := by
  have htext : quoted '"' other ++ ':' :: text = '"' :: (other ++ '"' :: ':' :: text) := by
    simp [quoted]
  have hclosing : ¬ key ++ ['"'] <+: ':' :: text := by
    intro hprefix
    cases key with
    | nil => exact absurd (List.cons_prefix_cons.1 hprefix).1 (by decide)
    | cons first key => exact hkey.2.2.2.2 (congrArg some (List.cons_prefix_cons.1 hprefix).1)
  have hafter : afterFirst (quoted '"' key) ('"' :: (other ++ '"' :: ':' :: text)) =
      afterFirst (quoted '"' key) (':' :: text) := by
    rw [afterFirst_mark_of_not_start (mt (prefix_append_mark hkey.1.1 hother.1 _).1 hne),
      afterFirst_append hother.1, afterFirst_mark_of_not_start hclosing]
  rw [← findJsonKey_cons hkey.1 (show ':' ≠ '"' by decide) text, findJsonKey,
    quoteJsonString_of_plain hkey.1, quoteJsonString_of_plain hother, htext, hafter, findJsonKey,
    quoteJsonString_of_plain hkey.1]

section Write

variable {opening : Char} (hopening : opening ≠ '"') (rest : JsonFields)
include hopening

/-- The search stops at the field with the key. -/
theorem findJsonKey_write_text (hkey : Plain key) (value : StdString) :
    findJsonKey (write opening ((key, .text value) :: rest)) key =
      some (quoteJsonString value ++ write ',' rest) := by
  rw [write, findJsonKey_cons hkey hopening, findJsonKey_self hkey]

theorem findJsonKey_write_number (hkey : Plain key) (value : ℤ) :
    findJsonKey (write opening ((key, .number value) :: rest)) key =
      some (Io.decimal value ++ write ',' rest) := by
  rw [write, findJsonKey_cons hkey hopening, findJsonKey_self hkey]

/-- The search passes over a text under another key, unless the text hides the key. -/
theorem findJsonKey_write_of_ne (hkey : IsKey key) (hcomma : key.head? ≠ some ',')
    {other : StdString} (hother : Plain other) (hne : other ≠ key) (value : StdString)
    {field : StdString × JsonValue} :
    findJsonKey (write opening ((other, .text value) :: field :: rest)) key =
      if Hides value key then none else findJsonKey (write ',' (field :: rest)) key := by
  obtain ⟨text, htext⟩ : ∃ text, write ',' (field :: rest) = ',' :: text := by
    match field with
    | (name, .text value) => exact ⟨_, rfl⟩
    | (name, .number value) => exact ⟨_, rfl⟩
  rw [write, findJsonKey_cons hkey.1 hopening, findJsonKey_other hkey hother hne, htext,
    findJsonKey_quote hkey.1 hcomma, findJsonKey_cons hkey.1 (by decide)]

theorem extractJsonString_write_text (hkey : Plain key) (value : StdString) :
    extractJsonString (write opening ((key, .text value) :: rest)) key =
      if '\x00' ∈ value then none else some value := by
  rw [extractJsonString, findJsonKey_write_text hopening rest hkey, Option.bind_some,
    readJsonStringValue_quote]

theorem extractJsonInt_write_number (hkey : Plain key) (value : ℤ) :
    extractJsonInt (write opening ((key, .number value) :: rest)) key =
      some (toInt (max (-2 ^ 63) (min (2 ^ 63 - 1) value))) := by
  obtain ⟨next, text, htext, hnext⟩ :
      ∃ next text, write ',' rest = next :: text ∧ next.isDigit = false := by
    match rest with
    | [] => exact ⟨_, _, rfl, by decide⟩
    | (name, .text value) :: rest => exact ⟨_, _, rfl, by decide⟩
    | (name, .number value) :: rest => exact ⟨_, _, rfl, by decide⟩
  rw [extractJsonInt, findJsonKey_write_number hopening rest hkey, Option.bind_some,
    strtol_skipWhitespace, htext, strtol_decimal value hnext, Option.map_some]

end Write

/-- A text in the only field behind the type. -/
theorem extractJsonString_oneText {typeName key : StdString} (hkey : IsKey key)
    (hcomma : key.head? ≠ some ',') (htype : "type".toList ≠ key) (hname : ¬ Hides typeName key)
    {value : StdString} (hnul : '\x00' ∉ value) :
    extractJsonString
      (write '{' [("type".toList, .text typeName), (key, .text value)]) key = some value := by
  rw [extractJsonString, findJsonKey_write_of_ne (by decide) _ hkey hcomma (by decide) htype,
    if_neg hname]
  have hopening : ',' ≠ '"' := by decide
  have hvalue := extractJsonString_write_text hopening [] hkey.1 value
  rwa [if_neg hnul] at hvalue

end JsonFields

/-- The names in a message with two texts in front of a number. No name can be mistaken for what
stands in front of it. -/
structure TwoTexts where
  typeName : StdString
  firstKey : StdString
  secondKey : StdString
  numberKey : StdString
  isKey : ∀ key ∈ [firstKey, secondKey, numberKey], JsonFields.IsKey key ∧ key.head? ≠ some ','
  apart : ∀ key ∈ [firstKey, secondKey, numberKey], "type".toList ≠ key ∧ ¬ Hides typeName key
  first_ne : ∀ key ∈ [secondKey, numberKey], firstKey ≠ key
  second_ne : secondKey ≠ numberKey
  type_noNul : '\x00' ∉ typeName

namespace TwoTexts

open JsonFields

variable (message : TwoTexts) (first second : StdString) (number : ℤ)

def fields : JsonFields :=
  [("type".toList, .text message.typeName), (message.firstKey, .text first),
    (message.secondKey, .text second), (message.numberKey, .number number)]

theorem parseType :
    parseServerMessageType (write '{' (message.fields first second number)) =
      (serverMessageTypes.lookup message.typeName).getD .unknown := by
  rw [parseServerMessageType, fields, extractJsonString_write_text (by decide) _ (by decide),
    if_neg message.type_noNul]

theorem findJsonKey_fields {key : StdString}
    (hkey : key ∈ [message.firstKey, message.secondKey, message.numberKey]) :
    findJsonKey (write '{' (message.fields first second number)) key =
      findJsonKey (write ',' (message.fields first second number).tail) key := by
  obtain ⟨hisKey, hcomma⟩ := message.isKey key hkey
  obtain ⟨hne, hhides⟩ := message.apart key hkey
  rw [fields, findJsonKey_write_of_ne (by decide) _ hisKey hcomma (by decide) hne, if_neg hhides]
  rfl

theorem extractFirst :
    extractJsonString (write '{' (message.fields first second number)) message.firstKey =
      if '\x00' ∈ first then none else some first := by
  have hmem : message.firstKey ∈ [message.firstKey, message.secondKey, message.numberKey] := by
    simp
  rw [extractJsonString, message.findJsonKey_fields first second number hmem]
  exact extractJsonString_write_text (by decide) _ (message.isKey _ hmem).1.1 first

theorem extractSecond :
    extractJsonString (write '{' (message.fields first second number)) message.secondKey =
      if Hides first message.secondKey ∨ '\x00' ∈ second then none else some second := by
  have hmem : message.secondKey ∈ [message.firstKey, message.secondKey, message.numberKey] := by
    simp
  have hfirst := (message.isKey message.firstKey (by simp)).1.1
  obtain ⟨hisKey, hcomma⟩ := message.isKey _ hmem
  rw [extractJsonString, message.findJsonKey_fields first second number hmem, fields,
    List.tail_cons, findJsonKey_write_of_ne (by decide) _ hisKey hcomma hfirst
      (message.first_ne _ (by simp))]
  by_cases hhides : Hides first message.secondKey
  · rw [if_pos hhides, if_pos (.inl hhides)]
    rfl
  · simp only [hhides, if_false, false_or]
    exact extractJsonString_write_text (by decide) _ hisKey.1 second

theorem extractNumber :
    extractJsonInt (write '{' (message.fields first second number)) message.numberKey =
      if Hides first message.numberKey ∨ Hides second message.numberKey then none
      else some (toInt (max (-2 ^ 63) (min (2 ^ 63 - 1) number))) := by
  have hmem : message.numberKey ∈ [message.firstKey, message.secondKey, message.numberKey] := by
    simp
  have hfirst := (message.isKey message.firstKey (by simp)).1.1
  have hsecond := (message.isKey message.secondKey (by simp)).1.1
  obtain ⟨hisKey, hcomma⟩ := message.isKey _ hmem
  rw [extractJsonInt, message.findJsonKey_fields first second number hmem, fields,
    List.tail_cons, findJsonKey_write_of_ne (by decide) _ hisKey hcomma hfirst
      (message.first_ne _ (by simp)),
    findJsonKey_write_of_ne (by decide) _ hisKey hcomma hsecond message.second_ne]
  by_cases hhides : Hides first message.numberKey
  · rw [if_pos hhides, if_pos (.inl hhides)]
    rfl
  · by_cases hhides' : Hides second message.numberKey
    · rw [if_neg hhides, if_pos hhides', if_pos (.inr hhides')]
      rfl
    · simp only [hhides, hhides', if_false, false_or]
      exact extractJsonInt_write_number (by decide) _ hisKey.1 number

/-- Some value of the message cannot be read. -/
def Lost : Prop :=
  '\x00' ∈ first ∨ '\x00' ∈ second ∨ Hides first message.secondKey ∨
    Hides first message.numberKey ∨ Hides second message.numberKey

instance : Decidable (message.Lost first second) :=
  inferInstanceAs (Decidable (_ ∨ _ ∨ _ ∨ _ ∨ _))

/-- The three values are read as they were written, unless one of them is lost. -/
theorem parse {β : Type} {text : StdString} (f : StdString → StdString → ℤ → β)
    (htext : text = write '{' (message.fields first second number)) :
    ((extractJsonString text message.firstKey).bind fun first' ↦
      (extractJsonString text message.secondKey).bind fun second' ↦
        (extractJsonInt text message.numberKey).bind fun number' ↦
          some (f first' second' number')) =
      if message.Lost first second then none
      else some (f first second (toInt (max (-2 ^ 63) (min (2 ^ 63 - 1) number)))) := by
  subst htext
  rw [message.extractFirst, message.extractSecond, message.extractNumber]
  by_cases hfirst : '\x00' ∈ first
  · simp [Lost, hfirst]
  · by_cases hsecond : Hides first message.secondKey ∨ '\x00' ∈ second
    · rcases hsecond with hhides | hnul
      · simp [Lost, hfirst, hhides]
      · simp [Lost, hfirst, hnul]
    · by_cases hnumber : Hides first message.numberKey ∨ Hides second message.numberKey
      · rcases hnumber with hhides | hhides
        · simp [Lost, hfirst, hhides]
        · simp [Lost, hfirst, hhides]
      · rw [not_or] at hsecond hnumber
        simp [Lost, hfirst, hsecond, hnumber]

end TwoTexts

def matchFoundKeys : TwoTexts where
  typeName := "match_found".toList
  firstKey := "color".toList
  secondKey := "opponent".toList
  numberKey := "port".toList
  isKey := by decide
  apart := by decide
  first_ne := by decide
  second_ne := by decide
  type_noNul := by decide

def gameStartedKeys : TwoTexts where
  typeName := "game_started".toList
  firstKey := "white".toList
  secondKey := "black".toList
  numberKey := "port".toList
  isKey := by decide
  apart := by decide
  first_ne := by decide
  second_ne := by decide
  type_noNul := by decide

def playerDisconnectedKeys : TwoTexts where
  typeName := "player_disconnected".toList
  firstKey := "username".toList
  secondKey := "color".toList
  numberKey := "grace_seconds".toList
  isKey := by decide
  apart := by decide
  first_ne := by decide
  second_ne := by decide
  type_noNul := by decide

end KongFuChess.Network.Protocol

namespace KongFuChess.Network

open Model Events Protocol

/-- The type under which a message is read. -/
def ServerMessage.messageType : ServerMessage → ServerMessageType
  | .error _ => .error
  | .loginOk _ => .loginOk
  | .queueJoined => .queueJoined
  | .queueLeft => .queueLeft
  | .queueTimeout _ => .queueTimeout
  | .matchFound .. => .matchFound
  | .playerDisconnected .. => .playerDisconnected
  | .playerReconnected _ => .playerReconnected
  | .gameEvent (.gameStarted _) => .gameStarted
  | .gameEvent (.moveStarted _) => .moveStarted
  | .gameEvent (.completedMove _) => .moveCompleted
  | .gameEvent (.jumpStarted _) => .jumpStarted
  | .gameEvent (.jumpCapture _) => .jumpCapture
  | .gameEvent (.gameEnded _) => .gameEnded

/-- The type is the first field of every message, so it is read whatever the message says. -/
theorem parseServerMessageType_text (message : ServerMessage) :
    parseServerMessageType message.text = message.messageType := by
  cases message with
  | gameEvent event => cases event <;> rfl
  | error | loginOk | queueJoined | queueLeft | queueTimeout | matchFound | playerDisconnected
  | playerReconnected => rfl

theorem parseMatchFoundMessage_of_type {message : ServerMessage}
    (h : message.messageType ≠ .matchFound) : parseMatchFoundMessage message.text = none := by
  rw [parseMatchFoundMessage, parseServerMessageType_text, if_pos h]

theorem parseGameStartedMessage_of_type {message : ServerMessage}
    (h : message.messageType ≠ .gameStarted) : parseGameStartedMessage message.text = none := by
  rw [parseGameStartedMessage, parseServerMessageType_text, if_pos h]

theorem serializeMatchFound_eq (label opponent : StdString) (port : ℤ) :
    serializeMatchFound label opponent port =
      (matchFoundKeys.fields label opponent port).write '{' := by
  unfold serializeMatchFound
  simp only [List.append_assoc]
  rfl

theorem serializeGameStarted_eq (event : GameStarted) :
    serializeGameStarted event =
      (gameStartedKeys.fields event.whiteUser event.blackUser event.port).write '{' := by
  unfold serializeGameStarted
  simp only [List.append_assoc]
  rfl

theorem serializePlayerDisconnected_eq (username label : StdString) (graceSeconds : ℤ) :
    serializePlayerDisconnected username label graceSeconds =
      (playerDisconnectedKeys.fields username label graceSeconds).write '{' := by
  unfold serializePlayerDisconnected
  simp only [List.append_assoc]
  rfl

theorem parseMatchFoundMessage_eq (label opponent : StdString) (port : ℤ) :
    parseMatchFoundMessage (serializeMatchFound label opponent port) =
      if matchFoundKeys.Lost label opponent then none
      else some
        { color := colorFromLabel label
          opponent := opponent
          port := toInt (max (-2 ^ 63) (min (2 ^ 63 - 1) port)) } := by
  have htext := serializeMatchFound_eq label opponent port
  rw [parseMatchFoundMessage, if_neg]
  · exact matchFoundKeys.parse label opponent port _ htext
  · rw [htext, matchFoundKeys.parseType]
    exact fun h ↦ h rfl

theorem parseGameStartedMessage_eq (event : GameStarted) :
    parseGameStartedMessage (serializeGameStarted event) =
      if gameStartedKeys.Lost event.whiteUser event.blackUser then none
      else some { event with port := toInt (max (-2 ^ 63) (min (2 ^ 63 - 1) event.port)) } := by
  have htext := serializeGameStarted_eq event
  rw [parseGameStartedMessage, if_neg]
  · exact gameStartedKeys.parse event.whiteUser event.blackUser event.port _ htext
  · rw [htext, gameStartedKeys.parseType]
    exact fun h ↦ h rfl

/-- A match that a client reads of is the match that was found. -/
theorem parseMatchFoundMessage_serialize (label opponent : StdString) (port : ℤ) :
    ∀ found ∈ parseMatchFoundMessage (serializeMatchFound label opponent port),
      found.color = colorFromLabel label ∧ found.opponent = opponent := by
  intro found hfound
  rw [parseMatchFoundMessage_eq] at hfound
  split at hfound
  · exact absurd hfound (Option.not_mem_none _)
  · cases hfound
    exact ⟨rfl, rfl⟩

/-- The players that a client reads of are the players of the match that was started. -/
theorem parseGameStartedMessage_serialize (event : GameStarted) :
    ∀ started ∈ parseGameStartedMessage (serializeGameStarted event),
      started.whiteUser = event.whiteUser ∧ started.blackUser = event.blackUser := by
  intro started hstarted
  rw [parseGameStartedMessage_eq] at hstarted
  split at hstarted
  · exact absurd hstarted (Option.not_mem_none _)
  · cases hstarted
    exact ⟨rfl, rfl⟩

end KongFuChess.Network
