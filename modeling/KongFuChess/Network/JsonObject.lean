import KongFuChess.Network.JsonUtil

/-!
# Messages as lists of fields

Every message is an object with text and number fields. Looking up a key in its text finds the
value of the first field with this key, provided that the texts need no escapes and that no text in
front of the field is equal to the key.
-/

namespace KongFuChess.Network.Protocol

open Search

inductive JsonValue
  | text (value : StdString)
  | number (value : ℤ)
deriving DecidableEq, Repr

abbrev JsonFields := List (StdString × JsonValue)

namespace JsonFields

/-- The text of the fields after an opening brace or a comma. -/
def write (opening : Char) : JsonFields → StdString
  | [] => ['}']
  | (key, .text value) :: rest =>
    opening :: (quoteJsonString key ++ ':' :: (quoteJsonString value ++ write ',' rest))
  | (key, .number value) :: rest =>
    opening :: (quoteJsonString key ++ ':' :: (Io.decimal value ++ write ',' rest))

/-- Put a text in front of the first segment. -/
def attach (start : StdString) : List StdString → List StdString
  | [] => [start]
  | segment :: rest => (start ++ segment) :: rest

/-- The same text, cut at the quotation marks. -/
def segments (opening : Char) : JsonFields → List StdString
  | [] => [['}']]
  | (key, .text value) :: rest => [opening] :: key :: [':'] :: value :: segments ',' rest
  | (key, .number value) :: rest =>
    [opening] :: key :: attach (':' :: Io.decimal value) (segments ',' rest)

/-- No key and no text needs an escape. -/
def AllPlain (fields : JsonFields) : Prop :=
  ∀ field ∈ fields, Plain field.1 ∧ match field.2 with
    | .text value => Plain value
    | .number _ => True

/-- No text is equal to the key. -/
def Avoids (fields : JsonFields) (key : StdString) : Prop :=
  ∀ field ∈ fields, field.2 ≠ .text key

/-- A key that cannot be mistaken for the text between two quotation marks. -/
def IsKey (key : StdString) : Prop :=
  Plain key ∧ key ≠ ['{'] ∧ key ≠ [','] ∧ key ≠ ['}'] ∧ key.head? ≠ some ':'

instance (key : StdString) : Decidable (IsKey key) := inferInstanceAs (Decidable (_ ∧ _))

theorem AllPlain.tail {field : StdString × JsonValue} {rest : JsonFields}
    (h : AllPlain (field :: rest)) : AllPlain rest :=
  fun other hother ↦ h other (List.mem_cons_of_mem _ hother)

theorem Avoids.tail {field : StdString × JsonValue} {rest : JsonFields} {key : StdString}
    (h : Avoids (field :: rest) key) : Avoids rest key :=
  fun other hother ↦ h other (List.mem_cons_of_mem _ hother)

/-- The first segment is the punctuation in front of the first field. -/
theorem exists_segments (opening : Char) (fields : JsonFields) :
    ∃ ch rest, segments opening fields = [ch] :: rest ∧ (ch = opening ∨ ch = '}') := by
  match fields with
  | [] => exact ⟨'}', [], rfl, .inr rfl⟩
  | (key, .text value) :: rest => exact ⟨opening, _, rfl, .inl rfl⟩
  | (key, .number value) :: rest => exact ⟨opening, _, rfl, .inl rfl⟩

theorem write_eq_joined {fields : JsonFields} (h : AllPlain fields) (opening : Char) :
    write opening fields = joined '"' (segments opening fields) := by
  match fields with
  | [] => rfl
  | (key, .text value) :: rest =>
    obtain ⟨hkey, hvalue⟩ := h _ (List.mem_cons_self ..)
    obtain ⟨ch, others, hrest, -⟩ := exists_segments ',' rest
    rw [write, segments, write_eq_joined h.tail, hrest, quoteJsonString_of_plain hkey,
      quoteJsonString_of_plain hvalue]
    simp [quoted]
  | (key, .number value) :: rest =>
    obtain ⟨hkey, -⟩ := h _ (List.mem_cons_self ..)
    obtain ⟨ch, others, hrest, -⟩ := exists_segments ',' rest
    rw [write, segments, write_eq_joined h.tail, hrest, quoteJsonString_of_plain hkey]
    cases others <;> simp [quoted, attach]

theorem mark_notMem_decimal (value : ℤ) : '"' ∉ Io.decimal value :=
  Io.notMem_decimal (by decide) (by decide) value

theorem mark_notMem_segments {fields : JsonFields} (h : AllPlain fields) {opening : Char}
    (hopening : opening ≠ '"') : ∀ segment ∈ segments opening fields, '"' ∉ segment := by
  match fields with
  | [] => simp [segments]
  | (key, .text value) :: rest =>
    obtain ⟨hkey, hvalue⟩ := h _ (List.mem_cons_self ..)
    have hrest := mark_notMem_segments h.tail (show ',' ≠ '"' by decide)
    simpa [segments, hkey.1, hvalue.1, hopening.symm] using hrest
  | (key, .number value) :: rest =>
    obtain ⟨hkey, -⟩ := h _ (List.mem_cons_self ..)
    have hrest := mark_notMem_segments h.tail (show ',' ≠ '"' by decide)
    obtain ⟨ch, others, hsegments, -⟩ := exists_segments ',' rest
    rw [hsegments] at hrest
    simpa [segments, hsegments, attach, hkey.1, hopening.symm, mark_notMem_decimal] using hrest

/-- What the search for a key leaves of the segments: the value and the punctuation after it. -/
def AtValue (value : JsonValue) (found : List StdString) : Prop :=
  ∃ ch rest, (ch = ',' ∨ ch = '}') ∧
    found = match value with
      | .text value => [':'] :: value :: [ch] :: rest
      | .number value => (':' :: (Io.decimal value ++ [ch])) :: rest

/-- A key is none of the segments between the keys and the texts. -/
theorem IsKey.ne {key : StdString} (h : IsKey key) {ch : Char}
    (hch : ch = '{' ∨ ch = ',' ∨ ch = '}') : [ch] ≠ key := by
  obtain ⟨-, hbrace, hcomma, hclose, -⟩ := h
  rcases hch with rfl | rfl | rfl
  · exact hbrace.symm
  · exact hcomma.symm
  · exact hclose.symm

theorem IsKey.ne_colon {key : StdString} (h : IsKey key) (text : StdString) :
    ':' :: text ≠ key := by
  rintro rfl
  exact h.2.2.2.2 rfl

section Lookup

variable {key : StdString} (hkey : IsKey key)
include hkey

/-- The search passes over a field with another key. -/
theorem afterSegment_tail_of_ne {opening : Char} {field : StdString × JsonValue}
    {rest : JsonFields} (hne : field.1 ≠ key) (hvalue : field.2 ≠ .text key) :
    afterSegment key (segments opening (field :: rest)).tail =
      afterSegment key (segments ',' rest).tail := by
  obtain ⟨ch, others, hrest, hch⟩ := exists_segments ',' rest
  have hpunctuation : [ch] ≠ key := hkey.ne (by tauto)
  match field with
  | (other, .text value) =>
    have hvalue' : value ≠ key := fun heq ↦ hvalue (congrArg JsonValue.text heq)
    simp only [segments, hrest, List.tail_cons]
    rw [afterSegment_of_ne hne, afterSegment_of_ne (hkey.ne_colon []), afterSegment_of_ne hvalue',
      afterSegment_of_ne hpunctuation]
  | (other, .number value) =>
    simp only [segments, hrest, List.tail_cons, attach]
    rw [afterSegment_of_ne hne, List.cons_append, afterSegment_of_ne (hkey.ne_colon _)]

/-- The search stops at the value of the first field with the key. -/
theorem afterSegment_tail (opening : Char) {fields : JsonFields} (havoids : Avoids fields key)
    {value : JsonValue} (hlookup : fields.lookup key = some value) :
    ∃ found, afterSegment key (segments opening fields).tail = some found ∧
      AtValue value found := by
  match fields with
  | [] => simp at hlookup
  | (other, fieldValue) :: rest =>
    by_cases heq : other = key
    · obtain ⟨ch, others, hrest, hch⟩ := exists_segments ',' rest
      subst heq
      rw [List.lookup_cons_self, Option.some.injEq] at hlookup
      subst hlookup
      cases fieldValue with
      | text text =>
        refine ⟨_, by simp [segments, hrest, afterSegment], ch, others, hch, rfl⟩
      | number number =>
        refine ⟨_, by simp [segments, hrest, attach, afterSegment], ch, others, hch, rfl⟩
    · rw [afterSegment_tail_of_ne hkey heq (havoids _ (List.mem_cons_self ..))]
      have hbeq : (key == other) = false := beq_eq_false_iff_ne.2 (Ne.symm heq)
      simp only [List.lookup_cons, hbeq] at hlookup
      exact afterSegment_tail ',' havoids.tail hlookup

theorem afterSegment_tail_none (opening : Char) {fields : JsonFields}
    (havoids : Avoids fields key) (hlookup : fields.lookup key = none) :
    afterSegment key (segments opening fields).tail = none := by
  match fields with
  | [] => rfl
  | (other, fieldValue) :: rest =>
    have heq : other ≠ key := by
      rintro rfl
      simp at hlookup
    rw [afterSegment_tail_of_ne hkey heq (havoids _ (List.mem_cons_self ..))]
    have hbeq : (key == other) = false := beq_eq_false_iff_ne.2 (Ne.symm heq)
    simp only [List.lookup_cons, hbeq] at hlookup
    exact afterSegment_tail_none ',' havoids.tail hlookup

variable {fields : JsonFields} (hplain : AllPlain fields) (havoids : Avoids fields key)
include hplain havoids

theorem extractJsonString_write {value : StdString}
    (hlookup : fields.lookup key = some (.text value)) :
    extractJsonString (write '{' fields) key = some value := by
  have hvalue : Plain value := by
    obtain ⟨before, after, rfl, -⟩ := List.lookup_eq_some_iff.1 hlookup
    exact (hplain (key, .text value) (by simp)).2
  obtain ⟨first, segments', hsegments, -⟩ := exists_segments '{' fields
  have hmarks := mark_notMem_segments hplain (show '{' ≠ '"' by decide)
  obtain ⟨found, hfound, ch, rest, -, rfl⟩ := afterSegment_tail hkey '{' havoids hlookup
  rw [hsegments] at hmarks hfound
  rw [write_eq_joined hplain, hsegments]
  exact extractJsonString_message hkey.1 (hmarks _ (List.mem_cons_self ..))
    (fun segment hmem ↦ hmarks segment (List.mem_cons_of_mem _ hmem)) hvalue hfound

theorem extractJsonInt_write {value : ℤ} (hlookup : fields.lookup key = some (.number value)) :
    extractJsonInt (write '{' fields) key =
      some (toInt (max (-2 ^ 63) (min (2 ^ 63 - 1) value))) := by
  obtain ⟨first, segments', hsegments, -⟩ := exists_segments '{' fields
  have hmarks := mark_notMem_segments hplain (show '{' ≠ '"' by decide)
  obtain ⟨found, hfound, ch, rest, hch, rfl⟩ :=
    afterSegment_tail hkey '{' havoids hlookup
  rw [hsegments] at hmarks hfound
  rw [write_eq_joined hplain, hsegments]
  refine extractJsonInt_message hkey.1 (hmarks _ (List.mem_cons_self ..))
    (fun segment hmem ↦ hmarks segment (List.mem_cons_of_mem _ hmem)) ?_ hfound
  rcases hch with rfl | rfl <;> decide

theorem extractJsonString_write_none (hlookup : fields.lookup key = none) :
    extractJsonString (write '{' fields) key = none := by
  obtain ⟨first, segments', hsegments, -⟩ := exists_segments '{' fields
  have hmarks := mark_notMem_segments hplain (show '{' ≠ '"' by decide)
  have hfound := afterSegment_tail_none hkey '{' havoids hlookup
  rw [hsegments] at hmarks hfound
  rw [write_eq_joined hplain, hsegments]
  exact extractJsonString_of_not_found hkey.1 (hmarks _ (List.mem_cons_self ..))
    (fun segment hmem ↦ hmarks segment (List.mem_cons_of_mem _ hmem)) hfound

end Lookup

end JsonFields

end KongFuChess.Network.Protocol
