import Mathlib.Data.List.TakeWhile

/-!
# Reading a text item by item

A reader takes one item from the front of a text, such as a line or a word, and leaves less of the
text. A loop that reads items until there is none left, or until its body leaves the loop, does
with the text what a fold with an early exit does with the list of its items, and also tells what
it has left unread.
-/

namespace KongFuChess

/-- Takes an item from the front of a text, if there is one. -/
structure Reader (α β : Type*) where
  read : List α → Option (β × List α)
  shorter : ∀ {text item rest}, read text = some (item, rest) → rest.length < text.length

namespace Reader

variable {α β σ ρ : Type*}

/-- The items of a text, in order. -/
def items (reader : Reader α β) (text : List α) : List β :=
  match _ : reader.read text with
  | none => []
  | some (item, rest) => item :: reader.items rest
termination_by text.length
decreasing_by exact reader.shorter ‹_›

/-- Pass the items to the body one by one. An error of the body leaves the loop with a result; the
text that is left unread is returned as well. -/
def loop (reader : Reader α β) (body : σ → β → Except ρ σ) (state : σ) (text : List α) :
    Except ρ σ × List α :=
  match _ : reader.read text with
  | none => (.ok state, text)
  | some (item, rest) =>
    match body state item with
    | .error result => (.error result, rest)
    | .ok next => reader.loop body next rest
termination_by text.length
decreasing_by exact reader.shorter ‹_›

section Items

variable {reader : Reader α β} {text rest : List α} {item : β}

theorem items_of_none (h : reader.read text = none) : reader.items text = [] := by
  rw [items]
  split
  · rfl
  · rename_i heq
    simp [h] at heq

theorem items_of_some (h : reader.read text = some (item, rest)) :
    reader.items text = item :: reader.items rest := by
  rw [items]
  split
  · rename_i heq
    simp [h] at heq
  · rename_i heq
    rw [h] at heq
    obtain ⟨rfl, rfl⟩ := Prod.mk.inj (Option.some.inj heq)
    rfl

variable (body : σ → β → Except ρ σ) (state : σ)

theorem loop_of_none (h : reader.read text = none) :
    reader.loop body state text = (.ok state, text) := by
  rw [loop]
  split
  · rfl
  · rename_i heq
    simp [h] at heq

theorem loop_of_some (h : reader.read text = some (item, rest)) :
    reader.loop body state text =
      match body state item with
      | .error result => (.error result, rest)
      | .ok next => reader.loop body next rest := by
  rw [loop]
  split
  · rename_i heq
    simp [h] at heq
  · rename_i heq
    rw [h] at heq
    obtain ⟨rfl, rfl⟩ := Prod.mk.inj (Option.some.inj heq)
    rfl

/-- The loop is a fold over the items. -/
theorem fst_loop (text : List α) :
    (reader.loop body state text).1 = (reader.items text).foldlM body state := by
  induction hlength : text.length using Nat.strong_induction_on generalizing state text with
  | _ length ih =>
    cases hread : reader.read text with
    | none =>
      rw [loop_of_none body state hread, items_of_none hread]
      rfl
    | some entry =>
      obtain ⟨item, rest⟩ := entry
      rw [loop_of_some body state hread, items_of_some hread, List.foldlM_cons]
      cases body state item with
      | error result => rfl
      | ok next => exact ih rest.length (hlength ▸ reader.shorter hread) next rest rfl

/-- The loop goes over all items, or it leaves at one of them and the items after it stay unread. -/
theorem loop_cases (text : List α) :
    (∃ final rest, reader.loop body state text = (.ok final, rest) ∧ reader.items rest = [] ∧
      (reader.items text).foldlM body state = .ok final) ∨
    ∃ skipped item result rest, reader.loop body state text = (.error result, rest) ∧
      rest.length < text.length ∧ reader.items text = skipped ++ item :: reader.items rest ∧
      ∃ reached, skipped.foldlM body state = .ok reached ∧ body reached item = .error result := by
  induction hlength : text.length using Nat.strong_induction_on generalizing state text with
  | _ length ih =>
    cases hread : reader.read text with
    | none =>
      rw [loop_of_none body state hread, items_of_none hread]
      exact .inl ⟨state, text, rfl, items_of_none hread, rfl⟩
    | some entry =>
      obtain ⟨item, rest⟩ := entry
      have hshorter := hlength ▸ reader.shorter hread
      rw [loop_of_some body state hread, items_of_some hread]
      cases hbody : body state item with
      | error result => exact .inr ⟨[], item, result, rest, rfl, hshorter, rfl, state, rfl, hbody⟩
      | ok next =>
        rcases ih rest.length hshorter next rest rfl with
          ⟨final, left, hloop, hleft, hfold⟩ |
            ⟨skipped, other, result, left, hloop, hlt, hitems, hfold⟩
        · refine .inl ⟨final, left, hloop, hleft, ?_⟩
          rw [List.foldlM_cons, hbody]
          exact hfold
        · obtain ⟨reached, hreached, hexit⟩ := hfold
          refine .inr ⟨item :: skipped, other, result, left, hloop, hlt.trans hshorter, ?_, reached,
            ?_, hexit⟩
          · rw [hitems, List.cons_append]
          · rw [List.foldlM_cons, hbody]
            exact hreached

end Items

/-! ## Lines -/

section Lines

variable [DecidableEq α]

/-- A line goes up to the separator or to the end of the text. The separator is dropped. -/
def lines (separator : α) : Reader α (List α) where
  read
    | [] => none
    | head :: tail =>
      some ((head :: tail).takeWhile (· ≠ separator),
        ((head :: tail).dropWhile (· ≠ separator)).tail)
  shorter := by
    intro text item rest h
    cases text with
    | nil => simp at h
    | cons head tail =>
      obtain ⟨-, rfl⟩ := Prod.mk.inj (Option.some.inj h)
      have hdrop := List.length_dropWhile_le (fun char ↦ decide (char ≠ separator)) (head :: tail)
      rw [List.length_tail, List.length_cons] at *
      omega

variable {separator : α} {line : List α}

theorem read_lines_of_ne_nil {text : List α} (hne : text ≠ []) :
    (lines separator).read text =
      some (text.takeWhile (· ≠ separator), (text.dropWhile (· ≠ separator)).tail) := by
  obtain ⟨head, tail, rfl⟩ := List.exists_cons_of_ne_nil hne
  rfl

section Line

variable (h : separator ∉ line)
include h

theorem keeps_line : ∀ char ∈ line, decide (char ≠ separator) = true := by
  intro char hmem
  rw [decide_eq_true_eq]
  rintro rfl
  exact h hmem

theorem read_lines_append (rest : List α) :
    (lines separator).read (line ++ separator :: rest) = some (line, rest) := by
  have hne : line ++ separator :: rest ≠ [] := by simp
  rw [read_lines_of_ne_nil hne, List.takeWhile_append_of_pos (keeps_line h),
    List.dropWhile_append_of_pos (keeps_line h)]
  simp

/-- The last line need not have an end. -/
theorem read_lines_last (hne : line ≠ []) : (lines separator).read line = some (line, []) := by
  rw [read_lines_of_ne_nil hne, List.takeWhile_eq_self_iff.2 (keeps_line h),
    List.dropWhile_eq_nil_iff.2 (keeps_line h), List.tail_nil]

end Line

end Lines

/-! ## Words -/

section Words

/-- A word goes up to the next blank or to the end of the text. The blanks before it are dropped. -/
def words (blank : α → Bool) : Reader α (List α) where
  read text :=
    match text.dropWhile blank with
    | [] => none
    | head :: tail =>
      some ((head :: tail).takeWhile (!blank ·), (head :: tail).dropWhile (!blank ·))
  shorter := by
    intro text item rest h
    have hdrop := List.length_dropWhile_le blank text
    have hfirst := List.head?_dropWhile_not blank text
    split at h
    · simp at h
    · rename_i head tail hstart
      obtain ⟨-, rfl⟩ := Prod.mk.inj (Option.some.inj h)
      simp only [hstart, List.head?_cons, List.length_cons] at hdrop hfirst
      rw [List.dropWhile_cons_of_pos (by simp [hfirst])]
      have hrest := List.length_dropWhile_le (!blank ·) tail
      omega

variable {blank : α → Bool} {word : List α}

theorem read_words_nil : (words blank).read [] = none := rfl

/-- What is read off a text while a test holds, and what is left of the text. -/
theorem span_iff {p : α → Bool} {text front rest : List α} :
    text.takeWhile p = front ∧ text.dropWhile p = rest ↔
      text = front ++ rest ∧ (∀ char ∈ front, p char = true) ∧
        ∀ char ∈ rest.head?, p char = false := by
  constructor
  · rintro ⟨rfl, rfl⟩
    refine ⟨List.takeWhile_append_dropWhile.symm, fun char hmem ↦ List.mem_takeWhile_imp hmem, ?_⟩
    intro char hmem
    have hfirst := List.head?_dropWhile_not p text
    rw [Option.mem_def] at hmem
    simpa only [hmem] using hfirst
  · rintro ⟨rfl, hfront, hrest⟩
    rw [List.takeWhile_append_of_pos hfront, List.dropWhile_append_of_pos hfront]
    cases rest with
    | nil => simp
    | cons head tail =>
      have hstop : ¬ p head = true := by simp [hrest head rfl]
      rw [List.takeWhile_cons_of_neg hstop, List.dropWhile_cons_of_neg hstop, List.append_nil]
      exact ⟨rfl, rfl⟩

/-- The first word is followed by a blank or by nothing. -/
theorem read_words_append (hne : word ≠ []) (h : ∀ char ∈ word, blank char = false) {rest : List α}
    (hrest : ∀ char ∈ rest.head?, blank char = true) :
    (words blank).read (word ++ rest) = some (word, rest) := by
  have hkeep : ∀ char ∈ word, (!blank char) = true := by
    intro char hmem
    rw [h char hmem]
    rfl
  have hend : rest.takeWhile (!blank ·) = [] ∧ rest.dropWhile (!blank ·) = rest := by
    cases rest with
    | nil => exact ⟨rfl, rfl⟩
    | cons head tail =>
      have hblank := hrest head rfl
      exact ⟨List.takeWhile_cons_of_neg (by simp [hblank]),
        List.dropWhile_cons_of_neg (by simp [hblank])⟩
  obtain ⟨head, tail, rfl⟩ := List.exists_cons_of_ne_nil hne
  have hstart : (head :: (tail ++ rest)).dropWhile blank = head :: (tail ++ rest) :=
    List.dropWhile_cons_of_neg (by simp [h head])
  calc
    _ = some ((head :: tail ++ rest).takeWhile (!blank ·),
          (head :: tail ++ rest).dropWhile (!blank ·)) := by
      simp only [words, List.cons_append, hstart]
    _ = _ := by
      rw [List.takeWhile_append_of_pos hkeep, List.dropWhile_append_of_pos hkeep, hend.1, hend.2,
        List.append_nil]

/-- A word is read from a text exactly where it stands after blanks, up to a blank or the end. -/
theorem read_words_iff {text rest : List α} :
    (words blank).read text = some (word, rest) ↔
      ∃ gap, text = gap ++ (word ++ rest) ∧ (∀ char ∈ gap, blank char = true) ∧ word ≠ [] ∧
        (∀ char ∈ word, blank char = false) ∧ ∀ char ∈ rest.head?, blank char = true := by
  constructor
  · intro h
    obtain ⟨htext, hgap, hstart⟩ := span_iff.1 ⟨(rfl : text.takeWhile blank = _), rfl⟩
    simp only [words] at h
    split at h
    · simp at h
    · rename_i head tail heq
      obtain ⟨hword, hrest⟩ := Prod.mk.inj (Option.some.inj h)
      obtain ⟨hsplit, hfree, hend⟩ := span_iff.1 ⟨hword, hrest⟩
      refine ⟨text.takeWhile blank, ?_, hgap, ?_, by simpa using hfree, by simpa using hend⟩
      · rw [← hsplit, ← heq]
        exact htext
      · have hhead : blank head = false := hstart head (by simp [heq])
        rw [← hword, List.takeWhile_cons_of_pos (by simp [hhead])]
        exact List.cons_ne_nil _ _
  · rintro ⟨gap, rfl, hgap, hne, hword, hrest⟩
    have hread := read_words_append hne hword hrest
    simp only [words] at hread ⊢
    rwa [List.dropWhile_append_of_pos hgap]

/-- The blanks before the first word do not matter. -/
theorem items_words_cons {separator : α} (hseparator : blank separator = true) (text : List α) :
    (words blank).items (separator :: text) = (words blank).items text := by
  have hread : (words blank).read (separator :: text) = (words blank).read text := by
    simp only [words, List.dropWhile_cons_of_pos hseparator]
  cases h : (words blank).read text with
  | none => rw [items_of_none h, items_of_none (hread.trans h)]
  | some entry => rw [items_of_some h, items_of_some (hread.trans h)]

/-- Words joined by a blank are read back one by one. -/
theorem items_intercalate {separator : α} (hseparator : blank separator = true)
    {texts : List (List α)} (h : ∀ text ∈ texts, text ≠ [] ∧ ∀ char ∈ text, blank char = false) :
    (words blank).items ([separator].intercalate texts) = texts := by
  induction texts with
  | nil => exact items_of_none read_words_nil
  | cons text rest ih =>
    obtain ⟨hne, hfree⟩ := h text (List.mem_cons_self ..)
    have ih := ih fun other hmem ↦ h other (List.mem_cons_of_mem _ hmem)
    cases rest with
    | nil =>
      have hread : (words blank).read (text ++ []) = some (text, []) :=
        read_words_append hne hfree fun _ hmem ↦ absurd hmem (Option.not_mem_none _)
      rw [List.append_nil] at hread
      rw [List.intercalate_singleton, items_of_some hread, items_of_none read_words_nil]
    | cons next rest =>
      have hread :
          (words blank).read (text ++ separator :: [separator].intercalate (next :: rest)) =
            some (text, separator :: [separator].intercalate (next :: rest)) :=
        read_words_append hne hfree (by simp [hseparator])
      rw [List.intercalate_cons_cons, List.append_assoc, List.singleton_append, items_of_some hread,
        items_words_cons hseparator, ih]

end Words

end Reader

/-! ## Writing -/

namespace Writer

variable {α β : Type*} (separator : α)

/-- The separator stands before every text but the first. -/
theorem intercalate_cons (text : List α) (rest : List (List α)) :
    [separator].intercalate (text :: rest) = text ++ rest.flatMap (separator :: ·) := by
  induction rest generalizing text with
  | nil => simp
  | cons next rest ih => simp [ih next]

theorem forall_mem_intercalate {p : α → Prop} (hseparator : p separator) {texts : List (List α)}
    (h : ∀ text ∈ texts, ∀ char ∈ text, p char) :
    ∀ char ∈ [separator].intercalate texts, p char := by
  cases texts with
  | nil => exact List.forall_mem_nil _
  | cons text rest =>
    intro char hmem
    rw [intercalate_cons, List.mem_append, List.mem_flatMap] at hmem
    rcases hmem with hfirst | ⟨next, hnext, hmem⟩
    · exact h text (List.mem_cons_self ..) char hfirst
    · rcases List.mem_cons.1 hmem with rfl | hmem
      · exact hseparator
      · exact h next (List.mem_cons_of_mem _ hnext) char hmem

/-- What is written begins and ends with a character of the texts. -/
theorem ends_intercalate {p : α → Prop} {texts : List (List α)} (hne : texts ≠ [])
    (h : ∀ text ∈ texts, text ≠ [] ∧ ∀ char ∈ text, p char) :
    (∃ head tail, [separator].intercalate texts = head :: tail ∧ p head) ∧
      ∃ front last, [separator].intercalate texts = front ++ [last] ∧ p last := by
  induction texts with
  | nil => exact absurd rfl hne
  | cons text rest ih =>
    obtain ⟨htext, hchars⟩ := h text (List.mem_cons_self ..)
    constructor
    · obtain ⟨head, tail, rfl⟩ := List.exists_cons_of_ne_nil htext
      rw [intercalate_cons]
      exact ⟨head, _, List.cons_append, hchars head (List.mem_cons_self ..)⟩
    · cases rest with
      | nil =>
        refine ⟨text.dropLast, text.getLast htext, ?_, hchars _ (List.getLast_mem htext)⟩
        rw [List.intercalate_singleton, List.dropLast_concat_getLast]
      | cons next rest =>
        obtain ⟨-, front, last, heq, hlast⟩ := ih (List.cons_ne_nil _ _) fun other hmem ↦
          h other (List.mem_cons_of_mem _ hmem)
        refine ⟨text ++ separator :: front, last, ?_, hlast⟩
        rw [List.intercalate_cons_cons, heq]
        simp

/-- A loop over the indices of a list. -/
theorem flatMap_range (write : β → List α) (values : List β) (default : β) :
    ((List.range values.length).flatMap fun index ↦ write (values.getD index default)) =
      values.flatMap write := by
  have hvalues : (List.range values.length).map (values.getD · default) = values := by
    apply List.ext_getElem
    · simp
    · intro index hleft hright
      simp [hright]
  calc
    _ = ((List.range values.length).map (values.getD · default)).flatMap write := by
      rw [List.flatMap_map]
    _ = _ := by rw [hvalues]

/-- A loop over the indices of a list that writes the separator before every item but the first. -/
theorem flatMap_range_separated (write : β → List α) (values : List β) (default : β) :
    ((List.range values.length).flatMap fun index ↦
        (if 0 < index then [separator] else []) ++ write (values.getD index default)) =
      [separator].intercalate (values.map write) := by
  cases values with
  | nil => rfl
  | cons first rest =>
    have hrest := flatMap_range (fun value ↦ separator :: write value) rest default
    rw [List.map_cons, intercalate_cons, List.flatMap_map, ← hrest, List.length_cons,
      List.range_succ_eq_map, List.flatMap_cons, List.flatMap_map]
    simp

end Writer

end KongFuChess
