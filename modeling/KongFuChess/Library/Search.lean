import Mathlib.Data.List.Basic
import Mathlib.Data.List.Infix

/-!
# Searching for a quoted word

A text in which quotation marks separate segments is searched for a word in quotation marks. If no
segment contains a quotation mark, an occurrence of the quoted word is a segment equal to the word
with a quotation mark on either side, so the search can be carried out on the list of segments.
-/

namespace KongFuChess.Search

variable {α : Type*}

/-- A word in quotation marks. -/
def quoted (mark : α) (word : List α) : List α := mark :: (word ++ [mark])

/-- The text with the given segments between quotation marks. -/
def joined (mark : α) (segments : List (List α)) : List α := [mark].intercalate segments

@[simp]
theorem joined_singleton (mark : α) (segment : List α) : joined mark [segment] = segment := by
  simp [joined]

@[simp]
theorem joined_cons_cons (mark : α) (segment next : List α) (rest : List (List α)) :
    joined mark (segment :: next :: rest) = segment ++ mark :: joined mark (next :: rest) := by
  simp [joined, List.intercalate]

/-- A text begins with its first segment. -/
theorem exists_joined (mark : α) (segment : List α) (rest : List (List α)) :
    ∃ text, joined mark (segment :: rest) = segment ++ text := by
  cases rest with
  | nil => exact ⟨[], by simp⟩
  | cons next rest => exact ⟨_, joined_cons_cons mark segment next rest⟩

variable {mark : α} {word : List α}

/-- A closing mark ends both the word and the segment. -/
theorem prefix_append_mark {segment : List α} (hword : mark ∉ word) (hsegment : mark ∉ segment)
    (text : List α) : word ++ [mark] <+: segment ++ mark :: text ↔ segment = word := by
  induction segment generalizing word with
  | nil =>
    cases word with
    | nil => simp
    | cons head tail =>
      rw [List.mem_cons, not_or] at hword
      simp [Ne.symm hword.1]
  | cons head tail ih =>
    rw [List.mem_cons, not_or] at hsegment
    cases word with
    | nil => simp [hsegment.1]
    | cons head' tail' =>
      rw [List.mem_cons, not_or] at hword
      rw [List.cons_append, List.cons_append, List.cons_prefix_cons, ih hword.2 hsegment.2,
        List.cons.injEq, eq_comm]

variable [DecidableEq α]

/-- What follows the first occurrence of `needle` in a text. -/
def afterFirst (needle : List α) : List α → Option (List α)
  | [] => if needle = [] then some [] else none
  | head :: tail =>
    if needle.isPrefixOf (head :: tail) then some ((head :: tail).drop needle.length)
    else afterFirst needle tail

/-- The segments after the first one that is equal to `word`, if there are any. -/
def afterSegment (word : List α) : List (List α) → Option (List (List α))
  | segment :: next :: rest =>
    if segment = word then some (next :: rest) else afterSegment word (next :: rest)
  | _ => none

theorem afterSegment_of_ne {segment : List α} (h : segment ≠ word) (rest : List (List α)) :
    afterSegment word (segment :: rest) = afterSegment word rest := by
  cases rest with
  | nil => rfl
  | cons next rest => rw [afterSegment, if_neg h]

/-- An occurrence does not start within a segment. -/
theorem afterFirst_append {segment : List α} (hsegment : mark ∉ segment) (text : List α) :
    afterFirst (quoted mark word) (segment ++ text) = afterFirst (quoted mark word) text := by
  induction segment with
  | nil => rfl
  | cons head tail ih =>
    rw [List.mem_cons, not_or] at hsegment
    rw [List.cons_append, afterFirst, if_neg, ih hsegment.2]
    simp [quoted, List.isPrefixOf, hsegment.1]

theorem afterFirst_eq_none {segment : List α} (hsegment : mark ∉ segment) :
    afterFirst (quoted mark word) segment = none := by
  have htext : afterFirst (quoted mark word) (segment ++ []) = afterFirst (quoted mark word) [] :=
    afterFirst_append hsegment []
  rwa [List.append_nil, afterFirst, if_neg (by simp [quoted])] at htext

/-- An opening mark in front of the word and a closing mark. -/
theorem afterFirst_mark_of_start {text : List α} (h : word ++ [mark] <+: text) :
    afterFirst (quoted mark word) (mark :: text) = some (text.drop (word.length + 1)) := by
  rw [afterFirst, if_pos]
  · simp [quoted]
  · rw [List.isPrefixOf_iff_prefix, quoted, List.cons_prefix_cons]
    exact ⟨rfl, h⟩

theorem afterFirst_mark_of_not_start {text : List α} (h : ¬ word ++ [mark] <+: text) :
    afterFirst (quoted mark word) (mark :: text) = afterFirst (quoted mark word) text := by
  rw [afterFirst, if_neg]
  rw [List.isPrefixOf_iff_prefix, quoted, List.cons_prefix_cons]
  exact fun hprefix ↦ h hprefix.2

/-- The search for a quoted word among segments without quotation marks. -/
theorem afterFirst_joined (hword : mark ∉ word) {first : List α} {segments : List (List α)}
    (hfirst : mark ∉ first) (hsegments : ∀ segment ∈ segments, mark ∉ segment) :
    afterFirst (quoted mark word) (joined mark (first :: segments)) =
      (afterSegment word segments).map (joined mark) := by
  induction segments generalizing first with
  | nil =>
    rw [joined_singleton, afterFirst_eq_none hfirst]
    rfl
  | cons segment rest ih =>
    have hsegment := hsegments segment (List.mem_cons_self ..)
    have hrest := ih hsegment fun other hother ↦ hsegments other (List.mem_cons_of_mem _ hother)
    rw [joined_cons_cons, afterFirst_append hfirst, afterFirst]
    cases rest with
    | nil =>
      -- No mark follows the last segment.
      rw [if_neg, hrest]
      · rfl
      · rw [List.isPrefixOf_iff_prefix, joined_singleton, quoted, List.cons_prefix_cons]
        exact fun h ↦ hsegment (h.2.subset (by simp))
    | cons next rest =>
      have hstart : (quoted mark word).isPrefixOf
          (mark :: joined mark (segment :: next :: rest)) = true ↔ segment = word := by
        rw [joined_cons_cons, List.isPrefixOf_iff_prefix, quoted, List.cons_prefix_cons,
          prefix_append_mark hword hsegment, eq_self, true_and]
      rw [afterSegment]
      by_cases heq : segment = word
      · rw [if_pos (hstart.2 heq), if_pos heq]
        subst heq
        simp [quoted]
      · rw [if_neg (mt hstart.1 heq), if_neg heq]
        exact hrest

end KongFuChess.Search
