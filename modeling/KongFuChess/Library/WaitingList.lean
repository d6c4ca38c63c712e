import Mathlib.Data.Multiset.Filter

/-!
# Waiting lists

Entries wait in the order in which they came until a newcomer suits one of them. The newcomer is
paired with the first waiting entry that suits it, and waits itself if there is none. No two
waiting entries then ever suit each other, and no entry is lost or doubled.
-/

namespace KongFuChess.WaitingList

variable {α : Type*} (suits : α → α → Bool)

/-- The first waiting entry that suits the newcomer. -/
def partner (waiting : List α) (newcomer : α) : Option α := waiting.find? fun entry ↦
  suits entry newcomer

/-- The entries that wait once the newcomer has come. -/
def enter (waiting : List α) (newcomer : α) : List α :=
  match partner suits waiting newcomer with
  | some _ => waiting.eraseP fun entry ↦ suits entry newcomer
  | none => waiting ++ [newcomer]

variable {suits} {waiting : List α} {newcomer : α}

theorem partner_eq_none_iff :
    partner suits waiting newcomer = none ↔ ∀ entry ∈ waiting, suits entry newcomer = false := by
  simp [partner]

/-- The partner is the first entry that suits. -/
theorem partner_eq_some_iff {entry : α} :
    partner suits waiting newcomer = some entry ↔
      ∃ earlier later, waiting = earlier ++ entry :: later ∧
        (∀ other ∈ earlier, suits other newcomer = false) ∧ suits entry newcomer = true := by
  rw [partner, List.find?_eq_some_iff_append]
  constructor
  · rintro ⟨hsuits, earlier, later, heq, hearlier⟩
    exact ⟨earlier, later, heq, fun other hmem ↦ by simpa using hearlier other hmem, hsuits⟩
  · rintro ⟨earlier, later, heq, hearlier, hsuits⟩
    exact ⟨hsuits, earlier, later, heq, fun other hmem ↦ by simp [hearlier other hmem]⟩

/-- Waiting entries do not suit each other. -/
theorem pairwise_enter (h : waiting.Pairwise fun left right ↦ suits left right = false) :
    (enter suits waiting newcomer).Pairwise fun left right ↦ suits left right = false := by
  unfold enter
  split
  · exact h.sublist List.eraseP_sublist
  · rename_i hnone
    rw [partner_eq_none_iff] at hnone
    rw [List.pairwise_append]
    refine ⟨h, List.pairwise_singleton .., ?_⟩
    intro entry hmem other hother
    rw [List.mem_singleton.1 hother]
    exact hnone entry hmem

/-- The entries keep the order in which they came. -/
theorem enter_sublist : (enter suits waiting newcomer).Sublist (waiting ++ [newcomer]) := by
  unfold enter
  split
  · exact List.eraseP_sublist.trans (List.sublist_append_left ..)
  · exact List.Sublist.refl _

/-- Taking out the first selected entry. -/
theorem eraseP_add_find? (selected : α → Bool) (waiting : List α) :
    (waiting.eraseP selected : Multiset α) + ((waiting.find? selected).toList : Multiset α) =
      (waiting : Multiset α) := by
  rw [Multiset.coe_add, Multiset.coe_eq_coe]
  induction waiting with
  | nil => rfl
  | cons entry rest ih =>
    cases hselected : selected entry with
    | true => simp [hselected]
    | false => simpa [hselected] using ih

/-- Nobody is lost and nobody is doubled when a newcomer comes. -/
theorem enter_add_matched (suits : α → α → Bool) (waiting : List α) (newcomer : α) :
    (enter suits waiting newcomer : Multiset α) +
        (match partner suits waiting newcomer with
          | some entry => {entry, newcomer}
          | none => 0) =
      (waiting : Multiset α) + {newcomer} := by
  unfold enter
  cases hpartner : partner suits waiting newcomer with
  | none => simp [← Multiset.coe_add]
  | some entry =>
    have hbalance := eraseP_add_find? (fun other ↦ suits other newcomer) waiting
    rw [partner] at hpartner
    rw [hpartner, Option.toList_some, Multiset.coe_singleton] at hbalance
    simp only
    rw [← hbalance, Multiset.add_assoc]
    rfl

/-- Where no two entries share a key, taking out the first selected entry leaves none with its
key. -/
theorem key_ne_of_mem_eraseP {Key : Type*} {key : α → Key} {selected : α → Bool} {waiting : List α}
    (h : waiting.Pairwise fun left right ↦ key left ≠ key right) {chosen entry : α}
    (hfind : waiting.find? selected = some chosen) (hmem : entry ∈ waiting.eraseP selected) :
    key entry ≠ key chosen := by
  induction waiting with
  | nil => exact absurd hfind nofun
  | cons first rest ih =>
    obtain ⟨hfirst, hrest⟩ := List.pairwise_cons.1 h
    cases hselected : selected first with
    | true =>
      rw [List.find?_cons_of_pos hselected] at hfind
      rw [List.eraseP_cons_of_pos hselected] at hmem
      rw [← Option.some.inj hfind]
      exact (hfirst entry hmem).symm
    | false =>
      rw [List.find?_cons_of_neg (by simp [hselected])] at hfind
      rw [List.eraseP_cons_of_neg (by simp [hselected])] at hmem
      rcases List.mem_cons.1 hmem with rfl | hmem
      · exact hfirst chosen (List.mem_of_find?_eq_some hfind)
      · exact ih hrest hfind hmem

/-- Splitting the entries by whether they are selected. -/
theorem filter_add_filter (selected : α → Bool) (waiting : List α) :
    (waiting.filter (fun entry ↦ !selected entry) : Multiset α) +
        (waiting.filter selected : Multiset α) = (waiting : Multiset α) := by
  rw [Multiset.add_comm, Multiset.coe_add, Multiset.coe_eq_coe]
  exact List.filter_append_perm selected waiting

end KongFuChess.WaitingList
