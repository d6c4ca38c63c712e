import Mathlib.Data.List.AList

/-!
# Tables and their inverses

A hash table is an association list without repeated keys; nothing here depends on the order of its
entries. Two tables that map keys to values and back are kept mutually inverse as long as a pair is
written to both of them only where each of its two ends is free or already bound to the other.
-/

namespace KongFuChess

/-- A finite map from keys to values. -/
abbrev Table (Key Value : Type*) := AList fun _ : Key ↦ Value

namespace Table

variable {Key Value : Type*} [DecidableEq Key]

@[simp]
theorem lookup_insert (table : Table Key Value) (key : Key) (value : Value) (other : Key) :
    (table.insert key value).lookup other =
      if other = key then some value else table.lookup other := by
  split
  · rename_i heq
    rw [heq, AList.lookup_insert]
  · rename_i hne
    exact AList.lookup_insert_ne hne

@[simp]
theorem lookup_erase (table : Table Key Value) (key other : Key) :
    (table.erase key).lookup other = if other = key then none else table.lookup other := by
  split
  · rename_i heq
    rw [heq, AList.lookup_erase]
  · rename_i hne
    exact AList.lookup_erase_ne hne

/-- The number of entries. -/
def size (table : Table Key Value) : ℕ := table.keys.length

variable {table : Table Key Value}

theorem lookup_of_size_eq_zero (h : table.size = 0) (key : Key) : table.lookup key = none := by
  rw [AList.lookup_eq_none, AList.mem_keys, List.length_eq_zero_iff.1 h]
  exact List.not_mem_nil

theorem lookup_of_size_eq_one (h : table.size = 1) {key other : Key}
    (hkey : (table.lookup key).isSome = true) (hne : other ≠ key) : table.lookup other = none := by
  obtain ⟨only, honly⟩ := List.length_eq_one_iff.1 h
  have hmem := AList.mem_keys.1 (AList.lookup_isSome.1 hkey)
  rw [honly, List.mem_singleton] at hmem
  rw [AList.lookup_eq_none, AList.mem_keys, honly, List.mem_singleton, ← hmem]
  exact hne

/-- A table with exactly two keys. -/
theorem size_eq_two {first second : Key} (hne : first ≠ second)
    (hkeys : ∀ key, (table.lookup key).isSome = true ↔ key = first ∨ key = second) :
    table.size = 2 := by
  have hperm : table.keys.Perm [first, second] := by
    apply (List.perm_ext_iff_of_nodup table.keys_nodup (by simpa using hne)).2
    intro key
    rw [← AList.mem_keys, ← AList.lookup_isSome, hkeys]
    simp
  exact hperm.length_eq

end Table

section Inverse

variable {Key Value : Type*} [DecidableEq Key] [DecidableEq Value]

/-- One table maps a key to a value exactly when the other maps the value to the key. -/
def Inverse (names : Table Key Value) (owners : Table Value Key) : Prop :=
  ∀ key value, names.lookup key = some value ↔ owners.lookup value = some key

/-- The key and the value are each free or bound to the other. -/
def Linked (names : Table Key Value) (owners : Table Value Key) (key : Key) (value : Value) :
    Prop :=
  (∀ bound ∈ names.lookup key, bound = value) ∧ ∀ owner ∈ owners.lookup value, owner = key

instance (names : Table Key Value) (owners : Table Value Key) (key : Key) (value : Value) :
    Decidable (Linked names owners key value) :=
  inferInstanceAs (Decidable (_ ∧ _))

variable {names : Table Key Value} {owners : Table Value Key} {key : Key} {value : Value}

theorem inverse_empty : Inverse (∅ : Table Key Value) (∅ : Table Value Key) := by
  intro key value
  rw [AList.lookup_empty, AList.lookup_empty]
  exact ⟨nofun, nofun⟩

namespace Inverse

/-- A value belongs to one key. -/
theorem key_unique (h : Inverse names owners) {left right : Key}
    (hleft : names.lookup left = some value) (hright : names.lookup right = some value) :
    left = right := by
  rw [h] at hleft hright
  exact Option.some.inj (hleft.symm.trans hright)

theorem linked (h : Inverse names owners) (hbound : names.lookup key = some value) :
    Linked names owners key value := by
  constructor
  · intro bound hmem
    exact Option.some.inj (hmem.symm.trans hbound)
  · intro owner hmem
    exact Option.some.inj (hmem.symm.trans ((h key value).1 hbound))

/-- Writing a linked pair to both tables. -/
theorem insert (h : Inverse names owners) (hlinked : Linked names owners key value) :
    Inverse (names.insert key value) (owners.insert value key) := by
  intro other bound
  rw [Table.lookup_insert, Table.lookup_insert]
  by_cases hkey : other = key
  · subst hkey
    by_cases hvalue : bound = value
    · simp [hvalue]
    · rw [if_pos rfl, if_neg hvalue, ← h]
      constructor
      · exact fun heq ↦ absurd (Option.some.inj heq).symm hvalue
      · exact fun hbound ↦ absurd (hlinked.1 bound hbound) hvalue
  · by_cases hvalue : bound = value
    · subst hvalue
      rw [if_neg hkey, if_pos rfl, h]
      constructor
      · exact fun howner ↦ absurd (hlinked.2 other howner) hkey
      · exact fun heq ↦ absurd (Option.some.inj heq).symm hkey
    · rw [if_neg hkey, if_neg hvalue]
      exact h other bound

/-- Removing a bound pair from both tables. -/
theorem erase (h : Inverse names owners) (hbound : names.lookup key = some value) :
    Inverse (names.erase key) (owners.erase value) := by
  intro other bound
  rw [Table.lookup_erase, Table.lookup_erase]
  by_cases hkey : other = key
  · subst hkey
    by_cases hvalue : bound = value
    · simp [hvalue]
    · rw [if_pos rfl, if_neg hvalue, ← h]
      constructor
      · exact fun hnone ↦ absurd hnone nofun
      · exact fun hother ↦ absurd (Option.some.inj (hother.symm.trans hbound)) hvalue
  · by_cases hvalue : bound = value
    · subst hvalue
      rw [if_neg hkey, if_pos rfl]
      constructor
      · exact fun hother ↦ absurd (h.key_unique hother hbound) hkey
      · exact fun hnone ↦ absurd hnone nofun
    · rw [if_neg hkey, if_neg hvalue]
      exact h other bound

end Inverse

end Inverse

end KongFuChess
