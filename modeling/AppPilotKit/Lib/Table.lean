import Mathlib

/-! # Tables keyed by numbers

A hash map from `u64` keys, as an association list with distinct keys. Lookup,
insertion and removal are those of `AList`; here are the two operations that go
through all entries.
-/

abbrev Table (α : Type) := AList fun _ : Nat => α

namespace Table

variable {α : Type}

def any (p : α → Bool) (t : Table α) : Bool := t.entries.any fun entry => p entry.2

/-- Keep the entries whose value satisfies `p`. -/
def retain (p : α → Bool) (t : Table α) : Table α :=
  ⟨t.entries.filter fun entry => p entry.2, t.nodupKeys.sublist List.filter_sublist⟩

theorem any_iff {p : α → Bool} {t : Table α} :
    t.any p = true ↔ ∃ key value, t.lookup key = some value ∧ p value = true := by
  simp only [any, List.any_eq_true]
  constructor
  · rintro ⟨⟨key, value⟩, member, holds⟩
    exact ⟨key, value, AList.mem_lookup_iff.mpr member, holds⟩
  · rintro ⟨key, value, found, holds⟩
    exact ⟨⟨key, value⟩, AList.mem_lookup_iff.mp found, holds⟩

theorem lookup_retain {p : α → Bool} {t : Table α} {key : Nat} {value : α} :
    (t.retain p).lookup key = some value ↔ t.lookup key = some value ∧ p value = true := by
  have inside := AList.mem_lookup_iff (s := t.retain p) (a := key) (b := value)
  have outside := AList.mem_lookup_iff (s := t) (a := key) (b := value)
  rw [← Option.mem_def, ← Option.mem_def, inside, outside]
  simp [retain]

/-- Looking up after inserting. -/
theorem lookup_insert_eq (t : Table α) (key other : Nat) (value : α) :
    (t.insert key value).lookup other = if other = key then some value else t.lookup other := by
  split
  · rename_i same
    rw [same, AList.lookup_insert]
  · rename_i differs
    exact AList.lookup_insert_ne differs

/-- Looking up after removing. -/
theorem lookup_erase_eq (t : Table α) (key other : Nat) :
    (t.erase key).lookup other = if other = key then none else t.lookup other := by
  split
  · rename_i same
    rw [same, AList.lookup_erase]
  · rename_i differs
    exact AList.lookup_erase_ne differs

end Table
