import Mathlib

/-! # Dictionaries

A hash map as an association list with distinct keys. Lookup, insertion and removal are
those of `AList`; here are the operations that go through all entries, and how a lookup
sees each of them.
-/

abbrev Dict (κ α : Type) := AList fun _ : κ => α

namespace Dict

variable {κ α : Type}

/-- Change every value. -/
def mapValues (f : α → α) (d : Dict κ α) : Dict κ α :=
  ⟨d.entries.map fun entry => ⟨entry.1, f entry.2⟩, by
    have same : (d.entries.map fun entry => (⟨entry.1, f entry.2⟩ : (_ : κ) × α)).keys = d.entries.keys := by
      simp [List.keys, List.map_map, Function.comp_def]
    rw [List.NodupKeys, same]
    exact d.nodupKeys⟩

/-- Keep the entries that satisfy `p`. -/
def retain (p : κ → α → Bool) (d : Dict κ α) : Dict κ α :=
  ⟨d.entries.filter fun entry => p entry.1 entry.2, d.nodupKeys.sublist List.filter_sublist⟩

def any (p : α → Bool) (d : Dict κ α) : Bool := d.entries.any fun entry => p entry.2

variable [DecidableEq κ]

/-- Change the value of one key, where there is one. -/
def adjust (key : κ) (f : α → α) (d : Dict κ α) : Dict κ α :=
  ⟨d.entries.map fun entry => ⟨entry.1, if entry.1 = key then f entry.2 else entry.2⟩, by
    have same : (d.entries.map fun entry =>
        (⟨entry.1, if entry.1 = key then f entry.2 else entry.2⟩ : (_ : κ) × α)).keys = d.entries.keys := by
      simp [List.keys, List.map_map, Function.comp_def]
    rw [List.NodupKeys, same]
    exact d.nodupKeys⟩

theorem mem_entries {d : Dict κ α} {key : κ} {value : α} :
    (⟨key, value⟩ : (_ : κ) × α) ∈ d.entries ↔ d.lookup key = some value := by
  rw [← Option.mem_def, AList.mem_lookup_iff]

@[simp] theorem lookup_mapValues (f : α → α) (d : Dict κ α) (key : κ) :
    (d.mapValues f).lookup key = (d.lookup key).map f := by
  apply Option.ext
  intro value
  rw [← mem_entries, Option.map_eq_some_iff]
  simp only [mapValues, List.mem_map, ← mem_entries]
  constructor
  · rintro ⟨entry, member, same⟩
    cases same
    exact ⟨_, member, rfl⟩
  · rintro ⟨before, member, rfl⟩
    exact ⟨_, member, rfl⟩

@[simp] theorem lookup_retain {p : κ → α → Bool} {d : Dict κ α} {key : κ} {value : α} :
    (d.retain p).lookup key = some value ↔ d.lookup key = some value ∧ p key value = true := by
  rw [← mem_entries, ← mem_entries]
  simp [retain]

theorem lookup_adjust (key : κ) (f : α → α) (d : Dict κ α) (other : κ) :
    (d.adjust key f).lookup other = if other = key then (d.lookup other).map f else d.lookup other := by
  apply Option.ext
  intro value
  rw [← mem_entries]
  simp only [adjust, List.mem_map]
  constructor
  · rintro ⟨entry, member, same⟩
    cases same
    have found := mem_entries.mp member
    split
    · rw [found, Option.map_some]
    · exact found
  · intro found
    split at found
    · rename_i here
      obtain ⟨before, was, rfl⟩ := Option.map_eq_some_iff.mp found
      exact ⟨⟨other, before⟩, mem_entries.mpr was, by simp [here]⟩
    · rename_i elsewhere
      exact ⟨⟨other, value⟩, mem_entries.mpr found, by simp [elsewhere]⟩

theorem lookup_insert_eq (d : Dict κ α) (key other : κ) (value : α) :
    (d.insert key value).lookup other = if other = key then some value else d.lookup other := by
  split
  · rename_i same
    subst same
    exact AList.lookup_insert d
  · rename_i differs
    exact AList.lookup_insert_ne differs

theorem lookup_erase_eq (d : Dict κ α) (key other : κ) :
    (d.erase key).lookup other = if other = key then none else d.lookup other := by
  split
  · rename_i same
    subst same
    exact AList.lookup_erase _ _
  · rename_i differs
    exact AList.lookup_erase_ne differs

end Dict
