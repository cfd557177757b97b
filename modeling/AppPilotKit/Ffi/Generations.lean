import AppPilotKit.Ffi.Calls

/-! # Handles that are gone

A handle is gone when its slot has moved on to a later generation. As long as no slot goes
back to an earlier one, a handle that is gone stays gone, and a handle that is given out is new.
-/

namespace AppPilotKit.Ffi.Registry

variable {α : Type} {r r' : Registry α} {handle other : Nat} {value w : α}

/-- The slot of the handle has moved on. -/
def Gone (r : Registry α) (handle : Nat) : Prop :=
  ∃ index generation slot, decodeHandle handle = some (index, generation) ∧ r.slots[index]? = some slot ∧ generation < slot.generation

/-- A slot has the value, whether or not a handle names the slot. -/
def Holds (r : Registry α) (value : α) : Prop := ∃ generation, ⟨generation, some value⟩ ∈ r.slots

/-- Every generation is one that a handle may have. -/
def Positive (r : Registry α) : Prop := ∀ slot ∈ r.slots, slot.generation ≠ 0

/-- No slot goes back to an earlier generation. -/
def Forward (r r' : Registry α) : Prop :=
  ∀ (index : Nat) (slot slot' : Slot α), r.slots[index]? = some slot → r'.slots[index]? = some slot' → slot.generation ≤ slot'.generation

/-- A slot stays as it is, gets a value, or is emptied and moves on. -/
def Onward (r r' : Registry α) : Prop :=
  ∀ (index : Nat) (slot : Slot α), r.slots[index]? = some slot → ∃ slot', r'.slots[index]? = some slot' ∧
    (slot' = slot ∨ slot.value = none ∧ slot'.generation = slot.generation ∨
      slot.generation < slot'.generation ∧ slot'.value = none)

theorem Onward.refl (r : Registry α) : Onward r r := fun _ slot here => ⟨slot, here, .inl rfl⟩

theorem Gone.get (gone : r.Gone handle) : r.get handle = none := by
  obtain ⟨index, generation, slot, decoded, here, older⟩ := gone
  cases found : r.get handle with
  | none => rfl
  | some value =>
      obtain ⟨index', generation', decoded', here'⟩ := get_eq.mp found
      rw [decoded] at decoded'
      cases decoded'
      rw [here] at here'
      cases here'
      exact absurd older (Nat.lt_irrefl _)

theorem Gone.onward (gone : r.Gone handle) (onward : Onward r r') : r'.Gone handle := by
  obtain ⟨index, generation, slot, decoded, here, older⟩ := gone
  obtain ⟨slot', here', same | ⟨-, same⟩ | ⟨later, -⟩⟩ := onward index slot here
  · exact ⟨index, generation, slot', decoded, here', by rwa [same]⟩
  · exact ⟨index, generation, slot', decoded, here', by rwa [same]⟩
  · exact ⟨index, generation, slot', decoded, here', older.trans later⟩

theorem Onward.get (onward : Onward r r') (named : r.get handle = some value) : r'.get handle = some value ∨ r'.Gone handle := by
  obtain ⟨index, generation, decoded, here⟩ := get_eq.mp named
  obtain ⟨slot', here', rfl | ⟨empty, -⟩ | ⟨later, -⟩⟩ := onward index _ here
  · exact .inl (get_eq.mpr ⟨index, generation, decoded, here'⟩)
  · cases empty
  · exact .inr ⟨index, generation, slot', decoded, here', later⟩

theorem holds_of_get (named : r.get handle = some value) : r.Holds value := by
  obtain ⟨index, generation, -, here⟩ := get_eq.mp named
  exact ⟨generation, List.mem_of_getElem? here⟩

/-! ## Adding a value -/

section
variable (r value)

theorem insert_onward : Onward r (r.insert value).2 := by
  obtain ⟨index, generation, -, free, here, others, -⟩ := insert_slots r value
  intro place slot there
  by_cases same : place = index
  · subst same
    rcases free with free | ⟨rfl, -⟩
    · rw [free] at there
      cases there
      exact ⟨_, here, .inr (.inl ⟨rfl, rfl⟩)⟩
    · simp at there
  · exact ⟨slot, (others place same).trans there, .inl rfl⟩

theorem insert_get (named : r.get other = some w) : (r.insert value).2.get other = some w := by
  obtain ⟨place, generation, decoded, there⟩ := get_eq.mp named
  obtain ⟨slot', here', rfl | ⟨empty, -⟩ | ⟨later, empty⟩⟩ := insert_onward r value place _ there
  · exact get_eq.mpr ⟨place, generation, decoded, here'⟩
  · cases empty
  · obtain ⟨index, generation', -, free, here, others, -⟩ := insert_slots r value
    by_cases same : place = index
    · subst same
      rw [here] at here'
      cases here'
      cases empty
    · rw [others place same, there] at here'
      cases here'
      cases empty

variable {r value}

/-- A handle that is given out was neither in use nor gone. -/
theorem insert_new (positive : r.Positive) (issued : (r.insert value).1 = .ok handle) :
    (r.insert value).2.get handle = some value ∧ r.get handle = none ∧ ¬ r.Gone handle := by
  obtain ⟨index, generation, answer, free, here, -, -⟩ := insert_slots r value
  have nonzero : generation ≠ 0 := by
    rcases free with free | ⟨-, rfl⟩
    · exact positive _ (List.mem_of_getElem? free)
    · decide
  have decoded := decodeHandle_encode (answer.symm.trans issued) nonzero
  -- the slot was empty at this generation, or was not there
  have vacant : ∀ slot, r.slots[index]? = some slot → slot = ⟨generation, none⟩ := by
    intro slot there
    rcases free with free | ⟨rfl, -⟩
    · rw [free] at there
      exact (Option.some.inj there).symm
    · simp at there
  refine ⟨get_eq.mpr ⟨index, generation, decoded, here⟩, ?_, ?_⟩
  · cases found : r.get handle with
    | none => rfl
    | some other =>
        obtain ⟨index', generation', decoded', there⟩ := get_eq.mp found
        rw [decoded] at decoded'
        cases decoded'
        cases vacant _ there
  · rintro ⟨index', generation', slot, decoded', there, older⟩
    rw [decoded] at decoded'
    cases decoded'
    rw [vacant _ there] at older
    exact Nat.lt_irrefl _ older

theorem insert_old (named : (r.insert value).2.get other = some w) :
    r.get other = some w ∨ (r.insert value).1 = .ok other ∧ w = value := by
  obtain ⟨place, generation, decoded, there⟩ := get_eq.mp named
  obtain ⟨index, generation', answer, -, here, others, -⟩ := insert_slots r value
  by_cases same : place = index
  · subst same
    rw [here] at there
    cases there
    exact .inr ⟨answer.trans (encodeHandle_decode decoded).1, rfl⟩
  · exact .inl (get_eq.mpr ⟨place, generation, decoded, (others place same).symm.trans there⟩)

theorem insert_holds (held : (r.insert value).2.Holds w) : r.Holds w ∨ w = value := by
  obtain ⟨generation, member⟩ := held
  obtain ⟨place, there⟩ := List.mem_iff_getElem?.mp member
  obtain ⟨index, generation', -, -, here, others, -⟩ := insert_slots r value
  by_cases same : place = index
  · subst same
    rw [here] at there
    cases there
    exact .inr rfl
  · exact .inl ⟨generation, List.mem_of_getElem? ((others place same).symm.trans there)⟩

theorem insert_positive (positive : r.Positive) : (r.insert value).2.Positive := by
  intro slot member
  obtain ⟨place, there⟩ := List.mem_iff_getElem?.mp member
  obtain ⟨index, generation, -, free, here, others, -⟩ := insert_slots r value
  by_cases same : place = index
  · subst same
    rw [here] at there
    cases there
    rcases free with free | ⟨-, rfl⟩
    · exact positive ⟨generation, none⟩ (List.mem_of_getElem? free)
    · exact Nat.one_ne_zero
  · exact positive slot (List.mem_of_getElem? ((others place same).symm.trans there))

end

/-! ## Emptying slots -/

theorem nextGeneration_pos (generation : Nat) : nextGeneration generation ≠ 0 := by
  unfold nextGeneration
  dsimp only
  split
  · decide
  · assumption

/-- Each slot stays, or is emptied and moves to the next generation. -/
def Emptied (r r' : Registry α) : Prop :=
  ∀ index : Nat, r'.slots[index]? = r.slots[index]? ∨ ∃ generation value, r.slots[index]? = some ⟨generation, some value⟩ ∧
    r'.slots[index]? = some ⟨nextGeneration generation, none⟩

section
variable (emptied : Emptied r r')
include emptied

theorem Emptied.onward (forward : Forward r r') : Onward r r' := by
  intro index slot here
  rcases emptied index with same | ⟨generation, value, there, moved⟩
  · exact ⟨slot, same.trans here, .inl rfl⟩
  · rw [here] at there
    cases there
    have ahead := forward index _ _ here moved
    refine ⟨_, moved, .inr (.inr ⟨?_, rfl⟩)⟩
    unfold nextGeneration at ahead ⊢
    dsimp only at ahead ⊢
    split_ifs at ahead ⊢ <;> omega

theorem Emptied.get (named : r'.get handle = some value) : r.get handle = some value := by
  obtain ⟨index, generation, decoded, here⟩ := get_eq.mp named
  rcases emptied index with same | ⟨_, _, -, moved⟩
  · exact get_eq.mpr ⟨index, generation, decoded, same.symm.trans here⟩
  · rw [here] at moved
    cases moved

theorem Emptied.holds (held : r'.Holds value) : r.Holds value := by
  obtain ⟨generation, member⟩ := held
  obtain ⟨index, here⟩ := List.mem_iff_getElem?.mp member
  rcases emptied index with same | ⟨_, _, -, moved⟩
  · exact ⟨generation, List.mem_of_getElem? (same.symm.trans here)⟩
  · rw [here] at moved
    cases moved

theorem Emptied.positive (positive : r.Positive) : r'.Positive := by
  intro slot member
  obtain ⟨index, here⟩ := List.mem_iff_getElem?.mp member
  rcases emptied index with same | ⟨generation, _, -, moved⟩
  · exact positive slot (List.mem_of_getElem? (same.symm.trans here))
  · rw [here] at moved
    cases moved
    exact nextGeneration_pos generation

end

variable (r handle) in
theorem remove_emptied : Emptied r (r.remove handle).2 := by
  intro place
  rcases remove_slots r handle with ⟨same, -⟩ | ⟨index, generation, value, -, here, -, removed⟩
  · rw [same]
    exact .inl rfl
  · rw [removed]
    by_cases same : index = place
    · subst same
      refine .inr ⟨generation, value, here, ?_⟩
      rw [List.getElem?_set_self (List.getElem?_eq_some_iff.mp here).1]
    · exact .inl (List.getElem?_set_ne same)

theorem remove_gone (named : r.get handle = some value) (forward : Forward r (r.remove handle).2) :
    (r.remove handle).2.Gone handle := by
  refine (((remove_emptied r handle).onward forward).get named).resolve_left fun still => ?_
  rcases remove_slots r handle with ⟨-, none⟩ | ⟨index, generation, value', decoded, here, -, removed⟩
  · rw [named] at none
    cases none
  · obtain ⟨index', generation', decoded', there⟩ := get_eq.mp still
    rw [decoded] at decoded'
    cases decoded'
    rw [removed, List.getElem?_set_self (List.getElem?_eq_some_iff.mp here).1] at there
    have empty := congrArg Slot.value (Option.some.inj there)
    cases empty

theorem remove_get (named : r.get other = some w) (different : other ≠ handle) : (r.remove handle).2.get other = some w := by
  obtain ⟨place, generation, decoded, there⟩ := get_eq.mp named
  rcases remove_slots r handle with ⟨same, -⟩ | ⟨index, generation', value, decoded', here, -, removed⟩
  · rw [same]
    exact named
  · refine get_eq.mpr ⟨place, generation, decoded, ?_⟩
    rw [removed]
    by_cases same : index = place
    · subst same
      rw [here] at there
      cases there
      have encoded := (encodeHandle_decode decoded).1.symm.trans (encodeHandle_decode decoded').1
      exact absurd (Except.ok.inj encoded) different
    · exact (List.getElem?_set_ne same).trans there

variable {outputs : Registry OutputEntry} {owner : Nat} {entry : OutputEntry}

variable (outputs owner) in
theorem removeOwned_emptied : Emptied outputs (outputs.removeOwned owner) := by
  intro index
  unfold removeOwned
  rw [List.getElem?_map]
  cases here : outputs.slots[index]? with
  | none => exact .inl rfl
  | some slot =>
      obtain ⟨generation, held⟩ := slot
      cases held with
      | none => exact .inl rfl
      | some entry =>
          by_cases owned : entry.owner = owner
          · exact .inr ⟨generation, entry, rfl, by simp [owned]⟩
          · exact .inl (by simp [owned])

theorem removeOwned_holds (held : (outputs.removeOwned owner).Holds entry) : entry.owner ≠ owner := by
  rintro rfl
  obtain ⟨generation, member⟩ := held
  obtain ⟨slot, -, same⟩ := List.mem_map.mp member
  obtain ⟨generation', value⟩ := slot
  cases value with
  | none => cases same
  | some entry' =>
      dsimp only at same
      split at same
      · cases same
      · rename_i foreign
        cases same
        exact foreign rfl

theorem removeOwned_get (named : outputs.get handle = some entry) (foreign : entry.owner ≠ owner) :
    (outputs.removeOwned owner).get handle = some entry := by
  obtain ⟨index, generation, decoded, here⟩ := get_eq.mp named
  refine get_eq.mpr ⟨index, generation, decoded, ?_⟩
  unfold removeOwned
  rw [List.getElem?_map, here]
  simp [foreign]

end AppPilotKit.Ffi.Registry
