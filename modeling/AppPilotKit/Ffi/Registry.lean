import AppPilotKit.Lib.Runs

/-! # Handles

A registry keeps values in slots. A handle packs the place of a slot and the
generation of the slot, and removing a value moves its slot to the next
generation, so that the handle names nothing any more when the slot is used
again.
-/

namespace AppPilotKit.Ffi

variable {α : Type}

structure Slot (α : Type) where
  generation : Nat
  value : Option α
  deriving DecidableEq

structure Registry (α : Type) where
  slots : List (Slot α)
  deriving DecidableEq

/-- A slot number is one more than the place of the slot and has to fit a `u32`. -/
def encodeHandle (index generation : Nat) : Except Unit Nat :=
  if index + 1 < 2 ^ 32 then .ok (generation * 2 ^ 32 + (index + 1)) else .error ()

def decodeHandle (handle : Nat) : Option (Nat × Nat) :=
  if handle = 0 then none
  else
    let generation := handle / 2 ^ 32
    let slot := handle % 2 ^ 32
    if generation = 0 ∨ slot = 0 then none else some (slot - 1, generation)

/-- The generation after this one: it wraps past the largest `u32` and skips zero. -/
def nextGeneration (generation : Nat) : Nat :=
  let next := (generation + 1) % 2 ^ 32
  if next = 0 then 1 else next

namespace Registry

def new : Registry α := ⟨[]⟩

/-- The first slot without a value is used again; otherwise a slot is added. -/
def insert (r : Registry α) (value : α) : Except Unit Nat × Registry α :=
  match r.slots.zipIdx.find? (·.1.value.isNone) with
  | some (slot, index) =>
      (encodeHandle index slot.generation, ⟨r.slots.set index { slot with value := some value }⟩)
  | none => (encodeHandle r.slots.length 1, ⟨r.slots ++ [{ generation := 1, value := some value }]⟩)

def get (r : Registry α) (handle : Nat) : Option α :=
  match decodeHandle handle with
  | none => none
  | some (index, generation) =>
      match r.slots[index]? with
      | none => none
      | some slot => if slot.generation = generation then slot.value else none

def remove (r : Registry α) (handle : Nat) : Option α × Registry α :=
  match decodeHandle handle with
  | none => (none, r)
  | some (index, generation) =>
      match r.slots[index]? with
      | none => (none, r)
      | some slot =>
          if slot.generation ≠ generation then (none, r)
          else
            match slot.value with
            | none => (none, r)
            | some value => (some value, ⟨r.slots.set index { generation := nextGeneration slot.generation, value := none }⟩)

end Registry

/-! ## Packing -/

theorem decodeHandle_encode {index generation handle : Nat} (issued : encodeHandle index generation = .ok handle)
    (positive : generation ≠ 0) : decodeHandle handle = some (index, generation) := by
  unfold encodeHandle at issued
  split at issued
  · rename_i fits
    cases issued
    have high : (generation * 2 ^ 32 + (index + 1)) / 2 ^ 32 = generation := by omega
    have low : (generation * 2 ^ 32 + (index + 1)) % 2 ^ 32 = index + 1 := by omega
    unfold decodeHandle
    rw [if_neg (by omega)]
    simp only [high, low]
    rw [if_neg (by omega)]
    rfl
  · cases issued

theorem encodeHandle_decode {index generation handle : Nat} (decoded : decodeHandle handle = some (index, generation)) :
    encodeHandle index generation = .ok handle ∧ generation ≠ 0 := by
  unfold decodeHandle at decoded
  split at decoded
  · cases decoded
  · simp only at decoded
    split at decoded
    · cases decoded
    · rename_i both
      push Not at both
      simp only [Option.some.injEq, Prod.mk.injEq] at decoded
      obtain ⟨rfl, rfl⟩ := decoded
      have fits : handle % 2 ^ 32 - 1 + 1 < 2 ^ 32 := by omega
      unfold encodeHandle
      rw [if_pos fits]
      refine ⟨congrArg _ ?_, both.1⟩
      omega

theorem nextGeneration_of {generation : Nat} (room : generation + 1 < 2 ^ 32) :
    nextGeneration generation = generation + 1 := by
  unfold nextGeneration
  simp only [Nat.mod_eq_of_lt room]
  rw [if_neg (by omega)]

/-! ## What an operation does to the slots -/

namespace Registry

variable {r : Registry α} {handle : Nat} {value : α}

theorem get_eq : r.get handle = some value ↔
    ∃ index generation, decodeHandle handle = some (index, generation) ∧
      r.slots[index]? = some ⟨generation, some value⟩ := by
  unfold get
  constructor
  · intro found
    split at found
    · cases found
    · rename_i index generation decoded
      split at found
      · cases found
      · rename_i slot here
        split at found
        · rename_i same
          refine ⟨index, generation, decoded, here.trans ?_⟩
          rw [← same, ← found]
        · cases found
  · rintro ⟨index, generation, decoded, here⟩
    simp [decoded, here]

variable (r value) in
/-- A value goes to a free slot or a new one, and every other slot stays. -/
theorem insert_slots : ∃ index generation, (r.insert value).1 = encodeHandle index generation ∧
    (r.slots[index]? = some ⟨generation, none⟩ ∨ index = r.slots.length ∧ generation = 1) ∧
    (r.insert value).2.slots[index]? = some ⟨generation, some value⟩ ∧
    (∀ other, other ≠ index → (r.insert value).2.slots[other]? = r.slots[other]?) ∧
    r.slots.length ≤ (r.insert value).2.slots.length := by
  unfold insert
  split
  · rename_i slot index found
    have here : r.slots[index]? = some slot := List.mk_mem_zipIdx_iff_getElem?.mp (List.mem_of_find?_eq_some found)
    have empty : slot.value = none := by simpa using List.find?_some found
    obtain ⟨inside, -⟩ := List.getElem?_eq_some_iff.mp here
    refine ⟨index, slot.generation, rfl, .inl ?_, ?_, fun other different => ?_, ?_⟩
    · rw [here, ← empty]
    · rw [List.getElem?_set_self inside]
    · rw [List.getElem?_set_ne different.symm]
    · rw [List.length_set]
  · refine ⟨r.slots.length, 1, rfl, .inr ⟨rfl, rfl⟩, by simp, fun other different => ?_, by simp⟩
    rcases Nat.lt_or_ge other r.slots.length with inside | outside
    · rw [List.getElem?_append_left inside]
    · rw [List.getElem?_eq_none outside, List.getElem?_eq_none]
      simp only [List.length_append, List.length_singleton]
      omega

variable (r handle) in
/-- A handle that names nothing changes nothing; otherwise its slot is emptied
    and moves on. -/
theorem remove_slots : r.remove handle = (none, r) ∧ r.get handle = none ∨
    ∃ index generation value, decodeHandle handle = some (index, generation) ∧
      r.slots[index]? = some ⟨generation, some value⟩ ∧ r.get handle = some value ∧
      r.remove handle = (some value, ⟨r.slots.set index ⟨nextGeneration generation, none⟩⟩) := by
  unfold remove get
  cases decoded : decodeHandle handle with
  | none => exact .inl ⟨rfl, rfl⟩
  | some pair =>
      obtain ⟨index, generation⟩ := pair
      simp only
      cases here : r.slots[index]? with
      | none => exact .inl ⟨rfl, rfl⟩
      | some slot =>
          obtain ⟨generation', held⟩ := slot
          simp only
          by_cases same : generation' = generation
          · subst same
            simp only [ne_eq, not_true_eq_false, if_false, if_true]
            cases held with
            | none => exact .inl ⟨rfl, rfl⟩
            | some value => exact .inr ⟨index, generation', value, rfl, here, rfl, rfl⟩
          · rw [if_pos same, if_neg same]
            exact .inl ⟨rfl, rfl⟩

/-- Removing answers what looking up would. -/
theorem remove_answer : (r.remove handle).1 = r.get handle := by
  rcases remove_slots r handle with ⟨removed, none⟩ | ⟨_, _, value, -, -, found, removed⟩
  · rw [removed, none]
  · rw [removed, found]

end Registry

/-! ## What the handles of a run stand for -/

namespace Registry

variable {r : Registry α} {value : α}

/-- How many of the handles that are gone were handles of a slot. -/
def removals (index : Nat) (gone : List Nat) : Nat :=
  gone.countP fun handle => (decodeHandle handle).map Prod.fst = some index

/-- The slots are where the handles given out and the handles gone left them: a
    handle of an earlier generation of its slot is gone, one of the present
    generation names the value. -/
structure Kept (given : List (Nat × α)) (gone : List Nat) (r : Registry α) : Prop where
  generation : ∀ index slot, r.slots[index]? = some slot → slot.generation = 1 + removals index gone
  live : ∀ index generation value handle, r.slots[index]? = some ⟨generation, some value⟩ →
    encodeHandle index generation = .ok handle → (handle, value) ∈ given
  names : ∀ handle value, (handle, value) ∈ given → ∃ index generation slot,
    decodeHandle handle = some (index, generation) ∧ r.slots[index]? = some slot ∧
      (generation < slot.generation ∧ handle ∈ gone ∨ generation = slot.generation ∧ slot.value = some value)
  stale : ∀ handle ∈ gone, ∃ index generation slot,
    decodeHandle handle = some (index, generation) ∧ r.slots[index]? = some slot ∧ generation < slot.generation
  distinct : (given.map Prod.fst).Nodup
  once : gone.Nodup

namespace Kept

variable {given : List (Nat × α)} {gone : List Nat}

theorem start : Kept [] [] (new : Registry α) where
  generation index slot here := by simp [new] at here
  live index generation value handle here := by simp [new] at here
  names handle value given := by simp at given
  stale handle gone := by simp at gone
  distinct := by simp
  once := by simp

/-- What a handle names is what it was given out for, until it is gone. -/
theorem get_iff (kept : Kept given gone r) : r.get handle = some value ↔ (handle, value) ∈ given ∧ handle ∉ gone := by
  rw [get_eq]
  constructor
  · rintro ⟨index, generation, decoded, here⟩
    refine ⟨kept.live _ _ _ _ here (encodeHandle_decode decoded).1, fun removed => ?_⟩
    obtain ⟨index', generation', slot, decoded', here', older⟩ := kept.stale handle removed
    rw [decoded] at decoded'
    cases decoded'
    rw [here] at here'
    cases here'
    exact Nat.lt_irrefl _ older
  · rintro ⟨known, there⟩
    obtain ⟨index, generation, slot, decoded, here, ⟨-, removed⟩ | ⟨same, full⟩⟩ := kept.names handle value known
    · exact absurd removed there
    · refine ⟨index, generation, decoded, here.trans ?_⟩
      rw [same, ← full]

/-- A slot that is used again has a generation it never had, so its handle is new. -/
theorem insert (kept : Kept given gone r) (value : α) (room : (r.insert value).2.slots.length < 2 ^ 32 - 1) :
    ∃ handle, (r.insert value).1 = .ok handle ∧ Kept (given ++ [(handle, value)]) gone (r.insert value).2 := by
  obtain ⟨index, generation, answer, free, here, others, -⟩ := insert_slots r value
  have inside : index < (r.insert value).2.slots.length := (List.getElem?_eq_some_iff.mp here).1
  obtain ⟨handle, encoded⟩ : ∃ handle, encodeHandle index generation = .ok handle := ⟨_, if_pos (by omega)⟩
  -- the slot either was not there or has no value at this generation
  have vacant : ∀ slot, r.slots[index]? = some slot → slot.generation = generation ∧ slot.value = none := by
    intro slot there
    rcases free with free | ⟨rfl, -⟩
    · rw [free] at there
      cases there
      exact ⟨rfl, rfl⟩
    · simp at there
  have young : generation = 1 + removals index gone := by
    rcases free with free | ⟨rfl, rfl⟩
    · exact kept.generation _ _ free
    · have never : removals r.slots.length gone = 0 := by
        refine List.countP_eq_zero.mpr fun other member => ?_
        obtain ⟨index, _, slot, decoded, there, -⟩ := kept.stale other member
        have := (List.getElem?_eq_some_iff.mp there).1
        simp [decoded, this.ne]
      omega
  have decoded := decodeHandle_encode encoded (by omega)
  have fresh : ∀ value, (handle, value) ∉ given := by
    intro value known
    obtain ⟨index', generation', slot, decoded', there, age⟩ := kept.names handle value known
    rw [decoded] at decoded'
    cases decoded'
    obtain ⟨same, empty⟩ := vacant slot there
    rcases age with ⟨older, -⟩ | ⟨-, full⟩
    · omega
    · rw [empty] at full
      cases full
  -- a slot that was there is there still, at the same generation
  have stays : ∀ (other : Nat) (slot : Slot α), r.slots[other]? = some slot → ∃ slot' : Slot α, (r.insert value).2.slots[other]? = some slot' ∧
      slot'.generation = slot.generation ∧ (slot.value = none ∨ slot' = slot) := by
    intro other slot there
    by_cases same : other = index
    · subst same
      obtain ⟨generation', empty⟩ := vacant slot there
      exact ⟨_, here, generation'.symm, .inl empty⟩
    · exact ⟨slot, (others other same).trans there, rfl, .inr rfl⟩
  refine ⟨handle, answer.trans encoded, ?_, ?_, ?_, ?_, ?_, kept.once⟩
  · intro other slot there
    by_cases same : other = index
    · subst same
      rw [here] at there
      cases there
      exact young
    · exact kept.generation other slot ((others other same).symm.trans there)
  · intro other generation' value' handle' there encoded'
    by_cases same : other = index
    · subst same
      rw [here] at there
      cases there
      rw [encoded] at encoded'
      cases encoded'
      simp
    · exact List.mem_append_left _ (kept.live other _ _ _ ((others other same).symm.trans there) encoded')
  · intro handle' value' known
    rcases List.mem_append.mp known with old | new
    · obtain ⟨other, generation', slot, decoded', there, age⟩ := kept.names handle' value' old
      obtain ⟨slot', there', same, kept'⟩ := stays other slot there
      refine ⟨other, generation', slot', decoded', there', ?_⟩
      rcases age with ⟨older, removed⟩ | ⟨present, full⟩
      · exact .inl ⟨by omega, removed⟩
      · rcases kept' with empty | rfl
        · rw [empty] at full
          cases full
        · exact .inr ⟨present, full⟩
    · cases List.mem_singleton.mp new
      exact ⟨index, generation, _, decoded, here, .inr ⟨rfl, rfl⟩⟩
  · intro handle' removed
    obtain ⟨other, generation', slot, decoded', there, older⟩ := kept.stale handle' removed
    obtain ⟨slot', there', same, -⟩ := stays other slot there
    exact ⟨other, generation', slot', decoded', there', by omega⟩
  · rw [List.map_append, List.nodup_append]
    refine ⟨kept.distinct, by simp, fun old member new same => ?_⟩
    obtain ⟨⟨_, value'⟩, known, rfl⟩ := List.mem_map.mp member
    rw [List.mem_singleton.mp same]
    rintro rfl
    exact fresh value' known

/-- A slot that is emptied moves on, so its handle is gone. -/
theorem remove (kept : Kept given gone r) {handle : Nat} (named : r.get handle = some value)
    (room : ∀ index, removals index (gone ++ [handle]) < 2 ^ 32 - 1) :
    Kept given (gone ++ [handle]) (r.remove handle).2 := by
  have known := kept.get_iff.mp named
  rcases remove_slots r handle with ⟨-, none⟩ | ⟨index, generation, value', decoded, here, found, removed⟩
  · rw [none] at named
    cases named
  rw [removed]
  have inside := (List.getElem?_eq_some_iff.mp here).1
  have counted : ∀ other, removals other (gone ++ [handle]) = removals other gone + if other = index then 1 else 0 := by
    intro other
    by_cases same : other = index
    · simp [removals, List.countP_append, decoded, same]
    · simp [removals, List.countP_append, decoded, same, Ne.symm same]
  have age := kept.generation _ _ here
  have room := room index
  rw [counted, if_pos rfl] at room
  simp only at age
  have next : nextGeneration generation = generation + 1 := nextGeneration_of (by omega)
  have here' : (r.slots.set index ⟨nextGeneration generation, none⟩)[index]? = some ⟨generation + 1, none⟩ := by
    rw [List.getElem?_set_self inside, next]
  have others : ∀ other, other ≠ index → (r.slots.set index ⟨nextGeneration generation, none⟩)[other]? = r.slots[other]? :=
    fun other different => List.getElem?_set_ne different.symm
  refine ⟨?_, ?_, ?_, ?_, kept.distinct, ?_⟩
  · intro other slot there
    rw [counted]
    by_cases same : other = index
    · subst same
      rw [here'] at there
      cases there
      simp only [if_true]
      omega
    · rw [if_neg same]
      exact kept.generation other slot ((others other same).symm.trans there)
  · intro other generation' value'' handle' there encoded
    by_cases same : other = index
    · subst same
      rw [here'] at there
      cases there
    · exact kept.live other _ _ _ ((others other same).symm.trans there) encoded
  · intro handle' value'' known'
    obtain ⟨other, generation', slot, decoded', there, age'⟩ := kept.names handle' value'' known'
    by_cases same : other = index
    · subst same
      rw [here] at there
      cases there
      refine ⟨other, generation', _, decoded', here', .inl ?_⟩
      rcases age' with ⟨older, removed'⟩ | ⟨present, -⟩
      · exact ⟨by simp only at older ⊢; omega, List.mem_append_left _ removed'⟩
      · simp only at present
        subst present
        have same := (encodeHandle_decode decoded').1.symm.trans (encodeHandle_decode decoded).1
        cases same
        exact ⟨Nat.lt_succ_self _, by simp⟩
    · refine ⟨other, generation', slot, decoded', (others other same).trans there, ?_⟩
      exact age'.imp_left fun ⟨older, removed'⟩ => ⟨older, List.mem_append_left _ removed'⟩
  · intro handle' removed'
    rcases List.mem_append.mp removed' with old | new
    · obtain ⟨other, generation', slot, decoded', there, older⟩ := kept.stale handle' old
      by_cases same : other = index
      · subst same
        rw [here] at there
        cases there
        exact ⟨other, generation', _, decoded', here', by simp only at older ⊢; omega⟩
      · exact ⟨other, generation', slot, decoded', (others other same).trans there, older⟩
    · cases List.mem_singleton.mp new
      exact ⟨index, generation, _, decoded, here', Nat.lt_succ_self _⟩
  · rw [List.nodup_append]
    refine ⟨kept.once, by simp, fun old member new same => ?_⟩
    rw [List.mem_singleton.mp same]
    rintro rfl
    exact known.2 member

end Kept

/-! ## Runs -/

inductive Op (α : Type) where
  | insert (value : α)
  | remove (handle : Nat)

inductive Answer (α : Type) where
  | handle (issued : Except Unit Nat)
  | value (removed : Option α)

def step (r : Registry α) : Op α → Answer α × Registry α
  | .insert value => (.handle (r.insert value).1, (r.insert value).2)
  | .remove handle => (.value (r.remove handle).1, (r.remove handle).2)

abbrev Past (α : Type) := List (Runs.Step (Registry α) (Op α) (Answer α))

/-- The handles given out in a run, with what they were given out for. -/
def issued (past : Past α) : List (Nat × α) :=
  past.filterMap fun b =>
    match b.input, b.output with
    | .insert value, .handle (.ok handle) => some (handle, value)
    | _, _ => none

/-- The handles whose value was removed in a run. -/
def removed (past : Past α) : List Nat :=
  past.filterMap fun b =>
    match b.input, b.output with
    | .remove handle, .value (some _) => some handle
    | _, _ => none

/-- Neither the slots nor the generations of a slot are exhausted. -/
structure Within (ops : List (Op α)) : Prop where
  slots : (Runs.final step new ops).slots.length < 2 ^ 32 - 1
  removals : ∀ index, removals index (removed (Runs.trace step new ops)) < 2 ^ 32 - 1

theorem step_length (r : Registry α) (op : Op α) : r.slots.length ≤ (r.step op).2.slots.length := by
  cases op with
  | insert value =>
      obtain ⟨_, _, -, -, -, -, longer⟩ := insert_slots r value
      exact longer
  | remove handle =>
      rcases remove_slots r handle with ⟨removed, -⟩ | ⟨_, _, _, -, -, -, removed⟩
      · simp [step, removed]
      · simp [step, removed]

theorem issued_append (front back : Past α) : issued (front ++ back) = issued front ++ issued back :=
  List.filterMap_append

theorem removed_append (front back : Past α) : removed (front ++ back) = removed front ++ removed back :=
  List.filterMap_append

theorem step_kept {past : Past α} (kept : Kept (issued past) (removed past) r) (op : Op α)
    (slots : (r.step op).2.slots.length < 2 ^ 32 - 1)
    (counts : ∀ index, removals index (removed (past ++ [⟨r, op, (r.step op).1, (r.step op).2⟩])) < 2 ^ 32 - 1) :
    Kept (issued (past ++ [⟨r, op, (r.step op).1, (r.step op).2⟩]))
        (removed (past ++ [⟨r, op, (r.step op).1, (r.step op).2⟩])) (r.step op).2 ∧
      ∀ value, op = .insert value → ∃ handle, (r.step op).1 = .handle (.ok handle) := by
  rw [removed_append] at counts
  rw [issued_append, removed_append]
  cases op with
  | insert value =>
      obtain ⟨handle, answer, kept'⟩ := kept.insert value slots
      refine ⟨?_, fun _ _ => ⟨handle, by simp [step, answer]⟩⟩
      simpa [issued, removed, step, answer] using kept'
  | remove handle =>
      refine ⟨?_, fun _ other => by cases other⟩
      cases named : r.get handle with
      | none =>
          rcases remove_slots r handle with ⟨gone, -⟩ | ⟨_, _, _, -, -, found, -⟩
          · simpa [issued, removed, step, gone] using kept
          · rw [named] at found
            cases found
      | some value =>
          have answer : (r.remove handle).1 = some value := remove_answer.trans named
          have room : ∀ index, removals index (removed past ++ [handle]) < 2 ^ 32 - 1 := by
            simpa [removed, step, answer] using counts
          simpa [issued, removed, step, answer] using kept.remove named room

/-- By induction on the run: the bounds at its end held all the way. -/
theorem run_kept {ops : List (Op α)} (within : Within ops) :
    Kept (issued (Runs.trace step new ops)) (removed (Runs.trace step new ops)) (Runs.final step new ops) ∧
      ∀ b ∈ Runs.trace step new ops, ∀ value, b.input = .insert value → ∃ handle, b.output = .handle (.ok handle) := by
  induction ops using List.reverseRecOn with
  | nil => exact ⟨.start, by simp [Runs.trace]⟩
  | append_singleton ops op ih =>
      obtain ⟨slots, counts⟩ := within
      rw [Runs.trace_append] at counts ⊢
      rw [Runs.final_append] at slots ⊢
      have earlier : Within ops := by
        refine ⟨(step_length _ op).trans_lt slots, fun index => Nat.lt_of_le_of_lt ?_ (counts index)⟩
        rw [removed_append, removals, removals, List.countP_append]
        exact Nat.le_add_right _ _
      obtain ⟨kept, answered⟩ := ih earlier
      obtain ⟨kept', answer⟩ := step_kept kept op slots counts
      refine ⟨kept', fun b member => ?_⟩
      rcases List.mem_append.mp member with old | new
      · exact answered b old
      · rw [List.mem_singleton.mp new]
        exact answer

/-- While neither slots nor generations run out, a handle names the value it was
    given out for until that is removed, and nothing before or after. -/
theorem handles_name_once {ops : List (Op α)} (within : Within ops) :
    (∀ b ∈ Runs.trace step new ops, ∀ value, b.input = .insert value → ∃ handle, b.output = .handle (.ok handle)) ∧
    ((issued (Runs.trace step new ops)).map Prod.fst).Nodup ∧
    (∀ handle value, (handle, value) ∈ issued (Runs.trace step new ops) → handle ≠ 0 ∧
      ∃ index generation, encodeHandle index generation = .ok handle ∧
        decodeHandle handle = some (index, generation)) ∧
    (∀ handle value, (Runs.final step new ops).get handle = some value ↔
      (handle, value) ∈ issued (Runs.trace step new ops) ∧ handle ∉ removed (Runs.trace step new ops)) ∧
    (∀ handle, ((Runs.final step new ops).remove handle).1 = (Runs.final step new ops).get handle) ∧
    (removed (Runs.trace step new ops)).Nodup ∧
    (∀ later, Within (ops ++ later) → ∀ handle ∈ removed (Runs.trace step new ops),
      (Runs.final step new (ops ++ later)).get handle = none) := by
  obtain ⟨kept, answered⟩ := run_kept within
  refine ⟨answered, kept.distinct, ?_, fun _ _ => kept.get_iff, fun _ => remove_answer, kept.once, ?_⟩
  · intro handle value given
    obtain ⟨index, generation, slot, decoded, -⟩ := kept.names handle value given
    refine ⟨?_, index, generation, (encodeHandle_decode decoded).1, decoded⟩
    rintro rfl
    cases decoded
  · intro later within' handle gone
    obtain ⟨kept', -⟩ := run_kept within'
    rw [Runs.trace_append, removed_append] at kept'
    cases found : (Runs.final step new (ops ++ later)).get handle with
    | none => rfl
    | some value => exact absurd (List.mem_append_left _ gone) (kept'.get_iff.mp found).2

/-- A slot that is used again: its first handle names nothing any more. -/
theorem slot_used_again :
    Within [.insert 'a', .remove (2 ^ 32 + 1), .insert 'b'] ∧
      (Runs.final step new [.insert 'a', .remove (2 ^ 32 + 1), .insert 'b']).get (2 ^ 32 + 1) = none ∧
      (Runs.final step new [.insert 'a', .remove (2 ^ 32 + 1), .insert 'b']).get (2 * 2 ^ 32 + 1) = some 'b' := by
  have within : Within [.insert 'a', .remove (2 ^ 32 + 1), .insert 'b'] :=
    ⟨by decide, fun index => List.countP_le_length.trans_lt (by decide)⟩
  obtain ⟨-, -, -, names, -⟩ := handles_name_once within
  refine ⟨within, ?_, (names _ _).mpr (by decide)⟩
  cases found : (Runs.final step new [.insert 'a', .remove (2 ^ 32 + 1), .insert 'b']).get (2 ^ 32 + 1) with
  | none => rfl
  | some value => exact absurd (by decide) ((names _ _).mp found).2

end Registry

end AppPilotKit.Ffi
