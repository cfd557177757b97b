import AppPilotKit.Snapshot.Runtime

/-! # Runs of the snapshot runtime

One step either leaves the store alone, commits one snapshot or invalidates one
scope. Operations start in call order, each after the one before it has finished.
-/

namespace AppPilotKit.Snapshot

section
variable {encodedSize : StoredSnapshotRecord → Option Nat} {r r' : UISnapshotRuntime} {output : Output}

/-- The phases that an operation moves to without a commit, with what its step answers. -/
inductive Phase.Outcome (index : Nat) : Phase → Output → Prop where
  | suspended (provider rest captures) : Outcome index (.capturing provider rest captures) (.suspended index)
  | failed (error) : Outcome index (.finished (.error error)) (.finished index (.error error))

/-- What one step does. -/
inductive Move (r : UISnapshotRuntime) : Input → Output → UISnapshotRuntime → Prop where
  | rejected (requested scope error) : Move r (.capture requested scope) (.rejected error) r
  | ignored (input) : Move r input .ignored r
  | resolved (identity scope) : Move r (.resolve identity scope) (.resolved (r.store.resolve identity scope)) r
  | trapped (index result token check) : Move r (.provide index result token check) .trapped { r with trapped := true }
  | accepted (requested scope first rest) : Move r (.capture requested scope) (.accepted r.operations.length)
      { r with operations := r.operations ++ [{ scope, first, rest, phase := .waiting }] }
  | started {index operation phase output} (cancelled) (found : r.operations[index]? = some operation)
      (waiting : operation.phase = .waiting) (previous : r.previousFinished index = true)
      (outcome : phase.Outcome index output) : Move r (.start index cancelled) output (r.withPhase index phase)
  | advanced {index operation provider rest captures phase output} (result token check)
      (found : r.operations[index]? = some operation) (capturing : operation.phase = .capturing provider rest captures)
      (outcome : phase.Outcome index output) :
      Move r (.provide index result token check) output (r.withPhase index phase)
  | committed {index operation provider rest captures snapshot store} (result token check)
      (found : r.operations[index]? = some operation) (capturing : operation.phase = .capturing provider rest captures)
      (generation : snapshot.identity.generation = r.store.nextGeneration)
      (fits : snapshot.storedBytes ≤ r.limits.maximumStoredBytes) (scope : snapshot.scope = operation.scope)
      (commit : r.store.commit r.limits snapshot = some store) :
      Move r (.provide index result token check) (.finished index (.ok snapshot))
        ({ r with store }.withPhase index (.finished (.ok snapshot)))
  | invalidated (scope) : Move r (.invalidate scope) .invalidated { r with store := r.store.invalidate scope }

theorem prepare_spec {limits : UISnapshotStoreLimits} {store : Store} {scope : UISnapshotScope}
    {captures : List Captured} {token : String} {check : Check → Bool} {snapshot : StoredUISnapshot}
    (prepared : prepare encodedSize limits store scope captures token check = .ok snapshot) :
    snapshot.identity.generation = store.nextGeneration ∧ snapshot.storedBytes ≤ limits.maximumStoredBytes ∧
      snapshot.scope = scope := by
  unfold prepare at prepared
  cases valid : validateCaptures check 0 captures [] with
  | error error =>
      rw [valid] at prepared
      cases prepared
  | ok _ =>
      simp only [valid, bind, Except.bind, pure, Except.pure, throw, throwThe, MonadExceptOf.throw] at prepared
      split at prepared
      · cases prepared
      · split at prepared
        · cases prepared
        · split at prepared
          · cases prepared
          · split at prepared
            · cases prepared
            · rename_i within
              split at prepared
              · cases prepared
              · split at prepared
                · cases prepared
                · cases prepared
                  exact ⟨rfl, Nat.le_of_not_lt within, rfl⟩

theorem complete_move {index : Nat} {operation : Operation} {provider : UIProviderDescriptor}
    {rest : List UIProviderDescriptor} {before : List Captured} (captures : List Captured) (result : ProviderResult)
    (token : String) (check : Check → Bool) (found : r.operations[index]? = some operation)
    (capturing : operation.phase = .capturing provider rest before) :
    Move r (.provide index result token check) (r.complete encodedSize index operation.scope captures token check).1
      (r.complete encodedSize index operation.scope captures token check).2 := by
  unfold UISnapshotRuntime.complete
  cases prepared : prepare encodedSize r.limits r.store operation.scope captures token check with
  | error error => exact .advanced _ _ _ found capturing (.failed error)
  | ok snapshot =>
      obtain ⟨generation, fits, scope⟩ := prepare_spec prepared
      cases commit : r.store.commit r.limits snapshot with
      | some store =>
          simp only [commit]
          exact .committed _ _ _ found capturing generation fits scope commit
      | none =>
          simp only [commit]
          exact .trapped _ _ _ _

theorem step_move (encodedSize : StoredSnapshotRecord → Option Nat) (r : UISnapshotRuntime) (input : Input) :
    Move r input (r.step encodedSize input).1 (r.step encodedSize input).2 := by
  unfold UISnapshotRuntime.step
  split
  · exact .ignored input
  · cases input with
    | capture requested scope =>
        dsimp only
        split
        · exact .rejected requested scope _
        · exact .accepted requested scope _ _
    | start index cancelled =>
        dsimp only
        split
        · rename_i first rest found
          split
          · exact .ignored _
          · rename_i previous
            have finished : r.previousFinished index = true := by simpa using previous
            split
            · exact .started cancelled found rfl finished (.failed .cancelled)
            · exact .started cancelled found rfl finished (.suspended _ _ _)
        · exact .ignored _
    | provide index result token check =>
        dsimp only
        split
        · rename_i operation found
          split
          · rename_i provider rest captures capturing
            unfold UISnapshotRuntime.provide
            split
            · exact .advanced _ _ _ found capturing (.failed _)
            · exact .advanced _ _ _ found capturing (.failed _)
            · split
              · exact .advanced _ _ _ found capturing (.failed _)
              · split
                · exact .advanced _ _ _ found capturing (.failed _)
                · split
                  · exact .advanced _ _ _ found capturing (.suspended _ _ _)
                  · exact complete_move _ _ _ _ found capturing
          · exact .ignored _
        · exact .ignored _
    | resolve identity scope => exact .resolved identity scope
    | invalidate scope => exact .invalidated scope

/-! ## The operations -/

def phaseAt (operations : List Operation) (index : Nat) : Option Phase := (operations[index]?).map (·.phase)

theorem phaseAt_found {operations : List Operation} {index : Nat} {operation : Operation}
    (found : operations[index]? = some operation) : phaseAt operations index = some operation.phase := by
  unfold phaseAt
  rw [found]
  rfl

theorem phaseAt_withPhase {index : Nat} {operation : Operation} (found : r.operations[index]? = some operation)
    (phase : Phase) (i : Nat) :
    phaseAt (r.withPhase index phase).operations i = if i = index then some phase else phaseAt r.operations i := by
  unfold phaseAt UISnapshotRuntime.withPhase
  rw [List.getElem?_modify]
  split
  · rename_i same
    rw [if_pos same.symm, ← same, found]
    rfl
  · rename_i differs
    rw [if_neg (fun same => differs same.symm)]
    simp

theorem phaseAt_append {operations : List Operation} {operation : Operation} {i : Nat} {phase : Phase}
    (at_i : phaseAt (operations ++ [operation]) i = some phase) :
    phaseAt operations i = some phase ∨ i = operations.length ∧ phase = operation.phase := by
  unfold phaseAt at *
  rcases Nat.lt_trichotomy i operations.length with small | same | large
  · rw [List.getElem?_append_left small] at at_i
    exact .inl at_i
  · subst same
    rw [List.getElem?_concat_length] at at_i
    exact .inr ⟨rfl, (Option.some.inj at_i).symm⟩
  · rw [List.getElem?_append_right (Nat.le_of_lt large)] at at_i
    obtain ⟨n, eq⟩ : ∃ n, i - operations.length = n + 1 := ⟨i - operations.length - 1, by omega⟩
    rw [eq] at at_i
    cases at_i

theorem phaseAt_before {operations : List Operation} {i j : Nat} {phase : Phase} (smaller : i < j)
    (at_j : phaseAt operations j = some phase) : ∃ before, phaseAt operations i = some before := by
  unfold phaseAt at *
  have inside : j < operations.length := by
    by_contra outside
    rw [List.getElem?_eq_none (Nat.le_of_not_lt outside)] at at_j
    cases at_j
  rw [List.getElem?_eq_getElem (smaller.trans inside)]
  exact ⟨_, rfl⟩

/-- Every operation before one that has started is finished. -/
def Serial (operations : List Operation) : Prop :=
  ∀ i j phase, i < j → phaseAt operations j = some phase → phase ≠ .waiting →
    ∃ result, phaseAt operations i = some (.finished result)

/-- Later operations committed later snapshots. -/
structure InCallOrder (r : UISnapshotRuntime) : Prop where
  past : ∀ i snapshot, phaseAt r.operations i = some (.finished (.ok snapshot)) →
    snapshot.identity.generation < r.store.nextGeneration
  increasing : ∀ i j older newer, i < j → phaseAt r.operations i = some (.finished (.ok older)) →
    phaseAt r.operations j = some (.finished (.ok newer)) → older.identity.generation < newer.identity.generation

structure Healthy (r : UISnapshotRuntime) : Prop where
  good : r.store.Good r.limits
  serial : Serial r.operations
  ordered : InCallOrder r

/-- An operation that has not finished may move, once all before it have finished. -/
theorem Serial.move {index : Nat} {operation : Operation} (serial : Serial r.operations)
    (found : r.operations[index]? = some operation) (unfinished : ∀ result, operation.phase ≠ .finished result)
    (first : ∀ i < index, ∃ result, phaseAt r.operations i = some (.finished result)) (phase : Phase) :
    Serial (r.withPhase index phase).operations := by
  intro i j later smaller at_j moved
  rw [phaseAt_withPhase found] at at_j ⊢
  have differs : i ≠ index := by
    rintro rfl
    rw [if_neg (Nat.ne_of_gt smaller)] at at_j
    obtain ⟨result, finished⟩ := serial i j later smaller at_j moved
    rw [phaseAt_found found] at finished
    exact unfinished result (Option.some.inj finished)
  rw [if_neg differs]
  split at at_j
  · rename_i same
    rw [same] at smaller
    exact first i smaller
  · exact serial i j later smaller at_j moved

/-- The predecessor of a starting operation has finished, and so have all before that. -/
theorem Serial.first {index : Nat} (serial : Serial r.operations) (previous : r.previousFinished index = true) :
    ∀ i < index, ∃ result, phaseAt r.operations i = some (.finished result) := by
  intro i smaller
  obtain ⟨before, rfl⟩ : ∃ before, index = before + 1 := ⟨index - 1, by omega⟩
  have finished : ∃ result, phaseAt r.operations before = some (.finished result) := by
    unfold UISnapshotRuntime.previousFinished at previous
    simp only [Nat.add_sub_cancel] at previous
    cases there : r.operations[before]? with
    | none => simp [there] at previous
    | some operation =>
        obtain ⟨scope, provider, rest, phase⟩ := operation
        cases phase with
        | waiting => simp [there] at previous
        | capturing => simp [there] at previous
        | finished result => exact ⟨result, phaseAt_found there⟩
  rcases Nat.lt_or_eq_of_le (Nat.lt_succ_iff.mp smaller) with earlier | rfl
  · obtain ⟨result, eq⟩ := finished
    exact serial i before _ earlier eq (by simp)
  · exact finished

/-- Operations whose move commits nothing. -/
theorem InCallOrder.move {index : Nat} {operation : Operation} (ordered : InCallOrder r)
    (found : r.operations[index]? = some operation) {phase : Phase} (empty : ∀ snapshot, phase ≠ .finished (.ok snapshot)) :
    InCallOrder (r.withPhase index phase) := by
  have old {i : Nat} {snapshot : StoredUISnapshot}
      (at_i : phaseAt (r.withPhase index phase).operations i = some (.finished (.ok snapshot))) :
      phaseAt r.operations i = some (.finished (.ok snapshot)) := by
    rw [phaseAt_withPhase found] at at_i
    split at at_i
    · exact absurd (Option.some.inj at_i) (empty snapshot)
    · exact at_i
  exact ⟨fun i snapshot at_i => ordered.past i snapshot (old at_i),
    fun i j older newer smaller at_i at_j => ordered.increasing i j older newer smaller (old at_i) (old at_j)⟩

theorem Phase.Outcome.empty {index : Nat} {phase : Phase} (outcome : phase.Outcome index output) :
    ∀ snapshot, phase ≠ .finished (.ok snapshot) := by
  intro snapshot
  cases outcome with
  | suspended => simp
  | failed => simp

/-- Every step keeps the runtime healthy. -/
theorem Move.healthy {input : Input} (h : Healthy r) (move : Move r input output r') : Healthy r' := by
  cases move with
  | rejected | ignored | resolved => exact h
  | trapped => exact ⟨h.good, h.serial, ⟨h.ordered.past, h.ordered.increasing⟩⟩
  | accepted requested scope first rest =>
      refine ⟨h.good, fun i j phase smaller at_j moved => ?_, ⟨fun i snapshot at_i => ?_,
        fun i j older newer smaller at_i at_j => ?_⟩⟩
      · rcases phaseAt_append at_j with old | ⟨-, waiting⟩
        · obtain ⟨result, finished⟩ := h.serial i j phase smaller old moved
          refine ⟨result, ?_⟩
          obtain ⟨before, at_i⟩ := phaseAt_before smaller at_j
          rcases phaseAt_append at_i with kept | ⟨last, -⟩
          · rw [at_i, ← finished, kept]
          · subst last
            unfold phaseAt at finished
            rw [List.getElem?_eq_none (Nat.le_refl _)] at finished
            cases finished
        · exact absurd waiting moved
      · rcases phaseAt_append at_i with old | ⟨-, waiting⟩
        · exact h.ordered.past i snapshot old
        · cases waiting
      · rcases phaseAt_append at_i with old | ⟨-, waiting⟩
        · rcases phaseAt_append at_j with old' | ⟨-, waiting⟩
          · exact h.ordered.increasing i j older newer smaller old old'
          · cases waiting
        · cases waiting
  | started cancelled found waiting previous outcome =>
      exact ⟨h.good, h.serial.move found (fun result => by simp [waiting]) (h.serial.first previous) _,
        h.ordered.move found outcome.empty⟩
  | advanced result token check found capturing outcome =>
      refine ⟨h.good, h.serial.move found (fun result => by simp [capturing]) (fun i smaller => ?_) _,
        h.ordered.move found outcome.empty⟩
      exact h.serial i _ _ smaller (phaseAt_found found) (by simp [capturing])
  | committed result token check found capturing generation fits scope commit =>
      rename_i index operation provider rest captures snapshot store
      have before := fun i smaller => h.serial i index _ smaller (phaseAt_found found) (by simp [capturing])
      obtain ⟨good, next, -, -, -⟩ := Store.commit_spec h.good generation fits commit
      refine ⟨good, h.serial.move found (fun result => by simp [capturing]) before _, ⟨fun i other at_i => ?_,
        fun i j older newer smaller at_i at_j => ?_⟩⟩
      · rw [phaseAt_withPhase (r := { r with store }) found] at at_i
        show other.identity.generation < store.nextGeneration
        rw [next]
        split at at_i
        · cases at_i
          omega
        · have small := h.ordered.past i other at_i
          omega
      · rw [phaseAt_withPhase (r := { r with store }) found] at at_i at_j
        split at at_j
        · rename_i same
          rw [if_neg (by omega)] at at_i
          cases at_j
          rw [generation]
          exact h.ordered.past i older at_i
        · split at at_i
          · -- an operation after the one that commits has not started
            rename_i same
            rw [same] at smaller
            obtain ⟨other, finished⟩ := h.serial index j _ smaller at_j (by simp)
            rw [phaseAt_found found, capturing] at finished
            cases finished
          · exact h.ordered.increasing i j older newer smaller at_i at_j
  | invalidated scope => exact ⟨h.good.invalidate scope, h.serial, ⟨h.ordered.past, h.ordered.increasing⟩⟩

end

end AppPilotKit.Snapshot
