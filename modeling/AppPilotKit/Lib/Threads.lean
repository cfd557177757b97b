import AppPilotKit.Lib.Runs

/-! # Interleaved calls on a shared state

Calls enter at any time and take their atomic steps in any order. An invariant is given in
three parts: what holds of the shared state, what holds of one call beside it, and what
holds between two calls. A step of one call must keep its own part and must not disturb
the part of any other call.
-/

namespace Threads

variable {σ γ ε ι : Type}

/-- How a call starts and what its steps do. -/
structure Machine (σ γ ε ι : Type) where
  start : ε → γ
  next : σ → γ → ι → σ × γ

/-- The shared state and the calls, in the order they entered. -/
structure Pool (σ γ : Type) where
  shared : σ
  calls : List γ

inductive Move (ε ι : Type) where
  | enter (argument : ε)
  | advance (who : Nat) (input : ι)

variable (m : Machine σ γ ε ι)

/-- One step of one call, or a new call. -/
def Machine.move (pool : Pool σ γ) : Move ε ι → Pool σ γ
  | .enter argument => { pool with calls := pool.calls ++ [m.start argument] }
  | .advance who input =>
      match pool.calls[who]? with
      | some call => ⟨(m.next pool.shared call input).1, pool.calls.set who (m.next pool.shared call input).2⟩
      | none => pool

def Machine.step (pool : Pool σ γ) (move : Move ε ι) : Unit × Pool σ γ := ((), m.move pool move)

/-- The pool after a run. -/
def Machine.run (pool : Pool σ γ) (moves : List (Move ε ι)) : Pool σ γ := Runs.final m.step pool moves

/-- The steps that calls took in a run, with the shared state and the call before each. -/
def Machine.taken (pool : Pool σ γ) : List (Move ε ι) → List (σ × γ × ι)
  | [] => []
  | .advance who input :: rest =>
      (match pool.calls[who]? with
      | some call => [(pool.shared, call, input)]
      | none => []) ++ taken (m.move pool (.advance who input)) rest
  | .enter argument :: rest => taken (m.move pool (.enter argument)) rest

/-- The three parts of an invariant. It may speak about the first calls, which are there
    from the start. -/
structure Parts (σ γ : Type) where
  first : Nat := 0
  shared : σ → Prop
  own : Nat → σ → γ → Prop
  apart : γ → γ → Prop

structure Parts.Hold (parts : Parts σ γ) (pool : Pool σ γ) : Prop where
  entered : parts.first ≤ pool.calls.length
  shared : parts.shared pool.shared
  own : ∀ (i : Nat) call, pool.calls[i]? = some call → parts.own i pool.shared call
  apart : ∀ (i j : Nat) call other, i ≠ j → pool.calls[i]? = some call → pool.calls[j]? = some other → parts.apart call other

/-- A call may enter, and a step of a call that meets the condition keeps all three parts. -/
structure Parts.Kept (parts : Parts σ γ) (allowed : σ → γ → ι → Prop) : Prop where
  enters : ∀ i s argument, parts.first ≤ i → parts.shared s → parts.own i s (m.start argument) ∧
    ∀ other, parts.apart (m.start argument) other ∧ parts.apart other (m.start argument)
  advances : ∀ i s call input, parts.shared s → parts.own i s call → allowed s call input →
    parts.shared (m.next s call input).1 ∧ parts.own i (m.next s call input).1 (m.next s call input).2
  leaves : ∀ i j s call input other, i ≠ j → parts.shared s → parts.own i s call → parts.own j s other →
    parts.apart call other → parts.apart other call → allowed s call input →
    parts.own j (m.next s call input).1 other ∧ parts.apart (m.next s call input).2 other ∧
      parts.apart other (m.next s call input).2

variable {m}

theorem Machine.move_enter (pool : Pool σ γ) (argument : ε) :
    m.move pool (.enter argument) = { pool with calls := pool.calls ++ [m.start argument] } := rfl

theorem Machine.move_advance {pool : Pool σ γ} {who : Nat} {call : γ} (found : pool.calls[who]? = some call) (input : ι) :
    m.move pool (.advance who input) =
      ⟨(m.next pool.shared call input).1, pool.calls.set who (m.next pool.shared call input).2⟩ := by
  simp only [Machine.move, found]

theorem Machine.move_absent {pool : Pool σ γ} {who : Nat} (absent : pool.calls[who]? = none) (input : ι) :
    m.move pool (.advance who input) = pool := by
  simp only [Machine.move, absent]

section
variable {parts : Parts σ γ} {allowed : σ → γ → ι → Prop} {pool : Pool σ γ}

theorem Parts.Hold.enter (hold : parts.Hold pool) (kept : parts.Kept m allowed) (argument : ε) :
    parts.Hold (m.move pool (.enter argument)) := by
  have appended {i : Nat} {call : γ} (found : (pool.calls ++ [m.start argument])[i]? = some call) :
      pool.calls[i]? = some call ∨ i = pool.calls.length ∧ call = m.start argument := by
    by_cases inside : i < pool.calls.length
    · rw [List.getElem?_append_left inside] at found
      exact .inl found
    · rw [List.getElem?_append_right (by omega)] at found
      have first : i - pool.calls.length = 0 := by
        by_contra later
        rw [List.getElem?_eq_none (by simp only [List.length_singleton]; omega)] at found
        cases found
      rw [first] at found
      refine .inr ⟨by omega, ?_⟩
      simpa using found.symm
  have fresh := kept.enters pool.calls.length pool.shared argument hold.entered hold.shared
  refine ⟨?_, hold.shared, fun i call found => ?_, fun i j call other distinct found there => ?_⟩
  · rw [Machine.move_enter, List.length_append]
    exact hold.entered.trans (Nat.le_add_right _ _)
  · rcases appended found with before | ⟨rfl, rfl⟩
    · exact hold.own i call before
    · exact fresh.1
  · rcases appended found with before | ⟨rfl, rfl⟩
    · rcases appended there with also | ⟨rfl, rfl⟩
      · exact hold.apart i j call other distinct before also
      · exact (fresh.2 call).2
    · rcases appended there with also | ⟨rfl, rfl⟩
      · exact (fresh.2 other).1
      · exact absurd rfl distinct

theorem Parts.Hold.advance (hold : parts.Hold pool) (kept : parts.Kept m allowed) {who : Nat} {call : γ}
    (found : pool.calls[who]? = some call) {input : ι} (meets : allowed pool.shared call input) :
    parts.Hold (m.move pool (.advance who input)) := by
  rw [Machine.move_advance found]
  have own := hold.own who call found
  have advanced := kept.advances who pool.shared call input hold.shared own meets
  have others (j : Nat) (other : γ) (distinct : who ≠ j) (there : pool.calls[j]? = some other) :=
    kept.leaves who j pool.shared call input other distinct hold.shared own (hold.own j other there)
      (hold.apart who j call other distinct found there) (hold.apart j who other call distinct.symm there found) meets
  have inside : who < pool.calls.length := (List.getElem?_eq_some_iff.mp found).1
  have changed {j : Nat} {other : γ}
      (there : (pool.calls.set who (m.next pool.shared call input).2)[j]? = some other) :
      j = who ∧ other = (m.next pool.shared call input).2 ∨ who ≠ j ∧ pool.calls[j]? = some other := by
    by_cases same : who = j
    · subst same
      rw [List.getElem?_set_self inside] at there
      exact .inl ⟨rfl, (Option.some.inj there).symm⟩
    · rw [List.getElem?_set_ne same] at there
      exact .inr ⟨same, there⟩
  refine ⟨?_, advanced.1, fun j other there => ?_, fun i j first second distinct here there => ?_⟩
  · rw [List.length_set]
    exact hold.entered
  · rcases changed there with ⟨rfl, rfl⟩ | ⟨distinct, there⟩
    · exact advanced.2
    · exact (others j other distinct there).1
  · rcases changed here with ⟨rfl, rfl⟩ | ⟨apartI, before⟩
    · rcases changed there with ⟨rfl, rfl⟩ | ⟨apartJ, also⟩
      · exact absurd rfl distinct
      · exact (others j second apartJ also).2.1
    · rcases changed there with ⟨rfl, rfl⟩ | ⟨apartJ, also⟩
      · exact (others i first apartI before).2.2
      · exact hold.apart i j first second distinct before also

/-- The invariant holds after every run whose steps meet the condition. -/
theorem Parts.Hold.run (kept : parts.Kept m allowed) (hold : parts.Hold pool) (moves : List (Move ε ι))
    (meets : ∀ step ∈ m.taken pool moves, allowed step.1 step.2.1 step.2.2) : parts.Hold (m.run pool moves) := by
  induction moves generalizing pool with
  | nil => exact hold
  | cons move rest ih =>
      cases move with
      | enter argument => exact ih (hold.enter kept argument) meets
      | advance who input =>
          have moved : parts.Hold (m.move pool (.advance who input)) → parts.Hold (m.run pool (.advance who input :: rest)) :=
            fun after => ih after fun step member => meets step (List.mem_append_right _ member)
          apply moved
          cases found : pool.calls[who]? with
          | none =>
              rw [Machine.move_absent found]
              exact hold
          | some call =>
              refine hold.advance kept found ?_
              exact meets (pool.shared, call, input) (List.mem_append_left _ (by simp [found]))

end

theorem Machine.run_append (pool : Pool σ γ) (front back : List (Move ε ι)) :
    m.run pool (front ++ back) = m.run (m.run pool front) back := Runs.final_append pool front back

theorem Machine.taken_append (pool : Pool σ γ) (front back : List (Move ε ι)) :
    m.taken pool (front ++ back) = m.taken pool front ++ m.taken (m.run pool front) back := by
  induction front generalizing pool with
  | nil => rfl
  | cons move rest ih =>
      cases move with
      | enter argument => exact ih _
      | advance who input =>
          simp only [List.cons_append, Machine.taken, ih, List.append_assoc]
          rfl

/-- A step that was taken, with the pool in which it was. -/
theorem Machine.mem_taken {pool : Pool σ γ} {moves : List (Move ε ι)} {step : σ × γ × ι} (member : step ∈ m.taken pool moves) :
    ∃ front back who, moves = front ++ .advance who step.2.2 :: back ∧ (m.run pool front).shared = step.1 ∧
      (m.run pool front).calls[who]? = some step.2.1 := by
  induction moves generalizing pool with
  | nil => cases member
  | cons move rest ih =>
      have later : step ∈ m.taken (m.move pool move) rest → _ := fun member => ih member
      have append : ∀ {front back who}, rest = front ++ .advance who step.2.2 :: back →
          (m.run (m.move pool move) front).shared = step.1 → (m.run (m.move pool move) front).calls[who]? = some step.2.1 →
          ∃ front back who, move :: rest = front ++ .advance who step.2.2 :: back ∧ (m.run pool front).shared = step.1 ∧
            (m.run pool front).calls[who]? = some step.2.1 := by
        intro front back who same shared found
        exact ⟨move :: front, back, who, by rw [same, List.cons_append], shared, found⟩
      cases move with
      | enter argument =>
          obtain ⟨front, back, who, same, shared, found⟩ := later member
          exact append same shared found
      | advance who input =>
          rcases List.mem_append.mp member with here | member
          · cases found : pool.calls[who]? with
            | none => simp [found] at here
            | some call =>
                simp only [found, List.mem_singleton] at here
                subst here
                exact ⟨[], rest, who, rfl, rfl, found⟩
          · obtain ⟨front, back, who, same, shared, found⟩ := later member
            exact append same shared found

end Threads
