import Mathlib

/-! # Programs that take turns on a shared state

A program is a tree of atomic steps. Any number of programs run at once, one step at a
time and in any order; a program may wait for a condition and may start another program.
What a thread may rely on is stated once, as a relation between the states around a step
of any thread: a thread keeps to it at every step of its own, and takes every other step
of the pool to keep to it as well.
-/

namespace Programs

/-- A program over the shared state `σ` whose steps read an input `ι` and which ends with
    a value `α`. A step knows the number of its thread; `ε` names what may be started. -/
inductive Prog (σ ι ε α : Type) where
  | done (value : α)
  | act (ready : σ → ι → Bool) (run : Nat → σ → ι → σ) (rest : Nat → σ → ι → Prog σ ι ε α)
  | fork (child : ε) (run : Nat → Nat → σ → σ) (rest : Prog σ ι ε α)

section
variable {σ ι ε α β : Type}

namespace Prog

protected def bind : Prog σ ι ε α → (α → Prog σ ι ε β) → Prog σ ι ε β
  | .done value, next => next value
  | .act ready run rest, next => .act ready run fun who s i => (rest who s i).bind next
  | .fork child run rest, next => .fork child run (rest.bind next)

instance : Monad (Prog σ ι ε) where
  pure := .done
  bind := Prog.bind

/-- A step that waits until it may be taken. -/
def await (ready : σ → ι → Bool) (f : Nat → σ → ι → σ × α) : Prog σ ι ε α :=
  .act ready (fun who s i => (f who s i).1) fun who s i => .done (f who s i).2

/-- Start another program; `run` hands over to it what it will own. -/
def spawn (child : ε) (run : Nat → Nat → σ → σ) : Prog σ ι ε Unit := .fork child run (.done ())

end Prog

/-- What a thread does to the shared state in one step, and what a started program may
    count on. -/
structure Discipline (σ ε : Type) where
  step : Nat → σ → σ → Prop
  passed : ε → σ → Prop

/-- What any number of steps may have done meanwhile. -/
def Discipline.Later (d : Discipline σ ε) : σ → σ → Prop := Relation.ReflTransGen fun s t => ∃ who, d.step who s t

/-- From a state on, every step of the program keeps to the discipline, and it ends as
    stated. -/
def Prog.Keeps (d : Discipline σ ε) (me : Nat) (post : α → σ → Prop) : Prog σ ι ε α → σ → Prop
  | .done value, s => post value s
  | .act ready run rest, s => ∀ t i, d.Later s t → ready t i = true →
      d.step me t (run me t i) ∧ (rest me t i).Keeps d me post (run me t i)
  | .fork child run rest, s => ∀ t c, d.Later s t →
      d.step me t (run me c t) ∧ d.passed child (run me c t) ∧ rest.Keeps d me post (run me c t)

namespace Prog

variable {d : Discipline σ ε} {me : Nat} {s t : σ}

theorem keeps_bind {p : Prog σ ι ε α} {next : α → Prog σ ι ε β} {post : β → σ → Prop} :
    (p >>= next).Keeps d me post s ↔ p.Keeps d me (fun value s => (next value).Keeps d me post s) s := by
  change (p.bind next).Keeps d me post s ↔ _
  induction p generalizing s with
  | done value => rfl
  | act ready run rest ih => simp only [Prog.bind, Keeps, ih]
  | fork child run rest ih => simp only [Prog.bind, Keeps, ih]

theorem Keeps.mono {p : Prog σ ι ε α} {post post' : α → σ → Prop} (kept : p.Keeps d me post s)
    (weaker : ∀ value s, post value s → post' value s) : p.Keeps d me post' s := by
  induction p generalizing s with
  | done value => exact weaker value s kept
  | act ready run rest ih =>
      intro t i later here
      obtain ⟨step, after⟩ := kept t i later here
      exact ⟨step, ih _ _ _ after⟩
  | fork child run rest ih =>
      intro t c later
      obtain ⟨step, passed, after⟩ := kept t c later
      exact ⟨step, passed, ih after⟩

/-- What every step preserves still holds when a program ends. -/
theorem Keeps.stable {p : Prog σ ι ε α} {post : α → σ → Prop} {fact : σ → Prop} (kept : p.Keeps d me post s)
    (stable : ∀ s t, d.Later s t → fact s → fact t) (holds : fact s) : p.Keeps d me (fun value t => post value t ∧ fact t) s := by
  induction p generalizing s with
  | done value => exact ⟨kept, holds⟩
  | act ready run rest ih =>
      intro t i later here
      obtain ⟨step, after⟩ := kept t i later here
      exact ⟨step, ih _ _ _ after (stable s _ (later.tail ⟨me, step⟩) holds)⟩
  | fork child run rest ih =>
      intro t c later
      obtain ⟨step, passed, after⟩ := kept t c later
      exact ⟨step, passed, ih after (stable s _ (later.tail ⟨me, step⟩) holds)⟩

/-- Steps of the other threads do not disturb a program that has not ended. -/
theorem Keeps.later {p : Prog σ ι ε Unit} (kept : p.Keeps d me (fun _ _ => True) s) (later : d.Later s t) :
    p.Keeps d me (fun _ _ => True) t := by
  cases p with
  | done value => trivial
  | act ready run rest => exact fun u i further => kept u i (later.trans further)
  | fork child run rest => exact fun u c further => kept u c (later.trans further)

end Prog

/-- The programs that calls and started threads run. -/
structure System (σ ι ε ρ : Type) where
  entry : ρ → Prog σ ι ε Unit
  child : ε → Prog σ ι ε Unit

/-- The shared state and the threads, in the order they came. -/
structure Pool (σ ι ε : Type) where
  shared : σ
  threads : List (Prog σ ι ε Unit)

inductive Move (ρ ι : Type) where
  | enter (request : ρ)
  | advance (who : Nat) (input : ι)

variable {ρ : Type} (system : System σ ι ε ρ)

/-- One step of one thread, or a new call. A thread that waits or has ended stays. -/
def System.move (pool : Pool σ ι ε) : Move ρ ι → Pool σ ι ε
  | .enter request => { pool with threads := pool.threads ++ [system.entry request] }
  | .advance who input =>
      match pool.threads[who]? with
      | some (.act ready run rest) =>
          if ready pool.shared input then
            ⟨run who pool.shared input, pool.threads.set who (rest who pool.shared input)⟩
          else pool
      | some (.fork child run rest) =>
          ⟨run who pool.threads.length pool.shared, pool.threads.set who rest ++ [system.child child]⟩
      | some (.done _) => pool
      | none => pool

def System.run (pool : Pool σ ι ε) (moves : List (Move ρ ι)) : Pool σ ι ε := moves.foldl system.move pool

/-- Every thread keeps to the discipline from here on. -/
def Pool.Orderly (d : Discipline σ ε) (pool : Pool σ ι ε) : Prop :=
  ∀ (who : Nat) program, pool.threads[who]? = some program → program.Keeps d who (fun _ _ => True) pool.shared

/-- The programs of the system keep to the discipline. -/
structure System.Follows (d : Discipline σ ε) : Prop where
  entries : ∀ request who s, (system.entry request).Keeps d who (fun _ _ => True) s
  children : ∀ child who s, d.passed child s → (system.child child).Keeps d who (fun _ _ => True) s

variable {system} {d : Discipline σ ε} {pool : Pool σ ι ε}

/-- After a step of one thread the others are where they were. -/
theorem Pool.Orderly.after (orderly : pool.Orderly d) {who : Nat} {t : σ} (step : d.step who pool.shared t)
    {next : Prog σ ι ε Unit} (kept : next.Keeps d who (fun _ _ => True) t) :
    Pool.Orderly d ⟨t, pool.threads.set who next⟩ := by
  intro other program found
  rw [List.getElem?_set] at found
  split at found
  · rename_i same
    subst same
    split at found
    · exact Option.some.inj found ▸ kept
    · cases found
  · exact (orderly other program found).later (.single ⟨who, step⟩)

theorem Pool.Orderly.enter (orderly : pool.Orderly d) {program : Prog σ ι ε Unit}
    (kept : ∀ who, program.Keeps d who (fun _ _ => True) pool.shared) :
    Pool.Orderly d ⟨pool.shared, pool.threads ++ [program]⟩ := by
  intro who found there
  rw [List.getElem?_append] at there
  split at there
  · exact orderly who found there
  · rw [List.getElem?_singleton] at there
    split at there
    · exact Option.some.inj there ▸ kept who
    · cases there

/-- One move is one step of the discipline, or none. -/
theorem Pool.Orderly.move (orderly : pool.Orderly d) (follows : system.Follows d) (move : Move ρ ι) :
    (system.move pool move).Orderly d ∧
      ((system.move pool move).shared = pool.shared ∨ ∃ who, d.step who pool.shared (system.move pool move).shared) := by
  cases move with
  | enter request => exact ⟨orderly.enter fun who => follows.entries request who _, .inl rfl⟩
  | advance who input =>
      simp only [System.move]
      split
      · rename_i ready run rest found
        split
        · rename_i here
          obtain ⟨step, after⟩ := orderly who _ found _ _ .refl here
          exact ⟨orderly.after step after, .inr ⟨who, step⟩⟩
        · exact ⟨orderly, .inl rfl⟩
      · rename_i child run rest found
        obtain ⟨step, passed, after⟩ := orderly who _ found _ pool.threads.length .refl
        exact ⟨(orderly.after step after).enter fun who => follows.children child who _ passed, .inr ⟨who, step⟩⟩
      · exact ⟨orderly, .inl rfl⟩
      · exact ⟨orderly, .inl rfl⟩

theorem Pool.Orderly.run (orderly : pool.Orderly d) (follows : system.Follows d) (moves : List (Move ρ ι)) :
    (system.run pool moves).Orderly d ∧ d.Later pool.shared (system.run pool moves).shared := by
  induction moves generalizing pool with
  | nil => exact ⟨orderly, .refl⟩
  | cons move rest ih =>
      obtain ⟨moved, step⟩ := orderly.move follows move
      obtain ⟨ended, later⟩ := ih moved
      refine ⟨ended, .trans ?_ later⟩
      rcases step with same | step
      · rw [same]
      · exact .single step

theorem System.run_append (pool : Pool σ ι ε) (first second : List (Move ρ ι)) :
    system.run pool (first ++ second) = system.run (system.run pool first) second := List.foldl_append

end

end Programs
