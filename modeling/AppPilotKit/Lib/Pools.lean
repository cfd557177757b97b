import AppPilotKit.Lib.Scripts
import Mathlib.Algebra.BigOperators.Group.List.Basic
import Mathlib.Logic.Relation

/-! # Scripts that share a state

Threads follow their scripts in any interleaving; a request and its reply are one atomic step on
the state that they share. What a thread owns of that state is counted beside it. If every request
that a thread may make keeps the state in step with all that is owned, every run does.
-/

namespace Scripts

section
variable {Q : Type} {A : Q → Type} {L S R α : Type}

/-- A script that is being followed: under whose name, what it owns, and its steps so far, the
    latest first. -/
structure Thread (Q : Type) (A : Q → Type) (L R α : Type) where
  label : L
  script : Script Q A α
  owned : R
  past : List (Step Q A R)

structure Pool (Q : Type) (A : Q → Type) (L S R α : Type) where
  shared : S
  threads : List (Thread Q A L R α)

/-- What a request and its reply make of what the thread owns. -/
abbrev Owning (Q : Type) (A : Q → Type) (R : Type) := (q : Q) → A q → R → R

/-- How a pool moves: a thread makes a request, what has come to an end is passed on to other
    threads, or a thread is started that owns nothing. -/
inductive Pool.Moves [Zero R] (w : World Q A S) (own : Owning Q A R)
    (passes : Thread Q A L R α → List (Thread Q A L R α) → Prop) (starts : L → Script Q A α → Prop) :
    Pool Q A L S R α → Pool Q A L S R α → Prop where
  | ask {s s' : S} {front back : List (Thread Q A L R α)} {label : L} {q : Q} {rest : A q → Script Q A α} {owned : R}
      {past : List (Step Q A R)} {reply : A q} (may : w s q reply s') :
      Moves w own passes starts ⟨s, front ++ ⟨label, .ask q rest, owned, past⟩ :: back⟩
        ⟨s', front ++ ⟨label, rest reply, own q reply owned, ⟨owned, q, reply, own q reply owned⟩ :: past⟩ :: back⟩
  | pass {s : S} {front new back : List (Thread Q A L R α)} {thread : Thread Q A L R α} (may : passes thread new) :
      Moves w own passes starts ⟨s, front ++ thread :: back⟩ ⟨s, front ++ new ++ back⟩
  | start {s : S} {threads : List (Thread Q A L R α)} {label : L} {script : Script Q A α} (may : starts label script) :
      Moves w own passes starts ⟨s, threads⟩ ⟨s, threads ++ [⟨label, script, 0, []⟩]⟩

/-- The world as a thread sees it: what it owns, and what it is told. -/
def ownWorld (own : Owning Q A R) (told : R → (q : Q) → A q → Prop) : World Q A R :=
  fun owned q reply owned' => told owned q reply ∧ owned' = own q reply owned

/-- A thread is fine as long as each of its requests is, and its script ends as stated. -/
def Thread.Fine (own : Owning Q A R) (told : R → (q : Q) → A q → Prop) (g : L → Guard Q A R)
    (post : L → α → R → List (Step Q A R) → Prop) (thread : Thread Q A L R α) : Prop :=
  thread.script.Safe (ownWorld own told) (g thread.label) (post thread.label) thread.owned thread.past

/-! ## One thread at a time -/

/-- Follow a script for some requests in a world that has one answer. -/
def Script.advance (answer : S → (q : Q) → A q × S) : Nat → S → Script Q A α → Script Q A α × S
  | 0, s, script => (script, s)
  | _ + 1, s, .done value => (.done value, s)
  | _ + 1, s, .cut => (.cut, s)
  | fuel + 1, s, .ask q rest => Script.advance answer fuel (answer s q).2 (rest (answer s q).1)

/-- A pool may follow one of its threads. -/
theorem Pool.moves_advance [Zero R] {w : World Q A S} {own : Owning Q A R}
    {passes : Thread Q A L R α → List (Thread Q A L R α) → Prop} {starts : L → Script Q A α → Prop}
    (answer : S → (q : Q) → A q × S) (may : ∀ s q, w s q (answer s q).1 (answer s q).2) (fuel : Nat) :
    ∀ (s : S) (front back : List (Thread Q A L R α)) (label : L) (script : Script Q A α) (owned : R) (past : List (Step Q A R)),
      ∃ owned' past', Relation.ReflTransGen (Pool.Moves w own passes starts) ⟨s, front ++ ⟨label, script, owned, past⟩ :: back⟩
        ⟨(script.advance answer fuel s).2, front ++ ⟨label, (script.advance answer fuel s).1, owned', past'⟩ :: back⟩ := by
  induction fuel with
  | zero => exact fun s front back label script owned past => ⟨owned, past, .refl⟩
  | succ fuel ih =>
      intro s front back label script owned past
      cases script with
      | done value => exact ⟨owned, past, .refl⟩
      | cut => exact ⟨owned, past, .refl⟩
      | ask q rest =>
          obtain ⟨owned', past', later⟩ := ih (answer s q).2 front back label (rest (answer s q).1)
            (own q (answer s q).1 owned) (⟨owned, q, (answer s q).1, own q (answer s q).1 owned⟩ :: past)
          exact ⟨owned', past', .head (.ask (may s q)) later⟩

/-! ## What every run keeps -/

variable [AddCommMonoid R] {w : World Q A S} {own : Owning Q A R} {told : R → (q : Q) → A q → Prop}
  {g : L → Guard Q A R} {post : L → α → R → List (Step Q A R) → Prop} {represents : S → R → Prop}
  {passes : Thread Q A L R α → List (Thread Q A L R α) → Prop} {starts : L → Script Q A α → Prop}
  {pool pool' : Pool Q A L S R α}

/-- All that is owned by the threads of a pool. -/
def Pool.owned (pool : Pool Q A L S R α) : R := (pool.threads.map Thread.owned).sum

theorem Pool.owned_split {s : S} {front back : List (Thread Q A L R α)} {thread : Thread Q A L R α} :
    Pool.owned ⟨s, front ++ thread :: back⟩ = thread.owned + ((front.map Thread.owned).sum + (back.map Thread.owned).sum) := by
  simp only [Pool.owned, List.map_append, List.map_cons, List.sum_append, List.sum_cons]
  exact add_left_comm _ _ _

/-- A request that a thread may make keeps the state in step, whatever the others own. -/
def Keeping (w : World Q A S) (own : Owning Q A R) (told : R → (q : Q) → A q → Prop) (g : L → Guard Q A R)
    (represents : S → R → Prop) : Prop :=
  ∀ label s owned frame past q reply s', represents s (owned + frame) → g label owned past q → w s q reply s' →
    told owned q reply ∧ represents s' (own q reply owned + frame)

/-- What is passed on is all that was owned, and goes to threads that are fine. -/
def Passing (own : Owning Q A R) (told : R → (q : Q) → A q → Prop) (g : L → Guard Q A R)
    (post : L → α → R → List (Step Q A R) → Prop) (passes : Thread Q A L R α → List (Thread Q A L R α) → Prop) : Prop :=
  ∀ thread new, passes thread new → thread.Fine own told g post →
    (∀ other ∈ new, other.Fine own told g post) ∧ (new.map Thread.owned).sum = thread.owned

/-- The state is in step with all that is owned, and every thread is fine. -/
structure Pool.Sound (own : Owning Q A R) (told : R → (q : Q) → A q → Prop) (g : L → Guard Q A R)
    (post : L → α → R → List (Step Q A R) → Prop) (represents : S → R → Prop) (pool : Pool Q A L S R α) : Prop where
  step : represents pool.shared pool.owned
  fine : ∀ thread ∈ pool.threads, thread.Fine own told g post

theorem Pool.Moves.sound (keeping : Keeping w own told g represents) (passing : Passing own told g post passes)
    (starting : ∀ label script, starts label script → Thread.Fine own told g post ⟨label, script, 0, []⟩)
    (moves : Pool.Moves w own passes starts pool pool') (sound : pool.Sound own told g post represents) :
    pool'.Sound own told g post represents := by
  obtain ⟨step, fine⟩ := sound
  cases moves with
  | @ask s s' front back label q rest owned past reply may =>
      obtain ⟨asks, goes⟩ := fine _ (List.mem_append_right _ List.mem_cons_self)
      rw [Pool.owned_split] at step
      obtain ⟨tells, step⟩ := keeping label s owned _ past q reply s' step asks may
      refine ⟨by rw [Pool.owned_split]; exact step, fun thread there => ?_⟩
      rcases List.mem_append.1 there with before | here
      · exact fine thread (List.mem_append_left _ before)
      · rcases List.mem_cons.1 here with rfl | after
        · exact goes reply _ ⟨tells, rfl⟩
        · exact fine thread (List.mem_append_right _ (List.mem_cons_of_mem _ after))
  | @pass s front new back thread may =>
      obtain ⟨others, whole⟩ := passing thread new may (fine _ (List.mem_append_right _ List.mem_cons_self))
      refine ⟨?_, fun other there => ?_⟩
      · rw [Pool.owned_split, ← whole] at step
        simp only [Pool.owned, List.map_append, List.sum_append]
        rw [add_assoc, add_left_comm]
        exact step
      · rcases List.mem_append.1 there with there | after
        · rcases List.mem_append.1 there with before | here
          · exact fine other (List.mem_append_left _ before)
          · exact others other here
        · exact fine other (List.mem_append_right _ (List.mem_cons_of_mem _ after))
  | @start s threads label script may =>
      refine ⟨?_, fun other there => ?_⟩
      · simpa [Pool.owned] using step
      · rcases List.mem_append.1 there with before | here
        · exact fine other before
        · rw [List.mem_singleton.1 here]
          exact starting label script may

/-- What holds of a pool of no threads holds of every pool it becomes. -/
theorem Pool.Sound.run (keeping : Keeping w own told g represents) (passing : Passing own told g post passes)
    (starting : ∀ label script, starts label script → Thread.Fine own told g post ⟨label, script, 0, []⟩)
    (sound : pool.Sound own told g post represents)
    (run : Relation.ReflTransGen (Pool.Moves w own passes starts) pool pool') : pool'.Sound own told g post represents := by
  induction run with
  | refl => exact sound
  | tail _ moves ih => exact moves.sound keeping passing starting ih

end

end Scripts
