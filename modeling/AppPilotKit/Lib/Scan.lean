import Mathlib

/-! # Scanning an input by position

A scanner holds the whole input and the position it has come to. Here are the pieces of the
input between two positions, the loop that goes on while a predicate holds, and the longest run,
which is what that loop passes over.
-/

namespace Scan

variable {α : Type} (input : List α)

/-- What stands from `first` to before `last`. -/
def between (first last : Nat) : List α := (input.drop first).take (last - first)

/-- The same, when both are positions of the input. -/
def part (first last : Nat) : Option (List α) :=
  if first ≤ last ∧ last ≤ input.length then some (between input first last) else none

/-- `while input[cursor] is in p, cursor += 1` -/
def advanceWhile (p : α → Bool) (cursor : Nat) : Nat :=
  if h : cursor < input.length then
    if p input[cursor] then advanceWhile p (cursor + 1) else cursor
  else cursor
termination_by input.length - cursor

/-- A run of elements in `p`. -/
structure Run (p : α → Bool) (first last : Nat) : Prop where
  ordered : first ≤ last
  inside : last ≤ input.length
  all : ∀ a ∈ between input first last, p a

/-- A run that does not go on. -/
structure Longest (p : α → Bool) (first last : Nat) : Prop extends Run input p first last where
  stops : ∀ a, input[last]? = some a → p a = false

variable {input} {p : α → Bool} {a : α} {first middle last : Nat}

/-! ## Positions and pieces -/

theorem lt_of_at (here : input[first]? = some a) : first < input.length :=
  (List.getElem?_eq_some_iff.mp here).1

theorem drop_at (here : input[first]? = some a) : input.drop first = a :: input.drop (first + 1) := by
  obtain ⟨inside, same⟩ := List.getElem?_eq_some_iff.mp here
  rw [List.drop_eq_getElem_cons inside, same]

@[simp] theorem between_self : between input first first = [] := by simp [between]

theorem between_at (here : input[first]? = some a) (before : first < last) :
    between input first last = a :: between input (first + 1) last := by
  obtain ⟨gap, same⟩ := Nat.exists_eq_add_of_lt before
  rw [between, between, drop_at here, same, show first + gap + 1 - first = gap + 1 by omega,
    show first + gap + 1 - (first + 1) = gap by omega, List.take_succ_cons]

theorem between_append (early : first ≤ middle) (late : middle ≤ last) :
    between input first middle ++ between input middle last = between input first last := by
  obtain ⟨before, rfl⟩ := Nat.exists_eq_add_of_le early
  obtain ⟨after, rfl⟩ := Nat.exists_eq_add_of_le late
  rw [between, between, between, Nat.add_sub_cancel_left, Nat.add_sub_cancel_left, Nat.add_assoc,
    Nat.add_sub_cancel_left, List.take_add, List.drop_drop]

theorem between_snoc (here : input[last]? = some a) (ordered : first ≤ last) :
    between input first (last + 1) = between input first last ++ [a] := by
  rw [← between_append ordered (Nat.le_succ last), between_at here (Nat.lt_succ_self last), between_self]

/-- The input falls into what is between two positions and what follows. -/
theorem between_drop (ordered : first ≤ last) : between input first last ++ input.drop last = input.drop first := by
  obtain ⟨gap, rfl⟩ := Nat.exists_eq_add_of_le ordered
  rw [between, Nat.add_sub_cancel_left, ← List.drop_drop, List.take_append_drop]

theorem length_between (ordered : first ≤ last) (inside : last ≤ input.length) :
    (between input first last).length = last - first := by
  rw [between, List.length_take, List.length_drop]
  omega

theorem part_some {piece : List α} :
    part input first last = some piece ↔ first ≤ last ∧ last ≤ input.length ∧ between input first last = piece := by
  unfold part
  split
  · next inside => simp only [Option.some.injEq, inside, true_and]
  · next outside => simp only [reduceCtorEq, false_iff]; exact fun ⟨ordered, inside, _⟩ => outside ⟨ordered, inside⟩

/-- The pair at a position. -/
theorem part_pair {b : α} : part input first (first + 2) = some [a, b] ↔ input[first]? = some a ∧ input[first + 1]? = some b := by
  constructor
  · intro pair
    obtain ⟨-, inside, same⟩ := part_some.mp pair
    have here := List.getElem?_eq_getElem (show first < input.length by omega)
    have next := List.getElem?_eq_getElem (show first + 1 < input.length by omega)
    rw [between_at here (by omega), between_at next (by omega), between_self] at same
    simp only [List.cons.injEq, and_true] at same
    rw [here, next, same.1, same.2]
    exact ⟨rfl, rfl⟩
  · rintro ⟨here, next⟩
    have inside := lt_of_at next
    refine part_some.mpr ⟨by omega, by omega, ?_⟩
    rw [between_at here (by omega), between_at next (by omega), between_self]

/-! ## Runs -/

theorem Run.refl (inside : first ≤ input.length) : Run input p first first where
  ordered := le_rfl
  inside := inside
  all := by simp

theorem Run.cons (here : input[first]? = some a) (good : p a) (run : Run input p (first + 1) last) : Run input p first last where
  ordered := by have := run.ordered; omega
  inside := run.inside
  all := by
    rw [between_at here run.ordered]
    exact List.forall_mem_cons.mpr ⟨good, run.all⟩

/-- A run is empty, or it is an element and a run. -/
theorem Run.cases (run : Run input p first last) :
    first = last ∨ ∃ a, input[first]? = some a ∧ p a ∧ Run input p (first + 1) last := by
  rcases Nat.eq_or_lt_of_le run.ordered with same | before
  · exact .inl same
  · have here := List.getElem?_eq_getElem (Nat.lt_of_lt_of_le before run.inside)
    have all := run.all
    rw [between_at here before] at all
    obtain ⟨good, others⟩ := List.forall_mem_cons.mp all
    exact .inr ⟨_, here, good, before, run.inside, others⟩

theorem Run.at (run : Run input p first last) (early : first ≤ middle) (late : middle < last) :
    ∃ a, input[middle]? = some a ∧ p a := by
  have here := List.getElem?_eq_getElem (Nat.lt_of_lt_of_le late run.inside)
  refine ⟨_, here, run.all _ ?_⟩
  rw [← between_append early (Nat.le_of_lt late), between_at here late]
  exact List.mem_append_right _ List.mem_cons_self

/-- A run is over where an element is not in the predicate. -/
theorem Run.le_of_stops (run : Run input p first last) (early : first ≤ middle)
    (stops : ∀ a, input[middle]? = some a → p a = false) : last ≤ middle := by
  refine Nat.le_of_not_lt fun late => ?_
  obtain ⟨a, here, good⟩ := run.at early late
  exact Bool.noConfusion (good.symm.trans (stops a here))

/-! ## The loop -/

theorem advanceWhile_in (here : input[first]? = some a) (good : p a) :
    advanceWhile input p first = advanceWhile input p (first + 1) := by
  obtain ⟨inside, same⟩ := List.getElem?_eq_some_iff.mp here
  rw [advanceWhile, dif_pos inside, if_pos (same ▸ good)]

theorem advanceWhile_stop (stops : ∀ a, input[first]? = some a → p a = false) : advanceWhile input p first = first := by
  rw [advanceWhile]
  split
  · next inside => rw [if_neg (by simp [stops _ (List.getElem?_eq_getElem inside)])]
  · rfl

theorem le_advanceWhile (p : α → Bool) (first : Nat) : first ≤ advanceWhile input p first := by
  fun_induction advanceWhile input p first <;> omega

/-- The loop passes over the longest run. -/
theorem advanceWhile_longest (first : Nat) (inside : first ≤ input.length) :
    Longest input p first (advanceWhile input p first) := by
  fun_induction advanceWhile input p first with
  | case1 cursor before good ih =>
      have rest := ih before
      exact { Run.cons (List.getElem?_eq_getElem before) good rest.toRun with stops := rest.stops }
  | case2 cursor before bad =>
      refine { Run.refl inside with stops := fun a here => ?_ }
      rw [List.getElem?_eq_getElem before, Option.some.injEq] at here
      exact here ▸ Bool.not_eq_true _ ▸ bad
  | case3 cursor past =>
      refine { Run.refl inside with stops := fun a here => ?_ }
      exact absurd (lt_of_at here) past

/-- After a run the loop is where it is after what follows the run. -/
theorem Run.advanceWhile (run : Run input p first last) : Scan.advanceWhile input p first = Scan.advanceWhile input p last := by
  obtain ⟨gap, same⟩ := Nat.exists_eq_add_of_le run.ordered
  induction gap generalizing first with
  | zero => rw [same, Nat.add_zero]
  | succ gap ih =>
      rcases run.cases with done | ⟨a, here, good, rest⟩
      · omega
      · rw [advanceWhile_in here good]
        exact ih rest (by omega)

theorem Longest.advanceWhile (longest : Longest input p first last) : Scan.advanceWhile input p first = last :=
  longest.toRun.advanceWhile.trans (advanceWhile_stop longest.stops)

end Scan
