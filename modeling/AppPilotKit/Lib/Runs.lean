import Mathlib

/-! # Runs of a deterministic machine

A machine answers every input and moves to a next state. A run is a list of
inputs; `trace` records each step with the states around it. An invariant that
one step preserves holds after every run.
-/

namespace Runs

variable {σ ι ο : Type}

/-- One recorded step. -/
structure Step (σ ι ο : Type) where
  before : σ
  input : ι
  output : ο
  after : σ

/-- The steps of a run. -/
def trace (step : σ → ι → ο × σ) : σ → List ι → List (Step σ ι ο)
  | _, [] => []
  | s, i :: rest => ⟨s, i, (step s i).1, (step s i).2⟩ :: trace step (step s i).2 rest

/-- The answers of a run. -/
def outputs (step : σ → ι → ο × σ) (s : σ) (inputs : List ι) : List ο := (trace step s inputs).map (·.output)

/-- The state after a run. -/
def final (step : σ → ι → ο × σ) (s : σ) (inputs : List ι) : σ :=
  inputs.foldl (fun s i => (step s i).2) s

variable {step : σ → ι → ο × σ}

@[simp] theorem final_nil (s : σ) : final step s [] = s := rfl

@[simp] theorem final_cons (s : σ) (i : ι) (rest : List ι) :
    final step s (i :: rest) = final step (step s i).2 rest := rfl

theorem final_append (s : σ) (front back : List ι) :
    final step s (front ++ back) = final step (final step s front) back := by
  simp [final, List.foldl_append]

@[simp] theorem outputs_nil (s : σ) : outputs step s [] = [] := rfl

@[simp] theorem outputs_cons (s : σ) (i : ι) (rest : List ι) :
    outputs step s (i :: rest) = (step s i).1 :: outputs step (step s i).2 rest := rfl

theorem trace_append (s : σ) (front back : List ι) :
    trace step s (front ++ back) = trace step s front ++ trace step (final step s front) back := by
  induction front generalizing s with
  | nil => rfl
  | cons i rest ih => simp only [List.cons_append, trace, ih, final_cons]

theorem outputs_length (step : σ → ι → ο × σ) (s : σ) (inputs : List ι) :
    (outputs step s inputs).length = inputs.length := by
  induction inputs generalizing s with
  | nil => rfl
  | cons i inputs ih => simp [ih]

theorem outputs_append (s : σ) (front back : List ι) :
    outputs step s (front ++ back) = outputs step s front ++ outputs step (final step s front) back := by
  rw [outputs, trace_append, List.map_append]
  rfl

/-- The answer to one input, from the inputs before it. -/
theorem outputs_getElem? (s : σ) (inputs : List ι) (n : Nat) :
    (outputs step s inputs)[n]? = inputs[n]?.map fun i => (step (final step s (inputs.take n)) i).1 := by
  induction inputs generalizing s n with
  | nil => rfl
  | cons i inputs ih =>
      cases n with
      | zero => rfl
      | succ n => exact ih (step s i).2 n

/-- A step of a run was taken from the state after the steps before it. -/
theorem trace_split {s : σ} {inputs : List ι} {front back : List (Step σ ι ο)} {b : Step σ ι ο}
    (h : trace step s inputs = front ++ b :: back) :
    ∃ first i rest, inputs = first ++ i :: rest ∧ front = trace step s first ∧
      b = ⟨final step s first, i, (step (final step s first) i).1, (step (final step s first) i).2⟩ ∧
      back = trace step b.after rest := by
  induction inputs generalizing s front with
  | nil =>
      simp [trace] at h
  | cons i rest ih =>
      cases front with
      | nil =>
          simp only [trace, List.nil_append, List.cons.injEq] at h
          refine ⟨[], i, rest, rfl, rfl, h.1.symm, ?_⟩
          rw [← h.1]
          exact h.2.symm
      | cons head front =>
          simp only [trace, List.cons_append, List.cons.injEq] at h
          obtain ⟨first, j, others, rfl, rfl, here, after⟩ := ih h.2
          refine ⟨i :: first, j, others, rfl, ?_, here, after⟩
          rw [trace, h.1]

/-- A run invariant may also speak about the steps taken so far. -/
theorem invariant_trace (Inv : List (Step σ ι ο) → σ → Prop)
    (preserved : ∀ past s i, Inv past s → Inv (past ++ [⟨s, i, (step s i).1, (step s i).2⟩]) (step s i).2)
    (past : List (Step σ ι ο)) (s : σ) (inputs : List ι) (start : Inv past s) :
    Inv (past ++ trace step s inputs) (final step s inputs) := by
  induction inputs generalizing past s with
  | nil => simpa [trace] using start
  | cons i rest ih =>
      have next := ih _ (step s i).2 (preserved past s i start)
      simpa [trace, List.append_assoc] using next

/-- … or only about the answers given. -/
theorem invariant_outputs (Inv : List ο → σ → Prop)
    (preserved : ∀ given s i, Inv given s → Inv (given ++ [(step s i).1]) (step s i).2)
    (given : List ο) (s : σ) (inputs : List ι) (start : Inv given s) :
    Inv (given ++ outputs step s inputs) (final step s inputs) := by
  refine invariant_trace (fun past s => Inv (given ++ past.map (·.output)) s) ?_ [] s inputs (by simpa using start)
  intro past s i held
  have next := preserved _ s i held
  simpa [List.append_assoc] using next

/-- What one step preserves holds after every run. -/
theorem invariant {Inv : σ → Prop} (preserved : ∀ s i, Inv s → Inv (step s i).2)
    (s : σ) (inputs : List ι) (start : Inv s) : Inv (final step s inputs) :=
  invariant_outputs (fun _ => Inv) (fun _ s i => preserved s i) [] s inputs start

/-- An invariant that a step preserves when it meets a condition, in a run whose
    steps all meet it. -/
theorem guarded_invariant (Inv : List (Step σ ι ο) → σ → Prop) (Meets : List (Step σ ι ο) → Step σ ι ο → Prop)
    (preserved : ∀ past s i, Inv past s → Meets past ⟨s, i, (step s i).1, (step s i).2⟩ →
      Inv (past ++ [⟨s, i, (step s i).1, (step s i).2⟩]) (step s i).2)
    (s : σ) (inputs : List ι) (start : Inv [] s)
    (meets : ∀ past b rest, trace step s inputs = past ++ b :: rest → Meets past b) :
    Inv (trace step s inputs) (final step s inputs) := by
  induction inputs using List.reverseRecOn with
  | nil => exact start
  | append_singleton first i ih =>
      rw [trace_append] at meets ⊢
      rw [final_append]
      have before := ih fun past b rest split => meets past b _ (by rw [split, List.append_assoc, List.cons_append])
      exact preserved _ _ i before (meets _ _ [] rfl)

/-- A run is absorbed once a step ends it: from then on every step is refused.
    `Live` is what holds until then, `Over` what holds afterwards. -/
theorem absorbed (Live Over : σ → Prop) (Ends Refused : Step σ ι ο → Prop)
    (live : ∀ s i, Live s → Live (step s i).2)
    (ends : ∀ s i, Live s → Ends ⟨s, i, (step s i).1, (step s i).2⟩ → Over (step s i).2)
    (refused : ∀ s i, Over s → Refused ⟨s, i, (step s i).1, (step s i).2⟩ ∧ Over (step s i).2)
    {s : σ} {inputs : List ι} (start : Live s) {front back : List (Step σ ι ο)} {b : Step σ ι ο}
    (split : trace step s inputs = front ++ b :: back) (ended : Ends b) : ∀ later ∈ back, Refused later := by
  obtain ⟨first, i, rest, rfl, rfl, rfl, rfl⟩ := trace_split split
  have stopped := ends _ i (invariant live s first start) ended
  clear split ended
  generalize (step (final step s first) i).2 = after at stopped ⊢
  induction rest generalizing after with
  | nil =>
      intro later member
      cases member
  | cons j others ih =>
      intro later member
      rcases List.mem_cons.mp member with rfl | further
      · exact (refused _ j stopped).1
      · exact ih _ (refused _ j stopped).2 later further

end Runs
