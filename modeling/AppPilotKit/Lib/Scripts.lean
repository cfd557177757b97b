import Mathlib

/-! # Scripts that ask a world

A script asks its world one request at a time and goes on with the reply. A world may
answer a request in any way its relation allows, and a reply may come with a change of the
world. What a script does is read off its runs; what holds of every run is proved along
the script, request by request, with the steps so far at hand.
-/

namespace Scripts

variable {Q : Type} {A : Q → Type} {D ε α β : Type}

/-- A script that ends with a value. A loop that is cut short has no value yet. -/
inductive Script (Q : Type) (A : Q → Type) (α : Type) where
  | done (value : α)
  | cut
  | ask (request : Q) (rest : A request → Script Q A α)

namespace Script

protected def bind : Script Q A α → (α → Script Q A β) → Script Q A β
  | .done value, next => next value
  | .cut, _ => .cut
  | .ask request rest, next => .ask request fun reply => (rest reply).bind next

instance : Monad (Script Q A) where
  pure := .done
  bind := Script.bind

/-- Ask one request. -/
def request (q : Q) : Script Q A (A q) := .ask q .done

end Script

/-- A script that may fail. -/
abbrev Attempt (Q : Type) (A : Q → Type) (ε α : Type) : Type := ExceptT ε (Script Q A) α

namespace Attempt

/-- A request whose reply may be a failure. -/
def request (q : Q) (reads : A q → Except ε α) : Attempt Q A ε α :=
  ExceptT.mk (Script.ask q fun reply => .done (reads reply))

/-- Go on with the outcome, whichever it is. -/
def outcome (m : Attempt Q A ε α) : Attempt Q A ε (Except ε α) :=
  ExceptT.mk (m.run >>= fun result => Script.done (Except.ok result))

/-- A loop that is not followed further. -/
def cut : Attempt Q A ε α := ExceptT.mk Script.cut

end Attempt

/-- One request of a run, its reply, and the world around it. -/
structure Step (Q : Type) (A : Q → Type) (D : Type) where
  before : D
  request : Q
  reply : A request
  after : D

/-- How a world may answer a request, and how it may change with the reply. -/
abbrev World (Q : Type) (A : Q → Type) (D : Type) := D → (q : Q) → A q → D → Prop

/-- What must hold where a request is made: of the world and of the steps so far, the latest
    first. -/
abbrev Guard (Q : Type) (A : Q → Type) (D : Type) := D → List (Step Q A D) → Q → Prop

variable (w : World Q A D) (g : Guard Q A D)

/-- The runs of a script, seen up to any point: the steps in their order, the value if it has
    ended, the world then. -/
inductive Run : Script Q A α → D → List (Step Q A D) → Option α → D → Prop where
  | done (value : α) (d : D) : Run (.done value) d [] (some value) d
  | stop (s : Script Q A α) (d : D) : Run s d [] none d
  | ask {d : D} {q : Q} {reply : A q} {d' d'' : D} {rest : A q → Script Q A α} {steps : List (Step Q A D)}
      {value : Option α} (may : w d q reply d') (goes : Run (rest reply) d' steps value d'') :
      Run (.ask q rest) d (⟨d, q, reply, d'⟩ :: steps) value d''

/-- Every request along the script is fine, and the script ends as stated. -/
def Script.Safe (post : α → D → List (Step Q A D) → Prop) : Script Q A α → D → List (Step Q A D) → Prop
  | .done value, d, past => post value d past
  | .cut, _, _ => True
  | .ask q rest, d, past => g d past q ∧
      ∀ reply d', w d q reply d' → (rest reply).Safe post d' (⟨d, q, reply, d'⟩ :: past)

variable {w g}

namespace Script

theorem safe_bind {s : Script Q A α} {next : α → Script Q A β} {post : β → D → List (Step Q A D) → Prop} {d : D}
    {past : List (Step Q A D)} :
    (s >>= next).Safe w g post d past ↔ s.Safe w g (fun value d past => (next value).Safe w g post d past) d past := by
  change (s.bind next).Safe w g post d past ↔ _
  induction s generalizing d past with
  | done value => rfl
  | cut => rfl
  | ask q rest ih => simp only [Script.bind, Safe, ih]

theorem Safe.mono {s : Script Q A α} {post post' : α → D → List (Step Q A D) → Prop} {d : D}
    {past : List (Step Q A D)} (safe : s.Safe w g post d past)
    (weaker : ∀ value d past, post value d past → post' value d past) : s.Safe w g post' d past := by
  induction s generalizing d past with
  | done value => exact weaker value d past safe
  | cut => trivial
  | ask q rest ih => exact ⟨safe.1, fun reply d' may => ih reply (safe.2 reply d' may)⟩

/-- What was proved along a script holds of each of its runs. -/
theorem Safe.holds {s : Script Q A α} {post : α → D → List (Step Q A D) → Prop} {d d' : D}
    {past steps : List (Step Q A D)} {value : Option α} (safe : s.Safe w g post d past)
    (run : Run w s d steps value d') :
    (∀ front step back, steps = front ++ step :: back →
      g step.before (front.reverse ++ past) step.request) ∧
    ∀ v, value = some v → post v d' (steps.reverse ++ past) := by
  induction run generalizing past with
  | done value d => exact ⟨fun front step back split => by simp at split, fun v same => by cases same; exact safe⟩
  | stop s d => exact ⟨fun front step back split => by simp at split, fun v same => by cases same⟩
  | @ask d q reply d' d'' rest steps value may goes ih =>
      obtain ⟨fine, after⟩ := ih (safe.2 reply d' may)
      refine ⟨fun front step back split => ?_, fun v same => by simpa using after v same⟩
      cases front with
      | nil =>
          obtain ⟨rfl, rfl⟩ := List.cons.inj split
          exact safe.1
      | cons first front =>
          obtain ⟨rfl, rfl⟩ := List.cons.inj split
          simpa using fine front step back rfl

end Script

/-- The steps of a run are allowed and follow each other. -/
theorem Run.chained {s : Script Q A α} {d d' : D} {steps : List (Step Q A D)} {value : Option α}
    (run : Run w s d steps value d') :
    ∀ step ∈ steps, w step.before step.request step.reply step.after := by
  induction run with
  | done value d => simp
  | stop s d => simp
  | ask may goes ih => simpa using ⟨may, ih⟩

/-! ## Putting runs together -/

theorem Run.bind {s : Script Q A α} {next : α → Script Q A β} {d d' e : D} {steps more : List (Step Q A D)} {value : α}
    {result : Option β} (first : Run w s d steps (some value) d') (second : Run w (next value) d' more result e) :
    Run w (s >>= next) d (steps ++ more) result e := by
  change Run w (s.bind next) d (steps ++ more) result e
  generalize same : some value = ended at first
  induction first with
  | done other d =>
      cases same
      exact second
  | stop s d => cases same
  | ask may goes ih => exact .ask may (ih second same)

/-! ## Taking runs apart -/

theorem Run.of_pure {d e : D} {steps : List (Step Q A D)} {value result : α}
    (run : Run w (pure value : Script Q A α) d steps (some result) e) : steps = [] ∧ result = value ∧ e = d := by
  cases run
  exact ⟨rfl, rfl, rfl⟩

theorem Run.of_request {d e : D} {q : Q} {steps : List (Step Q A D)} {reply : A q}
    (run : Run w (Script.request q) d steps (some reply) e) : steps = [⟨d, q, reply, e⟩] ∧ w d q reply e := by
  cases run with
  | ask may goes =>
      cases goes
      exact ⟨rfl, may⟩

theorem Run.of_bind {s : Script Q A α} {next : α → Script Q A β} {d e : D} {steps : List (Step Q A D)} {result : β}
    (run : Run w (s >>= next) d steps (some result) e) : ∃ front back value d', steps = front ++ back ∧
      Run w s d front (some value) d' ∧ Run w (next value) d' back (some result) e := by
  change Run w (s.bind next) d steps (some result) e at run
  induction s generalizing d steps with
  | done value => exact ⟨[], steps, value, d, rfl, .done value d, run⟩
  | cut => cases run
  | ask q rest ih =>
      cases run with
      | @ask _ _ reply d' _ _ more _ may goes =>
          obtain ⟨front, back, value, d'', rfl, first, second⟩ := ih reply goes
          exact ⟨_ :: front, back, value, d'', rfl, .ask may first, second⟩

theorem Attempt.run_of_bind {m : Attempt Q A ε α} {next : α → Attempt Q A ε β} {d e : D} {steps : List (Step Q A D)}
    {result : Except ε β} (run : Run w (m >>= next).run d steps (some result) e) :
    (∃ failure, result = .error failure ∧ Run w m.run d steps (some (.error failure)) e) ∨
      ∃ front back value d', steps = front ++ back ∧ Run w m.run d front (some (.ok value)) d' ∧
        Run w (next value).run d' back (some result) e := by
  obtain ⟨front, back, value, d', rfl, first, second⟩ := Run.of_bind run
  cases value with
  | error failure =>
      obtain ⟨rfl, rfl, rfl⟩ := Run.of_pure second
      exact .inl ⟨failure, rfl, by rwa [List.append_nil]⟩
  | ok value => exact .inr ⟨front, back, value, d', rfl, first, second⟩

theorem Attempt.run_of_outcome {m : Attempt Q A ε α} {d e : D} {steps : List (Step Q A D)}
    {result : Except ε (Except ε α)} (run : Run w m.outcome.run d steps (some result) e) :
    ∃ ended, result = .ok ended ∧ Run w m.run d steps (some ended) e := by
  obtain ⟨front, back, ended, d', rfl, first, second⟩ := Run.of_bind run
  obtain ⟨rfl, rfl, rfl⟩ := Run.of_pure second
  exact ⟨ended, rfl, by rwa [List.append_nil]⟩

namespace Attempt

variable {m : Attempt Q A ε α} {next : α → Attempt Q A ε β} {d d' e : D} {steps more : List (Step Q A D)}

theorem run_ok {value : α} {result : Option (Except ε β)} (first : Run w m.run d steps (some (.ok value)) d')
    (second : Run w (next value).run d' more result e) : Run w (m >>= next).run d (steps ++ more) result e :=
  Run.bind first second

theorem run_error {failure : ε} (first : Run w m.run d steps (some (.error failure)) d') :
    Run w (m >>= next).run d steps (some (.error failure)) d' := by
  have ended : Run w (m >>= next).run d (steps ++ []) (some (.error failure)) d' := Run.bind first (.done _ d')
  rwa [List.append_nil] at ended

theorem run_outcome {result : Except ε α} (first : Run w m.run d steps (some result) d') :
    Run w m.outcome.run d steps (some (.ok result)) d' := by
  have ended : Run w m.outcome.run d (steps ++ []) (some (.ok result)) d' := Run.bind first (.done _ d')
  rwa [List.append_nil] at ended

theorem run_request {q : Q} {reads : A q → Except ε α} {reply : A q} {result : Except ε α} (may : w d q reply d')
    (same : reads reply = result) : Run w (request q reads).run d [⟨d, q, reply, d'⟩] (some result) d' :=
  same ▸ .ask may (.done _ d')

end Attempt

/-- Follow a script in a world that has one answer, which may depend on how many came before. -/
def Script.follow (answer : Nat → D → (q : Q) → A q × D) : Nat → D → Script Q A α → List (Step Q A D) × Option α × D
  | _, d, .done value => ([], some value, d)
  | _, d, .cut => ([], none, d)
  | n, d, .ask q rest =>
      let (reply, next) := answer n d q
      let (steps, ended) := (rest reply).follow answer (n + 1) next
      (⟨d, q, reply, next⟩ :: steps, ended)

theorem Script.run_follow (answer : Nat → D → (q : Q) → A q × D) (may : ∀ n d q, w d q (answer n d q).1 (answer n d q).2)
    (n : Nat) (d : D) (s : Script Q A α) :
    Run w s d (s.follow answer n d).1 (s.follow answer n d).2.1 (s.follow answer n d).2.2 := by
  induction s generalizing n d with
  | done value => exact .done value d
  | cut => exact .stop .cut d
  | ask q rest ih => exact .ask (may n d q) (ih (answer n d q).1 (n + 1) (answer n d q).2)

namespace Attempt

/-- Every request of an attempt is fine, and it ends as stated. -/
def Ensures (w : World Q A D) (g : Guard Q A D) (m : Attempt Q A ε α)
    (post : Except ε α → D → List (Step Q A D) → Prop) (d : D) (past : List (Step Q A D)) : Prop :=
  m.run.Safe w g post d past

variable {post post' : Except ε β → D → List (Step Q A D) → Prop} {d : D} {past : List (Step Q A D)}

theorem ensures_bind {m : Attempt Q A ε α} {next : α → Attempt Q A ε β} :
    Ensures w g (m >>= next) post d past ↔ Ensures w g m (fun result d past =>
      match result with
      | .ok value => Ensures w g (next value) post d past
      | .error failure => post (.error failure) d past) d past := by
  unfold Ensures
  have split : (m >>= next).run = m.run >>= fun result =>
      match result with
      | .ok value => (next value).run
      | .error failure => Script.done (Except.error failure) := by
    rw [ExceptT.run_bind]
    rfl
  rw [split, Script.safe_bind]
  constructor
  · refine fun safe => safe.mono fun result d past after => ?_
    cases result <;> exact after
  · refine fun safe => safe.mono fun result d past after => ?_
    cases result <;> exact after

theorem ensures_pure {value : β} : Ensures w g (pure value : Attempt Q A ε β) post d past ↔ post (.ok value) d past :=
  Iff.rfl

theorem ensures_throw {failure : ε} :
    Ensures w g (throw failure : Attempt Q A ε β) post d past ↔ post (.error failure) d past := Iff.rfl

theorem ensures_request {q : Q} {reads : A q → Except ε β} :
    Ensures w g (request q reads) post d past ↔ g d past q ∧
      ∀ reply d', w d q reply d' → post (reads reply) d' (⟨d, q, reply, d'⟩ :: past) := Iff.rfl

theorem ensures_outcome {m : Attempt Q A ε α} {post : Except ε (Except ε α) → D → List (Step Q A D) → Prop} :
    Ensures w g (outcome m) post d past ↔ Ensures w g m (fun result d past => post (.ok result) d past) d past :=
  Script.safe_bind

theorem ensures_cut : Ensures w g (cut : Attempt Q A ε β) post d past := trivial

theorem Ensures.mono {m : Attempt Q A ε β} (ensured : Ensures w g m post d past)
    (weaker : ∀ result d past, post result d past → post' result d past) : Ensures w g m post' d past :=
  Script.Safe.mono ensured weaker

/-- One part after the other: the second goes on from whatever the first may leave. -/
theorem Ensures.bind {m : Attempt Q A ε α} {next : α → Attempt Q A ε β}
    {mid : Except ε α → D → List (Step Q A D) → Prop} (first : Ensures w g m mid d past)
    (ends : ∀ value d past, mid (.ok value) d past → Ensures w g (next value) post d past)
    (fails : ∀ failure d past, mid (.error failure) d past → post (.error failure) d past) :
    Ensures w g (m >>= next) post d past := by
  refine ensures_bind.2 (first.mono fun result d past held => ?_)
  cases result with
  | ok value => exact ends value d past held
  | error failure => exact fails failure d past held

end Attempt

end Scripts
