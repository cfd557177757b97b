import AppPilotKit.Lib.Bytes
import AppPilotKit.Lib.Threads

/-! # The read pump

`InputStreamReadPump` reads a stream on worker threads. A call of `receive` marks its
stream as being read and leaves a task to the executor; the task reads once, takes the mark
away and passes the result to the callback. These are steps of their own, so another
`receive` may come between any two of them.
-/

namespace AppPilotKit.Host

open Wire

inductive ReadPumpResult where
  | bytes (bytes : Bytes)
  | ended (failed : Bool)
  deriving DecidableEq

/-- What a task meets when it reads. -/
inductive InputRead where
  | noStream
  | bytes (bytes : Bytes)
  | endOfStream
  | failed

def InputRead.result : InputRead → Option ReadPumpResult
  | .noStream => none
  | .bytes chunk => some (.bytes chunk)
  | .endOfStream => some (.ended false)
  | .failed => some (.ended true)

/-- The marks, what the streams have given so far and what the callback was passed. -/
structure InputStreamReadPump where
  readsInFlight : List Nat := []
  taken : List (Nat × ReadPumpResult) := []
  callbacks : List (Nat × ReadPumpResult) := []

/-- Where a call of `receive` and the task it leaves to the executor are. -/
inductive ReadPhase where
  | receive
  | read
  | clear (result : Option ReadPumpResult)
  | callback (result : ReadPumpResult)
  | done
  deriving DecidableEq

structure ReadTask where
  streamId : Nat
  phase : ReadPhase
  deriving DecidableEq

namespace InputStreamReadPump

def advance (pump : InputStreamReadPump) (task : ReadTask) (input : InputRead) : InputStreamReadPump × ReadTask :=
  match task.phase with
  | .receive =>
      if task.streamId ∈ pump.readsInFlight then (pump, { task with phase := .done })
      else ({ pump with readsInFlight := task.streamId :: pump.readsInFlight }, { task with phase := .read })
  | .read =>
      ({ pump with taken := pump.taken ++ (input.result.map fun result => (task.streamId, result)).toList },
        { task with phase := .clear input.result })
  | .clear result =>
      ({ pump with readsInFlight := pump.readsInFlight.filter (· ≠ task.streamId) },
        { task with phase := match result with
          | some result => .callback result
          | none => .done })
  | .callback result =>
      ({ pump with callbacks := pump.callbacks ++ [(task.streamId, result)] }, { task with phase := .done })
  | .done => (pump, task)

/-- Any number of `receive` calls and the tasks they leave. -/
def workers : Threads.Machine InputStreamReadPump ReadTask Nat InputRead where
  start streamId := ⟨streamId, .receive⟩
  next := advance

def idle : Threads.Pool InputStreamReadPump ReadTask := ⟨{}, []⟩

end InputStreamReadPump

/-- What a log says about one stream. -/
def resultsOf (streamId : Nat) (log : List (Nat × ReadPumpResult)) : List ReadPumpResult :=
  (log.filter (·.1 = streamId)).map Prod.snd

def ReadPumpResult.data : ReadPumpResult → Bytes
  | .bytes chunk => chunk
  | .ended _ => []

/-- The chunks of one stream in a log, put together. -/
def bytesOf (streamId : Nat) (log : List (Nat × ReadPumpResult)) : Bytes := (resultsOf streamId log).flatMap (·.data)

namespace InputStreamReadPump

/-- The callback has been passed what the stream gave, in that order, but for one read at most. -/
structure InOrder (pump : InputStreamReadPump) (streamId : Nat) : Prop where
  bytes : bytesOf streamId pump.callbacks <+: bytesOf streamId pump.taken
  results : resultsOf streamId pump.callbacks <+: resultsOf streamId pump.taken
  outstanding : (resultsOf streamId pump.taken).length ≤ (resultsOf streamId pump.callbacks).length + 1

/-- A `receive` that finds no mark comes when the callback has been passed all that was read. -/
def Timely (pump : InputStreamReadPump) (task : ReadTask) (_ : InputRead) : Prop :=
  task.phase = .receive → task.streamId ∉ pump.readsInFlight →
    (resultsOf task.streamId pump.taken).length = (resultsOf task.streamId pump.callbacks).length

instance (pump : InputStreamReadPump) (task : ReadTask) (input : InputRead) : Decidable (Timely pump task input) :=
  inferInstanceAs (Decidable (_ → _ → _))

/-- A task with a mark, or with a result that is on its way. -/
def Busy : ReadPhase → Prop
  | .read | .clear _ | .callback _ => True
  | .receive | .done => False

/-- What the results of the stream of a task are, by where the task is. -/
def Follows (pump : InputStreamReadPump) (task : ReadTask) : Prop :=
  match task.phase with
  | .read => task.streamId ∈ pump.readsInFlight ∧
      resultsOf task.streamId pump.taken = resultsOf task.streamId pump.callbacks
  | .clear result => task.streamId ∈ pump.readsInFlight ∧
      resultsOf task.streamId pump.taken = resultsOf task.streamId pump.callbacks ++ result.toList
  | .callback result => resultsOf task.streamId pump.taken = resultsOf task.streamId pump.callbacks ++ [result]
  | .receive | .done => True

/-- The order of each stream, and at most one busy task of it. -/
def pumping : Threads.Parts InputStreamReadPump ReadTask where
  shared pump := ∀ streamId, ∃ pending, resultsOf streamId pump.taken = resultsOf streamId pump.callbacks ++ pending ∧
    pending.length ≤ 1
  own _ := Follows
  apart task other := task.streamId = other.streamId → ¬ (Busy task.phase ∧ Busy other.phase)

@[simp] theorem resultsOf_append (streamId : Nat) (front back : List (Nat × ReadPumpResult)) :
    resultsOf streamId (front ++ back) = resultsOf streamId front ++ resultsOf streamId back := by
  simp [resultsOf]

@[simp] theorem resultsOf_same (streamId : Nat) (result : ReadPumpResult) :
    resultsOf streamId [(streamId, result)] = [result] := by
  simp [resultsOf]

theorem resultsOf_other {streamId other : Nat} (different : other ≠ streamId) (result : ReadPumpResult) :
    resultsOf streamId [(other, result)] = [] := by
  simp [resultsOf, different]

@[simp] theorem resultsOf_taken (streamId : Nat) (result : Option ReadPumpResult) :
    resultsOf streamId (result.map fun result => (streamId, result)).toList = result.toList := by
  cases result <;> simp [resultsOf]

theorem resultsOf_taken_other {streamId other : Nat} (different : other ≠ streamId) (result : Option ReadPumpResult) :
    resultsOf streamId (result.map fun result => (other, result)).toList = [] := by
  cases result <;> simp [resultsOf, different]

variable {pump : InputStreamReadPump} {task other : ReadTask}

/-- A task touches nothing of another stream. -/
theorem follows_elsewhere (different : task.streamId ≠ other.streamId) (input : InputRead) (follows : Follows pump other) :
    Follows (pump.advance task input).1 other := by
  obtain ⟨streamId, phase⟩ := task
  simp only at different
  cases phase with
  | receive =>
      simp only [advance]
      split
      · exact follows
      · unfold Follows at follows ⊢
        split <;> simp_all
  | read => unfold Follows at follows ⊢; split <;> simp_all [advance, resultsOf_taken_other]
  | clear result => unfold Follows at follows ⊢; split <;> simp_all [advance, Ne.symm]
  | callback result => unfold Follows at follows ⊢; split <;> simp_all [advance, resultsOf_other]
  | done => exact follows

theorem advance_shared (input : InputRead) (ordered : pumping.shared pump) (follows : Follows pump task) :
    pumping.shared (pump.advance task input).1 := by
  obtain ⟨stream, phase⟩ := task
  intro streamId
  obtain ⟨pending, same, few⟩ := ordered streamId
  cases phase with
  | receive =>
      simp only [advance]
      split <;> exact ⟨pending, same, few⟩
  | read =>
      by_cases here : stream = streamId
      · subst here
        refine ⟨input.result.toList, ?_, by cases input.result <;> simp⟩
        simp only [advance, resultsOf_append, resultsOf_taken]
        rw [follows.2]
      · refine ⟨pending, ?_, few⟩
        simp only [advance, resultsOf_append, resultsOf_taken_other here, List.append_nil]
        exact same
  | clear result => exact ⟨pending, same, few⟩
  | callback result =>
      by_cases here : stream = streamId
      · subst here
        refine ⟨[], ?_, by simp⟩
        simp only [advance, resultsOf_append, resultsOf_same, List.append_nil]
        exact follows
      · refine ⟨pending, ?_, few⟩
        simp only [advance, resultsOf_append, resultsOf_other here, List.append_nil]
        exact same
  | done => exact ⟨pending, same, few⟩

/-- Where the logs of a stream are as long, they are the same. -/
theorem caught_up (ordered : pumping.shared pump) {streamId : Nat}
    (long : (resultsOf streamId pump.taken).length = (resultsOf streamId pump.callbacks).length) :
    resultsOf streamId pump.taken = resultsOf streamId pump.callbacks := by
  obtain ⟨pending, same, -⟩ := ordered streamId
  rw [same, List.length_append] at long
  have none : pending = [] := List.length_eq_zero_iff.mp (by omega)
  rw [same, none, List.append_nil]

theorem advance_follows (input : InputRead) (ordered : pumping.shared pump) (follows : Follows pump task)
    (timely : Timely pump task input) : Follows (pump.advance task input).1 (pump.advance task input).2 := by
  obtain ⟨stream, phase⟩ := task
  cases phase with
  | receive =>
      simp only [advance]
      split
      · trivial
      · rename_i unmarked
        exact ⟨List.mem_cons_self, caught_up ordered (timely rfl unmarked)⟩
  | read =>
      refine ⟨follows.1, ?_⟩
      simp only [advance, resultsOf_append, resultsOf_taken]
      rw [follows.2]
  | clear result =>
      cases result with
      | none => trivial
      | some result => exact follows.2
  | callback result => trivial
  | done => trivial

/-- While a task of a stream is busy, a `receive` for the stream finds the mark or is too early. -/
theorem busy_refuses (same : task.streamId = other.streamId) (busy : Busy other.phase) (follows : Follows pump other)
    {input : InputRead} (timely : Timely pump task input) (receiving : task.phase = .receive) :
    task.streamId ∈ pump.readsInFlight := by
  by_contra unmarked
  have long := timely receiving unmarked
  rw [same] at unmarked long
  unfold Follows at follows
  split at follows
  · exact unmarked follows.1
  · exact unmarked follows.1
  · rw [follows, List.length_append, List.length_singleton] at long
    omega
  · rename_i idle
    rw [idle] at busy
    exact busy
  · rename_i idle
    rw [idle] at busy
    exact busy

theorem idle_follows (idle : ¬ Busy task.phase) : Follows pump task := by
  unfold Follows
  split <;> simp_all [Busy]

theorem pumping_kept : pumping.Kept workers Timely := by
  refine ⟨fun _ _ streamId _ _ => ⟨trivial, fun other => ⟨fun _ both => both.1, fun _ both => both.2⟩⟩,
    fun _ pump task input ordered follows timely =>
      ⟨advance_shared input ordered follows, advance_follows input ordered follows timely⟩, ?_⟩
  intro _ _ pump task input other _ ordered follows also apart _ timely
  have stream : (pump.advance task input).2.streamId = task.streamId := by
    unfold advance
    split
    · split <;> rfl
    all_goals rfl
  by_cases same : task.streamId = other.streamId
  · by_cases busy : Busy other.phase
    · -- the other task is the busy one of the stream, so this one ends or has ended
      have idle : ¬ Busy task.phase := fun also => apart same ⟨also, busy⟩
      have still : pump.advance task input = (pump, { task with phase := .done }) := by
        obtain ⟨streamId, phase⟩ := task
        cases phase with
        | receive => exact if_pos (busy_refuses same busy also timely rfl)
        | done => rfl
        | read => exact absurd trivial idle
        | clear result => exact absurd trivial idle
        | callback result => exact absurd trivial idle
      simp only [workers, still]
      exact ⟨also, fun _ both => both.1, fun _ both => both.2⟩
    · exact ⟨idle_follows busy, fun _ both => busy both.2, fun _ both => busy both.1⟩
  · refine ⟨follows_elsewhere same input also, fun equal => ?_, fun equal => ?_⟩
    · exact absurd (stream.symm.trans equal) same
    · exact absurd (equal.trans stream).symm same

theorem idle_holds : pumping.Hold idle where
  entered := Nat.le_refl _
  shared streamId := ⟨[], rfl, by simp⟩
  own i call found := by simp [idle] at found
  apart i j call other _ found := by simp [idle] at found

theorem inOrder_of_shared (ordered : pumping.shared pump) (streamId : Nat) : InOrder pump streamId := by
  obtain ⟨pending, same, few⟩ := ordered streamId
  refine ⟨?_, ⟨pending, same.symm⟩, ?_⟩
  · unfold bytesOf
    rw [same, List.flatMap_append]
    exact List.prefix_append _ _
  · rw [same, List.length_append]
    omega

/-- In a run where no `receive` slips in between the clearing of a mark and the
    callback, each stream is passed on in its order. -/
theorem reads_stay_in_order (moves : List (Threads.Move Nat InputRead))
    (timely : ∀ step ∈ workers.taken idle moves, Timely step.1 step.2.1 step.2.2) (streamId : Nat) :
    InOrder (workers.run idle moves).shared streamId :=
  inOrder_of_shared (Threads.Parts.Hold.run pumping_kept idle_holds moves timely).shared streamId

/-- Two calls of `receive` one after the other. -/
def twoReads : List (Threads.Move Nat InputRead) :=
  [.enter 7, .enter 7, .advance 0 .noStream, .advance 1 .noStream, .advance 0 (.bytes [1]), .advance 0 .noStream,
    .advance 0 .noStream]

theorem twoReads_in_order :
    (∀ step ∈ workers.taken idle twoReads, Timely step.1 step.2.1 step.2.2) ∧
      InOrder (workers.run idle twoReads).shared 7 := by
  have timely : ∀ step ∈ workers.taken idle twoReads, Timely step.1 step.2.1 step.2.2 := by decide
  exact ⟨timely, reads_stay_in_order twoReads timely 7⟩

/-- The second read comes between the clearing of the mark and the callback of the first. -/
def overtaking : List (Threads.Move Nat InputRead) :=
  [.enter 7, .enter 7, .advance 0 .noStream, .advance 0 (.bytes [1]), .advance 0 .noStream, .advance 1 .noStream,
    .advance 1 (.bytes [2]), .advance 1 .noStream, .advance 1 .noStream, .advance 0 .noStream]

theorem read_overtakes : ¬ ∀ moves streamId, InOrder (workers.run idle moves).shared streamId := by
  intro always
  have ordered := (always overtaking 7).bytes
  revert ordered
  decide

end InputStreamReadPump

end AppPilotKit.Host
