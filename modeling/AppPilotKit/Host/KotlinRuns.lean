import AppPilotKit.Lib.Runs
import AppPilotKit.Host.Kotlin

/-! # Runs of the Android host

Every task keeps the books in order, as long as it brings no bytes and no end of a
stream whose session is over. A late write completion finds no pending write.
-/

namespace AppPilotKit.Host.Kotlin

open Wire Transport Target Host

variable {R H T : Type} {noise : Noise R H T} {world : World R} {observed : Nat → Bool}

section
variable {ended : Nat → Prop} {waiting : List Nat} {next : Nat} {d : Desk H T}

/-- Android takes the waiting stream up as its session is accepted. -/
abbrev Books (ended : Nat → Prop) (waiting : List Nat) (next : Nat) (d : Desk H T) : Prop :=
  Kept False ended waiting next d

theorem leaseTerminal_books (h : Books ended waiting next d) : Books ended waiting next (leaseTerminal d) := by
  have stale := h.leaseTerminal
  unfold leaseTerminal
  cases stopped : d.stopped with
  | true =>
      have same : d.leaseTerminal = d := if_pos stopped
      rw [same, Bool.and_true]
      exact h
  | false =>
      have none : d.leaseTerminal.pendingSession = none := by
        unfold Desk.leaseTerminal
        rw [stopped]
        rfl
      refine ⟨stale.sound, fun s child found => ?_, stale.pending, fun _ _ => none, stale.finished⟩
      obtain ⟨fresh, small, -⟩ := stale.children s child found
      refine ⟨fresh, small, fun slot => ?_⟩
      cases none.symm.trans slot

/-- What `process` has to do for the functions that call it. -/
def Keeps (ended : Nat → Prop) (waiting : List Nat) (next : Nat) (process : Desk H T → Outcome → Desk H T) : Prop :=
  ∀ d o, Books ended waiting next d → Fits ended waiting next d o → Books ended waiting next (process d o)

variable {process : Desk H T → Outcome → Desk H T}

theorem internalFailure_books (keeps : Keeps ended waiting next process) (h : Books ended waiting next d) :
    Books ended waiting next (internalFailure noise world process d) :=
  Kept.internalFailure (fun _ => leaseTerminal_books) keeps h

theorem driveAndProcess_books (keeps : Keeps ended waiting next process) (h : Books ended waiting next d) {event : Event}
    (free : event.streamId = 0 ∨ ¬ Over ended d event.streamId)
    (joins : event.tag = .sessionAccepted → event.streamId ∉ waiting ∧ event.streamId < next ∧ d.composed = true) :
    Books ended waiting next (driveAndProcess noise world process d event) :=
  Kept.driveAndProcess (fun _ => leaseTerminal_books) keeps h free joins

theorem application_books (keeps : Keeps ended waiting next process) (h : Books ended waiting next d) {o : Outcome}
    (free : o.streamId = 0 ∨ ¬ Over ended d o.streamId) :
    Books ended waiting next (application noise world observed process d o) := by
  unfold application
  dsimp only
  split
  · exact internalFailure_books keeps h
  · rename_i valid
    push Not at valid
    have notOver := free.resolve_left valid.1
    have running := h.runtimeFor notOver
    have stillFree : ¬ Over ended (d.runtimeFor o.streamId).2 o.streamId := fun isOver =>
      notOver ((Kept.over_runtimeFor d _ _).mp isOver)
    split
    · exact internalFailure_books keeps running
    · split
      · exact running
      · exact driveAndProcess_books keeps running (.inr stillFree) (fun tag => by cases tag)

theorem leaseReady_books (keeps : Keeps ended waiting next process) (h : Books ended waiting next d) (o : Outcome) :
    Books ended waiting next (leaseReady noise world process d o) := by
  unfold leaseReady
  split
  · exact internalFailure_books keeps h
  · split
    · exact internalFailure_books keeps h
    · -- the waiting stream is taken up in the same task, so the desk has none while it is composed
      have taken : Books ended waiting next
          { { d with composed := true }.note (.receive o.streamId) with pendingSession := none } := by
        refine ⟨h.sound, fun s child found => ?_, fun s slot => (by cases slot), fun _ _ => rfl, fun s isOver => ?_⟩
        · obtain ⟨fresh, small, -⟩ := h.children s child found
          exact ⟨fresh, small, fun slot => (by cases slot)⟩
        · have rest := h.finished s ((over_note (d := { d with composed := true }) (fun s => by simp)).mp isOver)
          exact ⟨rest.1, rest.2.1, rest.2.2.1, fun slot => (by cases slot)⟩
      dsimp only
      split
      · rename_i streamId pending
        have waited := h.pending streamId pending
        refine driveAndProcess_books keeps taken (.inr fun isOver => ?_) (fun _ => ⟨waited.1, waited.2, rfl⟩)
        exact (h.finished streamId ((over_note (d := { d with composed := true })
          (fun s => by simp)).mp isOver)).2.2.2 pending
      · rename_i absent
        have same : ({ { d with composed := true }.note (.receive o.streamId) with pendingSession := none } : Desk H T) =
            { d with composed := true }.note (.receive o.streamId) := by
          rw [← absent]
        rw [← same]
        exact taken

theorem sessionTerminal_books (h : Books ended waiting next d) {s : Nat} (accepted : s ∉ waiting ∧ s < next)
    (composed : d.pendingSession = some s → d.composed = true) : Books ended waiting next (sessionTerminal d s) := by
  unfold sessionTerminal
  split
  · exact h
  · refine h.sessionTerminal accepted fun pending => ?_
    have none := h.clear id (composed pending)
    rw [pending] at none
    cases none

theorem process_books (rounds : Nat) :
    Keeps ended waiting next (Kotlin.process noise world observed rounds) := by
  induction rounds with
  | zero =>
      intro d o h _
      exact h
  | succ rounds ih =>
      intro d o h fits
      unfold Kotlin.process
      split
      · exact h
      · replace h := h.scheduleDeadline o
        replace fits := fits.scheduleDeadline o
        dsimp only
        split
        · split
          · exact h
          · exact h.note (fun s => by simp)
        · rename_i kind
          have free := fits.named (by simp [kind])
          cases written : (d.scheduleDeadline o).write o with
          | none => exact internalFailure_books ih h
          | some d' => exact h.write free written
        · rename_i kind
          exact application_books ih h (fits.named (by simp [kind]))
        · exact leaseReady_books ih h o
        · rename_i kind
          obtain ⟨accepted, composed⟩ := fits.terminal kind
          exact sessionTerminal_books h accepted composed
        · exact leaseTerminal_books h
        · exact leaseTerminal_books h
        · exact internalFailure_books ih h

theorem advance_books (h : Books ended waiting next d) {event : Event}
    (free : event.streamId = 0 ∨ ¬ Over ended d event.streamId)
    (joins : event.tag = .sessionAccepted → event.streamId ∉ waiting ∧ event.streamId < next ∧ d.composed = true) :
    Books ended waiting next (advance noise world observed d event) :=
  driveAndProcess_books (process_books depth) h free joins

theorem fail_books (h : Books ended waiting next d) : Books ended waiting next (fail noise world observed d) :=
  internalFailure_books (process_books depth) h

/-- The stream that a task announces. -/
def Task.announced : Task → Option Nat
  | .socket (.accepted streamId) => some streamId
  | _ => none

/-- The stream whose bytes or end a task brings. -/
def Task.reads : Task → Option Nat
  | .socket (.bytes streamId _) | .socket (.readEnded streamId _) => some streamId
  | _ => none

/-- The stream that an event after the acceptance belongs to. -/
def Task.stream : Task → Option Nat
  | .socket (.bytes streamId _) | .socket (.readEnded streamId _) | .socket (.writeCompleted streamId _ _) => some streamId
  | _ => none

theorem accepted_books {s : Nat} (h : Books ended (s :: waiting) next d) (fresh : s ∉ waiting) (small : s < next) :
    Books ended waiting next (accepted noise world observed d s) := by
  have notOver : ¬ Over ended d s := fun isOver => (h.finished s isOver).2.2.1.1 (List.mem_cons_self ..)
  have rest : Books ended waiting next d := h.less (List.subset_cons_self _ _)
  unfold accepted
  split
  · exact fail_books rest
  · split
    · refine advance_books ?_ (.inr notOver) (fun tag => by cases tag)
      exact ⟨rest.sound, rest.children, rest.pending, rest.clear, rest.finished⟩
    · split
      · rename_i notComposed
        split
        · exact rest.note (fun s => by simp)
        · exact h.wait fresh small notOver (fun _ composed => by simp [composed] at notComposed)
      · rename_i composed
        refine advance_books rest (.inr notOver) (fun _ => ⟨fresh, small, ?_⟩)
        simpa using composed

/-- A task keeps the books, unless it brings bytes or the end of a stream that is over. -/
theorem runTask_books (noise : Noise R H T) (world : World R) (observed : Nat → Bool) {task : Task}
    (h : Books ended (task.announced.toList ++ waiting) next d)
    (fresh : ∀ s, task.announced = some s → s ∉ waiting ∧ s < next)
    (current : ∀ s, task.reads = some s → ended s → d.stopped = true) (quiet : d.log = []) :
    Books ended waiting next (runTask noise world observed d task) := by
  have rest : Books ended waiting next d := h.less (List.subset_append_right _ _)
  unfold runTask
  split
  · exact rest
  · rename_i running
    have free (s : Nat) (reads : task.reads = some s) : ¬ Over ended d s := by
      rintro (isOver | logged)
      · exact running (current s reads isOver)
      · rw [quiet] at logged
        cases logged
    split
    · rename_i streamId
      obtain ⟨unannounced, small⟩ := fresh streamId rfl
      exact accepted_books h unannounced small
    · exact advance_books rest (.inr (free _ rfl)) (fun tag => by cases tag)
    · rename_i streamId failed
      refine advance_books rest (.inr (free _ rfl)) (fun tag => ?_)
      cases failed
      · cases tag
      · cases tag
    · rename_i streamId token failed
      split
      · exact rest
      · rename_i pending
        have notOver : ¬ Over ended (d.wipePendingWrite streamId) streamId := by
          intro isOver
          have none := (rest.finished streamId isOver).1
          rw [none] at pending
          simp at pending
        refine advance_books (rest.wipePendingWrite streamId) (.inr ?_) (fun tag => ?_)
        · cases failed
          · exact notOver
          · exact notOver
        · cases failed
          · cases tag
          · cases tag
    · exact fail_books rest
    · exact fail_books rest
    · refine advance_books ?_ (.inl rfl) (fun tag => by cases tag)
      exact ⟨rest.sound, rest.children, rest.pending, rest.clear, rest.finished⟩
    · exact advance_books rest (.inl rfl) (fun tag => by cases tag)
    · exact leaseTerminal_books rest

end

/-! ## The host -/

/-- The streams whose acceptance waits in the queue. -/
def TransportHost.waiting (h : TransportHost H T) : List Nat := h.queue.filterMap Task.announced

/-- The books are in order between two steps. -/
structure InOrder (ended : Nat → Prop) (h : TransportHost H T) : Prop where
  books : Books ended h.waiting h.nextStreamId h.desk
  quiet : h.desk.log = []
  distinct : h.waiting.Nodup
  small : ∀ s ∈ h.waiting, s < h.nextStreamId

/-- The task that a step runs. -/
def runs (h : TransportHost H T) : Input R → Option Task
  | .run _ => h.queue.head?
  | _ => none

section
variable {ended : Nat → Prop} {h : TransportHost H T}

theorem perform_same (h : TransportHost H T) (deeds : List Deed) :
    (deeds.foldl TransportHost.perform h).desk = h.desk ∧ (deeds.foldl TransportHost.perform h).queue = h.queue ∧
      (deeds.foldl TransportHost.perform h).nextStreamId = h.nextStreamId := by
  induction deeds generalizing h with
  | nil => exact ⟨rfl, rfl, rfl⟩
  | cons deed deeds ih =>
      obtain ⟨desk, queue, next⟩ := ih (h.perform deed)
      have one : (h.perform deed).desk = h.desk ∧ (h.perform deed).queue = h.queue ∧
          (h.perform deed).nextStreamId = h.nextStreamId := by
        cases deed with
        | receive streamId =>
            unfold TransportHost.perform
            dsimp only
            split
            · exact ⟨rfl, rfl, rfl⟩
            · exact ⟨rfl, rfl, rfl⟩
        | drove | write | close | arm | handle | sessionTerminal | leaseTerminal => exact ⟨rfl, rfl, rfl⟩
      exact ⟨desk.trans one.1, queue.trans one.2.1, next.trans one.2.2⟩

/-- Only the desk, the queue and the numbers matter. -/
theorem InOrder.congr {h' : TransportHost H T} (order : InOrder ended h) (desk : h'.desk = h.desk)
    (queue : h'.queue = h.queue) (next : h'.nextStreamId = h.nextStreamId) : InOrder ended h' := by
  have waiting : h'.waiting = h.waiting := by
    unfold TransportHost.waiting
    rw [queue]
  refine ⟨?_, desk ▸ order.quiet, waiting ▸ order.distinct, ?_⟩
  · rw [desk, waiting, next]
    exact order.books
  · rw [waiting, next]
    exact order.small

theorem InOrder.post (order : InOrder ended h) {task : Task} (silent : task.announced = none) :
    InOrder ended (h.post task) := by
  unfold TransportHost.post
  split
  · exact order
  · have waiting : TransportHost.waiting { h with queue := h.queue ++ [task] } = h.waiting := by
      unfold TransportHost.waiting
      simp [silent]
    refine ⟨?_, order.quiet, waiting ▸ order.distinct, ?_⟩
    · rw [waiting]
      exact order.books
    · rw [waiting]
      exact order.small

theorem InOrder.socketEvent (order : InOrder ended h) {event : SocketEvent}
    (silent : (Task.socket event).announced = none) : InOrder ended (h.socketEvent event) := by
  unfold TransportHost.socketEvent
  split
  · refine InOrder.post ?_ silent
    exact order.congr rfl rfl rfl
  · exact order.post silent

theorem InOrder.connect (order : InOrder ended h) : InOrder ended h.connect := by
  unfold TransportHost.connect
  split
  · exact order
  · split
    · unfold TransportHost.socketEvent TransportHost.post
      dsimp only
      split
      · refine ⟨?_, order.quiet, order.distinct, fun s member => (order.small s member).trans (Nat.lt_succ_self _)⟩
        exact order.books.announce.less (List.subset_append_left _ _)
      · have waiting : (h.queue ++ [Task.socket (.accepted h.nextStreamId)]).filterMap Task.announced =
            h.waiting ++ [h.nextStreamId] := by
          simp [TransportHost.waiting, Task.announced]
        refine ⟨?_, order.quiet, ?_, ?_⟩
        · show Books ended (List.filterMap _ _) _ _
          rw [waiting]
          exact order.books.announce
        · show (List.filterMap _ _).Nodup
          rw [waiting]
          refine List.Nodup.append order.distinct (List.nodup_singleton _) ?_
          intro s member same
          exact (order.small s member).ne (List.mem_singleton.mp same)
        · show ∀ s ∈ List.filterMap _ _, _
          rw [waiting]
          intro s member
          rcases List.mem_append.mp member with member | member
          · exact (order.small s member).trans (Nat.lt_succ_self _)
          · rw [List.mem_singleton.mp member]
            exact Nat.lt_succ_self _
    · refine InOrder.socketEvent ?_ rfl
      exact order.congr rfl rfl rfl

theorem InOrder.readDone (order : InOrder ended h) (streamId : Nat) (result : ReadResult) :
    InOrder ended (h.readDone streamId result) := by
  unfold TransportHost.readDone
  split
  · exact order
  · have done : InOrder ended { h with readsInFlight := h.readsInFlight.erase streamId } := order.congr rfl rfl rfl
    cases result with
    | bytes bytes => exact done.socketEvent rfl
    | ended failed => exact done.socketEvent rfl
    | nothing =>
        dsimp only
        split
        · exact order
        · exact done

/-- A step keeps the books in order, unless it brings bytes or the end of a stream that is over. -/
theorem step_inOrder (noise : Noise R H T) (order : InOrder ended h) (input : Input R)
    (current : ∀ task s, runs h input = some task → task.reads = some s → ended s → h.desk.stopped = true) :
    InOrder (fun s => ended s ∨ .sessionTerminal s ∈ (h.step noise input).1) (h.step noise input).2 := by
  -- a step that leaves the desk alone does nothing
  have idle {h' : TransportHost H T} (order' : InOrder ended h') :
      InOrder (fun s => ended s ∨ .sessionTerminal s ∈ ([] : List Deed)) h' := by
    have same : (fun s => ended s ∨ .sessionTerminal s ∈ ([] : List Deed)) = ended := by
      funext s
      simp
    rw [same]
    exact order'
  cases input with
  | connect => exact idle order.connect
  | listenerFails | peerUnsupported =>
      apply idle
      simp only [TransportHost.step]
      split
      · refine InOrder.socketEvent ?_ rfl
        exact order.congr rfl rfl rfl
      · exact order
  | read streamId result => exact idle (order.readDone streamId result)
  | written streamId token failed =>
      apply idle
      simp only [TransportHost.step]
      split
      · refine InOrder.socketEvent ?_ rfl
        exact order.congr rfl rfl rfl
      · exact order
  | expire token =>
      apply idle
      simp only [TransportHost.step]
      split
      · refine InOrder.post ?_ rfl
        exact order.congr rfl rfl rfl
      · exact order
  | eligibilityLost => exact idle (order.post rfl)
  | close => exact idle (order.post rfl)
  | run world =>
      unfold TransportHost.step
      dsimp only
      split
      · exact idle order
      · rename_i task rest queue
        have split : h.waiting = task.announced.toList ++ rest.filterMap Task.announced := by
          unfold TransportHost.waiting
          rw [queue, List.filterMap_cons]
          cases task.announced with
          | none => rfl
          | some s => rfl
        have books := order.books
        have distinct := order.distinct
        have small := order.small
        rw [split] at books distinct small
        have fresh (s : Nat) (announced : task.announced = some s) :
            s ∉ rest.filterMap Task.announced ∧ s < h.nextStreamId := by
          rw [announced] at distinct small
          exact ⟨(List.nodup_cons.mp distinct).1, small s (List.mem_cons_self ..)⟩
        have done := runTask_books noise world (fun streamId => streamId ∈ h.terminalObserved) books fresh
          (fun s reads isOver => current task s (by simp [runs, queue]) reads isOver) order.quiet
        unfold TransportHost.settle
        refine InOrder.congr ?_ (perform_same _ _).1 (perform_same _ _).2.1 (perform_same _ _).2.2
        exact ⟨done.settle, rfl, (List.nodup_append.mp distinct).2.1,
          fun s member => small s (List.mem_append_right _ member)⟩

end

/-! ## Finished sessions -/

abbrev HostStep (R H T : Type) := Runs.Step (TransportHost H T) (Input R) (List Deed)

/-- A step of the past processed the end of the session of `s`. -/
def Finished (past : List (HostStep R H T)) (s : Nat) : Prop := ∃ step ∈ past, .sessionTerminal s ∈ step.output

/-- No task brings bytes or the end of a stream whose session is finished. -/
def NoStaleRead (steps : List (HostStep R H T)) : Prop :=
  ∀ past b rest task s, steps = past ++ b :: rest → runs b.before b.input = some task → task.reads = some s →
    Finished past s → b.before.desk.stopped = true

/-- An event of a finished session does nothing. -/
def IgnoresFinished (steps : List (HostStep R H T)) : Prop :=
  ∀ past b rest task s, steps = past ++ b :: rest → runs b.before b.input = some task → task.stream = some s →
    Finished past s → b.output = [] ∧ b.after = { b.before with queue := b.before.queue.tail }

section
variable {h₀ : TransportHost H T}

/-- The host that was just activated. -/
def TransportHost.activated (t : TargetTransport H T) : TransportHost H T := { desk := { supervisor := t } }

theorem activated_inOrder {t : TargetTransport H T} (sound : Sound t) (childless : ∀ s, t.registered s = none) :
    InOrder (fun _ => False) (TransportHost.activated t) := by
  refine ⟨⟨sound, fun s child found => ?_, fun s slot => (by cases slot), fun _ _ => rfl, fun s isOver => ?_⟩, rfl,
    List.nodup_nil, fun s member => (by cases member)⟩
  · cases (childless s).symm.trans found
  · rcases isOver with isOver | logged
    · cases isOver
    · cases logged

theorem reached_inOrder (order : InOrder (fun _ => False) h₀) (inputs : List (Input R))
    (current : NoStaleRead (Runs.trace (TransportHost.step noise) h₀ inputs)) :
    InOrder (Finished (Runs.trace (TransportHost.step noise) h₀ inputs))
      (Runs.final (TransportHost.step noise) h₀ inputs) := by
  refine Runs.guarded_invariant (fun past h => InOrder (Finished past) h)
    (fun past b => ∀ task s, runs b.before b.input = some task → task.reads = some s → Finished past s →
      b.before.desk.stopped = true) ?_ h₀ inputs ?_ ?_
  · intro past h input held current
    have next := step_inOrder noise held input current
    have same : Finished (past ++ [⟨h, input, (h.step noise input).1, (h.step noise input).2⟩]) =
        fun s => Finished past s ∨ .sessionTerminal s ∈ (h.step noise input).1 := by
      funext s
      simp [Finished, or_and_right, exists_or]
    rw [same]
    exact next
  · have none : Finished ([] : List (HostStep R H T)) = fun _ => False := by
      funext s
      simp [Finished]
    rw [none]
    exact order
  · intro past b rest split task s
    exact current past b rest task s split

/-- A late write completion finds no pending write. -/
theorem runTask_ignores (noise : Noise R H T) (world : World R) (observed : Nat → Bool) {ended : Nat → Prop}
    {waiting : List Nat} {next : Nat} {d : Desk H T} (books : Books ended waiting next d) {task : Task} {s : Nat}
    (stream : task.stream = some s) (isOver : Over ended d s) (current : task.reads = some s → d.stopped = true) :
    runTask noise world observed d task = d := by
  unfold runTask
  split
  · rfl
  · rename_i running
    cases task with
    | socket event =>
        cases event with
        | accepted | listenerFailed | peerUnsupported => cases stream
        | bytes streamId bytes => exact absurd (current stream) running
        | readEnded streamId failed => exact absurd (current stream) running
        | writeCompleted streamId token failed =>
            cases stream
            have none := (books.finished s isOver).1
            simp only [none]
            exact if_pos (by simp)
    | timer | eligibilityLost | close => cases stream

/-- In a run without stale reads, events of finished sessions do nothing. -/
theorem ignores_finished (order : InOrder (fun _ => False) h₀) (inputs : List (Input R))
    (current : NoStaleRead (Runs.trace (TransportHost.step noise) h₀ inputs)) :
    IgnoresFinished (Runs.trace (TransportHost.step noise) h₀ inputs) := by
  intro past b rest task s split running stream finished
  have notRead := current past b rest task s split running
  obtain ⟨first, input, last, rfl, rfl, rfl, -⟩ := Runs.trace_split split
  have reached := reached_inOrder order first fun past' b' rest' task' s' split' =>
    current past' b' (rest' ++ _) task' s' (by
      rw [Runs.trace_append, split', List.append_assoc]
      rfl)
  generalize Runs.final (TransportHost.step noise) h₀ first = h at *
  cases input with
  | connect | listenerFails | peerUnsupported | read | written | expire | eligibilityLost | close => cases running
  | run world =>
      have head : h.queue.head? = some task := running
      obtain ⟨tail, queue⟩ : ∃ tail, h.queue = task :: tail := by
        cases queue : h.queue with
        | nil =>
            rw [queue] at head
            cases head
        | cons first tail =>
            rw [queue] at head
            cases head
            exact ⟨tail, rfl⟩
      have ignored := runTask_ignores noise world (fun streamId => streamId ∈ h.terminalObserved) reached.books stream
        (.inl finished) (fun reads => notRead reads finished)
      have desk : ({ h.desk with log := [] } : Desk H T) = h.desk := by rw [← reached.quiet]
      simp only [TransportHost.step, queue, TransportHost.settle, ignored, reached.quiet, List.foldl_nil, desk,
        List.tail_cons, and_self]

end

end AppPilotKit.Host.Kotlin
