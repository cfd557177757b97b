import AppPilotKit.Lib.Runs
import AppPilotKit.Host.Swift

/-! # Runs of the iOS host

Every task keeps the books in order, as long as it brings no bytes and no end of a
stream whose session is over. A late write completion finds no pending write, and
a runtime that answers late is not the one of its stream any more.
-/

namespace AppPilotKit.Host.Swift

open Wire Transport Target Host

variable {R H T : Type} {noise : Noise R H T} {world : World R}

section
variable {ended : Nat → Prop} {waiting : List Nat} {next : Nat} {d : Desk H T}

/-- On iOS the waiting stream stays where it is while its session starts. -/
abbrev Books (ended : Nat → Prop) (waiting : List Nat) (next : Nat) (d : Desk H T) : Prop :=
  Kept True ended waiting next d

theorem wipePendingSession_books (h : Books ended waiting next d) : Books ended waiting next (wipePendingSession d) := by
  refine ⟨h.sound, fun s child found => ?_, fun s slot => (by cases slot), fun never => absurd trivial never, fun s isOver => ?_⟩
  · obtain ⟨unannounced, small, -⟩ := h.children s child found
    exact ⟨unannounced, small, fun slot => (by cases slot)⟩
  · obtain ⟨writes, runtimes, accepted, -⟩ := h.finished s isOver
    exact ⟨writes, runtimes, accepted, fun slot => (by cases slot)⟩

/-- What `process` has to do for the functions that call it. -/
def Keeps (ended : Nat → Prop) (waiting : List Nat) (next : Nat) (process : Desk H T → Outcome → Desk H T) : Prop :=
  ∀ d o, Books ended waiting next d → Fits ended waiting next d o → Books ended waiting next (process d o)

variable {process : Desk H T → Outcome → Desk H T}

theorem internalFailure_books (keeps : Keeps ended waiting next process) (h : Books ended waiting next d) :
    Books ended waiting next (internalFailure noise world process d) :=
  Kept.internalFailure (fun _ => Kept.leaseTerminal) keeps h

theorem driveAndProcess_books (keeps : Keeps ended waiting next process) (h : Books ended waiting next d) {event : Event}
    (free : event.streamId = 0 ∨ ¬ Over ended d event.streamId)
    (joins : event.tag = .sessionAccepted → event.streamId ∉ waiting ∧ event.streamId < next ∧ d.composed = true) :
    Books ended waiting next (driveAndProcess noise world process d event) :=
  Kept.driveAndProcess (fun _ => Kept.leaseTerminal) keeps h free joins

theorem application_books (keeps : Keeps ended waiting next process) (h : Books ended waiting next d) {o : Outcome}
    (free : o.streamId = 0 ∨ ¬ Over ended d o.streamId) :
    Books ended waiting next (application noise world process d o) := by
  unfold application
  split
  · exact internalFailure_books keeps h
  · rename_i valid
    push Not at valid
    exact (h.runtimeFor (free.resolve_left valid.1)).note (fun s => by simp)

theorem leaseReady_books (keeps : Keeps ended waiting next process) (h : Books ended waiting next d) (o : Outcome) :
    Books ended waiting next (leaseReady noise world process d o) := by
  unfold leaseReady
  split
  · exact internalFailure_books keeps h
  · split
    · exact internalFailure_books keeps h
    · have composed : Books ended waiting next { d with composed := true } := by
        refine ⟨h.sound, fun s child found => ?_, h.pending, fun never => absurd trivial never, h.finished⟩
        obtain ⟨unannounced, small, -⟩ := h.children s child found
        exact ⟨unannounced, small, fun _ => rfl⟩
      have rest {d' : Desk H T} (started : Books ended waiting next d') :
          Books ended waiting next (if d'.stopped then d' else d'.note (.receive o.streamId)) := by
        split
        · exact started
        · exact started.note (fun s => by simp)
      dsimp only
      refine rest ?_
      split
      · rename_i streamId pending
        have waited := h.pending streamId pending
        refine driveAndProcess_books keeps composed (.inr fun isOver => ?_) (fun _ => ⟨waited.1, waited.2, rfl⟩)
        exact (h.finished streamId isOver).2.2.2 pending
      · exact composed

theorem needInput_books (keeps : Keeps ended waiting next process) (h : Books ended waiting next d) {s : Nat}
    (free : s = 0 ∨ ¬ Over ended d s) : Books ended waiting next (needInput noise world process d s) := by
  unfold needInput
  split
  · exact h
  · rename_i nonzero
    split
    · exact h.note (fun s => by simp)
    · have wiped := wipePendingSession_books h
      dsimp only
      split
      · exact wiped.note (fun s => by simp)
      · exact driveAndProcess_books keeps wiped (.inr (free.resolve_left nonzero)) (fun tag => by cases tag)

theorem sessionTerminal_books (h : Books ended waiting next d) {s : Nat} (accepted : s ∉ waiting ∧ s < next) :
    Books ended waiting next (sessionTerminal d s) := by
  unfold sessionTerminal
  split
  · exact h
  · dsimp only
    split
    · exact (wipePendingSession_books h).sessionTerminal accepted (fun slot => by cases slot)
    · rename_i notPending
      exact h.sessionTerminal accepted notPending

theorem process_books (rounds : Nat) : Keeps ended waiting next (Swift.process noise world rounds) := by
  induction rounds with
  | zero =>
      intro d o h _
      exact h
  | succ rounds ih =>
      intro d o h fits
      unfold Swift.process
      split
      · exact h
      · replace h := h.scheduleDeadline o
        replace fits := fits.scheduleDeadline o
        dsimp only
        split
        · rename_i kind
          exact needInput_books ih h (fits.named (by simp [kind]))
        · rename_i kind
          have free := fits.named (by simp [kind])
          cases written : (d.scheduleDeadline o).write o with
          | none => exact internalFailure_books ih h
          | some d' => exact h.write free written
        · rename_i kind
          exact application_books ih h (fits.named (by simp [kind]))
        · exact leaseReady_books ih h o
        · rename_i kind
          exact sessionTerminal_books h (fits.terminal kind).1
        · exact h.leaseTerminal
        · exact h.leaseTerminal
        · exact internalFailure_books ih h

theorem advance_books (h : Books ended waiting next d) {event : Event}
    (free : event.streamId = 0 ∨ ¬ Over ended d event.streamId)
    (joins : event.tag = .sessionAccepted → event.streamId ∉ waiting ∧ event.streamId < next ∧ d.composed = true) :
    Books ended waiting next (advance noise world d event) :=
  driveAndProcess_books (process_books depth) h free joins

theorem fail_books (h : Books ended waiting next d) : Books ended waiting next (fail noise world d) :=
  internalFailure_books (process_books depth) h

/-- The stream that a task announces. -/
def Task.announced : Task → Option Nat
  | .socket (.accepted streamId) => some streamId
  | _ => none

/-- The stream whose bytes or end a task brings. -/
def Task.reads : Task → Option Nat
  | .socket (.received streamId bytes ended failed) => if bytes ≠ [] ∨ ended || failed then some streamId else none
  | .ending streamId _ => some streamId
  | _ => none

/-- The stream that an event after the acceptance belongs to. -/
def Task.stream : Task → Option Nat
  | .socket (.received streamId _ _ _) | .ending streamId _ | .socket (.writeCompleted streamId _ _)
  | .handled streamId _ => some streamId
  | _ => none

theorem accepted_books {s : Nat} (h : Books ended (s :: waiting) next d) (fresh : s ∉ waiting) (small : s < next) :
    Books ended waiting next (accepted noise world d s) := by
  have notOver : ¬ Over ended d s := fun isOver => (h.finished s isOver).2.2.1.1 (List.mem_cons_self ..)
  have rest : Books ended waiting next d := h.less (List.subset_cons_self _ _)
  unfold accepted
  split
  · exact fail_books rest
  · split
    · refine advance_books ?_ (.inr notOver) (fun tag => by cases tag)
      exact ⟨rest.sound, rest.children, rest.pending, rest.clear, rest.finished⟩
    · split
      · split
        · exact rest.note (fun s => by simp)
        · exact h.wait fresh small notOver (fun never => absurd trivial never)
      · rename_i composed
        refine advance_books rest (.inr notOver) (fun _ => ⟨fresh, small, ?_⟩)
        simpa using composed

theorem ending_books (h : Books ended waiting next d) {s : Nat} (free : ¬ Over ended d s) (failed : Bool) :
    Books ended waiting next (ending noise world d s failed) := by
  refine advance_books h (.inr free) fun tag => ?_
  cases failed with
  | false => cases tag
  | true => cases tag

/-- A task keeps the books, unless it brings bytes or the end of a stream that is over. -/
theorem runTask_books (noise : Noise R H T) (world : World R) {task : Task}
    (h : Books ended (task.announced.toList ++ waiting) next d)
    (fresh : ∀ s, task.announced = some s → s ∉ waiting ∧ s < next)
    (current : ∀ s, task.reads = some s → ended s → d.stopped = true) (quiet : d.log = []) :
    Books ended waiting next (runTask noise world d task).1 := by
  have rest : Books ended waiting next d := h.less (List.subset_append_right _ _)
  unfold runTask
  split
  · exact rest
  · rename_i running
    have free (s : Nat) (reads : task.reads = some s) : ¬ Over ended d s := by
      rintro (isOver | logged)
      · exact running (current s reads isOver)
      · rw [quiet] at logged
        cases logged
    split
    · rename_i streamId
      obtain ⟨unannounced, small⟩ := fresh streamId rfl
      exact accepted_books h unannounced small
    · split
      · have buffered (bytes : Bytes) : Books ended waiting next { d with pendingSessionBytes := bytes } :=
          ⟨rest.sound, rest.children, rest.pending, rest.clear, rest.finished⟩
        dsimp only
        split
        · exact wipePendingSession_books (buffered _)
        · exact buffered _
      · split
        · rename_i nonempty
          exact advance_books rest (.inr (free _ (if_pos (.inl nonempty)))) (fun tag => by cases tag)
        · split
          · rename_i ends
            exact ending_books rest (free _ (if_pos (.inr ends))) _
          · exact rest
    · exact ending_books rest (free _ rfl) _
    · rename_i streamId token failed
      split
      · exact rest
      · rename_i pending
        have notOver : ¬ Over ended (d.wipePendingWrite streamId) streamId := by
          intro isOver
          have none := (rest.finished streamId isOver).1
          rw [none] at pending
          simp at pending
        refine advance_books (rest.wipePendingWrite streamId) (.inr ?_) (fun tag => ?_)
        · cases failed with
          | false => exact notOver
          | true => exact notOver
        · cases failed with
          | false => cases tag
          | true => cases tag
    · exact fail_books rest
    · rename_i streamId runtime
      split
      · exact rest
      · rename_i present
        refine advance_books rest (.inr fun isOver => ?_) (fun tag => by cases tag)
        have none := (rest.finished streamId isOver).2.1
        rw [none] at present
        simp at present
    · refine advance_books ?_ (.inl rfl) (fun tag => by cases tag)
      exact ⟨rest.sound, rest.children, rest.pending, rest.clear, rest.finished⟩
    · exact advance_books rest (.inl rfl) (fun tag => by cases tag)
    · exact rest.leaseTerminal

/-- The task that a task leaves behind announces nothing. -/
theorem runTask_left (noise : Noise R H T) (world : World R) (d : Desk H T) (task : Task) :
    (runTask noise world d task).2.filterMap Task.announced = [] := by
  unfold runTask
  split
  · rfl
  · split
    · rfl
    · split
      · rfl
      · split
        · dsimp only
          split
          · rfl
          · rfl
        · split
          · rfl
          · rfl
    · rfl
    · split
      · rfl
      · rfl
    · rfl
    · split
      · rfl
      · rfl
    · rfl
    · rfl
    · rfl

/-- A late write completion finds no pending write, a late answer no runtime. -/
theorem runTask_ignores (noise : Noise R H T) (world : World R) (books : Books ended waiting next d) {task : Task}
    {s : Nat} (stream : task.stream = some s) (isOver : Over ended d s)
    (current : task.reads = some s → d.stopped = true) : runTask noise world d task = (d, []) := by
  unfold runTask
  split
  · rfl
  · rename_i running
    have rest := books.finished s isOver
    cases task with
    | socket event =>
        cases event with
        | accepted | listenerFailed => cases stream
        | received streamId bytes ended failed =>
            cases stream
            by_cases brings : bytes ≠ [] ∨ ended || failed
            · exact absurd (current (if_pos brings)) running
            · push Not at brings
              simp [rest.2.2.2, brings.1, brings.2]
        | writeCompleted streamId token failed =>
            cases stream
            have none := rest.1
            simp only [none]
            exact if_pos (by simp)
    | ending streamId failed => exact absurd (current stream) running
    | handled streamId runtime =>
        cases stream
        have none := rest.2.1
        simp only [none]
        exact if_pos (by simp)
    | timer | eligibilityLost | stop => cases stream

end

/-! ## The host -/

/-- The streams whose acceptance is still to come. -/
def TransportHost.waiting (h : TransportHost H T) : List Nat := h.connecting ++ h.tasks.filterMap Task.announced

/-- The books are in order between two steps. -/
structure InOrder (ended : Nat → Prop) (h : TransportHost H T) : Prop where
  books : Books ended h.waiting h.nextStreamId h.desk
  quiet : h.desk.log = []
  distinct : h.waiting.Nodup
  small : ∀ s ∈ h.waiting, s < h.nextStreamId

/-- The task that a step runs. -/
def runs (h : TransportHost H T) : Input R → Option Task
  | .run index _ => h.tasks[index]?
  | _ => none

section
variable {ended : Nat → Prop} {h : TransportHost H T}

/-- Only the desk, the numbers and the streams still to come matter. -/
theorem InOrder.congr {h' : TransportHost H T} (order : InOrder ended h) (desk : h'.desk = h.desk)
    (next : h'.nextStreamId = h.nextStreamId) (fewer : h'.waiting ⊆ h.waiting) (distinct : h'.waiting.Nodup) :
    InOrder ended h' := by
  refine ⟨?_, desk ▸ order.quiet, distinct, fun s member => ?_⟩
  · rw [desk, next]
    exact order.books.less fewer
  · rw [next]
    exact order.small s (fewer member)

theorem InOrder.same {h' : TransportHost H T} (order : InOrder ended h) (desk : h'.desk = h.desk)
    (next : h'.nextStreamId = h.nextStreamId) (waiting : h'.waiting = h.waiting) : InOrder ended h' := by
  refine order.congr desk next ?_ ?_
  · rw [waiting]
    exact List.Subset.refl _
  · rw [waiting]
    exact order.distinct

theorem waiting_append (h : TransportHost H T) {task : Task} (silent : task.announced = none) :
    TransportHost.waiting { h with tasks := h.tasks ++ [task] } = h.waiting := by
  unfold TransportHost.waiting
  simp [silent]

theorem InOrder.deliver (order : InOrder ended h) {event : SocketEvent}
    (silent : (Task.socket event).announced = none) : InOrder ended (h.deliver event) := by
  unfold TransportHost.deliver
  split
  · exact order
  · exact order.same rfl rfl (waiting_append h silent)

theorem perform_same (h : TransportHost H T) (deeds : List Deed) :
    (deeds.foldl TransportHost.perform h).desk = h.desk ∧
      (deeds.foldl TransportHost.perform h).nextStreamId = h.nextStreamId ∧
      (deeds.foldl TransportHost.perform h).waiting.Sublist h.waiting := by
  induction deeds generalizing h with
  | nil => exact ⟨rfl, rfl, List.Sublist.refl _⟩
  | cons deed deeds ih =>
      obtain ⟨desk, next, waiting⟩ := ih (h.perform deed)
      have one : (h.perform deed).desk = h.desk ∧ (h.perform deed).nextStreamId = h.nextStreamId ∧
          (h.perform deed).waiting.Sublist h.waiting := by
        cases deed with
        | handle streamId runtime =>
            refine ⟨rfl, rfl, ?_⟩
            rw [show (h.perform (.handle streamId runtime)).waiting = h.waiting from waiting_append h rfl]
        | leaseTerminal => exact ⟨rfl, rfl, List.sublist_append_right _ _⟩
        | drove | receive | write | close | arm | sessionTerminal => exact ⟨rfl, rfl, List.Sublist.refl _⟩
      exact ⟨desk.trans one.1, next.trans one.2.1, waiting.trans one.2.2⟩

theorem InOrder.connect (order : InOrder ended h) : InOrder ended h.connect := by
  unfold TransportHost.connect
  split
  · exact order
  · split
    · refine ⟨?_, order.quiet, ?_, ?_⟩
      · refine order.books.announce.less fun s member => ?_
        rcases List.mem_cons.mp member with rfl | member
        · simp
        · exact List.mem_append_left _ member
      · refine List.nodup_cons.mpr ⟨fun member => ?_, order.distinct⟩
        exact (order.small _ member).ne rfl
      · intro s member
        rcases List.mem_cons.mp member with rfl | member
        · exact Nat.lt_succ_self _
        · exact (order.small s member).trans (Nat.lt_succ_self _)
    · exact order.deliver rfl

theorem InOrder.ready (order : InOrder ended h) {streamId : Nat} (connecting : streamId ∈ h.connecting) :
    InOrder ended (TransportHost.deliver { h with connecting := h.connecting.erase streamId } (.accepted streamId)) := by
  unfold TransportHost.deliver
  split
  · have fewer : (h.connecting.erase streamId ++ h.tasks.filterMap Task.announced).Sublist h.waiting :=
      List.Sublist.append_right List.erase_sublist _
    exact order.congr rfl rfl fewer.subset (order.distinct.sublist fewer)
  · have moved : List.Perm (h.connecting.erase streamId ++ (h.tasks ++ [Task.socket (.accepted streamId)]).filterMap
        Task.announced) h.waiting := by
      have tail : (h.tasks ++ [Task.socket (.accepted streamId)]).filterMap Task.announced =
          h.tasks.filterMap Task.announced ++ [streamId] := by
        simp [Task.announced]
      rw [tail]
      calc (h.connecting.erase streamId ++ (h.tasks.filterMap Task.announced ++ [streamId])).Perm
            (streamId :: (h.connecting.erase streamId ++ h.tasks.filterMap Task.announced)) := by
              rw [← List.append_assoc]
              exact List.perm_append_singleton _ _
        List.Perm _ h.waiting := by
              rw [← List.cons_append]
              exact (List.perm_cons_erase connecting).symm.append_right _
    exact order.congr rfl rfl moved.subset (moved.symm.nodup order.distinct)

theorem InOrder.dispatch (order : InOrder ended h) : InOrder ended h.dispatch := by
  unfold TransportHost.dispatch
  split
  · exact order
  · dsimp only
    split
    · exact order.same rfl rfl rfl
    · exact order.same rfl rfl rfl
  · dsimp only
    split
    · exact order.same rfl rfl rfl
    · refine InOrder.deliver ?_ rfl
      exact order.same rfl rfl rfl
  · exact order.same rfl rfl rfl

/-- Running a task takes it out of the delivered ones, wherever it stood. -/
theorem waiting_run {index : Nat} {task : Task} (found : h.tasks[index]? = some task) :
    h.waiting.Perm (task.announced.toList ++ (h.connecting ++ (h.tasks.eraseIdx index).filterMap Task.announced)) := by
  obtain ⟨inside, rfl⟩ := List.getElem?_eq_some_iff.mp found
  have taken := (List.getElem_cons_eraseIdx_perm inside).symm.filterMap Task.announced
  rw [List.filterMap_cons] at taken
  unfold TransportHost.waiting
  generalize h.tasks[index].announced = announced at *
  cases announced with
  | none => exact taken.append_left _
  | some s =>
      calc (h.connecting ++ h.tasks.filterMap Task.announced).Perm
            (h.connecting ++ s :: (h.tasks.eraseIdx index).filterMap Task.announced) := taken.append_left _
        List.Perm _ (s :: (h.connecting ++ (h.tasks.eraseIdx index).filterMap Task.announced)) := List.perm_middle

theorem InOrder.run (noise : Noise R H T) (world : World R) (order : InOrder ended h) {index : Nat} {task : Task}
    (found : h.tasks[index]? = some task)
    (current : ∀ s, task.reads = some s → ended s → h.desk.stopped = true) :
    InOrder (Over ended (runTask noise world h.desk task).1)
      (TransportHost.settle { h with tasks := h.tasks.eraseIdx index } (runTask noise world h.desk task)).2 := by
  have moved := waiting_run found
  have books := order.books.less moved.symm.subset
  have distinct := moved.nodup order.distinct
  have small : ∀ s ∈ _, s < h.nextStreamId := fun s member => order.small s (moved.symm.subset member)
  have left := runTask_left noise world h.desk task
  have fresh (s : Nat) (announced : task.announced = some s) :
      s ∉ h.connecting ++ (h.tasks.eraseIdx index).filterMap Task.announced ∧ s < h.nextStreamId := by
    rw [announced] at distinct small
    exact ⟨(List.nodup_cons.mp distinct).1, small s (List.mem_cons_self ..)⟩
  have done := runTask_books noise world books fresh current order.quiet
  generalize runTask noise world h.desk task = r at *
  unfold TransportHost.settle
  have waiting : TransportHost.waiting
      { h with desk := { r.1 with log := [] }, tasks := h.tasks.eraseIdx index ++ r.2 } =
      h.connecting ++ (h.tasks.eraseIdx index).filterMap Task.announced := by
    unfold TransportHost.waiting
    rw [List.filterMap_append, left, List.append_nil]
  have settled : InOrder (Over ended r.1)
      { h with desk := { r.1 with log := [] }, tasks := h.tasks.eraseIdx index ++ r.2 } := by
    refine ⟨?_, rfl, ?_, ?_⟩
    · rw [waiting]
      exact done.settle
    · rw [waiting]
      exact (List.nodup_append.mp distinct).2.1
    · rw [waiting]
      exact fun s member => small s (List.mem_append_right _ member)
  obtain ⟨desk, next, fewer⟩ := perform_same
    { h with desk := { r.1 with log := [] }, tasks := h.tasks.eraseIdx index ++ r.2 } r.1.log
  exact settled.congr desk next fewer.subset (settled.distinct.sublist fewer)

/-- A step keeps the books in order, unless it brings bytes or the end of a stream that is over. -/
theorem step_inOrder (noise : Noise R H T) (order : InOrder ended h) (input : Input R)
    (current : ∀ task s, runs h input = some task → task.reads = some s → ended s → h.desk.stopped = true) :
    InOrder (fun s => ended s ∨ .sessionTerminal s ∈ (h.step noise input).1) (h.step noise input).2 := by
  -- a step that leaves the desk alone does nothing
  have idle {h' : TransportHost H T} (order' : InOrder ended h') :
      InOrder (fun s => ended s ∨ .sessionTerminal s ∈ ([] : List Deed)) h' := by
    have same : (fun s => ended s ∨ .sessionTerminal s ∈ ([] : List Deed)) = ended := by
      funext s
      simp
    rw [same]
    exact order'
  cases input with
  | connect => exact idle order.connect
  | ready streamId =>
      apply idle
      simp only [TransportHost.step]
      split
      · rename_i connecting
        exact order.ready connecting.1
      · exact order
  | fails streamId failed | receives streamId bytes ended failed | sent streamId token failed | listenerFails =>
      apply idle
      simp only [TransportHost.step]
      split
      · refine InOrder.deliver ?_ rfl
        exact order.same rfl rfl rfl
      · exact order
  | dispatch => exact idle order.dispatch
  | expire token =>
      apply idle
      simp only [TransportHost.step]
      split
      · exact order.same rfl rfl (waiting_append h rfl)
      · exact order
  | eligibilityLost => exact idle (order.same rfl rfl (waiting_append h rfl))
  | stop => exact idle (order.same rfl rfl (waiting_append h rfl))
  | run index world =>
      unfold TransportHost.step
      dsimp only
      split
      · exact idle order
      · rename_i task found
        exact order.run noise world found (current task · found)

end

/-! ## Finished sessions -/

abbrev HostStep (R H T : Type) := Runs.Step (TransportHost H T) (Input R) (List Deed)

/-- A step of the past processed the end of the session of `s`. -/
def Finished (past : List (HostStep R H T)) (s : Nat) : Prop := ∃ step ∈ past, .sessionTerminal s ∈ step.output

/-- No task brings bytes or the end of a stream whose session is finished. -/
def NoStaleRead (steps : List (HostStep R H T)) : Prop :=
  ∀ past b rest task s, steps = past ++ b :: rest → runs b.before b.input = some task → task.reads = some s →
    Finished past s → b.before.desk.stopped = true

/-- An event of a finished session does nothing: its task is gone, and that is all. -/
def IgnoresFinished (steps : List (HostStep R H T)) : Prop :=
  ∀ past b rest index world task s, steps = past ++ b :: rest → b.input = .run index world →
    b.before.tasks[index]? = some task → task.stream = some s → Finished past s →
    b.output = [] ∧ b.after = { b.before with tasks := b.before.tasks.eraseIdx index }

section
variable {h₀ : TransportHost H T}

/-- The host that was just activated. -/
def TransportHost.activated (t : TargetTransport H T) : TransportHost H T := { desk := { supervisor := t } }

theorem activated_inOrder {t : TargetTransport H T} (sound : Sound t) (childless : ∀ s, t.registered s = none) :
    InOrder (fun _ => False) (TransportHost.activated t) := by
  refine ⟨⟨sound, fun s child found => ?_, fun s slot => (by cases slot), fun _ _ => rfl, fun s isOver => ?_⟩, rfl,
    List.nodup_nil, fun s member => (by cases member)⟩
  · cases (childless s).symm.trans found
  · rcases isOver with isOver | logged
    · cases isOver
    · cases logged

theorem reached_inOrder (order : InOrder (fun _ => False) h₀) (inputs : List (Input R))
    (current : NoStaleRead (Runs.trace (TransportHost.step noise) h₀ inputs)) :
    InOrder (Finished (Runs.trace (TransportHost.step noise) h₀ inputs))
      (Runs.final (TransportHost.step noise) h₀ inputs) := by
  refine Runs.guarded_invariant (fun past h => InOrder (Finished past) h)
    (fun past b => ∀ task s, runs b.before b.input = some task → task.reads = some s → Finished past s →
      b.before.desk.stopped = true) ?_ h₀ inputs ?_ ?_
  · intro past h input held current
    have next := step_inOrder noise held input current
    have same : Finished (past ++ [⟨h, input, (h.step noise input).1, (h.step noise input).2⟩]) =
        fun s => Finished past s ∨ .sessionTerminal s ∈ (h.step noise input).1 := by
      funext s
      simp [Finished, or_and_right, exists_or]
    rw [same]
    exact next
  · have none : Finished ([] : List (HostStep R H T)) = fun _ => False := by
      funext s
      simp [Finished]
    rw [none]
    exact order
  · intro past b rest split task s
    exact current past b rest task s split

/-- In a run without stale reads, events of finished sessions do nothing. -/
theorem ignores_finished (order : InOrder (fun _ => False) h₀) (inputs : List (Input R))
    (current : NoStaleRead (Runs.trace (TransportHost.step noise) h₀ inputs)) :
    IgnoresFinished (Runs.trace (TransportHost.step noise) h₀ inputs) := by
  intro past b rest index world task s split isRun found stream finished
  have notRead := current past b rest task s split (by rw [isRun]; exact found)
  obtain ⟨first, input, last, rfl, rfl, rfl, -⟩ := Runs.trace_split split
  have reached := reached_inOrder order first fun past' b' rest' task' s' split' =>
    current past' b' (rest' ++ _) task' s' (by
      rw [Runs.trace_append, split', List.append_assoc]
      rfl)
  generalize Runs.final (TransportHost.step noise) h₀ first = h at *
  cases isRun
  have ignored := runTask_ignores noise world reached.books stream (.inl finished)
    (fun reads => notRead reads finished)
  have desk : ({ h.desk with log := [] } : Desk H T) = h.desk := by rw [← reached.quiet]
  simp only [TransportHost.step, show h.tasks[index]? = some task from found, TransportHost.settle, ignored,
    reached.quiet, List.foldl_nil, desk, List.append_nil, and_self]

end

end AppPilotKit.Host.Swift
