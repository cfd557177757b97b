import AppPilotKit.Host.KotlinLifecycle
import AppPilotKit.Host.KotlinRuns

/-! # Blocks of the lifecycle thread

A block ends the lease at most once, as its last deed, and then nothing of the lease is left.
-/

namespace AppPilotKit.Host.Kotlin

open Wire Transport Target Host

variable {R H T : Type}

/-! ## One block on the desk -/

/-- The lease goes on. -/
structure Running (d : Desk H T) : Prop where
  running : d.stopped = false
  log : .leaseTerminal ∉ d.log

/-- The lease has ended, as the last deed, and the books are empty. -/
structure Ended (d : Desk H T) : Prop where
  stopped : d.stopped = true
  books : d.runtimes = ∅ ∧ d.pendingWrites = ∅ ∧ d.pendingTimers = [] ∧ d.pendingSession = none ∧ d.composed = false
  log : ∃ before, d.log = before ++ [.leaseTerminal] ∧ .leaseTerminal ∉ before

def Decided (d : Desk H T) : Prop := Running d ∨ Ended d

section
variable {noise : Noise R H T} {world : World R} {observed : Nat → Bool} {d : Desk H T}

theorem Running.congr {d' : Desk H T} (running : Running d) (stopped : d'.stopped = d.stopped) (log : d'.log = d.log) :
    Running d' :=
  ⟨stopped.trans running.running, log ▸ running.log⟩

/-- Another deed is done, and perhaps something else is changed. -/
theorem Running.noted {d' : Desk H T} (deed : Deed) (running : Running d) (stopped : d'.stopped = d.stopped)
    (log : d'.log = d.log ++ [deed]) (other : deed ≠ .leaseTerminal) : Running d' := by
  refine ⟨stopped.trans running.running, fun member => ?_⟩
  rw [log] at member
  rcases List.mem_append.mp member with old | new
  · exact running.log old
  · exact other (List.mem_singleton.mp new).symm

theorem Running.leaseTerminal (running : Running d) : Ended (leaseTerminal d) := by
  have ongoing := running.running
  unfold Kotlin.leaseTerminal Desk.leaseTerminal
  rw [if_neg (by simp [ongoing])]
  refine ⟨rfl, ⟨rfl, rfl, rfl, rfl, ?_⟩, d.log, rfl, running.log⟩
  show (d.composed && d.stopped) = false
  rw [ongoing, Bool.and_false]

theorem Running.drive (noise : Noise R H T) (running : Running d) (entropy : R) (event : Event) : Running (d.drive noise entropy event).2 :=
  running.noted (.drove event (d.supervisor.drive noise entropy event).1) rfl rfl nofun

/-- What `process` has to do for the functions that call it. -/
def Decides (process : Desk H T → Outcome → Desk H T) : Prop := ∀ d o, Running d → Decided (process d o)

variable {process : Desk H T → Outcome → Desk H T}

theorem internalFailure_decides (decides : Decides process) (running : Running d) :
    Decided (internalFailure noise world process d) := by
  unfold internalFailure Desk.internalFailure
  rw [if_neg (by simp [running.running])]
  have driven := running.drive noise world.entropy { tag := .internalError }
  split
  · next eq =>
      rw [eq] at driven
      exact decides _ _ driven
  · next eq =>
      rw [eq] at driven
      exact .inr driven.leaseTerminal

theorem driveAndProcess_decides (decides : Decides process) (running : Running d) (event : Event) :
    Decided (driveAndProcess noise world process d event) := by
  unfold driveAndProcess Desk.driveAndProcess
  rw [if_neg (by simp [running.running])]
  have driven := running.drive noise world.entropy event
  split
  · next eq =>
      rw [eq] at driven
      exact decides _ _ driven
  · next eq =>
      rw [eq] at driven
      exact internalFailure_decides decides driven

theorem scheduleDeadline_running (running : Running d) (o : Outcome) : Running (d.scheduleDeadline o) := by
  unfold Desk.scheduleDeadline
  split
  · next token _ =>
      split
      · exact running
      · exact running.noted (.arm token) rfl rfl nofun
  · exact running

theorem application_decides (decides : Decides process) (running : Running d) (o : Outcome) :
    Decided (application noise world observed process d o) := by
  have runs : Running (d.runtimeFor o.streamId).2 := by
    unfold Desk.runtimeFor
    split
    · exact running
    · exact ⟨running.running, running.log⟩
  unfold application
  dsimp only
  split
  · exact internalFailure_decides decides running
  split
  · exact internalFailure_decides decides runs
  split
  · exact .inl runs
  · exact driveAndProcess_decides decides runs _

theorem leaseReady_decides (decides : Decides process) (running : Running d) (o : Outcome) :
    Decided (leaseReady noise world process d o) := by
  unfold leaseReady
  split
  · exact internalFailure_decides decides running
  split
  · exact internalFailure_decides decides running
  dsimp only
  split
  · refine driveAndProcess_decides decides ?_ _
    exact running.noted (.receive o.streamId) rfl rfl nofun
  · exact .inl (running.noted (.receive o.streamId) rfl rfl nofun)

theorem process_decides (rounds : Nat) : Decides (Kotlin.process noise world observed rounds) := by
  induction rounds with
  | zero => exact fun d o running => .inl running
  | succ rounds ih =>
      intro d o running
      unfold Kotlin.process
      rw [if_neg (by simp [running.running])]
      have scheduled := scheduleDeadline_running running o
      dsimp only
      split
      · split
        · exact .inl scheduled
        · exact .inl (scheduled.noted (.receive o.streamId) rfl rfl nofun)
      · cases written : (d.scheduleDeadline o).write o with
        | none => exact internalFailure_decides ih scheduled
        | some d' =>
            unfold Desk.write at written
            split at written
            · cases written
            · cases written
              exact .inl (scheduled.noted (.write o.streamId o.writeToken) rfl rfl nofun)
      · exact application_decides ih scheduled o
      · exact leaseReady_decides ih scheduled o
      · unfold sessionTerminal
        split
        · exact .inl scheduled
        · have ended : Running ((d.scheduleDeadline o).note (.sessionTerminal o.streamId)) :=
            scheduled.noted (.sessionTerminal o.streamId) rfl rfl nofun
          exact .inl (ended.noted (.close o.streamId) rfl rfl nofun)
      · exact .inr scheduled.leaseTerminal
      · exact .inr scheduled.leaseTerminal
      · exact internalFailure_decides ih scheduled

theorem fail_decides (running : Running d) : Decided (fail noise world observed d) :=
  internalFailure_decides (process_decides depth) running

theorem advance_decides (running : Running d) (event : Event) : Decided (advance noise world observed d event) :=
  driveAndProcess_decides (process_decides depth) running event

theorem accepted_decides (running : Running d) (streamId : Nat) : Decided (accepted noise world observed d streamId) := by
  unfold accepted
  split
  · exact fail_decides running
  split
  · refine advance_decides ?_ _
    exact running.congr rfl rfl
  split
  · split
    · exact .inl (running.noted (.close streamId) rfl rfl nofun)
    · exact .inl (running.congr rfl rfl)
  · exact advance_decides running _

theorem runTask_decides (running : Running d) (task : Task) : Decided (runTask noise world observed d task) := by
  unfold runTask
  rw [if_neg (by simp [running.running])]
  split
  · exact accepted_decides running _
  · exact advance_decides running _
  · exact advance_decides running _
  · split
    · exact .inl running
    · refine advance_decides ?_ _
      exact running.congr rfl rfl
  · exact fail_decides running
  · exact fail_decides running
  · refine advance_decides ?_ _
    exact running.congr rfl rfl
  · exact advance_decides running _
  · exact .inr running.leaseTerminal

theorem activate_decides (running : Running d) (initial : Outcome) (binds started : Bool) :
    Decided (activate noise world initial binds started d).2.2 := by
  unfold activate
  split
  · exact .inl running
  split
  · exact .inl running
  · dsimp only
    split
    · exact .inl (scheduleDeadline_running running initial)
    · exact fail_decides (scheduleDeadline_running running initial)

end

/-! ## One block on the host -/

def endsLease : Deed → Bool
  | .leaseTerminal => true
  | _ => false

/-- Nothing is left that the end of the lease releases. -/
structure Released (h : TransportHost H T) : Prop where
  stopped : h.desk.stopped = true
  books : h.desk.runtimes = ∅ ∧ h.desk.pendingWrites = ∅ ∧ h.desk.pendingTimers = [] ∧ h.desk.pendingSession = none ∧
    h.desk.composed = false
  timers : h.armed = []
  listener : h.listening = false

/-- A host between two blocks, after the lease was ended `count` times. -/
structure Tidy (count : Nat) (h : TransportHost H T) : Prop where
  log : h.desk.log = []
  once : count = if h.desk.stopped then 1 else 0
  released : h.desk.stopped = true → Released h

section
variable {h : TransportHost H T} {d : Desk H T} {count : Nat}

theorem countP_endsLease {deeds : List Deed} (absent : .leaseTerminal ∉ deeds) : deeds.countP endsLease = 0 := by
  rw [List.countP_eq_zero]
  intro deed member ends
  cases deed with
  | leaseTerminal => exact absent member
  | drove | receive | write | close | arm | handle | sessionTerminal => cases ends

/-- A desk that stood still. -/
theorem settle_still (tidy : Tidy count h) : h.settle h.desk = ([], h) := by
  have desk : ({ h.desk with log := [] } : Desk H T) = h.desk := by rw [← tidy.log]
  unfold TransportHost.settle
  rw [tidy.log, desk]
  rfl

theorem settle_tidy (ongoing : h.desk.stopped = false) (tidy : Tidy count h) (decided : Decided d) :
    Tidy (count + (h.settle d).1.countP endsLease) (h.settle d).2 := by
  have none := tidy.once
  rw [ongoing, if_neg Bool.false_ne_true] at none
  subst none
  rw [Nat.zero_add]
  obtain ⟨desk, -, -⟩ := perform_same { h with desk := { d with log := [] } } d.log
  unfold TransportHost.settle
  dsimp only
  rcases decided with running | ended
  · refine ⟨by rw [desk], ?_, fun stopped => ?_⟩
    · rw [countP_endsLease running.log, desk]
      exact (if_neg (by simp [running.running])).symm
    · rw [desk] at stopped
      cases running.running.symm.trans stopped
  · obtain ⟨before, log, absent⟩ := ended.log
    refine ⟨by rw [desk], ?_, fun _ => ?_⟩
    · rw [desk, log, List.countP_append, countP_endsLease absent]
      exact (if_pos ended.stopped).symm
    · rw [log, List.foldl_append] at desk ⊢
      exact ⟨(congrArg (·.stopped) desk).trans ended.stopped, by rw [desk]; exact ended.books, rfl, rfl⟩

/-- What a block or an event does to a host. -/
structure Turned (count : Nat) (h : TransportHost H T) (deeds : List Deed) (h' : TransportHost H T) : Prop where
  tidy : Tidy (count + deeds.countP endsLease) h'
  stays : h.desk.stopped = true → h'.desk.stopped = true
  sockets : h'.desk.stopped = true → (h.desk.stopped = true → h.streams = []) → h'.streams = []

theorem Turned.refl (tidy : Tidy count h) : Turned count h [] h := ⟨tidy, id, fun stopped closed => closed stopped⟩

theorem settle_turned (tidy : Tidy count h) (still : h.desk.stopped = true → d = h.desk)
    (decided : h.desk.stopped = false → Decided d) : Turned count h (h.settle d).1 (h.settle d).2 := by
  cases stopped : h.desk.stopped with
  | true =>
      rw [still stopped, settle_still tidy]
      exact .refl tidy
  | false =>
      have settled := settle_tidy stopped tidy (decided stopped)
      refine ⟨settled, fun already => (by cases already.symm.trans stopped), fun ends _ => ?_⟩
      have desk : (h.settle d).2.desk = { d with log := [] } := (perform_same { h with desk := { d with log := [] } } d.log).1
      rw [desk] at ends
      rcases decided stopped with running | ended
      · cases running.running.symm.trans ends
      · obtain ⟨before, log, -⟩ := ended.log
        unfold TransportHost.settle
        rw [log, List.foldl_append]
        rfl

theorem Tidy.running (tidy : Tidy count h) (ongoing : h.desk.stopped = false) : Running h.desk :=
  ⟨ongoing, by rw [tidy.log]; exact List.not_mem_nil⟩

/-- An event changes what waits and what runs outside of the lifecycle thread only. -/
structure Calm (h h' : TransportHost H T) : Prop where
  desk : h'.desk = h.desk
  streams : h'.streams = h.streams
  armed : h.armed = [] → h'.armed = []
  listening : h.listening = false → h'.listening = false

theorem Calm.refl : Calm h h := ⟨rfl, rfl, id, id⟩

theorem Calm.turned {h' : TransportHost H T} (calm : Calm h h') (tidy : Tidy count h) : Turned count h [] h' := by
  refine ⟨⟨by rw [calm.desk]; exact tidy.log, by rw [calm.desk]; exact tidy.once, fun stopped => ?_⟩, ?_, ?_⟩
  · rw [calm.desk] at stopped
    obtain ⟨-, books, timers, listener⟩ := tidy.released stopped
    exact ⟨by rw [calm.desk]; exact stopped, by rw [calm.desk]; exact books, calm.armed timers, calm.listening listener⟩
  · rw [calm.desk]
    exact id
  · rw [calm.desk, calm.streams]
    exact fun stopped closed => closed stopped

theorem post_calm (h : TransportHost H T) (task : Task) : Calm h (h.post task) := by
  unfold TransportHost.post
  split
  · exact .refl
  · exact ⟨rfl, rfl, id, id⟩

theorem socketEvent_calm {h' : TransportHost H T} (calm : Calm h h') (event : SocketEvent) : Calm h (h'.socketEvent event) := by
  have report (h' : TransportHost H T) (calm : Calm h h') (task : Task) : Calm h (h'.post task) := by
    have posted := post_calm h' task
    exact ⟨posted.desk.trans calm.desk, posted.streams.trans calm.streams, fun none => posted.armed (calm.armed none),
      fun off => posted.listening (calm.listening off)⟩
  unfold TransportHost.socketEvent
  split
  · exact report _ (by exact ⟨calm.desk, calm.streams, calm.armed, calm.listening⟩) _
  · exact report _ calm _

theorem readDone_calm (streamId : Nat) (result : ReadResult) : Calm h (h.readDone streamId result) := by
  have done : Calm h { h with readsInFlight := h.readsInFlight.erase streamId } := ⟨rfl, rfl, id, id⟩
  unfold TransportHost.readDone
  split
  · exact .refl
  · dsimp only
    split
    · exact socketEvent_calm done _
    · exact socketEvent_calm done _
    · split
      · exact .refl
      · exact done

end

/-! ## The looper -/

namespace Lifecycle

section
variable {l : Lifecycle H T}

theorem posted_eq (l : Lifecycle H T) (host : TransportHost H T) :
    l.posted host =
      { l with host := { host with queue := [] }, blocks := l.blocks ++ if l.quit then [] else host.queue.map .task } := by
  unfold posted
  generalize (host.queue : List Task) = tasks
  generalize ({ host with queue := [] } : TransportHost H T) = host
  induction tasks generalizing l with
  | nil => simp
  | cons task tasks ih =>
      rw [List.foldl_cons, post]
      cases quit : l.quit with
      | true => simpa [quit] using ih l
      | false => simpa [quit] using ih { l with blocks := l.blocks ++ [.task task] }

end

section
variable {noise : Noise R H T} {initial : Outcome} {l : Lifecycle H T} {count : Nat}

theorem event_calm (input : Input R) : Calm l.host (l.step noise initial (.event input)).2.host := by
  have posted {h' : TransportHost H T} (calm : Calm l.host h') : Calm l.host (l.posted h').host := by
    rw [posted_eq]
    exact ⟨calm.desk, calm.streams, calm.armed, calm.listening⟩
  cases input with
  | connect | close | run => exact .refl
  | listenerFails | peerUnsupported =>
      refine posted ?_
      dsimp only [TransportHost.step]
      split
      · refine socketEvent_calm ?_ _
        exact ⟨rfl, rfl, id, fun _ => rfl⟩
      · exact .refl
  | read streamId result => exact posted (readDone_calm streamId result)
  | written streamId token failed =>
      refine posted ?_
      dsimp only [TransportHost.step]
      split
      · refine socketEvent_calm ?_ _
        exact ⟨rfl, rfl, id, id⟩
      · exact .refl
  | expire token =>
      refine posted ?_
      dsimp only [TransportHost.step]
      split
      · next there =>
          have calm := post_calm { l.host with armed := l.host.armed.erase token } (.timer token)
          refine ⟨calm.desk, calm.streams, fun none => ?_, calm.listening⟩
          rw [none] at there
          cases there
      · exact .refl
  | eligibilityLost => exact posted (post_calm l.host .eligibilityLost)

theorem begin_turned (tidy : Tidy count l.host) (world : World R) (binds : Bool) (block : Block) :
    Turned count l.host (l.begin noise initial world binds block).1 (l.begin noise initial world binds block).2.host := by
  cases block with
  | activate =>
      unfold begin
      dsimp only
      cases stopped : l.host.desk.stopped with
      | true =>
          have refused : activate noise world initial binds l.started l.host.desk = (true, l.started, l.host.desk) := by
            unfold activate
            rw [if_pos (by simp [stopped])]
          rw [refused]
          have same : { l.host with listening := l.host.listening || !true } = l.host := by simp
          rw [same, settle_still tidy]
          exact .refl tidy
      | false =>
          have ongoing : Tidy count { l.host with listening := l.host.listening || !(activate noise world initial binds l.started l.host.desk).1 } :=
            ⟨tidy.log, tidy.once, fun ended => by cases ended.symm.trans stopped⟩
          have decided : Decided (activate noise world initial binds l.started l.host.desk).2.2 :=
            activate_decides (tidy.running stopped) initial binds l.started
          have turned := settle_turned ongoing (fun ended => by cases ended.symm.trans stopped) fun _ => decided
          exact ⟨turned.tidy, turned.stays, turned.sockets⟩
  | task task =>
      unfold begin
      dsimp only
      split
      · exact .refl tidy
      · refine settle_turned tidy (fun stopped => ?_) fun ongoing => runTask_decides (tidy.running ongoing) task
        unfold runTask
        rw [if_pos stopped]
  | close caller =>
      unfold begin
      dsimp only
      refine settle_turned tidy (fun stopped => if_pos stopped) fun ongoing => ?_
      rw [if_neg (by simp [ongoing])]
      exact .inr (tidy.running ongoing).leaseTerminal

end

end Lifecycle

end AppPilotKit.Host.Kotlin
