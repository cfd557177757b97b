import AppPilotKit.Broker.Steps

/-! # The Broker under any interleaving

Every call, every launch worker and every drain thread is a program whose steps are steps
of the Broker, whatever the other threads do between them.
-/

namespace AppPilotKit.Broker

open Wire Transport Programs

variable {χ : Type} {α β : Type}

def Sealed (core : Core χ) (index : Nat) : Prop := (core.operations index).accepting = false

/-- Threads take steps of the Broker. A drain is started for a lease that has been sealed. -/
def broker (χ : Type) : Discipline (Core χ) Task where
  step := Step
  passed
    | .worker _, _ => True
    | .drain index _, core => Sealed core index

/-- All steps of a program are steps of the Broker, whenever they are taken. -/
class Stays (p : Program χ α) : Prop where
  keeps : ∀ who core, p.Keeps (broker χ) who (fun _ _ => True) core

/-- The same of a call that may fail. -/
class FStays (x : Fallible χ α) : Prop where
  run : Stays x.run

instance Stays.bind {p : Program χ α} {f : α → Program χ β} [first : Stays p] [next : ∀ a, Stays (f a)] : Stays (p >>= f) :=
  ⟨fun who core => Prog.keeps_bind.mpr ((first.keeps who core).mono fun a core _ => (next a).keeps who core)⟩

instance (a : α) : Stays (pure a : Program χ α) := ⟨fun _ _ => trivial⟩

theorem waitFor_stays {ready : Core χ → Input χ → Bool} {f : Nat → Core χ → Input χ → Core χ × α}
    (step : ∀ who core input, Step who core (f who core input).1) : Stays (waitFor ready f) :=
  ⟨fun who _ core input _ _ => ⟨clocked_step (step who core input), trivial⟩⟩

theorem change_stays {f : Nat → Core χ → Input χ → Core χ} (step : ∀ who core input, Step who core (f who core input)) :
    Stays (change f) := waitFor_stays step

theorem look_stays {ready : Core χ → Input χ → Bool} {f : Core χ → Input χ → α} :
    Stays (waitFor ready fun _ core input => (core, f core input)) := waitFor_stays fun _ _ _ => .refl

instance FStays.bind {x : Fallible χ α} {f : α → Fallible χ β} [first : FStays x] [next : ∀ a, FStays (f a)] :
    FStays (x >>= f) := by
  have all (answer : Except ControlFailure α) : Stays (ExceptT.bindCont f answer) := by
    cases answer with
    | error failure => exact (inferInstance : Stays (pure _))
    | ok a => exact (next a).run
  have run := first.run
  exact ⟨(inferInstance : Stays (x.run >>= ExceptT.bindCont f))⟩

instance (a : α) : FStays (pure a : Fallible χ α) := ⟨(inferInstance : Stays (pure _))⟩
instance (failure : ControlFailure) : FStays (throw failure : Fallible χ α) := ⟨(inferInstance : Stays (pure _))⟩
instance (answer : Except ControlFailure α) : FStays (monadLift answer : Fallible χ α) := ⟨(inferInstance : Stays (pure _))⟩
instance (p : Program χ α) [Stays p] : FStays (lift p) :=
  ⟨(inferInstance : Stays (p >>= fun a => (pure (.ok a) : Program χ (Except ControlFailure α))))⟩
instance (x : Fallible χ α) [stays : FStays x] : Stays x.run := stays.run

instance (f : Input χ → α) : Stays (observe f) := look_stays
instance (raws : List Nat) : Stays (cancel raws : Program χ Unit) := change_stays fun _ _ _ => cancel_step _
instance (current : Nat) : Stays (prune current : Program χ Unit) := change_stays fun _ _ _ => prune_step _
instance (index operation : Nat) : Stays (dropOperation index operation : Program χ Unit) :=
  change_stays fun _ _ _ => operations_step _ (leave_kept operation)
instance : FStays (now : Fallible χ Nat) := ⟨(inferInstance : Stays (observe _))⟩

instance : FStays (cleanupDeadline : Fallible χ Unit) := by
  unfold cleanupDeadline
  infer_instance

theorem cleanup_stays (index : Nat) (cleaner : Cleaner) (other : cleaner ≠ .terminalReaper) :
    Stays (cleanup index cleaner : Program χ Bool) := by
  refine waitFor_stays fun who core input => .log _ rfl ?_
  cases cleaner with
  | terminalReaper => exact absurd rfl other
  | discardPrepared => trivial
  | lateReaper => trivial

instance (r : Reservation) (reason : CloseReason) (cleanupFailed : Bool) :
    Stays (rejectWithCleanup r reason cleanupFailed : Program χ ControlFailure) := by
  have step : Stays (change fun _ core _ => core.rejectWithCleanup r reason cleanupFailed : Program χ Unit) :=
    change_stays fun _ _ _ => rejectWithCleanup_step _ _ _
  unfold rejectWithCleanup
  infer_instance

instance (r : Reservation) (reason : CloseReason) : Stays (reject r reason : Program χ ControlFailure) := by
  unfold reject
  infer_instance

instance (r : Reservation) (prepared : Prepared χ) : Stays (dropPrepared r prepared) := by
  unfold dropPrepared
  infer_instance

/-! ## The end of a lease -/

theorem later_lawful {core core' : Core χ} (later : (broker χ).Later core core') : ∃ events, Lawful core events core' := by
  induction later with
  | refl => exact ⟨[], .refl core⟩
  | tail _ step ih =>
      obtain ⟨events, lawful⟩ := ih
      obtain ⟨_, further, next, -⟩ := step
      exact ⟨_, lawful.trans next⟩

theorem Sealed.place {core : Core χ} {index : Nat} (closed : Sealed core index) :
    ∃ place, core.places[index]? = some place ∧ place.operations.accepting = false := by
  unfold Sealed Core.operations at closed
  cases there : core.places[index]? with
  | none => rw [there] at closed; cases closed
  | some place => rw [there] at closed; exact ⟨place, rfl, closed⟩

theorem Lawful.sealed {core core' : Core χ} {events : List Event} {index : Nat} (lawful : Lawful core events core')
    (closed : Sealed core index) : Sealed core' index := by
  obtain ⟨place, there, shut⟩ := closed.place
  obtain ⟨place', here, later⟩ := lawful.later index place there
  unfold Sealed Core.operations
  rw [here]
  exact (later.sealed shut).1

theorem Lawful.drained {core core' : Core χ} {events : List Event} {index : Nat} (lawful : Lawful core events core')
    (drained : Drained core index) : Drained core' index := by
  obtain ⟨place, there, shut, empty⟩ := drained
  obtain ⟨place', here, later⟩ := lawful.later index place there
  obtain ⟨still, fewer⟩ := later.sealed shut
  exact ⟨place', here, still, by omega⟩

/-- A fact that no step undoes. -/
def Stable (fact : Core χ → Prop) : Prop := ∀ core events core', Lawful core events core' → fact core → fact core'

theorem Stable.later {fact : Core χ → Prop} (stable : Stable fact) (core core' : Core χ) (later : (broker χ).Later core core')
    (holds : fact core) : fact core' := by
  obtain ⟨events, lawful⟩ := later_lawful later
  exact stable core events core' lawful holds

theorem sealed_stable (index : Nat) : Stable fun core : Core χ => Sealed core index := fun _ _ _ => Lawful.sealed

theorem drained_stable (index : Nat) : Stable fun core : Core χ => Drained core index := fun _ _ _ => Lawful.drained

theorem logged_stable (event : Event) : Stable fun core : Core χ => event ∈ core.history := fun _ _ core' lawful member => by
  change event ∈ core'.history
  rw [lawful.history]
  exact List.mem_append_left _ member

/-- A call, and what holds when it ends without an error. -/
def Ends (who : Nat) (x : Fallible χ α) (ok : α → Core χ → Prop) (core : Core χ) : Prop :=
  Prog.Keeps (broker χ) who (fun answer core => ∀ a, answer = .ok a → ok a core) x.run core

section
variable {who : Nat} {core : Core χ} {x : Fallible χ α} {f : α → Fallible χ β} {ok : β → Core χ → Prop}
  {p : Program χ α}

theorem keeps_waitFor {ready : Core χ → Input χ → Bool} {g : Nat → Core χ → Input χ → Core χ × α} {post : α → Core χ → Prop}
    (step : ∀ core' input, (broker χ).Later core core' → Step who core' (g who core' input).1 ∧
      ∀ latest, post (g who core' input).2 ((g who core' input).1.clocked latest)) :
    (waitFor ready g).Keeps (broker χ) who post core := fun core' input later _ =>
  ⟨clocked_step (step core' input later).1, (step core' input later).2 _⟩

theorem keeps_then [stays : Stays p] {g : α → Program χ β} {fact : Core χ → Prop} {post : β → Core χ → Prop}
    (stable : Stable fact) (holds : fact core)
    (next : ∀ a core', fact core' → (g a).Keeps (broker χ) who post core') : (p >>= g).Keeps (broker χ) who post core :=
  Prog.keeps_bind.mpr (((stays.keeps who core).stable stable.later holds).mono fun a core' ⟨_, still⟩ => next a core' still)

theorem Ends.bind {m : α → Core χ → Prop} (first : Ends who x m core)
    (next : ∀ a core', m a core' → Ends who (f a) ok core') : Ends who (x >>= f) ok core := by
  refine Prog.keeps_bind.mpr (Prog.Keeps.mono first fun answer core' ended => ?_)
  cases answer with
  | error failure => exact fun _ same => by cases same
  | ok a => exact next a core' (ended a rfl)

theorem Ends.mono {m m' : α → Core χ → Prop} (ends : Ends who x m core) (weaker : ∀ a core', m a core' → m' a core') :
    Ends who x m' core := Prog.Keeps.mono ends fun _ core' ended a same => weaker a core' (ended a same)

/-- A fact that no step undoes holds after a call as before. -/
theorem ends_then [stays : FStays x] {fact : Core χ → Prop} (stable : Stable fact) (holds : fact core)
    (next : ∀ a core', fact core' → Ends who (f a) ok core') : Ends who (x >>= f) ok core :=
  Ends.bind (m := fun _ => fact) (((stays.run.keeps who core).stable stable.later holds).mono
    fun _ _ ⟨_, still⟩ _ _ => still) next

theorem ends_lift {post : α → Core χ → Prop} (kept : p.Keeps (broker χ) who post core) : Ends who (lift p) post core :=
  Prog.keeps_bind.mpr (kept.mono fun _ _ holds _ same => by cases same; exact holds)

theorem ends_throw {failure : ControlFailure} : Ends who (throw failure) ok core := fun _ same => by cases same

theorem ends_pure {b : β} (holds : ok b core) : Ends who (pure b) ok core := fun _ same => by cases same; exact holds

theorem ends_answer {answer : Except ControlFailure β} (holds : ∀ b, answer = .ok b → ok b core) :
    Ends who (monadLift answer) ok core := holds

theorem ends_except (answer : Except ControlFailure α) : Ends who (monadLift answer) (fun _ _ => True) core :=
  fun _ _ => trivial

theorem FStays.ends [stays : FStays x] : Ends who x (fun _ _ => True) core :=
  (stays.run.keeps who core).mono fun _ _ _ _ _ => trivial

end

instance (index : Nat) (result : Except CloseReason Unit) : Stays (terminalized index result : Program χ Unit) :=
  change_stays fun _ _ _ => .log _ rfl trivial

instance (work : ReapWork χ) : FStays (reapTerminalLease.closeLink work) := by
  unfold reapTerminalLease.closeLink
  split <;> infer_instance

/-- The terminal reaper calls its receipt when the ledger has drained. -/
theorem reapTerminalLease_keeps (index : Nat) (key : PrepareKey) (who : Nat) (core : Core χ) (drained : Drained core index) :
    (reapTerminalLease index key).Keeps (broker χ) who (fun _ _ => True) core := by
  have take : Stays (turn fun _ core _ => core.takeReap index key : Program χ _) := waitFor_stays fun _ _ _ => takeReap_step _
  have empty (tokens : List (Token × Nat)) (result : Except CloseReason Unit) :
      Stays (change fun _ core _ => core.emptySlot index key tokens result : Program χ Unit) :=
    change_stays fun _ _ _ => emptySlot_step _ _ _
  have finish (result : Except CloseReason Unit) : Stays (change fun who core _ =>
      (core.onOperations index (·.finishClose result)).log [.finishClose index who result] : Program χ Unit) := by
    refine change_stays fun who core _ => ?_
    have step : Step who core (core.onOperations index (·.finishClose result)) := operations_step _ fun o => ⟨rfl, le_rfl⟩
    obtain ⟨events, lawful, warranted⟩ := step
    refine ⟨_, lawful.trans (.log _ rfl), fun event member => ?_⟩
    rcases List.mem_append.mp member with member | member
    · exact warranted event member
    · rw [List.mem_singleton.mp member]
      trivial
  have clean (work : ReapWork χ) (core : Core χ) (drained : Drained core index) :
      (reapTerminalLease.clean index work).run.Keeps (broker χ) who (fun _ _ => True) core := by
    unfold reapTerminalLease.clean
    split
    · trivial
    split
    · have ended : Ends who (do
          cleanupDeadline
          let ok ← lift (cleanup index .terminalReaper)
          return if ok then (.ok () : Except CloseReason Unit) else .error .cleanupFailed) (fun _ _ => True) core := by
        refine ends_then (drained_stable index) drained fun _ core drained => .bind (m := fun _ _ => True) ?_
          fun _ _ _ => ends_pure trivial
        refine ends_lift (keeps_waitFor fun core' input later => ⟨.log _ rfl ?_, fun _ => trivial⟩)
        exact (drained_stable index).later core core' later drained
      exact Prog.Keeps.mono ended fun _ _ _ => trivial
    · trivial
  unfold reapTerminalLease
  refine keeps_then (drained_stable index) drained fun taken core drained => ?_
  cases taken with
  | error reason => trivial
  | ok work =>
      refine keeps_then (drained_stable index) drained fun closed core drained => ?_
      cases closed with
      | error failure => trivial
      | ok _ =>
          refine Prog.keeps_bind.mpr ((clean work core drained).mono fun cleaned core _ => ?_)
          cases cleaned with
          | error failure => trivial
          | ok result => exact Stays.keeps who core

/-- A lease that ends well for a caller has been reported so to it. -/
def Reported (who index : Nat) (_ : Unit) (core : Core χ) : Prop := .terminalized index who (.ok ()) ∈ core.history

theorem terminalizeLease_ends (index : Nat) (reason : CloseReason) (who : Nat) (core : Core χ) :
    Ends who (terminalizeLease index reason) (Reported who index) core := by
  have report (result : Except CloseReason Unit) (core : Core χ) : Ends who (lift (terminalized index result))
      (fun _ core => .terminalized index who result ∈ core.history) core := by
    refine ends_lift (keeps_waitFor fun core' input _ => ⟨.log _ rfl trivial, fun _ => ?_⟩)
    exact List.mem_append_right _ (List.mem_singleton.mpr rfl)
  have wait {α : Type} {ready : Core χ → Input χ → Bool} {f : Core χ → Input χ → α} :
      Stays (waitFor ready fun _ core input => (core, f core input)) := look_stays
  unfold terminalizeLease
  refine .bind FStays.ends fun terminalNow core _ => ?_
  generalize sessionTombstoneExpires terminalNow = expiry
  refine .bind (ends_except expiry) fun expires core _ => ?_
  refine .bind (m := fun sealing core => ∀ key links, sealing = .owner key links → Sealed core index)
    (ends_lift (keeps_waitFor fun core' _ _ => ?_)) fun sealing core sealed => ?_
  · obtain ⟨step, closed⟩ := @sealLease_step χ core' who index reason expires
    exact ⟨step, fun _ key links owner => closed key links owner⟩
  cases sealing with
  | absent => exact ends_throw
  | follower =>
      refine .bind FStays.ends fun _ core _ => .bind (m := fun _ _ => True) (ends_lift (wait.keeps who core)) ?_
      refine fun result core _ => .bind (report result core) fun _ core logged => ?_
      split
      · exact ends_pure logged
      · exact ends_throw
  | owner key links =>
      refine ends_then (sealed_stable index) (sealed key links rfl) fun _ core closed => ?_
      refine ends_then (sealed_stable index) closed fun _ core closed => ?_
      refine .bind (m := fun drained core => Sealed core index ∧ (drained = true → Drained core index))
        (ends_lift (keeps_waitFor fun core' input later => ⟨.refl, fun _ => ?_⟩)) fun drained core both => ?_
      · have closed := (sealed_stable index).later core core' later closed
        refine ⟨closed, fun none => ?_⟩
        obtain ⟨place, there, shut⟩ := closed.place
        have none := of_decide_eq_true none
        unfold Core.operations at none
        rw [there] at none
        exact ⟨place, there, shut, none⟩
      obtain ⟨closed, empty⟩ := both
      split
      · rename_i drained
        refine .bind (ends_lift (reapTerminalLease_keeps index key who core (empty drained))) fun result core _ => ?_
        refine .bind (report result core) fun _ core logged => ?_
        split
        · exact ends_pure logged
        · exact ends_throw
      · have blocked : Stays (change fun _ core _ => core.tombstone key true : Program χ Unit) :=
          change_stays fun _ _ _ => .quiet (tombstone_lawful _ _)
        refine ends_then (sealed_stable index) closed fun _ core closed => .bind (m := fun _ _ => True) (ends_lift ?_)
          fun _ core _ => .bind FStays.ends fun _ _ _ => ends_throw
        exact fun core' _ later => ⟨.refl, (sealed_stable index).later core core' later closed, trivial⟩

instance (index : Nat) (reason : CloseReason) : FStays (terminalizeLease index reason : Fallible χ Unit) :=
  ⟨⟨fun who core => Prog.Keeps.mono (terminalizeLease_ends index reason who core) fun _ _ _ => trivial⟩⟩

theorem drain_keeps (index : Nat) (key : PrepareKey) (who : Nat) (core : Core χ) (closed : Sealed core index) :
    (drain index key).Keeps (broker χ) who (fun _ _ => True) core := by
  unfold drain
  have wait : (waitFor (fun core _ => (core.operations index).active = 0) fun _ core _ => (core, ())).Keeps (broker χ) who
      (fun _ core => Drained core index) core := by
    intro core' input later empty
    obtain ⟨place, there, shut⟩ := ((sealed_stable index).later core core' later closed).place
    have none := of_decide_eq_true empty
    unfold Core.operations at none
    rw [there] at none
    exact ⟨clocked_step .refl, place, there, shut, none⟩
  refine Prog.keeps_bind.mpr (wait.mono fun _ core drained => ?_)
  exact Prog.keeps_bind.mpr ((reapTerminalLease_keeps index key who core drained).mono fun _ _ _ => trivial)

/-! ## Heartbeats and maintenance -/

instance (index deadline : Nat) : FStays (enterProbe index deadline : Fallible χ Unit) := by
  refine ⟨waitFor_stays fun who core input => ?_⟩
  split
  · exact .quiet (.keeps _ fun _ _ => .like rfl rfl rfl)
  split
  · exact .refl
  · exact .refl

instance (probe : Probe χ) : Stays (beat probe) := by
  unfold beat
  infer_instance

instance (index : Nat) (probe : Probe χ) (completion : Completion Bool) : FStays (probed.settle index probe completion) := by
  unfold probed.settle
  repeat' first | infer_instance | refine @FStays.bind _ _ _ _ _ ?_ fun _ => ?_ | split

instance (index deadline : Nat) : FStays (probed index deadline : Fallible χ Bool) := by
  have take : Stays (turn fun _ core _ => core.takeControl index deadline : Program χ _) :=
    waitFor_stays fun _ _ _ => takeControl_step _
  have succeed (crypto : χ) (counter : Nat) : Stays (turn fun _ core input => core.succeedHeartbeat index crypto counter input) :=
    waitFor_stays fun _ _ _ => succeedHeartbeat_step _ _ _
  have miss (crypto : χ) : Stays (turn fun _ core _ => core.missHeartbeat index crypto deadline) :=
    waitFor_stays fun _ _ _ => missHeartbeat_step _ _
  have fault (crypto : χ) (error : TransportFailure) : Stays (turn fun _ core _ => core.faultHeartbeat index crypto error) :=
    waitFor_stays fun _ _ _ => faultHeartbeat_step _ _
  unfold probed
  repeat' first | infer_instance | refine @FStays.bind _ _ _ _ _ ?_ fun _ => ?_ | split

instance (index deadline : Nat) : FStays (heartbeat index deadline : Fallible χ Bool) := by
  have found : Stays (turn fun _ core _ => (core, ((core.lease? index).filter (·.state = .ready)).isSome) : Program χ Bool) :=
    look_stays
  have leave : Stays (change fun _ core _ => core.onPlace index fun place => { place with readyProbe := none } : Program χ Unit) :=
    change_stays fun _ _ _ => .quiet (.keeps _ fun _ _ => .like rfl rfl rfl)
  unfold heartbeat
  repeat' first | infer_instance | refine @FStays.bind _ _ _ _ _ ?_ fun _ => ?_ | split

instance (index slot : Nat) : FStays (expireSession index slot : Fallible χ Unit) := by
  have take : Stays (turn fun _ core _ => core.expire index slot : Program χ _) := waitFor_stays fun _ _ _ => expire_step _
  have complete (b : Borrowed) (id : Option String) : Stays (turn fun _ core input => core.completeExpire index b id input
      : Program χ _) := waitFor_stays fun _ _ _ => completeExpire_step _ _ _
  unfold expireSession
  repeat' first | infer_instance | refine @FStays.bind _ _ _ _ _ ?_ fun _ => ?_ | split

instance (each : α → Fallible χ Unit) [∀ item, FStays (each item)] (items : List α) : Stays (forEach each items) := by
  induction items with
  | nil => exact (inferInstance : Stays (pure _))
  | cons item rest ih =>
      unfold forEach
      infer_instance

instance : FStays (maintain : Fallible χ Unit) := by
  have scan (current : Nat) : Stays (turn fun _ core _ => (core, core.scan current) : Program χ Due) := look_stays
  unfold maintain
  repeat' first | infer_instance | refine @FStays.bind _ _ _ _ _ ?_ fun _ => ?_ | split

instance (reason : CloseReason) (index : Nat) : FStays (shutdownSlot reason index : Fallible χ Unit) := by
  have present : Stays (turn fun _ core _ => (core, (core.lease? index).isSome) : Program χ Bool) := look_stays
  have wait : Stays (waitFor (fun core _ => (core.operations index).completed.isSome) fun _ core _ => (core, ())
      : Program χ Unit) := look_stays
  unfold shutdownSlot
  refine ⟨?_⟩
  repeat' first | infer_instance | refine @Stays.bind _ _ _ _ _ ?_ fun _ => ?_ | split

instance (reason : CloseReason) : FStays (shutdown reason : Fallible χ Unit) := by
  have begin : Stays (turn fun _ core _ => ({ core with shuttingDown := true },
      (List.range core.places.length).filter fun index => (core.lease? index).isSome) : Program χ (List Nat)) :=
    waitFor_stays fun _ _ _ => .quiet (.aside rfl (List.append_nil _).symm rfl (fun _ => rfl) fun _ => id)
  unfold shutdown
  repeat' first | infer_instance | refine @FStays.bind _ _ _ _ _ ?_ fun _ => ?_ | split

/-! ## Prepare -/

/-- A call that never ends well. -/
class Fails (x : Fallible χ α) : Prop where
  ends : ∀ who core ok, Ends who x ok core

instance Fails.throw (failure : ControlFailure) : Fails (throw failure : Fallible χ α) := ⟨fun _ _ _ => ends_throw⟩

instance Fails.bind {x : Fallible χ α} {f : α → Fallible χ β} [FStays x] [next : ∀ a, Fails (f a)] : Fails (x >>= f) :=
  ⟨fun who _ ok => .bind FStays.ends fun a core' _ => (next a).ends who core' ok⟩

instance (r : Reservation) (prepared : Prepared χ) (reason : CloseReason) : Fails (discardPrepared r prepared reason) := by
  have marked : Stays (change fun _ core _ => core.onPlace r.index fun place =>
      { place with lease := place.lease.map fun lease => { lease with terminalCleanupFailed := true } } : Program χ Unit) := by
    refine change_stays fun _ _ _ => .quiet (.keeps _ fun place _ => .of_lease rfl rfl fun lease' there => ?_)
    obtain ⟨lease, here, rfl⟩ := Option.map_eq_some_iff.mp there
    exact ⟨lease, here, .of_mark rfl rfl⟩
  have cleaned : Stays (cleanup r.index .discardPrepared : Program χ Bool) := cleanup_stays _ _ nofun
  unfold discardPrepared
  repeat' first | infer_instance | refine @Fails.bind _ _ _ _ _ ?_ fun _ => ?_ | split

instance (r : Reservation) (prepared : Prepared χ) (error : TransportFailure) :
    Fails (discardPreparedTransport r prepared error) := by
  refine ⟨fun who core ok => Prog.keeps_bind.mpr ?_⟩
  have never := Fails.ends (x := discardPrepared r prepared error.closeReason) who core fun _ _ => False
  refine Prog.Keeps.mono never fun answer core' none => ?_
  cases answer with
  | error failure => exact fun _ same => by cases same
  | ok ready => exact (none ready rfl).elim

instance (r : Reservation) (reason : CloseReason) : Fails (abortLaunch r reason : Fallible χ ReadyTarget) := by
  have abort : Stays (turn fun _ core input => (core.log [.aborted r.index input.aborted], input.aborted) : Program χ Bool) :=
    waitFor_stays fun _ _ _ => .log _ rfl trivial
  have dropped : Stays (dropPending r : Program χ Unit) := (inferInstance : Stays (dropOperation _ _))
  unfold abortLaunch
  repeat' first | infer_instance | refine @Fails.bind _ _ _ _ _ ?_ fun _ => ?_ | split

instance (r : Reservation) (error : TransportFailure) : Stays (rejectTransport r error : Program χ ControlFailure) := by
  unfold rejectTransport
  infer_instance

/-- A ready target has been granted to the thread that prepared it. -/
def Prepares (who : Nat) (ready : ReadyTarget) (core : Core χ) : Prop := Told core who (.targetReady ready)

theorem commit_ends (r : Reservation) (prepared : Prepared χ) (who : Nat) (core : Core χ) :
    Ends who (commit r prepared) (Prepares who) core := by
  have proved (prepared : Prepared χ) (core : Core χ) : Ends who (commit.proved r prepared) (Prepares who) core := by
    unfold commit.proved
    refine .bind FStays.ends fun _ core _ => ?_
    split
    · exact Fails.ends _ _ _
    split
    · exact Fails.ends _ _ _
    · exact Fails.ends _ _ _
    rename_i completed _ _ expires _ _
    refine .bind (m := fun answer core => ∀ ready, answer = some ready → Prepares who ready core)
      (ends_lift (keeps_waitFor fun core' _ _ => ?_)) fun answer core told => ?_
    · obtain ⟨step, told⟩ := @commit_step χ core' who r prepared completed expires
      exact ⟨step, fun _ ready same => told ready same⟩
    split
    · exact ends_pure (told _ rfl)
    · exact Fails.ends _ _ _
  unfold commit
  refine .bind FStays.ends fun _ core _ => ?_
  split
  · exact Fails.ends _ _ _
  dsimp only
  split
  · exact Fails.ends _ _ _
  · exact Fails.ends _ _ _
  refine .bind FStays.ends fun beaten core _ => ?_
  obtain ⟨result, crypto⟩ := beaten
  cases result with
  | error error => exact Fails.ends _ _ _
  | ok _ => exact proved _ core

instance (index : Nat) : Stays (waitUntil index : Program χ _) := by
  refine waitFor_stays fun who core input => ?_
  split
  · exact .refl
  split
  · exact .quiet (.keeps _ fun _ _ => .like rfl rfl rfl)
  · exact .quiet (.keeps _ fun _ _ => .like rfl rfl rfl)

theorem launch_ends (r : Reservation) (who : Nat) (core : Core χ) : Ends who (launch r) (Prepares who) core := by
  have begun : Stays (change fun _ core _ => core.log [.beginLaunch r.index] : Program χ Unit) :=
    change_stays fun _ _ _ => .log _ rfl trivial
  have count (delta : Int) : Stays (change fun _ core _ => { core with pendingReapers := core.pendingReapers + delta }
      : Program χ Unit) := change_stays fun _ _ _ => .quiet (.aside rfl (List.append_nil _).symm rfl id fun _ => id)
  have uncount : Stays (change fun _ core _ => { core with pendingReapers := core.pendingReapers - 1 } : Program χ Unit) :=
    count (-1)
  have spawned : Stays (Prog.spawn (.worker r) fun _ _ core => core : Program χ Unit) :=
    ⟨fun _ _ _ _ _ => ⟨.refl, trivial, trivial⟩⟩
  unfold launch
  split
  · exact Fails.ends _ _ _
  refine .bind FStays.ends fun _ core _ => .bind FStays.ends fun _ core _ => ?_
  split
  · exact Fails.ends _ _ _
  refine .bind FStays.ends fun _ core _ => .bind FStays.ends fun _ core _ => .bind FStays.ends fun _ core _ => ?_
  split
  · exact Fails.ends _ _ _
  refine .bind FStays.ends fun _ core _ => ?_
  split
  · exact commit_ends _ _ _ _
  · exact Fails.ends _ _ _

theorem reusePrepare_ends (index : Nat) (key : PrepareKey) (deadline who : Nat) (core : Core χ) :
    Ends who (reusePrepare index key deadline) (Prepares who) core := by
  unfold reusePrepare
  refine .bind FStays.ends fun _ core _ => ?_
  split
  · refine .bind FStays.ends fun current core _ => ?_
    dsimp only
    split
    · exact .bind (m := fun _ _ => False) ends_throw fun _ _ never => never.elim
    refine .bind (m := fun reused core => ∀ ready, reused = .answered (.ok ready) → Prepares who ready core)
      (ends_lift (keeps_waitFor fun core' input _ => ?_)) fun reused core told => ?_
    · obtain ⟨step, told⟩ := @reuse_step χ core' who index key current input
      exact ⟨step, fun _ ready same => told ready same⟩
    split
    · exact ends_answer fun ready same => told ready (congrArg Reuse.answered same)
    · exact Fails.ends _ _ _
  · exact ends_throw

theorem prepare_ends (digests : Digests) (request : Request PrepareBody) (who : Nat) (core : Core χ) :
    Ends who (prepare digests request) (Prepares who) core := by
  have routed (started deadline limit : Nat) : Stays (turn fun _ core input =>
      core.route digests request started deadline limit input : Program χ PrepareRoute) :=
    waitFor_stays fun _ _ _ => route_step _ _ _ _ _ _
  unfold prepare
  refine .bind FStays.ends fun started core _ => ?_
  generalize prepareDeadline started request.deadlineUnixMs request.body.platform = answer
  refine .bind (ends_except answer) fun deadline core _ => ?_
  generalize launchDeadline started deadline request.body.platform = answer
  refine .bind (ends_except answer) fun limit core _ => .bind FStays.ends fun _ core _ => ?_
  split
  · exact ends_throw
  · exact Fails.ends _ _ _
  · exact reusePrepare_ends _ _ _ _ _
  · exact launch_ends _ _ _

/-! ## The launch worker -/

instance (r : Reservation) (failure : TransportFailure) : Stays (failLaunch r failure : Program χ _) := by
  unfold failLaunch
  infer_instance

instance (r : Reservation) : Stays (launchAndBootstrap r : Program χ _) := by
  have booted : Stays (turn fun _ core input => match input.bootstrapped with
      | .ok success => (core.log [.launched r.index], Except.ok success)
      | .error failure => (core, .error failure) : Program χ (Except TransportFailure (BootstrapSuccess χ))) := by
    refine waitFor_stays fun _ _ input => ?_
    cases input.bootstrapped with
    | ok success => exact .log _ rfl trivial
    | error failure => exact .refl
  unfold launchAndBootstrap
  repeat' first | infer_instance | refine @Stays.bind _ _ _ _ _ ?_ fun _ => ?_ | split

instance (r : Reservation) (result : Except TransportFailure (Prepared χ)) : Stays (reapLate r result) := by
  have reaped (failed : Bool) : Stays (change fun _ core _ => core.reapLate r.index r.key failed : Program χ Unit) :=
    change_stays fun _ _ _ => reapLate_step _ _
  have uncount : Stays (change fun _ core _ => { core with pendingReapers := core.pendingReapers - 1 } : Program χ Unit) :=
    change_stays fun _ _ _ => .quiet (.aside rfl (List.append_nil _).symm rfl id fun _ => id)
  have left (failed : Bool) : Stays (change fun _ core _ => core.onPlace r.index fun place =>
      { place with owned := { place.owned with state := if failed then .cleanupFailed else .reaped } } : Program χ Unit) :=
    change_stays fun _ _ _ => .quiet (.keeps _ fun _ _ => .like rfl rfl rfl)
  have cleaned : Stays (cleanup r.index .lateReaper : Program χ Bool) := cleanup_stays _ _ nofun
  unfold reapLate
  repeat' first | infer_instance | refine @Stays.bind _ _ _ _ _ ?_ fun _ => ?_ | split

instance (r : Reservation) : Stays (worker r : Program χ Unit) := by
  have placed (result : Except TransportFailure (Prepared χ)) : Stays (publish r result) := by
    have celled : Stays (change fun _ core _ => core.onPlace r.index fun place =>
        { place with owned := { place.owned with cell := some result } } : Program χ Unit) :=
      change_stays fun _ _ _ => .quiet (.keeps _ fun _ _ => .like rfl rfl rfl)
    unfold publish
    refine @Stays.bind _ _ _ _ _ ?_ fun _ => @Stays.bind _ _ _ _ _ (waitFor_stays fun _ core _ => ?_) fun _ => ?_
    · infer_instance
    · split
      · split
        · exact .quiet (.keeps _ fun _ _ => .like rfl rfl rfl)
        · exact .quiet (.keeps _ fun _ _ => .like rfl rfl rfl)
      · exact .refl
    · split <;> infer_instance
  unfold worker
  infer_instance

/-! ## Sessions -/

theorem told_stable (who : Nat) (success : ControlSuccess) : Stable fun core : Core χ => Told core who success :=
  fun _ _ _ lawful ⟨index, generation, epoch, checked, member⟩ =>
    ⟨index, generation, epoch, checked, logged_stable _ _ _ _ lawful member⟩

/-- A granted success is answered with once the guard has been dropped. -/
theorem settle_ends {stage : ErrorStage} {index operation who : Nat} {core : Core χ} {completion : Completion ControlSuccess}
    (told : ∀ success, completion = .answered (.ok success) → Told core who success) :
    Ends who (settle stage index operation completion) (fun success core => Told core who success) core := by
  unfold settle
  cases completion with
  | terminal reason => exact Fails.ends _ _ _
  | answered answer =>
      cases answer with
      | error failure => exact .bind FStays.ends fun _ _ _ => ends_throw
      | ok success =>
          exact ends_then (told_stable who success) (told success rfl) fun _ _ told => ends_pure told

theorem admitted_ends {stage : ErrorStage} {who : Nat} {core : Core χ} {admission : Admission α} {q : α → Core χ → Prop}
    (holds : ∀ index value, admission = .admitted index value → q value core) :
    Ends who (admitted stage admission) (fun found core => q found.2 core) core := by
  unfold admitted
  split
  · exact ends_throw
  · exact Fails.ends _ _ _
  · exact ends_pure (holds _ _ rfl)

theorem openSession_ends (digests : Digests) (request : Request OpenSessionBody) (who : Nat) (core : Core χ) :
    Ends who (openSession digests request) (fun success core => Told core who success) core := by
  have redeemed (current : Nat) : Stays (turn fun _ core _ => core.redeem request.body.targetToken current
      request.deadlineUnixMs : Program χ (Admission Redemption)) := waitFor_stays fun _ _ _ => redeem_step _ _ _
  unfold openSession
  refine .bind FStays.ends fun current core _ => ?_
  split
  · rename_i id _
    refine .bind (m := fun admission core => ∀ index success, admission = .admitted index success → Told core who success)
      (ends_lift (keeps_waitFor fun core' input _ => ?_)) fun admission core told => ?_
    · obtain ⟨step, told⟩ := @matchOpen_step χ core' who request.body.targetToken id current input
      exact ⟨step, fun _ index success same => told index success same⟩
    · exact .bind (admitted_ends (q := fun success core => Told core who success) told) fun found core told => ends_pure told
  split
  · exact ends_throw
  dsimp only
  split
  · exact .bind (m := fun _ _ => False) ends_throw fun _ _ never => never.elim
  refine .bind FStays.ends fun current core _ => .bind FStays.ends fun admission core _ => ?_
  refine .bind (admitted_ends (q := fun _ _ => True) fun _ _ _ => trivial) fun found core _ => ?_
  obtain ⟨index, redemption⟩ := found
  refine .bind FStays.ends fun opened core _ => ?_
  refine .bind (m := fun completion core => ∀ success, completion = .answered (.ok success) → Told core who success)
    (ends_lift (keeps_waitFor fun core' input _ => ?_)) fun completion core told => settle_ends told
  obtain ⟨step, told⟩ := @commitSession_step χ core' who index digests request.body.targetToken redemption opened input
  exact ⟨step, fun _ success same => told success same⟩

theorem exchange_ends (digests : Digests) (request : Request ExchangeBody) (who : Nat) (core : Core χ) :
    Ends who (exchange digests request) (fun success core => Told core who success) core := by
  have borrowed (current : Nat) : Stays (turn fun _ core _ => core.borrow .exchange request.body.targetToken
      request.body.sessionId request.body.processGeneration request.body.listenerEpoch true current request.deadlineUnixMs
      : Program χ (Admission Borrowed)) := waitFor_stays fun _ _ _ => borrow_step _ _ _ _ _ _ _ _
  unfold exchange
  dsimp only
  split
  · exact .bind (m := fun _ _ => False) ends_throw fun _ _ never => never.elim
  refine .bind FStays.ends fun current core _ => .bind FStays.ends fun admission core _ => ?_
  refine .bind (admitted_ends (q := fun _ _ => True) fun _ _ _ => trivial) fun found core _ => ?_
  obtain ⟨index, b⟩ := found
  refine .bind FStays.ends fun result core _ => ?_
  refine .bind (m := fun completion core => ∀ success, completion = .answered (.ok success) → Told core who success)
    (ends_lift (keeps_waitFor fun core' input _ => ?_)) fun completion core told => settle_ends told
  obtain ⟨step, told⟩ := @completeExchange_step χ core' who index digests request.body b result input
  exact ⟨step, fun _ success same => told success same⟩

theorem closeSession_ends (request : Request CloseSessionBody) (who : Nat) (core : Core χ) :
    Ends who (closeSession request) (fun success core => Told core who success) core := by
  have borrowed (current : Nat) : Stays (turn fun _ core _ => core.borrow .close request.body.targetToken
      request.body.sessionId request.body.processGeneration request.body.listenerEpoch false current request.deadlineUnixMs
      : Program χ (Admission Borrowed)) := waitFor_stays fun _ _ _ => borrow_step _ _ _ _ _ _ _ _
  have closed (raw : Nat) : Stays (turn fun _ core input => (core.log [.cancelled raw], input.closed)
      : Program χ (Except TransportFailure Unit)) := waitFor_stays fun _ _ _ => .log _ rfl trivial
  unfold closeSession
  refine .bind FStays.ends fun current core _ => .bind FStays.ends fun admission core _ => ?_
  refine .bind (admitted_ends (q := fun _ _ => True) fun _ _ _ => trivial) fun found core _ => ?_
  obtain ⟨index, b⟩ := found
  refine .bind FStays.ends fun result core _ => ?_
  refine .bind (m := fun completion core => ∀ success, completion = .answered (.ok success) → Told core who success)
    (ends_lift (keeps_waitFor fun core' input _ => ?_)) fun completion core told => settle_ends told
  obtain ⟨step, told⟩ := @completeClose_step χ core' who index request.body b result input
  exact ⟨step, fun _ success same => told success same⟩

theorem closeLease_ends (request : Request CloseLeaseBody) (who : Nat) (core : Core χ) :
    Ends who (closeLease request) (fun success core => Earned core who success) core := by
  have found {f : Core χ → Input χ → Except ControlFailure (Nat × HandoffState)} :
      Stays (turn fun _ core input => (core, f core input) : Program χ _) := look_stays
  unfold closeLease
  refine .bind FStays.ends fun found core _ => ?_
  split
  · exact ends_throw
  · exact .bind (terminalizeLease_ends _ _ _ _) fun _ core reported => ends_pure (.inr ⟨_, _, rfl, rfl, reported⟩)

theorem handle_ends (digests : Digests) (request : ControlRequest) (who : Nat) (core : Core χ) :
    Ends who (handle digests request) (fun success core => Earned core who success) core := by
  unfold handle
  refine .bind FStays.ends fun current core _ => .bind FStays.ends fun _ core _ => ?_
  dsimp only
  split
  · exact .bind (m := fun _ _ => False) ends_throw fun _ _ never => never.elim
  cases request with
  | prepare request => exact .bind (prepare_ends _ _ _ _) fun _ _ told => ends_pure (.inl told)
  | openSession request => exact (openSession_ends _ _ _ _).mono fun _ _ told => .inl told
  | exchange request => exact (exchange_ends _ _ _ _).mono fun _ _ told => .inl told
  | closeSession request => exact (closeSession_ends _ _ _).mono fun _ _ told => .inl told
  | closeLease request => exact closeLease_ends _ _ _

/-- Every thread of the Broker keeps to its steps. -/
theorem follows (digests : Digests) : (system χ digests).Follows (broker χ) where
  entries request who core := by
    cases request with
    | handle request =>
        refine Prog.keeps_bind.mpr (Prog.Keeps.mono (handle_ends digests request who core) fun answer core earned => ?_)
        intro core' input later _
        refine ⟨clocked_step (.log _ rfl ⟨rfl, fun success same => ?_⟩), trivial⟩
        rcases earned success same with told | ⟨index, closed, rfl, unnamed, reported⟩
        · exact .inl ((told_stable who success).later core core' later told)
        · exact .inr ⟨index, closed, rfl, unnamed, (logged_stable _).later core core' later reported⟩
    | maintain => exact Stays.keeps (p := ExceptT.run maintain >>= fun _ => pure ()) who core
    | shutdown reason => exact Stays.keeps (p := ExceptT.run (shutdown reason) >>= fun _ => pure ()) who core
  children child who core passed := by
    cases child with
    | worker r => exact Stays.keeps (p := worker r) who core
    | drain index key => exact drain_keeps index key who core passed

/-! ## What holds in every run -/

/-- A Broker that has just started, after any calls and any steps of its threads. -/
def reach (χ : Type) (digests : Digests) (moves : List (Move Call (Input χ))) : Core χ :=
  (System.run (system χ digests) (start χ) moves).shared

theorem orderly (digests : Digests) (moves : List (Move Call (Input χ))) :
    (System.run (system χ digests) (start χ) moves).Orderly (broker χ) := by
  have idle : (start χ).Orderly (broker χ) := fun _ _ found => by cases found
  exact (idle.run (follows digests) moves).1

theorem reach_lawful (digests : Digests) (first rest : List (Move Call (Input χ))) :
    ∃ events, Lawful (reach χ digests first) events (reach χ digests (first ++ rest)) := by
  unfold reach
  rw [System.run_append]
  exact later_lawful ((orderly digests first).run (follows digests) rest).2

theorem reach_start (digests : Digests) (moves : List (Move Call (Input χ))) :
    ∃ events, Lawful ({} : Core χ) events (reach χ digests moves) := reach_lawful digests [] moves

/-- What one move adds to the history. -/
def logged (digests : Digests) (first : List (Move Call (Input χ))) (move : Move Call (Input χ)) : List Event :=
  (reach χ digests (first ++ [move])).history.drop (reach χ digests first).history.length

theorem logged_warranted (digests : Digests) (first : List (Move Call (Input χ))) (move : Move Call (Input χ)) :
    ∃ who, ∀ event ∈ logged digests first move, Warranted (reach χ digests first) who event := by
  have next : reach χ digests (first ++ [move]) =
      (System.move (system χ digests) (System.run (system χ digests) (start χ) first) move).shared := by
    unfold reach
    rw [System.run_append]
    rfl
  unfold logged
  rw [next]
  rcases ((orderly digests first).move (follows digests) move).2 with same | ⟨who, events, lawful, warranted⟩
  · refine ⟨0, fun event member => ?_⟩
    rw [same] at member
    simp [reach] at member
  · refine ⟨who, fun event member => warranted event ?_⟩
    rw [lawful.history] at member
    simpa [reach] using member

/-- However its calls, launch workers and reapers interleave, two slots of the Broker that
    both have a lease never share a selection. A slot is reserved only while no shutdown has
    begun and no cleanup of its selection has failed, at any time before. -/
theorem selections_exclusive (digests : Digests) (first rest : List (Move Call (Input χ))) :
    (reach χ digests (first ++ rest)).Apart ∧
      ∀ (index : Nat) place, (reach χ digests (first ++ rest)).places[index]? = some place →
        (reach χ digests first).places.length ≤ index →
          (reach χ digests first).shuttingDown = false ∧
            (reach χ digests first).failed.lookup place.key.selection = none := by
  obtain ⟨events, lawful⟩ := reach_start digests (first ++ rest)
  obtain ⟨_, further⟩ := reach_lawful digests first rest
  refine ⟨lawful.apart fun i j _ _ _ _ found => ?_, further.fresh⟩
  cases found

/-- A slot that lost its lease gets no other, and a lease only moves on: from preparing to
    ready to stale to closing, with the binding that it got when it became ready, with its
    first reason to end, and with a handoff that is never taken back. A ledger that has been
    closed is not opened again, and nothing enters it. -/
theorem leases_move_on (digests : Digests) (first rest : List (Move Call (Input χ))) :
    (reach χ digests first).places.length ≤ (reach χ digests (first ++ rest)).places.length ∧
      ∀ (index : Nat) place place', (reach χ digests first).places[index]? = some place →
        (reach χ digests (first ++ rest)).places[index]? = some place' → place.Later place' := by
  obtain ⟨_, lawful⟩ := reach_lawful digests first rest
  refine ⟨?_, fun index place place' before after => ?_⟩
  · by_contra fewer
    have inside : (reach χ digests (first ++ rest)).places.length < (reach χ digests first).places.length := by omega
    obtain ⟨_, there, -⟩ := lawful.later _ _ (List.getElem?_eq_getElem inside)
    rw [List.getElem?_eq_none (le_refl _)] at there
    cases there
  · obtain ⟨_, there, later⟩ := lawful.later index place before
    rw [after] at there
    cases there
    exact later

/-- A reference is redeemed at most once for each time that its token was drawn, and at most
    one session is inserted for it. -/
theorem references_spent_once (digests : Digests) (moves : List (Move Call (Input χ))) (use : Use) (token : Token) :
    (reach χ digests moves).history.countP (·.uses use token) ≤ (reach χ digests moves).history.countP (·.draws token) := by
  obtain ⟨events, lawful⟩ := reach_start digests moves
  have spends := lawful.spends use token
  have none : ({} : Core χ).due use token = 0 := rfl
  rw [lawful.history]
  change events.countP _ ≤ events.countP _
  omega

/-- A lease is sealed once at most, and its terminal reaper calls the cleanup of its launch
    only when every operation that had entered its ledger has left it and none can enter. -/
theorem sealed_once_and_drained (digests : Digests) (first : List (Move Call (Input χ))) (move : Move Call (Input χ))
    (index : Nat) : (reach χ digests first).history.countP (·.seals index) ≤ 1 ∧
      ∀ ok, .cleanup index .terminalReaper ok ∈ logged digests first move → Drained (reach χ digests first) index := by
  obtain ⟨events, lawful⟩ := reach_start digests first
  obtain ⟨who, warranted⟩ := logged_warranted digests first move
  refine ⟨?_, fun ok called => warranted _ called⟩
  have seals := lawful.seals index
  have free : ({} : Core χ).gate index = 1 := rfl
  rw [lawful.history]
  change events.countP _ ≤ 1
  omega

end AppPilotKit.Broker
