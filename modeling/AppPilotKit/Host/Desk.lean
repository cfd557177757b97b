import AppPilotKit.Target.Lifetimes

/-! # The desk of a target host

The Android and the iOS host keep the same books next to the Rust supervisor:
which streams have a runtime or a pending write, which accepted stream waits for
the lease, which timers run. `Desk` holds them together with what the current
step has done. The platforms differ in how events reach it.
-/

namespace AppPilotKit.Host

open Wire Transport Target

/-- What a host does: it drives the supervisor, gives commands to its sockets and
    timers, and ends a session or the lease. -/
inductive Deed where
  | drove (event : Event) (result : Except SupervisorError Outcome)
  | receive (streamId : Nat)
  | write (streamId writeToken : Nat)
  | close (streamId : Nat)
  | arm (token : Nat)
  | handle (streamId runtime : Nat)
  | sessionTerminal (streamId : Nat)
  | leaseTerminal

structure Desk (H T : Type) where
  supervisor : TargetTransport H T
  stopped : Bool := false
  bootstrapStreamId : Nat := 0
  /-- The runtime composition was made. -/
  composed : Bool := false
  /-- The runtime of each stream, by the order in which they were made. -/
  runtimes : Table Nat := ∅
  nextRuntime : Nat := 0
  pendingWrites : Table Nat := ∅
  pendingSession : Option Nat := none
  /-- What the waiting stream has sent already; only the iOS host reads this early. -/
  pendingSessionBytes : Bytes := []
  pendingTimers : List Nat := []
  /-- What the current step has done so far. -/
  log : List Deed := []

/-- What is decided outside of the host while one task runs: randomness, the
    answer of the runtime (it may throw), whether the composition can be made,
    and whether the stream was seen to end before the answer was there. -/
structure World (R : Type) where
  entropy : R
  response : Option Bytes := none
  composes : Bool := true
  observed : Bool := false

/-- The timer an outcome carries. -/
def deadlineToken (o : Outcome) : Option Nat :=
  if o.flags &&& 1 <<< 1 ≠ 0 then some o.value0
  else if o.flags &&& 1 <<< 2 ≠ 0 then some o.writeToken
  else none

namespace Desk

variable {R H T : Type}

def note (d : Desk H T) (deed : Deed) : Desk H T := { d with log := d.log ++ [deed] }

def drive (noise : Noise R H T) (entropy : R) (d : Desk H T) (event : Event) :
    Except SupervisorError Outcome × Desk H T :=
  let (result, supervisor) := d.supervisor.drive noise entropy event
  (result, { d with supervisor }.note (.drove event result))

def scheduleDeadline (d : Desk H T) (o : Outcome) : Desk H T :=
  match deadlineToken o with
  | some token =>
      if token = 0 ∨ o.nextDeadlineMs = 0 ∨ token ∈ d.pendingTimers then d
      else { d with pendingTimers := token :: d.pendingTimers }.note (.arm token)
  | none => d

def wipePendingWrite (d : Desk H T) (streamId : Nat) : Desk H T :=
  { d with pendingWrites := d.pendingWrites.erase streamId }

/-- The write of an outcome, unless it is not one or the stream already writes. -/
def write (d : Desk H T) (o : Outcome) : Option (Desk H T) :=
  if o.streamId = 0 ∨ o.writeToken = 0 ∨ o.bytes.getD [] = [] ∨ (d.pendingWrites.lookup o.streamId).isSome then none
  else some ({ d with pendingWrites := d.pendingWrites.insert o.streamId o.writeToken }.note
    (.write o.streamId o.writeToken))

/-- The runtime of a stream, made when it has none. -/
def runtimeFor (d : Desk H T) (streamId : Nat) : Nat × Desk H T :=
  match d.runtimes.lookup streamId with
  | some runtime => (runtime, d)
  | none =>
      (d.nextRuntime,
        { d with runtimes := d.runtimes.insert streamId d.nextRuntime, nextRuntime := d.nextRuntime + 1 })

/-- Everything local is stale once the lease is over. -/
def leaseTerminal (d : Desk H T) : Desk H T :=
  if d.stopped then d
  else
    { d with
      stopped := true, pendingTimers := [], pendingWrites := ∅, runtimes := ∅, pendingSession := none
      pendingSessionBytes := [] }.note .leaseTerminal

section
variable (noise : Noise R H T) (entropy : R) (leaseTerminal : Desk H T → Desk H T)
  (process : Desk H T → Outcome → Desk H T)

/-- `internalFailure`, for a host that ends the lease and processes outcomes this way. -/
def internalFailure (d : Desk H T) : Desk H T :=
  if d.stopped then d
  else
    match d.drive noise entropy { tag := .internalError } with
    | (.ok o, d) => process d o
    | (.error _, d) => leaseTerminal d

/-- `driveAndProcess`: an event that the supervisor rejects is an internal failure. -/
def driveAndProcess (d : Desk H T) (event : Event) : Desk H T :=
  if d.stopped then d
  else
    match d.drive noise entropy event with
    | (.ok o, d) => process d o
    | (.error _, d) => d.internalFailure noise entropy leaseTerminal process

end

end Desk

/-! ## What a desk keeps

`ended` are the streams whose session was over before the current step, `waiting`
those whose acceptance was announced and not yet taken up, and `next` bounds the
numbers given to streams. `early` hosts let the waiting stream wait on while its
session starts.
-/

section
variable {R H T : Type}

/-- The session of the stream is over, by now. -/
def Over (ended : Nat → Prop) (d : Desk H T) (s : Nat) : Prop := ended s ∨ .sessionTerminal s ∈ d.log

structure Kept (early : Prop) (ended : Nat → Prop) (waiting : List Nat) (next : Nat) (d : Desk H T) : Prop where
  sound : Sound d.supervisor
  children : ∀ s child, d.supervisor.registered s = some child →
    s ∉ waiting ∧ s < next ∧ (d.pendingSession = some s → d.composed = true)
  pending : ∀ s, d.pendingSession = some s → s ∉ waiting ∧ s < next
  clear : ¬ early → d.composed = true → d.pendingSession = none
  finished : ∀ s, Over ended d s → d.pendingWrites.lookup s = none ∧ d.runtimes.lookup s = none ∧
    (s ∉ waiting ∧ s < next) ∧ d.pendingSession ≠ some s

/-- An outcome that fits the desk: it asks for nothing on a stream that is over, and
    it ends a session that was accepted. -/
structure Fits (ended : Nat → Prop) (waiting : List Nat) (next : Nat) (d : Desk H T) (o : Outcome) : Prop where
  named : o.kind ≠ .sessionTerminal ∧ o.kind ≠ .leaseTerminal → o.streamId = 0 ∨ ¬ Over ended d o.streamId
  terminal : o.kind = .sessionTerminal → (o.streamId ∉ waiting ∧ o.streamId < next) ∧
    (d.pendingSession = some o.streamId → d.composed = true)

variable {early : Prop} {ended : Nat → Prop} {waiting : List Nat} {next : Nat} {d : Desk H T}

theorem over_note {deed : Deed} (other : ∀ s, deed ≠ .sessionTerminal s) {s : Nat} :
    Over ended (d.note deed) s ↔ Over ended d s := by
  unfold Over Desk.note
  simp only [List.mem_append, List.mem_singleton]
  constructor
  · rintro (old | old | new)
    · exact .inl old
    · exact .inr old
    · exact absurd new.symm (other s)
  · rintro (old | old)
    · exact .inl old
    · exact .inr (.inl old)

namespace Kept

theorem note (h : Kept early ended waiting next d) {deed : Deed} (other : ∀ s, deed ≠ .sessionTerminal s) :
    Kept early ended waiting next (d.note deed) :=
  ⟨h.sound, h.children, h.pending, h.clear, fun s isOver => h.finished s ((over_note other).mp isOver)⟩

/-- Fewer announcements wait. -/
theorem less {fewer : List Nat} (h : Kept early ended waiting next d) (subset : fewer ⊆ waiting) :
    Kept early ended fewer next d := by
  refine ⟨h.sound, fun s child found => ?_, fun s slot => ?_, h.clear, fun s isOver => ?_⟩
  · obtain ⟨unannounced, rest⟩ := h.children s child found
    exact ⟨fun member => unannounced (subset member), rest⟩
  · obtain ⟨unannounced, small⟩ := h.pending s slot
    exact ⟨fun member => unannounced (subset member), small⟩
  · obtain ⟨writes, runtimes, ⟨unannounced, small⟩, pending⟩ := h.finished s isOver
    exact ⟨writes, runtimes, ⟨fun member => unannounced (subset member), small⟩, pending⟩

/-- A new stream is announced. -/
theorem announce (h : Kept early ended waiting next d) : Kept early ended (waiting ++ [next]) (next + 1) d := by
  have outside {s : Nat} (old : s ∉ waiting ∧ s < next) : s ∉ waiting ++ [next] ∧ s < next + 1 := by
    refine ⟨fun member => ?_, old.2.trans (Nat.lt_succ_self _)⟩
    rcases List.mem_append.mp member with member | member
    · exact old.1 member
    · exact old.2.ne (List.mem_singleton.mp member)
  refine ⟨h.sound, fun s child found => ?_, fun s slot => outside (h.pending s slot), h.clear, fun s isOver => ?_⟩
  · obtain ⟨unannounced, small, composed⟩ := h.children s child found
    exact ⟨(outside ⟨unannounced, small⟩).1, (outside ⟨unannounced, small⟩).2, composed⟩
  · obtain ⟨writes, runtimes, accepted, pending⟩ := h.finished s isOver
    exact ⟨writes, runtimes, outside accepted, pending⟩

/-- An announced stream is taken up and waits for the lease. -/
theorem wait {s : Nat} (h : Kept early ended (s :: waiting) next d) (fresh : s ∉ waiting) (small : s < next)
    (notOver : ¬ Over ended d s) (clear : ¬ early → d.composed = true → False) :
    Kept early ended waiting next { d with pendingSession := some s } := by
  have rest : Kept early ended waiting next d := h.less (List.subset_cons_self _ _)
  refine ⟨rest.sound, fun other child found => ?_, fun other slot => ?_, fun late composed => ?_, fun other isOver => ?_⟩
  · obtain ⟨unannounced, below, -⟩ := h.children other child found
    refine ⟨(rest.children other child found).1, below, fun slot => ?_⟩
    cases slot
    exact absurd (List.mem_cons_self ..) unannounced
  · cases slot
    exact ⟨fresh, small⟩
  · exact absurd composed (clear late)
  · obtain ⟨writes, runtimes, accepted, -⟩ := rest.finished other isOver
    refine ⟨writes, runtimes, accepted, fun slot => ?_⟩
    cases slot
    exact notOver isOver

/-- The books of a step become those before the next one. -/
theorem settle (h : Kept early ended waiting next d) :
    Kept early (fun s => Over ended d s) waiting next { d with log := [] } :=
  ⟨h.sound, h.children, h.pending, h.clear, fun s isOver =>
    h.finished s (isOver.resolve_right fun logged => (by cases logged))⟩

theorem drive (noise : Noise R H T) (entropy : R) (h : Kept early ended waiting next d) {event : Event}
    (joins : event.tag = .sessionAccepted →
      event.streamId ∉ waiting ∧ event.streamId < next ∧ d.composed = true) :
    Kept early ended waiting next (d.drive noise entropy event).2 := by
  refine Kept.note (d := { d with supervisor := _ }) ?_ (fun s => by simp)
  refine ⟨drive_sound noise entropy h.sound event, fun s child found => ?_, h.pending, h.clear, h.finished⟩
  have passage := drive_passage noise entropy h.sound event s
  change (d.supervisor.drive noise entropy event).2.registered s = some child at found
  generalize d.supervisor.drive noise entropy event = r at passage found
  obtain ⟨result, t'⟩ := r
  cases passage with
  | elsewhere same _ _ _ => exact h.children s child (same ▸ found)
  | accepted joined _ _ =>
      obtain ⟨tag, rfl⟩ := joined
      obtain ⟨fresh, small, composed⟩ := joins tag
      exact ⟨fresh, small, fun _ => composed⟩
  | kept there _ _ _ => exact h.children s _ there
  | applied there _ _ _ => exact h.children s _ there
  | ended there _ _ _ _ => exact h.children s _ there
  | slipped there _ _ _ _ => exact h.children s _ there
  | leaseEnded _ _ gone => cases gone.symm.trans found

/-- The answer to an event fits the desk, when the stream of the event is not over. -/
theorem fits (noise : Noise R H T) (entropy : R) (h : Kept early ended waiting next d) {event : Event}
    (free : event.streamId = 0 ∨ ¬ Over ended d event.streamId) {o : Outcome}
    (answer : (d.drive noise entropy event).1 = .ok o) :
    Fits ended waiting next (d.drive noise entropy event).2 o := by
  have answered : (d.supervisor.drive noise entropy event).1 = .ok o := answer
  constructor
  · intro goesOn
    rcases drive_named noise entropy h.sound answered goesOn with same | zero
    · rw [same]
      refine free.imp_right fun notOver isOver => notOver ?_
      exact (over_note (d := { d with supervisor := _ }) (fun s => by simp)).mp isOver
    · exact .inl zero
  · intro kind
    have ends : Terminates o.streamId (serve noise d.supervisor (entropy, event)).1 := ⟨o, answered, kind, rfl⟩
    obtain ⟨⟨child, found⟩, -⟩ := terminates_cases h.sound (entropy, event) ends
    obtain ⟨fresh, small, composed⟩ := h.children _ child found
    exact ⟨⟨fresh, small⟩, composed⟩

/-- Driving the supervisor keeps the books, and its answer fits them. -/
theorem driven {noise : Noise R H T} {entropy : R} (h : Kept early ended waiting next d) {event : Event}
    {result : Except SupervisorError Outcome} {d' : Desk H T} (eq : d.drive noise entropy event = (result, d'))
    (free : event.streamId = 0 ∨ ¬ Over ended d event.streamId)
    (joins : event.tag = .sessionAccepted →
      event.streamId ∉ waiting ∧ event.streamId < next ∧ d.composed = true) :
    Kept early ended waiting next d' ∧ ∀ o, result = .ok o → Fits ended waiting next d' o := by
  have kept := h.drive noise entropy joins
  have answered := fun o => h.fits noise entropy free (o := o)
  rw [eq] at kept answered
  exact ⟨kept, answered⟩

theorem scheduleDeadline (h : Kept early ended waiting next d) (o : Outcome) :
    Kept early ended waiting next (d.scheduleDeadline o) := by
  unfold Desk.scheduleDeadline
  split
  · split
    · exact h
    · refine Kept.note (d := { d with pendingTimers := _ }) ?_ (fun s => by simp)
      exact ⟨h.sound, h.children, h.pending, h.clear, h.finished⟩
  · exact h

end Kept

/-- Starting a timer changes nothing an outcome has to fit. -/
theorem Fits.scheduleDeadline {o : Outcome} (fits : Fits ended waiting next d o) (o' : Outcome) :
    Fits ended waiting next (d.scheduleDeadline o') o := by
  unfold Desk.scheduleDeadline
  split
  · split
    · exact fits
    · refine ⟨fun goesOn => (fits.named goesOn).imp_right fun notOver isOver => notOver ?_, fits.terminal⟩
      exact (over_note (d := { d with pendingTimers := _ }) (fun s => by simp)).mp isOver
  · exact fits

namespace Kept

theorem write {d' : Desk H T} {o : Outcome} (h : Kept early ended waiting next d)
    (free : o.streamId = 0 ∨ ¬ Over ended d o.streamId) (written : d.write o = some d') :
    Kept early ended waiting next d' := by
  unfold Desk.write at written
  split at written
  · cases written
  · rename_i valid
    push Not at valid
    cases written
    refine Kept.note (d := { d with pendingWrites := _ }) ?_ (fun s => by simp)
    refine ⟨h.sound, h.children, h.pending, h.clear, fun s isOver => ?_⟩
    have rest := h.finished s isOver
    refine ⟨?_, rest.2⟩
    show (d.pendingWrites.insert o.streamId o.writeToken).lookup s = none
    rw [Table.lookup_insert_eq, if_neg]
    · exact rest.1
    · rintro rfl
      exact (free.resolve_left valid.1) isOver

theorem runtimeFor (h : Kept early ended waiting next d) {s : Nat} (free : ¬ Over ended d s) :
    Kept early ended waiting next (d.runtimeFor s).2 := by
  unfold Desk.runtimeFor
  split
  · exact h
  · refine ⟨h.sound, h.children, h.pending, h.clear, fun other isOver => ?_⟩
    have rest := h.finished other isOver
    refine ⟨rest.1, ?_, rest.2.2⟩
    show (d.runtimes.insert s d.nextRuntime).lookup other = none
    rw [Table.lookup_insert_eq, if_neg]
    · exact rest.2.1
    · rintro rfl
      exact free isOver

theorem over_runtimeFor (d : Desk H T) (s other : Nat) : Over ended (d.runtimeFor s).2 other ↔ Over ended d other := by
  unfold Desk.runtimeFor
  split
  · exact Iff.rfl
  · exact Iff.rfl

theorem wipePendingWrite (h : Kept early ended waiting next d) (s : Nat) :
    Kept early ended waiting next (d.wipePendingWrite s) := by
  refine ⟨h.sound, h.children, h.pending, h.clear, fun other isOver => ?_⟩
  have rest := h.finished other isOver
  refine ⟨?_, rest.2⟩
  show (d.pendingWrites.erase s).lookup other = none
  rw [Table.lookup_erase_eq]
  split
  · rfl
  · exact rest.1

theorem leaseTerminal (h : Kept early ended waiting next d) : Kept early ended waiting next d.leaseTerminal := by
  unfold Desk.leaseTerminal
  split
  · exact h
  · refine Kept.note (d := { d with
      stopped := true, pendingTimers := [], pendingWrites := ∅, runtimes := ∅, pendingSession := none
      pendingSessionBytes := [] }) ?_ (fun s => by simp)
    refine ⟨h.sound, fun s child found => ?_, fun s slot => (by cases slot), fun _ _ => rfl, fun s isOver => ?_⟩
    · obtain ⟨fresh, small, -⟩ := h.children s child found
      exact ⟨fresh, small, fun slot => (by cases slot)⟩
    · exact ⟨rfl, rfl, (h.finished s isOver).2.2.1, fun slot => (by cases slot)⟩

/-- The end of a session that is not waiting any more. -/
theorem sessionTerminal (h : Kept early ended waiting next d) {s : Nat} (accepted : s ∉ waiting ∧ s < next)
    (notPending : d.pendingSession ≠ some s) :
    Kept early ended waiting next
      { ((d.note (.sessionTerminal s)).note (.close s)).wipePendingWrite s with runtimes := d.runtimes.erase s } := by
  refine ⟨h.sound, h.children, h.pending, h.clear, fun other isOver => ?_⟩
  have before : Over ended d other ∨ other = s := by
    rcases isOver with old | logged
    · exact .inl (.inl old)
    · have split : .sessionTerminal other ∈ (d.log ++ [.sessionTerminal s]) ++ [.close s] := logged
      simp only [List.mem_append, List.mem_singleton, Deed.sessionTerminal.injEq, reduceCtorEq, or_false] at split
      exact split.imp_left .inr
  show (d.pendingWrites.erase s).lookup other = none ∧ (d.runtimes.erase s).lookup other = none ∧
    (other ∉ waiting ∧ other < next) ∧ d.pendingSession ≠ some other
  rw [Table.lookup_erase_eq, Table.lookup_erase_eq]
  rcases before with old | rfl
  · have rest := h.finished other old
    refine ⟨?_, ?_, rest.2.2⟩
    · split
      · rfl
      · exact rest.1
    · split
      · rfl
      · exact rest.2.1
  · exact ⟨if_pos rfl, if_pos rfl, accepted, notPending⟩

variable {noise : Noise R H T} {entropy : R} {close : Desk H T → Desk H T} {process : Desk H T → Outcome → Desk H T}

theorem internalFailure
    (closes : ∀ d : Desk H T, Kept early ended waiting next d → Kept early ended waiting next (close d))
    (keeps : ∀ (d : Desk H T) o, Kept early ended waiting next d → Fits ended waiting next d o →
      Kept early ended waiting next (process d o))
    (h : Kept early ended waiting next d) :
    Kept early ended waiting next (d.internalFailure noise entropy close process) := by
  unfold Desk.internalFailure
  split
  · exact h
  · split
    · rename_i eq
      obtain ⟨kept, fits⟩ := h.driven eq (.inl rfl) (fun tag => by cases tag)
      exact keeps _ _ kept (fits _ rfl)
    · rename_i eq
      exact closes _ (h.driven eq (.inl rfl) (fun tag => by cases tag)).1

theorem driveAndProcess
    (closes : ∀ d : Desk H T, Kept early ended waiting next d → Kept early ended waiting next (close d))
    (keeps : ∀ (d : Desk H T) o, Kept early ended waiting next d → Fits ended waiting next d o →
      Kept early ended waiting next (process d o))
    (h : Kept early ended waiting next d) {event : Event} (free : event.streamId = 0 ∨ ¬ Over ended d event.streamId)
    (joins : event.tag = .sessionAccepted → event.streamId ∉ waiting ∧ event.streamId < next ∧ d.composed = true) :
    Kept early ended waiting next (d.driveAndProcess noise entropy close process event) := by
  unfold Desk.driveAndProcess
  split
  · exact h
  · split
    · rename_i eq
      obtain ⟨kept, fits⟩ := h.driven eq free joins
      exact keeps _ _ kept (fits _ rfl)
    · rename_i eq
      exact internalFailure closes keeps (h.driven eq free joins).1

end Kept

end

end AppPilotKit.Host
