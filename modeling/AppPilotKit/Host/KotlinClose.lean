import AppPilotKit.Host.KotlinBlocks
import AppPilotKit.Target.LimitRounds

/-! # Closing the Android host

A call of `close` returns exactly when its block reached the looper before the end of the lease
quit it.
-/

namespace AppPilotKit.Host.Kotlin

open Wire Transport Target Host

variable {R H T : Type}

namespace Lifecycle

/-! ## The calls and their blocks -/

def caller : Block → Option Nat
  | .close caller => some caller
  | _ => none

def activates : Block → Bool
  | .activate => true
  | _ => false

/-- The blocks that have not been left, the one that runs first. -/
def unfinished (l : Lifecycle H T) : List Block := l.current.toList ++ l.blocks

/-- The blocks and the threads that wait for them go together. -/
structure Ledger (l : Lifecycle H T) : Prop where
  waiting (c : Nat) : c ∈ l.unfinished.filterMap caller ↔ l.calls[c]? = some .waiting
  distinct : (l.unfinished.filterMap caller).Nodup
  activation : l.unfinished.countP activates = if l.starter = .waiting then 1 else 0
  closing (c : Nat) : l.starter = .closing c → c < l.calls.length

section
variable {l l' : Lifecycle H T}

/-- More tasks wait. -/
structure Busier (l l' : Lifecycle H T) : Prop where
  blocks : ∃ tasks : List Task, l'.blocks = l.blocks ++ tasks.map .task
  current : l'.current = l.current
  quit : l'.quit = l.quit
  calls : l'.calls = l.calls
  starter : l'.starter = l.starter

theorem Busier.refl : Busier l l := ⟨⟨[], (List.append_nil _).symm⟩, rfl, rfl, rfl, rfl⟩

theorem posted_busier (l : Lifecycle H T) (host : TransportHost H T) : Busier l (l.posted host) := by
  rw [posted_eq]
  refine ⟨?_, rfl, rfl, rfl, rfl⟩
  cases l.quit with
  | true => exact ⟨[], rfl⟩
  | false => exact ⟨host.queue, rfl⟩

theorem register_busier (l : Lifecycle H T) : Busier l l.register := by
  have dropped (host : TransportHost H T) : Busier l ({ l with inHand := false }.posted host) := by
    obtain ⟨blocks, current, quit, calls, starter⟩ := posted_busier { l with inHand := false } host
    exact ⟨blocks, current, quit, calls, starter⟩
  unfold register
  split
  · dsimp only
    split
    · exact dropped _
    · exact dropped _
  · exact .refl

theorem Busier.ledger (busier : Busier l l') (ledger : Ledger l) : Ledger l' := by
  obtain ⟨tasks, blocks⟩ := busier.blocks
  have opened : l'.unfinished = l.unfinished ++ tasks.map .task := by
    unfold unfinished
    rw [blocks, busier.current, List.append_assoc]
  have noCaller : (tasks.map Block.task).filterMap caller = [] := by
    rw [List.filterMap_map]
    exact List.filterMap_eq_nil_iff.mpr fun task _ => rfl
  have noActivation : (tasks.map Block.task).countP activates = 0 := by
    rw [List.countP_map]
    exact List.countP_eq_zero.mpr fun task _ => Bool.false_ne_true
  constructor
  · rw [opened, List.filterMap_append, noCaller, List.append_nil, busier.calls]
    exact ledger.waiting
  · rw [opened, List.filterMap_append, noCaller, List.append_nil]
    exact ledger.distinct
  · rw [opened, List.countP_append, noActivation, busier.starter]
    exact ledger.activation
  · rw [busier.starter, busier.calls]
    exact ledger.closing

theorem Ledger.fresh (ledger : Ledger l) : l.calls.length ∉ l.unfinished.filterMap caller := by
  intro member
  have waits := (ledger.waiting _).mp member
  rw [List.getElem?_eq_none (Nat.le_refl _)] at waits
  cases waits

/-- What a call of `close` leaves to the looper, and what it waits for. -/
theorem close_eq (l : Lifecycle H T) : l.close =
    { l with
      blocks := l.blocks ++ if l.quit then [] else [.close l.calls.length]
      calls := l.calls ++ [if l.quit then .dropped else .waiting] } := by
  unfold close post
  cases quit : l.quit with
  | true => simp [quit]
  | false => simp [quit]

theorem calls_close (call : Call) (c : Nat) :
    (l.calls ++ [call])[c]? = if c = l.calls.length then some call else l.calls[c]? := by
  split
  · next here => rw [here, List.getElem?_concat_length]
  · next other =>
      rcases Nat.lt_or_gt_of_ne other with below | above
      · exact List.getElem?_append_left below
      · rw [List.getElem?_eq_none (by simp; omega), List.getElem?_eq_none (by omega)]

theorem close_ledger (ledger : Ledger l) : Ledger l.close := by
  have opened : l.close.unfinished = l.unfinished ++ if l.quit then [] else [.close l.calls.length] := by
    rw [close_eq]
    exact (List.append_assoc ..).symm
  have callers : l.close.unfinished.filterMap caller = l.unfinished.filterMap caller ++ if l.quit then [] else [l.calls.length] := by
    rw [opened, List.filterMap_append]
    cases l.quit <;> rfl
  constructor
  · intro c
    rw [callers, close_eq, calls_close, List.mem_append, ledger.waiting]
    by_cases here : c = l.calls.length
    · subst here
      rw [List.getElem?_eq_none (Nat.le_refl _)]
      cases l.quit <;> simp
    · rw [if_neg here]
      cases l.quit <;> simp [here]
  · rw [callers]
    refine List.nodup_append.mpr ⟨ledger.distinct, ?_, ?_⟩
    · cases l.quit <;> simp
    · intro c member d last same
      cases quit : l.quit with
      | true => simp [quit] at last
      | false =>
          simp only [quit, Bool.false_eq_true, if_false, List.mem_singleton] at last
          exact ledger.fresh (last ▸ same ▸ member)
  · rw [opened, List.countP_append, ledger.activation, close_eq]
    cases l.quit <;> rfl
  · intro c closing
    rw [close_eq] at closing ⊢
    exact (ledger.closing c closing).trans (by simp)

/-- Only the stage of one call changes, from one that nobody waits in to another. -/
theorem set_ledger (ledger : Ledger l) {c : Nat} {call : Call} (settled : l.calls[c]? ≠ some .waiting) (past : call ≠ .waiting) :
    Ledger { l with calls := l.calls.set c call } := by
  refine ⟨fun other => ?_, ledger.distinct, ledger.activation, fun other closing => ?_⟩
  · refine (ledger.waiting other).trans ?_
    dsimp only
    rw [List.getElem?_set]
    split
    · next same =>
        subst same
        refine ⟨fun waits => absurd waits settled, fun now => ?_⟩
        split at now
        · exact absurd (Option.some.inj now) past
        · cases now
    · exact Iff.rfl
  · rw [List.length_set]
    exact ledger.closing other closing

theorem resume_ledger (ledger : Ledger l) : Ledger l.resume := by
  have moved (l : Lifecycle H T) (ledger : Ledger l) (past : l.starter ≠ .waiting) {starter : Starter} (on : starter ≠ .waiting)
      (inside : ∀ c, starter = .closing c → c < l.calls.length) : Ledger { l with starter } := by
    refine ⟨ledger.waiting, ledger.distinct, ?_, inside⟩
    rw [if_neg on]
    exact ledger.activation.trans (if_neg past)
  unfold resume
  split
  · next failed =>
      refine moved _ (close_ledger ledger) ?_ nofun fun c same => ?_
      · rw [close_eq]
        exact fun waits => nomatch failed.symm.trans waits
      · cases same
        rw [close_eq]
        simp
  · next c closing =>
      have past : l.starter ≠ .waiting := fun waits => nomatch closing.symm.trans waits
      split
      · exact moved l ledger past nofun nofun
      · exact moved l ledger past nofun nofun
      · exact ledger
  · exact ledger

end

section
variable {noise : Noise R H T} {initial : Outcome} {world : World R} {binds : Bool} {l : Lifecycle H T}

/-- The effects of a block are on the host. -/
theorem begin_same (block : Block) :
    let l' := (l.begin noise initial world binds block).2
    l'.blocks = l.blocks ∧ l'.current = l.current ∧ l'.quit = l.quit ∧ l'.calls = l.calls ∧ l'.starter = l.starter := by
  cases block with
  | activate => exact ⟨rfl, rfl, rfl, rfl, rfl⟩
  | task task =>
      unfold begin
      dsimp only
      split
      · exact ⟨rfl, rfl, rfl, rfl, rfl⟩
      · exact ⟨rfl, rfl, rfl, rfl, rfl⟩
  | close caller => exact ⟨rfl, rfl, rfl, rfl, rfl⟩

theorem leave_ledger (ledger : Ledger l) {block : Block} (runs : l.current = some block) : Ledger (l.leave block) := by
  have opened : l.unfinished = block :: l.blocks := by
    unfold unfinished
    rw [runs]
    rfl
  cases block with
  | activate =>
      have waits : l.starter = .waiting := by
        have counted := ledger.activation
        rw [opened] at counted
        by_contra past
        rw [if_neg past] at counted
        exact absurd counted (by simp [activates])
      have counted := ledger.activation
      rw [opened, if_pos waits] at counted
      rw [List.countP_cons_of_pos rfl] at counted
      have none : l.blocks.countP activates = 0 := by omega
      have waiting := ledger.waiting
      have distinct := ledger.distinct
      rw [opened] at waiting distinct
      refine ⟨waiting, distinct, ?_, fun c closing => ?_⟩
      · unfold leave
        dsimp only [unfinished, Option.toList, List.nil_append]
        rw [none]
        cases l.failed <;> rfl
      · unfold leave at closing
        dsimp only at closing
        cases failed : l.failed with
        | true => simp [failed] at closing
        | false => simp [failed] at closing
  | task task =>
      have waiting := ledger.waiting
      have distinct := ledger.distinct
      have activation := ledger.activation
      rw [opened] at waiting distinct activation
      exact ⟨waiting, distinct, activation, ledger.closing⟩
  | close c =>
      have waiting := ledger.waiting
      have distinct := ledger.distinct
      have activation := ledger.activation
      rw [opened] at waiting distinct activation
      obtain ⟨gone, distinct⟩ := List.nodup_cons.mp distinct
      refine ⟨fun other => ?_, distinct, activation, fun other closing => ?_⟩
      · unfold leave
        dsimp only [unfinished, Option.toList, List.nil_append]
        rw [List.getElem?_set]
        split
        · next same =>
            subst same
            refine ⟨fun member => absurd member gone, fun now => ?_⟩
            split at now
            · cases now
            · cases now
        · next other' =>
            rw [← waiting]
            exact ⟨fun member => List.mem_cons_of_mem _ member, fun member => (List.mem_cons.mp member).resolve_left (Ne.symm other')⟩
      · unfold leave
        dsimp only
        rw [List.length_set]
        exact ledger.closing other closing

theorem turn_ledger (ledger : Ledger l) : Ledger (l.turn noise initial world binds).2 := by
  unfold turn
  split
  · next block runs => exact leave_ledger ledger runs
  · next idle =>
      split
      · exact ledger
      · next block blocks queued =>
          have opened : ({ l with blocks, current := some block } : Lifecycle H T).unfinished = l.unfinished := by
            unfold unfinished
            rw [idle, queued]
            rfl
          have taken : Ledger { l with blocks, current := some block } :=
            ⟨opened ▸ ledger.waiting, opened ▸ ledger.distinct, opened ▸ ledger.activation, ledger.closing⟩
          obtain ⟨same, current, -, calls, starter⟩ :=
            @begin_same _ _ _ noise initial world binds { l with blocks, current := some block } block
          refine ⟨?_, ?_, ?_, ?_⟩
          · unfold unfinished
            rw [same, current, calls]
            exact taken.waiting
          · unfold unfinished
            rw [same, current]
            exact taken.distinct
          · unfold unfinished
            rw [same, current, starter]
            exact taken.activation
          · rw [calls, starter]
            exact taken.closing

theorem event_busier (input : Input R) : Busier l (l.step noise initial (.event input)).2 := by
  cases input with
  | connect | close | run => exact .refl
  | listenerFails | peerUnsupported | read | written | expire | eligibilityLost => exact posted_busier l _

theorem accept_busier : Busier l (l.step noise initial .accept).2 := by
  dsimp only [step]
  split
  · exact ⟨⟨[], (List.append_nil _).symm⟩, rfl, rfl, rfl, rfl⟩
  · exact .refl

theorem step_ledger (ledger : Ledger l) (act : Act R) : Ledger (l.step noise initial act).2 := by
  cases act with
  | event input => exact (event_busier input).ledger ledger
  | accept => exact (@accept_busier _ _ _ noise initial l).ledger ledger
  | register => exact (register_busier l).ledger ledger
  | turn world binds => exact turn_ledger ledger
  | close => exact close_ledger ledger
  | expire c =>
      dsimp only [step]
      split
      · next dropped => exact set_ledger ledger (by rw [dropped]; nofun) nofun
      · exact ledger
  | resume => exact resume_ledger ledger

/-- The later stages of a call. -/
inductive Later : Call → Call → Prop
  | same (call : Call) : Later call call
  | returns : Later .waiting .returned
  | expires : Later .dropped .timedOut

theorem close_later {c : Nat} {call : Call} (there : l.calls[c]? = some call) : l.close.calls[c]? = some call := by
  rw [close_eq]
  exact (List.getElem?_append_left (List.getElem?_eq_some_iff.mp there).1).trans there

theorem set_later {c d : Nat} {call next : Call} (there : l.calls[c]? = some call)
    (moves : ∀ old, l.calls[d]? = some old → Later old next) :
    ∃ call', (l.calls.set d next)[c]? = some call' ∧ Later call call' := by
  rw [List.getElem?_set]
  split
  · next same =>
      subst same
      rw [if_pos (List.getElem?_eq_some_iff.mp there).1]
      exact ⟨next, rfl, moves call there⟩
  · exact ⟨call, there, .same call⟩

theorem step_later (ledger : Ledger l) (act : Act R) {c : Nat} {call : Call} (there : l.calls[c]? = some call) :
    ∃ call', (l.step noise initial act).2.calls[c]? = some call' ∧ Later call call' := by
  have kept {l' : Lifecycle H T} (calls : l'.calls = l.calls) : ∃ call', l'.calls[c]? = some call' ∧ Later call call' :=
    ⟨call, by rw [calls]; exact there, .same call⟩
  cases act with
  | event input => exact kept (event_busier input).calls
  | accept => exact kept (@accept_busier _ _ _ noise initial l).calls
  | register => exact kept (register_busier l).calls
  | turn world binds =>
      dsimp only [step, turn]
      split
      · next block runs =>
          cases block with
          | activate => exact kept rfl
          | task task => exact kept rfl
          | close d =>
              refine set_later there fun old found => ?_
              have pending : d ∈ l.unfinished.filterMap caller := by
                unfold unfinished
                rw [runs]
                exact List.mem_cons_self ..
              cases found.symm.trans ((ledger.waiting d).mp pending)
              exact .returns
      · split
        · exact kept rfl
        · exact kept (begin_same _).2.2.2.1
  | close => exact ⟨call, close_later there, .same call⟩
  | expire d =>
      dsimp only [step]
      split
      · next dropped =>
          refine set_later there fun old found => ?_
          cases found.symm.trans dropped
          exact .expires
      · exact kept rfl
  | resume =>
      dsimp only [step]
      unfold resume
      split
      · exact ⟨call, close_later there, .same call⟩
      · split
        · exact kept rfl
        · exact kept rfl
        · exact kept rfl
      · exact kept rfl

end

/-! ## Every run -/

/-- What holds between two steps, after the lease was ended `count` times. -/
structure Held (count : Nat) (l : Lifecycle H T) : Prop where
  ledger : Ledger l
  tidy : Tidy count l.host
  quits : l.quit = true → l.host.desk.stopped = true
  closing (c : Nat) : l.current = some (.close c) → l.host.desk.stopped = true
  returned : .returned ∈ l.calls → l.host.desk.stopped = true

section
variable {noise : Noise R H T} {initial : Outcome} {world : World R} {binds : Bool} {l : Lifecycle H T} {count : Nat}

theorem register_host (tidy : Tidy count l.host) : Tidy count l.register.host ∧ l.register.host.desk = l.host.desk := by
  have reported (h : TransportHost H T) (desk : h.desk = l.host.desk) (armed : h.armed = l.host.armed)
      (listening : l.host.listening = false → h.listening = false) (event : SocketEvent) (l' : Lifecycle H T) :
      Tidy count (l'.posted (h.socketEvent event)).host ∧ (l'.posted (h.socketEvent event)).host.desk = l.host.desk := by
    have calm := socketEvent_calm (Calm.refl (h := h)) event
    rw [posted_eq]
    have desk := calm.desk.trans desk
    refine ⟨⟨?_, ?_, fun stopped => ?_⟩, desk⟩
    · exact (congrArg (·.log) desk).trans tidy.log
    · exact tidy.once.trans (by dsimp only; rw [desk])
    · dsimp only at stopped
      rw [desk] at stopped
      obtain ⟨-, books, timers, listener⟩ := tidy.released stopped
      exact ⟨by dsimp only; rw [desk]; exact stopped, by dsimp only; rw [desk]; exact books, calm.armed (armed.trans timers),
        calm.listening (listening listener)⟩
  unfold register
  split
  · dsimp only
    split
    · apply reported
      · rfl
      · rfl
      · exact id
    · apply reported
      · rfl
      · rfl
      · exact fun _ => rfl
  · exact ⟨tidy, rfl⟩

theorem leave_host (block : Block) : (l.leave block).host = l.host := by
  cases block <;> rfl

theorem resume_host : l.resume.host = l.host ∧ l.resume.current = l.current ∧ l.resume.quit = l.quit := by
  unfold resume
  split
  · rw [close_eq]
    exact ⟨rfl, rfl, rfl⟩
  · split
    · exact ⟨rfl, rfl, rfl⟩
    · exact ⟨rfl, rfl, rfl⟩
    · exact ⟨rfl, rfl, rfl⟩
  · exact ⟨rfl, rfl, rfl⟩

/-- A call that has returned had returned before, unless the block of one is left. -/
theorem resume_returned (returned : .returned ∈ l.resume.calls) : .returned ∈ l.calls := by
  unfold resume at returned
  split at returned
  · rw [close_eq] at returned
    rcases List.mem_append.mp returned with old | new
    · exact old
    · cases quit : l.quit <;> simp [quit] at new
  · split at returned
    · exact returned
    · exact returned
    · exact returned
  · exact returned

theorem close_returned (returned : .returned ∈ l.close.calls) : .returned ∈ l.calls := by
  rw [close_eq] at returned
  rcases List.mem_append.mp returned with old | new
  · exact old
  · cases quit : l.quit <;> simp [quit] at new

/-- The block of a call leaves the lease ended. -/
theorem begin_close (tidy : Tidy count l.host) (c : Nat) :
    (l.begin noise initial world binds (.close c)).2.host.desk.stopped = true := by
  unfold begin
  dsimp only
  cases stopped : l.host.desk.stopped with
  | true =>
      rw [if_pos rfl, settle_still tidy]
      exact stopped
  | false =>
      rw [if_neg Bool.false_ne_true]
      have ended := (tidy.running stopped).leaseTerminal
      unfold TransportHost.settle
      rw [(perform_same _ _).1]
      exact ended.stopped

theorem leave_held (held : Held count l) {block : Block} (runs : l.current = some block) : Held count (l.leave block) := by
  refine ⟨leave_ledger held.ledger runs, ?_, fun quit => ?_, fun c next => ?_, fun returned => ?_⟩
  · rw [leave_host]
    exact held.tidy
  · rw [leave_host]
    have either : (l.quit || l.host.desk.stopped) = true := by cases block <;> exact quit
    rcases (Bool.or_eq_true _ _).mp either with quit | stopped
    · exact held.quits quit
    · exact stopped
  · cases block <;> cases next
  · rw [leave_host]
    cases block with
    | activate => exact held.returned returned
    | task task => exact held.returned returned
    | close c => exact held.closing c runs

theorem turn_held (held : Held count l) :
    Held (count + (l.turn noise initial world binds).1.countP endsLease) (l.turn noise initial world binds).2 := by
  have ledger := @turn_ledger _ _ _ noise initial world binds l held.ledger
  unfold turn at ledger ⊢
  split
  · next block runs => exact leave_held held runs
  · next idle =>
      rw [idle] at ledger
      split
      · exact held
      · next block blocks queued =>
          rw [queued] at ledger
          dsimp only at ledger
          obtain ⟨-, current, quit, calls, -⟩ :=
            @begin_same _ _ _ noise initial world binds { l with blocks, current := some block } block
          have tidy : Tidy count ({ l with blocks, current := some block } : Lifecycle H T).host := held.tidy
          have turned := @begin_turned _ _ _ noise initial _ _ tidy world binds block
          refine ⟨ledger, turned.tidy, fun on => ?_, fun c runs => ?_, fun returned => ?_⟩
          · rw [quit] at on
            exact turned.stays (held.quits on)
          · rw [current] at runs
            cases runs
            exact begin_close tidy c
          · rw [calls] at returned
            exact turned.stays (held.returned returned)

theorem step_held (held : Held count l) (act : Act R) :
    Held (count + (l.step noise initial act).1.countP endsLease) (l.step noise initial act).2 := by
  have ledger := @step_ledger _ _ _ noise initial l held.ledger act
  cases act with
  | event input =>
      have calm := @event_calm _ _ _ noise initial l input
      have busier := @event_busier _ _ _ noise initial l input
      have silent : (l.step noise initial (.event input)).1 = [] := by cases input <;> rfl
      refine ⟨ledger, ?_, ?_, ?_, ?_⟩
      · rw [silent]
        exact (calm.turned held.tidy).tidy
      · rw [busier.quit, calm.desk]
        exact held.quits
      · rw [busier.current, calm.desk]
        exact held.closing
      · rw [busier.calls, calm.desk]
        exact held.returned
  | accept =>
      have busier := @accept_busier _ _ _ noise initial l
      have host : (l.step noise initial .accept).2.host = l.host := by
        dsimp only [step]
        split <;> rfl
      refine ⟨ledger, host ▸ held.tidy, ?_, ?_, ?_⟩
      · rw [busier.quit, host]
        exact held.quits
      · rw [busier.current, host]
        exact held.closing
      · rw [busier.calls, host]
        exact held.returned
  | register =>
      obtain ⟨tidy, desk⟩ := register_host held.tidy
      have busier := register_busier l
      refine ⟨ledger, tidy, ?_, ?_, ?_⟩
      · exact fun quit => (congrArg (·.stopped) desk).trans (held.quits (busier.quit ▸ quit))
      · exact fun c runs => (congrArg (·.stopped) desk).trans (held.closing c (busier.current ▸ runs))
      · exact fun returned => (congrArg (·.stopped) desk).trans (held.returned (busier.calls ▸ returned))
  | turn world binds => exact turn_held held
  | close =>
      have same : l.close.host = l.host ∧ l.close.current = l.current ∧ l.close.quit = l.quit := by
        rw [close_eq]
        exact ⟨rfl, rfl, rfl⟩
      obtain ⟨host, current, quit⟩ := same
      refine ⟨ledger, host ▸ held.tidy, ?_, ?_, ?_⟩
      · exact fun on => host ▸ held.quits (quit ▸ on)
      · exact fun c runs => host ▸ held.closing c (current ▸ runs)
      · exact fun returned => host ▸ held.returned (close_returned returned)
  | expire c =>
      dsimp only [step] at ledger ⊢
      split
      · next dropped =>
          rw [if_pos dropped] at ledger
          refine ⟨ledger, held.tidy, held.quits, held.closing, fun returned => held.returned ?_⟩
          rcases List.mem_or_eq_of_mem_set returned with old | new
          · exact old
          · cases new
      · exact held
  | resume =>
      obtain ⟨host, current, quit⟩ := resume_host (l := l)
      refine ⟨ledger, host ▸ held.tidy, ?_, ?_, ?_⟩
      · exact fun on => host ▸ held.quits (quit ▸ on)
      · exact fun c runs => host ▸ held.closing c (current ▸ runs)
      · exact fun returned => host ▸ held.returned (resume_returned returned)

/-- A step that waits or ends too late: a call after the looper has quit, a connection after the
    end of the lease. -/
def late (l : Lifecycle H T) : Act R → Bool
  | .register => l.inHand && l.host.desk.stopped
  | .close => l.quit
  | .resume => decide (l.starter = .failed) && l.quit
  | _ => false

/-- What also holds while no step is late. -/
structure InTime (l : Lifecycle H T) : Prop where
  sockets : l.host.desk.stopped = true → l.host.streams = []
  calls : ∀ call ∈ l.calls, call = .waiting ∨ call = .returned
  starter : l.starter ≠ .replaced

theorem close_inTime (inTime : InTime l) (running : l.quit = false) : InTime l.close := by
  rw [close_eq, running]
  refine ⟨inTime.sockets, fun call member => ?_, inTime.starter⟩
  rcases List.mem_append.mp member with old | new
  · exact inTime.calls call old
  · exact .inl (List.mem_singleton.mp new)

theorem turn_inTime (held : Held count l) (inTime : InTime l) : InTime (l.turn noise initial world binds).2 := by
  unfold turn
  split
  · next block runs =>
      refine ⟨by rw [leave_host]; exact inTime.sockets, fun call member => ?_, ?_⟩
      · cases block with
        | activate => exact inTime.calls call member
        | task task => exact inTime.calls call member
        | close c =>
            rcases List.mem_or_eq_of_mem_set member with old | new
            · exact inTime.calls call old
            · exact .inr new
      · cases block with
        | activate =>
            unfold leave
            dsimp only
            cases l.failed <;> nofun
        | task task => exact inTime.starter
        | close c => exact inTime.starter
  · split
    · exact inTime
    · next block blocks queued =>
        obtain ⟨-, -, -, calls, starter⟩ :=
          @begin_same _ _ _ noise initial world binds { l with blocks, current := some block } block
        have tidy : Tidy count ({ l with blocks, current := some block } : Lifecycle H T).host := held.tidy
        have turned := @begin_turned _ _ _ noise initial _ _ tidy world binds block
        refine ⟨fun stopped => turned.sockets stopped inTime.sockets, ?_, ?_⟩
        · rw [calls]
          exact inTime.calls
        · rw [starter]
          exact inTime.starter

theorem step_inTime (held : Held count l) (inTime : InTime l) {act : Act R} (early : l.late act = false) :
    InTime (l.step noise initial act).2 := by
  cases act with
  | event input =>
      have calm := @event_calm _ _ _ noise initial l input
      have busier := @event_busier _ _ _ noise initial l input
      refine ⟨?_, ?_, ?_⟩
      · rw [calm.desk, calm.streams]
        exact inTime.sockets
      · rw [busier.calls]
        exact inTime.calls
      · rw [busier.starter]
        exact inTime.starter
  | accept =>
      dsimp only [step]
      split
      · exact ⟨inTime.sockets, inTime.calls, inTime.starter⟩
      · exact inTime
  | register =>
      have busier := register_busier l
      refine ⟨fun stopped => ?_, ?_, ?_⟩
      · have same : l.host.desk.stopped = true :=
          (congrArg (·.stopped) (register_host held.tidy).2).symm.trans stopped
        have empty : l.inHand = false := by simpa [late, same] using early
        have idle : l.register = l := by
          unfold register
          rw [if_neg (by simp [empty])]
        show l.register.host.streams = []
        rw [idle]
        exact inTime.sockets same
      · show ∀ call ∈ l.register.calls, _
        rw [busier.calls]
        exact inTime.calls
      · show l.register.starter ≠ _
        rw [busier.starter]
        exact inTime.starter
  | turn world binds => exact turn_inTime held inTime
  | close => exact close_inTime inTime early
  | expire c =>
      dsimp only [step]
      split
      · next dropped =>
          rcases inTime.calls _ (List.mem_of_getElem? dropped) with waits | returned
          · cases waits
          · cases returned
      · exact inTime
  | resume =>
      dsimp only [step]
      unfold resume
      split
      · next failed =>
          have running : l.quit = false := by simpa [late, failed] using early
          have closed := close_inTime inTime running
          exact ⟨closed.sockets, closed.calls, nofun⟩
      · split
        · exact ⟨inTime.sockets, inTime.calls, nofun⟩
        · next timedOut =>
            rcases inTime.calls _ (List.mem_of_getElem? timedOut) with waits | returned
            · cases waits
            · cases returned
        · exact inTime
      · exact inTime

/-! ## Waiting -/

def isTurn : Act R → Bool
  | .turn _ _ => true
  | _ => false

/-- The call has returned, or returns within `n` turns of the lifecycle thread. -/
def Due (c n : Nat) (l : Lifecycle H T) : Prop :=
  l.calls[c]? = some .returned ∨ (l.current = some (.close c) ∧ 1 ≤ n) ∨
    ∃ front back, l.blocks = front ++ .close c :: back ∧ 2 * front.length + 2 + l.current.toList.length ≤ n

theorem step_returned (ledger : Ledger l) {c : Nat} (returned : l.calls[c]? = some .returned) (act : Act R) :
    (l.step noise initial act).2.calls[c]? = some .returned := by
  obtain ⟨call, there, later⟩ := @step_later _ _ _ noise initial l ledger act c _ returned
  cases later
  exact there

theorem due_of_waiting (ledger : Ledger l) {c : Nat} (waits : l.calls[c]? = some .waiting) :
    Due c (2 * (l.blocks.length + 1)) l := by
  have pending := (ledger.waiting c).mpr waits
  obtain ⟨block, member, called⟩ := List.mem_filterMap.mp pending
  have block_eq : block = .close c := by
    cases block with
    | activate => cases called
    | task task => cases called
    | close d =>
        cases called
        rfl
  subst block_eq
  rcases List.mem_append.mp member with now | queued
  · exact .inr (.inl ⟨Option.mem_toList.mp now, by omega⟩)
  · obtain ⟨front, back, split⟩ := List.append_of_mem queued
    refine .inr (.inr ⟨front, back, split, ?_⟩)
    have one : l.current.toList.length ≤ 1 := by cases l.current <;> simp
    rw [split, List.length_append, List.length_cons]
    omega

theorem turn_due (ledger : Ledger l) {c n : Nat} (due : Due c n l) :
    Due c (n - 1) (l.turn noise initial world binds).2 := by
  rcases due with returned | ⟨runs, -⟩ | ⟨front, back, queue, soon⟩
  · exact .inl (@step_returned _ _ _ noise initial l ledger c returned (.turn world binds))
  · -- the block of the call is left
    unfold turn
    rw [runs]
    have pending : c ∈ l.unfinished.filterMap caller := by
      unfold unfinished
      rw [runs]
      exact List.mem_cons_self ..
    have waits := (ledger.waiting c).mp pending
    refine .inl ?_
    show (l.calls.set c .returned)[c]? = _
    rw [List.getElem?_set_self (List.getElem?_eq_some_iff.mp waits).1]
  · unfold turn
    split
    · next block runs =>
        refine .inr (.inr ⟨front, back, ?_, ?_⟩)
        · rw [← queue]
          cases block <;> rfl
        · rw [runs] at soon
          have idle : (l.leave block).current = none := by cases block <;> rfl
          dsimp only
          rw [idle]
          simp only [Option.toList, List.length_cons, List.length_nil] at soon ⊢
          omega
    · next idle =>
        rw [idle] at soon
        split
        · next none =>
            rw [none] at queue
            cases front <;> cases queue
        · next block blocks queued =>
            rw [queued] at queue
            obtain ⟨same, current, -⟩ :=
              @begin_same _ _ _ noise initial world binds { l with blocks, current := some block } block
            rcases front with _ | ⟨first, front⟩
            · cases queue
              exact .inr (.inl ⟨current, by simp at soon; omega⟩)
            · cases queue
              refine .inr (.inr ⟨front, back, same, ?_⟩)
              rw [current]
              simp only [Option.toList, List.length_cons, List.length_nil] at soon ⊢
              omega

theorem Due.wider {l' : Lifecycle H T} {c n : Nat} (due : Due c n l) (current : l'.current = l.current)
    (blocks : ∃ more, l'.blocks = l.blocks ++ more)
    (returned : l.calls[c]? = some .returned → l'.calls[c]? = some .returned) : Due c n l' := by
  rcases due with done | ⟨runs, soon⟩ | ⟨front, back, queue, soon⟩
  · exact .inl (returned done)
  · exact .inr (.inl ⟨current.trans runs, soon⟩)
  · obtain ⟨more, blocks⟩ := blocks
    refine .inr (.inr ⟨front, back ++ more, ?_, current ▸ soon⟩)
    rw [blocks, queue, List.append_assoc, List.cons_append]

theorem step_due (ledger : Ledger l) {c n : Nat} (due : Due c n l) {act : Act R} (other : isTurn act = false) :
    Due c n (l.step noise initial act).2 := by
  have returned (done : l.calls[c]? = some .returned) := @step_returned _ _ _ noise initial l ledger c done act
  have busy {l' : Lifecycle H T} (busier : Busier l l') : ∃ more, l'.blocks = l.blocks ++ more :=
    ⟨_, busier.blocks.choose_spec⟩
  cases act with
  | event input =>
      have busier := @event_busier _ _ _ noise initial l input
      exact due.wider busier.current (busy busier) returned
  | accept =>
      have busier := @accept_busier _ _ _ noise initial l
      exact due.wider busier.current (busy busier) returned
  | register => exact due.wider (register_busier l).current (busy (register_busier l)) returned
  | turn world binds => cases other
  | close =>
      have wider : l.close.current = l.current ∧ ∃ more, l.close.blocks = l.blocks ++ more := by
        rw [close_eq]
        exact ⟨rfl, _, rfl⟩
      exact due.wider wider.1 wider.2 returned
  | expire d =>
      refine due.wider ?_ ⟨[], ?_⟩ returned
      · dsimp only [step]
        split <;> rfl
      · dsimp only [step]
        rw [List.append_nil]
        split <;> rfl
  | resume =>
      have wider : l.resume.current = l.current ∧ ∃ more, l.resume.blocks = l.blocks ++ more := by
        unfold resume
        split
        · rw [close_eq]
          exact ⟨rfl, _, rfl⟩
        · split
          · exact ⟨rfl, [], (List.append_nil _).symm⟩
          · exact ⟨rfl, [], (List.append_nil _).symm⟩
          · exact ⟨rfl, [], (List.append_nil _).symm⟩
        · exact ⟨rfl, [], (List.append_nil _).symm⟩
      exact due.wider wider.1 wider.2 returned

variable (noise initial) in
theorem due_returns (acts : List (Act R)) {c n : Nat} (ledger : Ledger l) (due : Due c n l) (turns : n ≤ acts.countP isTurn) :
    (Runs.final (step noise initial) l acts).calls[c]? = some .returned := by
  induction acts generalizing l n with
  | nil =>
      obtain rfl : n = 0 := Nat.le_zero.mp turns
      rcases due with returned | ⟨-, soon⟩ | ⟨front, back, -, soon⟩
      · exact returned
      · omega
      · omega
  | cons act acts ih =>
      have next := @step_ledger _ _ _ noise initial l ledger act
      cases h : isTurn act with
      | true =>
          rw [List.countP_cons_of_pos h] at turns
          cases act with
          | turn world binds => exact ih next (turn_due ledger due) (by omega)
          | event | accept | register | close | expire | resume => cases h
      | false =>
          rw [List.countP_cons_of_neg (by simp [h])] at turns
          exact ih next (step_due ledger due h) turns

/-- The starter waits for its own call until it rethrows. -/
theorem step_closing (ledger : Ledger l) {c : Nat} (inTime : l.calls[c]? = some .waiting ∨ l.calls[c]? = some .returned)
    (closing : l.starter = .closing c ∨ l.starter = .rethrew) (act : Act R) :
    let l' := (l.step noise initial act).2
    (l'.calls[c]? = some .waiting ∨ l'.calls[c]? = some .returned) ∧ (l'.starter = .closing c ∨ l'.starter = .rethrew) := by
  refine ⟨?_, ?_⟩
  · rcases inTime with waits | returned
    · obtain ⟨call, there, later⟩ := @step_later _ _ _ noise initial l ledger act c _ waits
      cases later with
      | same => exact .inl there
      | returns => exact .inr there
    · exact .inr (step_returned ledger returned act)
  · have kept {l' : Lifecycle H T} (same : l'.starter = l.starter) : l'.starter = .closing c ∨ l'.starter = .rethrew := by
      rw [same]
      exact closing
    cases act with
    | event input => exact kept (event_busier input).starter
    | accept => exact kept (@accept_busier _ _ _ noise initial l).starter
    | register => exact kept (register_busier l).starter
    | turn world binds =>
        dsimp only [step, turn]
        split
        · next block runs =>
            cases block with
            | activate =>
                have past : l.starter ≠ .waiting := by rcases closing with closing | closing <;> (rw [closing]; nofun)
                have counted := ledger.activation
                unfold unfinished at counted
                rw [if_neg past, runs] at counted
                exact absurd counted (by simp [activates])
            | task task => exact kept rfl
            | close d => exact kept rfl
        · split
          · exact kept rfl
          · exact kept (begin_same _).2.2.2.2
    | close => exact kept (by rw [show (l.step noise initial .close).2 = l.close from rfl, close_eq])
    | expire d =>
        dsimp only [step]
        split
        · exact kept rfl
        · exact kept rfl
    | resume =>
        dsimp only [step]
        rcases closing with closing | rethrew
        · unfold resume
          rw [closing]
          dsimp only
          rcases inTime with waits | returned
          · rw [waits]
            exact .inl closing
          · rw [returned]
            exact .inr rfl
        · unfold resume
          rw [rethrew]
          exact .inr rethrew

end

/-! ## Calls of `close` -/

abbrev LifecycleStep (R H T : Type) := Runs.Step (Lifecycle H T) (Act R) (List Deed)

/-- No step of the run is late. -/
def Prompt (steps : List (LifecycleStep R H T)) : Prop := ∀ b ∈ steps, b.before.late b.input = false

/-- The step calls `close` on another thread. -/
def posts (l : Lifecycle H T) : Act R → Bool
  | .close => true
  | .resume => decide (l.starter = .failed)
  | _ => false

/-- Every call returns, the lease was ended once and nothing of it is left, and a failed `start`
    throws what the activation threw. -/
structure Closes (noise : Noise R H T) (initial : Outcome) (outputs : List (List Deed)) (l : Lifecycle H T) : Prop where
  once : outputs.flatten.countP endsLease = if l.host.desk.stopped then 1 else 0
  calls : ∀ call ∈ l.calls, call = .waiting ∨ call = .returned
  returns : ∀ c < l.calls.length, ∀ more : List (Act R), 2 * (l.blocks.length + 1) ≤ more.countP isTurn →
    (Runs.final (step noise initial) l more).calls[c]? = some .returned
  released : .returned ∈ l.calls → Released l.host ∧ l.host.streams = []
  starter : l.starter ≠ .replaced
  rethrows : ∀ c, l.starter = .closing c → ∀ more : List (Act R), 2 * (l.blocks.length + 1) ≤ more.countP isTurn →
    (Runs.final (step noise initial) l (more ++ [.resume])).starter = .rethrew

section
variable {noise : Noise R H T} {initial : Outcome} {l : Lifecycle H T}

theorem created_held (t : TargetTransport H T) : Held 0 (created t) := by
  refine ⟨⟨fun c => ?_, List.nodup_nil, rfl, nofun⟩, ⟨rfl, rfl, nofun⟩, nofun, nofun, nofun⟩
  simp [unfinished, created, caller]

theorem reached_held (noise : Noise R H T) (initial : Outcome) (t : TargetTransport H T) (acts : List (Act R)) :
    Held ((Runs.outputs (step noise initial) (created t) acts).flatten.countP endsLease)
      (Runs.final (step noise initial) (created t) acts) := by
  have start : Held (([] : List (List Deed)).flatten.countP endsLease) (created t) := created_held t
  refine Runs.invariant_outputs (fun given l => Held (given.flatten.countP endsLease) l) ?_ [] (created t) acts start
  intro given l act held
  rw [List.flatten_append, List.countP_append, List.flatten_singleton]
  exact step_held held act

theorem reached_inTime (t : TargetTransport H T) (acts : List (Act R)) (prompt : Prompt (Runs.trace (step noise initial) (created t) acts)) :
    InTime (Runs.final (step noise initial) (created t) acts) := by
  have both := @Runs.guarded_invariant _ _ _ (step noise initial)
    (fun past l => Held ((past.map (·.output)).flatten.countP endsLease) l ∧ InTime l)
    (fun _ b => b.before.late b.input = false) ?_ (created t) acts ?_ ?_
  · exact both.2
  · rintro past l act ⟨held, inTime⟩ early
    refine ⟨?_, step_inTime held inTime early⟩
    rw [List.map_append, List.flatten_append, List.countP_append]
    simpa using step_held held act
  · exact ⟨created_held t, nofun, nofun, nofun⟩
  · intro past b rest split
    exact prompt b (by rw [split]; simp)

/-- From a state in time on. -/
theorem closes {outputs : List (List Deed)} (held : Held (outputs.flatten.countP endsLease) l) (inTime : InTime l) :
    Closes noise initial outputs l where
  once := held.tidy.once
  calls := inTime.calls
  returns c inside more turns := by
    have there := List.getElem?_eq_getElem inside
    rcases inTime.calls _ (List.getElem_mem inside) with waits | returned
    · exact due_returns noise initial more held.ledger (due_of_waiting held.ledger (there.trans (congrArg some waits))) turns
    · exact due_returns noise initial more held.ledger (.inl (there.trans (congrArg some returned))) (Nat.zero_le _)
  released returned := by
    have stopped := held.returned returned
    exact ⟨held.tidy.released stopped, inTime.sockets stopped⟩
  starter := inTime.starter
  rethrows c closing more turns := by
    obtain ⟨call, there⟩ : ∃ call, l.calls[c]? = some call := ⟨_, List.getElem?_eq_getElem (held.ledger.closing c closing)⟩
    have inside : l.calls[c]? = some .waiting ∨ l.calls[c]? = some .returned := by
      rcases inTime.calls call (List.mem_of_getElem? there) with rfl | rfl
      · exact .inl there
      · exact .inr there
    have returned : (Runs.final (step noise initial) l more).calls[c]? = some .returned := by
      rcases inside with waits | returned
      · exact due_returns noise initial more held.ledger (due_of_waiting held.ledger waits) turns
      · exact due_returns noise initial more held.ledger (.inl returned) (Nat.zero_le _)
    have waits := @Runs.invariant _ _ _ (step noise initial)
      (fun l => Ledger l ∧ (l.calls[c]? = some .waiting ∨ l.calls[c]? = some .returned) ∧
        (l.starter = .closing c ∨ l.starter = .rethrew))
      (fun l act held => ⟨@step_ledger _ _ _ noise initial l held.1 act, step_closing held.1 held.2.1 held.2.2 act⟩)
      l more ⟨held.ledger, inside, .inl closing⟩
    rw [Runs.final_append]
    show (Runs.final (step noise initial) l more).resume.starter = .rethrew
    unfold resume
    rcases waits.2.2 with closing | rethrew
    · rw [closing]
      dsimp only
      rw [returned]
    · rw [rethrew]
      exact rethrew

variable (noise initial) in
theorem lost_stays {c : Nat} (acts : List (Act R)) (ledger : Ledger l)
    (lost : l.calls[c]? = some .dropped ∨ l.calls[c]? = some .timedOut) :
    (Runs.final (step noise initial) l acts).calls[c]? = some .dropped ∨
      (Runs.final (step noise initial) l acts).calls[c]? = some .timedOut := by
  induction acts generalizing l with
  | nil => exact lost
  | cons act acts ih =>
      refine ih (step_ledger ledger act) ?_
      rcases lost with dropped | timedOut
      · obtain ⟨call, there, later⟩ := step_later ledger act dropped
        cases later with
        | same => exact .inl there
        | expires => exact .inr there
      · obtain ⟨call, there, later⟩ := step_later ledger act timedOut
        cases later
        exact .inr there

variable (noise initial) in
theorem inTime_stays {c : Nat} (acts : List (Act R)) (ledger : Ledger l)
    (inTime : l.calls[c]? = some .waiting ∨ l.calls[c]? = some .returned) :
    (Runs.final (step noise initial) l acts).calls[c]? = some .waiting ∨
      (Runs.final (step noise initial) l acts).calls[c]? = some .returned := by
  induction acts generalizing l with
  | nil => exact inTime
  | cons act acts ih =>
      refine ih (step_ledger ledger act) ?_
      rcases inTime with waits | returned
      · obtain ⟨call, there, later⟩ := step_later ledger act waits
        cases later with
        | same => exact .inl there
        | returns => exact .inr there
      · exact .inr (step_returned ledger returned act)

/-- A call is lost when it was posted after the looper had quit, and only then. -/
theorem lost_iff {t : TargetTransport H T} {acts : List (Act R)} {b : LifecycleStep R H T}
    (member : b ∈ Runs.trace (step noise initial) (created t) acts) (called : b.before.posts b.input = true) :
    ((Runs.final (step noise initial) (created t) acts).calls[b.before.calls.length]? = some .dropped ∨
      (Runs.final (step noise initial) (created t) acts).calls[b.before.calls.length]? = some .timedOut) ↔
      b.before.quit = true := by
  obtain ⟨past, back, split⟩ := List.append_of_mem member
  obtain ⟨first, act, rest, rfl, -, rfl, -⟩ := Runs.trace_split split
  have held := reached_held noise initial t first
  rw [Runs.final_append, Runs.final_cons]
  generalize Runs.final (step noise initial) (created t) first = l at held called ⊢
  have posted : (step noise initial l act).2.calls[l.calls.length]? = some (if l.quit then .dropped else .waiting) := by
    have close : l.close.calls[l.calls.length]? = some (if l.quit then .dropped else .waiting) := by
      rw [close_eq]
      exact List.getElem?_concat_length
    cases act with
    | close => exact close
    | resume =>
        have failed : l.starter = .failed := by simpa [posts] using called
        dsimp only [step]
        unfold resume
        rw [failed]
        exact close
    | event | accept | register | turn | expire => cases called
  have ledger : Ledger (step noise initial l act).2 := step_ledger held.ledger act
  generalize (step noise initial l act).2 = m at posted ledger
  dsimp only
  cases quit : l.quit with
  | true =>
      rw [quit, if_pos rfl] at posted
      exact ⟨fun _ => rfl, fun _ => lost_stays noise initial rest ledger (.inl posted)⟩
  | false =>
      rw [quit, if_neg Bool.false_ne_true] at posted
      refine ⟨fun lost => ?_, nofun⟩
      rcases inTime_stays noise initial rest ledger (.inl posted) with stays | stays
      · rcases lost with lost | lost <;> cases lost.symm.trans stays
      · rcases lost with lost | lost <;> cases lost.symm.trans stays

/-- In a run without a late step every call of `close` returns and leaves nothing behind. In any
    run exactly those calls are lost that come after the looper has quit. -/
theorem close_returns (noise : Noise R H T) (initial : Outcome) (t : TargetTransport H T) (acts : List (Act R)) :
    (Prompt (Runs.trace (step noise initial) (created t) acts) →
      Closes noise initial (Runs.outputs (step noise initial) (created t) acts) (Runs.final (step noise initial) (created t) acts)) ∧
    ∀ b ∈ Runs.trace (step noise initial) (created t) acts, b.before.posts b.input = true →
      (((Runs.final (step noise initial) (created t) acts).calls[b.before.calls.length]? = some .dropped ∨
        (Runs.final (step noise initial) (created t) acts).calls[b.before.calls.length]? = some .timedOut) ↔
        b.before.quit = true) :=
  ⟨fun prompt => closes (reached_held noise initial t acts) (reached_inTime t acts prompt), fun _ member called =>
    lost_iff member called⟩

end

end Lifecycle

/-! ## Closing after the end of the lease -/

namespace Late

open LimitRounds

def world : World Unit := { entropy := () }

def ready : Outcome := (Outcome.new .endpointReady).values 1 0

def activation : List (Act Unit) := [.turn world true, .turn world true, .resume]

/-- The app loses the foreground, the lease ends, and then the activity is destroyed. -/
def lost : List (Act Unit) :=
  activation ++ [.event .eligibilityLost, .turn world true, .turn world true, .close, .expire 0]

/-- The name of the listener is taken. -/
def bound : List (Act Unit) :=
  [.turn world false, .turn world false, .resume, .expire 0, .resume]

end Late

open LimitRounds Late in
/-- `close` ends with its timeout after the end of the lease, and `start` throws this timeout
    when the listener cannot be bound. -/
theorem close_times_out :
    (Runs.final (Lifecycle.step nonceNoise ready) (.created start) lost).calls = [.timedOut] ∧
      (Runs.final (Lifecycle.step nonceNoise ready) (.created start) bound).starter = .replaced := by
  constructor
  · rfl
  · rfl

end AppPilotKit.Host.Kotlin
