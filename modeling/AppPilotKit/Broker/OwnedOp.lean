import AppPilotKit.Lib.Threads
import AppPilotKit.Broker.Core

/-! # The handoff of one owned result

One producer publishes one value; any number of calls may take it, abandon it or wait for
it. The state is an atomic and the cell has a mutex of its own, so every access to either
is a step by itself, and a waiter that has found nothing keeps the mutex until it waits.
-/

namespace AppPilotKit.Broker

open Threads

variable {α : Type}

inductive PublishResult where
  | published
  | reaped
  | cleanupFailed
  deriving DecidableEq

/-- What has become of the value, in order. -/
inductive Handing (α : Type) where
  | abandoned
  | returned (value : α)
  | reaped (value : α)
  deriving DecidableEq

namespace OwnedOp

/-- What producer and consumers share. `notified` counts the calls of `notify_all`. -/
structure Shared (α : Type) where
  state : OwnedState := .producing
  cell : Option α := none
  locked : Bool := false
  reaper : Bool := true
  cancelled : Bool := false
  notified : Nat := 0
  log : List (Handing α) := []

/-- Where a call stands. A sleeping waiter knows how many notifications it has missed. -/
inductive Call (α : Type) where
  | write (value : α)
  | exchange
  | notify
  | late
  | collect
  | pick (value : α)
  | reap (value : α)
  | settle (ok : Bool)
  | announce (ok : Bool)
  | published (result : PublishResult)
  | take
  | takeCell
  | abandon
  | cancel
  | lock (deadline : Nat)
  | check (deadline : Nat)
  | claim
  | clock (deadline : Nat)
  | rest (deadline : Nat)
  | sleep (deadline epoch : Nat)
  | expire (deadline : Nat)
  | giveUp
  | returned (value : Option α)
  | answered (done : Bool)
  | panicked

/-- What a consumer may ask for. -/
inductive Request where
  | take
  | abandon
  | waitUntil (deadline : Nat)

/-- A clock reading, whether a wait ends by itself, and what the reaper answers. -/
structure Tick where
  now : Nat := 0
  woken : Bool := false
  reaped : Bool := true

def Request.start : Request → Call α
  | .take => .take
  | .abandon => .abandon
  | .waitUntil deadline => .lock deadline

/-- The value leaves the cell for the caller. -/
def Shared.hand (s : Shared α) : Shared α :=
  { s with cell := none, log := s.log ++ (s.cell.map Handing.returned).toList }

/-- One atomic access of a call. A call that waits for the mutex stays. -/
def next (s : Shared α) (call : Call α) (tick : Tick) : Shared α × Call α :=
  match call with
  -- publish
  | .write value => if s.locked then (s, call) else ({ s with cell := some value }, .exchange)
  | .exchange =>
      match s.state with
      | .producing => ({ s with state := .ready }, .notify)
      | .abandoned => (s, .late)
      | _ => (s, .panicked)
  | .notify => ({ s with notified := s.notified + 1 }, .published .published)
  | .late => ({ s with state := .reaping }, .collect)
  | .collect =>
      if s.locked then (s, call)
      else match s.cell with
        | some value => ({ s with cell := none }, .pick value)
        | none => (s, .panicked)
  | .pick value => if s.reaper then ({ s with reaper := false }, .reap value) else (s, .panicked)
  | .reap value => ({ s with log := s.log ++ [.reaped value] }, .settle tick.reaped)
  | .settle ok => ({ s with state := if ok then .reaped else .cleanupFailed }, .announce ok)
  | .announce ok => ({ s with notified := s.notified + 1 }, .published (if ok then .reaped else .cleanupFailed))
  -- take
  | .take => if s.state = .ready then ({ s with state := .taken }, .takeCell) else (s, .returned none)
  | .takeCell => if s.locked then (s, call) else (s.hand, .returned s.cell)
  -- abandon
  | .abandon =>
      if s.state = .producing then ({ s with state := .abandoned, log := s.log ++ [.abandoned] }, .cancel)
      else (s, .answered false)
  | .cancel => ({ s with cancelled := true }, .answered true)
  -- wait_until
  | .lock deadline => if s.locked then (s, call) else ({ s with locked := true }, .check deadline)
  | .check deadline => if s.state = .ready then ({ s with state := .taken }, .claim) else (s, .clock deadline)
  | .claim => ({ s.hand with locked := false }, .returned s.cell)
  | .clock deadline => (s, if deadline ≤ tick.now then .expire deadline else .rest deadline)
  | .expire deadline =>
      if s.state = .producing then ({ s with state := .abandoned, log := s.log ++ [.abandoned] }, .giveUp)
      else (s, .check deadline)
  | .giveUp => ({ s with cancelled := true, locked := false }, .returned none)
  | .rest deadline => ({ s with locked := false }, .sleep deadline s.notified)
  | .sleep deadline epoch =>
      if (epoch < s.notified || tick.woken) && !s.locked then ({ s with locked := true }, .check deadline)
      else (s, call)
  | .published _ | .returned _ | .answered _ | .panicked => (s, call)

def machine (α : Type) : Machine (Shared α) (Call α) Request Tick := { start := Request.start, next }

/-- A new operation, with the producer that will publish its value. -/
def new (value : α) : Pool (Shared α) (Call α) := ⟨{}, [.write value]⟩

/-! ## Where the value is -/

/-- The value has gone to a caller or to the reaper. -/
def Handing.delivers : Handing α → Bool
  | .abandoned => false
  | .returned _ | .reaped _ => true

def Shared.delivered (s : Shared α) : List (Handing α) := s.log.filter Handing.delivers

/-- The call takes the value out of the cell next. -/
def Call.Claims : Call α → Prop
  | .takeCell | .claim => True
  | _ => False

/-- The call has the mutex of the cell. -/
def Call.Locks : Call α → Prop
  | .check _ | .claim | .clock _ | .rest _ | .expire _ | .giveUp => True
  | _ => False

/-- The call belongs to a consumer. -/
def Call.Consumes : Call α → Prop
  | .take | .takeCell | .abandon | .cancel | .lock _ | .check _ | .claim | .clock _ | .rest _ | .sleep _ _ | .expire _ | .giveUp
  | .returned _ | .answered _ => True
  | _ => False

/-- What state, cell and log say about the value. -/
structure Shared.Coherent (value : α) (s : Shared α) : Prop where
  producing : s.state = .producing → s.log = []
  ready : s.state = .ready → s.cell = some value ∧ s.log = []
  taken : s.state = .taken → s.cell = some value ∧ s.log = [] ∨ s.cell = none ∧ s.log = [.returned value]
  abandoned : s.state = .abandoned → s.log = [.abandoned]
  reaping : s.state = .reaping → s.log = [.abandoned] ∨ s.log = [.abandoned, .reaped value]
  reaped : s.state = .reaped ∨ s.state = .cleanupFailed → s.log = [.abandoned, .reaped value]

/-- What holds beside the producer. -/
def Shared.Producer (value : α) (s : Shared α) : Call α → Prop
  | .write own => own = value ∧ (s.state = .producing ∨ s.state = .abandoned) ∧ s.reaper = true
  | .exchange => s.cell = some value ∧ (s.state = .producing ∨ s.state = .abandoned) ∧ s.reaper = true
  | .late => s.cell = some value ∧ s.state = .abandoned ∧ s.reaper = true
  | .collect => s.cell = some value ∧ s.state = .reaping ∧ s.log = [.abandoned] ∧ s.reaper = true
  | .pick own => own = value ∧ s.state = .reaping ∧ s.log = [.abandoned] ∧ s.reaper = true
  | .reap own => own = value ∧ s.state = .reaping ∧ s.log = [.abandoned]
  | .settle _ => s.state = .reaping ∧ s.log = [.abandoned, .reaped value]
  | .announce ok => s.state = if ok then .reaped else .cleanupFailed
  | .notify | .published .published => s.state = .ready ∨ s.state = .taken
  | .published .reaped => s.state = .reaped
  | .published .cleanupFailed => s.state = .cleanupFailed
  | _ => False

/-- What holds beside a consumer. -/
structure Shared.Consumer (value : α) (s : Shared α) (call : Call α) : Prop where
  consumes : call.Consumes
  claims : call.Claims → s.state = .taken ∧ s.cell = some value
  locks : call.Locks → s.locked = true

def handoff (value : α) : Parts (Shared α) (Call α) where
  first := 1
  shared := Shared.Coherent value
  own i s call := if i = 0 then s.Producer value call else s.Consumer value call
  apart call other := (call.Claims → ¬other.Claims) ∧ (call.Locks → ¬other.Locks)

/-! ## What a step does to the value -/

/-- What a consumer does to what it shares with the producer. -/
inductive Consumed (s : Shared α) : Call α → Shared α → Call α → Prop
  | stay (call : Call α) : Consumed s call s call
  | apart {call after : Call α} (locked cancelled : Bool) (claims : ¬call.Claims) (claims' : ¬after.Claims) :
      Consumed s call { s with locked, cancelled } after
  | claim {call after : Call α} (ready : s.state = .ready) (claims' : after.Claims) :
      Consumed s call { s with state := .taken } after
  | hand {call after : Call α} (locked : Bool) (claims : call.Claims) (claims' : ¬after.Claims) :
      Consumed s call { s.hand with locked } after
  | abandon {call after : Call α} (producing : s.state = .producing) (claims : ¬call.Claims) (claims' : ¬after.Claims) :
      Consumed s call { s with state := .abandoned, log := s.log ++ [.abandoned] } after

variable {value : α} {s t : Shared α} {call after other : Call α} {tick : Tick}

theorem Consumed.same (claims : ¬call.Claims) (claims' : ¬after.Claims) : Consumed s call s after :=
  .apart s.locked s.cancelled claims claims'

theorem next_consumed (consumes : call.Consumes) (tick : Tick) :
    (next s call tick).2.Consumes ∧ Consumed s call (next s call tick).1 (next s call tick).2 := by
  cases call with
  | take =>
      by_cases ready : s.state = .ready
      · simp only [next, ready, if_true]
        exact ⟨trivial, .claim ready trivial⟩
      · simp only [next, ready, if_false]
        exact ⟨trivial, .same id id⟩
  | takeCell =>
      by_cases locked : s.locked = true
      · simp only [next, locked, if_true]
        exact ⟨trivial, .stay _⟩
      · simp only [next, locked]
        exact ⟨trivial, .hand s.locked trivial id⟩
  | abandon =>
      by_cases producing : s.state = .producing
      · simp only [next, producing, if_true]
        exact ⟨trivial, .abandon producing id id⟩
      · simp only [next, producing, if_false]
        exact ⟨trivial, .same id id⟩
  | cancel => exact ⟨trivial, .apart _ _ id id⟩
  | lock deadline =>
      by_cases locked : s.locked = true
      · simp only [next, locked, if_true]
        exact ⟨trivial, .same id id⟩
      · simp only [next, locked]
        exact ⟨trivial, .apart _ _ id id⟩
  | check deadline =>
      by_cases ready : s.state = .ready
      · simp only [next, ready, if_true]
        exact ⟨trivial, .claim ready trivial⟩
      · simp only [next, ready, if_false]
        exact ⟨trivial, .same id id⟩
  | claim => exact ⟨trivial, .hand false trivial id⟩
  | clock deadline =>
      by_cases late : deadline ≤ tick.now
      · simp only [next, late, if_true]
        exact ⟨trivial, .same id id⟩
      · simp only [next, late, if_false]
        exact ⟨trivial, .same id id⟩
  | expire deadline =>
      by_cases producing : s.state = .producing
      · simp only [next, producing, if_true]
        exact ⟨trivial, .abandon producing id id⟩
      · simp only [next, producing, if_false]
        exact ⟨trivial, .same id id⟩
  | giveUp => exact ⟨trivial, .apart _ _ id id⟩
  | rest deadline => exact ⟨trivial, .apart _ _ id id⟩
  | sleep deadline epoch =>
      simp only [next]
      split
      · exact ⟨trivial, .apart _ _ id id⟩
      · exact ⟨trivial, .same id id⟩
  | returned | answered => exact ⟨trivial, .same id id⟩
  | write | exchange | notify | late | collect | pick | reap | settle | announce | published | panicked =>
      exact consumes.elim

/-- Who has the mutex after a step had it before, or found it free. -/
theorem next_locks (own : call.Locks → s.locked = true) (tick : Tick) :
    ((next s call tick).2.Locks → (next s call tick).1.locked = true ∧ (call.Locks ∨ s.locked = false)) ∧
      (s.locked = true → ¬call.Locks → (next s call tick).1.locked = true) := by
  cases call with
  | rest | giveUp | claim | notify | late | reap | settle | announce | cancel | published | returned | answered | panicked =>
      simp_all [next, Call.Locks]
  | check | clock | expire | write | exchange | collect | pick | take | takeCell | abandon | lock | sleep =>
      simp only [next]
      repeat' split
      all_goals simp_all [Call.Locks]

/-- The calls of the producer do not take from the cell by themselves. -/
theorem next_claims_of_producer (producer : s.Producer value call) : ¬call.Claims ∧ ¬call.Locks := by
  cases call <;> first | exact ⟨id, id⟩ | exact producer.elim

/-! ### Consumers -/

theorem Shared.Coherent.consumed (coherent : s.Coherent value) (consumed : Consumed s call t after)
    (claims : call.Claims → s.state = .taken ∧ s.cell = some value) : t.Coherent value := by
  cases consumed with
  | stay => exact coherent
  | apart locked cancelled => exact ⟨coherent.producing, coherent.ready, coherent.taken, coherent.abandoned, coherent.reaping, coherent.reaped⟩
  | claim ready =>
      have before := coherent.ready ready
      exact ⟨nofun, nofun, fun _ => .inl before, nofun, nofun, by simp⟩
  | hand locked claiming =>
      obtain ⟨taken, cell⟩ := claims claiming
      have log : s.log = [] := by
        rcases coherent.taken taken with ⟨-, log⟩ | ⟨empty, -⟩
        · exact log
        · simp [cell] at empty
      refine ⟨?_, ?_, fun _ => .inr ⟨rfl, ?_⟩, ?_, ?_, ?_⟩ <;> simp [Shared.hand, taken, cell, log]
  | abandon producing =>
      have before := coherent.producing producing
      exact ⟨nofun, nofun, nofun, fun _ => by simp [before], nofun, by simp⟩

theorem Shared.Producer.consumed (producer : s.Producer value other) (consumed : Consumed s call t after)
    (claims : call.Claims → s.state = .taken) : t.Producer value other := by
  cases consumed with
  | stay | apart => exact producer
  | claim ready =>
      cases other with
      | published result => cases result <;> simp_all [Shared.Producer]
      | announce ok => cases ok <;> simp_all [Shared.Producer]
      | _ => simp_all [Shared.Producer]
  | hand locked claiming =>
      have taken := claims claiming
      cases other with
      | published result => cases result <;> simp_all [Shared.Producer, Shared.hand]
      | announce ok => cases ok <;> simp_all [Shared.Producer, Shared.hand]
      | _ => simp_all [Shared.Producer, Shared.hand]
  | abandon producing =>
      cases other with
      | published result => cases result <;> simp_all [Shared.Producer]
      | announce ok => cases ok <;> simp_all [Shared.Producer]
      | _ => simp_all [Shared.Producer]

/-- A step of the producer keeps what state, cell and log say. -/
theorem Shared.Producer.next (producer : s.Producer value call) (coherent : s.Coherent value) (tick : Tick) :
    (next s call tick).1.Coherent value ∧ (next s call tick).1.Producer value (next s call tick).2 := by
  obtain ⟨producing, ready, taken, abandoned, reaping, reaped⟩ := coherent
  cases call with
  | write own =>
      obtain ⟨rfl, states, present⟩ := producer
      by_cases locked : s.locked = true
      · simp only [OwnedOp.next, locked, if_true]
        exact ⟨⟨producing, ready, taken, abandoned, reaping, reaped⟩, rfl, states, present⟩
      · simp only [OwnedOp.next, locked]
        exact ⟨by constructor <;> rcases states with same | same <;> simp_all, rfl, states, present⟩
  | exchange =>
      obtain ⟨cell, states, present⟩ := producer
      rcases states with same | same
      · simp only [OwnedOp.next, same]
        exact ⟨by constructor <;> simp_all, .inl rfl⟩
      · simp only [OwnedOp.next, same]
        exact ⟨⟨producing, ready, taken, abandoned, reaping, reaped⟩, cell, same, present⟩
  | notify => exact ⟨⟨producing, ready, taken, abandoned, reaping, reaped⟩, producer⟩
  | late =>
      obtain ⟨cell, same, present⟩ := producer
      exact ⟨by constructor <;> simp_all [OwnedOp.next], cell, rfl, abandoned same, present⟩
  | collect =>
      obtain ⟨cell, same, log, present⟩ := producer
      by_cases locked : s.locked = true
      · simp only [OwnedOp.next, locked, if_true]
        exact ⟨⟨producing, ready, taken, abandoned, reaping, reaped⟩, cell, same, log, present⟩
      · simp only [OwnedOp.next, locked, cell]
        exact ⟨by constructor <;> simp_all, rfl, same, log, present⟩
  | pick own =>
      obtain ⟨rfl, same, log, present⟩ := producer
      simp only [OwnedOp.next, present, if_true]
      exact ⟨⟨producing, ready, taken, abandoned, reaping, reaped⟩, rfl, same, log⟩
  | reap own =>
      obtain ⟨rfl, same, log⟩ := producer
      exact ⟨by constructor <;> simp_all [OwnedOp.next], same, by simp [OwnedOp.next, log]⟩
  | settle ok =>
      obtain ⟨same, log⟩ := producer
      cases ok <;> exact ⟨by constructor <;> simp_all [OwnedOp.next], rfl⟩
  | announce ok =>
      refine ⟨⟨producing, ready, taken, abandoned, reaping, reaped⟩, ?_⟩
      cases ok <;> exact producer
  | published result => exact ⟨⟨producing, ready, taken, abandoned, reaping, reaped⟩, producer⟩
  | _ => exact producer.elim

/-- Once a consumer has claimed the value the producer leaves the cell alone. -/
theorem Shared.Consumer.produced (consumer : s.Consumer value other) (producer : s.Producer value call) (tick : Tick) :
    (next s call tick).1.Consumer value other := by
  have locks := fun locking : other.Locks =>
    (next_locks (fun mine => absurd mine (next_claims_of_producer producer).2) tick).2 (consumer.locks locking)
      (next_claims_of_producer producer).2
  refine ⟨consumer.consumes, fun claiming => ?_, locks⟩
  obtain ⟨taken, cell⟩ := consumer.claims claiming
  cases call with
  | notify => exact ⟨taken, cell⟩
  | published result => exact ⟨taken, cell⟩
  | announce ok => exact ⟨taken, cell⟩
  | settle | late | collect | pick | reap | write | exchange => simp_all [Shared.Producer]
  | _ => exact producer.elim

/-- A consumer does not disturb another one. -/
theorem Shared.Consumer.consumed (consumer : s.Consumer value other) (mover : s.Consumer value call) (tick : Tick)
    (coherent : s.Coherent value) (claims : call.Claims → ¬other.Claims) (locks : call.Locks → ¬other.Locks) :
    (OwnedOp.next s call tick).1.Consumer value other := by
  refine ⟨consumer.consumes, fun claiming => ?_, fun locking => ?_⟩
  · obtain ⟨taken, cell⟩ := consumer.claims claiming
    obtain ⟨-, consumed⟩ := next_consumed (s := s) mover.consumes tick
    generalize OwnedOp.next s call tick = out at consumed ⊢
    obtain ⟨t, after⟩ := out
    cases consumed with
    | stay | apart => exact ⟨taken, cell⟩
    | claim ready => simp [taken] at ready
    | hand locked mine => exact absurd claiming (claims mine)
    | abandon producing => simp [taken] at producing
  · exact (next_locks mover.locks tick).2 (consumer.locks locking) fun mine => locks mine locking

/-- What a consumer knows after its step. -/
theorem Shared.Consumer.next (consumer : s.Consumer value call) (coherent : s.Coherent value) (tick : Tick) :
    (OwnedOp.next s call tick).1.Consumer value (OwnedOp.next s call tick).2 := by
  obtain ⟨consumes, consumed⟩ := next_consumed (s := s) consumer.consumes tick
  refine ⟨consumes, fun claiming => ?_, fun locking => ((next_locks consumer.locks tick).1 locking).1⟩
  generalize OwnedOp.next s call tick = out at consumed claiming ⊢
  obtain ⟨t, after⟩ := out
  cases consumed with
  | stay => exact consumer.claims claiming
  | apart _ _ _ unclaiming => exact absurd claiming unclaiming
  | claim ready => exact ⟨rfl, (coherent.ready ready).1⟩
  | hand _ _ unclaiming => exact absurd claiming unclaiming
  | abandon _ _ unclaiming => exact absurd claiming unclaiming

theorem Shared.Consumer.apart_claims (consumer : s.Consumer value call) (owned : s.Consumer value other)
    (coherent : s.Coherent value) (apart : call.Claims → ¬other.Claims) (claims : (OwnedOp.next s call tick).2.Claims) :
    ¬other.Claims := by
  intro claiming
  obtain ⟨-, consumed⟩ := next_consumed (s := s) consumer.consumes tick
  generalize OwnedOp.next s call tick = out at consumed claims
  obtain ⟨t, after⟩ := out
  cases consumed with
  | stay => exact apart claims claiming
  | claim ready => simp [(owned.claims claiming).1] at ready
  | apart _ _ _ unclaiming => exact unclaiming claims
  | hand _ _ unclaiming => exact unclaiming claims
  | abandon _ _ unclaiming => exact unclaiming claims

theorem handoff_kept (value : α) : (handoff value).Kept (machine α) fun _ _ _ => True := by
  refine ⟨fun i s request first coherent => ⟨?_, fun other => ?_⟩, fun i s call tick coherent own _ => ?_,
    fun i j s call tick other distinct coherent own owned apart apart' _ => ?_⟩
  · have later : i ≠ 0 := by
      have : 1 ≤ i := first
      omega
    simp only [handoff, later, if_false]
    cases request <;> exact ⟨trivial, False.elim, False.elim⟩
  · cases request <;> exact ⟨⟨False.elim, False.elim⟩, fun _ => id, fun _ => id⟩
  · by_cases producer : i = 0
    · simp only [handoff, producer, if_true] at own ⊢
      exact own.next coherent tick
    · simp only [handoff, producer, if_false] at own ⊢
      exact ⟨coherent.consumed (next_consumed own.consumes tick).2 own.claims, own.next coherent tick⟩
  · have producing : ∀ {call : Call α}, s.Producer value call → ∀ tick, ¬(next s call tick).2.Claims ∧ ¬(next s call tick).2.Locks :=
      fun producer tick => next_claims_of_producer (producer.next coherent tick).2
    by_cases first : i = 0
    · have second : j ≠ 0 := fun same => distinct (first.trans same.symm)
      simp only [handoff, first, second, if_true, if_false] at own owned ⊢
      obtain ⟨unclaiming, unlocking⟩ := producing own tick
      exact ⟨owned.produced own tick, ⟨fun claims => absurd claims unclaiming, fun locks => absurd locks unlocking⟩,
        fun _ => unclaiming, fun _ => unlocking⟩
    · by_cases second : j = 0
      · simp only [handoff, first, second, if_true, if_false] at own owned ⊢
        obtain ⟨unclaiming, unlocking⟩ := next_claims_of_producer owned
        refine ⟨?_, ⟨fun _ => unclaiming, fun _ => unlocking⟩, fun claims => absurd claims unclaiming, fun locks => absurd locks unlocking⟩
        exact owned.consumed (next_consumed own.consumes tick).2 fun claims => (own.claims claims).1
      · simp only [handoff, first, second, if_false] at own owned ⊢
        have claims : (next s call tick).2.Claims → ¬other.Claims := fun claims claims' =>
          own.apart_claims owned coherent apart.1 claims claims'
        have locks : (next s call tick).2.Locks → ¬other.Locks := fun locks locks' => by
          rcases ((next_locks own.locks tick).1 locks).2 with before | free
          · exact apart.2 before locks'
          · simp [owned.locks locks'] at free
        exact ⟨owned.consumed own tick coherent apart.1 apart.2, ⟨claims, locks⟩, fun c c' => claims c' c, fun l l' => locks l' l⟩

theorem handoff_new (value : α) : (handoff value).Hold (new value) := by
  refine ⟨Nat.le_refl _, ⟨fun _ => rfl, nofun, nofun, nofun, nofun, by simp [new]⟩, fun i call found => ?_,
    fun i j call other distinct found there => ?_⟩
  · obtain ⟨rfl, rfl⟩ : i = 0 ∧ call = .write value := by
      cases i <;> simp_all [new]
    exact ⟨rfl, .inl rfl, rfl⟩
  · have first : i = 0 := by cases i <;> simp_all [new]
    have second : j = 0 := by cases j <;> simp_all [new]
    exact absurd (first.trans second.symm) distinct

theorem handoff_run (value : α) (moves : List (Move Request Tick)) :
    (handoff value).Hold ((machine α).run (new value) moves) :=
  (handoff_new value).run (handoff_kept value) moves fun _ _ => trivial

/-! ## The result of a run -/

/-- A value that has been claimed and is still in the cell has a call that takes it next. -/
def Attended (pool : Pool (Shared α) (Call α)) : Prop :=
  pool.shared.state = .taken → pool.shared.cell ≠ none → ∃ (i : Nat) (call : Call α), pool.calls[i]? = some call ∧ call.Claims

theorem Attended.move {pool : Pool (Shared α) (Call α)} (attended : Attended pool) (hold : (handoff value).Hold pool)
    (move : Move Request Tick) : Attended ((machine α).move pool move) := by
  cases move with
  | enter request =>
      intro taken cell
      obtain ⟨i, call, found, claims⟩ := attended taken cell
      exact ⟨i, call, (List.getElem?_append_left (List.getElem?_eq_some_iff.mp found).1).trans found, claims⟩
  | advance who tick =>
      cases there : pool.calls[who]? with
      | none =>
          rw [Machine.move_absent there]
          exact attended
      | some call =>
          rw [Machine.move_advance there]
          have inside : who < pool.calls.length := (List.getElem?_eq_some_iff.mp there).1
          -- a call that claims and does not move still does
          have other : ∀ {t : Shared α} {after : Call α}, (pool.shared.state = .taken → pool.shared.cell ≠ none → ¬call.Claims) →
              pool.shared.state = .taken → pool.shared.cell ≠ none →
              ∃ (i : Nat) (call : Call α), (pool.calls.set who after)[i]? = some call ∧ call.Claims := by
            intro t after unclaiming taken cell
            obtain ⟨i, claimer, found, claims⟩ := attended taken cell
            have differs : who ≠ i := by
              rintro rfl
              cases there.symm.trans found
              exact unclaiming taken cell claims
            exact ⟨i, claimer, (List.getElem?_set_ne differs).trans found, claims⟩
          have own := hold.own who call there
          change Attended ⟨(next pool.shared call tick).1, pool.calls.set who (next pool.shared call tick).2⟩
          by_cases first : who = 0
          · simp only [handoff, first, if_true] at own
            have unclaiming := (next_claims_of_producer own).1
            intro taken cell
            have before : pool.shared.state = .taken ∧ pool.shared.cell ≠ none := by
              cases call with
              | notify | published | announce => exact ⟨taken, cell⟩
              | write | exchange | late | collect | pick | reap =>
                  simp only [next] at taken
                  repeat' split at taken
                  all_goals simp_all [Shared.Producer]
              | settle ok => cases ok <;> cases taken
              | _ => exact own.elim
            exact other (t := pool.shared) (fun _ _ => unclaiming) before.1 before.2
          · simp only [handoff, first, if_false] at own
            obtain ⟨-, consumed⟩ := next_consumed (s := pool.shared) own.consumes tick
            generalize next pool.shared call tick = out at consumed ⊢
            obtain ⟨t, after⟩ := out
            intro taken cell
            cases consumed with
            | stay =>
                obtain ⟨i, claimer, found, claims⟩ := attended taken cell
                refine ⟨i, claimer, ?_, claims⟩
                rw [List.getElem?_set]
                split
                · rename_i same
                  rw [← there, same, found]
                · exact found
            | apart _ _ unclaiming => exact other (t := pool.shared) (fun _ _ => unclaiming) taken cell
            | claim ready claims => exact ⟨who, after, List.getElem?_set_self inside, claims⟩
            | hand => exact absurd rfl cell
            | abandon => cases taken

theorem attended_run (value : α) (moves : List (Move Request Tick)) : Attended ((machine α).run (new value) moves) := by
  have kept : ∀ (pool : Pool (Shared α) (Call α)), (handoff value).Hold pool → Attended pool →
      Attended ((machine α).run pool moves) := by
    induction moves with
    | nil => exact fun _ _ attended => attended
    | cons move rest ih =>
        intro pool hold attended
        exact ih _ (hold.run (handoff_kept value) [move] fun _ _ => trivial) (attended.move hold move)
  exact kept _ (handoff_new value) nofun

/-- What has become of the value when `publish` has returned, or has not. -/
structure Handed (value : α) (pool : Pool (Shared α) (Call α)) : Prop where
  once : pool.shared.delivered.length ≤ 1
  whole : ∀ handing ∈ pool.shared.delivered, handing = .returned value ∨ handing = .reaped value
  reaper : ∀ own, .reaped own ∈ pool.shared.log → pool.shared.log = [.abandoned, .reaped own]
  unpanicked : Call.panicked ∉ pool.calls
  claimed : ∀ call ∈ pool.calls, call.Claims → pool.shared.cell = some value ∧ pool.shared.delivered = []
  served : pool.shared.state = .ready → ∀ tick deadline,
    (next pool.shared .take tick).2.Claims ∧ (next pool.shared (.check deadline) tick).2.Claims
  published : ∀ result, pool.calls[0]? = some (.published result) →
    pool.shared.delivered.length = 1 ∨
      pool.shared.state = .ready ∧ pool.shared.cell = some value ∨ ∃ call ∈ pool.calls, call.Claims

theorem Shared.Coherent.delivered (coherent : s.Coherent value) :
    s.delivered = [] ∨ s.delivered = [.returned value] ∧ s.log = [.returned value] ∨
      s.delivered = [.reaped value] ∧ s.log = [.abandoned, .reaped value] := by
  obtain ⟨producing, ready, taken, abandoned, reaping, reaped⟩ := coherent
  unfold Shared.delivered
  cases state : s.state with
  | producing => simp [producing state]
  | ready => simp [(ready state).2]
  | taken => rcases taken state with ⟨-, log⟩ | ⟨-, log⟩ <;> simp [log, Handing.delivers]
  | abandoned => simp [abandoned state, Handing.delivers]
  | reaping => rcases reaping state with log | log <;> simp [log, Handing.delivers]
  | reaped => simp [reaped (.inl state), Handing.delivers]
  | cleanupFailed => simp [reaped (.inr state), Handing.delivers]

/-- The value is delivered at most once, to the reaper only after it was abandoned, and it is not
    lost: when `publish` has returned it has been delivered, waits in the cell, or is about to be returned. -/
theorem handed_at_most_once (value : α) (moves : List (Move Request Tick)) :
    Handed value ((machine α).run (new value) moves) := by
  have hold := handoff_run value moves
  have attended := attended_run value moves
  generalize (machine α).run (new value) moves = pool at hold attended
  have coherent : pool.shared.Coherent value := hold.shared
  have logs := coherent.delivered
  refine ⟨?_, ?_, fun own member => ?_, fun member => ?_, fun call member claims => ?_, fun ready tick deadline => ?_,
    fun result found => ?_⟩
  · rcases logs with none | ⟨one, -⟩ | ⟨one, -⟩ <;> simp [*]
  · rcases logs with none | ⟨one, -⟩ | ⟨one, -⟩ <;> simp [*]
  · rcases logs with none | ⟨-, log⟩ | ⟨-, log⟩
    · have : Handing.reaped own ∈ pool.shared.delivered := List.mem_filter.mpr ⟨member, rfl⟩
      simp [none] at this
    · simp [log] at member
    · simp only [log, List.mem_cons, Handing.reaped.injEq, List.not_mem_nil, or_false, reduceCtorEq, false_or] at member
      rw [log, member]
  · obtain ⟨i, found⟩ := List.getElem?_of_mem member
    have own := hold.own i _ found
    by_cases first : i = 0
    · simp only [handoff, first, if_true] at own
      exact own.elim
    · simp only [handoff, first, if_false] at own
      exact own.consumes.elim
  · obtain ⟨i, found⟩ := List.getElem?_of_mem member
    have own := hold.own i call found
    by_cases first : i = 0
    · simp only [handoff, first, if_true] at own
      exact absurd claims (next_claims_of_producer own).1
    · simp only [handoff, first, if_false] at own
      obtain ⟨taken, cell⟩ := own.claims claims
      refine ⟨cell, ?_⟩
      rcases coherent.taken taken with ⟨-, log⟩ | ⟨empty, -⟩
      · simp [Shared.delivered, log]
      · simp [cell] at empty
  · simp [next, ready, Call.Claims]
  · have own : pool.shared.Producer value (.published result) := hold.own 0 _ found
    have finished : pool.shared.state = .reaped ∨ pool.shared.state = .cleanupFailed → pool.shared.delivered.length = 1 := by
      intro state
      rw [Shared.delivered, coherent.reaped state]
      rfl
    cases result with
    | published =>
        rcases own with ready | taken
        · exact .inr (.inl ⟨ready, (coherent.ready ready).1⟩)
        · rcases coherent.taken taken with ⟨cell, -⟩ | ⟨-, log⟩
          · obtain ⟨i, call, found, claims⟩ := attended taken (by simp [cell])
            exact .inr (.inr ⟨call, List.mem_of_getElem? found, claims⟩)
          · refine .inl ?_
            rw [Shared.delivered, log]
            rfl
    | reaped => exact .inl (finished (.inl own))
    | cleanupFailed => exact .inl (finished (.inr own))

/-- Nobody has to come for a published value. -/
theorem published_undelivered :
    ∃ moves : List (Move Request Tick), ((machine Nat).run (new 7) moves).calls[0]? = some (.published .published) ∧
      ((machine Nat).run (new 7) moves).shared.delivered = [] :=
  ⟨[.enter .take, .advance 1 {}, .advance 0 {}, .advance 0 {}, .advance 0 {}], rfl, rfl⟩

/-! ## Wake-ups -/

/-- The result is there and the notification has been sent. -/
def Shared.Announced (s : Shared α) : Prop := s.state = .ready ∧ 0 < s.notified

/-- The producer has finished with a result that is ready, and a waiter sleeps on. -/
def Overslept (pool : Pool (Shared α) (Call α)) : Prop :=
  (∃ result, pool.calls[0]? = some (.published result)) ∧ pool.shared.state = .ready ∧
    ∃ deadline epoch, .sleep deadline epoch ∈ pool.calls ∧ pool.shared.notified ≤ epoch

/-- A call that has found no result does not begin to wait after the notification. -/
def InTime (s : Shared α) (call : Call α) : Prop := (∃ deadline, call = .rest deadline) → ¬s.Announced

/-- The producer has sent its notification. -/
def Call.Announces : Call α → Prop
  | .published _ => True
  | _ => False

/-- The notification is the last step of the producer. -/
def Paced (s : Shared α) (call : Call α) : Prop := 0 < s.notified ↔ call.Announces

/-- A sleeping waiter will be woken. -/
def Awake (s : Shared α) (call : Call α) : Prop :=
  ∀ deadline epoch, call = .sleep deadline epoch → epoch ≤ s.notified ∧ (s.notified = epoch → ¬s.Announced)

/-- How calls wait, where `strict` as they should. -/
def waking (α : Type) (strict : Prop) : Parts (Shared α) (Call α) where
  first := 1
  shared _ := True
  own i s call := if i = 0 then Paced s call ∧ ¬call.Consumes else (strict → Awake s call) ∧ call.Consumes
  apart _ _ := True

theorem next_notified (consumes : call.Consumes) (tick : Tick) :
    (next s call tick).1.notified = s.notified ∧ ((next s call tick).1.state = .ready → s.state = .ready) := by
  cases call with
  | rest | giveUp | claim | cancel | returned | answered => exact ⟨rfl, id⟩
  | check | clock | expire | take | takeCell | abandon | lock | sleep =>
      simp only [next]
      repeat' split
      all_goals simp [Shared.hand]
  | write | exchange | notify | late | collect | pick | reap | settle | announce | published | panicked =>
      exact consumes.elim

/-- The producer notifies once, at its end. -/
theorem Paced.next (paced : Paced s call) (produces : ¬call.Consumes) (tick : Tick) :
    Paced (next s call tick).1 (next s call tick).2 ∧ ¬(next s call tick).2.Consumes ∧
      (s.notified < (next s call tick).1.notified ∨ (next s call tick).1.notified = s.notified ∧
        ((next s call tick).1.Announced → s.Announced)) := by
  unfold Paced at paced ⊢
  cases call with
  | notify | announce =>
      simp [OwnedOp.next, Call.Announces, Call.Consumes]
  | write | exchange | collect | pick =>
      have silent : s.notified = 0 := by simpa [Call.Announces] using paced
      simp only [OwnedOp.next]
      repeat' split
      all_goals simp [Call.Announces, Call.Consumes, Shared.Announced, silent]
  | late | reap | settle =>
      have silent : s.notified = 0 := by simpa [Call.Announces] using paced
      simp [OwnedOp.next, Call.Announces, Call.Consumes, Shared.Announced, silent]
  | published | panicked => exact ⟨paced, id, .inr ⟨rfl, id⟩⟩
  | _ => exact absurd trivial produces

/-- A sleeping waiter stays awake through steps of other calls. -/
theorem Awake.later (awake : Awake s other) (moves : s.notified < t.notified ∨
    t.notified = s.notified ∧ (t.Announced → s.Announced)) : Awake t other := by
  intro deadline epoch sleeps
  obtain ⟨before, missed⟩ := awake deadline epoch sleeps
  rcases moves with louder | ⟨same, quiet⟩
  · exact ⟨by omega, fun same => by omega⟩
  · exact ⟨by omega, fun now announced => missed (by omega) (quiet announced)⟩

theorem Awake.next (awake : Awake s call) (consumes : call.Consumes) (inTime : InTime s call) (tick : Tick) :
    Awake (next s call tick).1 (next s call tick).2 := by
  obtain ⟨same, ready⟩ := next_notified (s := s) consumes tick
  intro deadline epoch sleeps
  cases call with
  | rest deadline' =>
      cases sleeps
      exact ⟨Nat.le_refl _, fun _ announced => inTime ⟨_, rfl⟩ ⟨announced.1, announced.2⟩⟩
  | sleep deadline' epoch' =>
      by_cases woken : ((epoch' < s.notified || tick.woken) && !s.locked) = true
      · simp [OwnedOp.next, woken] at sleeps
      · simp only [OwnedOp.next, woken] at sleeps ⊢
        exact awake deadline epoch sleeps
  | _ =>
      simp only [OwnedOp.next] at sleeps
      repeat' split at sleeps
      all_goals cases sleeps

theorem waking_kept (α : Type) (strict : Prop) :
    (waking α strict).Kept (machine α) fun s call _ => strict → InTime s call := by
  refine ⟨fun i s request first _ => ⟨?_, fun _ => ⟨trivial, trivial⟩⟩, fun i s call tick _ own inTime => ⟨trivial, ?_⟩,
    fun i j s call tick other distinct _ own owned _ _ inTime => ⟨?_, trivial, trivial⟩⟩
  · have later : i ≠ 0 := by
      have : 1 ≤ i := first
      omega
    simp only [waking, later, if_false]
    cases request <;> exact ⟨fun _ => nofun, trivial⟩
  · by_cases first : i = 0
    · simp only [waking, first, if_true] at own ⊢
      obtain ⟨paced, produces, -⟩ := own.1.next own.2 tick
      exact ⟨paced, produces⟩
    · simp only [waking, first, if_false] at own ⊢
      exact ⟨fun strict => (own.1 strict).next own.2 (inTime strict) tick, (next_consumed (s := s) own.2 tick).1⟩
  · have steps : s.notified < (next s call tick).1.notified ∨ (next s call tick).1.notified = s.notified ∧
        ((next s call tick).1.Announced → s.Announced) := by
      by_cases first : i = 0
      · simp only [waking, first, if_true] at own
        exact (own.1.next own.2 tick).2.2
      · simp only [waking, first, if_false] at own
        obtain ⟨same, ready⟩ := next_notified (s := s) own.2 tick
        exact .inr ⟨same, fun announced => ⟨ready announced.1, same ▸ announced.2⟩⟩
    by_cases second : j = 0
    · have first : i ≠ 0 := fun same => distinct (same.trans second.symm)
      simp only [waking, first, second, if_true, if_false] at own owned ⊢
      have same := (next_notified (s := s) own.2 tick).1
      have paced : 0 < (next s call tick).1.notified ↔ other.Announces := by
        rw [same]
        exact owned.1
      exact ⟨paced, owned.2⟩
    · simp only [waking, second, if_false] at owned ⊢
      exact ⟨fun strict => (owned.1 strict).later steps, owned.2⟩

theorem waking_run (value : α) (strict : Prop) (moves : List (Move Request Tick))
    (inTime : strict → ∀ step ∈ (machine α).taken (new value) moves, InTime step.1 step.2.1) :
    (waking α strict).Hold ((machine α).run (new value) moves) := by
  refine Parts.Hold.run (waking_kept α strict) ?_ moves fun step member strict => inTime strict step member
  refine ⟨Nat.le_refl _, trivial, fun i call found => ?_, fun _ _ _ _ _ _ _ => trivial⟩
  obtain ⟨rfl, rfl⟩ : i = 0 ∧ call = .write value := by
    cases i <;> simp_all [new]
  exact ⟨by simp [Paced, new, Call.Announces], id⟩

/-- No wake-up is lost in any state of a run exactly if no waiter that has found no result begins to
    wait after the result was announced. -/
theorem wake_up_not_lost_iff (value : α) (moves : List (Move Request Tick)) :
    (∀ front, front <+: moves → ¬Overslept ((machine α).run (new value) front)) ↔
      ∀ step ∈ (machine α).taken (new value) moves, InTime step.1 step.2.1 := by
  constructor
  · intro safe step member late announced
    obtain ⟨deadline, rest⟩ := late
    obtain ⟨front, back, who, same, shared, found⟩ := Machine.mem_taken member
    refine safe (front ++ [.advance who step.2.2]) ⟨back, by rw [same, List.append_assoc, List.singleton_append]⟩ ?_
    have hold := waking_run value False front False.elim
    generalize pooled : (machine α).run (new value) front = pool at hold shared found
    have moved : (machine α).run (new value) (front ++ [.advance who step.2.2]) =
        ⟨(next pool.shared step.2.1 step.2.2).1, pool.calls.set who (next pool.shared step.2.1 step.2.2).2⟩ := by
      rw [Machine.run_append, pooled]
      exact Machine.move_advance found _
    rw [moved, rest, shared]
    have inside : who < pool.calls.length := (List.getElem?_eq_some_iff.mp found).1
    have first : who ≠ 0 := by
      rintro rfl
      have own : Paced pool.shared step.2.1 ∧ ¬step.2.1.Consumes := hold.own 0 _ found
      exact own.2 (by rw [rest]; trivial)
    obtain ⟨producer, there⟩ : ∃ producer, pool.calls[0]? = some producer :=
      ⟨_, List.getElem?_eq_getElem (Nat.lt_of_lt_of_le Nat.zero_lt_one hold.entered)⟩
    have own : Paced pool.shared producer ∧ ¬producer.Consumes := hold.own 0 producer there
    have announces := own.1.mp (shared ▸ announced.2)
    refine ⟨?_, announced.1, deadline, step.1.notified, ?_, Nat.le_refl _⟩
    · cases producer with
      | published result => exact ⟨result, (List.getElem?_set_ne first).trans there⟩
      | _ => exact announces.elim
    · exact List.mem_of_getElem? (List.getElem?_set_self inside)
  · rintro inTime front ⟨back, rfl⟩ ⟨⟨result, finished⟩, ready, deadline, epoch, member, missed⟩
    rw [Machine.taken_append] at inTime
    have hold := waking_run value True front fun _ step member => inTime step (List.mem_append_left _ member)
    obtain ⟨i, found⟩ := List.getElem?_of_mem member
    have first : i ≠ 0 := by
      rintro rfl
      cases finished.symm.trans found
    have own := hold.own i _ found
    have producer : Paced _ (.published result : Call α) ∧ _ := hold.own 0 _ finished
    simp only [waking, first, if_false] at own
    obtain ⟨before, awake⟩ := own.1 trivial deadline epoch rfl
    exact awake (Nat.le_antisymm missed before) ⟨ready, producer.1.mpr trivial⟩

/-- The producer runs between the check of a waiter and its wait. -/
theorem wake_up_lost :
    Overslept ((machine Nat).run (new 7) [.advance 0 {}, .enter (.waitUntil 5), .advance 1 {}, .advance 1 {}, .advance 1 {},
      .advance 0 {}, .advance 0 {}, .advance 1 {}]) :=
  ⟨⟨.published, rfl⟩, rfl, 5, 1, by simp [machine, Machine.run, Runs.final, Machine.step, Machine.move, new, next, Request.start],
    Nat.le_refl _⟩

end OwnedOp

end AppPilotKit.Broker
