import AppPilotKit.Target.Drive

/-! # Tokens and timers of one stream

The timers that name a stream are exactly those in the two slots of its child,
and every timer has a token that was already given out. The helpers of the
supervisor keep this for the stream they work on and touch no other timer.
-/

namespace AppPilotKit.Target

open Wire Transport

variable {R H T : Type}

/-- The stream a timer belongs to. -/
def TimerAction.stream : TimerAction → Option Nat
  | .sessionPhase streamId | .sessionIdle streamId | .sessionFrame streamId => some streamId
  | .bootstrap | .bootstrapFrame | .leaseTick | .leaseFrame => none

/-- Every timer has a token that was given out before. -/
def Clock.Fresh (c : Clock) : Prop := ∀ k a, c.timers.lookup k = some a → k < c.nextToken

/-- The timers that name `s` are those of the slots of its child. -/
structure Clocked (s : Nat) (phaseTimer frameTimer : Option Nat) (c : Clock) : Prop where
  phase : ∀ k, phaseTimer = some k → c.timers.lookup k = some (.sessionPhase s) ∨
    c.timers.lookup k = some (.sessionIdle s)
  frame : ∀ k, frameTimer = some k → c.timers.lookup k = some (.sessionFrame s)
  ownPhase : ∀ k, c.timers.lookup k = some (.sessionPhase s) ∨ c.timers.lookup k = some (.sessionIdle s) →
    phaseTimer = some k
  ownFrame : ∀ k, c.timers.lookup k = some (.sessionFrame s) → frameTimer = some k

/-- Only timers of `s` differ between two clocks. -/
structure Only (s : Nat) (c c' : Clock) : Prop where
  tokens : c.nextToken ≤ c'.nextToken
  timers : ∀ k, c'.timers.lookup k = c.timers.lookup k ∨
    (∀ a, c.timers.lookup k = some a → a.stream = some s) ∧ (∀ a, c'.timers.lookup k = some a → a.stream = some s)

/-- The timers of `s` are the same in both clocks. -/
def SameFor (s : Nat) (c c' : Clock) : Prop :=
  ∀ k a, a.stream = some s → (c'.timers.lookup k = some a ↔ c.timers.lookup k = some a)

theorem Only.refl (s : Nat) (c : Clock) : Only s c c := ⟨le_rfl, fun _ => .inl rfl⟩

theorem Only.trans {s : Nat} {a b c : Clock} (first : Only s a b) (second : Only s b c) : Only s a c := by
  refine ⟨first.tokens.trans second.tokens, fun k => ?_⟩
  rcases first.timers k with same | ⟨before, after⟩
  · rcases second.timers k with same' | ⟨before', after'⟩
    · exact .inl (same'.trans same)
    · exact .inr ⟨fun x found => before' x (same ▸ found), after'⟩
  · rcases second.timers k with same' | ⟨-, after'⟩
    · exact .inr ⟨before, fun x found => after x (same' ▸ found)⟩
    · exact .inr ⟨before, after'⟩

theorem Only.sameFor {s other : Nat} {c c' : Clock} (h : Only s c c') (differs : other ≠ s) : SameFor other c c' := by
  intro k a names
  rcases h.timers k with same | ⟨before, after⟩
  · rw [same]
  · constructor
    · intro found
      have := (after a found).symm.trans names
      simp_all
    · intro found
      have := (before a found).symm.trans names
      simp_all

theorem SameFor.refl (s : Nat) (c : Clock) : SameFor s c c := fun _ _ _ => Iff.rfl

theorem SameFor.trans {s : Nat} {a b c : Clock} (first : SameFor s a b) (second : SameFor s b c) : SameFor s a c :=
  fun k x names => (second k x names).trans (first k x names)

theorem Clocked.sameFor {s : Nat} {phaseTimer frameTimer : Option Nat} {c c' : Clock}
    (h : Clocked s phaseTimer frameTimer c) (same : SameFor s c c') : Clocked s phaseTimer frameTimer c' := by
  refine ⟨fun k slot => ?_, fun k slot => ?_, fun k found => ?_, fun k found => ?_⟩
  · exact (h.phase k slot).imp (same k _ rfl).mpr (same k _ rfl).mpr
  · exact (same k _ rfl).mpr (h.frame k slot)
  · exact h.ownPhase k (found.imp (same k _ rfl).mp (same k _ rfl).mp)
  · exact h.ownFrame k ((same k _ rfl).mp found)

/-- No timer names the stream. -/
def Unnamed (s : Nat) (c : Clock) : Prop := ∀ k a, c.timers.lookup k = some a → a.stream ≠ some s

/-- Empty slots mean that no timer names the stream, and the other way round. -/
theorem Clocked.unnamed {s : Nat} {c : Clock} (h : Clocked s none none c) : Unnamed s c := by
  intro k a found names
  cases a with
  | bootstrap | bootstrapFrame | leaseTick | leaseFrame => cases names
  | sessionPhase streamId =>
      cases names
      cases h.ownPhase k (.inl found)
  | sessionIdle streamId =>
      cases names
      cases h.ownPhase k (.inr found)
  | sessionFrame streamId =>
      cases names
      cases h.ownFrame k found

theorem Unnamed.clocked {s : Nat} {c : Clock} (h : Unnamed s c) : Clocked s none none c := by
  refine ⟨fun k slot => (by cases slot), fun k slot => (by cases slot), fun k found => ?_, fun k found => ?_⟩
  · rcases found with found | found
    · exact absurd rfl (h k _ found)
    · exact absurd rfl (h k _ found)
  · exact absurd rfl (h k _ found)

/-! ## The helpers -/

namespace Clock

variable {c c' : Clock}

/-- Allocation moves the counter and nothing else. -/
theorem allocateToken_timers (c : Clock) : c.allocateToken.2.timers = c.timers ∧
    c.nextToken ≤ c.allocateToken.2.nextToken := by
  unfold allocateToken
  split
  · exact ⟨rfl, Nat.le_succ _⟩
  · exact ⟨rfl, le_rfl⟩

theorem allocateToken_ok {token : Nat} (h : c.allocateToken = (.ok token, c')) :
    token = c.nextToken ∧ c' = { c with nextToken := c.nextToken + 1 } := by
  unfold allocateToken at h
  split at h
  · split at h
    · simp at h
    · simp only [Prod.mk.injEq, Except.ok.injEq] at h
      exact ⟨h.1.symm, h.2.symm⟩
  · simp at h

theorem allocateToken_error {error : SupervisorError} (h : c.allocateToken = (.error error, c')) :
    error = .internal := by
  unfold allocateToken at h
  split at h
  · split at h
    · cases h
      rfl
    · cases h
  · cases h
    rfl

theorem scheduleTimer_error {error : SupervisorError} {action : TimerAction}
    (h : c.scheduleTimer action = (.error error, c')) : error = .internal := by
  unfold scheduleTimer at h
  split at h
  · rename_i eq
    cases h
    exact allocateToken_error eq
  · cases h

theorem Fresh.allocate (fresh : c.Fresh) : c.allocateToken.2.Fresh := by
  intro k a found
  obtain ⟨timers, tokens⟩ := allocateToken_timers c
  rw [timers] at found
  exact (fresh k a found).trans_le tokens

/-- A failed schedule only moved the counter; a successful one added a fresh timer. -/
theorem scheduleTimer_cases (c : Clock) (action : TimerAction) :
    (∃ error, c.scheduleTimer action = (.error error, c.allocateToken.2)) ∨
    c.scheduleTimer action = (.ok c.nextToken,
      { nextToken := c.nextToken + 1, timers := c.timers.insert c.nextToken action }) := by
  unfold scheduleTimer
  cases eq : c.allocateToken with
  | mk result clock =>
      cases result with
      | error error => exact .inl ⟨error, rfl⟩
      | ok token =>
          obtain ⟨rfl, rfl⟩ := allocateToken_ok eq
          exact .inr rfl

theorem Fresh.lookup_next (fresh : c.Fresh) : c.timers.lookup c.nextToken = none := by
  cases found : c.timers.lookup c.nextToken with
  | none => rfl
  | some a => exact absurd (fresh _ a found) (lt_irrefl _)

theorem Fresh.schedule (fresh : c.Fresh) (action : TimerAction) : (c.scheduleTimer action).2.Fresh := by
  rcases scheduleTimer_cases c action with ⟨error, eq⟩ | eq
  · rw [eq]
    exact fresh.allocate
  · rw [eq]
    intro k a found
    rw [Table.lookup_insert_eq] at found
    split at found
    · rename_i same
      rw [same]
      exact Nat.lt_succ_self _
    · exact (fresh k a found).trans (Nat.lt_succ_self _)

theorem Fresh.cancel (fresh : c.Fresh) (slot : Option Nat) : (c.cancel slot).Fresh := by
  cases slot with
  | none => exact fresh
  | some timer =>
      intro k a found
      have lookup : (c.timers.erase timer).lookup k = some a := found
      rw [Table.lookup_erase_eq] at lookup
      split at lookup
      · cases lookup
      · exact fresh k a lookup

/-- A timer without a stream leaves the timers of every stream alone. -/
theorem schedule_sameFor (fresh : c.Fresh) {action : TimerAction} (none : action.stream = none) (s : Nat) :
    SameFor s c (c.scheduleTimer action).2 := by
  intro k a names
  rcases scheduleTimer_cases c action with ⟨error, eq⟩ | eq
  · rw [eq, (allocateToken_timers c).1]
  · rw [eq]
    show (c.timers.insert c.nextToken action).lookup k = some a ↔ _
    rw [Table.lookup_insert_eq]
    split
    · rename_i same
      rw [same, fresh.lookup_next]
      constructor
      · intro found
        cases found
        rw [none] at names
        cases names
      · intro found
        cases found
    · exact Iff.rfl

theorem lookup_cancel (c : Clock) (slot : Option Nat) (k : Nat) :
    (c.cancel slot).timers.lookup k = if slot = some k then none else c.timers.lookup k := by
  cases slot with
  | none => rfl
  | some timer =>
      show (c.timers.erase timer).lookup k = _
      rw [Table.lookup_erase_eq]
      simp only [Option.some.injEq, eq_comm (a := k)]

@[simp] theorem cancel_none (c : Clock) : c.cancel none = c := rfl

@[simp] theorem cancel_nextToken (c : Clock) (slot : Option Nat) : (c.cancel slot).nextToken = c.nextToken := by
  cases slot <;> rfl

/-- Cancelling a slot whose timer has no stream leaves the timers of every stream alone. -/
theorem cancel_sameFor {slot : Option Nat} (none : ∀ k, slot = some k → ∀ a, c.timers.lookup k = some a → a.stream = none)
    (s : Nat) : SameFor s c (c.cancel slot) := by
  intro k a names
  rw [lookup_cancel]
  split
  · rename_i held
    constructor
    · intro found
      cases found
    · intro found
      rw [none k held a found] at names
      cases names
  · exact Iff.rfl

end Clock

/-! ## Work for the lease -/

/-- A clock that names every stream as before and keeps the frame timers of the lease. -/
structure Steady (c c' : Clock) : Prop where
  fresh : c'.Fresh
  same : ∀ s, SameFor s c c'
  frames : ∀ k, c.timers.lookup k = some .bootstrapFrame ∨ c.timers.lookup k = some .leaseFrame →
    c'.timers.lookup k = some .bootstrapFrame ∨ c'.timers.lookup k = some .leaseFrame

namespace Steady

variable {c c' : Clock}

theorem refl (fresh : c.Fresh) : Steady c c := ⟨fresh, fun s => .refl s c, fun _ held => held⟩

theorem trans {c'' : Clock} (first : Steady c c') (second : Steady c' c'') : Steady c c'' :=
  ⟨second.fresh, fun s => (first.same s).trans (second.same s), fun k held => second.frames k (first.frames k held)⟩

theorem allocate (h : Steady c c') : Steady c c'.allocateToken.2 := by
  have timers := (Clock.allocateToken_timers c').1
  refine ⟨h.fresh.allocate, fun s => (h.same s).trans fun k a _ => ?_, fun k held => ?_⟩
  · rw [timers]
  · rw [timers]
    exact h.frames k held

theorem schedule (h : Steady c c') (action : TimerAction) (none : action.stream = none) :
    Steady c (c'.scheduleTimer action).2 := by
  refine ⟨h.fresh.schedule action, fun s => (h.same s).trans (Clock.schedule_sameFor h.fresh none s), fun k held => ?_⟩
  have kept := h.frames k held
  have older : k < c'.nextToken := by
    rcases kept with kept | kept
    · exact h.fresh k _ kept
    · exact h.fresh k _ kept
  rcases Clock.scheduleTimer_cases c' action with ⟨error, eq⟩ | eq
  · rw [eq, (Clock.allocateToken_timers c').1]
    exact kept
  · rw [eq]
    show (c'.timers.insert c'.nextToken action).lookup k = _ ∨ (c'.timers.insert c'.nextToken action).lookup k = _
    rw [Table.lookup_insert_eq, if_neg older.ne]
    exact kept

/-- A timer of the lease that is no frame timer goes. -/
theorem cancel (h : Steady c c') {k : Nat} {action : TimerAction} (held : c'.timers.lookup k = some action)
    (none : action.stream = none) (other : action ≠ .bootstrapFrame ∧ action ≠ .leaseFrame) :
    Steady c (c'.cancel (some k)) := by
  refine ⟨h.fresh.cancel _, fun s => (h.same s).trans (Clock.cancel_sameFor ?_ s), fun k' frame => ?_⟩
  · intro k' same a found
    cases same
    rw [held] at found
    cases found
    exact none
  · have kept := h.frames k' frame
    rw [Clock.lookup_cancel, if_neg]
    · exact kept
    · intro same
      cases same
      rw [held] at kept
      simp [other.1, other.2] at kept

/-- `cancel_action` of the bootstrap deadline. -/
theorem retain (h : Steady c c') :
    Steady c { c' with timers := c'.timers.retain (· ≠ TimerAction.bootstrap) } := by
  refine ⟨fun k a found => ?_, fun s => (h.same s).trans fun k a names => ?_, fun k held => ?_⟩
  · exact h.fresh k a (Table.lookup_retain.mp found).1
  · rw [Table.lookup_retain]
    have other : a ≠ .bootstrap := by
      intro same
      cases same
      cases names
    simp [other]
  · simp only [Table.lookup_retain]
    exact (h.frames k held).imp (⟨·, by decide⟩) (⟨·, by decide⟩)

/-- The frame timer of the lease stream, with its slot. -/
theorem updateFrameTimer (h : Steady c c') {slot : Option Nat} {action : TimerAction}
    (own : action = .bootstrapFrame ∨ action = .leaseFrame) (incomplete : Bool)
    (held : ∀ k, slot = some k → c'.timers.lookup k = some .bootstrapFrame ∨ c'.timers.lookup k = some .leaseFrame)
    {result : Except SupervisorError (Option Nat)} {slot' : Option Nat} {clock : Clock}
    (eq : c'.updateFrameTimer incomplete slot action = (result, slot', clock)) :
    clock.Fresh ∧ (∀ s, SameFor s c clock) ∧
      ∀ k, slot' = some k → clock.timers.lookup k = some .bootstrapFrame ∨ clock.timers.lookup k = some .leaseFrame := by
  have none : action.stream = none := by
    rcases own with rfl | rfl
    · rfl
    · rfl
  unfold Clock.updateFrameTimer at eq
  cases incomplete with
  | false =>
      simp only [Bool.false_eq_true, if_false, Prod.mk.injEq] at eq
      obtain ⟨-, rfl, rfl⟩ := eq
      refine ⟨h.fresh.cancel _, fun s => (h.same s).trans (Clock.cancel_sameFor ?_ s), fun k slot => (by cases slot)⟩
      intro k same a found
      rcases held k same with frame | frame
      · rw [frame] at found
        cases found
        rfl
      · rw [frame] at found
        cases found
        rfl
  | true =>
      cases slot with
      | some timer =>
          simp only [if_true, Option.isNone_some, Bool.false_eq_true, if_false, Prod.mk.injEq] at eq
          obtain ⟨-, rfl, rfl⟩ := eq
          exact ⟨h.fresh, h.same, held⟩
      | none =>
          have scheduled := h.schedule action none
          rcases Clock.scheduleTimer_cases c' action with ⟨error, failed⟩ | made
          · rw [failed] at scheduled
            simp only [if_true, Option.isNone_none, failed, Prod.mk.injEq] at eq
            obtain ⟨-, rfl, rfl⟩ := eq
            exact ⟨scheduled.fresh, scheduled.same, fun k slot => (by cases slot)⟩
          · rw [made] at scheduled
            simp only [if_true, Option.isNone_none, made, Prod.mk.injEq] at eq
            obtain ⟨-, rfl, rfl⟩ := eq
            refine ⟨scheduled.fresh, scheduled.same, fun k slot => ?_⟩
            cases slot
            rw [Table.lookup_insert_eq, if_pos rfl]
            exact own.imp (congrArg some) (congrArg some)

end Steady

/-! ## Work for one stream -/

/-- A clock `c'` that work for the stream `s` made of `c`: its timers of `s` are
    those of the two slots, and no other timer differs. -/
structure Tended (s : Nat) (c : Clock) (phaseTimer frameTimer : Option Nat) (c' : Clock) : Prop where
  fresh : c'.Fresh
  clocked : Clocked s phaseTimer frameTimer c'
  only : Only s c c'

namespace Tended

variable {s : Nat} {c c' : Clock} {phaseTimer frameTimer : Option Nat}

theorem refl (fresh : c.Fresh) (clocked : Clocked s phaseTimer frameTimer c) : Tended s c phaseTimer frameTimer c :=
  ⟨fresh, clocked, .refl s c⟩

theorem allocate (h : Tended s c phaseTimer frameTimer c') :
    Tended s c phaseTimer frameTimer c'.allocateToken.2 := by
  obtain ⟨timers, tokens⟩ := Clock.allocateToken_timers c'
  refine ⟨h.fresh.allocate, h.clocked.sameFor ?_, h.only.trans ⟨tokens, fun k => .inl (by rw [timers])⟩⟩
  intro k a _
  rw [timers]

theorem cancelPhase (h : Tended s c phaseTimer frameTimer c') :
    Tended s c none frameTimer (c'.cancel phaseTimer) := by
  refine ⟨h.fresh.cancel _, ⟨fun k slot => (by cases slot), fun k slot => ?_, fun k found => ?_, fun k found => ?_⟩,
    h.only.trans ⟨(Clock.cancel_nextToken _ _).ge, fun k => ?_⟩⟩
  · rw [Clock.lookup_cancel, if_neg]
    · exact h.clocked.frame k slot
    · intro held
      have frame := h.clocked.frame k slot
      rcases h.clocked.phase k held with other | other
      · rw [frame] at other
        cases other
      · rw [frame] at other
        cases other
  · rw [Clock.lookup_cancel] at found
    split at found
    · simp at found
    · rename_i free
      exact absurd (h.clocked.ownPhase k found) free
  · rw [Clock.lookup_cancel] at found
    split at found
    · cases found
    · exact h.clocked.ownFrame k found
  · rw [Clock.lookup_cancel]
    split
    · rename_i held
      refine .inr ⟨fun a found => ?_, fun a found => (by cases found)⟩
      rcases h.clocked.phase k held with own | own
      · rw [own] at found
        cases found
        rfl
      · rw [own] at found
        cases found
        rfl
    · exact .inl rfl

theorem cancelFrame (h : Tended s c phaseTimer frameTimer c') :
    Tended s c phaseTimer none (c'.cancel frameTimer) := by
  refine ⟨h.fresh.cancel _, ⟨fun k slot => ?_, fun k slot => (by cases slot), fun k found => ?_, fun k found => ?_⟩,
    h.only.trans ⟨(Clock.cancel_nextToken _ _).ge, fun k => ?_⟩⟩
  · rw [Clock.lookup_cancel, if_neg]
    · exact h.clocked.phase k slot
    · intro held
      have frame := h.clocked.frame k held
      rcases h.clocked.phase k slot with other | other
      · rw [frame] at other
        cases other
      · rw [frame] at other
        cases other
  · rw [Clock.lookup_cancel] at found
    split at found
    · simp at found
    · exact h.clocked.ownPhase k found
  · rw [Clock.lookup_cancel] at found
    split at found
    · cases found
    · rename_i free
      exact absurd (h.clocked.ownFrame k found) free
  · rw [Clock.lookup_cancel]
    split
    · rename_i held
      refine .inr ⟨fun a found => ?_, fun a found => (by cases found)⟩
      rw [h.clocked.frame k held] at found
      cases found
      rfl
    · exact .inl rfl

/-- A timer of the stream under the next token. -/
theorem insert_only (h : Tended s c phaseTimer frameTimer c') {action : TimerAction} (own : action.stream = some s) :
    Only s c { nextToken := c'.nextToken + 1, timers := c'.timers.insert c'.nextToken action } := by
  refine h.only.trans ⟨Nat.le_succ _, fun k => ?_⟩
  rw [Table.lookup_insert_eq]
  split
  · rename_i same
    rw [same, h.fresh.lookup_next]
    refine .inr ⟨fun a found => (by cases found), fun a found => ?_⟩
    cases found
    exact own
  · exact .inl rfl

theorem insert_fresh (h : Tended s c phaseTimer frameTimer c') (action : TimerAction) :
    Clock.Fresh { nextToken := c'.nextToken + 1, timers := c'.timers.insert c'.nextToken action } := by
  intro k a found
  rw [Table.lookup_insert_eq] at found
  split at found
  · rename_i same
    rw [same]
    exact Nat.lt_succ_self _
  · exact (h.fresh k a found).trans (Nat.lt_succ_self _)

/-- A new phase or idle timer for the empty slot. -/
theorem insertPhase (h : Tended s c none frameTimer c') {action : TimerAction}
    (own : action = .sessionPhase s ∨ action = .sessionIdle s) :
    Tended s c (some c'.nextToken) frameTimer
      { nextToken := c'.nextToken + 1, timers := c'.timers.insert c'.nextToken action } := by
  have named : action.stream = some s := by
    rcases own with rfl | rfl
    · rfl
    · rfl
  refine ⟨h.insert_fresh action, ⟨fun k slot => ?_, fun k slot => ?_, fun k found => ?_, fun k found => ?_⟩,
    h.insert_only named⟩
  · cases slot
    rw [Table.lookup_insert_eq, if_pos rfl]
    exact own.imp (congrArg some) (congrArg some)
  · have held := h.clocked.frame k slot
    rw [Table.lookup_insert_eq, if_neg (h.fresh k _ held).ne]
    exact held
  · rw [Table.lookup_insert_eq] at found
    split at found
    · rename_i same
      rw [same]
    · cases h.clocked.ownPhase k found
  · rw [Table.lookup_insert_eq] at found
    split at found
    · rcases own with rfl | rfl
      · cases found
      · cases found
    · exact h.clocked.ownFrame k found

/-- A new frame timer for the empty slot. -/
theorem insertFrame (h : Tended s c phaseTimer none c') :
    Tended s c phaseTimer (some c'.nextToken)
      { nextToken := c'.nextToken + 1, timers := c'.timers.insert c'.nextToken (.sessionFrame s) } := by
  refine ⟨h.insert_fresh _, ⟨fun k slot => ?_, fun k slot => ?_, fun k found => ?_, fun k found => ?_⟩,
    h.insert_only rfl⟩
  · have held := h.clocked.phase k slot
    have older : k < c'.nextToken := by
      rcases held with held | held
      · exact h.fresh k _ held
      · exact h.fresh k _ held
    rw [Table.lookup_insert_eq, if_neg older.ne]
    exact held
  · cases slot
    rw [Table.lookup_insert_eq, if_pos rfl]
  · rw [Table.lookup_insert_eq] at found
    split at found
    · simp at found
    · exact h.clocked.ownPhase k found
  · rw [Table.lookup_insert_eq] at found
    split at found
    · rename_i same
      rw [same]
    · cases h.clocked.ownFrame k found

/-- Only what the timers are matters. -/
theorem congr {c'' : Clock} (h : Tended s c phaseTimer frameTimer c') (tokens : c''.nextToken = c'.nextToken)
    (same : ∀ k, c''.timers.lookup k = c'.timers.lookup k) : Tended s c phaseTimer frameTimer c'' := by
  refine ⟨fun k a found => ?_, h.clocked.sameFor fun k a _ => by rw [same], h.only.trans ⟨tokens.ge, fun k => .inl (same k)⟩⟩
  rw [tokens]
  exact h.fresh k a (same k ▸ found)

/-- A timer of the stream fires and both slots are emptied. -/
theorem fire (h : Tended s c phaseTimer frameTimer c') {k : Nat} (held : phaseTimer = some k ∨ frameTimer = some k) :
    Tended s c none none (((c'.cancel (some k)).cancel phaseTimer).cancel frameTimer) := by
  refine h.cancelPhase.cancelFrame.congr (by simp) fun other => ?_
  simp only [Clock.lookup_cancel, Option.some.injEq]
  rcases held with rfl | rfl
  · by_cases same : k = other
    · simp [same]
    · simp [same]
  · by_cases same : k = other
    · simp [same]
    · simp [same]

theorem updateFrameTimer (h : Tended s c phaseTimer frameTimer c') (incomplete : Bool) :
    Tended s c phaseTimer (c'.updateFrameTimer incomplete frameTimer (.sessionFrame s)).2.1
      (c'.updateFrameTimer incomplete frameTimer (.sessionFrame s)).2.2 := by
  unfold Clock.updateFrameTimer
  cases incomplete with
  | false => exact h.cancelFrame
  | true =>
      cases frameTimer with
      | some timer => exact h
      | none =>
          rcases Clock.scheduleTimer_cases c' (.sessionFrame s) with ⟨error, eq⟩ | eq
          · simp only [if_true, Option.isNone_none, eq]
            exact h.allocate
          · simp only [if_true, Option.isNone_none, eq]
            exact h.insertFrame

end Tended

/-- A child whose phase timer was replaced keeps everything else. -/
theorem replaceChildTimer_spec {s : Nat} {c c' clock : Clock} {child child' : Child H T} {action : TimerAction}
    {result : Except SupervisorError Nat} (eq : replaceChildTimer child c' action = (result, child', clock))
    (own : action = .sessionPhase s ∨ action = .sessionIdle s)
    (tended : Tended s c child.phaseTimer child.frameTimer c') :
    Tended s c child'.phaseTimer child'.frameTimer clock ∧ child'.applications = child.applications := by
  have cleared := tended.cancelPhase
  unfold replaceChildTimer at eq
  rcases Clock.scheduleTimer_cases (c'.cancel child.phaseTimer) action with ⟨error, failed⟩ | scheduled
  · simp only [failed, Prod.mk.injEq] at eq
    obtain ⟨-, rfl, rfl⟩ := eq
    exact ⟨cleared.allocate, rfl⟩
  · simp only [scheduled, Prod.mk.injEq] at eq
    obtain ⟨-, rfl, rfl⟩ := eq
    exact ⟨cleared.insertPhase own, rfl⟩

end AppPilotKit.Target
