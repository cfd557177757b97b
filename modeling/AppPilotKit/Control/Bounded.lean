import AppPilotKit.Control.Items

/-! # The check of an item in machine arithmetic

The same check with an offset into the bytes: every sum that the machine could not represent
stops it, and so does a level below the 64th. Each item takes at least one byte, so that
the counts in the input do not bound the work; the bytes do.
-/

namespace AppPilotKit.Control

open Wire Transport Cbor
open Broker (ControlFailure)

/-- Why a run ends: with a failure of the source, with a sum that does not fit, or because the
    levels that it was given are used up. -/
inductive Stop where
  | failure (failure : ControlFailure)
  | overflow
  | levels
  deriving DecidableEq

/-- The offset of a run, and the calls and rounds of loops so far. -/
structure Progress where
  offset : Nat
  steps : Nat
  deriving DecidableEq

abbrev Run := ExceptT Stop (StateM Progress)

namespace Run

def fail {α : Type} (failure : ControlFailure) : Run α := throw (.failure failure)

/-- A call, or a round of a loop. -/
def step : Run Unit := modify fun p => { p with steps := p.steps + 1 }

def require (holds : Prop) [Decidable holds] : Run Unit := if holds then pure () else fail (ipc .malformed)

section
variable (bytes : Bytes)

def take : Run UInt8 := do
  let p ← get
  match bytes[p.offset]? with
  | none => fail (ipc .malformed)
  | some value => do
      if 2 ^ 64 ≤ p.offset + 1 then throw .overflow
      set { p with offset := p.offset + 1 }
      pure value

def takes : Nat → Run Bytes
  | 0 => pure []
  | n + 1 => do
      let byte ← take bytes
      let others ← takes n
      pure (byte :: others)

def wideArgument (width minimum : Nat) : Run Nat := do
  let raw ← takes bytes width
  require (minimum ≤ beNat raw)
  pure (beNat raw)

def readArgument : Nat → Run Nat
  | 24 => wideArgument bytes 1 24
  | 25 => wideArgument bytes 2 256
  | 26 => wideArgument bytes 4 65536
  | 27 => wideArgument bytes 8 4294967296
  | info => if info ≤ 23 then pure info else fail (ipc .malformed)

/-- `checked_add` and `get`. -/
def slice (length : Nat) : Run Bytes := do
  let p ← get
  if 2 ^ 64 ≤ p.offset + length then fail (ipc .oversize)
  else if p.offset ≤ p.offset + length ∧ p.offset + length ≤ bytes.length then do
    set { p with offset := p.offset + length }
    pure ((bytes.drop p.offset).take length)
  else fail (ipc .malformed)

def validateElements (item : Run Unit) : Nat → Run Unit
  | 0 => pure ()
  | count + 1 => do
      step
      item
      validateElements item count

def validateEntries (item : Run Unit) : Nat → Option Nat → Run Unit
  | 0, _ => pure ()
  | count + 1, previous => do
      step
      let initial ← take bytes
      require (initial.toNat / 32 = 0)
      let key ← readArgument bytes (initial.toNat % 32)
      require (previous.all (· < key))
      item
      validateEntries item count (some key)

/-- The depth is a `u8`. -/
def validateItem : (levels depth : Nat) → Run Unit
  | 0, _ => throw .levels
  | levels + 1, depth => do
      step
      if 64 ≤ depth then fail (ipc .malformed)
      else do
        let initial ← take bytes
        let info := initial.toNat % 32
        let inner : Run Unit := if depth + 1 < 2 ^ 8 then validateItem levels (depth + 1) else throw .overflow
        match initial.toNat / 32 with
        | 0 => do
            let _ ← readArgument bytes info
            pure ()
        | 2 => do
            let length ← readArgument bytes info
            let _ ← slice bytes length
            pure ()
        | 3 => do
            let length ← readArgument bytes info
            let value ← slice bytes length
            require (Cbor.validUtf8 value)
        | 4 => do
            let count ← readArgument bytes info
            validateElements inner count
        | 5 => do
            let count ← readArgument bytes info
            validateEntries bytes inner count none
        | 7 => require (info = 20 ∨ info = 21)
        | _ => fail (ipc .malformed)

def validateDeterministicCbor : Run Unit := do
  validateItem bytes 65 0
  let p ← get
  require (p.offset = bytes.length)

end

end Run

/-! ## What a run has in common with the check -/

/-- The cursor of a run. -/
def cursor (bytes : Bytes) (p : Progress) : Cursor := ⟨p.offset, bytes.drop p.offset⟩

/-- The steps so far, and two for every byte that is left. -/
def Progress.potential (bytes : Bytes) (p : Progress) : Int := p.steps + 2 * (bytes.length - p.offset)

/-- A run ends as the check does, inside the bytes. It raises the potential by at most
    `gain`, or by at most `loss` when it fails. -/
def Follows (bytes : Bytes) {α : Type} (run : Run α) (check : Reader Cursor α) (gain loss : Int) : Prop :=
  ∀ p : Progress, p.offset ≤ bytes.length →
    ∃ p' : Progress, p.offset ≤ p'.offset ∧ p'.offset ≤ bytes.length ∧
      ((∃ a, check (cursor bytes p) = .ok (a, cursor bytes p') ∧ run p = (.ok a, p') ∧
          p'.potential bytes ≤ p.potential bytes + gain) ∨
        ∃ failure, check (cursor bytes p) = .error failure ∧ run p = (.error (.failure failure), p') ∧
          p'.potential bytes ≤ p.potential bytes + loss)

section
variable {bytes : Bytes} {α β : Type} {gain loss gain' loss' : Int}

theorem follows_pure (a : α) : Follows bytes (pure a) (pure a) 0 0 :=
  fun p inside => ⟨p, le_rfl, inside, .inl ⟨a, rfl, rfl, by omega⟩⟩

theorem follows_fail (reason : CloseReason) : Follows bytes (Run.fail (ipc reason) : Run α) (reject reason) gain 0 :=
  fun p inside => ⟨p, le_rfl, inside, .inr ⟨ipc reason, rfl, rfl, by omega⟩⟩

theorem follows_require (holds : Prop) [Decidable holds] : Follows bytes (Run.require holds) (require holds .malformed) 0 0 := by
  unfold Run.require require
  split
  · exact follows_pure ()
  · exact follows_fail .malformed

theorem Follows.mono {run : Run α} {check : Reader Cursor α} (follows : Follows bytes run check gain loss) (more : gain ≤ gain')
    (more' : loss ≤ loss') : Follows bytes run check gain' loss' := by
  intro p inside
  obtain ⟨p', onward, inside', ended⟩ := follows p inside
  refine ⟨p', onward, inside', ?_⟩
  rcases ended with ⟨a, checked, ran, cost⟩ | ⟨failure, checked, ran, cost⟩
  · exact .inl ⟨a, checked, ran, by omega⟩
  · exact .inr ⟨failure, checked, ran, by omega⟩

theorem Run.bind_of_ok {run : Run α} {next : α → Run β} {p m : Progress} {a : α} (ran : run p = (.ok a, m)) :
    (run >>= next) p = next a m := by
  simp [bind, ExceptT.bind, ExceptT.mk, StateT.bind, ExceptT.bindCont, ran]

theorem Run.bind_of_error {run : Run α} {next : α → Run β} {p m : Progress} {stop : Stop} (ran : run p = (.error stop, m)) :
    (run >>= next) p = (.error stop, m) := by
  simp [bind, ExceptT.bind, ExceptT.mk, StateT.bind, ExceptT.bindCont, ran]
  rfl

@[simp] theorem Run.get_bind (next : Progress → Run β) (p : Progress) : ((get : Run Progress) >>= next) p = next p p := rfl

@[simp] theorem Run.set_bind (next : PUnit → Run β) (m p : Progress) : ((set m : Run PUnit) >>= next) p = next ⟨⟩ m := rfl

@[simp] theorem Run.step_bind (next : Unit → Run β) (p : Progress) :
    (Run.step >>= next) p = next () { p with steps := p.steps + 1 } := rfl

theorem Follows.bind {run : Run α} {check : Reader Cursor α} {next : α → Run β} {next' : α → Reader Cursor β}
    (first : Follows bytes run check gain loss) (second : ∀ a, Follows bytes (next a) (next' a) gain' loss') :
    Follows bytes (run >>= next) (check >>= next') (gain + gain') (max loss (gain + loss')) := by
  intro p inside
  obtain ⟨m, onward, inside₁, ended⟩ := first p inside
  rcases ended with ⟨a, checked, ran, cost⟩ | ⟨failure, checked, ran, cost⟩
  · obtain ⟨p', onward', inside', ended'⟩ := second a m inside₁
    have checks : (check >>= next') (cursor bytes p) = next' a (cursor bytes m) := by
      show (check (cursor bytes p) >>= fun found => next' found.1 found.2) = _
      rw [checked]
      rfl
    refine ⟨p', onward.trans onward', inside', ?_⟩
    rw [checks, Run.bind_of_ok ran]
    rcases ended' with ⟨b, checked', ran', cost'⟩ | ⟨failure, checked', ran', cost'⟩
    · exact .inl ⟨b, checked', ran', by omega⟩
    · exact .inr ⟨failure, checked', ran', by omega⟩
  · have checks : (check >>= next') (cursor bytes p) = .error failure := by
      show (check (cursor bytes p) >>= fun found => next' found.1 found.2) = _
      rw [checked]
      rfl
    exact ⟨m, onward, inside₁, .inr ⟨failure, checks, Run.bind_of_error ran, by omega⟩⟩

/-- A step is paid by what comes after it. -/
theorem Follows.step {run : Run α} {check : Reader Cursor α} (follows : Follows bytes run check gain loss) :
    Follows bytes (Run.step >>= fun _ => run) check (gain + 1) (loss + 1) := by
  intro p inside
  obtain ⟨p', onward, inside', ended⟩ := follows { p with steps := p.steps + 1 } inside
  refine ⟨p', onward, inside', ?_⟩
  rw [Run.step_bind]
  have paid : ({ p with steps := p.steps + 1 } : Progress).potential bytes = p.potential bytes + 1 := by
    simp only [Progress.potential]
    omega
  rcases ended with ⟨a, checked, ran, cost⟩ | ⟨failure, checked, ran, cost⟩
  · exact .inl ⟨a, checked, ran, by omega⟩
  · exact .inr ⟨failure, checked, ran, by omega⟩

/-- A byte pays for two steps. -/
theorem follows_take (small : bytes.length < 2 ^ 64) : Follows bytes (Run.take bytes) take (-2) 0 := by
  intro p inside
  rcases Nat.lt_or_ge p.offset bytes.length with more | done
  · refine ⟨{ p with offset := p.offset + 1 }, Nat.le_succ _, more, .inl ⟨bytes[p.offset], ?_, ?_, ?_⟩⟩
    · simp only [take, cursor, List.drop_eq_getElem_cons more]
    · have fits : ¬ 2 ^ 64 ≤ p.offset + 1 := by omega
      simp only [Run.take, Run.get_bind, List.getElem?_eq_getElem more, if_neg fits]
      rfl
    · simp only [Progress.potential]
      omega
  · refine ⟨p, le_rfl, inside, .inr ⟨ipc .malformed, ?_, ?_, by omega⟩⟩
    · simp only [take, cursor, List.drop_eq_nil_of_le done]
    · simp only [Run.take, Run.get_bind, List.getElem?_eq_none done]
      rfl

/-- What an item or an entry begins with. -/
theorem follows_headed (small : bytes.length < 2 ^ 64) {next : UInt8 → Run β} {next' : UInt8 → Reader Cursor β}
    (rest : ∀ initial, Follows bytes (next initial) (next' initial) 0 2) :
    Follows bytes (Run.step >>= fun _ => Run.take bytes >>= next) (take >>= next') (-1) 1 :=
  ((follows_take small).bind rest).step.mono (by omega) (by omega)

/-- What comes before costs nothing. -/
theorem Follows.then {run : Run α} {check : Reader Cursor α} {next : α → Run β} {next' : α → Reader Cursor β}
    (first : Follows bytes run check 0 0) (second : ∀ a, Follows bytes (next a) (next' a) gain loss) (more : 0 ≤ loss) :
    Follows bytes (run >>= next) (check >>= next') gain loss :=
  (first.bind second).mono (by omega) (by omega)

theorem follows_takes (small : bytes.length < 2 ^ 64) (n : Nat) : Follows bytes (Run.takes bytes n) (takes n) 0 0 := by
  induction n with
  | zero => exact follows_pure []
  | succ n ih =>
      have rest : ∀ byte : UInt8, Follows bytes (Run.takes bytes n >>= fun others => pure (byte :: others))
          (takes n >>= fun others => pure (byte :: others)) 0 0 :=
        fun byte => ih.then (fun others => follows_pure (byte :: others)) le_rfl
      exact ((follows_take small).bind rest).mono (by omega) (by omega)

theorem follows_wideArgument (small : bytes.length < 2 ^ 64) (width minimum : Nat) :
    Follows bytes (Run.wideArgument bytes width minimum) (wideArgument width minimum) 0 0 :=
  (follows_takes small width).then (fun raw => (follows_require _).then (fun _ => follows_pure (beNat raw)) le_rfl) le_rfl

theorem follows_readArgument (small : bytes.length < 2 ^ 64) (info : Nat) :
    Follows bytes (Run.readArgument bytes info) (readArgument info) 0 0 := by
  unfold Run.readArgument readArgument
  split
  · exact follows_wideArgument small 1 24
  · exact follows_wideArgument small 2 256
  · exact follows_wideArgument small 4 65536
  · exact follows_wideArgument small 8 4294967296
  · by_cases direct : info ≤ 23
    · simp only [if_pos direct]
      first
      | exact follows_pure info
      | split <;> first | contradiction | exact follows_pure info
    · simp only [if_neg direct]
      first
      | exact follows_fail .malformed
      | split <;> first | contradiction | exact follows_fail .malformed

/-- The `checked_add` of the source answers what does not fit. -/
theorem follows_slice (length : Nat) : Follows bytes (Run.slice bytes length) (slice length) 0 0 := by
  intro p inside
  have left : (bytes.drop p.offset).length = bytes.length - p.offset := List.length_drop
  simp only [Run.slice, Run.get_bind, slice, cursor, left]
  by_cases wide : 2 ^ 64 ≤ p.offset + length
  · refine ⟨p, le_rfl, inside, .inr ⟨ipc .oversize, ?_, ?_, by omega⟩⟩
    · rw [if_pos wide]
    · rw [if_pos wide]
      rfl
  · by_cases enough : length ≤ bytes.length - p.offset
    · refine ⟨{ p with offset := p.offset + length }, Nat.le_add_right _ _, by simp only; omega,
        .inl ⟨(bytes.drop p.offset).take length, ?_, ?_, ?_⟩⟩
      · rw [if_neg wide, if_pos enough, List.drop_drop]
      · rw [if_neg wide, if_pos (by omega)]
        rfl
      · simp only [Progress.potential]
        omega
    · refine ⟨p, le_rfl, inside, .inr ⟨ipc .malformed, ?_, ?_, by omega⟩⟩
      · rw [if_neg wide, if_neg enough]
      · rw [if_neg wide, if_neg (by omega)]
        rfl

section
variable {item : Run Unit} {item' : Reader Cursor Unit} (items : Follows bytes item item' (-1) 1)
include items

/-- The bytes of the elements pay for the loop over them, whatever their count. -/
theorem follows_validateElements (count : Nat) :
    Follows bytes (Run.validateElements item count) (validateElements item' count) 0 2 := by
  induction count with
  | zero => exact (follows_pure ()).mono le_rfl (by omega)
  | succ count ih => exact (items.bind fun _ => ih).step.mono (by omega) (by omega)

theorem follows_validateEntries (small : bytes.length < 2 ^ 64) (count : Nat) (previous : Option Nat) :
    Follows bytes (Run.validateEntries bytes item count previous) (validateEntries item' count previous) 0 2 := by
  induction count generalizing previous with
  | zero => exact (follows_pure ()).mono le_rfl (by omega)
  | succ count ih =>
      refine (follows_headed small fun initial => ?_).mono (by omega) (by omega)
      refine (follows_require _).then (fun _ => ?_) (by omega)
      refine (follows_readArgument small _).then (fun key => ?_) (by omega)
      refine (follows_require _).then (fun _ => ?_) (by omega)
      exact (items.bind fun _ => ih (some key)).mono (by omega) (by omega)

end

/-- An item costs less than its bytes pay. With as many levels as the depth leaves, and one for
    the item that is refused, no level is missing. -/
theorem follows_validateItem (small : bytes.length < 2 ^ 64) :
    ∀ levels depth : Nat, depth + levels = 64 →
      Follows bytes (Run.validateItem bytes (levels + 1) depth) (validateItem levels) (-1) 1
  | 0, depth, deep => by
      have deepest : 64 ≤ depth := by omega
      have refused : Follows bytes (Run.fail (ipc .malformed) : Run Unit) (reject .malformed) (-2) 0 := follows_fail .malformed
      simp only [Run.validateItem, if_pos deepest, validateItem]
      exact refused.step.mono (by omega) (by omega)
  | levels + 1, depth, deep => by
      have shallow : ¬ 64 ≤ depth := by omega
      have fits : depth + 1 < 2 ^ 8 := by omega
      have inner := follows_validateItem small levels (depth + 1) (by omega)
      have done : Follows bytes (pure () : Run Unit) (pure ()) 0 2 := (follows_pure ()).mono le_rfl (by omega)
      have refused : Follows bytes (Run.fail (ipc .malformed) : Run Unit) (reject .malformed) 0 2 :=
        (follows_fail .malformed).mono le_rfl (by omega)
      rw [Run.validateItem, validateItem]
      simp only [if_neg shallow, if_pos fits]
      refine follows_headed small fun initial => ?_
      have argument := follows_readArgument small (initial.toNat % 32)
      generalize initial.toNat / 32 = kind
      split
      · exact argument.then (fun _ => done) (by omega)
      · exact argument.then (fun length => (follows_slice length).then (fun _ => done) (by omega)) (by omega)
      · refine argument.then (fun length => ?_) (by omega)
        exact (follows_slice length).then (fun value => (follows_require _).mono le_rfl (by omega)) (by omega)
      · exact argument.then (fun count => follows_validateElements inner count) (by omega)
      · exact argument.then (fun count => follows_validateEntries inner small count none) (by omega)
      · exact (follows_require _).mono le_rfl (by omega)
      · first
        | exact refused
        | split <;> first | contradiction | exact refused

end

/-! ## A whole run -/

/-- Every run ends inside the bytes, with as many steps as the bytes pay for, and never in a sum
    that does not fit or a level that is missing. It passes exactly over the bytes of one item. -/
theorem validateDeterministicCbor_bounded (bytes : Bytes) (small : bytes.length < 2 ^ 64) :
    ∃ ended : Progress, ended.offset ≤ bytes.length ∧ ended.steps ≤ 2 * bytes.length + 1 ∧
      ((Run.validateDeterministicCbor bytes ⟨0, 0⟩ = (.ok (), ended) ∧
          ∃ tokens, IsItem 64 tokens ∧ (∀ t ∈ tokens, t.Fits) ∧ bytes = encodeAll tokens) ∨
        ∃ failure, Run.validateDeterministicCbor bytes ⟨0, 0⟩ = (.error (.failure failure), ended) ∧
          ¬ ∃ tokens, IsItem 64 tokens ∧ (∀ t ∈ tokens, t.Fits) ∧ bytes = encodeAll tokens) := by
  obtain ⟨ended, -, inside, ran⟩ := follows_validateItem small 64 0 rfl ⟨0, 0⟩ (Nat.zero_le _)
  have start : cursor bytes ⟨0, 0⟩ = ⟨0, bytes⟩ := rfl
  have spent : Progress.potential bytes ⟨0, 0⟩ = 2 * bytes.length := by simp [Progress.potential]
  have left : Progress.potential bytes ended = ended.steps + 2 * (bytes.length - ended.offset) := rfl
  rw [start, spent, left] at ran
  rw [← validateDeterministicCbor_ok small]
  unfold validateDeterministicCbor
  rcases ran with ⟨u, checked, ran, cost⟩ | ⟨failure, checked, ran, cost⟩
  · refine ⟨ended, inside, by omega, ?_⟩
    simp only [checked, Run.validateDeterministicCbor, Run.bind_of_ok ran, Run.get_bind, Run.require, cursor]
    by_cases whole : ended.offset = bytes.length
    · rw [if_pos whole, if_pos whole]
      exact .inl ⟨rfl, rfl⟩
    · rw [if_neg whole, if_neg whole]
      exact .inr ⟨ipc .malformed, rfl, nofun⟩
  · refine ⟨ended, inside, by omega, .inr ⟨failure, ?_, ?_⟩⟩
    · rw [Run.validateDeterministicCbor, Run.bind_of_error ran]
    · rw [checked]
      nofun

/-- An array of `false` and of a map that has one entry. -/
theorem validateDeterministicCbor_bounded_nested :
    [0x82, 0xf4, 0xa1, 0x01, 0x40].length < 2 ^ 64 ∧
      ∃ ended : Progress, ended.steps ≤ 2 * 5 + 1 ∧
        Run.validateDeterministicCbor [0x82, 0xf4, 0xa1, 0x01, 0x40] ⟨0, 0⟩ = (.ok (), ended) := by
  have runs : Run.validateDeterministicCbor [0x82, 0xf4, 0xa1, 0x01, 0x40] ⟨0, 0⟩ = (.ok (), ⟨5, 7⟩) := rfl
  obtain ⟨ended, -, cost, passed | ⟨failure, failed, -⟩⟩ :=
    validateDeterministicCbor_bounded [0x82, 0xf4, 0xa1, 0x01, 0x40] (by decide)
  · exact ⟨by decide, ended, cost, passed.1⟩
  · rw [runs] at failed
    cases failed

end AppPilotKit.Control
