import AppPilotKit.Transport.Delivery
import AppPilotKit.Transport.BrokerLease

/-! # A session that is over stays over

A session or a lease connection ends with its first failure or its Close. From
then on it has neither a handshake nor a transport, so every later call fails
and nothing is encrypted. The Noise library may behave differently at each
call: a run pairs every call with the library that answers it.
-/

namespace AppPilotKit.Transport

open Wire

variable {R H T : Type} {noise : Noise R H T} {α β : Type}

/-- An error that hands out no frame. -/
def Refusal (r : Except Error α) : Prop := ∃ error, r = .error error ∧ error.closeFrame = none

theorem PlainFailure.refusal {r : Except Error α} (plain : PlainFailure r) {error : Error} (failed : r = .error error) :
    Refusal (.error error : Except Error β) :=
  ⟨error, rfl, (plain error failed).2⟩

theorem refusal_new (reason : CloseReason) : Refusal (.error (.new reason) : Except Error α) := ⟨_, rfl, rfl⟩

namespace SessionCore

structure Over (c : SessionCore H T) : Prop where
  closed : c.closed = true
  transport : c.transport = none
  handshake : c.handshake = none

/-- A call that failed on a session and left it over. -/
structure Refused (r : Except Error α × SessionCore H T) : Prop where
  result : Refusal r.1
  after : r.2.Over

theorem Over.not_open {c : SessionCore H T} (h : c.Over) : ¬ c.Open := by
  intro isOpen
  rw [Open, h.closed] at isOpen
  cases isOpen.1

theorem closeState_over (c : SessionCore H T) : c.closeState.Over := ⟨rfl, rfl, rfl⟩

theorem endSession_over (c : SessionCore H T) : c.endSession.Over := ⟨rfl, rfl, rfl⟩

theorem Refused.finishResult {r : Except Error α × SessionCore H T} (h : Refused r) :
    Refused (SessionCore.finishResult r) := by
  obtain ⟨result, after⟩ := r
  obtain ⟨error, failed, silent⟩ := h.result
  cases failed
  exact ⟨⟨error, rfl, silent⟩, closeState_over _⟩

section Over

variable {c : SessionCore H T}

theorem refused_new (h : c.Over) (reason : CloseReason) :
    Refused ((.error (.new reason), c) : Except Error α × SessionCore H T) :=
  ⟨refusal_new reason, h⟩

theorem writeHandshake_over (h : c.Over) (payload : Bytes) : Refused (c.writeHandshake noise payload) := by
  simp only [writeHandshake, h.handshake]
  exact refused_new h _

theorem readHandshake_over (h : c.Over) (outer : Bytes) :
    c.readHandshake noise outer = (.error (.new .sequenceViolation), c) := by
  simp only [readHandshake, h.handshake]

theorem readHandshakeFinish_over (h : c.Over) (outer : Bytes) : Refused (c.readHandshakeFinish noise outer) := by
  simp only [readHandshakeFinish, readHandshake_over h]
  exact refused_new h _

/-- The limit error of a session that is over carries no Close. -/
theorem recordLimitErrorWithHandoff_over (h : c.Over) (handoff : HandoffState) :
    c.recordLimitErrorWithHandoff noise handoff = (.recordLimit none, c.closeState) := by
  have silent : c.limitCloseFrame noise handoff = (none, c) := by
    obtain ⟨close, closeEq, -⟩ := limitClosePlaintext_ok handoff
    simp only [limitCloseFrame, closeEq, sendUsageAfter_eq, encrypt_closed h.not_open]
    split <;> rfl
  simp only [recordLimitErrorWithHandoff, silent]

theorem encryptCounted_over (h : c.Over) (plaintext : Bytes) : Refused (c.encryptCounted noise plaintext) := by
  simp only [encryptCounted, sendUsageAfter_eq, recordLimitError, recordLimitErrorWithHandoff_over h,
    encrypt_closed h.not_open]
  split
  · rename_i eq
    cases eq
  · exact ⟨⟨_, rfl, rfl⟩, closeState_over c⟩
  · exact refused_new h _

theorem writeRecord_over (h : c.Over) (kind : RecordKind) (payload : Bytes) :
    Refused (c.writeRecord noise kind payload) := by
  unfold writeRecord
  split
  · rename_i failed
    exact ⟨(plain_completeRecord kind payload).refusal failed, h⟩
  split
  · rename_i failed
    exact ⟨(plain_encode _).refusal failed, h⟩
  · exact encryptCounted_over h _

theorem writeFinished_over (h : c.Over) (role : Nat) : Refused (c.writeFinished noise role) := by
  unfold writeFinished
  split
  · exact refused_new h _
  split
  · exact refused_new h _
  · rename_i hash _
    have written : Refused (c.writeRecord noise .finished (finished c.binding role hash)) :=
      writeRecord_over h .finished _
    split
    · rename_i failed
      rw [failed] at written
      exact ⟨written.result, written.after⟩
    · rename_i done
      rw [done] at written
      obtain ⟨error, impossible, -⟩ := written.result
      cases impossible

theorem readRecord_over (h : c.Over) (outer : Bytes) :
    c.readRecord noise outer = (.error (.new .sequenceViolation), c) := by
  simp only [readRecord, decryptCounted, openTransport_closed h.not_open]

theorem readFinished_over (h : c.Over) (outer : Bytes) (role : Nat) : Refused (c.readFinished noise outer role) := by
  simp only [readFinished, readRecord_over h]
  split
  · exact ⟨refusal_new _, rfl, h.transport, h.handshake⟩
  split
  · exact refused_new h _
  · exact refused_new h _

/-- A message has at least one piece, and the first cannot be encrypted. -/
theorem writeApplication_over (h : c.Over) (payload : Bytes) (cap : Nat) :
    Refused (c.writeApplication noise payload cap) := by
  unfold writeApplication
  split
  · exact refused_new h _
  split
  · exact refused_new h _
  split
  · rename_i failed
    refine ⟨?_, h⟩
    rw [fragmentRecords_eq] at failed
    split at failed
    · cases failed
      exact refusal_new _
    · cases failed
  rename_i plaintexts fragmented
  obtain ⟨nonempty, -⟩ := fragmentRecords_small fragmented
  simp only [sendUsageAfter_eq, recordLimitError, recordLimitErrorWithHandoff_over h,
    encryptAll_closed h.not_open nonempty]
  split
  · rename_i eq
    split at eq <;> cases eq
  · exact ⟨⟨_, rfl, rfl⟩, closeState_over c⟩
  · exact refused_new h _

theorem readApplication_over (h : c.Over) (outer : Bytes) : Refused (c.readApplication noise outer) := by
  simp only [readApplication, readRecord_over h]
  split
  · exact refused_new h _
  · exact refused_new h _

theorem readClose_over (h : c.Over) (outer : Bytes) : Refused (c.readClose noise outer) := by
  simp only [readClose, readRecord_over h]
  split
  · exact refused_new h _
  · exact refused_new h _

theorem writeClose_over (h : c.Over) (reason : CloseReason) (handoff : HandoffState) :
    Refused (c.writeClose noise reason handoff) := by
  simp only [writeClose, sendUsageAfter_eq, recordLimitErrorWithHandoff_over h, encrypt_closed h.not_open]
  split
  · rename_i failed
    exact ⟨(plain_completeRecord _ _).refusal failed, h⟩
  split
  · rename_i failed
    exact ⟨(plain_encode _).refusal failed, h⟩
  split
  · rename_i eq
    cases eq
  · exact ⟨⟨_, rfl, rfl⟩, closeState_over c⟩
  · exact refused_new h _

theorem eof_over (h : c.Over) : Refused c.eof := by
  simp only [eof, h.closed, if_true]
  exact refused_new h _

end Over

/-! ## What a call leaves alone -/

/-- A call keeps the binding and the limits, and a success leaves the session
    as open as it was. -/
structure Steady (c : SessionCore H T) (r : Except Error α × SessionCore H T) : Prop where
  limits : r.2.limits = c.limits
  binding : r.2.binding = c.binding
  closed : ∀ value, r.1 = .ok value → r.2.closed = c.closed

section Steady

variable {c c' : SessionCore H T}

theorem steady_keep (result : Except Error α) : Steady c (result, c) := ⟨rfl, rfl, fun _ _ => rfl⟩

theorem steady_failed (limits : c'.limits = c.limits) (binding : c'.binding = c.binding) (error : Error) :
    Steady c ((.error error, c') : Except Error α × SessionCore H T) :=
  ⟨limits, binding, fun _ eq => by cases eq⟩

theorem Steady.error {error : Error} (h : Steady c ((.error error, c') : Except Error α × SessionCore H T)) :
    Steady c ((.error error, c') : Except Error β × SessionCore H T) :=
  steady_failed h.limits h.binding error

/-- A call that goes on after a successful one. -/
theorem Steady.next {value : α} {r : Except Error β × SessionCore H T} (h : Steady c (.ok value, c'))
    (rest : Steady c' r) : Steady c r :=
  ⟨rest.limits.trans h.limits, rest.binding.trans h.binding,
    fun result eq => (rest.closed result eq).trans (h.closed value rfl)⟩

theorem encrypt_steady (plaintext : Bytes) : Steady c (c.encrypt noise plaintext) := by
  unfold encrypt
  split
  · exact steady_keep _
  split
  · exact steady_keep _
  · exact ⟨rfl, rfl, fun _ _ => rfl⟩

theorem recordLimitErrorWithHandoff_steady (handoff : HandoffState) :
    (c.recordLimitErrorWithHandoff noise handoff).2.limits = c.limits ∧
      (c.recordLimitErrorWithHandoff noise handoff).2.binding = c.binding := by
  have closing : (c.limitCloseFrame noise handoff).2.limits = c.limits ∧
      (c.limitCloseFrame noise handoff).2.binding = c.binding := by
    unfold limitCloseFrame
    split
    · exact ⟨rfl, rfl⟩
    rename_i plaintext _
    have encrypted : Steady c (c.encrypt noise plaintext) := encrypt_steady plaintext
    repeat' split
    all_goals first
      | exact ⟨rfl, rfl⟩
      | (rename_i eq; rw [eq] at encrypted; exact ⟨encrypted.limits, encrypted.binding⟩)
  exact closing

theorem recordLimitError_steady :
    Steady c ((.error (c.recordLimitError noise).1, (c.recordLimitError noise).2) :
      Except Error α × SessionCore H T) :=
  steady_failed (recordLimitErrorWithHandoff_steady c.handoff).1 (recordLimitErrorWithHandoff_steady c.handoff).2 _

theorem encryptCounted_steady (plaintext : Bytes) : Steady c (c.encryptCounted noise plaintext) := by
  have encrypted : Steady c (c.encrypt noise plaintext) := encrypt_steady plaintext
  unfold encryptCounted
  split
  · exact steady_keep _
  · exact recordLimitError_steady
  split
  · rename_i eq
    rw [eq] at encrypted
    exact encrypted
  · rename_i eq
    rw [eq] at encrypted
    exact ⟨encrypted.limits, encrypted.binding, fun _ _ => encrypted.closed _ rfl⟩

theorem writeRecord_steady (kind : RecordKind) (payload : Bytes) : Steady c (c.writeRecord noise kind payload) := by
  unfold writeRecord
  split
  · exact steady_keep _
  split
  · exact steady_keep _
  · exact encryptCounted_steady _

theorem writeFinished_steady (role : Nat) : Steady c (c.writeFinished noise role) := by
  unfold writeFinished
  split
  · exact steady_keep _
  split
  · exact steady_keep _
  rename_i hash _
  have written : Steady c (c.writeRecord noise .finished (finished c.binding role hash)) := writeRecord_steady _ _
  split
  · rename_i eq
    rw [eq] at written
    exact written
  · rename_i eq
    rw [eq] at written
    exact ⟨written.limits, written.binding, fun _ _ => written.closed _ rfl⟩

theorem decryptCounted_steady (outer : Bytes) : Steady c (c.decryptCounted noise outer) := by
  rcases decryptCounted_cases noise c outer with ⟨error, -, eq⟩ | ⟨before, plaintext, transport, -, -, -, eq | ⟨-, -, eq⟩⟩
  · rw [eq]
    exact steady_keep _
  · rw [eq]
    have limited : Steady { c with transport := some transport }
        ((.error _, (recordLimitError noise { c with transport := some transport }).2) : Except Error Bytes × _) :=
      recordLimitError_steady
    exact ⟨limited.limits, limited.binding, limited.closed⟩
  · rw [eq]
    exact ⟨rfl, rfl, fun _ _ => rfl⟩

theorem readRecord_steady (outer : Bytes) : Steady c (c.readRecord noise outer) := by
  have read : Steady c (c.decryptCounted noise outer) := decryptCounted_steady outer
  unfold readRecord
  split
  · rename_i eq
    rw [eq] at read
    exact read.error
  · rename_i eq
    rw [eq] at read
    exact read.next (steady_keep _)

theorem readFinished_steady (outer : Bytes) (role : Nat) : Steady c (c.readFinished noise outer role) := by
  have read : Steady c (c.readRecord noise outer) := readRecord_steady outer
  unfold readFinished
  split
  · exact steady_failed (by rfl) (by rfl) _
  split
  · exact steady_keep _
  split
  · rename_i eq
    rw [eq] at read
    exact read.error
  · rename_i eq
    rw [eq] at read
    refine read.next ?_
    repeat' split
    all_goals first
      | exact steady_keep _
      | exact ⟨rfl, rfl, fun _ _ => rfl⟩

theorem encryptAll_steady (plaintexts : List Bytes) : Steady c (c.encryptAll noise plaintexts) := by
  induction plaintexts generalizing c with
  | nil => exact steady_keep _
  | cons plaintext rest ih =>
      have encrypted : Steady c (c.encrypt noise plaintext) := encrypt_steady plaintext
      unfold encryptAll
      split
      · rename_i eq
        rw [eq] at encrypted
        exact encrypted.error
      · rename_i after eq
        rw [eq] at encrypted
        have others : Steady after (after.encryptAll noise rest) := ih
        refine encrypted.next ?_
        split
        · rename_i eq
          rw [eq] at others
          exact others
        · rename_i eq
          rw [eq] at others
          exact ⟨others.limits, others.binding, fun _ _ => others.closed _ rfl⟩

theorem writeApplication_steady (payload : Bytes) (cap : Nat) : Steady c (c.writeApplication noise payload cap) := by
  unfold writeApplication
  split
  · exact steady_keep _
  split
  · exact steady_keep _
  split
  · exact steady_keep _
  rename_i plaintexts _
  have encrypted : Steady c (c.encryptAll noise plaintexts) := encryptAll_steady plaintexts
  dsimp only
  split
  · exact steady_keep _
  · exact recordLimitError_steady
  split
  · rename_i eq
    rw [eq] at encrypted
    exact encrypted
  · rename_i eq
    rw [eq] at encrypted
    exact ⟨encrypted.limits, encrypted.binding, fun _ _ => encrypted.closed _ rfl⟩

theorem readApplication_steady (outer : Bytes) : Steady c (c.readApplication noise outer) := by
  have read : Steady c (c.readRecord noise outer) := readRecord_steady outer
  unfold readApplication
  split
  · exact steady_keep _
  split
  · rename_i eq
    rw [eq] at read
    exact read.error
  · rename_i eq
    rw [eq] at read
    refine read.next ?_
    repeat' split
    all_goals first
      | exact steady_keep _
      | exact steady_failed (by rfl) (by rfl) _
      | exact ⟨rfl, rfl, fun _ _ => rfl⟩

theorem writeHandshake_steady (payload : Bytes) : Steady c (c.writeHandshake noise payload) := by
  unfold writeHandshake
  repeat' split
  all_goals first
    | exact steady_keep _
    | exact ⟨rfl, rfl, fun _ _ => rfl⟩

theorem readHandshake_steady (outer : Bytes) : Steady c (c.readHandshake noise outer) := by
  unfold readHandshake
  split
  · exact steady_keep _
  split
  · exact steady_keep _
  dsimp only
  split
  · exact ⟨rfl, rfl, fun _ _ => rfl⟩
  · exact steady_failed (by rfl) (by rfl) _

theorem finishHandshake_steady : Steady c (c.finishHandshake noise) := by
  unfold finishHandshake
  split
  · exact steady_keep _
  dsimp only
  split
  · exact steady_failed (by rfl) (by rfl) _
  · exact ⟨rfl, rfl, fun _ _ => rfl⟩

theorem readHandshakeFinish_steady (outer : Bytes) : Steady c (c.readHandshakeFinish noise outer) := by
  have read : Steady c (c.readHandshake noise outer) := readHandshake_steady outer
  unfold readHandshakeFinish
  split
  · rename_i eq
    rw [eq] at read
    exact read
  · rename_i eq
    rw [eq] at read
    exact read.next finishHandshake_steady

end Steady

end SessionCore

/-! ## Calls of the sessions -/

/-- Does a call take part in the protocol? `validate_binding` only compares numbers. -/
def TargetCall.protocol : TargetCall → Bool
  | .validateBinding _ _ => false
  | _ => true

/-- Is the session over once the call has completed? -/
def TargetCall.ending : TargetCall → Bool
  | .writeClose _ _ | .readClose _ | .eof => true
  | _ => false

def BrokerCall.protocol : BrokerCall → Bool
  | .validateBinding _ _ => false
  | _ => true

def BrokerCall.ending : BrokerCall → Bool
  | .writeClose _ _ | .readClose _ | .eof => true
  | _ => false

/-- What a session that is over answers: no frame and no message, and an error
    to every call of the protocol. -/
structure Declines (protocol : Bool) (reply : Except Error Reply) : Prop where
  silent : handedOut reply = []
  nothing : ∀ value, reply = .ok value → value = .done
  error : protocol = true → ∃ error, reply = .error error

/-- A session in use: its limits are the default ones, and it is over once it is closed. -/
structure SessionCore.Live (c : SessionCore H T) : Prop where
  limits : c.limits = {}
  closed : c.closed = true → c.Over

/-- What a call does to a session in use and to one that is over. -/
structure Absorbs (protocol ending : Bool) (c : SessionCore H T) (reply : Except Error Reply)
    (c' : SessionCore H T) : Prop where
  live : c.Live → c'.Live
  ends : c.Live → (∃ error, reply = .error error) ∨ ending = true → c'.Over
  declines : c.Over → Declines protocol reply ∧ c'.Over

section Sessions

open SessionCore

variable {c : SessionCore H T} {protocol : Bool}

theorem Refusal.declines {r : Except Error α} (refused : Refusal r) (f : α → Reply) :
    Declines protocol (r.map f) := by
  obtain ⟨error, rfl, silent⟩ := refused
  exact ⟨by simp [handedOut, Except.map, silent], fun _ eq => by simp [Except.map] at eq, fun _ => ⟨error, rfl⟩⟩

theorem SessionCore.Over.live (h : c.Over) (limits : c.limits = {}) : c.Live := ⟨limits, fun _ => h⟩

/-- A method that may go on: only its failures end the session. -/
theorem absorbs_finish {r : Except Error α × SessionCore H T} (f : α → Reply)
    (whenOver : c.Over → Refused r) (steady : Steady c r) :
    Absorbs protocol false c ((SessionCore.finishResult r).1.map f) (SessionCore.finishResult r).2 := by
  have declines : c.Over → Declines protocol ((SessionCore.finishResult r).1.map f) ∧
      (SessionCore.finishResult r).2.Over := fun h =>
    ⟨(whenOver h).finishResult.result.declines f, (whenOver h).finishResult.after⟩
  refine ⟨fun live => ?_, fun _ ended => ?_, declines⟩
  · obtain ⟨result, after⟩ := r
    have limits : after.limits = {} := steady.limits.trans live.limits
    cases result with
    | error error => exact (closeState_over after).live limits
    | ok value =>
        refine ⟨limits, fun closed => ?_⟩
        have same : after.closed = c.closed := steady.closed value rfl
        exact (declines (live.closed (same ▸ closed))).2
  · obtain ⟨result, after⟩ := r
    rcases ended with ⟨error, failed⟩ | impossible
    · cases result with
      | error error => exact closeState_over after
      | ok value => cases failed
    · cases impossible

/-- A method whose success ends the session too. -/
theorem absorbs_close {r : Except Error α × SessionCore H T} (f : α → Reply)
    (whenOver : c.Over → Refused r) (limits : r.2.limits = c.limits)
    (done : ∀ value after, r = (.ok value, after) → after.Over) :
    Absorbs protocol true c ((SessionCore.finishResult r).1.map f) (SessionCore.finishResult r).2 := by
  have ended : (SessionCore.finishResult r).2.Over := by
    obtain ⟨result, after⟩ := r
    cases result with
    | error error => exact closeState_over after
    | ok value => exact done value after rfl
  have kept : (SessionCore.finishResult r).2.limits = c.limits := by
    obtain ⟨result, after⟩ := r
    cases result with
    | error error => exact limits
    | ok value => exact limits
  exact ⟨fun live => ended.live (kept.trans live.limits), fun _ _ => ended,
    fun h => ⟨(whenOver h).finishResult.result.declines f, ended⟩⟩

theorem readClose_absorbs (outer : Bytes) (f : CloseReason × HandoffState → Reply) :
    Absorbs protocol true c ((SessionCore.finishResult (c.readClose noise outer)).1.map f)
      (SessionCore.finishResult (c.readClose noise outer)).2 := by
  have read : Steady c (c.readRecord noise outer) := readRecord_steady outer
  refine absorbs_close f (fun h => readClose_over h outer) ?_ ?_
  · unfold readClose
    split
    · rfl
    split
    · rename_i eq
      rw [eq] at read
      exact read.limits
    · rename_i eq
      rw [eq] at read
      repeat' split
      all_goals exact read.limits
  · intro value after eq
    unfold readClose at eq
    repeat' split at eq
    all_goals cases eq
    exact endSession_over _

theorem writeClose_absorbs (reason : CloseReason) (handoff : HandoffState) (f : Bytes → Reply) :
    Absorbs protocol true c ((SessionCore.finishResult (c.writeClose noise reason handoff)).1.map f)
      (SessionCore.finishResult (c.writeClose noise reason handoff)).2 := by
  refine absorbs_close f (fun h => writeClose_over h reason handoff) ?_ ?_
  · simp only [writeClose]
    split
    · rfl
    split
    · rfl
    rename_i plaintext _
    have encrypted : Steady c (c.encrypt noise plaintext) := encrypt_steady plaintext
    split
    · rfl
    · exact (recordLimitErrorWithHandoff_steady _).1
    split
    · rename_i eq
      rw [eq] at encrypted
      exact encrypted.limits
    · rename_i eq
      rw [eq] at encrypted
      exact encrypted.limits
  · intro value after eq
    simp only [writeClose] at eq
    repeat' split at eq
    all_goals cases eq
    exact endSession_over _

theorem eof_absorbs (f : Unit → Reply) : Absorbs protocol true c (c.eof.1.map f) c.eof.2 := by
  refine ⟨fun live => ?_, fun live _ => ?_, fun h => ⟨(eof_over h).result.declines f, (eof_over h).after⟩⟩
  · unfold eof
    split
    · exact live
    split
    · exact (closeState_over _).live live.limits
    · exact (closeState_over _).live live.limits
  · unfold eof
    split
    · rename_i closed
      exact live.closed closed
    split
    · exact closeState_over _
    · exact closeState_over _

/-- `validate_binding` answers also when the session is over, but only with `Ok(())`. -/
theorem validateBinding_absorbs (generation epoch : Nat) :
    Absorbs false false c ((c.validateBinding generation epoch).1.map fun _ => Reply.done)
      (c.validateBinding generation epoch).2 := by
  unfold validateBinding
  split
  · exact ⟨fun live => (closeState_over c).live live.limits, fun _ _ => closeState_over c,
      fun _ => ⟨(refusal_new _).declines _, closeState_over c⟩⟩
  · refine ⟨id, ?_, fun h => ⟨⟨rfl, ?_, ?_⟩, h⟩⟩
    · rintro - (⟨error, impossible⟩ | impossible)
      · cases impossible
      · cases impossible
    · intro value eq
      cases eq
      rfl
    · intro impossible
      cases impossible

/-- The cap of a session in use can always be raised, so that the early return
    of `read_application` is never taken. -/
theorem TargetSession.readApplication_absorbs (s : TargetSession H T) (outer : Bytes) :
    Absorbs true false s.core ((s.readApplication noise outer).1.map Reply.message)
      (s.readApplication noise outer).2.core := by
  have inner : Absorbs true false s.core ((SessionCore.finishResult (s.core.readApplication noise outer)).1.map
      Reply.message) (SessionCore.finishResult (s.core.readApplication noise outer)).2 :=
    absorbs_finish _ (fun h => readApplication_over h outer) (readApplication_steady outer)
  have steady : Steady s.core (s.core.readApplication noise outer) := readApplication_steady outer
  unfold TargetSession.readApplication
  split
  · rename_i bytes after eq
    rw [eq] at inner steady
    obtain ⟨idle, fine⟩ := readApplication_idle eq
    have never : s.core.Over → False := fun h => by
      have refused : Refused (s.core.readApplication noise outer) := readApplication_over h outer
      obtain ⟨error, impossible, -⟩ := refused.result
      rw [eq] at impossible
      cases impossible
    have kept : ∀ after', after'.limits = after.limits → after'.closed = after.closed →
        Absorbs true false s.core (.ok (.message (some bytes))) after' := by
      intro after' limits closed
      refine ⟨fun live => ⟨limits.trans (steady.limits.trans live.limits), fun isClosed => ?_⟩, ?_, fun h => (never h).elim⟩
      · exact (never (live.closed ((steady.closed _ rfl) ▸ closed ▸ isClosed))).elim
      · rintro - (⟨error, impossible⟩ | impossible)
        · cases impossible
        · cases impossible
    dsimp only
    split
    · exact kept _ rfl rfl
    · have capped : s.core.Live → after.reassembly.setCap after.limits.requestBytes =
          (.ok (), { after.reassembly with cap := after.limits.requestBytes }) := by
        intro live
        have same : after.limits = {} := steady.limits.trans live.limits
        simp [RecordReassembler.setCap, idle, fine, same]
      refine ⟨fun live => ?_, fun live ended => ?_, fun h => (never h).elim⟩
      · rw [capped live]
        exact (kept _ (by rfl) (by rfl)).live live
      · rw [capped live] at ended ⊢
        exact (kept _ (by rfl) (by rfl)).ends live ended
  · exact inner

variable (noise) in
theorem TargetSession.call_absorbs (s : TargetSession H T) (call : TargetCall) :
    Absorbs call.protocol call.ending s.core (s.call noise call).1 (s.call noise call).2.core := by
  cases call with
  | writeM1 => exact absorbs_finish _ (fun h => writeHandshake_over h []) (writeHandshake_steady [])
  | readM2 outer => exact absorbs_finish _ (fun h => readHandshakeFinish_over h outer) (readHandshakeFinish_steady outer)
  | writeFinished => exact absorbs_finish _ (fun h => writeFinished_over h 0) (writeFinished_steady 0)
  | readFinished outer =>
      refine absorbs_finish _ (fun h => ?_) ?_
      · split
        · exact refused_new h _
        · exact readFinished_over h outer 1
      · split
        · exact steady_keep _
        · exact readFinished_steady outer 1
  | readApplication outer => exact s.readApplication_absorbs outer
  | eof => exact eof_absorbs _
  | writeApplicationResponse payload =>
      refine absorbs_finish _ (fun h => ?_) ?_
      · split
        · exact refused_new h _
        · exact writeApplication_over h payload _
      · split
        · exact steady_keep _
        · exact writeApplication_steady payload _
  | writeClose reason handoff => exact writeClose_absorbs reason handoff _
  | readClose outer => exact readClose_absorbs outer _
  | validateBinding generation epoch => exact validateBinding_absorbs generation epoch

theorem noteHandoff_over {r : Except Error (List Bytes) × SessionCore H T} (h : Refused r) :
    Refused (BrokerSession.noteHandoff r) := by
  obtain ⟨result, after⟩ := r
  obtain ⟨error, failed, silent⟩ := h.result
  cases failed
  exact h

theorem noteHandoff_steady {r : Except Error (List Bytes) × SessionCore H T} (h : Steady c r) :
    Steady c (BrokerSession.noteHandoff r) := by
  obtain ⟨result, after⟩ := r
  cases result with
  | error error => exact h
  | ok frames => exact ⟨h.limits, h.binding, h.closed⟩

variable (noise) in
theorem BrokerSession.call_absorbs (s : BrokerSession H T) (call : BrokerCall) :
    Absorbs call.protocol call.ending s.core (s.call noise call).1 (s.call noise call).2.core := by
  cases call with
  | readM1WriteM2 outer =>
      refine absorbs_finish _ (fun h => ?_) ?_
      · rw [readHandshake_over h]
        exact refused_new h _
      · have read : Steady s.core (s.core.readHandshake noise outer) := readHandshake_steady outer
        split
        · rename_i eq
          rw [eq] at read
          exact read.error
        rename_i afterRead eq
        rw [eq] at read
        have wrote : Steady afterRead (afterRead.writeHandshake noise []) := writeHandshake_steady []
        refine read.next ?_
        split
        · rename_i eq
          rw [eq] at wrote
          exact wrote
        rename_i afterWrite eq
        rw [eq] at wrote
        have finished : Steady afterWrite (afterWrite.finishHandshake noise) := finishHandshake_steady
        refine wrote.next ?_
        split
        · rename_i eq
          rw [eq] at finished
          exact finished.error
        · rename_i eq
          rw [eq] at finished
          exact finished.next (steady_keep _)
  | writeFinished =>
      refine absorbs_finish _ (fun h => ?_) ?_
      · split
        · exact refused_new h _
        · exact writeFinished_over h 1
      · split
        · exact steady_keep _
        · exact writeFinished_steady 1
  | readFinished outer => exact absorbs_finish _ (fun h => readFinished_over h outer 0) (readFinished_steady outer 0)
  | writeSessionOpen payload =>
      refine absorbs_finish _ (fun h => noteHandoff_over ?_) (noteHandoff_steady ?_)
      · split
        · exact refused_new h _
        split
        · exact refused_new h _
        · have marked : Over { s.core with firstApplication := true } := ⟨h.closed, h.transport, h.handshake⟩
          exact writeApplication_over marked payload _
      · split
        · exact steady_keep _
        split
        · exact steady_keep _
        · have written : Steady { s.core with firstApplication := true }
              ({ s.core with firstApplication := true }.writeApplication noise payload s.core.limits.requestBytes) :=
            writeApplication_steady payload _
          exact ⟨written.limits, written.binding, written.closed⟩
  | writeApplicationRequest payload =>
      refine absorbs_finish _ (fun h => noteHandoff_over ?_) (noteHandoff_steady ?_)
      · split
        · exact refused_new h _
        · exact writeApplication_over h payload _
      · split
        · exact steady_keep _
        · exact writeApplication_steady payload _
  | readApplicationResponse outer =>
      exact absorbs_finish _ (fun h => readApplication_over h outer) (readApplication_steady outer)
  | eof => exact eof_absorbs _
  | writeClose reason handoff => exact writeClose_absorbs reason handoff _
  | readClose outer => exact readClose_absorbs outer _
  | validateBinding generation epoch => exact validateBinding_absorbs generation epoch

/-- A session starts in use. -/
theorem new_live {entropy : R} {binding : SessionBinding} {pbs : FixedBytes 32} {initiator : Bool}
    {inboundCap : Nat} {peerTurn : Bool}
    (h : SessionCore.new noise entropy binding pbs initiator inboundCap peerTurn = .ok c) : c.Live := by
  simp only [SessionCore.new, bind, Except.bind, pure, Except.pure] at h
  split at h
  · cases h
  split at h
  · cases h
  split at h
  · cases h
  cases h
  exact ⟨rfl, fun closed => by cases closed⟩

end Sessions

/-! ## Calls of the lease connections -/

/-- Is the connection over once the call has completed? -/
def TargetLeaseCall.ending : TargetLeaseCall → Bool
  | .writeClose _ _ | .readClose _ => true
  | _ => false

def BrokerLeaseCall.ending : BrokerLeaseCall → Bool
  | .writeClose _ _ | .readClose _ => true
  | _ => false

/-- Every call on a lease connection is one of the protocol. -/
structure LeaseDeclines (reply : Except Error LeaseReply) : Prop where
  silent : leaseHandedOut reply = []
  error : ∃ error, reply = .error error

namespace LeaseCore

structure Over (c : LeaseCore T) : Prop where
  closed : c.closed = true
  transport : c.transport = none

structure Refused (r : Except Error α × LeaseCore T) : Prop where
  result : Refusal r.1
  after : r.2.Over

theorem closeState_over (c : LeaseCore T) : c.closeState.Over := ⟨rfl, rfl⟩

section Over

variable {c : LeaseCore T}

theorem refused_new (h : c.Over) (reason : CloseReason) :
    Refused ((.error (.new reason), c) : Except Error α × LeaseCore T) :=
  ⟨refusal_new reason, h⟩

theorem encrypt_over (h : c.Over) (plaintext : Bytes) :
    c.encrypt noise plaintext = (.error (.new .sequenceViolation), c) := by
  simp [encrypt, openTransport, h.closed]

theorem limitError_over (h : c.Over) : c.limitError noise = (.recordLimit none, c.closeState) := by
  obtain ⟨close, closeEq, -⟩ := limitClosePlaintext_ok .notHandedOff
  simp only [limitError, closeEq, encrypt_over h]
  split <;> rfl

theorem writeRecord_over (h : c.Over) (kind : RecordKind) (data : Bytes) : Refused (c.writeRecord noise kind data) := by
  obtain ⟨close, closeEq, -⟩ := limitClosePlaintext_ok .notHandedOff
  simp only [writeRecord, closeEq, limitError_over h, encrypt_over h]
  split
  · rename_i failed
    exact ⟨(plain_completeRecord kind data).refusal failed, h⟩
  split
  · rename_i failed
    exact ⟨(plain_encode _).refusal failed, h⟩
  split
  · exact ⟨⟨_, rfl, rfl⟩, closeState_over c⟩
  · exact refused_new h _

theorem decryptCounted_over (h : c.Over) (outer : Bytes) :
    c.decryptCounted noise outer = (.error (.new .sequenceViolation), c) := by
  simp [decryptCounted, openTransport, h.closed]

theorem writeHeartbeat_over (h : c.Over) (role counter : Nat) : Refused (c.writeHeartbeat noise role counter) := by
  unfold writeHeartbeat
  split
  · rename_i failed
    unfold heartbeatPayload at failed
    split at failed
    · cases failed
      exact refused_new h _
    · cases failed
  · exact writeRecord_over h _ _

theorem readHeartbeat_over (h : c.Over) (outer : Bytes) (role : Nat) : Refused (c.readHeartbeat noise outer role) := by
  simp only [readHeartbeat, decryptCounted_over h]
  exact refused_new h _

theorem writeClose_over (h : c.Over) (reason : CloseReason) (handoff : HandoffState) :
    Refused (c.writeClose noise reason handoff) := by
  have written : Refused (c.writeRecord noise .close (closePayload reason handoff)) := writeRecord_over h _ _
  unfold writeClose
  split
  · rename_i eq
    rw [eq] at written
    exact ⟨written.result, written.after⟩
  · exact ⟨by rename_i eq; rw [eq] at written; exact written.result, closeState_over _⟩

theorem readClose_over (h : c.Over) (outer : Bytes) : Refused (c.readClose noise outer) := by
  simp only [readClose, decryptCounted_over h]
  exact refused_new h _

end Over

/-- What a call does to a lease connection in use and to one that is over. -/
structure Absorbs (ending : Bool) (c : LeaseCore T) (reply : Except Error LeaseReply) (c' : LeaseCore T) : Prop where
  ends : (∃ error, reply = .error error) ∨ ending = true → c'.Over
  declines : c.Over → LeaseDeclines reply ∧ c'.Over

theorem absorbs_call {c : LeaseCore T} {ending : Bool} {r : Except Error α × LeaseCore T} (f : α → LeaseReply)
    (whenOver : c.Over → Refused r) (done : ending = true → ∀ value after, r = (.ok value, after) → after.Over) :
    Absorbs ending c ((finishResult r).1.map f) (finishResult r).2 := by
  obtain ⟨result, after⟩ := r
  cases result with
  | error error =>
      refine ⟨fun _ => closeState_over after, fun h => ⟨?_, closeState_over after⟩⟩
      obtain ⟨same, failed, silent⟩ := (whenOver h).result
      cases failed
      exact ⟨by simp [finishResult, Except.map, leaseHandedOut, silent], error, rfl⟩
  | ok value =>
      refine ⟨?_, fun h => ?_⟩
      · rintro (⟨error, impossible⟩ | ended)
        · cases impossible
        · exact done ended value after rfl
      · obtain ⟨error, impossible, -⟩ := (whenOver h).result
        cases impossible

theorem writeClose_done {c : LeaseCore T} {reason : CloseReason} {handoff : HandoffState} {value : Bytes}
    {after : LeaseCore T} (h : c.writeClose noise reason handoff = (.ok value, after)) : after.Over := by
  unfold writeClose at h
  split at h
  · cases h
  · cases h
    exact closeState_over _

theorem readClose_done {c : LeaseCore T} {outer : Bytes} {value : CloseReason × HandoffState}
    {after : LeaseCore T} (h : c.readClose noise outer = (.ok value, after)) : after.Over := by
  unfold readClose at h
  split at h
  · cases h
  split at h
  · cases h
  · cases h
    exact closeState_over _

end LeaseCore

section Leases

open LeaseCore

variable (noise) in
theorem TargetLeaseConnection.call_absorbs (l : TargetLeaseConnection T) (call : TargetLeaseCall) :
    LeaseCore.Absorbs call.ending l.core (l.call noise call).1 (l.call noise call).2.core := by
  cases call with
  | readHeartbeatRequest outer =>
      refine absorbs_call _ (fun h => ?_) (fun impossible => by cases impossible)
      split
      · exact refused_new h _
      · have read : Refused (l.core.readHeartbeat noise outer 1) := readHeartbeat_over h outer 1
        split
        · rename_i eq
          rw [eq] at read
          exact read
        · rename_i eq
          rw [eq] at read
          obtain ⟨error, impossible, -⟩ := read.result
          cases impossible
  | writeHeartbeatReply counter =>
      refine absorbs_call _ (fun h => ?_) (fun impossible => by cases impossible)
      split
      · exact refused_new h _
      · have written : Refused (l.core.writeHeartbeat noise 2 counter.toNat) := writeHeartbeat_over h 2 _
        split
        · rename_i eq
          rw [eq] at written
          exact written
        · rename_i eq
          rw [eq] at written
          obtain ⟨error, impossible, -⟩ := written.result
          cases impossible
  | writeClose reason handoff =>
      exact absorbs_call _ (fun h => writeClose_over h reason handoff) (fun _ _ _ eq => writeClose_done eq)
  | readClose outer => exact absorbs_call _ (fun h => readClose_over h outer) (fun _ _ _ eq => readClose_done eq)

variable (noise) in
theorem BrokerLeaseConnection.call_absorbs (l : BrokerLeaseConnection T) (call : BrokerLeaseCall) :
    LeaseCore.Absorbs call.ending l.core (l.call noise call).1 (l.call noise call).2.core := by
  cases call with
  | writeHeartbeatRequest counter =>
      refine absorbs_call _ (fun h => ?_) (fun impossible => by cases impossible)
      split
      · exact refused_new h _
      · have written : Refused (l.core.writeHeartbeat noise 1 counter.toNat) := writeHeartbeat_over h 1 _
        split
        · rename_i eq
          rw [eq] at written
          exact written
        · rename_i eq
          rw [eq] at written
          obtain ⟨error, impossible, -⟩ := written.result
          cases impossible
  | readHeartbeatReply outer =>
      refine absorbs_call _ (fun h => ?_) (fun impossible => by cases impossible)
      have read : Refused (l.core.readHeartbeat noise outer 2) := readHeartbeat_over h outer 2
      split
      · rename_i eq
        rw [eq] at read
        exact read
      · rename_i eq
        rw [eq] at read
        obtain ⟨error, impossible, -⟩ := read.result
        cases impossible
  | writeClose reason handoff =>
      exact absorbs_call _ (fun h => writeClose_over h reason handoff) (fun _ _ _ eq => writeClose_done eq)
  | readClose outer => exact absorbs_call _ (fun h => readClose_over h outer) (fun _ _ _ eq => readClose_done eq)

end Leases

/-! ## Runs -/

/-- Once a call of a run ends its value, every later call declines. -/
def EndsForGood (R H T : Type) {σ κ ρ : Type} (call : Noise R H T → σ → κ → Except Error ρ × σ) (ending : κ → Bool)
    (Declining : κ → Except Error ρ → σ → Prop) (s : σ) : Prop :=
  ∀ (calls : List (Noise R H T × κ)) front b back,
    Runs.trace (fun s i => call i.1 s i.2) s calls = front ++ b :: back →
    (∃ error, b.output = .error error) ∨ ending b.input.2 = true →
    ∀ later ∈ back, Declining later.input.2 later.output later.after

theorem endsForGood {σ κ ρ : Type} {call : Noise R H T → σ → κ → Except Error ρ × σ} {ending : κ → Bool}
    {Declining : κ → Except Error ρ → σ → Prop} (Live Over : σ → Prop)
    (live : ∀ noise s k, Live s → Live (call noise s k).2)
    (ends : ∀ noise s k, Live s → (∃ error, (call noise s k).1 = .error error) ∨ ending k = true →
      Over (call noise s k).2)
    (declines : ∀ noise s k, Over s → Declining k (call noise s k).1 (call noise s k).2 ∧ Over (call noise s k).2)
    {s : σ} (start : Live s) : EndsForGood R H T call ending Declining s := by
  intro calls front b back split ended
  exact Runs.absorbed Live Over (fun step : Runs.Step σ (Noise R H T × κ) (Except Error ρ) =>
      (∃ error, step.output = .error error) ∨ ending step.input.2 = true)
    (fun step => Declining step.input.2 step.output step.after)
    (fun s i => live i.1 s i.2) (fun s i => ends i.1 s i.2) (fun s i => declines i.1 s i.2) start split ended

/-- Whatever the library answers at each call: after the first failure, Close or
    end of file a session or lease connection fails every further protocol call,
    returns no frame, message, counter or handshake step and has no key left. -/
theorem failure_absorbs :
    (∀ (noise : Noise R H T) (entropy : R) (binding : SessionBinding) (pbs : FixedBytes 32),
      (∀ s, TargetSession.new noise entropy binding pbs = .ok s →
        EndsForGood R H T TargetSession.call TargetCall.ending
          (fun call reply after => Declines call.protocol reply ∧ after.core.Over) s) ∧
      ∀ s, BrokerSession.new noise entropy binding pbs = .ok s →
        EndsForGood R H T BrokerSession.call BrokerCall.ending
          (fun call reply after => Declines call.protocol reply ∧ after.core.Over) s) ∧
    (∀ l : TargetLeaseConnection T, EndsForGood R H T TargetLeaseConnection.call TargetLeaseCall.ending
      (fun _ reply after => LeaseDeclines reply ∧ after.core.Over) l) ∧
    ∀ l : BrokerLeaseConnection T, EndsForGood R H T BrokerLeaseConnection.call BrokerLeaseCall.ending
      (fun _ reply after => LeaseDeclines reply ∧ after.core.Over) l := by
  refine ⟨fun noise entropy binding pbs => ⟨fun s made => ?_, fun s made => ?_⟩, fun l => ?_, fun l => ?_⟩
  · have start : s.core.Live := by
      unfold TargetSession.new at made
      obtain ⟨c, built, rfl⟩ := map_ok made
      exact new_live built
    refine endsForGood (fun s => s.core.Live) (fun s => s.core.Over) (fun noise s call => (s.call_absorbs noise call).live)
      (fun noise s call => (s.call_absorbs noise call).ends) (fun noise s call h => ?_) start
    have declined := (TargetSession.call_absorbs noise s call).declines h
    exact ⟨declined, declined.2⟩
  · have start : s.core.Live := by
      unfold BrokerSession.new at made
      obtain ⟨c, built, rfl⟩ := map_ok made
      exact new_live built
    refine endsForGood (fun s => s.core.Live) (fun s => s.core.Over) (fun noise s call => (s.call_absorbs noise call).live)
      (fun noise s call => (s.call_absorbs noise call).ends) (fun noise s call h => ?_) start
    have declined := (BrokerSession.call_absorbs noise s call).declines h
    exact ⟨declined, declined.2⟩
  · refine endsForGood (fun _ => True) (fun l => l.core.Over) (fun _ _ _ => id)
      (fun noise l call _ => (l.call_absorbs noise call).ends) (fun noise l call h => ?_) trivial
    have declined := (TargetLeaseConnection.call_absorbs noise l call).declines h
    exact ⟨declined, declined.2⟩
  · refine endsForGood (fun _ => True) (fun l => l.core.Over) (fun _ _ _ => id)
      (fun noise l call _ => (l.call_absorbs noise call).ends) (fun noise l call h => ?_) trivial
    have declined := (BrokerLeaseConnection.call_absorbs noise l call).declines h
    exact ⟨declined, declined.2⟩

open LimitRun in
/-- A Target whose peer is gone writes no handshake message, and a Broker lease
    that was closed sends no heartbeat. -/
theorem gone_peer_absorbed :
    (∃ s, TargetSession.new nonceNoise () binding pbs = .ok s ∧
      ∀ later ∈ (Runs.trace (fun s (i : Noise Unit Unit NonceTransport × TargetCall) => s.call i.1 i.2) s
          [(nonceNoise, .eof), (nonceNoise, .writeM1)]).tail,
        Declines later.input.2.protocol later.output ∧ later.after.core.Over) ∧
    ∃ l : BrokerLeaseConnection NonceTransport,
      ∀ later ∈ (Runs.trace (fun l (i : Noise Unit Unit NonceTransport × BrokerLeaseCall) => l.call i.1 i.2) l
          [(nonceNoise, .writeClose .normal .notHandedOff), (nonceNoise, .writeHeartbeatRequest 1)]).tail,
        LeaseDeclines later.output ∧ later.after.core.Over := by
  obtain ⟨sessions, -, leases⟩ := failure_absorbs (R := Unit) (H := Unit) (T := NonceTransport)
  refine ⟨⟨fresh, new_fresh, ?_⟩, ⟨{
    transport := some ⟨0, 1⟩, binding := ⟨binding.leaseId, 1, 1⟩, sentRecords := 0, sentPlaintext := 0
    receivedRecords := 1, receivedPlaintext := 0 }⟩, ?_⟩
  · refine (sessions nonceNoise () binding pbs).1 fresh new_fresh [(nonceNoise, .eof), (nonceNoise, .writeM1)] []
      _ _ rfl ?_
    exact .inr rfl
  · refine leases _ [(nonceNoise, .writeClose .normal .notHandedOff), (nonceNoise, .writeHeartbeatRequest 1)] []
      _ _ rfl ?_
    exact .inr rfl

end AppPilotKit.Transport
