import AppPilotKit.Target.Lifetimes
import AppPilotKit.Transport.BudgetRuns

/-! # A child that reaches its record limit

A supervisor with one lease and one child whose session serves one-byte requests
until no record is left but the Close. The Close frame is written, and its commit
ends the child only in the answer.
-/

namespace AppPilotKit.Target

open Wire Transport

namespace LimitRounds

def descriptor : ParsedDescriptor :=
  { binding := {
      targetReferenceDigest := FixedBytes.replicate 32 0, leaseId := FixedBytes.replicate 16 0
      targetNonce := FixedBytes.replicate 32 0, appArtifactDigest := FixedBytes.replicate 32 0, expiryMs := 1 }
    brokerPublicKey := FixedBytes.replicate 32 0, endpoint := .ios 50000 }

def start : TargetTransport Unit NonceTransport :=
  { phase := .awaitBootstrap descriptor.binding descriptor.brokerPublicKey, generation := 1
    clock := { nextToken := 1, timers := ∅ } }

set_option maxRecDepth 20000 in
theorem created : TargetTransport.create (encodeDescriptor descriptor) [0] =
    .ok (start, (Outcome.new .endpointReady).values 0 50000) := by
  rfl

def handshakeFrame (payload : Bytes) : Bytes :=
  be 2 (payload.length + handshakeOverhead) ++ (payload ++ List.replicate handshakeOverhead 0)

def commit (streamId writeToken : Nat) : Unit × Event := ((), { tag := .fullWriteCommitted, streamId, writeToken })

def receive (streamId : Nat) (bytes : Bytes) : Unit × Event := ((), { tag := .streamBytes, streamId, bytes })

def respond : Unit × Event := ((), { tag := .runtimeResponse, streamId := 2, bytes := [0] })

/-- The bootstrap, the handshake of child 2 and its first exchange. -/
def opening : List (Unit × Event) :=
  [((), { tag := .bootstrapConnected, streamId := 1 }), commit 1 1,
    receive 1 (handshakeFrame (descriptor.binding.expectedM2 LimitRun.pbs)), commit 1 3,
    ((), { tag := .sessionAccepted, streamId := 2 }), commit 2 5, receive 2 (handshakeFrame []), commit 2 7,
    receive 2 (nonceFrame 0 LimitRun.brokerFinished.wire ++ nonceFrame 1 LimitRun.byteRecord.wire), respond, commit 2 9]

def request (n : Nat) : Unit × Event := receive 2 (nonceFrame (n + 2) LimitRun.byteRecord.wire)

/-- The requests after the first, each answered and its answer committed. -/
def rounds : Nat → List (Unit × Event)
  | 0 => []
  | n + 1 => rounds n ++ [request n, respond, commit 2 (12 + 3 * n)]

/-- The child of stream 2 and the next token. -/
def Holds (phase : ChildPhase Unit NonceTransport) (applications next : Nat) (t : TargetTransport Unit NonceTransport) :
    Prop :=
  ∃ e child, t.phase = .eligible e ∧ e.leaseStream = 1 ∧ e.children.lookup 2 = some child ∧ child.phase = phase ∧
    child.decoder = .new ∧ child.frameTimer = none ∧ child.applications = applications ∧ t.clock.nextToken = next

set_option maxRecDepth 20000 in
theorem opening_holds : Holds (.awaitApplication (LimitRun.served 0)) 1 11 (reached nonceNoise start opening) := by
  exact ⟨_, _, rfl, rfl, rfl, rfl, rfl, rfl, rfl, rfl⟩

section
variable {t : TargetTransport Unit NonceTransport} {n applications next : Nat} {session : TargetSession Unit NonceTransport}

/-- A timer can be started while there are tokens left. -/
theorem schedules (c : Clock) (action : TimerAction) (positive : 0 < c.nextToken) (room : c.nextToken + 1 < 2 ^ 64) :
    c.scheduleTimer action = (.ok c.nextToken,
      { nextToken := c.nextToken + 1, timers := c.timers.insert c.nextToken action }) := by
  unfold Clock.scheduleTimer Clock.allocateToken
  rw [if_pos room, if_neg positive.ne']

theorem allocates (c : Clock) (positive : 0 < c.nextToken) (room : c.nextToken + 1 < 2 ^ 64) :
    c.allocateToken = (.ok c.nextToken, { c with nextToken := c.nextToken + 1 }) := by
  unfold Clock.allocateToken
  rw [if_pos room, if_neg positive.ne']

theorem request_applies (holds : Holds (.awaitApplication (LimitRun.served n)) applications next t)
    (records : n + 3 < recordLimit) (positive : 0 < next) (room : next + 1 < 2 ^ 64) (count : applications + 1 < 2 ^ 64) :
    Applies 2 (serve nonceNoise t (request n)).1 ∧
      Holds (.awaitRuntime (LimitRun.asked n)) (applications + 1) (next + 1) (serve nonceNoise t (request n)).2 := by
  obtain ⟨e, child, eligible, lease, found, phase, decoder, frameTimer, counted, tokens⟩ := holds
  have pushed : child.decoder.push (nonceFrame (n + 2) LimitRun.byteRecord.wire) =
      (.ok [nonceFrame (n + 2) LimitRun.byteRecord.wire], .new) := by
    rw [decoder]
    exact push_frame (encodeOuter_tagged LimitRun.byteRecord_small (n + 2))
  have nonempty : nonceFrame (n + 2) LimitRun.byteRecord.wire ≠ [] := by
    intro empty
    have size := congrArg List.length empty
    simp [nonceFrame] at size
  have read : TargetTransport.readApplications nonceNoise (LimitRun.served n) none
      [nonceFrame (n + 2) LimitRun.byteRecord.wire] = .done (LimitRun.asked n) (some [0]) := by
    simp only [TargetTransport.readApplications, LimitRun.served_reads n records]
    rfl
  have scheduled := schedules (t.clock.cancel child.phaseTimer) (.sessionPhase 2) (by simpa [tokens] using positive)
    (by simpa [tokens] using room)
  have complete : OuterFrameDecoder.isIncomplete .new = false := rfl
  simp only [serve, request, receive, TargetTransport.drive, eligible, ne_eq, not_true, if_false,
    TargetTransport.streamBytes, nonempty, or_self, OfNat.ofNat_ne_zero, lease, found, Option.isSome_some, if_true,
    TargetTransport.sessionBytes, pushed, complete, Clock.updateFrameTimer, frameTimer, TargetTransport.sessionFrames,
    phase, read, TargetTransport.finishApplications, counted, checkedAdd_of count, replaceChildTimer,
    Clock.cancel_none, scheduled, OfNat.one_ne_ofNat, Bool.false_eq_true]
  refine ⟨applies_deadline 2 _ _ _, _, _, rfl, lease, AList.lookup_insert _, rfl, rfl, rfl, rfl, ?_⟩
  simp [tokens, TargetTransport.withChild]

theorem respond_pends (holds : Holds (.awaitRuntime (LimitRun.asked n)) applications next t)
    (records : n + 4 < recordLimit) (positive : 0 < next) (room : next + 1 < 2 ^ 64) :
    Holds (.responsePending (LimitRun.served (n + 1)) next) applications (next + 1) (serve nonceNoise t respond).2 := by
  obtain ⟨e, child, eligible, lease, found, phase, decoder, frameTimer, counted, tokens⟩ := holds
  have allocated := allocates t.clock (by simpa [tokens] using positive) (by simpa [tokens] using room)
  simp only [serve, respond, TargetTransport.drive, eligible, ne_eq, not_true, if_false, TargetTransport.runtimeResponse,
    OfNat.ofNat_ne_zero, List.cons_ne_nil, or_self, found, phase, LimitRun.asked_answers n records,
    TargetTransport.withChild, allocated]
  refine ⟨_, _, rfl, lease, AList.lookup_insert _, ?_, decoder, frameTimer, counted, ?_⟩
  · rw [tokens]
  · rw [tokens]

theorem commit_awaits (holds : Holds (.responsePending session n) applications next t) (token : 0 < n)
    (positive : 0 < next) (room : next + 1 < 2 ^ 64) :
    Holds (.awaitApplication session) applications (next + 1) (serve nonceNoise t (commit 2 n)).2 := by
  obtain ⟨e, child, eligible, lease, found, phase, decoder, frameTimer, counted, tokens⟩ := holds
  have scheduled := schedules (t.clock.cancel child.phaseTimer) (.sessionIdle 2) (by simpa [tokens] using positive)
    (by simpa [tokens] using room)
  simp only [serve, commit, TargetTransport.drive, eligible, ne_eq, not_true, if_false,
    TargetTransport.fullWriteCommitted, OfNat.ofNat_ne_zero, or_self, token.ne', lease, OfNat.one_ne_ofNat,
    TargetTransport.commitChildWrite, found, phase, if_true, replaceChildTimer,
    show t.movedOut.clock = t.clock from rfl, scheduled]
  refine ⟨_, _, rfl, rfl, AList.lookup_insert _, rfl, decoder, frameTimer, counted, ?_⟩
  simp [tokens]

/-- The response that finds no record left is answered with the Close frame. -/
theorem respond_closes (holds : Holds (.awaitRuntime (LimitRun.asked n)) applications next t)
    (limit : n = recordLimit - 4) (positive : 0 < next) (room : next + 1 < 2 ^ 64) :
    ∃ terminal, Holds (.terminalPending next terminal) applications (next + 1) (serve nonceNoise t respond).2 := by
  obtain ⟨e, child, eligible, lease, found, phase, decoder, frameTimer, counted, tokens⟩ := holds
  obtain ⟨frame, after, refused⟩ := LimitRun.asked_limit
  rw [← limit] at refused
  have allocated := allocates t.clock (by simpa [tokens] using positive) (by simpa [tokens] using room)
  simp only [serve, respond, TargetTransport.drive, eligible, ne_eq, not_true, if_false, TargetTransport.runtimeResponse,
    OfNat.ofNat_ne_zero, List.cons_ne_nil, or_self, found, phase, refused, TargetTransport.answer,
    TargetTransport.childCoreError, Error.recordLimit, TargetTransport.withChild, allocated, AList.lookup_insert]
  refine ⟨_, _, _, rfl, lease, AList.lookup_insert _, congrArg (fun token => ChildPhase.terminalPending token _) tokens,
    decoder, frameTimer, counted, ?_⟩
  rw [tokens]

theorem round_holds (holds : Holds (.awaitApplication (LimitRun.served n)) (n + 1) (11 + 3 * n) t)
    (records : n + 4 < recordLimit) :
    Holds (.awaitApplication (LimitRun.served (n + 1))) (n + 2) (11 + 3 * (n + 1))
      (reached nonceNoise t [request n, respond, commit 2 (12 + 3 * n)]) := by
  unfold recordLimit at records
  have applied := (request_applies holds (by unfold recordLimit; omega) (by omega) (by omega) (by omega)).2
  have pending := respond_pends applied (by unfold recordLimit; omega) (by omega) (by omega)
  have awaiting := commit_awaits pending (by omega) (by omega) (by omega)
  rw [show 12 + 3 * n = 11 + 3 * n + 1 by omega]
  exact awaiting

theorem rounds_hold (records : n + 3 < recordLimit) :
    Holds (.awaitApplication (LimitRun.served n)) (n + 1) (11 + 3 * n) (reached nonceNoise start (opening ++ rounds n)) := by
  induction n with
  | zero =>
      rw [rounds, List.append_nil]
      exact opening_holds
  | succ n ih =>
      rw [rounds, ← List.append_assoc, reached, Runs.final_append]
      exact round_holds (ih (by omega)) (by omega)

end

/-- Rounds until only the record of the Close is left. -/
def last : Nat := recordLimit - 4

/-- `n` rounds, one more request and a response. -/
def before (n : Nat) : List (Unit × Event) := opening ++ rounds n ++ [request n, respond]

/-- The commit of what the response wrote. -/
def closing (n : Nat) : Unit × Event := commit 2 (12 + 3 * n)

theorem before_delivers {n : Nat} (limit : n = last) :
    Delivered 2 (history nonceNoise start (before n)) ∧
      CommitsClose (reached nonceNoise start (before n)) (closing n).2 := by
  have bounds : n + 4 = 2 ^ 32 := by
    rw [limit, last, recordLimit]
    rfl
  obtain ⟨applies, asked⟩ := request_applies (rounds_hold (n := n) (by unfold recordLimit; omega))
    (by unfold recordLimit; omega) (by omega) (by omega) (by omega)
  obtain ⟨terminal, pending⟩ := respond_closes asked limit (by omega) (by omega)
  constructor
  · rw [before, history, Runs.trace_append]
    refine ⟨history nonceNoise start (opening ++ rounds n), _, _, rfl, applies, fun step member => ?_⟩
    rintro ⟨⟨tag, -⟩, -⟩
    cases List.mem_singleton.mp member
    cases tag
  · rw [before, reached, Runs.final_append]
    obtain ⟨e, child, eligible, -, found, phase, -⟩ := pending
    refine ⟨rfl, rfl, ⟨by simp [closing, commit], by simp [closing, commit], rfl⟩, child, terminal, ?_, ?_⟩
    · exact (registered_eligible eligible 2).trans found
    · rw [phase]
      congr 1
      simp only [closing, commit]
      omega

/-- The commit reports the end of the child and leaves it registered. -/
theorem closing_slips {n : Nat} (limit : n = last) : ∃ b : ServeStep Unit Unit NonceTransport,
    history nonceNoise start (before n ++ [closing n]) = history nonceNoise start (before n) ++ [b] ∧
      Ends 2 .notHandedOff b.output ∧ ∃ child, b.after.registered 2 = some child := by
  have sound := reached_sound nonceNoise created (before n)
  have slips := commit_slips nonceNoise () sound (before_delivers limit).2
  exact ⟨_, Runs.trace_append start (before n) [closing n], slips⟩

end LimitRounds

end AppPilotKit.Target
