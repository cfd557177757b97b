import AppPilotKit.Target.LimitRounds
import AppPilotKit.Host.KotlinRuns
import AppPilotKit.Host.SwiftRuns

/-! # Events of finished sessions

Both hosts ignore the late events of a finished session, except for bytes or an end
that was read before: the supervisor does not know the stream any more and rejects
it, and a rejected event is an internal failure that ends the lease.
-/

namespace AppPilotKit.Host

open Wire Transport Target

/-- In a run in which no task brings bytes or the end of a stream whose session is
    finished, every event of a finished session is ignored. -/
theorem finished_sessions_ignored {R H T : Type} (noise : Noise R H T) {descriptorCbor : Bytes} {draws : List Nat}
    {t₀ : TargetTransport H T} {ready : Outcome} (made : TargetTransport.create descriptorCbor draws = .ok (t₀, ready)) :
    (∀ inputs, Kotlin.NoStaleRead (Runs.trace (Kotlin.TransportHost.step noise) (.activated t₀) inputs) →
      Kotlin.IgnoresFinished (Runs.trace (Kotlin.TransportHost.step noise) (.activated t₀) inputs)) ∧
    (∀ inputs, Swift.NoStaleRead (Runs.trace (Swift.TransportHost.step noise) (.activated t₀) inputs) →
      Swift.IgnoresFinished (Runs.trace (Swift.TransportHost.step noise) (.activated t₀) inputs)) := by
  have sound := create_sound made
  have childless := create_childless made
  constructor
  · intro inputs current
    exact Kotlin.ignores_finished (Kotlin.activated_inOrder sound childless) inputs current
  · intro inputs current
    exact Swift.ignores_finished (Swift.activated_inOrder sound childless) inputs current

/-! ## A read that crosses the phase timer

The bootstrap, and a child whose handshake times out while its read is outstanding.
-/

namespace Crossing

open LimitRounds

def world : World Unit := { entropy := () }

def confirmation : Bytes := handshakeFrame (descriptor.binding.expectedM2 LimitRun.pbs)

/-- The lease is ready and child 2 waits for the handshake of its peer. -/
def android : List (Kotlin.Input Unit) :=
  [.connect, .run world, .written 1 1 false, .run world, .read 1 (.bytes confirmation), .run world,
    .written 1 3 false, .run world, .connect, .run world, .written 2 5 false, .run world]

/-- Its timer ends the session, which closes the socket under the read. -/
def androidTimeout : List (Kotlin.Input Unit) := [.expire 6, .run world, .read 2 (.ended true)]

def ios : List (Swift.Input Unit) :=
  [.connect, .ready 1, .run 0 world, .dispatch, .sent 1 1 false, .run 0 world, .dispatch,
    .receives 1 confirmation false false, .run 0 world, .dispatch, .sent 1 3 false, .run 0 world, .dispatch,
    .connect, .ready 2, .run 0 world, .dispatch, .sent 2 5 false, .run 0 world, .dispatch]

/-- The task of the timer runs before the one of the end. -/
def iosTimeout : List (Swift.Input Unit) := [.receives 2 [] true false, .expire 6, .run 1 world]

/-- The timer fires while the first write of child 2 is under way. -/
def lateWrite : List (Kotlin.Input Unit) :=
  android.take 10 ++ [.expire 6, .run world, .written 2 5 false, .run world]

/-- The streams whose sessions end in a run. -/
def terminated (outputs : List (List Deed)) : List Nat :=
  outputs.flatten.filterMap fun
    | .sessionTerminal s => some s
    | _ => none

theorem mem_terminated {outputs : List (List Deed)} {s : Nat} :
    s ∈ terminated outputs ↔ ∃ output ∈ outputs, .sessionTerminal s ∈ output := by
  unfold terminated
  rw [List.mem_filterMap]
  constructor
  · rintro ⟨deed, member, ends⟩
    obtain ⟨output, inside, there⟩ := List.mem_flatten.mp member
    cases deed with
    | sessionTerminal t =>
        cases ends
        exact ⟨output, inside, there⟩
    | drove | receive | write | close | arm | handle | leaseTerminal => cases ends
  · rintro ⟨output, inside, there⟩
    exact ⟨_, List.mem_flatten.mpr ⟨output, inside, there⟩, rfl⟩

set_option maxRecDepth 20000 in
theorem lateWrite_current :
    Kotlin.NoStaleRead (Runs.trace (Kotlin.TransportHost.step nonceNoise) (.activated start) lateWrite) := by
  have ends : terminated (Runs.outputs (Kotlin.TransportHost.step nonceNoise) (.activated start) lateWrite) = [2] := rfl
  have reads : ((Runs.trace (Kotlin.TransportHost.step nonceNoise) (.activated start) lateWrite).filterMap fun b =>
      (Kotlin.runs b.before b.input).bind Kotlin.Task.reads) = [1] := rfl
  intro past b rest task s split running reading finished
  -- only the session of stream 2 ends, and only stream 1 is read
  obtain ⟨step, member, terminal⟩ := finished
  have two : s ∈ [2] := by
    rw [← ends]
    refine mem_terminated.mpr ⟨step.output, List.mem_map_of_mem ?_, terminal⟩
    rw [split]
    exact List.mem_append_left _ member
  have one : s ∈ [1] := by
    rw [← reads]
    refine List.mem_filterMap.mpr ⟨b, ?_, ?_⟩
    · rw [split]
      simp
    · rw [running]
      exact reading
  simp only [List.mem_singleton] at one two
  omega

set_option maxRecDepth 20000 in
theorem android_ends : ∃ past b, Runs.trace (Kotlin.TransportHost.step nonceNoise) (.activated start)
    (android ++ androidTimeout ++ [.run world]) = past ++ [b] ∧ Kotlin.Finished past 2 ∧
      Kotlin.runs b.before b.input = some (.socket (.readEnded 2 true)) ∧ .leaseTerminal ∈ b.output := by
  have ends : terminated (Runs.outputs (Kotlin.TransportHost.step nonceNoise) (.activated start)
    (android ++ androidTimeout)) = [2] := rfl
  have finished : 2 ∈ terminated _ := ends ▸ List.mem_singleton_self 2
  obtain ⟨output, member, terminal⟩ := mem_terminated.mp finished
  obtain ⟨step, inside, rfl⟩ := List.mem_map.mp member
  refine ⟨_, _, Runs.trace_append _ _ _, ⟨step, inside, terminal⟩, rfl, ?_⟩
  exact List.mem_of_getElem? (i := 2) rfl

set_option maxRecDepth 20000 in
theorem ios_ends : ∃ past b, Runs.trace (Swift.TransportHost.step nonceNoise) (.activated start)
    (ios ++ iosTimeout ++ [.run 0 world]) = past ++ [b] ∧ Swift.Finished past 2 ∧
      b.input = .run 0 world ∧ b.before.tasks[0]? = some (.socket (.received 2 [] true false)) ∧
      .leaseTerminal ∈ b.output := by
  have ends : terminated (Runs.outputs (Swift.TransportHost.step nonceNoise) (.activated start)
    (ios ++ iosTimeout)) = [2] := rfl
  have finished : 2 ∈ terminated _ := ends ▸ List.mem_singleton_self 2
  obtain ⟨output, member, terminal⟩ := mem_terminated.mp finished
  obtain ⟨step, inside, rfl⟩ := List.mem_map.mp member
  refine ⟨_, _, Runs.trace_append _ _ _, ⟨step, inside, terminal⟩, rfl, rfl, ?_⟩
  exact List.mem_of_getElem? (i := 2) rfl

end Crossing

open LimitRounds Crossing in
/-- A late write completion is ignored. -/
theorem late_write_ignored : Kotlin.IgnoresFinished
    (Runs.trace (Kotlin.TransportHost.step nonceNoise) (.activated start) lateWrite) :=
  (finished_sessions_ignored nonceNoise created).1 lateWrite lateWrite_current

set_option maxRecDepth 20000 in
open LimitRounds Crossing in
/-- On both platforms the end of a finished session ends the lease. -/
theorem stale_end_ends_lease :
    (¬ Kotlin.IgnoresFinished (Runs.trace (Kotlin.TransportHost.step nonceNoise) (.activated start)
        (android ++ androidTimeout ++ [.run world])) ∧
      (Runs.final (Kotlin.TransportHost.step nonceNoise) (.activated start)
        (android ++ androidTimeout ++ [.run world])).desk.stopped = true) ∧
    (¬ Swift.IgnoresFinished (Runs.trace (Swift.TransportHost.step nonceNoise) (.activated start)
        (ios ++ iosTimeout ++ [.run 0 world])) ∧
      (Runs.final (Swift.TransportHost.step nonceNoise) (.activated start)
        (ios ++ iosTimeout ++ [.run 0 world])).desk.stopped = true) := by
  refine ⟨⟨fun ignores => ?_, rfl⟩, ⟨fun ignores => ?_, rfl⟩⟩
  · obtain ⟨past, b, split, finished, running, terminal⟩ := android_ends
    have nothing := (ignores past b [] _ 2 split running rfl finished).1
    rw [nothing] at terminal
    cases terminal
  · obtain ⟨past, b, split, finished, isRun, found, terminal⟩ := ios_ends
    have nothing := (ignores past b [] _ _ _ 2 split isRun found rfl finished).1
    rw [nothing] at terminal
    cases terminal

end AppPilotKit.Host
