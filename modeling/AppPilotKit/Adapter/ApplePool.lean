import AppPilotKit.Adapter.AppleGuards
import AppPilotKit.Adapter.AppleOwned

/-! # The ledger of all launches

Any number of launches, cleanups and connections share the ledger, in any interleaving. It holds
exactly what has been given out to them, and a target is reserved by one of them at a time.
-/

namespace AppPilotKit.Adapter.Apple

open Scripts

/-! ## Tasks -/

/-- What a task comes to: a value that the host may use, or nothing more. -/
inductive Rest where
  | pending (pending : ApplePendingLaunch)
  | launched (io : LaunchedTargetIo)
  | leased (cleanup : AppleCleanup)
  | stream (port : Nat)
  | settled (failed : Option PlatformFailure)

/-- What an attempt comes to. -/
def comesTo {α : Type} (m : Act α) (rest : α → Rest) : Script Request Request.Reply Rest :=
  m.run >>= fun
    | .ok value => .done (rest value)
    | .error failed => .done (.settled (some failed))

/-- A task for a selection, or for a connection. -/
abbrev Task := Thread Request Request.Reply (Option TargetSelection) Owned Rest

/-- How a host begins: with a launch, or with a connection to a port. -/
inductive Starts : Option TargetSelection → Script Request Request.Reply Rest → Prop where
  | beginLaunch (selection : TargetSelection) (deadline : Raw.AbsoluteDeadline) :
      Starts (some selection) (comesTo (Apple.beginLaunch selection deadline) .pending)
  | connect (rounds port : Nat) (deadline : Raw.AbsoluteDeadline) : Starts none (comesTo (do
      let connection ← connectReservedLoopback rounds port .given deadline
      tcpRawDuplex connection) fun stream => .stream stream.sourcePort)

/-- How a host goes on with what a task has come to. What is not used stays as it is. -/
inductive Passes : Task → List Task → Prop where
  | launch {label : Option TargetSelection} {pending : ApplePendingLaunch} {owned : Owned} {past : Deeds} (tools : Tools)
      (deadline : Raw.AbsoluteDeadline) (encode : Wire.Bytes → Chars) (connecting rounds : Nat) (descriptor : Wire.Bytes) :
      Passes ⟨label, .done (.pending pending), owned, past⟩ [⟨label, comesTo
        (pending.launch tools deadline (connectReservedLoopback connecting) encode rounds descriptor) .launched, owned, past⟩]
  | abort {label : Option TargetSelection} {pending : ApplePendingLaunch} {owned : Owned} {past : Deeds} :
      Passes ⟨label, .done (.pending pending), owned, past⟩
        [⟨label, comesTo pending.abort fun _ => .settled none, owned, past⟩]
  /-- The stream goes its own way. -/
  | split {label : Option TargetSelection} {io : LaunchedTargetIo} {owned : Owned} {past : Deeds} :
      Passes ⟨label, .done (.launched io), owned, past⟩
        [⟨label, .done (.leased io.cleanup), (owned.1, owned.2.erase io.bootstrap.sourcePort), past⟩,
          ⟨none, .done (.stream io.bootstrap.sourcePort), (0, {io.bootstrap.sourcePort}), []⟩]
  | cleanup {label : Option TargetSelection} {cleanup : AppleCleanup} {owned : Owned} {past : Deeds} (tools : Tools)
      (deadline : Raw.AbsoluteDeadline) (rounds : Nat) :
      Passes ⟨label, .done (.leased cleanup), owned, past⟩
        [⟨label, comesTo (cleanup.cleanup tools deadline rounds) fun _ => .settled none, owned, past⟩]
  | drop {label : Option TargetSelection} {port : Nat} {owned : Owned} {past : Deeds} :
      Passes ⟨label, .done (.stream port), owned, past⟩
        [⟨label, comesTo (Attempt.request (.dropSource port) Except.ok : Act Unit) fun _ => .settled none, owned, past⟩]

/-- What the ledger answers; nothing else changes it. -/
def ledgerWorld : World Request Request.Reply ReservationLedger
  | ledger, .reserve port target, reply, ledger' => (reply, ledger') = ledger.reserve port target
  | ledger, .release reservation, reply, ledger' => (reply, ledger') = ledger.release reservation
  | ledger, .newSource port, reply, ledger' => (reply, ledger') = ledger.newSource port
  | ledger, .dropSource port, _, ledger' => ledger' = ledger.dropSource port
  | ledger, _, _, ledger' => ledger' = ledger

abbrev Launches := Pool Request Request.Reply (Option TargetSelection) ReservationLedger Owned Rest

/-- The pools that come about from an empty one. -/
def Launches.Reachable (launches : Launches) : Prop :=
  Relation.ReflTransGen (Pool.Moves ledgerWorld own Passes Starts) ⟨{}, []⟩ launches

/-! ## The ledger is exact -/

/-- The ledger holds the reserved ports and targets, each once, and counts the source ports. -/
structure ReservationLedger.Exact (ledger : ReservationLedger) (owned : Owned) : Prop where
  ports : ledger.ports.val = owned.1.map AdapterReservation.port
  targets : ledger.targets.val = owned.1.filterMap AdapterReservation.target
  sources : ∀ port, ledger.sourcePorts.lookup port = if port ∈ owned.2 then some (owned.2.count port) else none
  disjoint : ∀ port ∈ ledger.ports, port ∉ owned.2

namespace ReservationLedger

variable {ledger ledger' : ReservationLedger} {owned : Owned}

theorem Exact.mem_ports (exact : ledger.Exact owned) {reservation : AdapterReservation} (there : reservation ∈ owned.1) :
    reservation.port ∈ ledger.ports := by
  rw [← Finset.mem_val, exact.ports]
  exact Multiset.mem_map_of_mem _ there

theorem Exact.mem_targets (exact : ledger.Exact owned) {reservation : AdapterReservation} {target : TargetKey}
    (there : reservation ∈ owned.1) (reserved : reservation.target = some target) : target ∈ ledger.targets := by
  rw [← Finset.mem_val, exact.targets]
  exact (Multiset.mem_filterMap _ _).2 ⟨reservation, there, reserved⟩

/-- A new reservation, of a port that is free and a target that is, too. -/
theorem Exact.reserve (exact : ledger.Exact owned) {port : Nat} {target : Option TargetKey}
    {reply : Option (AdapterReservation × Bool)} (reserved : (reply, ledger') = ledger.reserve port target) :
    told owned (.reserve port target) reply ∧ ledger'.Exact (own (.reserve port target) reply owned) := by
  obtain ⟨ports, targets, sources, disjoint⟩ := exact
  unfold ReservationLedger.reserve at reserved
  split at reserved
  next =>
    cases reserved
    exact ⟨trivial, ports, targets, sources, disjoint⟩
  next free =>
    rw [not_or, sources port] at free
    obtain ⟨fresh, unused⟩ := free
    have unused : port ∉ owned.2 := fun there => unused (by rw [if_pos there]; rfl)
    have apart : ∀ other ∈ insert port ledger.ports, other ∉ owned.2 := by
      intro other there
      rcases Finset.mem_insert.1 there with rfl | old
      · exact unused
      · exact disjoint other old
    have untargeted : Exact { ledger with ports := insert port ledger.ports }
        ({ port, target := none } ::ₘ owned.1, owned.2) := by
      refine ⟨?_, ?_, sources, apart⟩
      · rw [Finset.insert_val_of_notMem fresh, ports, Multiset.map_cons]
      · rw [Multiset.filterMap_cons_none _ _ rfl]
        exact targets
    cases target with
    | none =>
        cases reserved
        exact ⟨⟨rfl, nofun⟩, untargeted⟩
    | some candidate =>
        dsimp only at reserved
        split at reserved
        next =>
          cases reserved
          exact ⟨⟨rfl, fun _ => nofun⟩, untargeted⟩
        next absent =>
          cases reserved
          refine ⟨⟨rfl, nofun⟩, ?_, ?_, sources, apart⟩
          · show _ = ({ port, target := some candidate } ::ₘ owned.1).map AdapterReservation.port
            rw [Finset.insert_val_of_notMem fresh, ports, Multiset.map_cons]
          · have named : AdapterReservation.target { port, target := some candidate } = some candidate := rfl
            show _ = ({ port, target := some candidate } ::ₘ owned.1).filterMap AdapterReservation.target
            rw [Finset.insert_val_of_notMem absent, targets, Multiset.filterMap_cons_some _ _ _ named]

theorem Exact.release {rest : Multiset AdapterReservation} {sources : Multiset Nat} {reservation : AdapterReservation}
    {reply : Except PlatformFailure Unit} (exact : ledger.Exact (reservation ::ₘ rest, sources))
    (released : (reply, ledger') = ledger.release reservation) : reply = .ok () ∧ ledger'.Exact (rest, sources) := by
  have there := exact.mem_ports (Multiset.mem_cons_self reservation rest)
  have ports : (ledger.ports.erase reservation.port).val = rest.map AdapterReservation.port := by
    rw [Finset.erase_val, exact.ports, Multiset.map_cons, Multiset.erase_cons_head]
  have apart : ∀ port ∈ ledger.ports.erase reservation.port, port ∉ sources :=
    fun port left => exact.disjoint port (Finset.mem_of_mem_erase left)
  unfold ReservationLedger.release at released
  rw [if_pos there] at released
  cases target : reservation.target with
  | none =>
      rw [target] at released
      cases released
      refine ⟨rfl, ports, ?_, exact.sources, apart⟩
      have targets := exact.targets
      rwa [Multiset.filterMap_cons_none _ _ target] at targets
  | some candidate =>
      rw [target] at released
      have held := exact.mem_targets (Multiset.mem_cons_self reservation rest) target
      dsimp only at released
      rw [if_pos held] at released
      cases released
      refine ⟨rfl, ports, ?_, exact.sources, apart⟩
      rw [Finset.erase_val, exact.targets, Multiset.filterMap_cons_some _ _ _ target, Multiset.erase_cons_head]

theorem Exact.newSource (exact : ledger.Exact owned) {port : Nat} {reply : Except PlatformFailure Unit}
    (reserved : (reply, ledger') = ledger.newSource port) :
    told owned (.newSource port) reply ∧ ledger'.Exact (own (.newSource port) reply owned) := by
  unfold ReservationLedger.newSource at reserved
  split at reserved
  next =>
    cases reserved
    exact ⟨rfl, exact⟩
  next unreserved =>
    cases reserved
    refine ⟨trivial, exact.ports, exact.targets, fun other => ?_, fun other there => ?_⟩
    · rw [Table.lookup_insert_eq, exact.sources other, exact.sources port]
      show _ = if other ∈ port ::ₘ owned.2 then some ((port ::ₘ owned.2).count other) else none
      by_cases same : other = port
      · subst same
        by_cases used : other ∈ owned.2
        · simp [used]
        · simp [used, Multiset.count_eq_zero_of_notMem used]
      · simp [same]
    · show other ∉ port ::ₘ owned.2
      rw [Multiset.mem_cons, not_or]
      exact ⟨fun same => unreserved (same ▸ there), exact.disjoint other there⟩

theorem Exact.dropSource {reservations : Multiset AdapterReservation} {port : Nat} {rest : Multiset Nat}
    (exact : ledger.Exact (reservations, port ::ₘ rest)) : (ledger.dropSource port).Exact (reservations, rest) := by
  have used := exact.sources port
  rw [if_pos (Multiset.mem_cons_self port rest), Multiset.count_cons_self] at used
  have apart : ∀ other ∈ ledger.ports, other ∉ rest := fun other there left =>
    exact.disjoint other there (Multiset.mem_cons_of_mem left)
  have others {other : Nat} (differs : other ≠ port) :
      ledger.sourcePorts.lookup other = if other ∈ rest then some (rest.count other) else none := by
    rw [exact.sources other]
    simp [differs]
  unfold ReservationLedger.dropSource
  rw [used]
  dsimp only
  rw [Nat.add_sub_cancel]
  split
  next last =>
    refine ⟨exact.ports, exact.targets, fun other => ?_, apart⟩
    rw [Table.lookup_erase_eq]
    split
    next same =>
      subst same
      rw [if_neg (Multiset.count_eq_zero.1 last)]
    next differs => exact others differs
  next more =>
    refine ⟨exact.ports, exact.targets, fun other => ?_, apart⟩
    rw [Table.lookup_insert_eq]
    split
    next same =>
      subst same
      rw [if_pos (Multiset.count_ne_zero.1 more)]
    next differs => exact others differs

end ReservationLedger

/-- Every request that a task may make keeps the ledger exact, whatever the others own. -/
theorem ledger_keeping : Keeping ledgerWorld own told may ReservationLedger.Exact := by
  intro label ledger owned frame past q reply ledger' exact asks answers
  cases q with
  | reserve port target =>
      have kept := exact.reserve answers
      cases reply with
      | none => exact kept
      | some reserved =>
          refine ⟨kept.1, ?_⟩
          have split : (reserved.1 ::ₘ owned.1, owned.2) + frame = (reserved.1 ::ₘ (owned + frame).1, (owned + frame).2) :=
            Prod.ext (Multiset.cons_add _ _ _) rfl
          show ledger'.Exact ((reserved.1 ::ₘ owned.1, owned.2) + frame)
          rw [split]
          exact kept.2
  | release reservation =>
      obtain ⟨rest, whole⟩ := Multiset.exists_cons_of_mem (show reservation ∈ owned.1 from asks)
      have split : owned + frame = (reservation ::ₘ (rest + frame.1), owned.2 + frame.2) :=
        Prod.ext (by rw [Prod.fst_add, whole, Multiset.cons_add]) rfl
      rw [split] at exact
      obtain ⟨rfl, left⟩ := exact.release answers
      refine ⟨rfl, ?_⟩
      show ledger'.Exact ((owned.1.erase reservation, owned.2) + frame)
      rw [whole, Multiset.erase_cons_head]
      exact left
  | newSource port =>
      have kept := exact.newSource answers
      cases reply with
      | error failed => exact kept
      | ok _ =>
          refine ⟨trivial, ?_⟩
          have split : (owned.1, port ::ₘ owned.2) + frame = ((owned + frame).1, port ::ₘ (owned + frame).2) :=
            Prod.ext rfl (Multiset.cons_add _ _ _)
          show ledger'.Exact ((owned.1, port ::ₘ owned.2) + frame)
          rw [split]
          exact kept.2
  | dropSource port =>
      obtain ⟨rest, whole⟩ := Multiset.exists_cons_of_mem (show port ∈ owned.2 from asks)
      have split : owned + frame = (owned.1 + frame.1, port ::ₘ (rest + frame.2)) :=
        Prod.ext rfl (by rw [Prod.snd_add, whole, Multiset.cons_add])
      rw [split] at exact
      refine ⟨trivial, ?_⟩
      show ledger'.Exact ((owned.1, owned.2.erase port) + frame)
      rw [whole, Multiset.erase_cons_head, show ledger' = ledger.dropSource port from answers]
      exact exact.dropSource
  | _ =>
      have same : ledger' = ledger := answers
      subst same
      exact ⟨trivial, exact⟩

/-! ## The tasks are fine -/

/-- What a task owns, whatever it has come to. -/
def Settles : Option TargetSelection → Rest → Owned → Deeds → Prop
  | some selection, .pending pending, owned, _ => Pending selection pending owned
  | some selection, .launched io, owned, past => Lands selection (.ok io) owned past
  | some selection, .leased cleanup, owned, _ => ∃ reservation, Reserves selection reservation ∧ owned = ({reservation}, 0) ∧
      cleanup.selection = selection ∧ cleanup.owner.udid = selection.deviceSelector ∧ cleanup.reservation = some reservation
  | some selection, .settled failed, owned, past => owned.2 = 0 ∧ ∀ f, failed = some f → Settled selection f owned past
  | none, .stream port, owned, _ => owned = (0, {port})
  | none, .settled _, owned, _ => owned.2 = 0
  | _, _, _, _ => False

abbrev Task.Fine (task : Task) : Prop := Thread.Fine own told may Settles task

theorem fine_of_does {label : Option TargetSelection} {α : Type} {m : Act α} {rest : α → Rest} {owned : Owned} {past : Deeds}
    (does : Does label m (fun result owned' past' => match result with
      | .ok value => Settles label (rest value) owned' past'
      | .error failed => Settles label (.settled (some failed)) owned' past') owned past) :
    Task.Fine ⟨label, comesTo m rest, owned, past⟩ :=
  Script.safe_bind.2 (Script.Safe.mono does fun result _ _ held => by cases result <;> exact held)

theorem starts_fine {label : Option TargetSelection} {script : Script Request Request.Reply Rest}
    (starts : Starts label script) : Task.Fine ⟨label, script, 0, []⟩ := by
  cases starts with
  | beginLaunch selection deadline =>
      refine fine_of_does (beginLaunch_does.mono fun result owned' past' held => ?_)
      obtain ⟨pending, rfl, fine⟩ := held
      exact fine
  | connect rounds port deadline =>
      refine fine_of_does (Does.bind connectReservedLoopback_does (fun connection owned' past' held => ?_)
        fun failed owned' past' held => ?_)
      · obtain ⟨-, rfl⟩ := held
        have there : connection.sourcePort ∈ connection.sourcePort ::ₘ (0 : Multiset Nat) := Multiset.mem_cons_self _ _
        refine (tcpRawDuplex_does there).mono fun result owned'' past'' held => ?_
        obtain ⟨-, held⟩ := held
        cases result with
        | ok stream =>
            obtain ⟨rfl, rfl⟩ := held
            rfl
        | error failed =>
            obtain ⟨rfl, -⟩ := held
            simp [Settles]
      · obtain ⟨-, rfl, -⟩ := held
        rfl

theorem passes_passing : Passing own told may Settles Passes := by
  intro task new passes fine
  have alone {α : Type} {label : Option TargetSelection} {m : Act α} {rest : α → Rest} {owned : Owned} {past : Deeds}
      (one : Task.Fine ⟨label, comesTo m rest, owned, past⟩) :
      (∀ other ∈ [(⟨label, comesTo m rest, owned, past⟩ : Task)], Task.Fine other) ∧
        (List.map Thread.owned [(⟨label, comesTo m rest, owned, past⟩ : Task)]).sum = owned :=
    ⟨fun other there => by rw [List.mem_singleton.1 there]; exact one, by simp⟩
  cases passes with
  | @launch label pending owned past tools deadline encode connecting rounds descriptor =>
      cases label with
      | none => cases fine
      | some selection =>
          have held : Pending selection pending owned := fine
          obtain rfl := held.selected
          refine alone (fine_of_does ((launch_does held).mono fun result owned' past' lands => ?_))
          cases result with
          | ok io => exact lands
          | error failed => exact ⟨lands.1, fun f same => by cases same; exact lands.2⟩
  | @abort label pending owned past =>
      cases label with
      | none => cases fine
      | some selection =>
          have held : Pending selection pending owned := fine
          obtain rfl := held.selected
          refine alone (fine_of_does ((abort_does held).mono fun result owned' past' done => ?_))
          obtain ⟨rfl, none⟩ := done
          exact ⟨none, nofun⟩
  | @split label io owned past =>
      cases label with
      | none => cases fine
      | some selection =>
          have held : Lands selection (.ok io) owned past := fine
          obtain ⟨reservation, reserves, rfl, known⟩ := held
          refine ⟨fun other there => ?_, ?_⟩
          · rcases List.mem_cons.1 there with rfl | there
            · exact ⟨reservation, reserves, by simp, known⟩
            · rw [List.mem_singleton.1 there]
              exact rfl
          · simp
  | @cleanup label cleanup owned past tools deadline rounds =>
      cases label with
      | none => cases fine
      | some selection =>
          obtain ⟨reservation, reserves, rfl, rfl, known, reserved⟩ := fine
          refine alone (fine_of_does ((cleanup_does reserves known reserved).mono fun result owned' past' held => ?_))
          obtain ⟨none, settled⟩ := held
          cases result with
          | ok _ => exact ⟨none, nofun⟩
          | error failed => exact ⟨none, fun f same => by cases same; exact settled failed rfl⟩
  | @drop label port owned past =>
      cases label with
      | some selection => cases fine
      | none =>
          have held : owned = (0, {port}) := fine
          subst held
          refine alone (fine_of_does ((dropSource_does (Multiset.mem_singleton_self port)).mono fun result owned' past' held => ?_))
          obtain ⟨rfl, rfl, -⟩ := held
          simp [Settles]

/-! ## Every run -/

def Request.IsTool : Request → Prop
  | .tool .. => True
  | _ => False

/-- Once one task has ended with a failed cleanup, the other runs no tool for the same target. -/
def Task.Bars (one other : Task) : Prop :=
  ∀ selection selection' failed q rest, one.label = some selection → other.label = some selection' →
    TargetKey.fromSelection selection = .fromSelection selection' → one.script = .done (.settled (some failed)) →
    failed.kind = .cleanupFailed → other.script = .ask q rest → ¬ q.IsTool

/-- Of two tasks, only one can have the target. -/
theorem bars_of_sound {ledger : ReservationLedger} {one other : Task} {frame : Owned} (oneFine : one.Fine)
    (otherFine : other.Fine) (exact : ledger.Exact (one.owned + (other.owned + frame))) (held : ¬ Slipped one.past) :
    one.Bars other := by
  obtain ⟨label, script, owned, past⟩ := one
  obtain ⟨label', script', owned', past'⟩ := other
  rintro selection selection' failed q rest rfl rfl same rfl cleanup rfl tool
  obtain ⟨-, settled⟩ := oneFine
  rcases settled failed rfl cleanup with slipped | ⟨reservation, there, target⟩
  · exact held slipped
  · have asks := otherFine.1
    cases q with
    | tool =>
        obtain ⟨_, ⟨⟩, ⟨reservation', there', target'⟩, -⟩ := asks
        obtain ⟨rest, whole⟩ := Multiset.exists_cons_of_mem there
        obtain ⟨rest', whole'⟩ := Multiset.exists_cons_of_mem there'
        have targets := exact.targets
        have all : (owned + (owned' + frame)).1 = reservation ::ₘ reservation' ::ₘ (rest + (rest' + frame.1)) := by
          show owned.1 + (owned'.1 + frame.1) = _
          rw [whole, whole', Multiset.cons_add, Multiset.cons_add, Multiset.add_cons]
        have twice : (reservation ::ₘ reservation' ::ₘ (rest + (rest' + frame.1))).filterMap AdapterReservation.target =
            .fromSelection selection ::ₘ .fromSelection selection' ::ₘ
              (rest + (rest' + frame.1)).filterMap AdapterReservation.target := by
          rw [Multiset.filterMap_cons_some _ _ _ target, Multiset.filterMap_cons_some _ _ _ target']
        have nodup := ledger.targets.nodup
        rw [targets, all, twice, same] at nodup
        exact (Multiset.nodup_cons.1 nodup).1 (Multiset.mem_cons_self _ _)
    | _ => cases tool

/-- In every reachable state the ledger is exact, tasks that have ended hold no source port,
    releases work, and tools are run only under the reservation of their target; and where nobody
    has released a reservation after something had been broken, a failed cleanup keeps all others
    from running tools for its target. -/
theorem launches_share_the_ledger {launches : Launches} (reached : launches.Reachable) :
    launches.shared.Exact launches.owned ∧
    (∀ task ∈ launches.threads, ∀ failed, task.script = .done (.settled failed) → task.owned.2 = 0) ∧
    (∀ task ∈ launches.threads, ∀ reservation rest, task.script = .ask (.release reservation) rest →
      (launches.shared.release reservation).1 = .ok ()) ∧
    (∀ task ∈ launches.threads, ∀ program arguments descriptor cap cancellation deadline rest,
      task.script = .ask (.tool program arguments descriptor cap cancellation deadline) rest →
        ∃ selection, task.label = some selection ∧ Holding selection task.owned ∧
          ∃ command : SimctlCommand, command.arguments = arguments ∧ command.Names selection) ∧
    ((∀ task ∈ launches.threads, ¬ Slipped task.past) →
      launches.threads.Pairwise fun one other => Task.Bars one other ∧ Task.Bars other one) := by
  have initial : Pool.Sound own told may Settles ReservationLedger.Exact (⟨{}, []⟩ : Launches) :=
    ⟨⟨rfl, rfl, fun _ => rfl, nofun⟩, nofun⟩
  have sound := initial.run ledger_keeping passes_passing (fun _ _ => starts_fine) reached
  obtain ⟨exact, fine⟩ := sound
  refine ⟨exact, ?_, ?_, ?_, fun held => ?_⟩
  · rintro ⟨label, script, owned, past⟩ there failed rfl
    have settles : Settles label (.settled failed) owned past := fine _ there
    cases label with
    | none => exact settles
    | some selection => exact settles.1
  · rintro ⟨label, script, owned, past⟩ there reservation rest rfl
    obtain ⟨owns, -⟩ : reservation ∈ owned.1 ∧ _ := fine _ there
    obtain ⟨front, back, split⟩ := List.append_of_mem there
    obtain ⟨shared, threads⟩ := launches
    dsimp only at split
    subst split
    rw [Pool.owned_split] at exact
    exact (ledger_keeping label shared owned _ past (.release reservation) _ _ exact owns rfl).1
  · rintro ⟨label, script, owned, past⟩ there program arguments descriptor cap cancellation deadline rest rfl
    exact (fine _ there).1
  · rw [List.pairwise_iff_forall_sublist]
    intro one other sublist
    obtain ⟨rest, perm⟩ := sublist.exists_perm_append
    have whole : launches.owned = one.owned + (other.owned + (rest.map Thread.owned).sum) := by
      rw [Pool.owned, (perm.map Thread.owned).sum_eq]
      simp
    have turned : launches.owned = other.owned + (one.owned + (rest.map Thread.owned).sum) := by
      rw [whole, add_left_comm]
    have here : one ∈ launches.threads := sublist.subset List.mem_cons_self
    have there : other ∈ launches.threads := sublist.subset (List.mem_cons_of_mem _ List.mem_cons_self)
    exact ⟨bars_of_sound (fine one here) (fine other there) (whole ▸ exact) (held one here),
      bars_of_sound (fine other there) (fine one here) (turned ▸ exact) (held other there)⟩

/-! ## One run -/

/-- The app is there and nothing of it runs; `simctl launch` cannot be stopped when it is late. -/
def brokenAnswer (ledger : ReservationLedger) (q : Request) : q.Reply × ReservationLedger :=
  match q with
  | .reserve port target => ledger.reserve port target
  | .release reservation => ledger.release reservation
  | .newSource port => ledger.newSource port
  | .dropSource port => ((), ledger.dropSource port)
  | .tool _ arguments _ _ _ _ =>
      (if arguments = (SimctlCommand.launch exampleUdid exampleSelection.appId).arguments then .error (failure .cleanupFailed)
        else exampleOutput true false arguments, ledger)
  | .cancelled _ => (false, ledger)
  | .now => (some 0, ledger)
  | .prepare .. => (.ok { snapshotPath := "/s.app".toList, digest := [], executable := "x".toList }, ledger)
  | .directory path => (some path, ledger)
  | .identity .. => (.ok { startSeconds := 1, startMicroseconds := 2 }, ledger)
  | .connect .. => (.ok { sourcePort := 60000 }, ledger)
  | .bindListener => (some 50000, ledger)
  | .bindSource => (some 60000, ledger)
  | .assertSnapshotUnchanged .. | .verifyInstalled .. | .connectSource .. | .wrap | .cancelStreams => (.ok (), ledger)

theorem ledgerWorld_brokenAnswer (ledger : ReservationLedger) (q : Request) :
    ledgerWorld ledger q (brokenAnswer ledger q).1 (brokenAnswer ledger q).2 := by
  cases q <;> rfl

def exampleBegin : Script Request Request.Reply Rest :=
  comesTo (beginLaunch exampleSelection exampleDeadline) .pending

/-- A launch that has begun is launched. -/
def goOn : Script Request Request.Reply Rest → Script Request Request.Reply Rest
  | .done (.pending pending) => comesTo
      (pending.launch exampleTools exampleDeadline (connectReservedLoopback 1) (fun _ => []) 1 []) .launched
  | script => script

/-- A whole launch, followed for some requests after it has begun. -/
def exampleLaunch (fuel : Nat) (ledger : ReservationLedger) : Script Request Request.Reply Rest × ReservationLedger :=
  let begun := exampleBegin.advance brokenAnswer 30 ledger
  (goOn begun.1).advance brokenAnswer fuel begun.2

/-- A task that has ended with a failed cleanup, and one that is about to run a tool. -/
def endsBroken : Script Request Request.Reply Rest → Bool
  | .done (.settled (some failed)) => failed.kind = .cleanupFailed
  | _ => false

def runsTool : Script Request Request.Reply Rest → Bool
  | .ask (.tool ..) _ => true
  | _ => false

/-- A pool becomes another one. -/
abbrev Becomes : Launches → Launches → Prop := Relation.ReflTransGen (Pool.Moves ledgerWorld own Passes Starts)

theorem becomes_goOn {ledger : ReservationLedger} {threads : List Task} {label : Option TargetSelection}
    {script : Script Request Request.Reply Rest} {owned : Owned} {past : Deeds} :
    Becomes ⟨ledger, threads ++ [⟨label, script, owned, past⟩]⟩ ⟨ledger, threads ++ [⟨label, goOn script, owned, past⟩]⟩ := by
  cases script with
  | ask q rest => exact .refl
  | cut => exact .refl
  | done rest =>
      cases rest with
      | pending pending =>
          have passed : Becomes ⟨ledger, threads ++ [⟨label, .done (.pending pending), owned, past⟩]⟩
              ⟨ledger, threads ++ [⟨label, goOn (.done (.pending pending)), owned, past⟩] ++ []⟩ :=
            .single (.pass (.launch exampleTools exampleDeadline (fun _ => []) 1 1 []))
          rwa [List.append_nil] at passed
      | _ => exact .refl

theorem becomes_exampleLaunch (fuel : Nat) (ledger : ReservationLedger) (threads : List Task) :
    ∃ owned past, Becomes ⟨ledger, threads⟩ ⟨(exampleLaunch fuel ledger).2,
      threads ++ [⟨some exampleSelection, (exampleLaunch fuel ledger).1, owned, past⟩]⟩ := by
  have starts : Becomes ⟨ledger, threads⟩ ⟨ledger, threads ++ [⟨some exampleSelection, exampleBegin, 0, []⟩]⟩ :=
    .single (.start (.beginLaunch exampleSelection exampleDeadline))
  obtain ⟨_, _, begins⟩ := Pool.moves_advance brokenAnswer ledgerWorld_brokenAnswer 30 ledger threads []
    (some exampleSelection) exampleBegin 0 []
  obtain ⟨owned, past, launches⟩ := Pool.moves_advance brokenAnswer ledgerWorld_brokenAnswer fuel
    (exampleBegin.advance brokenAnswer 30 ledger).2 threads [] (some exampleSelection)
    (goOn (exampleBegin.advance brokenAnswer 30 ledger).1) _ _
  exact ⟨owned, past, ((starts.trans begins).trans becomes_goOn).trans launches⟩

/-- A launch has reported a failed cleanup, and another one is about to run a tool for its target. -/
theorem failed_cleanup_bars_nobody : ∃ (launches : Launches) (one other : Task) (failed : PlatformFailure) (q : Request)
    (rest : q.Reply → Script Request Request.Reply Rest), launches.Reachable ∧ launches.threads = [one, other] ∧
      one.label = some exampleSelection ∧ other.label = some exampleSelection ∧
      one.script = .done (.settled (some failed)) ∧ failed.kind = .cleanupFailed ∧ other.script = .ask q rest ∧ q.IsTool := by
  obtain ⟨_, _, first⟩ := becomes_exampleLaunch 30 {} []
  obtain ⟨_, _, second⟩ := becomes_exampleLaunch 3 (exampleLaunch 30 {}).2 _
  have broken : endsBroken (exampleLaunch 30 {}).1 := by decide +kernel
  have runs : runsTool (exampleLaunch 3 (exampleLaunch 30 {}).2).1 := by decide +kernel
  have ended : ∃ failed, (exampleLaunch 30 {}).1 = .done (.settled (some failed)) ∧ failed.kind = .cleanupFailed := by
    generalize (exampleLaunch 30 {}).1 = script at broken
    unfold endsBroken at broken
    split at broken
    next failed => exact ⟨failed, rfl, by simpa using broken⟩
    next => cases broken
  have asks : ∃ (q : Request) (rest : q.Reply → Script Request Request.Reply Rest),
      (exampleLaunch 3 (exampleLaunch 30 {}).2).1 = .ask q rest ∧ q.IsTool := by
    generalize (exampleLaunch 3 (exampleLaunch 30 {}).2).1 = script at runs
    unfold runsTool at runs
    split at runs
    next => exact ⟨_, _, rfl, trivial⟩
    next => cases runs
  obtain ⟨failed, ended, cleanup⟩ := ended
  obtain ⟨q, rest, asks, tool⟩ := asks
  exact ⟨_, _, _, failed, q, rest, first.trans second, rfl, rfl, rfl, ended, cleanup, asks, tool⟩

/-- There a reservation was released after `simctl launch` had been broken. -/
theorem reservation_slips : ∃ launches : Launches, launches.Reachable ∧ launches.shared.Exact launches.owned ∧
    ∃ task ∈ launches.threads, Slipped task.past := by
  obtain ⟨launches, one, other, failed, q, rest, reached, threads, label, label', ended, cleanup, asks, tool⟩ :=
    failed_cleanup_bars_nobody
  obtain ⟨exact, -, -, -, bars⟩ := launches_share_the_ledger reached
  refine ⟨launches, reached, exact, ?_⟩
  by_contra held
  rw [not_exists] at held
  have apart := bars fun task there slipped => held task ⟨there, slipped⟩
  rw [threads] at apart
  have barred := (List.pairwise_cons.1 apart).1 other (List.mem_singleton_self _)
  exact barred.1 _ _ failed q rest label label' rfl ended cleanup asks tool

end AppPilotKit.Adapter.Apple
