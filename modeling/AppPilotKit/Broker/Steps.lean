import AppPilotKit.Broker.Slots

/-! # The steps of the Broker

Every section is one step that its slots allow, and grants a success only on the lease that
the success is about.
-/

namespace AppPilotKit.Broker

open Wire Transport

variable {χ : Type} {core core' : Core χ} {who index : Nat}

/-! ## What a step may claim -/

/-- A lease is there that serves requests for its generation and epoch. -/
def Serves (core : Core χ) (index generation epoch checked : Nat) : Prop :=
  ∃ lease, core.lease? index = some lease ∧ lease.state = .ready ∧ lease.generation = generation ∧
    lease.epoch = epoch ∧ lease.terminalReasonAt checked = none

/-- A launch has its lease and its reference as it reserved them. -/
def Awaits (core : Core χ) (index : Nat) (token : Token) : Prop :=
  ∃ lease reference, core.lease? index = some lease ∧ lease.state = .preparing ∧
    lease.references.lookup token = some reference ∧ reference.state = .pending

/-- The generation and the epoch that a success names. -/
def ControlSuccess.Names (generation epoch : Nat) : ControlSuccess → Prop
  | .targetReady ready => ready.processGeneration = generation ∧ ready.listenerEpoch = epoch
  | .sessionOpened opened => opened.processGeneration = generation ∧ opened.listenerEpoch = epoch
  | .exchangeComplete complete => complete.processGeneration = generation ∧ complete.listenerEpoch = epoch
  | .closed _ => True

/-- A success may be granted: its lease serves, or the launch that it ends is still awaited. -/
inductive Granted (core : Core χ) (index generation epoch checked : Nat) : ControlSuccess → Prop
  | serves {success : ControlSuccess} : Serves core index generation epoch checked → success.Names generation epoch →
      Granted core index generation epoch checked success
  | launched {ready : ReadyTarget} : Awaits core index ready.targetToken →
      Granted core index generation epoch checked (.targetReady ready)

/-- The ledger of a slot has been closed and has drained. -/
def Drained (core : Core χ) (index : Nat) : Prop :=
  ∃ place, core.places[index]? = some place ∧ place.operations.accepting = false ∧ place.operations.active = 0

/-- A success that a thread may answer with: it was granted to it, or the end of a lease. -/
def Earned (core : Core χ) (who : Nat) (success : ControlSuccess) : Prop :=
  (∃ index generation epoch checked, .decided who index success generation epoch checked ∈ core.history) ∨
    ∃ index closed, success = .closed closed ∧ closed.sessionId = none ∧ .terminalized index who (.ok ()) ∈ core.history

/-- What must hold of the state in which an event happens. -/
def Warranted (core : Core χ) (who : Nat) : Event → Prop
  | .decided teller index success generation epoch checked =>
      who = teller ∧ Granted core index generation epoch checked success
  | .cleanup index .terminalReaper _ => Drained core index
  | .returned teller answer => who = teller ∧ ∀ success, answer = .ok success → Earned core who success
  | _ => True

/-- One step of a thread: what the slots allow, with every event warranted. -/
def Step (who : Nat) (core core' : Core χ) : Prop :=
  ∃ events, Lawful core events core' ∧ ∀ event ∈ events, Warranted core who event

namespace Step

theorem quiet (lawful : Lawful core [] core') : Step who core core' :=
  ⟨[], lawful, fun _ member => absurd member List.not_mem_nil⟩

theorem refl : Step who core core := quiet (.refl core)

theorem log (event : Event) (free : event.free = true) (warranted : Warranted core who event) :
    Step who core (core.log [event]) :=
  ⟨[event], .log [event] (by simp [free]), fun _ member => List.mem_singleton.mp member ▸ warranted⟩

end Step

/-- A change that goes before the event of a section. -/
theorem Lawful.logs (lawful : Lawful core [] core') (events : List Event) (free : events.all Event.free = true) :
    Lawful core events (core'.log events) := lawful.trans (.log events free)

/-! ## Steps outside the sections -/

theorem cancel_step (raws : List Nat) : Step who core (core.log (raws.map Event.cancelled)) := by
  refine ⟨_, .log _ (by simp [Event.free]), fun event member => ?_⟩
  obtain ⟨raw, -, rfl⟩ := List.mem_map.mp member
  trivial

theorem clocked_step {latest : Nat} (step : Step who core core') : Step who core (core'.clocked latest) := by
  obtain ⟨events, lawful, warranted⟩ := step
  refine ⟨events ++ [], lawful.trans (.aside rfl (List.append_nil _).symm rfl id fun _ => id), ?_⟩
  rwa [List.append_nil]

/-- A ledger that is changed as a guard drops, or as its owner is done. -/
theorem operations_step (f : OperationState → OperationState)
    (kept : ∀ o : OperationState, (f o).accepting = o.accepting ∧ (f o).active ≤ o.active) :
    Step who core (core.onOperations index f) :=
  .quiet <| .keeps _ fun place _ =>
    .of_ledger rfl rfl fun closed => ⟨(kept place.operations).1.trans closed, (kept place.operations).2⟩

theorem leave_kept (id : Nat) (o : OperationState) :
    (o.leave id).accepting = o.accepting ∧ (o.leave id).active ≤ o.active := ⟨rfl, List.length_filter_le ..⟩

theorem tombstone_lawful (key : PrepareKey) (cleanupFailed : Bool) :
    Lawful core [] (core.tombstone key cleanupFailed) := by
  unfold Core.tombstone
  split
  · refine .aside rfl (List.append_nil _).symm rfl id fun selection had => ?_
    rw [Dict.lookup_insert_eq]
    split
    · rfl
    · exact had
  · exact .refl core

theorem prune_step (current : Nat) : Step who core (core.prune current) := by
  refine .quiet (.all (fun place => { place with lease := place.lease.map (·.prune current) }) (fun place => ?_) rfl rfl rfl
    rfl)
  refine .of_lease rfl rfl fun lease' there => ?_
  obtain ⟨lease, here, rfl⟩ := Option.map_eq_some_iff.mp there
  exact ⟨lease, here, lease.prune_keeps current⟩

/-! ## Prepare -/

theorem findIdx?_none {α : Type} {l : List α} {p : α → Bool} (none : l.findIdx? p = none) (a : α) (member : a ∈ l) :
    p a = false := List.findIdx?_eq_none_iff.mp none a member

theorem indexOf?_none {key : PrepareKey} {p : LeaseState → Bool} (none : core.indexOf? key p = none) {place : Place χ}
    (member : place ∈ core.places) {lease : Lease χ} (has : place.lease = some lease) (same : lease.key = key) :
    p lease.state = false := by
  have apart := findIdx?_none none place member
  rw [has] at apart
  simpa [same] using apart

theorem indexOf?_lease {key : PrepareKey} {p : LeaseState → Bool} (found : core.indexOf? key p = some index) :
    ∃ lease, core.lease? index = some lease ∧ p lease.state = true := by
  obtain ⟨inside, holds, -⟩ := List.findIdx?_eq_some_iff_getElem.mp found
  obtain ⟨lease, has, both⟩ := (Option.any_eq_true ..).mp holds
  rw [Bool.and_eq_true] at both
  refine ⟨lease, ?_, both.2⟩
  unfold Core.lease?
  rw [List.getElem?_eq_getElem inside]
  exact has

theorem reservedPlace_due (key : PrepareKey) (token : Token) (leaseId : LeaseId) (started deadline : Nat) (use : Use)
    (other : Token) : (reservedPlace (reservedLease key token leaseId started deadline : Lease χ)).due use other ≤
      [Event.drew token].countP (·.draws other) := by
  rcases Nat.eq_zero_or_pos ((reservedPlace (reservedLease key token leaseId started deadline : Lease χ)).due use other) with
    none | due
  · rw [none]
    exact Nat.zero_le _
  obtain ⟨_, has, reference, found, -⟩ := Place.due_pos.mp due
  cases has
  change ((∅ : Dict Token Reference).insert token _).lookup other = _ at found
  rw [Dict.lookup_insert_eq] at found
  split at found
  · rename_i same
    have once : [Event.drew token].countP (·.draws other) = 1 := by simp [Event.draws, same]
    rw [once]
    exact Place.due_le_one _ use other
  · cases found

theorem route_step (digests : Digests) (request : Request PrepareBody) (started deadline limit : Nat) (input : Input χ) :
    Step who core (core.route digests request started deadline limit input).1 := by
  unfold Core.route
  dsimp only
  split
  · exact .refl
  rename_i unlike
  split
  · exact .refl
  rename_i clear
  split
  · exact .refl
  rename_i up
  split
  · rename_i index ready
    obtain ⟨lease, found, state⟩ := indexOf?_lease ready
    rw [found]
    dsimp only
    split
    · exact .quiet (.setLease found (Lease.sealFor_keeps (of_decide_eq_true state) _))
    · exact .refl
  rename_i unready
  split
  · exact .refl
  split
  · exact .refl
  rename_i none
  split
  · exact .refl
  · exact .refl
  rename_i token leaseId _ _ _
  refine ⟨[.drew token], .reserve rfl rfl rfl (Bool.not_eq_true _ ▸ up) clear ?_ ?_, fun event member => ?_⟩
  · intro place member lease has same
    have unlike : ¬core.conflicts (PrepareKey.new request.body) := unlike
    have digest : lease.key.digest = (PrepareKey.new request.body).digest := by
      by_contra differs
      refine unlike (List.any_eq_true.mpr ⟨place, member, ?_⟩)
      rw [has, Option.any_some, Bool.and_eq_true, decide_eq_true_eq, decide_eq_true_eq]
      exact ⟨same, differs⟩
    have key : lease.key = PrepareKey.new request.body := PrepareKey.ext_selection same digest
    have absent : core.indexOf? (PrepareKey.new request.body) (· ≠ .ready) = Option.none := by
      by_contra some
      obtain ⟨at_, found⟩ := Option.ne_none_iff_exists'.mp some
      obtain ⟨_, there, -⟩ := indexOf?_lease found
      rw [found] at none
      change core.lease? at_ = Option.none at none
      rw [there] at none
      cases none
    have not_ready := indexOf?_none unready member has key
    have ready := indexOf?_none absent member has key
    simp only [ne_eq, decide_not, Bool.not_eq_false', decide_eq_true_eq, decide_eq_false_iff_not] at ready not_ready
    exact not_ready ready
  · exact reservedPlace_due _ _ _ _ _
  · rw [List.mem_singleton.mp member]
    trivial

theorem lease_keeps {lease lease' : Lease χ} {place : Place χ} (has : place.lease = some lease) (kept : lease.Keeps lease') :
    place.Keeps { place with lease := some lease' } :=
  .of_lease rfl rfl fun _ after => ⟨lease, has, Option.some.inj after ▸ kept⟩

/-- A success that a thread has been granted. -/
def Told (core : Core χ) (who : Nat) (success : ControlSuccess) : Prop :=
  ∃ index generation epoch checked, .decided who index success generation epoch checked ∈ core.history

theorem told_log {success : ControlSuccess} {generation epoch checked : Nat} {events : List Event}
    (decided : .decided who index success generation epoch checked ∈ events) : Told (core.log events) who success :=
  ⟨index, generation, epoch, checked, List.mem_append_right _ decided⟩

/-- A section that grants a success. -/
theorem Step.grant {success : ControlSuccess} {generation epoch checked : Nat} (lawful : Lawful core [] core')
    (granted : Granted core index generation epoch checked success) :
    Step who core (core'.log [.decided who index success generation epoch checked]) :=
  ⟨_, lawful.logs _ rfl, fun _ member => List.mem_singleton.mp member ▸ ⟨rfl, granted⟩⟩

theorem reuse_step (key : PrepareKey) (current : Nat) (input : Input χ) :
    Step who core (core.reuse who index key current input).1 ∧
      ∀ ready, (core.reuse who index key current input).2 = .answered (.ok ready) →
        Told (core.reuse who index key current input).1 who (.targetReady ready) := by
  unfold Core.reuse
  split
  · exact ⟨.refl, fun _ answer => by cases answer⟩
  rename_i lease found
  split
  · exact ⟨.refl, fun _ answer => by cases answer⟩
  rename_i serves
  split
  · exact ⟨.refl, fun _ answer => by cases answer⟩
  rename_i live
  split
  · exact ⟨.refl, fun _ answer => by cases answer⟩
  · exact ⟨.refl, fun _ answer => by cases answer⟩
  rename_i token _ expires _ _
  obtain ⟨place, there, has⟩ := Lawful.lease_place found
  dsimp only
  refine ⟨⟨_, Lawful.place _ _ there ?_ (fun use other => ?_) fun other => ?_, ?_⟩, fun ready answer => ?_⟩
  · refine ⟨rfl, fun _ after => ⟨lease, has, ?_⟩, fun closed => ⟨closed, le_rfl⟩⟩
    cases after
    exact .of_mark rfl
  · by_cases same : token = other
    · subst same
      have one := Place.due_le_one { place with lease := some (lease.mintReference token current expires) } use token
      simp only [Event.uses, Event.draws, List.countP_cons, List.countP_nil]
      simp
      omega
    · have kept : Place.due use other { place with lease := some (lease.mintReference token current expires) } =
          place.due use other := by
        simp only [Place.due, has, Lease.mintReference, Option.any_some, Dict.lookup_insert_eq, if_neg (Ne.symm same)]
      rw [kept]
      simp [Event.uses]
  · simp [Event.seals, Place.gate]
  · have ready : lease.state = .ready := by
      by_contra other
      exact serves (.inr other)
    simp only [List.mem_cons, List.not_mem_nil, or_false, forall_eq_or_imp, forall_eq]
    exact ⟨trivial, rfl, .serves ⟨lease, found, ready, rfl, rfl, live⟩ ⟨rfl, rfl⟩⟩
  · cases answer
    exact told_log (List.mem_cons_of_mem _ (List.mem_singleton.mpr rfl))

theorem commit_step (r : Reservation) (prepared : Prepared χ) (completed expires : Nat) :
    Step who core (core.commit who r prepared completed expires).1 ∧
      ∀ ready, (core.commit who r prepared completed expires).2 = some ready →
        Told (core.commit who r prepared completed expires).1 who (.targetReady ready) := by
  unfold Core.commit
  split
  · exact ⟨.refl, fun _ answer => by cases answer⟩
  rename_i lease found
  split
  · exact ⟨.refl, fun _ answer => by cases answer⟩
  rename_i awaited
  split
  · exact ⟨.refl, fun _ answer => by cases answer⟩
  rename_i reference held
  obtain ⟨held, pending⟩ := Option.filter_eq_some_iff.mp held
  have preparing : lease.state = .preparing := by
    by_contra other
    exact awaited (.inr other)
  obtain ⟨place, there, has⟩ := Lawful.lease_place found
  refine ⟨.grant (.keeps _ fun other here => ?_) (.launched ⟨lease, reference, found, preparing, held, of_decide_eq_true pending⟩),
    fun ready answer => ?_⟩
  · rw [there] at here
    cases here
    refine ⟨rfl, fun _ after => ⟨lease, has, ?_⟩, fun closed => ⟨closed, List.length_filter_le ..⟩⟩
    cases after
    exact Lease.commitLaunch_keeps _ _ _ preparing held (of_decide_eq_true pending)
  · cases answer
    exact told_log (List.mem_singleton.mpr rfl)

theorem rejectWithCleanup_step (r : Reservation) (reason : CloseReason) (cleanupFailed : Bool) :
    Step who core (core.rejectWithCleanup r reason cleanupFailed) := by
  refine .quiet ((Lawful.keeps _ fun place _ => ?_).trans (tombstone_lawful _ _))
  refine .of_lease rfl rfl fun lease' there => ?_
  obtain ⟨lease, here, rfl⟩ := Option.map_eq_some_iff.mp there
  exact ⟨lease, here, lease.reject_keeps _ _⟩

theorem reapLate_step (key : PrepareKey) (cleanupFailed : Bool) : Step who core (core.reapLate index key cleanupFailed) := by
  refine .quiet ((Lawful.keeps _ fun place _ => ?_).trans (tombstone_lawful _ _))
  refine .of_lease rfl rfl fun lease' there => ?_
  obtain ⟨lease, here, rfl⟩ := Option.map_eq_some_iff.mp there
  exact ⟨lease, (Option.filter_eq_some_iff.mp here).1, lease.staleReferences_keeps⟩

/-! ## Sessions -/

theorem enter_accepting {o o' : OperationState} {operation : Nat} (entered : o.enter = .ok (operation, o')) :
    o.accepting = true := by
  unfold OperationState.enter at entered
  split at entered
  · cases entered
  · rename_i closed
    simpa using closed

theorem leaseOf?_lease {token : Token} {lease : Lease χ} (found : core.leaseOf? token = some (index, lease)) :
    core.lease? index = some lease := by
  obtain ⟨_, -, mapped⟩ := Option.bind_eq_some_iff.mp found
  obtain ⟨_, there, same⟩ := Option.map_eq_some_iff.mp mapped
  cases same
  exact there

theorem matchOpen_step (token : Token) (id : String) (current : Nat) (input : Input χ) :
    Step who core (core.matchOpen who token id current input).1 ∧
      ∀ at_ success, (core.matchOpen who token id current input).2 = .admitted at_ success →
        Told (core.matchOpen who token id current input).1 who success := by
  unfold Core.matchOpen
  split
  · exact ⟨.refl, fun _ _ answer => by cases answer⟩
  rename_i at_ lease named
  have found := leaseOf?_lease named
  split
  · exact ⟨.refl, fun _ _ answer => by cases answer⟩
  rename_i live
  split
  · exact ⟨.refl, fun _ _ answer => by cases answer⟩
  rename_i ready
  split
  · exact ⟨.refl, fun _ _ answer => by cases answer⟩
  split
  · exact ⟨.refl, fun _ _ answer => by cases answer⟩
  split
  · exact ⟨.refl, fun _ _ answer => by cases answer⟩
  refine ⟨.grant (.setLease found (.of_mark rfl rfl)) (.serves ⟨lease, found, not_not.mp ready, rfl, rfl, live⟩ ⟨rfl, rfl⟩),
    fun _ _ answer => ?_⟩
  cases answer
  exact told_log (List.mem_singleton.mpr rfl)

theorem redeem_step (token : Token) (current deadline : Nat) : Step who core (core.redeem token current deadline).1 := by
  unfold Core.redeem
  split
  · exact .refl
  rename_i at_ lease named
  have found := leaseOf?_lease named
  split
  · exact .refl
  split
  · exact .refl
  split
  · exact .refl
  rename_i reference usable
  obtain ⟨held, both⟩ := Option.filter_eq_some_iff.mp usable
  have minted : reference.state = .minted := of_decide_eq_true (Bool.and_eq_true _ _ ▸ both).1
  have kept := Lease.redeem_keeps held minted
  split
  · exact .refl
  rename_i operation operations entered
  have accepting := enter_accepting entered
  dsimp only
  split
  · refine .quiet (.setEntered _ found (Lease.onReference_keeps fun other here => ?_) accepting)
    rw [held] at here
    cases here
    rw [minted]
    exact Nat.le_succ _
  split
  · exact .quiet (.setEntered _ found kept accepting)
  split
  · exact .quiet (.setEntered _ found kept accepting)
  obtain ⟨place, there, has⟩ := Lawful.lease_place found
  have keeps : place.Keeps { place with lease := some (lease.redeem token), operations } := by
    refine ⟨rfl, fun _ after => ⟨lease, has, Option.some.inj after ▸ kept⟩, fun closed => ?_⟩
    unfold Core.operations at accepting
    rw [there, Option.map_some, Option.getD_some, closed] at accepting
    cases accepting
  refine ⟨_, Lawful.use .redeem token [] there keeps ?_ ?_ (fun use' token' used => ?_)
    (fun _ => rfl) rfl, fun event member => ?_⟩
  · refine Place.due_pos.mpr ⟨lease, has, reference, held, ?_⟩
    rw [minted]
    exact Nat.lt_succ_self _
  · refine Nat.eq_zero_of_not_pos fun due => ?_
    obtain ⟨_, same, reference', found', early⟩ := Place.due_pos.mp due
    cases same
    change (lease.references.adjust token _).lookup token = _ at found'
    rw [Dict.lookup_adjust, if_pos rfl, held] at found'
    cases found'
    exact absurd early (lt_irrefl _)
  · cases use' with
    | redeem => exact ⟨rfl, (of_decide_eq_true used).symm⟩
    | insert => cases used
  · rw [List.mem_singleton.mp member]
    trivial

theorem commitSession_step (digests : Digests) (token : Token) (redemption : Redemption)
    (result : Except TransportFailure OpenedSession) (input : Input χ) :
    Step who core (core.commitSession who digests token index redemption result input).1 ∧
      ∀ success, (core.commitSession who digests token index redemption result input).2 = .answered (.ok success) →
        Told (core.commitSession who digests token index redemption result input).1 who success := by
  unfold Core.commitSession
  split
  · exact ⟨.refl, fun _ answer => by cases answer⟩
  split
  · exact ⟨.refl, fun _ answer => by cases answer⟩
  rename_i lease found
  split
  · refine ⟨?_, fun _ answer => by cases answer⟩
    cases result with
    | error error => exact cancel_step []
    | ok opened => exact cancel_step [opened.raw]
  rename_i live
  split
  · exact ⟨.quiet (.setLease found (lease.staleReference_keeps token)), fun _ answer => by cases answer⟩
  rename_i opened
  split
  · refine ⟨⟨_, (Lawful.setLease found (lease.staleReference_keeps token)).logs _ rfl, fun event member => ?_⟩,
      fun _ answer => by cases answer⟩
    rw [List.mem_singleton.mp member]
    trivial
  rename_i serves
  split
  · exact ⟨.refl, fun _ answer => by cases answer⟩
  rename_i reference held
  obtain ⟨held, both⟩ := Option.filter_eq_some_iff.mp held
  have redeeming : reference.state = .redeeming := of_decide_eq_true (Bool.and_eq_true _ _ ▸ both).1
  have consumed : lease.Keeps (lease.consume token) := Lease.onReference_keeps fun other here => by
    rw [held] at here
    cases here
    rw [redeeming]
    exact Nat.le_succ _
  split
  · exact ⟨.quiet (.setLease found consumed), fun _ answer => by cases answer⟩
  rename_i last _
  obtain ⟨place, there, has⟩ := Lawful.lease_place found
  -- the section marks the reference as consumed and inserts its session
  have insert {lease' : Lease χ} (rest : List Event) (same : lease'.references = (lease.consume token).references)
      (kept : lease.Keeps lease') (free : rest.all Event.free = true) :
      Lawful core (.inserted index token redemption.slot :: rest)
        ((core.setLease index lease').log (.inserted index token redemption.slot :: rest)) := by
    refine Lawful.use .insert token rest there (lease_keeps has kept) ?_ ?_ (fun use' token' used => ?_)
      (fun _ => rfl) free
    · refine Place.due_pos.mpr ⟨lease, has, reference, held, ?_⟩
      rw [redeeming]
      exact Nat.lt_succ_self _
    · refine Nat.eq_zero_of_not_pos fun due => ?_
      obtain ⟨_, after, reference', found', early⟩ := Place.due_pos.mp due
      cases after
      rw [same] at found'
      change (lease.references.adjust token _).lookup token = _ at found'
      rw [Dict.lookup_adjust, if_pos rfl, held] at found'
      cases found'
      exact absurd early (lt_irrefl _)
    · cases use' with
      | redeem => cases used
      | insert => exact ⟨rfl, (of_decide_eq_true used).symm⟩
  dsimp only
  split
  · refine ⟨⟨_, insert [] rfl (consumed.trans (.of_mark rfl rfl)) rfl, fun event member => ?_⟩, fun _ answer => by cases answer⟩
    rw [List.mem_singleton.mp member]
    trivial
  · refine ⟨⟨_, insert [_] rfl (consumed.trans (.of_mark rfl rfl)) rfl, ?_⟩, fun success answer => ?_⟩
    · have ready : lease.state = .ready := by
        by_contra other
        exact serves (.inl other)
      simp only [List.mem_cons, List.not_mem_nil, or_false, forall_eq_or_imp, forall_eq]
      exact ⟨trivial, rfl, .serves ⟨lease, found, ready, rfl, rfl, live⟩ ⟨rfl, rfl⟩⟩
    · cases answer
      exact told_log (List.mem_cons_of_mem _ (List.mem_singleton.mpr rfl))

theorem borrow_step (stage : ErrorStage) (token : Token) (id : String) (generation epoch : Nat) (withReader : Bool)
    (current deadline : Nat) : Step who core (core.borrow stage token id generation epoch withReader current deadline).1 := by
  unfold Core.borrow
  split
  · exact .refl
  rename_i at_ lease named
  have found := leaseOf?_lease named
  split
  · exact .refl
  split
  · exact .refl
  split
  · exact .refl
  rename_i slot _
  split
  · exact .refl
  rename_i entered
  have accepting := enter_accepting entered
  have bound := lease.bindSession_keeps token slot id
  split
  · dsimp only
    split
    · exact .quiet (.setEntered _ found bound accepting)
    have read := bound.trans (Lease.onSession_keeps _ slot fun session =>
      { session with reader := session.reader && !withReader })
    split
    · exact .quiet (.setEntered _ found read accepting)
    have taken := read.trans (Lease.onSession_keeps _ slot fun session => { session with crypto := false })
    split
    · exact .quiet (.setEntered _ found taken accepting)
    · exact .quiet (.setEntered _ found taken accepting)
  · exact .log _ rfl trivial

theorem completeExchange_step (digests : Digests) (body : ExchangeBody) (b : Borrowed)
    (result : Except TransportFailure Bytes) (input : Input χ) :
    Step who core (core.completeExchange who digests body index b result input).1 ∧
      ∀ success, (core.completeExchange who digests body index b result input).2 = .answered (.ok success) →
        Told (core.completeExchange who digests body index b result input).1 who success := by
  unfold Core.completeExchange
  split
  · exact ⟨.refl, fun _ answer => by cases answer⟩
  rename_i lease found
  split
  · exact ⟨.refl, fun _ answer => by cases answer⟩
  split
  · exact ⟨.log _ rfl trivial, fun _ answer => by cases answer⟩
  rename_i live
  split
  · exact ⟨.log _ rfl trivial, fun _ answer => by cases answer⟩
  rename_i serves
  split
  · exact ⟨.refl, fun _ answer => by cases answer⟩
  · split
    · exact ⟨.quiet (.setLease found (lease.giveBack_keeps b.slot)), fun _ answer => by cases answer⟩
    · have kept (last : Nat) := (lease.giveBack_keeps b.slot).trans (Lease.used_keeps _ b.slot last)
      refine ⟨.grant (.setLease found (kept _)) (.serves ⟨lease, found, ?_⟩ ?_), fun _ answer => ?_⟩
      · push Not at serves
        exact ⟨serves.1, serves.2.1, serves.2.2, live⟩
      · push Not at serves
        exact serves.2
      · cases answer
        exact told_log (List.mem_singleton.mpr rfl)
  · split
    · exact ⟨⟨_, .log _ rfl, by simp [Warranted]⟩, fun _ answer => by cases answer⟩
    dsimp only
    split
    · refine ⟨⟨_, (Lawful.setLease found (lease.nameReference_keeps body.targetToken body.sessionId)).logs _ rfl, by simp [Warranted]⟩, fun _ answer => ?_⟩
      cases answer
    split
    · refine ⟨⟨_, (Lawful.setLease found (lease.nameReference_keeps body.targetToken body.sessionId)).logs _ rfl, by simp [Warranted]⟩, fun _ answer => ?_⟩
      cases answer
    · refine ⟨⟨_, (Lawful.setLease found (lease.removeSession_keeps body.targetToken body.sessionId _ b.slot)).logs _ rfl, by simp [Warranted]⟩, fun _ answer => ?_⟩
      cases answer

theorem completeClose_step (body : CloseSessionBody) (b : Borrowed) (result : Except TransportFailure Unit)
    (input : Input χ) :
    Step who core (core.completeClose who body index b result input).1 ∧
      ∀ success, (core.completeClose who body index b result input).2 = .answered (.ok success) →
        Told (core.completeClose who body index b result input).1 who success := by
  unfold Core.completeClose
  split
  · exact ⟨.refl, fun _ answer => by cases answer⟩
  split
  · exact ⟨.refl, fun _ answer => by cases answer⟩
  rename_i lease found
  split
  · exact ⟨.log _ rfl trivial, fun _ answer => by cases answer⟩
  rename_i live
  split
  · exact ⟨.refl, fun _ answer => by cases answer⟩
  rename_i serves
  split
  · exact ⟨.refl, fun _ answer => by cases answer⟩
  dsimp only
  split
  · exact ⟨.quiet (.setLease found (lease.nameReference_keeps body.targetToken body.sessionId)), fun _ answer => by cases answer⟩
  split
  · exact ⟨.quiet (.setLease found (lease.nameReference_keeps body.targetToken body.sessionId)), fun _ answer => by cases answer⟩
  have gone (expires slot : Nat) :=
    Lawful.setLease found (lease.removeSession_keeps body.targetToken body.sessionId expires slot)
  split
  · push Not at serves
    refine ⟨.grant (gone _ _) (.serves ⟨lease, found, serves.1, serves.2.1, serves.2.2, live⟩ trivial), fun _ answer => ?_⟩
    cases answer
    exact told_log (List.mem_singleton.mpr rfl)
  · exact ⟨.quiet (gone _ _), fun _ answer => by cases answer⟩

/-! ## Maintenance and heartbeats -/

theorem expire_step (slot : Nat) : Step who core (core.expire index slot).1 := by
  unfold Core.expire
  split
  · exact .refl
  rename_i lease ready
  split
  · exact .refl
  split
  · exact .refl
  rename_i entered
  exact .quiet (.setEntered _ (Option.filter_eq_some_iff.mp ready).1 (.of_mark rfl rfl) (enter_accepting entered))

theorem completeExpire_step (b : Borrowed) (id : Option String) (input : Input χ) :
    Step who core (core.completeExpire index b id input).1 := by
  unfold Core.completeExpire
  split
  · exact .refl
  rename_i lease found
  split
  · dsimp only
    split
    · exact .quiet (.setLease found (lease.nameReference_keeps _ _))
    split
    · exact .quiet (.setLease found (lease.nameReference_keeps _ _))
    · exact .quiet (.setLease found (lease.removeSession_keeps ..))
  · exact .quiet (.setLease found (.of_mark rfl rfl))

theorem takeControl_step (deadline : Nat) : Step who core (core.takeControl index deadline).1 := by
  unfold Core.takeControl
  split
  · exact .refl
  rename_i lease ready
  have found := (Option.filter_eq_some_iff.mp ready).1
  split
  · exact .refl
  rename_i entered
  have accepting := enter_accepting entered
  dsimp only
  split
  · exact .quiet (.setEntered _ found (.of_mark rfl rfl) accepting)
  split
  · exact .quiet (.setEntered _ found (.of_mark rfl rfl) accepting)
  split
  · exact .quiet (.setEntered _ found (.of_mark rfl rfl) accepting)
  · exact .quiet (.setEntered _ found (.of_mark rfl rfl) accepting)

theorem faultHeartbeat_step (crypto : χ) (error : TransportFailure) :
    Step who core (core.faultHeartbeat index crypto error).1 := by
  unfold Core.faultHeartbeat
  split
  · exact .refl
  rename_i lease found
  split
  · have back := lease.giveControlBack_keeps crypto
    exact .quiet (.setLease found { back with handoff := fun possible => if_pos (.inl possible) })
  · exact .refl

theorem succeedHeartbeat_step (crypto : χ) (counter : Nat) (input : Input χ) :
    Step who core (core.succeedHeartbeat index crypto counter input).1 := by
  unfold Core.succeedHeartbeat
  split
  · exact .refl
  rename_i lease ready
  have found := (Option.filter_eq_some_iff.mp ready).1
  dsimp only
  split
  · exact .quiet (.setLease found (.of_mark rfl rfl))
  split
  · exact .quiet (.setLease found (.of_mark rfl rfl))
  split
  · exact .quiet (.setLease found (.of_mark rfl rfl))
  · exact .quiet (.setLease found (.of_mark rfl rfl))

theorem missHeartbeat_step (crypto : χ) (deadline : Nat) : Step who core (core.missHeartbeat index crypto deadline).1 := by
  unfold Core.missHeartbeat
  split
  · exact .refl
  rename_i lease ready
  exact .quiet (.setLease (Option.filter_eq_some_iff.mp ready).1 (.of_mark rfl rfl))

/-! ## The end of a lease -/

/-- The thread that seals a lease closes its ledger. -/
theorem sealLease_step (reason : CloseReason) (expires : Nat) :
    Step who core (core.sealLease who index reason expires).1 ∧
      ∀ key links, (core.sealLease who index reason expires).2 = .owner key links →
        ((core.sealLease who index reason expires).1.operations index).accepting = false := by
  unfold Core.sealLease
  split
  · exact ⟨.refl, fun _ _ owner => by cases owner⟩
  rename_i lease found
  split
  · exact ⟨.refl, fun _ _ owner => by cases owner⟩
  rename_i open_
  obtain ⟨place, there, has⟩ := Lawful.lease_place found
  have accepting : place.operations.accepting = true := by
    unfold Core.operations at open_
    simpa [there] using open_
  have keeps : place.Keeps { place with
      lease := some (lease.terminalize reason expires), operations := { place.operations with accepting := false } } := by
    refine ⟨rfl, fun _ after => ⟨lease, has, ?_⟩, fun closed => ?_⟩
    · cases after
      exact lease.terminalize_keeps reason expires
    · rw [accepting] at closed
      cases closed
  refine ⟨⟨_, Lawful.place _ _ there keeps.later (fun use token => ?_) fun other => ?_, ?_⟩, fun _ _ _ => ?_⟩
  · simpa [Event.uses, Event.draws] using keeps.due_le use token
  · by_cases same : index = other
    · simp [Event.seals, Place.gate, same, accepting]
    · simp [Event.seals, same, Ne.symm same]
  · simp [Warranted]
  · change (((core.places.modify index _)[index]?.map Place.operations).getD {}).accepting = false
    simp [there]

theorem takeReap_step (key : PrepareKey) : Step who core (core.takeReap index key).1 := by
  unfold Core.takeReap
  split
  · exact .refl
  rename_i lease found
  split
  · exact .refl
  · exact .quiet (.setLease found (.of_mark rfl rfl))

theorem emptySlot_step (key : PrepareKey) (tokens : List (Token × Nat)) (result : Except CloseReason Unit) :
    Step who core (core.emptySlot index key tokens result) := by
  have stale : Lawful core [] { core with
      staleTokens := tokens.foldl (fun (stale : Dict Token Nat) entry => stale.insert entry.1 entry.2) core.staleTokens } :=
    .aside rfl (List.append_nil _).symm rfl id fun _ => id
  refine .quiet ((stale.trans (.keeps _ fun place _ => ?_)).trans (tombstone_lawful _ _))
  exact .of_lease rfl rfl fun lease' there => ⟨lease', (Option.filter_eq_some_iff.mp there).1, .refl lease'⟩

end AppPilotKit.Broker
