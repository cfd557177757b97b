import AppPilotKit.Broker.Calls

/-! # How the slots of the Broker move on

Between two states of a run a slot keeps its key, its lease only moves on or goes, and a
ledger that has been closed stays closed and only drains. What is done at most once, the
redemption of a reference, the insertion of its session and the seal of a lease, is paid
for from the state.
-/

namespace AppPilotKit.Broker

open Wire Transport

variable {χ : Type}

/-! ## Leases -/

def LeaseState.rank : LeaseState → Nat
  | .preparing => 0
  | .ready => 1
  | .stale => 2
  | .closing => 3

def RefState.rank : RefState → Nat
  | .pending => 0
  | .minted => 1
  | .redeeming => 2
  | .consumed => 3
  | .stale => 4

theorem LeaseState.rank_le (state : LeaseState) : state.rank ≤ LeaseState.closing.rank := by cases state <;> decide

theorem LeaseState.rank_reject (state : LeaseState) :
    state.rank ≤ (if state = .closing then LeaseState.closing else .stale).rank := by cases state <;> decide

theorem RefState.rank_le (state : RefState) : state.rank ≤ RefState.stale.rank := by cases state <;> decide

/-- A lease that has moved on. It takes its binding once, when it becomes ready, and its
    first reason to end stands once it is stale. -/
structure Lease.Advances (lease lease' : Lease χ) : Prop where
  key : lease'.key = lease.key
  leaseId : lease'.leaseId = lease.leaseId
  state : lease.state.rank ≤ lease'.state.rank
  binding : 0 < lease.state.rank → lease'.binding = lease.binding
  reason : 2 ≤ lease.state.rank → ∀ reason, lease.terminalReason = some reason → lease'.terminalReason = some reason
  handoff : lease.handoff = .handoffPossibleOrConfirmed → lease'.handoff = .handoffPossibleOrConfirmed

/-- A lease that has moved on with no new reference, and whose references have only moved
    on as well. -/
structure Lease.Keeps (lease lease' : Lease χ) : Prop extends lease.Advances lease' where
  references : ∀ token (reference' : Reference), lease'.references.lookup token = some reference' →
    ∃ reference, lease.references.lookup token = some reference ∧ reference.state.rank ≤ reference'.state.rank

namespace Lease

/-- All that a lease is followed by, its references aside. -/
def mark (lease : Lease χ) : PrepareKey × LeaseId × LeaseState × SessionBinding × Option CloseReason × HandoffState :=
  (lease.key, lease.leaseId, lease.state, lease.binding, lease.terminalReason, lease.handoff)

variable {lease lease' lease'' : Lease χ}

theorem Advances.trans (first : lease.Advances lease') (second : lease'.Advances lease'') : lease.Advances lease'' where
  key := second.key.trans first.key
  leaseId := second.leaseId.trans first.leaseId
  state := first.state.trans second.state
  binding bound := (second.binding (bound.trans_le first.state)).trans (first.binding bound)
  reason ended reason given := second.reason (ended.trans first.state) reason (first.reason ended reason given)
  handoff possible := second.handoff (first.handoff possible)

theorem Keeps.trans (first : lease.Keeps lease') (second : lease'.Keeps lease'') : lease.Keeps lease'' where
  toAdvances := first.toAdvances.trans second.toAdvances
  references token reference'' found := by
    obtain ⟨reference', there, later⟩ := second.references token reference'' found
    obtain ⟨reference, here, earlier⟩ := first.references token reference' there
    exact ⟨reference, here, earlier.trans later⟩

theorem Advances.of_mark (same : lease'.mark = lease.mark) : lease.Advances lease' := by
  unfold mark at same
  simp only [Prod.mk.injEq] at same
  obtain ⟨key, leaseId, state, binding, reason, handoff⟩ := same
  exact ⟨key, leaseId, state ▸ le_rfl, fun _ => binding, fun _ _ had => reason.trans had, fun possible => handoff.trans possible⟩

theorem Keeps.of_mark (same : lease'.mark = lease.mark) (references : lease'.references = lease.references) :
    lease.Keeps lease' where
  toAdvances := .of_mark same
  references _ reference' found := ⟨reference', references ▸ found, le_rfl⟩

theorem Keeps.refl (lease : Lease χ) : lease.Keeps lease := .of_mark rfl rfl

theorem prune_keeps (lease : Lease χ) (current : Nat) : lease.Keeps (lease.prune current) where
  toAdvances := .of_mark rfl
  references _ reference' found := ⟨reference', (Dict.lookup_retain.mp found).1, le_rfl⟩

theorem onReference_keeps {token : Token} {f : Reference → Reference}
    (later : ∀ reference, lease.references.lookup token = some reference → reference.state.rank ≤ (f reference).state.rank) :
    lease.Keeps (lease.onReference token f) where
  toAdvances := .of_mark rfl
  references other reference' found := by
    unfold onReference at found
    rw [Dict.lookup_adjust] at found
    split at found
    · rename_i same
      subst same
      obtain ⟨reference, here, rfl⟩ := Option.map_eq_some_iff.mp found
      exact ⟨reference, here, later reference here⟩
    · exact ⟨reference', found, le_rfl⟩

theorem staleReferences_keeps (lease : Lease χ) : lease.Keeps lease.staleReferences where
  toAdvances := .of_mark rfl
  references token reference' found := by
    unfold staleReferences at found
    rw [Dict.lookup_mapValues] at found
    obtain ⟨reference, here, rfl⟩ := Option.map_eq_some_iff.mp found
    exact ⟨reference, here, reference.state.rank_le⟩

theorem staleReference_keeps (lease : Lease χ) (token : Token) : lease.Keeps (lease.staleReference token) :=
  onReference_keeps fun reference _ => reference.state.rank_le

theorem terminalize_keeps (lease : Lease χ) (reason : CloseReason) (expires : Nat) :
    lease.Keeps (lease.terminalize reason expires) where
  key := rfl
  leaseId := rfl
  state := lease.state.rank_le
  binding _ := rfl
  handoff possible := possible
  reason _ given had := congrArg (fun found : Option CloseReason => some (found.getD reason)) had
  references token reference' found := by
    unfold terminalize at found
    rw [Dict.lookup_mapValues] at found
    obtain ⟨reference, here, rfl⟩ := Option.map_eq_some_iff.mp found
    exact ⟨reference, here, reference.state.rank_le⟩

theorem sealFor_keeps (ready : lease.state = .ready) (reason : CloseReason) : lease.Keeps (lease.sealFor reason) where
  key := rfl
  leaseId := rfl
  binding _ := rfl
  handoff possible := possible
  state := by rw [ready]; exact LeaseState.rank_le _
  reason ended := by rw [ready] at ended; exact absurd ended (by decide)
  references := lease.staleReferences_keeps.references

theorem reject_keeps (lease : Lease χ) (token : Token) (reason : CloseReason) : lease.Keeps (lease.reject token reason) where
  key := rfl
  leaseId := rfl
  binding _ := rfl
  handoff possible := possible
  state := lease.state.rank_reject
  reason _ given had := congrArg (fun found : Option CloseReason => some (found.getD reason)) had
  references other reference' found := by
    unfold reject at found
    rw [Dict.lookup_erase_eq] at found
    split at found
    · cases found
    · exact ⟨reference', found, le_rfl⟩

theorem nameReference_keeps (lease : Lease χ) (token : Token) (id : String) : lease.Keeps (lease.nameReference token id) :=
  onReference_keeps fun _ _ => le_rfl

theorem removeSession_keeps (lease : Lease χ) (token : Token) (id : String) (expires slot : Nat) :
    lease.Keeps (lease.removeSession token id expires slot) where
  toAdvances := .of_mark rfl
  references := by
    have kept : lease.Keeps (lease.onReference token fun reference => { reference with sessionId := some id, expires }) :=
      onReference_keeps fun _ _ => le_rfl
    exact kept.references

theorem redeem_keeps {token : Token} {reference : Reference} (found : lease.references.lookup token = some reference)
    (minted : reference.state = .minted) : lease.Keeps (lease.redeem token) where
  toAdvances := .of_mark rfl
  references := by
    have kept : lease.Keeps (lease.onReference token fun reference =>
        { reference with state := .redeeming, sessionSlot := some lease.nextSession }) := by
      refine onReference_keeps fun other here => ?_
      rw [found] at here
      cases here
      rw [minted]
      exact Nat.le_succ _
    exact kept.references

theorem onSession_keeps (lease : Lease χ) (slot : Nat) (f : Session → Session) : lease.Keeps (lease.onSession slot f) :=
  .of_mark rfl rfl

theorem giveBack_keeps (lease : Lease χ) (slot : Nat) : lease.Keeps (lease.giveBack slot) where
  key := rfl
  leaseId := rfl
  state := le_rfl
  binding _ := rfl
  reason _ _ had := had
  handoff _ := rfl
  references _ reference' found := ⟨reference', found, le_rfl⟩

theorem used_keeps (lease : Lease χ) (slot last : Nat) : lease.Keeps (lease.used slot last) := .of_mark rfl rfl

theorem giveControlBack_keeps (lease : Lease χ) (crypto : χ) : lease.Keeps (lease.giveControlBack crypto) :=
  .of_mark rfl rfl

theorem bindSession_keeps (lease : Lease χ) (token : Token) (slot : Nat) (id : String) :
    lease.Keeps (lease.bindSession token slot id) := by
  unfold bindSession
  split
  · have kept : lease.Keeps (lease.onReference token fun reference => { reference with sessionId := some id }) :=
      onReference_keeps fun _ _ => le_rfl
    exact kept.trans (onSession_keeps ..)
  · exact .refl lease

theorem commitLaunch_keeps {token : Token} {reference : Reference} (success : BootstrapSuccess χ) (completed expires : Nat)
    (preparing : lease.state = .preparing) (found : lease.references.lookup token = some reference)
    (pending : reference.state = .pending) : lease.Keeps (lease.commitLaunch token success completed expires) where
  key := rfl
  leaseId := rfl
  handoff possible := possible
  state := by rw [preparing]; exact Nat.zero_le _
  binding bound := by rw [preparing] at bound; cases bound
  reason ended := by rw [preparing] at ended; cases ended
  references := by
    have kept : lease.Keeps (lease.onReference token fun reference =>
        { reference with state := .minted, issued := completed, expires }) := by
      refine onReference_keeps fun other here => ?_
      rw [found] at here
      cases here
      rw [pending]
      exact Nat.zero_le _
    exact kept.references

end Lease

/-! ## Slots -/

/-- What is done once with a reference, before its state passes the bound. -/
inductive Use where
  | redeem
  | insert

def Use.bound : Use → Nat
  | .redeem => RefState.redeeming.rank
  | .insert => RefState.consumed.rank

def Event.uses (use : Use) (token : Token) : Event → Bool
  | .openSession _ other _ _ _ => use matches .redeem && other = token
  | .inserted _ other _ => use matches .insert && other = token
  | _ => false

def Event.draws (token : Token) : Event → Bool
  | .drew other => other = token
  | _ => false

def Event.seals (index : Nat) : Event → Bool
  | .beginClose other _ => other = index
  | _ => false

/-- An event that costs nothing. -/
def Event.free : Event → Bool
  | .openSession .. | .inserted .. | .beginClose .. => false
  | _ => true

theorem Event.free_uses {event : Event} (free : event.free = true) (use : Use) (token : Token) :
    event.uses use token = false := by
  cases event <;> first | rfl | cases free

theorem Event.free_seals {event : Event} (free : event.free = true) (index : Nat) : event.seals index = false := by
  cases event <;> first | rfl | cases free

/-- One while the use of the token is still to come in the slot. -/
def Place.due (use : Use) (token : Token) (place : Place χ) : Nat :=
  if place.lease.any fun lease => (lease.references.lookup token).any fun reference => reference.state.rank < use.bound
  then 1 else 0

/-- One while the ledger of the slot is open. -/
def Place.gate (place : Place χ) : Nat := if place.operations.accepting then 1 else 0

structure Place.Later (place place' : Place χ) : Prop where
  key : place'.key = place.key
  lease : ∀ lease', place'.lease = some lease' → ∃ lease, place.lease = some lease ∧ lease.Advances lease'
  sealed : place.operations.accepting = false →
    place'.operations.accepting = false ∧ place'.operations.active ≤ place.operations.active

/-- A slot that has moved on with no new reference. -/
structure Place.Keeps (place place' : Place χ) : Prop where
  key : place'.key = place.key
  lease : ∀ lease', place'.lease = some lease' → ∃ lease, place.lease = some lease ∧ lease.Keeps lease'
  sealed : place.operations.accepting = false →
    place'.operations.accepting = false ∧ place'.operations.active ≤ place.operations.active

namespace Place

variable {place place' place'' : Place χ}

/-- Only the lease of the slot has changed. -/
theorem Keeps.of_lease (key : place'.key = place.key) (operations : place'.operations = place.operations)
    (lease : ∀ lease', place'.lease = some lease' → ∃ lease, place.lease = some lease ∧ lease.Keeps lease') :
    place.Keeps place' :=
  ⟨key, lease, fun closed => by rw [operations]; exact ⟨closed, le_rfl⟩⟩

/-- Only the ledger of the slot has changed. -/
theorem Keeps.of_ledger (key : place'.key = place.key) (lease : place'.lease = place.lease)
    (ledger : place.operations.accepting = false →
      place'.operations.accepting = false ∧ place'.operations.active ≤ place.operations.active) : place.Keeps place' :=
  ⟨key, fun lease' there => ⟨lease', lease ▸ there, .refl lease'⟩, ledger⟩

theorem Keeps.like (key : place'.key = place.key) (lease : place'.lease = place.lease)
    (operations : place'.operations = place.operations) : place.Keeps place' :=
  .of_lease key operations fun lease' there => ⟨lease', lease ▸ there, .refl lease'⟩

theorem Later.refl (place : Place χ) : place.Later place where
  key := rfl
  lease lease' there := ⟨lease', there, (Lease.Keeps.refl lease').toAdvances⟩
  sealed closed := ⟨closed, le_rfl⟩

theorem Later.trans (first : place.Later place') (second : place'.Later place'') : place.Later place'' where
  key := second.key.trans first.key
  lease lease'' there := by
    obtain ⟨lease', here, later⟩ := second.lease lease'' there
    obtain ⟨lease, before, earlier⟩ := first.lease lease' here
    exact ⟨lease, before, earlier.trans later⟩
  sealed closed := by
    obtain ⟨closed, fewer⟩ := first.sealed closed
    obtain ⟨closed, fewer'⟩ := second.sealed closed
    exact ⟨closed, fewer'.trans fewer⟩

theorem Later.gate_le (later : place.Later place') : place'.gate ≤ place.gate := by
  unfold gate
  cases closed : place.operations.accepting with
  | true => split <;> simp
  | false => rw [(later.sealed closed).1]

theorem Keeps.later (keeps : place.Keeps place') : place.Later place' where
  key := keeps.key
  lease lease' there := by
    obtain ⟨lease, here, keeps⟩ := keeps.lease lease' there
    exact ⟨lease, here, keeps.toAdvances⟩
  sealed := keeps.sealed

theorem due_pos {use : Use} {token : Token} : 0 < place.due use token ↔ ∃ lease, place.lease = some lease ∧
    ∃ reference, lease.references.lookup token = some reference ∧ reference.state.rank < use.bound := by
  unfold due
  rw [← Nat.ne_zero_iff_zero_lt, ne_eq, ite_eq_right_iff]
  simp [Option.any_eq_true]

theorem due_le_one (place : Place χ) (use : Use) (token : Token) : place.due use token ≤ 1 := by
  unfold due
  split <;> simp

theorem due_le_due {use : Use} {token : Token} (still : 0 < place'.due use token → 0 < place.due use token) :
    place'.due use token ≤ place.due use token := by
  have one := place'.due_le_one use token
  omega

theorem Keeps.due_le (keeps : place.Keeps place') (use : Use) (token : Token) :
    place'.due use token ≤ place.due use token := by
  apply due_le_due
  simp only [due_pos]
  intro ⟨lease', there, reference', found, before⟩
  obtain ⟨lease, here, keeps⟩ := keeps.lease lease' there
  obtain ⟨reference, had, later⟩ := keeps.references token reference' found
  exact ⟨lease, here, reference, had, later.trans_lt before⟩

end Place

/-- The change of one element of a list changes its sum by what the element changes. -/
theorem sum_modify {α : Type} {l : List α} {index : Nat} {a : α} (f : α → α) (weight : α → Nat) (found : l[index]? = some a) :
    ((l.modify index f).map weight).sum + weight a = (l.map weight).sum + weight (f a) := by
  induction l generalizing index with
  | nil => cases found
  | cons first rest ih =>
      cases index with
      | zero =>
          cases found
          simp only [List.modify_zero_cons, List.map_cons, List.sum_cons]
          omega
      | succ index =>
          have rest := ih found
          simp only [List.modify_succ_cons, List.map_cons, List.sum_cons]
          omega

/-! ## The Broker -/

namespace Core

/-- How often the use of a token is still to come. -/
def due (core : Core χ) (use : Use) (token : Token) : Nat := (core.places.map (·.due use token)).sum

/-- One while the ledger of a slot is open, or the slot has not been reserved. -/
def gate (core : Core χ) (index : Nat) : Nat := (core.places[index]?.map Place.gate).getD 1

/-- Two slots that both have a lease have different selections. -/
def Apart (core : Core χ) : Prop := ∀ (i j : Nat) place place' lease lease', core.places[i]? = some place →
  core.places[j]? = some place' → place.lease = some lease → place'.lease = some lease' →
    lease.key.selection = lease'.key.selection → i = j

end Core

/-- What any sequence of sections may do, and what it has done by it. -/
structure Lawful (core : Core χ) (events : List Event) (core' : Core χ) : Prop where
  history : core'.history = core.history ++ events
  shutting : core.shuttingDown = true → core'.shuttingDown = true
  failed : ∀ selection, (core.failed.lookup selection).isSome → (core'.failed.lookup selection).isSome
  later : ∀ (index : Nat) place, core.places[index]? = some place →
    ∃ place', core'.places[index]? = some place' ∧ place.Later place'
  fresh : ∀ (index : Nat) place', core'.places[index]? = some place' → core.places.length ≤ index →
    core.shuttingDown = false ∧ core.failed.lookup place'.key.selection = none
  apart : core.Apart → core'.Apart
  spends : ∀ use token, events.countP (·.uses use token) + core'.due use token ≤
    core.due use token + events.countP (·.draws token)
  seals : ∀ index, events.countP (·.seals index) + core'.gate index ≤ core.gate index

namespace Lawful

variable {core core' core'' : Core χ} {events events' : List Event}

theorem trans (first : Lawful core events core') (second : Lawful core' events' core'') :
    Lawful core (events ++ events') core'' where
  history := by rw [second.history, first.history, List.append_assoc]
  shutting down := second.shutting (first.shutting down)
  failed selection had := second.failed selection (first.failed selection had)
  later index place here := by
    obtain ⟨place', there, later⟩ := first.later index place here
    obtain ⟨place'', after, later'⟩ := second.later index place' there
    exact ⟨place'', after, later.trans later'⟩
  fresh index place'' after beyond := by
    cases there : core'.places[index]? with
    | some place' =>
        obtain ⟨other, same, later⟩ := second.later index place' there
        rw [after] at same
        cases same
        rw [later.key]
        exact first.fresh index place' there beyond
    | none =>
        obtain ⟨up, clear⟩ := second.fresh index place'' after (List.getElem?_eq_none_iff.mp there)
        refine ⟨?_, ?_⟩
        · cases down : core.shuttingDown with
          | false => rfl
          | true =>
              rw [first.shutting down] at up
              cases up
        · have kept := first.failed place''.key.selection
          rw [clear] at kept
          exact Option.not_isSome_iff_eq_none.mp fun had => Bool.false_ne_true (kept had)
  apart distinct := second.apart (first.apart distinct)
  spends use token := by
    rw [List.countP_append, List.countP_append]
    have := first.spends use token
    have := second.spends use token
    omega
  seals index := by
    rw [List.countP_append]
    have := first.seals index
    have := second.seals index
    omega

theorem countP_uses (free : events.all Event.free = true) (use : Use) (token : Token) :
    events.countP (·.uses use token) = 0 :=
  List.countP_eq_zero.mpr fun event member => by
    rw [Event.free_uses (List.all_eq_true.mp free event member) use token]
    exact Bool.false_ne_true

theorem countP_seals (free : events.all Event.free = true) (index : Nat) : events.countP (·.seals index) = 0 :=
  List.countP_eq_zero.mpr fun event member => by
    rw [Event.free_seals (List.all_eq_true.mp free event member) index]
    exact Bool.false_ne_true

/-- The slots are as they were. -/
theorem aside (free : events.all Event.free = true) (history : core'.history = core.history ++ events)
    (places : core'.places = core.places) (shutting : core.shuttingDown = true → core'.shuttingDown = true)
    (failed : ∀ selection, (core.failed.lookup selection).isSome → (core'.failed.lookup selection).isSome) :
    Lawful core events core' where
  history := history
  shutting := shutting
  failed := failed
  later index place here := ⟨place, places ▸ here, .refl place⟩
  fresh index place' there beyond := by
    rw [places, List.getElem?_eq_none beyond] at there
    cases there
  apart distinct := by
    unfold Core.Apart at distinct ⊢
    rw [places]
    exact distinct
  spends use token := by
    rw [countP_uses free, Core.due, Core.due, places]
    omega
  seals index := by
    rw [countP_seals free, Core.gate, Core.gate, places, Nat.zero_add]

theorem refl (core : Core χ) : Lawful core [] core :=
  aside rfl (List.append_nil _).symm rfl id fun _ => id

theorem log (events : List Event) (free : events.all Event.free = true) : Lawful core events (core.log events) :=
  aside free rfl rfl id fun _ => id

theorem apart_of (back : ∀ (index : Nat) place', core'.places[index]? = some place' →
    ∃ place, core.places[index]? = some place ∧ place.Later place') (distinct : core.Apart) : core'.Apart := by
  intro i j place place' lease lease' atI atJ has has' same
  obtain ⟨before, here, later⟩ := back i place atI
  obtain ⟨before', here', later'⟩ := back j place' atJ
  obtain ⟨was, had, advances⟩ := later.lease lease has
  obtain ⟨was', had', advances'⟩ := later'.lease lease' has'
  rw [advances.key, advances'.key] at same
  exact distinct i j before before' was was' here here' had had' same

/-- One slot moves on, and pays for the events. -/
theorem place {index : Nat} {place : Place χ} (f : Place χ → Place χ) (events : List Event)
    (found : core.places[index]? = some place) (later : place.Later (f place))
    (spends : ∀ use token, events.countP (·.uses use token) + (f place).due use token ≤
      place.due use token + events.countP (·.draws token))
    (seals : ∀ other, events.countP (·.seals other) + (if other = index then (f place).gate else 0) ≤
      if other = index then place.gate else 0) :
    Lawful core events ((core.onPlace index f).log events) := by
  have at_index (other : Nat) : (core.places.modify index f)[other]? =
      if other = index then some (f place) else core.places[other]? := by
    rw [List.getElem?_modify]
    split
    · rename_i same
      rw [if_pos same.symm, ← same, found]
      rfl
    · rename_i differs
      rw [if_neg (Ne.symm differs)]
      cases core.places[other]? <;> rfl
  have back (other : Nat) place' (there : (core.places.modify index f)[other]? = some place') :
      ∃ place, core.places[other]? = some place ∧ place.Later place' := by
    rw [at_index] at there
    split at there
    · rename_i same
      cases there
      exact ⟨place, same ▸ found, later⟩
    · exact ⟨place', there, .refl place'⟩
  refine ⟨rfl, id, fun _ => id, fun other before here => ?_, fun other place' there beyond => ?_, apart_of back,
    fun use token => ?_, fun other => ?_⟩
  · change ∃ place', (core.places.modify index f)[other]? = some place' ∧ _
    rw [at_index]
    split
    · rename_i same
      rw [same, found] at here
      cases here
      exact ⟨f place, rfl, later⟩
    · exact ⟨before, here, .refl before⟩
  · obtain ⟨_, before, _⟩ := back other place' there
    rw [List.getElem?_eq_none beyond] at before
    cases before
  · have sum := sum_modify f (·.due use token) found
    have := spends use token
    change _ + ((core.places.modify index f).map _).sum ≤ (core.places.map _).sum + _
    omega
  · have := seals other
    change _ + ((core.places.modify index f)[other]?.map Place.gate).getD 1 ≤ (core.places[other]?.map Place.gate).getD 1
    rw [at_index]
    split at this
    · rename_i same
      rw [if_pos same, same, found, ← same]
      exact this
    · rename_i differs
      rw [if_neg differs]
      omega

/-- One slot moves on as it may at any time. -/
theorem keeps {index : Nat} (f : Place χ → Place χ)
    (keeps : ∀ place, core.places[index]? = some place → place.Keeps (f place)) : Lawful core [] (core.onPlace index f) := by
  cases found : core.places[index]? with
  | none =>
      have same : core.places.modify index f = core.places :=
        List.modify_eq_self (List.getElem?_eq_none_iff.mp found)
      exact aside rfl (List.append_nil _).symm same id fun _ => id
  | some place =>
      have keeps := keeps place found
      have lawful := Lawful.place f [] found keeps.later (fun use token => by simpa using keeps.due_le use token)
        fun other => by
          split
          · simpa using keeps.later.gate_le
          · simp
      have same : (core.onPlace index f).log [] = core.onPlace index f := by
        unfold Core.log
        rw [List.append_nil]
      exact same ▸ lawful

theorem lease_place {index : Nat} {lease : Lease χ} (found : core.lease? index = some lease) :
    ∃ place, core.places[index]? = some place ∧ place.lease = some lease := Option.bind_eq_some_iff.mp found

theorem setLease {index : Nat} {lease lease' : Lease χ} (found : core.lease? index = some lease)
    (kept : lease.Keeps lease') : Lawful core [] (core.setLease index lease') := by
  obtain ⟨place, there, has⟩ := lease_place found
  apply Lawful.keeps
  intro other here
  rw [there] at here
  cases here
  exact .of_lease rfl rfl fun lease' after => ⟨lease, has, Option.some.inj after ▸ kept⟩

/-- An open ledger may become anything. -/
theorem setEntered {index : Nat} {lease lease' : Lease χ} (operations : OperationState)
    (found : core.lease? index = some lease) (kept : lease.Keeps lease')
    (accepting : (core.operations index).accepting = true) : Lawful core [] (core.setEntered index lease' operations) := by
  obtain ⟨place, there, has⟩ := lease_place found
  apply Lawful.keeps
  intro other here
  have current : core.operations index = place.operations := by
    unfold Core.operations
    rw [there]
    rfl
  rw [there] at here
  cases here
  refine ⟨rfl, fun lease' after => ⟨lease, has, Option.some.inj after ▸ kept⟩, fun closed => ?_⟩
  rw [← current, accepting] at closed
  cases closed

/-- The use of a reference takes its state past the bound. -/
theorem use (use : Use) (token : Token) {index : Nat} {place : Place χ} {f : Place χ → Place χ} {event : Event}
    (rest : List Event) (found : core.places[index]? = some place) (keeps : place.Keeps (f place))
    (before : 0 < place.due use token) (after : (f place).due use token = 0)
    (only : ∀ use' token', event.uses use' token' = true → use' = use ∧ token' = token)
    (unsealed : ∀ other, event.seals other = false) (free : rest.all Event.free = true) :
    Lawful core (event :: rest) ((core.onPlace index f).log (event :: rest)) := by
  refine Lawful.place f _ found keeps.later (fun use' token' => ?_) fun other => ?_
  · rw [List.countP_cons, countP_uses free]
    split
    · rename_i used
      obtain ⟨rfl, rfl⟩ := only use' token' used
      omega
    · have := keeps.due_le use' token'
      omega
  · rw [List.countP_cons, countP_seals free, unsealed other, if_neg Bool.false_ne_true, Nat.zero_add]
    split
    · exact keeps.later.gate_le
    · exact le_rfl

/-- Every slot moves on as it may at any time. -/
theorem all (f : Place χ → Place χ) (keeps : ∀ place : Place χ, place.Keeps (f place))
    (history : core'.history = core.history) (places : core'.places = core.places.map f)
    (shutting : core'.shuttingDown = core.shuttingDown) (failed : core'.failed = core.failed) :
    Lawful core [] core' where
  history := by rw [history, List.append_nil]
  shutting := by rw [shutting]; exact id
  failed := by rw [failed]; exact fun _ => id
  later index place here := ⟨f place, by rw [places, List.getElem?_map, here]; rfl, (keeps place).later⟩
  fresh index place' there beyond := by
    rw [places, List.getElem?_map, List.getElem?_eq_none beyond] at there
    cases there
  apart := by
    apply apart_of
    intro index place' there
    rw [places, List.getElem?_map, Option.map_eq_some_iff] at there
    obtain ⟨place, here, rfl⟩ := there
    exact ⟨place, here, (keeps place).later⟩
  spends use token := by
    have fewer : ((core.places.map f).map (·.due use token)).sum ≤ (core.places.map (·.due use token)).sum := by
      rw [List.map_map]
      exact List.sum_le_sum fun place _ => (keeps place).due_le use token
    rw [Core.due, Core.due, places]
    simpa using fewer
  seals index := by
    rw [Core.gate, Core.gate, places, List.getElem?_map]
    cases core.places[index]? with
    | none => simp
    | some place => simpa using (keeps place).later.gate_le

/-- A new slot for a selection that has no lease and has not failed. -/
theorem reserve {place : Place χ} {lease : Lease χ} {token : Token} (has : place.lease = some lease)
    (named : place.key = lease.key) (accepting : place.operations.accepting = true) (up : core.shuttingDown = false)
    (clear : core.failed.lookup lease.key.selection = none)
    (alone : ∀ other ∈ core.places, ∀ before, other.lease = some before → before.key.selection ≠ lease.key.selection)
    (only : ∀ use other, place.due use other ≤ [Event.drew token].countP (·.draws other)) :
    Lawful core [.drew token]
      { core with places := core.places ++ [place], history := core.history ++ [.drew token] } where
  history := rfl
  shutting := id
  failed _ := id
  later index before here := by
    refine ⟨before, ?_, .refl before⟩
    rw [List.getElem?_append_left (List.getElem?_eq_some_iff.mp here).1]
    exact here
  fresh index place' there beyond := by
    refine ⟨up, ?_⟩
    rw [List.getElem?_append_right beyond, List.getElem?_singleton] at there
    split at there
    · cases there
      rw [named]
      exact clear
    · cases there
  apart distinct := by
    have last (i : Nat) (p : Place χ) (at_i : (core.places ++ [place])[i]? = some p) :
        core.places[i]? = some p ∨ i = core.places.length ∧ p = place := by
      rw [List.getElem?_append] at at_i
      split at at_i
      · exact .inl at_i
      · rename_i past
        rw [List.getElem?_singleton] at at_i
        split at at_i
        · exact .inr ⟨by omega, (Option.some.inj at_i).symm⟩
        · cases at_i
    intro i j p q l m atI atJ hasL hasM same
    rcases last i p atI with old | ⟨rfl, rfl⟩
    · rcases last j q atJ with old' | ⟨rfl, rfl⟩
      · exact distinct i j p q l m old old' hasL hasM same
      · rw [has] at hasM
        cases hasM
        exact absurd same (alone p (List.mem_of_getElem? old) l hasL)
    · rcases last j q atJ with old' | ⟨rfl, rfl⟩
      · rw [has] at hasL
        cases hasL
        exact absurd same.symm (alone q (List.mem_of_getElem? old') m hasM)
      · rfl
  spends use other := by
    have := only use other
    have none_used : [Event.drew token].countP (·.uses use other) = 0 := countP_uses rfl use other
    rw [none_used, Core.due, Core.due, List.map_append, List.sum_append, List.map_singleton, List.sum_singleton]
    omega
  seals index := by
    rw [countP_seals rfl, Core.gate, Core.gate, List.getElem?_append]
    split
    · omega
    · rename_i past
      rw [List.getElem?_eq_none (Nat.not_lt.mp past), List.getElem?_singleton]
      split
      · simp [Place.gate, accepting]
      · simp

end Lawful

end AppPilotKit.Broker
