import AppPilotKit.Transport.LeaseActs

/-! # Heartbeats between the two ends of a lease

A lease link is a Target and a Broker connection with the ciphertexts each has
handed out, starting after the acknowledgement. Any call may be made on either
side at any time, and a read may be given any bytes.
-/

namespace AppPilotKit.Transport

open Wire

variable {R H : Type}

/-! ## One direction -/

/-- The records of a direction before its Close. -/
def beatRecords (role : Nat) (binding : LeaseBinding) (opening : List Record) (beats : List Nat) : List Record :=
  opening ++ beats.map (heartbeatRecord role binding)

/-- The plaintext bytes of a sequence of records. -/
def plainSize (records : List Record) : Nat := (records.map fun record => record.wire.length).sum

@[simp] theorem plainSize_append (a b : List Record) : plainSize (a ++ b) = plainSize a + plainSize b := by
  simp [plainSize]

/-- The sender of a direction: after `opening` it has written the heartbeats
    `beats` and possibly a Close, which always had room. -/
structure LeaseSends (role : Nat) (binding : LeaseBinding) (opening records : List Record) (beats : List Nat)
    (c : LeaseCore AeadState) : Prop where
  bound : c.transport.isSome → c.binding = binding
  shape : ∃ closing, records = beatRecords role binding opening beats ++ closing ∧
    (closing = [] ∨ ∃ last : Record, last.kind = .close ∧ closing = [last]) ∧ (c.transport.isSome → closing = [])
  encodable : ∀ record ∈ records, record.Encodable
  small : ∀ counter ∈ beats, counter < 2 ^ 64
  count : ∀ t, c.transport = some t → t.sent = records.length
  sent : c.sentRecords = records.length ∧ c.sentPlaintext = plainSize records
  within : c.sentRecords < recordLimit ∧ c.sentPlaintext < byteLimit
  reserve : (beatRecords role binding opening beats).length + 1 < recordLimit ∧
    plainSize (beatRecords role binding opening beats) + closeRecordLen < byteLimit

/-- The receiver of a direction: it has taken the heartbeats `heard`. -/
structure LeaseReceives (role : Nat) (binding : LeaseBinding) (opening : List Record) (beats heard : List Nat)
    (c : LeaseCore AeadState) : Prop where
  inOrder : heard <+: beats
  count : ∀ t, c.transport = some t → t.received = (beatRecords role binding opening heard).length ∧
    c.receivedRecords = (beatRecords role binding opening heard).length ∧
    c.receivedPlaintext = plainSize (beatRecords role binding opening heard)
  within : c.receivedRecords < recordLimit ∧ c.receivedPlaintext < byteLimit

section Direction

variable {aead : IdealAead} {side : Side} {peer : List Bytes} {role peerRole : Nat} {binding peerBinding : LeaseBinding}
  {opening peerOpening records new peerRecords : List Record} {beats heard peerBeats : List Nat}
  {wrote got : Option Nat} {c c' sender : LeaseCore AeadState}

theorem beatRecords_append (beats more : List Nat) :
    beatRecords role binding opening (beats ++ more) =
      beatRecords role binding opening beats ++ more.map (heartbeatRecord role binding) := by
  simp [beatRecords]

theorem beatRecords_prefix (shorter : heard <+: beats) :
    (beatRecords role binding opening heard).length ≤ (beatRecords role binding opening beats).length ∧
      plainSize (beatRecords role binding opening heard) ≤ plainSize (beatRecords role binding opening beats) := by
  obtain ⟨rest, rfl⟩ := shorter
  rw [beatRecords_append, List.length_append, plainSize_append]
  exact ⟨Nat.le_add_right _ _, Nat.le_add_right _ _⟩

theorem LeaseSends.stopped (s : LeaseSends role binding opening records beats c) (done : c'.Over)
    (sent : c'.sentRecords = c.sentRecords ∧ c'.sentPlaintext = c.sentPlaintext) :
    LeaseSends role binding opening records beats c' := by
  obtain ⟨closing, shape, closes, -⟩ := s.shape
  have none : ¬ c'.transport.isSome := by simp [done.transport]
  refine ⟨fun some => absurd some none, ⟨closing, shape, closes, fun some => absurd some none⟩, s.encodable, s.small,
    ?_, ?_, ?_, s.reserve⟩
  · intro t had
    rw [done.transport] at had
    cases had
  · rw [sent.1, sent.2]
    exact s.sent
  · rw [sent.1, sent.2]
    exact s.within

theorem LeaseSends.close (s : LeaseSends role binding opening records beats c) {t : AeadState} {record : Record}
    (had : c.transport = some t) (kind : record.kind = .close) (fits : record.Encodable) (done : c'.Over)
    (sent : c'.sentRecords = c.sentRecords + 1 ∧ c'.sentPlaintext = c.sentPlaintext + record.wire.length)
    (within : c'.sentRecords < recordLimit ∧ c'.sentPlaintext < byteLimit) :
    LeaseSends role binding opening (records ++ [record]) beats c' := by
  obtain ⟨closing, shape, -, unclosed⟩ := s.shape
  have none : ¬ c'.transport.isSome := by simp [done.transport]
  have empty : closing = [] := unclosed (by simp [had])
  refine ⟨fun some => absurd some none, ⟨[record], ?_, .inr ⟨record, kind, rfl⟩, fun some => absurd some none⟩, ?_,
    s.small, ?_, ?_, within, s.reserve⟩
  · rw [shape, empty, List.append_nil]
  · intro sealed member
    rcases List.mem_append.mp member with old | last
    · exact s.encodable sealed old
    · rw [List.mem_singleton.mp last]
      exact fits
  · intro t had
    rw [done.transport] at had
    cases had
  · rw [sent.1, sent.2, s.sent.1, s.sent.2]
    simp [plainSize]

theorem LeaseSends.write (s : LeaseSends role binding opening records beats c) {t : AeadState} {counter : Nat}
    (pending : Option Nat) (last : Nat) (had : c.transport = some t) (small : counter < 2 ^ 64)
    (room : c.Room (heartbeatRecord role c.binding counter)) :
    LeaseSends role binding opening (records ++ [heartbeatRecord role c.binding counter]) (beats ++ [counter])
      { c with
        transport := some { t with sent := t.sent + 1 }, sentRecords := c.sentRecords + 1
        sentPlaintext := c.sentPlaintext + (heartbeatRecord role c.binding counter).wire.length
        pendingHeartbeat := pending, lastHeartbeat := last } := by
  obtain ⟨closing, shape, -, unclosed⟩ := s.shape
  have same : c.binding = binding := s.bound (by simp [had])
  have empty : closing = [] := unclosed (by simp [had])
  rw [empty, List.append_nil] at shape
  obtain ⟨recordsRoom, bytesRoom⟩ := room
  obtain ⟨records_eq, bytes_eq⟩ := s.sent
  subst same
  refine ⟨fun _ => rfl, ⟨[], ?_, .inl rfl, fun _ => rfl⟩, ?_, ?_, ?_, ?_, ?_, ?_⟩
  · rw [List.append_nil, beatRecords_append, shape]
    rfl
  · intro sealed member
    rcases List.mem_append.mp member with old | new
    · exact s.encodable sealed old
    · rw [List.mem_singleton.mp new]
      exact heartbeatRecord_encodable role c.binding counter
  · intro value member
    rcases List.mem_append.mp member with old | new
    · exact s.small value old
    · rw [List.mem_singleton.mp new]
      exact small
  · intro t' eq
    cases eq
    simp [s.count t had]
  · simp [records_eq, bytes_eq, plainSize]
  · dsimp only
    omega
  · rw [beatRecords_append, ← shape]
    simp only [List.map_cons, List.map_nil, List.length_append, List.length_singleton, plainSize_append]
    have size : plainSize [heartbeatRecord role c.binding counter] =
        (heartbeatRecord role c.binding counter).wire.length := by simp [plainSize]
    omega

theorem LeaseSends.read (s : LeaseSends role binding opening records beats c) {t : AeadState}
    (had : c.transport = some t) (received receivedRecords receivedPlaintext last : Nat) (pending : Option Nat) :
    LeaseSends role binding opening records beats
      { c with
        transport := some { t with received }, receivedRecords, receivedPlaintext
        pendingHeartbeat := pending, lastHeartbeat := last } := by
  obtain ⟨closing, shape, closes, unclosed⟩ := s.shape
  refine ⟨fun _ => s.bound (by simp [had]), ⟨closing, shape, closes, fun _ => unclosed (by simp [had])⟩, s.encodable,
    s.small, ?_, s.sent, s.within, s.reserve⟩
  intro t' eq
  cases eq
  exact s.count t had

theorem LeaseSends.act (s : LeaseSends role binding opening records beats c)
    (act : LeaseAct aead side peer role peerRole c new wrote got c') :
    LeaseSends role binding opening (records ++ new) (beats ++ wrote.toList) c' := by
  cases act with
  | stop done sent received => simpa using s.stopped done sent
  | close had kind fits done sent within received => simpa using s.close had kind fits done sent within
  | write notClosed had small room => exact s.write _ _ had small room
  | hear notClosed had opens decodes kind data small room space => simpa using s.read had _ _ _ _ _

/-- The record at the receiver's place is the next heartbeat of the sender. -/
theorem LeaseSends.next_beat (s : LeaseSends peerRole peerBinding peerOpening peerRecords peerBeats sender)
    (inOrder : heard <+: peerBeats) {record : Record} {counter : Nat}
    (found : peerRecords[(beatRecords peerRole peerBinding peerOpening heard).length]? = some record)
    (kind : record.kind = .heartbeat) (data : record.data = heartbeatBytes peerRole binding counter)
    (small : counter < 2 ^ 64) :
    heard ++ [counter] <+: peerBeats ∧ record = heartbeatRecord peerRole peerBinding counter := by
  obtain ⟨closing, shape, closes, -⟩ := s.shape
  obtain ⟨rest, rfl⟩ := inOrder
  rw [shape, beatRecords_append, List.append_assoc, List.getElem?_append_right (le_refl _), Nat.sub_self] at found
  cases rest with
  | nil =>
      exfalso
      rcases closes with rfl | ⟨last, lastKind, rfl⟩
      · simp at found
      · simp only [List.map_nil, List.nil_append, List.getElem?_cons_zero, Option.some.injEq] at found
        rw [← found, lastKind] at kind
        cases kind
  | cons next rest =>
      simp only [List.map_cons, List.cons_append, List.getElem?_cons_zero, Option.some.injEq] at found
      have payload : heartbeatBytes peerRole peerBinding next = heartbeatBytes peerRole binding counter := by
        rw [← data, ← found]
        rfl
      obtain rfl := heartbeatBytes_inj (s.small next (by simp)) small payload
      exact ⟨⟨rest, by simp⟩, found.symm⟩

theorem LeaseReceives.more (r : LeaseReceives peerRole peerBinding peerOpening peerBeats heard c) (extra : List Nat) :
    LeaseReceives peerRole peerBinding peerOpening (peerBeats ++ extra) heard c :=
  ⟨r.inOrder.trans (List.prefix_append _ _), r.count, r.within⟩

theorem LeaseReceives.act (r : LeaseReceives peerRole peerBinding peerOpening peerBeats heard c)
    (s : LeaseSends peerRole peerBinding peerOpening peerRecords peerBeats sender)
    (act : LeaseAct aead side (aead.ciphertexts side.peer peerRecords) role peerRole c new wrote got c') :
    LeaseReceives peerRole peerBinding peerOpening peerBeats (heard ++ got.toList) c' := by
  have ended : ∀ {after : LeaseCore AeadState}, after.Over →
      (after.receivedRecords < recordLimit ∧ after.receivedPlaintext < byteLimit) →
      LeaseReceives peerRole peerBinding peerOpening peerBeats (heard ++ (none : Option Nat).toList) after := by
    intro after done within
    refine ⟨by simpa using r.inOrder, ?_, within⟩
    intro t had
    rw [done.transport] at had
    cases had
  cases act with
  | stop done sent received => exact ended done (received r.within)
  | close had kind fits done sent within received => exact ended done (received r.within)
  | write notClosed had small room =>
      refine ⟨by simpa using r.inOrder, ?_, r.within⟩
      intro t' eq
      cases eq
      simpa using r.count _ had
  | hear notClosed had opens decodes kind data small room space =>
      obtain ⟨found, rfl⟩ := opened_record s.encodable opens decodes
      obtain ⟨index, records, bytes⟩ := r.count _ had
      rw [index] at found
      obtain ⟨inOrder, rfl⟩ := s.next_beat r.inOrder found kind data small
      refine ⟨inOrder, ?_, room, space⟩
      intro t' eq
      cases eq
      simp only [Option.toList_some, beatRecords_append, List.length_append, plainSize_append, records, bytes, index]
      simp [plainSize]

/-- What a Target accepted is what it replied to and what is pending. -/
theorem TargetPending.owed (p : TargetPending c wrote got c') {accepted replied : List Nat}
    (h : accepted = replied ++ c.pendingHeartbeat.toList) :
    accepted ++ got.toList = replied ++ wrote.toList ++ c'.pendingHeartbeat.toList := by
  cases wrote with
  | some counter =>
      obtain ⟨before, after⟩ := p.replied counter rfl
      cases got with
      | none => simp [h, before, after]
      | some other =>
          rw [(p.accepted other rfl).1] at before
          cases before
  | none =>
      cases got with
      | some counter =>
          obtain ⟨before, after⟩ := p.accepted counter rfl
          simp [h, before, after]
      | none => simp [h, p.kept rfl rfl]

/-- What a Broker requested is what was confirmed and what is pending. -/
theorem BrokerPending.asked (p : BrokerPending c wrote got c') {requested confirmed : List Nat}
    (h : requested = confirmed ++ c.pendingHeartbeat.toList) :
    requested ++ wrote.toList = confirmed ++ got.toList ++ c'.pendingHeartbeat.toList := by
  cases got with
  | some counter =>
      obtain ⟨before, after, -⟩ := p.confirmed counter rfl
      cases wrote with
      | none => simp [h, before, after]
      | some other =>
          rw [(p.requested other rfl).1] at before
          cases before
  | none =>
      cases wrote with
      | some counter =>
          obtain ⟨before, -, after, -⟩ := p.requested counter rfl
          simp [h, before, after]
      | none => simp [h, (p.kept rfl rfl).1]

/-- A new request is above every earlier one: none is pending, and the
    confirmed ones are not above the last. -/
theorem BrokerPending.increasing (p : BrokerPending c wrote got c') {requested confirmed : List Nat}
    (h : requested = confirmed ++ c.pendingHeartbeat.toList) (sorted : requested.Pairwise (· < ·))
    (below : ∀ counter ∈ confirmed, counter ≤ c.lastHeartbeat) : (requested ++ wrote.toList).Pairwise (· < ·) := by
  cases wrote with
  | none => simpa using sorted
  | some counter =>
      obtain ⟨idle, above, -⟩ := p.requested counter rfl
      refine List.pairwise_append.mpr ⟨sorted, List.pairwise_singleton _ _, ?_⟩
      intro old member new isNew
      rw [h, idle, Option.toList_none, List.append_nil] at member
      obtain rfl : new = counter := by simpa using isNew
      exact (below old member).trans_lt above

theorem BrokerPending.below (p : BrokerPending c wrote got c') {requested confirmed : List Nat}
    (h : requested = confirmed ++ c.pendingHeartbeat.toList) (sorted : requested.Pairwise (· < ·))
    (below : ∀ counter ∈ confirmed, counter ≤ c.lastHeartbeat) :
    ∀ counter ∈ confirmed ++ got.toList, counter ≤ c'.lastHeartbeat := by
  cases got with
  | some counter =>
      obtain ⟨pending, -, last⟩ := p.confirmed counter rfl
      rw [last]
      intro value member
      rcases List.mem_append.mp member with old | new
      · rw [h, pending] at sorted
        exact ((List.pairwise_append.mp sorted).2.2 value old counter (by simp)).le
      · exact (List.mem_singleton.mp new).le
  | none =>
      have same : c'.lastHeartbeat = c.lastHeartbeat := by
        cases wrote with
        | some counter => exact (p.requested counter rfl).2.2.2
        | none => exact (p.kept rfl rfl).2
      rw [same]
      simpa using below

end Direction

/-! ## The link -/

structure LeaseLink where
  target : TargetLeaseConnection AeadState
  broker : BrokerLeaseConnection AeadState
  /-- The ciphertexts the Target has handed out, the acknowledgement first. -/
  targetSent : List Bytes
  brokerSent : List Bytes

inductive LeaseLinkCall where
  | target (call : TargetLeaseCall)
  | broker (call : BrokerLeaseCall)
  deriving Repr, DecidableEq

def LeaseLink.step (aead : IdealAead) (handshakes : Noise R H Unit) (l : LeaseLink) :
    LeaseLinkCall → Except Error LeaseReply × LeaseLink
  | .target call =>
      let (reply, target) := l.target.call (aead.noise handshakes .target l.brokerSent) call
      (reply, { l with target, targetSent := l.targetSent ++ (leaseHandedOut reply).map frameCiphertext })
  | .broker call =>
      let (reply, broker) := l.broker.call (aead.noise handshakes .broker l.targetSent) call
      (reply, { l with broker, brokerSent := l.brokerSent ++ (leaseHandedOut reply).map frameCiphertext })

abbrev LeaseStep := Runs.Step LeaseLink LeaseLinkCall (Except Error LeaseReply)

/-- The counter of a step that was a successful request. -/
def requestOf (step : LeaseStep) : Option Nat :=
  match step.input with
  | .target _ => none
  | .broker call => call.requested step.output

/-- The counter of a step that accepted a request. -/
def acceptOf (step : LeaseStep) : Option Nat :=
  match step.input with
  | .target call => call.accepted step.output
  | .broker _ => none

/-- The counter of a step that was a successful reply. -/
def replyOf (step : LeaseStep) : Option Nat :=
  match step.input with
  | .target call => call.replied step.output
  | .broker _ => none

/-- The counter of a step that accepted a reply. -/
def confirmOf (step : LeaseStep) : Option Nat :=
  match step.input with
  | .target _ => none
  | .broker call => call.confirmed step.output

/-- What holds after any interleaving. -/
structure LeaseInvariant (aead : IdealAead) (targetBinding brokerBinding : LeaseBinding) (ack : Record)
    (run : List LeaseStep) (l : LeaseLink) : Prop where
  targetSends : ∃ records, l.targetSent = aead.ciphertexts .target records ∧
    LeaseSends 2 targetBinding [ack] records (run.filterMap replyOf) l.target.core
  brokerSends : ∃ records, l.brokerSent = aead.ciphertexts .broker records ∧
    LeaseSends 1 brokerBinding [] records (run.filterMap requestOf) l.broker.core
  targetReceives : LeaseReceives 1 brokerBinding [] (run.filterMap requestOf) (run.filterMap acceptOf) l.target.core
  brokerReceives : LeaseReceives 2 targetBinding [ack] (run.filterMap replyOf) (run.filterMap confirmOf) l.broker.core
  targetPending : run.filterMap acceptOf = run.filterMap replyOf ++ l.target.core.pendingHeartbeat.toList
  brokerPending : run.filterMap requestOf = run.filterMap confirmOf ++ l.broker.core.pendingHeartbeat.toList
  increasing : (run.filterMap requestOf).Pairwise (· < ·)
  last : ∀ counter ∈ run.filterMap confirmOf, counter ≤ l.broker.core.lastHeartbeat

section Link

variable {aead : IdealAead} {handshakes : Noise R H Unit} {targetBinding brokerBinding : LeaseBinding} {ack : Record}
  {run : List LeaseStep} {l : LeaseLink}

/-- A call extends the ciphertexts of its side by those of its records. -/
theorem LeaseActs.sends {side : Side} {peer frames sent : List Bytes} {role peerRole : Nat} {binding : LeaseBinding}
    {opening : List Record} {beats : List Nat} {wrote heard : Option Nat} {c c' : LeaseCore AeadState}
    (acts : LeaseActs aead side peer role peerRole c frames wrote heard c')
    (sends : ∃ records, sent = aead.ciphertexts side records ∧ LeaseSends role binding opening records beats c) :
    ∃ records, sent ++ frames.map frameCiphertext = aead.ciphertexts side records ∧
      LeaseSends role binding opening records (beats ++ wrote.toList) c' := by
  obtain ⟨old, rfl, sends⟩ := sends
  obtain ⟨records, act, rfl⟩ := acts
  refine ⟨old ++ records, ?_, sends.act act⟩
  have alive : records = [] ∨ c.nextNonce = old.length := by
    cases act with
    | stop | hear => exact .inl rfl
    | close had | write _ had => exact .inr (by simp [LeaseCore.nextNonce, had, sends.count _ had])
  rcases alive with rfl | nonce
  · simp [IdealAead.frames]
  · rw [nonce]
    exact frames_append old records

theorem LeaseActs.receives {side : Side} {frames peerSent : List Bytes} {role peerRole : Nat}
    {peerBinding : LeaseBinding} {peerOpening : List Record} {peerBeats heard : List Nat} {wrote got : Option Nat}
    {c c' sender : LeaseCore AeadState} (acts : LeaseActs aead side peerSent role peerRole c frames wrote got c')
    (sends : ∃ records, peerSent = aead.ciphertexts side.peer records ∧
      LeaseSends peerRole peerBinding peerOpening records peerBeats sender)
    (receives : LeaseReceives peerRole peerBinding peerOpening peerBeats heard c) :
    LeaseReceives peerRole peerBinding peerOpening peerBeats (heard ++ got.toList) c' := by
  obtain ⟨old, rfl, sends⟩ := sends
  obtain ⟨records, act, -⟩ := acts
  exact receives.act sends act

theorem lease_target_step (inv : LeaseInvariant aead targetBinding brokerBinding ack run l) (call : TargetLeaseCall) :
    LeaseInvariant aead targetBinding brokerBinding ack
      (run ++ [⟨l, .target call, (l.step aead handshakes (.target call)).1,
        (l.step aead handshakes (.target call)).2⟩]) (l.step aead handshakes (.target call)).2 := by
  obtain ⟨acts, pending⟩ := TargetLeaseConnection.call_acts aead l.brokerSent handshakes l.target call
  have sends := acts.sends inv.targetSends
  have receives := acts.receives inv.brokerSends inv.targetReceives
  simp only [LeaseLink.step] at *
  generalize l.target.call (aead.noise handshakes .target l.brokerSent) call = r at *
  obtain ⟨reply, target⟩ := r
  refine ⟨?_, ?_, ?_, ?_, ?_, ?_, ?_, ?_⟩
  all_goals simp only [filterMap_snoc, requestOf, acceptOf, replyOf, confirmOf, Option.toList_none, List.append_nil]
  · exact sends
  · exact inv.brokerSends
  · exact receives
  · exact inv.brokerReceives.more _
  · exact pending.owed inv.targetPending
  · exact inv.brokerPending
  · exact inv.increasing
  · exact inv.last

theorem lease_broker_step (inv : LeaseInvariant aead targetBinding brokerBinding ack run l) (call : BrokerLeaseCall) :
    LeaseInvariant aead targetBinding brokerBinding ack
      (run ++ [⟨l, .broker call, (l.step aead handshakes (.broker call)).1,
        (l.step aead handshakes (.broker call)).2⟩]) (l.step aead handshakes (.broker call)).2 := by
  obtain ⟨acts, pending⟩ := BrokerLeaseConnection.call_acts aead l.targetSent handshakes l.broker call
  have sends := acts.sends inv.brokerSends
  have receives := acts.receives inv.targetSends inv.brokerReceives
  simp only [LeaseLink.step] at *
  generalize l.broker.call (aead.noise handshakes .broker l.targetSent) call = r at *
  obtain ⟨reply, broker⟩ := r
  refine ⟨?_, ?_, ?_, ?_, ?_, ?_, ?_, ?_⟩
  all_goals simp only [filterMap_snoc, requestOf, acceptOf, replyOf, confirmOf, Option.toList_none, List.append_nil]
  · exact inv.targetSends
  · exact sends
  · exact inv.targetReceives.more _
  · exact receives
  · exact inv.targetPending
  · exact pending.asked inv.brokerPending
  · exact pending.increasing inv.brokerPending inv.increasing inv.last
  · exact pending.below inv.brokerPending inv.increasing inv.last

/-- The acknowledgement is the Target's first record, and the only one the Broker has taken. -/
theorem lease_start {acknowledgement received : TargetBootstrapAck} {bootstrap : BootstrapBinding}
    {hash : FixedBytes 32} {frame outer : Bytes} {target : TargetLeaseConnection AeadState}
    {broker : BrokerLeaseConnection AeadState}
    (acknowledged : writeAck (aead.noise handshakes .target []) ⟨0, 0⟩ acknowledgement = .ok (frame, target))
    (read : readAck (aead.noise handshakes .broker [frameCiphertext frame]) ⟨0, 0⟩ bootstrap hash outer =
      .ok (received, broker)) :
    ∃ ack, LeaseInvariant aead target.core.binding broker.core.binding ack []
      ⟨target, broker, [frameCiphertext frame], []⟩ := by
  unfold writeAck at acknowledged
  obtain ⟨record, complete, acknowledged⟩ := Checks.bind_ok.mp acknowledged
  obtain ⟨plaintext, encoded, acknowledged⟩ := Checks.bind_ok.mp acknowledged
  obtain ⟨⟨sealed, transport⟩, encrypted, acknowledged⟩ := Checks.bind_ok.mp acknowledged
  cases acknowledged
  obtain ⟨small, rfl⟩ := Record.encode_ok encoded
  obtain rfl := completeRecord_ok complete
  have fits : (wholeRecord .finished (bootstrapAckPayload acknowledgement)).Encodable := wholeRecord_encodable _ small
  generalize wholeRecord .finished (bootstrapAckPayload acknowledgement) = ack at fits encrypted
  have plain := SessionCore.wire_small fits
  rw [encryptTransport_ideal _ plain] at encrypted
  cases encrypted
  have alone : [frameCiphertext (aead.frame .target 0 ack.wire)] = aead.ciphertexts .target [ack] := by
    simp [frameCiphertext, IdealAead.frame, IdealAead.ciphertexts]
  rw [alone] at read ⊢
  unfold readAck at read
  obtain ⟨⟨plaintext, transport⟩, decrypted, read⟩ := Checks.bind_ok.mp read
  obtain ⟨opened, decoded, read⟩ := Checks.bind_ok.mp read
  obtain ⟨_, -, read⟩ := Checks.bind_ok.mp read
  obtain ⟨parsed, -, read⟩ := Checks.bind_ok.mp read
  cases read
  obtain ⟨opens, rfl⟩ := SessionCore.opens_of_decrypt decrypted
  obtain ⟨found, rfl⟩ := opened_record (by simpa using fits) opens decoded
  obtain rfl : ack = opened := by simpa using found
  have bytes : ack.wire.length + closeRecordLen < byteLimit := by
    simp only [recordHeaderLen, recordDataMax] at plain
    simp only [closeRecordLen, recordHeaderLen, byteLimit]
    omega
  have none : 0 < recordLimit ∧ 0 < byteLimit := by decide
  have one : 1 < recordLimit := by decide
  refine ⟨ack, ⟨[ack], rfl, ?_⟩, ⟨[], rfl, ?_⟩, ?_, ?_, rfl, rfl, List.Pairwise.nil, by simp⟩
  · refine ⟨fun _ => rfl, ⟨[], rfl, .inl rfl, fun _ => rfl⟩, by simpa using fits, by simp, ?_, ⟨rfl, ?_⟩, ?_, ?_⟩
    · intro t eq
      cases eq
      rfl
    · simp [plainSize]
    · exact ⟨one, by dsimp only; omega⟩
    · exact ⟨by simp [beatRecords]; decide, by simpa [beatRecords, plainSize] using bytes⟩
  · refine ⟨fun _ => rfl, ⟨[], rfl, .inl rfl, fun _ => rfl⟩, by simp, by simp, ?_, ⟨rfl, rfl⟩, ?_, ?_⟩
    · intro t eq
      cases eq
      rfl
    · exact none
    · exact ⟨by simp [beatRecords]; decide, by simp [beatRecords, plainSize]; decide⟩
  · refine ⟨List.nil_prefix, ?_, none⟩
    intro t eq
    cases eq
    exact ⟨rfl, rfl, rfl⟩
  · refine ⟨List.nil_prefix, ?_, one, by dsimp only; omega⟩
    intro t eq
    cases eq
    exact ⟨rfl, rfl, by simp [beatRecords, plainSize]⟩

end Link

/-! ## Agreement -/

def LeaseCore.Open {T : Type} (c : LeaseCore T) : Prop := c.closed = false ∧ c.transport.isSome = true

/-- The plaintext bytes behind a sequence of ciphertexts. -/
def sealedBytes (sent : List Bytes) : Nat := (sent.map fun ciphertext => ciphertext.length - Noise.tagLen).sum

/-- One direction of a lease: what its sender has handed out and what its
    receiver has counted. -/
structure DirectionTotals (sent : List Bytes) (sender receiver : LeaseCore AeadState) : Prop where
  counted : sender.sentRecords = sent.length ∧ sender.sentPlaintext = sealedBytes sent
  sentWithin : sent.length < recordLimit ∧ sealedBytes sent < byteLimit
  sentRoom : sender.Open → sent.length + 1 < recordLimit ∧ sealedBytes sent + closeRecordLen < byteLimit
  receivedWithin : receiver.receivedRecords < recordLimit ∧ receiver.receivedPlaintext < byteLimit
  receivedRoom : receiver.Open → receiver.receivedRecords + 1 < recordLimit ∧
    receiver.receivedPlaintext + closeRecordLen < byteLimit

theorem sealedBytes_ciphertexts (aead : IdealAead) (side : Side) (records : List Record) :
    sealedBytes (aead.ciphertexts side records) = plainSize records := by
  unfold sealedBytes plainSize IdealAead.ciphertexts
  congr 1
  refine List.ext_getElem? fun i => ?_
  simp [aead.encrypt_length, Function.comp_def]

theorem direction_totals {aead : IdealAead} {side : Side} {role : Nat} {binding : LeaseBinding}
    {opening : List Record} {beats heard : List Nat} {sent : List Bytes} {sender receiver : LeaseCore AeadState}
    (sends : ∃ records, sent = aead.ciphertexts side records ∧ LeaseSends role binding opening records beats sender)
    (receives : LeaseReceives role binding opening beats heard receiver) : DirectionTotals sent sender receiver := by
  obtain ⟨records, rfl, sends⟩ := sends
  have size : (aead.ciphertexts side records).length = records.length := by simp [IdealAead.ciphertexts]
  have within := sends.within
  rw [sends.sent.1, sends.sent.2] at within
  refine ⟨?_, ?_, ?_, receives.within, ?_⟩
  · rw [size, sealedBytes_ciphertexts]
    exact sends.sent
  · rw [size, sealedBytes_ciphertexts]
    exact within
  · rintro ⟨-, alive⟩
    obtain ⟨closing, shape, -, unclosed⟩ := sends.shape
    rw [unclosed alive, List.append_nil] at shape
    rw [size, sealedBytes_ciphertexts, shape]
    exact sends.reserve
  · rintro ⟨-, alive⟩
    obtain ⟨t, had⟩ := Option.isSome_iff_exists.mp alive
    obtain ⟨-, count, bytes⟩ := receives.count t had
    have shorter : (beatRecords role binding opening heard).length ≤ (beatRecords role binding opening beats).length ∧
        plainSize (beatRecords role binding opening heard) ≤ plainSize (beatRecords role binding opening beats) :=
      beatRecords_prefix receives.inOrder
    have room := sends.reserve
    rw [count, bytes]
    omega

/-- Whatever the order of calls and whatever bytes arrive after the
    acknowledgement: requests have increasing counters, the Target accepts them
    in order, answers the one it accepted last and answers it once, and the
    Broker takes a reply only for the one request it waits for. -/
theorem heartbeats_agree (aead : IdealAead) (handshakes : Noise R H Unit)
    (acknowledgement received : TargetBootstrapAck) (bootstrap : BootstrapBinding) (hash : FixedBytes 32)
    (frame outer : Bytes) (target : TargetLeaseConnection AeadState) (broker : BrokerLeaseConnection AeadState)
    (acknowledged : writeAck (aead.noise handshakes .target []) ⟨0, 0⟩ acknowledgement = .ok (frame, target))
    (read : readAck (aead.noise handshakes .broker [frameCiphertext frame]) ⟨0, 0⟩ bootstrap hash outer =
      .ok (received, broker)) (calls : List LeaseLinkCall) :
    let start : LeaseLink := ⟨target, broker, [frameCiphertext frame], []⟩
    let run := Runs.trace (LeaseLink.step aead handshakes) start calls
    let last := Runs.final (LeaseLink.step aead handshakes) start calls
    (run.filterMap requestOf).Pairwise (· < ·) ∧
    run.filterMap acceptOf <+: run.filterMap requestOf ∧
    (∀ front step back counter, run = front ++ step :: back → replyOf step = some counter →
      (front.filterMap acceptOf).getLast? = some counter ∧ counter ∉ front.filterMap replyOf) ∧
    (∀ front step back counter, run = front ++ step :: back → confirmOf step = some counter →
      step.before.broker.core.pendingHeartbeat = some counter ∧
      front.filterMap requestOf = front.filterMap confirmOf ++ [counter] ∧ counter ∈ front.filterMap replyOf) ∧
    DirectionTotals last.targetSent last.target.core last.broker.core ∧
    DirectionTotals last.brokerSent last.broker.core last.target.core := by
  intro start run last
  obtain ⟨ack, initial⟩ := lease_start acknowledged read
  have always : ∀ calls, LeaseInvariant aead target.core.binding broker.core.binding ack
      (Runs.trace (LeaseLink.step aead handshakes) start calls)
      (Runs.final (LeaseLink.step aead handshakes) start calls) := by
    intro calls
    refine Runs.invariant_trace (fun past l => LeaseInvariant aead target.core.binding broker.core.binding ack past l)
      ?_ [] _ calls initial
    intro past l call inv
    cases call with
    | target call => exact lease_target_step inv call
    | broker call => exact lease_broker_step inv call
  have inv : LeaseInvariant aead target.core.binding broker.core.binding ack run last := always calls
  refine ⟨inv.increasing, inv.targetReceives.inOrder, ?_, ?_, direction_totals inv.targetSends inv.brokerReceives,
    direction_totals inv.brokerSends inv.targetReceives⟩
  · intro front step back counter split replied
    obtain ⟨first, call, rest, -, rfl, rfl, -⟩ := Runs.trace_split split
    have before := always first
    cases call with
    | broker call => cases replied
    | target call =>
        obtain ⟨-, pending⟩ := TargetLeaseConnection.call_acts aead
          (Runs.final (LeaseLink.step aead handshakes) start first).brokerSent handshakes
          (Runs.final (LeaseLink.step aead handshakes) start first).target call
        have owed := before.targetPending
        rw [(pending.replied counter replied).1] at owed
        have sorted := before.increasing.sublist before.targetReceives.inOrder.sublist
        refine ⟨by rw [owed]; simp, fun again => ?_⟩
        rw [owed] at sorted
        exact absurd ((List.pairwise_append.mp sorted).2.2 counter again counter (by simp)) (lt_irrefl _)
  · intro front step back counter split confirmed
    obtain ⟨first, call, rest, -, rfl, rfl, -⟩ := Runs.trace_split split
    have before := always first
    have after := always (first ++ [call])
    cases call with
    | target call => cases confirmed
    | broker call =>
        obtain ⟨-, pending⟩ := BrokerLeaseConnection.call_acts aead
          (Runs.final (LeaseLink.step aead handshakes) start first).targetSent handshakes
          (Runs.final (LeaseLink.step aead handshakes) start first).broker call
        have waits := (pending.confirmed counter confirmed).1
        have asked := before.brokerPending
        rw [waits] at asked
        refine ⟨waits, asked, ?_⟩
        have inOrder := after.brokerReceives.inOrder
        simp only [Runs.trace_append, Runs.trace, filterMap_snoc] at inOrder
        have answered := inOrder.subset (List.mem_append_right _ (Option.mem_toList.mpr confirmed))
        simpa [replyOf] using answered

/-! ## A lease with one heartbeat -/

namespace LeaseRun

open LinkRun (nonceAead handshakes recordFrame)

def acknowledgement : TargetBootstrapAck where
  targetReferenceDigest := FixedBytes.replicate 32 1
  leaseId := FixedBytes.replicate 16 2
  processGeneration := 1
  listenerEpoch := 1
  nkHandshakeHash := FixedBytes.replicate 32 3

def bootstrap : BootstrapBinding where
  targetReferenceDigest := FixedBytes.replicate 32 1
  leaseId := FixedBytes.replicate 16 2
  targetNonce := FixedBytes.replicate 32 4
  appArtifactDigest := FixedBytes.replicate 32 5
  expiryMs := 1

def binding : LeaseBinding := .fromAck acknowledgement

def ackFrame : Bytes := recordFrame 0 .finished (bootstrapAckPayload acknowledgement)

def target : TargetLeaseConnection AeadState :=
  ⟨{ transport := some ⟨1, 0⟩, binding, sentRecords := 1, sentPlaintext := 107, receivedRecords := 0
     receivedPlaintext := 0 }⟩

def broker : BrokerLeaseConnection AeadState :=
  ⟨{ transport := some ⟨0, 1⟩, binding, sentRecords := 0, sentPlaintext := 0, receivedRecords := 1
     receivedPlaintext := 107 }⟩

/-- A request, its acceptance, the reply and its confirmation. -/
def calls : List LeaseLinkCall :=
  [.broker (.writeHeartbeatRequest 1), .target (.readHeartbeatRequest (recordFrame 0 .heartbeat (heartbeatBytes 1 binding 1))),
    .target (.writeHeartbeatReply 1), .broker (.readHeartbeatReply (recordFrame 1 .heartbeat (heartbeatBytes 2 binding 1)))]

set_option maxRecDepth 8000 in
theorem acknowledged : writeAck (nonceAead.noise handshakes .target []) ⟨0, 0⟩ acknowledgement =
    .ok (ackFrame, target) := rfl

set_option maxRecDepth 8000 in
theorem received : readAck (nonceAead.noise handshakes .broker [frameCiphertext ackFrame]) ⟨0, 0⟩ bootstrap
    (FixedBytes.replicate 32 3) ackFrame = .ok (acknowledgement, broker) := rfl

end LeaseRun

open LeaseRun LinkRun in
theorem one_heartbeat_agrees :
    let run := Runs.trace (LeaseLink.step nonceAead handshakes)
      ⟨target, broker, [frameCiphertext ackFrame], []⟩ LeaseRun.calls
    run.filterMap requestOf = [1] ∧ run.filterMap replyOf = [1] ∧ run.filterMap confirmOf = [1] ∧
      run.filterMap acceptOf <+: run.filterMap requestOf := by
  have agreed := heartbeats_agree nonceAead handshakes acknowledgement acknowledgement bootstrap
    (FixedBytes.replicate 32 3) ackFrame ackFrame target broker acknowledged received LeaseRun.calls
  exact ⟨by decide +kernel, by decide +kernel, by decide +kernel, agreed.2.1⟩

end AppPilotKit.Transport
