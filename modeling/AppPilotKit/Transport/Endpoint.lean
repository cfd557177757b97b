import AppPilotKit.Transport.Fragments
import AppPilotKit.Transport.Noise

/-! # Endpoints over an ideal ordered AEAD

What a session does to the stream of records between two sides, without its
counters, limits and handshake messages. An endpoint is alive while it has a
handshake or a transport. `Act` lists everything a call may do, and `Direction`
is what one direction of the stream keeps: the sender's records are its
Finished, the fragments of its messages and possibly a Close, and the receiver
has consumed a part of them.
-/

namespace AppPilotKit.Transport

open Wire

inductive Side where
  | target
  | broker
  deriving Repr, DecidableEq

def Side.peer : Side → Side
  | .target => .broker
  | .broker => .target

/-- How many messages of each direction a transport has sealed and opened. -/
structure AeadState where
  sent : Nat
  received : Nat
  deriving Repr, DecidableEq

/-- Sealing under the keys of a side and a nonce; opening inverts it. -/
structure IdealAead where
  encrypt : Side → Nat → Bytes → Bytes
  decrypt : Side → Nat → Bytes → Option Bytes
  decrypt_encrypt : ∀ side nonce plaintext, decrypt side nonce (encrypt side nonce plaintext) = some plaintext
  encrypt_length : ∀ side nonce plaintext, (encrypt side nonce plaintext).length = plaintext.length + Noise.tagLen

structure Endpoint where
  handshaking : Bool
  transport : Option AeadState
  sentFinished : Bool
  gotFinished : Bool
  peerTurn : Bool
  active : Option (RecordKind × Nat × Bytes)

variable (aead : IdealAead) (side : Side)

/-- `read_message` on the next ciphertext of the peer gives this plaintext. -/
def Opens (peer : List Bytes) (t : AeadState) (plaintext : Bytes) : Prop :=
  ∃ ciphertext, peer[t.received]? = some ciphertext ∧
    aead.decrypt side.peer t.received ciphertext = some plaintext

/-- One call of a side whose peer has sent the ciphertexts `peer`: the records
    it seals, the message it sends and the message it delivers. -/
inductive Act (peer : List Bytes) :
    Endpoint → List Record → Option Bytes → Option Bytes → Endpoint → Prop where
  | keep {e} : Act peer e [] none none e
  | stop {e e'} (noTransport : e'.transport = none) (noHandshake : e'.handshaking = false)
      (turn : e'.peerTurn = e.peerTurn) : Act peer e [] none none e'
  | close {e e' t record} (had : e.transport = some t) (kind : record.kind = .close) (fits : record.Encodable)
      (noTransport : e'.transport = none) (noHandshake : e'.handshaking = false)
      (turn : e'.peerTurn = e.peerTurn) : Act peer e [record] none none e'
  | establish {e} (had : e.handshaking = true) :
      Act peer e [] none none { e with handshaking := false, transport := some ⟨0, 0⟩ }
  | writeFinished {e t record} (had : e.transport = some t) (first : e.sentFinished = false)
      (kind : record.kind = .finished) (fits : record.Encodable) :
      Act peer e [record] none none
        { e with transport := some { t with sent := t.sent + 1 }, sentFinished := true }
  | readFinished {e t plaintext record} (had : e.transport = some t) (first : e.gotFinished = false)
      (opens : Opens aead side peer t plaintext) (decodes : Record.decode plaintext = .ok record)
      (kind : record.kind = .finished) :
      Act peer e [] none none
        { e with transport := some { t with received := t.received + 1 }, gotFinished := true }
  | write {e t payload} (had : e.transport = some t) (sent : e.sentFinished = true) (turn : e.peerTurn = false)
      (nonempty : payload ≠ []) (small : payload.length < 2 ^ 32) :
      Act peer e (fragments .application payload) (some payload) none
        { e with
          transport := some { t with sent := t.sent + (fragments .application payload).length }
          peerTurn := true }
  | fragment {e t plaintext record r r'} (had : e.transport = some t) (got : e.gotFinished = true)
      (opens : Opens aead side peer t plaintext) (decodes : Record.decode plaintext = .ok record)
      (kind : record.kind = .application) (state : r.active = e.active)
      (accepts : RecordReassembler.accept r record = (.ok none, r')) :
      Act peer e [] none none
        { e with transport := some { t with received := t.received + 1 }, active := r'.active }
  | deliver {e t plaintext record r r' bytes} (had : e.transport = some t) (got : e.gotFinished = true)
      (turn : e.peerTurn = true)
      (opens : Opens aead side peer t plaintext) (decodes : Record.decode plaintext = .ok record)
      (kind : record.kind = .application) (state : r.active = e.active)
      (accepts : RecordReassembler.accept r record = (.ok (some bytes), r')) :
      Act peer e [] none (some bytes.2)
        { e with
          transport := some { t with received := t.received + 1 }, active := r'.active, peerTurn := false }

/-! ## One direction of the stream -/

/-- The fragments of a sequence of messages, in order. -/
def messageRecords (messages : List Bytes) : List Record := messages.flatMap (fragments .application)

/-- The ciphertexts of a sequence of records. -/
def IdealAead.ciphertexts (records : List Record) : List Bytes :=
  records.mapIdx fun nonce record => aead.encrypt side nonce record.wire

/-- How far a receiver is in `messages`, `index` records into the stream. -/
structure Progress (messages delivered : List Bytes) (index : Nat) (e : Endpoint) : Prop where
  waiting : e.gotFinished = false → index = 0 ∧ delivered = [] ∧ e.active = none
  reading : e.gotFinished = true → ∃ pieces, index = 1 + (messageRecords delivered).length + pieces ∧
    (pieces = 0 ∧ e.active = none ∨
      0 < pieces ∧ ∃ message rest, messages = delivered ++ message :: rest ∧ pieces < fragmentCount message ∧
        e.active = some (.application, message.length, message.take (pieces * recordDataMax)))

/-- The records a sender has sealed for its messages. -/
structure Sends (records : List Record) (messages : List Bytes) (e : Endpoint) : Prop where
  encodable : ∀ record ∈ records, record.Encodable
  usable : ∀ message ∈ messages, message ≠ [] ∧ message.length < 2 ^ 32
  shape : ∃ opening closing, records = opening ++ messageRecords messages ++ closing ∧
    (opening = [] ∧ messages = [] ∨ ∃ record, record.kind = .finished ∧ opening = [record]) ∧
    (closing = [] ∨ ∃ record, record.kind = .close ∧ closing = [record]) ∧
    (∀ t, e.transport = some t → closing = [] ∧ (e.sentFinished = true ↔ opening ≠ []))
  count : ∀ t, e.transport = some t → t.sent = records.length
  unsent : e.handshaking = true → records = [] ∧ e.sentFinished = false ∧ e.transport = none

/-- What a receiver has delivered of the messages of its peer. -/
structure Receives (messages delivered : List Bytes) (e : Endpoint) : Prop where
  unread : e.handshaking = true → e.gotFinished = false ∧ e.active = none ∧ delivered = [] ∧ e.transport = none
  progress : ∀ t, e.transport = some t → Progress messages delivered t.received e
  inOrder : delivered <+: messages

theorem messageRecords_append (front back : List Bytes) :
    messageRecords (front ++ back) = messageRecords front ++ messageRecords back := by
  simp [messageRecords]

theorem messageRecords_cons (message : Bytes) (rest : List Bytes) :
    messageRecords (message :: rest) = fragments .application message ++ messageRecords rest := by
  simp [messageRecords]

namespace RecordReassembler

variable {r r' : RecordReassembler} {record : Record}

/-- Records that leave a message incomplete. -/
theorem accept_none (h : r.accept record = (.ok none, r')) : record.end = false ∧
    (record.start = true ∧ r'.active = some (record.kind, record.totalLen, record.data) ∨
      record.start = false ∧ ∃ kind total assembled, r.active = some (kind, total, assembled) ∧
        r'.active = some (kind, total, assembled ++ record.data)) := by
  obtain ⟨-, -, -, accepted⟩ := accept_ok h
  generalize r.active = before at accepted ⊢
  generalize r'.active = after at accepted ⊢
  cases accepted with
  | first start stop => exact ⟨stop, .inl ⟨start, rfl⟩⟩
  | next start stop => exact ⟨stop, .inr ⟨start, _, _, _, rfl, rfl⟩⟩

/-- Records that complete a message. -/
theorem accept_some {message : RecordKind × Bytes} (h : r.accept record = (.ok (some message), r')) :
    record.end = true ∧ r'.active = none ∧ r'.failed = false ∧
    (record.start = true ∧ r.active = none ∧ message.2 = record.data ∨
      record.start = false ∧ ∃ kind total assembled, r.active = some (kind, total, assembled) ∧
        message.2 = assembled ++ record.data) := by
  obtain ⟨-, sound, -, accepted⟩ := accept_ok h
  generalize r.active = before at accepted ⊢
  generalize r'.active = after at accepted ⊢
  cases accepted with
  | whole start stop => exact ⟨stop, rfl, sound, .inl ⟨start, rfl, rfl⟩⟩
  | last start stop => exact ⟨stop, rfl, sound, .inr ⟨start, _, _, _, rfl, rfl⟩⟩

end RecordReassembler

/-! ## What an act does to a direction -/

section

variable {aead side} {records new : List Record} {messages delivered peer : List Bytes}
  {wrote got : Option Bytes} {e e' : Endpoint}

namespace Sends

/-- An endpoint that is over sends nothing more. -/
theorem stopped (s : Sends records messages e) (noTransport : e'.transport = none)
    (noHandshake : e'.handshaking = false) : Sends records messages e' := by
  obtain ⟨opening, closing, shape, opens, closes, -⟩ := s.shape
  refine ⟨s.encodable, s.usable, ⟨opening, closing, shape, opens, closes, ?_⟩, ?_, ?_⟩
  · intro t had
    rw [noTransport] at had
    cases had
  · intro t had
    rw [noTransport] at had
    cases had
  · intro had
    rw [noHandshake] at had
    cases had

/-- Reading does not change what was sent. -/
theorem read (s : Sends records messages e) {t : AeadState} (had : e.transport = some t) (received : Nat)
    (gotFinished peerTurn : Bool) (active : Option (RecordKind × Nat × Bytes)) :
    Sends records messages
      { e with transport := some { t with received }, gotFinished, peerTurn, active } := by
  obtain ⟨opening, closing, shape, opens, closes, alive⟩ := s.shape
  refine ⟨s.encodable, s.usable, ⟨opening, closing, shape, opens, closes, ?_⟩, ?_, ?_⟩
  · intro t' same
    exact alive t had
  · intro t' same
    cases same
    exact s.count t had
  · intro handshaking
    obtain ⟨-, -, none⟩ := s.unsent handshaking
    rw [none] at had
    cases had

theorem close (s : Sends records messages e) {t : AeadState} (had : e.transport = some t) {record : Record}
    (kind : record.kind = .close) (fits : record.Encodable) (noTransport : e'.transport = none)
    (noHandshake : e'.handshaking = false) : Sends (records ++ [record]) messages e' := by
  obtain ⟨opening, closing, shape, opens, closes, alive⟩ := s.shape
  obtain ⟨rfl, -⟩ := alive t had
  refine ⟨?_, s.usable, ⟨opening, [record], by simp [shape], opens, .inr ⟨record, kind, rfl⟩, ?_⟩, ?_, ?_⟩
  · intro other member
    rcases List.mem_append.mp member with old | last
    · exact s.encodable other old
    · rw [List.mem_singleton.mp last]
      exact fits
  · intro t had
    rw [noTransport] at had
    cases had
  · intro t had
    rw [noTransport] at had
    cases had
  · intro had
    rw [noHandshake] at had
    cases had

theorem establish (s : Sends records messages e) (had : e.handshaking = true) :
    Sends records messages { e with handshaking := false, transport := some ⟨0, 0⟩ } := by
  obtain ⟨empty, unfinished, -⟩ := s.unsent had
  obtain ⟨opening, closing, shape, opens, closes, -⟩ := s.shape
  rw [empty] at shape
  obtain ⟨rfl, -, rfl⟩ : opening = [] ∧ messageRecords messages = [] ∧ closing = [] := by
    simpa using shape.symm
  refine ⟨s.encodable, s.usable, ⟨[], [], by simpa [empty] using shape, opens, .inl rfl, ?_⟩, ?_, ?_⟩
  · intro t same
    simp [unfinished]
  · intro t same
    cases same
    simp [empty]
  · intro handshaking
    cases handshaking

theorem writeFinished (s : Sends records messages e) {t : AeadState} (had : e.transport = some t)
    (first : e.sentFinished = false) {record : Record} (kind : record.kind = .finished) (fits : record.Encodable) :
    Sends (records ++ [record]) messages
      { e with transport := some { t with sent := t.sent + 1 }, sentFinished := true } := by
  obtain ⟨opening, closing, shape, opens, closes, alive⟩ := s.shape
  obtain ⟨rfl, finished⟩ := alive t had
  have unopened : opening = [] := by
    by_contra nonempty
    rw [finished.mpr nonempty] at first
    cases first
  subst unopened
  obtain ⟨-, rfl⟩ | ⟨_, -, impossible⟩ := opens
  · have empty : records = [] := by simpa [messageRecords] using shape
    subst empty
    refine ⟨?_, s.usable, ⟨[record], [], by simp [messageRecords], .inr ⟨record, kind, rfl⟩, .inl rfl, ?_⟩, ?_, ?_⟩
    · intro other member
      rw [List.mem_singleton.mp member]
      exact fits
    · intro t' same
      simp
    · intro t' same
      cases same
      simpa using s.count t had
    · intro handshaking
      obtain ⟨-, -, none⟩ := s.unsent handshaking
      rw [none] at had
      cases had
  · cases impossible

theorem write (s : Sends records messages e) {t : AeadState} (had : e.transport = some t)
    (sent : e.sentFinished = true) {payload : Bytes} (nonempty : payload ≠ []) (small : payload.length < 2 ^ 32) :
    Sends (records ++ fragments .application payload) (messages ++ [payload])
      { e with
        transport := some { t with sent := t.sent + (fragments .application payload).length }
        peerTurn := true } := by
  obtain ⟨opening, closing, shape, opens, closes, alive⟩ := s.shape
  obtain ⟨rfl, finished⟩ := alive t had
  have opened : opening ≠ [] := finished.mp sent
  refine ⟨?_, ?_, ⟨opening, [], ?_, ?_, .inl rfl, ?_⟩, ?_, ?_⟩
  · intro record member
    rcases List.mem_append.mp member with old | piece
    · exact s.encodable record old
    · exact fragments_encodable .application small record piece
  · intro message member
    rcases List.mem_append.mp member with old | last
    · exact s.usable message old
    · rw [List.mem_singleton.mp last]
      exact ⟨nonempty, small⟩
  · simp [shape, messageRecords]
  · rcases opens with ⟨unopened, -⟩ | one
    · exact absurd unopened opened
    · exact .inr one
  · intro t' same
    exact ⟨rfl, finished⟩
  · intro t' same
    cases same
    simp [s.count t had]
  · intro handshaking
    obtain ⟨-, -, none⟩ := s.unsent handshaking
    rw [none] at had
    cases had

/-- Every act keeps the account of what its side has sent. -/
theorem act (s : Sends records messages e) (act : Act aead side peer e new wrote got e') :
    Sends (records ++ new) (messages ++ wrote.toList) e' := by
  cases act with
  | keep => simpa using s
  | stop noTransport noHandshake turn => simpa using s.stopped noTransport noHandshake
  | close had kind fits noTransport noHandshake turn =>
      simpa using s.close had kind fits noTransport noHandshake
  | establish had => simpa using s.establish had
  | writeFinished had first kind fits => simpa using s.writeFinished had first kind fits
  | readFinished had first opens decodes kind => simpa using s.read had _ _ _ _
  | write had sent turn nonempty small => exact s.write had sent nonempty small
  | fragment had got opens decodes kind state accepts => simpa using s.read had _ _ _ _
  | deliver had got turn opens decodes kind state accepts => simpa using s.read had _ _ _ _

end Sends

/-- The record a ciphertext of the sender opens to. -/
theorem opened_record {sent : List Record} (encodable : ∀ sealed ∈ sent, sealed.Encodable) {t : AeadState}
    {plaintext : Bytes} {record : Record} (opens : Opens aead side (aead.ciphertexts side.peer sent) t plaintext)
    (decodes : Record.decode plaintext = .ok record) :
    sent[t.received]? = some record ∧ plaintext = record.wire := by
  obtain ⟨ciphertext, located, decrypted⟩ := opens
  simp only [IdealAead.ciphertexts, List.getElem?_mapIdx, Option.map_eq_some_iff] at located
  obtain ⟨sealed, found, rfl⟩ := located
  rw [aead.decrypt_encrypt] at decrypted
  cases decrypted
  rw [Record.decode_wire (encodable sealed (List.mem_of_getElem? found))] at decodes
  cases decodes
  exact ⟨found, rfl⟩

theorem Sends.opened (s : Sends records messages e) {t : AeadState} {plaintext : Bytes} {record : Record}
    (opens : Opens aead side (aead.ciphertexts side.peer records) t plaintext)
    (decodes : Record.decode plaintext = .ok record) : records[t.received]? = some record :=
  (opened_record s.encodable opens decodes).1

/-- The next application record continues the first undelivered message. -/
theorem Sends.next_piece (s : Sends records messages e) (inOrder : delivered <+: messages) {pieces : Nat}
    {record : Record}
    (found : records[1 + (messageRecords delivered).length + pieces]? = some record)
    (kind : record.kind = .application)
    (begun : pieces = 0 ∨ ∃ message rest, messages = delivered ++ message :: rest ∧
      pieces < fragmentCount message) :
    ∃ message rest, messages = delivered ++ message :: rest ∧ pieces < fragmentCount message ∧
      record = fragment .application message pieces (chunk message pieces) := by
  obtain ⟨opening, closing, shape, opens, closes, -⟩ := s.shape
  obtain ⟨remaining, rfl⟩ := inOrder
  have located : (messageRecords remaining ++ closing)[pieces]? = some record := by
    rcases opens with ⟨rfl, none⟩ | ⟨first, -, rfl⟩
    · have short : records.length ≤ 1 := by
        rw [shape, none]
        rcases closes with rfl | ⟨last, -, rfl⟩ <;> simp [messageRecords]
      rw [List.getElem?_eq_none (by omega)] at found
      cases found
    · rw [shape, messageRecords_append, List.singleton_append, List.cons_append] at found
      rw [show 1 + (messageRecords delivered).length + pieces = ((messageRecords delivered).length + pieces) + 1 by
        omega, List.getElem?_cons_succ, List.append_assoc,
        List.getElem?_append_right (Nat.le_add_right _ _), Nat.add_sub_cancel_left] at found
      exact found
  cases remaining with
  | nil =>
      exfalso
      rcases begun with rfl | ⟨message, rest, split, -⟩
      · rcases closes with rfl | ⟨last, lastKind, rfl⟩
        · simp [messageRecords] at located
        · simp only [messageRecords, List.flatMap_nil, List.nil_append, List.getElem?_cons_zero,
            Option.some.injEq] at located
          rw [← located, lastKind] at kind
          cases kind
      · simp at split
  | cons message rest =>
      have bound : pieces < fragmentCount message := by
        rcases begun with rfl | ⟨other, rest', split, bound⟩
        · exact fragmentCount_pos (s.usable message (by simp)).1
        · obtain ⟨rfl, -⟩ : message = other ∧ rest = rest' := by simpa using split
          exact bound
      refine ⟨message, rest, rfl, bound, ?_⟩
      rw [messageRecords_cons, List.append_assoc,
        List.getElem?_append_left (by rw [fragments_length]; exact bound)] at located
      simp only [fragments, List.getElem?_map, List.getElem?_range bound, Option.map_some,
        Option.some.injEq] at located
      exact located.symm

namespace Receives

/-- More messages of the sender change nothing for the receiver. -/
theorem more (r : Receives messages delivered e) (extra : List Bytes) :
    Receives (messages ++ extra) delivered e := by
  refine ⟨r.unread, ?_, r.inOrder.trans (List.prefix_append _ _)⟩
  intro t had
  obtain ⟨waiting, reading⟩ := r.progress t had
  refine ⟨waiting, fun got => ?_⟩
  obtain ⟨pieces, index, idle | ⟨some, message, rest, split, bound, active⟩⟩ := reading got
  · exact ⟨pieces, index, .inl idle⟩
  · exact ⟨pieces, index, .inr ⟨some, message, rest ++ extra, by simp [split], bound, active⟩⟩

theorem stopped (r : Receives messages delivered e) (noTransport : e'.transport = none)
    (noHandshake : e'.handshaking = false) : Receives messages delivered e' := by
  refine ⟨?_, ?_, r.inOrder⟩
  · intro had
    rw [noHandshake] at had
    cases had
  · intro t had
    rw [noTransport] at had
    cases had

/-- Writing does not change what was received. -/
theorem written (r : Receives messages delivered e) {t : AeadState} (had : e.transport = some t) (sent : Nat)
    (sentFinished peerTurn : Bool) :
    Receives messages delivered { e with transport := some { t with sent }, sentFinished, peerTurn } := by
  refine ⟨?_, ?_, r.inOrder⟩
  · intro handshaking
    obtain ⟨-, -, -, none⟩ := r.unread handshaking
    rw [none] at had
    cases had
  · intro t' same
    cases same
    exact ⟨(r.progress t had).waiting, (r.progress t had).reading⟩

theorem establish (r : Receives messages delivered e) (had : e.handshaking = true) :
    Receives messages delivered { e with handshaking := false, transport := some ⟨0, 0⟩ } := by
  obtain ⟨unfinished, idle, empty, -⟩ := r.unread had
  refine ⟨?_, ?_, r.inOrder⟩
  · intro handshaking
    cases handshaking
  · intro t same
    cases same
    refine ⟨fun _ => ⟨rfl, empty, idle⟩, fun got => ?_⟩
    rw [unfinished] at got
    cases got

/-- Taking the next record of the stream. -/
theorem advanced (r : Receives messages delivered e) {t : AeadState} (had : e.transport = some t)
    (more : List Bytes) (gotFinished peerTurn : Bool) (active : Option (RecordKind × Nat × Bytes))
    (inOrder : delivered ++ more <+: messages)
    (progress : Progress messages (delivered ++ more) (t.received + 1)
      { e with transport := some { t with received := t.received + 1 }, gotFinished, peerTurn, active }) :
    Receives messages (delivered ++ more)
      { e with transport := some { t with received := t.received + 1 }, gotFinished, peerTurn, active } := by
  refine ⟨?_, ?_, inOrder⟩
  · intro handshaking
    obtain ⟨-, -, -, none⟩ := r.unread handshaking
    rw [none] at had
    cases had
  · intro t' same
    cases same
    exact progress

theorem readFinished (r : Receives messages delivered e) {t : AeadState} (had : e.transport = some t)
    (first : e.gotFinished = false) :
    Receives messages delivered
      { e with transport := some { t with received := t.received + 1 }, gotFinished := true } := by
  obtain ⟨index, rfl, idle⟩ := (r.progress t had).waiting first
  have next := r.advanced had [] true e.peerTurn e.active (by simp) ⟨by simp, fun _ => ⟨0, by simp [messageRecords, index], .inl ⟨rfl, idle⟩⟩⟩
  simpa using next

variable {sender : Endpoint} {t : AeadState} {plaintext : Bytes} {record : Record} {ra ra' : RecordReassembler}

/-- The message an application record belongs to, and what was assembled of it. -/
theorem piece (r : Receives messages delivered e) (s : Sends records messages sender) (had : e.transport = some t)
    (finished : e.gotFinished = true)
    (opens : Opens aead side (aead.ciphertexts side.peer records) t plaintext)
    (decodes : Record.decode plaintext = .ok record) (kind : record.kind = .application) :
    ∃ message rest pieces, messages = delivered ++ message :: rest ∧ pieces < fragmentCount message ∧
      t.received = 1 + (messageRecords delivered).length + pieces ∧
      record = fragment .application message pieces (chunk message pieces) ∧
      (pieces = 0 ∧ e.active = none ∨ 0 < pieces ∧
        e.active = some (.application, message.length, message.take (pieces * recordDataMax))) := by
  obtain ⟨pieces, index, idle | ⟨some, message, rest, split, bound, active⟩⟩ :=
    (r.progress t had).reading finished
  · have found := s.opened opens decodes
    rw [index] at found
    obtain ⟨message, rest, split, bound, shape⟩ := s.next_piece r.inOrder found kind (.inl idle.1)
    exact ⟨message, rest, pieces, split, bound, index, shape, .inl idle⟩
  · have found := s.opened opens decodes
    rw [index] at found
    obtain ⟨other, rest', split', bound', shape⟩ := s.next_piece r.inOrder found kind
      (.inr ⟨message, rest, split, bound⟩)
    obtain ⟨rfl, -⟩ : message = other ∧ rest = rest' := by simpa [split] using split'
    exact ⟨message, rest, pieces, split, bound, index, shape, .inr ⟨some, active⟩⟩

/-- A record that leaves its message incomplete has extended it by one piece. -/
theorem fragment (r : Receives messages delivered e) (s : Sends records messages sender) (had : e.transport = some t)
    (finished : e.gotFinished = true)
    (opens : Opens aead side (aead.ciphertexts side.peer records) t plaintext)
    (decodes : Record.decode plaintext = .ok record) (kind : record.kind = .application)
    (state : ra.active = e.active) (accepts : ra.accept record = (.ok none, ra')) :
    Receives messages delivered
      { e with transport := some { t with received := t.received + 1 }, active := ra'.active } := by
  obtain ⟨message, rest, pieces, split, bound, index, rfl, stage⟩ := r.piece s had finished opens decodes kind
  obtain ⟨unfinished, taken⟩ := RecordReassembler.accept_none accepts
  have notLast : pieces + 1 ≠ fragmentCount message := by
    intro last
    rw [(fragment_end_iff .application bound).mpr last] at unfinished
    cases unfinished
  have assembled : ra'.active = some (.application, message.length, message.take ((pieces + 1) * recordDataMax)) := by
    rcases stage with ⟨rfl, idle⟩ | ⟨some, active⟩
    · rcases taken with ⟨-, begun⟩ | ⟨_, kind, total, assembled, impossible, -⟩
      · simpa [Transport.fragment, chunk] using begun
      · rw [state, idle] at impossible
        cases impossible
    · rcases taken with ⟨first, -⟩ | ⟨_, kind, total, assembled, previous, extended⟩
      · simp only [Transport.fragment, decide_eq_true_eq] at first
        omega
      · rw [state, active] at previous
        cases previous
        rw [extended, ← take_append_chunk]
        rfl
  have next := r.advanced had [] e.gotFinished e.peerTurn ra'.active (by simpa using r.inOrder)
    ⟨by simp [finished], fun _ => ⟨pieces + 1, by simp [index]; omega, .inr ⟨by omega, message, rest,
      by simpa using split, by omega, assembled⟩⟩⟩
  simpa using next

/-- A record that completes its message delivers exactly that message. -/
theorem deliver (r : Receives messages delivered e) (s : Sends records messages sender) (had : e.transport = some t)
    (finished : e.gotFinished = true)
    (opens : Opens aead side (aead.ciphertexts side.peer records) t plaintext)
    (decodes : Record.decode plaintext = .ok record) (kind : record.kind = .application)
    (state : ra.active = e.active) {bytes : RecordKind × Bytes}
    (accepts : ra.accept record = (.ok (some bytes), ra')) :
    Receives messages (delivered ++ [bytes.2])
      { e with
        transport := some { t with received := t.received + 1 }, active := ra'.active, peerTurn := false } := by
  obtain ⟨message, rest, pieces, split, bound, index, rfl, stage⟩ := r.piece s had finished opens decodes kind
  obtain ⟨isLast, idle, -, taken⟩ := RecordReassembler.accept_some accepts
  have last : pieces + 1 = fragmentCount message := (fragment_end_iff .application bound).mp isLast
  have whole : message.take ((pieces + 1) * recordDataMax) = message := by
    refine List.take_of_length_le ?_
    rw [last, fragmentCount, recordDataMax]
    omega
  have complete : bytes.2 = message := by
    rcases stage with ⟨rfl, none⟩ | ⟨some, active⟩
    · rcases taken with ⟨-, -, all⟩ | ⟨_, kind, total, assembled, impossible, -⟩
      · have first : chunk message 0 = message.take ((0 + 1) * recordDataMax) := by simp [chunk]
        calc bytes.2 = chunk message 0 := all
          _ = message.take ((0 + 1) * recordDataMax) := first
          _ = message := whole
      · rw [state, none] at impossible
        cases impossible
    · rcases taken with ⟨first, -⟩ | ⟨_, kind, total, assembled, previous, all⟩
      · simp only [Transport.fragment, decide_eq_true_eq] at first
        omega
      · rw [state, active] at previous
        cases previous
        calc bytes.2 = message.take (pieces * recordDataMax) ++ chunk message pieces := all
          _ = message.take ((pieces + 1) * recordDataMax) := take_append_chunk message pieces
          _ = message := whole
  subst complete
  refine r.advanced had [bytes.2] _ _ _ ⟨rest, by simp [split]⟩ ⟨by simp [finished], fun _ => ⟨0, ?_, .inl ⟨rfl, idle⟩⟩⟩
  rw [messageRecords_append, List.length_append, messageRecords_cons, List.length_append, fragments_length, ← last,
    index]
  simp [messageRecords]
  omega

/-- Every act keeps what its side delivered in order. -/
theorem act (r : Receives messages delivered e) (s : Sends records messages sender)
    (act : Act aead side (aead.ciphertexts side.peer records) e new wrote got e') :
    Receives messages (delivered ++ got.toList) e' := by
  cases act with
  | keep => simpa using r
  | stop noTransport noHandshake turn => simpa using r.stopped noTransport noHandshake
  | close had kind fits noTransport noHandshake turn => simpa using r.stopped noTransport noHandshake
  | establish had => simpa using r.establish had
  | writeFinished had first kind fits => simpa using r.written had _ _ _
  | readFinished had first opens decodes kind => simpa using r.readFinished had first
  | write had sent turn nonempty small => simpa using r.written had _ _ _
  | fragment had finished opens decodes kind state accepts =>
      simpa using r.fragment s had finished opens decodes kind state accepts
  | deliver had finished turn opens decodes kind state accepts =>
      exact r.deliver s had finished opens decodes kind state accepts

end Receives

end

end AppPilotKit.Transport
