import AppPilotKit.Ffi.Generations
import AppPilotKit.Ffi.Requests

/-! # Who owns an output

An output is stored by a call that holds the busy flag of its supervisor and has seen that it is
not retired. A supervisor is retired before it leaves its registry, so nothing is stored
for it after that, and its outputs are removed before the call that ends it returns.
-/

namespace AppPilotKit.Ffi

open Transport Target Threads
open Wire (Bytes)

variable {R H T : Type}

/-- The call holds the busy flag and has found the supervisor not retired. -/
def Point.Admitted : Point → Prop
  | .classify | .probeTimer _ | .record _ _ | .takeBusy | .checkRetired | .releaseBusy | .returned => False
  | _ => True

theorem Point.Admitted.holding {point : Point} (admitted : point.Admitted) : point.Holding := by
  cases point <;> first | exact admitted.elim | trivial

namespace Library

/-- The entry in a place is busy. -/
def Busy (l : Library H T) (place : Nat) : Prop := ∃ entry, l.entries[place]? = some entry ∧ entry.busy = true

/-- The entry in a place is retired. -/
def Retired (l : Library H T) (place : Nat) : Prop := ∃ entry, l.entries[place]? = some entry ∧ entry.retired = true

/-- A handle whose entry was looked up: it still names the entry, or the entry is retired and
    the handle is gone. -/
def Tied (l : Library H T) (handle place : Nat) : Prop :=
  place < l.entries.length ∧ (l.supervisors.get handle = some place ∨ l.supervisors.Gone handle ∧ l.Retired place)

/-- Nobody has heard of the handle. -/
def Untold (l : Library H T) (handle : Nat) : Prop :=
  .created handle ∉ l.history ∧ ∀ output bytes, .announced output handle bytes ∉ l.history

/-- A handle that was given out names its supervisor until that is taken out. -/
def Known (l : Library H T) (handle : Nat) : Prop :=
  (∃ place, l.supervisors.get handle = some place) ∨ .unregistered handle ∈ l.history

/-- What all calls keep. -/
structure Sound (l : Library H T) : Prop where
  supervisors : l.supervisors.Positive
  outputs : l.outputs.Positive
  places : ∀ handle place, l.supervisors.get handle = some place → place < l.entries.length
  created : ∀ handle, .created handle ∈ l.history → l.Known handle
  unregistered : ∀ handle, .unregistered handle ∈ l.history → l.supervisors.Gone handle
  ended : ∀ handle, .ended handle ∈ l.history →
    l.supervisors.Gone handle ∧ ∀ entry, l.outputs.Holds entry → entry.owner ≠ handle
  live : ∀ output entry, l.outputs.get output = some entry → .announced output entry.owner entry.bytes ∈ l.history
  announced : ∀ output owner bytes, .announced output owner bytes ∈ l.history → l.Known owner ∧
    (l.outputs.get output = some ⟨owner, bytes⟩ ∨
      l.outputs.Gone output ∧ (.dropped output ∈ l.history ∨ .unregistered owner ∈ l.history))
  once : ∀ output owner bytes owner' bytes', .announced output owner bytes ∈ l.history →
    .announced output owner' bytes' ∈ l.history → owner = owner' ∧ bytes = bytes'
  copied : ∀ output bytes, .copied output bytes ∈ l.history → ∃ owner, .announced output owner bytes ∈ l.history

end Library

namespace Task

/-- The call holds the busy flag of the entry in a place. -/
def Holds (place : Nat) : Task H T → Prop
  | driving _ there call => there = place ∧ call.point.Holding
  | retire _ _ there | shut _ _ there | unregister _ _ there | sweep _ there | release _ there _ => there = place
  | _ => False

/-- The call is about to tell its caller about a supervisor that it has created. -/
def Creates (handle : Nat) : Task H T → Prop
  | createPublish made _ | createUndo made => made = handle
  | _ => False

/-- What a call keeps. -/
def Sound (l : Library H T) : Task H T → Prop
  | createPublish handle _ | createUndo handle => l.Untold handle ∧ ∃ place, l.supervisors.get handle = some place
  | driving handle place call => .created handle ∈ l.history ∧ l.Tied handle place ∧ (call.point.Holding → l.Busy place) ∧
      (call.point.Admitted → ¬ l.Retired place)
  | claim _ handle place => .created handle ∈ l.history ∧ l.Tied handle place
  | retire _ handle place => .created handle ∈ l.history ∧ l.Tied handle place ∧ l.Busy place
  | shut _ handle place | unregister _ handle place =>
      .created handle ∈ l.history ∧ l.Tied handle place ∧ l.Busy place ∧ l.Retired place
  | sweep handle place => .unregistered handle ∈ l.history ∧ l.supervisors.Gone handle ∧ l.Busy place
  | release handle place status => l.Busy place ∧
      (status = .ok → l.supervisors.Gone handle ∧ ∀ entry, l.outputs.Holds entry → entry.owner ≠ handle)
  | create _ | drive _ _ | close _ _ | outputLen _ | outputCopy _ _ | outputDrop _ | returned _ => True

/-- Two calls hold no flag together and create no handle together. -/
def Apart (task other : Task H T) : Prop :=
  (∀ place, ¬ (task.Holds place ∧ other.Holds place)) ∧ ∀ handle, ¬ (task.Creates handle ∧ other.Creates handle)

/-- Callers use a handle that a create has returned. -/
def Handed (l : Library H T) : Task H T → Prop
  | drive handle _ => .created handle ∈ l.history
  | close _ handle => handle = 0 ∨ .created handle ∈ l.history
  | _ => True

end Task

/-- The handle was handed out, and no slot goes back to an earlier generation. -/
def Steady (noise : Noise R H T) (l : Library H T) (task : Task H T) (entropy : R) : Prop :=
  task.Handed l ∧ l.supervisors.Forward (l.next noise task entropy).1.supervisors ∧
    l.outputs.Forward (l.next noise task entropy).1.outputs

/-- The invariant of all calls. -/
def ownership : Parts (Library H T) (Task H T) where
  shared := Library.Sound
  own _ l task := task.Sound l
  apart := Task.Apart

/-! ## What a step does to the library -/

namespace Library

/-- What a step does to the entries. -/
structure Works (task : Task H T) (l l' : Library H T) : Prop where
  entries : l.entries.length ≤ l'.entries.length
  busy : ∀ place, l.Busy place → ¬ task.Holds place → l'.Busy place
  retired : ∀ place, l.Retired place → l'.Retired place
  unretired : ∀ place, place < l.entries.length → l'.Retired place → l.Retired place ∨ task.Holds place

/-- What the other calls see of a step. -/
structure Evolves (task : Task H T) (l l' : Library H T) : Prop extends Works task l l' where
  history : ∀ happening ∈ l.history, happening ∈ l'.history
  onward : l.supervisors.Onward l'.supervisors
  kept : ∀ handle place, l.supervisors.get handle = some place → l'.supervisors.get handle = some place ∨
    l'.supervisors.Gone handle ∧ (l'.Retired place ∧ .created handle ∈ l.history ∨ task.Creates handle)
  stored : ∀ entry, l'.outputs.Holds entry → l.outputs.Holds entry ∨ ∃ place, l.supervisors.get entry.owner = some place
  untold : ∀ handle, l.Untold handle → ¬ task.Creates handle → l'.Untold handle

variable {task : Task H T} {l l' : Library H T} {handle place owner output : Nat} {happening other : Happening} {bytes : Bytes}

@[simp] theorem record_supervisors : (l.record happening).supervisors = l.supervisors := rfl
@[simp] theorem record_outputs : (l.record happening).outputs = l.outputs := rfl
@[simp] theorem record_entries : (l.record happening).entries = l.entries := rfl

@[simp] theorem mem_record : other ∈ (l.record happening).history ↔ other ∈ l.history ∨ other = happening := by
  rw [record, List.mem_append, List.mem_singleton]

theorem modify_getElem? {α : Type} (values : List α) (place other : Nat) (f : α → α) :
    (values.modify place f)[other]? = if place = other then values[other]?.map f else values[other]? := by
  rw [List.getElem?_modify]
  split_ifs with here
  · rfl
  · cases values[other]? <;> rfl

theorem Works.same (same : l'.entries = l.entries) : Works task l l' where
  entries := by rw [same]
  busy place busy _ := by rwa [Busy, same]
  retired place retired := by rwa [Retired, same]
  unretired place _ retired := .inl (by rwa [Retired, same] at retired)

theorem Works.append {entry : SupervisorEntry H T} (more : l'.entries = l.entries ++ [entry]) : Works task l l' where
  entries := by
    rw [more, List.length_append]
    exact Nat.le_add_right _ _
  busy place was _ := by
    obtain ⟨entry, found, flag⟩ := was
    exact ⟨entry, by rw [more, List.getElem?_append_left (List.getElem?_eq_some_iff.mp found).1, found], flag⟩
  retired place was := by
    obtain ⟨entry, found, flag⟩ := was
    exact ⟨entry, by rw [more, List.getElem?_append_left (List.getElem?_eq_some_iff.mp found).1, found], flag⟩
  unretired place before is := by
    obtain ⟨entry, found, flag⟩ := is
    rw [more, List.getElem?_append_left before] at found
    exact .inl ⟨entry, found, flag⟩

/-- One entry changes. Its flag is kept unless the call holds it. -/
theorem Works.update {f : SupervisorEntry H T → SupervisorEntry H T} (same : l'.entries = l.entries.modify place f)
    (busy : ∀ entry, l.entries[place]? = some entry → entry.busy = true → (f entry).busy = true ∨ task.Holds place)
    (retired : ∀ entry, l.entries[place]? = some entry → entry.retired = true → (f entry).retired = true)
    (unretired : ∀ entry, l.entries[place]? = some entry → (f entry).retired = true → entry.retired = true ∨ task.Holds place) :
    Works task l l' := by
  have there (other : Nat) : l'.entries[other]? = if place = other then l.entries[other]?.map f else l.entries[other]? := by
    rw [same, modify_getElem?]
  refine ⟨by rw [same, List.length_modify], fun other was free => ?_, fun other was => ?_, fun other _ is => ?_⟩
  · obtain ⟨entry, found, flag⟩ := was
    by_cases here : place = other
    · subst here
      refine ⟨f entry, by rw [there, if_pos rfl, found]; rfl, (busy entry found flag).resolve_right free⟩
    · exact ⟨entry, by rw [there, if_neg here, found], flag⟩
  · obtain ⟨entry, found, flag⟩ := was
    by_cases here : place = other
    · subst here
      exact ⟨f entry, by rw [there, if_pos rfl, found]; rfl, retired entry found flag⟩
    · exact ⟨entry, by rw [there, if_neg here, found], flag⟩
  · obtain ⟨entry', found', flag⟩ := is
    rw [there] at found'
    by_cases here : place = other
    · subst here
      rw [if_pos rfl] at found'
      obtain ⟨entry, found, rfl⟩ := Option.map_eq_some_iff.mp found'
      exact (unretired entry found flag).imp_left fun was => ⟨entry, found, was⟩
    · rw [if_neg here] at found'
      exact .inl ⟨entry', found', flag⟩

/-- A step that leaves the supervisors where they are. -/
theorem Evolves.of_works (works : Works task l l') (supervisors : l'.supervisors = l.supervisors)
    (history : ∀ happening ∈ l.history, happening ∈ l'.history)
    (stored : ∀ entry, l'.outputs.Holds entry → l.outputs.Holds entry ∨ ∃ place, l.supervisors.get entry.owner = some place)
    (untold : ∀ handle, l.Untold handle → ¬ task.Creates handle → l'.Untold handle) : Evolves task l l' where
  toWorks := works
  history := history
  onward := by
    rw [supervisors]
    exact .refl _
  kept handle place named := .inl (by rwa [supervisors])
  stored := stored
  untold := untold

/-- A step that changes entries only. -/
theorem Evolves.entries_only (works : Works task l l') (supervisors : l'.supervisors = l.supervisors)
    (outputs : l'.outputs = l.outputs) (history : l'.history = l.history) : Evolves task l l' := by
  refine .of_works works supervisors (fun _ member => by rwa [history]) (fun _ held => .inl (by rwa [outputs] at held)) ?_
  intro handle untold _
  rwa [Untold, history]

theorem Untold.record (untold : l.Untold handle) (uncreated : happening ≠ .created handle)
    (unannounced : ∀ output bytes, happening ≠ .announced output handle bytes) : (l.record happening).Untold handle := by
  refine ⟨fun member => ?_, fun output bytes member => ?_⟩
  · exact (mem_record.mp member).elim untold.1 fun same => uncreated same.symm
  · exact (mem_record.mp member).elim (untold.2 output bytes) fun same => unannounced output bytes same.symm

/-- Nothing is stored, or the bytes are, with a handle or without one. -/
theorem publish_cases (l : Library H T) (owner : Nat) (outcome : Outcome) :
    outcome.bytes = none ∧ l.publishOutcome owner outcome = (.ok 0, l) ∨
      ∃ bytes, outcome.bytes = some bytes ∧
        ((∃ output, (l.outputs.insert ⟨owner, bytes⟩).1 = .ok output ∧ l.publishOutcome owner outcome =
            (.ok output, { l with outputs := (l.outputs.insert ⟨owner, bytes⟩).2 }.record (.announced output owner bytes))) ∨
          (l.outputs.insert ⟨owner, bytes⟩).1 = .error () ∧
            l.publishOutcome owner outcome = (.error (), { l with outputs := (l.outputs.insert ⟨owner, bytes⟩).2 })) := by
  unfold publishOutcome
  cases stored : outcome.bytes with
  | none => exact .inl ⟨rfl, rfl⟩
  | some bytes =>
      refine .inr ⟨bytes, rfl, ?_⟩
      dsimp only
      cases answer : (l.outputs.insert ⟨owner, bytes⟩).1 with
      | ok output => exact .inl ⟨output, rfl, rfl⟩
      | error => exact .inr ⟨rfl, rfl⟩

/-- What publishing changes, apart from the history. -/
theorem publish_same (l : Library H T) (owner : Nat) (outcome : Outcome) :
    (l.publishOutcome owner outcome).2.supervisors = l.supervisors ∧ (l.publishOutcome owner outcome).2.entries = l.entries := by
  rcases publish_cases l owner outcome with ⟨-, published⟩ | ⟨bytes, -, ⟨output, -, published⟩ | ⟨-, published⟩⟩
  all_goals
    rw [published]
    exact ⟨rfl, rfl⟩

theorem publish_history (l : Library H T) (owner : Nat) (outcome : Outcome) :
    (l.publishOutcome owner outcome).2.history = l.history ∨ ∃ output bytes, (l.publishOutcome owner outcome).2.history =
      l.history ++ [.announced output owner bytes] := by
  rcases publish_cases l owner outcome with ⟨-, published⟩ | ⟨bytes, -, ⟨output, -, published⟩ | ⟨-, published⟩⟩
  · rw [published]
    exact .inl rfl
  · rw [published]
    exact .inr ⟨output, bytes, rfl⟩
  · rw [published]
    exact .inl rfl

theorem publish_stored (l : Library H T) (owner : Nat) (outcome : Outcome) {entry : OutputEntry}
    (held : (l.publishOutcome owner outcome).2.outputs.Holds entry) : l.outputs.Holds entry ∨ entry.owner = owner := by
  rcases publish_cases l owner outcome with ⟨-, published⟩ | ⟨bytes, -, ⟨output, -, published⟩ | ⟨-, published⟩⟩
  · rw [published] at held
    exact .inl held
  all_goals
    rw [published] at held
    exact (Registry.insert_holds held).imp_right fun same => by rw [same]

end Library

/-! ## The steps of the calls -/

section
variable {noise : Noise R H T} {entry : SupervisorEntry H T} {call : Call}

theorem advance_retired (input : Input R) : (advance noise entry call input).1.retired = entry.retired := by
  cases point : call.point with
  | record request timer | takeBusy | lockGate onEntry outcome =>
      simp only [advance, point]
      split
      all_goals rfl
  | classify | probeTimer request | checkRetired | readReason | drive onEntry | refresh onEntry outcome
  | swapTerminal second onEntry outcome | applyTerminal second onEntry request | swapTimer second onEntry outcome
  | applyTimer second onEntry outcome timer | publish outcome | releaseBusy | returned =>
      simp only [advance, point]

/-- A call is admitted when it sees that the supervisor is not retired. -/
theorem advance_admitted (input : Input R) (unretired : call.point.Admitted → entry.retired = false)
    (admitted : (advance noise entry call input).2.point.Admitted) : entry.retired = false := by
  cases point : call.point with
  | checkRetired =>
      simp only [advance, point, Call.goto] at admitted
      split at admitted
      · exact admitted.elim
      · rename_i active
        simpa using active
  | record request timer =>
      simp only [advance, point] at admitted
      split at admitted
      · rw [point] at admitted
        exact admitted.elim
      · exact admitted.elim
  | probeTimer request | takeBusy =>
      simp only [advance, point, Call.goto] at admitted
      split at admitted
      all_goals exact admitted.elim
  | classify | publish outcome | releaseBusy =>
      simp only [advance, point] at admitted
      exact admitted.elim
  | returned =>
      simp only [advance, point] at admitted
      exact admitted.elim
  | readReason | drive onEntry | refresh onEntry outcome | swapTerminal second onEntry outcome
  | applyTerminal second onEntry request | swapTimer second onEntry outcome | applyTimer second onEntry outcome timer
  | lockGate onEntry outcome =>
      exact unretired (by rw [point]; trivial)

end

namespace Library

section
variable (noise : Noise R H T) (l : Library H T) (handle place : Nat) (call : Call) (entropy : R)

/-- A step of a drive stores bytes, or only changes its entry. -/
theorem advanceDrive_cases :
    (l.entries[place]? = none ∧ l.advanceDrive noise handle place call entropy = (l, call)) ∨
      ∃ entry stored input, l.entries[place]? = some entry ∧
        l.advanceDrive noise handle place call entropy =
          (stored.update place fun _ => (advance noise entry call input).1, (advance noise entry call input).2) ∧
        (stored = l ∨ call.point.Admitted ∧ ∃ outcome, stored = (l.publishOutcome handle outcome).2) := by
  unfold advanceDrive
  cases found : l.entries[place]? with
  | none => exact .inl ⟨rfl, rfl⟩
  | some entry =>
      refine .inr ⟨entry, ?_⟩
      dsimp only
      cases publishing : outcomeOf call with
      | none => exact ⟨l, _, rfl, rfl, .inl rfl⟩
      | some outcome =>
          refine ⟨_, _, rfl, rfl, .inr ⟨?_, outcome, rfl⟩⟩
          unfold outcomeOf at publishing
          split at publishing
          · rename_i point
            rw [point]
            trivial
          · cases publishing

end

variable {noise : Noise R H T} {task : Task H T} {l l' : Library H T} {handle place : Nat} {entropy : R}

/-- An entry that is not retired still belongs to its handle. -/
theorem Tied.named (tied : l.Tied handle place) (active : ¬ l.Retired place) : l.supervisors.get handle = some place :=
  tied.2.resolve_right fun gone => active gone.2

theorem advanceDrive_works (call : Call) : Works (.driving handle place call) l (l.advanceDrive noise handle place call entropy).1 := by
  rcases advanceDrive_cases noise l handle place call entropy with ⟨-, same⟩ | ⟨entry, stored, input, found, driven, storing⟩
  · rw [same]
    exact .same rfl
  · have entries : stored.entries = l.entries := by
      rcases storing with rfl | ⟨-, outcome, rfl⟩
      · rfl
      · exact (publish_same l handle outcome).2
    have changed : (stored.update place fun _ => (advance noise entry call input).1).entries =
        l.entries.modify place fun _ => (advance noise entry call input).1 := by
      rw [update, entries]
    rw [driven]
    refine .update changed (fun other there busy => ?_) (fun other there retired => ?_) (fun other there retired => ?_)
    all_goals
      rw [found] at there
      cases there
    · by_cases holding : call.point.Holding
      · exact .inr ⟨rfl, holding⟩
      · exact .inl ((advance_waits input holding).busy busy)
    · rwa [advance_retired]
    · exact .inl (by rwa [advance_retired] at retired)

theorem advanceDrive_evolves {call : Call} (own : (Task.driving handle place call).Sound l) :
    Evolves (.driving handle place call) l (l.advanceDrive noise handle place call entropy).1 := by
  have works : Works (.driving handle place call) l (l.advanceDrive noise handle place call entropy).1 := advanceDrive_works call
  rcases advanceDrive_cases noise l handle place call entropy with ⟨-, same⟩ | ⟨entry, stored, input, found, driven, storing⟩
  · rw [same] at works ⊢
    exact .entries_only works rfl rfl rfl
  · rw [driven] at works ⊢
    rcases storing with rfl | ⟨admitted, outcome, rfl⟩
    · exact .entries_only works rfl rfl rfl
    · have named := own.2.1.named (own.2.2.2 admitted)
      have history := publish_history l handle outcome
      refine .of_works works (publish_same l handle outcome).1 (fun happening member => ?_) (fun output held => ?_) (fun other fresh _ => ?_)
      · rcases history with same | ⟨_, _, more⟩
        · exact same ▸ member
        · exact more ▸ List.mem_append_left _ member
      · refine (publish_stored l handle outcome held).imp_right fun owned => ⟨place, ?_⟩
        rw [owned, named]
      · rcases history with same | ⟨output, bytes, more⟩
        · show (l.publishOutcome handle outcome).2.Untold other
          rwa [Untold, same]
        · have announced : (l.record (.announced output handle bytes)).Untold other :=
            fresh.record (by simp) fun _ _ same => by
              cases same
              exact fresh.1 own.1
          show (l.publishOutcome handle outcome).2.Untold other
          rwa [Untold, more]

theorem createPublish_evolves {outcome : Outcome} (own : (Task.createPublish handle outcome : Task H T).Sound l) :
    Evolves (.createPublish handle outcome) l (l.next noise (.createPublish handle outcome) entropy).1 := by
  obtain ⟨-, place, named⟩ := own
  have same := publish_same l handle outcome
  have history := publish_history l handle outcome
  have stored {entry : OutputEntry} (held : (l.publishOutcome handle outcome).2.outputs.Holds entry) :
      l.outputs.Holds entry ∨ ∃ place, l.supervisors.get entry.owner = some place :=
    (publish_stored l handle outcome held).imp_right fun owned => ⟨place, by rw [owned, named]⟩
  have told (happening : Happening) (member : happening ∈ l.history) : happening ∈ (l.publishOutcome handle outcome).2.history := by
    rcases history with same | ⟨_, _, more⟩
    · exact same ▸ member
    · exact more ▸ List.mem_append_left _ member
  have untold (other : Nat) (fresh : l.Untold other) (different : handle ≠ other) : (l.publishOutcome handle outcome).2.Untold other := by
    rcases history with same | ⟨output, bytes, more⟩
    · rwa [Untold, same]
    · have announced : (l.record (.announced output handle bytes)).Untold other :=
        fresh.record (by simp) fun _ _ same => by
          cases same
          exact different rfl
      rwa [Untold, more]
  unfold next
  dsimp only
  split
  · rename_i published
    rw [published] at same stored told untold
    refine .of_works (.same same.2) same.1 (fun happening member => mem_record.mpr (.inl (told happening member)))
      (fun _ held => stored held) fun other fresh different => ?_
    exact (untold other fresh different).record (fun same => different (Happening.created.inj same)) (by simp)
  · rename_i published
    rw [published] at same stored told untold
    exact .of_works (.same same.2) same.1 told (fun _ held => stored held) untold

theorem remove_evolves {supervisors : Registry Nat} {history : List Happening} (removed : (l.supervisors.remove handle).2 = supervisors)
    (forward : l.supervisors.Forward supervisors) (told : ∀ happening ∈ l.history, happening ∈ history)
    (untold : ∀ other, l.Untold other → ¬ task.Creates other → { l with supervisors, history }.Untold other)
    (known : ∀ place, l.supervisors.get handle = some place → l.Retired place ∧ .created handle ∈ l.history ∨ task.Creates handle) :
    Evolves task l { l with supervisors, history } where
  toWorks := .same rfl
  history := told
  onward := by
    subst removed
    exact (Registry.remove_emptied l.supervisors handle).onward forward
  kept other place named := by
    subst removed
    by_cases same : other = handle
    · subst same
      exact .inr ⟨Registry.remove_gone named forward, known place named⟩
    · exact .inl (Registry.remove_get named same)
  stored _ held := .inl held
  untold := untold

/-- What the other calls see of each step. -/
theorem next_evolves (own : task.Sound l) (steady : Steady noise l task entropy) : Evolves task l (l.next noise task entropy).1 := by
  have unchanged (task : Task H T) : Evolves task l l := .entries_only (.same rfl) rfl rfl rfl
  have outputs_only {task : Task H T} {outputs : Registry OutputEntry} (stored : ∀ entry, outputs.Holds entry → l.outputs.Holds entry) :
      Evolves task l { l with outputs } :=
    .of_works (.same rfl) rfl (fun _ member => member) (fun entry held => .inl (stored entry held)) fun _ untold _ => untold
  have recorded {task : Task H T} {happening : Happening} (uncreated : ∀ handle, happening ≠ .created handle)
      (unannounced : ∀ output handle bytes, happening ≠ .announced output handle bytes) : Evolves task l (l.record happening) :=
    .of_works (.same rfl) rfl (fun _ member => mem_record.mpr (.inl member)) (fun _ held => .inl held)
      fun handle untold _ => untold.record (uncreated handle) fun output => unannounced output handle
  cases task with
  | create made =>
      cases made with
      | error error => exact unchanged _
      | ok opened =>
          have made : Evolves (.create (.ok opened)) l { l with
              supervisors := (l.supervisors.insert l.entries.length).2
              entries := l.entries ++ [SupervisorEntry.new opened.1] } :=
            { toWorks := .append rfl
              history := fun _ member => member
              onward := Registry.insert_onward l.supervisors l.entries.length
              kept := fun _ _ named => .inl (Registry.insert_get l.supervisors l.entries.length named)
              stored := fun _ held => .inl held
              untold := fun _ untold _ => untold }
          unfold next
          dsimp only
          split
          all_goals exact made
  | createPublish handle outcome => exact createPublish_evolves own
  | createUndo handle =>
      exact remove_evolves rfl steady.2.1 (fun _ member => member) (fun _ untold _ => untold) fun _ _ => .inr rfl
  | drive handle event =>
      unfold next
      dsimp only
      split
      all_goals exact unchanged _
  | driving handle place call => exact advanceDrive_evolves own
  | close dropping handle =>
      unfold next
      dsimp only
      split
      · exact unchanged _
      · split
        all_goals exact unchanged _
  | claim dropping handle place =>
      unfold next
      dsimp only
      split
      · exact unchanged _
      · split
        · exact unchanged _
        · exact .entries_only (.update rfl (fun _ _ _ => .inl rfl) (fun _ _ retired => retired) fun _ _ retired => .inl retired) rfl rfl rfl
  | retire dropping handle place =>
      exact .entries_only (.update rfl (fun _ _ busy => .inl busy) (fun _ _ _ => rfl) fun _ _ _ => .inr rfl) rfl rfl rfl
  | shut dropping handle place =>
      exact .entries_only (.update rfl (fun _ _ busy => .inl busy) (fun _ _ retired => retired) fun _ _ retired => .inl retired) rfl rfl rfl
  | unregister dropping handle place =>
      obtain ⟨created, tied, -, retired⟩ := own
      have known (other : Nat) (named : l.supervisors.get handle = some other) :
          l.Retired other ∧ .created handle ∈ l.history ∨ (Task.unregister dropping handle place : Task H T).Creates handle := by
        rcases tied.2 with same | ⟨gone, -⟩
        · rw [same] at named
          cases named
          exact .inl ⟨retired, created⟩
        · rw [gone.get] at named
          cases named
      obtain ⟨-, forward, -⟩ := steady
      unfold next at forward ⊢
      dsimp only at forward ⊢
      split
      · rename_i removed
        rw [removed] at forward
        exact remove_evolves (by rw [removed]) forward (fun _ member => List.mem_append_left _ member)
          (fun _ untold _ => untold.record (by simp) (by simp)) known
      · rename_i removed
        rw [removed] at forward
        exact remove_evolves (by rw [removed]) forward (fun _ member => member) (fun _ untold _ => untold) known
  | sweep handle place => exact outputs_only fun _ held => (Registry.removeOwned_emptied l.outputs handle).holds held
  | release handle place status =>
      have released : Works (.release handle place status) l (l.update place fun entry => { entry with busy := false }) :=
        .update rfl (fun _ _ _ => .inr rfl) (fun _ _ retired => retired) fun _ _ retired => .inl retired
      unfold next
      dsimp only
      split
      · exact .of_works ⟨released.entries, released.busy, released.retired, released.unretired⟩ rfl
          (fun _ member => mem_record.mpr (.inl member)) (fun _ held => .inl held) fun _ untold _ => untold.record (by simp) (by simp)
      · exact .entries_only released rfl rfl rfl
  | outputLen output =>
      unfold next
      dsimp only
      split
      all_goals exact unchanged _
  | outputCopy output capacity =>
      unfold next
      dsimp only
      split
      · exact unchanged _
      · split
        · exact unchanged _
        · exact recorded (by simp) (by simp)
  | outputDrop output =>
      unfold next
      dsimp only
      split
      · exact unchanged _
      · have emptied := Registry.remove_emptied l.outputs output
        split
        · rename_i removed
          rw [removed] at emptied
          exact .of_works (.same rfl) rfl (fun _ member => mem_record.mpr (.inl member)) (fun _ held => .inl (emptied.holds held))
            fun _ untold _ => untold.record (by simp) (by simp)
        · rename_i removed
          rw [removed] at emptied
          exact outputs_only fun _ held => emptied.holds held
  | returned status => exact unchanged _

end Library

/-! ## What other calls keep -/

section
variable {noise : Noise R H T} {task other : Task H T} {l l' : Library H T} {handle place : Nat} {entropy : R}

theorem Library.Tied.evolves (tied : l.Tied handle place) (evolves : Library.Evolves task l l') (created : .created handle ∈ l.history)
    (own : task.Sound l) : l'.Tied handle place := by
  refine ⟨tied.1.trans_le evolves.entries, ?_⟩
  rcases tied.2 with named | ⟨gone, retired⟩
  · refine (evolves.kept handle place named).imp_right fun ⟨gone, why⟩ => ⟨gone, ?_⟩
    rcases why with ⟨retired, -⟩ | creates
    · exact retired
    · cases task with
      | createPublish made outcome | createUndo made =>
          cases creates
          exact absurd created own.1.1
      | _ => exact creates.elim
  · exact .inr ⟨gone.onward evolves.onward, evolves.retired place retired⟩

/-- A step of another call does not disturb a call. -/
theorem Task.Sound.evolves (also : other.Sound l) (own : task.Sound l) (apart : task.Apart other)
    (evolves : Library.Evolves task l l') : other.Sound l' := by
  have busy {place : Nat} (holds : other.Holds place) (busy : l.Busy place) : l'.Busy place :=
    evolves.busy place busy fun held => apart.1 place ⟨held, holds⟩
  cases other with
  | createPublish handle outcome | createUndo handle =>
      obtain ⟨untold, place, named⟩ := also
      have foreign : ¬ task.Creates handle := fun creates => apart.2 handle ⟨creates, rfl⟩
      refine ⟨evolves.untold handle untold foreign, place, ?_⟩
      exact (evolves.kept handle place named).resolve_right fun removed => removed.2.elim (fun why => untold.1 why.2) foreign
  | driving handle place call =>
      obtain ⟨created, tied, held, active⟩ := also
      refine ⟨evolves.history _ created, tied.evolves evolves created own, fun holding => busy ⟨rfl, holding⟩ (held holding),
        fun admitted retired => ?_⟩
      rcases evolves.unretired place tied.1 retired with before | holds
      · exact active admitted before
      · exact apart.1 place ⟨holds, rfl, admitted.holding⟩
  | claim dropping handle place =>
      obtain ⟨created, tied⟩ := also
      exact ⟨evolves.history _ created, tied.evolves evolves created own⟩
  | retire dropping handle place =>
      obtain ⟨created, tied, held⟩ := also
      exact ⟨evolves.history _ created, tied.evolves evolves created own, busy rfl held⟩
  | shut dropping handle place | unregister dropping handle place =>
      obtain ⟨created, tied, held, retired⟩ := also
      exact ⟨evolves.history _ created, tied.evolves evolves created own, busy rfl held, evolves.retired place retired⟩
  | sweep handle place =>
      obtain ⟨removed, gone, held⟩ := also
      exact ⟨evolves.history _ removed, gone.onward evolves.onward, busy rfl held⟩
  | release handle place status =>
      obtain ⟨held, swept⟩ := also
      refine ⟨busy rfl held, fun ok => ?_⟩
      obtain ⟨gone, none⟩ := swept ok
      refine ⟨gone.onward evolves.onward, fun entry stored => ?_⟩
      rcases evolves.stored entry stored with before | ⟨place, named⟩
      · exact none entry before
      · rintro rfl
        rw [gone.get] at named
        cases named
  | create _ | drive _ _ | close _ _ | outputLen _ | outputCopy _ _ | outputDrop _ | returned _ => trivial

/-- A call gets the flag of an entry only when it is free. -/
theorem next_holds (task : Task H T) (holds : (l.next noise task entropy).2.Holds place) : task.Holds place ∨ ¬ l.Busy place := by
  unfold Library.next at holds
  cases task with
  | create made =>
      cases made with
      | error error => exact holds.elim
      | ok opened =>
          dsimp only at holds
          split at holds
          all_goals exact holds.elim
  | createPublish handle outcome =>
      dsimp only at holds
      split at holds
      all_goals exact holds.elim
  | drive handle event =>
      dsimp only at holds
      split at holds
      · exact holds.2.elim
      · exact holds.elim
  | driving handle there call =>
      rcases Library.advanceDrive_cases noise l handle there call entropy with ⟨-, same⟩ | ⟨entry, stored, input, found, driven, -⟩
      · dsimp only at holds
        rw [same] at holds
        exact .inl holds
      · dsimp only at holds
        rw [driven] at holds
        obtain ⟨rfl, holding⟩ := holds
        by_cases held : call.point.Holding
        · exact .inl ⟨rfl, held⟩
        · refine .inr fun ⟨other, found', busy⟩ => ?_
          rw [found] at found'
          cases found'
          rw [advance_takes input held holding] at busy
          cases busy
  | close dropping handle =>
      dsimp only at holds
      split at holds
      · exact holds.elim
      · split at holds
        all_goals exact holds.elim
  | claim dropping handle there =>
      dsimp only at holds
      split at holds
      · exact holds.elim
      · rename_i entry found
        split at holds
        · exact holds.elim
        · rename_i free
          cases holds
          refine .inr fun ⟨other, found', busy⟩ => ?_
          rw [found] at found'
          cases found'
          exact free busy
  | unregister dropping handle there =>
      left
      dsimp only at holds
      split at holds
      · exact holds
      · split at holds
        all_goals exact holds
  | retire dropping handle there | shut dropping handle there | sweep handle there => exact .inl holds
  | release handle there status | createUndo handle | returned status => exact holds.elim
  | outputLen output =>
      dsimp only at holds
      split at holds
      all_goals exact holds.elim
  | outputCopy output capacity =>
      dsimp only at holds
      split at holds
      · exact holds.elim
      · split at holds
        all_goals exact holds.elim
  | outputDrop output =>
      dsimp only at holds
      split at holds
      · exact holds.elim
      · split at holds
        all_goals exact holds.elim

/-- A handle that a call begins to create is new. -/
theorem next_creates (sound : l.Sound) (task : Task H T) (creates : (l.next noise task entropy).2.Creates handle) :
    task.Creates handle ∨ l.supervisors.get handle = none ∧ l.Untold handle := by
  unfold Library.next at creates
  cases task with
  | create made =>
      cases made with
      | error error => exact creates.elim
      | ok opened =>
          dsimp only at creates
          split at creates
          · rename_i issued
            cases creates
            obtain ⟨-, unnamed, there⟩ := Registry.insert_new sound.supervisors issued
            have unknown : ¬ l.Known handle := by
              rintro (⟨place, named⟩ | removed)
              · rw [unnamed] at named
                cases named
              · exact there (sound.unregistered handle removed)
            exact .inr ⟨unnamed, fun created => unknown (sound.created handle created),
              fun output bytes announced => unknown (sound.announced output handle bytes announced).1⟩
          · exact creates.elim
  | createPublish made outcome =>
      dsimp only at creates
      split at creates
      · exact creates.elim
      · exact .inl creates
  | drive made event =>
      dsimp only at creates
      split at creates
      all_goals exact creates.elim
  | close dropping made | outputDrop output =>
      dsimp only at creates
      split at creates
      · exact creates.elim
      · split at creates
        all_goals exact creates.elim
  | claim dropping made place | outputCopy output capacity =>
      dsimp only at creates
      split at creates
      · exact creates.elim
      · split at creates
        all_goals exact creates.elim
  | unregister dropping made place =>
      dsimp only at creates
      split at creates
      · exact creates.elim
      · split at creates
        all_goals exact creates.elim
  | outputLen output =>
      dsimp only at creates
      split at creates
      all_goals exact creates.elim
  | driving made place call | retire dropping made place | shut dropping made place | sweep made place | release made place status
  | createUndo made | returned status => exact creates.elim

theorem Task.Sound.busy {place : Nat} (own : task.Sound l) (holds : task.Holds place) : l.Busy place := by
  cases task with
  | driving handle there call =>
      obtain ⟨rfl, holding⟩ := holds
      exact own.2.2.1 holding
  | retire dropping handle there =>
      cases holds
      exact own.2.2
  | shut dropping handle there | unregister dropping handle there =>
      cases holds
      exact own.2.2.1
  | sweep handle there =>
      cases holds
      exact own.2.2
  | release handle there status =>
      cases holds
      exact own.1
  | _ => exact holds.elim

theorem Task.Sound.named {handle : Nat} (own : task.Sound l) (creates : task.Creates handle) : ∃ place, l.supervisors.get handle = some place := by
  cases task with
  | createPublish made outcome | createUndo made =>
      cases creates
      exact own.2
  | _ => exact creates.elim

theorem Task.Apart.symm (apart : task.Apart other) : other.Apart task :=
  ⟨fun place both => apart.1 place both.symm, fun handle both => apart.2 handle both.symm⟩

/-- Two calls stay apart. -/
theorem next_apart (sound : l.Sound) (also : other.Sound l) (apart : task.Apart other) :
    (l.next noise task entropy).2.Apart other := by
  refine ⟨fun place ⟨holds, held⟩ => ?_, fun handle ⟨creates, created⟩ => ?_⟩
  · rcases next_holds task holds with before | free
    · exact apart.1 place ⟨before, held⟩
    · exact free (also.busy held)
  · rcases next_creates sound task creates with before | ⟨unnamed, -⟩
    · exact apart.2 handle ⟨before, created⟩
    · obtain ⟨place, named⟩ := also.named created
      rw [unnamed] at named
      cases named

end

/-! ## What the library keeps -/

namespace Library.Sound

variable {l l' : Library H T} {handle place : Nat}

/-- The registries and the history are as they were. -/
theorem same (sound : l.Sound) (supervisors : l'.supervisors = l.supervisors) (outputs : l'.outputs = l.outputs)
    (history : l'.history = l.history) (entries : l.entries.length ≤ l'.entries.length) : l'.Sound := by
  obtain ⟨supervisors', outputs', entries', history'⟩ := l'
  cases supervisors
  cases outputs
  cases history
  exact { sound with places := fun handle place named => (sound.places handle place named).trans_le entries }

/-- Something is told that is none of the library's business. -/
theorem record (sound : l.Sound) (happening : Happening) (created : ∀ handle, happening = .created handle → l.Known handle)
    (unregistered : ∀ handle, happening ≠ .unregistered handle) (ended : ∀ handle, happening = .ended handle →
      l.supervisors.Gone handle ∧ ∀ entry, l.outputs.Holds entry → entry.owner ≠ handle)
    (announced : ∀ output owner bytes, happening ≠ .announced output owner bytes)
    (copied : ∀ output bytes, happening = .copied output bytes → ∃ owner, .announced output owner bytes ∈ l.history) :
    (l.record happening).Sound where
  supervisors := sound.supervisors
  outputs := sound.outputs
  places := sound.places
  created handle member := by
    have known : l.Known handle := (mem_record.mp member).elim (sound.created handle) fun same => created handle same.symm
    exact known.imp_right fun removed => mem_record.mpr (.inl removed)
  unregistered handle member :=
    sound.unregistered handle ((mem_record.mp member).resolve_right fun same => unregistered handle same.symm)
  ended handle member := (mem_record.mp member).elim (sound.ended handle) fun same => ended handle same.symm
  live output entry named := mem_record.mpr (.inl (sound.live output entry named))
  announced output owner bytes member := by
    have before := (mem_record.mp member).resolve_right fun same => announced output owner bytes same.symm
    obtain ⟨known, there⟩ := sound.announced output owner bytes before
    refine ⟨known.imp_right fun removed => mem_record.mpr (.inl removed), there.imp_right fun ⟨gone, why⟩ => ⟨gone, ?_⟩⟩
    exact why.imp (fun dropped => mem_record.mpr (.inl dropped)) fun removed => mem_record.mpr (.inl removed)
  once output owner bytes owner' bytes' member member' := by
    have before := (mem_record.mp member).resolve_right fun same => announced output owner bytes same.symm
    have before' := (mem_record.mp member').resolve_right fun same => announced output owner' bytes' same.symm
    exact sound.once output owner bytes owner' bytes' before before'
  copied output bytes member := by
    obtain ⟨owner, told⟩ := (mem_record.mp member).elim (sound.copied output bytes) fun same => copied output bytes same.symm
    exact ⟨owner, mem_record.mpr (.inl told)⟩

/-- A supervisor is added. -/
theorem insert (sound : l.Sound) (entry : SupervisorEntry H T) :
    { l with supervisors := (l.supervisors.insert l.entries.length).2, entries := l.entries ++ [entry] }.Sound where
  supervisors := Registry.insert_positive sound.supervisors
  outputs := sound.outputs
  places handle place named := by
    rw [List.length_append, List.length_singleton]
    rcases Registry.insert_old named with before | ⟨-, rfl⟩
    · exact (sound.places handle place before).trans (Nat.lt_succ_self _)
    · exact Nat.lt_succ_self _
  created handle member :=
    (sound.created handle member).imp_left fun ⟨place, named⟩ => ⟨place, Registry.insert_get _ _ named⟩
  unregistered handle member := (sound.unregistered handle member).onward (Registry.insert_onward _ _)
  ended handle member := (sound.ended handle member).imp_left fun gone => gone.onward (Registry.insert_onward _ _)
  live := sound.live
  announced output owner bytes member := by
    obtain ⟨known, there⟩ := sound.announced output owner bytes member
    exact ⟨known.imp_left fun ⟨place, named⟩ => ⟨place, Registry.insert_get _ _ named⟩, there⟩
  once := sound.once
  copied := sound.copied

/-- A supervisor is taken out: nobody has heard of it, or the history says so. -/
theorem remove (sound : l.Sound) {history : List Happening} (forward : l.supervisors.Forward (l.supervisors.remove handle).2)
    (removed : (history = l.history ∧ (l.Untold handle ∨ l.supervisors.get handle = none)) ∨
      history = l.history ++ [.unregistered handle] ∧ ∃ place, l.supervisors.get handle = some place) :
    { l with supervisors := (l.supervisors.remove handle).2, history }.Sound := by
  have emptied := Registry.remove_emptied l.supervisors handle
  have onward := emptied.onward forward
  have told {happening : Happening} (member : happening ∈ l.history) : happening ∈ history := by
    rcases removed with ⟨rfl, -⟩ | ⟨rfl, -⟩
    · exact member
    · exact List.mem_append_left _ member
  have before {happening : Happening} (other : happening ≠ .unregistered handle) (member : happening ∈ history) :
      happening ∈ l.history := by
    rcases removed with ⟨rfl, -⟩ | ⟨rfl, -⟩
    · exact member
    · exact (List.mem_append.mp member).resolve_right fun last => other (List.mem_singleton.mp last)
  have known {other : Nat} (heard : l.Untold handle → other ≠ handle) (known : l.Known other) :
      { l with supervisors := (l.supervisors.remove handle).2, history }.Known other := by
    rcases known with ⟨place, named⟩ | already
    · by_cases same : other = handle
      · subst same
        rcases removed with ⟨-, untold | unnamed⟩ | ⟨rfl, -⟩
        · exact absurd rfl (heard untold)
        · rw [unnamed] at named
          cases named
        · exact .inr (List.mem_append_right _ (List.mem_singleton.mpr rfl))
      · exact .inl ⟨place, Registry.remove_get named same⟩
    · exact .inr (told already)
  refine
    { supervisors := emptied.positive sound.supervisors
      outputs := sound.outputs
      places := fun other place named => sound.places other place (emptied.get named)
      created := fun other member => ?_
      unregistered := fun other member => ?_
      ended := fun other member => (sound.ended other (before (by simp) member)).imp_left fun gone => gone.onward onward
      live := fun output entry named => told (sound.live output entry named)
      announced := fun output owner bytes member => ?_
      once := fun output owner bytes owner' bytes' member member' =>
        sound.once output owner bytes owner' bytes' (before (by simp) member) (before (by simp) member')
      copied := fun output bytes member => (sound.copied output bytes (before (by simp) member)).imp fun _ announced => told announced }
  · have created := before (by simp) member
    refine known (fun untold => ?_) (sound.created other created)
    rintro rfl
    exact untold.1 created
  · rcases removed with ⟨rfl, -⟩ | ⟨rfl, place, named⟩
    · exact (sound.unregistered other member).onward onward
    · rcases List.mem_append.mp member with old | new
      · exact (sound.unregistered other old).onward onward
      · cases List.mem_singleton.mp new
        exact Registry.remove_gone named forward
  · have announced := before (by simp) member
    obtain ⟨heard, there⟩ := sound.announced output owner bytes announced
    refine ⟨known (fun untold => ?_) heard, there.imp_right fun ⟨gone, why⟩ => ⟨gone, why.imp told told⟩⟩
    rintro rfl
    exact untold.2 output bytes announced

/-- The outputs of a supervisor that was taken out are removed. -/
theorem removeOwned (sound : l.Sound) (removed : .unregistered handle ∈ l.history)
    (forward : l.outputs.Forward (l.outputs.removeOwned handle)) : { l with outputs := l.outputs.removeOwned handle }.Sound := by
  have emptied := Registry.removeOwned_emptied l.outputs handle
  have onward := emptied.onward forward
  refine
    { sound with
      outputs := emptied.positive sound.outputs
      ended := fun other member => (sound.ended other member).imp_right fun none entry held => none entry (emptied.holds held)
      live := fun output entry named => sound.live output entry (emptied.get named)
      announced := fun output owner bytes member => ?_ }
  obtain ⟨known, there⟩ := sound.announced output owner bytes member
  refine ⟨known, ?_⟩
  rcases there with named | ⟨gone, why⟩
  · by_cases owned : owner = handle
    · subst owned
      refine .inr ⟨(onward.get named).resolve_left fun still => ?_, .inr removed⟩
      exact Registry.removeOwned_holds (Registry.holds_of_get still) rfl
    · exact .inl (Registry.removeOwned_get named owned)
  · exact .inr ⟨gone.onward onward, why⟩

/-- An output is dropped. -/
theorem drop (sound : l.Sound) {output : Nat} {entry : OutputEntry} (named : l.outputs.get output = some entry)
    (forward : l.outputs.Forward (l.outputs.remove output).2) :
    ({ l with outputs := (l.outputs.remove output).2 }.record (.dropped output)).Sound := by
  have emptied := Registry.remove_emptied l.outputs output
  have onward := emptied.onward forward
  have before {happening : Happening} (other : happening ≠ .dropped output)
      (member : happening ∈ ({ l with outputs := (l.outputs.remove output).2 }.record (.dropped output)).history) :
      happening ∈ l.history := (mem_record.mp member).resolve_right other
  refine
    { supervisors := sound.supervisors
      outputs := emptied.positive sound.outputs
      places := sound.places
      created := fun other member => ?_
      unregistered := fun other member => sound.unregistered other (before (by simp) member)
      ended := fun other member =>
        (sound.ended other (before (by simp) member)).imp_right fun none entry held => none entry (emptied.holds held)
      live := fun other entry named => mem_record.mpr (.inl (sound.live other entry (emptied.get named)))
      announced := fun other owner bytes member => ?_
      once := fun other owner bytes owner' bytes' member member' =>
        sound.once other owner bytes owner' bytes' (before (by simp) member) (before (by simp) member')
      copied := fun other bytes member =>
        (sound.copied other bytes (before (by simp) member)).imp fun _ announced => mem_record.mpr (.inl announced) }
  · exact (sound.created other (before (by simp) member)).imp_right fun removed => mem_record.mpr (.inl removed)
  · obtain ⟨known, there⟩ := sound.announced other owner bytes (before (by simp) member)
    refine ⟨known.imp_right fun removed => mem_record.mpr (.inl removed), ?_⟩
    rcases there with still | ⟨gone, why⟩
    · by_cases same : other = output
      · subst same
        exact .inr ⟨Registry.remove_gone still forward, .inl (mem_record.mpr (.inr rfl))⟩
      · exact .inl (Registry.remove_get still same)
    · exact .inr ⟨gone.onward onward, why.imp (fun dropped => mem_record.mpr (.inl dropped)) fun removed => mem_record.mpr (.inl removed)⟩

/-- An outcome of a supervisor that has its place is published. -/
theorem publish (sound : l.Sound) (named : l.supervisors.get handle = some place) (outcome : Outcome) :
    (l.publishOutcome handle outcome).2.Sound := by
  have owned (entry : OutputEntry) (gone : l.supervisors.Gone entry.owner) : entry.owner ≠ handle := by
    intro same
    rw [same] at gone
    rw [gone.get] at named
    cases named
  rcases publish_cases l handle outcome with ⟨-, published⟩ | ⟨bytes, -, stored⟩
  · rw [published]
    exact sound
  have onward := Registry.insert_onward l.outputs ⟨handle, bytes⟩
  have ended (other : Nat) (member : .ended other ∈ l.history) :
      l.supervisors.Gone other ∧ ∀ entry, (l.outputs.insert ⟨handle, bytes⟩).2.Holds entry → entry.owner ≠ other := by
    obtain ⟨gone, none⟩ := sound.ended other member
    refine ⟨gone, fun entry held => ?_⟩
    rcases Registry.insert_holds held with before | rfl
    · exact none entry before
    · rintro rfl
      exact owned ⟨handle, bytes⟩ gone rfl
  have there {output owner : Nat} {bytes' : Bytes} (announced : .announced output owner bytes' ∈ l.history) :
      (l.outputs.insert ⟨handle, bytes⟩).2.get output = some ⟨owner, bytes'⟩ ∨
        (l.outputs.insert ⟨handle, bytes⟩).2.Gone output ∧ (.dropped output ∈ l.history ∨ .unregistered owner ∈ l.history) :=
    (sound.announced output owner bytes' announced).2.imp (fun named => Registry.insert_get _ _ named)
      fun ⟨gone, why⟩ => ⟨gone.onward onward, why⟩
  rcases stored with ⟨output, issued, published⟩ | ⟨full, published⟩
  · obtain ⟨new, unnamed, fresh⟩ := Registry.insert_new sound.outputs issued
    -- the handle is new, so no earlier announcement is about it
    have unknown {owner : Nat} {bytes' : Bytes} : .announced output owner bytes' ∉ l.history := by
      intro announced
      rcases (sound.announced output owner bytes' announced).2 with named | ⟨gone, -⟩
      · rw [unnamed] at named
        cases named
      · exact fresh gone
    rw [published]
    refine
      { supervisors := sound.supervisors
        outputs := Registry.insert_positive sound.outputs
        places := sound.places
        created := fun other member => ?_
        unregistered := fun other member => sound.unregistered other ((mem_record.mp member).resolve_right (by simp))
        ended := fun other member => ended other ((mem_record.mp member).resolve_right (by simp))
        live := fun other entry found => mem_record.mpr ?_
        announced := fun other owner bytes' member => ?_
        once := fun other owner₁ bytes₁ owner₂ bytes₂ member₁ member₂ => ?_
        copied := fun other bytes' member => ?_ }
    · exact (sound.created other ((mem_record.mp member).resolve_right (by simp))).imp_right fun removed => mem_record.mpr (.inl removed)
    · rcases Registry.insert_old found with before | ⟨same, rfl⟩
      · exact .inl (sound.live other entry before)
      · rw [issued] at same
        cases same
        exact .inr rfl
    · rcases mem_record.mp member with before | same
      · refine ⟨?_, (there before).imp_right fun ⟨gone, why⟩ => ⟨gone, ?_⟩⟩
        · exact (sound.announced other owner bytes' before).1.imp_right fun removed => mem_record.mpr (.inl removed)
        · exact why.imp (fun dropped => mem_record.mpr (.inl dropped)) fun removed => mem_record.mpr (.inl removed)
      · cases same
        exact ⟨.inl ⟨place, named⟩, .inl new⟩
    · rcases mem_record.mp member₁ with before₁ | same₁
      · rcases mem_record.mp member₂ with before₂ | same₂
        · exact sound.once other owner₁ bytes₁ owner₂ bytes₂ before₁ before₂
        · cases same₂
          exact absurd before₁ unknown
      · cases same₁
        rcases mem_record.mp member₂ with before₂ | same₂
        · exact absurd before₂ unknown
        · cases same₂
          exact ⟨rfl, rfl⟩
    · exact (sound.copied other bytes' ((mem_record.mp member).resolve_right (by simp))).imp fun _ told => mem_record.mpr (.inl told)
  · rw [published]
    refine
      { sound with
        outputs := Registry.insert_positive sound.outputs
        ended := ended
        live := fun other entry found => ?_
        announced := fun other owner bytes' member => ⟨(sound.announced other owner bytes' member).1, there member⟩ }
    refine (Registry.insert_old found).elim (sound.live other entry) fun ⟨issued, _⟩ => ?_
    rw [full] at issued
    cases issued

end Library.Sound

end AppPilotKit.Ffi
