import AppPilotKit.Ffi.Ownership

/-! # No output outlives its supervisor

Between the removal of a supervisor and the sweep of its outputs an output is live without
an owner. Apart from that, what a call needs is kept by every step of every other call.
-/

namespace AppPilotKit.Ffi

open Transport Target Threads Library
open Wire (Bytes)

variable {R H T : Type}

section
variable {noise : Noise R H T} {task : Task H T} {l : Library H T} {handle place : Nat} {entropy : R}

theorem tied_of_get (sound : l.Sound) (named : l.supervisors.get handle = some place) : l.Tied handle place :=
  ⟨sound.places handle place named, .inl named⟩

/-- The entry of a call in its place. -/
theorem update_place {entry : SupervisorEntry H T} (found : l.entries[place]? = some entry)
    (f : SupervisorEntry H T → SupervisorEntry H T) : (l.update place f).entries[place]? = some (f entry) := by
  rw [Library.update, modify_getElem?, if_pos rfl, found]
  rfl

theorem Library.Tied.update {f : SupervisorEntry H T → SupervisorEntry H T} {there : Nat} (tied : l.Tied handle place)
    (retired : ∀ entry : SupervisorEntry H T, entry.retired = true → (f entry).retired = true) :
    (l.update there f).Tied handle place := by
  refine ⟨by rw [Library.update, List.length_modify]; exact tied.1, tied.2.imp_right fun ⟨gone, entry, found, was⟩ => ⟨gone, ?_⟩⟩
  by_cases same : there = place
  · subst same
    exact ⟨f entry, update_place found f, retired entry was⟩
  · exact ⟨entry, by rw [Library.update, modify_getElem?, if_neg same, found], was⟩

theorem update_sound (sound : l.Sound) (f : SupervisorEntry H T → SupervisorEntry H T) : (l.update place f).Sound :=
  sound.same rfl rfl rfl (by rw [Library.update, List.length_modify])

theorem create_keeps (sound : l.Sound) (made : Except SupervisorError (TargetTransport H T × Outcome)) :
    (l.next noise (.create made) entropy).1.Sound ∧
      (l.next noise (.create made) entropy).2.Sound (l.next noise (.create made) entropy).1 := by
  cases made with
  | error error => exact ⟨sound, trivial⟩
  | ok opened =>
      have inserted := sound.insert (SupervisorEntry.new opened.1)
      have fresh {handle : Nat} (creates : (l.next noise (.create (.ok opened)) entropy).2.Creates handle) :=
        next_creates sound (.create (.ok opened)) creates
      unfold next at fresh ⊢
      dsimp only at fresh ⊢
      split
      · rename_i issued
        rw [issued] at fresh
        have untold := (fresh rfl).resolve_left id
        exact ⟨inserted, untold.2, _, (Registry.insert_new sound.supervisors issued).1⟩
      · exact ⟨inserted, trivial⟩

theorem createPublish_keeps (sound : l.Sound) {outcome : Outcome} (own : (Task.createPublish handle outcome : Task H T).Sound l) :
    (l.next noise (.createPublish handle outcome) entropy).1.Sound ∧
      (l.next noise (.createPublish handle outcome) entropy).2.Sound (l.next noise (.createPublish handle outcome) entropy).1 := by
  obtain ⟨untold, place, named⟩ := own
  have published := sound.publish named outcome
  have supervisors := (publish_same l handle outcome).1
  unfold next
  dsimp only
  split
  · rename_i stored
    rw [stored] at published supervisors
    have known : ∃ place, l.supervisors.get handle = some place := ⟨place, named⟩
    refine ⟨published.record _ (fun other same => ?_) (by simp) (by simp) (by simp) (by simp), trivial⟩
    cases same
    exact .inl (by rwa [supervisors])
  · rename_i stored
    have told : (l.publishOutcome handle outcome).2.history = l.history := by
      rcases publish_cases l handle outcome with ⟨-, other⟩ | ⟨bytes, -, ⟨output, -, other⟩ | ⟨-, other⟩⟩
      · rw [other]
      · rw [stored] at other
        cases other
      · rw [other]
    rw [stored] at published supervisors told
    refine ⟨published, ?_, place, by rwa [supervisors]⟩
    rwa [Library.Untold, told]

theorem driving_keeps (sound : l.Sound) {call : Call} (own : (Task.driving handle place call).Sound l) :
    (l.advanceDrive noise handle place call entropy).1.Sound ∧
      (Task.driving handle place (l.advanceDrive noise handle place call entropy).2).Sound
        (l.advanceDrive noise handle place call entropy).1 := by
  obtain ⟨created, tied, held, active⟩ := own
  rcases advanceDrive_cases noise l handle place call entropy with ⟨-, same⟩ | ⟨entry, stored, input, found, driven, storing⟩
  · rw [same]
    exact ⟨sound, created, tied, held, active⟩
  -- what storing the bytes leaves in place
  have kept : stored.Sound ∧ .created handle ∈ stored.history ∧ stored.Tied handle place ∧ stored.entries[place]? = some entry := by
    rcases storing with rfl | ⟨admitted, outcome, rfl⟩
    · exact ⟨sound, created, tied, found⟩
    · have named := tied.named (active admitted)
      obtain ⟨supervisors, entries⟩ := publish_same l handle outcome
      refine ⟨sound.publish named outcome, ?_, ⟨by rw [entries]; exact tied.1, .inl (by rwa [supervisors])⟩, by rwa [entries]⟩
      rcases publish_history l handle outcome with same | ⟨_, _, more⟩
      · rwa [same]
      · rw [more]
        exact List.mem_append_left _ created
  obtain ⟨sound', created', tied', found'⟩ := kept
  have busy : call.point.Holding → entry.busy = true := by
    intro holding
    obtain ⟨other, there, flag⟩ := held holding
    rw [found] at there
    cases there
    exact flag
  have unretired : call.point.Admitted → entry.retired = false := by
    intro admitted
    cases flag : entry.retired with
    | false => rfl
    | true => exact absurd ⟨entry, found, flag⟩ (active admitted)
  have changed := update_place found' fun _ => (advance noise entry call input).1
  rw [driven]
  refine ⟨update_sound sound' _, created', ?_, fun holding => ⟨_, changed, advance_busy input busy holding⟩, fun admitted retired => ?_⟩
  · refine ⟨by rw [Library.update, List.length_modify]; exact tied'.1, tied'.2.imp_right fun ⟨gone, other, there, was⟩ => ⟨gone, _, changed, ?_⟩⟩
    rw [found'] at there
    cases there
    rwa [advance_retired]
  · obtain ⟨other, there, flag⟩ := retired
    rw [changed] at there
    cases there
    rw [advance_retired, advance_admitted input unretired admitted] at flag
    cases flag

theorem unregister_keeps (sound : l.Sound) {dropping : Bool} (own : (Task.unregister dropping handle place : Task H T).Sound l)
    (steady : Steady noise l (.unregister dropping handle place) entropy) :
    (l.next noise (.unregister dropping handle place) entropy).1.Sound ∧
      (l.next noise (.unregister dropping handle place) entropy).2.Sound (l.next noise (.unregister dropping handle place) entropy).1 := by
  obtain ⟨created, tied, held, retired⟩ := own
  obtain ⟨-, forward, -⟩ := steady
  have answer : (l.supervisors.remove handle).1 = l.supervisors.get handle := Registry.remove_answer
  unfold next at forward ⊢
  dsimp only at forward ⊢
  split
  · rename_i found supervisors removed
    rw [removed] at forward answer
    have taken : (l.supervisors.remove handle).2 = supervisors := by rw [removed]
    have named : ∃ place, l.supervisors.get handle = some place := ⟨found, answer.symm⟩
    subst taken
    refine ⟨sound.remove forward (.inr ⟨rfl, named⟩), List.mem_append_right _ (List.mem_singleton.mpr rfl), ?_, held⟩
    exact Registry.remove_gone answer.symm forward
  · rename_i supervisors removed
    rw [removed] at forward answer
    have taken : (l.supervisors.remove handle).2 = supervisors := by rw [removed]
    have gone : l.supervisors.Gone handle := by
      rcases tied.2 with named | ⟨gone, -⟩
      · rw [named] at answer
        cases answer
      · exact gone
    have before : .unregistered handle ∈ l.history := by
      rcases sound.created handle created with ⟨other, named⟩ | removed
      · rw [named] at answer
        cases answer
      · exact removed
    subst taken
    have gone' := gone.onward ((Registry.remove_emptied l.supervisors handle).onward forward)
    refine ⟨sound.remove forward (.inl ⟨rfl, .inr answer.symm⟩), ?_⟩
    split
    · exact ⟨before, gone', held⟩
    · exact ⟨held, by simp⟩

/-- A step keeps what the library and the call need. -/
theorem next_keeps (sound : l.Sound) (own : task.Sound l) (steady : Steady noise l task entropy) :
    (l.next noise task entropy).1.Sound ∧ (l.next noise task entropy).2.Sound (l.next noise task entropy).1 := by
  cases task with
  | create made => exact create_keeps sound made
  | createPublish handle outcome => exact createPublish_keeps sound own
  | createUndo handle => exact ⟨sound.remove steady.2.1 (.inl ⟨rfl, .inl own.1⟩), trivial⟩
  | drive handle event =>
      have created : .created handle ∈ l.history := steady.1
      unfold next
      dsimp only
      split
      · rename_i place named
        exact ⟨sound, created, tied_of_get sound named, fun holding => holding.elim, fun admitted => admitted.elim⟩
      · exact ⟨sound, trivial⟩
  | driving handle place call => exact driving_keeps sound own
  | close dropping handle =>
      have created : handle = 0 ∨ .created handle ∈ l.history := steady.1
      unfold next
      dsimp only
      split
      · exact ⟨sound, trivial⟩
      · rename_i nonzero
        split
        · rename_i place named
          exact ⟨sound, created.resolve_left nonzero, tied_of_get sound named⟩
        · exact ⟨sound, trivial⟩
  | claim dropping handle place =>
      obtain ⟨created, tied⟩ := own
      unfold next
      dsimp only
      split
      · exact ⟨sound, trivial⟩
      · rename_i entry found
        split
        · exact ⟨sound, trivial⟩
        · exact ⟨update_sound sound _, created, tied.update fun _ retired => retired, _, update_place found _, rfl⟩
  | retire dropping handle place =>
      obtain ⟨created, tied, entry, found, busy⟩ := own
      exact ⟨update_sound sound _, created, tied.update fun _ _ => rfl, ⟨_, update_place found _, busy⟩, _, update_place found _, rfl⟩
  | shut dropping handle place =>
      obtain ⟨created, tied, ⟨entry, found, busy⟩, other, there, retired⟩ := own
      exact ⟨update_sound sound _, created, tied.update fun _ retired => retired, ⟨_, update_place found _, busy⟩,
        _, update_place there _, retired⟩
  | unregister dropping handle place => exact unregister_keeps sound own steady
  | sweep handle place =>
      obtain ⟨removed, gone, held⟩ := own
      exact ⟨sound.removeOwned removed steady.2.2, held, fun _ => ⟨gone, fun entry => Registry.removeOwned_holds⟩⟩
  | release handle place status =>
      have released : (l.update place fun entry => { entry with busy := false }).Sound := update_sound sound _
      unfold next
      dsimp only
      refine ⟨?_, trivial⟩
      split
      · rename_i ok
        refine released.record _ (by simp) (by simp) (fun other same => ?_) (by simp) (by simp)
        cases same
        exact own.2 ok
      · exact released
  | outputLen output =>
      unfold next
      dsimp only
      split
      all_goals exact ⟨sound, trivial⟩
  | outputCopy output capacity =>
      unfold next
      dsimp only
      split
      · exact ⟨sound, trivial⟩
      · rename_i entry named
        split
        · exact ⟨sound, trivial⟩
        · refine ⟨sound.record _ (by simp) (by simp) (by simp) (by simp) (fun other bytes same => ?_), trivial⟩
          cases same
          exact ⟨entry.owner, sound.live output entry named⟩
  | outputDrop output =>
      obtain ⟨-, -, forward⟩ := steady
      have answer : (l.outputs.remove output).1 = l.outputs.get output := Registry.remove_answer
      unfold next at forward ⊢
      dsimp only at forward ⊢
      split
      · exact ⟨sound, trivial⟩
      · rename_i nonzero
        rw [if_neg nonzero] at forward
        split
        · rename_i entry outputs removed
          rw [removed] at forward answer
          have taken : (l.outputs.remove output).2 = outputs := by rw [removed]
          subst taken
          exact ⟨sound.drop answer.symm forward, trivial⟩
        · rename_i outputs removed
          rw [removed] at answer
          have taken : (l.outputs.remove output).2 = l.outputs := by
            rcases Registry.remove_slots l.outputs output with ⟨none, -⟩ | ⟨_, _, value, -, -, named, -⟩
            · rw [none]
            · rw [named] at answer
              cases answer
          rw [removed] at taken
          cases taken
          exact ⟨sound, trivial⟩
  | returned status => exact ⟨sound, trivial⟩

end

/-! ## All calls together -/

section
variable {noise : Noise R H T}

theorem ownership_kept : (ownership (H := H) (T := T)).Kept (library noise) (Steady noise) where
  enters i l argument _ _ := by
    refine ⟨?_, fun other => ⟨⟨fun place => ?_, fun handle => ?_⟩, fun place => ?_, fun handle => ?_⟩⟩
    all_goals cases argument
    all_goals first | trivial | exact fun both => both.1.elim | exact fun both => both.2.elim
  advances _ _ _ _ := next_keeps
  leaves _ _ _ _ _ _ _ sound own also apart _ steady :=
    ⟨also.evolves own apart (next_evolves own steady), next_apart sound also apart, (next_apart sound also apart).symm⟩

theorem unused_holds : ownership.Hold (unused : Pool (Library H T) (Task H T)) where
  entered := Nat.zero_le _
  shared :=
    { supervisors := by simp [unused, Library.new, Registry.new, Registry.Positive]
      outputs := by simp [unused, Library.new, Registry.new, Registry.Positive]
      places := by
        intro handle place named
        obtain ⟨index, generation, -, here⟩ := Registry.get_eq.mp named
        simp [unused, Library.new, Registry.new] at here
      created := by simp [unused, Library.new]
      unregistered := by simp [unused, Library.new]
      ended := by simp [unused, Library.new]
      live := by
        intro output entry named
        obtain ⟨index, generation, -, here⟩ := Registry.get_eq.mp named
        simp [unused, Library.new, Registry.new] at here
      announced := by simp [unused, Library.new]
      once := by simp [unused, Library.new]
      copied := by simp [unused, Library.new] }
  own i call found := by simp [unused] at found
  apart i j call other _ found := by simp [unused] at found

/-- The outputs of a supervisor that was taken out wait for the call that took it out. -/
def Swept (pool : Pool (Library H T) (Task H T)) : Prop :=
  ∀ entry, pool.shared.outputs.Holds entry → .unregistered entry.owner ∈ pool.shared.history →
    ∃ place, .sweep entry.owner place ∈ pool.calls

variable {task : Task H T} {l : Library H T} {handle : Nat} {entropy : R}

/-- Only the call that takes a supervisor out tells so, and it sweeps next. -/
theorem next_unregistered (removed : .unregistered handle ∈ (l.next noise task entropy).1.history) :
    .unregistered handle ∈ l.history ∨ ∃ place, (l.next noise task entropy).2 = .sweep handle place := by
  have published (owner : Nat) (outcome : Outcome) (removed : .unregistered handle ∈ (l.publishOutcome owner outcome).2.history) :
      .unregistered handle ∈ l.history := by
    rcases publish_history l owner outcome with same | ⟨_, _, more⟩
    · rwa [same] at removed
    · rw [more] at removed
      exact (List.mem_append.mp removed).resolve_right (by simp)
  unfold next at removed ⊢
  cases task with
  | create made =>
      left
      cases made with
      | error error => exact removed
      | ok opened =>
          dsimp only at removed
          split at removed
          all_goals exact removed
  | createPublish made outcome =>
      left
      have published := published made outcome
      dsimp only at removed
      split at removed
      · rename_i stored
        rw [stored] at published
        exact published ((mem_record.mp removed).resolve_right (by simp))
      · rename_i stored
        rw [stored] at published
        exact published removed
  | driving made place call =>
      left
      dsimp only at removed
      rcases advanceDrive_cases noise l made place call entropy with ⟨-, same⟩ | ⟨entry, stored, input, found, driven, storing⟩
      · rwa [same] at removed
      · rw [driven] at removed
        rcases storing with rfl | ⟨-, outcome, rfl⟩
        · exact removed
        · exact published made outcome removed
  | unregister dropping made place =>
      dsimp only at removed ⊢
      split at removed
      · rcases mem_record.mp removed with before | same
        · exact .inl before
        · cases same
          exact .inr ⟨place, rfl⟩
      · exact .inl removed
  | release made place status =>
      left
      dsimp only at removed
      split at removed
      · exact (mem_record.mp removed).resolve_right (by simp)
      · exact removed
  | drive made event | outputLen output =>
      left
      dsimp only at removed
      split at removed
      all_goals exact removed
  | close dropping made =>
      left
      dsimp only at removed
      split at removed
      · exact removed
      · split at removed
        all_goals exact removed
  | claim dropping made place =>
      left
      dsimp only at removed
      split at removed
      · exact removed
      · split at removed
        all_goals exact removed
  | outputCopy output capacity =>
      left
      dsimp only at removed
      split at removed
      · exact removed
      · split at removed
        · exact removed
        · exact (mem_record.mp removed).resolve_right (by simp)
  | outputDrop output =>
      left
      dsimp only at removed
      split at removed
      · exact removed
      · split at removed
        · exact (mem_record.mp removed).resolve_right (by simp)
        · exact removed
  | createUndo made | retire dropping made place | shut dropping made place | sweep made place | returned status =>
      exact .inl removed

theorem Swept.enter {pool : Pool (Library H T) (Task H T)} (swept : Swept pool) (request : Request) :
    Swept ((library noise).move pool (.enter request)) := by
  intro entry held removed
  obtain ⟨place, member⟩ := swept entry held removed
  exact ⟨place, List.mem_append_left _ member⟩

theorem Swept.advance {pool : Pool (Library H T) (Task H T)} (swept : Swept pool) (hold : ownership.Hold pool) {who : Nat}
    (found : pool.calls[who]? = some task) (steady : Steady noise pool.shared task entropy) :
    Swept ((library noise).move pool (.advance who entropy)) := by
  have evolves := next_evolves (hold.own who task found) steady
  have inside := (List.getElem?_eq_some_iff.mp found).1
  rw [Machine.move_advance found]
  intro entry held removed
  rcases next_unregistered removed with before | ⟨place, next⟩
  · have stored := (evolves.stored entry held).resolve_right fun ⟨place, named⟩ => by
      rw [(hold.shared.unregistered _ before).get] at named
      cases named
    obtain ⟨place, member⟩ := swept entry stored before
    obtain ⟨j, there⟩ := List.mem_iff_getElem?.mp member
    by_cases same : who = j
    · subst same
      rw [found] at there
      cases there
      exact absurd rfl (Registry.removeOwned_holds held)
    · exact ⟨place, List.mem_of_getElem? ((List.getElem?_set_ne same).trans there)⟩
  · refine ⟨place, List.mem_of_getElem? (i := who) ?_⟩
    rw [List.getElem?_set_self inside]
    exact congrArg some next

/-- What holds of a pool after a steady run. -/
theorem run_swept {pool : Pool (Library H T) (Task H T)} (hold : ownership.Hold pool) (swept : Swept pool)
    (moves : List (Move Request R)) (steady : ∀ step ∈ (library noise).taken pool moves, Steady noise step.1 step.2.1 step.2.2) :
    Swept ((library noise).run pool moves) := by
  induction moves generalizing pool with
  | nil => exact swept
  | cons move rest ih =>
      cases move with
      | enter request => exact ih (hold.enter ownership_kept request) (swept.enter request) steady
      | advance who entropy =>
          have later : ∀ step ∈ (library noise).taken ((library noise).move pool (.advance who entropy)) rest,
              Steady noise step.1 step.2.1 step.2.2 := fun step member => steady step (List.mem_append_right _ member)
          cases found : pool.calls[who]? with
          | none =>
              have stays : (library noise).move pool (.advance who entropy) = pool := Machine.move_absent found entropy
              rw [stays] at later
              show Swept ((library noise).run ((library noise).move pool (.advance who entropy)) rest)
              rw [stays]
              exact ih hold swept later
          | some task =>
              have meets : Steady noise pool.shared task entropy :=
                steady (pool.shared, task, entropy) (List.mem_append_left _ (by simp [found]))
              exact ih (hold.advance ownership_kept found meets) (swept.advance hold found meets) later

end

/-- As long as no slot goes back to an earlier generation: an output that a handle names has a
    registered supervisor, or a call is about to remove it with the others of that supervisor;
    none is left when the call that ends the supervisor has returned; and what is copied is
    what was announced. -/
theorem no_output_outlives (noise : Noise R H T) (moves : List (Move Request R))
    (steady : ∀ step ∈ (library noise).taken unused moves, Steady noise step.1 step.2.1 step.2.2) :
    let pool := (library noise).run unused moves
    let l := pool.shared
    (∀ output entry, l.outputs.get output = some entry →
        (∃ place, l.supervisors.get entry.owner = some place) ∨ ∃ place, .sweep entry.owner place ∈ pool.calls) ∧
      (∀ handle, .ended handle ∈ l.history → l.supervisors.get handle = none ∧
        ∀ slot ∈ l.outputs.slots, ∀ entry, slot.value = some entry → entry.owner ≠ handle) ∧
      (∀ output owner bytes, .announced output owner bytes ∈ l.history → .dropped output ∉ l.history →
        .unregistered owner ∉ l.history → ∀ capacity entropy, bytes.length ≤ capacity →
          l.next noise (.outputCopy output capacity) entropy = (l.record (.copied output bytes), .returned .ok)) ∧
      (∀ output bytes, .copied output bytes ∈ l.history → ∃ owner, .announced output owner bytes ∈ l.history) ∧
      ∀ output owner bytes owner' bytes', .announced output owner bytes ∈ l.history →
        .announced output owner' bytes' ∈ l.history → owner = owner' ∧ bytes = bytes' := by
  intro pool l
  have hold : ownership.Hold pool := unused_holds.run ownership_kept moves steady
  have nothing : Swept (unused : Pool (Library H T) (Task H T)) := by
    rintro entry ⟨generation, member⟩
    simp [unused, Library.new, Registry.new] at member
  have swept : Swept pool := run_swept unused_holds nothing moves steady
  have sound : l.Sound := hold.shared
  refine ⟨fun output entry named => ?_, fun handle ended => ?_, fun output owner bytes announced undropped registered => ?_,
    sound.copied, sound.once⟩
  · exact (sound.announced output entry.owner entry.bytes (sound.live output entry named)).1.imp_right
      (swept entry (Registry.holds_of_get named))
  · obtain ⟨gone, none⟩ := sound.ended handle ended
    refine ⟨gone.get, fun slot member entry full => none entry ⟨slot.generation, ?_⟩⟩
    rwa [← full]
  · intro capacity entropy fits
    have named := (sound.announced output owner bytes announced).2.resolve_right fun dead => dead.2.elim undropped registered
    unfold next
    dsimp only
    rw [named]
    dsimp only
    rw [if_neg (by omega)]

/-! ## A close in steps -/

section

def androidDescriptor : ParsedDescriptor := { LimitRounds.descriptor with endpoint := .android (List.replicate 32 97) }

/-- A supervisor is created and its output copied, then a close has taken it out. -/
def closing : List (Move Request Unit) :=
  [.enter (.create (encodeDescriptor androidDescriptor) [0]), .advance 0 (), .advance 0 (), .enter (.outputCopy 4294967297 32),
    .advance 1 (), .enter (.close 4294967297), .advance 2 (), .advance 2 (), .advance 2 (), .advance 2 (), .advance 2 ()]

/-- The pool after some steps of the close. -/
def closed (moves : List (Move Request Unit)) : Pool (Library Unit NonceTransport) (Task Unit NonceTransport) :=
  (library nonceNoise).run unused moves

/-- The condition of a step on the slots, as a test. -/
def steadyTest (step : Library Unit NonceTransport × Task Unit NonceTransport × Unit) : Bool :=
  let after := (step.1.next nonceNoise step.2.1 step.2.2).1
  (match step.2.1 with
    | .drive handle _ => .created handle ∈ step.1.history
    | .close _ handle => handle = 0 ∨ .created handle ∈ step.1.history
    | _ => true) &&
  ((step.1.supervisors.slots.zip after.supervisors.slots).all fun pair => pair.1.generation ≤ pair.2.generation) &&
  (step.1.outputs.slots.zip after.outputs.slots).all fun pair => pair.1.generation ≤ pair.2.generation

theorem forward_of_zip {α : Type} {r r' : Registry α}
    (later : ((r.slots.zip r'.slots).all fun pair => pair.1.generation ≤ pair.2.generation) = true) : r.Forward r' := by
  intro index slot slot' here here'
  have both : (r.slots.zip r'.slots)[index]? = some (slot, slot') := by
    rw [List.getElem?_zip_eq_some]
    exact ⟨here, here'⟩
  simpa using List.all_eq_true.mp later _ (List.mem_of_getElem? both)

theorem steady_of_test {step : Library Unit NonceTransport × Task Unit NonceTransport × Unit} (passed : steadyTest step = true) :
    Steady nonceNoise step.1 step.2.1 step.2.2 := by
  obtain ⟨l, task, entropy⟩ := step
  simp only [steadyTest, Bool.and_eq_true] at passed
  refine ⟨?_, forward_of_zip passed.1.2, forward_of_zip passed.2⟩
  have handed := passed.1.1
  cases task with
  | drive handle event => simpa [Task.Handed] using handed
  | close dropping handle => simpa [Task.Handed] using handed
  | _ => trivial

set_option maxRecDepth 40000 in
theorem no_output_outlives_closing :
    (closed (closing ++ [.advance 2 (), .advance 2 ()])).shared.supervisors.get 4294967297 = none ∧
      ∀ slot ∈ (closed (closing ++ [.advance 2 (), .advance 2 ()])).shared.outputs.slots, ∀ entry, slot.value = some entry →
        entry.owner ≠ 4294967297 := by
  have steady : ((library nonceNoise).taken unused (closing ++ [.advance 2 (), .advance 2 ()])).all steadyTest = true := rfl
  have ended : (closed (closing ++ [.advance 2 (), .advance 2 ()])).shared.history.contains (.ended 4294967297) = true := rfl
  have outlives := no_output_outlives nonceNoise (closing ++ [.advance 2 (), .advance 2 ()])
    fun step member => steady_of_test (List.all_eq_true.mp steady step member)
  exact outlives.2.1 4294967297 (List.contains_iff_mem.mp ended)

set_option maxRecDepth 40000 in
/-- Between the two registries an output has no supervisor. -/
theorem output_without_supervisor :
    (∀ step ∈ (library nonceNoise).taken unused closing, Steady nonceNoise step.1 step.2.1 step.2.2) ∧
      ∃ output entry, (closed closing).shared.outputs.get output = some entry ∧
        (closed closing).shared.supervisors.get entry.owner = none := by
  have steady : ((library nonceNoise).taken unused closing).all steadyTest = true := rfl
  refine ⟨fun step member => steady_of_test (List.all_eq_true.mp steady step member), 4294967297, ⟨4294967297, List.replicate 32 97⟩, rfl, rfl⟩

end

end AppPilotKit.Ffi
