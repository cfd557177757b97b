import AppPilotKit.Semantic.ListProgress

/-! # Cursors of failed listings

A continuation takes its cursor out of the table before it builds the page. What a call
can come to is said once for each platform; from that follows when a call that fails
leaves the table as it was.
-/

namespace AppPilotKit.Semantic

open Snapshot (JSONValue)
open Shortening (shorten Refused)

section
variable {respond : Nat → Option CursorToken → Bool → JsonText} {tokens : Nat → CursorToken} {remaining asked maximum applied : Nat}

theorem pageLoop_error_iff (within : applied ≤ maximum) :
    (∃ fault, pageLoop respond tokens remaining maximum applied asked false = .error fault) ↔
      Refused (offerBytes respond tokens remaining asked) maximum applied asked := by
  have loop := pageLoop_eq respond tokens remaining asked maximum applied (Nat.le_refl asked)
  rw [decide_eq_false (lt_irrefl asked)] at loop
  rw [loop, ← Shortening.refused_iff within]
  split
  · rename_i finds
    exact ⟨fun _ => finds, fun _ => ⟨_, rfl⟩⟩
  · rename_i found finds
    constructor
    · rintro ⟨fault, impossible⟩
      cases impossible
    · intro none
      rw [finds] at none
      cases none

/-- A page that is found is not too large. -/
theorem pageLoop_small {page : Page} (ok : pageLoop respond tokens remaining maximum applied asked false = .ok page) :
    byteCount page.response ≤ maximum := by
  have loop := pageLoop_eq respond tokens remaining asked maximum applied (Nat.le_refl asked)
  rw [decide_eq_false (lt_irrefl asked)] at loop
  rw [loop] at ok
  split at ok
  · cases ok
  · rename_i found finds
    cases ok
    exact (Shortening.shorten_some le_rfl (Shortening.reaches_self _ _ _ _) finds).2.2.2

end

section
variable {Runtime SessionTable CursorTable : Type} (sessions : Runtime → SessionTable) (cursors : Runtime → CursorTable)

/-- A call that fails leaves the table of cursors as it was, unless the sessions are invalidated. -/
def KeepsCursors (before : Runtime) (outcome : Except Fault JsonText × Runtime) : Prop :=
  (∃ fault, outcome.1 = .error fault) → sessions outcome.2 = sessions before → cursors outcome.2 = cursors before

/-- What a call can come to, when `loses` says that it loses its cursor. -/
inductive Outcome (before : Runtime) (loses : Prop) : Except Fault JsonText × Runtime → Prop where
  | failed {fault : Fault} {after : Runtime} (kept : sessions after = sessions before → cursors after = cursors before)
      (keeps : ¬ loses) : Outcome before loses (.error fault, after)
  | lost {fault : Fault} {after : Runtime} (active : sessions after = sessions before) (gone : cursors after ≠ cursors before)
      (lost : loses) : Outcome before loses (.error fault, after)
  | answered (response : JsonText) (after : Runtime) (keeps : ¬ loses) : Outcome before loses (.ok response, after)

variable {sessions cursors}

theorem Outcome.keeps_iff {before : Runtime} {loses : Prop} {outcome : Except Fault JsonText × Runtime}
    (comes : Outcome sessions cursors before loses outcome) : KeepsCursors sessions cursors before outcome ↔ ¬ loses := by
  cases comes with
  | failed kept keeps => exact iff_of_true (fun _ => kept) keeps
  | lost active gone lost => exact iff_of_false (fun keeps => gone (keeps ⟨_, rfl⟩ active)) (not_not.mpr lost)
  | answered response after keeps =>
      refine iff_of_true ?_ keeps
      rintro ⟨fault, impossible⟩
      cases impossible

end

/-! ## iOS -/

namespace SemanticProtocolRuntime

variable (runtime : SemanticProtocolRuntime) (discover : SemanticCapabilityItem → Bool) (invalidated : Bool)
  (tokens : Nat → CursorToken) (requestID : String)

/-- The page cannot be built: it would start beyond the items, or every offer is refused. -/
def Unlistable (requested : RequestedListLimits) (visible : List SemanticCapabilityItem) (start : Nat) : Prop :=
  visible.length < start ∨
    Refused (runtime.pageBytes tokens requestID requested visible start) runtime.limits.maximumResponseBytes
      (requested.appliedBytes runtime.limits) (runtime.asked requested visible start)

variable {runtime tokens requestID}

theorem page_error_iff {requested : RequestedListLimits} {visible : List SemanticCapabilityItem} {start : Nat} :
    (∃ fault, runtime.page tokens requestID requested visible start = .error fault) ↔
      runtime.Unlistable tokens requestID requested visible start := by
  by_cases beyond : visible.length < start
  · refine iff_of_true ⟨.cursorExpired, ?_⟩ (.inl beyond)
    rw [page]
    exact if_pos beyond
  · rw [runtime.page_eq _ _ _ _ _ (by omega), pageLoop_error_iff (requested.appliedBytes_le runtime.limits)]
    exact ⟨.inr, fun either => either.resolve_left beyond⟩

theorem page_small {requested : RequestedListLimits} {visible : List SemanticCapabilityItem} {start : Nat} {page : Page}
    (ok : runtime.page tokens requestID requested visible start = .ok page) :
    byteCount page.response ≤ runtime.limits.maximumResponseBytes := by
  by_cases beyond : visible.length < start
  · rw [SemanticProtocolRuntime.page, if_pos beyond] at ok
    cases ok
  · rw [runtime.page_eq _ _ _ _ _ (by omega)] at ok
    exact pageLoop_small ok

variable (runtime tokens requestID) in
theorem answer_cases (session : SessionRecord) (requested : RequestedListLimits) (visible : List SemanticCapabilityItem) (start : Nat) :
    (∃ fault, runtime.answer tokens requestID session requested visible start = (.error fault, runtime) ∧
        runtime.Unlistable tokens requestID requested visible start) ∨
      (∃ response, (runtime.answer tokens requestID session requested visible start).1 = .ok response ∧
        byteCount response ≤ runtime.limits.maximumResponseBytes ∧
        ¬ runtime.Unlistable tokens requestID requested visible start) := by
  unfold answer
  cases built : runtime.page tokens requestID requested visible start with
  | error fault => exact .inl ⟨fault, rfl, page_error_iff.mp ⟨fault, built⟩⟩
  | ok page =>
      have listable : ¬ runtime.Unlistable tokens requestID requested visible start := by
        rw [← page_error_iff]
        rintro ⟨fault, failed⟩
        rw [built] at failed
        cases failed
      refine .inr ⟨page.response, ?_, page_small built, listable⟩
      dsimp only
      split <;> rfl

/-- A continuation: the record its cursor stands for. -/
def Continues (runtime : SemanticProtocolRuntime) (session : SessionRecord) (params : List (String × JSONValue)) (token : String)
    (cursor : CursorRecord) : Prop :=
  ∃ cursorValue, params.lookup "cursor" = some cursorValue ∧ runtime.continued session params cursorValue = .ok (token, cursor)

theorem Continues.found {session : SessionRecord} {params : List (String × JSONValue)} {token : String} {cursor : CursorRecord}
    (continues : runtime.Continues session params token cursor) : runtime.cursors.lookup token = some cursor := by
  obtain ⟨cursorValue, -, continued⟩ := continues
  unfold SemanticProtocolRuntime.continued at continued
  obtain ⟨_, -, continued⟩ := Checks.bind_ok.mp continued
  split at continued
  · cases continued
  · split at continued
    · cases continued
    · split at continued
      · cases continued
      · rename_i found
        split at continued
        · cases continued
        · split at continued
          · cases continued
          · cases continued
            exact found

theorem Continues.unique {session : SessionRecord} {params : List (String × JSONValue)} {token other : String}
    {cursor record : CursorRecord} (continues : runtime.Continues session params token cursor)
    (also : runtime.Continues session params other record) : token = other ∧ cursor = record := by
  obtain ⟨value, here, ok⟩ := continues
  obtain ⟨again, there, fine⟩ := also
  rw [here] at there
  cases there
  rw [ok] at fine
  cases fine
  exact ⟨rfl, rfl⟩

variable (runtime tokens requestID) in
/-- What `list` can come to. -/
theorem list_cases (session : SessionRecord) (params : List (String × JSONValue)) :
    (∃ fault current, (current = runtime ∨ current = runtime.invalidateSessions) ∧
        runtime.list discover invalidated tokens requestID session params = (.error fault, current) ∧
        ∀ token cursor, ¬ runtime.Continues session params token cursor) ∨
      (∃ fault token cursor, runtime.Continues session params token cursor ∧
        runtime.Unlistable tokens requestID cursor.originalLimits cursor.visibleItems cursor.nextIndex ∧
        runtime.list discover invalidated tokens requestID session params =
          (.error fault, { runtime with cursors := runtime.cursors.erase token })) ∨
      (∃ response, (runtime.list discover invalidated tokens requestID session params).1 = .ok response ∧
        byteCount response ≤ runtime.limits.maximumResponseBytes ∧
        ∀ token cursor, runtime.Continues session params token cursor →
          ¬ runtime.Unlistable tokens requestID cursor.originalLimits cursor.visibleItems cursor.nextIndex) := by
  unfold list
  cases asked : params.lookup "cursor" with
  | some cursorValue =>
      dsimp only
      cases continued : runtime.continued session params cursorValue with
      | error fault =>
          refine .inl ⟨fault, runtime, .inl rfl, rfl, ?_⟩
          rintro token cursor ⟨value, here, ok⟩
          rw [asked] at here
          cases here
          rw [continued] at ok
          cases ok
      | ok taken =>
          obtain ⟨token, cursor⟩ := taken
          have continues : runtime.Continues session params token cursor := ⟨cursorValue, asked, continued⟩
          rcases answer_cases { runtime with cursors := runtime.cursors.erase token } tokens requestID session cursor.originalLimits cursor.visibleItems cursor.nextIndex with
            ⟨fault, failed, unlistable⟩ | ⟨response, ok, small, listable⟩
          · exact .inr (.inl ⟨fault, token, cursor, continues, unlistable, failed⟩)
          · refine .inr (.inr ⟨response, ok, small, ?_⟩)
            intro other record also
            obtain ⟨rfl, rfl⟩ := continues.unique also
            exact listable
  | none =>
      have initial : ∀ token cursor, ¬ runtime.Continues session params token cursor := by
        rintro token cursor ⟨value, here, -⟩
        rw [asked] at here
        cases here
      dsimp only
      split
      · exact .inl ⟨_, runtime, .inl rfl, rfl, initial⟩
      · split
        · exact .inl ⟨_, runtime, .inl rfl, rfl, initial⟩
        · rename_i requested _
          obtain ⟨current, chosen, either⟩ : ∃ current, (if invalidated then runtime.invalidateSessions else runtime) = current ∧
              (current = runtime ∨ current = runtime.invalidateSessions) := by
            refine ⟨_, rfl, ?_⟩
            split
            · exact .inr rfl
            · exact .inl rfl
          have limits : current.limits = runtime.limits := by
            rcases either with rfl | rfl
            · rfl
            · rfl
          rw [chosen]
          split
          · exact .inl ⟨_, current, either, rfl, initial⟩
          · rcases answer_cases current tokens requestID session requested
                (runtime.items.filter discover) 0 with ⟨fault, failed, -⟩ | ⟨response, ok, small, -⟩
            · exact .inl ⟨fault, current, either, failed, initial⟩
            · exact .inr (.inr ⟨response, ok, limits ▸ small, fun token cursor continues => absurd continues (initial token cursor)⟩)

/-- A request that is let through to `list`. -/
def Admits (runtime : SemanticProtocolRuntime) (context : SemanticProtocolSessionContext) (session : SessionRecord) : Prop :=
  runtime.sessions.lookup context.id = some session ∧ session.context = context ∧ 2 ≤ session.minor ∧
    "semantic.catalog" ∈ session.capabilities

/-- A continuation whose cursor is accepted and whose page cannot be built. -/
def LosesCursor (runtime : SemanticProtocolRuntime) (tokens : Nat → CursorToken) (requestID : String)
    (context : SemanticProtocolSessionContext) (params : Option (List (String × JSONValue))) : Prop :=
  ∃ session given token cursor, runtime.Admits context session ∧ params = some given ∧
    runtime.Continues session given token cursor ∧
    runtime.Unlistable tokens requestID cursor.originalLimits cursor.visibleItems cursor.nextIndex

theorem handle_outcome (context : SemanticProtocolSessionContext) (params : Option (List (String × JSONValue))) :
    Outcome sessions cursors runtime (runtime.LosesCursor tokens requestID context params)
      (runtime.handle discover invalidated tokens requestID context params) := by
  have refused (fault : Fault) (turned : ∀ session given, runtime.Admits context session → params = some given → False) :
      Outcome sessions cursors runtime (runtime.LosesCursor tokens requestID context params) (.error fault, runtime) := by
    refine .failed (fun _ => rfl) ?_
    rintro ⟨session, given, token, cursor, admits, same, -, -⟩
    exact turned session given admits same
  unfold handle
  split
  · rename_i absent
    refine refused _ fun session given admits _ => ?_
    rw [admits.1] at absent
    cases absent
  · rename_i session found
    have only {other : SessionRecord} (admits : runtime.Admits context other) : other = session := by
      have here := admits.1
      rw [found] at here
      exact (Option.some.inj here).symm
    split
    · rename_i differs
      exact refused _ fun other given admits _ => differs (only admits ▸ admits.2.1)
    · rename_i same
      split
      · exact refused _ fun _ _ _ impossible => by cases impossible
      · rename_i given
        split
        · rename_i old
          refine refused _ fun other _ admits _ => ?_
          have := only admits ▸ admits.2.2.1
          omega
        · split
          · rename_i missing
            exact refused _ fun other _ admits _ => missing (only admits ▸ admits.2.2.2)
          · rename_i recent granted
            have admits : runtime.Admits context session :=
              ⟨found, not_not.mp same, by omega, not_not.mp granted⟩
            have loses : runtime.LosesCursor tokens requestID context (some given) ↔
                ∃ token cursor, runtime.Continues session given token cursor ∧
                  runtime.Unlistable tokens requestID cursor.originalLimits cursor.visibleItems cursor.nextIndex := by
              constructor
              · rintro ⟨other, params, token, cursor, admitted, same, continues, unlistable⟩
                cases same
                rw [only admitted] at continues
                exact ⟨token, cursor, continues, unlistable⟩
              · rintro ⟨token, cursor, continues, unlistable⟩
                exact ⟨session, given, token, cursor, admits, rfl, continues, unlistable⟩
            rw [loses]
            rcases list_cases runtime discover invalidated tokens requestID session given with
              ⟨fault, current, either, failed, initial⟩ | ⟨fault, token, cursor, continues, unlistable, failed⟩ |
                ⟨response, ok, small, listable⟩
            · rw [failed]
              refine .failed (fun active => ?_) fun ⟨token, cursor, continues, _⟩ => initial token cursor continues
              rcases either with rfl | rfl
              · rfl
              · have none : runtime.invalidateSessions.sessions.lookup context.id = none := rfl
                rw [active, found] at none
                cases none
            · rw [failed]
              refine .lost rfl (fun same : runtime.cursors.erase token = runtime.cursors => ?_) ⟨token, cursor, continues, unlistable⟩
              have gone := Dict.lookup_erase_eq runtime.cursors token token
              rw [same, continues.found, if_pos rfl] at gone
              cases gone
            · have keeps : ¬ ∃ token cursor, runtime.Continues session given token cursor ∧
                  runtime.Unlistable tokens requestID cursor.originalLimits cursor.visibleItems cursor.nextIndex :=
                fun ⟨token, cursor, continues, unlistable⟩ => listable token cursor continues unlistable
              split
              · rename_i refusal
                rw [refusal] at ok
                cases ok
              · rename_i answered
                rw [answered] at ok
                cases ok
                rw [if_neg (by omega)]
                exact .answered _ _ keeps

end SemanticProtocolRuntime

/-! ## Android -/

namespace ProtocolRuntime

open Android (SemanticDeclaration JsonElement)

variable (runtime : ProtocolRuntime) (longOrNull : List Char → Option Int) (discover : SemanticDeclaration → Bool)
  (invalidated : Moment → Bool) (tokens : Nat → CursorToken) (id : String)

/-- The page cannot be built: it would start beyond the declarations, or every offer is refused. -/
def Unlistable (requested : RequestedListLimits) (visible : List SemanticDeclaration) (start : Nat) : Prop :=
  visible.length < start ∨
    Refused (runtime.pageBytes tokens id requested visible start) runtime.limits.maximumResponseBytes
      (requested.appliedBytes runtime.limits) (runtime.asked requested visible start)

variable {runtime tokens id}

theorem page_error_iff {requested : RequestedListLimits} {visible : List SemanticDeclaration} {start : Nat} :
    (∃ fault, runtime.page tokens id requested visible start = .error fault) ↔
      runtime.Unlistable tokens id requested visible start := by
  by_cases beyond : visible.length < start
  · refine iff_of_true ⟨.cursorExpired, ?_⟩ (.inl beyond)
    rw [page]
    exact if_pos beyond
  · rw [runtime.page_eq _ _ _ _ _ (by omega), pageLoop_error_iff (requested.appliedBytes_le runtime.limits)]
    exact ⟨.inr, fun either => either.resolve_left beyond⟩

theorem page_small {requested : RequestedListLimits} {visible : List SemanticDeclaration} {start : Nat} {page : Page}
    (ok : runtime.page tokens id requested visible start = .ok page) :
    byteCount page.response ≤ runtime.limits.maximumResponseBytes := by
  by_cases beyond : visible.length < start
  · rw [ProtocolRuntime.page, if_pos beyond] at ok
    cases ok
  · rw [runtime.page_eq _ _ _ _ _ (by omega)] at ok
    exact pageLoop_small ok

variable (runtime tokens id) in
/-- The page may be built and the session invalidated before the answer. -/
theorem answer_cases (session : Session) (requested : RequestedListLimits) (visible : List SemanticDeclaration) (start : Nat) :
    (∃ fault, runtime.answer invalidated tokens id session requested visible start = (.error fault, runtime) ∧
        runtime.Unlistable tokens id requested visible start) ∨
      (∃ fault current, (current = runtime ∨ current = runtime.invalidateSessions) ∧
        runtime.answer invalidated tokens id session requested visible start = (.error fault, current) ∧
        current.ensureActive session = .error fault ∧ ¬ runtime.Unlistable tokens id requested visible start) ∨
      (∃ response, (runtime.answer invalidated tokens id session requested visible start).1 = .ok response ∧
        byteCount response ≤ runtime.limits.maximumResponseBytes ∧ ¬ runtime.Unlistable tokens id requested visible start) := by
  unfold answer
  cases built : runtime.page tokens id requested visible start with
  | error fault => exact .inl ⟨fault, rfl, page_error_iff.mp ⟨fault, built⟩⟩
  | ok page =>
      have listable : ¬ runtime.Unlistable tokens id requested visible start := by
        rw [← page_error_iff]
        rintro ⟨fault, failed⟩
        rw [built] at failed
        cases failed
      have either : runtime.atCheck invalidated .answering = runtime ∨
          runtime.atCheck invalidated .answering = runtime.invalidateSessions := by
        unfold atCheck
        split
        · exact .inr rfl
        · exact .inl rfl
      dsimp only
      split
      · rename_i fault inactive
        exact .inr (.inl ⟨fault, _, either, rfl, inactive, listable⟩)
      · refine .inr (.inr ⟨page.response, ?_, page_small built, listable⟩)
        split <;> rfl

/-- A continuation: the record its cursor stands for. -/
def Continues (runtime : ProtocolRuntime) (session : Session) (params : List (String × JsonElement)) (token : String)
    (cursor : Cursor) : Prop :=
  ∃ cursorToken, params.lookup "cursor" = some cursorToken ∧ runtime.continued session params cursorToken = .ok (token, cursor)

theorem Continues.found {session : Session} {params : List (String × JsonElement)} {token : String} {cursor : Cursor}
    (continues : runtime.Continues session params token cursor) : runtime.cursors.lookup token = some cursor := by
  obtain ⟨cursorToken, -, continued⟩ := continues
  unfold ProtocolRuntime.continued at continued
  obtain ⟨_, -, continued⟩ := Checks.bind_ok.mp continued
  split at continued
  · cases continued
  · split at continued
    · cases continued
    · split at continued
      · cases continued
      · rename_i found
        split at continued
        · cases continued
        · split at continued
          · cases continued
          · cases continued
            exact found

theorem Continues.unique {session : Session} {params : List (String × JsonElement)} {token other : String}
    {cursor record : Cursor} (continues : runtime.Continues session params token cursor)
    (also : runtime.Continues session params other record) : token = other ∧ cursor = record := by
  obtain ⟨value, here, ok⟩ := continues
  obtain ⟨again, there, fine⟩ := also
  rw [here] at there
  cases there
  rw [ok] at fine
  cases fine
  exact ⟨rfl, rfl⟩

theorem inactive_of_empty {current : ProtocolRuntime} {session : Session} (empty : current.sessions = ∅) :
    current.ensureActive session = .error .sessionExpired := by
  rw [ensureActive, empty]
  exact if_neg (by simp)

/-- A continuation that gets as far as its page, which cannot be built. -/
def Strands (runtime : ProtocolRuntime) (invalidated : Moment → Bool) (tokens : Nat → CursorToken) (id : String)
    (session : Session) (params : List (String × JsonElement)) : Prop :=
  invalidated .entering = false ∧ ∃ token cursor, runtime.Continues session params token cursor ∧
    runtime.Unlistable tokens id cursor.originalLimits cursor.visibleDeclarations cursor.nextIndex

variable (runtime tokens id) in
/-- What `list` can come to, for an active session. A failure keeps the cursors or has the sessions
    cleared, unless a continuation strands. -/
theorem list_cases (session : Session) (params : List (String × JsonElement)) (active : runtime.ensureActive session = .ok ()) :
    (∃ fault current, (current.cursors = runtime.cursors ∨ current.sessions = ∅) ∧
        runtime.list longOrNull discover invalidated tokens id session params = (.error fault, current) ∧
        ¬ runtime.Strands invalidated tokens id session params) ∨
      (∃ fault token cursor, runtime.Continues session params token cursor ∧
        runtime.Strands invalidated tokens id session params ∧
        runtime.list longOrNull discover invalidated tokens id session params =
          (.error fault, { runtime with cursors := runtime.cursors.erase token })) ∨
      (∃ response, (runtime.list longOrNull discover invalidated tokens id session params).1 = .ok response ∧
        byteCount response ≤ runtime.limits.maximumResponseBytes ∧
        ¬ runtime.Strands invalidated tokens id session params) := by
  unfold list
  cases entering : invalidated .entering with
  | true =>
      have cleared : runtime.atCheck invalidated .entering = runtime.invalidateSessions := if_pos entering
      have unstranded : ¬ runtime.Strands invalidated tokens id session params := by
        rintro ⟨impossible, -⟩
        rw [entering] at impossible
        cases impossible
      dsimp only
      rw [cleared, inactive_of_empty rfl]
      exact .inl ⟨_, _, .inr rfl, rfl, unstranded⟩
  | false =>
      have same : runtime.atCheck invalidated .entering = runtime := by
        unfold atCheck
        rw [entering]
        rfl
      dsimp only
      rw [same, active]
      dsimp only
      cases asked : params.lookup "cursor" with
      | some cursorToken =>
          dsimp only
          cases continued : runtime.continued session params cursorToken with
          | error fault =>
              refine .inl ⟨fault, runtime, .inl rfl, rfl, ?_⟩
              rintro ⟨-, token, cursor, ⟨value, here, ok⟩, -⟩
              rw [asked] at here
              cases here
              rw [continued] at ok
              cases ok
          | ok taken =>
              obtain ⟨token, cursor⟩ := taken
              have continues : runtime.Continues session params token cursor := ⟨cursorToken, asked, continued⟩
              have only : runtime.Strands invalidated tokens id session params →
                  runtime.Unlistable tokens id cursor.originalLimits cursor.visibleDeclarations cursor.nextIndex := by
                rintro ⟨-, other, record, also, unlistable⟩
                obtain ⟨rfl, rfl⟩ := continues.unique also
                exact unlistable
              rcases answer_cases { runtime with cursors := runtime.cursors.erase token } invalidated tokens id session
                  cursor.originalLimits cursor.visibleDeclarations cursor.nextIndex with
                ⟨fault, failed, unlistable⟩ | ⟨fault, current, either, failed, inactive, listable⟩ | ⟨response, ok, small, listable⟩
              · exact .inr (.inl ⟨fault, token, cursor, continues, ⟨entering, token, cursor, continues, unlistable⟩, failed⟩)
              · refine .inl ⟨fault, current, .inr ?_, failed, fun strands => listable (only strands)⟩
                rcases either with rfl | rfl
                · have stillActive : ({ runtime with cursors := runtime.cursors.erase token } : ProtocolRuntime).ensureActive session =
                      runtime.ensureActive session := rfl
                  rw [stillActive, active] at inactive
                  cases inactive
                · rfl
              · exact .inr (.inr ⟨response, ok, small, fun strands => listable (only strands)⟩)
      | none =>
          have initial : ¬ runtime.Strands invalidated tokens id session params := by
            rintro ⟨-, token, cursor, ⟨value, here, -⟩, -⟩
            rw [asked] at here
            cases here
          dsimp only
          split
          · exact .inl ⟨_, runtime, .inl rfl, rfl, initial⟩
          · split
            · exact .inl ⟨_, runtime, .inl rfl, rfl, initial⟩
            · rename_i requested _
              have discovered : (runtime.atCheck invalidated .discovering).limits = runtime.limits ∧
                  ((runtime.atCheck invalidated .discovering).cursors = runtime.cursors ∨
                    (runtime.atCheck invalidated .discovering).sessions = ∅) := by
                unfold atCheck
                split
                · exact ⟨rfl, .inr rfl⟩
                · exact ⟨rfl, .inl rfl⟩
              generalize runtime.atCheck invalidated .discovering = current at discovered
              split
              · exact .inl ⟨_, current, discovered.2, rfl, initial⟩
              · rcases answer_cases current invalidated tokens id session requested (current.declarations.filter discover) 0 with
                  ⟨fault, failed, -⟩ | ⟨fault, late, either, failed, -, -⟩ | ⟨response, ok, small, -⟩
                · exact .inl ⟨fault, current, discovered.2, failed, initial⟩
                · refine .inl ⟨fault, late, ?_, failed, initial⟩
                  rcases either with rfl | rfl
                  · exact discovered.2
                  · exact .inr rfl
                · exact .inr (.inr ⟨response, ok, discovered.1 ▸ small, initial⟩)

/-- A request that is let through to `list`. -/
def Admits (runtime : ProtocolRuntime) (context : ProtocolSessionContext) (session : Session) : Prop :=
  runtime.sessions.lookup context.id = some session ∧ session.context = context ∧ 2 ≤ session.minor ∧
    "semantic.catalog" ∈ session.capabilities

/-- A continuation whose cursor is accepted and whose page cannot be built. -/
def LosesCursor (runtime : ProtocolRuntime) (invalidated : Moment → Bool) (tokens : Nat → CursorToken) (id : String)
    (context : ProtocolSessionContext) (params : Option (List (String × JsonElement))) : Prop :=
  ∃ session given, runtime.Admits context session ∧ params = some given ∧ runtime.Strands invalidated tokens id session given

theorem handle_outcome (context : ProtocolSessionContext) (params : Option (List (String × JsonElement))) :
    Outcome sessions cursors runtime (runtime.LosesCursor invalidated tokens id context params)
      (runtime.handle longOrNull discover invalidated tokens id context params) := by
  have refused (fault : Fault) (turned : ∀ session given, runtime.Admits context session → params = some given → False) :
      Outcome sessions cursors runtime (runtime.LosesCursor invalidated tokens id context params) (.error fault, runtime) := by
    refine .failed (fun _ => rfl) ?_
    rintro ⟨session, given, admits, same, -⟩
    exact turned session given admits same
  unfold handle
  split
  · rename_i absent
    refine refused _ fun session given admits _ => ?_
    rw [admits.1] at absent
    cases absent
  · rename_i session found
    have only {other : Session} (admits : runtime.Admits context other) : other = session := by
      have here := admits.1
      rw [found] at here
      exact (Option.some.inj here).symm
    split
    · rename_i differs
      exact refused _ fun other given admits _ => differs (only admits ▸ admits.2.1)
    · rename_i same
      split
      · exact refused _ fun _ _ _ impossible => by cases impossible
      · rename_i given
        split
        · rename_i old
          refine refused _ fun other _ admits _ => ?_
          have := only admits ▸ admits.2.2.1
          omega
        · split
          · rename_i missing
            exact refused _ fun other _ admits _ => missing (only admits ▸ admits.2.2.2)
          · rename_i recent granted
            have admits : runtime.Admits context session := ⟨found, not_not.mp same, by omega, not_not.mp granted⟩
            have active : runtime.ensureActive session = .ok () := by
              rw [ensureActive, not_not.mp same, found]
              exact if_pos rfl
            have loses : runtime.LosesCursor invalidated tokens id context (some given) ↔
                runtime.Strands invalidated tokens id session given := by
              constructor
              · rintro ⟨other, params, admitted, same, strands⟩
                cases same
                rw [only admitted] at strands
                exact strands
              · exact fun strands => ⟨session, given, admits, rfl, strands⟩
            rw [loses]
            rcases list_cases runtime longOrNull discover invalidated tokens id session given active with
              ⟨fault, current, either, failed, keeps⟩ | ⟨fault, token, cursor, continues, strands, failed⟩ |
                ⟨response, ok, small, keeps⟩
            · rw [failed]
              refine .failed (fun unchanged => ?_) keeps
              rcases either with same | cleared
              · exact same
              · have none : current.sessions.lookup context.id = none := by
                  rw [cleared]
                  rfl
                rw [unchanged, found] at none
                cases none
            · rw [failed]
              refine .lost rfl (fun same : runtime.cursors.erase token = runtime.cursors => ?_) strands
              have gone := Dict.lookup_erase_eq runtime.cursors token token
              rw [same, continues.found, if_pos rfl] at gone
              cases gone
            · split
              · rename_i refusal
                rw [refusal] at ok
                cases ok
              · rename_i answered
                rw [answered] at ok
                cases ok
                rw [if_neg (by omega)]
                exact .answered _ _ keeps

end ProtocolRuntime

/-- On both platforms a call that fails keeps the cursors unless a continuation cannot build its page. -/
theorem failed_list_keeps_cursors_iff (tokens : Nat → CursorToken) :
    (∀ (runtime : SemanticProtocolRuntime) (discover : SemanticCapabilityItem → Bool) (invalidated : Bool)
      (requestID : String) (context : SemanticProtocolSessionContext)
      (params : Option (List (String × JSONValue))),
      KeepsCursors SemanticProtocolRuntime.sessions SemanticProtocolRuntime.cursors runtime
          (runtime.handle discover invalidated tokens requestID context params) ↔
        ¬ runtime.LosesCursor tokens requestID context params) ∧
    (∀ (runtime : ProtocolRuntime) (longOrNull : List Char → Option Int) (discover : Android.SemanticDeclaration → Bool)
      (invalidated : Moment → Bool) (id : String) (context : ProtocolSessionContext)
      (params : Option (List (String × Android.JsonElement))),
      KeepsCursors ProtocolRuntime.sessions ProtocolRuntime.cursors runtime
          (runtime.handle longOrNull discover invalidated tokens id context params) ↔
        ¬ runtime.LosesCursor invalidated tokens id context params) :=
  ⟨fun _ discover invalidated _ context params =>
      (SemanticProtocolRuntime.handle_outcome discover invalidated context params).keeps_iff,
    fun _ longOrNull discover invalidated _ context params =>
      (ProtocolRuntime.handle_outcome longOrNull discover invalidated context params).keeps_iff⟩

def firstContext : SemanticProtocolSessionContext := { id := "session_of_the_client", generation := 1 }

def atMostEight : RequestedListLimits := { unlimited with maxItems := some 8, itemRange := by simp }

/-- The first page of a listing is out, of one short item; the eight long ones are left. -/
def halfListed : SemanticProtocolRuntime where
  catalog := wideCatalog.catalog
  items := { longItem with id := "a" } :: wideCatalog.items
  limits := wideCatalog.limits
  sessions := AList.singleton firstContext.id
    { context := firstContext, minor := 2, capabilities := ["session.core", "semantic.catalog"] }
  cursors := AList.singleton zeroToken.text
    { context := firstContext, catalog := wideCatalog.catalog, originalLimits := atMostEight
      visibleItems := { longItem with id := "a" } :: wideCatalog.items, nextIndex := 1 }

/-- The continuation fails, and its cursor is gone. -/
theorem failed_continuation_loses_cursor :
    halfListed.cursors.lookup zeroToken.text ≠ none ∧
      ¬ KeepsCursors SemanticProtocolRuntime.sessions SemanticProtocolRuntime.cursors halfListed
        (halfListed.handle (fun _ => true) false (fun _ => zeroToken) "request" firstContext
          (some [("cursor", .string zeroToken.text)])) := by
  have found : halfListed.cursors.lookup zeroToken.text ≠ none := by
    have here : (halfListed.cursors.lookup zeroToken.text).isSome = true := rfl
    exact Option.isSome_iff_ne_none.mp here
  refine ⟨found, fun keeps => ?_⟩
  refine (SemanticProtocolRuntime.handle_outcome _ _ _ _).keeps_iff.mp keeps ?_
  refine ⟨_, _, zeroToken.text, _, ⟨rfl, rfl, le_rfl, by decide⟩, rfl, ⟨_, rfl, rfl⟩, .inr ?_⟩
  exact ⟨8, le_rfl, Shortening.reaches_self _ _ _ _, .inl (by decide +kernel)⟩

end AppPilotKit.Semantic
