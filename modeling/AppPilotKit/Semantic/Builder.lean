import AppPilotKit.Lib.Dict
import AppPilotKit.Lib.Patterns
import AppPilotKit.Lib.Runs
import AppPilotKit.Semantic.Canonical

/-! # Building the semantic registry on Android

Registrations go into two maps, one by capability id and one by schema key, until the
registry is frozen. A registration is checked as a whole before either map changes.
-/

namespace AppPilotKit.Semantic.Android

inductive SemanticFailureKind where
  | invalidRegistration
  | catalogFrozen
  | capabilityNotFound
  | schemaMismatch
  | resourceExhausted
  deriving DecidableEq

abbrev Answer := Except SemanticFailureKind

def registrationCheck (condition : Bool) : Answer Unit := if condition then .ok () else .error .invalidRegistration

inductive AuthorizationPolicy where
  | none
  | destructiveAuthorization
  deriving DecidableEq

inductive RetrySafety where
  | noAutomaticRetry
  | retryWithProofOnly
  deriving DecidableEq

structure ActionPolicy where
  authorization : AuthorizationPolicy
  retrySafety : RetrySafety
  deriving DecidableEq

structure CatalogIdentity where
  id : String
  generation : Int
  deriving DecidableEq

def CatalogIdentity.validate (identity : CatalogIdentity) : Answer Unit := do
  registrationCheck (Patterns.tagged "catalog_" Patterns.unreserved 8 120 identity.id)
  registrationCheck (1 ≤ identity.generation)

structure SchemaHandle where
  id : String
  revision : Int
  digest : String
  deriving DecidableEq

/-- `[a-f0-9]`. -/
def hexDigit (c : Char) : Bool := Patterns.digit c || ('a' ≤ c && c ≤ 'f')

def SchemaHandle.validate (handle : SchemaHandle) : Answer Unit := do
  registrationCheck (Patterns.tagged "schema_" Patterns.unreserved 8 120 handle.id)
  registrationCheck (1 ≤ handle.revision)
  registrationCheck (Patterns.tagged "sha256:" hexDigit 64 64 handle.digest)

structure SchemaKey where
  id : String
  revision : Int
  deriving DecidableEq

def SchemaHandle.key (handle : SchemaHandle) : SchemaKey := { id := handle.id, revision := handle.revision }

/-- A schema with the digest of its document. -/
structure SemanticSchema where
  handle : SchemaHandle
  document : Json

/-- A codec of the App: its schema, and what its own check says, or that the check throws. -/
structure SemanticCodec where
  schema : SemanticSchema
  isRegistrationValid : Option Bool

/-! ## Declarations and entries -/

structure ResourceDeclaration where
  id : String
  declarationRevision : Int
  inputSchema : Option SchemaHandle
  valueSchema : SchemaHandle
  deriving DecidableEq

structure ActionDeclaration where
  id : String
  declarationRevision : Int
  inputSchema : SchemaHandle
  policy : ActionPolicy
  deriving DecidableEq

inductive SemanticDeclaration where
  | resource (declaration : ResourceDeclaration)
  | action (declaration : ActionDeclaration)
  deriving DecidableEq

namespace SemanticDeclaration

def id : SemanticDeclaration → String
  | .resource declaration => declaration.id
  | .action declaration => declaration.id

def declarationRevision : SemanticDeclaration → Int
  | .resource declaration => declaration.declarationRevision
  | .action declaration => declaration.declarationRevision

/-- The schema handles that a declaration lists. -/
def handles : SemanticDeclaration → List SchemaHandle
  | .resource declaration => declaration.inputSchema.toList ++ [declaration.valueSchema]
  | .action declaration => [declaration.inputSchema]

end SemanticDeclaration

inductive ErasedEntry where
  | resource (declaration : ResourceDeclaration) (inputCodec : Option SemanticCodec) (valueCodec : SemanticCodec)
  | action (declaration : ActionDeclaration) (inputCodec : SemanticCodec)

namespace ErasedEntry

def declaration : ErasedEntry → SemanticDeclaration
  | .resource declaration _ _ => .resource declaration
  | .action declaration _ => .action declaration

/-- The handles of the codecs of an entry. -/
def declaredHandles : ErasedEntry → List SchemaHandle
  | .resource _ inputCodec valueCodec => (inputCodec.map (·.schema.handle)).toList ++ [valueCodec.schema.handle]
  | .action _ inputCodec => [inputCodec.schema.handle]

/-- The schemas that come with an entry. -/
def schemas : ErasedEntry → List SemanticSchema
  | .resource _ inputCodec valueCodec => (inputCodec.map (·.schema)).toList ++ [valueCodec.schema]
  | .action _ inputCodec => [inputCodec.schema]

end ErasedEntry

/-! ## The registry -/

structure SemanticRegistry where
  identity : CatalogIdentity
  maxDisclosureBytes : Int
  entries : Dict String ErasedEntry
  schemas : Dict SchemaKey SemanticSchema

namespace SemanticRegistry

def matchingEntry (registry : SemanticRegistry) (capability : String) (declarationRevision : Int) : Answer ErasedEntry :=
  match registry.entries.lookup capability with
  | none => .error .capabilityNotFound
  | some entry =>
      if entry.declaration.declarationRevision ≠ declarationRevision then .error .schemaMismatch else .ok entry

def «show» (registry : SemanticRegistry) (capability : String) (declarationRevision : Int) : Answer SemanticDeclaration := do
  let entry ← registry.matchingEntry capability declarationRevision
  return entry.declaration

def schema (registry : SemanticRegistry) (capability : String) (declarationRevision : Int) (handle : SchemaHandle) :
    Answer Json := do
  let entry ← registry.matchingEntry capability declarationRevision
  if handle ∉ entry.declaredHandles then throw .schemaMismatch
  match (registry.schemas.lookup handle.key).filter (·.handle = handle) with
  | none => throw .schemaMismatch
  | some schema =>
      if (bytes (wireJson schema.document)).size > registry.maxDisclosureBytes then throw .resourceExhausted
      return schema.document

end SemanticRegistry

/-! ## The builder -/

structure SemanticRegistryBuilder where
  entries : Dict String ErasedEntry := ∅
  schemas : Dict SchemaKey SemanticSchema := ∅
  frozen : Bool := false

/-- What a call on the builder may do: change it, and throw. -/
abbrev Building := ExceptT SemanticFailureKind (StateM SemanticRegistryBuilder)

namespace SemanticRegistryBuilder

def checkOpen : Building Unit := do
  if (← get).frozen then throw .catalogFrozen

def validateRegistration (id : String) (revision : Int) (codec : SemanticCodec) : Answer Unit := do
  registrationCheck (Patterns.dotted id && id.length ≤ 128)
  registrationCheck (1 ≤ revision)
  registrationCheck (codec.isRegistrationValid.getD false)
  codec.schema.handle.validate

/-- The candidates agree with the schemas that are there, and with each other. -/
def conflicts (schemas : Dict SchemaKey SemanticSchema) (combined : Dict SchemaKey SemanticSchema) :
    List SemanticSchema → Answer Unit
  | [] => .ok ()
  | schema :: rest => do
      let existing := (combined.lookup schema.handle.key).or (schemas.lookup schema.handle.key)
      registrationCheck (existing.all (·.handle = schema.handle))
      conflicts schemas (combined.insert schema.handle.key schema) rest

def validateSchemaConflicts (candidates : List SemanticSchema) : Building Unit := do
  conflicts (← get).schemas ∅ candidates

def putIfAbsent (schemas : Dict SchemaKey SemanticSchema) (schema : SemanticSchema) : Dict SchemaKey SemanticSchema :=
  if (schemas.lookup schema.handle.key).isSome then schemas else schemas.insert schema.handle.key schema

def installSchemas (candidates : List SemanticSchema) : Building Unit :=
  modify fun builder => { builder with schemas := candidates.foldl putIfAbsent builder.schemas }

def registerResource (id : String) (declarationRevision : Int) (inputCodec : Option SemanticCodec)
    (valueCodec : SemanticCodec) : Building Unit := do
  checkOpen
  validateRegistration id declarationRevision valueCodec
  (inputCodec.map (validateRegistration id declarationRevision)).getD (.ok ())
  registrationCheck ((← get).entries.lookup id).isNone
  let registrationSchemas := (inputCodec.map (·.schema)).toList ++ [valueCodec.schema]
  validateSchemaConflicts registrationSchemas
  let declaration : ResourceDeclaration := {
    id, declarationRevision, inputSchema := inputCodec.map (·.schema.handle), valueSchema := valueCodec.schema.handle }
  modify fun builder => { builder with entries := builder.entries.insert id (.resource declaration inputCodec valueCodec) }
  installSchemas registrationSchemas

def registerAction (id : String) (declarationRevision : Int) (inputCodec : SemanticCodec) (policy : ActionPolicy) :
    Building Unit := do
  checkOpen
  validateRegistration id declarationRevision inputCodec
  registrationCheck ((← get).entries.lookup id).isNone
  validateSchemaConflicts [inputCodec.schema]
  let declaration : ActionDeclaration := { id, declarationRevision, inputSchema := inputCodec.schema.handle, policy }
  modify fun builder => { builder with entries := builder.entries.insert id (.action declaration inputCodec) }
  installSchemas [inputCodec.schema]

def freeze (identity : CatalogIdentity) (maxDisclosureBytes : Int) : Building SemanticRegistry := do
  checkOpen
  identity.validate
  registrationCheck (0 < maxDisclosureBytes)
  let builder ← get
  modify fun builder => { builder with frozen := true }
  return { identity, maxDisclosureBytes, entries := builder.entries, schemas := builder.schemas }

inductive Call where
  | registerResource (id : String) (declarationRevision : Int) (inputCodec : Option SemanticCodec) (valueCodec : SemanticCodec)
  | registerAction (id : String) (declarationRevision : Int) (inputCodec : SemanticCodec) (policy : ActionPolicy)
  | freeze (identity : CatalogIdentity) (maxDisclosureBytes : Int)

/-- One call, with the registry that a freeze returns. -/
def building : Call → Building (Option SemanticRegistry)
  | .registerResource id revision inputCodec valueCodec => do
      registerResource id revision inputCodec valueCodec
      return none
  | .registerAction id revision inputCodec policy => do
      registerAction id revision inputCodec policy
      return none
  | .freeze identity maxDisclosureBytes => do
      let registry ← freeze identity maxDisclosureBytes
      return some registry

def call (builder : SemanticRegistryBuilder) (request : Call) : Answer (Option SemanticRegistry) × SemanticRegistryBuilder :=
  (building request).run builder

def run (builder : SemanticRegistryBuilder) (calls : List Call) : SemanticRegistryBuilder := Runs.final call builder calls

/-! ## What one call does -/

variable {builder after : SemanticRegistryBuilder} {α β : Type}

theorem run_check (check : Answer α) (next : α → Building β) :
    ((liftM check : Building α) >>= next).run builder = match check with
      | .ok value => (next value).run builder
      | .error failure => (.error failure, builder) := by
  cases check <;> rfl

theorem run_get (next : SemanticRegistryBuilder → Building β) :
    ((get : Building SemanticRegistryBuilder) >>= next).run builder = (next builder).run builder := rfl

theorem run_open (next : Unit → Building β) :
    (checkOpen >>= next).run builder = if builder.frozen then (.error .catalogFrozen, builder) else (next ()).run builder := by
  obtain ⟨entries, schemas, frozen⟩ := builder
  cases frozen <;> rfl

theorem run_conflicts (candidates : List SemanticSchema) (next : Unit → Building β) :
    (validateSchemaConflicts candidates >>= next).run builder = match conflicts builder.schemas ∅ candidates with
      | .ok () => (next ()).run builder
      | .error failure => (.error failure, builder) := by
  change ((liftM (conflicts builder.schemas ∅ candidates) : Building Unit) >>= next).run builder = _
  rw [run_check]
  cases conflicts builder.schemas ∅ candidates <;> rfl

/-- The builder with one more entry and its schemas. -/
def install (builder : SemanticRegistryBuilder) (id : String) (entry : ErasedEntry) : SemanticRegistryBuilder :=
  { builder with entries := builder.entries.insert id entry, schemas := entry.schemas.foldl putIfAbsent builder.schemas }

/-- What every call does: it throws and changes nothing, or registers one entry whose id is
    new and whose schemas agree with all others, or freezes. -/
inductive Outcome (builder : SemanticRegistryBuilder) : Call → Answer (Option SemanticRegistry) × SemanticRegistryBuilder → Prop
  | threw (request : Call) (failure : SemanticFailureKind) (closed : builder.frozen = true → failure = .catalogFrozen) :
      Outcome builder request (.error failure, builder)
  | registered (request : Call) (id : String) (entry : ErasedEntry) (serving : builder.frozen = false)
      (fresh : builder.entries.lookup id = none) (named : entry.declaration.id = id)
      (declared : entry.declaration.handles = entry.declaredHandles)
      (agree : conflicts builder.schemas ∅ entry.schemas = .ok ()) :
      Outcome builder request (.ok none, builder.install id entry)
  | froze (identity : CatalogIdentity) (maxDisclosureBytes : Int) (serving : builder.frozen = false) :
      Outcome builder (.freeze identity maxDisclosureBytes)
        (.ok (some { identity, maxDisclosureBytes, entries := builder.entries, schemas := builder.schemas }),
          { builder with frozen := true })

theorem registrationCheck_ok {condition : Bool} (ok : registrationCheck condition = .ok ()) : condition = true := by
  cases condition
  · cases ok
  · rfl

theorem call_outcome (builder : SemanticRegistryBuilder) (request : Call) : Outcome builder request (builder.call request) := by
  have open_ : ∀ failure, builder.frozen = false → (builder.frozen = true → failure = SemanticFailureKind.catalogFrozen) := by
    intro failure serving closed
    simp [serving] at closed
  cases request with
  | registerResource id revision inputCodec valueCodec =>
      unfold call building registerResource
      simp only [bind_assoc]
      rw [run_open]
      cases serving : builder.frozen with
      | true => exact .threw _ _ fun _ => rfl
      | false =>
          simp only [Bool.false_eq_true, if_false]
          rw [run_check]
          cases validateRegistration id revision valueCodec with
          | error failure => exact .threw _ _ (open_ failure serving)
          | ok valid =>
              simp only
              rw [run_check]
              cases (inputCodec.map (validateRegistration id revision)).getD (.ok ()) with
              | error failure => exact .threw _ _ (open_ failure serving)
              | ok also =>
                  simp only
                  rw [run_get, run_check]
                  cases fresh : registrationCheck (builder.entries.lookup id).isNone with
                  | error failure => exact .threw _ _ (open_ failure serving)
                  | ok _ =>
                      simp only
                      rw [run_conflicts]
                      cases agree : conflicts builder.schemas ∅ ((inputCodec.map (·.schema)).toList ++ [valueCodec.schema]) with
                      | error failure => exact .threw _ _ (open_ failure serving)
                      | ok _ =>
                          have absent : builder.entries.lookup id = none := by
                            simpa using registrationCheck_ok fresh
                          exact .registered _ id (.resource ⟨id, revision, inputCodec.map (·.schema.handle), valueCodec.schema.handle⟩
                            inputCodec valueCodec) serving absent rfl rfl agree
  | registerAction id revision inputCodec policy =>
      unfold call building registerAction
      simp only [bind_assoc]
      rw [run_open]
      cases serving : builder.frozen with
      | true => exact .threw _ _ fun _ => rfl
      | false =>
          simp only [Bool.false_eq_true, if_false]
          rw [run_check]
          cases validateRegistration id revision inputCodec with
          | error failure => exact .threw _ _ (open_ failure serving)
          | ok valid =>
              simp only
              rw [run_get, run_check]
              cases fresh : registrationCheck (builder.entries.lookup id).isNone with
              | error failure => exact .threw _ _ (open_ failure serving)
              | ok _ =>
                  simp only
                  rw [run_conflicts]
                  cases agree : conflicts builder.schemas ∅ [inputCodec.schema] with
                  | error failure => exact .threw _ _ (open_ failure serving)
                  | ok _ =>
                      have absent : builder.entries.lookup id = none := by
                        simpa using registrationCheck_ok fresh
                      exact .registered _ id (.action ⟨id, revision, inputCodec.schema.handle, policy⟩ inputCodec) serving
                        absent rfl rfl agree
  | freeze identity maxDisclosureBytes =>
      unfold call building freeze
      simp only [bind_assoc]
      rw [run_open]
      cases serving : builder.frozen with
      | true => exact .threw _ _ fun _ => rfl
      | false =>
          simp only [Bool.false_eq_true, if_false]
          rw [run_check]
          cases identity.validate with
          | error failure => exact .threw _ _ (open_ failure serving)
          | ok valid =>
              simp only
              rw [run_check]
              cases registrationCheck (decide (0 < maxDisclosureBytes)) with
              | error failure => exact .threw _ _ (open_ failure serving)
              | ok positive => exact .froze identity maxDisclosureBytes serving

/-! ## The invariant -/

/-- A schema handle resolves to a document with the same handle. -/
def Resolves (schemas : Dict SchemaKey SemanticSchema) (handle : SchemaHandle) : Prop :=
  ∃ schema, schemas.lookup handle.key = some schema ∧ schema.handle = handle

structure Consistent (builder : SemanticRegistryBuilder) : Prop where
  named : ∀ id entry, builder.entries.lookup id = some entry → entry.declaration.id = id
  declared : ∀ id entry, builder.entries.lookup id = some entry → entry.declaration.handles = entry.declaredHandles
  resolves : ∀ id entry, builder.entries.lookup id = some entry →
    ∀ handle ∈ entry.declaration.handles, Resolves builder.schemas handle
  keyed : ∀ key schema, builder.schemas.lookup key = some schema → schema.handle.key = key

/-- What two schemas of a store with one key have in common. -/
theorem putIfAbsent_lookup (schemas : Dict SchemaKey SemanticSchema) (schema : SemanticSchema) (key : SchemaKey) :
    (putIfAbsent schemas schema).lookup key = (schemas.lookup key).or (if key = schema.handle.key then some schema else none) := by
  unfold putIfAbsent
  split
  · rename_i present
    by_cases same : key = schema.handle.key
    · subst same
      obtain ⟨found, there⟩ := Option.isSome_iff_exists.mp present
      simp [there]
    · simp [same]
  · rename_i absent
    rw [Dict.lookup_insert_eq]
    by_cases same : key = schema.handle.key
    · subst same
      simp only [Bool.not_eq_true, Option.isSome_eq_false_iff, Option.isNone_iff_eq_none] at absent
      simp [absent]
    · simp [same]

theorem resolves_putIfAbsent {schemas : Dict SchemaKey SemanticSchema} {handle : SchemaHandle} (resolves : Resolves schemas handle)
    (schema : SemanticSchema) : Resolves (putIfAbsent schemas schema) handle := by
  obtain ⟨found, there, same⟩ := resolves
  exact ⟨found, by rw [putIfAbsent_lookup, there, Option.some_or], same⟩

theorem resolves_install {schemas : Dict SchemaKey SemanticSchema} {handle : SchemaHandle} (resolves : Resolves schemas handle)
    (candidates : List SemanticSchema) : Resolves (candidates.foldl putIfAbsent schemas) handle := by
  induction candidates generalizing schemas with
  | nil => exact resolves
  | cons schema rest ih => exact ih (resolves_putIfAbsent resolves schema)

/-- Candidates that agree with a store and with each other all resolve once they are installed. -/
theorem installed_resolve {schemas combined current : Dict SchemaKey SemanticSchema} {candidates : List SemanticSchema}
    (agree : conflicts schemas combined candidates = .ok ())
    (alike : ∀ key, ((combined.lookup key).or (schemas.lookup key)).map (·.handle) = (current.lookup key).map (·.handle)) :
    ∀ schema ∈ candidates, Resolves (candidates.foldl putIfAbsent current) schema.handle := by
  induction candidates generalizing combined current with
  | nil => simp
  | cons first rest ih =>
      obtain ⟨_, checked, agree⟩ := Checks.bind_ok.mp agree
      have existing := registrationCheck_ok checked
      have still : ∀ key, (((combined.insert first.handle.key first).lookup key).or (schemas.lookup key)).map (·.handle) =
          ((putIfAbsent current first).lookup key).map (·.handle) := by
        intro key
        rw [putIfAbsent_lookup, Dict.lookup_insert_eq]
        by_cases same : key = first.handle.key
        · subst same
          have before := alike first.handle.key
          cases found : (combined.lookup first.handle.key).or (schemas.lookup first.handle.key) with
          | none =>
              rw [found] at before
              have absent : current.lookup first.handle.key = none := by simpa using before.symm
              simp [absent]
          | some schema =>
              rw [found] at before existing
              have equal : schema.handle = first.handle := by simpa using existing
              obtain ⟨there, present, handle⟩ := Option.map_eq_some_iff.mp before.symm
              simp [present, handle, equal]
        · simpa [same] using alike key
      have resolves : Resolves (putIfAbsent current first) first.handle := by
        have here := still first.handle.key
        rw [Dict.lookup_insert_eq, if_pos rfl, Option.some_or] at here
        obtain ⟨there, present, handle⟩ := Option.map_eq_some_iff.mp here.symm
        exact ⟨there, present, handle⟩
      intro schema member
      rcases List.mem_cons.mp member with rfl | member
      · exact resolves_install resolves rest
      · exact ih agree still schema member

theorem installed_keyed {schemas : Dict SchemaKey SemanticSchema} (candidates : List SemanticSchema)
    (keyed : ∀ key schema, schemas.lookup key = some schema → schema.handle.key = key) (key : SchemaKey) (schema : SemanticSchema)
    (found : (candidates.foldl putIfAbsent schemas).lookup key = some schema) : schema.handle.key = key := by
  induction candidates generalizing schemas with
  | nil => exact keyed key schema found
  | cons first rest ih =>
      refine ih (fun key schema found => ?_) found
      rw [putIfAbsent_lookup] at found
      rcases Option.or_eq_some_iff.mp found with there | ⟨-, here⟩
      · exact keyed key schema there
      · split at here
        · rename_i same
          cases here
          exact same.symm
        · cases here

/-- The handles that an entry declares are those of its schemas. -/
theorem mem_handles {entry : ErasedEntry} {handle : SchemaHandle} (declared : entry.declaration.handles = entry.declaredHandles)
    (member : handle ∈ entry.declaration.handles) : ∃ schema ∈ entry.schemas, schema.handle = handle := by
  rw [declared] at member
  clear declared
  cases entry with
  | resource declaration inputCodec valueCodec =>
      cases inputCodec <;>
        simpa [ErasedEntry.declaredHandles, ErasedEntry.schemas, eq_comm (a := handle)] using member
  | action declaration inputCodec =>
      simpa [ErasedEntry.declaredHandles, ErasedEntry.schemas, eq_comm (a := handle)] using member

theorem Consistent.install (consistent : builder.Consistent) {id : String} {entry : ErasedEntry}
    (named : entry.declaration.id = id) (declared : entry.declaration.handles = entry.declaredHandles)
    (agree : conflicts builder.schemas ∅ entry.schemas = .ok ()) : (builder.install id entry).Consistent := by
  have back : ∀ other found, (builder.install id entry).entries.lookup other = some found →
      other = id ∧ found = entry ∨ builder.entries.lookup other = some found := by
    intro other found there
    rw [SemanticRegistryBuilder.install, Dict.lookup_insert_eq] at there
    split at there
    · rename_i same
      exact .inl ⟨same, (Option.some.inj there).symm⟩
    · exact .inr there
  refine ⟨fun other found there => ?_, fun other found there => ?_, fun other found there handle member => ?_,
    installed_keyed _ consistent.keyed⟩
  · rcases back other found there with ⟨rfl, rfl⟩ | before
    · exact named
    · exact consistent.named other found before
  · rcases back other found there with ⟨rfl, rfl⟩ | before
    · exact declared
    · exact consistent.declared other found before
  · rcases back other found there with ⟨rfl, rfl⟩ | before
    · obtain ⟨schema, candidate, rfl⟩ := mem_handles declared member
      exact installed_resolve agree (fun key => by simp) schema candidate
    · exact resolves_install (consistent.resolves other found before handle member) _

theorem Consistent.call (consistent : builder.Consistent) (request : Call) : (builder.call request).2.Consistent := by
  have outcome := call_outcome builder request
  generalize builder.call request = out at outcome ⊢
  cases outcome with
  | threw => exact consistent
  | registered _ id entry serving fresh named declared agree => exact consistent.install named declared agree
  | froze => exact ⟨consistent.named, consistent.declared, consistent.resolves, consistent.keyed⟩

theorem consistent_run (calls : List Call) : (run {} calls).Consistent := by
  have empty : Consistent {} := by
    refine ⟨fun id entry found => ?_, fun id entry found => ?_, fun id entry found => ?_, fun key schema found => ?_⟩
    · cases found
    · cases found
    · cases found
    · cases found
  have preserved : ∀ builder request, Consistent builder → (builder.call request).2.Consistent :=
    fun _ request consistent => consistent.call request
  exact Runs.invariant preserved {} calls empty

/-- Capability ids are unique, and every declared handle has its one schema. -/
structure Registered (builder : SemanticRegistryBuilder) : Prop where
  unique : (builder.entries.entries.map fun entry => entry.2.declaration.id).Nodup
  resolves : ∀ id entry, builder.entries.lookup id = some entry →
    ∀ handle ∈ entry.declaration.handles, Resolves builder.schemas handle
  agree : ∀ id other entry entry', builder.entries.lookup id = some entry → builder.entries.lookup other = some entry' →
    ∀ handle ∈ entry.declaration.handles, ∀ handle' ∈ entry'.declaration.handles,
      handle.id = handle'.id → handle.revision = handle'.revision → handle.digest = handle'.digest

theorem Consistent.registered (consistent : builder.Consistent) : builder.Registered := by
  refine ⟨?_, consistent.resolves, fun id other entry entry' found found' handle member handle' member' ids revisions => ?_⟩
  · have ids : builder.entries.entries.map (fun entry => entry.2.declaration.id) = builder.entries.entries.map (·.1) :=
      List.map_congr_left fun entry member => consistent.named entry.1 entry.2 (Dict.mem_entries.mp member)
    rw [ids]
    exact builder.entries.nodupKeys
  · obtain ⟨schema, found, same⟩ := consistent.resolves id entry found handle member
    obtain ⟨schema', found', same'⟩ := consistent.resolves other entry' found' handle' member'
    have key : handle.key = handle'.key := by simp [SchemaHandle.key, ids, revisions]
    rw [key] at found
    cases found.symm.trans found'
    rw [← same, ← same']

/-- Once the registry is frozen every call throws, and nothing changes any more. -/
theorem frozen_run (frozen : builder.frozen = true) (calls : List Call) :
    run builder calls = builder ∧ ∀ request, builder.call request = (.error .catalogFrozen, builder) := by
  have throws : ∀ request, builder.call request = (.error .catalogFrozen, builder) := by
    intro request
    have outcome := call_outcome builder request
    generalize builder.call request = out at outcome ⊢
    cases outcome with
    | threw _ failure closed => rw [closed frozen]
    | registered _ _ _ serving => simp [frozen] at serving
    | froze _ _ serving => simp [frozen] at serving
  refine ⟨?_, throws⟩
  induction calls with
  | nil => rfl
  | cons request rest ih =>
      change Runs.final SemanticRegistryBuilder.call (builder.call request).2 rest = builder
      rw [throws request]
      exact ih

/-- A frozen registry finds the schema of every handle that it shows. -/
theorem Consistent.schema (consistent : builder.Consistent) {registry : SemanticRegistry}
    (entries : registry.entries = builder.entries) (schemas : registry.schemas = builder.schemas) {capability : String}
    {revision : Int} {declaration : SemanticDeclaration} {handle : SchemaHandle}
    (shown : registry.show capability revision = .ok declaration) (listed : handle ∈ declaration.handles) :
    registry.schema capability revision handle ≠ .error .schemaMismatch := by
  obtain ⟨entry, matched, same⟩ := Checks.bind_ok.mp shown
  cases same
  have found : builder.entries.lookup capability = some entry := by
    rw [← entries]
    unfold SemanticRegistry.matchingEntry at matched
    split at matched
    · cases matched
    · split at matched
      · cases matched
      · rename_i there _
        cases matched
        exact there
  obtain ⟨schema, there, equal⟩ := consistent.resolves capability entry found handle listed
  have member : handle ∈ entry.declaredHandles := consistent.declared capability entry found ▸ listed
  have kept : (registry.schemas.lookup handle.key).filter (·.handle = handle) = some schema := by
    rw [schemas, there]
    simp [equal]
  have answer : registry.schema capability revision handle =
      if (bytes (wireJson schema.document)).size > registry.maxDisclosureBytes then .error .resourceExhausted
      else .ok schema.document := by
    unfold SemanticRegistry.schema
    rw [matched]
    simp only [bind, Except.bind, member, not_true_eq_false, if_false, kept]
    split
    · rfl
    · rfl
  rw [answer]
  split
  · nofun
  · nofun

/-- In every state that registrations, failing ones included, lead to, ids are unique and every
    declared handle has its one schema; a call that throws changes nothing; and a frozen
    registry, the last that there is, finds each schema that it lists. -/
theorem registry_builder_invariant (calls : List Call) (request : Call) :
    (run {} calls).Registered ∧
      match (run {} calls).call request with
      | (.error _, after) => after = run {} calls
      | (.ok none, after) => after.frozen = false
      | (.ok (some registry), after) =>
          registry.entries = (run {} calls).entries ∧ registry.schemas = (run {} calls).schemas ∧
            after.entries = (run {} calls).entries ∧ after.schemas = (run {} calls).schemas ∧
            (∀ later further, (run after later).call further = (.error .catalogFrozen, after)) ∧
            ∀ capability revision declaration, registry.show capability revision = .ok declaration →
              ∀ handle ∈ declaration.handles, registry.schema capability revision handle ≠ .error .schemaMismatch := by
  have consistent := consistent_run calls
  generalize run {} calls = builder at consistent ⊢
  refine ⟨consistent.registered, ?_⟩
  have outcome := call_outcome builder request
  generalize builder.call request = out at outcome ⊢
  cases outcome with
  | threw => rfl
  | registered _ _ _ serving => exact serving
  | froze identity maxDisclosureBytes serving =>
      refine ⟨rfl, rfl, rfl, rfl, fun later further => ?_, fun capability revision declaration shown handle listed => ?_⟩
      · have frozen : ({ builder with frozen := true } : SemanticRegistryBuilder).frozen = true := rfl
        obtain ⟨still, throws⟩ := frozen_run frozen later
        rw [still]
        exact throws further
      · exact consistent.schema rfl rfl shown listed

end SemanticRegistryBuilder

end AppPilotKit.Semantic.Android
