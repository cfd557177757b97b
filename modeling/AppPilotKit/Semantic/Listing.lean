import AppPilotKit.Lib.Dict
import AppPilotKit.Lib.Shortening
import AppPilotKit.Semantic.Binding
import AppPilotKit.Semantic.Builder

/-! # Listing the catalog

`semantic.list` answers page by page. A page is shortened one item at a time until its
response fits; where to go on is kept under a fresh token in the table of cursors. iOS and
Android build their pages alike and look their cursors up each in its own way.
-/

namespace AppPilotKit.Semantic

open Snapshot (JSONValue)

/-! ## Faults, limits and tokens -/

structure Fault where
  code : Int
  kind : String
  message : String
  retryable : Bool
  deriving DecidableEq

namespace Fault

def methodNotFound : Fault := { code := -32601, kind := "methodNotFound", message := "Method not found", retryable := false }

def invalidParams : Fault := { code := -32602, kind := "invalidParams", message := "Invalid params", retryable := false }

def sessionExpired : Fault := { code := -32002, kind := "sessionExpired", message := "Session expired", retryable := false }

def capabilityUnavailable : Fault :=
  { code := -32003, kind := "capabilityUnavailable", message := "Capability unavailable", retryable := false }

def resourceExhausted : Fault :=
  { code := -32004, kind := "resourceExhausted", message := "Resource exhausted", retryable := false }

def cursorExpired : Fault := { code := -32006, kind := "cursorExpired", message := "Cursor expired", retryable := false }

end Fault

/-- The limits of a runtime, the same on both platforms. -/
structure Limits where
  maximumRequestBytes : Nat
  maximumResponseBytes : Nat
  maximumPageItems : Nat
  requestRange : 1024 ≤ maximumRequestBytes ∧ maximumRequestBytes ≤ 16 * 1024 * 1024
  responseRange : 1024 ≤ maximumResponseBytes ∧ maximumResponseBytes ≤ 64 * 1024 * 1024
  pageRange : 1 ≤ maximumPageItems ∧ maximumPageItems ≤ 10000

structure RequestedListLimits where
  maxItems : Option Nat
  maxBytes : Option Nat
  itemRange : ∀ items ∈ maxItems, 1 ≤ items ∧ items ≤ 10000
  byteRange : ∀ bytes ∈ maxBytes, 1024 ≤ bytes ∧ bytes ≤ 64 * 1024 * 1024

namespace RequestedListLimits

def appliedItems (requested : RequestedListLimits) (limits : Limits) : Nat :=
  min (requested.maxItems.getD limits.maximumPageItems) limits.maximumPageItems

def appliedBytes (requested : RequestedListLimits) (limits : Limits) : Nat :=
  min (requested.maxBytes.getD limits.maximumResponseBytes) limits.maximumResponseBytes

theorem appliedItems_pos (requested : RequestedListLimits) (limits : Limits) : 1 ≤ requested.appliedItems limits := by
  have page := limits.pageRange
  unfold appliedItems
  cases asked : requested.maxItems with
  | none => simpa using page.1
  | some items =>
      have range := requested.itemRange items asked
      simp only [Option.getD_some]
      omega

theorem appliedBytes_le (requested : RequestedListLimits) (limits : Limits) :
    requested.appliedBytes limits ≤ limits.maximumResponseBytes := min_le_right _ _

end RequestedListLimits

/-- `cursor_` and the digits of sixteen random bytes. -/
structure CursorToken where
  digits : List Char
  length : digits.length = 32
  hex : ∀ c ∈ digits, Android.hexDigit c = true

def CursorToken.text (token : CursorToken) : String := String.ofList ("cursor_".toList ++ token.digits)

/-! ## Pages -/

/-- The bytes of a text in UTF-8. -/
def byteCount (text : JsonText) : Nat := (text.characters.map Char.utf8Size).sum

structure Page where
  response : JsonText
  nextCursor : Option CursorToken
  count : Nat

section
variable (respond : Nat → Option CursorToken → Bool → JsonText) (tokens : Nat → CursorToken) (remaining : Nat)

/-- The token proposed for a page that leaves something. -/
def proposed (count : Nat) : Option CursorToken := if count < remaining then some (tokens count) else none

/-- The loop of `list`: the number of items of the page, and whether it was shortened. -/
def pageLoop (maximum applied : Nat) : Nat → Bool → Except Fault Page
  | 0, byteLimited =>
      let response := respond 0 (proposed tokens remaining 0) byteLimited
      if maximum < byteCount response then .error .resourceExhausted
      else if byteCount response ≤ applied then .ok { response, nextCursor := proposed tokens remaining 0, count := 0 }
      else .error .resourceExhausted
  | fewer + 1, byteLimited =>
      let response := respond (fewer + 1) (proposed tokens remaining (fewer + 1)) byteLimited
      if maximum < byteCount response then .error .resourceExhausted
      else if byteCount response ≤ applied then
        .ok { response, nextCursor := proposed tokens remaining (fewer + 1), count := fewer + 1 }
      else pageLoop maximum applied fewer true

end

/-- The reasons of a page: one that leaves nothing has none. -/
def listReasons (hasMore itemLimited byteLimited : Bool) : List String :=
  if hasMore then
    let reasons := (if itemLimited then ["maxItems"] else []) ++ (if byteLimited then ["maxBytes"] else [])
    if reasons.isEmpty then ["maxBytes"] else reasons
  else []

def words (n : Int) : JsonText := .word (toString n).toList

def truth (value : Bool) : JsonText := .word (toString value).toList

/-! ## iOS -/

inductive SemanticCapabilityKind where
  | resource
  | action
  deriving DecidableEq

def SemanticCapabilityKind.rawValue : SemanticCapabilityKind → String
  | resource => "resource"
  | action => "action"

structure SemanticCapabilityItem where
  id : String
  kind : SemanticCapabilityKind
  declarationRevision : Nat
  deriving DecidableEq

structure SemanticCatalogIdentity where
  id : String
  generation : Nat
  deriving DecidableEq

structure SemanticProtocolSessionContext where
  id : String
  generation : Nat
  deriving DecidableEq

structure SessionRecord where
  context : SemanticProtocolSessionContext
  minor : Int
  capabilities : List String

structure CursorRecord where
  context : SemanticProtocolSessionContext
  catalog : SemanticCatalogIdentity
  originalLimits : RequestedListLimits
  visibleItems : List SemanticCapabilityItem
  nextIndex : Nat

structure SemanticProtocolRuntime where
  catalog : SemanticCatalogIdentity
  items : List SemanticCapabilityItem
  limits : Limits
  sessions : Dict String SessionRecord
  cursors : Dict String CursorRecord

namespace SemanticProtocolRuntime

def invalidateSessions (runtime : SemanticProtocolRuntime) : SemanticProtocolRuntime :=
  { runtime with sessions := ∅, cursors := ∅ }

def ensureActive (runtime : SemanticProtocolRuntime) (session : SessionRecord) : Except Fault Unit :=
  if (runtime.sessions.lookup session.context.id).map SessionRecord.context = some session.context then .ok ()
  else .error .sessionExpired

/-- The members are in the order of the sorted keys. -/
def listResponse (requestID : String) (catalog : SemanticCatalogIdentity) (items : List SemanticCapabilityItem)
    (maxItems maxBytes : Nat) (cursor : Option CursorToken) (reasons : List String) : JsonText :=
  .object [("id", .string requestID), ("jsonrpc", .string "2.0"), ("result", .object [
    ("capabilities", .array (items.map fun item => .object [
      ("declarationRevision", words item.declarationRevision),
      ("id", .string item.id),
      ("kind", .string item.kind.rawValue)])),
    ("catalog", .object [("generation", words catalog.generation), ("id", .string catalog.id)]),
    ("page", .object (
      [("appliedLimits", .object [("maxBytes", words maxBytes), ("maxItems", words maxItems)])] ++
      (match cursor with
        | none => []
        | some token => [("nextCursor", .string token.text), ("reasons", .array (reasons.map .string))]) ++
      [("returnedItems", words items.length), ("truncated", truth cursor.isSome)]))])]

/-- The part of `list` that builds the page. -/
def page (runtime : SemanticProtocolRuntime) (tokens : Nat → CursorToken) (requestID : String) (requested : RequestedListLimits)
    (visible : List SemanticCapabilityItem) (start : Nat) : Except Fault Page :=
  let appliedItems := requested.appliedItems runtime.limits
  let appliedBytes := requested.appliedBytes runtime.limits
  if visible.length < start then .error .cursorExpired
  else
    let remaining := visible.length - start
    let respond := fun count cursor byteLimited =>
      listResponse requestID runtime.catalog ((visible.drop start).take count) appliedItems appliedBytes cursor
        (listReasons (count < remaining) (count = appliedItems) byteLimited)
    pageLoop respond tokens remaining runtime.limits.maximumResponseBytes appliedBytes (min appliedItems remaining) false

/-- The page, and the cursor that it leaves. -/
def answer (runtime : SemanticProtocolRuntime) (tokens : Nat → CursorToken) (requestID : String) (session : SessionRecord)
    (requested : RequestedListLimits) (visible : List SemanticCapabilityItem) (start : Nat) :
    Except Fault JsonText × SemanticProtocolRuntime :=
  match runtime.page tokens requestID requested visible start with
  | .error fault => (.error fault, runtime)
  | .ok page =>
      match page.nextCursor with
      | none => (.ok page.response, runtime)
      | some token =>
          let cursor :=
            { context := session.context, catalog := runtime.catalog, originalLimits := requested
              visibleItems := visible, nextIndex := start + page.count }
          (.ok page.response, { runtime with cursors := runtime.cursors.insert token.text cursor })

def requireExactKeys (object : List (String × JSONValue)) (allowed : List String) : Except Fault Unit :=
  if object.all fun field => allowed.contains field.1 then .ok () else .error .invalidParams

def string (value : JSONValue) (maximum : Nat) : Option String :=
  match value with
  | .string text => if text.length ≤ maximum then some text else none
  | _ => none

def positiveInteger (value : JSONValue) : Except Fault Nat :=
  match value with
  | .integer n => if 0 < n then .ok n.toNat else .error .invalidParams
  | .unsignedInteger n => if 0 < n then .ok n else .error .invalidParams
  | _ => .error .invalidParams

/-- The limit under a name, where there is one. -/
def requestedLimit (object : List (String × JSONValue)) (name : String) : Except Fault (Option Nat) :=
  match object.lookup name with
  | none => .ok none
  | some value => (positiveInteger value).map some

def requestedLimits (value : Option JSONValue) : Except Fault RequestedListLimits :=
  match value with
  | none => .ok { maxItems := none, maxBytes := none, itemRange := by simp, byteRange := by simp }
  | some (.object object) => do
      requireExactKeys object ["maxItems", "maxBytes"]
      if object.isEmpty then .error .invalidParams
      let items ← requestedLimit object "maxItems"
      let bytes ← requestedLimit object "maxBytes"
      if ranges : (∀ n ∈ items, 1 ≤ n ∧ n ≤ 10000) ∧ (∀ n ∈ bytes, 1024 ≤ n ∧ n ≤ 64 * 1024 * 1024) then
        .ok { maxItems := items, maxBytes := bytes, itemRange := ranges.1, byteRange := ranges.2 }
      else .error .invalidParams
  | some _ => .error .invalidParams

/-- The record that a continuation takes up. -/
def continued (runtime : SemanticProtocolRuntime) (session : SessionRecord) (params : List (String × JSONValue))
    (cursorValue : JSONValue) : Except Fault (String × CursorRecord) := do
  requireExactKeys params ["cursor"]
  match string cursorValue 4096 with
  | none => .error .invalidParams
  | some token =>
      if token.isEmpty then .error .invalidParams
      else
        match runtime.cursors.lookup token with
        | none => .error .invalidParams
        | some cursor =>
            if cursor.context ≠ session.context then .error .invalidParams
            else if cursor.catalog ≠ runtime.catalog then .error .cursorExpired
            else .ok (token, cursor)

/-- `invalidated`: the sessions were invalidated while the policy of the App was asked. -/
def list (runtime : SemanticProtocolRuntime) (discover : SemanticCapabilityItem → Bool) (invalidated : Bool)
    (tokens : Nat → CursorToken) (requestID : String) (session : SessionRecord) (params : List (String × JSONValue)) :
    Except Fault JsonText × SemanticProtocolRuntime :=
  match params.lookup "cursor" with
  | some cursorValue =>
      match runtime.continued session params cursorValue with
      | .error fault => (.error fault, runtime)
      | .ok (token, cursor) =>
          let taken := { runtime with cursors := runtime.cursors.erase token }
          taken.answer tokens requestID session cursor.originalLimits cursor.visibleItems cursor.nextIndex
  | none =>
      match requireExactKeys params ["limits"] with
      | .error fault => (.error fault, runtime)
      | .ok () =>
          match requestedLimits (params.lookup "limits") with
          | .error fault => (.error fault, runtime)
          | .ok requested =>
              let visible := runtime.items.filter discover
              let asked := if invalidated then runtime.invalidateSessions else runtime
              match asked.ensureActive session with
              | .error fault => (.error fault, asked)
              | .ok () => asked.answer tokens requestID session requested visible 0

/-- `handle` and `dispatch` for a well-formed request of the method `semantic.list`. -/
def handle (runtime : SemanticProtocolRuntime) (discover : SemanticCapabilityItem → Bool) (invalidated : Bool)
    (tokens : Nat → CursorToken) (requestID : String) (context : SemanticProtocolSessionContext)
    (params : Option (List (String × JSONValue))) : Except Fault JsonText × SemanticProtocolRuntime :=
  match runtime.sessions.lookup context.id with
  | none => (.error .sessionExpired, runtime)
  | some session =>
      if session.context ≠ context then (.error .sessionExpired, runtime)
      else
        match params with
        | none => (.error .invalidParams, runtime)
        | some params =>
            if session.minor < 2 then (.error .methodNotFound, runtime)
            else if "semantic.catalog" ∉ session.capabilities then (.error .capabilityUnavailable, runtime)
            else
              match runtime.list discover invalidated tokens requestID session params with
              | (.error fault, after) => (.error fault, after)
              | (.ok response, after) =>
                  if runtime.limits.maximumResponseBytes < byteCount response then (.error .resourceExhausted, after)
                  else (.ok response, after)

end SemanticProtocolRuntime

/-! ## Android -/

open Android (CatalogIdentity SemanticDeclaration JsonElement)

structure ProtocolSessionContext where
  id : String
  generation : Int
  deriving DecidableEq

structure Session where
  context : ProtocolSessionContext
  minor : Int
  capabilities : Finset String
  deriving DecidableEq

structure Cursor where
  context : ProtocolSessionContext
  catalogId : String
  catalogGeneration : Int
  method : String
  originalLimits : RequestedListLimits
  visibleDeclarations : List SemanticDeclaration
  nextIndex : Nat

structure ProtocolRuntime where
  catalog : CatalogIdentity
  declarations : List SemanticDeclaration
  limits : Limits
  sessions : Dict String Session
  cursors : Dict String Cursor

def declarationKind : SemanticDeclaration → String
  | .resource _ => "resource"
  | .action _ => "action"

/-- Where another thread may invalidate the sessions during `list`: before each check of the session. -/
inductive Moment where
  | entering
  | discovering
  | answering
  deriving DecidableEq

namespace ProtocolRuntime

def invalidateSessions (runtime : ProtocolRuntime) : ProtocolRuntime := { runtime with sessions := ∅, cursors := ∅ }

def ensureActive (runtime : ProtocolRuntime) (session : Session) : Except Fault Unit :=
  if runtime.sessions.lookup session.context.id = some session then .ok () else .error .sessionExpired

def listResponse (id : String) (catalog : CatalogIdentity) (declarations : List SemanticDeclaration)
    (maxItems maxBytes : Nat) (cursor : Option CursorToken) (byteLimited : Bool) : JsonText :=
  .object [("jsonrpc", .string "2.0"), ("id", .string id), ("result", .object [
    ("catalog", .object [("id", .string catalog.id), ("generation", words catalog.generation)]),
    ("capabilities", .array (declarations.map fun declaration => .object [
      ("id", .string declaration.id),
      ("kind", .string (declarationKind declaration)),
      ("declarationRevision", words declaration.declarationRevision)])),
    ("page", .object (
      [("truncated", truth cursor.isSome), ("returnedItems", words declarations.length),
        ("appliedLimits", .object [("maxItems", words maxItems), ("maxBytes", words maxBytes)])] ++
      (match cursor with
        | none => []
        | some token => [("nextCursor", .string token.text),
            ("reasons", .array ((listReasons true (declarations.length = maxItems) byteLimited).map .string))])))])]

/-- The part of `list` that builds the page. -/
def page (runtime : ProtocolRuntime) (tokens : Nat → CursorToken) (id : String) (requested : RequestedListLimits)
    (visible : List SemanticDeclaration) (start : Nat) : Except Fault Page :=
  let maxItems := requested.appliedItems runtime.limits
  let maxBytes := requested.appliedBytes runtime.limits
  if visible.length < start then .error .cursorExpired
  else
    let remaining := visible.length - start
    let respond := fun count cursor byteLimited =>
      listResponse id runtime.catalog ((visible.drop start).take count) maxItems maxBytes cursor byteLimited
    pageLoop respond tokens remaining runtime.limits.maximumResponseBytes maxBytes (min maxItems remaining) false

/-- The sessions as they are at a check. -/
def atCheck (runtime : ProtocolRuntime) (invalidated : Moment → Bool) (moment : Moment) : ProtocolRuntime :=
  if invalidated moment then runtime.invalidateSessions else runtime

/-- The page, and the cursor that it leaves if the session is still active. -/
def answer (runtime : ProtocolRuntime) (invalidated : Moment → Bool) (tokens : Nat → CursorToken) (id : String) (session : Session)
    (requested : RequestedListLimits) (visible : List SemanticDeclaration) (start : Nat) :
    Except Fault JsonText × ProtocolRuntime :=
  match runtime.page tokens id requested visible start with
  | .error fault => (.error fault, runtime)
  | .ok page =>
      let locked := runtime.atCheck invalidated .answering
      match locked.ensureActive session with
      | .error fault => (.error fault, locked)
      | .ok () =>
          match page.nextCursor with
          | none => (.ok page.response, locked)
          | some token =>
              let cursor :=
                { context := session.context, catalogId := runtime.catalog.id, catalogGeneration := runtime.catalog.generation
                  method := "semantic.list", originalLimits := requested, visibleDeclarations := visible
                  nextIndex := start + page.count }
              (.ok page.response, { locked with cursors := locked.cursors.insert token.text cursor })

def requireKeys (value : List (String × JsonElement)) (allowed : List String) : Except Fault Unit :=
  if value.all fun entry => allowed.contains entry.1 then .ok () else .error .invalidParams

def string (value : JsonElement) (maximumCodePoints : Nat) : Option String :=
  match value with
  | .string text => if text.length ≤ maximumCodePoints then some text else none
  | _ => none

section
variable (longOrNull : List Char → Option Int)

/-- `longOrNull` reads the text of a number. -/
def positiveInt (value : JsonElement) : Except Fault Nat :=
  match value with
  | .number literal =>
      match longOrNull literal.text with
      | none => .error .invalidParams
      | some n => if 1 ≤ n ∧ n ≤ 2 ^ 31 - 1 then .ok n.toNat else .error .invalidParams
  | _ => .error .invalidParams

def requestedLimit (value : List (String × JsonElement)) (name : String) : Except Fault (Option Nat) :=
  match value.lookup name with
  | none => .ok none
  | some limit => (positiveInt longOrNull limit).map some

def requestedLimits (value : Option JsonElement) : Except Fault RequestedListLimits :=
  match value with
  | none => .ok { maxItems := none, maxBytes := none, itemRange := by simp, byteRange := by simp }
  | some (.object objectValue) => do
      requireKeys objectValue ["maxItems", "maxBytes"]
      if objectValue.isEmpty then .error .invalidParams
      let items ← requestedLimit longOrNull objectValue "maxItems"
      let bytes ← requestedLimit longOrNull objectValue "maxBytes"
      if ranges : (∀ n ∈ items, 1 ≤ n ∧ n ≤ 10000) ∧ (∀ n ∈ bytes, 1024 ≤ n ∧ n ≤ 64 * 1024 * 1024) then
        .ok { maxItems := items, maxBytes := bytes, itemRange := ranges.1, byteRange := ranges.2 }
      else .error .invalidParams
  | some _ => .error .invalidParams

/-- The record that a continuation takes up. -/
def continued (runtime : ProtocolRuntime) (session : Session) (params : List (String × JsonElement)) (cursorToken : JsonElement) :
    Except Fault (String × Cursor) := do
  requireKeys params ["cursor"]
  match string cursorToken 4096 with
  | none => .error .invalidParams
  | some token =>
      if token.isEmpty then .error .invalidParams
      else
        match runtime.cursors.lookup token with
        | none => .error .invalidParams
        | some candidate =>
            if candidate.context ≠ session.context ∨ candidate.method ≠ "semantic.list" then .error .invalidParams
            else if candidate.catalogId ≠ runtime.catalog.id ∨ candidate.catalogGeneration ≠ runtime.catalog.generation then
              .error .cursorExpired
            else .ok (token, candidate)

def list (runtime : ProtocolRuntime) (discover : SemanticDeclaration → Bool) (invalidated : Moment → Bool)
    (tokens : Nat → CursorToken) (id : String) (session : Session) (params : List (String × JsonElement)) :
    Except Fault JsonText × ProtocolRuntime :=
  let entered := runtime.atCheck invalidated .entering
  match entered.ensureActive session with
  | .error fault => (.error fault, entered)
  | .ok () =>
      match params.lookup "cursor" with
      | some cursorToken =>
          match entered.continued session params cursorToken with
          | .error fault => (.error fault, entered)
          | .ok (token, candidate) =>
              let taken := { entered with cursors := entered.cursors.erase token }
              taken.answer invalidated tokens id session candidate.originalLimits candidate.visibleDeclarations candidate.nextIndex
      | none =>
          match requireKeys params ["limits"] with
          | .error fault => (.error fault, entered)
          | .ok () =>
              match requestedLimits longOrNull (params.lookup "limits") with
              | .error fault => (.error fault, entered)
              | .ok requested =>
                  let asked := entered.atCheck invalidated .discovering
                  match asked.ensureActive session with
                  | .error fault => (.error fault, asked)
                  | .ok () => asked.answer invalidated tokens id session requested (asked.declarations.filter discover) 0

/-- `handle` and `dispatch` for a well-formed request of the method `semantic.list`. -/
def handle (runtime : ProtocolRuntime) (discover : SemanticDeclaration → Bool) (invalidated : Moment → Bool)
    (tokens : Nat → CursorToken) (id : String) (context : ProtocolSessionContext)
    (params : Option (List (String × JsonElement))) : Except Fault JsonText × ProtocolRuntime :=
  match runtime.sessions.lookup context.id with
  | none => (.error .sessionExpired, runtime)
  | some session =>
      if session.context ≠ context then (.error .sessionExpired, runtime)
      else
        match params with
        | none => (.error .invalidParams, runtime)
        | some params =>
            if session.minor < 2 then (.error .methodNotFound, runtime)
            else if "semantic.catalog" ∉ session.capabilities then (.error .capabilityUnavailable, runtime)
            else
              match runtime.list longOrNull discover invalidated tokens id session params with
              | (.error fault, after) => (.error fault, after)
              | (.ok response, after) =>
                  if runtime.limits.maximumResponseBytes < byteCount response then (.error .resourceExhausted, after)
                  else (.ok response, after)

end

end ProtocolRuntime

end AppPilotKit.Semantic
