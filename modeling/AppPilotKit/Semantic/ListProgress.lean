import AppPilotKit.Semantic.Listing

/-! # How far a listing comes

The bytes of a response grow with its items as long as something is left to list. From
that follows when a call makes progress, and when a call that fails keeps its cursor.
-/

namespace AppPilotKit.Semantic

open Shortening (shorten Reaches Refused Admissible)

/-! ## Bytes -/

def byteSum (cs : List Char) : Nat := (cs.map Char.utf8Size).sum

@[simp] theorem byteSum_nil : byteSum [] = 0 := rfl

@[simp] theorem byteSum_cons (c : Char) (cs : List Char) : byteSum (c :: cs) = c.utf8Size + byteSum cs := rfl

@[simp] theorem byteSum_append (a b : List Char) : byteSum (a ++ b) = byteSum a + byteSum b := by
  unfold byteSum
  rw [List.map_append, List.sum_append]

theorem byteSum_digits {cs : List Char} (digits : ∀ c ∈ cs, c.isDigit = true) : byteSum cs = cs.length := by
  induction cs with
  | nil => rfl
  | cons c cs ih =>
      have small : c.toNat ≤ 57 := by
        have digit := digits c List.mem_cons_self
        simp only [Char.isDigit, Bool.and_eq_true, decide_eq_true_eq] at digit
        exact digit.2
      have ascii : c.utf8Size = 1 := by
        unfold Char.utf8Size
        rw [if_pos]
        show c.val.toNat ≤ 127
        exact le_trans small (by norm_num)
      rw [byteSum_cons, ascii, ih fun d member => digits d (List.mem_cons_of_mem c member), List.length_cons]
      omega

theorem byteCount_eq (text : JsonText) : byteCount text = byteSum text.characters := rfl

/-- What follows the first value of an array. -/
theorem byteSum_moreValues (values : List JsonText) :
    byteSum (JsonText.moreValues values) = (values.map fun value => 1 + byteCount value).sum + 1 := by
  induction values with
  | nil => rfl
  | cons value values ih =>
      rw [JsonText.moreValues, byteSum_cons, byteSum_append, ih, List.map_cons, List.sum_cons, byteCount_eq]
      have comma : ','.utf8Size = 1 := rfl
      omega

/-- An array that goes on is longer. -/
theorem byteCount_array_lt {values : List JsonText} {value : JsonText} (some : 0 < byteCount value) :
    byteCount (.array values) < byteCount (.array (values ++ [value])) := by
  have bracket : '['.utf8Size = 1 ∧ ']'.utf8Size = 1 := ⟨rfl, rfl⟩
  cases values with
  | nil =>
      rw [List.nil_append, byteCount_eq, byteCount_eq, JsonText.characters, JsonText.characters]
      simp only [byteSum_cons, byteSum_append, byteSum_nil, byteSum_moreValues, List.map_nil, List.sum_nil]
      rw [byteCount_eq] at some
      omega
  | cons first values =>
      rw [List.cons_append, byteCount_eq, byteCount_eq, JsonText.characters, JsonText.characters]
      simp only [byteSum_cons, byteSum_append, byteSum_moreValues, List.map_append, List.sum_append, List.map_cons, List.map_nil,
        List.sum_cons, List.sum_nil]
      omega

theorem byteCount_take_lt {α : Type} {write : α → JsonText} (some : ∀ x, 0 < byteCount (write x)) (xs : List α) {c d : Nat}
    (lt : c < d) (le : d ≤ xs.length) :
    byteCount (.array ((xs.take c).map write)) < byteCount (.array ((xs.take d).map write)) := by
  induction d with
  | zero => omega
  | succ d ih =>
      have step : byteCount (.array ((xs.take d).map write)) < byteCount (.array ((xs.take (d + 1)).map write)) := by
        rw [List.take_succ_eq_append_getElem (by omega), List.map_append]
        exact byteCount_array_lt (some _)
      rcases Nat.lt_or_eq_of_le (Nat.lt_succ_iff.mp lt) with further | same
      · exact (ih further (by omega)).trans step
      · rw [same]
        exact step

theorem byteCount_words_mono {m n : Nat} (le : m ≤ n) : byteCount (words m) ≤ byteCount (words n) := by
  have length (k : Nat) : byteCount (words k) = (Nat.toDigits 10 k).length := by
    rw [byteCount_eq, words, JsonText.characters, Int.toString_eq_repr]
    have digits : (Int.repr (k : Int)).toList = Nat.toDigits 10 k := Nat.toList_repr
    rw [digits]
    exact byteSum_digits (Numeral.digits_toDigits k).2
  rw [length, length]
  have positive : 0 < (Nat.toDigits 10 n).length := List.length_pos_iff.mpr Nat.toDigits_ne_nil
  exact (Nat.length_toDigits_le_iff (by norm_num) positive).mpr
    (lt_of_le_of_lt le ((Nat.length_toDigits_le_iff (by norm_num) positive).mp le_rfl))

/-- Tokens all take the same room. -/
theorem byteSum_token (token : CursorToken) : byteSum (JsonText.quoted token.text) = 41 := by
  have ascii {c : Char} (low : 48 ≤ c.toNat) (high : c.toNat ≤ 122) (other : c.toNat ≠ 92) :
      JsonText.escaped c = [c] ∧ c.utf8Size = 1 := by
    have apart {d : Char} (far : d.toNat < 48 ∨ d.toNat = 92) : c ≠ d := by
      rintro rfl
      omega
    constructor
    · rw [JsonText.escaped, if_neg (apart (.inl (by decide))), if_neg (apart (.inr (by decide)))]
      repeat rw [if_neg (by omega)]
    · unfold Char.utf8Size
      rw [if_pos]
      show c.val.toNat ≤ 127
      exact le_trans high (by norm_num)
  have plain : ∀ c ∈ "cursor_".toList ++ token.digits, JsonText.escaped c = [c] ∧ c.utf8Size = 1 := by
    intro c member
    rcases List.mem_append.mp member with inside | inside
    · fin_cases inside <;> exact ascii (by decide) (by decide) (by decide)
    · have hex := token.hex c inside
      simp only [Android.hexDigit, Patterns.digit, Bool.or_eq_true, Bool.and_eq_true, decide_eq_true_eq, Char.le_def] at hex
      rcases hex with ⟨low, high⟩ | ⟨low, high⟩
      · have : 48 ≤ c.toNat := low
        have : c.toNat ≤ 57 := high
        exact ascii (by omega) (by omega) (by omega)
      · have : 97 ≤ c.toNat := low
        have : c.toNat ≤ 102 := high
        exact ascii (by omega) (by omega) (by omega)
  have length : ("cursor_".toList ++ token.digits).length = 39 := by
    rw [List.length_append, token.length]
    rfl
  unfold JsonText.quoted CursorToken.text
  rw [String.toList_ofList, byteSum_cons, byteSum_append]
  have body : byteSum (("cursor_".toList ++ token.digits).flatMap JsonText.escaped) = 39 := by
    rw [← length]
    generalize "cursor_".toList ++ token.digits = cs at plain
    induction cs with
    | nil => rfl
    | cons c cs ih =>
        obtain ⟨own, single⟩ := plain c List.mem_cons_self
        rw [List.flatMap_cons, own, byteSum_append, ih fun d member => plain d (List.mem_cons_of_mem c member), byteSum_cons, single,
          List.length_cons]
        simp only [byteSum_nil]
        omega
  rw [body]
  rfl

/-- One reason, whichever. -/
theorem byteCount_reasons {itemLimited byteLimited : Bool} (apart : ¬ (itemLimited = true ∧ byteLimited = true)) :
    byteCount (.array ((listReasons true itemLimited byteLimited).map .string)) = 12 := by
  cases itemLimited <;> cases byteLimited
  · rfl
  · rfl
  · rfl
  · exact absurd ⟨rfl, rfl⟩ apart

/-! ## The loop -/

section
variable (respond : Nat → Option CursorToken → Bool → JsonText) (tokens : Nat → CursorToken) (remaining asked : Nat)

/-- The page of `count` items, when `asked` would be the most. -/
def offer (count : Nat) : Page :=
  { response := respond count (proposed tokens remaining count) (count < asked)
    nextCursor := proposed tokens remaining count
    count }

def offerBytes (count : Nat) : Nat := byteCount (offer respond tokens remaining asked count).response

theorem pageLoop_eq (maximum applied : Nat) {count : Nat} (le : count ≤ asked) :
    pageLoop respond tokens remaining maximum applied count (count < asked) =
      match shorten (offerBytes respond tokens remaining asked) maximum applied count with
      | none => .error .resourceExhausted
      | some found => .ok (offer respond tokens remaining asked found) := by
  induction count with
  | zero =>
      rw [pageLoop, shorten]
      change (if maximum < offerBytes respond tokens remaining asked 0 then _ else
        if offerBytes respond tokens remaining asked 0 ≤ applied then _ else _) = _
      split_ifs <;> rfl
  | succ fewer ih =>
      rw [pageLoop, shorten]
      change (if maximum < offerBytes respond tokens remaining asked (fewer + 1) then _ else
        if offerBytes respond tokens remaining asked (fewer + 1) ≤ applied then _ else _) = _
      split_ifs
      · rfl
      · rfl
      · have shortened : decide (fewer < asked) = true := decide_eq_true (by omega)
        rw [← ih (by omega), shortened]

/-- What a call should do whose next item alone takes `next` bytes, and whose first page takes `offered`. -/
def Progresses (result : Except Fault Page) (next offered maximum applied : Nat) : Prop :=
  (next ≤ applied → ∃ page, result = .ok page ∧ 1 ≤ page.count) ∧
    (applied < next → result = .error .resourceExhausted) ∧
    (∀ page, result = .ok page → page.count = 0 → page.nextCursor = none) ∧
    (maximum < offered → next ≤ applied → ∃ page, result = .ok page ∧ 1 ≤ page.count ∧ page.count < asked)

/-- Either the next item alone fits and neither of the first two pages is too large, or it does not
    fit, and neither does the whole, and either one of those pages is too large or the empty one
    does not fit. -/
def MayProgress (size : Nat → Nat) (maximum applied asked remaining : Nat) : Prop :=
  (size 1 ≤ applied ∧ Admissible size maximum applied asked remaining) ∨
    (applied < size 1 ∧ (asked = remaining → applied < size remaining) ∧
      (Admissible size maximum applied asked remaining → applied < size 0))

variable {respond tokens remaining asked}

theorem pageLoop_progresses_iff {maximum applied : Nat}
    (growing : ∀ c d, c < d → d < remaining →
      offerBytes respond tokens remaining asked c < offerBytes respond tokens remaining asked d)
    (within : applied ≤ maximum) (some : 1 ≤ asked) (le : asked ≤ remaining) :
    Progresses asked (pageLoop respond tokens remaining maximum applied asked false)
        (offerBytes respond tokens remaining asked 1) (offerBytes respond tokens remaining asked asked) maximum applied ↔
      MayProgress (offerBytes respond tokens remaining asked) maximum applied asked remaining := by
  have loop := pageLoop_eq respond tokens remaining asked maximum applied (Nat.le_refl asked)
  rw [decide_eq_false (lt_irrefl asked)] at loop
  rw [loop]
  generalize sizes : offerBytes respond tokens remaining asked = size at growing ⊢
  by_cases fits : size 1 ≤ applied
  · have iff := Shortening.progress_iff growing le some within fits
    constructor
    · rintro ⟨progress, -, -, -⟩
      refine .inl ⟨fits, iff.mp ?_⟩
      obtain ⟨page, ok, item⟩ := progress fits
      split at ok
      · cases ok
      · rename_i found finds
        cases ok
        exact ⟨found, finds, item⟩
    · rintro (⟨-, admissible⟩ | ⟨unfit, -, -⟩)
      · obtain ⟨count, finds, item⟩ := iff.mpr admissible
        rw [finds]
        refine ⟨fun _ => ⟨_, rfl, item⟩, fun unfit => by omega, ?_, fun beyond _ => ?_⟩
        · rintro page ok empty
          cases ok
          have : count = 0 := empty
          omega
        · have := admissible.1
          omega
      · omega
  · have unfit : applied < size 1 := by omega
    have iff := Shortening.refused_iff_of_unfit growing le some within unfit
    constructor
    · rintro ⟨-, refuses, -, -⟩
      refine .inr ⟨unfit, iff.mp ?_⟩
      have refused := refuses unfit
      split at refused
      · assumption
      · cases refused
    · rintro (⟨fit, -⟩ | ⟨-, condition⟩)
      · omega
      · rw [iff.mpr condition]
        refine ⟨fun fit => by omega, fun _ => rfl, ?_, fun _ fit => by omega⟩
        rintro page ok
        cases ok

end

/-! ## The pages of both platforms -/

namespace SemanticProtocolRuntime

variable (runtime : SemanticProtocolRuntime) (tokens : Nat → CursorToken) (requestID : String) (requested : RequestedListLimits)
  (visible : List SemanticCapabilityItem) (start : Nat)

/-- How many items the first page of a call has. -/
def asked : Nat := min (requested.appliedItems runtime.limits) (visible.length - start)

/-- The response of `count` items from `start`. -/
def respond (count : Nat) (cursor : Option CursorToken) (byteLimited : Bool) : JsonText :=
  listResponse requestID runtime.catalog ((visible.drop start).take count) (requested.appliedItems runtime.limits)
    (requested.appliedBytes runtime.limits) cursor
    (listReasons (count < visible.length - start) (count = requested.appliedItems runtime.limits) byteLimited)

/-- The bytes of the page of `count` items. -/
def pageBytes (count : Nat) : Nat :=
  offerBytes (runtime.respond requestID requested visible start) tokens (visible.length - start)
    (runtime.asked requested visible start) count

theorem listResponse_lt {catalog : SemanticCatalogIdentity} {items more : List SemanticCapabilityItem} {maxItems maxBytes : Nat}
    {token other : CursorToken} {reasons others : List String} (count : items.length ≤ more.length)
    (longer : byteCount (.array (items.map fun item => .object [("declarationRevision", words item.declarationRevision),
        ("id", .string item.id), ("kind", .string item.kind.rawValue)])) <
      byteCount (.array (more.map fun item => .object [("declarationRevision", words item.declarationRevision),
        ("id", .string item.id), ("kind", .string item.kind.rawValue)])))
    (reason : byteCount (.array (reasons.map .string)) = byteCount (.array (others.map .string))) :
    byteCount (listResponse requestID catalog items maxItems maxBytes (some token) reasons) <
      byteCount (listResponse requestID catalog more maxItems maxBytes (some other) others) := by
  have returned := byteCount_words_mono count
  have room := (byteSum_token token).trans (byteSum_token other).symm
  unfold listResponse
  simp only [byteCount_eq, List.cons_append, List.nil_append, JsonText.characters, JsonText.moreMembers, byteSum_cons,
    byteSum_append, Option.isSome_some] at *
  omega

theorem pageBytes_lt {c d : Nat} (lt : c < d) (short : d < visible.length - start) :
    runtime.pageBytes tokens requestID requested visible start c < runtime.pageBytes tokens requestID requested visible start d := by
  have one (count : Nat) : byteCount (.array ((listReasons true (count = requested.appliedItems runtime.limits)
      (count < runtime.asked requested visible start)).map .string)) = 12 := by
    refine byteCount_reasons ?_
    rw [decide_eq_true_eq, decide_eq_true_eq, asked]
    omega
  have left : c < visible.length - start := by omega
  unfold pageBytes offerBytes offer respond proposed
  dsimp only
  rw [if_pos left, if_pos short, decide_eq_true left, decide_eq_true short]
  refine listResponse_lt requestID ?_ ?_ ((one c).trans (one d).symm)
  · rw [List.length_take, List.length_take]
    omega
  · refine byteCount_take_lt (fun item => ?_) _ lt (by rw [List.length_drop]; omega)
    rw [byteCount_eq, JsonText.characters, byteSum_cons]
    exact Nat.add_pos_left (Char.utf8Size_pos _) _

theorem page_eq (le : start ≤ visible.length) :
    runtime.page tokens requestID requested visible start =
      pageLoop (runtime.respond requestID requested visible start) tokens (visible.length - start)
        runtime.limits.maximumResponseBytes (requested.appliedBytes runtime.limits) (runtime.asked requested visible start) false := by
  rw [page]
  exact if_neg (by omega)

end SemanticProtocolRuntime

namespace ProtocolRuntime

open Android (CatalogIdentity SemanticDeclaration)

variable (runtime : ProtocolRuntime) (tokens : Nat → CursorToken) (id : String) (requested : RequestedListLimits)
  (visible : List SemanticDeclaration) (start : Nat)

/-- How many items the first page of a call has. -/
def asked : Nat := min (requested.appliedItems runtime.limits) (visible.length - start)

/-- The response of `count` items from `start`. -/
def respond (count : Nat) (cursor : Option CursorToken) (byteLimited : Bool) : JsonText :=
  listResponse id runtime.catalog ((visible.drop start).take count) (requested.appliedItems runtime.limits)
    (requested.appliedBytes runtime.limits) cursor byteLimited

/-- The bytes of the page of `count` items. -/
def pageBytes (count : Nat) : Nat :=
  offerBytes (runtime.respond id requested visible start) tokens (visible.length - start)
    (runtime.asked requested visible start) count

theorem listResponse_lt {catalog : CatalogIdentity} {items more : List SemanticDeclaration} {maxItems maxBytes : Nat}
    {token other : CursorToken} {byteLimited otherLimited : Bool} (count : items.length ≤ more.length)
    (longer : byteCount (.array (items.map fun declaration => .object [("id", .string declaration.id),
        ("kind", .string (declarationKind declaration)), ("declarationRevision", words declaration.declarationRevision)])) <
      byteCount (.array (more.map fun declaration => .object [("id", .string declaration.id),
        ("kind", .string (declarationKind declaration)), ("declarationRevision", words declaration.declarationRevision)])))
    (reason : byteCount (.array ((listReasons true (items.length = maxItems) byteLimited).map .string)) =
      byteCount (.array ((listReasons true (more.length = maxItems) otherLimited).map .string))) :
    byteCount (listResponse id catalog items maxItems maxBytes (some token) byteLimited) <
      byteCount (listResponse id catalog more maxItems maxBytes (some other) otherLimited) := by
  have returned := byteCount_words_mono count
  have room := (byteSum_token token).trans (byteSum_token other).symm
  unfold listResponse
  simp only [byteCount_eq, List.cons_append, List.nil_append, JsonText.characters, JsonText.moreMembers, byteSum_cons,
    byteSum_append, Option.isSome_some] at *
  omega

theorem pageBytes_lt {c d : Nat} (lt : c < d) (short : d < visible.length - start) :
    runtime.pageBytes tokens id requested visible start c < runtime.pageBytes tokens id requested visible start d := by
  have one (count : Nat) (short : count < visible.length - start) :
      byteCount (.array ((listReasons true (((visible.drop start).take count).length = requested.appliedItems runtime.limits)
        (count < runtime.asked requested visible start)).map .string)) = 12 := by
    refine byteCount_reasons ?_
    rw [decide_eq_true_eq, decide_eq_true_eq, asked, List.length_take, List.length_drop]
    omega
  have left : c < visible.length - start := by omega
  unfold pageBytes offerBytes offer respond proposed
  dsimp only
  rw [if_pos left, if_pos short]
  refine listResponse_lt id ?_ ?_ ((one c left).trans (one d short).symm)
  · rw [List.length_take, List.length_take]
    omega
  · refine byteCount_take_lt (fun item => ?_) _ lt (by rw [List.length_drop]; omega)
    rw [byteCount_eq, JsonText.characters, byteSum_cons]
    exact Nat.add_pos_left (Char.utf8Size_pos _) _

theorem page_eq (le : start ≤ visible.length) :
    runtime.page tokens id requested visible start =
      pageLoop (runtime.respond id requested visible start) tokens (visible.length - start)
        runtime.limits.maximumResponseBytes (requested.appliedBytes runtime.limits) (runtime.asked requested visible start) false := by
  rw [page]
  exact if_neg (by omega)

end ProtocolRuntime

/-! ## Progress -/

/-- A call with something left to list makes progress as it should exactly when it may. -/
theorem list_progresses_iff (tokens : Nat → CursorToken) :
    (∀ (runtime : SemanticProtocolRuntime) (requestID : String) (requested : RequestedListLimits)
      (visible : List SemanticCapabilityItem) (start : Nat), start < visible.length →
      (Progresses (runtime.asked requested visible start) (runtime.page tokens requestID requested visible start)
          (runtime.pageBytes tokens requestID requested visible start 1)
          (runtime.pageBytes tokens requestID requested visible start (runtime.asked requested visible start))
          runtime.limits.maximumResponseBytes (requested.appliedBytes runtime.limits) ↔
        MayProgress (runtime.pageBytes tokens requestID requested visible start) runtime.limits.maximumResponseBytes
          (requested.appliedBytes runtime.limits) (runtime.asked requested visible start) (visible.length - start))) ∧
    (∀ (runtime : ProtocolRuntime) (id : String) (requested : RequestedListLimits)
      (visible : List Android.SemanticDeclaration) (start : Nat), start < visible.length →
      (Progresses (runtime.asked requested visible start) (runtime.page tokens id requested visible start)
          (runtime.pageBytes tokens id requested visible start 1)
          (runtime.pageBytes tokens id requested visible start (runtime.asked requested visible start))
          runtime.limits.maximumResponseBytes (requested.appliedBytes runtime.limits) ↔
        MayProgress (runtime.pageBytes tokens id requested visible start) runtime.limits.maximumResponseBytes
          (requested.appliedBytes runtime.limits) (runtime.asked requested visible start) (visible.length - start))) := by
  constructor
  · intro runtime requestID requested visible start left
    have items := requested.appliedItems_pos runtime.limits
    rw [runtime.page_eq tokens requestID requested visible start left.le]
    exact pageLoop_progresses_iff (fun c d lt short => runtime.pageBytes_lt tokens requestID requested visible start lt short)
      (requested.appliedBytes_le runtime.limits) (by unfold SemanticProtocolRuntime.asked; omega)
      (by unfold SemanticProtocolRuntime.asked; omega)
  · intro runtime id requested visible start left
    have items := requested.appliedItems_pos runtime.limits
    rw [runtime.page_eq tokens id requested visible start left.le]
    exact pageLoop_progresses_iff (fun c d lt short => runtime.pageBytes_lt tokens id requested visible start lt short)
      (requested.appliedBytes_le runtime.limits) (by unfold ProtocolRuntime.asked; omega)
      (by unfold ProtocolRuntime.asked; omega)

def longItem : SemanticCapabilityItem :=
  { id := String.ofList (List.replicate 100 'a'), kind := .resource, declarationRevision := 1 }

/-- A catalog whose eight items do not fit in one response of 1024 bytes. -/
def wideCatalog : SemanticProtocolRuntime where
  catalog := { id := "catalog_of_the_app", generation := 1 }
  items := List.replicate 8 longItem
  limits :=
    { maximumRequestBytes := 1024, maximumResponseBytes := 1024, maximumPageItems := 100
      requestRange := by decide, responseRange := by decide, pageRange := by decide }
  sessions := ∅
  cursors := ∅

def zeroToken : CursorToken where
  digits := List.replicate 32 '0'
  length := List.length_replicate
  hex := by
    intro c member
    rw [List.eq_of_mem_replicate member]
    rfl

theorem unlimited_items : ∀ items ∈ (none : Option Nat), 1 ≤ items ∧ items ≤ 10000 := by simp

theorem unlimited_bytes : ∀ bytes ∈ (none : Option Nat), 1024 ≤ bytes ∧ bytes ≤ 64 * 1024 * 1024 := by simp

def unlimited : RequestedListLimits :=
  { maxItems := none, maxBytes := none, itemRange := unlimited_items, byteRange := unlimited_bytes }

def atMostFour : RequestedListLimits := { unlimited with maxItems := some 4, itemRange := by simp }

def wideRegistry : ProtocolRuntime where
  catalog := { id := "catalog_of_the_app", generation := 1 }
  declarations := List.replicate 8 (.resource
    { id := longItem.id, declarationRevision := 1, inputSchema := none
      valueSchema := { id := "schema_of_the_app", revision := 1, digest := "sha256:00" } })
  limits := wideCatalog.limits
  sessions := ∅
  cursors := ∅

/-- Four of the eight items fit, and both platforms list them. -/
theorem four_items_progress :
    Progresses 4 (wideCatalog.page (fun _ => zeroToken) "request" atMostFour wideCatalog.items 0) 434 890 1024 1024 ∧
      Progresses 4 (wideRegistry.page (fun _ => zeroToken) "request" atMostFour wideRegistry.declarations 0) 434 890 1024 1024 := by
  have ios : wideCatalog.pageBytes (fun _ => zeroToken) "request" atMostFour wideCatalog.items 0 1 = 434 ∧
      wideCatalog.pageBytes (fun _ => zeroToken) "request" atMostFour wideCatalog.items 0 4 = 890 := by decide +kernel
  have android : wideRegistry.pageBytes (fun _ => zeroToken) "request" atMostFour wideRegistry.declarations 0 1 = 434 ∧
      wideRegistry.pageBytes (fun _ => zeroToken) "request" atMostFour wideRegistry.declarations 0 4 = 890 := by decide +kernel
  constructor
  · have progresses := ((list_progresses_iff fun _ => zeroToken).1 wideCatalog "request" atMostFour wideCatalog.items 0
      (by decide)).mpr (.inl ⟨ios.1.trans_le (by decide), ios.2.trans_le (by decide), fun whole => absurd whole (by decide)⟩)
    have four : wideCatalog.asked atMostFour wideCatalog.items 0 = 4 := rfl
    rw [four, ios.1, ios.2] at progresses
    exact progresses
  · have progresses := ((list_progresses_iff fun _ => zeroToken).2 wideRegistry "request" atMostFour wideRegistry.declarations 0
      (by decide)).mpr
      (.inl ⟨android.1.trans_le (by decide), android.2.trans_le (by decide), fun whole => absurd whole (by decide)⟩)
    have four : wideRegistry.asked atMostFour wideRegistry.declarations 0 = 4 := rfl
    rw [four, android.1, android.2] at progresses
    exact progresses

/-- All eight are asked for by default, and instead of fewer there are none. -/
theorem wide_page_is_rejected :
    wideCatalog.page (fun _ => zeroToken) "request" unlimited wideCatalog.items 0 = .error .resourceExhausted ∧
      wideCatalog.pageBytes (fun _ => zeroToken) "request" unlimited wideCatalog.items 0 1 = 436 ∧
      ¬ Progresses 8 (wideCatalog.page (fun _ => zeroToken) "request" unlimited wideCatalog.items 0) 436 1423 1024 1024 := by
  have first : wideCatalog.pageBytes (fun _ => zeroToken) "request" unlimited wideCatalog.items 0 8 = 1423 := by decide +kernel
  have single : wideCatalog.pageBytes (fun _ => zeroToken) "request" unlimited wideCatalog.items 0 1 = 436 := by decide +kernel
  have rejected : wideCatalog.page (fun _ => zeroToken) "request" unlimited wideCatalog.items 0 = .error .resourceExhausted := by
    rw [wideCatalog.page_eq _ _ _ _ _ (Nat.zero_le _)]
    have loop := pageLoop_eq (wideCatalog.respond "request" unlimited wideCatalog.items 0) (fun _ => zeroToken) 8 8 1024 1024 le_rfl
    have finds : shorten (wideCatalog.pageBytes (fun _ => zeroToken) "request" unlimited wideCatalog.items 0) 1024 1024 8 = none := by
      rw [shorten, first]
      rfl
    change shorten (offerBytes (wideCatalog.respond "request" unlimited wideCatalog.items 0) (fun _ => zeroToken) 8 8) 1024 1024 8 =
      none at finds
    rw [finds] at loop
    exact loop
  refine ⟨rejected, single, ?_⟩
  rintro ⟨progress, -, -, -⟩
  obtain ⟨page, ok, -⟩ := progress (by norm_num)
  rw [rejected] at ok
  cases ok

end AppPilotKit.Semantic
