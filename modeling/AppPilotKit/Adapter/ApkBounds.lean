import AppPilotKit.Adapter.ApkManifest

/-! # No manifest makes the parser fault

On an input within the limit, every sum fits, every slice and index is in range, the decoded
strings stay within their budget and the stack of open elements within its depth.
-/

namespace AppPilotKit.Adapter.Apk

open Wire

/-- There is no fault, and what comes out, if anything, is in `P`. -/
def Yields {α : Type} (x : Parsed α) (P : α → Prop) : Prop :=
  match x with
  | .ok a => P a
  | .error .refused => True
  | .error .fault => False

namespace Yields

variable {α β : Type} {x : Parsed α} {f : α → Parsed β} {P : α → Prop} {Q : β → Prop}

theorem bind (first : Yields x P) (next : ∀ a, P a → Yields (f a) Q) : Yields (x >>= f) Q := by
  match x with
  | .ok a => exact next a first
  | .error .refused => trivial
  | .error .fault => exact first

theorem mono {R : α → Prop} (yields : Yields x P) (weaker : ∀ a, P a → R a) : Yields x R := by
  match x with
  | .ok a => exact weaker a yields
  | .error .refused => trivial
  | .error .fault => exact yields

theorem error {stop : Stop} (yields : Yields (.error stop : Parsed α) P) : Yields (.error stop : Parsed β) Q := by
  cases stop
  · trivial
  · exact yields

theorem no_fault (yields : Yields x P) : x ≠ .error .fault := by
  rintro rfl
  exact yields

theorem of_ok {a : α} (yields : Yields x P) (returned : x = .ok a) : P a := by
  rw [returned] at yields
  exact yields

theorem refuse : Yields (Apk.refuse : Parsed α) P := trivial

theorem refuseIf {wrong : Prop} [Decidable wrong] : Yields (refuseIf wrong) fun _ => ¬ wrong := by
  unfold Apk.refuseIf
  split
  · trivial
  · assumption

theorem otherwise {wrong : Prop} [Decidable wrong] {a : α} (there : P a) : Yields (if wrong then Apk.refuse else pure a) P := by
  split
  · trivial
  · exact there

theorem orRefuse {o : Option α} : Yields (orRefuse o) fun a => o = some a := by
  cases o <;> trivial

theorem plus {a b : Nat} (fits : a + b < 2 ^ 64) : Yields (plus a b) (· = a + b) := by
  rw [Apk.plus, if_pos fits]
  rfl

theorem times {a b : Nat} (fits : a * b < 2 ^ 64) : Yields (times a b) (· = a * b) := by
  rw [Apk.times, if_pos fits]
  rfl

theorem minus {a b : Nat} (fits : b ≤ a) : Yields (minus a b) (· = a - b) := by
  rw [Apk.minus, if_pos fits]
  rfl

theorem checkedAdd {a b : Nat} : Yields (checkedAdd a b) (· = a + b) := by
  unfold Apk.checkedAdd
  split <;> trivial

theorem checkedMul {a b : Nat} : Yields (checkedMul a b) (· = a * b) := by
  unfold Apk.checkedMul
  split <;> trivial

theorem claim {remaining bytes : Nat} : Yields (claim remaining bytes) fun left => left + bytes = remaining := by
  unfold Apk.claim
  split
  · next fits => exact Nat.sub_add_cancel fits
  · trivial

variable {input : Bytes}

theorem slice {first last : Nat} (ordered : first ≤ last) (inside : last ≤ input.length) :
    Yields (slice input first last) fun part => part = (input.drop first).take (last - first) := by
  rw [Apk.slice, if_pos ⟨ordered, inside⟩]
  rfl

theorem byteAt {offset : Nat} (inside : offset < input.length) : Yields (byteAt input offset) fun _ => True := by
  rw [Apk.byteAt, List.getElem?_eq_getElem inside]
  trivial

theorem le {width offset : Nat} : Yields (le input width offset) fun n => n < 256 ^ width ∧ offset + width ≤ input.length := by
  unfold Apk.le
  split
  · next fits =>
      refine ⟨?_, fits.2⟩
      have short := beNat_lt ((input.drop offset).take width).reverse
      have length : ((input.drop offset).take width).reverse.length = width := by
        rw [List.length_reverse, List.length_take, List.length_drop]
        omega
      rwa [length] at short
  · trivial

theorem leU16 {offset : Nat} : Yields (leU16 input offset) fun n => n < 2 ^ 16 ∧ offset + 2 ≤ input.length := le

theorem leU32 {offset : Nat} : Yields (leU32 input offset) fun n => n < 2 ^ 32 ∧ offset + 4 ≤ input.length := le

end Yields

/-! ## Strings -/

/-- How many bytes the strings of a pool take. -/
def payload (strings : List Chars) : Nat := (strings.map fun text => (Cbor.utf8 text).length).sum

theorem readResources_yields {input : Bytes} {count : Nat} (index : Nat) (few : index + count ≤ 2 ^ 21) :
    Yields (readResources input count index) fun _ => True := by
  induction count generalizing index with
  | zero => trivial
  | succ count ih =>
      refine .bind (.times (by omega)) fun place _ => .bind (.plus (by omega)) fun offset _ => ?_
      refine .bind .leU32 fun resource _ => .bind (ih (index + 1) (by omega)) fun others _ => trivial

section
variable {input : Bytes} (small : input.length ≤ manifestLimit)
include small

theorem length8_yields (offset : Nat) : Yields (length8 input offset) fun r => r.1 < 2 ^ 15 ∧ r.2 ≤ input.length := by
  unfold manifestLimit at small
  refine .bind .orRefuse fun first there => ?_
  obtain ⟨inside, -⟩ := List.getElem?_eq_some_iff.mp there
  have byte := first.toNat_lt
  split
  · next short =>
      refine .bind (.plus (by omega)) fun cursor after => ?_
      exact ⟨by dsimp only; omega, by dsimp only; omega⟩
  · refine .bind (.plus (by omega)) fun next after => .bind .orRefuse fun second there => ?_
    obtain ⟨inside, -⟩ := List.getElem?_eq_some_iff.mp there
    have byte := second.toNat_lt
    refine .bind (.plus (by omega)) fun cursor after => ?_
    exact ⟨by dsimp only; omega, by dsimp only; omega⟩

theorem decodeUtf8String_yields (offset remaining : Nat) :
    Yields (decodeUtf8String input offset remaining) fun r => r.2 + (Cbor.utf8 r.1).length = remaining := by
  refine .bind (length8_yields small _) fun ⟨units, next⟩ _ => .bind (length8_yields small _) fun ⟨byteLength, first⟩ _ => ?_
  refine .bind .refuseIf fun _ _ => .bind .checkedAdd fun last sum => .bind .refuseIf fun _ inside => ?_
  refine .bind (.byteAt (by omega)) fun ending _ => .bind .refuseIf fun _ _ => ?_
  refine .bind (.slice (by omega) (by omega)) fun bytes part => .bind .orRefuse fun value decoded => ?_
  refine .bind .refuseIf fun _ _ => .bind .claim fun left claimed => ?_
  have length : bytes.length = byteLength := by
    rw [part, List.length_take, List.length_drop]
    omega
  rw [Cbor.decodeUtf8_some] at decoded
  rw [decoded] at length
  show left + (Cbor.utf8 value).length = remaining
  omega

theorem length16_yields (offset : Nat) : Yields (length16 input offset) fun r => r.1 < 2 ^ 31 := by
  unfold manifestLimit at small
  refine .bind .leU16 fun first ⟨bound, inside⟩ => ?_
  split
  · next short =>
      refine .bind (.plus (by omega)) fun cursor after => ?_
      show first < 2 ^ 31
      omega
  · refine .bind (.plus (by omega)) fun next after => .bind .leU16 fun second ⟨lower, there⟩ => ?_
    refine .bind (.plus (by omega)) fun cursor after => ?_
    show (first - 0x8000) * 65536 + second < 2 ^ 31
    omega

theorem decodeUtf16String_yields (offset remaining : Nat) :
    Yields (decodeUtf16String input offset remaining) fun r => r.2 + (Cbor.utf8 r.1).length = remaining := by
  refine .bind (length16_yields small _) fun ⟨length, cursor⟩ _ => ?_
  refine .bind .checkedMul fun width doubled => .bind .checkedAdd fun terminator sum => .bind .checkedAdd fun after behind => ?_
  refine .bind .refuseIf fun _ inside => .bind .leU16 fun ending _ => .bind .refuseIf fun _ _ => ?_
  refine .bind (.slice (by omega) (by omega)) fun bytes _ => .bind .orRefuse fun value _ => ?_
  exact .bind .claim fun left claimed => claimed

theorem decodeString_yields (utf8 : Bool) (offset remaining : Nat) :
    Yields (decodeString input utf8 offset remaining) fun r => r.2 + (Cbor.utf8 r.1).length = remaining := by
  unfold decodeString
  split
  · exact decodeUtf8String_yields small offset remaining
  · exact decodeUtf16String_yields small offset remaining

theorem decodeStrings_yields {utf8 : Bool} {stringsStart count : Nat} (index remaining : Nat)
    (few : index + count ≤ 65536) :
    Yields (decodeStrings input utf8 stringsStart count index remaining) fun strings =>
      payload strings ≤ remaining ∧ strings.length = count := by
  induction count generalizing index remaining with
  | zero => exact ⟨Nat.zero_le _, rfl⟩
  | succ count ih =>
      refine .bind (.times (by omega)) fun place at_index => .bind (.plus (by omega)) fun header _ => ?_
      refine .bind .leU32 fun relative _ => .bind .checkedAdd fun offset _ => ?_
      refine .bind (decodeString_yields small utf8 offset remaining) fun ⟨value, left⟩ claimed => ?_
      refine .bind (ih (index + 1) left (by omega)) fun others ⟨within, length⟩ => ⟨?_, congrArg (· + 1) length⟩
      have split : payload (value :: others) = (Cbor.utf8 value).length + payload others := List.sum_cons
      dsimp only at claimed
      omega

theorem parseStringPool_yields : Yields (parseStringPool input) fun strings => payload strings ≤ decodedBytesLimit := by
  refine .bind .refuseIf fun _ _ => .bind .leU16 fun kind _ => .bind .refuseIf fun _ _ => ?_
  refine .bind .leU16 fun headerSize _ => .bind .leU32 fun stringCount _ => .bind .leU32 fun styleCount _ => ?_
  refine .bind .leU32 fun flags _ => .bind .leU32 fun stringsStart _ => .bind .leU32 fun stylesStart _ => ?_
  refine .bind .refuseIf fun _ fine => .bind (.times (by omega)) fun table _ => .bind (.plus (by omega)) fun header _ => ?_
  refine .bind .refuseIf fun _ _ => .bind .refuseIf fun _ _ => ?_
  exact (decodeStrings_yields small 0 decodedBytesLimit (by omega)).mono fun strings ⟨within, _⟩ => within

theorem parseResourceMap_yields (stringCount : Nat) : Yields (parseResourceMap input stringCount) fun _ => True := by
  unfold manifestLimit at small
  refine .bind .refuseIf fun _ enough => .bind .leU16 fun _ _ => .bind .refuseIf fun _ _ => ?_
  refine .bind .leU16 fun _ _ => .bind .refuseIf fun _ _ => .bind .leU32 fun _ _ => .bind .refuseIf fun _ _ => ?_
  refine .bind (.minus (by omega)) fun length rest => .bind .refuseIf fun _ _ => .bind .refuseIf fun _ _ => ?_
  exact readResources_yields 0 (by omega)

end

/-! ## Elements -/

section
variable {input : Bytes} {strings : List Chars} {resourceMap : List Nat}

theorem poolGet?_yields (index : Nat) : Yields (poolGet? strings index) fun _ => True := by
  unfold poolGet?
  split
  · trivial
  · exact .bind .orRefuse fun _ _ => trivial

theorem readValue_yields (dataType : UInt8) (data : Nat) : Yields (readValue strings dataType data) fun _ => True := by
  unfold readValue
  split
  · exact .bind .orRefuse fun _ _ => trivial
  · split
    · trivial
    · split
      · trivial
      · exact .refuse

variable (small : input.length ≤ manifestLimit)
include small

theorem parseAttribute_yields (offset : Nat) : Yields (parseAttribute input strings resourceMap offset) fun _ => True := by
  unfold manifestLimit at small
  refine .bind .leU32 fun nsIndex ⟨_, inside⟩ => .bind (poolGet?_yields nsIndex) fun ns _ => ?_
  refine .bind (.plus (by omega)) fun _ _ => .bind .leU32 fun nameIndex _ => .bind .orRefuse fun name _ => ?_
  refine .bind (.plus (by omega)) fun _ _ => .bind .leU32 fun rawIndex _ => ?_
  refine .bind (.plus (by omega)) fun _ _ => .bind .leU16 fun size _ => .bind .refuseIf fun _ _ => ?_
  refine .bind (.plus (by omega)) fun _ _ => .bind .orRefuse fun reserved _ => .bind .refuseIf fun _ _ => ?_
  refine .bind (.plus (by omega)) fun _ _ => .bind .orRefuse fun dataType _ => ?_
  refine .bind (.plus (by omega)) fun _ _ => .bind .leU32 fun data _ => ?_
  exact .bind (poolGet?_yields rawIndex) fun raw _ => .bind (readValue_yields dataType data) fun typed _ => trivial

theorem parseAttributes_yields {first count : Nat} (index : Nat) (near : first ≤ 2 ^ 22) (few : index + count ≤ 1024) :
    Yields (parseAttributes input strings resourceMap first count index) fun _ => True := by
  induction count generalizing index with
  | zero => trivial
  | succ count ih =>
      refine .bind (.times (by omega)) fun place _ => .bind (.plus (by omega)) fun offset _ => ?_
      refine .bind (parseAttribute_yields small offset) fun field _ => ?_
      exact .bind (ih (index + 1) (by omega)) fun others _ => trivial

theorem parseStartElement_yields {cursor last headerSize : Nat} (inside : cursor < input.length) :
    Yields (parseStartElement input strings resourceMap cursor last headerSize) fun _ => True := by
  unfold manifestLimit at small
  refine .bind .refuseIf fun _ _ => .bind (.plus (by omega)) fun least _ => .bind .refuseIf fun _ _ => ?_
  refine .bind (.plus (by omega)) fun _ _ => .bind .leU32 fun nameIndex _ => .bind .orRefuse fun name _ => ?_
  refine .bind (.plus (by omega)) fun _ _ => .bind .leU16 fun attributeStart _ => ?_
  refine .bind (.plus (by omega)) fun _ _ => .bind .leU16 fun attributeSize _ => ?_
  refine .bind (.plus (by omega)) fun _ _ => .bind .leU16 fun attributeCount _ => .bind .refuseIf fun _ _ => ?_
  refine .bind (.plus (by omega)) fun header _ => .bind .checkedAdd fun first _ => ?_
  refine .bind .checkedMul fun table _ => .bind .checkedAdd fun attributesEnd _ => .bind .refuseIf fun _ _ => ?_
  exact .bind (parseAttributes_yields small 0 (by omega) (by omega)) fun attributes _ => trivial

end

namespace StartElement

variable {element : StartElement} {ns : Option Chars} {name : Chars}

theorem identityAttribute_yields (resourceId : Option Nat) :
    Yields (element.identityAttribute ns name resourceId) fun _ => True := by
  unfold identityAttribute
  split
  · exact .refuse
  · split
    · trivial
    · trivial
    · exact .refuse

theorem identityStringAttribute_yields (resourceId : Option Nat) :
    Yields (element.identityStringAttribute ns name resourceId) fun _ => True := by
  refine .bind (identityAttribute_yields resourceId) fun found _ => ?_
  split
  · trivial
  · split
    · exact .otherwise trivial
    · exact .refuse

theorem identityBooleanAttribute_yields (resourceId : Nat) :
    Yields (element.identityBooleanAttribute ns name resourceId) fun _ => True := by
  refine .bind (identityAttribute_yields (some resourceId)) fun found _ => ?_
  split
  · trivial
  · split
    · exact .otherwise trivial
    · exact .refuse

end StartElement

/-! ## The loop -/

/-- What holds whenever the loop stands at `cursor`. -/
structure Kept (cursor : Nat) (s : State) : Prop where
  strings : ∀ pool, s.strings = some pool → payload pool ≤ decodedBytesLimit
  depth : s.stack.length ≤ xmlDepthLimit
  applications : s.applicationCount ≤ cursor
  activities : s.bootstrapActivityCount ≤ 1

theorem kept_start : Kept 8 {} where
  strings := nofun
  depth := Nat.zero_le _
  applications := Nat.zero_le _
  activities := Nat.zero_le _

section
variable {package : Chars} {input : Bytes} {cursor : Nat} {s : State}

theorem normalizeActivity_yields (value : Chars) : Yields (normalizeActivity package value) fun _ => True := by
  unfold normalizeActivity
  split
  · exact .refuse
  · split
    · trivial
    · split <;> trivial

/-- An element leaves the pool and the stack as they are. -/
structure Grown (s s' : State) : Prop where
  strings : s'.strings = s.strings
  stack : s'.stack = s.stack
  applications : s'.applicationCount ≤ s.applicationCount + 1
  activities : s'.bootstrapActivityCount ≤ 1

theorem onActivity_yields (element : StartElement) (kept : Kept cursor s) : Yields (onActivity package element s) (Grown s) := by
  have activities := kept.activities
  have unchanged : Grown s s := ⟨rfl, rfl, Nat.le_succ _, activities⟩
  refine .bind (StartElement.identityStringAttribute_yields _) fun found _ => ?_
  split
  · exact unchanged
  · refine .bind (normalizeActivity_yields _) fun normalized _ => ?_
    split
    · refine .bind (.plus (by omega)) fun count _ => .bind .refuseIf fun _ single => ?_
      refine .bind (StartElement.identityBooleanAttribute_yields _) fun exported _ => .bind .orRefuse fun value _ => ?_
      refine .bind (StartElement.identityBooleanAttribute_yields _) fun enabled _ => ?_
      exact ⟨rfl, rfl, Nat.le_succ _, by dsimp only; omega⟩
    · exact unchanged

theorem onElement_yields (element : StartElement) (parent : Option Chars) (kept : Kept cursor s) (near : cursor ≤ manifestLimit) :
    Yields (onElement package element parent s) (Grown s) := by
  have activities := kept.activities
  have applications := kept.applications
  unfold manifestLimit at near
  unfold onElement
  split
  · refine .bind (StartElement.identityStringAttribute_yields _) fun found _ => .bind .orRefuse fun value _ => ?_
    exact .bind .refuseIf fun _ _ => ⟨rfl, rfl, Nat.le_succ _, activities⟩
  · split
    · refine .bind (.plus (by omega)) fun count counted => ?_
      exact ⟨rfl, rfl, Nat.le_of_eq counted, activities⟩
    · split
      · exact onActivity_yields element kept
      · split
        · exact .refuse
        · exact ⟨rfl, rfl, Nat.le_succ _, activities⟩

theorem parentName_yields {pool : List Chars} (stack : List Nat) : Yields (parentName pool stack) fun _ => True := by
  cases stack with
  | nil => trivial
  | cons index rest => exact .bind .orRefuse fun _ _ => trivial

variable (small : input.length ≤ manifestLimit)
include small

theorem readChunk_yields (cursor : Nat) (inside : cursor < input.length) :
    Yields (readChunk input cursor) fun chunk => cursor < chunk.last ∧ chunk.last ≤ input.length := by
  unfold manifestLimit at small
  refine .bind .leU16 fun kind _ => .bind (.plus (by omega)) fun _ _ => .bind .leU16 fun headerSize _ => ?_
  refine .bind (.plus (by omega)) fun _ _ => .bind .leU32 fun size _ => .bind .checkedAdd fun last sum => ?_
  split
  · next fits => exact ⟨by dsimp only; omega, fits.2.2⟩
  · exact .refuse

theorem onChunk_yields {chunk : Chunk} (kept : Kept cursor s) (inside : cursor < input.length)
    (ordered : cursor < chunk.last) (ends : chunk.last ≤ input.length) :
    Yields (onChunk package input cursor chunk s) (Kept chunk.last) := by
  have part {bytes : Bytes} (cut : bytes = (input.drop cursor).take (chunk.last - cursor)) : bytes.length ≤ manifestLimit := by
    rw [cut, List.length_take, List.length_drop]
    omega
  have later {strings : Option (List Chars)} (bounded : ∀ pool, strings = some pool → payload pool ≤ decodedBytesLimit)
      {stack : List Nat} (depth : stack.length ≤ xmlDepthLimit) {s' : State} (strings_eq : s'.strings = strings)
      (stack_eq : s'.stack = stack) (applications : s'.applicationCount ≤ cursor + 1)
      (activities : s'.bootstrapActivityCount ≤ 1) : Kept chunk.last s' :=
    ⟨strings_eq ▸ bounded, stack_eq ▸ depth, applications.trans ordered, activities⟩
  have applications := Nat.le_succ_of_le kept.applications
  unfold onChunk
  split
  · refine .bind (.slice ordered.le ends) fun bytes cut => .bind (parseStringPool_yields (part cut)) fun pool bounded => ?_
    have fits : ∀ pool', some pool = some pool' → payload pool' ≤ decodedBytesLimit := by
      rintro _ ⟨⟩
      exact bounded
    exact later fits kept.depth rfl rfl applications kept.activities
  split
  · refine .bind .orRefuse fun pool _ => .bind (.slice ordered.le ends) fun bytes cut => ?_
    refine .bind (parseResourceMap_yields (part cut) _) fun resourceMap _ => ?_
    exact later kept.strings kept.depth rfl rfl applications kept.activities
  split
  · refine .bind .refuseIf fun _ _ => ?_
    exact later kept.strings kept.depth rfl rfl applications kept.activities
  split
  · refine .bind .refuseIf fun _ shallow => .bind .orRefuse fun pool _ => .bind .orRefuse fun resourceMap _ => ?_
    refine .bind (parseStartElement_yields small inside) fun element _ => .bind (parentName_yields _) fun parent _ => ?_
    refine .bind (onElement_yields element parent kept (by omega)) fun s' grown => ?_
    have depth : (element.nameIndex :: s'.stack).length ≤ xmlDepthLimit := by
      rw [grown.stack, List.length_cons]
      omega
    have counted := grown.applications.trans (Nat.succ_le_succ kept.applications)
    exact later kept.strings depth grown.strings rfl counted grown.activities
  split
  · unfold manifestLimit at small
    refine .bind .refuseIf fun _ _ => .bind (.plus (by omega)) fun _ _ => .bind .leU32 fun nameIndex _ => ?_
    refine .bind .orRefuse fun pool _ => .bind .orRefuse fun name _ => ?_
    have depth := kept.depth
    split
    · next top rest stack =>
        split
        · rw [stack, List.length_cons] at depth
          exact later kept.strings (Nat.le_of_succ_le depth) rfl rfl applications kept.activities
        · exact .refuse
    · exact .refuse
  · exact .refuse

theorem parseChunks_yields (cursor : Nat) (s : State) (kept : Kept cursor s) :
    Yields (parseChunks package input cursor s) fun r => Kept r.1 r.2 := by
  fun_induction parseChunks package input cursor s with
  | case1 cursor s inside stop read =>
      have yields := readChunk_yields small cursor inside
      rw [read] at yields
      exact yields.error
  | case2 cursor s inside chunk read stop stopped =>
      obtain ⟨ordered, ends⟩ := readChunk_onward input read
      have yields := @onChunk_yields package input cursor s small chunk kept inside ordered ends
      rw [stopped] at yields
      exact yields.error
  | case3 cursor s inside chunk read s' done ih =>
      obtain ⟨ordered, ends⟩ := readChunk_onward input read
      exact ih ((@onChunk_yields package input cursor s small chunk kept inside ordered ends).of_ok done)
  | case4 cursor s outside => exact kept

theorem parseBinaryManifest_yields (package : Chars) : Yields (parseBinaryManifest package input) fun _ => True := by
  refine .bind .refuseIf fun _ _ => .bind .leU16 fun kind _ => .bind .refuseIf fun _ _ => ?_
  refine .bind .leU16 fun header _ => .bind .refuseIf fun _ _ => .bind .leU32 fun size _ => .bind .refuseIf fun _ _ => ?_
  refine .bind (parseChunks_yields small 8 {} kept_start) fun ⟨cursor, s⟩ _ => .bind .refuseIf fun _ _ => ?_
  exact .bind .orRefuse fun package _ => trivial

end

/-! ## Every manifest -/

/-- The states at the head of the loop. -/
inductive Reached (package : Chars) (input : Bytes) : Nat → State → Prop
  | start : Reached package input 8 {}
  | chunk {cursor : Nat} {s s' : State} {chunk : Chunk} (reached : Reached package input cursor s)
      (inside : cursor < input.length) (read : readChunk input cursor = .ok chunk)
      (done : onChunk package input cursor chunk s = .ok s') : Reached package input chunk.last s'

section
variable {package : Chars} {input : Bytes} {cursor : Nat} {s : State}

theorem Reached.kept (reached : Reached package input cursor s) (small : input.length ≤ manifestLimit) : Kept cursor s := by
  induction reached with
  | start => exact kept_start
  | chunk _ inside read done ih =>
      obtain ⟨ordered, ends⟩ := readChunk_onward input read
      exact (onChunk_yields small ih inside ordered ends).of_ok done

end

/-- The parser does not fault on a manifest within the limit. Whenever its loop starts over, the
    strings of the pool and the stack are within theirs, and so are the strings that a pool has
    given so far. -/
theorem parseBinaryManifest_bounded {package : Chars} {input : Bytes} (small : input.length ≤ manifestLimit) :
    parseBinaryManifest package input ≠ .error .fault ∧
      (∀ cursor s, Reached package input cursor s →
        s.stack.length ≤ xmlDepthLimit ∧ ∀ pool, s.strings = some pool → payload pool ≤ decodedBytesLimit) ∧
      ∀ cursor chunk part utf8 stringsStart count strings, readChunk input cursor = .ok chunk →
        slice input cursor chunk.last = .ok part → count ≤ 65536 →
        decodeStrings part utf8 stringsStart count 0 decodedBytesLimit = .ok strings → payload strings ≤ decodedBytesLimit := by
  refine ⟨(parseBinaryManifest_yields small package).no_fault, fun cursor s reached => ?_, ?_⟩
  · have kept := reached.kept small
    exact ⟨kept.depth, kept.strings⟩
  · intro cursor chunk part utf8 stringsStart count strings read cut few decoded
    obtain ⟨ordered, ends⟩ := readChunk_onward input read
    have length : part.length ≤ manifestLimit := by
      rw [(Yields.slice ordered.le ends).of_ok cut, List.length_take, List.length_drop]
      omega
    exact ((decodeStrings_yields length 0 _ (by omega)).of_ok decoded).1

/-- A pool whose only string claims two thousand million code units. -/
def overlong : Bytes :=
  [3, 0, 8, 0, 44, 0, 0, 0,
    1, 0, 28, 0, 36, 0, 0, 0, 1, 0, 0, 0, 0, 0, 0, 0, 0, 0, 0, 0, 32, 0, 0, 0, 0, 0, 0, 0, 0, 0, 0, 0,
    0xFF, 0xFF, 0xFF, 0xFF]

theorem parseBinaryManifest_bounded_overlong :
    overlong.length ≤ manifestLimit ∧ parseBinaryManifest ['a'] overlong ≠ .error .fault :=
  ⟨by decide, (parseBinaryManifest_bounded (by decide)).1⟩

end AppPilotKit.Adapter.Apk
