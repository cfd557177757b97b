import AppPilotKit.Adapter.AppleListed

/-! # The parser of the list answers

On every input the parser comes to an end within its fuel and takes no slice out of range, and
what it says of an app is what the keys of the outermost dictionary say.
-/

namespace AppPilotKit.Adapter.Apple.Listing

open Wire Cbor Checks Scan

/-- What does not succeed is rejected. -/
def Answers {α : Type} (x : Parsed α) : Prop := ∀ stop, x = .error stop → stop = .rejected

namespace Answers

variable {α β : Type}

theorem ok (a : α) : Answers (.ok a) := by
  rintro stop ⟨⟩

theorem reject : Answers (Listing.reject : Parsed α) := by
  rintro stop ⟨⟩
  rfl

theorem bind {x : Parsed α} {f : α → Parsed β} (first : Answers x) (next : ∀ a, x = .ok a → Answers (f a)) :
    Answers (x >>= f) := by
  intro stop failed
  rcases bind_error.mp failed with early | ⟨a, done, late⟩
  · exact first stop early
  · exact next a done stop late

theorem rejectIf {wrong : Prop} [Decidable wrong] : Answers (Listing.rejectIf wrong) := by
  unfold Listing.rejectIf
  split
  · exact reject
  · exact ok ()

theorem orReject {o : Option α} : Answers (Listing.orReject o) := by
  cases o with
  | none => exact reject
  | some a => exact ok a

theorem strictUtf8 {text : Bytes} : Answers (Listing.strictUtf8 text) := by
  unfold Listing.strictUtf8
  split
  · exact ok _
  · exact reject

theorem charFromU32 {scalar : Nat} : Answers (Listing.charFromU32 scalar) := by
  unfold Listing.charFromU32
  split
  · exact ok _
  · exact reject

theorem enter {depth nodes : Nat} : Answers (Listing.enter depth nodes) := by
  unfold Listing.enter
  split
  · exact reject
  · exact ok _

section
variable {bytes : Bytes} {first last : Nat}

theorem slice (ordered : first ≤ last) (inside : last ≤ bytes.length) : Answers (Listing.slice bytes first last) := by
  rw [slice_ok.mpr ⟨ordered, inside, rfl⟩]
  exact ok _

theorem requireByte {b : UInt8} : Answers (Listing.requireByte bytes first b) := by
  unfold Listing.requireByte
  split
  · exact ok _
  · exact reject

theorem skipTrivia : Answers (Listing.skipTrivia bytes first) := by
  fun_induction Listing.skipTrivia bytes first with
  | case1 _ _ _ ih => exact ih
  | case2 _ _ _ _ _ _ ih => exact ih
  | case3 => exact reject
  | case4 => exact ok _

theorem parseEscape : Answers (Listing.parseEscape bytes first) := by
  refine bind orReject fun b _ => ?_
  split
  · exact ok _
  split
  · refine bind orReject fun digits _ => ?_
    refine bind rejectIf fun _ _ => ?_
    refine bind strictUtf8 fun text _ => ?_
    exact bind charFromU32 fun escaped _ => ok _
  split
  · exact bind charFromU32 fun escaped _ => ok _
  · exact reject

theorem pushSegment {captured : Option Bytes} (ordered : first ≤ last) (inside : last ≤ bytes.length) :
    Answers (Listing.pushSegment bytes captured first last) := by
  cases captured with
  | none => exact ok _
  | some value =>
      refine bind (slice ordered inside) fun piece _ => ?_
      exact bind strictUtf8 fun text _ => ok _

theorem quoted {capture : Bool} {captured : Option Bytes} {segment cursor : Nat} (ordered : segment ≤ cursor) :
    Answers (Listing.quoted bytes capture segment captured cursor) := by
  fun_induction Listing.quoted bytes capture segment captured cursor with
  | case1 segment captured cursor inside b quote =>
      refine bind (pushSegment ordered (Nat.le_of_lt inside)) fun pushed _ => ?_
      exact bind rejectIf fun _ _ => ok _
  | case2 segment captured cursor inside b noQuote escape ih =>
      refine bind (pushSegment ordered (Nat.le_of_lt inside)) fun pushed _ => ?_
      split
      · next escaped next taken => exact ih pushed escaped next taken le_rfl
      · next stop taken =>
          cases parseEscape stop taken
          exact reject
  | case3 => exact reject
  | case4 segment captured cursor inside b noQuote noEscape printed ih => exact ih (by omega)
  | case5 => exact reject

theorem bare {capture : Bool} (inside : first ≤ bytes.length) : Answers (Listing.bare bytes capture first) := by
  have run := advanceWhile_longest (p := isBare) first inside
  refine bind rejectIf fun _ _ => ?_
  refine bind (slice run.ordered run.inside) fun piece _ => ?_
  exact bind strictUtf8 fun text _ => ok _

theorem parseString {capture : Bool} (inside : first ≤ bytes.length) : Answers (Listing.parseString bytes capture first) := by
  refine bind skipTrivia fun cursor skipped => ?_
  split
  · exact quoted le_rfl
  · exact bare ((skipTrivia_sound inside skipped).inside inside)

theorem dataRest {digits : Nat} : Answers (Listing.dataRest bytes digits first) := by
  fun_induction Listing.dataRest bytes digits first with
  | case1 => exact ok _
  | case2 _ _ _ _ _ _ ih => exact ih
  | case3 _ _ _ _ _ _ _ ih => exact ih
  | case4 => exact reject
  | case5 => exact reject

theorem parseData : Answers (Listing.parseData bytes first) := bind requireByte fun _ _ => dataRest

end

end Answers

/-- With fuel for what is left of the input every call of the parser answers. -/
structure Answering (bytes : Bytes) (fuel : Nat) : Prop where
  dictionary : ∀ {depth cursor nodes}, cursor ≤ bytes.length → 3 * (bytes.length - cursor) + 2 ≤ fuel →
    Answers (parseDictionary bytes fuel depth ⟨cursor, nodes⟩)
  entries : ∀ {depth cursor nodes keys}, cursor ≤ bytes.length → 3 * (bytes.length - cursor) + 1 ≤ fuel →
    Answers (parseEntries bytes fuel depth keys ⟨cursor, nodes⟩)
  value : ∀ {depth cursor nodes}, cursor ≤ bytes.length → 3 * (bytes.length - cursor) + 3 ≤ fuel →
    Answers (parseValue bytes fuel depth ⟨cursor, nodes⟩)
  array : ∀ {depth cursor nodes}, cursor ≤ bytes.length → 3 * (bytes.length - cursor) + 2 ≤ fuel →
    Answers (parseArray bytes fuel depth ⟨cursor, nodes⟩)
  items : ∀ {depth cursor nodes}, cursor ≤ bytes.length → 3 * (bytes.length - cursor) + 4 ≤ fuel →
    Answers (parseItems bytes fuel depth ⟨cursor, nodes⟩)

section
variable {bytes : Bytes} {fuel depth cursor nodes : Nat} (answering : Answering bytes fuel)
include answering

theorem Answering.dictionary_succ (enough : 3 * (bytes.length - cursor) + 2 ≤ fuel + 1) :
    Answers (parseDictionary bytes (fuel + 1) depth ⟨cursor, nodes⟩) := by
  rw [parseDictionary]
  dsimp only
  refine .bind .enter fun entered _ => ?_
  refine .bind .requireByte fun next required => ?_
  obtain ⟨opened, rfl⟩ := requireByte_ok.mp required
  have inside := lt_of_at opened
  exact answering.entries inside (by omega)

theorem Answering.entries_succ {keys : List Bytes} (inside : cursor ≤ bytes.length)
    (enough : 3 * (bytes.length - cursor) + 1 ≤ fuel + 1) :
    Answers (parseEntries bytes (fuel + 1) depth keys ⟨cursor, nodes⟩) := by
  rw [parseEntries]
  dsimp only
  refine .bind .skipTrivia fun start skipped => ?_
  have before := skipTrivia_sound inside skipped
  split
  · exact .ok _
  refine .bind (.parseString (before.inside inside)) fun parsed read => ?_
  obtain ⟨key, afterKey⟩ := parsed
  obtain ⟨textStart, text, trivia, reads, -⟩ := parseString_sound (before.inside inside) read
  refine .bind .rejectIf fun _ _ => ?_
  refine .bind .skipTrivia fun equals skipped' => ?_
  have afterwards := skipTrivia_sound reads.inside skipped'
  refine .bind .requireByte fun next required => ?_
  obtain ⟨assigned, rfl⟩ := requireByte_ok.mp required
  have equalsInside := lt_of_at assigned
  have startOrder := before.ordered
  have textOrder := trivia.ordered
  have keyOrder := reads.ordered
  have equalsOrder := afterwards.ordered
  refine .bind (answering.value equalsInside (by omega)) fun given valued => ?_
  obtain ⟨value, n, gap, -, derives⟩ := (sound bytes fuel).value equalsInside valued
  refine .bind .skipTrivia fun semicolon skipped'' => ?_
  have behind := skipTrivia_sound derives.inside skipped''
  refine .bind .requireByte fun next required' => ?_
  obtain ⟨closed, rfl⟩ := requireByte_ok.mp required'
  have closedInside := lt_of_at closed
  have gapOrder := gap.ordered
  have valueOrder := derives.ordered
  have behindOrder := behind.ordered
  exact answering.entries closedInside (by omega)

theorem Answering.value_succ (inside : cursor ≤ bytes.length) (enough : 3 * (bytes.length - cursor) + 3 ≤ fuel + 1) :
    Answers (parseValue bytes (fuel + 1) depth ⟨cursor, nodes⟩) := by
  rw [parseValue]
  dsimp only
  refine .bind .enter fun entered _ => ?_
  refine .bind .skipTrivia fun start skipped => ?_
  have before := skipTrivia_sound inside skipped
  have order := before.ordered
  have inside' := before.inside inside
  refine .bind .orReject fun b _ => ?_
  split
  · exact .bind (answering.dictionary inside' (by omega)) fun _ _ => .ok _
  split
  · exact answering.array inside' (by omega)
  split
  · exact .bind .parseData fun _ _ => .ok _
  · exact .bind (.parseString inside') fun _ _ => .ok _

theorem Answering.array_succ (enough : 3 * (bytes.length - cursor) + 2 ≤ fuel + 1) :
    Answers (parseArray bytes (fuel + 1) depth ⟨cursor, nodes⟩) := by
  rw [parseArray]
  dsimp only
  refine .bind .requireByte fun next required => ?_
  obtain ⟨opened, rfl⟩ := requireByte_ok.mp required
  have inside := lt_of_at opened
  refine .bind .skipTrivia fun start skipped => ?_
  have before := skipTrivia_sound inside skipped
  have order := before.ordered
  split
  · exact .ok _
  · exact answering.items (before.inside inside) (by omega)

theorem Answering.items_succ (inside : cursor ≤ bytes.length) (enough : 3 * (bytes.length - cursor) + 4 ≤ fuel + 1) :
    Answers (parseItems bytes (fuel + 1) depth ⟨cursor, nodes⟩) := by
  rw [parseItems]
  refine .bind (answering.value inside (by omega)) fun given valued => ?_
  obtain ⟨first, n, gap, -, derives⟩ := (sound bytes fuel).value inside valued
  refine .bind .skipTrivia fun stop skipped => ?_
  have trivia := skipTrivia_sound derives.inside skipped
  split
  · exact .ok _
  refine .bind .requireByte fun next required => ?_
  obtain ⟨separated, rfl⟩ := requireByte_ok.mp required
  have inside' := lt_of_at separated
  refine .bind .skipTrivia fun start skipped' => ?_
  have after := skipTrivia_sound inside' skipped'
  have gapOrder := gap.ordered
  have itemOrder := derives.ordered
  have triviaOrder := trivia.ordered
  have afterOrder := after.ordered
  split
  · exact .ok _
  · exact answering.items (after.inside inside') (by omega)

end

theorem answering (bytes : Bytes) (fuel : Nat) : Answering bytes fuel := by
  induction fuel with
  | zero => constructor <;> intros <;> omega
  | succ fuel ih =>
      exact ⟨fun _ => ih.dictionary_succ, ih.entries_succ, ih.value_succ, fun _ => ih.array_succ, ih.items_succ⟩

/-! ## The whole list -/

section
variable {bytes appId : Bytes} {fuel : Nat} {keys : List Bytes}

theorem answers_parseListappsContains (enough : 3 * bytes.length + 2 ≤ fuel) :
    Answers (parseListappsContains bytes fuel appId) := by
  refine .bind .rejectIf fun _ _ => ?_
  refine .bind .strictUtf8 fun text valid => ?_
  obtain ⟨-, rfl⟩ := strictUtf8_ok.mp valid
  refine .bind (.bind .skipTrivia fun first skipped => ?_) fun keys _ => .ok _
  have before := skipTrivia_sound (Nat.zero_le _) skipped
  have inside := before.inside (Nat.zero_le _)
  refine .bind ((answering bytes fuel).dictionary inside (by omega)) fun (keys, s) _ => ?_
  refine .bind .skipTrivia fun last _ => ?_
  exact .bind .rejectIf fun _ _ => .ok _

theorem parseRootDictionary_ok (valid : validUtf8 bytes) (enough : 3 * bytes.length + 2 ≤ fuel) :
    parseRootDictionary bytes fuel = .ok keys ↔ Lists bytes keys := by
  constructor
  · intro parsed
    obtain ⟨first, skipped, parsed⟩ := bind_ok.mp parsed
    obtain ⟨⟨keys', s⟩, read, parsed⟩ := bind_ok.mp parsed
    obtain ⟨last, skipped', parsed⟩ := bind_ok.mp parsed
    obtain ⟨_, ended, parsed⟩ := bind_ok.mp parsed
    cases parsed
    have before := skipTrivia_sound (Nat.zero_le _) skipped
    obtain ⟨n, counts, derives⟩ := (sound bytes fuel).dictionary (before.inside (Nat.zero_le _)) read
    have after := skipTrivia_sound derives.inside skipped'
    rw [Decidable.not_not.mp (rejectIf_ok.mp ended)] at after
    have total := counts.total
    have capped := counts.capped (Nat.zero_le _)
    exact ⟨first, s.cursor, n, before, derives, after, by omega⟩
  · rintro ⟨first, last, n, before, derives, after, within⟩
    have settled : Settled bytes first := .of_byte derives.dictionary_opened (by decide) (by decide)
    have read : Reads bytes (.dictionary keys) 0 first last n := derives.reads valid
    refine bind_ok.mpr ⟨first, skipTrivia_complete before settled, ?_⟩
    refine bind_ok.mpr ⟨_, read fuel 0 (by omega) (by omega), ?_⟩
    refine bind_ok.mpr ⟨_, skipTrivia_complete after .of_end, ?_⟩
    exact bind_ok.mpr ⟨(), rejectIf_ok.mpr (not_not_intro rfl), rfl⟩

end

/-- Within the cap on output the parser answers. It accepts exactly the lists in UTF-8, and says
    of an app whether its identifier is a key of the outermost dictionary. -/
theorem parseListappsContains_lists {bytes : Bytes} (short : bytes.length ≤ toolOutputCap) {fuel : Nat}
    (enough : 3 * bytes.length + 2 ≤ fuel) (appId : Bytes) :
    (∀ stop, parseListappsContains bytes fuel appId = .error stop → stop = .rejected) ∧
      ∀ listed, parseListappsContains bytes fuel appId = .ok listed ↔
        bytes ≠ [] ∧ validUtf8 bytes ∧ ∃ keys, Lists bytes keys ∧ (listed = true ↔ appId ∈ keys) := by
  refine ⟨answers_parseListappsContains enough, fun listed => ?_⟩
  constructor
  · intro parsed
    obtain ⟨_, allowed, parsed⟩ := bind_ok.mp parsed
    obtain ⟨text, decoded, parsed⟩ := bind_ok.mp parsed
    obtain ⟨valid, rfl⟩ := strictUtf8_ok.mp decoded
    obtain ⟨keys, read, parsed⟩ := bind_ok.mp parsed
    cases parsed
    refine ⟨fun empty => rejectIf_ok.mp allowed (.inl empty), valid, keys, (parseRootDictionary_ok valid enough).mp read, ?_⟩
    exact List.contains_iff_mem
  · rintro ⟨nonempty, valid, keys, lists, same⟩
    refine bind_ok.mpr ⟨(), rejectIf_ok.mpr (fun wrong => wrong.elim nonempty (by omega)), ?_⟩
    refine bind_ok.mpr ⟨bytes, strictUtf8_ok.mpr ⟨valid, rfl⟩, ?_⟩
    refine bind_ok.mpr ⟨keys, (parseRootDictionary_ok valid enough).mpr lists, ?_⟩
    exact congrArg Except.ok (Bool.eq_iff_iff.mpr (List.contains_iff_mem.trans same.symm))

/-- A list whose key is written with an escape, and which names another app in a comment, in a
    value and in a nested dictionary. -/
def exampleList : Bytes :=
  utf8 "\x7b /* com.b */ \"com.\\141\" = \x7b com.b = (com.b, <6f>,); \x7d; // com.b\n\x7d".toList

theorem parseListappsContains_lists_example : exampleList.length ≤ toolOutputCap ∧ validUtf8 exampleList ∧
    (∃ keys, Lists exampleList keys ∧ utf8 "com.a".toList ∈ keys) ∧ ∃ keys, Lists exampleList keys ∧ utf8 "com.b".toList ∉ keys := by
  have short : exampleList.length ≤ toolOutputCap := by decide +kernel
  have enough : 3 * exampleList.length + 2 ≤ 400 := by decide +kernel
  obtain ⟨-, valid, keys, lists, same⟩ :=
    ((parseListappsContains_lists short enough (utf8 "com.a".toList)).2 true).mp (by decide +kernel)
  obtain ⟨-, -, keys', lists', other⟩ :=
    ((parseListappsContains_lists short enough (utf8 "com.b".toList)).2 false).mp (by decide +kernel)
  exact ⟨short, valid, ⟨keys, lists, same.mp rfl⟩, keys', lists', fun member => Bool.noConfusion (other.mpr member)⟩

end AppPilotKit.Adapter.Apple.Listing
