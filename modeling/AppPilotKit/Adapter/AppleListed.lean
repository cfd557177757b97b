import AppPilotKit.Adapter.AppleTokens

/-! # The parser and the grammar of the list

What the parser reads derives from the grammar, by induction on its fuel; what derives is read,
by induction on the derivation; and with enough fuel the parser answers.
-/

namespace AppPilotKit.Adapter.Apple.Listing

open Wire Cbor Checks Scan

section
variable {bytes : Bytes} {depth first last n m : Nat}

theorem enter_ok {nodes entered : Nat} :
    enter depth nodes = .ok entered ↔ depth ≤ openStepDepthCap ∧ nodes + 1 ≤ openStepNodeCap ∧ entered = nodes + 1 := by
  unfold enter reject
  split
  · next wrong => simp only [reduceCtorEq, false_iff]; omega
  · next fine => rw [Except.ok.injEq]; omega

theorem Data.inside (data : Data bytes first last) : last ≤ bytes.length := by
  obtain ⟨-, -, -, closed⟩ := data
  exact lt_of_at closed

theorem Derives.inside {piece : Piece} (derives : Derives bytes piece depth first last n) : last ≤ bytes.length := by
  induction derives with
  | dictionary _ _ _ _ ih => exact ih
  | noEntry _ closed => exact lt_of_at closed
  | entry _ _ _ _ _ _ _ _ _ _ _ ih => exact ih
  | dictionaryValue _ _ ih => exact ih
  | arrayValue _ _ ih => exact ih
  | dataValue _ inner => exact inner.inside
  | textValue _ inner => exact inner.inside
  | noItem _ _ closed => exact lt_of_at closed
  | someItems _ _ _ ih => exact ih
  | lastItem _ _ closed => exact lt_of_at closed
  | trailingComma _ _ _ _ closed => exact lt_of_at closed
  | item _ _ _ _ _ _ ih => exact ih

/-! ## What is read derives -/

/-- From one count to the next `n` nodes are entered, within the budget. -/
structure Counts (nodes nodes' n : Nat) : Prop where
  total : nodes' = nodes + n
  capped : nodes ≤ openStepNodeCap → nodes' ≤ openStepNodeCap

theorem Counts.none {nodes : Nat} : Counts nodes nodes 0 := ⟨rfl, id⟩

theorem Counts.entered {nodes : Nat} (within : nodes + 1 ≤ openStepNodeCap) : Counts nodes (nodes + 1) 1 :=
  ⟨rfl, fun _ => within⟩

theorem Counts.append {nodes nodes' nodes'' : Nat} (front : Counts nodes nodes' n) (back : Counts nodes' nodes'' m) :
    Counts nodes nodes'' (n + m) where
  total := by rw [back.total, front.total, Nat.add_assoc]
  capped within := back.capped (front.capped within)

theorem Counts.under {nodes nodes' : Nat} (within : nodes + 1 ≤ openStepNodeCap) (counts : Counts (nodes + 1) nodes' n) :
    Counts nodes nodes' (n + 1) :=
  Nat.add_comm 1 n ▸ (Counts.entered within).append counts

/-- What the calls with this much fuel read is as the grammar has it. -/
structure Sound (bytes : Bytes) (fuel : Nat) : Prop where
  dictionary : ∀ {depth cursor nodes keys s}, cursor ≤ bytes.length →
    parseDictionary bytes fuel depth ⟨cursor, nodes⟩ = .ok (keys, s) →
    ∃ n, Counts nodes s.nodes n ∧ Derives bytes (.dictionary keys) depth cursor s.cursor n
  entries : ∀ {depth cursor nodes keys keys' s}, cursor ≤ bytes.length → keys.Nodup →
    parseEntries bytes fuel depth keys ⟨cursor, nodes⟩ = .ok (keys', s) →
    ∃ new n, keys' = keys ++ new ∧ keys'.Nodup ∧ Counts nodes s.nodes n ∧ Derives bytes (.entries new) depth cursor s.cursor n
  value : ∀ {depth cursor nodes s}, cursor ≤ bytes.length → parseValue bytes fuel depth ⟨cursor, nodes⟩ = .ok s →
    ∃ first n, Trivia bytes cursor first ∧ Counts nodes s.nodes n ∧ Derives bytes .value depth first s.cursor n
  array : ∀ {depth cursor nodes s}, cursor ≤ bytes.length → parseArray bytes fuel depth ⟨cursor, nodes⟩ = .ok s →
    ∃ n, Counts nodes s.nodes n ∧ Derives bytes .array depth cursor s.cursor n
  items : ∀ {depth cursor nodes s}, cursor ≤ bytes.length → parseItems bytes fuel depth ⟨cursor, nodes⟩ = .ok s →
    ∃ first n, Trivia bytes cursor first ∧ Counts nodes s.nodes n ∧ Derives bytes .items depth first s.cursor n

section
variable {fuel cursor nodes : Nat} {s : OpenStepParser} {keys keys' : List Bytes} (sound : Sound bytes fuel)
include sound

theorem Sound.dictionary_succ (parsed : parseDictionary bytes (fuel + 1) depth ⟨cursor, nodes⟩ = .ok (keys, s)) :
    ∃ n, Counts nodes s.nodes n ∧ Derives bytes (.dictionary keys) depth cursor s.cursor n := by
  rw [parseDictionary] at parsed
  obtain ⟨_, allowed, parsed⟩ := bind_ok.mp parsed
  obtain ⟨_, required, parsed⟩ := bind_ok.mp parsed
  obtain ⟨shallow, within, rfl⟩ := enter_ok.mp allowed
  obtain ⟨opened, rfl⟩ := requireByte_ok.mp required
  obtain ⟨new, n, same, distinct, counts, derives⟩ := sound.entries (lt_of_at opened) List.nodup_nil parsed
  rw [List.nil_append] at same
  cases same
  exact ⟨n + 1, counts.under within, .dictionary shallow opened distinct derives⟩

theorem Sound.entries_succ (inside : cursor ≤ bytes.length) (distinct : keys.Nodup)
    (parsed : parseEntries bytes (fuel + 1) depth keys ⟨cursor, nodes⟩ = .ok (keys', s)) :
    ∃ new n, keys' = keys ++ new ∧ keys'.Nodup ∧ Counts nodes s.nodes n ∧
      Derives bytes (.entries new) depth cursor s.cursor n := by
  rw [parseEntries] at parsed
  obtain ⟨start, skipped, parsed⟩ := bind_ok.mp parsed
  have before := skipTrivia_sound inside skipped
  split at parsed
  · next closed =>
      cases parsed
      exact ⟨[], 0, (List.append_nil keys).symm, distinct, .none, .noEntry before closed⟩
  obtain ⟨⟨key, afterKey⟩, read, parsed⟩ := bind_ok.mp parsed
  obtain ⟨_, fresh, parsed⟩ := bind_ok.mp parsed
  obtain ⟨equals, skipped', parsed⟩ := bind_ok.mp parsed
  obtain ⟨_, required, parsed⟩ := bind_ok.mp parsed
  obtain ⟨given, valued, parsed⟩ := bind_ok.mp parsed
  obtain ⟨semicolon, skipped'', parsed⟩ := bind_ok.mp parsed
  obtain ⟨_, required', parsed⟩ := bind_ok.mp parsed
  obtain ⟨textStart, text, trivia, reads, named⟩ := parseString_sound (before.inside inside) read
  obtain ⟨rfl, nonempty⟩ := named rfl
  have afterwards := skipTrivia_sound reads.inside skipped'
  obtain ⟨assigned, rfl⟩ := requireByte_ok.mp required
  obtain ⟨value, n, gap, counts, derives⟩ := sound.value (lt_of_at assigned) valued
  have behind := skipTrivia_sound derives.inside skipped''
  obtain ⟨closed, rfl⟩ := requireByte_ok.mp required'
  have distinct' : (keys ++ [key]).Nodup := List.nodup_append_comm.mpr (List.nodup_cons.mpr ⟨rejectIf_ok.mp fresh, distinct⟩)
  obtain ⟨new, m, same, final, counts', derives'⟩ := sound.entries (lt_of_at closed) distinct' parsed
  refine ⟨key :: new, n + m, by rw [same, List.append_assoc]; rfl, final, counts.append counts', ?_⟩
  exact .entry (before.append trivia) reads nonempty afterwards assigned gap derives behind closed derives'

theorem Sound.value_succ (inside : cursor ≤ bytes.length)
    (parsed : parseValue bytes (fuel + 1) depth ⟨cursor, nodes⟩ = .ok s) :
    ∃ first n, Trivia bytes cursor first ∧ Counts nodes s.nodes n ∧ Derives bytes .value depth first s.cursor n := by
  rw [parseValue] at parsed
  obtain ⟨_, allowed, parsed⟩ := bind_ok.mp parsed
  obtain ⟨start, skipped, parsed⟩ := bind_ok.mp parsed
  obtain ⟨b, _, parsed⟩ := bind_ok.mp parsed
  obtain ⟨shallow, within, rfl⟩ := enter_ok.mp allowed
  have before := skipTrivia_sound inside skipped
  have inside' := before.inside inside
  split at parsed
  · obtain ⟨⟨keys, s'⟩, read, parsed⟩ := bind_ok.mp parsed
    cases parsed
    obtain ⟨n, counts, derives⟩ := sound.dictionary inside' read
    exact ⟨start, n + 1, before, counts.under within, .dictionaryValue shallow derives⟩
  split at parsed
  · obtain ⟨n, counts, derives⟩ := sound.array inside' parsed
    exact ⟨start, n + 1, before, counts.under within, .arrayValue shallow derives⟩
  split at parsed
  · obtain ⟨_, read, parsed⟩ := bind_ok.mp parsed
    cases parsed
    exact ⟨start, 1, before, .entered within, .dataValue shallow (parseData_ok.mp read)⟩
  · obtain ⟨_, read, parsed⟩ := bind_ok.mp parsed
    cases parsed
    obtain ⟨first, text, trivia, reads, -⟩ := parseString_sound inside' read
    exact ⟨first, 1, before.append trivia, .entered within, .textValue shallow reads⟩

theorem Sound.array_succ (parsed : parseArray bytes (fuel + 1) depth ⟨cursor, nodes⟩ = .ok s) :
    ∃ n, Counts nodes s.nodes n ∧ Derives bytes .array depth cursor s.cursor n := by
  rw [parseArray] at parsed
  obtain ⟨_, required, parsed⟩ := bind_ok.mp parsed
  obtain ⟨opened, rfl⟩ := requireByte_ok.mp required
  obtain ⟨start, skipped, parsed⟩ := bind_ok.mp parsed
  have before := skipTrivia_sound (lt_of_at opened) skipped
  split at parsed
  · next closed =>
      cases parsed
      exact ⟨0, .none, .noItem opened before closed⟩
  · obtain ⟨first, n, trivia, counts, derives⟩ := sound.items (before.inside (lt_of_at opened)) parsed
    exact ⟨n, counts, .someItems opened (before.append trivia) derives⟩

theorem Sound.items_succ (inside : cursor ≤ bytes.length)
    (parsed : parseItems bytes (fuel + 1) depth ⟨cursor, nodes⟩ = .ok s) :
    ∃ first n, Trivia bytes cursor first ∧ Counts nodes s.nodes n ∧ Derives bytes .items depth first s.cursor n := by
  rw [parseItems] at parsed
  obtain ⟨given, valued, parsed⟩ := bind_ok.mp parsed
  obtain ⟨stop, skipped, parsed⟩ := bind_ok.mp parsed
  obtain ⟨first, n, before, counts, item⟩ := sound.value inside valued
  have trivia := skipTrivia_sound item.inside skipped
  split at parsed
  · next closed =>
      cases parsed
      exact ⟨first, n, before, counts, .lastItem item trivia closed⟩
  obtain ⟨_, required, parsed⟩ := bind_ok.mp parsed
  obtain ⟨separated, rfl⟩ := requireByte_ok.mp required
  obtain ⟨next, skipped', parsed⟩ := bind_ok.mp parsed
  have after := skipTrivia_sound (lt_of_at separated) skipped'
  split at parsed
  · next closed =>
      cases parsed
      exact ⟨first, n, before, counts, .trailingComma item trivia separated after closed⟩
  · obtain ⟨next', m, more, counts', derives⟩ := sound.items (after.inside (lt_of_at separated)) parsed
    exact ⟨first, n + m, before, counts.append counts', .item item trivia separated (after.append more) derives⟩

end

theorem sound (bytes : Bytes) (fuel : Nat) : Sound bytes fuel := by
  induction fuel with
  | zero =>
      constructor <;> intros <;>
        simp_all only [parseDictionary, parseEntries, parseValue, parseArray, parseItems, reduceCtorEq]
  | succ fuel ih =>
      exact ⟨fun _ => ih.dictionary_succ, ih.entries_succ, ih.value_succ, fun _ => ih.array_succ, ih.items_succ⟩

/-! ## What derives is read -/

theorem Data.ordered (data : Data bytes first last) : first < last := by
  obtain ⟨-, body, -, -⟩ := data
  have := body.ordered
  omega

theorem Derives.ordered {piece : Piece} (derives : Derives bytes piece depth first last n) : first < last := by
  induction derives with
  | dictionary _ _ _ _ ih => omega
  | noEntry trivia _ => have := trivia.ordered; omega
  | entry before text _ trivia _ gap _ after _ _ value more =>
      have := before.ordered
      have := text.ordered
      have := trivia.ordered
      have := gap.ordered
      have := after.ordered
      omega
  | dictionaryValue _ _ ih => exact ih
  | arrayValue _ _ ih => exact ih
  | dataValue _ inner => exact inner.ordered
  | textValue _ inner => exact inner.ordered
  | noItem _ trivia _ => have := trivia.ordered; omega
  | someItems _ trivia _ ih => have := trivia.ordered; omega
  | lastItem _ trivia _ ih => have := trivia.ordered; omega
  | trailingComma _ trivia _ after _ ih =>
      have := trivia.ordered
      have := after.ordered
      omega
  | item _ trivia _ after _ ih more =>
      have := trivia.ordered
      have := after.ordered
      omega

theorem Derives.dictionary_opened {keys : List Bytes} (derives : Derives bytes (.dictionary keys) depth first last n) :
    bytes[first]? = some '\x7b'.toUInt8 := by
  cases derives with
  | dictionary _ opened => exact opened

theorem Derives.array_opened (derives : Derives bytes .array depth first last n) : bytes[first]? = some '('.toUInt8 := by
  cases derives with
  | noItem opened => exact opened
  | someItems opened => exact opened

def brackets : Bytes := ['\x7b'.toUInt8, '\x7d'.toUInt8, '('.toUInt8, ')'.toUInt8, '<'.toUInt8]

/-- A string begins with a quote or a bare byte, and so with no bracket. -/
theorem Text.opened {text : Bytes} (reads : Text bytes first last text) : ∃ b, bytes[first]? = some b ∧ b ∉ brackets := by
  cases reads with
  | quoted here => exact ⟨_, here, by decide⟩
  | bare run nonempty =>
      obtain ⟨b, here, good⟩ := run.at le_rfl nonempty
      have unbare : ∀ b ∈ brackets, isBare b = false := by decide +kernel
      exact ⟨b, here, fun member => Bool.noConfusion (good.symm.trans (unbare b member))⟩

theorem Text.not_at {text : Bytes} {b : UInt8} (reads : Text bytes first last text) (bracket : b ∈ brackets) :
    bytes[first]? ≠ some b := by
  obtain ⟨other, here, outside⟩ := reads.opened
  intro there
  cases here.symm.trans there
  exact outside bracket

theorem Derives.value_settled (derives : Derives bytes .value depth first last n) : Settled bytes first := by
  cases derives with
  | dictionaryValue _ inner => exact .of_byte inner.dictionary_opened (by decide) (by decide)
  | arrayValue _ inner => exact .of_byte inner.array_opened (by decide) (by decide)
  | dataValue _ inner =>
      obtain ⟨opened, -, -, -⟩ := inner
      exact .of_byte opened (by decide) (by decide)
  | textValue _ inner => exact inner.settled

theorem Derives.items_settled (derives : Derives bytes .items depth first last n) : Settled bytes first := by
  cases derives with
  | lastItem item => exact item.value_settled
  | trailingComma item => exact item.value_settled
  | item item => exact item.value_settled

theorem Derives.value_unclosed (derives : Derives bytes .value depth first last n) : bytes[first]? ≠ some ')'.toUInt8 := by
  cases derives with
  | dictionaryValue _ inner => rw [inner.dictionary_opened]; decide
  | arrayValue _ inner => rw [inner.array_opened]; decide
  | dataValue _ inner =>
      obtain ⟨opened, -, -, -⟩ := inner
      rw [opened]
      decide
  | textValue _ inner => exact inner.not_at (by decide)

theorem Derives.items_unclosed (derives : Derives bytes .items depth first last n) : bytes[first]? ≠ some ')'.toUInt8 := by
  cases derives with
  | lastItem item => exact item.value_unclosed
  | trailingComma item => exact item.value_unclosed
  | item item => exact item.value_unclosed

/-- The parser reads such a piece, with enough fuel and room for its nodes. -/
def Reads (bytes : Bytes) : Piece → Nat → Nat → Nat → Nat → Prop
  | .dictionary keys, depth, first, last, n => ∀ fuel nodes, 3 * (bytes.length - first) + 2 ≤ fuel →
      nodes + n ≤ openStepNodeCap → parseDictionary bytes fuel depth ⟨first, nodes⟩ = .ok (keys, ⟨last, nodes + n⟩)
  | .entries new, depth, first, last, n => ∀ fuel nodes keys, 3 * (bytes.length - first) + 1 ≤ fuel →
      nodes + n ≤ openStepNodeCap → (keys ++ new).Nodup →
      parseEntries bytes fuel depth keys ⟨first, nodes⟩ = .ok (keys ++ new, ⟨last, nodes + n⟩)
  | .value, depth, first, last, n => ∀ fuel nodes start, 3 * (bytes.length - start) + 3 ≤ fuel →
      nodes + n ≤ openStepNodeCap → Trivia bytes start first →
      parseValue bytes fuel depth ⟨start, nodes⟩ = .ok ⟨last, nodes + n⟩
  | .array, depth, first, last, n => ∀ fuel nodes, 3 * (bytes.length - first) + 2 ≤ fuel →
      nodes + n ≤ openStepNodeCap → parseArray bytes fuel depth ⟨first, nodes⟩ = .ok ⟨last, nodes + n⟩
  | .items, depth, first, last, n => ∀ fuel nodes, 3 * (bytes.length - first) + 4 ≤ fuel →
      nodes + n ≤ openStepNodeCap → parseItems bytes fuel depth ⟨first, nodes⟩ = .ok ⟨last, nodes + n⟩

theorem exists_fuel {fuel need : Nat} (enough : need + 1 ≤ fuel) : ∃ less, fuel = less + 1 ∧ need ≤ less :=
  ⟨fuel - 1, by omega, by omega⟩

theorem reads_dictionary {keys : List Bytes} (shallow : depth ≤ openStepDepthCap) (opened : bytes[first]? = some '\x7b'.toUInt8)
    (distinct : keys.Nodup) (body : Reads bytes (.entries keys) depth (first + 1) last n) :
    Reads bytes (.dictionary keys) depth first last (n + 1) := by
  intro fuel nodes enough within
  obtain ⟨fuel, rfl, left⟩ := exists_fuel enough
  have inside := lt_of_at opened
  rw [parseDictionary]
  refine bind_ok.mpr ⟨nodes + 1, enter_ok.mpr ⟨shallow, show nodes + 1 ≤ _ by omega, rfl⟩, ?_⟩
  refine bind_ok.mpr ⟨_, requireByte_ok.mpr ⟨opened, rfl⟩, ?_⟩
  rw [body fuel (nodes + 1) [] (by omega) (by omega) distinct, List.nil_append, Nat.add_assoc, Nat.add_comm 1 n]

theorem reads_noEntry (trivia : Trivia bytes first last) (closed : bytes[last]? = some '\x7d'.toUInt8) :
    Reads bytes (.entries []) depth first (last + 1) 0 := by
  intro fuel nodes keys enough within distinct
  obtain ⟨fuel, rfl, left⟩ := exists_fuel enough
  rw [parseEntries]
  refine bind_ok.mpr ⟨_, skipTrivia_complete trivia (.of_byte closed (by decide) (by decide)), ?_⟩
  rw [if_pos closed, List.append_nil]
  rfl

theorem reads_entry {key : Bytes} {keys : List Bytes} {start afterKey equals value afterValue semicolon : Nat}
    (before : Trivia bytes first start) (text : Text bytes start afterKey key) (named : key ≠ [])
    (trivia : Trivia bytes afterKey equals) (assigned : bytes[equals]? = some '='.toUInt8)
    (gap : Trivia bytes (equals + 1) value) (given : Derives bytes .value (depth + 1) value afterValue n)
    (after : Trivia bytes afterValue semicolon) (closed : bytes[semicolon]? = some ';'.toUInt8) (valid : validUtf8 bytes)
    (readValue : Reads bytes .value (depth + 1) value afterValue n)
    (readMore : Reads bytes (.entries keys) depth (semicolon + 1) last m) :
    Reads bytes (.entries (key :: keys)) depth first last (n + m) := by
  intro fuel nodes known enough within distinct
  obtain ⟨fuel, rfl, left⟩ := exists_fuel enough
  have startOrder := before.ordered
  have keyOrder := text.ordered
  have equalsOrder := trivia.ordered
  have gapOrder := gap.ordered
  have valueOrder := given.ordered
  have afterOrder := after.ordered
  have inside := lt_of_at closed
  have split : known ++ key :: keys = known ++ [key] ++ keys := List.append_cons known key keys
  have fresh : key ∉ known := fun member =>
    List.disjoint_of_nodup_append distinct member List.mem_cons_self
  rw [parseEntries]
  refine bind_ok.mpr ⟨_, skipTrivia_complete before text.settled, ?_⟩
  rw [if_neg (text.not_at (by decide))]
  refine bind_ok.mpr ⟨_, parseString_complete valid .done text fun _ => named, ?_⟩
  refine bind_ok.mpr ⟨(), rejectIf_ok.mpr fresh, ?_⟩
  refine bind_ok.mpr ⟨_, skipTrivia_complete trivia (.of_byte assigned (by decide) (by decide)), ?_⟩
  refine bind_ok.mpr ⟨_, requireByte_ok.mpr ⟨assigned, rfl⟩, ?_⟩
  refine bind_ok.mpr ⟨_, readValue fuel nodes (equals + 1) (by omega) (by omega) gap, ?_⟩
  refine bind_ok.mpr ⟨_, skipTrivia_complete after (.of_byte closed (by decide) (by decide)), ?_⟩
  refine bind_ok.mpr ⟨_, requireByte_ok.mpr ⟨closed, rfl⟩, ?_⟩
  rw [split] at distinct ⊢
  rw [← Nat.add_assoc]
  exact readMore fuel (nodes + n) (known ++ [key]) (by omega) (by omega) distinct

theorem reads_value {b : UInt8} {start : Nat} {s : OpenStepParser} {fuel nodes : Nat} (shallow : depth ≤ openStepDepthCap)
    (within : nodes + 1 ≤ openStepNodeCap) (trivia : Trivia bytes start first) (settled : Settled bytes first)
    (here : bytes[first]? = some b) (read : (if b = '\x7b'.toUInt8 then do
        let (_, s) ← parseDictionary bytes fuel depth ⟨first, nodes + 1⟩
        return s
      else if b = '('.toUInt8 then parseArray bytes fuel depth ⟨first, nodes + 1⟩
      else if b = '<'.toUInt8 then do
        let cursor ← parseData bytes first
        return ⟨cursor, nodes + 1⟩
      else do
        let (_, cursor) ← parseString bytes false first
        return ⟨cursor, nodes + 1⟩) = .ok s) : parseValue bytes (fuel + 1) depth ⟨start, nodes⟩ = .ok s := by
  rw [parseValue]
  refine bind_ok.mpr ⟨nodes + 1, enter_ok.mpr ⟨shallow, within, rfl⟩, ?_⟩
  refine bind_ok.mpr ⟨first, skipTrivia_complete trivia settled, ?_⟩
  exact bind_ok.mpr ⟨b, orReject_ok.mpr here, read⟩

theorem reads_dictionaryValue {keys : List Bytes} (shallow : depth ≤ openStepDepthCap)
    (inner : Derives bytes (.dictionary keys) depth first last n) (read : Reads bytes (.dictionary keys) depth first last n) :
    Reads bytes .value depth first last (n + 1) := by
  intro fuel nodes start enough within trivia
  obtain ⟨fuel, rfl, left⟩ := exists_fuel enough
  have order := trivia.ordered
  have settled := (Derives.dictionaryValue shallow inner).value_settled
  refine reads_value shallow (by omega) trivia settled inner.dictionary_opened ?_
  rw [if_pos rfl, read fuel (nodes + 1) (by omega) (by omega), Nat.add_assoc, Nat.add_comm 1 n]
  rfl

theorem reads_arrayValue (shallow : depth ≤ openStepDepthCap) (inner : Derives bytes .array depth first last n)
    (read : Reads bytes .array depth first last n) : Reads bytes .value depth first last (n + 1) := by
  intro fuel nodes start enough within trivia
  obtain ⟨fuel, rfl, left⟩ := exists_fuel enough
  have order := trivia.ordered
  have settled := (Derives.arrayValue shallow inner).value_settled
  refine reads_value shallow (by omega) trivia settled inner.array_opened ?_
  rw [if_neg (by decide), if_pos rfl, read fuel (nodes + 1) (by omega) (by omega), Nat.add_assoc, Nat.add_comm 1 n]

theorem reads_dataValue (shallow : depth ≤ openStepDepthCap) (inner : Data bytes first last) :
    Reads bytes .value depth first last 1 := by
  intro fuel nodes start enough within trivia
  obtain ⟨fuel, rfl, left⟩ := exists_fuel enough
  have settled := (Derives.dataValue shallow inner).value_settled
  have read := parseData_ok.mpr inner
  obtain ⟨opened, -, -, -⟩ := inner
  refine reads_value shallow within trivia settled opened ?_
  rw [if_neg (by decide), if_neg (by decide), if_pos rfl, read]
  rfl

theorem reads_textValue {text : Bytes} (shallow : depth ≤ openStepDepthCap) (inner : Text bytes first last text)
    (valid : validUtf8 bytes) : Reads bytes .value depth first last 1 := by
  intro fuel nodes start enough within trivia
  obtain ⟨fuel, rfl, left⟩ := exists_fuel enough
  obtain ⟨b, here, outside⟩ := inner.opened
  have other {c : UInt8} (bracket : c ∈ brackets) : b ≠ c := fun same => outside (same ▸ bracket)
  refine reads_value shallow within trivia inner.settled here ?_
  rw [if_neg (other (by decide)), if_neg (other (by decide)), if_neg (other (by decide)),
    parseString_complete valid .done inner fun captured => Bool.noConfusion captured]
  rfl

theorem reads_noItem (opened : bytes[first]? = some '('.toUInt8) (trivia : Trivia bytes (first + 1) last)
    (closed : bytes[last]? = some ')'.toUInt8) : Reads bytes .array depth first (last + 1) 0 := by
  intro fuel nodes enough within
  obtain ⟨fuel, rfl, left⟩ := exists_fuel enough
  rw [parseArray]
  refine bind_ok.mpr ⟨_, requireByte_ok.mpr ⟨opened, rfl⟩, ?_⟩
  refine bind_ok.mpr ⟨_, skipTrivia_complete trivia (.of_byte closed (by decide) (by decide)), ?_⟩
  rw [if_pos closed]
  rfl

theorem reads_someItems {start : Nat} (opened : bytes[first]? = some '('.toUInt8) (trivia : Trivia bytes (first + 1) start)
    (body : Derives bytes .items depth start last n) (read : Reads bytes .items depth start last n) :
    Reads bytes .array depth first last n := by
  intro fuel nodes enough within
  obtain ⟨fuel, rfl, left⟩ := exists_fuel enough
  have order := trivia.ordered
  have inside := lt_of_at opened
  rw [parseArray]
  refine bind_ok.mpr ⟨_, requireByte_ok.mpr ⟨opened, rfl⟩, ?_⟩
  refine bind_ok.mpr ⟨_, skipTrivia_complete trivia body.items_settled, ?_⟩
  rw [if_neg body.items_unclosed]
  exact read fuel nodes (by omega) within

theorem reads_lastItem {middle : Nat} (read : Reads bytes .value (depth + 1) first middle n) (trivia : Trivia bytes middle last)
    (closed : bytes[last]? = some ')'.toUInt8) : Reads bytes .items depth first (last + 1) n := by
  intro fuel nodes enough within
  obtain ⟨fuel, rfl, left⟩ := exists_fuel enough
  rw [parseItems]
  refine bind_ok.mpr ⟨_, read fuel nodes first left within .done, ?_⟩
  refine bind_ok.mpr ⟨_, skipTrivia_complete trivia (.of_byte closed (by decide) (by decide)), ?_⟩
  rw [if_pos closed]
  rfl

theorem reads_trailingComma {middle comma : Nat} (read : Reads bytes .value (depth + 1) first middle n)
    (trivia : Trivia bytes middle comma) (separated : bytes[comma]? = some ','.toUInt8)
    (after : Trivia bytes (comma + 1) last) (closed : bytes[last]? = some ')'.toUInt8) :
    Reads bytes .items depth first (last + 1) n := by
  intro fuel nodes enough within
  obtain ⟨fuel, rfl, left⟩ := exists_fuel enough
  rw [parseItems]
  refine bind_ok.mpr ⟨_, read fuel nodes first left within .done, ?_⟩
  refine bind_ok.mpr ⟨_, skipTrivia_complete trivia (.of_byte separated (by decide) (by decide)), ?_⟩
  rw [if_neg (by rw [separated]; decide)]
  refine bind_ok.mpr ⟨_, requireByte_ok.mpr ⟨separated, rfl⟩, ?_⟩
  refine bind_ok.mpr ⟨_, skipTrivia_complete after (.of_byte closed (by decide) (by decide)), ?_⟩
  rw [if_pos closed]
  rfl

theorem reads_item {middle comma next : Nat} (item : Derives bytes .value (depth + 1) first middle n)
    (readItem : Reads bytes .value (depth + 1) first middle n) (trivia : Trivia bytes middle comma)
    (separated : bytes[comma]? = some ','.toUInt8) (after : Trivia bytes (comma + 1) next)
    (more : Derives bytes .items depth next last m) (readMore : Reads bytes .items depth next last m) :
    Reads bytes .items depth first last (n + m) := by
  intro fuel nodes enough within
  obtain ⟨fuel, rfl, left⟩ := exists_fuel enough
  have itemOrder := item.ordered
  have triviaOrder := trivia.ordered
  have afterOrder := after.ordered
  have inside := lt_of_at separated
  rw [parseItems]
  refine bind_ok.mpr ⟨_, readItem fuel nodes first left (by omega) .done, ?_⟩
  refine bind_ok.mpr ⟨_, skipTrivia_complete trivia (.of_byte separated (by decide) (by decide)), ?_⟩
  rw [if_neg (by rw [separated]; decide)]
  refine bind_ok.mpr ⟨_, requireByte_ok.mpr ⟨separated, rfl⟩, ?_⟩
  refine bind_ok.mpr ⟨_, skipTrivia_complete after more.items_settled, ?_⟩
  rw [if_neg more.items_unclosed, ← Nat.add_assoc]
  exact readMore fuel (nodes + n) (by omega) (by omega)

theorem Derives.reads {piece : Piece} (valid : validUtf8 bytes) (derives : Derives bytes piece depth first last n) :
    Reads bytes piece depth first last n := by
  induction derives with
  | dictionary shallow opened distinct _ ih => exact reads_dictionary shallow opened distinct ih
  | noEntry trivia closed => exact reads_noEntry trivia closed
  | entry before text named trivia assigned gap given after closed _ readValue readMore =>
      exact reads_entry before text named trivia assigned gap given after closed valid readValue readMore
  | dictionaryValue shallow inner ih => exact reads_dictionaryValue shallow inner ih
  | arrayValue shallow inner ih => exact reads_arrayValue shallow inner ih
  | dataValue shallow inner => exact reads_dataValue shallow inner
  | textValue shallow inner => exact reads_textValue shallow inner valid
  | noItem opened trivia closed => exact reads_noItem opened trivia closed
  | someItems opened trivia body ih => exact reads_someItems opened trivia body ih
  | lastItem _ trivia closed ih => exact reads_lastItem ih trivia closed
  | trailingComma _ trivia separated after closed ih => exact reads_trailingComma ih trivia separated after closed
  | item item trivia separated after more ih readMore => exact reads_item item ih trivia separated after more readMore

end

end AppPilotKit.Adapter.Apple.Listing
