import AppPilotKit.Adapter.AppleGrammar

/-! # The tokens of the list

Strings, escapes and data are read as the grammar has them. Segments of a key begin after a byte
of ASCII and end at one, so they are well formed whenever the whole input is.
-/

namespace AppPilotKit.Adapter.Apple.Listing

open Wire Cbor Checks Scan

section
variable {bytes : Bytes} {first middle last : Nat} {b : UInt8}

theorem rejectIf_ok {wrong : Prop} [Decidable wrong] {done : Unit} : rejectIf wrong = .ok done ↔ ¬ wrong := by
  unfold rejectIf reject
  split <;> simp_all

theorem orReject_ok {α : Type} {o : Option α} {a : α} : orReject o = .ok a ↔ o = some a := by
  cases o <;> simp [orReject, reject]

theorem strictUtf8_ok {text value : Bytes} : strictUtf8 text = .ok value ↔ validUtf8 text ∧ text = value := by
  unfold strictUtf8 reject
  split <;> simp_all

theorem slice_ok {piece : Bytes} :
    slice bytes first last = .ok piece ↔ first ≤ last ∧ last ≤ bytes.length ∧ between bytes first last = piece := by
  rw [← part_some, slice]
  split <;> simp_all

theorem requireByte_ok : requireByte bytes first b = .ok last ↔ bytes[first]? = some b ∧ last = first + 1 := by
  unfold requireByte reject
  split <;> simp_all [eq_comm]

theorem charFromU32_ok {scalar : Nat} {c : Char} : charFromU32 scalar = .ok c ↔ c.toNat = scalar := by
  unfold charFromU32 reject
  split
  · next valid =>
      rw [Except.ok.injEq]
      constructor
      · rintro rfl
        rw [Char.toNat_ofNat, if_pos valid]
      · rintro rfl
        exact Char.ofNat_toNat c
  · next bad =>
      constructor
      · rintro ⟨⟩
      · rintro rfl
        exact absurd c.valid bad

/-! ## ASCII -/

theorem isFrom_small {low high : Char} (top : high.toNat < 0x80) (good : isFrom low high b) : b.toNat < 0x80 := by
  rw [isFrom, Bool.and_eq_true, decide_eq_true_eq, decide_eq_true_eq] at good
  omega

theorem isHexDigit_small (good : isHexDigit b) : b.toNat < 0x80 := by
  rw [isHexDigit, Bool.or_eq_true, Bool.or_eq_true] at good
  rcases good with (good | good) | good <;> exact isFrom_small (by decide) good

theorem isOctal_small (good : isOctal b) : b.toNat < 0x80 := isFrom_small (by decide) good

theorem isBare_small (good : isBare b) : b.toNat < 0x80 := by
  have others : ∀ b ∈ ['_'.toUInt8, '$'.toUInt8, '/'.toUInt8, ':'.toUInt8, '.'.toUInt8, '-'.toUInt8, '+'.toUInt8],
      b.toNat < 0x80 := by decide +kernel
  rw [isBare, Bool.or_eq_true, Bool.or_eq_true, Bool.or_eq_true] at good
  rcases good with ((good | good) | good) | good
  · exact isFrom_small (by decide) good
  · exact isFrom_small (by decide) good
  · exact isFrom_small (by decide) good
  · exact others b (of_decide_eq_true good)

/-- A byte of ASCII is just before `first`. -/
def Opened (bytes : Bytes) (first : Nat) : Prop := ∃ before b, first = before + 1 ∧ bytes[before]? = some b ∧ b.toNat < 0x80

theorem validUtf8_run {p : UInt8 → Bool} (run : Run bytes p first last) (small : ∀ b, p b → b.toNat < 0x80) :
    validUtf8 (between bytes first last) :=
  validUtf8_of_ascii fun b member => small b (run.all b member)

/-- Between two bytes of ASCII the input is well formed. -/
theorem validUtf8_between (valid : validUtf8 bytes) (opened : Opened bytes first) (closed : bytes[last]? = some b)
    (small : b.toNat < 0x80) (ordered : first ≤ last) : validUtf8 (between bytes first last) := by
  obtain ⟨before, a, rfl, atFirst, smallFirst⟩ := opened
  rw [← List.take_append_drop before bytes, drop_at atFirst] at valid
  have after := (validUtf8_around smallFirst valid).2
  rw [← between_drop ordered, drop_at closed] at after
  exact (validUtf8_around small after).1

/-! ## Escapes -/

theorem escapes_plain : ∀ pair ∈ escapes, isOctal pair.1 = false ∧ pair.1 ≠ 'U'.toUInt8 := by decide

theorem lookup_octal (octal : isOctal b) : escapes.lookup b = none := by
  rw [List.lookup_eq_none_iff]
  rintro pair member
  rw [bne_iff_ne]
  rintro rfl
  exact absurd octal (by rw [(escapes_plain pair member).1]; decide)

theorem octalDigits_run {count scalar : Nat} (inside : first ≤ bytes.length) :
    ∃ last, octalDigits bytes count scalar first =
        ((between bytes first last).foldl (fun n b => n * 8 + (b.toNat - '0'.toNat)) scalar, last) ∧
      Run bytes isOctal first last ∧ last ≤ first + count ∧
      (last = first + count ∨ ∀ b, bytes[last]? = some b → isOctal b = false) := by
  fun_induction octalDigits bytes count scalar first with
  | case1 scalar cursor => exact ⟨cursor, by rw [between_self]; rfl, .refl inside, le_rfl, .inl rfl⟩
  | case2 scalar cursor count next here octal ih =>
      obtain ⟨last, same, run, few, all⟩ := ih (lt_of_at here)
      refine ⟨last, ?_, .cons here octal run, by omega, all.imp_left (by omega)⟩
      rw [same, between_at here run.ordered]
      rfl
  | case3 count scalar cursor next here other =>
      refine ⟨cursor, by rw [between_self]; rfl, .refl inside, by omega, .inr fun b there => ?_⟩
      cases here.symm.trans there
      exact Bool.not_eq_true _ ▸ other
  | case4 count scalar cursor gone =>
      refine ⟨cursor, by rw [between_self]; rfl, .refl inside, by omega, .inr fun b there => ?_⟩
      cases gone.symm.trans there

theorem octal_value {digits : Bytes} : octalNumber (b :: digits) =
    digits.foldl (fun n b => n * 8 + (b.toNat - '0'.toNat)) (b.toNat - '0'.toNat) := by
  rw [octalNumber, List.foldl_cons, Nat.zero_mul, Nat.zero_add]

theorem unicodeEscape_ok {escaped : Char} : unicodeEscape bytes first = .ok (escaped, last) ↔
    last = first + 4 ∧ Run bytes isHexDigit first last ∧ escaped.toNat = hexNumber (between bytes first last) := by
  constructor
  · intro parsed
    obtain ⟨digits, found, parsed⟩ := bind_ok.mp parsed
    obtain ⟨_, hex, parsed⟩ := bind_ok.mp parsed
    obtain ⟨text, valid, parsed⟩ := bind_ok.mp parsed
    obtain ⟨c, value, parsed⟩ := bind_ok.mp parsed
    cases parsed
    obtain ⟨ordered, inside, rfl⟩ := part_some.mp (orReject_ok.mp found)
    obtain ⟨-, rfl⟩ := strictUtf8_ok.mp valid
    have all := List.all_eq_true.mp (Bool.not_eq_false _ ▸ rejectIf_ok.mp hex)
    exact ⟨rfl, ⟨ordered, inside, all⟩, charFromU32_ok.mp value⟩
  · rintro ⟨rfl, digits, value⟩
    have all : (between bytes first (first + 4)).all isHexDigit := List.all_eq_true.mpr digits.all
    refine bind_ok.mpr ⟨_, orReject_ok.mpr (part_some.mpr ⟨digits.ordered, digits.inside, rfl⟩), ?_⟩
    refine bind_ok.mpr ⟨(), rejectIf_ok.mpr (by rw [all]; decide), ?_⟩
    refine bind_ok.mpr ⟨_, strictUtf8_ok.mpr ⟨validUtf8_run digits fun _ => isHexDigit_small, rfl⟩, ?_⟩
    exact bind_ok.mpr ⟨_, charFromU32_ok.mpr value, rfl⟩

theorem octalEscape_ok {escaped : Char} (inside : first ≤ bytes.length) : octalEscape bytes b first = .ok (escaped, last) ↔
    Run bytes isOctal first last ∧ last ≤ first + 2 ∧ (last = first + 2 ∨ ∀ b, bytes[last]? = some b → isOctal b = false) ∧
      escaped.toNat = (between bytes first last).foldl (fun n b => n * 8 + (b.toNat - '0'.toNat)) (b.toNat - '0'.toNat) := by
  obtain ⟨stop, same, run, few, all⟩ := @octalDigits_run bytes first 2 (b.toNat - '0'.toNat) inside
  rw [octalEscape, same]
  constructor
  · intro parsed
    obtain ⟨c, value, parsed⟩ := bind_ok.mp parsed
    cases parsed
    exact ⟨run, few, all, charFromU32_ok.mp value⟩
  · rintro ⟨run', few', all', value⟩
    have atMost : last ≤ stop := all.elim (fun full => full ▸ few') (run'.le_of_stops run.ordered)
    have atLeast : stop ≤ last := all'.elim (fun full => full ▸ few) (run.le_of_stops run'.ordered)
    cases Nat.le_antisymm atMost atLeast
    exact bind_ok.mpr ⟨_, charFromU32_ok.mpr value, rfl⟩

theorem parseEscape_ok {escaped : Char} : parseEscape bytes first = .ok (escaped, last) ↔ Escape bytes first last escaped := by
  constructor
  · intro parsed
    obtain ⟨b, found, parsed⟩ := bind_ok.mp parsed
    have here := orReject_ok.mp found
    split at parsed
    · next known =>
        cases parsed
        exact .letter here known
    split at parsed
    · next isU =>
        obtain ⟨rfl, digits, value⟩ := unicodeEscape_ok.mp parsed
        exact .unicode (isU ▸ here) digits value
    split at parsed
    · next octal =>
        obtain ⟨run, few, all, value⟩ := (octalEscape_ok (lt_of_at here)).mp parsed
        refine .octal (.cons here octal run) run.ordered (by omega) (all.imp_left (by omega)) ?_
        rw [value, between_at here run.ordered, octal_value]
    · cases parsed
  · intro escape
    cases escape with
    | letter here known =>
        refine bind_ok.mpr ⟨_, orReject_ok.mpr here, ?_⟩
        rw [known]
        rfl
    | unicode here digits value =>
        refine bind_ok.mpr ⟨_, orReject_ok.mpr here, ?_⟩
        exact unicodeEscape_ok.mpr ⟨rfl, digits, value⟩
    | octal digits nonempty few all value =>
        rcases digits.cases with same | ⟨b, here, octal, rest⟩
        · omega
        refine bind_ok.mpr ⟨b, orReject_ok.mpr here, ?_⟩
        have notU : b ≠ 'U'.toUInt8 := by
          rintro rfl
          exact absurd octal (by decide)
        rw [lookup_octal octal, if_neg notU, if_pos octal]
        refine (octalEscape_ok (lt_of_at here)).mpr ⟨rest, by omega, all.imp_left (by omega), ?_⟩
        rw [value, between_at here nonempty, octal_value]

/-! ## Quoted strings -/

theorem Escape.ordered {escaped : Char} (escape : Escape bytes first last escaped) : first < last := by
  cases escape with
  | letter | unicode => omega
  | octal _ nonempty => exact nonempty

/-- The last byte of an escape is ASCII. -/
theorem Escape.opened {escaped : Char} (escape : Escape bytes first last escaped) : Opened bytes last := by
  cases escape with
  | letter here known =>
      have small : ∀ pair ∈ escapes, pair.1.toNat < 0x80 := by decide
      obtain ⟨_, _, split, -⟩ := List.lookup_eq_some_iff.mp known
      exact ⟨_, _, rfl, here, small _ (split ▸ List.mem_append_right _ List.mem_cons_self)⟩
  | unicode _ digits =>
      obtain ⟨b, here, hex⟩ := digits.at (show first + 1 ≤ first + 1 + 3 by omega) (by omega)
      exact ⟨_, b, rfl, here, isHexDigit_small hex⟩
  | octal digits nonempty =>
      obtain ⟨b, here, octal⟩ := digits.at (show first ≤ last - 1 by omega) (by omega)
      exact ⟨_, b, by omega, here, isOctal_small octal⟩

theorem Content.ordered {text : Bytes} (content : Content bytes first last text) : first < last := by
  induction content with
  | close => omega
  | escape _ escape _ ih => have := escape.ordered; omega
  | byte _ _ _ _ _ ih => omega

theorem Content.inside {text : Bytes} (content : Content bytes first last text) : last ≤ bytes.length := by
  induction content with
  | close here => exact lt_of_at here
  | escape _ _ _ ih => exact ih
  | byte _ _ _ _ _ ih => exact ih

/-- What a quoted string comes to, after what was captured up to `segment`. -/
def gathered (bytes : Bytes) (captured : Option Bytes) (segment cursor : Nat) (text : Bytes) : Bytes :=
  (captured.map (· ++ between bytes segment cursor ++ text)).getD []

theorem pushSegment_ok {captured pushed : Option Bytes} :
    pushSegment bytes captured first last = .ok pushed → pushed = captured.map (· ++ between bytes first last) := by
  cases captured with
  | none =>
      rintro ⟨⟩
      rfl
  | some value =>
      intro done
      obtain ⟨piece, sliced, done⟩ := bind_ok.mp done
      obtain ⟨text, valid, done⟩ := bind_ok.mp done
      cases done
      obtain ⟨-, -, rfl⟩ := slice_ok.mp sliced
      obtain ⟨-, rfl⟩ := strictUtf8_ok.mp valid
      rfl

theorem pushSegment_done {captured : Option Bytes} (ordered : first ≤ last) (inside : last ≤ bytes.length)
    (valid : validUtf8 (between bytes first last)) :
    pushSegment bytes captured first last = .ok (captured.map (· ++ between bytes first last)) := by
  cases captured with
  | none => rfl
  | some value =>
      refine bind_ok.mpr ⟨_, slice_ok.mpr ⟨ordered, inside, rfl⟩, ?_⟩
      exact bind_ok.mpr ⟨_, strictUtf8_ok.mpr ⟨valid, rfl⟩, rfl⟩

theorem gathered_byte {captured : Option Bytes} {segment cursor : Nat} {text : Bytes} (here : bytes[cursor]? = some b)
    (ordered : segment ≤ cursor) :
    gathered bytes captured segment (cursor + 1) text = gathered bytes captured segment cursor (b :: text) := by
  simp only [gathered, between_snoc here ordered, List.append_assoc, List.singleton_append]

theorem gathered_escape {captured : Option Bytes} {segment cursor next : Nat} {front text : Bytes} :
    gathered bytes ((captured.map (· ++ between bytes segment cursor)).map (· ++ front)) next next text =
      gathered bytes captured segment cursor (front ++ text) := by
  simp only [gathered, Option.map_map, between_self, List.append_nil, Function.comp_def, List.append_assoc]

theorem gathered_nil {captured : Option Bytes} {segment cursor : Nat} :
    (captured.map (· ++ between bytes segment cursor)).getD [] = gathered bytes captured segment cursor [] := by
  simp only [gathered, List.append_nil]

theorem quoted_sound {capture : Bool} {captured : Option Bytes} {segment cursor : Nat} {value : Bytes}
    (ordered : segment ≤ cursor) (parsed : quoted bytes capture segment captured cursor = .ok (value, last)) :
    ∃ text, Content bytes cursor last text ∧ value = gathered bytes captured segment cursor text ∧
      ¬ (capture ∧ value = []) := by
  fun_induction quoted bytes capture segment captured cursor with
  | case1 segment captured cursor inside b quote =>
      obtain ⟨pushed, done, parsed⟩ := bind_ok.mp parsed
      obtain ⟨_, fine, parsed⟩ := bind_ok.mp parsed
      cases parsed
      cases pushSegment_ok done
      have here : bytes[cursor]? = some '"'.toUInt8 := quote ▸ List.getElem?_eq_getElem inside
      exact ⟨[], .close here, gathered_nil, rejectIf_ok.mp fine⟩
  | case2 segment captured cursor inside b noQuote escape ih =>
      obtain ⟨pushed, done, parsed⟩ := bind_ok.mp parsed
      cases pushSegment_ok done
      have here : bytes[cursor]? = some '\\'.toUInt8 := escape ▸ List.getElem?_eq_getElem inside
      split at parsed
      · next escaped next taken =>
          obtain ⟨text, content, value, fine⟩ := ih _ _ _ taken le_rfl parsed
          exact ⟨_, .escape here (parseEscape_ok.mp taken) content, value.trans gathered_escape, fine⟩
      · cases parsed
  | case3 => cases parsed
  | case4 segment captured cursor inside b noQuote noEscape printed ih =>
      have here : bytes[cursor]? = some b := List.getElem?_eq_getElem inside
      obtain ⟨text, content, value, fine⟩ := ih (by omega) parsed
      exact ⟨_, .byte here noQuote noEscape printed content, value.trans (gathered_byte here ordered), fine⟩
  | case5 => cases parsed

/-- What the grammar allows inside the quotes is read, as the segments are well formed. -/
theorem quoted_complete {capture : Bool} {captured : Option Bytes} {segment cursor : Nat} {text : Bytes}
    (valid : validUtf8 bytes) (opened : Opened bytes segment) (ordered : segment ≤ cursor)
    (content : Content bytes cursor last text) (fine : ¬ (capture ∧ gathered bytes captured segment cursor text = [])) :
    quoted bytes capture segment captured cursor = .ok (gathered bytes captured segment cursor text, last) := by
  induction content generalizing segment captured with
  | close here =>
      obtain ⟨inside, same⟩ := List.getElem?_eq_some_iff.mp here
      have piece := validUtf8_between valid opened here (by decide) ordered
      rw [quoted, dif_pos inside]
      dsimp only
      rw [if_pos same, ← gathered_nil]
      rw [← gathered_nil] at fine
      refine bind_ok.mpr ⟨_, pushSegment_done ordered (Nat.le_of_lt inside) piece, ?_⟩
      exact bind_ok.mpr ⟨(), rejectIf_ok.mpr fine, rfl⟩
  | escape here escape _ ih =>
      obtain ⟨inside, same⟩ := List.getElem?_eq_some_iff.mp here
      have piece := validUtf8_between valid opened here (by decide) ordered
      rw [quoted, dif_pos inside]
      dsimp only
      rw [if_neg (by rw [same]; decide), if_pos same]
      refine bind_ok.mpr ⟨_, pushSegment_done ordered (Nat.le_of_lt inside) piece, ?_⟩
      have taken := parseEscape_ok.mpr escape
      split
      · next next found =>
          cases taken.symm.trans found
          rw [← gathered_escape] at fine ⊢
          exact ih escape.opened le_rfl fine
      · next stop found => cases taken.symm.trans found
  | byte here noQuote noEscape printed _ ih =>
      obtain ⟨inside, same⟩ := List.getElem?_eq_some_iff.mp here
      rw [quoted, dif_pos inside]
      dsimp only
      rw [if_neg (same ▸ noQuote), if_neg (same ▸ noEscape), if_neg (same ▸ printed)]
      rw [← gathered_byte here ordered] at fine ⊢
      exact ih opened (by omega) fine

/-! ## Strings -/

theorem Text.ordered {text : Bytes} (reads : Text bytes first last text) : first < last := by
  cases reads with
  | quoted _ content => have := content.ordered; omega
  | bare _ nonempty => exact nonempty

theorem Text.inside {text : Bytes} (reads : Text bytes first last text) : last ≤ bytes.length := by
  cases reads with
  | quoted _ content => exact content.inside
  | bare run => exact run.inside

theorem isBare_dark (good : isBare b) : isAsciiWhitespace b = false := by
  have spaces : ∀ b ∈ [' '.toUInt8, '\t'.toUInt8, '\n'.toUInt8, '\x0c'.toUInt8, '\r'.toUInt8], isBare b = false := by
    decide +kernel
  refine Bool.eq_false_iff.mpr fun space => ?_
  exact Bool.noConfusion (good.symm.trans (spaces b (of_decide_eq_true space)))

theorem Text.settled {text : Bytes} (reads : Text bytes first last text) : Settled bytes first := by
  cases reads with
  | quoted here => exact .of_byte here (by decide) (by decide)
  | bare run nonempty line block =>
      refine ⟨fun b here => ?_, line, block⟩
      obtain ⟨b', there, good⟩ := run.at le_rfl nonempty
      cases here.symm.trans there
      exact isBare_dark good

theorem gathered_start {capture : Bool} {text : Bytes} :
    gathered bytes (if capture then some [] else none) first first text = if capture then text else [] := by
  cases capture
  · rfl
  · simp [gathered]

theorem bare_ok {capture : Bool} {value : Bytes} (inside : first ≤ bytes.length) : bare bytes capture first = .ok (value, last) ↔
    Longest bytes isBare first last ∧ first < last ∧ value = if capture then between bytes first last else [] := by
  have longest := advanceWhile_longest (p := isBare) first inside
  constructor
  · intro parsed
    obtain ⟨_, moved, parsed⟩ := bind_ok.mp parsed
    obtain ⟨piece, sliced, parsed⟩ := bind_ok.mp parsed
    obtain ⟨text, valid, parsed⟩ := bind_ok.mp parsed
    cases parsed
    obtain ⟨-, -, rfl⟩ := slice_ok.mp sliced
    obtain ⟨-, rfl⟩ := strictUtf8_ok.mp valid
    exact ⟨longest, Nat.lt_of_le_of_ne longest.ordered (rejectIf_ok.mp moved), rfl⟩
  · rintro ⟨run, nonempty, rfl⟩
    rw [bare, run.advanceWhile]
    refine bind_ok.mpr ⟨(), rejectIf_ok.mpr (by omega), ?_⟩
    refine bind_ok.mpr ⟨_, slice_ok.mpr ⟨run.ordered, run.inside, rfl⟩, ?_⟩
    exact bind_ok.mpr ⟨_, strictUtf8_ok.mpr ⟨validUtf8_run run.toRun fun _ => isBare_small, rfl⟩, rfl⟩

/-- A string that is read derives, and a key is not empty. -/
theorem parseString_sound {capture : Bool} {value : Bytes} {start : Nat} (inside : start ≤ bytes.length)
    (parsed : parseString bytes capture start = .ok (value, last)) :
    ∃ first text, Trivia bytes start first ∧ Text bytes first last text ∧ (capture → value = text ∧ text ≠ []) := by
  obtain ⟨first, skipped, parsed⟩ := bind_ok.mp parsed
  have trivia := skipTrivia_sound inside skipped
  have settled := skipTrivia_settled inside skipped
  split at parsed
  · next here =>
      obtain ⟨text, content, same, fine⟩ := quoted_sound le_rfl parsed
      rw [gathered_start] at same
      refine ⟨first, text, trivia, .quoted here content, fun captured => ?_⟩
      rw [if_pos captured] at same
      exact ⟨same, fun empty => fine ⟨captured, same.trans empty⟩⟩
  · obtain ⟨run, nonempty, same⟩ := (bare_ok (trivia.inside inside)).mp parsed
    refine ⟨first, _, trivia, .bare run nonempty settled.line settled.block, fun captured => ?_⟩
    rw [if_pos captured] at same
    refine ⟨same, List.ne_nil_of_length_pos ?_⟩
    rw [length_between run.ordered run.inside]
    omega

theorem parseString_complete {capture : Bool} {text : Bytes} {start : Nat} (valid : validUtf8 bytes)
    (trivia : Trivia bytes start first) (reads : Text bytes first last text) (named : capture → text ≠ []) :
    parseString bytes capture start = .ok (if capture then text else [], last) := by
  refine bind_ok.mpr ⟨first, skipTrivia_complete trivia reads.settled, ?_⟩
  cases reads with
  | quoted here content =>
      rw [if_pos here, ← gathered_start]
      refine quoted_complete valid ⟨first, _, rfl, here, by decide⟩ le_rfl content ?_
      rw [gathered_start]
      rintro ⟨captured, empty⟩
      rw [if_pos captured] at empty
      exact named captured empty
  | bare run nonempty line block =>
      have unquoted : bytes[first]? ≠ some '"'.toUInt8 := by
        intro here
        obtain ⟨b, there, good⟩ := run.at le_rfl nonempty
        cases here.symm.trans there
        exact absurd good (by decide)
      rw [if_neg unquoted]
      exact (bare_ok (Nat.le_of_lt (Nat.lt_of_lt_of_le nonempty run.inside))).mpr ⟨run, nonempty, rfl⟩

/-! ## Data -/

/-- The body of data after `digits` digits, up to its end. -/
structure DataRest (bytes : Bytes) (digits first last : Nat) : Prop where
  body : Run bytes inData first last
  even : (digits + (between bytes first last).countP isHexDigit) % 2 = 0
  closed : bytes[last]? = some '>'.toUInt8

theorem DataRest.next {digits : Nat} (here : bytes[first]? = some b) (inside : b ≠ '>'.toUInt8) :
    DataRest bytes digits first last ↔
      inData b ∧ DataRest bytes (if isHexDigit b then digits + 1 else digits) (first + 1) last := by
  have count (before : first < last) : digits + (between bytes first last).countP isHexDigit =
      (if isHexDigit b then digits + 1 else digits) + (between bytes (first + 1) last).countP isHexDigit := by
    rw [between_at here before, List.countP_cons]
    split <;> omega
  constructor
  · intro rest
    rcases rest.body.cases with rfl | ⟨b', there, good, body⟩
    · exact absurd (Option.some.inj (here.symm.trans rest.closed)) inside
    · cases here.symm.trans there
      exact ⟨good, body, count body.ordered ▸ rest.even, rest.closed⟩
  · rintro ⟨good, rest⟩
    exact ⟨.cons here good rest.body, (count rest.body.ordered).symm ▸ rest.even, rest.closed⟩

theorem dataRest_ok {digits : Nat} : dataRest bytes digits first = .ok last ↔ ∃ stop, last = stop + 1 ∧ DataRest bytes digits first stop := by
  fun_induction dataRest bytes digits first with
  | case1 digits cursor inside b close =>
      have here : bytes[cursor]? = some b := List.getElem?_eq_getElem inside
      constructor
      · rintro ⟨⟩
        exact ⟨cursor, rfl, .refl (Nat.le_of_lt inside), by simpa using close.2, close.1 ▸ here⟩
      · rintro ⟨stop, rfl, rest⟩
        rcases rest.body.cases with rfl | ⟨b', there, good, -⟩
        · rfl
        · cases here.symm.trans there
          exact absurd good (by rw [close.1]; decide)
  | case2 digits cursor inside b unclosed hex ih =>
      have here : bytes[cursor]? = some b := List.getElem?_eq_getElem inside
      have inner : b ≠ '>'.toUInt8 := fun same => absurd hex (by rw [same]; decide)
      rw [ih]
      simp only [DataRest.next here inner, inData, hex, Bool.true_or, true_and, if_true]
  | case3 digits cursor inside b unclosed other space ih =>
      have here : bytes[cursor]? = some b := List.getElem?_eq_getElem inside
      have inner : b ≠ '>'.toUInt8 := fun same => absurd space (by rw [same]; decide)
      rw [ih]
      simp only [DataRest.next here inner, inData, space, Bool.or_true, true_and, if_neg other]
  | case4 digits cursor inside b unclosed other space =>
      have here : bytes[cursor]? = some b := List.getElem?_eq_getElem inside
      constructor
      · rintro ⟨⟩
      · rintro ⟨stop, -, rest⟩
        rcases rest.body.cases with rfl | ⟨b', there, good, -⟩
        · refine absurd ⟨Option.some.inj (here.symm.trans rest.closed), ?_⟩ unclosed
          simpa using rest.even
        · cases here.symm.trans there
          exact (Bool.or_eq_true_iff.mp good).elim other.elim space.elim
  | case5 digits cursor past =>
      constructor
      · rintro ⟨⟩
      · rintro ⟨stop, -, rest⟩
        exact absurd (Nat.lt_of_le_of_lt rest.body.ordered (lt_of_at rest.closed)) past

theorem parseData_ok : parseData bytes first = .ok last ↔ Data bytes first last := by
  constructor
  · intro parsed
    obtain ⟨cursor, required, parsed⟩ := bind_ok.mp parsed
    obtain ⟨opened, rfl⟩ := requireByte_ok.mp required
    obtain ⟨stop, rfl, body, even, closed⟩ := dataRest_ok.mp parsed
    exact .intro opened body (by rwa [Nat.zero_add] at even) closed
  · rintro ⟨opened, body, even, closed⟩
    refine bind_ok.mpr ⟨_, requireByte_ok.mpr ⟨opened, rfl⟩, ?_⟩
    exact dataRest_ok.mpr ⟨_, rfl, body, by rwa [Nat.zero_add], closed⟩

end

end AppPilotKit.Adapter.Apple.Listing
