import AppPilotKit.Adapter.AppleListing

/-! # The grammar of the list

What the list of apps has to look like, over the positions of its bytes: `Text bytes first last
text` says that the bytes from `first` to before `last` are a string with the value `text`. A
bare string is a longest run, as is the body of a line comment, and a block comment ends at its
first `*/`. The functions that read the tokens are then tied to it.
-/

namespace AppPilotKit.Adapter.Apple.Listing

open Wire Scan

/-! ## The grammar -/

def inData (b : UInt8) : Bool := isHexDigit b || isAsciiWhitespace b

def hexNumber (digits : Bytes) : Nat := digits.foldl (fun n b => n * 16 + hexValue b) 0

def octalNumber (digits : Bytes) : Nat := digits.foldl (fun n b => n * 8 + (b.toNat - '0'.toNat)) 0

section
variable (bytes : Bytes)

/-- The first `*/` from `first` on stands at `last`. -/
structure Comment (first last : Nat) : Prop where
  ordered : first ≤ last
  closed : part bytes last (last + 2) = some blockEnd
  earliest : ∀ i, first ≤ i → i < last → part bytes i (i + 2) ≠ some blockEnd

inductive Trivia : Nat → Nat → Prop where
  | done {first : Nat} : Trivia first first
  | space {first last : Nat} {b : UInt8} (here : bytes[first]? = some b) (space : isAsciiWhitespace b)
      (more : Trivia (first + 1) last) : Trivia first last
  | line {first middle last : Nat} (opened : part bytes first (first + 2) = some lineComment)
      (body : Longest bytes inLine (first + 2) middle) (more : Trivia middle last) : Trivia first last
  | block {first middle last : Nat} (opened : part bytes first (first + 2) = some blockComment)
      (body : Comment bytes (first + 2) middle) (more : Trivia (middle + 2) last) : Trivia first last

/-- What follows a backslash. -/
inductive Escape : Nat → Nat → Char → Prop where
  | letter {first : Nat} {b : UInt8} {escaped : Char} (here : bytes[first]? = some b)
      (known : escapes.lookup b = some escaped) : Escape first (first + 1) escaped
  | unicode {first : Nat} {escaped : Char} (here : bytes[first]? = some 'U'.toUInt8)
      (digits : Run bytes isHexDigit (first + 1) (first + 1 + 4))
      (value : escaped.toNat = hexNumber (between bytes (first + 1) (first + 1 + 4))) : Escape first (first + 1 + 4) escaped
  | octal {first last : Nat} {escaped : Char} (digits : Run bytes isOctal first last) (nonempty : first < last)
      (few : last ≤ first + 3) (all : last = first + 3 ∨ ∀ b, bytes[last]? = some b → isOctal b = false)
      (value : escaped.toNat = octalNumber (between bytes first last)) : Escape first last escaped

/-- The inside of a quoted string, with the quote that closes it. -/
inductive Content : Nat → Nat → Bytes → Prop where
  | close {first : Nat} (here : bytes[first]? = some '"'.toUInt8) : Content first (first + 1) []
  | escape {first middle last : Nat} {escaped : Char} {text : Bytes} (here : bytes[first]? = some '\\'.toUInt8)
      (escape : Escape bytes (first + 1) middle escaped) (more : Content middle last text) :
      Content first last (String.utf8EncodeChar escaped ++ text)
  | byte {first last : Nat} {b : UInt8} {text : Bytes} (here : bytes[first]? = some b) (quote : b ≠ '"'.toUInt8)
      (escape : b ≠ '\\'.toUInt8) (printed : ¬ b ≤ 0x1f) (more : Content (first + 1) last text) :
      Content first last (b :: text)

inductive Text : Nat → Nat → Bytes → Prop where
  | quoted {first last : Nat} {text : Bytes} (here : bytes[first]? = some '"'.toUInt8)
      (content : Content bytes (first + 1) last text) : Text first last text
  | bare {first last : Nat} (run : Longest bytes isBare first last) (nonempty : first < last)
      (line : part bytes first (first + 2) ≠ some lineComment)
      (block : part bytes first (first + 2) ≠ some blockComment) : Text first last (between bytes first last)

inductive Data : Nat → Nat → Prop where
  | intro {first last : Nat} (opened : bytes[first]? = some '<'.toUInt8) (body : Run bytes inData (first + 1) last)
      (even : (between bytes (first + 1) last).countP isHexDigit % 2 = 0) (closed : bytes[last]? = some '>'.toUInt8) :
      Data first (last + 1)

end

/-- The pieces of a list; a dictionary has keys, and so have the entries that are left of it. -/
inductive Piece where
  | dictionary (keys : List Bytes)
  | entries (keys : List Bytes)
  | value
  | array
  | items

open Piece in
/-- `Derives bytes piece depth first last nodes`: what stands from `first` to before `last` is
    such a piece, at a depth, and takes that many nodes. -/
inductive Derives (bytes : Bytes) : Piece → Nat → Nat → Nat → Nat → Prop where
  | dictionary {keys : List Bytes} {depth first last nodes : Nat} (shallow : depth ≤ openStepDepthCap)
      (opened : bytes[first]? = some '\x7b'.toUInt8) (distinct : keys.Nodup)
      (body : Derives bytes (entries keys) depth (first + 1) last nodes) :
      Derives bytes (dictionary keys) depth first last (nodes + 1)
  | noEntry {depth first last : Nat} (trivia : Trivia bytes first last) (closed : bytes[last]? = some '\x7d'.toUInt8) :
      Derives bytes (entries []) depth first (last + 1) 0
  | entry {key : Bytes} {keys : List Bytes} {depth first start afterKey equals value afterValue semicolon last n m : Nat}
      (before : Trivia bytes first start) (text : Text bytes start afterKey key) (named : key ≠ [])
      (trivia : Trivia bytes afterKey equals) (assigned : bytes[equals]? = some '='.toUInt8)
      (gap : Trivia bytes (equals + 1) value) (given : Derives bytes Piece.value (depth + 1) value afterValue n)
      (after : Trivia bytes afterValue semicolon) (closed : bytes[semicolon]? = some ';'.toUInt8)
      (more : Derives bytes (entries keys) depth (semicolon + 1) last m) :
      Derives bytes (entries (key :: keys)) depth first last (n + m)
  | dictionaryValue {keys : List Bytes} {depth first last nodes : Nat} (shallow : depth ≤ openStepDepthCap)
      (inner : Derives bytes (dictionary keys) depth first last nodes) : Derives bytes value depth first last (nodes + 1)
  | arrayValue {depth first last nodes : Nat} (shallow : depth ≤ openStepDepthCap)
      (inner : Derives bytes array depth first last nodes) : Derives bytes value depth first last (nodes + 1)
  | dataValue {depth first last : Nat} (shallow : depth ≤ openStepDepthCap) (inner : Data bytes first last) :
      Derives bytes value depth first last 1
  | textValue {text : Bytes} {depth first last : Nat} (shallow : depth ≤ openStepDepthCap)
      (inner : Text bytes first last text) : Derives bytes value depth first last 1
  | noItem {depth first last : Nat} (opened : bytes[first]? = some '('.toUInt8) (trivia : Trivia bytes (first + 1) last)
      (closed : bytes[last]? = some ')'.toUInt8) : Derives bytes array depth first (last + 1) 0
  | someItems {depth first start last nodes : Nat} (opened : bytes[first]? = some '('.toUInt8)
      (trivia : Trivia bytes (first + 1) start) (body : Derives bytes items depth start last nodes) :
      Derives bytes array depth first last nodes
  | lastItem {depth first middle last nodes : Nat} (item : Derives bytes value (depth + 1) first middle nodes)
      (trivia : Trivia bytes middle last) (closed : bytes[last]? = some ')'.toUInt8) :
      Derives bytes items depth first (last + 1) nodes
  | trailingComma {depth first middle comma last nodes : Nat} (item : Derives bytes value (depth + 1) first middle nodes)
      (trivia : Trivia bytes middle comma) (separated : bytes[comma]? = some ','.toUInt8)
      (after : Trivia bytes (comma + 1) last) (closed : bytes[last]? = some ')'.toUInt8) :
      Derives bytes items depth first (last + 1) nodes
  | item {depth first middle comma next last n m : Nat} (item : Derives bytes value (depth + 1) first middle n)
      (trivia : Trivia bytes middle comma) (separated : bytes[comma]? = some ','.toUInt8)
      (after : Trivia bytes (comma + 1) next) (more : Derives bytes items depth next last m) :
      Derives bytes items depth first last (n + m)

/-- The bytes are one dictionary with these keys, within the budget of nodes. -/
def Lists (bytes : Bytes) (keys : List Bytes) : Prop :=
  ∃ first last nodes, Trivia bytes 0 first ∧ Derives bytes (.dictionary keys) 0 first last nodes ∧
    Trivia bytes last bytes.length ∧ nodes ≤ openStepNodeCap

/-! ## Trivia -/

section
variable {bytes : Bytes} {first middle last : Nat} {b : UInt8}

/-- Neither whitespace nor a comment begins here. -/
structure Settled (bytes : Bytes) (first : Nat) : Prop where
  dark : ∀ b, bytes[first]? = some b → isAsciiWhitespace b = false
  line : part bytes first (first + 2) ≠ some lineComment
  block : part bytes first (first + 2) ≠ some blockComment

theorem Settled.of_byte (here : bytes[first]? = some b) (dark : isAsciiWhitespace b = false) (noSlash : b ≠ '/'.toUInt8) :
    Settled bytes first where
  dark other there := by
    rw [here, Option.some.injEq] at there
    exact there ▸ dark
  line opened := noSlash (Option.some.inj (here.symm.trans (part_pair.mp opened).1))
  block opened := noSlash (Option.some.inj (here.symm.trans (part_pair.mp opened).1))

theorem Settled.of_end : Settled bytes bytes.length where
  dark b there := absurd (lt_of_at there) (lt_irrefl _)
  line opened := absurd (part_some.mp opened).2.1 (by omega)
  block opened := absurd (part_some.mp opened).2.1 (by omega)

theorem closeComment_some {next : Nat} : closeComment bytes first = some next ↔ ∃ last, Comment bytes first last ∧ next = last + 2 := by
  fun_induction closeComment bytes first with
  | case1 cursor before found =>
      constructor
      · rintro ⟨rfl⟩
        exact ⟨cursor, ⟨le_rfl, found, fun i early late => absurd late (by omega)⟩, rfl⟩
      · rintro ⟨last, comment, rfl⟩
        rcases Nat.eq_or_lt_of_le comment.ordered with same | later
        · rw [same]
        · exact absurd found (comment.earliest cursor le_rfl later)
  | case2 cursor before other ih =>
      rw [ih]
      constructor
      · rintro ⟨last, comment, rfl⟩
        refine ⟨last, ⟨by have := comment.ordered; omega, comment.closed, fun i early late => ?_⟩, rfl⟩
        rcases Nat.eq_or_lt_of_le early with rfl | later
        · exact other
        · exact comment.earliest i later late
      · rintro ⟨last, comment, rfl⟩
        rcases Nat.eq_or_lt_of_le comment.ordered with rfl | later
        · exact absurd comment.closed other
        · exact ⟨last, ⟨later, comment.closed, fun i early late => comment.earliest i (by omega) late⟩, rfl⟩
  | case3 cursor past =>
      constructor
      · rintro ⟨⟩
      · rintro ⟨last, comment, -⟩
        have := comment.ordered
        have := (part_some.mp comment.closed).2.1
        omega

theorem Trivia.append (front : Trivia bytes first middle) (back : Trivia bytes middle last) : Trivia bytes first last := by
  induction front with
  | done => exact back
  | space here space _ ih => exact .space here space (ih back)
  | line opened body _ ih => exact .line opened body (ih back)
  | block opened body _ ih => exact .block opened body (ih back)

theorem Trivia.of_run (run : Run bytes isAsciiWhitespace first last) : Trivia bytes first last := by
  obtain ⟨gap, same⟩ := Nat.exists_eq_add_of_le run.ordered
  induction gap generalizing first with
  | zero => exact same ▸ .done
  | succ gap ih =>
      rcases run.cases with done | ⟨b, here, space, rest⟩
      · omega
      · exact .space here space (ih rest (by omega))

theorem Trivia.ordered (trivia : Trivia bytes first last) : first ≤ last := by
  induction trivia with
  | done => exact le_rfl
  | space _ _ _ ih => omega
  | line _ body _ ih => have := body.ordered; omega
  | block _ body _ ih => have := body.ordered; omega

theorem Trivia.inside (trivia : Trivia bytes first last) (inside : first ≤ bytes.length) : last ≤ bytes.length := by
  induction trivia with
  | done => exact inside
  | space here _ _ ih => exact ih (lt_of_at here)
  | line _ body _ ih => exact ih body.inside
  | block _ body _ ih => exact ih (part_some.mp body.closed).2.1

theorem skipTrivia_sound (inside : first ≤ bytes.length) (skipped : skipTrivia bytes first = .ok last) :
    Trivia bytes first last := by
  fun_induction skipTrivia bytes first with
  | case1 start cursor line ih =>
      have spaces := advanceWhile_longest (p := isAsciiWhitespace) start inside
      have body := advanceWhile_longest (p := inLine) (cursor + 2) (part_some.mp line).2.1
      exact (Trivia.of_run spaces.toRun).append (.line line body (ih body.inside skipped))
  | case2 start cursor line block next closed ih =>
      have spaces := advanceWhile_longest (p := isAsciiWhitespace) start inside
      obtain ⟨close, body, rfl⟩ := closeComment_some.mp closed
      exact (Trivia.of_run spaces.toRun).append (.block block body (ih (part_some.mp body.closed).2.1 skipped))
  | case3 start cursor line block unclosed => cases skipped
  | case4 start cursor line block =>
      rw [← Except.ok.inj skipped]
      exact .of_run (advanceWhile_longest start inside).toRun

/-- Where the parser stops is settled. -/
theorem skipTrivia_settled (inside : first ≤ bytes.length) (skipped : skipTrivia bytes first = .ok last) : Settled bytes last := by
  fun_induction skipTrivia bytes first with
  | case1 start cursor line ih =>
      exact ih (advanceWhile_longest (p := inLine) (cursor + 2) (part_some.mp line).2.1).inside skipped
  | case2 start cursor line block next closed ih =>
      obtain ⟨close, body, rfl⟩ := closeComment_some.mp closed
      exact ih (part_some.mp body.closed).2.1 skipped
  | case3 start cursor line block unclosed => cases skipped
  | case4 start cursor line block =>
      rw [← Except.ok.inj skipped]
      exact ⟨(advanceWhile_longest start inside).stops, line, block⟩

theorem skipTrivia_space (here : bytes[first]? = some b) (space : isAsciiWhitespace b) :
    skipTrivia bytes first = skipTrivia bytes (first + 1) := by
  rw [skipTrivia, advanceWhile_in here space]
  conv_rhs => rw [skipTrivia]

/-- Whatever trivia the grammar allows before a token, the parser skips it. -/
theorem skipTrivia_complete (trivia : Trivia bytes first last) (settled : Settled bytes last) :
    skipTrivia bytes first = .ok last := by
  have spaceless {p : Nat} {c : UInt8} (here : bytes[p]? = some c) (slash : c = '/'.toUInt8) :
      advanceWhile bytes isAsciiWhitespace p = p :=
    advanceWhile_stop fun b there => by
      rw [here, Option.some.injEq] at there
      rw [← there, slash]
      rfl
  induction trivia with
  | done =>
      rw [skipTrivia, advanceWhile_stop settled.dark, dif_neg settled.line, dif_neg settled.block]
  | space here space _ ih => exact (skipTrivia_space here space).trans (ih settled)
  | line opened body _ ih =>
      rw [skipTrivia, spaceless (part_pair.mp opened).1 rfl, dif_pos opened, body.advanceWhile]
      exact ih settled
  | block opened body _ ih =>
      have closed := closeComment_some.mpr ⟨_, body, rfl⟩
      rw [skipTrivia, spaceless (part_pair.mp opened).1 rfl, dif_neg (by rw [opened]; decide), dif_pos opened]
      split
      · next next found =>
          cases closed.symm.trans found
          exact ih settled
      · next unclosed => cases closed.symm.trans unclosed

end

end AppPilotKit.Adapter.Apple.Listing
