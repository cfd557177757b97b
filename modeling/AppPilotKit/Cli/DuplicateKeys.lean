import AppPilotKit.Lib.Checks
import AppPilotKit.Lib.JsonSyntax

/-! # Duplicate names in a request

`check_no_duplicate_keys` runs over the bytes of a request beside the JSON parser and keeps the
names of the objects that are open. It refuses a text exactly when one of its objects has a name
twice.
-/

namespace AppPilotKit.Cli

open Wire JsonSyntax

/-- The one error of the check. -/
inductive PrepareError where
  | invalidInvocation
  deriving DecidableEq

/-! ## The scanner -/

structure Scope where
  isObject : Bool
  keys : List (List Char)
  expectingKey : Bool
  deriving DecidableEq

/-- What the loop carries. The innermost scope stands first. -/
structure Scan where
  stack : List Scope := []
  inString : Bool := false
  escape : Bool := false
  strStart : Nat := 0
  deriving DecidableEq

/-- `}` and `]` leave a scope; an object around it has got a value. -/
def popScope (stack : List Scope) : List Scope :=
  match stack.tail with
  | [] => []
  | parent :: others => (if parent.isObject then { parent with expectingKey := false } else parent) :: others

section
variable (fromSlice : Bytes → Option (List Char)) (input : Bytes)

/-- The end of a string at `i`. A string in the place of a name is read again as JSON. -/
def closeString (i : Nat) (s : Scan) : Except PrepareError Scan :=
  match s.stack with
  | [] => .ok { s with inString := false }
  | scope :: others =>
      if scope.isObject && scope.expectingKey then
        match fromSlice ((input.drop s.strStart).take (i + 1 - s.strStart)) with
        | none => .error .invalidInvocation
        | some key =>
            if scope.keys.contains key then .error .invalidInvocation
            else .ok { s with inString := false
                              stack := { scope with keys := key :: scope.keys, expectingKey := false } :: others }
      else .ok { s with inString := false }

/-- One byte outside a string. -/
def outside (i : Nat) (b : UInt8) (s : Scan) : Scan :=
  if b = quote then { s with inString := true, strStart := i }
  else if b = 0x7b then { s with stack := { isObject := true, keys := [], expectingKey := true } :: s.stack }
  else if b = 0x7d then { s with stack := popScope s.stack }
  else if b = 0x5b then { s with stack := { isObject := false, keys := [], expectingKey := false } :: s.stack }
  else if b = 0x5d then { s with stack := popScope s.stack }
  else if b = 0x2c then
    match s.stack with
    | [] => s
    | scope :: others => { s with stack := (if scope.isObject then { scope with expectingKey := true } else scope) :: others }
  else s

/-- One round of the loop. -/
def scanByte (i : Nat) (b : UInt8) (s : Scan) : Except PrepareError Scan :=
  if s.inString then
    if s.escape then .ok { s with escape := false }
    else if b = backslash then .ok { s with escape := true }
    else if b = quote then closeString fromSlice input i s
    else .ok s
  else .ok (outside i b s)

/-- The loop over the bytes from the index `i` on. -/
def scan : Nat → Bytes → Scan → Except PrepareError Scan
  | _, [], s => .ok s
  | i, b :: bytes, s => do scan (i + 1) bytes (← scanByte fromSlice input i b s)

def checkNoDuplicateKeys : Except PrepareError Unit := do
  let s ← scan fromSlice input 0 input {}
  if s.inString || !s.stack.isEmpty then .error .invalidInvocation
  else .ok ()

end

/-! ## Runs over parts of a text -/

/-- A run ends outside strings, on a stack that `after` holds of, or fails when something is not
    `good`. -/
def Ends (r : Except PrepareError Scan) (good : Prop) (after : List Scope → Prop) : Prop :=
  (good ∧ ∃ stack start, r = .ok { stack, inString := false, escape := false, strStart := start } ∧ after stack) ∨
    (¬ good ∧ r = .error .invalidInvocation)

/-- Outside strings, with a stack. -/
def resting (stack : List Scope) (start : Nat) : Scan := { stack, inString := false, escape := false, strStart := start }

section
variable {fromSlice : Bytes → Option (List Char)} {input : Bytes} {i start : Nat} {stack : List Scope} {s : Scan} {a b : Bytes}
  {good good' : Prop} {after after' : List Scope → Prop}

theorem scan_append : scan fromSlice input i (a ++ b) s =
    (scan fromSlice input i a s >>= fun s => scan fromSlice input (i + a.length) b s) := by
  induction a generalizing i s with
  | nil => rfl
  | cons byte a ih =>
      rw [List.cons_append, scan, scan]
      cases scanByte fromSlice input i byte s with
      | error e => rfl
      | ok s =>
          refine ih.trans ?_
          rw [List.length_cons, Nat.add_right_comm, Nat.add_assoc]
          rfl

theorem Ends.congr {r : Except PrepareError Scan} (ends : Ends r good after) (same : good ↔ good')
    (weaker : ∀ stack, after stack → after' stack) : Ends r good' after' := by
  rcases ends with ⟨held, stack, start, ran, there⟩ | ⟨failed, ran⟩
  · exact .inl ⟨same.mp held, stack, start, ran, weaker stack there⟩
  · exact .inr ⟨fun held => failed (same.mpr held), ran⟩

/-- One part after another, with what stands before them. -/
theorem Ends.then {front : Bytes} {stack' : List Scope} (first : Ends (scan fromSlice input front.length a s) good (· = stack'))
    (second : ∀ start, Ends (scan fromSlice input (front ++ a).length b (resting stack' start)) good' after') :
    Ends (scan fromSlice input front.length (a ++ b) s) (good ∧ good') after' := by
  rw [scan_append, ← List.length_append]
  rcases first with ⟨held, stack, start, ran, rfl⟩ | ⟨failed, ran⟩
  · rw [ran]
    rcases second start with ⟨held', ended⟩ | ⟨failed', ended⟩
    · exact .inl ⟨⟨held, held'⟩, ended⟩
    · exact .inr ⟨fun both => failed' both.2, ended⟩
  · rw [ran]
    exact .inr ⟨fun both => failed both.1, rfl⟩

/-- A first part that cannot fail. -/
theorem Ends.before {front : Bytes} {stack' : List Scope} (first : Ends (scan fromSlice input front.length a s) True (· = stack'))
    (second : ∀ start, Ends (scan fromSlice input (front ++ a).length b (resting stack' start)) good' after') :
    Ends (scan fromSlice input front.length (a ++ b) s) good' after' :=
  (first.then second).congr (by rw [true_and]) fun _ there => there

/-- A last part that cannot fail. -/
theorem Ends.closed {front : Bytes} {stack' : List Scope} (first : Ends (scan fromSlice input front.length a s) good (· = stack'))
    (second : ∀ start, Ends (scan fromSlice input (front ++ a).length b (resting stack' start)) True after') :
    Ends (scan fromSlice input front.length (a ++ b) s) good after' :=
  (first.then second).congr (by rw [and_true]) fun _ there => there

theorem scan_quiet {bytes : Bytes} (quiet : ∀ b ∈ bytes, quiet b) :
    scan fromSlice input i bytes (resting stack start) = .ok (resting stack start) := by
  induction bytes generalizing i with
  | nil => rfl
  | cons b bytes ih =>
      obtain ⟨⟨noQuote, h1, h2, h3, h4, h5⟩, rest⟩ := List.forall_mem_cons.mp quiet
      have step : scanByte fromSlice input i b (resting stack start) = .ok (resting stack start) := by
        simp [scanByte, resting, outside, noQuote, h1, h2, h3, h4, h5]
      rw [scan, step]
      exact ih rest

theorem ends_quiet {bytes : Bytes} (quiet : ∀ b ∈ bytes, quiet b) :
    Ends (scan fromSlice input i bytes (resting stack start)) True (· = stack) :=
  .inl ⟨trivial, stack, start, scan_quiet quiet, rfl⟩

/-- One byte outside strings that changes the stack. -/
theorem ends_byte {byte : UInt8} {stack' : List Scope}
    (changes : outside i byte (resting stack start) = resting stack' start) :
    Ends (scan fromSlice input i [byte] (resting stack start)) True (· = stack') := by
  refine .inl ⟨trivial, stack', start, ?_, rfl⟩
  rw [scan, scanByte, if_neg (by simp [resting]), changes]
  rfl

/-- Inside a string the scanner only waits for its end. -/
theorem scan_inside (inside : Inside a) :
    scan fromSlice input i a { stack, inString := true, escape := false, strStart := start } =
      .ok { stack, inString := true, escape := false, strStart := start } := by
  induction inside generalizing i with
  | nil => rfl
  | plain noQuote noBackslash _ ih =>
      rw [scan, scanByte]
      simp only [if_true, Bool.false_eq_true, if_false, if_neg noBackslash, if_neg noQuote]
      exact ih
  | escaped b _ ih =>
      rw [scan, scanByte]
      simp only [if_true, Bool.false_eq_true, if_false]
      refine Eq.trans ?_ (ih (i := i + 1 + 1))
      rfl

end

/-! ## Strings -/

section
variable {fromSlice : Bytes → Option (List Char)} {input front back : Bytes} {start : Nat} {stack others : List Scope}

/-- A string comes to its end as the slice of the input that it is. -/
theorem scan_literal (fromSlice : Bytes → Option (List Char)) (stack : List Scope) (start : Nat) (literal : JsonSyntax.Literal)
    (split : input = front ++ (literal.bytes ++ back)) :
    ∃ i, i + 1 - front.length = literal.bytes.length ∧ (input.drop front.length).take literal.bytes.length = literal.bytes ∧
      scan fromSlice input front.length literal.bytes (resting stack start) =
        closeString fromSlice input i { stack, inString := true, escape := false, strStart := front.length } := by
  refine ⟨front.length + 1 + literal.content.length, ?_, ?_, ?_⟩
  · rw [JsonSyntax.Literal.bytes, List.length_cons, List.length_append, List.length_singleton]
    omega
  · rw [split, List.drop_left, List.take_left]
  · have opened : scanByte fromSlice input front.length quote (resting stack start) =
        .ok { stack, inString := true, escape := false, strStart := front.length } := rfl
    rw [JsonSyntax.Literal.bytes, scan, opened]
    show scan fromSlice input (front.length + 1) (literal.content ++ [quote]) _ = _
    rw [scan_append, scan_inside (literal_inside literal)]
    show (closeString fromSlice input _ _ >>= fun s => Except.ok s) = _
    cases closeString fromSlice input (front.length + 1 + literal.content.length)
      { stack, inString := true, escape := false, strStart := front.length } with
    | error e => rfl
    | ok s => rfl

/-- The innermost scope does not wait for a name. -/
def Ready : List Scope → Prop
  | [] => True
  | scope :: _ => (scope.isObject && scope.expectingKey) = false

theorem ends_string (literal : JsonSyntax.Literal) (ready : Ready stack) (split : input = front ++ (literal.bytes ++ back)) :
    Ends (scan fromSlice input front.length literal.bytes (resting stack start)) True (· = stack) := by
  obtain ⟨i, -, -, ran⟩ := scan_literal fromSlice stack start literal split
  refine .inl ⟨trivial, stack, front.length, ?_, rfl⟩
  rw [ran, closeString]
  cases stack with
  | nil => rfl
  | cons scope others =>
      have waits : (scope.isObject && scope.expectingKey) = false := ready
      simp only [waits, Bool.false_eq_true, if_false]

/-- An object whose names so far are `keys`. -/
def objectScope (keys : List (List Char)) (expectingKey : Bool) : Scope := { isObject := true, keys, expectingKey }

/-- A string in the place of a name is a new name, or fails. -/
theorem ends_name (reads : ∀ literal : JsonSyntax.Literal, fromSlice literal.bytes = some literal.chars) (literal : JsonSyntax.Literal)
    (keys : List (List Char)) (split : input = front ++ (literal.bytes ++ back)) :
    Ends (scan fromSlice input front.length literal.bytes (resting (objectScope keys true :: others) start))
      (literal.chars ∉ keys) (· = objectScope (literal.chars :: keys) false :: others) := by
  obtain ⟨i, length, slice, ran⟩ :=
    scan_literal fromSlice (objectScope keys true :: others) start literal split
  rw [ran, closeString]
  simp only [objectScope, Bool.and_self, if_true, length, slice, reads]
  by_cases known : literal.chars ∈ keys
  · refine .inr ⟨not_not.mpr known, ?_⟩
    simp [known]
  · refine .inl ⟨known, _, front.length, ?_, rfl⟩
    simp [known]

theorem popScope_ready (scope : Scope) (ready : Ready stack) : popScope (scope :: stack) = stack := by
  cases stack with
  | nil => rfl
  | cons parent others =>
      have waits : (parent.isObject && parent.expectingKey) = false := ready
      obtain ⟨isObject, keys, expectingKey⟩ := parent
      cases isObject with
      | false => rfl
      | true =>
          have settled : expectingKey = false := by simpa using waits
          subst settled
          rfl

def arrayScope : Scope := { isObject := false, keys := [], expectingKey := false }

end

/-! ## Values -/

section
variable {fromSlice : Bytes → Option (List Char)} {input : Bytes}
  (reads : ∀ literal : JsonSyntax.Literal, fromSlice literal.bytes = some literal.chars)
include reads

mutual
/-- A value leaves the stack as it was, or has an object with a name twice. -/
theorem ends_value : ∀ (value : Value) (front back : Bytes) (stack : List Scope) (start : Nat), Ready stack →
    input = front ++ (value.bytes ++ back) →
    Ends (scan fromSlice input front.length value.bytes (resting stack start)) value.Distinct (· = stack)
  | .word word, front, back, stack, start, ready, split => ends_quiet (word_quiet word)
  | .string literal, front, back, stack, start, ready, split => ends_string literal ready split
  | .emptyArray gap, front, back, stack, start, ready, split =>
      Ends.before (a := [0x5b]) (ends_byte rfl) fun start => (ends_quiet gap.quiet).before fun start =>
        ends_byte (congrArg (resting · start) (popScope_ready arrayScope ready))
  | .array elements, front, back, stack, start, ready, split => by
      have inner : input = (front ++ [0x5b]) ++ (elements.bytes ++ ([0x5d] ++ back)) := by simp [split, Value.bytes]
      refine Ends.before (a := [0x5b]) (ends_byte rfl) fun start => ?_
      refine (ends_elements elements (front ++ [0x5b]) ([0x5d] ++ back) stack start inner).closed fun start => ?_
      exact ends_byte (congrArg (resting · start) (popScope_ready arrayScope ready))
  | .emptyObject gap, front, back, stack, start, ready, split =>
      Ends.before (a := [0x7b]) (ends_byte rfl) fun start => (ends_quiet gap.quiet).before fun start =>
        ends_byte (congrArg (resting · start) (popScope_ready (objectScope [] true) ready))
  | .object members, front, back, stack, start, ready, split => by
      have inner : input = (front ++ [0x7b]) ++ (members.bytes ++ ([0x7d] ++ back)) := by simp [split, Value.bytes]
      refine Ends.before (a := [0x7b]) (ends_byte rfl) fun start => ?_
      have open_ := ends_members members (front ++ [0x7b]) ([0x7d] ++ back) stack start [] inner
      refine (open_.congr ?_ fun _ there => there).closed fun start => ?_
      · simp [Value.Distinct]
      · exact ends_byte (congrArg (resting · start) (popScope_ready (objectScope _ false) ready))

theorem ends_elements : ∀ (elements : Elements) (front back : Bytes) (stack : List Scope) (start : Nat),
    input = front ++ (elements.bytes ++ back) →
    Ends (scan fromSlice input front.length elements.bytes (resting (arrayScope :: stack) start)) elements.Distinct
      (· = arrayScope :: stack)
  | .last before value after, front, back, stack, start, split => by
      have inner : input = (front ++ before.bytes) ++ (value.bytes ++ (after.bytes ++ back)) := by simp [split, Elements.bytes]
      refine (ends_quiet before.quiet).before fun start => ?_
      exact (ends_value value _ _ (arrayScope :: stack) start rfl inner).closed fun start => ends_quiet after.quiet
  | .more before value after others, front, back, stack, start, split => by
      have inner : input = (front ++ before.bytes) ++ (value.bytes ++ (after.bytes ++ ([0x2c] ++ (others.bytes ++ back)))) := by
        simp [split, Elements.bytes]
      have outer : input = (front ++ before.bytes ++ value.bytes ++ after.bytes ++ [0x2c]) ++ (others.bytes ++ back) := by
        simp [split, Elements.bytes]
      refine (ends_quiet before.quiet).before fun start => ?_
      refine (ends_value value _ _ (arrayScope :: stack) start rfl inner).then fun start => ?_
      refine (ends_quiet after.quiet).before fun start => ?_
      refine Ends.before (a := [0x2c]) (ends_byte rfl) fun start => ?_
      exact ends_elements others _ _ stack start outer

theorem ends_members : ∀ (members : Members) (front back : Bytes) (stack : List Scope) (start : Nat) (keys : List (List Char)),
    input = front ++ (members.bytes ++ back) →
    Ends (scan fromSlice input front.length members.bytes (resting (objectScope keys true :: stack) start))
      ((members.names.Nodup ∧ ∀ name ∈ members.names, name ∉ keys) ∧ members.Distinct)
      (· = objectScope (members.names.reverse ++ keys) false :: stack)
  | .last before name gap before' value after, front, back, stack, start, keys, split => by
      have named : input = (front ++ before.bytes) ++ (name.bytes ++ (gap.bytes ++ ([0x3a] ++ (before'.bytes ++ (value.bytes ++
          (after.bytes ++ back)))))) := by simp [split, Members.bytes]
      have inner : input = (front ++ before.bytes ++ name.bytes ++ gap.bytes ++ [0x3a] ++ before'.bytes) ++
          (value.bytes ++ (after.bytes ++ back)) := by simp [split, Members.bytes]
      have parts : Ends (scan fromSlice input front.length (Members.last before name gap before' value after).bytes
          (resting (objectScope keys true :: stack) start)) (name.chars ∉ keys ∧ value.Distinct)
          (· = objectScope (name.chars :: keys) false :: stack) := by
        refine (ends_quiet before.quiet).before fun start => ?_
        refine (ends_name reads name keys named).then fun start => ?_
        refine (ends_quiet gap.quiet).before fun start => ?_
        refine Ends.before (a := [0x3a]) (ends_byte rfl) fun start => ?_
        refine (ends_quiet before'.quiet).before fun start => ?_
        exact (ends_value value _ _ (objectScope (name.chars :: keys) false :: stack) start rfl inner).closed fun start =>
          ends_quiet after.quiet
      refine parts.congr ?_ fun _ there => there
      simp [Members.names, Members.Distinct]
  | .more before name gap before' value after others, front, back, stack, start, keys, split => by
      have named : input = (front ++ before.bytes) ++ (name.bytes ++ (gap.bytes ++ ([0x3a] ++ (before'.bytes ++ (value.bytes ++
          (after.bytes ++ ([0x2c] ++ (others.bytes ++ back)))))))) := by simp [split, Members.bytes]
      have inner : input = (front ++ before.bytes ++ name.bytes ++ gap.bytes ++ [0x3a] ++ before'.bytes) ++
          (value.bytes ++ (after.bytes ++ ([0x2c] ++ (others.bytes ++ back)))) := by simp [split, Members.bytes]
      have outer : input = (front ++ before.bytes ++ name.bytes ++ gap.bytes ++ [0x3a] ++ before'.bytes ++ value.bytes ++
          after.bytes ++ [0x2c]) ++ (others.bytes ++ back) := by simp [split, Members.bytes]
      have parts : Ends (scan fromSlice input front.length (Members.more before name gap before' value after others).bytes
          (resting (objectScope keys true :: stack) start))
          (name.chars ∉ keys ∧ value.Distinct ∧
            (others.names.Nodup ∧ ∀ other ∈ others.names, other ∉ name.chars :: keys) ∧ others.Distinct)
          (· = objectScope (others.names.reverse ++ name.chars :: keys) false :: stack) := by
        refine (ends_quiet before.quiet).before fun start => ?_
        refine (ends_name reads name keys named).then fun start => ?_
        refine (ends_quiet gap.quiet).before fun start => ?_
        refine Ends.before (a := [0x3a]) (ends_byte rfl) fun start => ?_
        refine (ends_quiet before'.quiet).before fun start => ?_
        refine (ends_value value _ _ (objectScope (name.chars :: keys) false :: stack) start rfl inner).then fun start => ?_
        refine (ends_quiet after.quiet).before fun start => ?_
        refine Ends.before (a := [0x2c]) (ends_byte rfl) fun start => ?_
        exact ends_members others _ _ stack start (name.chars :: keys) outer
      refine parts.congr ?_ fun stack' there => ?_
      · simp only [Members.names, Members.Distinct, List.nodup_cons, List.mem_cons, not_or, forall_eq_or_imp]
        constructor
        · rintro ⟨fresh, distinct, ⟨nodup, apart⟩, others⟩
          exact ⟨⟨⟨fun again => (apart _ again).1 rfl, nodup⟩, fresh, fun other member => (apart other member).2⟩, distinct, others⟩
        · rintro ⟨⟨⟨first, nodup⟩, fresh, clear⟩, distinct, others⟩
          refine ⟨fresh, distinct, ⟨nodup, fun other member => ⟨?_, clear other member⟩⟩, others⟩
          rintro rfl
          exact first member
      · rw [there, Members.names, List.reverse_cons, List.append_assoc]
        rfl
end

end

/-- A JSON text passes exactly when the names in each of its objects differ, as they read without
    escapes. Strings are read back as `serde_json` reads a slice. -/
theorem checkNoDuplicateKeys_ok (fromSlice : Bytes → Option (List Char))
    (reads : ∀ literal : JsonSyntax.Literal, fromSlice literal.bytes = some literal.chars) (text : Text) :
    checkNoDuplicateKeys fromSlice text.bytes = .ok () ↔ text.value.Distinct := by
  have inner : text.bytes = ([] ++ text.before.bytes) ++ (text.value.bytes ++ (text.after.bytes ++ [])) := by simp [Text.bytes]
  have whole : Ends (scan fromSlice text.bytes 0 text.bytes {}) text.value.Distinct (· = []) := by
    show Ends (scan fromSlice text.bytes ([] : Bytes).length text.bytes {}) _ _
    refine Ends.before (ends_quiet text.before.quiet) fun start => ?_
    exact (ends_value reads text.value _ _ [] start trivial inner).closed fun start => ends_quiet text.after.quiet
  unfold checkNoDuplicateKeys
  rcases whole with ⟨distinct, stack, start, ran, rfl⟩ | ⟨twice, ran⟩
  · rw [ran]
    exact ⟨fun _ => distinct, fun _ => rfl⟩
  · rw [ran]
    exact ⟨nofun, fun distinct => absurd distinct twice⟩

def noSpace : Space := ⟨[], nofun⟩

/-- The digits of the escape are numerals of `Fin 16`. -/
local instance sixteen_neZero : NeZero 16 := ⟨by decide⟩

/-- An object with a name and an escape of the same name. -/
def spelledTwice : Text :=
  let a : JsonSyntax.Literal := [.plain 'a' (by decide) (by decide) (by decide)]
  let escaped : JsonSyntax.Literal := [.unicode ⟨⟨0, false⟩, ⟨0, false⟩, ⟨6, false⟩, ⟨1, false⟩⟩ (by decide) (by decide)]
  { before := noSpace, after := noSpace
    value := .object (.more noSpace a noSpace noSpace (.string a) noSpace
      (.last noSpace escaped noSpace noSpace (.word .null) noSpace)) }

theorem checkNoDuplicateKeys_ok_spelledTwice :
    (∀ literal : JsonSyntax.Literal, readLiteral literal.bytes = some literal.chars) ∧
      checkNoDuplicateKeys readLiteral [0x7b, 0x22, 0x61, 0x22, 0x3a, 0x22, 0x61, 0x22, 0x2c,
        0x22, 0x5c, 0x75, 0x30, 0x30, 0x36, 0x31, 0x22, 0x3a, 0x6e, 0x75, 0x6c, 0x6c, 0x7d] ≠ .ok () := by
  refine ⟨readLiteral_bytes, fun passed => ?_⟩
  have same : spelledTwice.bytes = [0x7b, 0x22, 0x61, 0x22, 0x3a, 0x22, 0x61, 0x22, 0x2c,
        0x22, 0x5c, 0x75, 0x30, 0x30, 0x36, 0x31, 0x22, 0x3a, 0x6e, 0x75, 0x6c, 0x6c, 0x7d] := rfl
  have distinct := (checkNoDuplicateKeys_ok readLiteral readLiteral_bytes spelledTwice).mp (same ▸ passed)
  have names : [['a'], ['a']].Nodup := distinct.1
  exact absurd names (by decide)

end AppPilotKit.Cli
